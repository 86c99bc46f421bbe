import DiskLens.Outline.ContentType
import DiskLens.Proofs.Text.Lines

/-!
# Carriage returns at the ends of lines

A document may have any number of carriage returns in front of its line feeds and at its end. They
belong to no line, so neither the lines nor the outline of the document show them; a carriage return
anywhere else is part of a line.

* **`addReturns`**: a text with more carriage returns at the ends of its lines.
* `toCrLf`: a text with CR LF at the ends of its lines.
* `splitLines_addReturns`: the lines stay; `exists_addReturns`: a text is made of its lines.
* `outline_congr`: an outline is told by the lines of the document.
* **`outline_addReturns`**: these carriage returns make no difference, and no others do so.
-/

namespace DiskLens

/-- **The text with more carriage returns**, `count i` of them at the end of line `i`. -/
def addReturns (count : Nat → Nat) : List Char → List Char
  | [] => List.replicate (count 0) '\r'
  | c :: s =>
    if c = '\n' then List.replicate (count 0) '\r' ++ '\n' :: addReturns (fun i => count (i + 1)) s
    else c :: addReturns count s

/-- The text with CR LF for every line feed. -/
def toCrLf (s : List Char) : List Char := s.flatMap fun c => if c = '\n' then ['\r', '\n'] else [c]

theorem addReturns_cons_lineFeed (count : Nat → Nat) (s : List Char) :
    addReturns count ('\n' :: s) =
      List.replicate (count 0) '\r' ++ '\n' :: addReturns (fun i => count (i + 1)) s := by
  rw [addReturns, if_pos rfl]

theorem addReturns_append {l : List Char} (hl : '\n' ∉ l) (count : Nat → Nat) (s : List Char) :
    addReturns count (l ++ s) = l ++ addReturns count s := by
  induction l with
  | nil => rfl
  | cons c l ih =>
    rw [List.mem_cons, not_or] at hl
    rw [List.cons_append, addReturns, if_neg (Ne.symm hl.1), ih hl.2, List.cons_append]

/-! ## Lines of a text with more carriage returns -/

theorem splitLines_replicate (n : Nat) : splitLines (List.replicate n '\r') = [[]] := by
  have hfeed : '\n' ∉ List.replicate n '\r' := fun h => by
    cases List.eq_of_mem_replicate h
  rw [splitLines_of_notMem hfeed]
  simp [dropTail]

theorem splitLines_addReturns (count : Nat → Nat) (s : List Char) :
    splitLines (addReturns count s) = splitLines s := by
  induction s generalizing count with
  | nil => exact splitLines_replicate (count 0)
  | cons c s ih =>
    by_cases hc : c = '\n'
    · subst hc
      rw [addReturns_cons_lineFeed, splitLines_append, splitLines_replicate, ih,
        splitLines_cons_lineFeed]
      rfl
    · rw [addReturns, if_neg hc]
      exact splitLines_cons_congr c (ih count)

/-- CR LF for every line feed is one carriage return at the end of every line but the last. -/
theorem toCrLf_eq (s : List Char) :
    toCrLf s = addReturns (fun i => if i < s.count '\n' then 1 else 0) s := by
  induction s with
  | nil => rfl
  | cons c s ih =>
    by_cases hc : c = '\n'
    · subst hc
      simp [addReturns_cons_lineFeed, toCrLf, ← ih]
    · simp [addReturns, toCrLf, ← ih, hc]

/-! ## Texts with the same lines -/

/-- **A text is made of its lines**, joined by line feeds, and of carriage returns at their ends. -/
theorem exists_addReturns (s : List Char) :
    ∃ count, s = addReturns count (['\n'].intercalate (splitLines s)) := by
  by_cases hs : '\n' ∈ s
  · obtain ⟨l, t, rfl, hl⟩ := List.eq_append_cons_of_mem hs
    obtain ⟨n, hn⟩ := exists_dropTail_append '\r' l
    obtain ⟨count, ht⟩ := exists_addReturns t
    have hbare : '\n' ∉ dropTail (· == '\r') l := fun h => hl (hn ▸ List.mem_append_left _ h)
    -- the first line has its own returns, and those of the others are counted one line further
    refine ⟨fun i => Nat.casesOn i n count, ?_⟩
    rw [splitLines_append, splitLines_of_notMem hl, List.singleton_append,
      List.intercalate_cons_of_ne_nil (splitLines_ne_nil t), List.append_assoc,
      addReturns_append hbare, List.singleton_append, addReturns_cons_lineFeed, ← ht,
      ← List.append_assoc]
    exact congrArg (· ++ '\n' :: t) hn
  · obtain ⟨n, hn⟩ := exists_dropTail_append '\r' s
    have hbare : '\n' ∉ dropTail (· == '\r') s := fun h => hs (hn ▸ List.mem_append_left _ h)
    refine ⟨fun _ => n, ?_⟩
    have hjoin : ['\n'].intercalate (splitLines s) = dropTail (· == '\r') s ++ [] := by
      simp [splitLines_of_notMem hs, List.intercalate]
    rw [hjoin, addReturns_append hbare]
    exact hn
termination_by s.length

theorem splitLines_eq_iff (s t : List Char) :
    splitLines s = splitLines t ↔
      ∃ bare m n, s = addReturns m bare ∧ t = addReturns n bare := by
  constructor
  · intro h
    obtain ⟨m, hs⟩ := exists_addReturns s
    obtain ⟨n, ht⟩ := exists_addReturns t
    rw [h] at hs
    exact ⟨_, m, n, hs, ht⟩
  · rintro ⟨bare, m, n, rfl, rfl⟩
    rw [splitLines_addReturns, splitLines_addReturns]

/-! ## Outlines -/

theorem outline_congr {s t : String} (h : splitLines s.toList = splitLines t.toList)
    (type : ContentType) (token : Option CancelToken) :
    outline s type token = outline t type token := by
  cases type <;>
    simp only [outline, parameterOutline, parameterScan, logOutline, logScan, h]

theorem outlineNamed_congr {s t : String} (h : splitLines s.toList = splitLines t.toList)
    (name : String) (token : Option CancelToken) :
    outlineNamed s name token = outlineNamed t name token := by
  unfold outlineNamed
  simp only [outline_congr h]

/-- **Carriage returns at the ends of lines make no difference** to the lines of a document and to
its outline, whatever the content type and the token; so a document may have CR LF for every line
feed. No other carriage returns do so: two documents have the same lines only if both are one text
with carriage returns at the ends of its lines. -/
theorem outline_addReturns (text name : String) (count : Nat → Nat) (token : Option CancelToken) :
    let returned := String.ofList (addReturns count text.toList)
    let crLf := String.ofList (toCrLf text.toList)
    (splitLines returned.toList = splitLines text.toList ∧
      outlineNamed returned name token = outlineNamed text name token) ∧
    (splitLines crLf.toList = splitLines text.toList ∧
      outlineNamed crLf name token = outlineNamed text name token) ∧
    ∀ other : String, splitLines other.toList = splitLines text.toList ↔
      ∃ bare m n, other.toList = addReturns m bare ∧ text.toList = addReturns n bare := by
  intro returned crLf
  have hreturned : splitLines returned.toList = splitLines text.toList := by
    rw [String.toList_ofList, splitLines_addReturns]
  have hcrLf : splitLines crLf.toList = splitLines text.toList := by
    rw [String.toList_ofList, toCrLf_eq, splitLines_addReturns]
  refine ⟨⟨hreturned, outlineNamed_congr hreturned name token⟩, ?_, ?_⟩
  · exact ⟨hcrLf, outlineNamed_congr hcrLf name token⟩
  · exact fun other => splitLines_eq_iff other.toList text.toList

end DiskLens
