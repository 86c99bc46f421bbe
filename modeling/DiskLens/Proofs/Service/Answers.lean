import DiskLens.Proofs.Json.Printed
import DiskLens.Proofs.Outline.Trees
import DiskLens.Proofs.Text.Lines
import DiskLens.Service.Session
import Mathlib.Algebra.Group.Nat.Defs

/-!
# Answers can be read back

Every answer of a service is a value that comes back from its text. Those for an outline have
numbers in them, of lines and of characters, which are no longer than the document.

* `completionBody_writable`, `hoverBody_writable`, `Parameter.record_writable`: answers of texts.
* `Symbol.record_writable`: a symbol over symbols that come back.
* **`outlineNamed_writable`**: the outline of a document that is not too long.
-/

namespace DiskLens

/-! ## Answers of texts -/

theorem Suggestion.record_writable (s : Suggestion) : s.record.Writable 1 := by
  refine .obj (by simp) ?_
  simp only [List.forall_mem_cons]
  exact ⟨.str _, .str _, .str _, .str _, by simp⟩

theorem completionBody_writable (s : Situation) (items : List Suggestion) :
    (completionBody s items).Writable 3 := by
  have hitems : ∀ j ∈ items.map Suggestion.record, Json.Writable 1 j := by
    intro j hj
    obtain ⟨item, -, rfl⟩ := List.mem_map.mp hj
    exact item.record_writable
  refine .obj (by simp) ?_
  simp only [List.forall_mem_cons]
  exact ⟨.str _, .arr hitems, by simp⟩

theorem hoverBody_writable (text : Option String) : (hoverBody text).Writable 2 := by
  have hrecord : (hoverRecord text).Writable 1 := by
    cases text with
    | none => exact .null
    | some text => exact .obj (by simp) (by simpa using .str text)
  exact .obj (by simp) (by simpa using hrecord)

theorem Parameter.record_writable (p : Parameter) : p.record.Writable 2 := by
  have hpages : ∀ j ∈ p.wiki.map JsonOf.str, Json.Writable 0 j := by
    intro j hj
    obtain ⟨page, -, rfl⟩ := List.mem_map.mp hj
    exact .str page
  refine .obj (by simp) ?_
  simp only [List.forall_mem_cons]
  exact ⟨.str _, .str _, .str _, .str _, .str _, .arr hpages, by simp⟩

/-! ## Symbols -/

/-- The coordinates of a range are less than a bound. -/
structure Range.Within (bound : Nat) (r : Range) : Prop where
  start_line : r.start.line < bound
  start_character : r.start.character < bound
  stop_line : r.stop.line < bound
  stop_character : r.stop.character < bound

theorem Position.record_writable {p : Position} (hline : p.line < 10 ^ maxDigits)
    (hcharacter : p.character < 10 ^ maxDigits) : p.record.Writable 1 := by
  have hnat : ∀ n : Nat, n < 10 ^ maxDigits → Json.Writable 0 (.int n) := by
    intro n hn
    exact .nat ((Nat.length_toDigits_le_iff (by decide) (by decide)).mpr hn)
  refine .obj (by simp) ?_
  simp only [List.forall_mem_cons]
  exact ⟨hnat _ hline, hnat _ hcharacter, by simp⟩

theorem Range.record_writable {r : Range} (h : r.Within (10 ^ maxDigits)) :
    r.record.Writable 2 := by
  refine .obj (by simp) ?_
  simp only [List.forall_mem_cons]
  exact ⟨Position.record_writable h.start_line h.start_character,
    Position.record_writable h.stop_line h.stop_character, by simp⟩

namespace Symbol

theorem records_eq_map (symbols : List Symbol) : records symbols = symbols.map record := by
  induction symbols with
  | nil => rfl
  | cons s symbols ih => rw [records, ih, List.map_cons]

/-- **A symbol over symbols that come back** comes back. -/
theorem record_writable {s : Symbol} {depth : Nat} (hrange : s.range.Within (10 ^ maxDigits))
    (hchildren : ∀ child ∈ s.children, child.record.Writable (depth + 1)) :
    s.record.Writable (depth + 3) := by
  obtain ⟨title, detail, kind, range, children⟩ := s
  have hrecords : ∀ j ∈ records children, Json.Writable (depth + 1) j := by
    intro j hj
    rw [records_eq_map] at hj
    obtain ⟨child, hchild, rfl⟩ := List.mem_map.mp hj
    exact hchildren child hchild
  rw [record]
  refine .obj (by simp) ?_
  simp only [List.forall_mem_cons]
  exact ⟨.str _, .str _, .str _, (Range.record_writable hrange).mono (by omega), .arr hrecords,
    by simp⟩

theorem record_writable_of_leaf {s : Symbol} (hrange : s.range.Within (10 ^ maxDigits))
    (hleaf : s.children = []) : s.record.Writable 3 :=
  record_writable hrange (by simp [hleaf])

theorem Covers.within {lines : List (List Char)} {s : Symbol} (h : s.Covers lines) {bound : Nat}
    (hcount : lines.length ≤ bound) (hlength : ∀ l ∈ lines, l.length < bound) :
    s.range.Within bound := by
  obtain ⟨i, text, hi, hrange⟩ := h
  have hline : i < bound := Nat.lt_of_lt_of_le (List.getElem?_eq_some_iff.mp hi).1 hcount
  rw [hrange]
  exact ⟨hline, Nat.zero_lt_of_lt hline, hline, hlength text (List.mem_of_getElem? hi)⟩

theorem mem_allNodes_of_mem_children {s t : Symbol} {forest : List Symbol} (hs : s ∈ forest)
    (ht : t ∈ s.children) : t ∈ allNodes forest := by
  obtain ⟨l₁, l₂, rfl⟩ := List.append_of_mem hs
  simp [allNodes_append, allNodes_cons, mem_allNodes_of_mem ht]

end Symbol

/-! ## Outlines -/

/-- The symbols of a well-formed outline come back. -/
theorem OutlineTree.record_writable {type : ContentType} {lines : List (List Char)}
    {symbols : List Symbol} (h : OutlineTree type lines symbols)
    (hcount : lines.length ≤ 10 ^ maxDigits) (hlength : ∀ l ∈ lines, l.length < 10 ^ maxDigits) :
    ∀ s ∈ symbols, s.record.Writable 7 := by
  have hwithin : ∀ s ∈ Symbol.allNodes (type.topGroups symbols).flatten,
      s.range.Within (10 ^ maxDigits) := fun s hs => (h.overLines.covers s hs).within hcount hlength
  have hshape := h.shape
  cases type with
  | parameters =>
    intro s hs
    have hnode : s ∈ Symbol.allNodes (ContentType.parameters.topGroups symbols).flatten :=
      Symbol.mem_allNodes_of_mem (by simpa [ContentType.topGroups] using hs)
    exact (Symbol.record_writable_of_leaf (hwithin s hnode) (hshape s hs).2).mono (by decide)
  | log =>
    obtain ⟨phases, stages, rfl, hstages, hphases⟩ := hshape
    have hforest : (ContentType.log.topGroups (ScanState.root phases :: stages)).flatten =
        phases ++ stages := by
      simp [ContentType.topGroups, ScanState.root]
    rw [hforest] at hwithin
    -- systems below phases below the root, and stages beside it
    have hphase : ∀ phase ∈ phases, phase.record.Writable 5 := by
      intro phase hmem
      have hmem' : phase ∈ phases ++ stages := List.mem_append_left _ hmem
      refine Symbol.record_writable (hwithin phase (Symbol.mem_allNodes_of_mem hmem'))
        fun s hs => ?_
      exact Symbol.record_writable_of_leaf
        (hwithin s (Symbol.mem_allNodes_of_mem_children hmem' hs)) ((hphases phase hmem).2 s hs).2
    intro s hs
    rcases List.mem_cons.mp hs with rfl | hs
    · have hpos : 0 < 10 ^ maxDigits := Nat.pow_pos (by decide)
      exact Symbol.record_writable ⟨hpos, hpos, hpos, hpos⟩ hphase
    · have hnode : s ∈ Symbol.allNodes (phases ++ stages) :=
        Symbol.mem_allNodes_of_mem (List.mem_append_right _ hs)
      exact (Symbol.record_writable_of_leaf (hwithin s hnode) (hstages s hs).2).mono (by decide)

/-- **The outline of a document that is not too long** can be read back. -/
theorem outlineNamed_writable {text : String} {type : ContentType} {symbols : List Symbol}
    (h : outlineNamed text type.name none = .ok symbols) (hlength : text.length < 10 ^ maxDigits) :
    ∀ s ∈ symbols, s.record.Writable 7 := by
  obtain ⟨symbols', hsymbols, htree, -⟩ := outlineNamed_tree text type none
  obtain rfl := Except.ok.inj (h.symm.trans hsymbols)
  have hchars : text.toList.length < 10 ^ maxDigits := by rwa [String.length_toList]
  refine (htree (CancelToken.outlasts_none _)).record_writable ?_ fun l hl => ?_
  · exact Nat.le_trans (length_splitLines_le _) hchars
  · exact Nat.lt_of_le_of_lt (length_le_of_mem_splitLines hl) hchars

theorem outlineEntries_writable {symbols : List Symbol}
    (h : ∀ s ∈ symbols, s.record.Writable 7) (type file : String) :
    Json.Writable 9 (.obj (("file", .str file) :: outlineEntries type symbols)) := by
  have hrecords : ∀ j ∈ symbols.map Symbol.record, Json.Writable 7 j := by
    intro j hj
    obtain ⟨s, hs, rfl⟩ := List.mem_map.mp hj
    exact h s hs
  refine .obj (by simp [outlineEntries]) ?_
  simp only [outlineEntries, List.forall_mem_cons]
  exact ⟨.str _, .str _, .arr hrecords, by simp⟩

end DiskLens
