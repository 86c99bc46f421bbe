import DiskLens.Text.Lines

/-!
# Lines of joined and of unified documents

The lines of two documents joined by a line feed are those of the one and then those of the other.
Unifying the ends of lines keeps them, unless a carriage return stands alone.

* `pieces_append`: the parts of a text around one of its separators.
* **`splitLines_append`**: the lines of two documents that are joined.
* `length_splitLines_le`, `length_le_of_mem_splitLines`: how many and how long lines can be.
* **`splitLines_unifyLineEnds`**: the lines of a document with unified line ends.
-/

namespace DiskLens

theorem pieces_ne_nil (sep : Char) (s : List Char) : pieces sep s ≠ [] := by
  cases s with
  | nil => simp [pieces]
  | cons c s =>
    unfold pieces
    split
    · simp
    · split <;> simp

theorem pieces_cons_self (sep : Char) (s : List Char) :
    pieces sep (sep :: s) = [] :: pieces sep s := by
  rw [pieces, if_pos rfl]

/-- A character that is no separator joins the first part. -/
theorem pieces_cons_of_ne {sep c : Char} (hc : c ≠ sep) {s p : List Char} {ps : List (List Char)}
    (h : pieces sep s = p :: ps) : pieces sep (c :: s) = (c :: p) :: ps := by
  simp only [pieces, if_neg hc, h]

theorem pieces_append (sep : Char) (s t : List Char) :
    pieces sep (s ++ sep :: t) = pieces sep s ++ pieces sep t := by
  induction s with
  | nil => exact pieces_cons_self sep t
  | cons c s ih =>
    rw [List.cons_append]
    by_cases hc : c = sep
    · rw [hc, pieces_cons_self, pieces_cons_self, ih, List.cons_append]
    · obtain ⟨p, ps, hp⟩ := List.exists_cons_of_ne_nil (pieces_ne_nil sep s)
      rw [hp, List.cons_append] at ih
      rw [pieces_cons_of_ne hc ih, pieces_cons_of_ne hc hp, List.cons_append]

theorem pieces_of_notMem {sep : Char} {s : List Char} (h : sep ∉ s) : pieces sep s = [s] := by
  induction s with
  | nil => rfl
  | cons c s ih =>
    rw [List.mem_cons, not_or] at h
    exact pieces_cons_of_ne (Ne.symm h.1) (ih h.2)

/-! ## Lengths -/

theorem length_pieces_le (sep : Char) (s : List Char) : (pieces sep s).length ≤ s.length + 1 := by
  induction s with
  | nil => simp [pieces]
  | cons c s ih =>
    by_cases hc : c = sep
    · rw [hc, pieces_cons_self, List.length_cons, List.length_cons]
      omega
    · obtain ⟨p, ps, hp⟩ := List.exists_cons_of_ne_nil (pieces_ne_nil sep s)
      rw [hp] at ih
      rw [pieces_cons_of_ne hc hp]
      simp only [List.length_cons] at ih ⊢
      omega

theorem length_le_of_mem_pieces {sep : Char} {s p : List Char} (h : p ∈ pieces sep s) :
    p.length ≤ s.length := by
  induction s generalizing p with
  | nil => simp [List.mem_singleton.mp h]
  | cons c s ih =>
    rw [List.length_cons]
    by_cases hc : c = sep
    · rw [hc, pieces_cons_self] at h
      rcases List.mem_cons.mp h with rfl | h
      · exact Nat.zero_le _
      · exact Nat.le_succ_of_le (ih h)
    · obtain ⟨q, ps, hq⟩ := List.exists_cons_of_ne_nil (pieces_ne_nil sep s)
      rw [hq] at ih
      rw [pieces_cons_of_ne hc hq] at h
      rcases List.mem_cons.mp h with rfl | h
      · exact Nat.succ_le_succ (ih List.mem_cons_self)
      · exact Nat.le_succ_of_le (ih (List.mem_cons_of_mem q h))

theorem length_splitLines_le (s : List Char) : (splitLines s).length ≤ s.length + 1 := by
  rw [splitLines, List.length_map]
  exact length_pieces_le '\n' s

theorem length_le_of_mem_splitLines {s l : List Char} (h : l ∈ splitLines s) :
    l.length ≤ s.length := by
  obtain ⟨p, hp, rfl⟩ := List.mem_map.mp h
  have hdrop : (dropTail (· == '\r') p).length ≤ p.length := by
    simpa [dropTail] using (List.dropWhile_sublist (· == '\r') (l := p.reverse)).length_le
  exact Nat.le_trans hdrop (length_le_of_mem_pieces hp)

theorem length_unifyLineEnds_le (s : List Char) : (unifyLineEnds s).length ≤ s.length := by
  induction s using unifyLineEnds.induct with
  | case1 => simp [unifyLineEnds]
  | case2 cs ih =>
    rw [unifyLineEnds]
    simp only [List.length_cons]
    omega
  | case3 c cs hc ih =>
    rw [unifyLineEnds.eq_3 _ _ hc]
    simp only [List.length_cons]
    omega

/-! ## Joined documents -/

/-- **The lines of two documents that are joined by a line feed.** -/
theorem splitLines_append (s t : List Char) :
    splitLines (s ++ '\n' :: t) = splitLines s ++ splitLines t := by
  simp only [splitLines, pieces_append, List.map_append]

/-! ## Line ends -/

/-- A character stays in front of what stays, and is dropped at the end only if all behind it is. -/
theorem dropTail_cons (p : Char → Bool) (c : Char) (s : List Char) :
    dropTail p (c :: s) = if p c ∧ dropTail p s = [] then [] else c :: dropTail p s := by
  unfold dropTail
  rw [List.reverse_cons, List.dropWhile_append]
  by_cases hs : (s.reverse.dropWhile p).isEmpty
  · rw [if_pos hs, List.isEmpty_iff.mp hs]
    by_cases hc : p c <;> simp [hc]
  · rw [if_neg hs]
    simp [mt List.isEmpty_iff.mpr hs]

/-- What is dropped at the end of a text are copies of the one character that is dropped. -/
theorem exists_dropTail_append (c : Char) (s : List Char) :
    ∃ n, s = dropTail (· == c) s ++ List.replicate n c := by
  have htail : ∀ b ∈ s.reverse.takeWhile (· == c), b = c := fun b hb => by
    simpa using List.all_eq_true.mp List.all_takeWhile b hb
  refine ⟨(s.reverse.takeWhile (· == c)).length, ?_⟩
  rw [dropTail, ← List.reverse_replicate, ← List.eq_replicate_of_mem htail, ← List.reverse_append,
    List.takeWhile_append_dropWhile, List.reverse_reverse]

theorem splitLines_of_notMem {s : List Char} (h : '\n' ∉ s) :
    splitLines s = [dropTail (· == '\r') s] := by
  rw [splitLines, pieces_of_notMem h, List.map_singleton]

theorem splitLines_ne_nil (s : List Char) : splitLines s ≠ [] :=
  mt List.map_eq_nil_iff.mp (pieces_ne_nil '\n' s)

theorem splitLines_cons_lineFeed (s : List Char) : splitLines ('\n' :: s) = [] :: splitLines s := by
  rw [splitLines, pieces_cons_self]
  rfl

theorem splitLines_cons_lineEnd (s : List Char) :
    splitLines ('\r' :: '\n' :: s) = [] :: splitLines s := by
  rw [splitLines, pieces_cons_of_ne (by decide) (pieces_cons_self '\n' s)]
  rfl

/-- Two texts have the same lines with a character before them, if they have the same without it. -/
theorem splitLines_cons_congr (c : Char) {s t : List Char} (h : splitLines s = splitLines t) :
    splitLines (c :: s) = splitLines (c :: t) := by
  by_cases hfeed : c = '\n'
  · rw [hfeed, splitLines_cons_lineFeed, splitLines_cons_lineFeed, h]
  · obtain ⟨p, ps, hp⟩ := List.exists_cons_of_ne_nil (pieces_ne_nil '\n' s)
    obtain ⟨q, qs, hq⟩ := List.exists_cons_of_ne_nil (pieces_ne_nil '\n' t)
    rw [splitLines, splitLines, hp, hq, List.map_cons, List.map_cons, List.cons.injEq] at h
    rw [splitLines, splitLines, pieces_cons_of_ne hfeed hp, pieces_cons_of_ne hfeed hq,
      List.map_cons, List.map_cons, dropTail_cons, dropTail_cons, h.1, h.2]

/-- **Line ends may be unified before a document is cut into lines**, if every carriage return
belongs to a line feed. -/
theorem splitLines_unifyLineEnds {s : List Char}
    (h : ∀ before behind, s = before ++ '\r' :: behind → behind.head? = some '\n') :
    splitLines (unifyLineEnds s) = splitLines s := by
  fun_induction unifyLineEnds s with
  | case1 => rfl
  | case2 s ih =>
    rw [splitLines_cons_lineFeed, splitLines_cons_lineEnd, ih]
    intro before behind hs
    exact h ('\r' :: '\n' :: before) behind (by rw [hs]; rfl)
  | case3 c s hpair ih =>
    -- a carriage return here would stand alone
    have hc : c ≠ '\r' := by
      rintro rfl
      obtain ⟨s', rfl⟩ := List.head?_eq_some_iff.mp (h [] s rfl)
      exact hpair s' rfl rfl
    rw [if_neg hc]
    refine splitLines_cons_congr c (ih fun before behind hs => ?_)
    exact h (c :: before) behind (by rw [hs]; rfl)

end DiskLens
