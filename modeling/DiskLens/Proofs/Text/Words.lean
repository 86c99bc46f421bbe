import DiskLens.Text.Blank

/-!
# Words

A word is what stands between two blanks of a text, or between a blank and an end of the text.

* `IsWord`: not empty and without blanks.
* `firstWord_eq`: the first word of a text; `exists_word_append`: the word at its start.
-/

namespace DiskLens

/-- A name: not empty and without blanks. -/
def IsWord (name : List Char) : Prop := name ≠ [] ∧ ∀ c ∈ name, isBlank c = false

instance (name : List Char) : Decidable (IsWord name) :=
  decidable_of_iff (!name.isEmpty && name.all (!isBlank ·)) (by simp [IsWord])

/-- The first word of a text, behind the blanks at its start and up to the next blank. -/
theorem firstWord_eq {w name rest : List Char} (hw : ∀ c ∈ w, isBlank c = true)
    (hname : IsWord name) (hrest : ∀ c, rest.head? = some c → isBlank c = true) :
    let s := w ++ (name ++ rest)
    s.takeWhile isBlank = w ∧ (s.dropWhile isBlank).takeWhile (!isBlank ·) = name := by
  have hword : ∀ c ∈ name, (!isBlank c) = true := by
    intro c hc
    rw [hname.2 c hc]
    rfl
  have hstart : (name ++ rest).takeWhile isBlank = [] ∧
      (name ++ rest).dropWhile isBlank = name ++ rest := by
    obtain ⟨first, more, rfl⟩ := List.exists_cons_of_ne_nil hname.1
    have hfirst : ¬ isBlank first := by simp [hname.2 first List.mem_cons_self]
    exact ⟨List.takeWhile_cons_of_neg hfirst, List.dropWhile_cons_of_neg hfirst⟩
  have hend : rest.takeWhile (!isBlank ·) = [] := by
    cases rest with
    | nil => rfl
    | cons c rest => exact List.takeWhile_cons_of_neg (by simp [hrest c rfl])
  refine ⟨?_, ?_⟩
  · rw [List.takeWhile_append_of_pos hw, hstart.1, List.append_nil]
  · rw [List.dropWhile_append_of_pos hw, hstart.2, List.takeWhile_append_of_pos hword, hend,
      List.append_nil]

/-- A text that does not start with a blank is a word and a rest that does not go on with it. -/
theorem exists_word_append {s : List Char} {c : Char} (hs : s.head? = some c)
    (hc : isBlank c = false) :
    ∃ word rest, s = word ++ rest ∧ IsWord word ∧
      ∀ c, rest.head? = some c → isBlank c = true := by
  obtain ⟨more, rfl⟩ := List.head?_eq_some_iff.mp hs
  refine ⟨(c :: more).takeWhile (!isBlank ·), (c :: more).dropWhile (!isBlank ·),
    List.takeWhile_append_dropWhile.symm, ⟨by simp [hc], fun d hd => ?_⟩, fun d hd => ?_⟩
  · simpa using List.all_eq_true.mp (List.all_takeWhile (p := (!isBlank ·))) d hd
  · have hnot := List.head?_dropWhile_not (!isBlank ·) (c :: more)
    rw [hd] at hnot
    simpa using hnot

end DiskLens
