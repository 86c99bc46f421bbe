import DiskLens.Hover
import DiskLens.Proofs.Text.Words

/-!
# The name under a cursor

A line names a parameter if it has a single mark, which is a `!` with a space behind it, and a word
behind the mark. The cursor is on the name from its first character to right behind its last.

* `HasMark`: a text has a mark; `splitAtMark?_eq_some_iff`, `onlyMark_iff`: the first mark of a line
  and its only one.
* **`NamesAt`**: a line taken apart around the name in it; `nameIn?_eq_some_iff`.
* **`nameAt?_eq_some_iff`**: the name under a cursor, and the cursors that are on it.
-/

namespace DiskLens

/-! ## Marks -/

/-- The text has a `!` with a space behind it. -/
def HasMark (s : List Char) : Prop := ['!', ' '] <:+: s

instance (s : List Char) : Decidable (HasMark s) := inferInstanceAs (Decidable (['!', ' '] <:+: s))

theorem hasMark_iff {s : List Char} : HasMark s ↔ ∃ a b, s = a ++ '!' :: ' ' :: b := by
  constructor
  · rintro ⟨a, b, rfl⟩
    exact ⟨a, b, by simp⟩
  · rintro ⟨a, b, rfl⟩
    exact ⟨a, b, by simp⟩

theorem splitAtMark?_eq_none_iff (s : List Char) : splitAtMark? s = none ↔ ¬ HasMark s := by
  fun_induction splitAtMark? s with
  | case1 => simp [HasMark]
  | case2 rest =>
    have hmark : HasMark ('!' :: ' ' :: rest) := ⟨[], rest, rfl⟩
    simp [hmark]
  | case3 c rest hno ih =>
    have hstart : ¬ ['!', ' '] <+: c :: rest := by
      rintro ⟨behind, hbehind⟩
      cases hbehind
      exact hno behind rfl rfl
    rw [Option.map_eq_none_iff, ih, HasMark, HasMark, List.infix_cons_iff]
    simp [hstart]

theorem not_hasMark_of_not_mem {s : List Char} (h : '!' ∉ s) : ¬ HasMark s := by
  intro hmark
  obtain ⟨a, b, rfl⟩ := hasMark_iff.mp hmark
  exact h (by simp)

theorem hasMark_append_iff {gap : List Char} (h : '!' ∉ gap) (s : List Char) :
    HasMark (gap ++ s) ↔ HasMark s := by
  induction gap with
  | nil => rfl
  | cons c gap ih =>
    have hstart : ¬ ['!', ' '] <+: c :: (gap ++ s) := by
      rintro ⟨behind, hbehind⟩
      have hc : '!' = c := (List.cons.inj hbehind).1
      exact h (hc ▸ List.mem_cons_self)
    have hrest := ih fun hmem => h (List.mem_cons_of_mem c hmem)
    rw [List.cons_append, HasMark, List.infix_cons_iff]
    simp only [hstart, false_or]
    exact hrest

/-- Two marks of a line are the same, or one stands before the other; they do not overlap. -/
theorem marks_cases {a b v t : List Char} (h : a ++ '!' :: ' ' :: b = v ++ '!' :: ' ' :: t) :
    (a = v ∧ b = t) ∨ (∃ gap, v = a ++ '!' :: ' ' :: gap ∧ b = gap ++ '!' :: ' ' :: t) ∨
      ∃ gap, a = v ++ '!' :: ' ' :: gap ∧ t = gap ++ '!' :: ' ' :: b := by
  obtain ⟨gap, hv, hgap⟩ | ⟨gap, ha, hgap⟩ := List.append_eq_append_iff.mp h
  · match gap with
    | [] => exact .inl (by simpa [eq_comm, hv] using hgap)
    | [c] => simp at hgap
    | c :: d :: gap =>
      obtain ⟨rfl, rfl, hb⟩ : '!' = c ∧ ' ' = d ∧ b = gap ++ '!' :: ' ' :: t := by
        simpa using hgap
      exact .inr (.inl ⟨gap, hv, hb⟩)
  · match gap with
    | [] => exact .inl (by simpa [eq_comm, ha] using hgap)
    | [c] => simp at hgap
    | c :: d :: gap =>
      obtain ⟨rfl, rfl, ht⟩ : '!' = c ∧ ' ' = d ∧ t = gap ++ '!' :: ' ' :: b := by
        simpa using hgap
      exact .inr (.inr ⟨gap, ha, ht⟩)

/-- A mark is the only one of its line if there is none before it and none behind it. -/
theorem onlyMark_iff {v t : List Char} :
    (∀ a b, v ++ '!' :: ' ' :: t = a ++ '!' :: ' ' :: b → a = v) ↔ ¬ HasMark v ∧ ¬ HasMark t := by
  constructor
  · intro honly
    refine ⟨fun hv => ?_, fun ht => ?_⟩
    · obtain ⟨a, b, rfl⟩ := hasMark_iff.mp hv
      have hsame := honly a (b ++ '!' :: ' ' :: t) (by simp)
      simp at hsame
    · obtain ⟨a, b, rfl⟩ := hasMark_iff.mp ht
      have hsame := honly (v ++ '!' :: ' ' :: a) b (by simp)
      simp at hsame
  · rintro ⟨hv, ht⟩ a b h
    obtain ⟨rfl, -⟩ | ⟨gap, -, hgap⟩ | ⟨gap, hgap, -⟩ := marks_cases h
    · rfl
    · exact absurd (hasMark_iff.mpr ⟨gap, b, hgap⟩) ht
    · exact absurd (hasMark_iff.mpr ⟨a, gap, hgap⟩) hv

theorem of_splitAtMark? {s v t : List Char} (h : splitAtMark? s = some (v, t)) :
    s = v ++ '!' :: ' ' :: t ∧ ¬ HasMark v := by
  fun_induction splitAtMark? s generalizing v with
  | case1 => cases h
  | case2 rest =>
    cases h
    exact ⟨rfl, by decide⟩
  | case3 c rest hno ih =>
    obtain ⟨⟨v', t'⟩, hrest, hv⟩ := Option.map_eq_some_iff.mp h
    obtain ⟨rfl, rfl⟩ := Prod.mk.inj hv
    obtain ⟨rfl, hmark⟩ := ih hrest
    refine ⟨rfl, fun hmark' => ?_⟩
    obtain hstart | hlater := List.infix_cons_iff.mp hmark'
    · -- a mark at the start of `v` would be one at the start of the line
      obtain ⟨behind, hbehind⟩ := hstart
      obtain ⟨rfl, hv'⟩ := List.cons.inj hbehind
      exact hno _ rfl (by rw [← hv']; rfl)
    · exact hmark hlater

/-- **The first mark of a line** has none before it. -/
theorem splitAtMark?_eq_some_iff {s v t : List Char} :
    splitAtMark? s = some (v, t) ↔ s = v ++ '!' :: ' ' :: t ∧ ¬ HasMark v := by
  refine ⟨of_splitAtMark?, ?_⟩
  rintro ⟨rfl, hv⟩
  cases hsplit : splitAtMark? (v ++ '!' :: ' ' :: t) with
  | none => exact absurd (hasMark_iff.mpr ⟨v, t, rfl⟩) ((splitAtMark?_eq_none_iff _).mp hsplit)
  | some found =>
    obtain ⟨a, b⟩ := found
    obtain ⟨hline, ha⟩ := of_splitAtMark? hsplit
    obtain ⟨rfl, rfl⟩ | ⟨gap, hgap, -⟩ | ⟨gap, hgap, -⟩ := marks_cases hline
    · rfl
    · exact absurd (hasMark_iff.mpr ⟨v, gap, hgap⟩) ha
    · exact absurd (hasMark_iff.mpr ⟨a, gap, hgap⟩) hv

/-! ## The name in a line -/

/-- **A line taken apart around the name in it**: `v`, the only mark, the blanks `w`, the name, and
a rest that does not go on with the name. -/
structure NamesAt (line v w name rest : List Char) : Prop where
  line_eq : line = v ++ '!' :: ' ' :: (w ++ (name ++ rest))
  onlyMark : ∀ a b, line = a ++ '!' :: ' ' :: b → a = v
  blanks : ∀ c ∈ w, isBlank c = true
  word : IsWord name
  boundary : ∀ c, rest.head? = some c → isBlank c = true

/-- **The name in a line and where it starts.** -/
theorem nameIn?_eq_some_iff {line name : List Char} {start : Nat} :
    nameIn? line = some (start, name) ↔
      ∃ v w rest, NamesAt line v w name rest ∧ start = v.length + 2 + w.length := by
  constructor
  · intro h
    unfold nameIn? at h
    split at h
    next => cases h
    next v t hsplit =>
      obtain ⟨rfl, hv⟩ := of_splitAtMark? hsplit
      split at h
      next => cases h
      next hone =>
        have ht : ¬ HasMark t := (splitAtMark?_eq_none_iff t).mp (by simpa using hone)
        dsimp only at h
        split at h
        next hname =>
          obtain ⟨rfl, rfl⟩ := Prod.mk.inj (Option.some.inj h)
          refine ⟨v, t.takeWhile isBlank, (t.dropWhile isBlank).dropWhile (!isBlank ·),
            ⟨?_, onlyMark_iff.mpr ⟨hv, ht⟩, ?_, ⟨hname, ?_⟩, ?_⟩, rfl⟩
          · rw [List.takeWhile_append_dropWhile, List.takeWhile_append_dropWhile]
          · exact List.all_eq_true.mp List.all_takeWhile
          · intro c hc
            have hall := List.all_eq_true.mp (List.all_takeWhile (p := (!isBlank ·))) c hc
            simpa using hall
          · intro c hc
            have hnot := List.head?_dropWhile_not (!isBlank ·) (t.dropWhile isBlank)
            rw [hc] at hnot
            simpa using hnot
        next => cases h
  · rintro ⟨v, w, rest, hline, rfl⟩
    obtain ⟨rfl, honly, hw, hname, hrest⟩ := hline
    obtain ⟨hv, ht⟩ := onlyMark_iff.mp honly
    obtain ⟨hblanks, hword⟩ := firstWord_eq hw hname hrest
    rw [nameIn?, splitAtMark?_eq_some_iff.mpr ⟨rfl, hv⟩]
    simp only [(splitAtMark?_eq_none_iff _).mpr ht, hblanks, hword]
    simp [hname.1, markWidth]

theorem drop_named (before gap rest : List Char) :
    (before ++ '!' :: ' ' :: (gap ++ rest)).drop (before.length + markWidth + gap.length) =
      rest := by
  have hline : before ++ '!' :: ' ' :: (gap ++ rest) = (before ++ '!' :: ' ' :: gap) ++ rest := by
    simp
  have hlength : (before ++ '!' :: ' ' :: gap).length =
      before.length + markWidth + gap.length := by
    simp [markWidth]
    omega
  rw [hline, ← hlength, List.drop_left]

/-- The name is a slice of the line. -/
theorem NamesAt.slice {line v w name rest : List Char} (h : NamesAt line v w name rest) :
    (line.drop (v.length + 2 + w.length)).take name.length = name ∧
      v.length + 2 + w.length + name.length ≤ line.length := by
  have hdrop : line.drop (v.length + 2 + w.length) = name ++ rest := by
    rw [h.line_eq]
    exact drop_named v w (name ++ rest)
  refine ⟨by rw [hdrop, List.take_left], ?_⟩
  rw [h.line_eq]
  simp
  omega

/-- **The name under a cursor.** It is `name` if and only if the line has a single mark, `name` is
the first word behind it, and the cursor stands between the two ends of the word. So the cursors
on a name are those of one interval, and the name is what stands there in the line. -/
theorem nameAt?_eq_some_iff (line : List Char) :
    (∀ (cursor : Int) (name : List Char), nameAt? line cursor = some name ↔
      ∃ v w rest, NamesAt line v w name rest ∧ (v.length + 2 + w.length : Nat) ≤ cursor ∧
        cursor ≤ (v.length + 2 + w.length + name.length : Nat)) ∧
    ((∀ cursor, nameAt? line cursor = none) ∨
      ∃ first last : Nat, first < last ∧ last ≤ line.length ∧ ∀ cursor : Int,
        nameAt? line cursor =
          if first ≤ cursor ∧ cursor ≤ last then some ((line.drop first).take (last - first))
          else none) := by
  have hat : ∀ (cursor : Int) (name : List Char), nameAt? line cursor = some name ↔
      ∃ first, nameIn? line = some (first, name) ∧ first ≤ cursor ∧
        cursor ≤ first + name.length := by
    intro cursor name
    unfold nameAt?
    cases nameIn? line with
    | none => simp
    | some found => grind
  refine ⟨fun cursor name => ?_, ?_⟩
  · rw [hat]
    constructor
    · rintro ⟨first, hin, hlow, hhigh⟩
      obtain ⟨v, w, rest, hnames, rfl⟩ := nameIn?_eq_some_iff.mp hin
      exact ⟨v, w, rest, hnames, hlow, by omega⟩
    · rintro ⟨v, w, rest, hnames, hlow, hhigh⟩
      exact ⟨_, nameIn?_eq_some_iff.mpr ⟨v, w, rest, hnames, rfl⟩, hlow, by omega⟩
  · cases hin : nameIn? line with
    | none => exact .inl fun cursor => by rw [nameAt?, hin]
    | some found =>
      obtain ⟨first, name⟩ := found
      obtain ⟨v, w, rest, hnames, rfl⟩ := nameIn?_eq_some_iff.mp hin
      obtain ⟨hslice, hlast⟩ := hnames.slice
      have hlength := List.length_pos_iff.mpr hnames.word.1
      refine .inr ⟨v.length + 2 + w.length, v.length + 2 + w.length + name.length, by omega, hlast,
        fun cursor => ?_⟩
      rw [nameAt?, hin, Nat.add_sub_cancel_left, hslice]
      norm_cast

end DiskLens
