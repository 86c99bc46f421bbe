import DiskLens.Outline.Parameters

/-!
# The grammar of block headers

A header line is a fence of dashes, a space, the title, a space and a second fence; a line feed may
end it. A fence stops where its space stands, so a line is a header in one way at most, also if its
title has fences of its own.

* `IsFence`; `openFence?_eq_some_iff`, `closeFence?_eq_some_iff`: the two ends of a line.
* **`BlockHeader`**: the parts of a header; `BlockHeader.text`: the line they make.
* **`blockTitle?_eq_some_iff`**: the lines that have a title, and in how many ways.
-/

namespace DiskLens

/-! ## Fences -/

/-- One or more dashes. -/
def IsFence (s : List Char) : Prop := s ≠ [] ∧ ∀ c ∈ s, c = '-'

instance (s : List Char) : Decidable (IsFence s) :=
  decidable_of_iff (!s.isEmpty && s.all (· == '-')) (by simp [IsFence])

theorem isFence_reverse {s : List Char} : IsFence s.reverse ↔ IsFence s := by
  simp [IsFence]

theorem openFence?_eq_some_iff {s rest : List Char} :
    openFence? s = some rest ↔ ∃ fence, IsFence fence ∧ s = fence ++ ' ' :: rest := by
  constructor
  · intro h
    unfold openFence? at h
    split at h
    next cs =>
      split at h
      next rest' hrest =>
        cases h
        refine ⟨'-' :: cs.takeWhile (· == '-'), ⟨by simp, ?_⟩, ?_⟩
        · intro c hc
          rcases List.mem_cons.mp hc with rfl | hc
          · rfl
          · simpa using List.all_eq_true.mp List.all_takeWhile c hc
        · rw [List.cons_append, ← hrest, List.takeWhile_append_dropWhile]
      next => cases h
    next => cases h
  · rintro ⟨fence, ⟨hne, hdash⟩, rfl⟩
    -- the space ends the dashes that are dropped
    obtain ⟨first, more, rfl⟩ := List.exists_cons_of_ne_nil hne
    rw [List.forall_mem_cons] at hdash
    obtain ⟨rfl, hmore⟩ := hdash
    have hdrop : (more ++ ' ' :: rest).dropWhile (· == '-') = ' ' :: rest := by
      rw [List.dropWhile_append_of_pos (by simpa using hmore),
        List.dropWhile_cons_of_neg (by decide)]
    rw [List.cons_append, openFence?, hdrop]
    rfl

theorem closeFence?_eq_some_iff {s rest : List Char} :
    closeFence? s = some rest ↔ ∃ fence, IsFence fence ∧ s = rest ++ ' ' :: fence := by
  unfold closeFence?
  rw [Option.map_eq_some_iff]
  constructor
  · rintro ⟨back, hback, rfl⟩
    obtain ⟨fence, hfence, hs⟩ := openFence?_eq_some_iff.mp hback
    refine ⟨fence.reverse, isFence_reverse.mpr hfence, ?_⟩
    rw [← List.reverse_reverse s, hs]
    simp
  · rintro ⟨fence, hfence, rfl⟩
    refine ⟨rest.reverse, openFence?_eq_some_iff.mpr ?_, List.reverse_reverse rest⟩
    exact ⟨fence.reverse, isFence_reverse.mpr hfence, by simp⟩

/-! ## Titles and line feeds -/

theorem isTitle_iff {t : List Char} :
    isTitle t ↔ '\n' ∉ t ∧ (∃ c, t.head? = some c ∧ isBlank c = false) ∧
      ∃ c, t.getLast? = some c ∧ isBlank c = false := by
  simp [isTitle, Option.any_eq_true, and_assoc]

/-- The line feed that may end a line. -/
def lineFeedIf (ended : Bool) : List Char := if ended then ['\n'] else []

theorem dropLineFeed_append_lineFeedIf {s : List Char} (hs : s.getLast? ≠ some '\n')
    (ended : Bool) : dropLineFeed (s ++ lineFeedIf ended) = s := by
  cases ended with
  | false => simp [dropLineFeed, lineFeedIf, hs]
  | true => simp [dropLineFeed, lineFeedIf]

theorem exists_lineFeedIf (s : List Char) : ∃ ended, s = dropLineFeed s ++ lineFeedIf ended := by
  by_cases hs : s.getLast? = some '\n'
  · obtain ⟨front, rfl⟩ := List.getLast?_eq_some_iff.mp hs
    exact ⟨true, by simp [dropLineFeed, lineFeedIf]⟩
  · exact ⟨false, by simp [dropLineFeed, lineFeedIf, hs]⟩

/-! ## Headers -/

/-- **The parts of a header line**, and what they have to be. -/
structure BlockHeader where
  first : List Char
  title : List Char
  last : List Char
  ended : Bool
  first_fence : IsFence first
  last_fence : IsFence last
  title_begins : ∃ c, title.head? = some c ∧ isBlank c = false
  title_ends : ∃ c, title.getLast? = some c ∧ isBlank c = false
  title_oneLine : '\n' ∉ title

namespace BlockHeader

/-- What a header says in front of its line feed. -/
def body (h : BlockHeader) : List Char := h.first ++ ' ' :: (h.title ++ ' ' :: h.last)

/-- **The line that is made of some parts.** -/
def text (h : BlockHeader) : List Char := h.body ++ lineFeedIf h.ended

variable (h : BlockHeader)

theorem dropLineFeed_text : dropLineFeed h.text = h.body := by
  apply dropLineFeed_append_lineFeedIf
  intro hlast
  -- the body ends in a dash
  have hbody : h.body = (h.first ++ ' ' :: (h.title ++ [' '])) ++ h.last := by simp [body]
  rw [hbody, List.getLast?_append, List.getLast?_eq_some_getLast h.last_fence.1,
    Option.some_or, Option.some.injEq] at hlast
  have hdash : h.last.getLast h.last_fence.1 = '-' := h.last_fence.2 _ (List.getLast_mem _)
  rw [hdash] at hlast
  exact absurd hlast (by decide)

theorem openFence?_body : openFence? h.body = some (h.title ++ ' ' :: h.last) :=
  openFence?_eq_some_iff.mpr ⟨h.first, h.first_fence, rfl⟩

theorem blockTitle?_text : blockTitle? h.text = some h.title := by
  have hclose : closeFence? (h.title ++ ' ' :: h.last) = some h.title :=
    closeFence?_eq_some_iff.mpr ⟨h.last, h.last_fence, rfl⟩
  have htitle : isTitle h.title := isTitle_iff.mpr ⟨h.title_oneLine, h.title_begins, h.title_ends⟩
  simp [blockTitle?, dropLineFeed_text, openFence?_body, hclose, htitle]

theorem exists_of_blockTitle? {line title : List Char} (hline : blockTitle? line = some title) :
    ∃ h : BlockHeader, h.text = line ∧ h.title = title := by
  simp only [blockTitle?, Option.bind_eq_bind, Option.bind_eq_some_iff, Option.pure_def,
    Option.ite_none_right_eq_some, Option.some.injEq] at hline
  obtain ⟨rest, hopen, _, hclose, htitle, rfl⟩ := hline
  obtain ⟨first, hfirst, hbody⟩ := openFence?_eq_some_iff.mp hopen
  obtain ⟨last, hlast, rfl⟩ := closeFence?_eq_some_iff.mp hclose
  obtain ⟨honeLine, hbegins, hends⟩ := isTitle_iff.mp htitle
  obtain ⟨ended, hline⟩ := exists_lineFeedIf line
  refine ⟨⟨first, _, last, ended, hfirst, hlast, hbegins, hends, honeLine⟩, ?_, rfl⟩
  rw [hline, hbody]
  rfl

/-- **A line is a header in one way at most.** -/
theorem text_injective : Function.Injective text := by
  intro h h' heq
  have hbody : h.body = h'.body := by
    rw [← dropLineFeed_text, heq, dropLineFeed_text]
  have hopen : h.title ++ ' ' :: h.last = h'.title ++ ' ' :: h'.last := by
    apply Option.some.inj
    rw [← openFence?_body, hbody, openFence?_body]
  have htitle : h.title = h'.title := by
    apply Option.some.inj
    rw [← blockTitle?_text, heq, blockTitle?_text]
  have hlast : h.last = h'.last := by simpa [htitle] using hopen
  have hfirst : h.first = h'.first := by simpa [body, htitle, hlast] using hbody
  have hended : h.ended = h'.ended := by
    have hfeed : lineFeedIf h.ended = lineFeedIf h'.ended := by simpa [text, hbody] using heq
    revert hfeed
    cases h.ended <;> cases h'.ended <;> simp [lineFeedIf]
  cases h
  cases h'
  simp only at hfirst htitle hlast hended
  subst hfirst htitle hlast hended
  rfl

end BlockHeader

/-- **The lines with a title are those of a header**, and a line has its title from one header only:
two headers that make the same line have the same fences, the same title and the same end. -/
theorem blockTitle?_eq_some_iff :
    (∀ line title, blockTitle? line = some title ↔
      ∃ h : BlockHeader, h.text = line ∧ h.title = title) ∧
    ∀ h h' : BlockHeader, h.text = h'.text → h = h' := by
  refine ⟨fun line title => ⟨BlockHeader.exists_of_blockTitle?, ?_⟩, ?_⟩
  · rintro ⟨h, rfl, rfl⟩
    exact h.blockTitle?_text
  · intro h h' heq
    exact BlockHeader.text_injective heq

/-- A title of dashes and a space, in a line that a line feed ends. -/
theorem blockTitle?_of_dashes :
    let line := ['-', ' ', '-', ' ', '-', ' ', '-', '-', '\n']
    let h : BlockHeader := ⟨['-'], ['-', ' ', '-'], ['-', '-'], true, by decide, by decide,
      ⟨'-', rfl, by decide⟩, ⟨'-', rfl, by decide⟩, by decide⟩
    h.text = line ∧ blockTitle? line = some ['-', ' ', '-'] ∧
      ∀ h' : BlockHeader, h'.text = line → h' = h := by
  intro line h
  have htext : h.text = line := rfl
  refine ⟨htext, (blockTitle?_eq_some_iff.1 line _).mpr ⟨h, htext, rfl⟩, ?_⟩
  intro h' htext'
  exact blockTitle?_eq_some_iff.2 h' h (htext'.trans htext.symm)

end DiskLens
