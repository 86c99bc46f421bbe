import DiskLens.Outline.InitLine
import DiskLens.Proofs.Text.Words
import Mathlib.Data.Nat.Find
import Mathlib.Order.Bounds.Basic

/-!
# The grammar of system lines

A system line has spaces, `INIT SYS `, a word, and three dots in the word or behind it. The name of
the system is what stands in front of the first dots that leave it a character.

* `NamesSystem`: a line taken apart with some name; a line with many dots allows many names.
* `IsCut`, `shortestName?_eq_some_iff`: the same for what follows the stem.
* **`SystemLine`**: a line with a word behind the stem; `DotsAt`, `DotsBehind`: where it has dots.
* `SystemLine.isCut_iff`: the names that a line allows.
* **`initSystem?_eq_some_iff`**: the name of a system line is the shortest that the line allows.
-/

namespace DiskLens

/-- What follows the name of a system. -/
def dots : List Char := ['.', '.', '.']

/-- **A line that can be read with this name**: spaces, the stem, the name, blanks or none, three
dots, and anything. -/
def NamesSystem (line name : List Char) : Prop :=
  ∃ spaces blanks rest,
    line = List.replicate spaces ' ' ++ (systemStem ++ (name ++ (blanks ++ (dots ++ rest)))) ∧
      IsWord name ∧ ∀ c ∈ blanks, isBlank c = true

/-! ## What follows the stem -/

theorem dotsAhead_iff {s : List Char} :
    dotsAhead s ↔ ∃ blanks rest, s = blanks ++ (dots ++ rest) ∧ ∀ c ∈ blanks, isBlank c = true := by
  unfold dotsAhead
  rw [List.isPrefixOf_iff_prefix]
  constructor
  · rintro ⟨rest, hrest⟩
    refine ⟨s.takeWhile isBlank, rest, ?_, List.all_eq_true.mp List.all_takeWhile⟩
    rw [dots, hrest, List.takeWhile_append_dropWhile]
  · rintro ⟨blanks, rest, rfl, hblanks⟩
    rw [List.dropWhile_append_of_pos hblanks]
    exact ⟨rest, rfl⟩

/-- The text starts with a name that has dots behind it. -/
def IsCut (s name : List Char) : Prop :=
  IsWord name ∧ ∃ behind, s = name ++ behind ∧ dotsAhead behind

theorem isCut_cons {c : Char} {s name : List Char} : IsCut (c :: s) name ↔
    ∃ more behind, name = c :: more ∧ s = more ++ behind ∧
      (∀ d ∈ c :: more, isBlank d = false) ∧ dotsAhead behind := by
  constructor
  · rintro ⟨⟨hne, hword⟩, behind, hline, hdots⟩
    obtain ⟨d, more, rfl⟩ := List.exists_cons_of_ne_nil hne
    obtain ⟨rfl, rfl⟩ := List.cons.inj hline
    exact ⟨more, behind, rfl, rfl, hword, hdots⟩
  · rintro ⟨more, behind, rfl, rfl, hword, hdots⟩
    exact ⟨⟨List.cons_ne_nil _ _, hword⟩, behind, rfl, hdots⟩

theorem isCut_singleton {c : Char} (hc : isBlank c = false) {s : List Char} (hs : dotsAhead s) :
    IsCut (c :: s) [c] :=
  isCut_cons.mpr ⟨[], s, rfl, rfl, by simpa using hc, hs⟩

/-- If the dots do not come at once, a name has more than one character. -/
theorem isCut_cons_iff {c : Char} (hc : isBlank c = false) {s : List Char} (hs : ¬ dotsAhead s)
    {name : List Char} : IsCut (c :: s) name ↔ ∃ more, name = c :: more ∧ IsCut s more := by
  rw [isCut_cons]
  constructor
  · rintro ⟨more, behind, rfl, rfl, hword, hdots⟩
    refine ⟨more, rfl, ⟨?_, fun d hd => hword d (List.mem_cons_of_mem _ hd)⟩, behind, rfl, hdots⟩
    rintro rfl
    exact hs hdots
  · rintro ⟨more, rfl, ⟨-, hword⟩, behind, rfl, hdots⟩
    exact ⟨more, behind, rfl, rfl, List.forall_mem_cons.mpr ⟨hc, hword⟩, hdots⟩

/-- **The shortest name in front of dots.** -/
theorem shortestName?_eq_some_iff {s name : List Char} :
    shortestName? s = some name ↔
      IsCut s name ∧ ∀ other, IsCut s other → name.length ≤ other.length := by
  fun_induction shortestName? s generalizing name with
  | case1 =>
    refine ⟨nofun, ?_⟩
    rintro ⟨⟨⟨hne, -⟩, behind, hline, -⟩, -⟩
    exact absurd (List.append_eq_nil_iff.mp hline.symm).1 hne
  | case2 c s hblank =>
    refine ⟨nofun, fun h => ?_⟩
    obtain ⟨more, behind, -, -, hword, -⟩ := isCut_cons.mp h.1
    simp [hword c List.mem_cons_self] at hblank
  | case3 c s hblank hdots =>
    have hc : isBlank c = false := by simpa using hblank
    constructor
    · intro h
      cases h
      refine ⟨isCut_singleton hc hdots, fun other hother => ?_⟩
      exact List.length_pos_iff.mpr hother.1.1
    · rintro ⟨hcut, hleast⟩
      obtain ⟨more, behind, rfl, -⟩ := isCut_cons.mp hcut
      have hlength := hleast [c] (isCut_singleton hc hdots)
      have hmore : more = [] := by simpa using hlength
      rw [hmore]
  | case4 c s hblank hdots ih =>
    have hc : isBlank c = false := by simpa using hblank
    rw [Option.map_eq_some_iff]
    constructor
    · rintro ⟨more, hmore, rfl⟩
      obtain ⟨hcut, hleast⟩ := ih.mp hmore
      refine ⟨(isCut_cons_iff hc hdots).mpr ⟨more, rfl, hcut⟩, fun other hother => ?_⟩
      obtain ⟨rest, rfl, hrest⟩ := (isCut_cons_iff hc hdots).mp hother
      have := hleast rest hrest
      simp only [List.length_cons]
      omega
    · rintro ⟨hcut, hleast⟩
      obtain ⟨more, rfl, hmore⟩ := (isCut_cons_iff hc hdots).mp hcut
      refine ⟨more, ih.mpr ⟨hmore, fun other hother => ?_⟩, rfl⟩
      have := hleast (c :: other) ((isCut_cons_iff hc hdots).mpr ⟨other, rfl, hother⟩)
      simp only [List.length_cons] at this
      omega

/-! ## Lines with the stem -/

/-- The line has the stem behind its spaces, and `body` behind the stem. -/
def HasSystemBody (line body : List Char) : Prop :=
  ∃ spaces, line = List.replicate spaces ' ' ++ (systemStem ++ body)

theorem dropWhile_of_hasSystemBody {line body : List Char} (h : HasSystemBody line body) :
    line.dropWhile (· == ' ') = systemStem ++ body := by
  obtain ⟨spaces, rfl⟩ := h
  rw [List.dropWhile_append_of_pos fun c hc => by simp [List.eq_of_mem_replicate hc]]
  exact List.dropWhile_cons_of_neg (by decide)

theorem HasSystemBody.unique {line body body' : List Char} (h : HasSystemBody line body)
    (h' : HasSystemBody line body') : body = body' := by
  have hdrop := (dropWhile_of_hasSystemBody h).symm.trans (dropWhile_of_hasSystemBody h')
  exact List.append_cancel_left hdrop

theorem initSystem?_of_hasSystemBody {line body : List Char} (h : HasSystemBody line body) :
    initSystem? line = shortestName? body := by
  unfold initSystem?
  simp only [dropWhile_of_hasSystemBody h]
  rw [if_pos (List.isPrefixOf_iff_prefix.mpr (List.prefix_append ..)), List.drop_left]

theorem exists_hasSystemBody {line name : List Char} (h : initSystem? line = some name) :
    ∃ body, HasSystemBody line body := by
  simp only [initSystem?] at h
  split at h
  next hstem =>
    obtain ⟨body, hbody⟩ := List.isPrefixOf_iff_prefix.mp hstem
    have hspaces : ∀ c ∈ line.takeWhile (· == ' '), c = ' ' := fun c hc => by
      simpa using List.all_eq_true.mp List.all_takeWhile c hc
    refine ⟨body, (line.takeWhile (· == ' ')).length, ?_⟩
    rw [← List.eq_replicate_of_mem hspaces, hbody, List.takeWhile_append_dropWhile]
  next => cases h

theorem namesSystem_iff {line name : List Char} :
    NamesSystem line name ↔ ∃ body, HasSystemBody line body ∧ IsCut body name := by
  constructor
  · rintro ⟨spaces, blanks, rest, hline, hname, hblanks⟩
    exact ⟨_, ⟨spaces, hline⟩, hname, _, rfl, dotsAhead_iff.mpr ⟨blanks, rest, rfl, hblanks⟩⟩
  · rintro ⟨body, ⟨spaces, rfl⟩, hname, behind, rfl, hdots⟩
    obtain ⟨blanks, rest, rfl, hblanks⟩ := dotsAhead_iff.mp hdots
    exact ⟨spaces, blanks, rest, rfl, hname, hblanks⟩

/-! ## The word behind the stem -/

/-- **A line with a word behind the stem**; the rest does not go on with the word. -/
structure SystemLine where
  spaces : Nat
  word : List Char
  rest : List Char
  isWord : IsWord word
  boundary : ∀ c, rest.head? = some c → isBlank c = true

namespace SystemLine

/-- **The line that is made of some parts.** -/
def text (l : SystemLine) : List Char :=
  List.replicate l.spaces ' ' ++ (systemStem ++ (l.word ++ l.rest))

/-- Three dots stand in the word, `k` characters behind its start, and do not start it. -/
def DotsAt (l : SystemLine) (k : Nat) : Prop := 1 ≤ k ∧ dots <+: l.word.drop k

/-- Three dots stand behind the word, with blanks in between. -/
def DotsBehind (l : SystemLine) : Prop :=
  ∃ blanks more, l.rest = blanks ++ (dots ++ more) ∧ blanks ≠ [] ∧ ∀ c ∈ blanks, isBlank c = true

/-- **The name of the system**: the word up to its first dots, or the whole word if it has none but
dots follow it. -/
def IsName (l : SystemLine) (name : List Char) : Prop :=
  (∃ k, IsLeast {k | l.DotsAt k} k ∧ name = l.word.take k) ∨
    (∀ k, ¬ l.DotsAt k) ∧ l.DotsBehind ∧ name = l.word

variable {l : SystemLine} {name : List Char}

theorem hasSystemBody (l : SystemLine) : HasSystemBody l.text (l.word ++ l.rest) := ⟨l.spaces, rfl⟩

theorem lt_length_of_dotsAt {k : Nat} (h : l.DotsAt k) : k < l.word.length := by
  have hlength := h.2.length_le
  simp only [dots, List.length_drop, List.length_cons, List.length_nil] at hlength
  omega

theorem dotsAhead_rest_iff : dotsAhead l.rest ↔ l.DotsBehind := by
  rw [dotsAhead_iff]
  constructor
  · rintro ⟨blanks, more, hrest, hblanks⟩
    refine ⟨blanks, more, hrest, ?_, hblanks⟩
    rintro rfl
    -- a dot is no blank, so it would go on with the word
    exact absurd (l.boundary '.' (by rw [hrest]; rfl)) (by decide)
  · rintro ⟨blanks, more, hrest, -, hblanks⟩
    exact ⟨blanks, more, hrest, hblanks⟩

/-- Dots that start inside the word end inside it. -/
theorem dots_prefix_of_dotsAhead {tail : List Char} (htail : IsWord tail)
    (h : dotsAhead (tail ++ l.rest)) : dots <+: tail := by
  obtain ⟨first, more, rfl⟩ := List.exists_cons_of_ne_nil htail.1
  have hfirst : ¬ isBlank first := by simp [htail.2 first List.mem_cons_self]
  unfold dotsAhead at h
  rw [List.cons_append, List.dropWhile_cons_of_neg hfirst, List.isPrefixOf_iff_prefix,
    ← List.cons_append] at h
  change dots <+: _ at h
  obtain hin | ⟨extra, hextra⟩ := List.prefix_or_prefix_of_prefix h (List.prefix_append ..)
  · exact hin
  · cases extra with
    | nil =>
      rw [List.append_nil] at hextra
      exact hextra ▸ List.prefix_refl _
    | cons c extra =>
      -- a dot beyond the word would be the first character of the rest
      rw [← hextra, List.prefix_append_right_inj] at h
      obtain ⟨rest, hrest⟩ := h
      have hdot : c ∈ dots := by simp [← hextra]
      have hblank := l.boundary c (by rw [← hrest]; rfl)
      simp only [dots, List.mem_cons, List.not_mem_nil, or_false, or_self] at hdot
      rw [hdot] at hblank
      exact absurd hblank (by decide)

/-- A name that the line allows does not go beyond the word. -/
theorem exists_tail {behind : List Char} (hname : IsWord name)
    (h : l.word ++ l.rest = name ++ behind) :
    ∃ tail, l.word = name ++ tail ∧ behind = tail ++ l.rest := by
  obtain ⟨extra, hextra, hrest⟩ | ⟨tail, hword, hbehind⟩ := List.append_eq_append_iff.mp h
  · cases extra with
    | nil => exact ⟨[], by simpa using hextra.symm, by simpa using hrest.symm⟩
    | cons c extra =>
      -- the rest starts with a blank, which is not in the name
      have hblank := l.boundary c (by rw [hrest]; rfl)
      rw [hname.2 c (by simp [hextra])] at hblank
      cases hblank
  · exact ⟨tail, hword, hbehind⟩

/-- **The names that a line allows**: the word up to some dots in it, or the whole word. -/
theorem isCut_iff : IsCut (l.word ++ l.rest) name ↔
    (∃ k, l.DotsAt k ∧ name = l.word.take k) ∨ l.DotsBehind ∧ name = l.word := by
  constructor
  · rintro ⟨hname, behind, hline, hdots⟩
    obtain ⟨tail, hword, rfl⟩ := exists_tail hname hline
    by_cases htail : tail = []
    · subst htail
      rw [List.append_nil] at hword
      exact .inr ⟨dotsAhead_rest_iff.mp hdots, hword.symm⟩
    · have htailWord : IsWord tail := by
        refine ⟨htail, fun c hc => l.isWord.2 c ?_⟩
        rw [hword]
        exact List.mem_append_right _ hc
      refine .inl ⟨name.length, ⟨List.length_pos_iff.mpr hname.1, ?_⟩, ?_⟩
      · rw [hword, List.drop_left]
        exact dots_prefix_of_dotsAhead htailWord hdots
      · rw [hword, List.take_left]
  · rintro (⟨k, hk, rfl⟩ | ⟨hbehind, rfl⟩)
    · obtain ⟨more, hmore⟩ := hk.2
      have hlt := lt_length_of_dotsAt hk
      refine ⟨⟨?_, fun c hc => l.isWord.2 c (List.mem_of_mem_take hc)⟩,
        l.word.drop k ++ l.rest, ?_, dotsAhead_iff.mpr ⟨[], more ++ l.rest, ?_, nofun⟩⟩
      · rw [← List.length_pos_iff, List.length_take]
        have := hk.1
        omega
      · rw [← List.append_assoc, List.take_append_drop]
      · rw [← hmore, List.nil_append, List.append_assoc]
    · exact ⟨l.isWord, l.rest, rfl, dotsAhead_rest_iff.mpr hbehind⟩

/-- **The name of a system is the shortest that its line allows.** -/
theorem isName_iff : l.IsName name ↔ IsCut (l.word ++ l.rest) name ∧
    ∀ other, IsCut (l.word ++ l.rest) other → name.length ≤ other.length := by
  simp only [isCut_iff]
  constructor
  · rintro (⟨k, ⟨hk, hleast⟩, rfl⟩ | ⟨hno, hbehind, rfl⟩)
    · have hlt := lt_length_of_dotsAt hk
      refine ⟨.inl ⟨k, hk, rfl⟩, ?_⟩
      rintro _ (⟨j, hj, rfl⟩ | ⟨-, rfl⟩)
      · have := hleast hj
        have := lt_length_of_dotsAt hj
        simp only [List.length_take]
        omega
      · simp only [List.length_take]
        omega
    · refine ⟨.inr ⟨hbehind, rfl⟩, ?_⟩
      rintro _ (⟨j, hj, rfl⟩ | ⟨-, rfl⟩)
      · exact absurd hj (hno j)
      · exact Nat.le_refl _
  · rintro ⟨⟨k, hk, rfl⟩ | ⟨hbehind, rfl⟩, hshortest⟩
    · refine .inl ⟨k, ⟨hk, fun j hj => ?_⟩, rfl⟩
      have := hshortest _ (.inl ⟨j, hj, rfl⟩)
      have := lt_length_of_dotsAt hk
      have := lt_length_of_dotsAt hj
      simp only [List.length_take] at *
      omega
    · refine .inr ⟨fun j hj => ?_, hbehind, rfl⟩
      have := hshortest _ (.inl ⟨j, hj, rfl⟩)
      have := lt_length_of_dotsAt hj
      simp only [List.length_take] at *
      omega

theorem exists_isName_iff :
    (∃ name, l.IsName name) ↔ (∃ k, l.DotsAt k) ∨ l.DotsBehind := by
  constructor
  · rintro ⟨name, ⟨k, ⟨hk, -⟩, -⟩ | ⟨-, hbehind, -⟩⟩
    · exact .inl ⟨k, hk⟩
    · exact .inr hbehind
  · intro h
    by_cases hdots : ∃ k, l.DotsAt k
    · classical
      have hleast : IsLeast {k | l.DotsAt k} (Nat.find hdots) :=
        ⟨Nat.find_spec hdots, fun j hj => Nat.find_min' hdots hj⟩
      exact ⟨_, .inl ⟨_, hleast, rfl⟩⟩
    · have hno := not_exists.mp hdots
      exact ⟨_, .inr ⟨hno, h.resolve_left hdots, rfl⟩⟩

theorem initSystem?_text : initSystem? l.text = some name ↔ l.IsName name := by
  rw [initSystem?_of_hasSystemBody l.hasSystemBody, shortestName?_eq_some_iff, isName_iff]

theorem exists_of_initSystem? {line : List Char} (h : initSystem? line = some name) :
    ∃ l : SystemLine, l.text = line := by
  obtain ⟨body, hbody⟩ := exists_hasSystemBody h
  rw [initSystem?_of_hasSystemBody hbody, shortestName?_eq_some_iff] at h
  obtain ⟨⟨⟨hne, hword⟩, behind, rfl, -⟩, -⟩ := h
  obtain ⟨first, more, rfl⟩ := List.exists_cons_of_ne_nil hne
  obtain ⟨word, rest, hparts, hisWord, hboundary⟩ :=
    exists_word_append (s := first :: more ++ behind) rfl (hword first List.mem_cons_self)
  obtain ⟨spaces, rfl⟩ := hbody
  refine ⟨⟨spaces, word, rest, hisWord, hboundary⟩, ?_⟩
  rw [text, hparts]

end SystemLine

theorem namesSystem_of_hasSystemBody {line body : List Char} (h : HasSystemBody line body)
    (name : List Char) : NamesSystem line name ↔ IsCut body name := by
  rw [namesSystem_iff]
  constructor
  · rintro ⟨body', h', hcut⟩
    rwa [h.unique h']
  · intro hcut
    exact ⟨body, h, hcut⟩

/-- **The name of a system line.** A line has one if it is made of spaces, the stem and a word, and
three dots stand in the word behind its first character, or behind the word and some blanks. The
name is the word up to the first such dots, or else the whole word; so it is the shortest of the
names that the line can be read with, which are all words. -/
theorem initSystem?_eq_some_iff (line : List Char) :
    ((initSystem? line).isSome ↔
      ∃ l : SystemLine, l.text = line ∧ ((∃ k, l.DotsAt k) ∨ l.DotsBehind)) ∧
    ∀ name,
      (initSystem? line = some name ↔ ∃ l : SystemLine, l.text = line ∧ l.IsName name) ∧
      (initSystem? line = some name ↔
        NamesSystem line name ∧ ∀ other, NamesSystem line other → name.length ≤ other.length) := by
  have hname : ∀ name, initSystem? line = some name ↔
      ∃ l : SystemLine, l.text = line ∧ l.IsName name := by
    intro name
    constructor
    · intro h
      obtain ⟨l, rfl⟩ := SystemLine.exists_of_initSystem? h
      exact ⟨l, rfl, SystemLine.initSystem?_text.mp h⟩
    · rintro ⟨l, rfl, hl⟩
      exact SystemLine.initSystem?_text.mpr hl
  refine ⟨?_, fun name => ⟨hname name, ?_⟩⟩
  · rw [Option.isSome_iff_exists]
    constructor
    · rintro ⟨name, h⟩
      obtain ⟨l, hl, hisName⟩ := (hname name).mp h
      exact ⟨l, hl, SystemLine.exists_isName_iff.mp ⟨name, hisName⟩⟩
    · rintro ⟨l, hl, hdots⟩
      obtain ⟨name, hisName⟩ := SystemLine.exists_isName_iff.mpr hdots
      exact ⟨name, (hname name).mpr ⟨l, hl, hisName⟩⟩
  · by_cases hbody : ∃ body, HasSystemBody line body
    · obtain ⟨body, hbody⟩ := hbody
      rw [initSystem?_of_hasSystemBody hbody, shortestName?_eq_some_iff]
      simp only [namesSystem_of_hasSystemBody hbody]
    · refine ⟨fun h => absurd (exists_hasSystemBody h) hbody, fun h => ?_⟩
      obtain ⟨body, h', -⟩ := namesSystem_iff.mp h.1
      exact absurd ⟨body, h'⟩ hbody

/-- Of two names in front of dots, one of them with dots of its own, the shorter is the name. -/
theorem initSystem?_of_dots :
    let line := "  INIT SYS ....a ...".toList
    initSystem? line = some ['.'] ∧
      (∃ l : SystemLine, l.text = line ∧ l.IsName ['.']) ∧
      NamesSystem line ['.'] ∧ NamesSystem line "....a".toList ∧
      ∀ other, NamesSystem line other → 1 ≤ other.length := by
  intro line
  have hname : initSystem? line = some ['.'] := by decide +kernel
  obtain ⟨hparts, hshortest⟩ := (initSystem?_eq_some_iff line).2 ['.']
  obtain ⟨hnames, hleast⟩ := hshortest.mp hname
  have hlong : NamesSystem line "....a".toList :=
    ⟨2, [' '], [], rfl, by decide, List.forall_mem_singleton.mpr (by decide)⟩
  exact ⟨hname, hparts.mp hname, hnames, hlong, hleast⟩

end DiskLens
