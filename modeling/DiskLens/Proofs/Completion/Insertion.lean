import DiskLens.Completion.Suggestion
import DiskLens.Proofs.Catalog.Names
import DiskLens.Proofs.Hover.Names

/-!
# Hovering over what was inserted

A name that completion puts into a line is the name that hovering finds there, with two conditions:
the `!` that it goes with is the first of the line, and no other mark, which is a `!` with a space
behind it, follows.

* **`NamedAt`**: a name behind the first mark of a line; `hover_of_namedAt`: what hovering finds.
* `lastBang?_eq_some`, `situation_eq_explicitBang_iff`: the `!` of a request.
* `namedAt_explicit`, `namedAt_implicit`: the line after an insertion; `insertText_finish`: what is
  inserted.
* **`hover_inserted`**: hovering over an inserted name.
-/

namespace DiskLens

/-! ## A name in a line -/

/-- **A name stands behind the first mark of a line**, at place `q`, with spaces in front of it and
a space behind it. -/
def NamedAt (line name : List Char) (q : Nat) : Prop :=
  ∃ before gap tail, '!' ∉ before ∧ (∀ c ∈ gap, c = ' ') ∧
    line = before ++ '!' :: ' ' :: (gap ++ (name ++ ' ' :: tail)) ∧
    q = before.length + markWidth + gap.length

section Named

variable {line name : List Char} {q : Nat}

theorem NamedAt.name_prefix (h : NamedAt line name q) : name <+: line.drop q := by
  obtain ⟨before, gap, tail, -, -, rfl, rfl⟩ := h
  rw [drop_named]
  exact ⟨' ' :: tail, rfl⟩

/-- The name in the line is the one at that place, unless another mark follows. -/
theorem nameIn?_of_namedAt (h : NamedAt line name q) (hname : IsWord name) :
    (¬ HasMark (line.drop q) → nameIn? line = some (q, name)) ∧
      (HasMark (line.drop q) → nameIn? line = none) := by
  obtain ⟨before, gap, tail, hbefore, hgap, rfl, rfl⟩ := h
  have hv : ¬ HasMark before := not_hasMark_of_not_mem hbefore
  have hbang : '!' ∉ gap := fun hmem => absurd (hgap _ hmem) (by decide)
  have hmark : HasMark (gap ++ (name ++ ' ' :: tail)) ↔ HasMark (name ++ ' ' :: tail) :=
    hasMark_append_iff hbang _
  rw [drop_named]
  refine ⟨fun hno => ?_, fun hyes => ?_⟩
  · refine nameIn?_eq_some_iff.mpr ⟨before, gap, ' ' :: tail,
      ⟨rfl, onlyMark_iff.mpr ⟨hv, mt hmark.mp hno⟩, fun c hc => ?_, hname, fun c hc => ?_⟩, rfl⟩
    · rw [hgap c hc]
      rfl
    · cases hc
      rfl
  · have hsome : (splitAtMark? (gap ++ (name ++ ' ' :: tail))).isSome := by
      rw [Option.isSome_iff_ne_none]
      exact fun hnone => (splitAtMark?_eq_none_iff _).mp hnone (hmark.mpr hyes)
    rw [nameIn?, splitAtMark?_eq_some_iff.mpr ⟨rfl, hv⟩]
    simp only [hsome, if_true]

/-- **Hovering over a name that a catalog knows.** -/
theorem hover_of_namedAt {c : Catalog} {p : Parameter} (hlookup : c.lookup p.name = some p)
    (h : NamedAt line p.name.toList q) (hname : IsWord p.name.toList) (base : String)
    {cursor : Int} (hlow : q ≤ cursor) (hhigh : cursor ≤ q + p.name.length) :
    (¬ HasMark (line.drop q) →
        hover c base (String.ofList line) cursor = some (p.hoverText base)) ∧
      (HasMark (line.drop q) → hover c base (String.ofList line) cursor = none) := by
  obtain ⟨hone, hmore⟩ := nameIn?_of_namedAt h hname
  unfold hover nameAt?
  rw [String.toList_ofList]
  refine ⟨fun hno => ?_, fun hyes => ?_⟩
  · have hcursor : (q : Int) ≤ cursor ∧ cursor ≤ q + p.name.toList.length := by
      rw [String.length_toList]
      exact ⟨hlow, hhigh⟩
    rw [hone hno]
    simp only [if_pos hcursor]
    show ((c.lookup (String.ofList p.name.toList)).bind fun p => some (p.hoverText base)) = _
    rw [String.ofList_toList, hlookup]
    rfl
  · rw [hmore hyes]
    rfl

end Named

/-! ## The request -/

section Request

variable {ctx : CompletionContext}

theorem length_before (ctx : CompletionContext) : ctx.before.length = ctx.offset := by
  unfold CompletionContext.before CompletionContext.offset
  rw [List.length_take]
  omega

/-- The last `!` before the cursor, and what stands around it. -/
theorem lastBang?_eq_some {k : Nat} (h : ctx.lastBang? = some k) :
    ∃ front gap, ctx.before = front ++ '!' :: gap ∧ '!' ∉ gap ∧ front.length = k := by
  unfold CompletionContext.lastBang? at h
  split at h
  next hmem =>
    have hmem' : '!' ∈ ctx.before.reverse := by simpa using hmem
    obtain ⟨gap, front, hrev, hgap⟩ := List.eq_append_cons_of_mem hmem'
    have hword : ∀ c ∈ gap, (c != '!') = true := by
      intro c hc
      simp only [bne_iff_ne, ne_eq]
      exact fun heq => hgap (heq ▸ hc)
    have hbefore : ctx.before = front.reverse ++ '!' :: gap.reverse := by
      rw [← List.reverse_reverse ctx.before, hrev]
      simp
    have hlength := congrArg List.length hbefore
    refine ⟨front.reverse, gap.reverse, hbefore, by simpa using hgap, ?_⟩
    rw [hrev, List.takeWhile_append_of_pos hword, List.takeWhile_cons_of_neg (by simp),
      List.append_nil] at h
    simp only [List.length_append, List.length_cons, List.length_reverse] at hlength ⊢
    have := Option.some.inj h
    omega
  next => cases h

/-- **When a name is offered for the `!` that is there**: one is asked for, and it is the only one
in the line. -/
theorem situation_eq_explicitBang_iff (ctx : CompletionContext) :
    situation ctx = .explicitBang ↔ ctx.trigger ≠ some .dot ∧ ctx.isBangRequest ∧
      ctx.bangBeforeLast = false ∧ ctx.after.contains '!' = false := by
  have hlater : SituationRule.implicitBang.verdict? ctx ≠ some .explicitBang := by
    unfold SituationRule.verdict?
    grind
  unfold situation situationRules
  by_cases hdot : ctx.trigger = some .dot
  · cases hbefore : ctx.before.contains '!' <;>
      simp [SituationRule.verdict?, hdot, hbefore, -List.contains_eq_mem]
  · cases hask : ctx.isBangRequest with
    | true =>
      cases hlast : ctx.bangBeforeLast <;> cases hafter : ctx.after.contains '!' <;>
        simp [SituationRule.verdict?, hdot, hask, hlast, hafter, -List.contains_eq_mem]
    | false =>
      have hpass : SituationRule.explicitBang.verdict? ctx = none := by
        simp [SituationRule.verdict?, hask]
      have hpass' : SituationRule.booleanLiteral.verdict? ctx = none := by
        simp [SituationRule.verdict?, hdot]
      rw [List.findSome?_cons, hpass', List.findSome?_cons, hpass, List.findSome?_cons]
      cases hverdict : SituationRule.implicitBang.verdict? ctx with
      | none => simp [SituationRule.verdict?]
      | some verdict => simpa [hverdict] using hlater

/-! ## The line after an insertion -/

/-- Only spaces stand between the last `!` before the cursor and the cursor. -/
def CompletionContext.RightBehindBang (ctx : CompletionContext) : Prop :=
  ∃ k, ctx.lastBang? = some k ∧ ∀ c ∈ ctx.before.drop (k + 1), c = ' '

instance (ctx : CompletionContext) : Decidable ctx.RightBehindBang :=
  decidable_of_iff (ctx.lastBang?.any fun k => (ctx.before.drop (k + 1)).all (· == ' '))
    (by simp [CompletionContext.RightBehindBang, Option.any_eq_true])

/-- A space and a name, put behind the `!` that is there. -/
theorem namedAt_explicit (h : situation ctx = .explicitBang) (hspaces : ctx.RightBehindBang)
    (name tail : List Char) :
    NamedAt (ctx.before ++ ' ' :: (name ++ ' ' :: tail)) name (ctx.offset + 1) := by
  obtain ⟨k, hk, hgap⟩ := hspaces
  obtain ⟨front, gap, hbefore, -, rfl⟩ := lastBang?_eq_some hk
  have hfront : '!' ∉ front := by
    have honly := ((situation_eq_explicitBang_iff ctx).mp h).2.2.1
    unfold CompletionContext.bangBeforeLast at honly
    rw [hk, hbefore] at honly
    simpa using honly
  have hspace : ∀ c ∈ gap, c = ' ' := by
    intro c hc
    refine hgap c ?_
    rw [hbefore, List.drop_append, Nat.add_sub_cancel_left]
    exact List.mem_append_right _ hc
  -- the spaces before the cursor and the one that is inserted can be told apart in either order
  have hmove : gap ++ [' '] = ' ' :: gap := by
    rw [List.eq_replicate_of_mem hspace, ← List.replicate_succ', List.replicate_succ]
  refine ⟨front, gap, tail, hfront, hspace, ?_, ?_⟩
  · calc ctx.before ++ ' ' :: (name ++ ' ' :: tail)
      _ = front ++ '!' :: ((gap ++ [' ']) ++ (name ++ ' ' :: tail)) := by simp [hbefore]
      _ = front ++ '!' :: ' ' :: (gap ++ (name ++ ' ' :: tail)) := by rw [hmove]; rfl
  · rw [← length_before, hbefore]
    simp [markWidth]
    omega

/-- A `!`, a space and a name, put into a line that has no `!` yet. -/
theorem namedAt_implicit (h : '!' ∉ ctx.before) (name tail : List Char) :
    NamedAt (ctx.before ++ '!' :: ' ' :: (name ++ ' ' :: tail)) name (ctx.offset + 2) := by
  refine ⟨ctx.before, [], tail, h, ?_, rfl, ?_⟩
  · exact fun c hc => nomatch hc
  · rw [length_before]
    rfl

end Request

/-! ## Inserted names -/

/-- The suggestion for a parameter. -/
theorem complete_getElem? {c : Catalog} {ctx : CompletionContext} {lead : String} {i : Nat}
    {p : Parameter} (hlead : (situation ctx).lead? = some lead) (hp : c.parameters[i]? = some p) :
    (complete c ctx)[i]? = some ((BaseSuggestion.of lead p).finish ctx.atEndOfLine) := by
  unfold complete suggestionsFor baseSuggestions
  rw [hlead]
  simp [hp]

/-- What is inserted starts with the lead, the name and a space. -/
theorem insertText_finish (lead : String) (p : Parameter) (atEndOfLine : Bool) :
    ∃ ending, ((BaseSuggestion.of lead p).finish atEndOfLine).insertText.toList =
      lead.toList ++ (p.name.toList ++ ' ' :: ending) := by
  have hspace : " ".toList = [' '] := rfl
  cases atEndOfLine with
  | false => exact ⟨[], by simp [BaseSuggestion.finish, BaseSuggestion.of, hspace]⟩
  | true =>
    exact ⟨p.lineEnding.toList, by simp [BaseSuggestion.finish, BaseSuggestion.of, hspace]⟩

/-- The line after an insertion at the cursor. -/
def CompletionContext.insert (ctx : CompletionContext) (text : String) : List Char :=
  ctx.before ++ text.toList ++ ctx.after

/-- Where a name comes to stand that is inserted at the cursor. -/
def CompletionContext.namePlace (ctx : CompletionContext) : Nat :=
  ctx.offset + if situation ctx = .explicitBang then 1 else 2

/-- **Hovering over an inserted name.** Let a name of a loaded catalog be offered behind the only
`!` before the cursor, with nothing but spaces in between, or with a `!` of its own where the line
has none before the cursor. Once it is inserted, hovering over it gives the text of its parameter if
and only if no mark follows from the name on, and nothing otherwise. -/
theorem hover_inserted {loader : Loader} {source : CatalogSource} {generation : Int} {c : Catalog}
    (hload : loadCatalog loader source generation = .ok c) {i : Nat} {p : Parameter}
    (hp : c.parameters[i]? = some p) (hname : IsWord p.name.toList) (ctx : CompletionContext)
    (hctx : situation ctx = .explicitBang ∧ ctx.RightBehindBang ∨
      situation ctx = .implicitBang ∧ '!' ∉ ctx.before) (base : String) :
    ∃ s, (complete c ctx)[i]? = some s ∧ s.label = p.name ∧
      let line := ctx.insert s.insertText
      let q := ctx.namePlace
      p.name.toList <+: line.drop q ∧
      ∀ cursor : Int, q ≤ cursor → cursor ≤ q + p.name.length →
        (hover c base (String.ofList line) cursor = some (p.hoverText base) ↔
          ¬ HasMark (line.drop q)) ∧
        (HasMark (line.drop q) → hover c base (String.ofList line) cursor = none) := by
  have hlookup := c.lookup_of_mem (loadCatalog_names_nodup hload) (List.mem_of_getElem? hp)
  obtain ⟨lead, hlead, hline⟩ : ∃ lead, (situation ctx).lead? = some lead ∧ ∀ tail,
      NamedAt (ctx.before ++ (lead.toList ++ (p.name.toList ++ ' ' :: tail))) p.name.toList
        ctx.namePlace := by
    unfold CompletionContext.namePlace
    rcases hctx with ⟨hsituation, hspaces⟩ | ⟨hsituation, hbefore⟩
    · refine ⟨" ", by rw [hsituation]; rfl, fun tail => ?_⟩
      rw [if_pos hsituation]
      exact namedAt_explicit hsituation hspaces p.name.toList tail
    · refine ⟨"! ", by rw [hsituation]; rfl, fun tail => ?_⟩
      rw [if_neg (by simp [hsituation])]
      exact namedAt_implicit hbefore p.name.toList tail
  obtain ⟨ending, hending⟩ := insertText_finish lead p ctx.atEndOfLine
  refine ⟨_, complete_getElem? hlead hp, ?_, ?_⟩
  · cases ctx.atEndOfLine <;> rfl
  · intro line q
    have hnamed : NamedAt line p.name.toList q := by
      have hsplit : line = ctx.before ++ (lead.toList ++ (p.name.toList ++
          ' ' :: (ending ++ ctx.after))) := by
        simp [line, CompletionContext.insert, hending]
      rw [hsplit]
      exact hline (ending ++ ctx.after)
    refine ⟨hnamed.name_prefix, fun cursor hlow hhigh => ?_⟩
    obtain ⟨hone, hmore⟩ := hover_of_namedAt hlookup hnamed hname base hlow hhigh
    refine ⟨⟨fun hsome hmark => ?_, hone⟩, hmore⟩
    rw [hmore hmark] at hsome
    cases hsome

/-- The disk mass, inserted behind a `!` at the end of a line, and in front of a mark that the line
has already. -/
theorem hover_inserted_mdisk :
    let c : Catalog := ⟨builtInParameters, 0⟩
    let p : Parameter := ⟨"Mdisk", "real", "0.01", "Msun", "disk mass",
      ["DiskStructure.md", "DiskMass.md"]⟩
    let atEnd : CompletionContext := ⟨"0.01 ! ".toList, 99, none, .keyboard⟩
    let inFront : CompletionContext := ⟨"0.01 ! Mdisk".toList, 4, none, .keyboard⟩
    (∃ s, (complete c atEnd)[3]? = some s ∧
      hover c defaultWikiBase (String.ofList (atEnd.insert s.insertText)) 13 =
        some (p.hoverText defaultWikiBase)) ∧
    ∃ s, (complete c inFront)[3]? = some s ∧
      hover c defaultWikiBase (String.ofList (inFront.insert s.insertText)) 6 = none := by
  intro c p atEnd inFront
  have hload : loadCatalog ⟨fun _ => .error .nullByte, .ample⟩ .builtIn 0 = .ok c := rfl
  have hp : c.parameters[3]? = some p := rfl
  have hname : IsWord p.name.toList := by decide +kernel
  refine ⟨?_, ?_⟩
  · have hsituation : situation atEnd = .explicitBang := by decide +kernel
    have hspaces : atEnd.RightBehindBang := by decide +kernel
    have hmark : ∀ s ∈ (complete c atEnd)[3]?,
        ¬ HasMark ((atEnd.insert s.insertText).drop atEnd.namePlace) := by decide +kernel
    obtain ⟨s, hs, -, -, hhover⟩ :=
      hover_inserted hload hp hname atEnd (.inl ⟨hsituation, hspaces⟩) defaultWikiBase
    have hcursor := hhover 13 (by decide +kernel) (by decide +kernel)
    exact ⟨s, hs, hcursor.1.mpr (hmark s hs)⟩
  · have hsituation : situation inFront = .implicitBang := by decide +kernel
    have hbefore : '!' ∉ inFront.before := by decide +kernel
    have hmark : ∀ s ∈ (complete c inFront)[3]?,
        HasMark ((inFront.insert s.insertText).drop inFront.namePlace) := by decide +kernel
    obtain ⟨s, hs, -, -, hhover⟩ :=
      hover_inserted hload hp hname inFront (.inr ⟨hsituation, hbefore⟩) defaultWikiBase
    have hcursor := hhover 6 (by decide +kernel) (by decide +kernel)
    exact ⟨s, hs, hcursor.2 (hmark s hs)⟩

end DiskLens
