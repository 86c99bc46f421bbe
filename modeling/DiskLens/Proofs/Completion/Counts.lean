import DiskLens.Proofs.Completion.Insertion
import Mathlib.Data.List.DropRight

/-!
# Requests told by their bangs

What a request asks for depends on how many `!` stand on the two sides of the cursor, and on
whether anything but blanks follows the last one before it. The same numbers tell how many `!` the
line has once a name is inserted.

* `lastBang?_cases`: the text before the cursor has no `!`, or a last one.
* `isSome_lastBang?`, `bangBeforeLast_eq`, `loneBangBeforeCursor_eq`: what the rules look at.
* **`situation_eq_of_counts`**: what a request asks for.
* **`count_bang_inserted`**: a line after an insertion; `second_bang_inserted`: one with two.
-/

namespace DiskLens

/-! ## What the rules look at -/

/-- The text behind the last `!`, or all of it if there is none. -/
def behindLastBang (s : List Char) : List Char := s.rtakeWhile (· != '!')

theorem behindLastBang_append (front : List Char) {gap : List Char} (h : '!' ∉ gap) :
    behindLastBang (front ++ '!' :: gap) = gap := by
  have hgap : ∀ c ∈ gap.reverse, (c != '!') = true := by
    intro c hc
    simp only [bne_iff_ne, ne_eq]
    exact fun heq => h (heq ▸ List.mem_reverse.mp hc)
  have hrev : (front ++ '!' :: gap).reverse = gap.reverse ++ '!' :: front.reverse := by simp
  rw [behindLastBang, List.rtakeWhile, hrev, List.takeWhile_append_of_pos hgap,
    List.takeWhile_cons_of_neg (by simp), List.append_nil, List.reverse_reverse]

section Bangs

variable (ctx : CompletionContext)

theorem lastBang?_cases :
    (ctx.before.count '!' = 0 ∧ ctx.lastBang? = none) ∨
      ∃ front gap, ctx.before = front ++ '!' :: gap ∧ '!' ∉ gap ∧
        ctx.lastBang? = some front.length := by
  cases hlast : ctx.lastBang? with
  | none =>
    refine .inl ⟨?_, rfl⟩
    unfold CompletionContext.lastBang? at hlast
    split at hlast
    next => cases hlast
    next hno => exact List.count_eq_zero.mpr (by simpa using hno)
  | some k =>
    obtain ⟨front, gap, hbefore, hgap, rfl⟩ := lastBang?_eq_some hlast
    exact .inr ⟨front, gap, hbefore, hgap, rfl⟩

theorem isSome_lastBang? : ctx.lastBang?.isSome = decide (ctx.before.count '!' ≠ 0) := by
  obtain ⟨hcount, hlast⟩ | ⟨front, gap, hbefore, hgap, hlast⟩ := lastBang?_cases ctx
  · simp [hlast, hcount]
  · simp [hlast, hbefore]

/-- Another `!` stands before the last one if there are two. -/
theorem bangBeforeLast_eq : ctx.bangBeforeLast = decide (2 ≤ ctx.before.count '!') := by
  unfold CompletionContext.bangBeforeLast
  obtain ⟨hcount, hlast⟩ | ⟨front, gap, hbefore, hgap, hlast⟩ := lastBang?_cases ctx
  · simp [hlast, hcount]
  · have hcount : ctx.before.count '!' = front.count '!' + 1 := by
      rw [hbefore, List.count_append, List.count_cons_self, List.count_eq_zero.mpr hgap]
    have hfront : '!' ∈ front ↔ 2 ≤ front.count '!' + 1 := by
      rw [← List.count_pos_iff]
      omega
    rw [hlast, Option.any_some, hcount, hbefore, List.take_left, List.contains_eq_mem]
    simp only [hfront]

theorem loneBangBeforeCursor_eq : ctx.loneBangBeforeCursor =
    (decide (ctx.before.count '!' ≠ 0) && isBlankText (behindLastBang ctx.before)) := by
  unfold CompletionContext.loneBangBeforeCursor
  obtain ⟨hcount, hlast⟩ | ⟨front, gap, hbefore, hgap, hlast⟩ := lastBang?_cases ctx
  · simp [hlast, hcount]
  · have hdrop : (front ++ '!' :: gap).drop (front.length + 1) = gap := by
      rw [List.drop_append, Nat.add_sub_cancel_left]
      simp
    rw [hlast, Option.any_some, hbefore, hdrop, behindLastBang_append front hgap]
    simp

theorem contains_bang (s : List Char) : s.contains '!' = decide (s.count '!' ≠ 0) := by
  simp [List.count_eq_zero]

end Bangs

/-! ## What a request asks for -/

section Situation

variable {ctx : CompletionContext}

theorem situation_of_dot (h : ctx.trigger = some .dot) :
    situation ctx = if ctx.before.count '!' = 0 then .booleanLiteral else .noCompletion := by
  simp only [situation, situationRules, List.findSome?_cons, SituationRule.verdict?, h,
    contains_bang]
  by_cases hk : ctx.before.count '!' = 0 <;> simp [hk]

/-- The rules but the first, as one choice. -/
theorem situation_of_ne_dot (h : ctx.trigger ≠ some .dot) :
    situation ctx =
      if ctx.isBangRequest then
        if 2 ≤ ctx.before.count '!' ∨ ctx.after.count '!' ≠ 0 then .noCompletion else .explicitBang
      else if ctx.kind = .keyboard ∧ ctx.before.count '!' < 2 ∧
          (ctx.before.count '!' = 0 ∨ ctx.after.count '!' = 0) then .implicitBang
      else .noCompletion := by
  simp only [situation, situationRules, List.findSome?_cons, SituationRule.verdict?, if_pos h,
    contains_bang, isSome_lastBang?, bangBeforeLast_eq]
  generalize ctx.before.count '!' = k
  generalize ctx.after.count '!' = m
  cases ctx.isBangRequest with
  | true => by_cases hcount : 2 ≤ k ∨ m ≠ 0 <;> simp [hcount]
  | false =>
    cases ctx.kind with
    | character => simp
    | keyboard =>
      by_cases hk : 2 ≤ k
      · simp [hk, Nat.not_lt.mpr hk]
      · by_cases hboth : k ≠ 0 ∧ m ≠ 0
        · simp [hk, hboth]
        · have hone : k = 0 ∨ m = 0 := by omega
          have hlt : k < 2 := by omega
          simp [hk, hboth, hone, hlt]

theorem isBangRequest_of_character (h : ctx.kind = .character) :
    ctx.isBangRequest = true ↔ ctx.trigger = some .bang ∧ ctx.before.count '!' ≠ 0 := by
  simp [CompletionContext.isBangRequest, h, isSome_lastBang?]

theorem isBangRequest_of_keyboard (h : ctx.kind = .keyboard) :
    ctx.isBangRequest = true ↔
      ctx.before.count '!' ≠ 0 ∧ isBlankText (behindLastBang ctx.before) = true := by
  simp [CompletionContext.isBangRequest, h, loneBangBeforeCursor_eq]

theorem situation_of_character (htrigger : ctx.trigger ≠ some .dot)
    (hkind : ctx.kind = .character) :
    situation ctx =
      if ctx.trigger = some .bang ∧ ctx.before.count '!' = 1 ∧ ctx.after.count '!' = 0 then
        .explicitBang
      else .noCompletion := by
  rw [situation_of_ne_dot htrigger]
  simp only [isBangRequest_of_character hkind, hkind, reduceCtorEq, false_and, if_false]
  by_cases hbang : ctx.trigger = some .bang
  · simp only [hbang, true_and]
    grind
  · simp [hbang]

theorem situation_of_keyboard (htrigger : ctx.trigger ≠ some .dot) (hkind : ctx.kind = .keyboard) :
    situation ctx =
      if ctx.before.count '!' = 0 ∨ ctx.before.count '!' = 1 ∧ ctx.after.count '!' = 0 ∧
          ¬ isBlankText (behindLastBang ctx.before) then .implicitBang
      else if ctx.before.count '!' = 1 ∧ ctx.after.count '!' = 0 ∧
          isBlankText (behindLastBang ctx.before) then .explicitBang
      else .noCompletion := by
  rw [situation_of_ne_dot htrigger]
  simp only [isBangRequest_of_keyboard hkind, hkind, true_and]
  cases isBlankText (behindLastBang ctx.before) <;> grind

end Situation

/-- **What a request asks for, told by its bangs.** Let `p` be the cursor, moved into the line, `k`
and `m` the numbers of `!` before and behind it, and let `g` say that only blanks follow the last
`!` before it. A `.` asks for a logical literal, unless a `!` stands before it. A `!` that was typed
asks for a name if it is the only one and stands before the cursor. The keyboard asks for a name
behind such a `!` if only blanks follow it, and for one with a `!` of its own if something else
does, or if no `!` stands before the cursor at all. -/
theorem situation_eq_of_counts (line : List Char) (cursor : Int) (trigger : Option TriggerChar)
    (kind : TriggerKind) :
    let p := (max 0 (min cursor line.length)).toNat
    let k := (line.take p).count '!'
    let m := (line.drop p).count '!'
    let g := isBlankText (behindLastBang (line.take p))
    situation ⟨line, cursor, trigger, kind⟩ =
      if trigger = some .dot then if k = 0 then .booleanLiteral else .noCompletion
      else match kind with
        | .character =>
          if trigger = some .bang ∧ k = 1 ∧ m = 0 then .explicitBang else .noCompletion
        | .keyboard =>
          if k = 0 ∨ k = 1 ∧ m = 0 ∧ ¬ g then .implicitBang
          else if k = 1 ∧ m = 0 ∧ g then .explicitBang
          else .noCompletion := by
  intro p k m g
  let ctx : CompletionContext := ⟨line, cursor, trigger, kind⟩
  have hoffset : ctx.offset = p := by
    simp only [CompletionContext.offset, ctx, p]
    omega
  have hbefore : ctx.before = line.take p := by rw [CompletionContext.before, hoffset]
  have hafter : ctx.after = line.drop p := by rw [CompletionContext.after, hoffset]
  by_cases htrigger : trigger = some .dot
  · rw [if_pos htrigger, situation_of_dot htrigger, hbefore]
  · rw [if_neg htrigger]
    cases kind with
    | character => rw [situation_of_character htrigger rfl, hbefore, hafter]
    | keyboard => rw [situation_of_keyboard htrigger rfl, hbefore, hafter]

/-! ## A line after an insertion -/

section Inserted

variable {ctx : CompletionContext}

theorem count_bang_line (ctx : CompletionContext) :
    ctx.line.count '!' = ctx.before.count '!' + ctx.after.count '!' := by
  unfold CompletionContext.before CompletionContext.after
  rw [← List.count_append, List.take_append_drop]

theorem count_bang_insert (ctx : CompletionContext) (text : String) :
    (ctx.insert text).count '!' = ctx.line.count '!' + text.toList.count '!' := by
  unfold CompletionContext.insert
  rw [List.count_append, List.count_append, count_bang_line]
  omega

/-- The line of a request for a name behind a `!` has no other one. -/
theorem count_bang_of_explicitBang (h : situation ctx = .explicitBang) :
    ctx.line.count '!' = 1 := by
  obtain ⟨-, hask, hlast, hafter⟩ := (situation_eq_explicitBang_iff ctx).mp h
  have hbang : ctx.before.count '!' ≠ 0 := by
    cases hkind : ctx.kind with
    | character => exact ((isBangRequest_of_character hkind).mp hask).2
    | keyboard => exact ((isBangRequest_of_keyboard hkind).mp hask).1
  have honce : ¬ 2 ≤ ctx.before.count '!' := by simpa [bangBeforeLast_eq] using hlast
  have hnone : ctx.after.count '!' = 0 := List.count_eq_zero.mpr (by simpa using hafter)
  rw [count_bang_line]
  omega

/-- A parameter whose texts have no `!`. -/
structure Parameter.Bangless (p : Parameter) : Prop where
  name : '!' ∉ p.name.toList
  unit : '!' ∉ p.unit.toList
  description : '!' ∉ p.description.toList

instance (p : Parameter) : Decidable p.Bangless :=
  decidable_of_iff ('!' ∉ p.name.toList ∧ '!' ∉ p.unit.toList ∧ '!' ∉ p.description.toList)
    ⟨fun h => ⟨h.1, h.2.1, h.2.2⟩, fun h => ⟨h.1, h.2, h.3⟩⟩

theorem Parameter.Bangless.lineEnding {p : Parameter} (h : p.Bangless) :
    '!' ∉ p.lineEnding.toList := by
  have hunit := h.unit
  have hdescription := h.description
  unfold Parameter.lineEnding
  split_ifs <;> simp_all

/-- Of what is inserted, only the lead has a `!`. -/
theorem count_bang_insertText {p : Parameter} (h : p.Bangless) (lead : String) (atEnd : Bool) :
    ((BaseSuggestion.of lead p).finish atEnd).insertText.toList.count '!' =
      lead.toList.count '!' := by
  have hname := List.count_eq_zero.mpr h.name
  have hending := List.count_eq_zero.mpr h.lineEnding
  cases atEnd with
  | false => simp [BaseSuggestion.finish, BaseSuggestion.of, hname]
  | true => simp [BaseSuggestion.finish, BaseSuggestion.of, hname, hending]

end Inserted

/-- **A line after an insertion.** If a parameter whose texts have no `!` is offered for a name, the
line in which it is inserted has one `!` for the name that was asked for behind a `!`, and otherwise
one more than before. So it has exactly one, unless the name comes with a `!` of its own into a line
that has one already, on either side of the cursor. -/
theorem count_bang_inserted (c : Catalog) {i : Nat} {p : Parameter}
    (hp : c.parameters[i]? = some p) (htexts : p.Bangless) (ctx : CompletionContext)
    (hctx : situation ctx = .explicitBang ∨ situation ctx = .implicitBang) :
    ∃ s, (complete c ctx)[i]? = some s ∧ s.label = p.name ∧
      (ctx.insert s.insertText).count '!' =
        (if situation ctx = .explicitBang then 1 else ctx.line.count '!' + 1) ∧
      ((ctx.insert s.insertText).count '!' = 1 ↔
        ¬ (situation ctx = .implicitBang ∧ '!' ∈ ctx.line)) := by
  obtain ⟨lead, hlead, hbangs⟩ : ∃ lead, (situation ctx).lead? = some lead ∧
      ctx.line.count '!' + lead.toList.count '!' =
        if situation ctx = .explicitBang then 1 else ctx.line.count '!' + 1 := by
    obtain h | h := hctx
    · refine ⟨" ", by rw [h]; rfl, ?_⟩
      rw [if_pos h, count_bang_of_explicitBang h]
      rfl
    · refine ⟨"! ", by rw [h]; rfl, ?_⟩
      rw [if_neg (by simp [h])]
      rfl
  have hcount : (ctx.insert ((BaseSuggestion.of lead p).finish ctx.atEndOfLine).insertText).count
      '!' = if situation ctx = .explicitBang then 1 else ctx.line.count '!' + 1 := by
    rw [count_bang_insert, count_bang_insertText htexts, hbangs]
  refine ⟨_, complete_getElem? hlead hp, ?_, hcount, ?_⟩
  · cases ctx.atEndOfLine <;> rfl
  · rw [hcount]
    obtain h | h := hctx
    · simp [h]
    · simp [h, List.count_eq_zero]

/-- The disk mass, inserted behind a `!`, behind the start of a name, and in front of a `!`. Only
the first line keeps to one `!`. -/
theorem count_bang_inserted_mdisk :
    let c : Catalog := ⟨builtInParameters, 0⟩
    let behindBang : CompletionContext := ⟨"0.01  !".toList, 7, some .bang, .character⟩
    let behindName : CompletionContext := ⟨"0.01  ! Md".toList, 10, none, .keyboard⟩
    let inFront : CompletionContext := ⟨"0.01  ! Mdisk".toList, 4, none, .keyboard⟩
    (∃ s, (complete c behindBang)[3]? = some s ∧
      (behindBang.insert s.insertText).count '!' = 1) ∧
    (∃ s, (complete c behindName)[3]? = some s ∧
      (behindName.insert s.insertText).count '!' = 2) ∧
    ∃ s, (complete c inFront)[3]? = some s ∧ (inFront.insert s.insertText).count '!' = 2 := by
  intro c behindBang behindName inFront
  have hp : c.parameters[3]? = some ⟨"Mdisk", "real", "0.01", "Msun", "disk mass",
    ["DiskStructure.md", "DiskMass.md"]⟩ := rfl
  have hbang : situation behindBang = .explicitBang := by decide +kernel
  have hname : situation behindName = .implicitBang := by decide +kernel
  have hfront : situation inFront = .implicitBang := by decide +kernel
  refine ⟨?_, ?_, ?_⟩
  · obtain ⟨s, hs, -, hcount, -⟩ :=
      count_bang_inserted c hp (by decide +kernel) behindBang (.inl hbang)
    exact ⟨s, hs, by rw [hcount, if_pos hbang]⟩
  · obtain ⟨s, hs, -, hcount, -⟩ :=
      count_bang_inserted c hp (by decide +kernel) behindName (.inr hname)
    exact ⟨s, hs, by rw [hcount, hname]; decide⟩
  · obtain ⟨s, hs, -, hcount, -⟩ :=
      count_bang_inserted c hp (by decide +kernel) inFront (.inr hfront)
    exact ⟨s, hs, by rw [hcount, hfront]; decide⟩

/-- **Not every line keeps to one `!`**: behind the start of a name, a name is offered with a `!` of
its own. -/
theorem second_bang_inserted :
    let p : Parameter := ⟨"Mdisk", "", "", "", "", []⟩
    let ctx : CompletionContext := ⟨"0.01  ! Md".toList, 10, none, .keyboard⟩
    p.Bangless ∧ situation ctx = .implicitBang ∧
      ¬ ∀ s ∈ complete ⟨[p], 0⟩ ctx, (ctx.insert s.insertText).count '!' = 1 := by
  decide +kernel

end DiskLens
