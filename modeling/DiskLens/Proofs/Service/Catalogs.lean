import DiskLens.Service.Session

/-!
# What a request for a catalog can do

A catalog on demand answers from what is there, repeats the error it was given up for, or reads its
source. All that later statements use of it is said here once.

* `LazyCatalog.get_cases`, `LazyCatalog.load_cases`: the outcomes of `get` and `load`.
* **`LazyCatalog.Follows`**: no catalog comes back under a number that was used before.
* `LazyCatalog.get_present`: the catalog that is handed out is the one that is kept.
-/

namespace DiskLens

namespace LazyCatalog

/-! ## Outcomes -/

theorem get_cases (loader : Loader) (l : LazyCatalog) :
    (∃ c, l.present = some c ∧ l.get loader = ⟨.ok c, [], l⟩) ∨
      (l.present = none ∧ l.get loader = l.load loader) := by
  cases h : l.present with
  | none => exact .inr ⟨rfl, by simp [get, h]⟩
  | some c => exact .inl ⟨c, rfl, by simp [get, h]⟩

/-- **What loading can do**: repeat an error, find a catalog, give the source up, or fail for
another reason and leave everything as it is. -/
theorem load_cases (loader : Loader) (l : LazyCatalog) :
    (∃ e, l.fault = some e ∧ l.load loader = ⟨.error (.source e), [], l⟩) ∨
    (l.fault = none ∧ ∃ c, loadCatalog loader l.source l.generation = .ok c ∧
      l.load loader = ⟨.ok ⟨l.loads, c⟩, [.loaded c.size l.source],
        { l with loads := l.loads + 1, present := some ⟨l.loads, c⟩ }⟩) ∨
    (l.fault = none ∧ ∃ e, loadCatalog loader l.source l.generation = .error (.source e) ∧
      l.load loader = ⟨.error (.source e), [.unavailable e], { l with fault := some e }⟩) ∨
    (l.fault = none ∧ ∃ e, (∀ e', e ≠ .source e') ∧
      loadCatalog loader l.source l.generation = .error e ∧ l.load loader = ⟨.error e, [], l⟩) := by
  cases hf : l.fault with
  | some e => exact .inl ⟨e, rfl, by simp [load, hf]⟩
  | none =>
    cases hc : loadCatalog loader l.source l.generation with
    | ok c => exact .inr (.inl ⟨rfl, c, rfl, by simp [load, hf, hc]⟩)
    | error e =>
      cases e with
      | source e => exact .inr (.inr (.inl ⟨rfl, e, rfl, by simp [load, hf, hc]⟩))
      | nullByte | blankSource | tooDeep =>
        exact .inr (.inr (.inr ⟨rfl, _, by simp, rfl, by simp [load, hf, hc]⟩))

/-! ## Numbers of catalogs -/

/-- **`l'` comes after `l`**: the catalog of `l'` is that of `l` or has a number that `l` has not
reached. -/
def Follows (l l' : LazyCatalog) : Prop :=
  l.loads ≤ l'.loads ∧
    ∀ c, l'.present = some c → l.present = some c ∨ (l.loads ≤ c.serial ∧ c.serial < l'.loads)

theorem Follows.refl (l : LazyCatalog) : l.Follows l := ⟨Nat.le_refl _, fun _ h => .inl h⟩

theorem load_follows (loader : Loader) (l : LazyCatalog) : l.Follows (l.load loader).next := by
  obtain ⟨e, -, h⟩ | ⟨-, c, -, h⟩ | ⟨-, e, -, h⟩ | ⟨-, e, -, -, h⟩ := l.load_cases loader
  · rw [h]; exact .refl l
  · rw [h]
    refine ⟨Nat.le_succ _, fun c' hc' => .inr ?_⟩
    obtain rfl := Option.some.inj hc'
    exact ⟨Nat.le_refl _, Nat.lt_succ_self _⟩
  · rw [h]; exact ⟨Nat.le_refl _, fun _ h' => .inl h'⟩
  · rw [h]; exact .refl l

theorem get_follows (loader : Loader) (l : LazyCatalog) : l.Follows (l.get loader).next := by
  obtain ⟨c, -, h⟩ | ⟨-, h⟩ := l.get_cases loader
  · rw [h]; exact .refl l
  · rw [h]; exact l.load_follows loader

theorem reload_follows (loader : Loader) (l : LazyCatalog) : l.Follows (l.reload loader).next := by
  obtain ⟨hle, hnew⟩ :=
    load_follows loader { l with generation := l.generation + 1, present := none }
  refine ⟨hle, fun c hc => ?_⟩
  obtain h | h := hnew c hc
  · cases h
  · exact .inr h

theorem load_present {loader : Loader} {l : LazyCatalog} {c : LoadedCatalog}
    (h : (l.load loader).answer = .ok c) : (l.load loader).next.present = some c := by
  obtain ⟨e, -, hl⟩ | ⟨-, c', -, hl⟩ | ⟨-, e, -, hl⟩ | ⟨-, e, -, -, hl⟩ := l.load_cases loader <;>
    rw [hl] at h ⊢ <;> cases h
  rfl

theorem get_present {loader : Loader} {l : LazyCatalog} {c : LoadedCatalog}
    (h : (l.get loader).answer = .ok c) : (l.get loader).next.present = some c := by
  obtain ⟨c', hp, hg⟩ | ⟨-, hg⟩ := l.get_cases loader
  · rw [hg] at h ⊢
    cases h
    exact hp
  · rw [hg] at h ⊢
    exact load_present h

end LazyCatalog

end DiskLens
