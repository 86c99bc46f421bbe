import DiskLens.Completion.Cache
import Mathlib.Data.Finset.Card
import Mathlib.Data.List.Nodup

/-!
# What a cache remembers

A cache keeps the keys that were used last, and no other. So all that can be seen of it but its
values is told by the keys that were used, in their order.

* **`recentKeys`**: the keys that were used last, each once.
* `recentKeys_cons`: one more use; `length_recentKeys`: how many they are.
* **`RecentCache.ToldBy`**: a cache is told by the keys used; `ToldBy.fetch`: one more fetch.
-/

namespace DiskLens

section RecentKeys

variable {κ ι : Type} [DecidableEq κ] [DecidableEq ι]

/-- **The `n` keys that were used last**, the last one in front and each once. The uses are listed
from the last one on. -/
def recentKeys (n : Nat) (uses : List κ) : List κ := uses.eraseDups.take n

/-! ## Each key once -/

theorem eraseDups_filter (p : κ → Bool) (l : List κ) :
    (l.filter p).eraseDups = l.eraseDups.filter p := by
  match l with
  | [] => rfl
  | k :: l =>
    have hlength := List.length_filter_le (fun b => !b == k) l
    rw [List.eraseDups_cons]
    by_cases hk : p k
    · rw [List.filter_cons_of_pos hk, List.filter_cons_of_pos hk, List.eraseDups_cons,
        List.filter_comm, eraseDups_filter p (l.filter fun b => !b == k)]
    · -- what is not kept need not be taken out once more
      have hsame : (l.filter fun b => !b == k).filter p = l.filter p := by
        rw [List.filter_filter]
        refine List.filter_congr fun b _ => ?_
        by_cases hb : b = k <;> simp [hb, hk]
      rw [List.filter_cons_of_neg hk, List.filter_cons_of_neg hk, ← hsame,
        eraseDups_filter p (l.filter fun b => !b == k)]
termination_by l.length
decreasing_by all_goals simp only [List.length_cons]; omega

theorem eraseDups_cons_eq (k : κ) (l : List κ) :
    (k :: l).eraseDups = k :: l.eraseDups.filter (· ≠ k) := by
  rw [List.eraseDups_cons, eraseDups_filter]
  simp only [ne_eq, decide_not, beq_eq_decide]

theorem nodup_eraseDups (l : List κ) : l.eraseDups.Nodup := by
  induction l with
  | nil => exact List.nodup_nil
  | cons k l ih =>
    rw [eraseDups_cons_eq, List.nodup_cons]
    exact ⟨by simp, ih.filter _⟩

theorem eraseDups_map {f : ι → κ} (hf : Function.Injective f) (l : List ι) :
    (l.map f).eraseDups = l.eraseDups.map f := by
  induction l with
  | nil => rfl
  | cons i l ih =>
    rw [List.map_cons, eraseDups_cons_eq, eraseDups_cons_eq, ih, List.map_cons, List.filter_map]
    simp only [Function.comp_def, hf.ne_iff]

/-! ## The keys used last -/

theorem recentKeys_map {f : ι → κ} (hf : Function.Injective f) (n : Nat) (uses : List ι) :
    recentKeys n (uses.map f) = (recentKeys n uses).map f := by
  rw [recentKeys, eraseDups_map hf, recentKeys, List.map_take]

theorem length_recentKeys (n : Nat) (uses : List κ) :
    (recentKeys n uses).length = min n uses.toFinset.card := by
  have hset : uses.eraseDups.toFinset = uses.toFinset := by
    ext k
    simp
  rw [recentKeys, List.length_take, ← hset, List.toFinset_card_of_nodup (nodup_eraseDups uses)]

/-- A key is taken out of a list before or after it is cut, with one place less to fill. -/
theorem take_filter_take {l : List κ} (hl : l.Nodup) (k : κ) (n : Nat) :
    ((l.take (n + 1)).filter (· ≠ k)).take n = (l.filter (· ≠ k)).take n := by
  induction l generalizing n with
  | nil => rfl
  | cons a l ih =>
    rw [List.nodup_cons] at hl
    rw [List.take_succ_cons]
    by_cases ha : a = k
    · -- the key is not in the rest, of which as much is left as there are places
      subst ha
      have hrest : ∀ b ∈ l, decide (b ≠ a) = true := fun b hb => by
        simp only [decide_eq_true_eq]
        rintro rfl
        exact hl.1 hb
      rw [List.filter_cons_of_neg (by simp), List.filter_cons_of_neg (by simp),
        List.filter_eq_self.mpr hrest,
        List.filter_eq_self.mpr fun b hb => hrest b (List.mem_of_mem_take hb), List.take_take,
        Nat.min_self]
    · rw [List.filter_cons_of_pos (by simpa using ha), List.filter_cons_of_pos (by simpa using ha)]
      cases n with
      | zero => rfl
      | succ n => rw [List.take_succ_cons, List.take_succ_cons, ih hl.2]

theorem recentKeys_cons (n : Nat) (k : κ) (uses : List κ) :
    recentKeys n (k :: uses) = (k :: (recentKeys n uses).filter (· ≠ k)).take n := by
  unfold recentKeys
  rw [eraseDups_cons_eq]
  cases n with
  | zero => rfl
  | succ n =>
    rw [List.take_succ_cons, List.take_succ_cons, take_filter_take (nodup_eraseDups uses)]

end RecentKeys

/-! ## Caches -/

namespace RecentCache

variable {κ α : Type} [DecidableEq κ] {cache : RecentCache κ α} {capacity : Nat} {uses : List κ}

/-- The keys of a cache, the one used last in front. -/
def keys (cache : RecentCache κ α) : List κ := cache.entries.map (·.1)

theorem get?_isSome_iff {key : κ} : (cache.get? key).isSome ↔ key ∈ cache.keys := by
  simp [get?, keys]

/-- **A cache is told by the keys used**, from the last one on: it has those used last, and counts
them all. -/
structure ToldBy (capacity : Nat) (cache : RecentCache κ α) (uses : List κ) : Prop where
  keys_eq : cache.keys = recentKeys capacity uses
  count_eq : cache.hits + cache.misses = uses.length

theorem toldBy_empty (capacity : Nat) : ToldBy capacity (empty : RecentCache κ α) [] :=
  ⟨by simp [keys, empty, recentKeys], rfl⟩

/-- **One more fetch.** It finds its key if this is among those used last. -/
theorem ToldBy.fetch (h : cache.ToldBy capacity uses) (key : κ) (make : Unit → α) :
    let next := (cache.fetch capacity key make).2
    next.ToldBy capacity (key :: uses) ∧
      (next.hits, next.misses) =
        if key ∈ recentKeys capacity uses then (cache.hits + 1, cache.misses)
        else (cache.hits, cache.misses + 1) := by
  have hcount := h.count_eq
  have hfound : (cache.get? key).isSome ↔ key ∈ recentKeys capacity uses := by
    rw [get?_isSome_iff, h.keys_eq]
  cases hget : cache.get? key with
  | some value =>
    -- the key leaves its place, so that all others stay
    have hmem : key ∈ recentKeys capacity uses := hfound.mp (by rw [hget]; rfl)
    have hfewer : ((recentKeys capacity uses).filter (· ≠ key)).length <
        (recentKeys capacity uses).length :=
      List.length_filter_lt_length_iff_exists.mpr ⟨key, hmem, by simp⟩
    have hlength := List.length_take_le capacity uses.eraseDups
    have hfits : (key :: (recentKeys capacity uses).filter (· ≠ key)).length ≤ capacity := by
      rw [List.length_cons]
      exact Nat.lt_of_lt_of_le hfewer hlength
    simp only [RecentCache.fetch, hget]
    refine ⟨⟨?_, ?_⟩, (if_pos hmem).symm⟩
    · rw [recentKeys_cons, List.take_of_length_le hfits, ← h.keys_eq]
      simp [keys, List.filter_map, Function.comp_def]
    · simp only [List.length_cons]
      omega
  | none =>
    have hno : key ∉ recentKeys capacity uses := fun hmem => by
      simpa [hget] using hfound.mpr hmem
    have hothers : (recentKeys capacity uses).filter (· ≠ key) = recentKeys capacity uses := by
      refine List.filter_eq_self.mpr fun k hk => ?_
      simp only [decide_eq_true_eq]
      rintro rfl
      exact hno hk
    simp only [RecentCache.fetch, hget]
    refine ⟨⟨?_, ?_⟩, (if_neg hno).symm⟩
    · rw [recentKeys_cons, hothers, ← h.keys_eq]
      simp [keys, List.map_take]
    · simp only [List.length_cons]
      omega

end RecentCache

end DiskLens
