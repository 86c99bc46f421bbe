import DiskLens.Completion.Suggestion

/-!
# Remembered suggestions

The suggestions of a catalog without their endings are remembered, for the sixteen keys used last.

* `RecentCache`: values under keys, the key used last in front.
* `RecentCache.fetch`: a value, from the cache if it is there.
* **`completeWith`**: the suggestions for a request, through the cache.
-/

namespace DiskLens

/-- **A cache**, the entry used last in front. It counts the fetches that found a value and those
that did not. -/
structure RecentCache (κ α : Type) where
  entries : List (κ × α)
  hits : Nat
  misses : Nat
deriving Repr

namespace RecentCache

variable {κ α : Type} [DecidableEq κ]

/-- A cache without values. -/
def empty : RecentCache κ α := ⟨[], 0, 0⟩

/-- The value under a key. -/
def get? (cache : RecentCache κ α) (key : κ) : Option α :=
  (cache.entries.find? (·.1 = key)).map (·.2)

/-- The value under a key, made if it is missing, and the cache after it. The key moves to the
front; beyond `capacity` the entry at the back gives way. -/
def fetch (capacity : Nat) (cache : RecentCache κ α) (key : κ) (make : Unit → α) :
    α × RecentCache κ α :=
  match cache.get? key with
  | some value =>
    (value, { cache with
      entries := (key, value) :: cache.entries.filter (·.1 ≠ key), hits := cache.hits + 1 })
  | none =>
    let value := make ()
    (value, { cache with
      entries := ((key, value) :: cache.entries).take capacity, misses := cache.misses + 1 })

end RecentCache

/-- A catalog that was loaded, with the number of the load. No two loads of a service have the same
number, so it tells catalogs apart that hold the same parameters. -/
structure LoadedCatalog where
  serial : Nat
  catalog : Catalog
deriving DecidableEq, Repr

/-- Suggestions are remembered by catalog, situation and generation. The catalog is that of one load
of one service. -/
structure SuggestionKey where
  service : Nat
  serial : Nat
  situation : Situation
  generation : Int
deriving DecidableEq, Repr

/-- Remembered suggestions. -/
abbrev SuggestionCache := RecentCache SuggestionKey (List BaseSuggestion)

/-- How many keys are remembered. -/
def cacheCapacity : Nat := 16

/-- **The suggestions for a request** to a service, and the cache after it. The endings are never
remembered. -/
def completeWith (cache : SuggestionCache) (service : Nat) (c : LoadedCatalog)
    (ctx : CompletionContext) : List Suggestion × SuggestionCache :=
  let s := situation ctx
  match s.lead? with
  | some lead =>
    let key : SuggestionKey := ⟨service, c.serial, s, c.catalog.generation⟩
    let (bases, cache) :=
      cache.fetch cacheCapacity key fun _ => baseSuggestions c.catalog lead
    (bases.map (·.finish ctx.atEndOfLine), cache)
  | none => (suggestionsFor c.catalog s ctx, cache)

end DiskLens
