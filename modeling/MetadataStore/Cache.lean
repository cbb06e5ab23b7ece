import MetadataStore.Handle.Basic
import MetadataStore.Keyed

/-!
# `Cache` — copies of units, bounded by use

The cache keeps copies of stored units under the text of their identity. It counts how often each copy
is looked up, since it came in and since the last sweep. A new unit that finds the cache full drives
out every copy not looked up since then, and comes in only if that made room. A sweep drops what was
neither stored nor looked up since the sweep before it.

Time is a count of the calls, so no two calls happen at once.

## Contents
- `CacheEntry`, `Cache`.
- `lookup`, `store`, `remove`, `clear`, `sweep`.
- `find?`, `size`, which count as no use.
- What is under each key after each call.
-/

namespace MetadataStore

/-- A cached copy and its use. -/
structure CacheEntry where
  copy : Handle
  /-- When the copy was last stored or looked up. -/
  touched : Nat
  /-- How often the copy was looked up since it came in. -/
  total : Nat
  /-- How often the copy was looked up since it came in or a sweep passed. -/
  recent : Nat

/-- Copies of units under the texts of their identities. -/
structure Cache where
  capacity : Nat
  entries : List (String × CacheEntry)
  /-- The number of calls so far. -/
  clock : Nat
  lastSweep : Nat

namespace Cache

/-- A cache without copies. -/
def empty (capacity : Nat) : Cache :=
  ⟨capacity, [], 0, 0⟩

/-- How many copies there are. -/
def size (cache : Cache) : Nat :=
  cache.entries.length

/-- The copy under a key with its use. -/
def find? (cache : Cache) (key : String) : Option CacheEntry :=
  cache.entries.lookup key

/-- The entries with the one under a key changed. -/
def update (entries : List (String × CacheEntry)) (key : String) (f : CacheEntry → CacheEntry) :
    List (String × CacheEntry) :=
  entries.map fun entry => if entry.1 == key then (key, f entry.2) else entry

/-- A copy under a key; being looked up counts as use. -/
def lookup (cache : Cache) (key : String) : Option Handle × Cache :=
  let now := cache.clock + 1
  match cache.find? key with
  | none => (none, { cache with clock := now })
  | some entry =>
    let used (e : CacheEntry) : CacheEntry :=
      { e with touched := now, total := e.total + 1, recent := e.recent + 1 }
    (some entry.copy, { cache with clock := now, entries := update cache.entries key used })

/-- An entry after a sweep that it survives. -/
def CacheEntry.swept (entry : CacheEntry) : CacheEntry :=
  { entry with recent := 0 }

/-- The entries that pass a test, after a sweep. -/
def retain (test : CacheEntry → Bool) (entries : List (String × CacheEntry)) :
    List (String × CacheEntry) :=
  (entries.filter fun entry => test entry.2).map fun entry => (entry.1, CacheEntry.swept entry.2)

/-- The cache without the copies that were not looked up lately. -/
def evictUnused (cache : Cache) : Cache :=
  { cache with entries := retain (fun entry => 0 < entry.recent) cache.entries }

/-- The cache with a copy of a unit. A copy that is there already is replaced and keeps its use. A
unit that was never stored has no key and is ignored. -/
def store (cache : Cache) (h : Handle) : Cache :=
  match h.ref? with
  | none => cache
  | some unit =>
    let key := unit.text
    let now := cache.clock + 1
    let cache := { cache with clock := now }
    -- a replaced copy is touched but not looked up: its counts stay
    if (cache.find? key).isSome then
      { cache with entries := update cache.entries key fun e => { e with copy := h, touched := now } }
    else
      -- driving out may leave the cache full, when every copy was in use
      let cache := if cache.capacity ≤ cache.size then cache.evictUnused else cache
      if cache.size < cache.capacity then
        { cache with entries := cache.entries ++ [(key, ⟨h, now, 0, 0⟩)] }
      else cache

/-- The cache without the copy of a unit. -/
def remove (cache : Cache) (unit : UnitRef) : Cache :=
  { cache with entries := cache.entries.filter fun entry => entry.1 != unit.text }

/-- The cache without copies. -/
def clear (cache : Cache) : Cache :=
  { cache with entries := [] }

/-- Drops the copies not touched since the sweep before; the number of dropped ones is the result. -/
def sweep (cache : Cache) : Nat × Cache :=
  let kept := retain (fun entry => decide (cache.lastSweep ≤ entry.touched)) cache.entries
  let now := cache.clock + 1
  (cache.entries.length - kept.length, { cache with entries := kept, clock := now, lastSweep := now })

/-! ## What is under each key -/

/-- A lookup hands out what is under the key. -/
theorem fst_lookup (cache : Cache) (key : String) :
    (cache.lookup key).1 = (cache.find? key).map (·.copy) := by
  unfold lookup
  cases cache.find? key <;> rfl

/-- Removing a unit empties its key and no other. -/
theorem find?_remove (cache : Cache) (unit : UnitRef) (key : String) :
    (cache.remove unit).find? key = if key = unit.text then none else cache.find? key :=
  Keyed.lookup_filter_ne cache.entries unit.text key

@[simp] theorem capacity_lookup (cache : Cache) (key : String) :
    (cache.lookup key).2.capacity = cache.capacity := by
  unfold lookup
  split <;> rfl

@[simp] theorem capacity_store (cache : Cache) (h : Handle) :
    (cache.store h).capacity = cache.capacity := by
  unfold store
  split
  · rfl
  · dsimp only
    split
    · rfl
    · split <;> split <;> rfl

@[simp] theorem store_of_ref?_none {cache : Cache} {h : Handle} (hnew : h.ref? = none) :
    cache.store h = cache := by
  simp [store, hnew]

end Cache

end MetadataStore
