import MetadataStore.Cache
import MetadataStore.Proofs.UnitRef

/-!
# `Proofs.Cache.Copies` — what holds of every cached copy

Calls of the cache drop copies, count uses and reorder entries, but the only copy that ever comes in is
the one that is stored. Whatever holds of all copies with their keys therefore goes on holding through
every call, provided it holds of what is stored.

## Contents
- `Cache.All`, and one lemma for each call that preserves it.
- `Cache.entries_store`: what a store does to the entries.
- `Cache.Admits`, and `copy_of_find?_store`: a copy that was just stored is found, if anything is.
- `Cache.Keyed`: every copy stands under the text of its own identity; so what is found under the text
  of an identity is a copy of that unit.
-/

namespace MetadataStore.Cache

/-- Something holds of every copy and the key it stands under. -/
def All (P : String → Handle → Prop) (cache : Cache) : Prop :=
  ∀ entry ∈ cache.entries, P entry.1 entry.2.copy

variable {P Q : String → Handle → Prop} {cache : Cache}

theorem All.mono (h : cache.All P) (himp : ∀ key copy, P key copy → Q key copy) : cache.All Q :=
  fun entry hmem => himp _ _ (h entry hmem)

theorem All.and (hP : cache.All P) (hQ : cache.All Q) :
    cache.All fun key copy => P key copy ∧ Q key copy :=
  fun entry hmem => ⟨hP entry hmem, hQ entry hmem⟩

theorem All.find? {key : String} {entry : CacheEntry} (h : cache.All P)
    (hfind : cache.find? key = some entry) : P key entry.copy :=
  h (key, entry) (Keyed.mem_of_lookup hfind)

/-! ## Through every call -/

@[simp] theorem all_empty (capacity : Nat) : (empty capacity).All P := by
  intro entry hmem
  cases hmem

/-- A change that leaves the copies alone keeps what holds of them. -/
theorem forall_update (f : CacheEntry → CacheEntry) {key : String} {entries : List (String × CacheEntry)}
    (h : ∀ entry ∈ entries, P entry.1 entry.2.copy)
    (hf : ∀ entry ∈ entries, entry.1 = key → P key (f entry.2).copy) :
    ∀ entry ∈ Cache.update entries key f, P entry.1 entry.2.copy := by
  intro entry hmem
  obtain ⟨old, hold, rfl⟩ := List.mem_map.1 hmem
  split
  · rename_i hkey
    exact hf old hold (by simpa using hkey)
  · exact h old hold

theorem lookup_update (entries : List (String × CacheEntry)) (key : String) (f : CacheEntry → CacheEntry) :
    (Cache.update entries key f).lookup key = (entries.lookup key).map f := by
  rw [Cache.update, Keyed.lookup_mapAt entries key key f, if_pos rfl]

theorem All.lookup (h : cache.All P) (key : String) : (cache.lookup key).2.All P := by
  unfold Cache.lookup
  split
  · exact h
  · refine forall_update (fun e =>
      { e with touched := cache.clock + 1, total := e.total + 1, recent := e.recent + 1 }) h ?_
    intro entry hmem hkey
    exact hkey ▸ h entry hmem

theorem forall_retain (test : CacheEntry → Bool) {entries : List (String × CacheEntry)}
    (h : ∀ entry ∈ entries, P entry.1 entry.2.copy) :
    ∀ entry ∈ Cache.retain test entries, P entry.1 entry.2.copy := by
  intro entry hmem
  obtain ⟨old, hold, rfl⟩ := List.mem_map.1 hmem
  exact h old (List.mem_filter.1 hold).1

/-- The entries that are left of a cache when room is made for another. -/
def room (cache : Cache) : List (String × CacheEntry) :=
  (if cache.capacity ≤ cache.size then cache.evictUnused else cache).entries

theorem All.room (h : cache.All P) : ∀ entry ∈ cache.room, P entry.1 entry.2.copy := by
  unfold Cache.room
  split
  · exact forall_retain (fun entry => 0 < entry.recent) h
  · exact h

/-- **What a store does to the entries.** It replaces the copy that is there; or it puts the copy behind
what is left of the others, or has no room for it even so. -/
theorem entries_store {h : Handle} {unit : UnitRef} (href : h.ref? = some unit) :
    ((cache.find? unit.text).isSome = true ∧
      (cache.store h).entries = update cache.entries unit.text fun e =>
        { e with copy := h, touched := cache.clock + 1 }) ∨
      (cache.find? unit.text = none ∧ cache.room.length < cache.capacity ∧
        (cache.store h).entries = cache.room ++ [(unit.text, ⟨h, cache.clock + 1, 0, 0⟩)]) ∨
      (cache.find? unit.text = none ∧ cache.capacity ≤ cache.room.length ∧
        (cache.store h).entries = cache.room) := by
  let cache' : Cache := { cache with clock := cache.clock + 1 }
  let left := if cache'.capacity ≤ cache'.size then cache'.evictUnused else cache'
  have hleft : left.entries = cache.room ∧ left.capacity = cache.capacity := by
    unfold room
    by_cases hfull : cache.capacity ≤ cache.size
    · have hleft : left = cache'.evictUnused := if_pos hfull
      rw [if_pos hfull, hleft]
      exact ⟨rfl, rfl⟩
    · have hleft : left = cache' := if_neg hfull
      rw [if_neg hfull, hleft]
      exact ⟨rfl, rfl⟩
  have hstore : cache.store h =
      if (cache.find? unit.text).isSome then
        { cache' with entries := update cache.entries unit.text fun e =>
          { e with copy := h, touched := cache.clock + 1 } }
      else if left.size < left.capacity then
        { left with entries := left.entries ++ [(unit.text, ⟨h, cache.clock + 1, 0, 0⟩)] }
      else left := by
    unfold store
    rw [href]
    rfl
  have hsize : left.size = cache.room.length := congrArg List.length hleft.1
  rw [hstore, hsize, hleft.1, hleft.2]
  cases hfound : cache.find? unit.text with
  | some entry => exact Or.inl ⟨rfl, by simp⟩
  | none =>
    by_cases hroom : cache.room.length < cache.capacity
    · exact Or.inr (Or.inl ⟨rfl, hroom, by simp [hroom]⟩)
    · exact Or.inr (Or.inr ⟨rfl, Nat.not_lt.1 hroom, by simp [hroom, hleft.1]⟩)

/-- The copy is there once it is stored: it replaces another one, or there is room for it. -/
def Admits (cache : Cache) (h : Handle) : Prop :=
  ∃ unit, h.ref? = some unit ∧ ((cache.store h).find? unit.text).isSome = true

/-- A stored copy is the only one that comes in, and of the copies that it replaces nothing need hold. -/
theorem All.store_of_ne {h : Handle} {unit : UnitRef} (href : h.ref? = some unit)
    (hall : cache.All fun key copy => key = unit.text ∨ P key copy)
    (hnew : cache.Admits h → P unit.text h) : (cache.store h).All P := by
  have hroom : cache.find? unit.text = none → ∀ entry ∈ cache.room, P entry.1 entry.2.copy := by
    intro hnone entry hmem
    -- no entry that is kept has the key, which is not in the cache
    have hne := All.room (P := fun key _ => key ≠ unit.text) (Keyed.lookup_eq_none.1 hnone) entry hmem
    exact (hall.room entry hmem).resolve_left hne
  rcases entries_store href with ⟨hpresent, hentries⟩ | ⟨hnone, -, hentries⟩ | ⟨hnone, -, hentries⟩
  · -- it takes the place of the copy that was there
    have hcopy : P unit.text h := hnew ⟨unit, href, by
      rw [Cache.find?, hentries, lookup_update, Option.isSome_map]
      exact hpresent⟩
    intro entry hmem
    rw [hentries] at hmem
    obtain ⟨old, hold, rfl⟩ := List.mem_map.1 hmem
    split
    · exact hcopy
    · rename_i hkey
      exact (hall old hold).resolve_left (by simpa using hkey)
  · have hcopy : P unit.text h := hnew ⟨unit, href, by
      rw [Option.isSome_iff_ne_none, Cache.find?, hentries]
      intro hnone
      exact Keyed.lookup_eq_none.1 hnone _ (List.mem_append_right _ List.mem_cons_self) rfl⟩
    intro entry hmem
    rw [hentries] at hmem
    rcases List.mem_append.1 hmem with hold | hlast
    · exact hroom hnone entry hold
    · rw [List.mem_singleton.1 hlast]
      exact hcopy
  · intro entry hmem
    rw [hentries] at hmem
    exact hroom hnone entry hmem

theorem All.store {h : Handle} (hall : cache.All P)
    (hnew : ∀ unit, h.ref? = some unit → P unit.text h) : (cache.store h).All P := by
  cases href : h.ref? with
  | none =>
    rw [store_of_ref?_none href]
    exact hall
  | some unit => exact All.store_of_ne href (hall.mono fun _ _ => Or.inr) fun _ => hnew unit href

theorem All.remove (h : cache.All P) (unit : UnitRef) : (cache.remove unit).All P :=
  fun entry hmem => h entry (List.mem_filter.1 hmem).1

/-- No copy is left under the key of a removed unit. -/
theorem all_ne_remove (cache : Cache) (unit : UnitRef) :
    (cache.remove unit).All fun key _ => key ≠ unit.text := by
  intro entry hmem
  simpa using (List.mem_filter.1 hmem).2

/-- Of a unit that is removed nothing need hold. -/
theorem All.remove_of_ne {unit : UnitRef}
    (h : cache.All fun key copy => key = unit.text ∨ P key copy) : (cache.remove unit).All P :=
  ((All.remove h unit).and (all_ne_remove cache unit)).mono
    fun _ _ ⟨hkept, hne⟩ => hkept.resolve_left hne

@[simp] theorem all_clear (cache : Cache) : cache.clear.All P := by
  intro entry hmem
  cases hmem

theorem All.sweep (h : cache.All P) : cache.sweep.2.All P :=
  forall_retain (fun entry => decide (cache.lastSweep ≤ entry.touched)) h

/-! ## What is found -/

/-- What is found of a unit that was just stored is the copy that was stored. -/
theorem copy_of_find?_store {h : Handle} {unit : UnitRef} {entry : CacheEntry}
    (href : h.ref? = some unit) (hfind : (cache.store h).find? unit.text = some entry) :
    entry.copy = h := by
  have hcopies : (cache.store h).All fun key copy => key = unit.text → copy = h :=
    All.store_of_ne href (fun other _ => (em (other.1 = unit.text)).imp_right fun hne heq => absurd heq hne)
      fun _ _ => rfl
  exact hcopies.find? hfind rfl

/-! ## Keys -/

/-- Every copy stands under the text of its own identity. -/
def Keyed (cache : Cache) : Prop :=
  cache.All fun key copy => copy.ref?.map UnitRef.text = some key

/-- What is found under the text of an identity is a copy of that unit. -/
theorem Keyed.ref?_of_lookup {unit : UnitRef} {copy : Handle} (h : cache.Keyed)
    (hfind : (cache.lookup unit.text).1 = some copy) : copy.ref? = some unit := by
  rw [fst_lookup] at hfind
  obtain ⟨entry, hentry, rfl⟩ := Option.map_eq_some_iff.1 hfind
  obtain ⟨other, hother, htext⟩ := Option.map_eq_some_iff.1 (All.find? h hentry)
  rw [hother, UnitRef.text_injective htext]

theorem Keyed.lookup (h : cache.Keyed) (key : String) : (cache.lookup key).2.Keyed :=
  All.lookup h key

theorem Keyed.store (h : cache.Keyed) (copy : Handle) : (cache.store copy).Keyed := by
  refine All.store h ?_
  intro unit hunit
  rw [hunit]
  rfl

end MetadataStore.Cache
