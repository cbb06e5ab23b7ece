import Mathlib.Data.List.DropRight
import MetadataStore.Proofs.Cache.Calls
import MetadataStore.Session.Operation

/-!
# `Proofs.Cache.Eviction` — what the counts of a copy say, and which copies they drive out

A copy has two counts and a time. What they say is read off the history of the calls: the total is how
often the copy was looked up since it came in, the recent count how often since it came in or a sweep
passed, whichever was later, and the time tells whether it was stored or looked up since the last
explicit sweep. The two ways to sweep differ in what they ask for and in what they reset, so all of it
rests on one account of what a call makes of the entry under a key.

## Contents
- `Moment`, `Caller.history`: the calls with what they met; `sinceEntered`, `sinceSwept`, `sinceSweep`.
- `find?_lookup`, `find?_store_self`, `Tidy.find?_store_of_ne`, `Tidy.find?_sweep`: the entry under a key
  after a call of the cache; `Tidy.storeEffect`, what a store drives out.
- `Caller.Becomes`, `becomes_of_find?`: what a call makes of an entry.
- `Caller.counts_afterAll`, `timed_afterAll`: what the counts and the time say.
- `eviction_follows_statistics`.
-/

namespace MetadataStore.Cache

variable {cache : Cache} {key : String} {h : Handle} {unit : UnitRef} {entry : CacheEntry}

/-! ## Histories -/

/-- Whether a call looks for what is under a key. -/
def Call.looksFor (key : String) : Call → Bool
  | .lookup _ other => other == key
  | .get _ unit => unit.text == key
  | .hold _ _ | .store _ | .remove _ | .clear | .sweep | .wait _ => false

/-- Whether a call is an explicit sweep. -/
def Call.isSweep : Call → Bool
  | .sweep => true
  | .hold _ _ | .store _ | .lookup _ _ | .get _ _ | .remove _ | .clear | .wait _ => false

namespace Caller

/-- The key under which a call stores a unit, if it stores one. -/
def storesUnder? (s : Caller) : Call → Option String
  | .store name => ((s.held name).bind Handle.ref?).map UnitRef.text
  | .hold _ _ | .lookup _ _ | .get _ _ | .remove _ | .clear | .sweep | .wait _ => none

/-- Whether a call makes room: it stores a unit that is not in the cache while the cache is full. -/
def makesRoom (s : Caller) (call : Call) : Bool :=
  match s.storesUnder? call with
  | some key => (s.cache.find? key).isNone && decide (s.cache.capacity ≤ s.cache.size)
  | none => false

/-- Whether a call sweeps, in either way. -/
def sweeps (s : Caller) (call : Call) : Bool :=
  call.isSweep || s.makesRoom call

end Caller

/-- A call, and what it met. -/
structure Moment where
  before : Caller
  call : Call

namespace Moment

/-- Whether there was an entry under a key. -/
def has (key : String) (moment : Moment) : Bool :=
  (moment.before.cache.find? key).isSome

def looksFor (key : String) (moment : Moment) : Bool :=
  moment.call.looksFor key

def sweeps (moment : Moment) : Bool :=
  moment.before.sweeps moment.call

/-- The call does not set the clock back. -/
def IsForward (moment : Moment) : Prop :=
  match moment.call with
  | .wait clock => moment.before.cache.clock ≤ clock
  | .hold _ _ | .store _ | .lookup _ _ | .get _ _ | .remove _ | .clear | .sweep => True

instance (moment : Moment) : Decidable moment.IsForward := by
  unfold IsForward
  split <;> infer_instance

/-- Whether the call stored under a key or looked for it. -/
def touches (key : String) (moment : Moment) : Bool :=
  moment.call.looksFor key || moment.before.storesUnder? moment.call == some key

end Moment

namespace Caller

/-- The calls with what they met. -/
def history (s : Caller) : List Call → List Moment
  | [] => []
  | call :: rest => ⟨s, call⟩ :: history (s.after call) rest

/-- The calls since the entry under a key came in. -/
def sinceEntered (s : Caller) (calls : List Call) (key : String) : List Moment :=
  (s.history calls).rtakeWhile (Moment.has key)

/-- The calls since the entry under a key came in, or a sweep of either kind passed if that was later. -/
def sinceSwept (s : Caller) (calls : List Call) (key : String) : List Moment :=
  (s.history calls).rtakeWhile fun moment => moment.has key && !moment.sweeps

/-- The calls since the last explicit sweep, all of them if there was none. -/
def sinceSweep (s : Caller) (calls : List Call) : List Moment :=
  (s.history calls).rtakeWhile fun moment => !moment.call.isSweep

/-- The clock is never set back; as each lookup, store and sweep sets it forward by itself, no two of them
happen at once. -/
def Advances (s : Caller) (calls : List Call) : Prop :=
  ∀ moment ∈ s.history calls, moment.IsForward

instance (s : Caller) (calls : List Call) : Decidable (s.Advances calls) := by
  unfold Advances
  infer_instance

theorem history_concat (s : Caller) (calls : List Call) (call : Call) :
    s.history (calls ++ [call]) = s.history calls ++ [⟨s.afterAll calls, call⟩] := by
  induction calls generalizing s with
  | nil => rfl
  | cons first rest ih => exact congrArg (Moment.mk s first :: ·) (ih (s.after first))

end Caller

/-! ## The entry under a key after a call of the cache -/

/-- An entry that is looked up at a time. -/
def CacheEntry.used (now : Nat) (entry : CacheEntry) : CacheEntry :=
  { entry with touched := now, total := entry.total + 1, recent := entry.recent + 1 }

/-- An entry whose copy is replaced at a time. -/
def CacheEntry.replaced (now : Nat) (h : Handle) (entry : CacheEntry) : CacheEntry :=
  { entry with copy := h, touched := now }

theorem find?_lookup (cache : Cache) (key other : String) :
    (cache.lookup key).2.find? other =
      if other = key then (cache.find? key).map (CacheEntry.used (cache.clock + 1))
      else cache.find? other := by
  have hupdate := Keyed.lookup_mapAt cache.entries key other (CacheEntry.used (cache.clock + 1))
  cases hentry : cache.find? key with
  | none =>
    have hsame : (cache.lookup key).2.find? other = cache.find? other := by
      simp only [lookup, hentry]
      rfl
    rw [hsame]
    split
    · rename_i hother
      rw [hother]
      exact hentry
    · rfl
  | some entry =>
    rw [show cache.entries.lookup key = some entry from hentry] at hupdate
    simp only [lookup, hentry]
    exact hupdate

/-- The stored unit is replaced, comes in with counts of zero, or finds no room. -/
theorem find?_store_self (href : h.ref? = some unit) :
    (cache.store h).find? unit.text =
      match cache.find? unit.text with
      | some entry => some (CacheEntry.replaced (cache.clock + 1) h entry)
      | none =>
        if cache.room.length < cache.capacity then some ⟨h, cache.clock + 1, 0, 0⟩ else none := by
  show (cache.store h).entries.lookup unit.text = _
  rcases @entries_store cache _ _ href with
    ⟨hpresent, hentries⟩ | ⟨hnone, hroom, hentries⟩ | ⟨hnone, hfull, hentries⟩
  · obtain ⟨entry, hentry⟩ := Option.isSome_iff_exists.1 hpresent
    rw [hentries, lookup_update, show cache.entries.lookup unit.text = some entry from hentry, hentry]
    rfl
  · rw [hnone, hentries, Keyed.lookup_append_single (lookup_room_of_none hnone), if_pos rfl]
    exact (if_pos hroom).symm
  · rw [hnone, hentries, lookup_room_of_none hnone]
    exact (if_neg (Nat.not_lt.2 hfull)).symm

/-- What is left of an entry when room is made. -/
theorem Tidy.lookup_room (htidy : cache.Tidy) (key : String) :
    cache.room.lookup key =
      if cache.capacity ≤ cache.size then
        ((cache.find? key).filter fun entry => 0 < entry.recent).map CacheEntry.swept
      else cache.find? key := by
  unfold room
  split
  · exact lookup_retain (fun entry => decide (0 < entry.recent)) htidy.distinct key
  · rfl

/-- Of the others none changes, unless the stored unit is new to a full cache. -/
theorem Tidy.find?_store_of_ne (htidy : cache.Tidy) (href : h.ref? = some unit) (hne : key ≠ unit.text) :
    (cache.store h).find? key =
      if cache.find? unit.text = none ∧ cache.capacity ≤ cache.size then
        ((cache.find? key).filter fun entry => 0 < entry.recent).map CacheEntry.swept
      else cache.find? key := by
  have hroom := htidy.lookup_room key
  show (cache.store h).entries.lookup key = _
  rcases @entries_store cache _ _ href with
    ⟨hpresent, hentries⟩ | ⟨hnone, -, hentries⟩ | ⟨hnone, -, hentries⟩
  · have hsome : ¬ (cache.find? unit.text = none ∧ cache.capacity ≤ cache.size) := by
      rintro ⟨hnone, -⟩
      rw [hnone] at hpresent
      cases hpresent
    have hupdate := Keyed.lookup_mapAt cache.entries unit.text key (CacheEntry.replaced (cache.clock + 1) h)
    rw [if_neg hne] at hupdate
    rw [if_neg hsome, hentries]
    exact hupdate
  · rw [hentries, Keyed.lookup_append_single (lookup_room_of_none hnone), if_neg hne, hroom]
    simp only [hnone, true_and]
  · rw [hentries, hroom]
    simp only [hnone, true_and]

/-- A sweep leaves what was touched since the one before. -/
theorem Tidy.find?_sweep (htidy : cache.Tidy) (key : String) :
    cache.sweep.2.find? key =
      ((cache.find? key).filter fun entry => cache.lastSweep ≤ entry.touched).map CacheEntry.swept :=
  lookup_retain (fun entry => decide (cache.lastSweep ≤ entry.touched)) htidy.distinct key

theorem Tidy.mem_entries_iff (htidy : cache.Tidy) : (key, entry) ∈ cache.entries ↔ cache.find? key = some entry := by
  refine ⟨fun hmem => ?_, Keyed.mem_of_lookup⟩
  cases hfind : cache.find? key with
  | none => exact absurd rfl (Keyed.lookup_eq_none.1 hfind _ hmem)
  | some other =>
    have hsame := eq_of_nodup Prod.fst htidy.distinct (Keyed.mem_of_lookup hfind) hmem rfl
    exact congrArg (fun found => some found.2) hsame

/-- **A full cache has room afterwards** exactly when one of its copies was not looked up lately. -/
theorem Tidy.length_room_lt_iff (htidy : cache.Tidy) (hfull : cache.capacity ≤ cache.size) :
    cache.room.length < cache.capacity ↔ ∃ key entry, cache.find? key = some entry ∧ entry.recent = 0 := by
  have hsize : cache.capacity = cache.entries.length := Nat.le_antisymm hfull htidy.bounded
  rw [room, if_pos hfull, evictUnused, retain, List.length_map, hsize,
    List.length_filter_lt_length_iff_exists]
  constructor
  · rintro ⟨⟨key, entry⟩, hmem, hunused⟩
    exact ⟨key, entry, htidy.mem_entries_iff.1 hmem, by simpa using hunused⟩
  · rintro ⟨key, entry, hfind, hunused⟩
    exact ⟨(key, entry), htidy.mem_entries_iff.2 hfind, by simp [hunused]⟩

/-- A sweep tells how many entries it dropped. -/
theorem Tidy.fst_sweep (htidy : cache.Tidy) :
    cache.sweep.1 = cache.entries.countP fun entry => (cache.sweep.2.find? entry.1).isNone := by
  let test : String × CacheEntry → Bool := fun entry => cache.lastSweep ≤ entry.2.touched
  have hdropped : ∀ entry ∈ cache.entries,
      (cache.sweep.2.find? entry.1).isNone = true ↔ decide (¬ test entry = true) = true := by
    intro entry hmem
    rw [htidy.find?_sweep, htidy.mem_entries_iff.1 hmem, Option.isNone_map]
    cases htest : decide (cache.lastSweep ≤ entry.2.touched) <;> simp [Option.filter, test, htest]
  have hsplit := List.length_eq_countP_add_countP test (l := cache.entries)
  have hkept : (retain (fun entry => decide (cache.lastSweep ≤ entry.touched)) cache.entries).length =
      cache.entries.countP test := by
    rw [retain, List.length_map, List.countP_eq_length_filter]
  rw [List.countP_congr hdropped]
  show cache.entries.length - (retain _ cache.entries).length = _
  omega

/-! ## What a call makes of an entry -/

namespace Caller

variable {s : Caller} {call : Call} {calls : List Call}

theorem storesUnder?_eq_some :
    s.storesUnder? call = some key ↔ ∃ unit h, s.Stores call unit h ∧ unit.text = key := by
  cases call with
  | store name =>
    simp only [storesUnder?, Option.map_eq_some_iff, Option.bind_eq_some_iff]
    constructor
    · rintro ⟨unit, ⟨h, hheld, href⟩, htext⟩
      exact ⟨unit, h, ⟨name, rfl, hheld, href⟩, htext⟩
    · rintro ⟨unit, h, ⟨_, heq, hheld, href⟩, htext⟩
      cases heq
      exact ⟨unit, ⟨h, hheld, href⟩, htext⟩
  | hold | lookup | get | remove | clear | sweep | wait =>
    refine iff_of_false nofun ?_
    rintro ⟨_, _, ⟨_, heq, -⟩, -⟩
    cases heq

/-- What a call makes of the entry under a key: the one that is there afterwards, by the one before. -/
inductive Becomes (s : Caller) (call : Call) (key : String) : Option CacheEntry → CacheEntry → Prop where
  | entered (h : Handle) (hstores : s.storesUnder? call = some key) :
    Becomes s call key none ⟨h, s.cache.clock + 1, 0, 0⟩
  | replaced (h : Handle) (entry : CacheEntry) (hstores : s.storesUnder? call = some key) :
    Becomes s call key (some entry) (CacheEntry.replaced (s.cache.clock + 1) h entry)
  | used (entry : CacheEntry) (hlooks : call.looksFor key = true) :
    Becomes s call key (some entry) (CacheEntry.used (s.cache.clock + 1) entry)
  | swept (entry : CacheEntry) (hsweeps : s.sweeps call = true)
    (huntouched : Moment.touches key ⟨s, call⟩ = false) :
    Becomes s call key (some entry) (CacheEntry.swept entry)
  | kept (entry : CacheEntry) (hcalm : s.sweeps call = false)
    (huntouched : Moment.touches key ⟨s, call⟩ = false) :
    Becomes s call key (some entry) entry

theorem becomes_store (htidy : s.cache.Tidy) {name : String}
    (hafter : (s.after (.store name)).cache.find? key = some entry) :
    s.Becomes (.store name) key (s.cache.find? key) entry := by
  cases hunder : s.storesUnder? (.store name) with
  | none =>
    -- nothing is held under the name, or a unit that was never stored
    have hcalm : s.sweeps (.store name) = false := by simp [sweeps, makesRoom, hunder, Call.isSweep]
    have huntouched : Moment.touches key ⟨s, .store name⟩ = false := by
      simp [Moment.touches, Call.looksFor, hunder]
    have hsame : s.after (.store name) = s := by
      cases hheld : s.held name with
      | none => exact after_store_of_not_held hheld
      | some h =>
        refine after_store_of_new hheld ?_
        simpa [storesUnder?, hheld] using hunder
    rw [hsame] at hafter
    rw [hafter]
    exact .kept entry hcalm huntouched
  | some other =>
    obtain ⟨unit, h, hstores, rfl⟩ := storesUnder?_eq_some.1 hunder
    obtain ⟨_, heq, hheld, href⟩ := hstores
    cases heq
    rw [after_store hheld] at hafter
    have hsweeps : s.sweeps (.store name) = true ↔
        s.cache.find? unit.text = none ∧ s.cache.capacity ≤ s.cache.size := by
      simp [sweeps, makesRoom, hunder, Call.isSweep]
    by_cases hkey : key = unit.text
    · subst hkey
      rw [find?_store_self href] at hafter
      cases hbefore : s.cache.find? unit.text with
      | some old =>
        rw [hbefore] at hafter
        cases hafter
        exact .replaced h old hunder
      | none =>
        rw [hbefore] at hafter
        obtain ⟨-, hentry⟩ := Option.ite_none_right_eq_some.1 hafter
        cases hentry
        exact .entered h hunder
    · have huntouched : Moment.touches key ⟨s, .store name⟩ = false := by
        simp [Moment.touches, Call.looksFor, hunder, Ne.symm hkey]
      rw [htidy.find?_store_of_ne href hkey] at hafter
      split at hafter
      · rename_i hfull
        obtain ⟨old, hold, rfl⟩ := Option.map_eq_some_iff.1 hafter
        rw [(Option.filter_eq_some_iff.1 hold).1]
        exact .swept old (hsweeps.2 hfull) huntouched
      · rename_i hroom
        rw [hafter]
        exact .kept entry (Bool.eq_false_iff.2 fun htrue => hroom (hsweeps.1 htrue)) huntouched

theorem becomes_look {name other : String} (hlooks : call.looksFor key = (other == key))
    (hunder : s.storesUnder? call = none) (hsweep : call.isSweep = false)
    (hafter : (s.look name other).cache.find? key = some entry) :
    s.Becomes call key (s.cache.find? key) entry := by
  rw [show (s.look name other).cache = (s.cache.lookup other).2 from rfl, find?_lookup] at hafter
  split at hafter
  · rename_i hkey
    obtain ⟨old, hold, rfl⟩ := Option.map_eq_some_iff.1 hafter
    subst hkey
    rw [hold]
    exact .used old (by rw [hlooks, beq_self_eq_true])
  · rename_i hkey
    rw [hafter]
    refine .kept entry (by simp [sweeps, makesRoom, hunder, hsweep]) ?_
    simp [Moment.touches, hlooks, hunder, Ne.symm hkey]

/-- **What a call makes of the entry under a key.** -/
theorem becomes_of_find? (htidy : s.cache.Tidy) (hafter : (s.after call).cache.find? key = some entry) :
    s.Becomes call key (s.cache.find? key) entry := by
  cases call with
  | store name => exact becomes_store htidy hafter
  | lookup name other => exact becomes_look rfl rfl rfl hafter
  | get name unit => exact becomes_look rfl rfl rfl hafter
  | hold | wait =>
    rw [show s.cache.find? key = some entry from hafter]
    exact .kept entry rfl rfl
  | remove unit =>
    rw [show (s.after (.remove unit)).cache = s.cache.remove unit from rfl, find?_remove] at hafter
    rw [(Option.ite_none_left_eq_some.1 hafter).2]
    exact .kept entry rfl rfl
  | clear => cases hafter
  | sweep =>
    rw [show (s.after .sweep).cache = s.cache.sweep.2 from rfl, htidy.find?_sweep] at hafter
    obtain ⟨old, hold, rfl⟩ := Option.map_eq_some_iff.1 hafter
    rw [(Option.filter_eq_some_iff.1 hold).1]
    exact .swept old rfl rfl

/-! ## What the counts say -/

/-- What stores looks for nothing, and what replaces does not sweep. -/
theorem looksFor_of_storesUnder? {other : String} (hstores : s.storesUnder? call = some other) :
    call.looksFor key = false := by
  obtain ⟨unit, h, ⟨name, rfl, -⟩, -⟩ := storesUnder?_eq_some.1 hstores
  rfl

theorem sweeps_of_replaced (hstores : s.storesUnder? call = some key)
    (hbefore : s.cache.find? key = some entry) : s.sweeps call = false := by
  obtain ⟨unit, h, ⟨name, rfl, -⟩, -⟩ := storesUnder?_eq_some.1 hstores
  simp [sweeps, makesRoom, hstores, Call.isSweep, hbefore]

/-- What looks for a key does not sweep. -/
theorem sweeps_of_looksFor (hlooks : call.looksFor key = true) : s.sweeps call = false := by
  cases call with
  | lookup | get => rfl
  | hold | store | remove | clear | sweep | wait => cases hlooks

theorem looksFor_of_not_touches (h : Moment.touches key ⟨s, call⟩ = false) : call.looksFor key = false :=
  (Bool.or_eq_false_iff.1 h).1

/-- One more at the end counts unless it ends what is counted. -/
theorem countP_rtakeWhile_concat {α : Type} (p q : α → Bool) (xs : List α) (x : α) :
    ((xs ++ [x]).rtakeWhile p).countP q =
      bif p x then (xs.rtakeWhile p).countP q + (q x).toNat else 0 := by
  rw [List.rtakeWhile_concat]
  cases p x with
  | false => rfl
  | true => cases hq : q x <;> simp [List.countP_append, hq]

/-- **The counts say how often a copy was looked up**: the total since it came in, the recent one since it
came in or a sweep passed. -/
theorem counts_afterAll {capacity : Nat}
    (hfind : ((fresh capacity).afterAll calls).cache.find? key = some entry) :
    entry.total = ((fresh capacity).sinceEntered calls key).countP (Moment.looksFor key) ∧
      entry.recent = ((fresh capacity).sinceSwept calls key).countP (Moment.looksFor key) := by
  induction calls using List.reverseRecOn generalizing entry with
  | nil => cases hfind
  | append_singleton calls call ih =>
    rw [afterAll_append] at hfind
    have hbecomes := becomes_of_find? (tidy_afterAll (tidy_fresh capacity) calls) hfind
    rw [sinceEntered, sinceSwept, history_concat, countP_rtakeWhile_concat, countP_rtakeWhile_concat]
    simp only [Moment.has, Moment.looksFor, Moment.sweeps]
    cases hbefore : ((fresh capacity).afterAll calls).cache.find? key with
    | none =>
      rw [hbefore] at hbecomes
      cases hbecomes
      exact ⟨rfl, rfl⟩
    | some old =>
      obtain ⟨htotal, hrecent⟩ := ih hbefore
      rw [hbefore] at hbecomes
      cases hbecomes with
      | replaced h _ hstores =>
        simp only [CacheEntry.replaced, looksFor_of_storesUnder? hstores, sweeps_of_replaced hstores hbefore]
        exact ⟨htotal, hrecent⟩
      | used _ hlooks =>
        simp only [CacheEntry.used, hlooks, sweeps_of_looksFor hlooks, htotal, hrecent]
        exact ⟨rfl, rfl⟩
      | swept _ hsweeps huntouched =>
        simp only [CacheEntry.swept, hsweeps, looksFor_of_not_touches huntouched]
        exact ⟨htotal, rfl⟩
      | kept _ hcalm huntouched =>
        simp only [hcalm, looksFor_of_not_touches huntouched]
        exact ⟨htotal, hrecent⟩

/-! ## What the time says -/

end Caller

theorem clock_store (cache : Cache) (h : Handle) :
    (cache.store h).clock = if h.ref?.isSome then cache.clock + 1 else cache.clock := by
  unfold store
  cases h.ref? with
  | none => rfl
  | some unit =>
    dsimp only
    split
    · rfl
    · split <;> split <;> rfl

theorem lastSweep_store (cache : Cache) (h : Handle) : (cache.store h).lastSweep = cache.lastSweep := by
  unfold store
  cases h.ref? with
  | none => rfl
  | some unit =>
    dsimp only
    split
    · rfl
    · split <;> split <;> rfl

theorem clock_lookup (cache : Cache) (key : String) : (cache.lookup key).2.clock = cache.clock + 1 := by
  unfold lookup
  split <;> rfl

theorem lastSweep_lookup (cache : Cache) (key : String) :
    (cache.lookup key).2.lastSweep = cache.lastSweep := by
  unfold lookup
  split <;> rfl

namespace Caller

variable {s : Caller} {call : Call} {calls : List Call}

theorem clock_le_after (hforward : Moment.IsForward ⟨s, call⟩) :
    s.cache.clock ≤ (s.after call).cache.clock := by
  cases call with
  | store name =>
    cases hheld : s.held name with
    | none => rw [after_store_of_not_held hheld]
    | some h =>
      rw [after_store hheld, clock_store]
      split <;> omega
  | lookup _ other => exact Nat.le_of_lt (Nat.lt_of_lt_of_eq (Nat.lt_succ_self _) (clock_lookup s.cache other).symm)
  | get _ unit => exact Nat.le_of_lt (Nat.lt_of_lt_of_eq (Nat.lt_succ_self _) (clock_lookup s.cache unit.text).symm)
  | sweep => exact Nat.le_succ _
  | hold | remove | clear => exact Nat.le_refl _
  | wait clock => exact hforward

/-- A call that touches a copy takes time, and so does an explicit sweep. -/
theorem clock_after_of_touches (htouches : Moment.touches key ⟨s, call⟩ = true) :
    (s.after call).cache.clock = s.cache.clock + 1 := by
  cases call with
  | store name =>
    have hunder : s.storesUnder? (.store name) = some key := by
      simpa [Moment.touches, Call.looksFor] using htouches
    obtain ⟨unit, h, ⟨_, heq, hheld, href⟩, -⟩ := storesUnder?_eq_some.1 hunder
    cases heq
    rw [after_store hheld, clock_store, href]
    rfl
  | lookup _ other => exact clock_lookup s.cache other
  | get _ unit => exact clock_lookup s.cache unit.text
  | hold | remove | clear | sweep | wait => cases htouches

theorem clock_after_of_isSweep (hsweep : call.isSweep = true) :
    (s.after call).cache.clock = s.cache.clock + 1 := by
  cases call with
  | sweep => rfl
  | hold | store | lookup | get | remove | clear | wait => cases hsweep

/-- Only an explicit sweep counts as one. -/
theorem lastSweep_after (s : Caller) (call : Call) :
    (s.after call).cache.lastSweep = if call.isSweep then s.cache.clock + 1 else s.cache.lastSweep := by
  cases call with
  | store name =>
    cases hheld : s.held name with
    | none => rw [after_store_of_not_held hheld]; rfl
    | some h =>
      rw [after_store hheld]
      exact lastSweep_store s.cache h
  | lookup name other => exact lastSweep_lookup s.cache other
  | get name unit => exact lastSweep_lookup s.cache unit.text
  | hold | remove | clear | sweep | wait => rfl

/-- The time of an entry is that of the last call that touched it. -/
theorem Becomes.touched {before : Option CacheEntry} (hbecomes : s.Becomes call key before entry) :
    (Moment.touches key ⟨s, call⟩ = true ∧ call.isSweep = false ∧ entry.touched = s.cache.clock + 1) ∨
      (Moment.touches key ⟨s, call⟩ = false ∧ ∃ old, before = some old ∧ entry.touched = old.touched) := by
  have hstored : s.storesUnder? call = some key →
      Moment.touches key ⟨s, call⟩ = true ∧ call.isSweep = false := by
    intro hstores
    obtain ⟨unit, h, ⟨name, rfl, -⟩, -⟩ := storesUnder?_eq_some.1 hstores
    exact ⟨by simp [Moment.touches, hstores], rfl⟩
  cases hbecomes with
  | entered h hstores => exact Or.inl ⟨(hstored hstores).1, (hstored hstores).2, rfl⟩
  | replaced h old hstores => exact Or.inl ⟨(hstored hstores).1, (hstored hstores).2, rfl⟩
  | used old hlooks =>
    refine Or.inl ⟨by simp [Moment.touches, hlooks], ?_, rfl⟩
    exact (Bool.or_eq_false_iff.1 (sweeps_of_looksFor (s := s) hlooks)).1
  | swept old _ huntouched => exact Or.inr ⟨huntouched, old, rfl, rfl⟩
  | kept old _ huntouched => exact Or.inr ⟨huntouched, _, rfl, rfl⟩

theorem sinceSweep_concat (s : Caller) (calls : List Call) (call : Call) :
    s.sinceSweep (calls ++ [call]) =
      if call.isSweep then [] else s.sinceSweep calls ++ [⟨s.afterAll calls, call⟩] := by
  rw [sinceSweep, history_concat, List.rtakeWhile_concat]
  cases call.isSweep <;> simp [sinceSweep]

theorem Advances.of_concat (h : s.Advances (calls ++ [call])) :
    s.Advances calls ∧ Moment.IsForward ⟨s.afterAll calls, call⟩ := by
  unfold Advances at *
  rw [history_concat] at h
  exact ⟨fun moment hmem => h moment (List.mem_append_left _ hmem),
    h _ (List.mem_append_right _ List.mem_cons_self)⟩

/-- The times of the entries lie in the past, and behind the last explicit sweep exactly for those that one
of the calls since touched. -/
structure Timed (s : Caller) (since : List Moment) : Prop where
  behind : s.cache.lastSweep ≤ s.cache.clock
  past : ∀ key entry, s.cache.find? key = some entry → entry.touched ≤ s.cache.clock
  touched : ∀ key entry, s.cache.find? key = some entry →
    (s.cache.lastSweep ≤ entry.touched ↔ ∃ moment ∈ since, moment.touches key = true)

theorem timed_fresh (capacity : Nat) : (fresh capacity).Timed [] where
  behind := Nat.le_refl 0
  past := by
    intro key entry hfind
    cases hfind
  touched := by
    intro key entry hfind
    cases hfind

theorem Timed.after {since : List Moment} (htimed : s.Timed since) (htidy : s.cache.Tidy)
    (hforward : Moment.IsForward ⟨s, call⟩) :
    (s.after call).Timed (if call.isSweep then [] else since ++ [⟨s, call⟩]) := by
  have hle := clock_le_after hforward
  have hlast := lastSweep_after s call
  have hbehind := htimed.behind
  cases hsweep : call.isSweep with
  | true =>
    have hclock : (s.after call).cache.clock = s.cache.clock + 1 := clock_after_of_isSweep hsweep
    rw [hsweep, if_pos rfl] at hlast
    have hpast : ∀ key entry, (s.after call).cache.find? key = some entry → entry.touched ≤ s.cache.clock := by
      intro key entry hfind
      rcases (becomes_of_find? htidy hfind).touched with ⟨-, hnot, -⟩ | ⟨-, old, hold, hsame⟩
      · rw [hsweep] at hnot
        cases hnot
      · exact hsame ▸ htimed.past key old hold
    refine ⟨by omega, fun key entry hfind => Nat.le_trans (hpast key entry hfind) hle, ?_⟩
    intro key entry hfind
    have := hpast key entry hfind
    exact iff_of_false (by omega) (by simp)
  | false =>
    rw [hsweep, if_neg Bool.false_ne_true] at hlast
    rw [if_neg Bool.false_ne_true]
    refine ⟨by omega, fun key entry hfind => ?_, fun key entry hfind => ?_⟩
    · rcases (becomes_of_find? htidy hfind).touched with ⟨htouches, -, hnow⟩ | ⟨-, old, hold, hsame⟩
      · rw [hnow, clock_after_of_touches htouches]
      · exact hsame ▸ Nat.le_trans (htimed.past key old hold) hle
    · rcases (becomes_of_find? htidy hfind).touched with ⟨htouches, -, hnow⟩ | ⟨huntouched, old, hold, hsame⟩
      · exact iff_of_true (by omega) ⟨_, List.mem_append_right _ List.mem_cons_self, htouches⟩
      · rw [hlast, hsame, htimed.touched key old hold]
        simp [huntouched]

/-- **The time tells whether a copy was touched since the last explicit sweep**, whatever else swept in
between. -/
theorem timed_afterAll {capacity : Nat} (hclock : (fresh capacity).Advances calls) :
    ((fresh capacity).afterAll calls).Timed ((fresh capacity).sinceSweep calls) := by
  induction calls using List.reverseRecOn with
  | nil => exact timed_fresh capacity
  | append_singleton calls call ih =>
    obtain ⟨hbefore, hforward⟩ := hclock.of_concat
    rw [afterAll_append, sinceSweep_concat]
    exact (ih hbefore).after (tidy_afterAll (tidy_fresh capacity) calls) hforward

end Caller

/-! ## Evictions -/

/-- **What a store does to the entries**: it replaces a copy that is there; else it drives out of a full
cache the copies that were not looked up lately, and comes in if there is room. -/
structure StoreEffect (cache : Cache) (unit : UnitRef) (h : Handle) (after : Cache) : Prop where
  present : ∀ entry, cache.find? unit.text = some entry →
    after.find? unit.text = some (CacheEntry.replaced (cache.clock + 1) h entry) ∧
      ∀ key ≠ unit.text, after.find? key = cache.find? key
  new : cache.find? unit.text = none → cache.size < cache.capacity →
    after.find? unit.text = some ⟨h, cache.clock + 1, 0, 0⟩ ∧
      ∀ key ≠ unit.text, after.find? key = cache.find? key
  full : cache.find? unit.text = none → cache.capacity ≤ cache.size →
    (∀ key ≠ unit.text, after.find? key =
      ((cache.find? key).filter fun entry => 0 < entry.recent).map CacheEntry.swept) ∧
    ((∃ key entry, cache.find? key = some entry ∧ entry.recent = 0) →
      after.find? unit.text = some ⟨h, cache.clock + 1, 0, 0⟩) ∧
    ((∀ key entry, cache.find? key = some entry → entry.recent ≠ 0) → after.find? unit.text = none)

theorem Tidy.storeEffect (htidy : cache.Tidy) (href : h.ref? = some unit) :
    cache.StoreEffect unit h (cache.store h) where
  present := by
    intro entry hentry
    refine ⟨by rw [find?_store_self href, hentry], fun key hne => ?_⟩
    rw [htidy.find?_store_of_ne href hne, if_neg]
    rintro ⟨hnone, -⟩
    rw [hentry] at hnone
    cases hnone
  new := by
    intro hnone hroom
    have hleft : cache.room.length < cache.capacity := by
      rwa [room, if_neg (Nat.not_le.2 hroom)]
    refine ⟨?_, fun key hne => ?_⟩
    · rw [find?_store_self href, hnone]
      exact if_pos hleft
    · rw [htidy.find?_store_of_ne href hne, if_neg fun hfull => Nat.not_le.2 hroom hfull.2]
  full := by
    intro hnone hfull
    have hself : (cache.store h).find? unit.text = _ := find?_store_self href
    rw [hnone] at hself
    refine ⟨fun key hne => ?_, fun hunused => ?_, fun hused => ?_⟩
    · rw [htidy.find?_store_of_ne href hne, if_pos ⟨hnone, hfull⟩]
    · exact hself.trans (if_pos ((htidy.length_room_lt_iff hfull).2 hunused))
    · refine hself.trans (if_neg fun hroom => ?_)
      obtain ⟨key, entry, hfind, hunused⟩ := (htidy.length_room_lt_iff hfull).1 hroom
      exact hused key entry hfind hunused

/-- **Eviction follows the counts.** After any calls, as long as the clock is never set back: the total of an
entry is how often it was looked up since it came in, its recent count how often since it came in or a
sweep of either kind passed; a store replaces an entry and keeps its counts, or drives out of a full cache
exactly the entries whose recent count is zero, and then brings in a new one, with counts of zero, if that
made room; a sweep drops exactly the entries that no call since the last explicit sweep stored or looked
for, and tells how many. Asking for the size or for the counts changes nothing at all. -/
theorem eviction_follows_statistics (capacity : Nat) (calls : List Call)
    (hclock : (Caller.fresh capacity).Advances calls) :
    let start := Caller.fresh capacity
    let cache := (start.afterAll calls).cache
    (∀ key entry, cache.find? key = some entry →
      entry.total = (start.sinceEntered calls key).countP (Moment.looksFor key) ∧
        entry.recent = (start.sinceSwept calls key).countP (Moment.looksFor key)) ∧
    (∀ unit h, h.ref? = some unit → cache.StoreEffect unit h (cache.store h)) ∧
    (∀ key, cache.sweep.2.find? key =
      if (start.sinceSweep calls).any (Moment.touches key) then (cache.find? key).map CacheEntry.swept
      else none) ∧
    cache.sweep.1 = cache.entries.countP (fun entry => (cache.sweep.2.find? entry.1).isNone) ∧
    ∀ session : Session, (session.perform .cacheSize).2 = session ∧
      ∀ target, (session.perform (.cacheEntry target)).2 = session := by
  intro start cache
  have htidy : cache.Tidy := Caller.tidy_afterAll (Caller.tidy_fresh capacity) calls
  have htimed := Caller.timed_afterAll hclock
  refine ⟨fun key entry => Caller.counts_afterAll, fun unit h => htidy.storeEffect, fun key => ?_,
    htidy.fst_sweep, fun session => ⟨rfl, fun target => rfl⟩⟩
  rw [htidy.find?_sweep]
  cases hfind : cache.find? key with
  | none => exact (ite_self _).symm
  | some entry =>
    have htouched : decide (cache.lastSweep ≤ entry.touched) =
        (start.sinceSweep calls).any (Moment.touches key) := by
      rw [Bool.eq_iff_iff, decide_eq_true_iff, List.any_eq_true]
      exact htimed.touched key entry hfind
    rw [Option.filter_some, htouched]
    split <;> rfl

/-- The first of three units is looked up before the third drives out the second, and once more after a sweep
long behind. -/
def Caller.busyCalls : List Call :=
  let numbered (id : Int) : Handle := { Handle.create 1 none "" with id := some id }
  [.hold "a" (numbered 1), .hold "b" (numbered 2), .hold "c" (numbered 3), .store "a", .store "b",
    .get "x" ⟨1, 1⟩, .store "c", .wait 100, .sweep, .get "y" ⟨1, 1⟩]

/-- Both lookups are in the total of the first unit, the last of them in its recent count; the third unit,
which was not looked up, makes room for the second again, and would be dropped by a sweep. -/
theorem eviction_busyCopies :
    let start := Caller.fresh 2
    let cache := (start.afterAll Caller.busyCalls).cache
    let second : Handle := { Handle.create 1 none "" with id := some 2 }
    start.Advances Caller.busyCalls ∧
      (∃ entry, cache.find? "1.1" = some entry ∧ entry.total = 2 ∧ entry.recent = 1) ∧
      (cache.store second).find? "1.3" = none ∧ ((cache.store second).find? "1.1").isSome = true ∧
      ((cache.store second).find? "1.2").isSome = true ∧
      cache.sweep.1 = 1 ∧ cache.sweep.2.find? "1.3" = none := by
  intro start cache second
  have hclock : start.Advances Caller.busyCalls := by decide +kernel
  obtain ⟨hcounts, hstore, hsweep, hdropped, -⟩ := eviction_follows_statistics 2 Caller.busyCalls hclock
  have htext : UnitRef.text ⟨1, 2⟩ = "1.2" := by decide +kernel
  obtain ⟨hothers, hin, -⟩ := (hstore ⟨1, 2⟩ second rfl).full
    (Option.isNone_iff_eq_none.1 (by decide +kernel)) (by decide +kernel)
  rw [htext] at hothers hin
  have hunused : ((cache.find? "1.3").map (·.recent)) = some 0 := by decide +kernel
  refine ⟨hclock, ?_, ?_, ?_, ?_, ?_, ?_⟩
  · have hfirst : (cache.find? "1.1").isSome = true := by decide +kernel
    obtain ⟨entry, hentry⟩ := Option.isSome_iff_exists.1 hfirst
    obtain ⟨htotal, hrecent⟩ := hcounts "1.1" entry hentry
    exact ⟨entry, hentry, htotal.trans (by decide +kernel), hrecent.trans (by decide +kernel)⟩
  · rw [hothers "1.3" (by decide +kernel)]
    exact Option.isNone_iff_eq_none.1 (by decide +kernel)
  · rw [hothers "1.1" (by decide +kernel)]
    decide +kernel
  · obtain ⟨entry, hentry, hrecent⟩ := Option.map_eq_some_iff.1 hunused
    exact Option.isSome_iff_exists.2 ⟨_, hin ⟨"1.3", entry, hentry, hrecent⟩⟩
  · exact hdropped.trans (by decide +kernel)
  · rw [hsweep "1.3"]
    exact if_neg (by decide +kernel)

end MetadataStore.Cache
