import MetadataStore.Proofs.Repository.Locked
import MetadataStore.Proofs.Session.Disposal

/-!
# `Proofs.Session.Locking` — locked units through sessions and reopenings

A lock is taken in one call and given up in another, and in between anything may be asked of the unit,
through any number of handles: it may be edited and stored, locked once more, given up for disposal and
disposed of, and the database may be opened anew. All of that makes moves of the repository only, and of
these one alone takes a lock back. So what a lock keeps from move to move it keeps until the unit is
unlocked.

## Contents
- `Event.Unlocks`, `holdingTerms`, and the invariants on these terms.
- `Operation.locks?`, `perform_of_locks`: requests for a lock.
- `Session.LockHeld`, what a lock means for its unit; `Continues.lockHeld`, `Continues.sameValues`.
- `Session.lock_freezes`, with a sample.
-/

namespace MetadataStore

/-- The unit that a lock is asked for, with the kind and the purpose of the lock. -/
def Operation.locks? (s : Session) : Operation → Option (UnitRef × LockKind × String)
  | .lock name kind purpose => ((s.handle? name).bind Handle.ref?).map fun unit => (unit, kind, purpose)
  | .lockUnit unit kind purpose => some (unit, kind, purpose)
  | _ => none

namespace Session

open MetadataStore.Repository (Terms)

variable {s t : Session} {unit : UnitRef}

/-! ## Holding a lock -/

/-- The locks of a unit are given up. -/
def Event.Unlocks (s : Session) (unit : UnitRef) : Event → Prop
  | .perform (.unlock name) => ∃ h, s.handle? name = some h ∧ h.ref? = some unit
  | _ => False

/-- The terms on which the locks of a unit are not given up. -/
def holdingTerms (unit : UnitRef) (patches : Prop) : Terms :=
  { Terms.all with unlocks := fun other => other ≠ unit, patches }

theorem Event.answersFor_of_not_unlocks {patches : Prop} {event : Event} (hheld : ¬event.Unlocks s unit)
    (hpatches : event.IsOrdinary ∨ patches) : event.AnswersFor (holdingTerms unit patches) s := by
  cases event with
  | circumstances contention now => trivial
  | perform operation =>
    refine Operation.answersFor_of_parts (fun _ _ => trivial) (fun _ _ _ _ => trivial)
      (fun _ _ _ _ => trivial) ?_ hpatches (Or.inr trivial)
    rintro name h other rfl hfind href rfl
    exact hheld ⟨h, hfind, href⟩

/-- A locked unit stays frozen. -/
theorem invariant_frozen {base : Database} (hlocked : base.isLocked unit = true) (patches : Prop) :
    Invariant (holdingTerms unit patches) fun r => r.database.Numbered ∧ base.Frozen r.database unit where
  move := by
    intro r r' hr hmove
    have hheld : ¬(holdingTerms unit patches).unlocks unit := fun hne => hne rfl
    exact ⟨hmove.numbered hr.1, hr.2.trans (hmove.frozen hr.1 (hr.2.isLocked hlocked) hheld)⟩
  circumstances := fun _ _ _ hr => hr

/-- And its values stay, if none is written past it. -/
theorem invariant_sameValues {base : Database} (hlocked : base.isLocked unit = true) {row : UnitRow}
    (hrow : base.unit? unit = some row) :
    Invariant (holdingTerms unit False) fun r =>
      (r.database.Numbered ∧ base.Frozen r.database unit) ∧ base.SameValues r.database unit where
  move := by
    rintro r r' ⟨hkept, hsame⟩ hmove
    obtain ⟨status, hnow⟩ := hkept.2.row row hrow
    have hissued := hkept.1.issued_of_unit? hnow
    exact ⟨(invariant_frozen hlocked False).move r r' hkept hmove,
      hsame.trans (hmove.sameValues hkept.1 (hkept.2.isLocked hlocked) hissued id)⟩
  circumstances := fun _ _ _ hr => hr

/-! ## Asking for a lock -/

variable {operation : Operation} {kind : LockKind} {purpose : String}

/-- Every request for a lock is one of the repository. -/
theorem perform_of_locks (hlocks : operation.locks? s = some (unit, kind, purpose)) :
    s.perform operation = s.consulting (Repository.lock unit kind purpose) .flag := by
  cases operation with
  | lock name other text =>
    obtain ⟨ref, hheld, heq⟩ := Option.map_eq_some_iff.1 hlocks
    obtain ⟨h, hfind, href⟩ := Option.bind_eq_some_iff.1 hheld
    cases heq
    have hlock : h.lock kind purpose = Repository.lock unit kind purpose := by
      unfold Handle.lock Handle.stored
      rw [href]
      rfl
    show s.asking name (fun h => h.lock kind purpose) .flag = _
    unfold Session.asking Session.withHandle
    rw [hfind]
    dsimp only
    rw [hlock]
  | lockUnit other otherKind text =>
    cases hlocks
    rfl
  | _ => cases hlocks

/-- A request for a lock that is not a fault has done what the repository says. -/
theorem lock_of_flag (hlocks : operation.locks? s = some (unit, kind, purpose)) {taken : Bool}
    (hflag : (s.perform operation).1 = .flag taken) :
    Repository.lock unit kind purpose s.repository = (.ok taken, (s.perform operation).2.repository) := by
  rw [perform_of_locks hlocks] at hflag ⊢
  rw [repository_consulting]
  unfold Session.consulting Session.consult at hflag
  cases hlock : Repository.lock unit kind purpose s.repository with
  | mk outcome r =>
    rw [hlock] at hflag
    cases outcome with
    | error fault => cases hflag
    | ok flag =>
      cases hflag
      rfl

/-- While writing is possible, a lock that is asked for on a stored unit is taken or refused. -/
theorem flag_of_locks (hlocks : operation.locks? s = some (unit, kind, purpose))
    (hunit : s.repository.database.hasUnit unit = true)
    (hwrite : s.repository.contention.allowsWriting = true) :
    (s.perform operation).1 = .flag (!s.repository.database.isLocked unit) := by
  have hread := Contention.allowsReading_of_allowsWriting hwrite
  rw [perform_of_locks hlocks]
  unfold Session.consulting Session.consult
  cases hlocked : s.repository.database.isLocked unit with
  | true =>
    rw [Repository.lock_eq_ok.2 ⟨hread, Or.inl ⟨hlocked, rfl, rfl⟩⟩]
    rfl
  | false =>
    rw [Repository.lock_eq_ok.2 ⟨hread, Or.inr ⟨hlocked, hwrite, hunit, rfl, rfl⟩⟩]
    rfl

/-- What a lock on a unit means in a session: it is the only one of the unit; the row of the unit is as it
was in `base` but for the status; asking for another lock is answered no, and changes nothing; and every
store of the unit is refused as an illegal request, whatever the handle, and changes nothing. Both fail
otherwise only while others keep the locks from being read. -/
structure LockHeld (base : Database) (lock : LockRow) (t : Session) : Prop where
  alone : t.repository.database.locksOf lock.unit = [lock]
  row : ∀ old, base.unit? lock.unit = some old →
    ∃ status, t.repository.database.unit? lock.unit = some { old with status }
  exclusive : ∀ operation kind purpose, operation.locks? t = some (lock.unit, kind, purpose) →
    ∃ answer, t.perform operation = (answer, t) ∧
      (t.repository.contention.allowsReading = true → answer = .flag false) ∧
      (t.repository.contention.allowsReading = false → ∃ fault, answer = .fault fault)
  unstored : ∀ h : Handle, h.ref? = some lock.unit →
    ∃ fault, Handle.store (t.repository, h) = (.error fault, (t.repository, h)) ∧
      (t.repository.contention.allowsReading = true →
        fault = .unitLocked lock.unit ∧ fault.category = .illegalRequest)

/-- **A unit that has one lock goes on being held by it** until it is unlocked. -/
theorem Continues.lockHeld {lock : LockRow}
    (h : Continues (fun t event => ¬event.Unlocks t lock.unit) s t)
    (hnumbered : s.repository.database.Numbered)
    (halone : s.repository.database.locksOf lock.unit = [lock]) :
    t.LockHeld s.repository.database lock := by
  have hlocked := Database.isLocked_of_locksOf halone
  obtain ⟨-, hfrozen⟩ := (invariant_frozen hlocked True).continues
    (fun t event hheld => Event.answersFor_of_not_unlocks hheld (Or.inr trivial))
    (fun _ _ _ _ hr => hr) h ⟨hnumbered, .refl _ lock.unit⟩
  have hstill := hfrozen.isLocked hlocked
  refine ⟨hfrozen.locks.trans halone, hfrozen.row, ?exclusive, ?unstored⟩
  case exclusive =>
    intro operation kind purpose hlocks
    rw [perform_of_locks hlocks]
    unfold Session.consulting Session.consult
    rw [Repository.lock_of_locked hstill]
    cases t.repository.contention.allowsReading with
    | true => exact ⟨_, rfl, fun _ => rfl, fun hno => absurd hno (by decide)⟩
    | false => exact ⟨_, rfl, fun hno => absurd hno (by decide), fun _ => ⟨_, rfl⟩⟩
  case unstored =>
    intro h href
    refine ⟨_, Handle.store_of_locked href hstill, fun hread => ?_⟩
    rw [Handle.lockedFault_of_readable hread]
    exact ⟨rfl, rfl⟩

/-- **And it keeps its values**, unless they are written past it. -/
theorem Continues.sameValues {row : UnitRow}
    (h : Continues (fun t event => ¬event.Unlocks t unit ∧ event.IsOrdinary) s t)
    (hnumbered : s.repository.database.Numbered)
    (hlocked : s.repository.database.isLocked unit = true)
    (hrow : s.repository.database.unit? unit = some row) :
    s.repository.database.SameValues t.repository.database unit := by
  obtain ⟨-, hvalues⟩ := (invariant_sameValues hlocked hrow).continues
    (fun t event hheld => Event.answersFor_of_not_unlocks hheld.1 (Or.inl hheld.2))
    (fun _ _ _ _ hr => hr) h ⟨⟨hnumbered, .refl _ unit⟩, .of_eq rfl rfl⟩
  exact hvalues

/-! ## Whole sessions -/

/-- **A lock freezes its unit.** In every state, a lock that is asked for on a stored unit, through a handle
or by its identity, is taken exactly if the unit has no lock; and one that was taken is held, whatever
happens to the unit through whatever handles, its disposal included, until the unit is unlocked: it stays
the only lock, others are refused and so is every store, and the row of the unit stays but for the status.
Its values stay as well, unless they are written past it. -/
theorem lock_freezes (hs : s.Reachable) (hlocks : operation.locks? s = some (unit, kind, purpose))
    (hunit : s.repository.database.hasUnit unit = true) :
    let db := s.repository.database
    let lock : LockRow := ⟨unit, purpose, kind.code, s.repository.now.text, none⟩
    let answer := (s.perform operation).1
    let after := (s.perform operation).2
    (∀ taken, answer = .flag taken → taken = !db.isLocked unit) ∧
      (s.repository.contention.allowsWriting = true → answer = .flag (!db.isLocked unit)) ∧
      (answer = .flag true →
        (∀ t, Continues (fun t event => ¬event.Unlocks t unit) after t → t.LockHeld db lock) ∧
        ∀ t, Continues (fun t event => ¬event.Unlocks t unit ∧ event.IsOrdinary) after t →
          db.SameValues t.repository.database unit) := by
  intro db lock answer after
  refine ⟨?answers, flag_of_locks hlocks hunit, ?held⟩
  case answers =>
    intro taken hflag
    obtain ⟨-, ⟨hlocked, rfl, -⟩ | ⟨hfree, -, -, rfl, -⟩⟩ :=
      Repository.lock_eq_ok.1 (lock_of_flag hlocks hflag)
    · rw [hlocked, Bool.not_true]
    · rw [hfree, Bool.not_false]
  case held =>
    intro hflag
    obtain ⟨-, ⟨-, hno, -⟩ | ⟨hfree, -, -, -, hafter⟩⟩ :=
      Repository.lock_eq_ok.1 (lock_of_flag hlocks hflag)
    · cases hno
    · -- the lock came to a unit that had none, and nothing else changed
      have hdb : after.repository.database = db.withLock lock := congrArg Repository.database hafter
      have hnumbered : after.repository.database.Numbered := by
        rw [hdb]
        exact { hs.numbered with }
      have halone : after.repository.database.locksOf lock.unit = [lock] := by
        rw [hdb]
        exact Database.locksOf_withLock_of_free hfree
      constructor
      · intro t ht
        have hheld := ht.lockHeld hnumbered halone
        rw [hdb] at hheld
        exact { hheld with }
      · intro t ht
        rw [Database.hasUnit_eq_isSome_unit?] at hunit
        obtain ⟨row, hrow⟩ := Option.isSome_iff_exists.1 hunit
        have hthere : after.repository.database.unit? unit = some row := by
          rw [hdb]
          exact hrow
        have hvalues := ht.sameValues hnumbered (Database.isLocked_of_locksOf halone) hthere
        rw [hdb] at hvalues
        exact { hvalues with }

/-- A stored unit is locked; then it is renamed and stored, given up for disposal and disposed of, and the
database is opened again. The lock is still held. -/
theorem storedUnit_frozen :
    let s := fresh.afterAll storedUnit
    let db := s.repository.database
    let lock : LockRow := ⟨⟨1, 1⟩, "edit", LockKind.write.code, s.repository.now.text, none⟩
    let after := (s.perform (.lock "a" .write "edit")).2
    let later := (((after.after (.perform (.rename "a" (some "second")))).after (.perform (.store "a"))).after
      (.perform (.delete "a"))).after (.perform (.dispose 1))
    let again := { later with repository := .open .inMemory later.repository.database .epoch 0 }
    s.Reachable ∧ (Operation.lock "a" .write "edit").locks? s = some (⟨1, 1⟩, .write, "edit") ∧
      db.hasUnit ⟨1, 1⟩ = true ∧ (s.perform (.lock "a" .write "edit")).1 = .flag true ∧
      again.LockHeld db lock ∧ db.SameValues again.repository.database ⟨1, 1⟩ := by
  intro s db lock after later again
  have hreachable : s.Reachable := .afterAll (.connect .inMemory .nearest .epoch 0) storedUnit
  have hlocks : (Operation.lock "a" .write "edit").locks? s = some (⟨1, 1⟩, .write, "edit") := by
    decide +kernel
  have hunit : db.hasUnit ⟨1, 1⟩ = true := by decide +kernel
  have hwrite : s.repository.contention.allowsWriting = true := by decide +kernel
  have hfree : db.isLocked ⟨1, 1⟩ = false := by decide +kernel
  obtain ⟨-, hanswer, hheld⟩ := lock_freezes hreachable hlocks hunit
  have htaken : (s.perform (.lock "a" .write "edit")).1 = .flag true := by
    rw [hanswer hwrite, hfree, Bool.not_false]
  refine ⟨hreachable, hlocks, hunit, htaken, (hheld htaken).1 again ?_, (hheld htaken).2 again ?_⟩
  · exact .reopen _ _ _ (.event _ (.event _ (.event _ (.event _ .refl id) id) id) id)
  · exact .reopen _ _ _ (.event _ (.event _ (.event _ (.event _ .refl ⟨id, trivial⟩) ⟨id, trivial⟩)
      ⟨id, trivial⟩) ⟨id, trivial⟩)

end Session

end MetadataStore
