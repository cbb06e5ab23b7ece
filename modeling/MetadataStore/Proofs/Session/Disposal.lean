import MetadataStore.Proofs.Repository.Disposed
import MetadataStore.Proofs.Session.Integrity
import MetadataStore.Session.Intervention

/-!
# `Proofs.Session.Disposal` — disposal in every state that can be reached

A session may be brought anywhere, by its own operations, by others who change the database or hold it, by
connecting anew with other settings. Wherever it is, disposal takes the units of its tenant that wait and
are not locked, and nothing else, however many it looks at in one step.

## Contents
- `Session.Reachable`, `intervene_keeps`, `Reachable.numbered` and `Reachable.idsDistinct`.
- `Session.dispose_takes_waiting`, with a sample.
-/

namespace MetadataStore.Session

/-! ## States that can be reached -/

/-- The sessions that begin with a new database, in the keeping of some engine, and go on in any way. -/
inductive Reachable : Session → Prop
  | connect (settings : Settings) (engine : Engine) (now : DateTime) (serial : Nat) :
    Reachable (ofRepository (.open settings (.blank engine) now serial))
  /-- The database is connected to anew, with settings of its own. -/
  | reconnect {s : Session} (settings : Settings) (now : DateTime) (serial : Nat) :
    Reachable s → Reachable (ofRepository (.open settings s.repository.database now serial))
  | after {s : Session} (event : Event) : Reachable s → Reachable (s.after event)
  /-- Others change the database. -/
  | intervene {s : Session} (intervention : Intervention) :
    Reachable s → Reachable (s.intervene intervention).2

variable {s : Session} {α : Type}

/-- A change that others make keeps of the database what the change itself keeps. -/
theorem changing_keeps (P : Database → Prop) (hs : P s.repository.database) {change : Change α}
    (hchange : ∀ a db', change s.repository.database = .ok (a, db') → P db')
    (make : α → Answer) : P (s.changing change make).2.repository.database := by
  unfold changing
  rw [repository_consulting, Repository.write_apply]
  cases hrun : Transaction.perform change s.repository.contention s.repository.database with
  | error fault => exact hs
  | ok result => exact hchange result.1 result.2 (Transaction.perform_eq_ok.1 hrun).2

theorem changingUnit_keeps (P : Database → Prop) (hs : P s.repository.database) (target : Target)
    {change : UnitRef → Change α}
    (hchange : ∀ unit a db', change unit s.repository.database = .ok (a, db') → P db')
    (make : α → Answer) : P (s.changingUnit target change make).2.repository.database := by
  unfold changingUnit
  split
  · rename_i unit _
    exact changing_keeps P hs (hchange unit) make
  · exact hs

/-- **What others do keeps what each of their changes keeps**: rows of units change in all but their
identity, there is a definition more or one changes, there is a lock more, or the database is new. -/
theorem intervene_keeps (P : Database → Prop) (hs : P s.repository.database)
    (hunits : ∀ f : UnitRow → UnitRow, (∀ row, (f row).unit = row.unit) →
      P { s.repository.database with units := s.repository.database.units.map f })
    (hdefine : ∀ {name kindCode scalar id db'},
      Database.insertAttribute name kindCode scalar s.repository.database = .ok (id, db') → P db')
    (hkinds : ∀ attributes, P { s.repository.database with attributes })
    (hlock : ∀ row, P (s.repository.database.withLock row)) (hnew : ∀ engine, P (.blank engine))
    (intervention : Intervention) : P (s.intervene intervention).2.repository.database := by
  have hupdate : ∀ {unit : UnitRef} {f : UnitRow → UnitRow} {count db'},
      Database.updateUnit unit f s.repository.database = .ok (count, db') →
        (∀ row, (f row).unit = row.unit) → P db' := by
    intro unit f count db' hset hf
    simp only [Database.updateUnit, Except.ok.injEq, Prod.mk.injEq] at hset
    obtain ⟨-, rfl⟩ := hset
    refine hunits _ fun row => ?_
    split
    · exact hf row
    · rfl
  cases intervention with
  | setStatus target code =>
    simp only [Session.intervene]
    refine changingUnit_keeps P hs target (fun unit count db' hset => ?_) _
    exact hupdate hset fun _ => rfl
  | setCreated target created =>
    simp only [Session.intervene]
    refine changingUnit_keeps P hs target (fun unit count db' hset => ?_) _
    exact hupdate hset fun _ => rfl
  | setName target name =>
    simp only [Session.intervene]
    refine changingUnit_keeps P hs target (fun unit count db' hset => ?_) _
    exact hupdate hset fun _ => rfl
  | setCorrelation target correlation =>
    refine changingUnit_keeps P hs target (fun unit count db' hset => ?_) _
    unfold Database.setUnitCorrelation at hset
    split at hset
    · cases hset
    · exact hupdate hset fun _ => rfl
  | addDefinition name kindCode scalar => exact changing_keeps P hs (fun _ _ hinsert => hdefine hinsert) _
  | setKind id kindCode =>
    refine changing_keeps P hs (fun count db' hset => ?_) _
    cases hset
    exact hkinds _
  | addLock target purpose kindCode taken expire =>
    refine changingUnit_keeps P hs target (fun unit u db' hinsert => ?_) _
    obtain ⟨-, rfl⟩ := Database.insertLock_eq_ok.1 hinsert
    exact hlock _
  | contend contention => exact hs
  | reopen =>
    simp only [Session.intervene]
    rw [repository_consulting]
    unfold Repository.reopen
    split
    · exact hnew _
    · split
      · exact hs
      · exact hs

/-- **What others do gives out no number twice either.** -/
theorem numbered_intervene (hs : s.repository.database.Numbered) (intervention : Intervention) :
    (s.intervene intervention).2.repository.database.Numbered :=
  intervene_keeps Database.Numbered hs (fun _ hf => hs.updateUnits fun row _ => hf row)
    (fun hinsert => hs.insertAttribute hinsert) (fun _ => { hs with }) (fun _ => { hs with }) .blank
    intervention

/-- Numbers are given out once, wherever a session comes to. -/
theorem Reachable.numbered (hs : s.Reachable) : s.repository.database.Numbered := by
  induction hs with
  | connect settings engine now serial => exact .blank engine
  | reconnect settings now serial _ ih => exact ih
  | after event _ ih => exact invariant_numbered.after ih (event.answersFor_all _)
  | intervene intervention _ ih => exact numbered_intervene ih intervention

theorem invariant_idsDistinct :
    Invariant .all fun r => r.database.Numbered ∧ r.database.IdsDistinct where
  move := fun _ _ hr hmove => ⟨hmove.numbered hr.1, hmove.idsDistinct hr.1 hr.2⟩
  circumstances := fun _ _ _ hr => hr

/-- **The number of a unit is the key of the table of units**, wherever a session comes to. -/
theorem Reachable.idsDistinct (hs : s.Reachable) : s.repository.database.IdsDistinct := by
  induction hs with
  | connect settings engine now serial => exact List.nodup_nil
  | reconnect settings now serial _ ih => exact ih
  | after event hbefore ih =>
    exact (invariant_idsDistinct.after ⟨hbefore.numbered, ih⟩ (event.answersFor_all _)).2
  | @intervene s intervention _ ih =>
    refine intervene_keeps Database.IdsDistinct ih (fun _ hf => ih.updateUnits fun row _ => hf row)
      (fun hinsert => ?_) (fun _ => ih) (fun _ => ih) (fun _ => List.nodup_nil) intervention
    unfold Database.IdsDistinct
    rw [(Database.insertAttribute_leaves hinsert).1.units]
    exact ih

/-- Wherever a session has come to, it may go on. -/
theorem Reachable.afterAll (hs : s.Reachable) (events : List Event) : (s.afterAll events).Reachable := by
  induction events using List.reverseRecOn with
  | nil => exact hs
  | append_singleton events event ih =>
    rw [afterAll_append_single]
    exact ih.after event

/-! ## Disposal -/

/-- **Disposal takes exactly the units of a tenant that wait for it and are not locked**, in every state
and for every number of units that it looks at in one step. It comes to an end, and answers how many
units it took. They are gone from the database with their values and links, and from the cache; of all
other units everything is as it was. While others keep it from writing it takes nothing. -/
theorem dispose_takes_waiting (hs : s.Reachable) (tenant : Int32) (disposeBatch : Nat) :
    let r := { s.repository with settings := { s.repository.settings with disposeBatch } }
    ∃ doomed : List UnitRef,
      doomed.Nodup ∧
      (∀ unit, unit ∈ doomed ↔
        unit.tenant = tenant.toInt ∧
          (∃ row ∈ r.database.units, row.unit = unit ∧ row.status = Status.pendingDisposition.code) ∧
          r.database.isLocked unit = false) ∧
      Repository.Disposal tenant (max disposeBatch 1) 0 r (Repository.dispose tenant r) ∧
      (r.contention.allowsWriting = true →
        Repository.dispose tenant r = (.ok doomed.length, r.without doomed)) ∧
      (r.contention.allowsWriting = false → (Repository.dispose tenant r).2 = r) ∧
      (∀ unit ∈ doomed, r.database.Gone (r.without doomed).database unit) ∧
      (∀ unit, unit ∉ doomed → r.database.SameUnit (r.without doomed).database unit) ∧
      (∀ row, row ∈ (r.without doomed).database.relations ↔
        row ∈ r.database.relations ∧ row.left ∉ doomed ∧ row.right ∉ doomed) ∧
      (∀ unit, (r.without doomed).cache.find? unit.text =
        if unit ∈ doomed then none else r.cache.find? unit.text) := by
  intro r
  have hnumbered : r.database.Numbered := hs.numbered
  let doomed := (r.database.waiting tenant.toInt).filter fun unit => !r.database.isLocked unit
  refine ⟨doomed, ?distinct, ?members, ?ends, ?taken, ?refused, ?gone, ?same, ?relations, ?cache⟩
  case distinct => exact (Database.nodup_waiting hnumbered.unitsDistinct _).filter _
  case members =>
    intro unit
    simp only [doomed, List.mem_filter, Database.mem_waiting, Bool.not_eq_true', and_assoc]
  case ends =>
    cases hread : r.contention.allowsReading with
    | true => exact (Repository.dispose_apply hread hnumbered.unitsDistinct tenant).2
    | false => exact (Repository.dispose_of_unreadable hread tenant).2
  case taken =>
    intro hwriting
    have htakes : r.takes = fun unit => !r.database.isLocked unit := by
      funext unit
      rw [Repository.takes, hwriting, Bool.true_and]
    rw [(Repository.dispose_apply (Contention.allowsReading_of_allowsWriting hwriting)
      hnumbered.unitsDistinct tenant).1, htakes]
  case refused =>
    intro hwriting
    cases hread : r.contention.allowsReading with
    | true =>
      have hnone : (r.database.waiting tenant.toInt).filter r.takes = [] := by
        rw [List.filter_eq_nil_iff]
        intro unit _
        rw [Repository.takes, hwriting]
        exact Bool.false_ne_true
      rw [(Repository.dispose_apply hread hnumbered.unitsDistinct tenant).1, hnone,
        Repository.without_nil]
    | false => rw [(Repository.dispose_of_unreadable hread tenant).1]
  case gone => exact fun unit hdoomed => Database.gone_without hdoomed
  case same => exact fun unit hkept => hnumbered.sameUnit_without hkept
  case relations => exact fun row => Database.mem_relations_without
  case cache => exact fun unit => Cache.find?_without _ _ _

/-- Five units of a tenant and one of another wait for disposal, the second of them locked; one more is
effective, and it is related to the first. -/
def waitingUnits : List Event :=
  ((["a", "b", "c", "d", "e", "f"].flatMap fun name =>
      [.perform (.create name 1 none), .perform (.store name)]) ++
    [.perform (.create "g" 2 none), .perform (.store "g"),
      .perform (.addRelation "f" .replacement "a"), .perform (.lock "b" .read "work")]) ++
    ["a", "b", "c", "d", "e", "g"].map fun name => .perform (.delete name)

/-- Two at a time, the four that are not locked are taken. -/
theorem dispose_waitingUnits :
    (fresh.afterAll waitingUnits).Reachable ∧
      ∃ doomed : List UnitRef, doomed.Perm [⟨1, 1⟩, ⟨1, 3⟩, ⟨1, 4⟩, ⟨1, 5⟩] ∧
        let r := { (fresh.afterAll waitingUnits).repository with
          settings := { (fresh.afterAll waitingUnits).repository.settings with disposeBatch := 2 } }
        Repository.dispose 1 r = (.ok 4, r.without doomed) := by
  have hreachable : (fresh.afterAll waitingUnits).Reachable :=
    .afterAll (.connect .inMemory .nearest .epoch 0) waitingUnits
  have hcontention : (fresh.afterAll waitingUnits).repository.contention.allowsWriting = true := by
    decide +kernel
  have hrows : ((fresh.afterAll waitingUnits).repository.database.units.map
      fun row => (row.unit, row.status)) =
        [(⟨1, 1⟩, 1), (⟨1, 2⟩, 1), (⟨1, 3⟩, 1), (⟨1, 4⟩, 1), (⟨1, 5⟩, 1), (⟨1, 6⟩, 30), (⟨2, 7⟩, 1)] := by
    decide +kernel
  have hlocks : (fresh.afterAll waitingUnits).repository.database.locks.map (·.unit) = [⟨1, 2⟩] := by
    decide +kernel
  -- From here on only these four facts about the session count, not how it was reached.
  generalize fresh.afterAll waitingUnits = s at *
  obtain ⟨doomed, hdistinct, hmem, -, htaken, -⟩ := dispose_takes_waiting hreachable 1 2
  have hwaiting : ∀ unit : UnitRef, (∃ row ∈ s.repository.database.units,
      row.unit = unit ∧ row.status = Status.pendingDisposition.code) ↔
        unit ∈ ([⟨1, 1⟩, ⟨1, 2⟩, ⟨1, 3⟩, ⟨1, 4⟩, ⟨1, 5⟩, ⟨2, 7⟩] : List UnitRef) := by
    intro unit
    have hpair : (∃ row ∈ s.repository.database.units,
        row.unit = unit ∧ row.status = Status.pendingDisposition.code) ↔
          (unit, (1 : Int)) ∈ s.repository.database.units.map fun row => (row.unit, row.status) := by
      simp [Status.code]
    rw [hpair, hrows]
    simp
  have hfree : ∀ unit : UnitRef, s.repository.database.isLocked unit = false ↔ unit ≠ ⟨1, 2⟩ := by
    intro unit
    have hlocked : s.repository.database.isLocked unit =
        (s.repository.database.locks.map (·.unit)).contains unit := by
      rw [Bool.eq_iff_iff]
      simp [Database.isLocked]
    rw [hlocked, hlocks]
    simp
  have hperm : doomed.Perm [⟨1, 1⟩, ⟨1, 3⟩, ⟨1, 4⟩, ⟨1, 5⟩] := by
    refine (List.perm_ext_iff_of_nodup hdistinct (by decide)).2 fun unit => ?_
    rw [hmem, hwaiting, hfree]
    constructor
    · rintro ⟨htenant, hunit, hne⟩
      simp only [List.mem_cons, List.not_mem_nil, or_false] at hunit ⊢
      rcases hunit with rfl | rfl | rfl | rfl | rfl | rfl <;> simp_all
    · intro hunit
      simp only [List.mem_cons, List.not_mem_nil, or_false] at hunit
      rcases hunit with rfl | rfl | rfl | rfl <;> simp
  refine ⟨hreachable, doomed, hperm, ?_⟩
  have hdone := htaken hcontention
  rw [hperm.length_eq] at hdone
  exact hdone

end MetadataStore.Session
