import MetadataStore.Database.Transaction

/-!
# `Proofs.Database.Attempts` — a transaction begun again while contention lasts

`Database.write` hands every attempt the state it was given itself, and a `Transaction` that fails says
nothing of what it had done by then. Here the same happens on a connection, one step after the other: a
transaction is opened on what is stored and works on a copy, of which a fault may leave any part changed;
a commit stores the copy unless the engine refuses it, and a rollback drops it. The next attempt is opened
on whatever the one before it left, and the attempts are counted up and compared with the limit after each.

One attempt leaves either its whole effect or what it found (`run_eq`). Every attempt of a series but the
last failed, so the last one found what the first had found, and it alone decides the answer and the state.

## Contents
- `OpenTransaction`, `Attempt`, `Attempt.run`: one attempt, and `Attempt.run_eq`, what it leaves.
- `StopsAt`: which attempt of a sequence is the last; `retry_stopsAt`.
- `Attempt.series`: the loop over attempts; `Attempt.series_stopsAt`.
- `Database.write_eq_series`: `Database.write` is such a series, whatever its faults leave half done.
- `Attempt.series_leaves_last_attempt`: the bounds, the answer and the state of every series.
-/

namespace MetadataStore

variable {α : Type}

/-! ## One attempt -/

/-- A transaction that is neither committed nor rolled back yet. -/
structure OpenTransaction where
  /-- What is stored; others see no more than this. -/
  stored : Database
  /-- What the transaction has made of it so far. -/
  working : Database

namespace OpenTransaction

/-- Opened on what is stored. Beginning takes no lock and meets no contention. -/
def start (db : Database) : OpenTransaction := ⟨db, db⟩

/-- The work goes on to another state. -/
def advance (opened : OpenTransaction) (working : Database) : OpenTransaction := { opened with working }

/-- What is stored once the work is. -/
def commit (opened : OpenTransaction) : Database := opened.working

/-- What is stored once the work is dropped. -/
def rollback (opened : OpenTransaction) : Database := opened.stored

@[simp] theorem working_start (db : Database) : (start db).working = db := rfl

@[simp] theorem commit_advance (opened : OpenTransaction) (working : Database) :
    (opened.advance working).commit = working := rfl

@[simp] theorem rollback_advance (opened : OpenTransaction) (working : Database) :
    (opened.advance working).rollback = opened.rollback := rfl

@[simp] theorem rollback_start (db : Database) : (start db).rollback = db := rfl

end OpenTransaction

/-- One attempt at a transaction, as it turns out. -/
structure Attempt (α : Type) where
  /-- What the work answers on a state, and what it has made of that state when it answers or gives up. -/
  work : Database → Except Fault α × Database
  /-- What the engine has against the commit, should it come to that. -/
  refusal : Option EngineFault

namespace Attempt

/-- Opens a transaction, runs the work once in it, and commits it or rolls it back. -/
def run (attempt : Attempt α) (db : Database) : Except Fault α × Database :=
  let opened := OpenTransaction.start db
  let result := attempt.work opened.working
  let worked := opened.advance result.2
  match result.1 with
  | .ok a =>
    match attempt.refusal with
    | none => (.ok a, worked.commit)
    -- a refused commit leaves the transaction open, and it must not stay so
    | some cause => (.error (.write cause), worked.rollback)
  | .error fault => (.error fault, worked.rollback)

/-- What an attempt on a state comes to: the answer of its work, unless the commit is refused. -/
def outcome (attempt : Attempt α) (db : Database) : Except Fault α :=
  match (attempt.work db).1, attempt.refusal with
  | .ok _, some cause => .error (.write cause)
  | answer, _ => answer

/-- All that the work of an attempt makes of a state. -/
def effect (attempt : Attempt α) (db : Database) : Database := (attempt.work db).2

/-- What is stored after an attempt: its effect if it succeeds, else what was stored before. -/
def leaves (attempt : Attempt α) (db : Database) : Database :=
  match attempt.outcome db with
  | .ok _ => attempt.effect db
  | .error _ => db

theorem leaves_of_error {attempt : Attempt α} {db : Database} {fault : Fault}
    (h : attempt.outcome db = .error fault) : attempt.leaves db = db := by
  unfold leaves
  rw [h]

theorem leaves_of_ok {attempt : Attempt α} {db : Database} {a : α} (h : attempt.outcome db = .ok a) :
    attempt.leaves db = attempt.effect db := by
  unfold leaves
  rw [h]

/-- An attempt leaves its whole effect or none, however far its work had come. -/
theorem run_eq (attempt : Attempt α) (db : Database) :
    attempt.run db = (attempt.outcome db, attempt.leaves db) := by
  unfold run leaves outcome effect
  cases hanswer : (attempt.work db).1 with
  | error fault => simp [hanswer]
  | ok a =>
    cases attempt.refusal with
    | none => simp [hanswer]
    | some cause => simp [hanswer]

end Attempt

/-! ## Which attempt is the last -/

/-- Whether another attempt may be made after an outcome. -/
def FailsForContention (outcome : Except Fault α) : Prop :=
  ∃ fault, outcome = .error fault ∧ fault.isTransient = true

theorem not_failsForContention_of_ok {outcome : Except Fault α} {a : α} (h : outcome = .ok a) :
    ¬FailsForContention outcome := by
  rintro ⟨fault, herror, -⟩
  cases h.symm.trans herror

theorem failsForContention_iff_of_error {outcome : Except Fault α} {fault : Fault}
    (h : outcome = .error fault) : FailsForContention outcome ↔ fault.isTransient = true := by
  constructor
  · rintro ⟨other, herror, htransient⟩
    cases h.symm.trans herror
    exact htransient
  · intro htransient
    exact ⟨fault, h, htransient⟩

/-- Of the outcomes from number `first` on, that of number `last` is the first that is no failure for
contention, or else the last before `limit`. -/
structure StopsAt (outcomes : Nat → Except Fault α) (first limit last : Nat) : Prop where
  first_le : first ≤ last
  lt_limit : last < limit
  earlier : ∀ i, first ≤ i → i < last → FailsForContention (outcomes i)
  spent : FailsForContention (outcomes last) → last + 1 = limit

namespace StopsAt

variable {outcomes : Nat → Except Fault α} {first limit last other : Nat}

/-- A sequence stops at once when nothing more is worth it or allowed. -/
theorem here (hlt : first < limit) (h : FailsForContention (outcomes first) → first + 1 = limit) :
    StopsAt outcomes first limit first where
  first_le := Nat.le_refl first
  lt_limit := hlt
  earlier _ hfirst hlast := absurd hlast (Nat.not_lt.2 hfirst)
  spent := h

theorem here_of_ok {a : α} (hlt : first < limit) (h : outcomes first = .ok a) :
    StopsAt outcomes first limit first :=
  here hlt fun hfails => absurd hfails (not_failsForContention_of_ok h)

theorem here_of_error {fault : Fault} (hlt : first < limit) (h : outcomes first = .error fault)
    (hlasting : ¬fault.isTransient = true) : StopsAt outcomes first limit first :=
  here hlt fun hfails => absurd ((failsForContention_iff_of_error h).1 hfails) hlasting

/-- After a failure for contention a sequence stops where its rest does. -/
theorem next (hfails : FailsForContention (outcomes first)) (h : StopsAt outcomes (first + 1) limit last) :
    StopsAt outcomes first limit last where
  first_le := Nat.le_of_succ_le h.first_le
  lt_limit := h.lt_limit
  earlier i hfirst hlast := by
    rcases Nat.eq_or_lt_of_le hfirst with rfl | hlater
    · exact hfails
    · exact h.earlier i hlater hlast
  spent := h.spent

theorem not_lt (h : StopsAt outcomes first limit last) (hother : StopsAt outcomes first limit other) :
    ¬last < other := by
  intro hlt
  -- `other` goes on past `last`, so `last` failed for contention and had to be the very last
  have hspent : last + 1 = limit := h.spent (hother.earlier last h.first_le hlt)
  have hbound : other < limit := hother.lt_limit
  omega

/-- There is one such place at most. -/
theorem unique (h : StopsAt outcomes first limit last) (hother : StopsAt outcomes first limit other) :
    last = other :=
  Nat.le_antisymm (Nat.not_lt.1 (hother.not_lt h)) (Nat.not_lt.1 (h.not_lt hother))

/-- Where a sequence stops depends only on which of its outcomes are failures for contention. -/
theorem congr {β : Type} {others : Nat → Except Fault β}
    (hsame : ∀ i, FailsForContention (outcomes i) ↔ FailsForContention (others i))
    (h : StopsAt outcomes first limit last) : StopsAt others first limit last where
  first_le := h.first_le
  lt_limit := h.lt_limit
  earlier i hfirst hlast := (hsame i).1 (h.earlier i hfirst hlast)
  spent hfails := h.spent ((hsame last).2 hfails)

end StopsAt

theorem retryFrom_stopsAt (attempt : Nat → Except Fault α) (i more : Nat) :
    ∃ last, StopsAt attempt i (i + more + 1) last ∧ retryFrom attempt i more = (attempt last, last + 1) := by
  induction more generalizing i with
  | zero => exact ⟨i, .here (by omega) fun _ => rfl, rfl⟩
  | succ more ih =>
    rw [retryFrom]
    cases hattempt : attempt i with
    | ok a =>
      refine ⟨i, .here_of_ok (by omega) hattempt, ?_⟩
      rw [hattempt]
    | error fault =>
      by_cases htransient : fault.isTransient = true
      · obtain ⟨last, hstops, heq⟩ := ih (i + 1)
        have hlimit : i + 1 + more + 1 = i + (more + 1) + 1 := by omega
        rw [hlimit] at hstops
        refine ⟨last, hstops.next ⟨fault, hattempt, htransient⟩, ?_⟩
        show (if fault.isTransient then retryFrom attempt (i + 1) more else _) = _
        rw [if_pos htransient, heq]
      · refine ⟨i, .here_of_error (by omega) hattempt htransient, ?_⟩
        show (if fault.isTransient then retryFrom attempt (i + 1) more else _) = _
        rw [if_neg htransient, hattempt]

/-- `retry` ends with the attempt that a budget, of which zero counts as one, lets be the last. -/
theorem retry_stopsAt (budget : Nat) (attempt : Nat → Except Fault α) :
    ∃ last, StopsAt attempt 0 (max budget 1) last ∧ retry budget attempt = (attempt last, last + 1) := by
  obtain ⟨last, hstops, heq⟩ := retryFrom_stopsAt attempt 0 (budget - 1)
  have hlimit : 0 + (budget - 1) + 1 = max budget 1 := by omega
  rw [hlimit] at hstops
  exact ⟨last, hstops, heq⟩

namespace Attempt

/-! ## A series of attempts -/

/-- What a series of attempts comes to. -/
structure Series (α : Type) where
  /-- What is answered. -/
  outcome : Except Fault α
  /-- How often the work was run. -/
  runs : Nat
  /-- What is stored afterwards. -/
  database : Database

/-- Attempts from number `tries` on, each on what the one before it left, until one does not fail for
contention or `limit` have been made. -/
def seriesFrom (limit : Nat) (attempts : Nat → Attempt α) (tries : Nat) (db : Database) : Series α :=
  let (outcome, db) := (attempts tries).run db
  match outcome with
  | .ok a => ⟨.ok a, tries + 1, db⟩
  | .error fault =>
    if fault.isTransient ∧ tries + 1 < limit then seriesFrom limit attempts (tries + 1) db
    else ⟨.error fault, tries + 1, db⟩
termination_by limit - tries

/-- The attempts of a budget, of which zero counts as one. -/
def series (budget : Nat) (attempts : Nat → Attempt α) (db : Database) : Series α :=
  seriesFrom (max budget 1) attempts 0 db

variable {limit tries : Nat} {attempts : Nat → Attempt α} {db : Database}

/-- One turn of the loop: a failure for contention within the limit leaves the state, and with it
everything that the attempts still to come will do. -/
theorem seriesFrom_of_error {fault : Fault} (h : (attempts tries).outcome db = .error fault) :
    seriesFrom limit attempts tries db =
      if fault.isTransient ∧ tries + 1 < limit then seriesFrom limit attempts (tries + 1) db
      else ⟨.error fault, tries + 1, db⟩ := by
  rw [seriesFrom, run_eq, leaves_of_error h, h]

theorem seriesFrom_of_ok {a : α} (h : (attempts tries).outcome db = .ok a) :
    seriesFrom limit attempts tries db = ⟨.ok a, tries + 1, (attempts tries).leaves db⟩ := by
  rw [seriesFrom, run_eq, h]

theorem seriesFrom_stopsAt (hlt : tries < limit) :
    ∃ last, StopsAt (fun i => (attempts i).outcome db) tries limit last ∧
      seriesFrom limit attempts tries db =
        ⟨(attempts last).outcome db, last + 1, (attempts last).leaves db⟩ := by
  -- on the attempts that the limit still allows after this one
  induction hmore : limit - (tries + 1) generalizing tries with
  | zero =>
    refine ⟨tries, .here hlt fun _ => by omega, ?_⟩
    cases houtcome : (attempts tries).outcome db with
    | ok a => rw [seriesFrom_of_ok houtcome]
    | error fault =>
      rw [seriesFrom_of_error houtcome, if_neg (by omega), leaves_of_error houtcome]
  | succ more ih =>
    cases houtcome : (attempts tries).outcome db with
    | ok a =>
      refine ⟨tries, .here_of_ok hlt houtcome, ?_⟩
      rw [seriesFrom_of_ok houtcome, houtcome]
    | error fault =>
      rw [seriesFrom_of_error houtcome]
      by_cases htransient : fault.isTransient = true
      · have hlater : tries + 1 < limit := by omega
        obtain ⟨last, hstops, heq⟩ := ih hlater (by omega)
        refine ⟨last, hstops.next ⟨fault, houtcome, htransient⟩, ?_⟩
        rw [if_pos ⟨htransient, hlater⟩, heq]
      · refine ⟨tries, .here_of_error hlt houtcome htransient, ?_⟩
        rw [if_neg fun hagain => htransient hagain.1, houtcome, leaves_of_error houtcome]

/-- A series answers and leaves what its last attempt would have done alone. -/
theorem series_stopsAt (budget : Nat) (attempts : Nat → Attempt α) (db : Database) :
    ∃ last, StopsAt (fun i => (attempts i).outcome db) 0 (max budget 1) last ∧
      series budget attempts db = ⟨(attempts last).outcome db, last + 1, (attempts last).leaves db⟩ :=
  seriesFrom_stopsAt (by omega)

end Attempt

/-! ## Transactions as attempts -/

/-- An attempt at a transaction under some contention. `unfinished` is what a fault leaves half done. The
commit is not refused: what others hold stops the first change already. -/
def Transaction.attempt (work : Transaction α) (contention : Contention)
    (unfinished : Database → Database) : Attempt α where
  work db :=
    match work contention db with
    | .ok (a, db') => (.ok a, db')
    | .error fault => (.error fault, unfinished db)
  refusal := none

section

variable {work : Transaction α} {contention : Contention} {unfinished : Database → Database}
  {db db' : Database}

theorem Transaction.outcome_attempt_of_ok {a : α} (h : work contention db = .ok (a, db')) :
    (work.attempt contention unfinished).outcome db = .ok a := by
  simp only [Attempt.outcome, attempt, h]

theorem Transaction.outcome_attempt_of_error {fault : Fault} (h : work contention db = .error fault) :
    (work.attempt contention unfinished).outcome db = .error fault := by
  simp only [Attempt.outcome, attempt, h]

theorem Transaction.effect_attempt_of_ok {a : α} (h : work contention db = .ok (a, db')) :
    (work.attempt contention unfinished).effect db = db' := by
  simp only [Attempt.effect, attempt, h]

theorem Transaction.failsForContention_attempt :
    FailsForContention ((work.attempt contention unfinished).outcome db) ↔
      FailsForContention (work contention db) := by
  cases hwork : work contention db with
  | ok result =>
    obtain ⟨a, db'⟩ := result
    rw [outcome_attempt_of_ok hwork]
    exact iff_of_false (not_failsForContention_of_ok rfl) (not_failsForContention_of_ok rfl)
  | error fault =>
    rw [outcome_attempt_of_error hwork, failsForContention_iff_of_error rfl,
      failsForContention_iff_of_error rfl]

end

/-- Writing is a series of attempts on one connection, whatever a fault leaves half done. -/
theorem Database.write_eq_series (budget : Nat) (contention : Nat → Contention) (work : Transaction α)
    (unfinished : Nat → Database → Database) (db : Database) :
    let done := Attempt.series budget (fun i => work.attempt (contention i) (unfinished i)) db
    write budget contention work db = (done.outcome, done.database) := by
  intro done
  obtain ⟨last, hstops, hdone⟩ :=
    Attempt.series_stopsAt budget (fun i => work.attempt (contention i) (unfinished i)) db
  obtain ⟨other, hother, hretry⟩ := retry_stopsAt budget fun i => work (contention i) db
  have hsame : last = other :=
    (hstops.congr fun i => Transaction.failsForContention_attempt).unique hother
  subst hsame
  rw [write, hretry, show done = _ from hdone]
  cases hwork : work (contention last) db with
  | ok result =>
    obtain ⟨a, db'⟩ := result
    have houtcome : (work.attempt (contention last) (unfinished last)).outcome db = .ok a :=
      Transaction.outcome_attempt_of_ok hwork
    rw [Attempt.leaves_of_ok houtcome, houtcome, Transaction.effect_attempt_of_ok hwork]
  | error fault =>
    have houtcome : (work.attempt (contention last) (unfinished last)).outcome db = .error fault :=
      Transaction.outcome_attempt_of_error hwork
    rw [Attempt.leaves_of_error houtcome, houtcome]

namespace Attempt

/-! ## Every series -/

/-- **A series is its last attempt.** Whatever a budget and whatever becomes of the attempts, the work is
run once at least and no more often than the budget, of which zero counts as one, allows; it is run again
after failures for contention and after nothing else, and no more after an outcome of another kind. What
that last attempt comes to is the answer. It leaves its effect on the original state if it succeeded, and
that state if it failed; what earlier attempts had done, or a refused commit would have stored, is gone.
The writes of a database are such series, whatever their faults leave half done. -/
theorem series_leaves_last_attempt (budget : Nat) (attempts : Nat → Attempt α) (db : Database) :
    let done := series budget attempts db
    1 ≤ done.runs ∧ done.runs ≤ max budget 1 ∧
      (∃ last, done.runs = last + 1 ∧
        (∀ i < last, FailsForContention ((attempts i).outcome db)) ∧
        (FailsForContention ((attempts last).outcome db) → done.runs = max budget 1) ∧
        done.outcome = (attempts last).outcome db ∧
        (∀ a, done.outcome = .ok a → done.database = (attempts last).effect db)) ∧
      (∀ fault, done.outcome = .error fault → done.database = db) ∧
      ∀ (contention : Nat → Contention) (work : Transaction α) (unfinished : Nat → Database → Database),
        (∀ i, attempts i = work.attempt (contention i) (unfinished i)) →
          Database.write budget contention work db = (done.outcome, done.database) := by
  intro done
  obtain ⟨last, hstops, heq⟩ := series_stopsAt budget attempts db
  have hdone : done = ⟨(attempts last).outcome db, last + 1, (attempts last).leaves db⟩ := heq
  have hbound : last < max budget 1 := hstops.lt_limit
  have hwrite : ∀ (contention : Nat → Contention) (work : Transaction α)
      (unfinished : Nat → Database → Database),
      (∀ i, attempts i = work.attempt (contention i) (unfinished i)) →
        Database.write budget contention work db = (done.outcome, done.database) := by
    intro contention work unfinished hattempts
    have hall : attempts = fun i => work.attempt (contention i) (unfinished i) := funext hattempts
    show _ = ((series budget attempts db).outcome, (series budget attempts db).database)
    rw [hall]
    exact Database.write_eq_series budget contention work unfinished db
  refine ⟨?_, ?_, ⟨last, ?_, ?_, ?_, ?_, ?_⟩, ?_, hwrite⟩
  · rw [hdone]
    exact Nat.succ_pos last
  · rw [hdone]
    exact hbound
  · rw [hdone]
  · intro i hi
    exact hstops.earlier i (Nat.zero_le i) hi
  · intro hfails
    rw [hdone]
    exact hstops.spent hfails
  · rw [hdone]
  · intro a hok
    rw [hdone] at hok ⊢
    exact leaves_of_ok hok
  · intro fault herror
    rw [hdone] at herror ⊢
    exact leaves_of_error herror

/-- Three attempts at a new unit: the first gives up with a number already taken, the second may not be
committed, the third meets nothing. -/
def contendedInserts : Nat → Attempt Int
  | 0 => ⟨fun db => (.error (.write .locked), { db with lastUnit := db.lastUnit + 1 }), none⟩
  | 1 => { insertion with refusal := some .locked }
  | _ => insertion
where
  insertion : Attempt Int :=
    (Transaction.perform (Database.insertUnit 1 "first" none 30 "")).attempt .none id

/-- A budget of five lets the third attempt give the unit the number 1; a budget of two ends with the
refusal, and nothing is stored. -/
theorem series_contendedInserts :
    let done := series 5 contendedInserts .empty
    let refused := series 2 contendedInserts .empty
    (done.runs = 3 ∧ done.outcome = .ok 1 ∧ done.database.units.map (·.unit) = [⟨1, 1⟩] ∧
      done.database.lastUnit = 1) ∧
    refused.runs = 2 ∧ refused.outcome = .error (.write .locked) ∧ refused.database = .empty := by
  intro done refused
  have hfirst : FailsForContention ((contendedInserts 0).outcome .empty) := ⟨_, rfl, rfl⟩
  have hsecond : FailsForContention ((contendedInserts 1).outcome .empty) := ⟨_, rfl, rfl⟩
  have hthird : (contendedInserts 2).outcome .empty = .ok 1 := rfl
  have hstop : ¬FailsForContention ((contendedInserts 2).outcome .empty) :=
    not_failsForContention_of_ok hthird
  constructor
  · obtain ⟨-, -, ⟨last, hruns, hearlier, hspent, houtcome, heffect⟩, -, -⟩ :=
      series_leaves_last_attempt 5 contendedInserts .empty
    have hlast : last = 2 := by
      rcases Nat.lt_trichotomy last 2 with hlt | heq | hgt
      · have hcase : last = 0 ∨ last = 1 := by omega
        rcases hcase with rfl | rfl
        · have hfive : 0 + 1 = max 5 1 := hruns.symm.trans (hspent hfirst)
          omega
        · have hfive : 1 + 1 = max 5 1 := hruns.symm.trans (hspent hsecond)
          omega
      · exact heq
      · exact absurd (hearlier 2 hgt) hstop
    subst hlast
    have hok : done.outcome = .ok 1 := houtcome.trans hthird
    refine ⟨hruns, hok, ?_, ?_⟩
    · rw [heffect 1 hok]
      rfl
    · rw [heffect 1 hok]
      rfl
  · obtain ⟨-, hbound, ⟨last, hruns, -, hspent, houtcome, -⟩, hdatabase, -⟩ :=
      series_leaves_last_attempt 2 contendedInserts .empty
    have hlast : last = 1 := by
      have hcase : last = 0 ∨ last = 1 := by omega
      rcases hcase with rfl | rfl
      · have htwo : 0 + 1 = max 2 1 := hruns.symm.trans (hspent hfirst)
        omega
      · rfl
    subst hlast
    exact ⟨hruns, houtcome, hdatabase _ houtcome⟩

end Attempt

end MetadataStore
