import MetadataStore.Session.Operation

/-!
# `Session.Intervention` — what others do to the database

Others work on the same database without catalogue or cache: they change rows, and they hold what a
transaction needs. Their changes run as transactions and fail as writes do.

## Contents
- `Intervention`, `Session.intervene`.
-/

namespace MetadataStore

/-- Something done to the database past the repository. -/
inductive Intervention where
  /-- Another status, by code, for a unit. -/
  | setStatus (target : Target) (code : Int)
  /-- Another creation time, as text, for a unit. -/
  | setCreated (target : Target) (created : String)
  | setName (target : Target) (name : Option String)
  | setCorrelation (target : Target) (correlation : String)
  | addDefinition (attributeName : String) (kindCode : Int) (scalar : Bool)
  /-- Another kind, by code, for an attribute. -/
  | setKind (id : Int) (kindCode : Int)
  | addLock (target : Target) (purpose : String) (kindCode : Int) (taken : String)
      (expire : Option String)
  /-- Another connection takes the right to write, or everything. -/
  | contend (contention : Contention)
  /-- The repository is opened again; what is held stays as it is. -/
  | reopen

namespace Session

/-- The answer of a change of the database. -/
def changing {α : Type} (s : Session) (change : Change α) (make : α → Answer) : Answer × Session :=
  s.consulting (Repository.write (Transaction.perform change)) make

/-- The answer of a change to a unit, which has to be stored. -/
def changingUnit {α : Type} (s : Session) (target : Target) (change : UnitRef → Change α)
    (make : α → Answer) : Answer × Session :=
  match s.identity? target with
  | some unit => s.changing (change unit) make
  | none => (.notHeld "", s)

/-- Lets others do something. -/
def intervene (s : Session) : Intervention → Answer × Session
  | .setStatus target code => s.changingUnit target (Database.setUnitStatus · code) .count
  | .setCreated target created => s.changingUnit target (Database.setUnitCreated · created) .count
  | .setName target name => s.changingUnit target (Database.renameUnit · name) .count
  | .setCorrelation target correlation =>
    s.changingUnit target (Database.setUnitCorrelation · correlation) .count
  | .addDefinition name kindCode scalar =>
    s.changing (Database.insertAttribute name kindCode scalar) .number
  | .setKind id kindCode => s.changing (Database.setAttributeKind id kindCode) .count
  | .addLock target purpose kindCode taken expire =>
    s.changingUnit target (fun unit => Database.insertLock ⟨unit, purpose, kindCode, taken, expire⟩)
      fun _ => .done
  | .contend contention => (.done, { s with repository := { s.repository with contention } })
  | .reopen => s.consulting Repository.reopen fun _ => .done

end Session

end MetadataStore
