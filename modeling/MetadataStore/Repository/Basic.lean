import MetadataStore.Action
import MetadataStore.Cache
import MetadataStore.Catalog
import MetadataStore.Database.Transaction
import MetadataStore.Query.Meaning
import MetadataStore.Settings.Basic

/-!
# `Repository.Basic` — storage, catalogue and cache together

A repository looks at its database and writes to it with as many attempts as its settings allow, asks
its catalogue first for definitions and its cache first for units.

## Contents
- `Repository`, `Repository.open`, `connect`, `reopen`, `read`, `write`.
- Definitions: `infoByName`, `infoById`, `infos`, `define`.
- Units: `create`, `unit`, `resolve`, `exists`.
- Searches: `matching`, `search`.
-/

namespace MetadataStore

/-- A repository. -/
structure Repository where
  settings : Settings
  database : Database
  /-- What other connections hold. -/
  contention : Contention
  catalog : Catalog
  cache : Cache
  /-- The present. -/
  now : DateTime
  /-- The number of correlation ids given out. -/
  serial : Nat

namespace Repository

/-- A repository on a database. -/
def «open» (settings : Settings) (database : Database) (now : DateTime) (serial : Nat) : Repository :=
  ⟨settings, database, .none, .empty, .empty settings.cacheSize, now, serial⟩

/-- The repository of some settings, `found` being the database at their path. A private one starts
empty. -/
def connect (settings : Settings) (found : Option Database) (now : DateTime) (serial : Nat) :
    Except Fault Repository :=
  match settings.path, found with
  | none, _ => .ok («open» settings .empty now serial)
  | some _, some database => .ok («open» settings database now serial)
  | some path, none => .error (.cannotOpen path)

/-- Opens the repository again with the same settings and engine, on what is left of its database. Others keep
what they hold; while that is everything, a database at a path cannot be opened and the repository
stays as it is. -/
def reopen : Action Repository Unit := fun r =>
  match r.settings.path with
  | none =>
    (.ok (), { «open» r.settings (.blank r.database.engine) r.now r.serial with contention := r.contention })
  | some _ =>
    if r.contention.allowsReading then
      (.ok (), { «open» r.settings r.database r.now r.serial with contention := r.contention })
    else (.error (.write .locked), r)

/-- Looks at the database. -/
def read {α : Type} (f : Database → α) : Action Repository α :=
  fun r => (Database.read r.settings.maxRetries (fun _ => r.contention) f r.database, r)

/-- Runs a transaction on the database. -/
def write {α : Type} (work : Transaction α) : Action Repository α :=
  fun r =>
    let (outcome, database) :=
      Database.write r.settings.maxRetries (fun _ => r.contention) work r.database
    (outcome, { r with database })

/-! ## Definitions -/

/-- Sees all stored definitions. -/
def refreshCatalog : Action Repository Unit := do
  let rows ← read (·.attributes)
  fun r =>
    let (outcome, catalog) := r.catalog.absorb rows
    (outcome, { r with catalog })

/-- What a look at the catalogue finds, the stored definitions being seen first if it finds nothing. -/
def findInfo (find : Catalog → Option AttributeInfo) : Action Repository (Option AttributeInfo) := do
  let r ← Action.get
  match find r.catalog with
  | some info => pure (some info)
  | none => do
    -- someone else may have defined it since
    refreshCatalog
    let r ← Action.get
    pure (find r.catalog)

/-- The definition of a name. -/
def infoByName (name : String) : Action Repository (Option AttributeInfo) :=
  findInfo (·.byName? name)

/-- The definition of a number. -/
def infoById (id : Int) : Action Repository (Option AttributeInfo) :=
  findInfo (·.byId? id)

/-- All definitions, those stored at the first asking and those seen since. -/
def infos : Action Repository (List AttributeInfo) := do
  let r ← Action.get
  if !r.catalog.loaded then refreshCatalog
  let r ← Action.get
  pure r.catalog.all

/-- Defines an attribute under the trimmed name, or gives the definition that is there already, which
must be of the same kind. -/
def define (name : String) (kind : Kind) (scalar : Bool) : Action Repository AttributeInfo := do
  let name := Text.trim name
  if name.isEmpty then Action.fail .blankAttributeName
  else
    match ← infoByName name with
    | some info =>
      if info.kind = kind then pure info else Action.fail (.alreadyDefined info.name info.kind)
    | none => do
      let id ← write (Transaction.perform (Database.insertAttribute name kind.code scalar))
      let info : AttributeInfo := ⟨id, name, kind, scalar⟩
      Action.modify fun r => { r with catalog := r.catalog.keep info }
      pure info

/-! ## Units -/

/-- The sixteen digits of hexadecimal. -/
def hexDigit (n : Nat) : Char :=
  if n < 10 then Char.ofNat ('0'.toNat + n) else Char.ofNat ('a'.toNat + (n - 10))

/-- The lowest `width` hexadecimal digits of a number. -/
def hexDigits (width n : Nat) : List Char :=
  match width with
  | 0 => []
  | width + 1 => hexDigits width (n / 16) ++ [hexDigit (n % 16)]

/-- The correlation id of a serial number for a tenant: groups of 8, 4, 4, 4 and 12 digits. The digits are a
stand-in. A store takes them from a blake3 hash of the tenant, the time, the process and a counter; here they
spell out the tenant and the serial number, so that no two of them clash unless the serial numbers do. No result
is about the digits. -/
def correlationId (tenant : Int) (serial : Nat) : String :=
  let rest := hexDigits 24 serial
  String.ofList (hexDigits 8 (tenant % UInt32.size).toNat ++ '-' :: rest.take 4 ++ '-' :: (rest.drop 4).take 4 ++
    '-' :: (rest.drop 8).take 4 ++ '-' :: rest.drop 12)

/-- A new unit, not yet stored. -/
def create (tenant : Int) (name : Option String) : Action Repository Handle :=
  fun r =>
    (.ok (Handle.create tenant name (correlationId tenant r.serial)), { r with serial := r.serial + 1 })

/-- The cached copy of a unit, if there is one. -/
def cached (key : String) : Action Repository (Option Handle) :=
  fun r =>
    let (copy, cache) := r.cache.lookup key
    (.ok copy, { r with cache })

/-- Keeps a copy of a unit in the cache. -/
def keep (h : Handle) : Action Repository Unit :=
  Action.modify fun r => { r with cache := r.cache.store h }

/-- A unit as the database has it, its attributes not loaded. -/
def load (unit : UnitRef) : Action Repository (Option Handle) := do
  match ← read (·.unit? unit) with
  | none => pure none
  | some row => do
    let h ← Action.ofResult (Handle.ofRow row)
    pure (some h)

/-- A unit from the cache, or else from the database into the cache. -/
def unit (unit : UnitRef) : Action Repository (Option Handle) := do
  match ← cached unit.text with
  | some h => pure (some h)
  | none => do
    match ← load unit with
    | none => pure none
    | some h => do
      keep h
      pure (some h)

/-- The units of a list that exist. -/
def resolve (units : List UnitRef) : Action Repository (List Handle) := do
  let found ← Action.collect unit units
  pure (found.filterMap id)

/-- Whether a unit is stored. -/
def «exists» (unit : UnitRef) : Action Repository Bool :=
  read (·.hasUnit unit)

/-! ## Searches -/

/-- The identities that a search selects. -/
def matching (search : Search) : Action Repository (List UnitRef) := do
  let statement ← Action.ofResult (Query.Statement.ofSearch .sqlite search)
  -- the text is read before anything of the database is
  Action.ofResult (Query.prepare (Query.Piece.text (statement.pieces .sqlite)))
  read fun db => statement.run db

/-- The units that a search selects, and how many identities it selects. -/
def search (search : Search) : Action Repository (Nat × List Handle) := do
  let units ← matching search
  let found ← resolve units
  pure (units.length, found)

end Repository

end MetadataStore
