import MetadataStore.Session.Basic

/-!
# `Session.Operation` — what can be asked of a session

The operations of a repository and of the units held of it, as data, with their answers. Performing an
operation gives an answer and the session after it, also when the answer is a fault.

## Contents
- `Operation`, `Answer`.
- `Session.perform`, `Session.run`.
-/

namespace MetadataStore

/-- An operation on a session; `name`, `other` and `source` are names of held units unless they say
otherwise. -/
inductive Operation where
  /-- Defines an attribute. -/
  | define (attributeName : String) (kind : Kind) (scalar : Bool)
  /-- The definition of an attribute name. -/
  | info (attributeName : String)
  /-- The definition of an attribute number. -/
  | infoById (id : Int)
  /-- All definitions. -/
  | infos
  /-- Holds a new unit. -/
  | create (name : String) (tenant : Int) (unitName : Option String)
  /-- Holds a stored unit, if it is there. -/
  | get (name : String) (unit : UnitRef)
  /-- Holds a copy of a held unit. -/
  | clone (name other : String)
  /-- Looks at a held unit. -/
  | look (name : String)
  | «exists» (unit : UnitRef)
  | rename (name : String) (unitName : Option String)
  | store (name : String)
  /-- Whether two held units have one correlation id. -/
  | sameCorrelation (name other : String)
  | currentStatus (name : String)
  | request (name : String) (status : Status)
  | activate (name : String)
  | inactivate (name : String)
  | delete (name : String)
  | dispose (tenant : Int32)
  | fetch (name : String)
  | attributeNames (name : String)
  | attributes (name : String)
  | findAttribute (name attributeName : String)
  | attributeOrCreate (name attributeName : String)
  /-- Changes an attribute, attaching it first if need be. -/
  | editAttribute (name attributeName : String) (step : AttributeStep)
  /-- Attaches a copy of an attribute of another held unit. -/
  | addAttribute (name source attributeName : String)
  | removeAttribute (name attributeName : String)
  /-- Writes one attribute alone. -/
  | storeAttribute (name attributeName : String)
  /-- Writes the value of one attribute under a number. -/
  | storeValue (name attributeName : String) (valueId : Int)
  | lock (name : String) (kind : LockKind) (purpose : String)
  /-- Locks a unit by its identity. -/
  | lockUnit (unit : UnitRef) (kind : LockKind) (purpose : String)
  | unlock (name : String)
  | isLocked (name : String)
  | locks (name : String)
  | addRelation (name : String) (kind : LinkKind) (other : String)
  | removeRelation (name : String) (kind : LinkKind) (other : String)
  | relations (name : String) (kind : LinkKind)
  | relatedFrom (name : String) (kind : LinkKind)
  | addAssociation (name : String) (kind : LinkKind) (reference : String)
  | removeAssociation (name : String) (kind : LinkKind) (reference : String)
  | associations (name : String) (kind : LinkKind)
  | associatedUnits (kind : LinkKind) (reference : String)
  | search (search : Search)
  /-- How much the cache holds and may hold. -/
  | cacheSize
  | cacheClear
  | cacheRemove (target : Target)
  | cacheStore (name : String)
  /-- What the cache knows of a unit, which counts as no use. -/
  | cacheEntry (target : Target)
  /-- The cached copy under a key, which counts as use. -/
  | cacheLookup (key : String)
  | cacheSweep

/-- What an operation answers. -/
inductive Answer where
  | fault (fault : Fault)
  /-- A name under which nothing is held. -/
  | notHeld (name : String)
  | done
  | info (info : Option AttributeInfo)
  | infos (infos : List AttributeInfo)
  | unit (h : Option Handle)
  | units (units : List Handle)
  /-- The number of hits, and the units hit. -/
  | hits (count : Nat) (units : List Handle)
  | attribute (a : Option Attribute)
  | attributes (attributes : List Attribute)
  | texts (texts : List String)
  | status (status : Status)
  | flag (flag : Bool)
  | count (count : Nat)
  /-- A number given to something new. -/
  | number (number : Int)
  | locks (locks : List Lock)
  | cacheSize (size capacity : Nat)
  | cacheEntry (entry : Option CacheEntry)
  /-- The number of copies dropped, and of those left. -/
  | swept (dropped size : Nat)

namespace Session

/-- An answer made of the result of an action, with the session after it. -/
def answered {α : Type} (make : α → Answer) : Except Fault α × Session → Answer × Session
  | (.ok a, s) => (make a, s)
  | (.error fault, s) => (.fault fault, s)

/-- The answer of a step on the unit held under a name. -/
def withHandle (s : Session) (name : String) (step : Handle → Answer × Session) : Answer × Session :=
  match s.handle? name with
  | some h => step h
  | none => (.notHeld name, s)

/-- The answer of an action on the repository. -/
def consulting {α : Type} (s : Session) (action : Action Repository α) (make : α → Answer) :
    Answer × Session :=
  answered make (s.consult action)

/-- The answer of an action on the repository that looks at a held unit. -/
def asking {α : Type} (s : Session) (name : String) (action : Handle → Action Repository α)
    (make : α → Answer) : Answer × Session :=
  s.withHandle name fun h => s.consulting (action h) make

/-- The answer of an action on a held unit. -/
def working {α : Type} (s : Session) (name : String) (action : Handle.Work α) (make : α → Answer) :
    Answer × Session :=
  s.withHandle name fun h => answered make (s.work name h action)

/-- The answer of a change of the cache, made of the cache after it. -/
def caching (s : Session) (f : Cache → Cache) (make : Cache → Answer) : Answer × Session :=
  let cache := f s.repository.cache
  (make cache, { s with repository := { s.repository with cache } })

/-- Performs an operation. -/
def perform (s : Session) : Operation → Answer × Session
  | .define name kind scalar => s.consulting (Repository.define name kind scalar) (.info ∘ some)
  | .info name => s.consulting (Repository.infoByName name) .info
  | .infoById id => s.consulting (Repository.infoById id) .info
  | .infos => s.consulting Repository.infos .infos
  | .create name tenant unitName =>
    match s.consult (Repository.create tenant unitName) with
    | (.ok h, s) => (.unit (some h), s.hold name h)
    | (.error fault, s) => (.fault fault, s)
  | .get name unit =>
    match s.consult (Repository.unit unit) with
    | (.ok (some h), s) => (.unit (some h), s.hold name h)
    | (.ok none, s) => (.unit none, s)
    | (.error fault, s) => (.fault fault, s)
  | .clone name other => s.withHandle other fun h => (.unit (some h), s.hold name h)
  | .look name => s.withHandle name fun h => (.unit (some h), s)
  | .exists unit => s.consulting (Repository.exists unit) .flag
  | .rename name unitName =>
    s.withHandle name fun h => (.unit (some (h.rename unitName)), s.hold name (h.rename unitName))
  | .store name =>
    s.working name (do Handle.store; Handle.held) fun h => .unit (some h)
  | .sameCorrelation name other =>
    s.withHandle name fun h => s.withHandle other fun h' => (.flag (h.correlation == h'.correlation), s)
  | .currentStatus name => s.asking name Handle.currentStatus .status
  | .request name status => s.working name (Handle.request status) .status
  | .activate name => s.working name Handle.activate .status
  | .inactivate name => s.working name Handle.inactivate .status
  | .delete name => s.working name Handle.delete .status
  | .dispose tenant => s.consulting (Repository.dispose tenant) .count
  | .fetch name => s.working name Handle.fetch fun _ => .done
  | .attributeNames name => s.working name Handle.attributeNames .texts
  | .attributes name => s.working name Handle.attributeList .attributes
  | .findAttribute name attributeName => s.working name (Handle.attribute? attributeName) .attribute
  | .attributeOrCreate name attributeName =>
    s.working name (Handle.attributeOrCreate attributeName) (.attribute ∘ some)
  | .editAttribute name attributeName step =>
    s.working name (Handle.changeAttribute attributeName (·.take step)) (.attribute ∘ some)
  | .addAttribute name source attributeName =>
    s.withHandle source fun sourceHandle =>
      match s.ask sourceHandle (Handle.attribute? attributeName) with
      | (.ok (some a), s) => s.working name (Handle.addAttribute a) (.attribute ∘ some)
      | (.ok none, s) => (.attribute none, s)
      | (.error fault, s) => (.fault fault, s)
  | .removeAttribute name attributeName =>
    s.working name (Handle.removeAttribute attributeName) .attribute
  | .storeAttribute name attributeName =>
    s.working name (Handle.storeAttribute attributeName) (.attribute ∘ some)
  | .storeValue name attributeName valueId =>
    s.working name (Handle.storeValue attributeName valueId) (.attribute ∘ some)
  | .lock name kind purpose => s.asking name (fun h => h.lock kind purpose) .flag
  | .lockUnit unit kind purpose => s.consulting (Repository.lock unit kind purpose) .flag
  | .unlock name => s.asking name Handle.unlock fun _ => .done
  | .isLocked name => s.asking name Handle.isLocked .flag
  | .locks name => s.asking name Handle.locks .locks
  | .addRelation name kind other =>
    s.withHandle other fun h' => s.asking name (fun h => h.addRelation kind h') fun _ => .done
  | .removeRelation name kind other =>
    s.withHandle other fun h' => s.asking name (fun h => h.removeRelation kind h') fun _ => .done
  | .relations name kind => s.asking name (fun h => h.relations kind) .units
  | .relatedFrom name kind => s.asking name (fun h => h.relatedFrom kind) .units
  | .addAssociation name kind reference =>
    s.asking name (fun h => h.addAssociation kind reference) fun _ => .done
  | .removeAssociation name kind reference =>
    s.asking name (fun h => h.removeAssociation kind reference) fun _ => .done
  | .associations name kind => s.asking name (fun h => h.associations kind) .texts
  | .associatedUnits kind reference =>
    s.consulting (do Repository.resolve (← Repository.associatedWith kind reference)) .units
  | .search search => s.consulting (Repository.search search) fun (count, units) => .hits count units
  | .cacheSize => s.caching id fun cache => .cacheSize cache.size cache.capacity
  | .cacheClear => s.caching Cache.clear fun _ => .done
  | .cacheRemove target =>
    match s.identity? target with
    | some unit => s.caching (·.remove unit) fun cache => .count cache.size
    | none => s.caching id fun cache => .count cache.size
  | .cacheStore name =>
    s.withHandle name fun h => s.caching (·.store h) fun cache => .count cache.size
  | .cacheEntry target =>
    (.cacheEntry ((s.identity? target).bind fun unit => s.repository.cache.find? unit.text), s)
  | .cacheLookup key => s.consulting (Repository.cached key) .unit
  | .cacheSweep =>
    let (dropped, cache) := s.repository.cache.sweep
    (.swept dropped cache.size, { s with repository := { s.repository with cache } })

/-- The session after operations performed in turn. -/
def run (s : Session) (operations : List Operation) : Session :=
  operations.foldl (fun s operation => (s.perform operation).2) s

@[simp] theorem run_nil (s : Session) : s.run [] = s := rfl

@[simp] theorem run_cons (s : Session) (operation : Operation) (operations : List Operation) :
    s.run (operation :: operations) = (s.perform operation).2.run operations := rfl

end Session

end MetadataStore
