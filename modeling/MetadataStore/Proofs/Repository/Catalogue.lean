import MetadataStore.Proofs.Repository.Standing
import MetadataStore.Proofs.Text.Lowercase

/-!
# `Proofs.Repository.Catalogue` — one definition for each name

Definitions stand in three places: in the table, under numbers in the catalogue that a repository keeps, and
there under lower-case names as well. The table tells names apart in the case of ASCII letters alone, and
lets in what differs otherwise. A name is defined only after it was looked for in vain, though, when all
that is stored had been seen; so no two stored names have one lower-case form. What a catalogue remembers
is stored as it remembers it, and what it has not seen it sees before it says that there is none.

## Contents
- `Database.definitions`, what the table says.
- `Repository.Informed`, which every move keeps: `Move.informed`; and definitions are only ever added:
  `Move.definitions_prefix`.
- `Informed.infoByName`, `infoById`, `infos`: what an informed repository answers.
- `Informed.define_cases`, and from it `define_known`, `define_new`, `define_ne_unique`: what comes of
  defining a name.
-/

namespace MetadataStore

/-! ## What is stored -/

/-- The row of a definition. -/
def AttributeInfo.row (info : AttributeInfo) : AttributeRow :=
  ⟨info.id, info.name, info.kind.code, info.scalar⟩

/-- The definition in a row, if its kind is known. -/
def AttributeRow.info? (row : AttributeRow) : Option AttributeInfo :=
  (Kind.ofCode? row.kindCode).map fun kind => ⟨row.id, row.name, kind, row.scalar⟩

@[simp] theorem AttributeInfo.info?_row (info : AttributeInfo) : info.row.info? = some info := by
  unfold AttributeRow.info? row
  rw [Kind.ofCode?_code]
  rfl

theorem AttributeRow.info?_eq_some {row : AttributeRow} {info : AttributeInfo} :
    row.info? = some info ↔ row = info.row := by
  constructor
  · intro h
    obtain ⟨kind, hkind, rfl⟩ := Option.map_eq_some_iff.1 h
    unfold AttributeInfo.row
    rw [Kind.ofCode?_eq_some hkind]
  · rintro rfl
    exact info.info?_row

namespace Database

variable {db db' : Database} {info : AttributeInfo}

/-- The stored definitions. -/
def definitions (db : Database) : List AttributeInfo :=
  db.attributes.filterMap AttributeRow.info?

theorem mem_definitions : info ∈ db.definitions ↔ info.row ∈ db.attributes := by
  unfold definitions
  rw [List.mem_filterMap]
  constructor
  · rintro ⟨row, hmem, hrow⟩
    rwa [← AttributeRow.info?_eq_some.1 hrow]
  · exact fun hmem => ⟨info.row, hmem, info.info?_row⟩

theorem map_row_filterMap {rows : List AttributeRow}
    (hkinds : ∀ row ∈ rows, ∃ kind : Kind, kind.code = row.kindCode) :
    (rows.filterMap AttributeRow.info?).map AttributeInfo.row = rows := by
  induction rows with
  | nil => rfl
  | cons row rows ih =>
    obtain ⟨kind, hkind⟩ := hkinds row List.mem_cons_self
    have hrow : row = AttributeInfo.row ⟨row.id, row.name, kind, row.scalar⟩ := by
      unfold AttributeInfo.row
      rw [hkind]
    have hrest := ih fun other hmem => hkinds other (List.mem_cons_of_mem row hmem)
    rw [List.filterMap_cons_some (AttributeRow.info?_eq_some.2 hrow), List.map_cons, hrest, ← hrow]

/-- **The table of definitions holds the definitions**, and nothing else. -/
theorem Defined.rows_definitions (h : db.Defined) :
    db.definitions.map AttributeInfo.row = db.attributes :=
  map_row_filterMap h.kindsKnown

theorem Defined.numbers_definitions (h : db.Defined) : (db.definitions.map (·.id)).Nodup := by
  have hdistinct := h.distinct
  rwa [← h.rows_definitions, List.map_map] at hdistinct

theorem Defined.names_definitions (h : db.Defined) :
    (db.definitions.map fun info => Text.lower info.name).Nodup := by
  have hdistinct := h.namesDistinct
  rwa [← h.rows_definitions, List.map_map] at hdistinct

/-- What a catalogue remembers as stored is what is stored. -/
theorem Defined.catalogued_iff (h : db.Defined) :
    (Attribute.ofInfo info).Catalogued db ↔ info ∈ db.definitions := by
  rw [mem_definitions]
  constructor
  · rintro ⟨row, hrow, hname, hkind, hscalar⟩
    obtain ⟨hmem, hid⟩ := attribute?_eq_some hrow
    have heq : row = info.row := by
      cases row
      exact AttributeRow.mk.injEq .. ▸ ⟨hid, hname, hkind, hscalar⟩
    exact heq ▸ hmem
  · exact fun hmem => ⟨_, h.attribute?_of_mem hmem, rfl, rfl, rfl⟩

/-- The definition of a name, in any case. -/
def definition? (db : Database) (name : String) : Option AttributeInfo :=
  db.definitions.find? fun info => Text.lower info.name == Text.lower name

theorem Defined.definition?_eq_some (h : db.Defined) {name : String} :
    db.definition? name = some info ↔
      info ∈ db.definitions ∧ Text.lower info.name = Text.lower name := by
  constructor
  · intro hfind
    exact ⟨List.mem_of_find?_eq_some hfind, by simpa using List.find?_some hfind⟩
  · rintro ⟨hmem, hname⟩
    unfold definition?
    rw [← hname]
    exact find?_of_nodup (fun info : AttributeInfo => Text.lower info.name) h.names_definitions hmem

theorem Defined.definition?_eq_none (h : db.Defined) {name : String} :
    db.definition? name = none ↔ ∀ row ∈ db.attributes, Text.lower row.name ≠ Text.lower name := by
  unfold definition?
  rw [List.find?_eq_none]
  constructor
  · intro hnone row hmem hname
    rw [← h.rows_definitions] at hmem
    obtain ⟨info, hinfo, rfl⟩ := List.mem_map.1 hmem
    exact hnone info hinfo (beq_iff_eq.2 hname)
  · intro hnone info hinfo hname
    exact hnone info.row (mem_definitions.1 hinfo) (beq_iff_eq.1 hname)

/-- The definitions are as they were. -/
def SameDefinitions (db db' : Database) : Prop :=
  db'.attributes = db.attributes ∧ db'.lastAttribute = db.lastAttribute

theorem SameDefinitions.refl (db : Database) : db.SameDefinitions db :=
  ⟨rfl, rfl⟩

theorem SameButLinks.sameDefinitions (h : db.SameButLinks db') : db.SameDefinitions db' := by
  rw [h]
  exact .refl db

theorem SameDefinitions.defined (h : db.SameDefinitions db') (hdefined : db.Defined) : db'.Defined := by
  obtain ⟨hattributes, hlast⟩ := h
  refine ⟨?_, ?_, ?_, ?_⟩
  · exact hattributes ▸ hdefined.distinct
  · rw [hattributes, hlast]
    exact hdefined.issued
  · exact hattributes ▸ hdefined.namesDistinct
  · exact hattributes ▸ hdefined.kindsKnown

/-- **The engine stands against no name that has a lower-case form of its own.** -/
theorem insertAttribute_of_unknown {name : String} {kind : Kind} {scalar : Bool}
    (hfree : ∀ row ∈ db.attributes, Text.lower row.name ≠ Text.lower name) :
    insertAttribute name kind.code scalar db = .ok (db.lastAttribute + 1,
      { db with
        attributes := db.attributes ++ [⟨db.lastAttribute + 1, name, kind.code, scalar⟩]
        lastAttribute := db.lastAttribute + 1 }) := by
  have hnone : (db.attributes.any fun row => Text.foldAsciiText row.name == Text.foldAsciiText name) =
      false := by
    rw [List.any_eq_false]
    intro row hmem hfold
    exact hfree row hmem (Text.lower_eq_of_foldAsciiText_eq (by simpa using hfold))
  unfold insertAttribute
  rw [hnone]
  rfl

end Database

/-! ## What is remembered -/

namespace Catalog

variable {catalog catalog' : Catalog} {db : Database}

theorem absorb_eq_ok (catalog : Catalog) {rows : List AttributeRow}
    (hkinds : ∀ row ∈ rows, ∃ kind : Kind, kind.code = row.kindCode) :
    ∃ seen, catalog.absorb rows = (.ok (), seen) := by
  induction rows generalizing catalog with
  | nil => exact ⟨_, rfl⟩
  | cons row rows ih =>
    obtain ⟨kind, hkind⟩ := hkinds row List.mem_cons_self
    rw [absorb, ← hkind, Kind.ofCode?_code]
    exact ih _ fun other hmem => hkinds other (List.mem_cons_of_mem row hmem)

theorem nodup_known_keep (h : (catalog.known.map (·.id)).Nodup) (info : AttributeInfo) :
    ((catalog.keep info).known.map (·.id)).Nodup := by
  refine nodup_map_append_single _ (h.sublist (List.filter_sublist.map _)) fun other hmem => ?_
  simpa using (List.mem_filter.1 hmem).2

theorem nodup_known_absorb (h : (catalog.known.map (·.id)).Nodup) (rows : List AttributeRow) :
    ((catalog.absorb rows).2.known.map (·.id)).Nodup := by
  induction rows generalizing catalog with
  | nil => exact h
  | cons row rows ih =>
    rw [absorb]
    cases Kind.ofCode? row.kindCode with
    | none => exact h
    | some kind => exact ih (nodup_known_keep h _)

/-- A definition that is remembered is found under its number. -/
theorem Covers.byId?_ne_none {row : AttributeRow} (h : catalog.Covers row) :
    catalog.byId? row.id ≠ none := by
  obtain ⟨-, info, hmem, hid⟩ := h
  intro hnone
  have := List.find?_eq_none.1 hnone info hmem
  simp [hid] at this

end Catalog

namespace Repository

variable {terms : Terms} {r r' : Repository} {α : Type}

/-- What holds of a catalogue and the definitions that are stored: all that is remembered is stored, once,
and once the catalogue says that it is complete it is. -/
structure Informed (r : Repository) : Prop where
  defined : r.database.Defined
  stored : r.catalog.Of r.database
  complete : r.catalog.loaded = true → ∀ row ∈ r.database.attributes, r.catalog.Covers row
  distinct : (r.catalog.known.map (·.id)).Nodup

/-- A repository that was just opened is informed, since it remembers nothing. -/
theorem informed_open (settings : Settings) {db : Database} (hdefined : db.Defined) (now : DateTime)
    (serial : Nat) : (Repository.open settings db now serial).Informed where
  defined := hdefined
  stored := .empty db
  complete := fun hloaded => by cases hloaded
  distinct := List.nodup_nil

theorem Informed.congr (h : r.Informed) (hdefinitions : r.database.SameDefinitions r'.database)
    (hcatalog : r'.catalog = r.catalog) : r'.Informed where
  defined := hdefinitions.defined h.defined
  stored := by
    rw [hcatalog]
    exact h.stored.extend (hdefinitions.1 ▸ List.prefix_rfl)
  complete := by
    rw [hcatalog, hdefinitions.1]
    exact h.complete
  distinct := hcatalog ▸ h.distinct

/-- **What a move can do to the definitions**: nothing, or it sees what is stored, or it adds one that was
looked for in vain. -/
theorem Move.definitions_cases (hmove : Move terms r r') (hnumbered : r.database.Numbered) :
    (r.database.SameDefinitions r'.database ∧ r'.catalog = r.catalog) ∨
      r' = r.withCatalog (r.catalog.absorb r.database.attributes).2 ∨
      ∃ name kind scalar id db', Database.insertAttribute name (Kind.code kind) scalar r.database =
          .ok (id, db') ∧
        (∃ before : Catalog, before.absorb r.database.attributes = (.ok (), r.catalog)) ∧
        r.catalog.byName? name = none ∧
        r' = { r with database := db', catalog := r.catalog.keep ⟨id, name, kind, scalar⟩ } := by
  cases hmove with
  | learn hseen =>
    subst hseen
    exact Or.inr (Or.inl rfl)
  | define hinsert hseen hnone => exact Or.inr (Or.inr ⟨_, _, _, _, _, hinsert, hseen, hnone, rfl⟩)
  | forget _ => exact Or.inl ⟨.refl _, rfl⟩
  | count _ => exact Or.inl ⟨.refl _, rfl⟩
  | load _ _ => exact Or.inl ⟨.refl _, rfl⟩
  | bring _ => exact Or.inl ⟨.refl _, rfl⟩
  | store _ _ hwrite _ =>
    obtain ⟨-, -, -, -, rfl⟩ := (Handle.write_eq_ok hnumbered.elementsIssued).1 hwrite
    exact Or.inl ⟨⟨Handle.attributes_writtenTo, Handle.lastAttribute_writtenTo⟩, rfl⟩
  | storeAttribute hstore =>
    rcases Attribute.store_cases hnumbered.elementsIssued hstore with ⟨-, rfl⟩ | ⟨-, -, -, -, rfl⟩
    · exact Or.inl ⟨.refl _, rfl⟩
    · exact Or.inl ⟨.refl _, rfl⟩
  | storeValue hstore =>
    obtain ⟨rows, rfl, -⟩ := Value.store_appends hstore
    exact Or.inl ⟨.refl _, rfl⟩
  | transit _ _ _ => exact Or.inl ⟨.refl _, rfl⟩
  | lock hlock => exact Or.inl ⟨(onlyLinks_takeLock _ _ _ _ _ _ _ _ hlock).sameDefinitions, rfl⟩
  | unlock hunlock =>
    cases hunlock
    exact Or.inl ⟨.refl _, rfl⟩
  | relate _ hrelate => exact Or.inl ⟨(onlyLinks_putRelation _ _ _ _ _ _ _ hrelate).sameDefinitions, rfl⟩
  | unrelate hunrelate =>
    cases hunrelate
    exact Or.inl ⟨.refl _, rfl⟩
  | associate _ hassociate =>
    exact Or.inl ⟨(onlyLinks_putAssociation _ _ _ _ _ _ _ hassociate).sameDefinitions, rfl⟩
  | dissociate hdissociate =>
    cases hdissociate
    exact Or.inl ⟨.refl _, rfl⟩
  | dispose _ => exact Or.inl ⟨.refl _, rfl⟩

/-- A catalogue that has just seen all that is stored covers it. -/
theorem Informed.covers (h : r.Informed) {before : Catalog}
    (hseen : before.absorb r.database.attributes = (.ok (), r.catalog)) :
    ∀ row ∈ r.database.attributes, r.catalog.Covers row :=
  fun _ hrow => Catalog.covers_absorb h.defined (fun _ hmem => hmem) hrow (Or.inl hrow) hseen

theorem Informed.seeing (h : r.Informed) :
    (r.withCatalog (r.catalog.absorb r.database.attributes).2).Informed := by
  obtain ⟨seen, habsorb⟩ := Catalog.absorb_eq_ok r.catalog h.defined.kindsKnown
  refine ⟨h.defined, h.stored.absorb h.defined fun _ hmem => hmem, fun _ row hrow => ?_,
    Catalog.nodup_known_absorb h.distinct _⟩
  show (r.catalog.absorb r.database.attributes).2.Covers row
  rw [habsorb]
  exact Catalog.covers_absorb h.defined (fun _ hmem => hmem) hrow (Or.inl hrow) habsorb

/-- A name that a catalogue does not know that has seen all is stored in no case. -/
theorem Informed.unknown (h : r.Informed) {before : Catalog} {name : String}
    (hseen : before.absorb r.database.attributes = (.ok (), r.catalog))
    (hnone : r.catalog.byName? name = none) :
    ∀ row ∈ r.database.attributes, Text.lower row.name ≠ Text.lower name :=
  fun row hrow hname =>
    (h.covers hseen row hrow).byName?_ne_none h.stored h.defined hrow hname hnone

/-- The database with one more definition, and the catalogue that remembers it. -/
theorem Informed.defining (h : r.Informed) {name : String} {kind : Kind} {scalar : Bool}
    (hcovers : ∀ row ∈ r.database.attributes, r.catalog.Covers row)
    (hfree : ∀ row ∈ r.database.attributes, Text.lower row.name ≠ Text.lower name) :
    Informed { r with
      database := { r.database with
        attributes := r.database.attributes ++
          [⟨r.database.lastAttribute + 1, name, kind.code, scalar⟩]
        lastAttribute := r.database.lastAttribute + 1 }
      catalog := r.catalog.keep ⟨r.database.lastAttribute + 1, name, kind, scalar⟩ } := by
  have hdefined := h.defined.insertAttribute ⟨r.database.lastAttribute + 1, name, kind.code, scalar⟩ rfl
    ⟨kind, rfl⟩ hfree
  refine ⟨hdefined, ?_, fun _ row hrow => ?_, Catalog.nodup_known_keep h.distinct _⟩
  · refine (h.stored.extend (List.prefix_append _ _)).keep ?_
    exact ⟨_, hdefined.attribute?_of_mem (List.mem_append_right _ List.mem_cons_self), rfl, rfl, rfl⟩
  · rcases List.mem_append.1 hrow with hold | hnew
    · -- the new number and the new name are those of no other
      have hissued := h.defined.issued row hold
      refine (hcovers row hold).keep ?_ (hfree row hold)
      show row.id ≠ r.database.lastAttribute + 1
      omega
    · rw [List.mem_singleton.1 hnew]
      exact Catalog.covers_keep r.catalog ⟨_, name, kind.code, scalar⟩ kind

/-- **Every move leaves a repository informed.** -/
theorem Move.informed (hmove : Move terms r r') (hnumbered : r.database.Numbered) (h : r.Informed) :
    r'.Informed := by
  rcases hmove.definitions_cases hnumbered with
    ⟨hsame, hcatalog⟩ | rfl | ⟨name, kind, scalar, id, db', hinsert, ⟨before, hseen⟩, hnone, rfl⟩
  · exact h.congr hsame hcatalog
  · exact h.seeing
  · have hfree := h.unknown hseen hnone
    rw [Database.insertAttribute_of_unknown hfree] at hinsert
    cases hinsert
    exact h.defining (h.covers hseen) hfree

/-- **Definitions are only ever added.** -/
theorem Move.definitions_prefix (hmove : Move terms r r') (hnumbered : r.database.Numbered) :
    r.database.definitions <+: r'.database.definitions := by
  rcases hmove.definitions_cases hnumbered with
    ⟨hsame, -⟩ | rfl | ⟨name, kind, scalar, id, db', hinsert, -, -, rfl⟩
  · have hkept : r'.database.definitions = r.database.definitions := by
      unfold Database.definitions
      rw [hsame.1]
    exact hkept ▸ List.prefix_rfl
  · exact List.prefix_rfl
  · unfold Database.insertAttribute at hinsert
    split at hinsert
    · cases hinsert
    · cases hinsert
      unfold Database.definitions
      rw [List.filterMap_append]
      exact List.prefix_append _ _

/-! ## What is answered -/

/-- An action has an outcome, unless others keep the database from being read, and it needs that. -/
def Yields (r : Repository) (action : Action Repository α) (outcome : Except Fault α) : Prop :=
  (action r).1 = outcome ∨
    (r.contention.allowsReading = false ∧ (action r).1 = .error (.read .locked))

theorem Yields.of_reading {action : Action Repository α} {outcome : Except Fault α}
    (h : r.Yields action outcome) (hread : r.contention.allowsReading = true) :
    (action r).1 = outcome := by
  refine h.resolve_right fun hunread => ?_
  rw [hread] at hunread
  cases hunread.1

/-- Seeing what is stored succeeds with a catalogue that covers it, unless it cannot be read. -/
theorem Informed.refreshCatalog_cases (h : r.Informed) :
    (∃ seen, Repository.refreshCatalog r = (.ok (), r.withCatalog seen) ∧
        (r.withCatalog seen).Informed ∧ ∀ row ∈ r.database.attributes, seen.Covers row) ∨
      (r.contention.allowsReading = false ∧
        Repository.refreshCatalog r = (.error (.read .locked), r)) := by
  rw [refreshCatalog_apply]
  cases r.contention.allowsReading with
  | true =>
    obtain ⟨seen, habsorb⟩ := Catalog.absorb_eq_ok r.catalog h.defined.kindsKnown
    have hseen := h.seeing
    rw [habsorb] at hseen ⊢
    exact Or.inl ⟨seen, rfl, hseen, hseen.covers habsorb⟩
  | false => exact Or.inr ⟨rfl, rfl⟩

/-- A look for a definition answers what is right in every catalogue that covers what is stored, if
no catalogue of what is stored says otherwise. -/
theorem Informed.findInfo (h : r.Informed) {find : Catalog → Option AttributeInfo}
    {answer : Option AttributeInfo}
    (hfound : ∀ catalog : Catalog, catalog.Of r.database → ∀ info, find catalog = some info →
      answer = some info)
    (hnone : ∀ catalog : Catalog, catalog.Of r.database →
      (∀ row ∈ r.database.attributes, catalog.Covers row) → find catalog = none → answer = none) :
    r.Yields (Repository.findInfo find) (.ok answer) := by
  unfold Yields Repository.findInfo
  rw [Action.bind_of_ok (Action.get_apply r)]
  cases hfirst : find r.catalog with
  | some info => exact Or.inl (congrArg Except.ok (hfound _ h.stored info hfirst).symm)
  | none =>
    rcases h.refreshCatalog_cases with ⟨seen, hrefresh, hseen, hcovers⟩ | ⟨hunread, hrefresh⟩
    · left
      simp only [Action.bind_of_ok hrefresh]
      show Except.ok (find seen) = Except.ok answer
      cases hsecond : find seen with
      | some info => rw [hfound seen hseen.stored info hsecond]
      | none => rw [hnone seen hseen.stored hcovers hsecond]
    · exact Or.inr ⟨hunread, congrArg Prod.fst (Action.bind_of_error hrefresh _)⟩

/-- **By name** there is found what is stored under that name in any case, and only that. -/
theorem Informed.infoByName (h : r.Informed) (name : String) :
    r.Yields (Repository.infoByName name) (.ok (r.database.definition? name)) := by
  refine h.findInfo (fun catalog hof info hfound => ?_) fun catalog hof hcovers hnone => ?_
  · obtain ⟨hcatalogued, hname⟩ := hof.byName? hfound
    exact h.defined.definition?_eq_some.2 ⟨h.defined.catalogued_iff.1 hcatalogued, hname⟩
  · refine h.defined.definition?_eq_none.2 fun row hrow hname => ?_
    exact (hcovers row hrow).byName?_ne_none hof h.defined hrow hname hnone

/-- **By number** there is found what is stored under that number. -/
theorem Informed.infoById (h : r.Informed) (id : Int) :
    r.Yields (Repository.infoById id) (.ok (r.database.definitions.find? fun info => info.id == id)) := by
  refine h.findInfo (fun catalog hof info hfound => ?_) fun catalog hof hcovers hnone => ?_
  · obtain ⟨hmem, rfl⟩ := Catalog.byId?_eq_some hfound
    exact find?_of_nodup AttributeInfo.id h.defined.numbers_definitions
      (h.defined.catalogued_iff.1 (hof.known info hmem))
  · refine List.find?_eq_none.2 fun info hinfo hid => ?_
    obtain rfl : info.id = id := by simpa using hid
    exact (hcovers _ (Database.mem_definitions.1 hinfo)).byId?_ne_none hnone

/-- A catalogue that covers what is stored lists it. -/
theorem Informed.all_eq (h : r.Informed)
    (hcovers : ∀ row ∈ r.database.attributes, r.catalog.Covers row) :
    r.catalog.all = r.database.definitions.mergeSort fun a b => decide (a.id ≤ b.id) := by
  refine (mergeSort_eq_iff AttributeInfo.id h.distinct h.defined.numbers_definitions).2 fun info => ?_
  constructor
  · exact fun hmem => h.defined.catalogued_iff.1 (h.stored.known info hmem)
  · intro hmem
    obtain ⟨-, other, hother, hid⟩ := hcovers _ (Database.mem_definitions.1 hmem)
    have hstored := h.defined.catalogued_iff.1 (h.stored.known other hother)
    have heq : other = info := eq_of_nodup AttributeInfo.id h.defined.numbers_definitions hstored hmem hid
    exact heq ▸ hother

/-- **The list of all definitions** is that of all that are stored, by number. -/
theorem Informed.infos (h : r.Informed) :
    r.Yields Repository.infos
      (.ok (r.database.definitions.mergeSort fun a b => decide (a.id ≤ b.id))) := by
  unfold Yields Repository.infos
  rw [Action.bind_of_ok (Action.get_apply r)]
  cases hloaded : r.catalog.loaded with
  | true => exact Or.inl (congrArg Except.ok (h.all_eq (h.complete hloaded)))
  | false =>
    simp only [Bool.not_false, if_true]
    rcases h.refreshCatalog_cases with ⟨seen, hrefresh, hseen, hcovers⟩ | ⟨hunread, hrefresh⟩
    · rw [Action.bind_of_ok hrefresh]
      exact Or.inl (congrArg Except.ok (hseen.all_eq hcovers))
    · exact Or.inr ⟨hunread, congrArg Prod.fst (Action.bind_of_error hrefresh _)⟩

/-! ## What is defined -/

/-- A definition that is added, and remembered. -/
def adding (name : String) (kind : Kind) (scalar : Bool) : Action Repository AttributeInfo := do
  let id ← write (Transaction.perform (Database.insertAttribute name kind.code scalar))
  let info : AttributeInfo := ⟨id, name, kind, scalar⟩
  Action.modify fun r => { r with catalog := r.catalog.keep info }
  pure info

theorem adding_apply {name : String} {kind : Kind} {scalar : Bool}
    (hfree : ∀ row ∈ r.database.attributes, Text.lower row.name ≠ Text.lower name) :
    adding name kind scalar r =
      if r.contention.allowsWriting then
        (.ok ⟨r.database.lastAttribute + 1, name, kind, scalar⟩,
          { r with
            database := { r.database with
              attributes := r.database.attributes ++
                [⟨r.database.lastAttribute + 1, name, kind.code, scalar⟩]
              lastAttribute := r.database.lastAttribute + 1 }
            catalog := r.catalog.keep ⟨r.database.lastAttribute + 1, name, kind, scalar⟩ })
      else (.error (.write .locked), r) := by
  unfold adding
  rw [Action.bind_apply, write_apply]
  unfold Transaction.perform
  rw [Database.insertAttribute_of_unknown hfree]
  cases r.contention.allowsWriting with
  | true => rfl
  | false => rfl

/-- Defining a name comes down to what is found under it. -/
theorem define_apply {name : String} (hname : (Text.trim name).isEmpty = false) (kind : Kind)
    (scalar : Bool) (r : Repository) :
    define name kind scalar r =
      match Repository.infoByName (Text.trim name) r with
      | (.ok (some info), t) =>
        (if info.kind = kind then .ok info else .error (.alreadyDefined info.name info.kind), t)
      | (.ok none, t) => adding (Text.trim name) kind scalar t
      | (.error fault, t) => (.error fault, t) := by
  unfold define
  simp only [hname, Bool.false_eq_true, if_false]
  rw [Action.bind_apply]
  cases Repository.infoByName (Text.trim name) r with
  | mk outcome t =>
    cases outcome with
    | error fault => rfl
    | ok found =>
      cases found with
      | none => rfl
      | some info =>
        by_cases hkind : info.kind = kind
        · simp only [if_pos hkind]
          rfl
        · simp only [if_neg hkind]
          rfl

/-- **Defining a name** gives the definition that it has, or fails if that is of another kind, and then
changes nothing that is stored; and a name that has none gets one. -/
theorem Informed.define_cases (h : r.Informed) {name : String} (hname : (Text.trim name).isEmpty = false)
    (kind : Kind) (scalar : Bool) :
    ∃ catalog,
      (r.contention.allowsReading = false ∧
          define name kind scalar r = (.error (.read .locked), r.withCatalog catalog)) ∨
        (∃ info, r.database.definition? (Text.trim name) = some info ∧
          define name kind scalar r =
            (if info.kind = kind then .ok info else .error (.alreadyDefined info.name info.kind),
              r.withCatalog catalog)) ∨
        (r.database.definition? (Text.trim name) = none ∧
          if r.contention.allowsWriting then
            let info : AttributeInfo := ⟨r.database.lastAttribute + 1, Text.trim name, kind, scalar⟩
            (define name kind scalar r).1 = .ok info ∧
              (define name kind scalar r).2.database.definitions = r.database.definitions ++ [info]
          else define name kind scalar r = (.error (.write .locked), r.withCatalog catalog)) := by
  obtain ⟨catalog, hcatalog⟩ : ∃ catalog,
      (Repository.infoByName (Text.trim name) r).2 = r.withCatalog catalog :=
    (snd_findInfo_cases r _).elim (fun hsame => ⟨r.catalog, hsame⟩) fun hseen => ⟨_, hseen⟩
  refine ⟨catalog, ?_⟩
  rw [define_apply hname]
  rcases h.infoByName (Text.trim name) with hfound | ⟨hunread, hfault⟩
  · have hlook : Repository.infoByName (Text.trim name) r =
        (.ok (r.database.definition? (Text.trim name)), r.withCatalog catalog) := Prod.ext hfound hcatalog
    rw [hlook]
    cases hstored : r.database.definition? (Text.trim name) with
    | some info => exact Or.inr (Or.inl ⟨info, rfl, rfl⟩)
    | none =>
      refine Or.inr (Or.inr ⟨rfl, ?_⟩)
      dsimp only
      rw [adding_apply (r := r.withCatalog catalog) (h.defined.definition?_eq_none.1 hstored)]
      by_cases hwrite : r.contention.allowsWriting = true
      · have hwrite' : (r.withCatalog catalog).contention.allowsWriting = true := hwrite
        rw [if_pos hwrite, if_pos hwrite']
        refine ⟨rfl, ?_⟩
        unfold Database.definitions
        rw [List.filterMap_append]
        exact congrArg (r.database.definitions ++ ·) (List.filterMap_cons_some (AttributeInfo.info?_row
          ⟨r.database.lastAttribute + 1, Text.trim name, kind, scalar⟩))
      · have hwrite' : ¬ (r.withCatalog catalog).contention.allowsWriting = true := hwrite
        rw [if_neg hwrite, if_neg hwrite']
  · have hlook : Repository.infoByName (Text.trim name) r =
        (.error (.read .locked), r.withCatalog catalog) := Prod.ext hfault hcatalog
    rw [hlook]
    exact Or.inl ⟨hunread, rfl⟩

/-- A defined name, when it is defined again, gives its definition or is refused, and nothing that is
stored changes. -/
theorem Informed.define_known (h : r.Informed) {name : String} {info : AttributeInfo}
    (hname : (Text.trim name).isEmpty = false) (hmem : info ∈ r.database.definitions)
    (hlower : Text.lower info.name = Text.lower (Text.trim name)) (kind : Kind) (scalar : Bool) :
    r.Yields (define name kind scalar)
        (if info.kind = kind then .ok info else .error (.alreadyDefined info.name info.kind)) ∧
      ∃ catalog, (define name kind scalar r).2 = r.withCatalog catalog := by
  have hknown := h.defined.definition?_eq_some.2 ⟨hmem, hlower⟩
  obtain ⟨catalog, ⟨hunread, hdefine⟩ | ⟨other, hother, hdefine⟩ | ⟨hnone, -⟩⟩ :=
    h.define_cases hname kind scalar
  · rw [Yields, hdefine]
    exact ⟨Or.inr ⟨hunread, rfl⟩, catalog, rfl⟩
  · obtain rfl : other = info := Option.some.inj (hother.symm.trans hknown)
    rw [Yields, hdefine]
    exact ⟨Or.inl rfl, catalog, rfl⟩
  · rw [hknown] at hnone
    cases hnone

/-- A name that is not defined yet gets a definition, behind those there are. -/
theorem Informed.define_new (h : r.Informed) {name : String} (hname : (Text.trim name).isEmpty = false)
    (hfree : ∀ info ∈ r.database.definitions, Text.lower info.name ≠ Text.lower (Text.trim name))
    (hwrite : r.contention.allowsWriting = true) (kind : Kind) (scalar : Bool) :
    ∃ id, (define name kind scalar r).1 = .ok ⟨id, Text.trim name, kind, scalar⟩ ∧
      (define name kind scalar r).2.database.definitions =
        r.database.definitions ++ [⟨id, Text.trim name, kind, scalar⟩] := by
  obtain ⟨catalog, ⟨hunread, -⟩ | ⟨other, hother, -⟩ | ⟨-, hdefine⟩⟩ := h.define_cases hname kind scalar
  · rw [Contention.allowsReading_of_allowsWriting hwrite] at hunread
    cases hunread
  · obtain ⟨hmem, hlower⟩ := h.defined.definition?_eq_some.1 hother
    exact absurd hlower (hfree other hmem)
  · rw [if_pos hwrite] at hdefine
    exact ⟨_, hdefine⟩

theorem define_blank {name : String} (hname : (Text.trim name).isEmpty = true) (kind : Kind)
    (scalar : Bool) (r : Repository) : define name kind scalar r = (.error .blankAttributeName, r) := by
  unfold define
  simp only [hname, if_true]
  rfl

/-- The engine never finds a name that stands against one that is defined. -/
theorem Informed.define_ne_unique (h : r.Informed) (name : String) (kind : Kind) (scalar : Bool)
    (column : String) : (define name kind scalar r).1 ≠ .error (.write (.unique column)) := by
  intro hfault
  cases hname : (Text.trim name).isEmpty with
  | true =>
    rw [define_blank hname] at hfault
    cases hfault
  | false =>
    obtain ⟨catalog, ⟨-, hdefine⟩ | ⟨other, -, hdefine⟩ | ⟨-, hdefine⟩⟩ :=
      h.define_cases hname kind scalar
    · rw [hdefine] at hfault
      cases hfault
    · rw [hdefine] at hfault
      split at hfault
      · cases hfault
      · cases hfault
    · split at hdefine
      · rw [hdefine.1] at hfault
        cases hfault
      · rw [hdefine] at hfault
        cases hfault

end Repository

end MetadataStore
