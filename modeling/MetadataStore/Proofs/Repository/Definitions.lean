import MetadataStore.Proofs.Action
import MetadataStore.Proofs.Handle.Known
import MetadataStore.Proofs.Repository.Access

/-!
# `Proofs.Repository.Definitions` — the catalogue of a repository and the stored definitions

A repository remembers definitions that it has seen. What it remembers is stored, under the number and
the name it remembers; and once it has seen all that is stored it finds every stored name. So a name
that is then still unknown is not stored in any case, and may be defined.

## Contents
- `Catalog.Of`: what is remembered is stored; `Of.keep`, `Of.absorb`.
- `Catalog.Covers`, `covers_absorb`: what was seen is found by its name.
- `Repository.findInfo_eq_ok`, `Repository.infoByName_cases`, `Repository.snd_findInfo`.
-/

namespace MetadataStore

namespace Catalog

/-- Everything that the catalogue remembers is stored as it remembers it. -/
structure Of (catalog : Catalog) (db : Database) : Prop where
  known : ∀ info ∈ catalog.known, (Attribute.ofInfo info).Catalogued db
  names : ∀ entry ∈ catalog.names, ∃ row, db.attribute? entry.2 = some row ∧
    Text.lower row.name = entry.1

variable {catalog : Catalog} {db db' : Database}

theorem Of.empty (db : Database) : Catalog.empty.Of db where
  known := fun _ h => by cases h
  names := fun _ h => by cases h

/-- Definitions that are added to those stored do not matter. -/
theorem Of.extend (h : catalog.Of db) (hattributes : db.attributes <+: db'.attributes) :
    catalog.Of db' where
  known := fun info hmem => (h.known info hmem).extend hattributes
  names := by
    intro entry hmem
    obtain ⟨row, hrow, hname⟩ := h.names entry hmem
    exact ⟨row, Database.attribute?_of_prefix hattributes hrow, hname⟩

theorem byId?_eq_some {id : Int} {info : AttributeInfo} (h : catalog.byId? id = some info) :
    info ∈ catalog.known ∧ info.id = id :=
  ⟨List.mem_of_find?_eq_some h, by simpa using List.find?_some h⟩

/-- **A definition that is found by a name is stored, under that name.** -/
theorem Of.byName? (h : catalog.Of db) {name : String} {info : AttributeInfo}
    (hfound : catalog.byName? name = some info) :
    (Attribute.ofInfo info).Catalogued db ∧ Text.lower info.name = Text.lower name := by
  obtain ⟨id, hlookup, hid⟩ := Option.bind_eq_some_iff.1 hfound
  obtain ⟨hmem, rfl⟩ := byId?_eq_some hid
  have hcatalogued := h.known info hmem
  refine ⟨hcatalogued, ?_⟩
  obtain ⟨row, hrow, hname⟩ := h.names _ (Keyed.mem_of_lookup hlookup)
  obtain ⟨other, hother, hsame, -⟩ := hcatalogued
  have hrows : row = other := Option.some.inj (hrow.symm.trans hother)
  have hinfo : other.name = info.name := hsame
  rw [← hinfo, ← hrows, hname]

theorem Of.keep (h : catalog.Of db) {info : AttributeInfo}
    (hinfo : (Attribute.ofInfo info).Catalogued db) : (catalog.keep info).Of db where
  known := by
    intro other hmem
    rcases List.mem_append.1 hmem with hold | hnew
    · exact h.known other (List.mem_filter.1 hold).1
    · rw [List.mem_singleton.1 hnew]
      exact hinfo
  names := by
    intro entry hmem
    rcases List.mem_append.1 hmem with hold | hnew
    · exact h.names entry (List.mem_filter.1 hold).1
    · rw [List.mem_singleton.1 hnew]
      obtain ⟨row, hrow, hname, -⟩ := hinfo
      exact ⟨row, hrow, congrArg Text.lower hname⟩

/-- What a row says when its kind is known. -/
theorem catalogued_of_mem (hdefined : db.Defined) {row : AttributeRow} (hmem : row ∈ db.attributes)
    {kind : Kind} (hkind : Kind.ofCode? row.kindCode = some kind) :
    (Attribute.ofInfo ⟨row.id, row.name, kind, row.scalar⟩).Catalogued db := by
  refine ⟨row, hdefined.attribute?_of_mem hmem, rfl, ?_, rfl⟩
  show row.kindCode = kind.code
  exact (Kind.ofCode?_eq_some hkind).symm

theorem Of.absorb (hdefined : db.Defined) {rows : List AttributeRow}
    (hrows : ∀ row ∈ rows, row ∈ db.attributes) (h : catalog.Of db) :
    (catalog.absorb rows).2.Of db := by
  induction rows generalizing catalog with
  | nil => exact ⟨h.known, h.names⟩
  | cons row rows ih =>
    rw [Catalog.absorb]
    cases hkind : Kind.ofCode? row.kindCode with
    | none => exact h
    | some kind =>
      have hinfo := catalogued_of_mem hdefined (hrows row List.mem_cons_self) hkind
      exact ih (fun other hmem => hrows other (List.mem_cons_of_mem row hmem)) (h.keep hinfo)

/-! ## What was seen is found -/

/-- The catalogue remembers number and name of a row. -/
def Covers (catalog : Catalog) (row : AttributeRow) : Prop :=
  (Text.lower row.name, row.id) ∈ catalog.names ∧ ∃ info ∈ catalog.known, info.id = row.id

theorem covers_keep (catalog : Catalog) (row : AttributeRow) (kind : Kind) :
    (catalog.keep ⟨row.id, row.name, kind, row.scalar⟩).Covers row :=
  ⟨List.mem_append_right _ List.mem_cons_self, _, List.mem_append_right _ List.mem_cons_self, rfl⟩

/-- A definition of another number and another name does not take the place of one. -/
theorem Covers.keep {row : AttributeRow} (h : catalog.Covers row) {info : AttributeInfo}
    (hid : row.id ≠ info.id) (hname : Text.lower row.name ≠ Text.lower info.name) :
    (catalog.keep info).Covers row := by
  obtain ⟨hnames, known, hknown, hsame⟩ := h
  refine ⟨List.mem_append_left _ (List.mem_filter.2 ⟨hnames, ?_⟩), known,
    List.mem_append_left _ (List.mem_filter.2 ⟨hknown, ?_⟩), hsame⟩
  · simp only [Bool.and_eq_true, bne_iff_ne]
    exact ⟨hname, hid⟩
  · rw [bne_iff_ne, hsame]
    exact hid

theorem covers_absorb (hdefined : db.Defined) {rows : List AttributeRow} {row : AttributeRow}
    (hrows : ∀ row ∈ rows, row ∈ db.attributes) (hrow : row ∈ db.attributes)
    (h : row ∈ rows ∨ catalog.Covers row) {catalog' : Catalog}
    (hdone : catalog.absorb rows = (.ok (), catalog')) : catalog'.Covers row := by
  induction rows generalizing catalog with
  | nil =>
    cases hdone
    rcases h with h | h
    · cases h
    · exact h
  | cons first rows ih =>
    rw [Catalog.absorb] at hdone
    cases hkind : Kind.ofCode? first.kindCode with
    | none =>
      rw [hkind] at hdone
      cases hdone
    | some kind =>
      rw [hkind] at hdone
      refine ih (fun other hmem => hrows other (List.mem_cons_of_mem first hmem)) ?_ hdone
      -- a later row displaces this one only with its number or its name, and rows share neither
      by_cases heq : row = first
      · exact Or.inr (heq ▸ covers_keep catalog row kind)
      · rcases h with h | h
        · exact Or.inl ((List.mem_cons.1 h).resolve_left heq)
        · have hfirst := hrows first List.mem_cons_self
          refine Or.inr (h.keep ?_ ?_)
          · exact fun hid => heq (hdefined.eq_of_id hrow hfirst hid)
          · exact fun hname => heq (hdefined.eq_of_name hrow hfirst hname)

/-- A row that is remembered is found under its name in any case. -/
theorem Covers.byName?_ne_none {row : AttributeRow} (h : catalog.Covers row) (hof : catalog.Of db)
    (hdefined : db.Defined) (hrow : row ∈ db.attributes) {name : String}
    (hname : Text.lower row.name = Text.lower name) : catalog.byName? name ≠ none := by
  obtain ⟨hnames, known, hknown, hsame⟩ := h
  unfold Catalog.byName?
  rw [← hname]
  cases hlookup : catalog.names.lookup (Text.lower row.name) with
  | none => exact absurd rfl (Keyed.lookup_eq_none.1 hlookup _ hnames)
  | some id =>
    -- no other number can stand under the name
    obtain ⟨other, hother, hsameName⟩ := hof.names _ (Keyed.mem_of_lookup hlookup)
    obtain ⟨hmem, hid⟩ := Database.attribute?_eq_some hother
    have heq : other = row := hdefined.eq_of_name hmem hrow hsameName
    have hid : id = row.id := by
      rw [← heq]
      exact hid.symm
    rw [hid]
    show catalog.byId? row.id ≠ none
    intro hnone
    have := List.find?_eq_none.1 hnone known hknown
    simp [hsame] at this

end Catalog

/-! ## Looking for definitions -/

namespace Repository

variable {r r' : Repository}

/-- A repository whose catalogue alone is another. -/
def withCatalog (r : Repository) (catalog : Catalog) : Repository :=
  { r with catalog }

theorem refreshCatalog_apply (r : Repository) :
    refreshCatalog r =
      if r.contention.allowsReading then
        ((r.catalog.absorb r.database.attributes).1,
          r.withCatalog (r.catalog.absorb r.database.attributes).2)
      else (.error (.read .locked), r) := by
  show Action.bind (read (·.attributes)) _ r = _
  unfold Action.bind
  rw [read_apply]
  cases r.contention.allowsReading <;> rfl

/-- Seeing what is stored leaves everything but the catalogue, which goes on remembering what is
stored. -/
theorem snd_refreshCatalog (hdefined : r.database.Defined) (hof : r.catalog.Of r.database) :
    ∃ catalog, (refreshCatalog r).2 = r.withCatalog catalog ∧ catalog.Of r.database := by
  rw [refreshCatalog_apply]
  split
  · exact ⟨_, rfl, hof.absorb hdefined fun _ hmem => hmem⟩
  · exact ⟨r.catalog, rfl, hof⟩

/-- Looking for a definition changes nothing, or all that is stored is seen. -/
theorem snd_findInfo_cases (r : Repository) (find : Catalog → Option AttributeInfo) :
    (findInfo find r).2 = r ∨
      (findInfo find r).2 = r.withCatalog (r.catalog.absorb r.database.attributes).2 := by
  unfold findInfo
  rw [Action.bind_of_ok (Action.get_apply r)]
  cases find r.catalog with
  | some info => exact Or.inl rfl
  | none =>
    simp only [Action.bind_apply]
    rw [refreshCatalog_apply]
    by_cases hread : r.contention.allowsReading = true
    · rw [if_pos hread]
      right
      cases (r.catalog.absorb r.database.attributes).1 with
      | error fault => rfl
      | ok u => rfl
    · rw [if_neg hread]
      exact Or.inl rfl

/-- Looking for a definition leaves everything but the catalogue, which goes on remembering what is
stored. -/
theorem snd_findInfo (hdefined : r.database.Defined) (hof : r.catalog.Of r.database)
    (find : Catalog → Option AttributeInfo) :
    ∃ catalog, (findInfo find r).2 = r.withCatalog catalog ∧ catalog.Of r.database := by
  rcases snd_findInfo_cases r find with hsame | hseen
  · exact ⟨r.catalog, hsame, hof⟩
  · exact ⟨_, hseen, hof.absorb hdefined fun _ hmem => hmem⟩

/-- A look for a definition answers what the catalogue has then; and when that is nothing, all that is
stored has been seen. -/
theorem findInfo_eq_ok {find : Catalog → Option AttributeInfo} {found : Option AttributeInfo}
    (h : findInfo find r = (.ok found, r')) :
    found = find r'.catalog ∧
      (found = none → r.catalog.absorb r.database.attributes = (.ok (), r'.catalog)) := by
  obtain ⟨t, t', hget, hrest⟩ := Action.bind_eq_ok.1 h
  cases hget
  cases hfirst : find r.catalog with
  | some info =>
    rw [hfirst] at hrest
    cases hrest
    exact ⟨hfirst.symm, fun hnone => by cases hnone⟩
  | none =>
    rw [hfirst] at hrest
    obtain ⟨_, t, hrefresh, hrest⟩ := Action.bind_eq_ok.1 hrest
    have hseen : r.catalog.absorb r.database.attributes = (.ok (), t.catalog) := by
      rw [refreshCatalog_apply] at hrefresh
      split at hrefresh
      · simp only [Prod.mk.injEq] at hrefresh
        obtain ⟨houtcome, rfl⟩ := hrefresh
        exact Prod.ext houtcome rfl
      · cases hrefresh
    obtain ⟨t, t', hget, hdone⟩ := Action.bind_eq_ok.1 hrest
    cases hget
    cases hdone
    exact ⟨rfl, fun _ => hseen⟩

/-- **Looking for the definition of a name** fails, or finds none because none is stored, or finds the one
that is stored under it. Nothing but the catalogue changes. -/
theorem infoByName_cases (hdefined : r.database.Defined) (hof : r.catalog.Of r.database) (name : String) :
    ∃ catalog, catalog.Of r.database ∧
      ((∃ fault, infoByName name r = (.error fault, r.withCatalog catalog)) ∨
        (infoByName name r = (.ok none, r.withCatalog catalog) ∧
          ∀ row ∈ r.database.attributes, Text.lower row.name ≠ Text.lower name) ∨
        ∃ info, infoByName name r = (.ok (some info), r.withCatalog catalog) ∧
          (Attribute.ofInfo info).Catalogued r.database ∧ Text.lower info.name = Text.lower name) := by
  obtain ⟨catalog, hkept, hof'⟩ := snd_findInfo hdefined hof fun c => c.byName? name
  refine ⟨catalog, hof', ?_⟩
  cases hinfo : infoByName name r with
  | mk outcome t =>
    obtain rfl : t = r.withCatalog catalog := by
      rw [← hkept]
      exact (congrArg Prod.snd hinfo).symm
    cases outcome with
    | error fault => exact Or.inl ⟨fault, rfl⟩
    | ok found =>
      refine Or.inr ?_
      obtain ⟨hfound, habsorb⟩ := findInfo_eq_ok hinfo
      cases found with
      | some info => exact Or.inr ⟨info, rfl, hof'.byName? hfound.symm⟩
      | none =>
        refine Or.inl ⟨rfl, fun row hrow hname => ?_⟩
        -- all rows were seen, so one of the name would have been found
        have hcovers := Catalog.covers_absorb hdefined (fun _ hmem => hmem) hrow (Or.inl hrow)
          (habsorb rfl)
        exact hcovers.byName?_ne_none hof' hdefined hrow hname hfound.symm

end Repository

end MetadataStore
