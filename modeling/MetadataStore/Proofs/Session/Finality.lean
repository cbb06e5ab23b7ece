import MetadataStore.Proofs.Repository.Disposed
import MetadataStore.Proofs.Session.Integrity

/-!
# `Proofs.Session.Finality` — units that are gone

A unit that is disposed of has no row again: its number is not given out a second time, and a store of a
handle that was kept writes to a row that is not there. Such a store succeeds all the same, and puts the
handle into the cache, which then answers a unit that is not stored. So only stored units are answered
through a session exactly as long as no handle without a row is stored, nor put into the cache by hand; a
change of status looks for the row by itself.

## Contents
- `Handle.Backed`, `Handle.StoresRow` and `Handle.storesRow_iff`: one store.
- `Repository.AnswersStored`, and `CachesStored`, the invariant that carries it from move to move.
- `Session.invariant_gone`: a unit without a row goes on without it.
- `Operation.IsGrounded`, `Session.final_iff_grounded`: whole sessions.
-/

namespace MetadataStore

/-! ## One store -/

namespace Handle

variable {r r' : Repository} {h h' : Handle} {db : Database} {created : DateTime}

/-- If the unit has a number, it is stored. -/
def Backed (db : Database) (h : Handle) : Prop :=
  ∀ unit, h.ref? = some unit → db.hasUnit unit = true

/-- A store of the unit, if it succeeds, leaves its row, and there the name if it is a new one. -/
def StoresRow (r : Repository) (h : Handle) : Prop :=
  ∀ r' h', store (r, h) = (.ok (), (r', h')) →
    ∃ unit row, h'.ref? = some unit ∧ r'.database.unit? unit = some row ∧
      (h.renamed = true → row.name = h.name)

theorem backed_of_new (hnew : h.id = none) : h.Backed db := by
  intro unit href
  rw [ref?, hnew] at href
  cases href

/-- What is written has a row exactly when the unit is new or was stored. -/
theorem hasUnit_writtenTo_iff :
    (h.writtenTo created db).hasUnit (h.writtenUnit db) = true ↔ h.Backed db := by
  rw [hasUnit_writtenTo]
  cases hid : h.id with
  | none => exact ⟨fun _ => backed_of_new hid, fun _ => rfl⟩
  | some id =>
    rw [Option.isNone_some, Bool.false_or]
    constructor
    · intro hunit unit href
      rwa [writtenUnit_of_ref? href] at hunit
    · exact fun hbacked => hbacked _ (ref?_of_id hid)

/-- The row that is written has the name, if it is a new one. -/
theorem name_writtenTo (hnumbers : ∀ row ∈ db.units, row.unit.id ≤ db.lastUnit) {row : UnitRow}
    (hrow : (h.writtenTo created db).unit? (h.writtenUnit db) = some row) (hrenamed : h.renamed = true) :
    row.name = h.name := by
  cases hid : h.id with
  | none =>
    rw [unit?_writtenTo_of_new hnumbers hid] at hrow
    cases hrow
    rfl
  | some id =>
    rw [unit?_writtenTo_of_id hid] at hrow
    obtain ⟨old, -, rfl⟩ := Option.map_eq_some_iff.1 hrow
    exact if_pos hrenamed

/-- What a store leaves when it succeeds. -/
theorem store_leaves (hnumbered : r.database.Numbered) (hstore : store (r, h) = (.ok (), (r', h'))) :
    h'.ref? = some (h.writtenUnit r.database) ∧
      r'.database = h.writtenTo (h.creationTime r) r.database := by
  obtain ⟨-, -, -, rfl, rfl⟩ := store_eq_ok_of_issued hnumbered.elementsIssued hstore
  exact ⟨ref?_settle h _ _ _, rfl⟩

/-- **A store that succeeds leaves a row** exactly when the unit is new or was stored before. -/
theorem storesRow_iff (hnumbered : r.database.Numbered) :
    h.StoresRow r ↔ ((store (r, h)).1 = .ok () → h.Backed r.database) := by
  constructor
  · intro hstores hok
    have hstore : store (r, h) = (.ok (), ((store (r, h)).2.1, (store (r, h)).2.2)) :=
      Prod.ext hok rfl
    obtain ⟨href, hdb⟩ := store_leaves hnumbered hstore
    obtain ⟨unit, row, href', hrow, -⟩ := hstores _ _ hstore
    cases href.symm.trans href'
    rw [hdb] at hrow
    exact hasUnit_writtenTo_iff.1 (by rw [Database.hasUnit_eq_isSome_unit?, hrow, Option.isSome_some])
  · intro hbacked r' h' hstore
    obtain ⟨href, hdb⟩ := store_leaves hnumbered hstore
    have hunit : r'.database.hasUnit (h.writtenUnit r.database) = true := by
      rw [hdb]
      exact hasUnit_writtenTo_iff.2 (hbacked (congrArg Prod.fst hstore))
    rw [Database.hasUnit_eq_isSome_unit?] at hunit
    obtain ⟨row, hrow⟩ := Option.isSome_iff_exists.1 hunit
    refine ⟨_, row, href, hrow, ?_⟩
    rw [hdb] at hrow
    exact name_writtenTo hnumbered.unitsIssued hrow

end Handle

/-! ## Answers -/

namespace Repository

variable {r r' : Repository} {db' : Database} {copy : Handle}

/-- Only units that are stored are answered. -/
def AnswersStored (r : Repository) : Prop :=
  ∀ unit copy r', Repository.unit unit r = (.ok (some copy), r') → r.database.hasUnit unit = true

/-- Every cached copy stands under its own key, and is one of a stored unit. -/
def CachesStored (r : Repository) : Prop :=
  r.cache.All fun key copy =>
    ∃ unit : UnitRef, copy.ref? = some unit ∧ key = unit.text ∧ r.database.hasUnit unit = true

/-- What is not cached is loaded, and only what is stored can be. -/
theorem CachesStored.answersStored (h : r.CachesStored) : r.AnswersStored := by
  intro unit copy r' hunit
  rcases unit_eq_ok_some hunit with ⟨hcopy, -⟩ | ⟨-, -, row, hrow, -, -⟩
  · rw [Cache.fst_lookup] at hcopy
    obtain ⟨entry, hentry, -⟩ := Option.map_eq_some_iff.1 hcopy
    obtain ⟨other, -, htext, hstored⟩ := Cache.All.find? h hentry
    rwa [UnitRef.text_injective htext]
  · rw [Database.hasUnit_eq_isSome_unit?, hrow, Option.isSome_some]

/-- A copy that is in the cache is answered, so its unit is stored. -/
theorem AnswersStored.backed_of_admits {cache : Cache}
    (h : ({ r with cache := cache.store copy } : Repository).AnswersStored)
    (hadmits : cache.Admits copy) : copy.Backed r.database := by
  obtain ⟨unit, href, hfound⟩ := hadmits
  obtain ⟨entry, hentry⟩ := Option.isSome_iff_exists.1 hfound
  have hcopy : ((cache.store copy).lookup unit.text).1 = some entry.copy := by
    rw [Cache.fst_lookup, hentry, Option.map_some]
  have hstored := h unit entry.copy _ (unit_of_cached hcopy)
  intro other hother
  cases href.symm.trans hother
  exact hstored

/-! ## From move to move -/

theorem CachesStored.withDatabase (h : r.CachesStored)
    (hunits : ∀ unit, r.database.hasUnit unit = true → db'.hasUnit unit = true) :
    ({ r with database := db' } : Repository).CachesStored :=
  h.mono fun _ _ ⟨unit, href, hkey, hunit⟩ => ⟨unit, href, hkey, hunits unit hunit⟩

theorem CachesStored.keeping (h : r.CachesStored)
    (hbacked : r.cache.Admits copy → copy.Backed r.database) : (r.keeping copy).CachesStored := by
  cases href : copy.ref? with
  | none =>
    unfold Repository.keeping
    rw [Cache.store_of_ref?_none href]
    exact h
  | some unit =>
    exact Cache.All.store_of_ne href (h.mono fun _ _ => Or.inr)
      fun hadmits => ⟨unit, href, rfl, hbacked hadmits unit href⟩

/-- The copies of other units than the one that goes are left. -/
theorem CachesStored.disposed (h : r.CachesStored) (unit : UnitRef) :
    ({ r with database := r.database.withoutUnit unit, cache := r.cache.remove unit } :
      Repository).CachesStored := by
  refine Cache.All.remove_of_ne (h.mono ?_)
  rintro _ copy ⟨other, href, rfl, hunit⟩
  by_cases hsame : other = unit
  · exact Or.inl (congrArg UnitRef.text hsame)
  · exact Or.inr ⟨other, href, rfl, Database.hasUnit_withoutUnit.2 ⟨hunit, hsame⟩⟩

/-- **The cache goes on having copies of stored units alone**, while copies that come into it of themselves
are such. -/
theorem Move.cachesStored (hmove : Move (.bringing fun db copy => copy.Backed db) r r')
    (hnumbered : r.database.Numbered) (h : r.CachesStored) : r'.CachesStored := by
  rcases hmove.hasUnit_or_dispose hnumbered with hunits | ⟨unit, -, rfl⟩
  · cases hmove with
    | forget hall => exact hall _ h
    | learn _ => exact h
    | count _ => exact h
    | load hrow hmake =>
      refine h.keeping fun _ unit href => ?_
      rw [Handle.ref?_of_ofRow hmake] at href
      cases href
      rw [(Database.unit?_eq_some hrow).2, Database.hasUnit_eq_isSome_unit?, hrow, Option.isSome_some]
    | bring hbrings => exact h.keeping hbrings
    | store _ _ _ hbrings => exact (h.withDatabase hunits).keeping hbrings
    | transit _ _ hbrings => exact (h.withDatabase hunits).keeping hbrings
    | dispose _ => exact h.disposed _
    | _ => exact h.withDatabase hunits
  · exact h.disposed unit

end Repository

/-! ## Operations -/

/-- A store that is performed leaves the row of its unit. -/
def Operation.StoresRow (s : Session) : Operation → Prop
  | .store name => ∀ h, s.handle? name = some h → h.StoresRow s.repository
  | _ => True

/-- A handle that is stored, or put into the cache, is of a unit that is new or stored. -/
def Operation.IsGrounded (s : Session) : Operation → Prop
  | .store name => ∀ h, s.handle? name = some h →
      (Handle.store (s.repository, h)).1 = .ok () → h.Backed s.repository.database
  | .cacheStore name => ∀ h, s.handle? name = some h → s.repository.cache.Admits h →
      h.Backed s.repository.database
  | _ => True

namespace Session

open MetadataStore.Repository (Move CachesStored AnswersStored)

variable {s : Session} {α : Type}

def Event.StoresRow (s : Session) : Event → Prop
  | .perform operation => operation.StoresRow s
  | .circumstances _ _ => True

def Event.IsGrounded (s : Session) : Event → Prop
  | .perform operation => operation.IsGrounded s
  | .circumstances _ _ => True

/-- A request that is granted has found the row of its unit. -/
theorem requestBrings_backed {h : Handle} (r : Repository) (requested : Status) :
    h.RequestBrings (.bringing fun db copy => copy.Backed db) r requested := by
  rintro unit ⟨href, ⟨row, current, hrow, -, -⟩, -⟩
  refine ⟨trivial, fun _ other hother => ?_⟩
  cases href.symm.trans hother
  rw [Database.hasUnit_withStatus, Database.hasUnit_eq_isSome_unit?, hrow, Option.isSome_some]

theorem storeBrings_backed {r : Repository} {h : Handle} (hstores : h.StoresRow r) :
    h.StoreBrings (.bringing fun db copy => copy.Backed db) r := by
  intro r' h' hstore
  refine ⟨trivial, fun _ unit href => ?_⟩
  obtain ⟨other, row, href', hrow, -⟩ := hstores r' h' hstore
  cases href.symm.trans href'
  rw [Database.hasUnit_eq_isSome_unit?, hrow, Option.isSome_some]

/-- In a grounded event no copy of a unit without a row comes into the cache. -/
theorem Event.IsGrounded.answersFor {event : Event} (hgrounded : event.IsGrounded s)
    (hnumbered : s.repository.database.Numbered) :
    event.AnswersFor (.bringing fun db copy => copy.Backed db) s := by
  cases event with
  | circumstances contention now => trivial
  | perform operation =>
    cases operation with
    | store name =>
      exact fun h hfind =>
        storeBrings_backed ((Handle.storesRow_iff hnumbered).2 (hgrounded h hfind))
    | request name status => exact fun h _ => requestBrings_backed _ _
    | activate name => exact fun h _ => requestBrings_backed _ _
    | inactivate name => exact fun h _ _ => requestBrings_backed _ _
    | delete name => exact fun h _ => requestBrings_backed _ _
    | cacheStore name => exact hgrounded
    | unlock name => exact fun _ _ _ _ => trivial
    | _ => trivial

/-- An event is grounded if its stores leave rows, and only stored units are answered after it. -/
theorem isGrounded_of_final {event : Event} (hnumbered : s.repository.database.Numbered)
    (hstores : event.StoresRow s) (hanswers : (s.after event).repository.AnswersStored) :
    event.IsGrounded s := by
  cases event with
  | circumstances contention now => trivial
  | perform operation =>
    cases operation with
    | store name => exact fun h hfind => (Handle.storesRow_iff hnumbered).1 (hstores h hfind)
    | cacheStore name =>
      intro h hfind hadmits
      have hafter : (s.perform (.cacheStore name)).2.repository =
          { s.repository with cache := s.repository.cache.store h } := by
        simp only [Session.perform, Session.withHandle, hfind]
        rfl
      rw [Session.after, hafter] at hanswers
      exact hanswers.backed_of_admits hadmits
    | _ => trivial

/-! ## Whole sessions -/

/-- The cache has copies of stored units alone. -/
theorem invariant_cachesStored : Invariant (.bringing fun db copy => copy.Backed db)
    fun r => r.database.Numbered ∧ r.CachesStored where
  move := fun _ _ hr hmove => ⟨hmove.numbered hr.1, hmove.cachesStored hr.1 hr.2⟩
  circumstances := fun _ _ _ hr => hr

/-- A number that was given out stays so. -/
theorem invariant_issued (unit : UnitRef) : Invariant .all
    fun r => r.database.Numbered ∧ unit.id ≤ r.database.lastUnit where
  move := fun _ _ hr hmove => ⟨hmove.numbered hr.1, Int.le_trans hr.2 (hmove.hasUnit_of_issued hr.1).1⟩
  circumstances := fun _ _ _ hr => hr

/-- A unit whose number was given out, and that has no row, goes on without one. -/
theorem invariant_gone (unit : UnitRef) : Invariant .all
    fun r => (r.database.Numbered ∧ unit.id ≤ r.database.lastUnit) ∧ ¬r.database.hasUnit unit = true where
  move := fun _ _ hr hmove =>
    ⟨(invariant_issued unit).move _ _ hr.1 hmove,
      fun hunit => hr.2 ((hmove.hasUnit_of_issued hr.1.1).2 unit hr.1.2 hunit)⟩
  circumstances := fun _ _ _ hr => hr

theorem afterAll_append (s : Session) (first rest : List Event) :
    s.afterAll (first ++ rest) = (s.afterAll first).afterAll rest :=
  List.foldl_append

/-- Once a unit is gone it stays gone. -/
theorem hasUnit_afterAll_of_gone (hnumbered : s.repository.database.Numbered) {unit : UnitRef}
    (hthere : s.repository.database.hasUnit unit = true) {between : List Event}
    (hgone : (s.afterAll between).repository.database.hasUnit unit = false) (later : List Event) :
    (s.afterAll (between ++ later)).repository.database.hasUnit unit = false := by
  obtain ⟨row, hrow, rfl⟩ := Database.hasUnit_iff.1 hthere
  have hissued := (invariant_issued row.unit).always ⟨hnumbered, hnumbered.unitsIssued row hrow⟩ between
  have hafter := (invariant_gone row.unit).always ⟨hissued, Bool.eq_false_iff.1 hgone⟩ later
  rw [afterAll_append]
  exact Bool.eq_false_iff.2 hafter.2

/-- **What is gone is gone for good.** A unit that is not stored any more is never stored again; and every
store that succeeds leaves the row of its unit, under its new name if it has one, and only stored units
are answered at any moment of a session, exactly when no handle of a unit that is gone is stored or put
into the cache. -/
theorem final_iff_grounded {settings : Settings} {db : Database} {now : DateTime} {serial : Nat}
    (hnumbered : db.Numbered) {events : List Event} :
    let start := ofRepository (.open settings db now serial)
    (∀ earlier between later unit,
        (start.afterAll earlier).repository.database.hasUnit unit = true →
        (start.afterAll (earlier ++ between)).repository.database.hasUnit unit = false →
        (start.afterAll (earlier ++ (between ++ later))).repository.database.hasUnit unit = false) ∧
      (((∀ done event, done ++ [event] <+: events → event.StoresRow (start.afterAll done)) ∧
          ∀ done, done <+: events → (start.afterAll done).repository.AnswersStored) ↔
        ∀ done event, done ++ [event] <+: events → event.IsGrounded (start.afterAll done)) := by
  intro start
  have hnumbers : ∀ done, (start.afterAll done).repository.database.Numbered :=
    invariant_numbered.always hnumbered
  refine ⟨fun earlier between later unit hthere hgone => ?_, fun ⟨hstores, hanswers⟩ => ?_,
    fun hgrounded => ⟨?_, fun done hdone => ?_⟩⟩
  · rw [afterAll_append] at hgone ⊢
    exact hasUnit_afterAll_of_gone (hnumbers earlier) hthere hgone later
  · intro done event hdone
    refine isGrounded_of_final (hnumbers done) (hstores done event hdone) ?_
    rw [← afterAll_append_single]
    exact hanswers _ hdone
  · intro done event hdone
    cases event with
    | circumstances contention now => trivial
    | perform operation =>
      cases operation with
      | store name =>
        exact fun h hfind =>
          (Handle.storesRow_iff (hnumbers done)).2 (hgrounded done _ hdone h hfind)
      | _ => trivial
  · have hkept := invariant_cachesStored.afterAll (s := start) ⟨hnumbered, Cache.all_empty _⟩ done
      fun before event hbefore =>
        (hgrounded before event (hbefore.trans hdone)).answersFor (hnumbers before)
    exact hkept.2.answersStored

/-- A unit is stored and deleted. -/
def deletedUnit : List Event :=
  storedUnit ++ [.perform (.delete "a")]

/-- Then it is disposed of. -/
def disposedUnit : List Event :=
  deletedUnit ++ [.perform (.dispose 1)]

/-- Disposal takes that unit and does nothing else. -/
theorem afterAll_disposedUnit :
    fresh.afterAll disposedUnit =
      { fresh.afterAll deletedUnit with
        repository := (fresh.afterAll deletedUnit).repository.without [⟨1, 1⟩] } := by
  have hreading : (fresh.afterAll deletedUnit).repository.contention.allowsReading = true := by
    decide +kernel
  have htakes : (fresh.afterAll deletedUnit).repository.takes ⟨1, 1⟩ = true := by decide +kernel
  have hrows : ((fresh.afterAll deletedUnit).repository.database.units.filter fun row =>
      row.unit.tenant == 1 && row.status == Status.pendingDisposition.code).map (·.unit) =
        [⟨1, 1⟩] := by decide +kernel
  have hnumbered : (fresh.afterAll deletedUnit).repository.database.Numbered :=
    invariant_numbered.always (.blank _) _
  rw [disposedUnit, afterAll_append_single]
  generalize fresh.afterAll deletedUnit = s at *
  have hwaiting : s.repository.database.waiting (Int32.toInt 1) = [⟨1, 1⟩] := by
    obtain ⟨row, rest, hfilter, hunit, hrest⟩ := List.map_eq_cons_iff.1 hrows
    cases List.map_eq_nil_iff.1 hrest
    unfold Database.waiting
    rw [show (Int32.toInt 1) = 1 from rfl, hfilter, List.mergeSort_singleton, List.map_singleton, hunit]
  have hdispose := (Repository.dispose_apply hreading hnumbered.unitsDistinct 1).1
  rw [hwaiting, List.filter_cons_of_pos htakes, List.filter_nil] at hdispose
  show (s.consulting (Repository.dispose 1) .count).2 = _
  unfold Session.consulting
  rw [snd_answered]
  unfold Session.consult
  rw [hdispose]

/-- All of that is grounded, so nothing answers the unit afterwards. -/
theorem disposedUnit_final :
    Database.empty.Numbered ∧
      (fresh.afterAll disposedUnit).repository.database.hasUnit ⟨1, 1⟩ = false ∧
      ∀ done, done <+: disposedUnit → (fresh.afterAll done).repository.AnswersStored := by
  refine ⟨.blank _, ?_, ((final_iff_grounded (.blank _)).2.2 ?_).2⟩
  · rw [afterAll_disposedUnit]
    decide +kernel
  · intro done event hdone
    match done, hdone with
    | [], hdone =>
      obtain ⟨rfl, -⟩ := List.cons_prefix_cons.1 hdone
      trivial
    | [first], hdone =>
      obtain ⟨rfl, hrest⟩ := List.cons_prefix_cons.1 hdone
      obtain ⟨rfl, -⟩ := List.cons_prefix_cons.1 hrest
      intro h hfind _
      cases hfind
      exact Handle.backed_of_new rfl
    | first :: second :: rest, hdone =>
      obtain ⟨-, hrest⟩ := List.cons_prefix_cons.1 hdone
      obtain ⟨-, hrest⟩ := List.cons_prefix_cons.1 hrest
      have hmem : event ∈ [.perform (.delete "a"), .perform (.dispose 1)] :=
        hrest.subset (List.mem_append_right _ List.mem_cons_self)
      simp only [List.mem_cons, List.not_mem_nil, or_false] at hmem
      rcases hmem with rfl | rfl
      · trivial
      · trivial

/-- The handle that deleted the unit is stored once more. -/
def staleStore : List Event :=
  disposedUnit ++ [.perform (.store "a")]

/-- The store succeeds without a row, and the unit is answered though it is not stored. -/
theorem staleStore_not_final :
    ¬(∀ done event, done ++ [event] <+: staleStore → event.StoresRow (fresh.afterAll done)) ∧
      ¬∀ done, done <+: staleStore → (fresh.afterAll done).repository.AnswersStored := by
  have hnumbered : (fresh.afterAll disposedUnit).repository.database.Numbered :=
    invariant_numbered.always (.blank _) _
  constructor
  · intro hstores
    have hlast := hstores disposedUnit (.perform (.store "a")) List.prefix_rfl
    have hfound : ((fresh.afterAll disposedUnit).handle? "a").map (fun h =>
        ((Handle.store ((fresh.afterAll disposedUnit).repository, h)).1.isOk, h.ref?)) =
          some (true, some ⟨1, 1⟩) := by
      rw [afterAll_disposedUnit]
      decide +kernel
    have hgone : (fresh.afterAll disposedUnit).repository.database.hasUnit ⟨1, 1⟩ = false := by
      rw [afterAll_disposedUnit]
      decide +kernel
    generalize fresh.afterAll disposedUnit = s at *
    obtain ⟨h, hfind, hstored⟩ := Option.map_eq_some_iff.1 hfound
    obtain ⟨hok, href⟩ := Prod.mk.inj hstored
    have hsucceeds : (Handle.store (s.repository, h)).1 = .ok () := by
      cases hout : (Handle.store (s.repository, h)).1 with
      | ok u => rfl
      | error fault =>
        rw [hout] at hok
        cases hok
    have hbacked := (Handle.storesRow_iff hnumbered).1 (hlast h hfind) hsucceeds
    rw [hbacked _ href] at hgone
    cases hgone
  · intro hanswers
    have hlast := hanswers staleStore List.prefix_rfl
    have hcached : ((fresh.afterAll staleStore).repository.cache.lookup
        (⟨1, 1⟩ : UnitRef).text).1.isSome = true := by
      rw [staleStore, afterAll_append_single, afterAll_disposedUnit]
      decide +kernel
    have hgone : (fresh.afterAll staleStore).repository.database.hasUnit ⟨1, 1⟩ = false := by
      rw [staleStore, afterAll_append_single, afterAll_disposedUnit]
      decide +kernel
    generalize fresh.afterAll staleStore = s at *
    obtain ⟨copy, hcopy⟩ := Option.isSome_iff_exists.1 hcached
    rw [hlast _ _ _ (Repository.unit_of_cached hcopy)] at hgone
    cases hgone

end Session

end MetadataStore
