import MetadataStore.Proofs.Query.Lowering
import MetadataStore.Proofs.Query.Prepared
import MetadataStore.Proofs.Query.Refusal
import MetadataStore.Proofs.Repository.Lookup

/-!
# `Proofs.Query.Selection` — what a search hits

A search without page selects the units, in its order, of which its condition is true; and a condition
means what its tree means. The units that it hands out are looked up one by one afterwards, from the cache
or from the database, and are as many as were selected. All of this needs a statement that the engine can
read: where a text operand holds a null character, the search fails.

## Contents
- `Expression.truth_dialect`: the meaning of a tree does not depend on the dialect, nor does whether it can
  be made a condition.
- `Statement.run_unpaged`, `Repository.resolve_eq_ok`; `Repository.Hits`, `exists_hits`: what a search without
  page hits.
- `Unread`, `search_of_null`: a search for a null character fails.
- `search_selects_units_of_true`: a search hits exactly the units of which its tree is true, with a unit that is
  not found.
-/

namespace MetadataStore

/-! ## Meaning and dialect -/

namespace Query

variable {dialect : Dialect}

/-- Whether a tree makes a condition is no matter of dialect. -/
theorem Condition.exists_ofExpression_dialect (other : Dialect) {e : Expression}
    {condition : Condition} (h : ofExpression dialect e = .ok condition) :
    ∃ condition', ofExpression other e = .ok condition' :=
  exists_ofExpression_of_items other rfl h

theorem Statement.ofSearch_some {e : Expression} {condition : Condition}
    (h : Condition.ofExpression dialect e = .ok condition) (order : SearchOrder) (paging : Paging) :
    ofSearch dialect ⟨some e, order, paging⟩ = .ok ⟨some condition, order, paging⟩ := by
  simp only [ofSearch, h]

end Query

theorem Item.truth_dialect (dialect other : Query.Dialect) (db : Database) (row : UnitRow)
    (item : Item) : item.truth dialect db row = item.truth other db row := by
  cases item <;> simp only [truth, Query.Comparison.ofOperand_dialect dialect other]

/-- The plain meaning of a tree is no matter of dialect. -/
theorem Expression.truth_dialect (dialect other : Query.Dialect) (db : Database) (row : UnitRow)
    (e : Expression) : e.truth dialect db row = e.truth other db row := by
  induction e with
  | leaf item => exact item.truth_dialect dialect other db row
  | not inner ih => simp only [truth, ih]
  | and left right ihl ihr => simp only [truth, ihl, ihr]
  | or left right ihl ihr => simp only [truth, ihl, ihr]

/-! ## Rows and units -/

/-- Without a page a statement selects each unit of which its condition is true, in some order. -/
theorem Query.Statement.run_unpaged (db : Database) (condition : Query.Condition) (order : SearchOrder) :
    (Query.Statement.run db ⟨some condition, order, .none⟩).Perm
      ((db.units.filter fun row => (condition.truth db row).holds).map (·.unit)) := by
  unfold Query.Statement.run
  rw [Paging.slice_none]
  exact (List.mergeSort_perm _ _).map _

theorem Paging.mem_of_mem_slice {α : Type} {paging : Paging} {rows : List α} {a : α}
    (h : a ∈ paging.slice rows) : a ∈ rows := by
  unfold Paging.slice at h
  dsimp only at h
  split at h
  · split at h
    · exact List.mem_of_mem_drop (List.mem_of_mem_take h)
    · exact List.mem_of_mem_drop h
  · split at h
    · exact List.mem_of_mem_take h
    · exact h

/-- A statement selects stored units. -/
theorem Query.Statement.mem_units_of_mem_run {db : Database} {statement : Query.Statement} {unit : UnitRef}
    (h : unit ∈ statement.run db) : ∃ row ∈ db.units, row.unit = unit := by
  unfold Query.Statement.run at h
  obtain ⟨row, hrow, rfl⟩ := List.mem_map.1 (Paging.mem_of_mem_slice h)
  exact ⟨row, (List.mem_filter.1 ((List.mergeSort_perm _ _).mem_iff.1 hrow)).1, rfl⟩

namespace Repository

variable {r r' : Repository}

/-- A search whose statement can be read selects what that selects from the database. -/
theorem matching_of_nullFree {search : Search} {statement : Query.Statement}
    (hstatement : Query.Statement.ofSearch .sqlite search = .ok statement) (hnull : search.NullFree) :
    matching search r = read (fun db => statement.run db) r := by
  unfold matching
  rw [hstatement, Action.bind_apply, Action.ofResult_apply]
  dsimp only
  rw [Query.Statement.prepare_ofSearch hstatement hnull]
  rfl

/-- A search for a null character fails, and changes nothing. -/
theorem matching_of_null {search : Search} {statement : Query.Statement}
    (hstatement : Query.Statement.ofSearch .sqlite search = .ok statement) (hnull : ¬search.NullFree) :
    matching search r =
      (.error (.read (Query.unclosed (Query.Piece.text (statement.pieces .sqlite)))), r) := by
  unfold matching
  rw [hstatement, Action.bind_apply, Action.ofResult_apply]
  dsimp only
  rw [Query.prepare_of_null ((Query.Statement.null_mem_text hstatement).2 hnull)]
  rfl

theorem matching_eq_ok {search : Search} {units : List UnitRef} :
    matching search r = (.ok units, r') ↔
      ∃ statement, Query.Statement.ofSearch .sqlite search = .ok statement ∧ search.NullFree ∧
        r.contention.allowsReading = true ∧ units = statement.run r.database ∧ r' = r := by
  constructor
  · intro h
    obtain ⟨statement, t, hmade, -⟩ := Action.bind_eq_ok.1 h
    simp only [Action.ofResult_apply, Prod.mk.injEq] at hmade
    by_cases hnull : search.NullFree
    · rw [matching_of_nullFree hmade.1 hnull, read_eq_ok] at h
      obtain ⟨hread, rfl, rfl⟩ := h
      exact ⟨statement, hmade.1, hnull, hread, rfl, rfl⟩
    · rw [matching_of_null hmade.1 hnull] at h
      cases h
  · rintro ⟨statement, hstatement, hnull, hread, rfl, rfl⟩
    rw [matching_of_nullFree hstatement hnull, read_eq_ok]
    exact ⟨hread, rfl, rfl⟩

/-- The units of a list that are all stored are handed out one for one. -/
theorem resolve_eq_ok {units : List UnitRef} {found : List Handle} (hkeyed : r.cache.Keyed)
    (hstored : ∀ unit ∈ units, r.database.hasUnit unit = true)
    (h : resolve units r = (.ok found, r')) : found.map Handle.ref? = units.map some := by
  obtain ⟨answers, t, hcollect, hdone⟩ := Action.bind_eq_ok.1 h
  simp only [Action.pure_apply, Prod.mk.injEq, Except.ok.injEq] at hdone
  obtain ⟨rfl, -⟩ := hdone
  -- the cache changes on the way, but keeps its keys; the database does not change
  have hstep : ∀ unit ∈ units, ∀ s answer s',
      (s.cache.Keyed ∧ s.database = r.database) → Repository.unit unit s = (.ok answer, s') →
        (s'.cache.Keyed ∧ s'.database = r.database) ∧
          ∃ copy, answer = some copy ∧ copy.ref? = some unit := by
    rintro unit hmem s answer s' ⟨hs, hdb⟩ hunit
    cases answer with
    | none =>
      obtain ⟨-, hnone, -⟩ := unit_eq_ok_none hunit
      have := hstored unit hmem
      rw [Database.hasUnit_eq_isSome_unit?, ← hdb, hnone] at this
      cases this
    | some copy =>
      obtain ⟨href, hkeyed', hdb', -⟩ := ref?_of_unit hs hunit
      exact ⟨⟨hkeyed', hdb'.trans hdb⟩, copy, rfl, href⟩
  obtain ⟨-, hall⟩ := Action.forall₂_of_collect _ _ hstep ⟨hkeyed, rfl⟩ hcollect
  clear hcollect h hstored hstep
  induction hall with
  | nil => rfl
  | cons hhead _ ih =>
    obtain ⟨copy, rfl, href⟩ := hhead
    rw [List.filterMap_cons, List.map_cons, ← ih, ← href]
    rfl

/-- Stored units whose rows can be read are handed out. -/
theorem exists_resolve_eq_ok {units : List UnitRef} (hread : r.contention.allowsReading = true)
    (hrows : ∀ unit ∈ units, ∃ row made,
      r.database.unit? unit = some row ∧ Handle.ofRow row = .ok made) :
    ∃ found r', resolve units r = (.ok found, r') := by
  -- looking one unit up changes the cache alone, so the next can be looked up as well
  have hstep : ∀ unit ∈ units, ∀ s : Repository,
      (s.database = r.database ∧ s.contention = r.contention) →
        ∃ answer s', Repository.unit unit s = (.ok answer, s') ∧
          (s'.database = r.database ∧ s'.contention = r.contention) := by
    rintro unit hmem s ⟨hdb, hcontention⟩
    obtain ⟨row, made, hrow, hmake⟩ := hrows unit hmem
    obtain ⟨copy, s', hunit⟩ := exists_unit_eq_ok (hcontention ▸ hread) (hdb ▸ hrow) hmake
    refine ⟨some copy, s', hunit, ?_⟩
    rcases unit_eq_ok_some hunit with ⟨-, rfl⟩ | ⟨-, -, -, -, -, rfl⟩
    · exact ⟨hdb, hcontention⟩
    · exact ⟨hdb, hcontention⟩
  obtain ⟨answers, t, hcollect⟩ := Action.exists_collect_eq_ok _ hstep ⟨rfl, rfl⟩
  exact ⟨answers.filterMap id, t, Action.bind_eq_ok.2 ⟨answers, t, hcollect, rfl⟩⟩

/-! ## Searches -/

/-- A search hits these units: what it hands out are they, as many as are counted, and while the database can
be read and so can their rows, they are handed out. -/
structure Hits (r : Repository) (search : Search) (hits : List UnitRef) : Prop where
  handed : ∀ count units r', Repository.search search r = (.ok (count, units), r') →
    count = units.length ∧ units.map Handle.ref? = hits.map some
  returns : r.contention.allowsReading = true →
    (∀ row ∈ r.database.units, row.unit ∈ hits → ∃ made, Handle.ofRow row = .ok made) →
    ∃ count units r', Repository.search search r = (.ok (count, units), r')

/-- A search whose statement can be read hits the units that it selects. -/
theorem hits_run {search : Search} {statement : Query.Statement} (hunits : r.database.UnitsDistinct)
    (hcache : r.cache.Keyed) (hstatement : Query.Statement.ofSearch .sqlite search = .ok statement)
    (hnull : search.NullFree) :
    r.Hits search (statement.run r.database) where
  handed := by
    intro count units r' h
    obtain ⟨hits, t, hhits, hrest⟩ := Action.bind_eq_ok.1 h
    obtain ⟨found, t', hfound, hdone⟩ := Action.bind_eq_ok.1 hrest
    cases hdone
    obtain ⟨statement', hstatement', -, -, rfl, rfl⟩ := matching_eq_ok.1 hhits
    cases hstatement.symm.trans hstatement'
    have hrefs := resolve_eq_ok hcache (fun unit hmem => by
      obtain ⟨row, hrow, rfl⟩ := Query.Statement.mem_units_of_mem_run hmem
      exact Database.hasUnit_of_mem hrow) hfound
    refine ⟨?_, hrefs⟩
    simpa using (congrArg List.length hrefs).symm
  returns := by
    intro hread hreadable
    have hhits : matching search r = (.ok (statement.run r.database), r) :=
      matching_eq_ok.2 ⟨statement, hstatement, hnull, hread, rfl, rfl⟩
    have hrows : ∀ unit ∈ statement.run r.database, ∃ row made,
        r.database.unit? unit = some row ∧ Handle.ofRow row = .ok made := by
      intro unit hmem
      obtain ⟨row, hrow, rfl⟩ := Query.Statement.mem_units_of_mem_run hmem
      obtain ⟨made, hmake⟩ := hreadable row hrow hmem
      exact ⟨row, made, hunits.unit?_of_mem hrow, hmake⟩
    obtain ⟨found, r', hfound⟩ := exists_resolve_eq_ok hread hrows
    refine ⟨(statement.run r.database).length, found, r', ?_⟩
    exact Action.bind_eq_ok.2 ⟨_, r, hhits, Action.bind_eq_ok.2 ⟨found, r', hfound, rfl⟩⟩

/-- **A search for a null character fails**, and changes nothing: the engine does not read its text to the
end. -/
theorem search_of_null {search : Search} {text : String}
    (hcompile : Query.compile .sqlite search = .ok text) (hnull : ¬search.NullFree) :
    Repository.search search r = (.error (.read (Query.unclosed text)), r) := by
  obtain ⟨statement, hstatement, rfl⟩ := Query.compile_eq_ok.1 hcompile
  unfold Repository.search
  rw [Action.bind_apply, matching_of_null hstatement hnull]

/-- A search can be written down, but the engine does not read its text to the end: it fails, and changes
nothing. -/
def Unread (r : Repository) (search : Search) : Prop :=
  ∃ text, Query.compile .sqlite search = .ok text ∧
    Repository.search search r = (.error (.read (Query.unclosed text)), r)

theorem unread_of_null {search : Search} {statement : Query.Statement}
    (hstatement : Query.Statement.ofSearch .sqlite search = .ok statement) (hnull : ¬search.NullFree) :
    r.Unread search :=
  have hcompile := Query.compile_eq_ok.2 ⟨statement, hstatement, rfl⟩
  ⟨_, hcompile, search_of_null hcompile hnull⟩

theorem unread_of_condition {e : Expression} {condition : Query.Condition}
    (hcondition : Query.Condition.ofExpression .sqlite e = .ok condition) (hnull : ¬e.NullFree)
    (order : SearchOrder) (paging : Paging) : r.Unread ⟨some e, order, paging⟩ :=
  unread_of_null (Query.Statement.ofSearch_some hcondition order paging)
    fun h => hnull ((Search.nullFree_some e order paging).1 h)

/-- Without a page a search hits each unit once of which its tree is true. -/
theorem exists_hits {e : Expression} {condition : Query.Condition} (hunits : r.database.UnitsDistinct)
    (hcache : r.cache.Keyed) (hcondition : Query.Condition.ofExpression .sqlite e = .ok condition)
    (hnull : e.NullFree) (order : SearchOrder) :
    ∃ hits : List UnitRef, r.Hits ⟨some e, order, .none⟩ hits ∧ hits.Nodup ∧
      ∀ unit, unit ∈ hits ↔
        ∃ row ∈ r.database.units, row.unit = unit ∧ e.truth .sqlite r.database row = .ok .yes := by
  have hstatement := Query.Statement.ofSearch_some hcondition order .none
  have hperm := Query.Statement.run_unpaged r.database condition order
  have hmeaning : ∀ row ∈ r.database.units,
      e.truth .sqlite r.database row = .ok (condition.truth r.database row) := fun row hrow =>
    Query.Condition.truth_of_ofExpression hrow hcondition
  refine ⟨_, hits_run hunits hcache hstatement ((Search.nullFree_some e order .none).2 hnull), ?_,
    fun unit => ?_⟩
  · exact hperm.nodup_iff.2 (hunits.sublist (List.filter_sublist.map _))
  · rw [hperm.mem_iff]
    simp only [List.mem_map, List.mem_filter, Truth.holds, beq_iff_eq]
    constructor
    · rintro ⟨row, ⟨hrow, htrue⟩, rfl⟩
      exact ⟨row, hrow, rfl, by rw [hmeaning row hrow, htrue]⟩
    · rintro ⟨row, hrow, rfl, htrue⟩
      rw [hmeaning row hrow] at htrue
      exact ⟨row, ⟨hrow, Except.ok.inj htrue⟩, rfl⟩

/-- A search can be written down only if its tree makes a condition. -/
theorem exists_condition_of_compile {dialect : Query.Dialect} {e : Expression}
    (h : (Query.compile dialect ⟨some e, [], .none⟩).isOk = true) :
    ∃ condition, Query.Condition.ofExpression dialect e = .ok condition := by
  cases hcondition : Query.Condition.ofExpression dialect e with
  | ok condition => exact ⟨condition, rfl⟩
  | error fault =>
    simp only [Query.compile, Query.Statement.ofSearch, hcondition] at h
    cases h

/-- **A search hits exactly the units of which its tree is true, each of them once**, if none of its texts holds
a null character. The tree is read leaf by leaf, in three values, a double being the one that the engine reads
for it; the condition that either dialect makes of it has for every stored unit the same one. What is handed
out are the units that were hit, as many as were counted, and while the database can be read and so can the
rows that were hit, they are handed out. A search for a null character fails. -/
theorem search_selects_units_of_true {e : Expression} {dialect : Query.Dialect}
    (hunits : r.database.UnitsDistinct) (hcache : r.cache.Keyed)
    (hcompile : (Query.compile dialect ⟨some e, [], .none⟩).isOk = true) :
    (e.NullFree → ∃ hits : List UnitRef,
      hits.Nodup ∧
      (∀ unit, unit ∈ hits ↔
        ∃ row ∈ r.database.units, row.unit = unit ∧ e.truth .sqlite r.database row = .ok .yes) ∧
      (∀ count units r', search ⟨some e, [], .none⟩ r = (.ok (count, units), r') →
        count = units.length ∧ units.map Handle.ref? = hits.map some) ∧
      (r.contention.allowsReading = true →
        (∀ row ∈ r.database.units, row.unit ∈ hits → ∃ made, Handle.ofRow row = .ok made) →
        ∃ count units r', search ⟨some e, [], .none⟩ r = (.ok (count, units), r'))) ∧
      (∀ other, ∃ condition, Query.Condition.ofExpression other e = .ok condition ∧
        ∀ row ∈ r.database.units,
          e.truth .sqlite r.database row = .ok (condition.truth r.database row)) ∧
      (¬e.NullFree → r.Unread ⟨some e, [], .none⟩) := by
  obtain ⟨_, hmade⟩ := exists_condition_of_compile hcompile
  obtain ⟨condition, hcondition⟩ := Query.Condition.exists_ofExpression_dialect .sqlite hmade
  refine ⟨fun hnull => ?_, fun other => ?_, fun hnull => ?_⟩
  · obtain ⟨hits, hhits, hdistinct, hmem⟩ := exists_hits hunits hcache hcondition hnull []
    exact ⟨hits, hdistinct, hmem, hhits.handed, hhits.returns⟩
  · obtain ⟨condition', hcondition'⟩ := Query.Condition.exists_ofExpression_dialect other hmade
    refine ⟨condition', hcondition', fun row hrow => ?_⟩
    rw [Expression.truth_dialect .sqlite other]
    exact Query.Condition.truth_of_ofExpression hrow hcondition'
  · exact unread_of_condition hcondition hnull [] .none

/-! ## A sample -/

/-- Two units, the second without a name. The first has two values, one of two elements. -/
def sampleUnits : Database :=
  { Database.empty with
    units :=
      [⟨⟨1, 1⟩, "first", some "Alpha", 30, "2024-05-01 08:00:00.000"⟩,
        ⟨⟨1, 2⟩, "second", none, 30, "2024-05-02 08:00:00.000"⟩]
    attributes := [⟨1, "weight", 4, false⟩, ⟨2, "height", 4, false⟩]
    mappings := [⟨⟨1, 1⟩, 1, 1⟩, ⟨⟨1, 1⟩, 2, 2⟩, ⟨⟨1, 2⟩, 1, 3⟩]
    elements :=
      [⟨.long, 1, 0, .integer 5⟩, ⟨.long, 1, 1, .integer 7⟩, ⟨.long, 2, 0, .integer 9⟩,
        ⟨.long, 3, 0, .integer 5⟩]
    lastUnit := 2
    lastAttribute := 2
    lastValue := 3 }

/-- A conjunction of attributes among others, under a negation and in a disjunction. -/
def sampleTree : Expression :=
  .and (.leaf (.element 1 .geq (.long 5) false))
    (.or (.not (.and (.leaf (.name .eq "beta")) (.leaf (.element 1 .geq (.long 5) false))))
      (.and (.leaf (.element 1 .gt (.long 5) false)) (.leaf (.element 2 .gt (.long 5) false))))

/-- A repository on the two units. -/
def sample (now : DateTime) : Repository :=
  .open .inMemory sampleUnits now 0

/-- The first unit is hit once, though two of its elements match; of the second, which has no name, the
tree is unknown. -/
theorem search_sampleTree :
    ∃ count units r', search ⟨some sampleTree, [], .none⟩ (sample .epoch) = (.ok (count, units), r') ∧
      count = units.length ∧ (units.map Handle.ref?).Nodup ∧
      some ⟨1, 1⟩ ∈ units.map Handle.ref? ∧ some ⟨1, 2⟩ ∉ units.map Handle.ref? := by
  have hunits : (sample .epoch).database.UnitsDistinct := by
    unfold Database.UnitsDistinct
    decide
  have hcompile : (Query.compile .postgresql ⟨some sampleTree, [], .none⟩).isOk = true := rfl
  obtain ⟨hselects, -⟩ :=
    search_selects_units_of_true (r := sample .epoch) hunits (Cache.all_empty _) hcompile
  obtain ⟨hits, hdistinct, hmem, hhanded, hreturns⟩ := hselects (by decide)
  have hreadable : ∀ row ∈ sampleUnits.units, (Handle.ofRow row).isOk = true := by decide +kernel
  obtain ⟨count, units, r', hsearch⟩ := hreturns rfl fun row hrow _ => by
    have hok := hreadable row hrow
    cases hmake : Handle.ofRow row with
    | ok made => exact ⟨made, rfl⟩
    | error fault =>
      rw [hmake] at hok
      cases hok
  obtain ⟨hcount, hrefs⟩ := hhanded count units r' hsearch
  refine ⟨count, units, r', hsearch, hcount, ?_, ?_, ?_⟩
  · rw [hrefs]
    exact List.Pairwise.map some (fun a b hne heq => hne (Option.some.inj heq)) hdistinct
  · rw [hrefs]
    exact List.mem_map_of_mem ((hmem _).2 ⟨_, List.mem_cons_self, rfl, rfl⟩)
  · rw [hrefs]
    intro h
    obtain ⟨unit, hunit, heq⟩ := List.mem_map.1 h
    cases heq
    obtain ⟨row, hrow, heq, htrue⟩ := (hmem _).1 hunit
    have hunknown : ∀ row ∈ sampleUnits.units, row.unit = ⟨1, 2⟩ →
        sampleTree.truth .sqlite sampleUnits row = .ok .unknown := by decide +kernel
    cases (hunknown row hrow heq).symm.trans htrue

/-- A unit whose name holds a null character. -/
def nullNamed : Repository :=
  .open .inMemory
    { Database.empty with
      units := [⟨⟨1, 1⟩, "first", some "a\x00b", 30, "2024-05-01 08:00:00.000"⟩]
      lastUnit := 1 }
    .epoch 0

/-- It is not found by its name, though that is the same: the engine reports the quote in front of it. -/
theorem nullNamed_not_found :
    let e := Expression.leaf (.name .eq "a\x00b")
    let text := "SELECT ut.tenantid, ut.unitid FROM repo_unit ut WHERE LOWER(ut.name) = 'a\x00b'"
    Query.compile .sqlite ⟨some e, [], .none⟩ = .ok text ∧
      (∀ row ∈ nullNamed.database.units, e.truth .sqlite nullNamed.database row = .ok .yes) ∧
      search ⟨some e, [], .none⟩ nullNamed = (.error (.read (.unrecognized "'a" text 71)), nullNamed) := by
  intro e text
  have hcompile : Query.compile .sqlite ⟨some e, [], .none⟩ = .ok text := by decide +kernel
  have htoken : Query.unclosed text = .unrecognized "'a" text 71 := by decide +kernel
  refine ⟨hcompile, by decide +kernel, ?_⟩
  rw [← htoken]
  exact search_of_null hcompile (by decide)

end Repository

end MetadataStore
