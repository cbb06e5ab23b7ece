import MetadataStore.Proofs.Query.Negation
import MetadataStore.Proofs.Query.Paging
import MetadataStore.Proofs.Session.Disposal
import MetadataStore.Proofs.Session.Lifecycle

/-!
# `Proofs.Session.Searches` — searches wherever a session comes to

A tree and its negation hit no unit both, and together they hit every unit of which the tree is not
unknown. As only a missing name makes something unknown, that is every unit with a name, and every unit
if the tree has no constraint on the name. This is about the units and not about their order, which the
engine chooses where a search leaves it a choice. It leaves none if its order has the numbers of units,
as no two units have one number.

## Contents
- `Session.Reachable.keyed`.
- `Session.Reachable.answers_iff`: engines have one answer to a search in the order of numbers.
- `Session.search_not_complementary`, with the unit that neither hits.
-/

namespace MetadataStore.Session

variable {s : Session}

/-! ## States that can be reached -/

/-- What others do bears on no key of the cache; a repository that is opened again has an empty one. -/
theorem keyed_intervene (hs : s.repository.cache.Keyed) (intervention : Intervention) :
    (s.intervene intervention).2.repository.cache.Keyed := by
  have hchanging : ∀ {α : Type} (change : Change α) (make : α → Answer),
      (s.changing change make).2.repository.cache.Keyed := by
    intro α change make
    unfold changing
    rw [repository_consulting, Repository.write_apply]
    split
    · exact hs
    · exact hs
  have hunit : ∀ {α : Type} (target : Target) (change : UnitRef → Change α) (make : α → Answer),
      (s.changingUnit target change make).2.repository.cache.Keyed := by
    intro α target change make
    unfold changingUnit
    split
    · exact hchanging _ _
    · exact hs
  cases intervention with
  | setStatus target code => exact hunit _ _ _
  | setCreated target created => exact hunit _ _ _
  | setName target name => exact hunit _ _ _
  | setCorrelation target correlation => exact hunit _ _ _
  | addDefinition name kindCode scalar => exact hchanging _ _
  | setKind id kindCode => exact hchanging _ _
  | addLock target purpose kindCode taken expire => exact hunit _ _ _
  | contend contention => exact hs
  | reopen =>
    simp only [Session.intervene]
    rw [repository_consulting]
    unfold Repository.reopen
    split
    · exact Cache.all_empty _
    · split
      · exact Cache.all_empty _
      · exact hs

/-- Every cached copy stands under its own key, wherever a session comes to. -/
theorem Reachable.keyed (hs : s.Reachable) : s.repository.cache.Keyed := by
  induction hs with
  | connect settings engine now serial => exact Cache.all_empty _
  | reconnect settings now serial _ _ => exact Cache.all_empty _
  | after event _ ih => exact invariant_keyed.after ih (event.answersFor_all _)
  | intervene intervention _ ih => exact keyed_intervene ih intervention

/-! ## Order -/

/-- Wherever a session comes to, an engine has one answer to a search whose order has the number of units. So
pages tile what is hit. -/
theorem Reachable.answers_iff (hs : s.Reachable) {dialect : Query.Dialect} {search : Search}
    {statement : Query.Statement} (hid : Column.id ∈ search.order.map Prod.fst)
    (h : Query.Statement.ofSearch dialect search = .ok statement) (units : List UnitRef) :
    dialect.Answers s.repository.database search units ↔
      units = search.paging.slice ((statement.sorted s.repository.database).map (·.unit)) :=
  Query.Dialect.answers_iff hs.idsDistinct hid h units

/-! ## Negation -/

variable {r : Repository} {e : Expression}

/-- A tree and its negation are true of no unit both, and of each one is of which the tree is known. -/
theorem not_complementary {hits misses : List UnitRef} {condition : Query.Condition}
    (hunits : r.database.UnitsDistinct)
    (hcondition : Query.Condition.ofExpression .sqlite e = .ok condition)
    (hdistinct : hits.Nodup) (hdistinct' : misses.Nodup)
    (hhits : ∀ unit, unit ∈ hits ↔
      ∃ row ∈ r.database.units, row.unit = unit ∧ e.truth .sqlite r.database row = .ok .yes)
    (hmisses : ∀ unit, unit ∈ misses ↔ ∃ row ∈ r.database.units, row.unit = unit ∧
      (Expression.not e).truth .sqlite r.database row = .ok .yes) :
    (hits ++ misses).Nodup ∧
      ∀ unit, unit ∈ hits ++ misses ↔
        ∃ row ∈ r.database.units, row.unit = unit ∧ e.truth .sqlite r.database row ≠ .ok .unknown := by
  have hmeaning : ∀ row ∈ r.database.units, ∃ t, e.truth .sqlite r.database row = .ok t ∧
      (Expression.not e).truth .sqlite r.database row = .ok t.not := by
    intro row hrow
    have htruth := Query.Condition.truth_of_ofExpression hrow hcondition
    refine ⟨_, htruth, ?_⟩
    rw [Expression.truth, htruth]
    rfl
  constructor
  · refine List.nodup_append.2 ⟨hdistinct, hdistinct', ?_⟩
    rintro unit hhit other hmiss rfl
    obtain ⟨row, hrow, rfl, htrue⟩ := (hhits unit).1 hhit
    obtain ⟨row', hrow', hsame, hfalse⟩ := (hmisses row.unit).1 hmiss
    -- a unit has one row
    cases eq_of_nodup UnitRow.unit hunits hrow' hrow hsame
    obtain ⟨t, ht, hnot⟩ := hmeaning row hrow
    rw [ht] at htrue
    rw [hnot] at hfalse
    cases Except.ok.inj htrue
    cases hfalse
  · intro unit
    rw [List.mem_append, hhits, hmisses]
    constructor
    · rintro (⟨row, hrow, rfl, htrue⟩ | ⟨row, hrow, rfl, hfalse⟩)
      · refine ⟨row, hrow, rfl, fun hunknown => ?_⟩
        cases htrue.symm.trans hunknown
      · obtain ⟨t, ht, hnot⟩ := hmeaning row hrow
        rw [hnot] at hfalse
        refine ⟨row, hrow, rfl, fun hunknown => ?_⟩
        rw [ht] at hunknown
        exact Truth.ne_unknown_iff.2 (Or.inr (Except.ok.inj hfalse)) (Except.ok.inj hunknown)
    · rintro ⟨row, hrow, rfl, hknown⟩
      obtain ⟨t, ht, hnot⟩ := hmeaning row hrow
      have hne : t ≠ .unknown := fun hunknown => hknown (by rw [ht, hunknown])
      rcases Truth.ne_unknown_iff.1 hne with hyes | hyes
      · exact Or.inl ⟨row, hrow, rfl, by rw [ht, hyes]⟩
      · exact Or.inr ⟨row, hrow, rfl, by rw [hnot, hyes]⟩

/-- Trees that are true of the same units hit the same units, in whatever order. -/
theorem exists_perm_hits {e e' : Expression} {condition : Query.Condition} {hits : List UnitRef}
    (hunits : r.database.UnitsDistinct) (hcache : r.cache.Keyed)
    (hcondition : Query.Condition.ofExpression .sqlite e = .ok condition) (hnull : e.NullFree)
    (htruth : ∀ row, e'.truth .sqlite r.database row = e.truth .sqlite r.database row)
    (hitems : e'.items = e.items)
    (hdistinct : hits.Nodup)
    (hhits : ∀ unit, unit ∈ hits ↔
      ∃ row ∈ r.database.units, row.unit = unit ∧ e.truth .sqlite r.database row = .ok .yes)
    (order : SearchOrder) :
    ∃ hits', hits'.Perm hits ∧ r.Hits ⟨some e', order, .none⟩ hits' := by
  obtain ⟨condition', hcondition'⟩ := Query.Condition.exists_of_items hitems hcondition
  obtain ⟨hits', hmade, hdistinct', hhits'⟩ := Repository.exists_hits hunits hcache hcondition'
    ((Expression.nullFree_congr hitems).2 hnull) order
  refine ⟨hits', (List.perm_ext_iff_of_nodup hdistinct' hdistinct).2 fun unit => ?_, hmade⟩
  rw [hhits', hhits]
  simp only [htruth]

/-- **A tree and its negation** hit no unit both. Together they hit each unit of which the tree is not
unknown; it is unknown only of a unit without a name, and only if it has a constraint on the name. A tree
that is negated twice hits the units that it hits itself, and a negation can be moved inwards, whatever the
orders in which the units are asked for. Where a text of the tree holds a null character, neither search is
read. -/
theorem search_not_complementary (hs : s.Reachable) {dialect : Query.Dialect}
    (hcompile : (Query.compile dialect ⟨some e, [], .none⟩).isOk = true) (order order' : SearchOrder) :
    let r := s.repository
    (e.NullFree → ∃ hits misses : List UnitRef,
      r.Hits ⟨some e, order, .none⟩ hits ∧ r.Hits ⟨some (.not e), order', .none⟩ misses ∧
      (hits ++ misses).Nodup ∧
      (∀ unit, unit ∈ hits ++ misses ↔
        ∃ row ∈ r.database.units, row.unit = unit ∧ e.truth .sqlite r.database row ≠ .ok .unknown) ∧
      (∀ row, e.truth .sqlite r.database row = .ok .unknown →
        row.name = none ∧ ∃ operator operand, .column .name operator operand ∈ e.items) ∧
      ∀ other : SearchOrder,
        (∃ again, again.Perm hits ∧ r.Hits ⟨some (.not (.not e)), other, .none⟩ again) ∧
        (∀ a b, e = .and a b →
          ∃ moved, moved.Perm misses ∧ r.Hits ⟨some (.or (.not a) (.not b)), other, .none⟩ moved) ∧
        ∀ a b, e = .or a b →
          ∃ moved, moved.Perm misses ∧ r.Hits ⟨some (.and (.not a) (.not b)), other, .none⟩ moved) ∧
    (¬e.NullFree → r.Unread ⟨some e, order, .none⟩ ∧ r.Unread ⟨some (.not e), order', .none⟩) := by
  intro r
  have hunits : r.database.UnitsDistinct := hs.numbered.unitsDistinct
  obtain ⟨_, hmade⟩ := Repository.exists_condition_of_compile hcompile
  obtain ⟨condition, hcondition⟩ := Query.Condition.exists_ofExpression_dialect .sqlite hmade
  have hitems : (Expression.not e).items = e.items := rfl
  obtain ⟨condition', hcondition'⟩ := Query.Condition.exists_of_items hitems hcondition
  have hnull' : (Expression.not e).NullFree ↔ e.NullFree := Expression.nullFree_congr hitems
  refine ⟨fun hnull => ?_, fun hnull => ⟨?_, ?_⟩⟩
  · obtain ⟨hits, hhits, hdistinct, hmem⟩ :=
      Repository.exists_hits hunits hs.keyed hcondition hnull order
    obtain ⟨misses, hmisses, hdistinct', hmem'⟩ :=
      Repository.exists_hits hunits hs.keyed hcondition' (hnull'.2 hnull) order'
    obtain ⟨hboth, htogether⟩ :=
      not_complementary hunits hcondition hdistinct hdistinct' hmem hmem'
    refine ⟨hits, misses, hhits, hmisses, hboth, htogether, fun row => Expression.truth_unknown,
      fun other => ⟨?_, ?_, ?_⟩⟩
    · exact exists_perm_hits hunits hs.keyed hcondition hnull (fun row => e.truth_not_not)
        rfl hdistinct hmem other
    · rintro a b rfl
      exact exists_perm_hits hunits hs.keyed hcondition' (hnull'.2 hnull)
        (fun row => (Expression.truth_not_and a b).symm) rfl hdistinct' hmem' other
    · rintro a b rfl
      exact exists_perm_hits hunits hs.keyed hcondition' (hnull'.2 hnull)
        (fun row => (Expression.truth_not_or a b).symm) rfl hdistinct' hmem' other
  · exact Repository.unread_of_condition hcondition hnull order .none
  · exact Repository.unread_of_condition hcondition' (mt hnull'.1 hnull) order' .none

/-- A unit is stored without a name. -/
def unnamedUnit : List Event :=
  [.perform (.create "a" 1 none), .perform (.store "a")]

/-- Asked for by its attributes, it is hit by the tree or by its negation. -/
theorem search_not_unnamedUnit :
    (fresh.afterAll unnamedUnit).Reachable ∧
      ∃ hits misses : List UnitRef,
        (fresh.afterAll unnamedUnit).repository.Hits
          ⟨some (.leaf (.element 1 .eq (.long 5) false)), [], .none⟩ hits ∧
        (fresh.afterAll unnamedUnit).repository.Hits
          ⟨some (.not (.leaf (.element 1 .eq (.long 5) false))), [], .none⟩ misses ∧
        ⟨1, 1⟩ ∈ hits ++ misses := by
  have hreachable : (fresh.afterAll unnamedUnit).Reachable :=
    .afterAll (.connect .inMemory .nearest .epoch 0) unnamedUnit
  have hcompile : (Query.compile .sqlite
      ⟨some (.leaf (.element 1 .eq (.long 5) false)), [], .none⟩).isOk = true := rfl
  obtain ⟨hcomplementary, -⟩ := search_not_complementary hreachable hcompile [] []
  obtain ⟨hits, misses, hhits, hmisses, -, htogether, hunknown, -⟩ := hcomplementary (by decide)
  refine ⟨hreachable, hits, misses, hhits, hmisses, (htogether _).2 ?_⟩
  have hstored : (fresh.afterAll unnamedUnit).repository.database.hasUnit ⟨1, 1⟩ = true := by
    decide +kernel
  obtain ⟨row, hrow, hunit⟩ := Database.hasUnit_iff.1 hstored
  refine ⟨row, hrow, hunit, fun htruth => ?_⟩
  obtain ⟨-, operator, operand, hmem⟩ := hunknown row htruth
  cases List.mem_singleton.1 hmem

/-- Asked for by its name, it is hit by neither; and neither search is read that compares with a null
character. -/
theorem unnamedUnit_hit_by_neither :
    (fresh.afterAll unnamedUnit).Reachable ∧
      (fresh.afterAll unnamedUnit).repository.database.hasUnit ⟨1, 1⟩ = true ∧
      (Query.compile .sqlite ⟨some (.leaf (.name .eq "x")), [], .none⟩).isOk = true ∧
      (Repository.matching ⟨some (.leaf (.name .eq "x")), [], .none⟩
        (fresh.afterAll unnamedUnit).repository).1.toOption = some [] ∧
      (Repository.matching ⟨some (.not (.leaf (.name .eq "x"))), [], .none⟩
        (fresh.afterAll unnamedUnit).repository).1.toOption = some [] ∧
      (fresh.afterAll unnamedUnit).repository.Unread ⟨some (.leaf (.name .eq "a\x00b")), [], .none⟩ ∧
      (fresh.afterAll unnamedUnit).repository.Unread
        ⟨some (.not (.leaf (.name .eq "a\x00b"))), [], .none⟩ :=
  ⟨.afterAll (.connect .inMemory .nearest .epoch 0) unnamedUnit, by decide +kernel, by decide +kernel,
    by decide +kernel, by decide +kernel, Repository.unread_of_null rfl (by decide),
    Repository.unread_of_null rfl (by decide)⟩

end MetadataStore.Session
