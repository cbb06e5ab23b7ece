import MetadataStore.Proofs.Database.Disposed

/-!
# `Proofs.Repository.Disposed` — disposal takes what it should, page by page

While others let it write, disposal takes every unit that waits and is not locked; while they do not, it
passes over all of them. What it has passed over stays in front, and the offset of the next page is just
past it: so no unit is met twice, none is missed, and each full page brings the end nearer. The bound on
the number of pages is never reached.

## Contents
- `Repository.without`, `Repository.takes`.
- `disposeUnit_apply`, `disposePage_apply`: one unit, one page.
- `Disposal`, the loop without a bound; `waiting_after_page`, `disposeFrom_apply`: all pages from one on.
- `dispose_apply`, `dispose_of_unreadable`.
-/

namespace MetadataStore

namespace Cache

/-- The cache without the copies of several units. -/
def without (cache : Cache) (doomed : List UnitRef) : Cache :=
  { cache with entries := cache.entries.filter fun entry => !(doomed.map UnitRef.text).contains entry.1 }

@[simp] theorem without_nil (cache : Cache) : cache.without [] = cache := by
  simp [without]

theorem without_remove (cache : Cache) (unit : UnitRef) (doomed : List UnitRef) :
    (cache.remove unit).without doomed = cache.without (unit :: doomed) := by
  simp only [without, remove, List.filter_filter, mk.injEq, and_true, true_and]
  refine List.filter_congr fun entry _ => ?_
  rw [Bool.eq_iff_iff]
  simp [and_comm]

/-- The copies of units that go are dropped, and no others. -/
theorem find?_without (cache : Cache) (doomed : List UnitRef) (unit : UnitRef) :
    (cache.without doomed).find? unit.text =
      if unit ∈ doomed then none else cache.find? unit.text := by
  induction doomed generalizing cache with
  | nil => simp
  | cons first rest ih =>
    rw [← without_remove, ih, find?_remove]
    by_cases hfirst : unit = first
    · simp [hfirst]
    · have htext : unit.text ≠ first.text := fun heq => hfirst (UnitRef.text_injective heq)
      simp [hfirst, htext]

end Cache

namespace Repository

variable {r r' : Repository} {unit : UnitRef} {doomed : List UnitRef}

/-- The repository with several units gone from database and cache. -/
def without (r : Repository) (doomed : List UnitRef) : Repository :=
  { r with database := r.database.without doomed, cache := r.cache.without doomed }

@[simp] theorem without_nil (r : Repository) : r.without [] = r := by
  simp [without]

theorem without_singleton (r : Repository) (unit : UnitRef) :
    r.without [unit] =
      { r with database := r.database.withoutUnit unit, cache := r.cache.remove unit } := by
  simp only [without, ← Database.without_withoutUnit, ← Cache.without_remove, Database.without_nil,
    Cache.without_nil]

/-- One unit and then others, or all of them. -/
theorem without_cons (r : Repository) (unit : UnitRef) (doomed : List UnitRef) :
    (r.without [unit]).without doomed = r.without (unit :: doomed) := by
  rw [without_singleton]
  simp only [without, Database.without_withoutUnit, Cache.without_remove]

theorem without_append (r : Repository) (first rest : List UnitRef) :
    (r.without first).without rest = r.without (first ++ rest) := by
  induction first generalizing r with
  | nil => rw [without_nil, List.nil_append]
  | cons unit first ih => rw [← without_cons, ih, without_cons, List.cons_append]

/-- Whether disposal takes a unit that it comes to. -/
def takes (r : Repository) (unit : UnitRef) : Bool :=
  r.contention.allowsWriting && !r.database.isLocked unit

/-- Whether a unit that is still there is taken does not depend on those that are gone. -/
theorem takes_without (hkept : unit ∉ doomed) : (r.without doomed).takes unit = r.takes unit := by
  unfold takes without
  rw [Database.isLocked_without hkept]

/-! ## One unit -/

/-- **A unit is taken** unless it is locked or cannot be written. -/
theorem disposeUnit_apply (hread : r.contention.allowsReading = true) (unit : UnitRef) :
    disposeUnit unit r =
      if r.takes unit then (.ok true, r.without [unit])
      else if r.database.isLocked unit then (.ok false, r) else (.error (.write .locked), r) := by
  have hlooked : isLocked unit r = (.ok (r.database.isLocked unit), r) := read_of_allows _ hread
  unfold disposeUnit
  rw [Action.bind_of_ok hlooked]
  cases hlocked : r.database.isLocked unit with
  | true => simp [takes, hlocked]
  | false =>
    cases hwriting : r.contention.allowsWriting with
    | false =>
      have hrefused : write (Transaction.perform (Database.deleteUnit unit)) r =
          (.error (.write .locked), r) := by
        refine write_eq_error.2 ⟨?_, rfl⟩
        unfold Transaction.perform
        rw [hwriting]
        rfl
      simp only [Bool.false_eq_true, if_false]
      rw [Action.bind_of_error hrefused]
      simp [takes, hwriting]
    | true =>
      have hdone : write (Transaction.perform (Database.deleteUnit unit)) r =
          (.ok (), { r with database := r.database.withoutUnit unit }) :=
        write_perform_eq_ok.2 ⟨hwriting, _, Database.deleteUnit_apply unit _, rfl⟩
      simp only [Bool.false_eq_true, if_false]
      rw [Action.bind_of_ok hdone]
      simp [takes, hlocked, hwriting, without, ← Database.without_withoutUnit, ← Cache.without_remove,
        Action.bind_apply]

/-- Nothing is taken that cannot be looked at. -/
theorem disposeUnit_of_unreadable (hread : r.contention.allowsReading = false) (unit : UnitRef) :
    disposeUnit unit r = (.error (.read .locked), r) := by
  have hlooked : isLocked unit r = (.error (.read .locked), r) := read_eq_error.2 ⟨hread, rfl, rfl⟩
  unfold disposeUnit
  rw [Action.bind_of_error hlooked]

/-! ## One page -/

/-- **A page is gone through unit by unit**: the units that are taken are gone, and the others are
counted. -/
theorem disposePage_apply (hread : r.contention.allowsReading = true) {page : List UnitRef}
    (hdistinct : page.Nodup) :
    disposePage page r =
      (.ok ((page.filter r.takes).length, (page.filter fun unit => !r.takes unit).length),
        r.without (page.filter r.takes)) := by
  induction page generalizing r with
  | nil => simp [disposePage]
  | cons unit rest ih =>
    obtain ⟨hnew, hrest⟩ := List.nodup_cons.1 hdistinct
    unfold disposePage
    have hattempt : Action.attempt (disposeUnit unit) r =
        (.ok (disposeUnit unit r).1, (disposeUnit unit r).2) := rfl
    rw [Action.bind_of_ok hattempt, disposeUnit_apply hread]
    cases htakes : r.takes unit with
    | true =>
      -- the units that follow are other ones, and as free or locked as before
      have hsame : ∀ other ∈ rest, (r.without [unit]).takes other = r.takes other :=
        fun other hmem => takes_without fun heq => hnew (List.mem_singleton.1 heq ▸ hmem)
      have hpage := ih (r := r.without [unit]) hread hrest
      rw [List.filter_congr hsame, List.filter_congr fun other hmem => congrArg (!·) (hsame other hmem),
        without_cons] at hpage
      simp only [if_true]
      rw [Action.bind_of_ok hpage]
      simp [htakes]
    | false =>
      have hpage := ih hread hrest
      cases hlocked : r.database.isLocked unit with
      | true =>
        simp only [Bool.false_eq_true, if_false, if_true]
        rw [Action.bind_of_ok hpage]
        simp [htakes]
      | false =>
        simp only [Bool.false_eq_true, if_false]
        rw [Action.bind_of_ok hpage]
        simp [htakes]

/-! ## All pages -/

/-- The loop of a disposal as the program has it, with no bound on the number of pages: what it comes to,
if it comes to an end, after `skipped` units were passed over. -/
inductive Disposal (tenant : Int32) (batch : Nat) :
    Nat → Repository → Except Fault Nat × Repository → Prop
  /-- The next page cannot be looked up. -/
  | refused {skipped : Nat} {r r' : Repository} {fault : Fault} :
    matching (disposable tenant skipped batch) r = (.error fault, r') →
      Disposal tenant batch skipped r (.error fault, r')
  /-- A page that is not full is the last. -/
  | last {skipped disposed newlySkipped : Nat} {page : List UnitRef} {r r₁ r₂ : Repository} :
    matching (disposable tenant skipped batch) r = (.ok page, r₁) →
      disposePage page r₁ = (.ok (disposed, newlySkipped), r₂) → page.length < batch →
      Disposal tenant batch skipped r (.ok disposed, r₂)
  | more {skipped disposed newlySkipped : Nat} {page : List UnitRef} {r r₁ r₂ r₃ : Repository}
      {outcome : Except Fault Nat} :
    matching (disposable tenant skipped batch) r = (.ok page, r₁) →
      disposePage page r₁ = (.ok (disposed, newlySkipped), r₂) → ¬ page.length < batch →
      Disposal tenant batch (skipped + newlySkipped) r₂ (outcome, r₃) →
      Disposal tenant batch skipped r (outcome.map (disposed + ·), r₃)

variable {tenant : Int32} {batch : Nat} {passed page rest : List UnitRef}

/-- Units that were passed over, and those still to come, are not among the taken ones of a page. -/
theorem not_mem_taken (hnodup : (passed ++ (page ++ rest)).Nodup)
    (hpassed : ∀ unit ∈ passed, r.takes unit = false)
    (hmem : unit ∈ (passed ++ page.filter fun unit => !r.takes unit) ++ rest) :
    unit ∉ page.filter r.takes := by
  intro htaken
  obtain ⟨hpage, htakes⟩ := List.mem_filter.1 htaken
  rcases List.mem_append.1 hmem with hfront | hlater
  · rcases List.mem_append.1 hfront with hbefore | hskipped
    · rw [hpassed unit hbefore] at htakes
      cases htakes
    · have hspared := (List.mem_filter.1 hskipped).2
      rw [htakes] at hspared
      cases hspared
  · have hdisjoint := (List.nodup_append.1 (List.nodup_append.1 hnodup).2.1).2.2
    exact hdisjoint unit hpage unit hlater rfl

/-- So they are taken after the page as they were before it. -/
theorem takes_after_page (hnodup : (passed ++ (page ++ rest)).Nodup)
    (hpassed : ∀ unit ∈ passed, r.takes unit = false)
    (hmem : unit ∈ (passed ++ page.filter fun unit => !r.takes unit) ++ rest) :
    (r.without (page.filter r.takes)).takes unit = r.takes unit :=
  takes_without (not_mem_taken hnodup hpassed hmem)

/-- What was passed over, on this page too, will not be taken any more. -/
theorem passed_after_page (hnodup : (passed ++ (page ++ rest)).Nodup)
    (hpassed : ∀ unit ∈ passed, r.takes unit = false)
    (hmem : unit ∈ passed ++ page.filter fun unit => !r.takes unit) :
    (r.without (page.filter r.takes)).takes unit = false := by
  rw [takes_after_page hnodup hpassed (List.mem_append_left rest hmem)]
  rcases List.mem_append.1 hmem with hbefore | hskipped
  · exact hpassed unit hbefore
  · simpa using (List.mem_filter.1 hskipped).2

/-- **What waits after a page**: the units passed over so far, now with those of the page, and then the
units still to come. -/
theorem waiting_after_page (hdistinct : r.database.UnitsDistinct)
    (hwaiting : r.database.waiting tenant.toInt = passed ++ (page ++ rest))
    (hpassed : ∀ unit ∈ passed, r.takes unit = false) :
    (r.without (page.filter r.takes)).database.waiting tenant.toInt =
      (passed ++ page.filter fun unit => !r.takes unit) ++ rest := by
  have hnodup := hwaiting ▸ Database.nodup_waiting hdistinct tenant.toInt
  have hspared : ∀ unit ∈ (passed ++ page.filter fun unit => !r.takes unit) ++ rest,
      (!(page.filter r.takes).contains unit) = true := by
    intro unit hmem
    rw [Bool.not_eq_true', List.contains_eq_mem, decide_eq_false_iff_not]
    exact not_mem_taken hnodup hpassed hmem
  have hpage : page.filter (fun unit => !(page.filter r.takes).contains unit) =
      page.filter fun unit => !r.takes unit := by
    refine List.filter_congr fun unit hmem => ?_
    rw [Bool.eq_iff_iff]
    simp [hmem]
  show (r.database.without (page.filter r.takes)).waiting tenant.toInt = _
  rw [Database.waiting_without hdistinct, hwaiting, List.filter_append, List.filter_append, hpage,
    List.append_assoc]
  congr 1
  · exact List.filter_eq_self.2 fun unit hmem =>
      hspared unit (List.mem_append_left _ (List.mem_append_left _ hmem))
  · congr 1
    exact List.filter_eq_self.2 fun unit hmem => hspared unit (List.mem_append_right _ hmem)

/-- **From any page on**, with what was passed over in front, disposal takes what it should of the rest,
and comes to its end before the bound does. -/
theorem disposeFrom_apply (hread : r.contention.allowsReading = true)
    (hdistinct : r.database.UnitsDistinct) (hbatch : 0 < batch)
    (hwaiting : r.database.waiting tenant.toInt = passed ++ rest)
    (hpassed : ∀ unit ∈ passed, r.takes unit = false) {fuel : Nat} (hfuel : rest.length < fuel) :
    disposeFrom tenant batch fuel passed.length r =
        (.ok (rest.filter r.takes).length, r.without (rest.filter r.takes)) ∧
      Disposal tenant batch passed.length r
        (.ok (rest.filter r.takes).length, r.without (rest.filter r.takes)) := by
  induction fuel generalizing r passed rest with
  | zero => omega
  | succ fuel ih =>
    have hnodup := hwaiting ▸ Database.nodup_waiting hdistinct tenant.toInt
    have hfound : matching (disposable tenant passed.length batch) r = (.ok (rest.take batch), r) := by
      rw [matching_disposable hread tenant passed.length hbatch, hwaiting, List.drop_left]
    have hdone := disposePage_apply hread
      ((List.nodup_append.1 hnodup).2.1.sublist (List.take_sublist batch rest))
    unfold disposeFrom
    rw [Action.bind_of_ok hfound, Action.bind_of_ok hdone]
    dsimp only
    by_cases hlast : (rest.take batch).length < batch
    · have hall : rest.take batch = rest := by
        rw [List.length_take] at hlast
        exact List.take_of_length_le (by omega)
      rw [if_pos hlast]
      rw [hall] at hfound hdone hlast ⊢
      exact ⟨rfl, .last hfound hdone hlast⟩
    · -- the page was full, so fewer units are left
      have hsplit : rest = rest.take batch ++ rest.drop batch := (List.take_append_drop batch rest).symm
      have hfewer : (rest.drop batch).length < fuel := by
        rw [List.length_take] at hlast
        rw [List.length_drop]
        omega
      have hwaiting' : r.database.waiting tenant.toInt =
          passed ++ (rest.take batch ++ rest.drop batch) := by rw [← hsplit, hwaiting]
      have hnodup' := hwaiting' ▸ Database.nodup_waiting hdistinct tenant.toInt
      obtain ⟨hnext, hdisposal⟩ := ih (r := r.without ((rest.take batch).filter r.takes)) hread
        hdistinct.without (waiting_after_page hdistinct hwaiting' hpassed)
        (fun unit hmem => passed_after_page hnodup' hpassed hmem) hfewer
      rw [List.length_append, List.filter_congr fun unit hmem =>
          takes_after_page hnodup' hpassed (List.mem_append_right _ hmem), without_append]
        at hnext hdisposal
      have hcount : (rest.filter r.takes).length =
          ((rest.take batch).filter r.takes).length + ((rest.drop batch).filter r.takes).length := by
        rw [← List.length_append, ← List.filter_append, ← hsplit]
      have htaken : rest.filter r.takes =
          (rest.take batch).filter r.takes ++ (rest.drop batch).filter r.takes := by
        rw [← List.filter_append, ← hsplit]
      rw [if_neg hlast, Action.bind_of_ok hnext, hcount, htaken]
      exact ⟨rfl, .more hfound hdone hlast hdisposal⟩

/-! ## Disposal -/

theorem dispose_eq_disposeFrom (tenant : Int32) (r : Repository) :
    dispose tenant r = disposeFrom tenant r.settings.batch (r.database.units.length + 1) 0 r := by
  unfold dispose
  exact Action.bind_of_ok (Action.get_apply r) _

/-- **Disposal takes exactly the units that wait and that it can take**, whatever the size of a page. -/
theorem dispose_apply (hread : r.contention.allowsReading = true)
    (hdistinct : r.database.UnitsDistinct) (tenant : Int32) :
    dispose tenant r =
        (.ok ((r.database.waiting tenant.toInt).filter r.takes).length,
          r.without ((r.database.waiting tenant.toInt).filter r.takes)) ∧
      Disposal tenant r.settings.batch 0 r (dispose tenant r) := by
  have hbound := Nat.lt_succ_of_le (r.database.length_waiting_le tenant.toInt)
  have hwaiting : r.database.waiting tenant.toInt = [] ++ r.database.waiting tenant.toInt := rfl
  obtain ⟨hdone, hdisposal⟩ := disposeFrom_apply hread hdistinct r.settings.batch_pos hwaiting
    (fun _ hmem => by cases hmem) hbound
  rw [dispose_eq_disposeFrom]
  exact ⟨hdone, hdone ▸ hdisposal⟩

/-- While nothing can be read disposal is refused. -/
theorem dispose_of_unreadable (hread : r.contention.allowsReading = false) (tenant : Int32) :
    dispose tenant r = (.error (.read .locked), r) ∧
      Disposal tenant r.settings.batch 0 r (dispose tenant r) := by
  have hrefused : matching (disposable tenant 0 r.settings.batch) r = (.error (.read .locked), r) := by
    rw [matching_of_nullFree (ofSearch_disposable _ _ _) (nullFree_disposable _ _ _)]
    exact read_eq_error.2 ⟨hread, rfl, rfl⟩
  have hdispose : dispose tenant r = (.error (.read .locked), r) := by
    rw [dispose_eq_disposeFrom, disposeFrom]
    exact Action.bind_of_error hrefused _
  rw [hdispose]
  exact ⟨rfl, .refused hrefused⟩

end Repository

end MetadataStore
