import MetadataStore.Proofs.Time.Order
import MetadataStore.Proofs.Time.Span
import MetadataStore.Query.Meaning

/-!
# `Proofs.Query.Times` — comparisons with a time

The engine compares stored times as texts. Which of two comes first it can therefore tell only as far as
their years are written in their order; whether they are the same it always can. A widened equality
asks for both ends of a span, but these have one year: a time of that year compares with them as it should,
and one of any other year is on the same side of both, whichever side that is.

## Contents
- `Comparison.holdsAt`, what a comparison says in time; `Condition.ofExpression_element`,
  `Condition.ofExpression_column`: constraints as tests.
- `Comparison.holds_time_iff`, `Comparison.holds_within`: when the engine says the same.
- `time_comparison_agrees_iff`, with a leap second that is in its place and a year that is not.
- `adjustable_equality_matches_span`, with the last hour of a year.
-/

namespace MetadataStore

namespace Operator

/-- Orderings that agree on what is equal are told apart by every operator but equality and its
contrary. -/
theorem accepts_eq_iff {o p : Ordering} (h : o = .eq ↔ p = .eq) {operator : Operator}
    (hlike : operator ≠ .like) :
    operator.accepts o = operator.accepts p ↔ operator = .eq ∨ operator = .neq ∨ o = p := by
  revert h hlike
  cases operator <;> cases o <;> cases p <;> decide

/-- Nothing that differs from one thing lies between it and itself. -/
theorem not_between {o : Ordering} (h : o ≠ .eq) : (geq.accepts o && leq.accepts o) = false := by
  revert h
  cases o <;> decide

end Operator

namespace Query

variable {t u : DateTime} {operator : Operator}

/-! ## Stored times -/

/-- A stored time compares with a moment as their texts do. -/
theorem holds_compareCells_text (hlike : operator ≠ .like) (isText : Bool) (t u : DateTime) :
    (compareCells operator isText (.text t.text) (.text u.text)).holds =
      operator.accepts (compare t.chars u.chars) := by
  have hcompare : Cell.compare (.text t.text) (.text u.text) = compare t.chars u.chars := by
    show compareOfLessAndEq t.text u.text = _
    rw [Text.compareOfLessAndEq_toList]
    simp only [DateTime.text, String.toList_ofList]
  unfold compareCells
  rw [if_neg (by simp), if_neg hlike, Truth.holds_ofBool]
  cases isText <;> exact congrArg operator.accepts hcompare

/-- What a comparison with a time says of a moment in time. -/
def Comparison.holdsAt (t : DateTime) : Comparison → Bool
  | .time operator moment => operator.accepts (t.truncate.compare moment.truncate)
  | .within low high =>
    Operator.geq.accepts (t.truncate.compare low.truncate) &&
      Operator.leq.accepts (t.truncate.compare high.truncate)
  | _ => false

/-! ## Constraints with a time -/

/-- An adjustable equality with a time that has a span is widened to it. -/
theorem Comparison.ofOperand_time_within {low high : DateTime} (dialect : Dialect)
    (h : u.span? = some (low, high)) :
    Comparison.ofOperand dialect .eq (.time u) true = .ok (.within low high) := by
  simp [ofOperand, h]

/-- Nothing else is. -/
theorem Comparison.ofOperand_time_exact (dialect : Dialect) {adjustable : Bool}
    (h : operator ≠ .eq ∨ adjustable = false ∨ u.span? = none) :
    Comparison.ofOperand dialect operator (.time u) adjustable = .ok (.time operator u) := by
  unfold ofOperand
  simp only
  split
  · rename_i low high hwidens hspan
    simp only [Bool.and_eq_true, beq_iff_eq] at hwidens
    rcases h with hne | hfixed | hnone
    · exact absurd hwidens.2 hne
    · rw [hfixed] at hwidens
      cases hwidens.1
    · rw [hnone] at hspan
      cases hspan
  · rfl

/-- A constraint on an attribute becomes a test of its elements. -/
theorem Condition.ofExpression_element {dialect : Dialect} {adjustable : Bool} {c : Comparison}
    (h : Comparison.ofOperand dialect operator (.time u) adjustable = .ok c) (id : Int) :
    Condition.ofExpression dialect (.leaf (.element id operator (.time u) adjustable)) =
      .ok (.among ⟨id, .time, c⟩) := by
  simp only [ofExpression, checkSearchable, Item.checkSearchable, Chain.ofExpression, Chain.ofItem, h]
  rfl

/-- A constraint on a column becomes a test of that column, and is not adjustable. -/
theorem Condition.ofExpression_column {dialect : Dialect} {c : Comparison}
    (h : Comparison.ofOperand dialect operator (.time u) false = .ok c) (column : Column) :
    Condition.ofExpression dialect (.leaf (.column column operator (.time u))) =
      .ok (.column column c) := by
  simp only [ofExpression, checkSearchable, Item.checkSearchable, Chain.ofExpression, Chain.ofItem, h]
  rfl

/-! ## What the engine can tell -/

/-- An exact comparison says of stored times what the moments say, unless it asks which is first and
the years are not written in their order. -/
theorem Comparison.holds_time_iff (hlike : operator ≠ .like) (isText : Bool) (t u : DateTime) :
    ((Comparison.time operator u).truth isText (.text t.text)).holds =
        (Comparison.time operator u).holdsAt t ↔
      operator = .eq ∨ operator = .neq ∨ YearsKeepOrder t.date.year u.date.year := by
  rw [← DateTime.compare_chars_eq_iff,
    ← Operator.accepts_eq_iff (DateTime.compare_chars_eq_eq_iff t u) hlike,
    ← holds_compareCells_text hlike isText]
  rfl

/-- A widened comparison always says what the moments say: its ends are times of one year, and any
other year is on one side of both. -/
theorem Comparison.holds_within (isText : Bool) (t : DateTime) {low high : DateTime}
    (hyear : low.date.year = high.date.year) :
    ((Comparison.within low high).truth isText (.text t.text)).holds =
      (Comparison.within low high).holdsAt t := by
  show (Truth.and _ _).holds = (_ && _)
  rw [Truth.holds_and, holds_compareCells_text (by decide), holds_compareCells_text (by decide)]
  by_cases h : t.date.year = low.date.year
  · rw [DateTime.compare_of_year_eq h, DateTime.compare_of_year_eq (h.trans hyear)]
  · obtain ⟨hlow, hlow'⟩ := DateTime.compare_of_year_ne h
    obtain ⟨hhigh, hhigh'⟩ := DateTime.compare_of_year_ne (hyear ▸ h)
    have hwritten : compareYears t.date.year low.date.year ≠ .eq := fun heq =>
      h (compareYears_eq_eq_iff.1 heq)
    have hyears : compare t.date.year low.date.year ≠ .eq := fun heq => h (compare_eq_iff_eq.1 heq)
    rw [hlow, hhigh, hlow', hhigh', ← hyear, Operator.not_between hwritten,
      Operator.not_between hyears]

/-- **Stored times keep the order of time exactly as far as their years do.** The bytes of two stored times
compare as the moments cut to milliseconds, leap seconds included, exactly when the years are written in
their order. Every comparison of a stored time with an operand, of an element as of a creation time, is
made without fault; it says what the moments say if it asks for equality, widened or not, or for the
contrary, and if it asks which is first exactly when the years are written in their order. -/
theorem time_comparison_agrees_iff (t u : DateTime) :
    (compare t.text.toUTF8.data.toList u.text.toUTF8.data.toList = t.truncate.compare u.truncate ↔
      YearsKeepOrder t.date.year u.date.year) ∧
    (∀ operator adjustable, operator ≠ .like → ∃ c,
      (∀ id, Condition.ofExpression .sqlite (.leaf (.element id operator (.time u) adjustable)) =
        .ok (.among ⟨id, .time, c⟩)) ∧
      ((c.truth Kind.time.isText (Datum.time t).toCell).holds = c.holdsAt t ↔
        operator = .eq ∨ operator = .neq ∨ YearsKeepOrder t.date.year u.date.year)) ∧
    (∀ operator, operator ≠ .like → ∃ c,
      Condition.ofExpression .sqlite (.leaf (.column .created operator (.time u))) =
        .ok (.column .created c) ∧
      ∀ db row, row.created = t.text →
        (((Condition.column .created c).truth db row).holds = c.holdsAt t ↔
          operator = .eq ∨ operator = .neq ∨ YearsKeepOrder t.date.year u.date.year)) := by
  refine ⟨?_, ?_, ?_⟩
  · rw [DateTime.compare_toUTF8]
    exact DateTime.compare_chars_eq_iff t u
  · intro operator adjustable hlike
    by_cases hexact : operator ≠ .eq ∨ adjustable = false ∨ u.span? = none
    · exact ⟨_, Condition.ofExpression_element (Comparison.ofOperand_time_exact .sqlite hexact),
        Comparison.holds_time_iff hlike _ t u⟩
    · -- an equality is left, whose ends are times of one year
      simp only [not_or, not_not, Bool.not_eq_false] at hexact
      obtain ⟨rfl, rfl, hsome⟩ := hexact
      obtain ⟨⟨low, high⟩, hspan⟩ := Option.ne_none_iff_exists'.1 hsome
      obtain ⟨-, -, hlow, hhigh, -⟩ := DateTime.span?_spec hspan
      exact ⟨_, Condition.ofExpression_element (Comparison.ofOperand_time_within .sqlite hspan),
        iff_of_true (Comparison.holds_within _ t (by rw [hlow, hhigh])) (Or.inl rfl)⟩
  · intro operator hlike
    refine ⟨_, Condition.ofExpression_column
      (Comparison.ofOperand_time_exact .sqlite (Or.inr (Or.inl rfl))) .created, fun db row hrow => ?_⟩
    have hcell : row.cell .created = .text t.text := congrArg Cell.text hrow
    have hiff := Comparison.holds_time_iff hlike Column.created.isText t u
    rwa [← hcell] at hiff

/-- The leap second before the year 2017, one and a half seconds into the last second of 2016. -/
def leapSecond2016 : DateTime :=
  ⟨⟨2016, 12, 31, by decide⟩, ⟨23, 59, 59, 1500000000, by decide⟩⟩

/-- The first moment of 2017. -/
def newYear2017 : DateTime :=
  ⟨⟨2017, 1, 1, by decide⟩, .midnight⟩

/-- A leap second is found before the new year, as an element and as a creation time. -/
theorem leapSecond_before_newYear :
    Operator.lt ≠ .like ∧
    (∃ c, (∀ id, Condition.ofExpression .sqlite (.leaf (.element id .lt (.time newYear2017) true)) =
        .ok (.among ⟨id, .time, c⟩)) ∧
      (c.truth Kind.time.isText (Datum.time leapSecond2016).toCell).holds = true) ∧
    (∃ c, Condition.ofExpression .sqlite (.leaf (.column .created .lt (.time newYear2017))) =
        .ok (.column .created c) ∧
      ((Condition.column .created c).truth .empty ⟨⟨1, 1⟩, "", none, 30, leapSecond2016.text⟩).holds =
        true) := by
  have hlike : Operator.lt ≠ .like := by decide
  have hyears : YearsKeepOrder 2016 2017 :=
    ⟨fun _ => Or.inl (by decide), fun h => absurd h (by decide)⟩
  obtain ⟨-, helement, hcolumn⟩ := time_comparison_agrees_iff leapSecond2016 newYear2017
  refine ⟨hlike, ?_, ?_⟩
  · obtain ⟨c, hc, hiff⟩ := helement .lt true hlike
    cases (Condition.ofExpression_element rfl 0).symm.trans (hc 0)
    exact ⟨_, hc, (hiff.2 (Or.inr (Or.inr hyears))).trans (by decide)⟩
  · obtain ⟨c, hc, hiff⟩ := hcolumn .lt hlike
    cases (Condition.ofExpression_column rfl .created).symm.trans hc
    exact ⟨_, hc, ((hiff .empty _ rfl).2 (Or.inr (Or.inr hyears))).trans (by decide)⟩

/-- The last second of 9999. -/
def endOf9999 : DateTime :=
  ⟨⟨9999, 12, 31, by decide⟩, ⟨23, 59, 59, 0, by decide⟩⟩

/-- The first moment of 10000. -/
def newYear10000 : DateTime :=
  ⟨⟨10000, 1, 1, by decide⟩, .midnight⟩

/-- The year 10000 is written before the year 9999, and what is stored for it is not found after. -/
theorem year10000_written_first :
    endOf9999.compare newYear10000 = .lt ∧
    compare endOf9999.text.toUTF8.data.toList newYear10000.text.toUTF8.data.toList = .gt ∧
    Condition.ofExpression .sqlite (.leaf (.element 1 .gt (.time endOf9999) false)) =
      .ok (.among ⟨1, .time, .time .gt endOf9999⟩) ∧
    (Comparison.time .gt endOf9999).holdsAt newYear10000 = true ∧
    ((Comparison.time .gt endOf9999).truth Kind.time.isText (Datum.time newYear10000).toCell).holds =
      false := by
  have horder : ¬ YearsInOrder 9999 10000 := by
    unfold YearsInOrder
    omega
  have hyears : compareYears 9999 10000 = .gt := by
    rw [compareYears_of_lt (by decide), if_neg horder]
  have hback : compareYears 10000 9999 = .lt := by
    rw [← compareYears_swap, hyears]
    rfl
  have hne : endOf9999.date.year ≠ newYear10000.date.year := by decide
  refine ⟨by decide, ?_, rfl, by decide, ?_⟩
  · rw [DateTime.compare_toUTF8, (DateTime.compare_of_year_ne hne).1]
    exact hyears
  · refine (holds_compareCells_text (by decide) _ _ _).trans ?_
    rw [(DateTime.compare_of_year_ne hne.symm).1]
    exact congrArg _ hback

/-! ## Widened equality -/

/-- A widened comparison is true of the stored moments between its ends, ends included. -/
theorem Comparison.holds_within_iff (isText : Bool) (v : DateTime) {low high : DateTime}
    (hyear : low.date.year = high.date.year) :
    ((Comparison.within low high).truth isText (.text v.text)).holds = true ↔
      v.truncate.compare low.truncate ≠ .lt ∧ v.truncate.compare high.truncate ≠ .gt := by
  rw [holds_within isText v hyear]
  simp [holdsAt, Operator.accepts]

/-- **An adjustable equality matches the span that a time leaves open.** A time has a span unless its
fraction has milliseconds, as that of a leap second always does. The span begins with the time and ends a
millisecond before the next unit of the last component that is not zero. An adjustable equality is made a
test of stored elements that is true of exactly those, leap seconds aside, that have the date of the time
and its components down to that one, whatever their year. Any other comparison with the time, and any
with a column of the units, is made one with the time itself. -/
theorem adjustable_equality_matches_span (t : DateTime) (following : Date)
    (hfollowing : following.dayNumber = t.date.dayNumber + 1) :
    (t.span? = none ↔ t.time.nano / nanosPerMilli ≠ 0) ∧
    (∀ low high, t.span? = some (low, high) →
      low.elapsedMillis = t.elapsedMillis ∧
      ∃ next : DateTime, next.elapsedMillis = low.elapsedMillis + 1000 * t.time.grain.seconds ∧
        high.elapsedMillis = next.elapsedMillis - 1) ∧
    (t.span? ≠ none → ∀ id, ∃ c,
      Condition.ofExpression .sqlite (.leaf (.element id .eq (.time t) true)) =
        .ok (.among ⟨id, .time, c⟩) ∧
      ∀ v : DateTime, v.time.isLeap = false →
        ((c.truth Kind.time.isText (Datum.time v).toCell).holds = true ↔ v.AgreesAsGiven t)) ∧
    (∀ dialect id operator adjustable, operator ≠ .eq ∨ adjustable = false ∨ t.span? = none →
      Condition.ofExpression dialect (.leaf (.element id operator (.time t) adjustable)) =
        .ok (.among ⟨id, .time, .time operator t⟩)) ∧
    (∀ dialect column operator,
      Condition.ofExpression dialect (.leaf (.column column operator (.time t))) =
        .ok (.column column (.time operator t))) := by
  refine ⟨?_, ?_, ?_, ?_, ?_⟩
  · show _ ↔ t.time.millis ≠ 0
    rw [← Option.not_isSome_iff_eq_none, DateTime.span?_isSome_iff]
  · intro low high hspan
    obtain ⟨-, -, -, -, hwhole, hfirst, hmillis, hlast⟩ := DateTime.span?_spec hspan
    obtain ⟨next, hnext, hnano⟩ := DateTime.exists_next hfollowing
    have hgiven : t.time.millis = 0 := t.span?_isSome_iff.1 (by rw [hspan]; rfl)
    have hzero : ∀ {s : TimeOfDay}, s.nano = 0 → s.millis = 0 := fun h => by
      rw [TimeOfDay.millis, h, Nat.zero_div]
    unfold DateTime.elapsedMillis
    rw [hzero hwhole, hgiven, hmillis]
    refine ⟨by omega, next, ?_, ?_⟩
    · rw [hzero hnano]
      omega
    · rw [hzero hnano]
      omega
  · intro hsome id
    obtain ⟨⟨low, high⟩, hspan⟩ := Option.ne_none_iff_exists'.1 hsome
    refine ⟨_, Condition.ofExpression_element (Comparison.ofOperand_time_within .sqlite hspan) id,
      fun v hleap => ?_⟩
    obtain ⟨-, -, hlow, hhigh, -⟩ := DateTime.span?_spec hspan
    exact (Comparison.holds_within_iff _ v (by rw [hlow, hhigh])).trans
      (DateTime.mem_span_iff hspan hleap)
  · intro dialect id operator adjustable hexact
    exact Condition.ofExpression_element (Comparison.ofOperand_time_exact dialect hexact) id
  · intro dialect column operator
    exact Condition.ofExpression_column
      (Comparison.ofOperand_time_exact dialect (Or.inr (Or.inl rfl))) column

/-- The last hour of 2016, given to the hour. -/
def lastHour2016 : DateTime :=
  ⟨⟨2016, 12, 31, by decide⟩, ⟨23, 0, 0, 0, by decide⟩⟩

/-- The last millisecond of 2016 that is in no leap second. -/
def lastMilli2016 : DateTime :=
  ⟨⟨2016, 12, 31, by decide⟩, ⟨23, 59, 59, 999000000, by decide⟩⟩

/-- The last hour of a year is matched to its end, and the new year is not. -/
theorem lastHour2016_matches :
    newYear2017.date.dayNumber = lastHour2016.date.dayNumber + 1 ∧ lastHour2016.span? ≠ none ∧
    lastMilli2016.time.isLeap = false ∧ newYear2017.time.isLeap = false ∧
    (∃ c, Condition.ofExpression .sqlite (.leaf (.element 1 .eq (.time lastHour2016) true)) =
        .ok (.among ⟨1, .time, c⟩) ∧
      (c.truth Kind.time.isText (Datum.time lastMilli2016).toCell).holds = true ∧
      (c.truth Kind.time.isText (Datum.time newYear2017).toCell).holds = false) ∧
    Condition.ofExpression .postgresql (.leaf (.element 1 .neq (.time lastHour2016) true)) =
      .ok (.among ⟨1, .time, .time .neq lastHour2016⟩) := by
  have hnext : newYear2017.date.dayNumber = lastHour2016.date.dayNumber + 1 := by decide
  have hspan : lastHour2016.span? ≠ none := by decide
  obtain ⟨-, -, hmatch, hexact, -⟩ :=
    adjustable_equality_matches_span lastHour2016 newYear2017.date hnext
  obtain ⟨c, hc, htrue⟩ := hmatch hspan 1
  refine ⟨hnext, hspan, by decide, by decide, ⟨c, hc, ?_, ?_⟩, ?_⟩
  · exact (htrue lastMilli2016 (by decide)).2 ⟨rfl, fun _ => rfl, by decide, by decide⟩
  · rw [← Bool.not_eq_true, htrue newYear2017 (by decide)]
    exact fun h => absurd h.1 (by decide)
  · exact hexact .postgresql 1 .neq true (Or.inl (by decide))

end Query

end MetadataStore
