import Mathlib.Data.List.TakeWhile
import MetadataStore.Proofs.Text.Scripts
import MetadataStore.Time.Operand

/-!
# `Proofs.Time.Spelling` — the form of a time operand

The form is stated part by part, each nested in the one before it, and says nothing of how it is
recognised. Recognition takes the longest run of digits each time and never has to give any of it back,
since no mark that may stand behind a run is a digit.

## Contents
- `TimePattern.Spells`, the form, put together from `FractionSpelled`, `SecondSpelled` and `ClockSpelled`.
- `digits?_eq_some`, `fraction?_eq_some`, `second?_eq_some`, `ofChars?_eq_some`: what is recognised.
- `Spells.unique`; `Spells.mem_of_mem_part`: the parts are made of digits of the text.
-/

namespace MetadataStore.TimePattern

open Text

/-! ## The form of an operand -/

/-- So many digits of any script. -/
structure IsRun (low high : Nat) (ds : List Char) : Prop where
  atLeast : low ≤ ds.length
  atMost : ds.length ≤ high
  digits : ∀ c ∈ ds, isDigit c = true

/-- Nothing, or a fraction behind a point. -/
def FractionSpelled (fraction cs : List Char) : Prop :=
  (fraction = [] ∧ cs = []) ∨ (IsRun 1 3 fraction ∧ cs = '.' :: fraction)

/-- Nothing, or a second behind a colon and what belongs to it. -/
def SecondSpelled (second fraction cs : List Char) : Prop :=
  (second = [] ∧ fraction = [] ∧ cs = []) ∨
    (IsRun 2 2 second ∧ ∃ rest, FractionSpelled fraction rest ∧ cs = ':' :: (second ++ rest))

/-- Nothing, or hour and minute behind a blank or `T` and what belongs to them. -/
def ClockSpelled (p : TimePattern) (cs : List Char) : Prop :=
  (p.hour = [] ∧ p.minute = [] ∧ p.second = [] ∧ p.fraction = [] ∧ cs = []) ∨
    (IsRun 1 2 p.hour ∧ IsRun 2 2 p.minute ∧ ∃ mark rest, (mark = ' ' ∨ mark = 'T') ∧
      SecondSpelled p.second p.fraction rest ∧ cs = mark :: (p.hour ++ ':' :: (p.minute ++ rest)))

/-- The parts are spelled out by a text: a date, and as much of a time of day as there is. -/
structure Spells (p : TimePattern) (cs : List Char) : Prop where
  year : IsRun 4 4 p.year
  month : IsRun 1 2 p.month
  day : IsRun 1 2 p.day
  clock : ∃ rest, ClockSpelled p rest ∧ cs = p.year ++ '-' :: (p.month ++ '-' :: (p.day ++ rest))

/-- What stands behind digits that may be fewer. -/
def StopsRun (rest : List Char) : Prop :=
  ∀ c ∈ rest.head?, isDigit c = false

theorem digits?_eq_some {low high : Nat} {cs ds rest : List Char} :
    digits? low high cs = some (ds, rest) ↔
      IsRun low high ds ∧ cs = ds ++ rest ∧ (ds.length = high ∨ StopsRun rest) := by
  constructor
  · intro h
    unfold digits? at h
    dsimp only at h
    split at h
    · rename_i hlow
      obtain ⟨rest', hcut, hstop⟩ := exists_append_takeWhile_take isDigit high cs
      have hdigits : ∀ c ∈ (cs.take high).takeWhile isDigit, isDigit c = true := fun c hc =>
        List.mem_takeWhile_imp hc
      have hhigh : ((cs.take high).takeWhile isDigit).length ≤ high :=
        Nat.le_trans (List.takeWhile_sublist _).length_le (List.length_take_le _ _)
      generalize (cs.take high).takeWhile isDigit = run at *
      obtain ⟨rfl, rfl⟩ := Prod.mk.inj (Option.some.inj h)
      have hrest : cs.drop run.length = rest' := by rw [hcut, List.drop_left]
      rw [hrest]
      exact ⟨⟨hlow, hhigh, hdigits⟩, hcut, hstop⟩
    · cases h
  · rintro ⟨hrun, rfl, hstop⟩
    have htake := takeWhile_take_append hrun.digits hrun.atMost hstop
    unfold digits?
    simp only [htake, hrun.atLeast, if_true, List.drop_left]

theorem digits?_append {low high : Nat} {ds rest : List Char} (hrun : IsRun low high ds)
    (hstop : ds.length = high ∨ StopsRun rest) : digits? low high (ds ++ rest) = some (ds, rest) :=
  digits?_eq_some.2 ⟨hrun, rfl, hstop⟩

theorem after?_eq_some {c : Char} {cs rest : List Char} : after? c cs = some rest ↔ cs = c :: rest := by
  cases cs with
  | nil => simp [after?]
  | cons d cs => simp [after?]

@[simp] theorem after?_cons (c : Char) (rest : List Char) : after? c (c :: rest) = some rest :=
  after?_eq_some.2 rfl

theorem stopsRun_nil : StopsRun [] :=
  fun c hc => by cases hc

theorem stopsRun_cons {c : Char} (h : isDigit c = false) (rest : List Char) : StopsRun (c :: rest) := by
  intro d hd
  obtain rfl := Option.some.inj hd
  exact h

theorem FractionSpelled.stopsRun {fraction cs : List Char} (h : FractionSpelled fraction cs) :
    StopsRun cs := by
  rcases h with ⟨-, rfl⟩ | ⟨-, rfl⟩
  · exact stopsRun_nil
  · exact stopsRun_cons (by decide) _

theorem SecondSpelled.stopsRun {second fraction cs : List Char} (h : SecondSpelled second fraction cs) :
    StopsRun cs := by
  rcases h with ⟨-, -, rfl⟩ | ⟨-, rest, -, rfl⟩
  · exact stopsRun_nil
  · exact stopsRun_cons (by decide) _

theorem ClockSpelled.stopsRun {p : TimePattern} {cs : List Char} (h : ClockSpelled p cs) :
    StopsRun cs := by
  rcases h with ⟨-, -, -, -, rfl⟩ | ⟨-, -, mark, rest, rfl | rfl, -, rfl⟩
  · exact stopsRun_nil
  · exact stopsRun_cons (by decide) _
  · exact stopsRun_cons (by decide) _

theorem fraction?_eq_some {cs fraction : List Char} :
    fraction? cs = some fraction ↔ FractionSpelled fraction cs := by
  constructor
  · intro h
    unfold fraction? at h
    split at h
    · exact Or.inl ⟨(Option.some.inj h).symm, rfl⟩
    · obtain ⟨behind, hmark, hread⟩ := Option.bind_eq_some_iff.1 h
      obtain ⟨⟨ds, rest⟩, hdigits, hend⟩ := Option.bind_eq_some_iff.1 hread
      obtain ⟨hrun, hbehind, -⟩ := digits?_eq_some.1 hdigits
      dsimp only at hend
      split at hend
      · rename_i hempty
        obtain rfl := Option.some.inj hend
        rw [List.isEmpty_iff.1 hempty, List.append_nil] at hbehind
        rw [hbehind] at hmark
        exact Or.inr ⟨hrun, after?_eq_some.1 hmark⟩
      · cases hend
  · rintro (⟨rfl, rfl⟩ | ⟨hrun, rfl⟩)
    · rfl
    · have hdigits := digits?_append hrun (Or.inr stopsRun_nil)
      rw [List.append_nil] at hdigits
      simp [fraction?, hdigits]

theorem second?_eq_some {cs second fraction : List Char} :
    second? cs = some (second, fraction) ↔ SecondSpelled second fraction cs := by
  constructor
  · intro h
    unfold second? at h
    split at h
    · cases h
      exact Or.inl ⟨rfl, rfl, rfl⟩
    · obtain ⟨behind, hmark, hread⟩ := Option.bind_eq_some_iff.1 h
      obtain ⟨⟨ds, rest⟩, hdigits, hrest⟩ := Option.bind_eq_some_iff.1 hread
      obtain ⟨part, hfraction, hmake⟩ := Option.bind_eq_some_iff.1 hrest
      cases hmake
      obtain ⟨hrun, rfl, -⟩ := digits?_eq_some.1 hdigits
      exact Or.inr ⟨hrun, rest, fraction?_eq_some.1 hfraction, after?_eq_some.1 hmark⟩
  · rintro (⟨rfl, rfl, rfl⟩ | ⟨hrun, rest, hfraction, rfl⟩)
    · rfl
    · simp [second?, digits?_append hrun (Or.inr hfraction.stopsRun), fraction?_eq_some.2 hfraction]

/-- **A text is taken apart just when it spells something**, and into the parts that it spells. -/
theorem ofChars?_eq_some {cs : List Char} {p : TimePattern} :
    ofChars? cs = some p ↔ p.Spells cs := by
  constructor
  · intro h
    unfold ofChars? at h
    obtain ⟨⟨year, cs₁⟩, hyear, h₁⟩ := Option.bind_eq_some_iff.1 h
    obtain ⟨cs₂, hmark₂, h₂⟩ := Option.bind_eq_some_iff.1 h₁
    obtain ⟨⟨month, cs₃⟩, hmonth, h₃⟩ := Option.bind_eq_some_iff.1 h₂
    obtain ⟨cs₄, hmark₄, h₄⟩ := Option.bind_eq_some_iff.1 h₃
    obtain ⟨⟨day, cs₅⟩, hday, h₅⟩ := Option.bind_eq_some_iff.1 h₄
    obtain ⟨hyearRun, rfl, -⟩ := digits?_eq_some.1 hyear
    obtain ⟨hmonthRun, rfl, -⟩ := digits?_eq_some.1 hmonth
    obtain ⟨hdayRun, rfl, -⟩ := digits?_eq_some.1 hday
    obtain rfl := after?_eq_some.1 hmark₂
    obtain rfl := after?_eq_some.1 hmark₄
    dsimp only at h₅
    split at h₅
    · cases h₅
      exact ⟨hyearRun, hmonthRun, hdayRun, [], Or.inl ⟨rfl, rfl, rfl, rfl, rfl⟩, rfl⟩
    · rename_i mark cs₆
      split at h₅
      · rename_i hmark
        obtain ⟨⟨hour, cs₇⟩, hhour, h₇⟩ := Option.bind_eq_some_iff.1 h₅
        obtain ⟨cs₈, hmark₈, h₈⟩ := Option.bind_eq_some_iff.1 h₇
        obtain ⟨⟨minute, cs₉⟩, hminute, h₉⟩ := Option.bind_eq_some_iff.1 h₈
        obtain ⟨⟨second, fraction⟩, hsecond, hmake⟩ := Option.bind_eq_some_iff.1 h₉
        cases hmake
        obtain ⟨hhourRun, rfl, -⟩ := digits?_eq_some.1 hhour
        obtain ⟨hminuteRun, rfl, -⟩ := digits?_eq_some.1 hminute
        obtain rfl := after?_eq_some.1 hmark₈
        exact ⟨hyearRun, hmonthRun, hdayRun, _,
          Or.inr ⟨hhourRun, hminuteRun, mark, cs₉, hmark, second?_eq_some.1 hsecond, rfl⟩, rfl⟩
      · cases h₅
  · rintro ⟨hyear, hmonth, hday, rest, hclock, rfl⟩
    have hstop := hclock.stopsRun
    have hdash : ∀ cs, StopsRun ('-' :: cs) := stopsRun_cons (by decide)
    have hcolon : ∀ cs, StopsRun (':' :: cs) := stopsRun_cons (by decide)
    obtain ⟨year, month, day, hour, minute, second, fraction⟩ := p
    dsimp only at hyear hmonth hday hclock
    unfold ofChars?
    simp only [digits?_append hyear (Or.inr (hdash _)), digits?_append hmonth (Or.inr (hdash _)),
      digits?_append hday (Or.inr hstop), after?_cons, bind, Option.bind]
    rcases hclock with ⟨rfl, rfl, rfl, rfl, rfl⟩ | ⟨hhour, hminute, mark, rest, hmark, hsecond, rfl⟩
    · rfl
    · simp only [hmark, if_true, digits?_append hhour (Or.inr (hcolon _)), after?_cons,
        digits?_append hminute (Or.inr hsecond.stopsRun), second?_eq_some.2 hsecond]
      rfl

/-- A text spells one thing only. -/
theorem Spells.unique {p q : TimePattern} {cs : List Char} (hp : p.Spells cs) (hq : q.Spells cs) : p = q :=
  Option.some.inj ((ofChars?_eq_some.2 hp).symm.trans (ofChars?_eq_some.2 hq))

/-! ## Parts of a text -/

variable {p : TimePattern} {cs : List Char}

theorem Spells.length_fraction (h : p.Spells cs) : p.fraction.length ≤ 3 := by
  obtain ⟨rest, ⟨-, -, -, hnone, -⟩ | ⟨-, -, mark, rest', -, hsecond, -⟩, -⟩ := h.clock
  · rw [hnone]
    decide
  · rcases hsecond with ⟨-, hnone, -⟩ | ⟨-, rest'', ⟨hnone, -⟩ | ⟨hrun, -⟩, -⟩
    · rw [hnone]
      decide
    · rw [hnone]
      decide
    · exact hrun.atMost

theorem SecondSpelled.mem_of_mem_part {second fraction cs : List Char}
    (h : SecondSpelled second fraction cs) {part : List Char} (hpart : part ∈ [second, fraction]) {c : Char}
    (hc : c ∈ part) : c ∈ cs ∧ isDigit c = true := by
  simp only [List.mem_cons, List.not_mem_nil, or_false] at hpart
  rcases h with ⟨rfl, rfl, -⟩ | ⟨hsecond, rest, hfraction, rfl⟩
  · rcases hpart with rfl | rfl <;> cases hc
  · rcases hpart with rfl | rfl
    · exact ⟨by simp [hc], hsecond.digits c hc⟩
    · rcases hfraction with ⟨rfl, -⟩ | ⟨hfraction, rfl⟩
      · cases hc
      · exact ⟨by simp [hc], hfraction.digits c hc⟩

theorem ClockSpelled.mem_of_mem_part (h : ClockSpelled p cs) {part : List Char}
    (hpart : part ∈ [p.hour, p.minute, p.second, p.fraction]) {c : Char} (hc : c ∈ part) :
    c ∈ cs ∧ isDigit c = true := by
  rcases h with ⟨hhour, hminute, hsecond, hfraction, -⟩ | ⟨hhour, hminute, mark, rest, -, hsecond, rfl⟩
  · simp only [hhour, hminute, hsecond, hfraction, List.mem_cons, List.not_mem_nil, or_false, or_self]
      at hpart
    subst hpart
    cases hc
  · rw [List.mem_cons, List.mem_cons] at hpart
    rcases hpart with rfl | rfl | hpart
    · exact ⟨by simp [hc], hhour.digits c hc⟩
    · exact ⟨by simp [hc], hminute.digits c hc⟩
    · obtain ⟨hmem, hdigit⟩ := hsecond.mem_of_mem_part hpart hc
      exact ⟨by simp [hmem], hdigit⟩

/-- The parts are made of digits that stand in the text. -/
theorem Spells.mem_of_mem_part (h : p.Spells cs) {part : List Char}
    (hpart : part ∈ [p.year, p.month, p.day, p.hour, p.minute, p.second, p.fraction]) {c : Char}
    (hc : c ∈ part) : c ∈ cs ∧ isDigit c = true := by
  obtain ⟨hyear, hmonth, hday, rest, hclock, rfl⟩ := h
  rw [List.mem_cons, List.mem_cons, List.mem_cons] at hpart
  rcases hpart with rfl | rfl | rfl | hpart
  · exact ⟨by simp [hc], hyear.digits c hc⟩
  · exact ⟨by simp [hc], hmonth.digits c hc⟩
  · exact ⟨by simp [hc], hday.digits c hc⟩
  · obtain ⟨hmem, hdigit⟩ := hclock.mem_of_mem_part hpart hc
    exact ⟨by simp [hmem], hdigit⟩

end MetadataStore.TimePattern
