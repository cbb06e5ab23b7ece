import MetadataStore.Proofs.Text.Digits

/-!
# `Proofs.Text.Scripts` — digits of every script

Every script that has decimal digits has them in a row from zero to nine, and so it is plain what a run of
digits denotes, in whatever script. What is read of a run is that number, but only of ASCII digits.

## Contents
- `digitWorth`, `denoted`: the number that digits of any script denote; `denoted_lt`, how large it is.
- `IsAscii`; `readDigitsFrom?_eq_some`: what is read of digits.
- `legible`, the digits that can be read.
-/

namespace MetadataStore.Text

/-- The worth of a digit. The digits of a script stand in a row from zero to nine. -/
def digitWorth (c : Char) : Nat :=
  match digitRuns.find? fun run => run.1 ≤ c.toNat && c.toNat ≤ run.2 with
  | some run => (c.toNat - run.1) % 10
  | none => 0

/-- The number that digits continue from `acc`. -/
def denotedFrom (acc : Nat) (ds : List Char) : Nat :=
  ds.foldl (fun n c => 10 * n + digitWorth c) acc

/-- The decimal number that digits denote. -/
def denoted (ds : List Char) : Nat :=
  denotedFrom 0 ds

/-- There are no digits but those of ASCII. -/
def IsAscii (ds : List Char) : Prop :=
  ∀ c ∈ ds, (asciiDigit? c).isSome = true

-- over the members of the list, not over all characters that there are
instance : DecidablePred IsAscii := fun ds =>
  List.decidableBAll (fun c => (asciiDigit? c).isSome = true) ds

theorem digitWorth_of_asciiDigit? {c : Char} {d : Nat} (h : asciiDigit? c = some d) : digitWorth c = d := by
  obtain ⟨hc, hd⟩ := toNat_of_asciiDigit? h
  have hrun : digitRuns.find? (fun run => run.1 ≤ c.toNat && c.toNat ≤ run.2) = some (0x30, 0x39) := by
    rw [digitRuns, List.find?_cons_of_pos]
    simp only [Bool.and_eq_true, decide_eq_true_eq]
    omega
  simp only [digitWorth, hrun]
  omega

theorem isDigit_of_asciiDigit? {c : Char} (h : (asciiDigit? c).isSome = true) : isDigit c = true := by
  obtain ⟨d, hd⟩ := Option.isSome_iff_exists.1 h
  obtain ⟨hc, hlt⟩ := toNat_of_asciiDigit? hd
  refine List.any_eq_true.2 ⟨(0x30, 0x39), List.mem_cons_self, ?_⟩
  simp only [Bool.and_eq_true, decide_eq_true_eq]
  omega

/-- The digits of all other scripts lie beyond ASCII. -/
theorem isSome_asciiDigit? {c : Char} (h : isDigit c = true) (hc : c.toNat < 128) :
    (asciiDigit? c).isSome = true := by
  have hruns : ∀ run ∈ digitRuns, run = (0x30, 0x39) ∨ 128 ≤ run.1 := by decide
  obtain ⟨run, hmem, hin⟩ := List.any_eq_true.1 h
  simp only [Bool.and_eq_true, decide_eq_true_eq] at hin
  rcases hruns run hmem with rfl | hbeyond
  · unfold asciiDigit?
    rw [if_pos (show '0'.toNat ≤ c.toNat ∧ c.toNat ≤ '9'.toNat from hin)]
    rfl
  · omega

/-- What is read of digits is what they denote, as long as they are those of ASCII. -/
theorem readDigitsFrom?_eq_some {acc n : Nat} {ds : List Char} :
    readDigitsFrom? acc ds = some n ↔ IsAscii ds ∧ denotedFrom acc ds = n := by
  induction ds generalizing acc with
  | nil => simp [readDigitsFrom?, IsAscii, denotedFrom]
  | cons c ds ih =>
    cases hc : asciiDigit? c with
    | none => simp [readDigitsFrom?, IsAscii, hc]
    | some d =>
      have hworth := digitWorth_of_asciiDigit? hc
      simp [readDigitsFrom?, hc, ih, IsAscii, denotedFrom, hworth]

theorem denotedFrom_concat (acc : Nat) (ds : List Char) (c : Char) :
    denotedFrom acc (ds ++ [c]) = 10 * denotedFrom acc ds + digitWorth c := by
  simp only [denotedFrom, List.foldl_append, List.foldl_cons, List.foldl_nil]

theorem denotedFrom_append_zeros (acc : Nat) (ds : List Char) (k : Nat) :
    denotedFrom acc (ds ++ List.replicate k '0') = denotedFrom acc ds * 10 ^ k := by
  have hzero : digitWorth '0' = 0 := by decide
  induction k with
  | zero => simp
  | succ k ih =>
    rw [List.replicate_succ', ← List.append_assoc, denotedFrom_concat, ih, hzero, Nat.add_zero,
      Nat.mul_comm 10, Nat.mul_assoc, Nat.pow_succ]

/-- Digits denote less than a one followed by as many zeros. -/
theorem denotedFrom_lt (acc : Nat) (ds : List Char) :
    denotedFrom acc ds < (acc + 1) * 10 ^ ds.length := by
  induction ds generalizing acc with
  | nil => simp [denotedFrom]
  | cons c ds ih =>
    have hworth : digitWorth c < 10 := by
      unfold digitWorth
      split
      · exact Nat.mod_lt _ (by decide)
      · decide
    calc denotedFrom (10 * acc + digitWorth c) ds
        < (10 * acc + digitWorth c + 1) * 10 ^ ds.length := ih _
      _ ≤ ((acc + 1) * 10) * 10 ^ ds.length := Nat.mul_le_mul_right _ (by omega)
      _ = (acc + 1) * 10 ^ (c :: ds).length := by
        rw [List.length_cons, Nat.pow_succ, Nat.mul_assoc, Nat.mul_comm 10]

theorem denoted_lt (ds : List Char) : denoted ds < 10 ^ ds.length := by
  have h := denotedFrom_lt 0 ds
  rwa [Nat.zero_add, Nat.one_mul] at h

/-- The digits that can be read: none, unless all of them are those of ASCII. -/
def legible (ds : List Char) : List Char :=
  if IsAscii ds then ds else []

theorem denoted_legible {ds : List Char} (h : IsAscii ds ∨ denoted ds = 0) :
    denoted (legible ds) = denoted ds := by
  unfold legible
  split
  · rfl
  · rename_i hforeign
    exact (h.resolve_left hforeign).symm

/-! ## The digits of a number -/

theorem isAscii_padded (width n : Nat) : IsAscii (padded width n) :=
  fun _ hc => asciiDigit?_of_mem_padded hc

theorem denoted_padded (width n : Nat) : denoted (padded width n) = n :=
  (readDigitsFrom?_eq_some.1 (readDigitsFrom?_padded width n)).2

end MetadataStore.Text
