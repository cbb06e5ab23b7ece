import MetadataStore.Text.Lowercase

/-!
# `Proofs.Text.Lowercase` — two lower-case forms

Names and operands are lowered over all of Unicode, stored texts by the engine over the ASCII letters
alone. Either way a character that is lowered becomes a small letter, so that signs are only ever
themselves.
The two forms of a text agree when every character beyond ASCII is its own lower-case form. A text that is
lowered stays as it is when it is lowered again, as the runs of characters that are moved lie apart from
where they are moved.

## Contents
- `toNat_foldAscii`, `lowerChar_cases`: what becomes of one character.
- `eq_of_mem_lowerAt`, `foldAscii_of_mem_lowerAt`: signs come from themselves, and no capital is left.
- `mem_lowerFrom_iff_of_sign`: signs of a text and of its lower-case form.
- `IsLowered`, `lower_eq_foldAsciiText_iff`: when the two forms of a text agree.
- `lower_foldAsciiText`: nothing that the engine folds is lost to the other form.
- `lowerChar_lowerChar`, `isLowered_of_mem_lowerAt`: a lower-case form is its own.
-/

namespace MetadataStore.Text

variable {before after cs : List Char} {c x : Char}

/-! ## One character -/

theorem toNat_foldAscii (c : Char) :
    (foldAscii c).toNat = if 0x41 ≤ c.toNat ∧ c.toNat ≤ 0x5A then c.toNat + 32 else c.toNat := by
  have hval : c.val.toNat = c.toNat := rfl
  unfold foldAscii Char.toLower
  split
  · rename_i h
    simp only [ge_iff_le, UInt32.le_iff_toNat_le, Char.reduceVal, UInt32.reduceToNat] at h
    rw [if_pos (by omega)]
    show (c.val + ('a'.val - 'A'.val)).toNat = _
    have hshift : ('a'.val - 'A'.val).toNat = 32 := rfl
    rw [UInt32.toNat_add]
    omega
  · rename_i h
    simp only [ge_iff_le, UInt32.le_iff_toNat_le, Char.reduceVal, UInt32.reduceToNat] at h
    rw [if_neg (by omega)]

/-- What is no ASCII capital stays as it is. -/
theorem foldAscii_of_not_capital (h : ¬(0x41 ≤ c.toNat ∧ c.toNat ≤ 0x5A)) : foldAscii c = c := by
  apply Char.toNat_inj.1
  rw [toNat_foldAscii, if_neg h]

theorem foldAscii_of_beyond (h : 0x80 ≤ c.toNat) : foldAscii c = c :=
  foldAscii_of_not_capital (by omega)

@[simp] theorem foldAscii_foldAscii (c : Char) : foldAscii (foldAscii c) = foldAscii c := by
  apply foldAscii_of_not_capital
  rw [toNat_foldAscii]
  split
  · omega
  · assumption

/-- Runs are moved to letters, and to characters. -/
theorem bounds_of_mem_lowerRuns :
    ∀ run ∈ lowerRuns, 0x61 ≤ run.first + run.shift ∧
      (run.last + run.shift < 0xD800 ∨
        0xDFFF < run.first + run.shift ∧ run.last + run.shift < 0x110000) := by
  decide +kernel

theorem toNat_ofNat {n : Nat} (h : n < 0xD800 ∨ 0xDFFF < n ∧ n < 0x110000) :
    (Char.ofNat n).toNat = n := by
  unfold Char.ofNat
  rw [dif_pos h]
  rfl

theorem covers_iff {run : CaseRun} {n : Nat} :
    run.covers n = true ↔ run.first ≤ n ∧ n ≤ run.last ∧ (n - run.first) % run.step = 0 := by
  simp [CaseRun.covers, and_assoc]

/-- What has a lower-case form of its own beyond ASCII is moved there by a run. -/
theorem exists_run_of_lowerChar_ne (hbeyond : 0x80 ≤ c.toNat) (h : lowerChar c ≠ c) :
    ∃ run ∈ lowerRuns, run.covers c.toNat = true ∧
      ((lowerChar c).toNat : Int) = c.toNat + run.shift := by
  unfold lowerChar at h ⊢
  dsimp only at h ⊢
  rw [if_neg (Nat.not_lt.2 hbeyond)] at h ⊢
  split at h
  · rename_i run hfind
    have hrun := List.mem_of_find?_eq_some hfind
    have hcovers := List.find?_some hfind
    obtain ⟨hletter, hvalid⟩ := bounds_of_mem_lowerRuns run hrun
    obtain ⟨hfirst, hlast, -⟩ := covers_iff.1 hcovers
    refine ⟨run, hrun, hcovers, ?_⟩
    rw [toNat_ofNat]
    · omega
    · omega
  · exact absurd rfl h

/-- What is not an ASCII letter stays as it is, or becomes a letter. -/
theorem lowerChar_cases (c : Char) :
    (c.toNat < 0x80 ∧ lowerChar c = foldAscii c) ∨
      (0x80 ≤ c.toNat ∧ (lowerChar c = c ∨ 0x61 ≤ (lowerChar c).toNat)) := by
  by_cases hascii : c.toNat < 0x80
  · refine Or.inl ⟨hascii, ?_⟩
    unfold lowerChar
    dsimp only
    rw [if_pos hascii]
    rfl
  · have hbeyond := Nat.not_lt.1 hascii
    refine Or.inr ⟨hbeyond, ?_⟩
    by_cases hsame : lowerChar c = c
    · exact Or.inl hsame
    · obtain ⟨run, hrun, hcovers, hmoved⟩ := exists_run_of_lowerChar_ne hbeyond hsame
      obtain ⟨hletter, -⟩ := bounds_of_mem_lowerRuns run hrun
      obtain ⟨hfirst, -⟩ := covers_iff.1 hcovers
      right
      omega

/-- What comes before the small letters comes from itself alone. -/
theorem eq_of_foldAscii (h : foldAscii c = x) (hsign : x.toNat < 0x61) : c = x := by
  by_cases hcapital : 0x41 ≤ c.toNat ∧ c.toNat ≤ 0x5A
  · rw [← h, toNat_foldAscii, if_pos hcapital] at hsign
    omega
  · rwa [foldAscii_of_not_capital hcapital] at h

theorem eq_of_lowerChar (h : lowerChar c = x) (hsign : x.toNat < 0x61) : c = x := by
  rcases lowerChar_cases c with ⟨-, hfold⟩ | ⟨-, hsame | hletter⟩
  · exact eq_of_foldAscii (hfold.symm.trans h) hsign
  · exact hsame.symm.trans h
  · rw [h] at hletter
    omega

/-- No ASCII capital is left to fold. -/
theorem foldAscii_lowerChar (c : Char) : foldAscii (lowerChar c) = lowerChar c := by
  rcases lowerChar_cases c with ⟨-, hfold⟩ | ⟨hbeyond, hsame | hletter⟩
  · rw [hfold, foldAscii_foldAscii]
  · rw [hsame, foldAscii_of_beyond hbeyond]
  · exact foldAscii_of_not_capital (by omega)

/-! ## A character in its text -/

/-- What one character becomes: two sigmas, the dotted capital, and a single character otherwise. -/
theorem mem_lowerAt (h : x ∈ lowerAt before c after) :
    x = 'ς' ∨ x = 'σ' ∨ x = 'i' ∨ x = '\u0307' ∨ x = lowerChar c := by
  unfold lowerAt at h
  split at h
  · rw [List.mem_singleton] at h
    split at h
    · exact Or.inl h
    · exact Or.inr (Or.inl h)
  · split at h
    · simp only [List.mem_cons, List.not_mem_nil, or_false] at h
      rcases h with h | h
      · exact Or.inr (Or.inr (Or.inl h))
      · exact Or.inr (Or.inr (Or.inr (Or.inl h)))
    · exact Or.inr (Or.inr (Or.inr (Or.inr (List.mem_singleton.1 h))))

/-- In a text, too, what comes before the small letters comes from itself alone. -/
theorem eq_of_mem_lowerAt (h : x ∈ lowerAt before c after) (hsign : x.toNat < 0x61) : c = x := by
  rcases mem_lowerAt h with rfl | rfl | rfl | rfl | rfl
  · exact absurd hsign (by decide)
  · exact absurd hsign (by decide)
  · exact absurd hsign (by decide)
  · exact absurd hsign (by decide)
  · exact eq_of_lowerChar rfl hsign

theorem foldAscii_of_mem_lowerAt (h : x ∈ lowerAt before c after) : foldAscii x = x := by
  rcases mem_lowerAt h with rfl | rfl | rfl | rfl | rfl
  · decide
  · decide
  · decide
  · decide
  · exact foldAscii_lowerChar c

/-- Every character becomes one, but for the dotted capital, which becomes two. -/
theorem length_lowerAt : (lowerAt before c after).length = if c = 'İ' then 2 else 1 := by
  unfold lowerAt
  by_cases hsigma : c = 'Σ'
  · subst hsigma
    rfl
  · by_cases hdotted : c = 'İ'
    · subst hdotted
      rfl
    · simp [hsigma, hdotted]

/-! ## Texts -/

theorem mem_lowerFrom (h : x ∈ lowerFrom before cs) :
    ∃ before c after, c ∈ cs ∧ x ∈ lowerAt before c after := by
  induction cs generalizing before with
  | nil => cases h
  | cons c cs ih =>
    rcases List.mem_append.1 h with hhead | htail
    · exact ⟨before, c, cs, List.mem_cons_self, hhead⟩
    · obtain ⟨before', c', after, hmem, hx⟩ := ih htail
      exact ⟨before', c', after, List.mem_cons_of_mem c hmem, hx⟩

/-- The character is its own lower-case form. -/
def IsLowered (c : Char) : Prop :=
  c ≠ 'İ' ∧ lowerChar c = c

theorem lowerAt_eq_foldAscii_iff :
    lowerAt before c after = [foldAscii c] ↔ (0x80 ≤ c.toNat → IsLowered c) := by
  by_cases hsigma : c = 'Σ'
  · -- a sigma becomes one of two others
    subst hsigma
    refine iff_of_false (fun h => ?_) fun h => ?_
    · simp only [lowerAt, beq_self_eq_true, if_true, List.cons.injEq, and_true] at h
      split at h
      · exact absurd h (by decide)
      · exact absurd h (by decide)
    · exact absurd (h (by decide)).2 (by decide +kernel)
  · by_cases hdotted : c = 'İ'
    · subst hdotted
      refine iff_of_false (fun h => ?_) fun h => (h (by decide)).1 rfl
      exact absurd (congrArg List.length h) (by rw [length_lowerAt]; decide)
    · have hone : lowerAt before c after = [lowerChar c] := by simp [lowerAt, hsigma, hdotted]
      rw [hone, List.singleton_inj]
      rcases lowerChar_cases c with ⟨hascii, hfold⟩ | ⟨hbeyond, -⟩
      · exact iff_of_true hfold fun hbeyond => absurd hbeyond (by omega)
      · rw [foldAscii_of_beyond hbeyond]
        exact ⟨fun h _ => ⟨hdotted, h⟩, fun h => (h hbeyond).2⟩

/-- A sign is in the lower-case form of a text when it is in the text. -/
theorem mem_lowerFrom_iff_of_sign (hsign : x.toNat < 0x41) : x ∈ lowerFrom before cs ↔ x ∈ cs := by
  constructor
  · intro hmem
    obtain ⟨before', c, after, hc, hx⟩ := mem_lowerFrom hmem
    rwa [← eq_of_mem_lowerAt hx (by omega)]
  · induction cs generalizing before with
    | nil => exact id
    | cons c cs ih =>
      intro hmem
      rw [lowerFrom, List.mem_append]
      rcases List.mem_cons.1 hmem with rfl | hrest
      · left
        rw [lowerAt_eq_foldAscii_iff.2 fun hbeyond => absurd hbeyond (by omega),
          foldAscii_of_not_capital (by omega)]
        exact List.mem_singleton_self x
      · exact Or.inr (ih hrest)

/-- The two forms of a text agree character by character, if they agree. -/
theorem lowerFrom_eq_map_foldAscii_iff :
    lowerFrom before cs = cs.map foldAscii ↔ ∀ c ∈ cs, 0x80 ≤ c.toNat → IsLowered c := by
  induction cs generalizing before with
  | nil => simp [lowerFrom]
  | cons c cs ih =>
    have hhere : lowerAt before c cs = [foldAscii c] ↔ (0x80 ≤ c.toNat → IsLowered c) :=
      lowerAt_eq_foldAscii_iff
    rw [List.forall_mem_cons, ← hhere, ← ih]
    rw [lowerFrom, List.map_cons]
    constructor
    · intro h
      -- no character becomes none, so the first of them becomes one
      have hlength := congrArg List.length h
      have hrest := length_le_length_lowerFrom (c :: before) cs
      rw [List.length_append, List.length_cons, List.length_map, length_lowerAt] at hlength
      have hone : (lowerAt before c cs).length = [foldAscii c].length := by
        rw [length_lowerAt]
        split at hlength
        · omega
        · rename_i hdotted
          rw [if_neg hdotted]
          rfl
      exact List.append_inj h hone
    · rintro ⟨hhead, htail⟩
      rw [hhead, htail]
      rfl

/-- **The two forms of a text agree** when every character beyond ASCII is its own lower-case form. -/
theorem lower_eq_foldAsciiText_iff (s : String) :
    lower s = foldAsciiText s ↔ ∀ c ∈ s.toList, 0x80 ≤ c.toNat → IsLowered c := by
  unfold lower foldAsciiText lowerChars
  rw [String.ofList_inj, lowerFrom_eq_map_foldAscii_iff]

/-! ## Folding first -/

/-- Letters of ASCII are in none of the runs that are skipped. -/
theorem bounds_of_mem_caseIgnorableRuns :
    ∀ run ∈ caseIgnorableRuns, run.2 < 0x41 ∨ 0x5A < run.1 ∧ run.2 < 0x61 ∨ 0x7A < run.1 := by
  decide +kernel

theorem case_of_letter (hletter : 0x41 ≤ c.toNat ∧ c.toNat ≤ 0x5A ∨ 0x61 ≤ c.toNat ∧ c.toNat ≤ 0x7A) :
    isCased c = true ∧ isCaseIgnorable c = false := by
  constructor
  · rcases hletter with hcapital | hsmall
    · exact List.any_eq_true.2 ⟨(0x41, 0x5A), by decide, by simpa using hcapital⟩
    · exact List.any_eq_true.2 ⟨(0x61, 0x7A), by decide, by simpa using hsmall⟩
  · refine List.any_eq_false.2 fun run hrun => ?_
    have hbounds := bounds_of_mem_caseIgnorableRuns run hrun
    simp only [Bool.and_eq_true, decide_eq_true_eq]
    omega

theorem case_foldAscii (c : Char) :
    isCased (foldAscii c) = isCased c ∧ isCaseIgnorable (foldAscii c) = isCaseIgnorable c := by
  by_cases hcapital : 0x41 ≤ c.toNat ∧ c.toNat ≤ 0x5A
  · have hsmall : 0x61 ≤ (foldAscii c).toNat ∧ (foldAscii c).toNat ≤ 0x7A := by
      rw [toNat_foldAscii, if_pos hcapital]
      omega
    obtain ⟨hcased, hskipped⟩ := case_of_letter (Or.inl hcapital)
    obtain ⟨hcased', hskipped'⟩ := case_of_letter (Or.inr hsmall)
    rw [hcased, hcased', hskipped, hskipped']
    exact ⟨rfl, rfl⟩
  · rw [foldAscii_of_not_capital hcapital]
    exact ⟨rfl, rfl⟩

theorem startsCased_map_foldAscii (cs : List Char) :
    startsCased (cs.map foldAscii) = startsCased cs := by
  induction cs with
  | nil => rfl
  | cons c cs ih =>
    obtain ⟨hcased, hignorable⟩ := case_foldAscii c
    unfold startsCased at ih ⊢
    rw [List.map_cons, List.dropWhile_cons, List.dropWhile_cons, hignorable]
    by_cases hskipped : isCaseIgnorable c = true
    · rw [if_pos hskipped, if_pos hskipped]
      exact ih
    · rw [if_neg hskipped, if_neg hskipped]
      exact hcased

theorem foldAscii_ascii (hascii : c.toNat < 0x80) : (foldAscii c).toNat < 0x80 := by
  rw [toNat_foldAscii]
  split
  · omega
  · exact hascii

theorem lowerChar_foldAscii (c : Char) : lowerChar (foldAscii c) = lowerChar c := by
  rcases lowerChar_cases c with ⟨hascii, hfold⟩ | ⟨hbeyond, -⟩
  · have hfolded := foldAscii_ascii hascii
    rcases lowerChar_cases (foldAscii c) with ⟨-, hagain⟩ | ⟨hbeyond, -⟩
    · rw [hagain, foldAscii_foldAscii, hfold]
    · omega
  · rw [foldAscii_of_beyond hbeyond]

/-- Neither what a character becomes nor what its neighbours make of it depends on the case of ASCII
letters. -/
theorem lowerAt_map_foldAscii :
    lowerAt (before.map foldAscii) (foldAscii c) (after.map foldAscii) = lowerAt before c after := by
  unfold lowerAt endsWord
  rw [startsCased_map_foldAscii, startsCased_map_foldAscii, lowerChar_foldAscii]
  by_cases hascii : c.toNat < 0x80
  · -- neither of the two special characters is in ASCII
    have hplain : ∀ x : Char, x.toNat < 0x80 → (x == 'Σ') = false ∧ (x == 'İ') = false := by
      intro x hx
      refine ⟨beq_eq_false_iff_ne.2 ?_, beq_eq_false_iff_ne.2 ?_⟩
      · rintro rfl
        exact absurd hx (by decide)
      · rintro rfl
        exact absurd hx (by decide)
    obtain ⟨hsigma, hdotted⟩ := hplain c hascii
    obtain ⟨hsigma', hdotted'⟩ := hplain (foldAscii c) (foldAscii_ascii hascii)
    rw [hsigma, hdotted, hsigma', hdotted']
  · rw [foldAscii_of_beyond (Nat.not_lt.1 hascii)]

theorem lowerFrom_map_foldAscii (before cs : List Char) :
    lowerFrom (before.map foldAscii) (cs.map foldAscii) = lowerFrom before cs := by
  induction cs generalizing before with
  | nil => rfl
  | cons c cs ih => rw [List.map_cons, lowerFrom, lowerFrom, lowerAt_map_foldAscii, ← List.map_cons, ih]

theorem lower_foldAsciiText (s : String) : lower (foldAsciiText s) = lower s := by
  unfold lower foldAsciiText lowerChars
  rw [String.toList_ofList]
  exact congrArg String.ofList (lowerFrom_map_foldAscii [] s.toList)

/-- **What the engine takes for one name is one name**: texts that differ in the case of ASCII letters alone
have one lower-case form. -/
theorem lower_eq_of_foldAsciiText_eq {s t : String} (h : foldAsciiText s = foldAsciiText t) :
    lower s = lower t := by
  rw [← lower_foldAsciiText s, h, lower_foldAsciiText]

/-! ## Lowering twice -/

/-- What one run moves, another does not move on: it lies beside the other, or between its members. -/
theorem apart_of_mem_lowerRuns :
    ∀ run ∈ lowerRuns, ∀ other ∈ lowerRuns,
      run.last + run.shift < other.first ∨ (other.last : Int) < run.first + run.shift ∨
        other.step = 2 ∧ (run.step = 2 ∨ run.first = run.last) ∧
          (run.first + run.shift - other.first) % 2 = 1 := by
  decide +kernel

/-- No run moves anything to the dotted capital. -/
theorem ne_dotted_of_mem_lowerRuns :
    ∀ run ∈ lowerRuns, run.last + run.shift < 0x130 ∨ 0x130 < run.first + run.shift := by
  decide +kernel

/-- What a run moves is moved by no run. -/
theorem not_covers_moved {run other : CaseRun} (hrun : run ∈ lowerRuns) (hother : other ∈ lowerRuns)
    {n m : Nat} (hcovers : run.covers n = true) (hmoved : (m : Int) = n + run.shift) :
    other.covers m = false := by
  rw [Bool.eq_false_iff]
  intro hagain
  obtain ⟨hfirst, hlast, hstep⟩ := covers_iff.1 hcovers
  obtain ⟨hfirst', hlast', hstep'⟩ := covers_iff.1 hagain
  rcases apart_of_mem_lowerRuns run hrun other hother with hbelow | habove | ⟨htwo, hparity, hodd⟩
  · omega
  · omega
  · -- both take every second character, one the even places and the other the odd ones
    rw [htwo] at hstep'
    rcases hparity with hstepTwo | hsingle
    · rw [hstepTwo] at hstep
      omega
    · omega

/-- What is covered by no run stays as it is. -/
theorem lowerChar_of_not_covers (hbeyond : 0x80 ≤ c.toNat)
    (h : ∀ run ∈ lowerRuns, run.covers c.toNat = false) : lowerChar c = c := by
  have hnone : lowerRuns.find? (·.covers c.toNat) = none :=
    List.find?_eq_none.2 fun run hrun => by simp [h run hrun]
  unfold lowerChar
  dsimp only
  rw [if_neg (Nat.not_lt.2 hbeyond), hnone]

/-- **A lower-case form is its own lower-case form.** -/
theorem lowerChar_lowerChar (c : Char) : lowerChar (lowerChar c) = lowerChar c := by
  rcases lowerChar_cases (lowerChar c) with ⟨-, hfold⟩ | ⟨hbeyond, -⟩
  · rw [hfold, foldAscii_lowerChar]
  · by_cases hmoved : lowerChar c = c
    · rw [hmoved, hmoved]
    · rcases lowerChar_cases c with ⟨hascii, hfold⟩ | ⟨hbeyond', -⟩
      · rw [hfold, lowerChar_foldAscii, hfold]
      · obtain ⟨run, hrun, hcovers, hshift⟩ := exists_run_of_lowerChar_ne hbeyond' hmoved
        exact lowerChar_of_not_covers hbeyond fun other hother =>
          not_covers_moved hrun hother hcovers hshift

theorem lowerChar_ne_dotted (hdotted : c ≠ 'İ') : lowerChar c ≠ 'İ' := by
  intro h
  rcases lowerChar_cases c with ⟨hascii, hfold⟩ | ⟨hbeyond, -⟩
  · have hsmall := foldAscii_ascii hascii
    rw [← hfold, h] at hsmall
    exact absurd hsmall (by decide)
  · by_cases hmoved : lowerChar c = c
    · exact hdotted (hmoved.symm.trans h)
    · obtain ⟨run, hrun, hcovers, hshift⟩ := exists_run_of_lowerChar_ne hbeyond hmoved
      obtain ⟨hfirst, hlast, -⟩ := covers_iff.1 hcovers
      rw [h, show ('İ').toNat = 0x130 from rfl] at hshift
      have := ne_dotted_of_mem_lowerRuns run hrun
      omega

/-- **Whatever a character becomes in a text is its own lower-case form.** -/
theorem isLowered_of_mem_lowerAt (h : x ∈ lowerAt before c after) : IsLowered x := by
  by_cases hdotted : c = 'İ'
  · subst hdotted
    have hmem : x = 'i' ∨ x = '\u0307' := by simpa [lowerAt] using h
    rcases hmem with rfl | rfl
    · exact ⟨by decide, by decide +kernel⟩
    · exact ⟨by decide, by decide +kernel⟩
  · rcases mem_lowerAt h with rfl | rfl | rfl | rfl | rfl
    · exact ⟨by decide, by decide +kernel⟩
    · exact ⟨by decide, by decide +kernel⟩
    · exact ⟨by decide, by decide +kernel⟩
    · exact ⟨by decide, by decide +kernel⟩
    · exact ⟨lowerChar_ne_dotted hdotted, lowerChar_lowerChar c⟩

/-- What is its own lower-case form stays as it is, whatever surrounds it. -/
theorem IsLowered.lowerAt_eq (h : IsLowered c) : lowerAt before c after = [c] := by
  have hsigma : c ≠ 'Σ' := by
    rintro rfl
    exact absurd h.2 (by decide +kernel)
  simp [lowerAt, hsigma, h.1, h.2]

theorem lowerFrom_of_isLowered (h : ∀ c ∈ cs, IsLowered c) : lowerFrom before cs = cs := by
  induction cs generalizing before with
  | nil => rfl
  | cons c cs ih =>
    rw [List.forall_mem_cons] at h
    rw [lowerFrom, h.1.lowerAt_eq, ih h.2]
    rfl

end MetadataStore.Text
