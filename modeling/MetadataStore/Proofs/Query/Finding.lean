import Mathlib.Data.List.TakeWhile
import MetadataStore.Proofs.Query.Normal
import MetadataStore.Proofs.Query.Selection

/-!
# `Proofs.Query.Finding` — looking for a text as it is stored

An equality with a text is a pattern match if the text has wildcards. Either way the text is lowered
first over all of Unicode, and the engine lowers what is stored over the ASCII letters alone. A text that
stands in storage just as it is looked for is found exactly when the two forms agree: wildcards match
themselves, and they do not help where a letter is lost, since every other character of the pattern takes
up one of the text that is no wildcard either.

## Contents
- `like_normalized`, `sublist_of_like`: patterns that match.
- `lowerChars_eq_of_like`: a text that matches itself, lowered in two ways.
- `Comparison.holds_stored_iff`, `Repository.search_finds_stored_iff`, with the letter that is not found.
-/

namespace MetadataStore

open MetadataStore.Text (foldAscii lowerChars lowerFrom lowerAt)
open MetadataStore.Query (isWildcard normalChar normalize)

variable {before cs pattern : List Char} {c : Char}

/-! ## Patterns -/

theorem anyEnd_iff {test : List Char → Bool} :
    anyEnd test cs = true ↔ ∃ passed rest, cs = passed ++ rest ∧ test rest = true := by
  induction cs with
  | nil => simp [anyEnd]
  | cons c cs ih =>
    rw [anyEnd, Bool.or_eq_true, ih]
    constructor
    · rintro (hhere | ⟨passed, rest, rfl, hrest⟩)
      · exact ⟨[], c :: cs, rfl, hhere⟩
      · exact ⟨c :: passed, rest, rfl, hrest⟩
    · rintro ⟨passed, rest, hsplit, hrest⟩
      cases passed with
      | nil =>
        rw [List.nil_append] at hsplit
        subst hsplit
        exact Or.inl hrest
      | cons d passed =>
        obtain ⟨-, rfl⟩ := List.cons.inj hsplit
        exact Or.inr ⟨passed, rest, rfl, hrest⟩

/-- **A normalised text matches the text**: a wildcard matches itself as well. -/
theorem like_normalized (hquote : '\'' ∉ cs) : like (cs.map (normalChar .sqlite)) cs = true := by
  induction cs with
  | nil => rfl
  | cons c cs ih =>
    rw [List.mem_cons, not_or] at hquote
    have hrest := ih hquote.2
    rw [List.map_cons, like]
    split
    · exact anyEnd_iff.2 ⟨[c], cs, rfl, hrest⟩
    · rename_i hpercent
      have hsame : normalChar .sqlite c = c := by
        unfold normalChar at hpercent ⊢
        have hne : ¬(c == '\'') = true := by simpa using fun h => hquote.1 h.symm
        rw [if_neg hne] at hpercent ⊢
        split
        · rename_i hstar
          rw [if_pos hstar] at hpercent
          exact absurd rfl hpercent
        · rfl
      simp [hsame, hrest]

/-- The characters of a text that are no wildcards. -/
def literals (cs : List Char) : List Char :=
  cs.filter fun c => !isWildcard c

theorem literals_append (xs ys : List Char) : literals (xs ++ ys) = literals xs ++ literals ys :=
  List.filter_append xs ys

theorem literals_cons_of_wildcard (cs : List Char) (h : isWildcard c = true) :
    literals (c :: cs) = literals cs :=
  List.filter_cons_of_neg (by simp [h])

theorem literals_cons_of_literal (cs : List Char) (h : isWildcard c = false) :
    literals (c :: cs) = c :: literals cs :=
  List.filter_cons_of_pos (by simp [h])

/-- **A pattern that matches takes up a character** of the text for each of its own that is no wildcard. By
induction on the pattern: a percent sign skips some of the text, and an underscore one character. -/
theorem sublist_of_like (h : like pattern cs = true) :
    List.Sublist ((literals pattern).map foldAscii) (cs.map foldAscii) := by
  induction pattern generalizing cs with
  | nil => exact List.nil_sublist _
  | cons p ps ih =>
    unfold like at h
    split at h
    · rename_i hpercent
      subst hpercent
      obtain ⟨passed, rest, rfl, hrest⟩ := anyEnd_iff.1 h
      rw [List.map_append]
      exact (ih hrest).trans (List.sublist_append_right _ _)
    · cases cs with
      | nil => cases h
      | cons c cs =>
        rw [Bool.and_eq_true] at h
        obtain ⟨hhere, hrest⟩ := h
        cases hwild : isWildcard p with
        | true =>
          rw [literals_cons_of_wildcard ps hwild]
          exact (ih hrest).cons _
        | false =>
          have hsame : foldAscii p = foldAscii c := by
            have hunder : p ≠ '_' := by
              rintro rfl
              cases hwild
            simpa [hunder] using hhere
          rw [literals_cons_of_literal ps hwild, List.map_cons, List.map_cons, hsame]
          exact (ih hrest).cons_cons _

/-! ## A text lowered in two ways -/

/-- What is no wildcard is lowered to none. -/
theorem literals_lowerAt (after : List Char) (h : isWildcard c = false) :
    literals (lowerAt before c after) = lowerAt before c after :=
  List.filter_eq_self.2 fun x hx => by rw [isWildcard_of_mem_lowerAt hx h, Bool.not_false]

/-- Lowering loses no character that is no wildcard. -/
theorem length_literals_le (before cs : List Char) :
    (literals cs).length ≤ (literals (lowerFrom before cs)).length := by
  induction cs generalizing before with
  | nil => exact Nat.le_refl _
  | cons c cs ih =>
    have hrest := ih (c :: before)
    rw [lowerFrom, literals_append, List.length_append]
    cases hwild : isWildcard c with
    | true =>
      rw [literals_cons_of_wildcard cs hwild]
      exact Nat.le_trans hrest (Nat.le_add_left _ _)
    | false =>
      rw [literals_cons_of_literal cs hwild, literals_lowerAt cs hwild, Text.length_lowerAt,
        List.length_cons]
      split <;> omega

/-- Where what is no wildcard is lowered alike, everything is. By induction on the text: its characters
become one each, as none of them becomes none. -/
theorem lowerFrom_eq_of_literals (h : literals (lowerFrom before cs) = (literals cs).map foldAscii) :
    lowerFrom before cs = cs.map foldAscii := by
  induction cs generalizing before with
  | nil => rfl
  | cons c cs ih =>
    rw [lowerFrom, literals_append] at h
    rw [lowerFrom, List.map_cons]
    cases hwild : isWildcard c with
    | true =>
      have hfolded : isWildcard (foldAscii c) = true := (isWildcard_foldAscii c).trans hwild
      rw [lowerAt_of_isWildcard cs hwild, literals_cons_of_wildcard cs hwild,
        literals_cons_of_wildcard [] hfolded] at h
      rw [lowerAt_of_isWildcard cs hwild, ih h]
      rfl
    | false =>
      rw [literals_lowerAt cs hwild, literals_cons_of_literal cs hwild, List.map_cons] at h
      have hlength := congrArg List.length h
      have hrest := length_literals_le (c :: before) cs
      rw [List.length_append, List.length_cons, List.length_map] at hlength
      have hone : (lowerAt before c cs).length = [foldAscii c].length := by
        rw [Text.length_lowerAt] at hlength ⊢
        split at hlength
        · omega
        · rename_i hdotted
          rw [if_neg hdotted]
          rfl
      obtain ⟨hhead, htail⟩ := List.append_inj (h : _ = [foldAscii c] ++ _) hone
      rw [hhead, ih htail]
      rfl

theorem quote_not_mem_lowerChars (hquote : '\'' ∉ cs) : '\'' ∉ lowerChars cs :=
  fun hmem => hquote ((Text.mem_lowerFrom_iff_of_sign (by decide)).1 hmem)

theorem literals_normalized (hquote : '\'' ∉ cs) :
    literals (cs.map (normalChar .sqlite)) = literals cs := by
  induction cs with
  | nil => rfl
  | cons c cs ih =>
    rw [List.mem_cons, not_or] at hquote
    have hne : ¬(c == '\'') = true := by simpa using fun h => hquote.1 h.symm
    rw [List.map_cons, normalChar, if_neg hne]
    by_cases hstar : c = '*'
    · subst hstar
      exact ih hquote.2
    · have hother : ¬(c == '*') = true := by simpa using hstar
      rw [if_neg hother]
      cases hwild : isWildcard c with
      | true =>
        rw [literals_cons_of_wildcard _ hwild, literals_cons_of_wildcard _ hwild, ih hquote.2]
      | false => rw [literals_cons_of_literal _ hwild, literals_cons_of_literal _ hwild, ih hquote.2]

theorem literals_map_foldAscii (cs : List Char) :
    literals (cs.map foldAscii) = (literals cs).map foldAscii := by
  unfold literals
  rw [List.filter_map]
  exact congrArg (List.map foldAscii) (List.filter_congr fun c _ => by simp [isWildcard_foldAscii])

theorem map_foldAscii_literals_lowerChars (cs : List Char) :
    (literals (lowerChars cs)).map foldAscii = literals (lowerChars cs) := by
  refine (List.map_congr_left fun x hx => ?_).trans (List.map_id _)
  obtain ⟨before, c, after, -, hmem⟩ := Text.mem_lowerFrom (List.mem_filter.1 hx).1
  exact Text.foldAscii_of_mem_lowerAt hmem

/-- **A text that matches its own pattern** is lowered alike in both ways: the pattern takes up as many
characters that are no wildcards as the text has. -/
theorem lowerChars_eq_of_like (hquote : '\'' ∉ cs)
    (h : like ((lowerChars cs).map (normalChar .sqlite)) (cs.map foldAscii) = true) :
    lowerChars cs = cs.map foldAscii := by
  have htaken : List.Sublist (literals (lowerChars cs)) (cs.map foldAscii) := by
    have hsub := sublist_of_like h
    rwa [literals_normalized (quote_not_mem_lowerChars hquote), map_foldAscii_literals_lowerChars,
      List.map_map, show foldAscii ∘ foldAscii = foldAscii from funext Text.foldAscii_foldAscii] at hsub
  have hliterals : List.Sublist (literals (lowerChars cs)) ((literals cs).map foldAscii) := by
    have hsub := htaken.filter fun c => !isWildcard c
    rw [← literals_map_foldAscii]
    simpa [literals, List.filter_filter] using hsub
  refine lowerFrom_eq_of_literals (hliterals.eq_of_length_le ?_)
  rw [List.length_map]
  exact length_literals_le [] cs

theorem like_lowered_iff (hquote : '\'' ∉ cs) :
    like ((lowerChars cs).map (normalChar .sqlite)) (cs.map foldAscii) = true ↔
      lowerChars cs = cs.map foldAscii := by
  constructor
  · exact lowerChars_eq_of_like hquote
  · intro h
    rw [← h]
    exact like_normalized (quote_not_mem_lowerChars hquote)

/-- A text without wildcards stays as it is lowered. -/
theorem map_normalChar_lowerChars (hquote : '\'' ∉ cs) (hplain : cs.any isWildcard = false) :
    (lowerChars cs).map (normalChar .sqlite) = lowerChars cs := by
  refine (List.map_congr_left fun x hx => ?_).trans (List.map_id _)
  obtain ⟨before, c, after, hc, hmem⟩ := Text.mem_lowerFrom hx
  have hstar : ¬(x == '*') = true := by
    intro h
    rw [beq_iff_eq] at h
    subst h
    rw [Text.eq_of_mem_lowerAt hmem (by decide)] at hc
    exact absurd (List.any_eq_false.1 hplain '*' hc) (by decide)
  have hother : ¬(x == '\'') = true := by
    intro h
    rw [beq_iff_eq] at h
    subst h
    exact quote_not_mem_lowerChars hquote hx
  rw [normalChar, if_neg hother, if_neg hstar]
  rfl

/-! ## Comparisons and searches -/

namespace Query

/-- A text without null characters is matched against a pattern as a whole. -/
theorem upToNull_ofList {cs : List Char} (hnull : '\x00' ∉ cs) : upToNull (String.ofList cs) = cs := by
  unfold upToNull
  rw [String.toList_ofList]
  refine List.takeWhile_eq_self_iff.2 fun c hc => ?_
  have hne : c ≠ '\x00' := by
    rintro rfl
    exact hnull hc
  simpa using hne

theorem compareOfLessAndEq_eq_iff {s t : String} : compareOfLessAndEq s t = .eq ↔ s = t := by
  unfold compareOfLessAndEq
  split
  · rename_i hlt
    refine iff_of_false nofun ?_
    rintro rfl
    exact String.lt_irrefl s hlt
  · split
    · rename_i heq
      exact iff_of_true rfl heq
    · rename_i hne
      exact iff_of_false nofun hne

/-- **An equality with a text holds of the text itself** exactly when its two lower-case forms agree. -/
theorem Comparison.holds_stored_iff {s : String} (hquote : '\'' ∉ s.toList) (hnull : '\x00' ∉ s.toList)
    (isTextColumn : Bool) :
    ((Comparison.text (normalize .sqlite .eq s).1 (normalize .sqlite .eq s).2).truth isTextColumn
      (.text s)).holds = true ↔ Text.lower s = Text.foldAsciiText s := by
  have hforms : Text.lower s = Text.foldAsciiText s ↔ lowerChars s.toList = s.toList.map foldAscii := by
    unfold Text.lower Text.foldAsciiText
    exact String.ofList_inj
  have hpattern : '\x00' ∉ (lowerChars s.toList).map (normalChar .sqlite) := by
    have hvalue := mt (null_mem_normalize .sqlite .eq s).1 hnull
    rwa [normalize, String.toList_ofList] at hvalue
  have hstored : '\x00' ∉ s.toList.map foldAscii := by
    rintro hmem
    obtain ⟨c, hc, hfold⟩ := List.mem_map.1 hmem
    rw [Text.eq_of_foldAscii hfold (by decide)] at hc
    exact hnull hc
  have hlowered : lowered (.text s) = .text (Text.foldAsciiText s) := rfl
  rw [Comparison.truth, hlowered, hforms]
  unfold normalize compareCells Text.foldAsciiText
  simp only [reduceCtorEq, if_false]
  cases hwild : s.toList.any isWildcard with
  | true =>
    simp only [settleOperator, if_true, Cell.text?, upToNull_ofList hpattern, upToNull_ofList hstored,
      Truth.holds_ofBool]
    exact like_lowered_iff hquote
  | false =>
    rw [map_normalChar_lowerChars hquote hwild]
    simp only [settleOperator, Bool.false_eq_true, if_false, reduceCtorEq, if_true, Operator.accepts,
      Cell.asText, Cell.compare]
    rw [Truth.holds_ofBool, beq_iff_eq, compareOfLessAndEq_eq_iff, String.ofList_inj]
    exact eq_comm

end Query

namespace Repository

variable {r : Repository} {s : String} {row : UnitRow} {order : SearchOrder}

/-- A stored unit is hit when the tree is true of its row. -/
theorem mem_hits_iff {e : Expression} {hits : List UnitRef} (hunits : r.database.UnitsDistinct)
    (hrow : row ∈ r.database.units)
    (hmem : ∀ unit, unit ∈ hits ↔
      ∃ row ∈ r.database.units, row.unit = unit ∧ e.truth .sqlite r.database row = .ok .yes) :
    row.unit ∈ hits ↔ e.truth .sqlite r.database row = .ok .yes := by
  rw [hmem]
  constructor
  · rintro ⟨row', hrow', hsame, htrue⟩
    rwa [← eq_of_nodup UnitRow.unit hunits hrow' hrow hsame]
  · exact fun htrue => ⟨row, hrow, rfl, htrue⟩

/-- What an equality with a text compares with. -/
def sought (s : String) : Query.Comparison :=
  .text (normalize .sqlite .eq s).1 (normalize .sqlite .eq s).2

theorem truth_name_iff (hquote : '\'' ∉ s.toList) (hnull : '\x00' ∉ s.toList) (hname : row.name = some s)
    (db : Database) :
    (Expression.leaf (.name .eq s)).truth .sqlite db row = .ok .yes ↔
      Text.lower s = Text.foldAsciiText s := by
  have hcell : row.cell .name = .text s := by
    unfold UnitRow.cell
    rw [hname]
  have htruth : (Expression.leaf (.name .eq s)).truth .sqlite db row =
      .ok ((sought s).truth true (row.cell .name)) := rfl
  rw [htruth, Except.ok.injEq, ← Query.Comparison.holds_stored_iff hquote hnull true, hcell, Truth.holds,
    beq_iff_eq]
  rfl

theorem truth_element_iff (id : Int) (db : Database) :
    (Expression.leaf (.element id .eq (.string s) false)).truth .sqlite db row = .ok .yes ↔
      ∃ mapping ∈ db.mappingsOf row.unit, mapping.attributeId = id ∧
        ∃ element ∈ db.elementsIn .string mapping.valueId,
          ((sought s).truth true element.cell).holds = true := by
  have htruth : (Expression.leaf (.element id .eq (.string s) false)).truth .sqlite db row =
      .ok (.ofBool ((db.mappingsOf row.unit).any fun mapping =>
        mapping.attributeId == id && (db.elementsIn .string mapping.valueId).any fun element =>
          ((sought s).truth true element.cell).holds)) := rfl
  rw [htruth, Except.ok.injEq, ← beq_iff_eq, ← Truth.holds, Truth.holds_ofBool]
  simp only [List.any_eq_true, Bool.and_eq_true, beq_iff_eq]

/-- **What is stored is found** when its two lower-case forms agree, that is, when every character of it beyond
ASCII is its own lower-case form. Under its name a unit is found by the name exactly then. Under an
attribute it is found by an element then, and only then if it has no other element there. -/
theorem search_finds_stored_iff (hunits : r.database.UnitsDistinct) (hcache : r.cache.Keyed)
    (hquote : '\'' ∉ s.toList) (hnull : '\x00' ∉ s.toList) (hrow : row ∈ r.database.units)
    (order : SearchOrder) :
    (Text.lower s = Text.foldAsciiText s ↔ ∀ c ∈ s.toList, 0x80 ≤ c.toNat → Text.IsLowered c) ∧
      (row.name = some s →
        ∃ hits : List UnitRef, r.Hits ⟨some (.leaf (.name .eq s)), order, .none⟩ hits ∧
          (∀ unit, unit ∈ hits ↔ ∃ row ∈ r.database.units, row.unit = unit ∧
            (Expression.leaf (.name .eq s)).truth .sqlite r.database row = .ok .yes) ∧
          (row.unit ∈ hits ↔ Text.lower s = Text.foldAsciiText s)) ∧
      ∀ mapping ∈ r.database.mappingsOf row.unit,
        ∀ element ∈ r.database.elementsIn .string mapping.valueId,
          element.cell = (Datum.string s).toCell →
          ∃ (item : Item) (hits : List UnitRef),
            Item.ofElement mapping.attributeId .eq (.string s) = .ok item ∧
            r.Hits ⟨some (.leaf item), order, .none⟩ hits ∧
            (∀ unit, unit ∈ hits ↔ ∃ row ∈ r.database.units, row.unit = unit ∧
              (Expression.leaf item).truth .sqlite r.database row = .ok .yes) ∧
            (Text.lower s = Text.foldAsciiText s → row.unit ∈ hits) ∧
            ((∀ other ∈ r.database.mappingsOf row.unit, other.attributeId = mapping.attributeId →
                ∀ element' ∈ r.database.elementsIn .string other.valueId, element'.cell = element.cell) →
              row.unit ∈ hits → Text.lower s = Text.foldAsciiText s) := by
  have hfound := Query.Comparison.holds_stored_iff hquote hnull true
  have hfree : ∀ t ∈ [s], '\x00' ∉ t.toList := List.forall_mem_singleton.2 hnull
  refine ⟨Text.lower_eq_foldAsciiText_iff s, fun hname => ?_, fun mapping hmapping element helement hcell => ?_⟩
  · obtain ⟨hits, hhits, -, hmem⟩ := exists_hits (e := .leaf (.name .eq s)) hunits hcache rfl hfree order
    refine ⟨hits, hhits, hmem, ?_⟩
    rw [mem_hits_iff hunits hrow hmem, truth_name_iff hquote hnull hname]
  · obtain ⟨hits, hhits, -, hmem⟩ := exists_hits
      (e := .leaf (.element mapping.attributeId .eq (.string s) false)) hunits hcache rfl hfree order
    have hunit := (mem_hits_iff hunits hrow hmem).trans (truth_element_iff _ _)
    refine ⟨.element mapping.attributeId .eq (.string s) false, hits, rfl, hhits, hmem, ?_, ?_⟩
    · intro hforms
      refine hunit.2 ⟨mapping, hmapping, rfl, element, helement, ?_⟩
      rw [hcell]
      exact hfound.2 hforms
    · intro honly hhit
      obtain ⟨other, hother, hid, element', helement', hholds⟩ := hunit.1 hhit
      rw [honly other hother hid element' helement', hcell] at hholds
      exact hfound.1 hholds

/-- A unit with a text for its name and for its title. -/
def titledUnit (s : String) : Repository :=
  .open .inMemory
    { Database.empty with
      units := [⟨⟨1, 1⟩, "first", some s, 30, "2024-05-01 08:00:00.000"⟩]
      attributes := [⟨1, "title", 1, false⟩]
      mappings := [⟨⟨1, 1⟩, 1, 1⟩]
      elements := [⟨.string, 1, 0, .text s⟩]
      lastUnit := 1
      lastAttribute := 1
      lastValue := 1 }
    .epoch 0

/-- Capitals and wildcards are found, and small letters beyond ASCII. -/
theorem search_titledUnit :
    ∃ named titled : List UnitRef,
      (titledUnit "50%_A* é").Hits ⟨some (.leaf (.name .eq "50%_A* é")), [], .none⟩ named ∧
      ⟨1, 1⟩ ∈ named ∧
      (titledUnit "50%_A* é").Hits
        ⟨some (.leaf (.element 1 .eq (.string "50%_A* é") false)), [], .none⟩ titled ∧
      ⟨1, 1⟩ ∈ titled := by
  have hunits : (titledUnit "50%_A* é").database.UnitsDistinct := by
    unfold Database.UnitsDistinct
    decide
  have hforms : Text.lower "50%_A* é" = Text.foldAsciiText "50%_A* é" := by decide +kernel
  obtain ⟨-, hname, helement⟩ :=
    search_finds_stored_iff (s := "50%_A* é") hunits (Cache.all_empty _) (by decide) (by decide)
      List.mem_cons_self []
  obtain ⟨named, hnamed, -, hfound⟩ := hname rfl
  obtain ⟨item, titled, hitem, htitled, -, hfound', -⟩ :=
    helement ⟨⟨1, 1⟩, 1, 1⟩ List.mem_cons_self ⟨.string, 1, 0, .text "50%_A* é"⟩ List.mem_cons_self rfl
  cases hitem
  exact ⟨named, titled, hnamed, hfound.2 hforms, htitled, hfound' hforms⟩

/-- A capital beyond ASCII is not found, whether as a name or as a title: it is lowered where it is looked
for, and not where it is stored. -/
theorem capital_not_found :
    (titledUnit "É").database.hasUnit ⟨1, 1⟩ = true ∧
      (matching ⟨some (.leaf (.name .eq "É")), [], .none⟩ (titledUnit "É")).1.toOption = some [] ∧
      Item.ofElement 1 .eq (.string "É") = .ok (.element 1 .eq (.string "É") false) ∧
      (matching ⟨some (.leaf (.element 1 .eq (.string "É") false)), [], .none⟩
        (titledUnit "É")).1.toOption = some [] :=
  ⟨by decide +kernel, by decide +kernel, rfl, by decide +kernel⟩

end Repository

end MetadataStore
