import MetadataStore.Proofs.Query.Quoting
import MetadataStore.Proofs.Text.Lowercase

/-!
# `Proofs.Query.Prepared` — which statements the engine can read

The engine reads a statement no further than to its first null character. What a statement writes of its own
holds none, nor do times; and normalising a text neither makes one nor takes one away. So a statement can be
read exactly when none of the texts that its constraints compare with has a null character, whatever its order
and page are.

## Contents
- `Expression.texts`, `Expression.NullFree`, `Search.NullFree`: texts without null characters.
- `null_mem_normalize`, `Piece.Quotes.null_mem_text`: where null characters come from.
- `Statement.null_mem_text`, `prepare_eq_ok`, `prepare_of_null`: when a statement can be read.
-/

namespace MetadataStore

/-! ## Texts that are compared with -/

/-- The text that a constraint compares with, if it does with one. -/
def Item.texts (item : Item) : List String :=
  match item.operand with
  | .string s => [s]
  | _ => []

namespace Expression

/-- The texts that the constraints of a tree compare with. -/
def texts (e : Expression) : List String :=
  e.items.flatMap Item.texts

/-- No constraint of a tree compares with a text that holds a null character. -/
def NullFree (e : Expression) : Prop :=
  ∀ s ∈ e.texts, '\x00' ∉ s.toList

instance : DecidablePred NullFree := fun e =>
  inferInstanceAs (Decidable (∀ s ∈ e.texts, '\x00' ∉ s.toList))

/-- Null characters are a matter of the constraints of a tree alone. -/
theorem nullFree_congr {e e' : Expression} (hitems : e'.items = e.items) : e'.NullFree ↔ e.NullFree := by
  unfold NullFree texts
  rw [hitems]

end Expression

/-- A search without a tree, or with one that compares with no null character. -/
def Search.NullFree (search : Search) : Prop :=
  ∀ e ∈ search.expression, e.NullFree

instance : DecidablePred Search.NullFree := fun search =>
  inferInstanceAs (Decidable (∀ e ∈ search.expression, e.NullFree))

@[simp] theorem Search.nullFree_some (e : Expression) (order : SearchOrder) (paging : Paging) :
    (⟨some e, order, paging⟩ : Search).NullFree ↔ e.NullFree := by
  simp [NullFree]

namespace Query

variable {dialect : Dialect}

/-! ## Where null characters come from -/

/-- Neither quotes nor asterisks are replaced by null characters. -/
theorem normalChar_eq_null_iff (dialect : Dialect) (c : Char) : normalChar dialect c = '\x00' ↔ c = '\x00' := by
  unfold normalChar
  by_cases hquote : c = '\''
  · subst hquote
    cases dialect <;> decide
  · by_cases hstar : c = '*'
    · subst hstar
      cases dialect <;> decide
    · simp [hquote, hstar]

/-- **Normalising a text neither makes null characters nor takes them away.** -/
theorem null_mem_normalize (dialect : Dialect) (operator : Operator) (s : String) :
    '\x00' ∈ (normalize dialect operator s).2.toList ↔ '\x00' ∈ s.toList := by
  simp only [normalize, String.toList_ofList, List.mem_map, normalChar_eq_null_iff, exists_eq_right]
  exact Text.mem_lowerFrom_iff_of_sign (by decide)

/-- A null character in pieces is one in what they quote. -/
theorem Piece.Quotes.null_mem_text {pieces : List Piece} {texts : List String} (h : Quotes pieces texts) :
    '\x00' ∈ (Piece.text pieces).toList ↔ ∃ t ∈ texts, '\x00' ∈ t.toList := by
  obtain ⟨hclean, rfl⟩ := h
  induction pieces with
  | nil => simp [Piece.text, quotedTexts]
  | cons piece rest ih =>
    have hrest := ih fun p hp => hclean p (List.mem_cons_of_mem piece hp)
    have hpiece := hclean piece List.mem_cons_self
    rw [toList_text_cons, List.mem_append, hrest]
    cases piece with
    | code s =>
      have hnone : '\x00' ∉ (Piece.code s).written.toList := hpiece.2
      simp only [hnone, false_or, quotedTexts]
    | quoted s =>
      rw [toList_written_quoted, quotedTexts]
      simp

/-- Times are quoted without null characters, so that what a constraint quotes has one when its text does. -/
theorem null_mem_operandTexts (dialect : Dialect) (operator : Operator) (operand : Datum) (adjustable : Bool) :
    (∃ t ∈ operandTexts dialect operator operand adjustable, '\x00' ∈ t.toList) ↔
      ∃ s, operand = .string s ∧ '\x00' ∈ s.toList := by
  cases operand with
  | string s => simp [operandTexts, null_mem_normalize]
  | time moment =>
    have hno : ¬∃ s, Datum.time moment = .string s ∧ '\x00' ∈ s.toList := by
      rintro ⟨s, hstring, -⟩
      cases hstring
    refine iff_of_false ?_ hno
    rintro ⟨t, ht, hnull⟩
    obtain ⟨written, -, htext⟩ := List.mem_flatMap.1 ht
    have hclean : '\x00' ∉ written.text.toList := (harmless_time written).2
    cases dialect with
    | sqlite =>
      rw [List.mem_singleton.1 htext] at hnull
      exact hclean hnull
    | postgresql =>
      rcases List.mem_pair.1 htext with rfl | rfl
      · exact hclean hnull
      · exact absurd hnull (by decide)
  | integer | long | double | boolean | data => simp [operandTexts]

theorem null_mem_quotedTexts (dialect : Dialect) (item : Item) :
    (∃ t ∈ item.quotedTexts dialect, '\x00' ∈ t.toList) ↔ ∃ s ∈ item.texts, '\x00' ∈ s.toList := by
  have htexts : (∃ s ∈ item.texts, '\x00' ∈ s.toList) ↔ ∃ s, item.operand = .string s ∧ '\x00' ∈ s.toList := by
    unfold Item.texts
    split
    · rename_i s hoperand
      simp [hoperand]
    · rename_i hother
      simp only [List.not_mem_nil, false_and, exists_false, false_iff]
      rintro ⟨s, hoperand, -⟩
      exact hother s hoperand
  rw [htexts]
  cases item with
  | column c operator operand => exact null_mem_operandTexts dialect operator operand false
  | element id operator operand adjustable => exact null_mem_operandTexts dialect operator operand adjustable

/-! ## Statements -/

theorem exists_mem_flatMap {α β : Type} {f : α → List β} {p : β → Prop} {l : List α} :
    (∃ b ∈ l.flatMap f, p b) ↔ ∃ a ∈ l, ∃ b ∈ f a, p b := by
  simp only [List.mem_flatMap]
  constructor
  · rintro ⟨b, ⟨a, ha, hb⟩, hp⟩
    exact ⟨a, ha, b, hb, hp⟩
  · rintro ⟨a, ha, b, hb, hp⟩
    exact ⟨b, ⟨a, ha, hb⟩, hp⟩

/-- **A statement has a null character when a text that is compared with has one.** -/
theorem Statement.null_mem_text {search : Search} {statement : Statement}
    (h : ofSearch dialect search = .ok statement) :
    '\x00' ∈ (Piece.text (statement.pieces dialect)).toList ↔ ¬search.NullFree := by
  rw [(quotes_ofSearch h).null_mem_text, exists_mem_flatMap]
  simp only [null_mem_quotedTexts]
  unfold Search.emitted Search.NullFree
  cases search.expression with
  | none => simp
  | some e =>
    have htexts : (∃ s ∈ e.texts, '\x00' ∈ s.toList) ↔ ∃ item ∈ e.items, ∃ s ∈ item.texts, '\x00' ∈ s.toList :=
      exists_mem_flatMap
    simp [e.perm_emitted.mem_iff, ← htexts, Expression.NullFree]

theorem prepare_eq_ok {text : String} {u : Unit} : prepare text = .ok u ↔ '\x00' ∉ text.toList := by
  unfold prepare
  split <;> simp_all

theorem prepare_of_null {text : String} (h : '\x00' ∈ text.toList) :
    prepare text = .error (.read (unclosed text)) :=
  if_pos h

/-- A tree that compares with no null character makes a statement that can be read. -/
theorem Statement.prepare_ofSearch {search : Search} {statement : Statement}
    (h : ofSearch dialect search = .ok statement) (hnull : search.NullFree) :
    prepare (Piece.text (statement.pieces dialect)) = .ok () :=
  prepare_eq_ok.2 fun hmem => (null_mem_text h).1 hmem hnull

end Query

end MetadataStore
