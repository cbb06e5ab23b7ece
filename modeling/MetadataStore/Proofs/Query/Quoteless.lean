import MetadataStore.Proofs.Number.Layout
import MetadataStore.Query.Statement

/-!
# `Proofs.Query.Quoteless` — what a statement writes of its own is harmless

Numbers, times and truth values are written from digits and a handful of signs, and everything else
that a statement writes of its own is fixed text. None of it holds a single quote or a null character, so
that it neither begins what is quoted nor ends the statement. What stands between quotes holds no quote
either: it is a normalised operand, a time or the layout of times. Of these only an operand can hold a null
character.

## Contents
- `DateTime.not_mem_text`: times.
- `Harmless`, texts with neither, and how it passes through concatenation; `Quoteless`, texts without a quote.
- `harmless_column`, `harmless_pagingClause` and others: the words of a statement.
-/

namespace MetadataStore

/-! ## Times -/

/-- A time is written with digits and a handful of signs. -/
theorem DateTime.not_mem_text {c : Char} (hdigit : Text.asciiDigit? c = none)
    (hsign : c ∉ ['+', '-', ' ', ':', '.']) (t : DateTime) : c ∉ t.text.toList := by
  have hpadded : ∀ width n, c ∉ Text.padded width n := fun width n => Text.not_mem_padded hdigit
  simp only [List.mem_cons, List.not_mem_nil, or_false, not_or] at hsign
  have hyear : c ∉ yearText t.date.year := by
    unfold yearText
    split
    · exact hpadded 4 _
    · split <;> simp [hpadded, hsign]
  simp [DateTime.text, DateTime.chars, hyear, hpadded, hsign]

namespace Query

/-! ## Texts without quotes -/

/-- A text without a single quote. -/
def Quoteless (s : String) : Prop :=
  '\'' ∉ s.toList

/-- A text with neither a single quote nor a null character. -/
def Harmless (s : String) : Prop :=
  '\'' ∉ s.toList ∧ '\x00' ∉ s.toList

instance : DecidablePred Quoteless := fun s => inferInstanceAs (Decidable ('\'' ∉ s.toList))

instance : DecidablePred Harmless := fun s =>
  inferInstanceAs (Decidable ('\'' ∉ s.toList ∧ '\x00' ∉ s.toList))

theorem Harmless.quoteless {s : String} (h : Harmless s) : Quoteless s :=
  h.1

@[simp] theorem harmless_append {s t : String} :
    Harmless (s ++ t) ↔ Harmless s ∧ Harmless t := by
  simp only [Harmless, String.toList_append, List.mem_append, not_or]
  exact and_and_and_comm

theorem harmless_ite {p : Prop} [Decidable p] {s t : String} (hs : Harmless s)
    (ht : Harmless t) : Harmless (if p then s else t) := by
  split
  · exact hs
  · exact ht

theorem harmless_intercalate {separator : String} {texts : List String}
    (hseparator : Harmless separator) (h : ∀ s ∈ texts, Harmless s) :
    Harmless (String.intercalate separator texts) := by
  induction texts with
  | nil =>
    rw [String.intercalate_nil]
    decide
  | cons s texts ih =>
    have hs := h s List.mem_cons_self
    have hrest := ih fun t ht => h t (List.mem_cons_of_mem _ ht)
    by_cases hnil : texts = []
    · rw [hnil, String.intercalate_singleton]
      exact hs
    · rw [String.intercalate_cons_of_ne_nil hnil]
      simp only [harmless_append]
      exact ⟨⟨hs, hseparator⟩, hrest⟩

@[simp] theorem harmless_integer (i : Int) : Harmless (Text.integer i) :=
  ⟨Text.not_mem_integer (by decide) (by decide), Text.not_mem_integer (by decide) (by decide)⟩

@[simp] theorem harmless_time (moment : DateTime) : Harmless moment.text :=
  ⟨moment.not_mem_text (by decide) (by decide), moment.not_mem_text (by decide) (by decide)⟩

@[simp] theorem harmless_double (x : Number.Binary64) :
    Harmless (Number.Layout.literal.text x) :=
  ⟨Number.Layout.not_mem_text (by decide) (by decide) x, Number.Layout.not_mem_text (by decide) (by decide) x⟩

@[simp] theorem quoteless_normalize (dialect : Dialect) (operator : Operator) (s : String) :
    Quoteless (normalize dialect operator s).2 :=
  quote_not_mem_normalize dialect operator s

/-! ## Words of a statement -/

@[simp] theorem harmless_operator (operator : Operator) : Harmless operator.text := by
  cases operator <;> decide

@[simp] theorem harmless_column (column : Column) : Harmless column.text := by
  cases column <;> decide

@[simp] theorem harmless_vectorTable (kind : Kind) : Harmless (vectorTable kind) := by
  cases kind <;> decide

@[simp] theorem harmless_truthLiteral (dialect : Dialect) (truth : Bool) :
    Harmless (dialect.truthLiteral truth) :=
  harmless_ite (by decide) (by decide)

theorem harmless_orderText (entry : Column × Bool) : Harmless (Statement.orderText entry) :=
  harmless_append.2 ⟨harmless_column entry.1, harmless_ite (by decide) (by decide)⟩

theorem harmless_pagingClause (dialect : Dialect) (paging : Paging) :
    Harmless (dialect.pagingClause paging) := by
  -- every part of a clause is a fixed word or a number
  have hclause : ∀ (word : String) (i : Int), Harmless word → Harmless (word ++ Text.integer i) :=
    fun word i hword => harmless_append.2 ⟨hword, harmless_integer i⟩
  have hnone : Harmless "" := by decide
  cases dialect with
  | sqlite =>
    refine harmless_ite ?_ (harmless_ite (hclause _ _ (by decide)) hnone)
    exact harmless_append.2
      ⟨harmless_append.2 ⟨hclause _ _ (by decide), by decide⟩, harmless_integer _⟩
  | postgresql =>
    have hrows : ∀ (word rows : String) (i : Int), Harmless word → Harmless rows →
        Harmless (word ++ Text.integer i ++ rows) := fun word rows i hword hrows =>
      harmless_append.2 ⟨hclause word i hword, hrows⟩
    refine harmless_ite ?_ (harmless_ite (hrows _ _ _ (by decide) (by decide)) hnone)
    exact harmless_append.2 ⟨hrows _ _ _ (by decide) (by decide),
      harmless_ite (hrows _ _ _ (by decide) (by decide)) hnone⟩

end Query

end MetadataStore
