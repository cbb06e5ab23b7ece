import MetadataStore.Proofs.Query.Splitting
import MetadataStore.Query.Meaning

/-!
# `Proofs.Query.Literals` — a comparison is read off its text

A comparison is a column, an operator and a literal, one behind the other. Where each of them ends can be
seen from what stands there: names and numbers hold no blank, operators begin and end with one, and
whatever is quoted has no quote inside. What is lost in the text is lost in the meaning too: times that have
the same text are compared with alike, so are a truth value and the integer that it is written as, and a
double is read from its text by the engine as well. Nor does another dialect tell them apart.

## Contents
- `append_inj_of_stop`, `append_inj_of_char`: words in front of something that they do not hold.
- `Piece.chars`, the characters of pieces.
- `Comparison.Proper`, what comparisons are made of; `Comparison.Same`, `Subquery.Same`, those that are not
  told apart.
- `Comparison.read`, `Subquery.read`: comparisons and subqueries with the same text are the same.
-/

namespace MetadataStore

/-! ## Words -/

/-- Two runs of characters that something stops, and nothing in them does, end together. -/
theorem append_inj_of_stop {p : Char → Prop} [DecidablePred p] {xs ys rest rest' : List Char}
    (hxs : ∀ c ∈ xs, ¬p c) (hys : ∀ c ∈ ys, ¬p c) (hrest : ∀ c ∈ rest.head?, p c)
    (hrest' : ∀ c ∈ rest'.head?, p c) (h : xs ++ rest = ys ++ rest') : xs = ys ∧ rest = rest' := by
  have hspan : ∀ {zs tail : List Char}, (∀ c ∈ zs, ¬p c) → (∀ c ∈ tail.head?, p c) →
      (zs ++ tail).takeWhile (fun c => !decide (p c)) = zs := by
    intro zs tail hzs htail
    rw [List.takeWhile_append_of_pos fun c hc => by simp [hzs c hc]]
    cases tail with
    | nil => rw [List.takeWhile_nil, List.append_nil]
    | cons c tail => rw [List.takeWhile_cons_of_neg (by simp [htail c rfl]), List.append_nil]
  have hsame : xs = ys := by rw [← hspan hxs hrest, h, hspan hys hrest']
  subst hsame
  exact ⟨rfl, List.append_cancel_left h⟩

theorem append_inj_of_char {c : Char} {xs ys rest rest' : List Char} (hxs : c ∉ xs) (hys : c ∉ ys)
    (hrest : rest.head? = some c) (hrest' : rest'.head? = some c) (h : xs ++ rest = ys ++ rest') :
    xs = ys ∧ rest = rest' := by
  have hother : ∀ {zs : List Char}, c ∉ zs → ∀ d ∈ zs, ¬d = c := by
    rintro zs hzs d hd rfl
    exact hzs hd
  have hhead : ∀ {tail : List Char}, tail.head? = some c → ∀ d ∈ tail.head?, d = c := by
    intro tail htail d hd
    rw [htail] at hd
    exact (Option.some.inj hd).symm
  exact append_inj_of_stop (hother hxs) (hother hys) (hhead hrest) (hhead hrest') h

namespace Query

/-- Nothing, a blank or a closing parenthesis: what stands behind a condition, and behind a number. -/
def Stops (rest : List Char) : Prop :=
  ∀ c ∈ rest.head?, c = ' ' ∨ c = ')'

theorem stops_nil : Stops [] :=
  fun _ h => by cases h

/-- Characters without a blank or a closing parenthesis. -/
def IsWord (cs : List Char) : Prop :=
  ' ' ∉ cs ∧ ')' ∉ cs

instance : DecidablePred IsWord := fun cs => inferInstanceAs (Decidable (' ' ∉ cs ∧ ')' ∉ cs))

variable {xs ys rest rest' : List Char} {c : Char}

theorem stops_of_blank (h : rest.head? = some ' ') : Stops rest := by
  intro c hc
  rw [h] at hc
  cases hc
  exact Or.inl rfl

theorem stops_of_close (h : rest.head? = some ')') : Stops rest := by
  intro c hc
  rw [h] at hc
  cases hc
  exact Or.inr rfl

/-- Words are read up to where they stop. -/
theorem IsWord.append_inj (hxs : IsWord xs) (hys : IsWord ys) (hrest : Stops rest) (hrest' : Stops rest')
    (h : xs ++ rest = ys ++ rest') : xs = ys ∧ rest = rest' := by
  have hword : ∀ {zs : List Char}, IsWord zs → ∀ c ∈ zs, ¬(c = ' ' ∨ c = ')') := by
    rintro zs ⟨hblank, hclose⟩ c hc (rfl | rfl)
    · exact hblank hc
    · exact hclose hc
  exact append_inj_of_stop (hword hxs) (hword hys) hrest hrest' h

/-- A word that something follows does not begin with a character that neither has. -/
theorem append_ne_cons (hxs : c ∉ xs) (hrest : Stops rest) (hblank : c ≠ ' ') (hclose : c ≠ ')') :
    xs ++ rest ≠ c :: rest' := by
  intro h
  cases xs with
  | nil =>
    rw [List.nil_append] at h
    subst h
    rcases hrest c rfl with rfl | rfl
    · exact hblank rfl
    · exact hclose rfl
  | cons x xs =>
    obtain ⟨rfl, -⟩ := List.cons.inj h
    exact hxs List.mem_cons_self

/-- What is quoted is read up to the closing quote. -/
theorem quoted_append_inj {s t : String} (hs : Quoteless s) (ht : Quoteless t)
    (h : s.toList ++ '\'' :: rest = t.toList ++ '\'' :: rest') : s = t ∧ rest = rest' := by
  obtain ⟨hsame, hrests⟩ := append_inj_of_char hs ht rfl rfl h
  exact ⟨String.toList_inj.1 hsame, (List.cons.inj hrests).2⟩

/-! ## Numbers -/

theorem truthLiteral_eq (dialect : Dialect) (value : Bool) :
    dialect.truthLiteral value = Text.integer (if value then 1 else 0) := by
  cases dialect <;> cases value <;> decide +kernel

/-- The texts of numbers are words. -/
theorem isWord_integer (i : Int) : IsWord (Text.integer i).toList :=
  ⟨Text.not_mem_integer (by decide) (by decide), Text.not_mem_integer (by decide) (by decide)⟩

theorem isWord_double (x : Number.Binary64) : IsWord (Number.Layout.literal.text x).toList :=
  ⟨Number.Layout.not_mem_text (by decide) (by decide) x, Number.Layout.not_mem_text (by decide) (by decide) x⟩

/-! ## Pieces -/

namespace Piece

/-- The characters of pieces. -/
def chars (pieces : List Piece) : List Char :=
  (text pieces).toList

@[simp] theorem chars_nil : chars [] = [] := rfl

@[simp] theorem chars_code (s : String) (rest : List Piece) :
    chars (.code s :: rest) = s.toList ++ chars rest :=
  toList_text_cons _ _

@[simp] theorem chars_quoted (s : String) (rest : List Piece) :
    chars (.quoted s :: rest) = '\'' :: (s.toList ++ '\'' :: chars rest) := by
  unfold chars
  rw [toList_text_cons, toList_written_quoted]
  simp

@[simp] theorem chars_append (xs ys : List Piece) : chars (xs ++ ys) = chars xs ++ chars ys := by
  induction xs with
  | nil => rfl
  | cons x xs ih => cases x <;> simp [ih]

/-- A text that begins with the first pieces as well as with the second, each up to where it stops, tells
the fact, and both end at the same place. -/
def Tell (xs ys : List Piece) (fact : Prop) : Prop :=
  ∀ rest rest', Stops rest → Stops rest' → chars xs ++ rest = chars ys ++ rest' → fact ∧ rest = rest'

theorem Tell.symm {xs ys : List Piece} {fact : Prop} (h : Tell xs ys fact) : Tell ys xs fact := by
  intro rest rest' hrest hrest' htext
  obtain ⟨hfact, hrests⟩ := h rest' rest hrest' hrest htext.symm
  exact ⟨hfact, hrests.symm⟩

end Piece

/-! ## Parts of comparisons -/

/-- No operator is the beginning of another one's text. -/
theorem operator_append_inj {o o' : Operator}
    (h : o.text.toList ++ rest = o'.text.toList ++ rest') : o = o' ∧ rest = rest' := by
  cases o <;> cases o' <;> simp_all [Operator.text]

theorem head_operator (o : Operator) (rest : List Char) : (o.text.toList ++ rest).head? = some ' ' := by
  cases o <;> rfl

/-- A time is read up to the end of its literal. -/
theorem timeLiteral_append_inj {dialect : Dialect} {t t' : DateTime}
    (h : Piece.chars (dialect.timeLiteral t) ++ rest = Piece.chars (dialect.timeLiteral t') ++ rest') :
    t.text = t'.text ∧ rest = rest' := by
  cases dialect with
  | sqlite =>
    simp only [Dialect.timeLiteral, Piece.chars_quoted, Piece.chars_nil, List.cons_append,
      List.append_assoc, List.nil_append, List.cons.injEq, true_and] at h
    exact quoted_append_inj (harmless_time t).quoteless (harmless_time t').quoteless h
  | postgresql =>
    simp only [Dialect.timeLiteral, Piece.chars_code, Piece.chars_quoted, Piece.chars_nil,
      List.cons_append, List.append_assoc, List.nil_append, List.append_cancel_left_eq,
      List.cons.injEq, true_and] at h
    obtain ⟨htext, hrest⟩ := quoted_append_inj (harmless_time t).quoteless (harmless_time t').quoteless h
    exact ⟨htext, by simpa using hrest⟩

namespace Comparison

/-- Whether the column is lowered. -/
def isLowered : Comparison → Bool
  | .text .. => true
  | _ => false

/-- The operator, the first of the two that a span is written with. -/
def operator : Comparison → Operator
  | .text o _ | .time o _ | .integer o _ | .double o _ | .flag o _ => o
  | .within .. => .geq

/-- What is written behind the operator. -/
def literal (dialect : Dialect) : Comparison → List Piece
  | .text _ value => [.quoted value]
  | .time _ moment => dialect.timeLiteral moment
  | .within low _ => dialect.timeLiteral low
  | .integer _ number => [.code (Text.integer number)]
  | .double _ number => [.code (Number.Layout.literal.text number)]
  | .flag _ value => [.code (dialect.truthLiteral value)]

/-- What is written in front of the operator. -/
def subject (column : String) (comparison : Comparison) : String :=
  if comparison.isLowered then "LOWER(" ++ column ++ ")" else column

/-- Both ends of a span are compared with. -/
def IsSpan : Comparison → Prop
  | .within .. => True
  | _ => False

variable {dialect : Dialect} {column column' : String} {comparison comparison' : Comparison}

theorem chars_pieces (h : ¬comparison.IsSpan) :
    Piece.chars (comparison.pieces dialect column) =
      (comparison.subject column).toList ++ comparison.operator.text.toList ++
        Piece.chars (comparison.literal dialect) := by
  cases comparison with
  | within low high => exact absurd trivial h
  | _ => simp [pieces, subject, isLowered, operator, literal]

/-- Texts that are compared with hold no quotes, and doubles have literals. -/
def Proper : Comparison → Prop
  | .text _ value => Quoteless value
  | .double _ number => number.isFinite = true
  | .time .. | .within .. | .integer .. | .flag .. => True

/-- Numbers and truth values are compared with. -/
def IsNumber : Comparison → Prop
  | .integer .. | .double .. | .flag .. => True
  | .text .. | .time .. | .within .. => False

/-- Comparisons that every engine takes for the same, and that every dialect writes alike. -/
structure Same (comparison comparison' : Comparison) : Prop where
  truth : ∀ engine isTextColumn stored, (comparison.asRead engine).truth isTextColumn stored =
    (comparison'.asRead engine).truth isTextColumn stored
  pieces : ∀ dialect column, comparison.pieces dialect column = comparison'.pieces dialect column

theorem Same.refl (comparison : Comparison) : comparison.Same comparison :=
  ⟨fun _ _ _ => rfl, fun _ _ => rfl⟩

theorem Same.symm (h : comparison.Same comparison') : comparison'.Same comparison :=
  ⟨fun engine isTextColumn stored => (h.truth engine isTextColumn stored).symm,
    fun dialect column => (h.pieces dialect column).symm⟩

theorem Same.trans {comparison'' : Comparison} (h : comparison.Same comparison')
    (h' : comparison'.Same comparison'') : comparison.Same comparison'' :=
  ⟨fun engine isTextColumn stored =>
      (h.truth engine isTextColumn stored).trans (h'.truth engine isTextColumn stored),
    fun dialect column => (h.pieces dialect column).trans (h'.pieces dialect column)⟩

end Comparison

/-! ## Comparisons -/

/-- The name of a column has neither a blank nor a parenthesis. -/
def IsName (column : String) : Prop :=
  ' ' ∉ column.toList ∧ '(' ∉ column.toList

instance : DecidablePred IsName := fun column =>
  inferInstanceAs (Decidable (' ' ∉ column.toList ∧ '(' ∉ column.toList))

theorem isName_column (column : Column) : IsName column.text := by
  cases column <;> decide

theorem column_text_injective {c c' : Column} (h : c.text = c'.text) : c = c' := by
  revert h
  cases c <;> cases c' <;> decide

section

variable {dialect : Dialect} {column column' : String} {comparison comparison' : Comparison}

theorem Comparison.subject_inj (hname : IsName column) (hname' : IsName column')
    (h : comparison.subject column = comparison'.subject column') :
    comparison.isLowered = comparison'.isLowered ∧ column = column' := by
  have hopen : ∀ name : String, '(' ∈ ("LOWER(" ++ name ++ ")").toList := fun name => by simp
  unfold subject at h
  cases hlowered : comparison.isLowered <;> cases hlowered' : comparison'.isLowered <;>
    simp only [hlowered, hlowered', Bool.false_eq_true, if_false, if_true] at h
  · exact ⟨rfl, h⟩
  · exact absurd (h ▸ hopen column') hname.2
  · exact absurd (h ▸ hopen column) hname'.2
  · refine ⟨rfl, ?_⟩
    have hchars := congrArg String.toList h
    simp only [String.toList_append] at hchars
    exact String.toList_inj.1 (List.append_cancel_left (List.append_cancel_right hchars))

/-- A truth value is the integer that it is written as, so that what is a number is an integer or a double. -/
theorem Comparison.integer_or_double (h : comparison.IsNumber) :
    (∃ i, (∀ dialect, Piece.chars (comparison.literal dialect) = (Text.integer i).toList) ∧
        comparison.Same (.integer comparison.operator i)) ∨
      ∃ o x, comparison = .double o x := by
  cases comparison with
  | integer o i => exact Or.inl ⟨i, fun dialect => by simp [literal], .refl _⟩
  | double o x => exact Or.inr ⟨o, x, rfl⟩
  | flag o value =>
    refine Or.inl ⟨_, fun dialect => ?_, fun _ _ _ => rfl, fun dialect column => ?_⟩
    · simp [literal, truthLiteral_eq]
    · simp [pieces, operator, truthLiteral_eq]
  | text | time | within => cases h

theorem Comparison.chars_literal_double (dialect : Dialect) (o : Operator) (x : Number.Binary64) :
    Piece.chars ((Comparison.double o x).literal dialect) = (Number.Layout.literal.text x).toList := by
  simp [literal]

/-- A number is a word without what times begin with. -/
theorem Comparison.literal_of_isNumber (dialect : Dialect) (h : comparison.IsNumber) :
    IsWord (Piece.chars (comparison.literal dialect)) ∧
      '\'' ∉ Piece.chars (comparison.literal dialect) ∧ 'T' ∉ Piece.chars (comparison.literal dialect) := by
  rcases integer_or_double h with ⟨i, hword, -⟩ | ⟨o, x, rfl⟩
  · rw [hword]
    refine ⟨isWord_integer i, ?_, ?_⟩
    · exact Text.not_mem_integer (by decide) (by decide)
    · exact Text.not_mem_integer (by decide) (by decide)
  · rw [chars_literal_double]
    refine ⟨isWord_double x, ?_, ?_⟩
    · exact Number.Layout.not_mem_text (by decide) (by decide) x
    · exact Number.Layout.not_mem_text (by decide) (by decide) x

/-- Numbers with the same text are the same: a double is read from it. -/
theorem Comparison.same_of_literal (hproper : comparison.Proper) (hproper' : comparison'.Proper)
    (hnumber : comparison.IsNumber) (hnumber' : comparison'.IsNumber)
    (hoperator : comparison.operator = comparison'.operator)
    (h : Piece.chars (comparison.literal dialect) = Piece.chars (comparison'.literal dialect)) :
    comparison.Same comparison' := by
  rcases integer_or_double hnumber with ⟨i, hword, hsame⟩ | ⟨o, x, rfl⟩ <;>
    rcases integer_or_double hnumber' with ⟨j, hword', hsame'⟩ | ⟨o', y, rfl⟩
  · rw [hword, hword', String.toList_inj] at h
    rw [Text.integer_injective h, hoperator] at hsame
    exact hsame.trans hsame'.symm
  · rw [hword, chars_literal_double, String.toList_inj] at h
    exact absurd h (Number.Layout.integer_ne_text i hproper')
  · rw [hword', chars_literal_double, String.toList_inj] at h
    exact absurd h.symm (Number.Layout.integer_ne_text j hproper)
  · rw [chars_literal_double, chars_literal_double, String.toList_inj] at h
    obtain rfl : o = o' := hoperator
    refine ⟨fun engine isTextColumn stored => ?_, fun dialect column => ?_⟩
    · rw [asRead, asRead, h]
    · rw [pieces, pieces, h]

theorem timeLiteral_congr (dialect : Dialect) {t t' : DateTime} (h : t.text = t'.text) :
    dialect.timeLiteral t = dialect.timeLiteral t' := by
  cases dialect <;> simp only [Dialect.timeLiteral, h]

/-- Times with the same text are the same. -/
theorem Comparison.same_time (o : Operator) {t t' : DateTime} (h : t.text = t'.text) :
    (Comparison.time o t).Same (.time o t') where
  truth engine isTextColumn stored := by
    show (Comparison.time o t).truth isTextColumn stored = (Comparison.time o t').truth isTextColumn stored
    rw [truth, truth, h]
  pieces dialect column := by rw [pieces, pieces, timeLiteral_congr dialect h]

theorem Comparison.same_within {low high low' high' : DateTime} (hlow : low.text = low'.text)
    (hhigh : high.text = high'.text) : (Comparison.within low high).Same (.within low' high') where
  truth engine isTextColumn stored := by
    show (Comparison.within low high).truth isTextColumn stored =
      (Comparison.within low' high').truth isTextColumn stored
    rw [truth, truth, hlow, hhigh]
  pieces dialect column := by
    rw [pieces, pieces, timeLiteral_congr dialect hlow, timeLiteral_congr dialect hhigh]

theorem head_timeLiteral (dialect : Dialect) (t : DateTime) :
    ∃ c tail, Piece.chars (dialect.timeLiteral t) = c :: tail ∧ (c = '\'' ∨ c = 'T') := by
  cases dialect with
  | sqlite => exact ⟨_, _, Piece.chars_quoted _ _, Or.inl rfl⟩
  | postgresql => exact ⟨_, _, Piece.chars_code _ _, Or.inr rfl⟩

/-- A number is not taken for a time. -/
theorem Comparison.number_ne_timeLiteral (hnumber : comparison.IsNumber) (hrest : Stops rest)
    (t : DateTime) :
    Piece.chars (comparison.literal dialect) ++ rest ≠ Piece.chars (dialect.timeLiteral t) ++ rest' := by
  obtain ⟨-, hquote, hletter⟩ := literal_of_isNumber dialect hnumber
  obtain ⟨c, tail, hhead, hc⟩ := head_timeLiteral dialect t
  rw [hhead, List.cons_append]
  rcases hc with rfl | rfl
  · exact append_ne_cons hquote hrest (by decide) (by decide)
  · exact append_ne_cons hletter hrest (by decide) (by decide)

/-- What is behind the operator tells what is compared with, and where it ends. -/
theorem Comparison.literal_append_inj (hproper : comparison.Proper) (hproper' : comparison'.Proper)
    (hspan : ¬comparison.IsSpan) (hspan' : ¬comparison'.IsSpan)
    (hoperator : comparison.operator = comparison'.operator)
    (hlowered : comparison.isLowered = comparison'.isLowered) (hrest : Stops rest) (hrest' : Stops rest')
    (h : Piece.chars (comparison.literal dialect) ++ rest =
      Piece.chars (comparison'.literal dialect) ++ rest') :
    comparison.Same comparison' ∧ rest = rest' := by
  have hsort : ∀ {c : Comparison}, ¬c.IsSpan →
      (∃ o value, c = .text o value) ∨ (∃ o moment, c = .time o moment) ∨ c.IsNumber := by
    intro c hc
    cases c with
    | text o value => exact Or.inl ⟨o, value, rfl⟩
    | time o moment => exact Or.inr (Or.inl ⟨o, moment, rfl⟩)
    | within low high => exact absurd trivial hc
    | integer | double | flag => exact Or.inr (Or.inr trivial)
  have hplain : ∀ {c : Comparison}, c.IsNumber → c.isLowered = false := by
    intro c hc
    cases c <;> first | rfl | cases hc
  rcases hsort hspan with ⟨o, value, rfl⟩ | ⟨o, moment, rfl⟩ | hnumber <;>
    rcases hsort hspan' with ⟨o', value', rfl⟩ | ⟨o', moment', rfl⟩ | hnumber'
  case inl.inl =>
    simp only [literal, Piece.chars_quoted, Piece.chars_nil, List.cons_append, List.append_assoc,
      List.nil_append, List.cons.injEq, true_and] at h
    obtain ⟨rfl, hrests⟩ := quoted_append_inj hproper hproper' h
    obtain rfl : o = o' := hoperator
    exact ⟨.refl _, hrests⟩
  case inr.inl.inr.inl =>
    obtain ⟨htext, hrests⟩ := timeLiteral_append_inj h
    obtain rfl : o = o' := hoperator
    exact ⟨same_time o htext, hrests⟩
  case inr.inr.inr.inr =>
    have hword := (literal_of_isNumber dialect hnumber).1
    have hword' := (literal_of_isNumber dialect hnumber').1
    obtain ⟨hsame, hrests⟩ := hword.append_inj hword' hrest hrest' h
    exact ⟨same_of_literal hproper hproper' hnumber hnumber' hoperator hsame, hrests⟩
  case inl.inr.inl => cases hlowered
  case inl.inr.inr => cases hlowered.trans (hplain hnumber')
  case inr.inl.inl => cases hlowered
  case inr.inr.inl => cases (hplain hnumber).symm.trans hlowered
  case inr.inl.inr.inr => exact absurd h.symm (number_ne_timeLiteral hnumber' hrest' moment)
  case inr.inr.inr.inl => exact absurd h (number_ne_timeLiteral hnumber hrest moment')

theorem Comparison.blank_not_mem_subject (hname : IsName column) :
    ' ' ∉ (comparison.subject column).toList := by
  unfold subject
  split
  · simp [hname.1]
  · exact hname.1

theorem Comparison.read_plain (hname : IsName column) (hname' : IsName column')
    (hproper : comparison.Proper) (hproper' : comparison'.Proper)
    (hspan : ¬comparison.IsSpan) (hspan' : ¬comparison'.IsSpan) :
    Piece.Tell (comparison.pieces dialect column) (comparison'.pieces dialect column')
      (column = column' ∧ comparison.Same comparison') := by
  intro rest rest' hrest hrest' h
  rw [chars_pieces hspan, chars_pieces hspan'] at h
  simp only [List.append_assoc] at h
  obtain ⟨hsubject, hoperators⟩ := append_inj_of_char (blank_not_mem_subject hname)
    (blank_not_mem_subject hname') (head_operator _ _) (head_operator _ _) h
  obtain ⟨hoperator, hliterals⟩ := operator_append_inj hoperators
  obtain ⟨hlowered, hcolumn⟩ := subject_inj hname hname' (String.toList_inj.1 hsubject)
  obtain ⟨hsame, hrests⟩ :=
    literal_append_inj hproper hproper' hspan hspan' hoperator hlowered hrest hrest' hliterals
  exact ⟨⟨hcolumn, hsame⟩, hrests⟩

/-- A span is in parentheses. -/
theorem Comparison.head_of_isSpan (hspan : comparison.IsSpan) :
    ∃ tail, Piece.chars (comparison.pieces dialect column) = '(' :: tail := by
  cases comparison <;> cases hspan
  exact ⟨_, by simp [pieces]; rfl⟩

/-- No other comparison is. -/
theorem Comparison.pieces_ne_cons_open (hname : IsName column) (hspan : ¬comparison.IsSpan) :
    Piece.chars (comparison.pieces dialect column) ++ rest ≠ '(' :: rest' := by
  rw [chars_pieces hspan, List.append_assoc, List.append_assoc]
  unfold subject
  split
  · simp
  · exact append_ne_cons hname.2 (stops_of_blank (head_operator _ _)) (by decide) (by decide)

theorem Comparison.read_span (hname : IsName column) (hname' : IsName column')
    (hspan : comparison.IsSpan) (hspan' : comparison'.IsSpan) :
    Piece.Tell (comparison.pieces dialect column) (comparison'.pieces dialect column')
      (column = column' ∧ comparison.Same comparison') := by
  intro rest rest' _ _ h
  cases comparison <;> cases hspan
  cases comparison' <;> cases hspan'
  simp only [pieces, Piece.chars_code, Piece.chars_append, Piece.chars_nil, String.toList_append,
    List.cons_append, List.append_assoc, List.append_nil, List.append_cancel_left_eq] at h
  obtain ⟨hcolumn, hlow⟩ := append_inj_of_char hname.1 hname'.1 rfl rfl h
  obtain ⟨hlow, hmiddle⟩ := timeLiteral_append_inj (List.append_cancel_left hlow)
  rw [hcolumn] at hmiddle
  simp only [List.append_cancel_left_eq] at hmiddle
  obtain ⟨hhigh, hclose⟩ := timeLiteral_append_inj hmiddle
  exact ⟨⟨String.toList_inj.1 hcolumn, same_within hlow hhigh⟩, List.append_cancel_left hclose⟩

/-- **Comparisons with the same text are the same**, and their texts end at the same place. -/
theorem Comparison.read (hname : IsName column) (hname' : IsName column')
    (hproper : comparison.Proper) (hproper' : comparison'.Proper) :
    Piece.Tell (comparison.pieces dialect column) (comparison'.pieces dialect column')
      (column = column' ∧ comparison.Same comparison') := by
  by_cases hspan : comparison.IsSpan
  · by_cases hspan' : comparison'.IsSpan
    · exact read_span hname hname' hspan hspan'
    · intro rest rest' _ _ h
      obtain ⟨tail, htail⟩ := head_of_isSpan hspan
      rw [htail, List.cons_append] at h
      exact absurd h.symm (pieces_ne_cons_open hname' hspan')
  · by_cases hspan' : comparison'.IsSpan
    · intro rest rest' _ _ h
      obtain ⟨tail, htail⟩ := head_of_isSpan hspan'
      rw [htail, List.cons_append] at h
      exact absurd h (pieces_ne_cons_open hname hspan)
    · exact read_plain hname hname' hproper hproper' hspan hspan'

/-! ## Subqueries -/

theorem isWord_vectorTable (kind : Kind) : IsWord (vectorTable kind).toList := by
  cases kind <;> decide

theorem vectorTable_injective {kind kind' : Kind} (h : vectorTable kind = vectorTable kind') :
    kind = kind' := by
  revert h
  cases kind <;> cases kind' <;> decide

/-- Subqueries that select the same from every database, and that every dialect writes alike. -/
structure Subquery.Same (subquery subquery' : Subquery) : Prop where
  selected : ∀ db, subquery.selected db = subquery'.selected db
  pieces : ∀ dialect, subquery.pieces dialect = subquery'.pieces dialect

/-- **Subqueries with the same text are the same**, and their texts end at the same place. -/
theorem Subquery.read {subquery subquery' : Subquery} (hproper : subquery.comparison.Proper)
    (hproper' : subquery'.comparison.Proper) :
    Piece.Tell (subquery.pieces dialect) (subquery'.pieces dialect) (subquery.Same subquery') := by
  intro rest rest' hrest hrest' h
  have hname : IsName "vv.val" := by decide
  simp only [pieces, Piece.chars_code, String.toList_append, List.append_assoc,
    List.append_cancel_left_eq] at h
  obtain ⟨htable, hjoin⟩ := (isWord_vectorTable _).append_inj (isWord_vectorTable _)
    (stops_of_blank (by simp)) (stops_of_blank (by simp)) h
  simp only [List.append_cancel_left_eq] at hjoin
  obtain ⟨hid, hwhere⟩ := (isWord_integer _).append_inj (isWord_integer _)
    (stops_of_blank (by simp)) (stops_of_blank (by simp)) hjoin
  rw [List.append_cancel_left_eq] at hwhere
  obtain ⟨⟨-, hsame⟩, hrests⟩ := Comparison.read hname hname hproper hproper' _ _ hrest hrest' hwhere
  have htables := vectorTable_injective (String.toList_inj.1 htable)
  have hids := Text.integer_injective (String.toList_inj.1 hid)
  refine ⟨⟨fun db => ?_, fun dialect => ?_⟩, hrests⟩
  · unfold selected
    simp only [htables, hids, hsame.truth]
  · rw [pieces, pieces, htables, hids, hsame.pieces]

end

end Query

end MetadataStore
