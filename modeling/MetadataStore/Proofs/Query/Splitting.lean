import MetadataStore.Proofs.Query.Quoteless

/-!
# `Proofs.Query.Splitting` — a statement split at its quotes

A text that is put together from pieces falls apart again at its quotes, as long as no piece holds a
quote itself: the parts stand by turns outside and inside the quotes, and inside stand the quoted
pieces, one by one.

## Contents
- `outside`, `inside`: the parts of a text split at its quotes.
- `Piece.IsClean`, a piece without a quote of its own; `Piece.quotedTexts`, `Piece.blanked`.
- `Piece.splitOn_text`: the parts of a text are its segments.
- `Piece.count_text`, `Piece.inside_text`, `Piece.outside_text`: what follows for quotes, inside and
  outside.
-/

namespace MetadataStore.Query

/-! ## Parts by turns -/

/-- Every other member of a list, the first included. -/
def everyOther {α : Type} : List α → List α
  | [] => []
  | [a] => [a]
  | a :: _ :: rest => a :: everyOther rest

/-- What stands outside the quotes of a text: the first part that its quotes cut off, the third, and so
on. -/
def outside (text : String) : List String :=
  (everyOther (text.toList.splitOn '\'')).map String.ofList

/-- What stands inside the quotes of a text: the second part that its quotes cut off, the fourth, and so
on. -/
def inside (text : String) : List String :=
  (everyOther (text.toList.splitOn '\'').tail).map String.ofList

theorem everyOther_cons {α : Type} (a : α) (rest : List α) :
    everyOther (a :: rest) = a :: everyOther rest.tail := by
  cases rest <;> rfl

theorem everyOther_modifyHead {α : Type} (f : α → α) (l : List α) :
    everyOther (l.modifyHead f) = (everyOther l).modifyHead f := by
  cases l with
  | nil => rfl
  | cons a rest => simp only [List.modifyHead_cons, everyOther_cons]

/-- A text without the separator in front of another goes to the first part. -/
theorem splitOn_append_of_not_mem {separator : Char} {front : List Char} (rest : List Char)
    (h : separator ∉ front) :
    (front ++ rest).splitOn separator = (rest.splitOn separator).modifyHead (front ++ ·) := by
  induction front with
  | nil =>
    have hid : (fun part : List Char => [] ++ part) = id := funext fun part => List.nil_append part
    rw [List.nil_append, hid, List.modifyHead_id, id]
  | cons c front ih =>
    have hc : (c == separator) = false := beq_eq_false_iff_ne.2 fun heq => h (heq ▸ List.mem_cons_self)
    have hfront : separator ∉ front := fun hmem => h (List.mem_cons_of_mem c hmem)
    rw [List.cons_append, List.splitOn_cons_eq_if_modifyHead, hc, ih hfront]
    simp only [Bool.false_eq_true, if_false, List.modifyHead_modifyHead]
    rfl

namespace Piece

/-! ## Pieces -/

/-- The text of a piece without the quotes around it. -/
def content : Piece → String
  | .code text => text
  | .quoted text => text

/-- A piece that holds no quote of its own; the code of a statement holds no null character either. -/
def IsClean : Piece → Prop
  | .code text => Harmless text
  | .quoted text => Quoteless text

theorem IsClean.quoteless {piece : Piece} (h : piece.IsClean) : Quoteless piece.content := by
  cases piece with
  | code text => exact h.1
  | quoted text => exact h

/-- The texts of the quoted pieces, in order. -/
def quotedTexts : List Piece → List String
  | [] => []
  | .code _ :: rest => quotedTexts rest
  | .quoted text :: rest => text :: quotedTexts rest

/-- A piece without what it quotes. -/
def blanked : Piece → Piece
  | .code text => .code text
  | .quoted _ => .quoted ""

@[simp] theorem blanked_code (text : String) : (code text).blanked = code text := rfl

@[simp] theorem blanked_quoted (text : String) : (quoted text).blanked = quoted "" := rfl

@[simp] theorem quotedTexts_append (xs ys : List Piece) :
    quotedTexts (xs ++ ys) = quotedTexts xs ++ quotedTexts ys := by
  induction xs with
  | nil => rfl
  | cons x xs ih => cases x <;> simp [quotedTexts, ih]

/-! ## Splitting -/

/-- The parts of the text of pieces: code carries on the part at hand, and a quoted piece is a part
between two others. -/
def segments : List Piece → List (List Char)
  | [] => [[]]
  | .code text :: rest => (segments rest).modifyHead (text.toList ++ ·)
  | .quoted text :: rest => [] :: text.toList :: segments rest

theorem toList_text_cons (piece : Piece) (rest : List Piece) :
    (text (piece :: rest)).toList = piece.written.toList ++ (text rest).toList := by
  rw [text, List.map_cons, String.join_cons, String.toList_append]
  rfl

theorem toList_written_quoted (s : String) :
    (quoted s).written.toList = '\'' :: (s.toList ++ ['\'']) := by
  simp [written]

/-- **The quotes of a text cut off its segments**, as long as its pieces are clean. -/
theorem splitOn_text {pieces : List Piece} (h : ∀ piece ∈ pieces, piece.IsClean) :
    (text pieces).toList.splitOn '\'' = segments pieces := by
  induction pieces with
  | nil => rfl
  | cons piece rest ih =>
    have hpiece := h piece List.mem_cons_self
    have hrest := ih fun p hp => h p (List.mem_cons_of_mem piece hp)
    rw [toList_text_cons]
    cases piece with
    | code s =>
      have hs : '\'' ∉ s.toList := hpiece.1
      rw [written, splitOn_append_of_not_mem _ hs, hrest, segments]
    | quoted s =>
      have hs : '\'' ∉ s.toList := hpiece
      -- the first quote ends an empty part, the second one the quoted text
      have hopen : ∀ cs : List Char, ('\'' :: cs).splitOn '\'' = [] :: cs.splitOn '\'' := by
        intro cs
        rw [List.splitOn_cons_eq_if_modifyHead]
        simp
      rw [toList_written_quoted, List.cons_append, hopen, List.append_assoc,
        splitOn_append_of_not_mem _ hs, List.singleton_append, hopen, hrest, segments,
        List.modifyHead_cons, List.append_nil]

/-- Clean pieces have two quotes for each quoted one, and no others. -/
theorem count_text {pieces : List Piece} (h : ∀ piece ∈ pieces, piece.IsClean) :
    (text pieces).toList.count '\'' = 2 * (quotedTexts pieces).length := by
  induction pieces with
  | nil => rfl
  | cons piece rest ih =>
    have hpiece : piece.content.toList.count '\'' = 0 :=
      List.count_eq_zero.2 (h piece List.mem_cons_self).quoteless
    have hrest := ih fun p hp => h p (List.mem_cons_of_mem piece hp)
    rw [toList_text_cons, List.count_append, hrest]
    cases piece with
    | code s =>
      have hcode : (code s).written.toList.count '\'' = 0 := hpiece
      rw [hcode, quotedTexts, Nat.zero_add]
    | quoted s =>
      have hquoted : (quoted s).written.toList.count '\'' = 2 := by
        rw [toList_written_quoted, List.count_cons_self, List.count_append]
        rw [show s.toList.count '\'' = 0 from hpiece]
        rfl
      rw [hquoted, quotedTexts, List.length_cons]
      omega

theorem everyOther_tail_segments (pieces : List Piece) :
    everyOther (segments pieces).tail = (quotedTexts pieces).map String.toList := by
  induction pieces with
  | nil => rfl
  | cons piece rest ih =>
    cases piece with
    | code s => rw [segments, List.tail_modifyHead, ih, quotedTexts]
    | quoted s => rw [segments, List.tail_cons, everyOther_cons, ih, quotedTexts, List.map_cons]

/-- **Inside the quotes stand the quoted pieces**, in order. -/
theorem inside_text {pieces : List Piece} (h : ∀ piece ∈ pieces, piece.IsClean) :
    inside (text pieces) = quotedTexts pieces := by
  have hid : (String.ofList ∘ String.toList) = id := funext fun s => String.ofList_toList
  rw [inside, splitOn_text h, everyOther_tail_segments, List.map_map, hid, List.map_id]

theorem everyOther_segments (pieces : List Piece) :
    everyOther (segments pieces) = everyOther (segments (pieces.map blanked)) := by
  induction pieces with
  | nil => rfl
  | cons piece rest ih =>
    cases piece with
    | code s =>
      rw [List.map_cons, blanked_code, segments, segments, everyOther_modifyHead,
        everyOther_modifyHead, ih]
    | quoted s =>
      rw [List.map_cons, blanked_quoted, segments, segments, everyOther_cons, everyOther_cons,
        List.tail_cons, List.tail_cons, ih]

/-- **Outside the quotes stands nothing of what is quoted**: pieces that agree but for their quoted
texts leave the same there. -/
theorem outside_text {xs ys : List Piece} (hxs : ∀ piece ∈ xs, piece.IsClean)
    (hys : ∀ piece ∈ ys, piece.IsClean) (h : xs.map blanked = ys.map blanked) :
    outside (text xs) = outside (text ys) := by
  rw [outside, outside, splitOn_text hxs, splitOn_text hys, everyOther_segments xs, h,
    ← everyOther_segments ys]

end Piece

end MetadataStore.Query
