import MetadataStore.Proofs.Query.Splitting

/-!
# `Proofs.Query.Assembly` — the pieces of a condition are put together from those of its links

The text of a chain is made of the texts of its links, whatever conditions they were gathered into on
the way: a single link stands alone, several are joined into one group, the other conditions first and
then one test of all subqueries. Putting together only frames: it adds code around and between the
pieces at hand, and keeps these as they are and in their order.

## Contents
- `Piece.Framed`, pieces with more code put among them; `Piece.Quotes`, clean pieces and what they quote.
- `Chain.assemble`, the text of a chain from those of its links; `Chain.pieces_condition`.
- `Chain.framed_assemble`, `Chain.blanked_assemble`: what is put together is framed, and does not look at
  what is quoted.
-/

namespace MetadataStore.Query

namespace Piece

/-! ## Framing -/

/-- The second pieces are the first ones with code put among them. -/
inductive Framed : List Piece → List Piece → Prop
  | nil : Framed [] []
  | keep (piece : Piece) {xs ys : List Piece} : Framed xs ys → Framed (piece :: xs) (piece :: ys)
  | frame {s : String} {xs ys : List Piece} : Harmless s → Framed xs ys → Framed xs (.code s :: ys)

namespace Framed

theorem refl (xs : List Piece) : Framed xs xs := by
  induction xs with
  | nil => exact .nil
  | cons x xs ih => exact .keep x ih

theorem append {xs ys xs' ys' : List Piece} (h : Framed xs ys) (h' : Framed xs' ys') :
    Framed (xs ++ xs') (ys ++ ys') := by
  induction h with
  | nil => exact h'
  | keep piece _ ih => exact .keep piece ih
  | frame hs _ ih => exact .frame hs ih

theorem trans {xs ys zs : List Piece} (h : Framed xs ys) (h' : Framed ys zs) : Framed xs zs := by
  -- the induction is on the outer frame, whose code stays wherever the inner one ends
  induction h' generalizing xs with
  | nil => exact h
  | keep piece h' ih =>
    cases h with
    | keep _ h => exact .keep piece (ih h)
    | frame hs h => exact .frame hs (ih h)
  | frame hs _ ih => exact .frame hs (ih h)

/-- Code behind pieces frames them. -/
theorem append_code {xs ys : List Piece} {s : String} (h : Framed xs ys) (hs : Harmless s) :
    Framed xs (ys ++ [.code s]) := by
  have := h.append (.frame hs .nil)
  rwa [List.append_nil] at this

theorem join {separator : String} (hs : Harmless separator) (groups : List (List Piece)) :
    Framed groups.flatten (Piece.join separator groups) := by
  induction groups with
  | nil => exact .nil
  | cons group more ih =>
    cases more with
    | nil =>
      rw [List.flatten_cons, List.flatten_nil, List.append_nil]
      exact refl group
    | cons next more => exact (refl group).append (.frame hs ih)

theorem flatten_map {f : List Piece → List Piece} (h : ∀ xs, Framed xs (f xs))
    (groups : List (List Piece)) : Framed groups.flatten (groups.map f).flatten := by
  induction groups with
  | nil => exact .nil
  | cons group more ih => exact (h group).append ih

theorem membership (query : List Piece) : Framed query (Query.membership query) :=
  append_code (.frame (by decide) (refl query)) (by decide)

theorem intersection (dialect : Dialect) (queries : List (List Piece)) :
    Framed queries.flatten (dialect.intersection queries) := by
  cases dialect with
  | sqlite => exact (join (by decide) queries).trans (membership _)
  | postgresql => exact (flatten_map membership queries).trans (join (by decide) _)

end Framed

/-! ## Quoting -/

/-- Pieces are clean, and these are the texts that they quote. -/
structure Quotes (pieces : List Piece) (texts : List String) : Prop where
  clean : ∀ piece ∈ pieces, piece.IsClean
  quoted : quotedTexts pieces = texts

namespace Quotes

theorem nil : Quotes [] [] :=
  ⟨fun _ h => absurd h List.not_mem_nil, rfl⟩

theorem code {s : String} {pieces : List Piece} {texts : List String} (hs : Harmless s)
    (h : Quotes pieces texts) : Quotes (.code s :: pieces) texts := by
  refine ⟨fun piece hmem => ?_, h.quoted⟩
  rcases List.mem_cons.1 hmem with rfl | hmem
  · exact hs
  · exact h.clean piece hmem

theorem quote {s : String} {pieces : List Piece} {texts : List String} (hs : Quoteless s)
    (h : Quotes pieces texts) : Quotes (.quoted s :: pieces) (s :: texts) := by
  refine ⟨fun piece hmem => ?_, congrArg (s :: ·) h.quoted⟩
  rcases List.mem_cons.1 hmem with rfl | hmem
  · exact hs
  · exact h.clean piece hmem

theorem append {xs ys : List Piece} {ss ts : List String} (hxs : Quotes xs ss) (hys : Quotes ys ts) :
    Quotes (xs ++ ys) (ss ++ ts) := by
  refine ⟨fun piece hmem => ?_, ?_⟩
  · rcases List.mem_append.1 hmem with hmem | hmem
    · exact hxs.clean piece hmem
    · exact hys.clean piece hmem
  · rw [quotedTexts_append, hxs.quoted, hys.quoted]

/-- Framing leaves what is quoted. -/
theorem framed {xs ys : List Piece} {texts : List String} (h : Quotes xs texts)
    (hframed : Framed xs ys) : Quotes ys texts := by
  induction hframed generalizing texts with
  | nil => exact h
  | keep piece _ ih =>
    have hrest := ih ⟨fun p hp => h.clean p (List.mem_cons_of_mem piece hp), rfl⟩
    have hpiece := h.clean piece List.mem_cons_self
    rw [← h.quoted]
    cases piece with
    | code s => exact hrest.code hpiece
    | quoted s => exact hrest.quote hpiece
  | frame hs _ ih => exact (ih h).code hs

end Quotes

/-! ## Blanking -/

theorem blanked_join (separator : String) (groups : List (List Piece)) :
    (join separator groups).map blanked = join separator (groups.map (List.map blanked)) := by
  induction groups with
  | nil => rfl
  | cons group more ih =>
    cases more with
    | nil => rfl
    | cons next more =>
      simp only [List.map_cons, join, List.map_append, blanked_code] at ih ⊢
      rw [ih]

end Piece

theorem blanked_membership (query : List Piece) :
    (membership query).map Piece.blanked = membership (query.map Piece.blanked) := by
  simp [membership]

theorem Dialect.blanked_intersection (dialect : Dialect) (queries : List (List Piece)) :
    (dialect.intersection queries).map Piece.blanked =
      dialect.intersection (queries.map (List.map Piece.blanked)) := by
  cases dialect with
  | sqlite => rw [intersection, intersection, blanked_membership, Piece.blanked_join]
  | postgresql =>
    have hmembership : List.map Piece.blanked ∘ membership = membership ∘ List.map Piece.blanked :=
      funext blanked_membership
    rw [intersection, intersection, Piece.blanked_join, List.map_map, List.map_map, hmembership]

/-! ## Chains -/

namespace Chain

/-- The test of several subqueries, in no group for none. -/
def gathered (dialect : Dialect) : List (List Piece) → List (List Piece)
  | [] => []
  | [query] => [membership query]
  | queries => [dialect.intersection queries]

/-- The other conditions and the test of the subqueries as one group. -/
def grouped (dialect : Dialect) (others queries : List (List Piece)) : List Piece :=
  .code "(" :: Piece.join " AND " (others ++ gathered dialect queries) ++ [.code ")"]

/-- The text of a chain, given the texts of its other conditions and of its subqueries. -/
def assemble (dialect : Dialect) (others queries : List (List Piece)) : List Piece :=
  match others, queries with
  | [single], [] => single
  | [], [query] => membership query
  | _, _ => grouped dialect others queries

theorem framed_gathered (dialect : Dialect) (queries : List (List Piece)) :
    Piece.Framed queries.flatten (gathered dialect queries).flatten := by
  unfold gathered
  split
  · exact .nil
  · simp only [List.flatten_cons, List.flatten_nil, List.append_nil]
    exact .membership _
  · rw [List.flatten_singleton]
    exact .intersection dialect queries

/-- **Putting a chain together frames its links**: first the other conditions, then the subqueries. -/
theorem framed_assemble (dialect : Dialect) (others queries : List (List Piece)) :
    Piece.Framed (others.flatten ++ queries.flatten) (assemble dialect others queries) := by
  unfold assemble
  split
  · simp only [List.flatten_cons, List.flatten_nil, List.append_nil]
    exact .refl _
  · simp only [List.flatten_cons, List.flatten_nil, List.append_nil, List.nil_append]
    exact .membership _
  · unfold grouped
    have hparts : Piece.Framed (others.flatten ++ queries.flatten)
        (others ++ gathered dialect queries).flatten := by
      rw [List.flatten_append]
      exact (Piece.Framed.refl _).append (framed_gathered dialect queries)
    exact .append_code (.frame (by decide) (hparts.trans (.join (by decide) _))) (by decide)

theorem blanked_gathered (dialect : Dialect) (queries : List (List Piece)) :
    (gathered dialect queries).map (List.map Piece.blanked) =
      gathered dialect (queries.map (List.map Piece.blanked)) := by
  rcases queries with _ | ⟨first, _ | ⟨second, rest⟩⟩
  · rfl
  · exact congrArg (fun query => [query]) (blanked_membership first)
  · exact congrArg (fun query => [query]) (dialect.blanked_intersection (first :: second :: rest))

/-- Putting a chain together does not look at what its links quote. -/
theorem blanked_assemble (dialect : Dialect) (others queries : List (List Piece)) :
    (assemble dialect others queries).map Piece.blanked =
      assemble dialect (others.map (List.map Piece.blanked))
        (queries.map (List.map Piece.blanked)) := by
  have hgroup : (grouped dialect others queries).map Piece.blanked =
      grouped dialect (others.map (List.map Piece.blanked))
        (queries.map (List.map Piece.blanked)) := by
    rw [grouped, grouped, ← blanked_gathered, ← List.map_append, ← Piece.blanked_join]
    simp
  -- a single link is put in no group, on either side
  rcases others with _ | ⟨single, _ | ⟨second, others⟩⟩ <;>
    rcases queries with _ | ⟨query, _ | ⟨next, queries⟩⟩ <;>
    first
      | exact hgroup
      | exact blanked_membership query
      | rfl

/-! ## The text of a condition -/

theorem join_and_cons (left right : List Piece) (more : List (List Piece)) :
    Piece.join " AND " ((left ++ .code " AND " :: right) :: more) =
      left ++ .code " AND " :: Piece.join " AND " (right :: more) := by
  cases more <;> simp [Piece.join]

/-- Conditions in a row are written with conjunctions between them. -/
theorem pieces_foldl_and (dialect : Dialect) (first : Condition) (rest : List Condition) :
    (rest.foldl Condition.and first).pieces dialect =
      Piece.join " AND " ((first :: rest).map (Condition.pieces dialect)) := by
  induction rest generalizing first with
  | nil => rfl
  | cons next rest ih =>
    rw [List.foldl_cons, ih, List.map_cons, Condition.pieces, join_and_cons]
    rfl

theorem pieces_conjoin (dialect : Dialect) (tests : List Condition) (h : tests ≠ []) :
    (conjoin tests h).pieces dialect = Piece.join " AND " (tests.map (Condition.pieces dialect)) := by
  cases tests with
  | nil => exact absurd rfl h
  | cons first rest => exact pieces_foldl_and dialect first rest

/-- Where each subquery is tested by itself, the tests are conditions in a row. -/
theorem amongAll_postgresql (first : Subquery) (rest : List Subquery) :
    Dialect.postgresql.amongAll first rest = (rest.map Condition.among).foldl Condition.and (.among first) := by
  rw [Dialect.amongAll, List.foldl_map]

theorem pieces_amongAll (dialect : Dialect) (first : Subquery) (rest : List Subquery) :
    (dialect.amongAll first rest).pieces dialect =
      dialect.intersection ((first :: rest).map (Subquery.pieces dialect)) := by
  cases dialect with
  | sqlite => rfl
  | postgresql =>
    rw [amongAll_postgresql, pieces_foldl_and, Dialect.intersection, ← List.map_cons, List.map_map, List.map_map]
    rfl

theorem pieces_tests (dialect : Dialect) (chain : Chain) :
    (chain.tests dialect).map (Condition.pieces dialect) =
      chain.others.map (Condition.pieces dialect) ++
        gathered dialect (chain.subqueries.map (Subquery.pieces dialect)) := by
  rw [tests, List.map_append]
  congr 1
  rcases chain.subqueries with _ | ⟨first, _ | ⟨second, rest⟩⟩
  · rfl
  · rfl
  · exact congrArg (fun query => [query]) (pieces_amongAll dialect first (second :: rest))

/-- **The text of a chain is put together from those of its links**, whichever way it was gathered
into a condition. -/
theorem pieces_condition (dialect : Dialect) (chain : Chain) :
    (chain.condition dialect).pieces dialect =
      assemble dialect (chain.others.map (Condition.pieces dialect))
        (chain.subqueries.map (Subquery.pieces dialect)) := by
  have hgroup : (Condition.group
        (conjoin (chain.tests dialect) (chain.tests_ne_nil dialect))).pieces dialect =
      grouped dialect (chain.others.map (Condition.pieces dialect))
        (chain.subqueries.map (Subquery.pieces dialect)) := by
    rw [Condition.pieces, pieces_conjoin, pieces_tests, grouped]
  revert hgroup
  unfold condition
  -- a single link is put in no group, on either side
  rcases chain.others with _ | ⟨single, _ | ⟨second, others⟩⟩ <;>
    rcases chain.subqueries with _ | ⟨query, _ | ⟨next, queries⟩⟩ <;>
    intro hgroup <;>
    first
      | exact hgroup
      | rfl

end Chain

end MetadataStore.Query
