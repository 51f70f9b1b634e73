import Mathlib.Data.List.Chain
import Stencil.Markup.Token

/-!
Where the tokens of a template stand in its source. The pieces that the scanner cuts give the source
back, and no two runs of plain text follow one another: behind a run comes an interpolation, a tag, or
the end of the source. A tag reaches to its closing mark.
-/

namespace Stencil.Markup

open Text

namespace Piece

def isText : Piece → Bool
  | .text _ => true
  | _ => false

/-- Whether a tag is written with its marks around it. -/
def IsFormed : Piece → Prop
  | .text _ | .interpolation _ => True
  | .opening _ _ _ source | .closing _ source => ∃ inner, source = '<' :: (inner ++ ['>'])

end Piece

theorem construct?_isFormed {s after : List Char} {piece : Piece}
    (h : construct? s = some (piece, after)) : piece.IsFormed := by
  unfold construct? at h
  split at h
  next rest =>
    simp only [interpolation?, Option.bind_eq_bind, Option.bind_eq_some_iff, Prod.exists] at h
    obtain ⟨body, behind, -, heq⟩ := h
    cases heq
    trivial
  next rest =>
    simp only [comment, Option.some.injEq] at h
    split at h
    · cases h
      trivial
    · cases h
      trivial
  next rest =>
    simp only [closingTag?, Option.bind_eq_bind, Option.bind_eq_some_iff] at h
    obtain ⟨tag, -, h⟩ := h
    split at h
    · cases h
      refine ⟨'/' :: (rest.takeWhile isAsciiAlphanumeric ++
        (rest.dropWhile isAsciiAlphanumeric).takeWhile isBlank), ?_⟩
      simp
    · cases h
  next rest _ _ =>
    simp only [openingTag?, Option.bind_eq_bind, Option.bind_eq_some_iff] at h
    obtain ⟨tag, -, body, -, heq⟩ := h
    cases heq
    refine ⟨rest.takeWhile isAsciiAlphanumeric ++ body.inner, ?_⟩
    simp
  next => cases h

theorem construct?_plain {c : Char} (h : isPlain c = true) (rest : List Char) :
    construct? (c :: rest) = none := by
  unfold construct?
  split
  all_goals first
    | rfl
    | next heq =>
        cases heq
        cases h

theorem pieces_of_construct? {c : Char} {rest after : List Char} {piece : Piece}
    (h : construct? (c :: rest) = some (piece, after)) : pieces (c :: rest) = piece :: pieces after := by
  rw [pieces]
  split
  next _ _ heq =>
    cases h.symm.trans heq
    rfl
  next heq => cases h.symm.trans heq

theorem pieces_of_plain {c : Char} {rest : List Char} (h : construct? (c :: rest) = none) :
    pieces (c :: rest) = .text (c :: rest.takeWhile isPlain) :: pieces (rest.dropWhile isPlain) := by
  rw [pieces]
  split
  next heq => cases h.symm.trans heq
  next => rfl

/-- The pieces of a text give it back. -/
theorem flatMap_pieces (s : List Char) : (pieces s).flatMap Piece.source = s := by
  fun_induction pieces s with
  | case1 => rfl
  | case2 c rest piece after h ih =>
      rw [List.flatMap_cons, ih]
      exact construct?_append h
  | case3 c rest h ih =>
      rw [List.flatMap_cons, ih, Piece.source, List.cons_append, List.takeWhile_append_dropWhile]

theorem isFormed_of_mem_pieces (s : List Char) : ∀ piece ∈ pieces s, piece.IsFormed := by
  fun_induction pieces s with
  | case1 => exact fun piece hmem => absurd hmem List.not_mem_nil
  | case2 c rest first after h ih =>
      intro piece hmem
      rcases List.mem_cons.1 hmem with rfl | hlater
      · exact construct?_isFormed h
      · exact ih piece hlater
  | case3 c rest h ih =>
      intro piece hmem
      rcases List.mem_cons.1 hmem with rfl | hlater
      · trivial
      · exact ih piece hlater

/-- A piece that joins the text behind it, or stands before what follows. -/
theorem consPiece_cases (piece : Piece) (rest : List Piece) :
    (∃ first second others, piece = .text first ∧ rest = .text second :: others ∧
      consPiece piece rest = .text (first ++ second) :: others) ∨
    (consPiece piece rest = piece :: rest ∧
      ∀ other ∈ rest.head?, (piece.isText && other.isText) = false) := by
  fun_cases consPiece piece rest with
  | case1 first second others => exact Or.inl ⟨first, second, others, rfl, rfl, rfl⟩
  | case2 piece rest h =>
      refine Or.inr ⟨rfl, fun other hother => ?_⟩
      rcases rest with _ | ⟨head, tail⟩
      · cases hother
      · obtain rfl := Option.some.inj hother
        cases piece with
        | text first =>
            cases head with
            | text second => exact absurd rfl (h first second tail rfl)
            | _ => rfl
        | _ => rfl

theorem flatMap_mergePieces (ps : List Piece) :
    (mergePieces ps).flatMap Piece.source = ps.flatMap Piece.source := by
  induction ps with
  | nil => rfl
  | cons piece rest ih =>
      rw [List.flatMap_cons, ← ih]
      change (consPiece piece (mergePieces rest)).flatMap Piece.source = _
      rcases consPiece_cases piece (mergePieces rest) with
        ⟨first, second, others, rfl, hrest, heq⟩ | ⟨heq, -⟩
      · rw [heq, hrest, List.flatMap_cons, List.flatMap_cons]
        exact List.append_assoc ..
      · rw [heq, List.flatMap_cons]

/-- No two runs of plain text are left next to one another. -/
theorem isChain_mergePieces (ps : List Piece) :
    (mergePieces ps).IsChain fun piece other => (piece.isText && other.isText) = false := by
  induction ps with
  | nil => exact List.isChain_nil
  | cons piece rest ih =>
      change (consPiece piece (mergePieces rest)).IsChain _
      rcases consPiece_cases piece (mergePieces rest) with
        ⟨first, second, others, rfl, hrest, heq⟩ | ⟨heq, hhead⟩
      · rw [hrest] at ih
        rw [heq]
        rw [List.isChain_cons] at ih ⊢
        exact ih
      · rw [heq, List.isChain_cons]
        exact ⟨hhead, ih⟩

/-- What joining plain text keeps holds of the merged pieces. -/
theorem forall_mem_mergePieces {P : Piece → Prop} {ps : List Piece}
    (join : ∀ first second, P (.text first) → P (.text second) → P (.text (first ++ second)))
    (h : ∀ piece ∈ ps, P piece) : ∀ piece ∈ mergePieces ps, P piece := by
  induction ps with
  | nil => exact fun piece hmem => absurd hmem List.not_mem_nil
  | cons first rest ih =>
      obtain ⟨hfirst, hrest⟩ := List.forall_mem_cons.1 h
      have hmerged := ih hrest
      change ∀ piece ∈ consPiece first (mergePieces rest), P piece
      rcases consPiece_cases first (mergePieces rest) with
        ⟨head, second, others, rfl, heq, hjoined⟩ | ⟨hjoined, -⟩
      · rw [heq, List.forall_mem_cons] at hmerged
        rw [hjoined, List.forall_mem_cons]
        exact ⟨join head second hfirst hmerged.1, hmerged.2⟩
      · rw [hjoined, List.forall_mem_cons]
        exact ⟨hfirst, hmerged⟩

theorem isFormed_of_mem_mergePieces {ps : List Piece} (h : ∀ piece ∈ ps, piece.IsFormed) :
    ∀ piece ∈ mergePieces ps, piece.IsFormed :=
  forall_mem_mergePieces (fun _ _ _ _ => trivial) h

theorem map_kind_locate (offset line : Nat) (ps : List Piece) :
    (locate offset line ps).map Token.kind = ps.map Piece.kind := by
  induction ps generalizing offset line with
  | nil => rfl
  | cons piece rest ih => rw [locate, List.map_cons, List.map_cons, ih]

/-- The piece of a token among the pieces of the source. -/
theorem exists_piece {source : String} {token : Token} (hmem : token ∈ scan source) :
    ∃ front piece back, mergePieces (pieces source.toList) = front ++ piece :: back ∧
      token.kind = piece.kind := by
  have hkind : token.kind ∈ (scan source).map Token.kind := List.mem_map_of_mem hmem
  rw [scan, map_kind_locate] at hkind
  obtain ⟨piece, hpiece, heq⟩ := List.mem_map.1 hkind
  obtain ⟨front, back, hsplit⟩ := List.append_of_mem hpiece
  exact ⟨front, piece, back, hsplit, heq.symm⟩

theorem source_eq {source : String} {front back : List Piece} {piece : Piece}
    (h : mergePieces (pieces source.toList) = front ++ piece :: back) :
    source.toList =
      front.flatMap Piece.source ++ (piece.source ++ back.flatMap Piece.source) := by
  have hwhole := flatMap_mergePieces (pieces source.toList)
  rw [h, flatMap_pieces, List.flatMap_append, List.flatMap_cons] at hwhole
  exact hwhole.symm

/-- Behind a run of plain text an interpolation or a tag begins, or the source ends. -/
theorem scan_text {source run : String} {token : Token} (hmem : token ∈ scan source)
    (h : token.kind = .text run) :
    ∃ before after, source.toList = before ++ (run.toList ++ after) ∧
      ∀ c ∈ after.head?, c = '{' ∨ c = '<' := by
  obtain ⟨front, piece, back, hsplit, hkind⟩ := exists_piece hmem
  obtain ⟨inner, rfl, rfl⟩ : ∃ inner, piece = .text inner ∧ run = String.ofList inner := by
    rw [h] at hkind
    cases piece with
    | text inner =>
        cases hkind
        exact ⟨inner, rfl, rfl⟩
    | _ => cases hkind
  refine ⟨front.flatMap Piece.source, back.flatMap Piece.source, ?_, fun c hc => ?_⟩
  · rw [String.toList_ofList]
    exact source_eq hsplit
  · have hchain := isChain_mergePieces (pieces source.toList)
    have hformed := isFormed_of_mem_mergePieces (isFormed_of_mem_pieces source.toList)
    rw [hsplit] at hchain hformed
    cases back with
    | nil => cases hc
    | cons next others =>
        have hnext := (List.isChain_cons.1 (List.isChain_append.1 hchain).2.1).1 next rfl
        have hmark := hformed next
          (List.mem_append_right _ (List.mem_cons_of_mem _ (List.mem_cons_self ..)))
        cases next with
        | text other => cases hnext
        | interpolation body =>
            cases hc
            exact Or.inl rfl
        | opening selfClosing tag attributes source =>
            obtain ⟨inner, rfl⟩ := hmark
            cases hc
            exact Or.inr rfl
        | closing tag source =>
            obtain ⟨inner, rfl⟩ := hmark
            cases hc
            exact Or.inr rfl

/-- The source text of a tag token, opening or closing. -/
def Token.tagSource? (token : Token) : Option String :=
  match token.kind with
  | .opening _ _ _ source | .closing _ source => some source
  | _ => none

/-- A tag stands in the source as it is, up to its closing mark. -/
theorem scan_tag {source tag : String} {token : Token} (hmem : token ∈ scan source)
    (h : token.tagSource? = some tag) :
    (∃ before after, source.toList = before ++ (tag.toList ++ after)) ∧
      ∃ inner, tag.toList = inner ++ ['>'] := by
  obtain ⟨front, piece, back, hsplit, hkind⟩ := exists_piece hmem
  have hformed := isFormed_of_mem_mergePieces (isFormed_of_mem_pieces source.toList) piece (by
    rw [hsplit]
    exact List.mem_append_right _ (List.mem_cons_self ..))
  have hsource := source_eq hsplit
  unfold Token.tagSource? at h
  rw [hkind] at h
  cases piece with
  | text inner => cases h
  | interpolation body => cases h
  | opening selfClosing name attributes text =>
      cases h
      obtain ⟨inner, rfl⟩ := hformed
      rw [String.toList_ofList]
      exact ⟨⟨_, _, hsource⟩, '<' :: inner, rfl⟩
  | closing name text =>
      cases h
      obtain ⟨inner, rfl⟩ := hformed
      rw [String.toList_ofList]
      exact ⟨⟨_, _, hsource⟩, '<' :: inner, rfl⟩

end Stencil.Markup
