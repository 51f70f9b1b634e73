import Stencil.Markup.Tag
import Stencil.Markup.Attribute

/-!
Scanning of template text. The text is cut into pieces: runs of plain text, interpolations, and
template tags; whatever is no well-formed template syntax is plain text. Adjacent plain pieces are
merged, and each piece becomes a token with its place in the source. The pieces put together give
the source back.
-/

namespace Stencil.Markup

open Text

/-- What a token is. Tags keep their text as written. -/
inductive TokenKind where
  | text (source : String)
  /-- An interpolation with its expression, trimmed. -/
  | interpolation (expression : String)
  /-- A tag that opens a body, or closes itself. -/
  | opening (selfClosing : Bool) (tag : Tag) (attributes : List Attribute) (source : String)
  | closing (tag : Tag) (source : String)
deriving Repr, DecidableEq

/-- A token with the byte it starts at and its line, counted from one. -/
structure Token where
  kind : TokenKind
  offset : Nat
  line : Nat
deriving Repr, DecidableEq

/-- The condition of a conditional tag or of a further arm. -/
def conditionOf? (tag : Tag) (attributes : List Attribute) : Option String :=
  match tag with
  | .ifTag | .elseIf => attribute? attributes "condition"
  | _ => none

/-- The variable and the collection of a loop, with a bar between them. -/
def loopSpecOf? (tag : Tag) (attributes : List Attribute) : Option String :=
  match tag with
  | .forEach =>
      some ((attribute? attributes "var").getD "" ++ "|" ++ (attribute? attributes "in").getD "")
  | _ => none

/-- A piece of the source. -/
inductive Piece where
  | text (source : List Char)
  | interpolation (body : List Char)
  | opening (selfClosing : Bool) (tag : Tag) (attributes : List Attribute) (source : List Char)
  | closing (tag : Tag) (source : List Char)

/-- The characters of a piece as they stand in the source. -/
def Piece.source : Piece → List Char
  | .text source => source
  | .interpolation body => '{' :: '{' :: (body ++ ['}', '}'])
  | .opening _ _ _ source => source
  | .closing _ source => source

/-- The template tag of a name that `next` follows: a capital comes first, and a blank, `>` or `/`
ends it. -/
def recognize? (name : List Char) (next : Option Char) : Option Tag :=
  if name.head?.any (fun c => 'A' ≤ c ∧ c ≤ 'Z') &&
      next.any (fun c => c == '>' || c == '/' || isAsciiBlank c) then
    Tag.ofName? name
  else none

/-- The interpolation whose opening braces were just passed, and what follows it. -/
def interpolation? (rest : List Char) : Option (Piece × List Char) := do
  let (body, after) ← cut? ['}', '}'] rest
  some (.interpolation body, after)

/-- The comment whose opening was just passed, and what follows it. A comment that never ends takes
the whole rest. -/
def comment (rest : List Char) : Piece × List Char :=
  match cut? ['-', '-', '>'] rest with
  | some (body, after) => (.text ("<!--".toList ++ body ++ "-->".toList), after)
  | none => (.text ("<!--".toList ++ rest), [])

/-- The closing tag whose `</` was just passed, and what follows it. -/
def closingTag? (rest : List Char) : Option (Piece × List Char) := do
  let name := rest.takeWhile isAsciiAlphanumeric
  let afterName := rest.dropWhile isAsciiAlphanumeric
  let tag ← recognize? name afterName.head?
  match trimStart afterName with
  | '>' :: after =>
      some (.closing tag ('<' :: '/' :: name ++ (afterName.takeWhile isBlank ++ ['>'])), after)
  | _ => none

/-- The opening tag whose `<` was just passed, and what follows it. -/
def openingTag? (rest : List Char) : Option (Piece × List Char) := do
  let name := rest.takeWhile isAsciiAlphanumeric
  let afterName := rest.dropWhile isAsciiAlphanumeric
  let tag ← recognize? name afterName.head?
  let body ← tagBody? afterName
  some (.opening body.selfClosing tag (attributesOf body.inner)
    ('<' :: name ++ (body.inner ++ ['>'])), body.rest)

/-- The construct that a text starts with, and what follows it. -/
def construct? : List Char → Option (Piece × List Char)
  | '{' :: '{' :: rest => interpolation? rest
  | '<' :: '!' :: '-' :: '-' :: rest => some (comment rest)
  | '<' :: '/' :: rest => closingTag? rest
  | '<' :: rest => openingTag? rest
  | _ => none

/-- A construct and what follows it make up the text. -/
theorem construct?_append {s after : List Char} {piece : Piece}
    (h : construct? s = some (piece, after)) : piece.source ++ after = s := by
  unfold construct? at h
  split at h
  next rest =>
    simp only [interpolation?, Option.bind_eq_bind, Option.bind_eq_some_iff, Prod.exists] at h
    obtain ⟨b, a, hb, h⟩ := h
    cases h
    rw [cut?_append hb]
    simp [Piece.source]
  next rest =>
    simp only [comment, Option.some.injEq] at h
    split at h
    next b a hb =>
      cases h
      rw [cut?_append hb]
      simp [Piece.source]
    next => cases h; simp [Piece.source]
  next rest =>
    simp only [closingTag?, Option.bind_eq_bind, Option.bind_eq_some_iff] at h
    obtain ⟨tag, -, h⟩ := h
    split at h
    next a ha =>
      cases h
      have h1 := List.takeWhile_append_dropWhile (p := isAsciiAlphanumeric) (l := rest)
      have h2 := List.takeWhile_append_dropWhile (p := isBlank)
        (l := rest.dropWhile isAsciiAlphanumeric)
      rw [trimStart] at ha
      rw [ha] at h2
      simp only [Piece.source, List.cons_append, List.append_assoc, List.nil_append]
      rw [h2, h1]
    next => cases h
  next rest _ _ =>
    simp only [openingTag?, Option.bind_eq_bind, Option.bind_eq_some_iff] at h
    obtain ⟨tag, -, body, hb, h⟩ := h
    cases h
    have h1 := List.takeWhile_append_dropWhile (p := isAsciiAlphanumeric) (l := rest)
    have h2 := tagBody?_append hb
    simp only [Piece.source, List.cons_append, List.append_assoc, List.nil_append]
    rw [← h2, h1]
  next => cases h

/-- Every construct takes at least one character. -/
theorem construct?_length {s after : List Char} {piece : Piece}
    (h : construct? s = some (piece, after)) : after.length < s.length := by
  have hs := construct?_append h
  have hp : piece.source ≠ [] := by
    unfold construct? at h
    split at h
    next =>
      simp only [interpolation?, Option.bind_eq_bind, Option.bind_eq_some_iff, Prod.exists] at h
      obtain ⟨b, a, -, h⟩ := h
      cases h; simp [Piece.source]
    next =>
      simp only [comment, Option.some.injEq] at h
      split at h <;> (cases h; simp [Piece.source])
    next =>
      simp only [closingTag?, Option.bind_eq_bind, Option.bind_eq_some_iff] at h
      obtain ⟨tag, -, h⟩ := h
      split at h
      · cases h; simp [Piece.source]
      · cases h
    next =>
      simp only [openingTag?, Option.bind_eq_bind, Option.bind_eq_some_iff] at h
      obtain ⟨tag, -, body, -, h⟩ := h
      cases h; simp [Piece.source]
    next => cases h
  have := List.length_pos_iff.2 hp
  rw [← hs, List.length_append]
  omega

/-- Whether a character can only be plain text. -/
def isPlain (c : Char) : Bool := c != '{' && c != '<'

/-- The pieces of a text, from left to right. -/
def pieces (s : List Char) : List Piece :=
  match s with
  | [] => []
  | c :: rest =>
      match _h : construct? (c :: rest) with
      | some (piece, after) => piece :: pieces after
      | none => .text (c :: rest.takeWhile isPlain) :: pieces (rest.dropWhile isPlain)
termination_by s.length
decreasing_by
  · exact construct?_length _h
  · have := length_dropWhile_le isPlain rest
    simp only [List.length_cons]
    omega

/-- A piece before others; plain text joins plain text. -/
def consPiece : Piece → List Piece → List Piece
  | .text a, .text b :: rest => .text (a ++ b) :: rest
  | piece, rest => piece :: rest

/-- The pieces with adjacent plain text merged. -/
def mergePieces (ps : List Piece) : List Piece := ps.foldr consPiece []

/-- What a piece is as a token. -/
def Piece.kind : Piece → TokenKind
  | .text source => .text (String.ofList source)
  | .interpolation body => .interpolation (String.ofList (trim body))
  | .opening selfClosing tag attributes source =>
      .opening selfClosing tag attributes (String.ofList source)
  | .closing tag source => .closing tag (String.ofList source)

/-- The tokens of pieces that start at a byte and a line. -/
def locate (offset line : Nat) : List Piece → List Token
  | [] => []
  | piece :: rest =>
      ⟨piece.kind, offset, line⟩ ::
        locate (offset + byteSize piece.source) (line + piece.source.count '\n') rest

/-- The tokens of template text. Scanning never fails. -/
def scan (source : String) : List Token := locate 0 1 (mergePieces (pieces source.toList))

end Stencil.Markup
