import Stencil.Proofs.Markup.Runs
import Stencil.Proofs.Writing.Tags

/-!
The pieces of a written template: tags, interpolations with a space inside each pair of braces, and plain
text between them. The scanner reads a tag or an interpolation whatever follows it, and plain text up to the
next piece that is none. So it tells apart the pieces that are written one after another.
-/

namespace Stencil.Markup

open Text

def openingPiece (selfClosing : Bool) (tag : Tag) (attributes : List Attribute) : Piece :=
  .opening selfClosing tag attributes
    ('<' :: (tag.name.toList ++ (writtenInner selfClosing attributes ++ ['>'])))

def closingPiece (tag : Tag) : Piece := .closing tag ('<' :: '/' :: (tag.name.toList ++ ['>']))

def interpolationPiece (expression : String) : Piece :=
  .interpolation (' ' :: (expression.toList ++ [' ']))

variable {attributes : List Attribute}

theorem construct?_opening {c : Char} (h : isAsciiAlphanumeric c = true) (rest : List Char) :
    construct? ('<' :: c :: rest) = openingTag? (c :: rest) := by
  unfold construct?
  split
  next heq => cases heq
  next heq =>
    cases heq
    cases h
  next heq =>
    cases heq
    cases h
  next heq =>
    cases heq
    rfl
  next hother => exact absurd rfl (hother _)

/-- A tag is read whatever follows it, if its body ends at its mark. -/
theorem construct?_tag {tag : Tag} {word : List Char} (hword : tag.isSpelledBy word = true)
    {inner after : List Char} {selfClosing : Bool}
    (hbody : tagBody? (inner ++ '>' :: after) = some ⟨inner, selfClosing, after⟩)
    (hhead : ∀ c ∈ inner.head?, isSeparator c = true) :
    construct? ('<' :: (word ++ (inner ++ '>' :: after))) =
      some (.opening selfClosing tag (attributesOf inner) ('<' :: (word ++ (inner ++ ['>']))), after) := by
  obtain ⟨next, rest, hrest, hnext⟩ := exists_next hhead after
  obtain ⟨htake, hdrop, htag⟩ := name_read hword hnext rest
  rw [hrest] at hbody ⊢
  cases hw : word with
  | nil => simp [hw, Tag.isSpelledBy] at hword
  | cons c letters =>
      have hletter : isAsciiAlphanumeric c = true := by
        simp only [Tag.isSpelledBy, Bool.and_eq_true, List.all_eq_true] at hword
        exact hword.1.2 c (hw ▸ List.mem_cons_self ..)
      rw [List.cons_append, construct?_opening hletter, ← List.cons_append, ← hw]
      unfold openingTag?
      rw [htake, hdrop]
      simp only [List.head?_cons, htag, hbody, Option.bind_eq_bind, Option.bind_some]
      rfl

namespace Piece

/-- Whether the scanner reads a piece wherever it stands: plain text if no plain text follows, and
everything else whatever follows. -/
def IsRead (piece : Piece) : Prop :=
  match piece with
  | .text source => source ≠ [] ∧ ∀ c ∈ source, isPlain c = true
  | piece => ∀ after, construct? (piece.source ++ after) = some (piece, after)

theorem isRead_opening (h : ∀ a ∈ attributes, a.isWritable = true) (selfClosing : Bool) (tag : Tag) :
    (openingPiece selfClosing tag attributes).IsRead := by
  intro after
  have hsource : (openingPiece selfClosing tag attributes).source ++ after =
      '<' :: (tag.name.toList ++ (writtenInner selfClosing attributes ++ '>' :: after)) := by
    simp [openingPiece, source]
  rw [hsource, construct?_tag tag.isSpelledBy_name (tagBody?_written h selfClosing after)
    (head_writtenInner h selfClosing), attributesOf_written h]
  rfl

theorem isRead_closing (tag : Tag) : (closingPiece tag).IsRead := by
  intro after
  have hend : EndsName '>' := ⟨by decide, by decide⟩
  obtain ⟨htake, hdrop, htag⟩ := name_read tag.isSpelledBy_name hend after
  have hsource : (closingPiece tag).source ++ after =
      '<' :: '/' :: (tag.name.toList ++ '>' :: after) := by
    simp [closingPiece, source]
  have hstart : trimStart ('>' :: after) = '>' :: after := trimStart_cons (by decide) after
  have hblanks : ('>' :: after).takeWhile isBlank = [] := List.takeWhile_cons_of_neg (by decide)
  rw [hsource]
  change closingTag? (tag.name.toList ++ '>' :: after) = _
  unfold closingTag?
  rw [htake, hdrop]
  simp only [List.head?_cons, htag, Option.bind_eq_bind, Option.bind_some, hstart, hblanks]
  rfl

theorem isRead_interpolation {expression : String} (h : ¬ ['}', '}'] <:+: expression.toList) :
    (interpolationPiece expression).IsRead := by
  intro after
  have hmark : ['}', '}'] ≠ ([] : List Char) := List.cons_ne_nil _ _
  have hfirst : IsFirst ['}', '}'] (expression.toList ++ [' ']) after := by
    revert h
    generalize expression.toList = s
    intro h
    -- a closing brace inside is followed by no other one, nor is one at the end
    induction s with
    | nil =>
        refine isFirst_cons.2 ⟨fun hprefix => ?_, isFirst_nil _ _⟩
        cases (List.cons_prefix_cons.1 hprefix).1
    | cons c rest ih =>
        refine isFirst_cons.2 ⟨fun hprefix => ?_, ih fun hinfix => h (List.infix_cons hinfix)⟩
        obtain ⟨rfl, hrest⟩ := List.cons_prefix_cons.1 hprefix
        cases rest with
        | nil => cases (List.cons_prefix_cons.1 hrest).1
        | cons d rest =>
            obtain ⟨rfl, -⟩ := List.cons_prefix_cons.1 hrest
            exact h ⟨[], rest, rfl⟩
  have hspace : IsFirst ['}', '}'] (' ' :: (expression.toList ++ [' '])) after := by
    refine isFirst_cons.2 ⟨fun hprefix => ?_, hfirst⟩
    cases (List.cons_prefix_cons.1 hprefix).1
  have hcut := (cut?_eq_some_iff hmark).2 ⟨rfl, hspace⟩
  have hsource : (interpolationPiece expression).source ++ after =
      '{' :: '{' :: (' ' :: (expression.toList ++ [' ']) ++ (['}', '}'] ++ after)) := by
    simp [interpolationPiece, source]
  rw [hsource]
  change interpolation? _ = _
  unfold interpolation?
  rw [hcut]
  rfl

theorem kind_interpolation {expression : String} (h : trimmed expression = expression) :
    (interpolationPiece expression).kind = .interpolation expression := by
  have hspace : ∀ c ∈ [' '], isBlank c = true := List.all_eq_true.1 rfl
  have htrim : trim (' ' :: (expression.toList ++ [' '])) = trim expression.toList :=
    (trim_blanks_append hspace _).trans (trim_append hspace _)
  change TokenKind.interpolation (String.ofList (trim _)) = _
  rw [htrim]
  exact congrArg _ h

variable {piece : Piece}

theorem IsRead.construct (h : piece.IsRead) (htext : piece.isText = false) (after : List Char) :
    construct? (piece.source ++ after) = some (piece, after) := by
  cases piece with
  | text source => cases htext
  | _ => exact h after

/-- What is no plain text starts with a mark. -/
theorem IsRead.head (h : piece.IsRead) (htext : piece.isText = false) (after : List Char) :
    ∀ c ∈ (piece.source ++ after).head?, isPlain c = false := by
  intro c hc
  have hread := h.construct htext after
  cases hsource : piece.source ++ after with
  | nil =>
      rw [hsource] at hc
      cases hc
  | cons d rest =>
      rw [hsource] at hread hc
      cases hc
      rw [← Bool.not_eq_true]
      intro hplain
      rw [construct?_plain hplain] at hread
      cases hread

/-- A piece is cut off in front of what follows it. -/
theorem IsRead.pieces_append (h : piece.IsRead) {after : List Char}
    (hafter : piece.isText = true → ∀ c ∈ after.head?, isPlain c = false) :
    pieces (piece.source ++ after) = piece :: pieces after := by
  cases htext : piece.isText with
  | false =>
      have hread := h.construct htext after
      cases hsource : piece.source ++ after with
      | nil =>
          rw [hsource] at hread
          cases hread
      | cons c rest =>
          rw [hsource] at hread
          exact pieces_of_construct? hread
  | true =>
      cases piece with
      | text source =>
          obtain ⟨hnonempty, hplain⟩ := h
          obtain ⟨c, rest, rfl⟩ := List.exists_cons_of_ne_nil hnonempty
          obtain ⟨hfirst, hrest⟩ := List.forall_mem_cons.1 hplain
          obtain ⟨htake, hdrop⟩ := span_append hrest (hafter htext)
          change pieces (c :: (rest ++ after)) = _
          rw [pieces_of_plain (construct?_plain hfirst _), htake, hdrop]
      | _ => cases htext

end Piece

/-- Pieces that the scanner tells apart, given whether plain text stands in front of them. -/
inductive Readable : Bool → List Piece → Prop
  | nil (behindText : Bool) : Readable behindText []
  | cons {behindText : Bool} {piece : Piece} {others : List Piece} (read : piece.IsRead)
      (apart : (behindText && piece.isText) = false) (rest : Readable piece.isText others) :
      Readable behindText (piece :: others)

namespace Readable

variable {behindText : Bool} {ps : List Piece}

/-- What can stand behind plain text can stand anywhere. -/
theorem anywhere (h : Readable true ps) : Readable behindText ps := by
  cases h with
  | nil => exact .nil _
  | cons read apart rest =>
      refine .cons read ?_ rest
      rw [Bool.true_and] at apart
      rw [apart, Bool.and_false]

/-- A tag or an interpolation can stand anywhere. -/
theorem mark {piece : Piece} (read : piece.IsRead) (htext : piece.isText = false)
    (rest : Readable false ps) : Readable behindText (piece :: ps) := by
  refine .cons read ?_ ?_
  · rw [htext, Bool.and_false]
  · rw [htext]
    exact rest

theorem head (h : Readable true ps) : ∀ c ∈ (ps.flatMap Piece.source).head?, isPlain c = false := by
  cases h with
  | nil => exact fun c hc => nomatch hc
  | cons read apart rest =>
      rw [Bool.true_and] at apart
      rw [List.flatMap_cons]
      exact read.head apart _

/-- Pieces that are written one after another are read again. -/
theorem mergePieces_pieces (h : Readable behindText ps) :
    mergePieces (pieces (ps.flatMap Piece.source)) = ps := by
  induction h with
  | nil =>
      rw [List.flatMap_nil, pieces]
      rfl
  | @cons behindText piece others read apart rest ih =>
      have hpieces : pieces (piece.source ++ others.flatMap Piece.source) =
          piece :: pieces (others.flatMap Piece.source) :=
        read.pieces_append fun htext => (htext ▸ rest).head
      rw [List.flatMap_cons, hpieces]
      change consPiece piece (mergePieces (pieces (others.flatMap Piece.source))) = _
      rw [ih]
      rcases consPiece_cases piece others with ⟨first, second, more, rfl, rfl, -⟩ | ⟨heq, -⟩
      · -- two plain texts are no neighbours
        cases rest with
        | cons _ hapart => cases hapart
      · exact heq

end Readable

end Stencil.Markup

/-!
A tag is read back in whatever style it is written. Its attributes stand behind blanks of any number, with or
without values, in double quotes, in single quotes or bare, and a value may hold what would end the tag or the
attribute elsewhere. Scanning gives one token with the names and values as they are meant.
-/

namespace Stencil.Markup

open Text

/-- A tag with attributes in any style and blanks before its end, its name spelled by a word. -/
def styledTag (selfClosing : Bool) (word : String) (attributes : List StyledAttribute) (trailing : Blanks) :
    String :=
  String.ofList ('<' :: (word.toList ++ (styledInner selfClosing attributes trailing ++ ['>'])))

theorem scan_construct {s : List Char} {piece : Piece} (h : construct? s = some (piece, [])) :
    scan (String.ofList s) = [⟨piece.kind, 0, 1⟩] := by
  have hpieces : pieces s = [piece] := by
    cases s with
    | nil => cases h
    | cons c rest =>
        rw [pieces]
        split
        next found after hfound =>
          cases h.symm.trans hfound
          rw [pieces]
        next hnone => cases h.symm.trans hnone
  have hmerged : mergePieces [piece] = [piece] := by
    cases piece <;> rfl
  rw [scan, String.toList_ofList, hpieces, hmerged]
  rfl

/-- A tag in any style is scanned as one token of its kind, with the attributes that were written. -/
theorem scan_styledTag (selfClosing : Bool) {tag : Tag} {word : String}
    (hword : tag.isSpelledBy word.toList = true) (attributes : List StyledAttribute) (trailing : Blanks) :
    scan (styledTag selfClosing word attributes trailing) =
      [⟨.opening selfClosing tag (attributes.map StyledAttribute.meant)
        (styledTag selfClosing word attributes trailing), 0, 1⟩] := by
  have hread := construct?_tag hword (tagBody?_styled selfClosing attributes trailing [])
    (follows_styledInner selfClosing attributes trailing).head
  rw [attributesOf, attributesFrom_styled] at hread
  exact scan_construct hread

/-- Attributes in all styles. Values hold what ends a tag, what ends a name and what separates attributes. -/
def mixedStyles : List StyledAttribute := [
  ⟨⟨[' '], rfl⟩, by decide, "disabled", by decide, .missing⟩,
  ⟨⟨['\n', '\t'], rfl⟩, by decide, "condition", by decide,
    .quoted ⟨[' '], rfl⟩ ⟨[' ', ' '], rfl⟩ .double "a > 'b' />" (by decide)⟩,
  ⟨⟨[' '], rfl⟩, by decide, "label", by decide, .quoted .none .none .single "= \"x\"" (by decide)⟩,
  ⟨⟨[' '], rfl⟩, by decide, "path", by decide, .bare .none ⟨['\n'], rfl⟩ "/a/b=c" (by decide)⟩]

theorem scan_styledTag_mixed :
    Tag.elseIf.isSpelledBy "ElseIF".toList = true ∧
      scan "<ElseIF disabled\n\tcondition =  \"a > 'b' />\" label='= \"x\"' path=\n/a/b=c/>" =
        [⟨.opening true .elseIf
          [⟨"disabled", ""⟩, ⟨"condition", "a > 'b' />"⟩, ⟨"label", "= \"x\""⟩, ⟨"path", "/a/b=c"⟩]
          "<ElseIF disabled\n\tcondition =  \"a > 'b' />\" label='= \"x\"' path=\n/a/b=c/>", 0, 1⟩] := by
  have hword : Tag.elseIf.isSpelledBy "ElseIF".toList = true := by decide
  have htag : styledTag true "ElseIF" mixedStyles .none =
      "<ElseIF disabled\n\tcondition =  \"a > 'b' />\" label='= \"x\"' path=\n/a/b=c/>" := by decide
  have hscan := scan_styledTag true hword mixedStyles .none
  rw [htag] at hscan
  exact ⟨hword, hscan⟩

end Stencil.Markup
