import Stencil.Proofs.Cutting
import Stencil.Proofs.Markup.Runs

/-!
The tokens of a template tile its source. The first starts at the first byte, each reaches to the start of
the next one, and the last to the end. A run of plain text and a tag are all of what stands there; an
interpolation is what stands between its braces, which holds no closing braces itself. No two runs of plain
text follow one another, and every token is counted on the line on which it starts.
-/

namespace Stencil.Markup

open Text

theorem byteSize_append (first second : List Char) :
    byteSize (first ++ second) = byteSize first + byteSize second := by
  induction first with
  | nil => exact (Nat.zero_add _).symm
  | cons c rest ih =>
      change c.utf8Size + byteSize (rest ++ second) = c.utf8Size + byteSize rest + byteSize second
      rw [ih, Nat.add_assoc]

theorem byteSize_pos {s : List Char} (h : s ≠ []) : 0 < byteSize s := by
  cases s with
  | nil => exact absurd rfl h
  | cons c rest => exact Nat.add_pos_left c.utf8Size_pos _

/-- Whether a piece takes something, and an interpolation ends at the first closing braces. -/
def Piece.IsWhole (piece : Piece) : Prop :=
  piece.source ≠ [] ∧ ∀ body, piece = .interpolation body → ¬ ['}', '}'] <:+: body

theorem construct?_isWhole {s after : List Char} {piece : Piece}
    (h : construct? s = some (piece, after)) : piece.IsWhole := by
  constructor
  · intro hempty
    have hsource := construct?_append h
    have hlength := construct?_length h
    rw [hempty, List.nil_append] at hsource
    rw [hsource] at hlength
    exact Nat.lt_irrefl _ hlength
  · rintro body rfl
    unfold construct? at h
    split at h
    next rest =>
      simp only [interpolation?, Option.bind_eq_bind, Option.bind_eq_some_iff, Prod.exists] at h
      obtain ⟨inner, behind, hcut, heq⟩ := h
      cases heq
      have hmark : ['}', '}'] ≠ ([] : List Char) := List.cons_ne_nil _ _
      exact ((cut?_eq_some_iff hmark).1 hcut).2.absent hmark
    next =>
      simp only [comment, Option.some.injEq] at h
      split at h
      · cases h
      · cases h
    next =>
      simp only [closingTag?, Option.bind_eq_bind, Option.bind_eq_some_iff] at h
      obtain ⟨tag, -, h⟩ := h
      split at h
      · cases h
      · cases h
    next =>
      simp only [openingTag?, Option.bind_eq_bind, Option.bind_eq_some_iff] at h
      obtain ⟨tag, -, found, -, heq⟩ := h
      cases heq
    next => cases h

theorem isWhole_of_mem_pieces (s : List Char) : ∀ piece ∈ pieces s, piece.IsWhole := by
  fun_induction pieces s with
  | case1 => exact fun piece hmem => absurd hmem List.not_mem_nil
  | case2 c rest first after h ih => exact List.forall_mem_cons.2 ⟨construct?_isWhole h, ih⟩
  | case3 c rest h ih =>
      refine List.forall_mem_cons.2 ⟨⟨List.cons_ne_nil _ _, fun body heq => ?_⟩, ih⟩
      cases heq

/-- The merged pieces of a source are whole. -/
theorem isWhole_of_mem_mergePieces (s : List Char) :
    ∀ piece ∈ mergePieces (pieces s), piece.IsWhole := by
  refine forall_mem_mergePieces (fun first second hfirst _ => ⟨?_, fun body heq => ?_⟩)
    (isWhole_of_mem_pieces s)
  · exact fun hempty => hfirst.1 (List.append_eq_nil_iff.1 hempty).1
  · cases heq

/-- Tokens in front of others come from the pieces in front. -/
theorem exists_pieces_of_locate {offset line : Nat} {ps : List Piece} {earlier later : List Token}
    (h : locate offset line ps = earlier ++ later) :
    ∃ front back, ps = front ++ back ∧ locate offset line front = earlier ∧
      locate (offset + byteSize (front.flatMap Piece.source))
        (line + (front.flatMap Piece.source).count '\n') back = later := by
  induction earlier generalizing offset line ps with
  | nil => exact ⟨[], ps, rfl, rfl, h⟩
  | cons token earlier ih =>
      cases ps with
      | nil => cases h
      | cons piece rest =>
          obtain ⟨rfl, hrest⟩ := List.cons.inj h
          obtain ⟨front, back, rfl, hfront, hback⟩ := ih hrest
          refine ⟨piece :: front, back, rfl, congrArg (_ :: ·) hfront, ?_⟩
          rw [List.flatMap_cons, byteSize_append, List.count_append, ← Nat.add_assoc, ← Nat.add_assoc]
          exact hback

theorem le_offset_of_mem_locate {offset line : Nat} {ps : List Piece} :
    ∀ token ∈ locate offset line ps, offset ≤ token.offset := by
  induction ps generalizing offset line with
  | nil => exact fun token hmem => absurd hmem List.not_mem_nil
  | cons piece rest ih =>
      refine List.forall_mem_cons.2 ⟨Nat.le_refl _, fun token hmem => ?_⟩
      exact Nat.le_trans (Nat.le_add_right ..) (ih token hmem)

theorem pairwise_offset_locate {offset line : Nat} {ps : List Piece}
    (h : ∀ piece ∈ ps, piece.IsWhole) :
    (locate offset line ps).Pairwise (·.offset < ·.offset) := by
  induction ps generalizing offset line with
  | nil => exact .nil
  | cons piece rest ih =>
      obtain ⟨hpiece, hrest⟩ := List.forall_mem_cons.1 h
      refine .cons (fun token hmem => ?_) (ih hrest)
      exact Nat.lt_of_lt_of_le (Nat.lt_add_of_pos_right (byteSize_pos hpiece.1))
        (le_offset_of_mem_locate token hmem)

/-- What a token says of the part of the source that it takes. -/
def TokenKind.Reads : TokenKind → List Char → Prop
  | .text source, span | .opening _ _ _ source, span | .closing _ source, span =>
      span = source.toList
  | .interpolation expression, span =>
      ∃ body, span = '{' :: '{' :: (body ++ ['}', '}']) ∧ ¬ ['}', '}'] <:+: body ∧
        expression = String.ofList (trim body)

theorem Piece.IsWhole.reads {piece : Piece} (h : piece.IsWhole) : piece.kind.Reads piece.source := by
  cases piece with
  | interpolation body => exact ⟨body, rfl, h.2 body rfl, rfl⟩
  | text source => exact String.toList_ofList.symm
  | opening selfClosing tag attributes source => exact String.toList_ofList.symm
  | closing tag source => exact String.toList_ofList.symm

def Token.isText (token : Token) : Bool :=
  match token.kind with
  | .text _ => true
  | _ => false

theorem isChain_locate {offset line : Nat} {ps : List Piece}
    (h : ps.IsChain fun piece other => (piece.isText && other.isText) = false) :
    (locate offset line ps).IsChain fun token other => (token.isText && other.isText) = false := by
  have hkind (piece : Piece) (offset line : Nat) :
      Token.isText ⟨piece.kind, offset, line⟩ = piece.isText := by
    cases piece <;> rfl
  induction ps generalizing offset line with
  | nil => exact .nil
  | cons piece rest ih =>
      cases rest with
      | nil => exact .singleton _
      | cons other rest =>
          rw [List.isChain_cons_cons] at h
          refine List.isChain_cons_cons.2 ⟨?_, ih h.2⟩
          rw [hkind, hkind]
          exact h.1

/-- Where a token ends: where the next one starts, or at the end of the source. -/
def endBefore (source : String) (later : List Token) : Nat :=
  (later.head?.map Token.offset).getD (byteSize source.toList)

/-- The tokens of a source start at its first byte, if it has any, and in order; no two runs of plain text
are neighbours; and each token stands where it says, up to its end, on the line that it says. -/
theorem scan_lossless (source : String) :
    (source ≠ "" → scan source ≠ []) ∧
      (∀ first ∈ (scan source).head?, first.offset = 0) ∧
      (scan source).Pairwise (·.offset < ·.offset) ∧
      ((scan source).IsChain fun token next => (token.isText && next.isText) = false) ∧
      ∀ earlier token later, scan source = earlier ++ token :: later →
        ∃ before span after, source.toList = before ++ (span ++ after) ∧
          byteSize before = token.offset ∧ byteSize (before ++ span) = endBefore source later ∧
          token.kind.Reads span ∧ token.line = 1 + before.count '\n' := by
  have hwhole := isWhole_of_mem_mergePieces source.toList
  have hsource : (mergePieces (pieces source.toList)).flatMap Piece.source = source.toList := by
    rw [flatMap_mergePieces, flatMap_pieces]
  refine ⟨fun hsome hnone => ?_, fun first hfirst => ?_, pairwise_offset_locate hwhole,
    isChain_locate (isChain_mergePieces _), fun earlier token later hscan => ?_⟩
  · unfold scan at hnone
    cases hmerged : mergePieces (pieces source.toList) with
    | nil =>
        rw [hmerged] at hsource
        exact hsome (String.toList_eq_nil_iff.1 hsource.symm)
    | cons piece rest =>
        rw [hmerged] at hnone
        cases hnone
  · unfold scan at hfirst
    cases hmerged : mergePieces (pieces source.toList) with
    | nil =>
        rw [hmerged] at hfirst
        cases hfirst
    | cons piece rest =>
        rw [hmerged] at hfirst
        cases hfirst
        rfl
  · obtain ⟨front, back, hsplit, -, hlater⟩ := exists_pieces_of_locate hscan
    cases back with
    | nil => cases hlater
    | cons piece back =>
        obtain ⟨rfl, hbehind⟩ := List.cons.inj hlater
        rw [hsplit] at hwhole hsource
        rw [List.flatMap_append, List.flatMap_cons] at hsource
        refine ⟨front.flatMap Piece.source, piece.source, back.flatMap Piece.source, hsource.symm,
          (Nat.zero_add _).symm, ?_, ?_, rfl⟩
        · rw [byteSize_append, ← hbehind]
          cases back with
          | nil => simp [endBefore, locate, ← hsource, byteSize_append]
          | cons next back => simp [endBefore, locate]
        · exact (hwhole piece (List.mem_append_right _ (List.mem_cons_self ..))).reads

end Stencil.Markup
