import Mathlib.Data.List.Forall2
import Stencil.Proofs.Resolution.Place

/-!
Operands of filters and pipelines as they are written: places, integers and texts in quotes, the uses
of filters with their arguments, and what bars, colons and commas make of them.
-/

namespace Stencil

open Text

namespace Reference

/-- The head of a pipeline or an argument of a filter. -/
inductive Operand where
  | ofPlace (place : Place)
  | integer (text : List Char)
  | quoted (mark : Char) (inner : List Char)

namespace Operand

def text : Operand → List Char
  | .ofPlace place => place.text
  | .integer text => text
  | .quoted mark inner => mark :: (inner ++ [mark])

/-- Whether an operand is an integer or a text in quotes that says so, or a place with closed keys. -/
def isWellFormed : Operand → Bool
  | .ofPlace place => place.isClosed
  | .integer text => isInteger text
  | .quoted mark inner => (mark == '"' || mark == '\'') && isQuotable mark inner

theorem isSolid_text {operand : Operand} (h : operand.isWellFormed = true) :
    IsSolid operand.text := by
  cases operand with
  | ofPlace place => exact place.isSolid_text
  | integer text =>
      have hchars := digits_of_isInteger h
      refine IsSolid.of_all ?_ fun c hc => ?_
      · rintro rfl
        exact absurd h (by decide)
      · rcases hchars c hc with hdigit | rfl
        · exact isBlank_of_isIdentifierPart (isIdentifierPart_of_isAsciiDigit hdigit)
        · rfl
  | quoted mark inner =>
      have hmark : IsSolid [mark] := by
        refine IsSolid.of_all (List.cons_ne_nil _ _) fun c hc => ?_
        obtain ⟨hquote, -⟩ := Bool.and_eq_true_iff.1 h
        rw [List.mem_singleton.1 hc]
        rcases Bool.or_eq_true_iff.1 hquote with hdouble | hsingle
        · rw [eq_of_beq hdouble]
          rfl
        · rw [eq_of_beq hsingle]
          rfl
      exact hmark.append hmark inner

theorem isSealed_text {operand : Operand} (h : operand.isWellFormed = true) {mark : Char}
    (separator : isSeparator mark) : isSealed mark operand.text = true := by
  cases operand with
  | ofPlace place => exact place.isSealed_text h separator
  | integer text =>
      refine isSealed_of_chars separator fun c hc => ?_
      exact (digits_of_isInteger h c hc).imp isIdentifierPart_of_isAsciiDigit Or.inl
  | quoted quote inner =>
      obtain ⟨hquote, quotable⟩ := Bool.and_eq_true_iff.1 h
      have hmark : quote = '"' ∨ quote = '\'' := by simpa using hquote
      have hne : quote ≠ mark := by
        rcases hmark with rfl | rfl
        · rintro rfl
          exact absurd separator (by unfold isSeparator; decide)
        · rintro rfl
          exact absurd separator (by unfold isSeparator; decide)
      obtain ⟨hpasses, hafter⟩ := scan_quoted hmark hne quotable 0
      rw [isSealed, text]
      exact Bool.and_eq_true_iff.2 ⟨hpasses, beq_iff_eq.2 hafter⟩

end Operand

/-- A sign between sealed texts cuts them apart. -/
theorem splitFrom_mark {mark : Char} {front : List Char} (h : isSealed mark front = true)
    (rest : List Char) :
    splitFrom mark false {} (front ++ mark :: rest) = front :: splitFrom mark false {} rest := by
  have hmark : splitFrom mark false {} (mark :: rest) = [] :: splitFrom mark false {} rest := by
    cases rest with
    | nil => simp [splitFrom, Nesting.isOutside]
    | cons c rest => simp [splitFrom, Nesting.isOutside]
  rw [splitFrom_sealed h, hmark, onto, List.append_nil]

/-- Sealed texts come back when what they are joined to is split. -/
theorem split_joinWith {mark : Char} {pieces : List (List Char)} (nonempty : pieces ≠ [])
    (h : ∀ piece ∈ pieces, isSealed mark piece = true) :
    split mark false (joinWith mark pieces) = pieces := by
  induction pieces with
  | nil => exact absurd rfl nonempty
  | cons piece rest ih =>
      have hpiece := h piece (List.mem_cons_self ..)
      cases rest with
      | nil => exact split_sealed hpiece
      | cons second rest =>
          have hrest := ih (List.cons_ne_nil _ _) fun p hp => h p (List.mem_cons_of_mem _ hp)
          rw [split] at hrest ⊢
          rw [joinWith_cons (List.cons_ne_nil _ _), splitFrom_mark hpiece, hrest]

theorem isSealed_joinWith {mark sign : Char} (hsign : isSealed mark [sign] = true)
    {pieces : List (List Char)} (h : ∀ piece ∈ pieces, isSealed mark piece = true) :
    isSealed mark (joinWith sign pieces) = true := by
  induction pieces with
  | nil => rfl
  | cons piece rest ih =>
      have hpiece := h piece (List.mem_cons_self ..)
      have hrest := ih fun p hp => h p (List.mem_cons_of_mem _ hp)
      cases rest with
      | nil => exact hpiece
      | cons second rest => exact isSealed_append hpiece (isSealed_append hsign hrest)

theorem isSolid_joinWith {sign : Char} {pieces : List (List Char)} (nonempty : pieces ≠ [])
    (h : ∀ piece ∈ pieces, IsSolid piece) : IsSolid (joinWith sign pieces) := by
  induction pieces with
  | nil => exact absurd rfl nonempty
  | cons piece rest ih =>
      have hpiece := h piece (List.mem_cons_self ..)
      cases rest with
      | nil => exact hpiece
      | cons second rest =>
          have hrest := ih (List.cons_ne_nil _ _) fun p hp => h p (List.mem_cons_of_mem _ hp)
          exact hpiece.append hrest [sign]

/-- The use of a filter: its name and its arguments. -/
structure FilterUse where
  name : List Char
  arguments : List Operand
  solid : IsSolid name
  plain : (name.all fun c => isPlain c && c != '|' && c != ':') = true
  wellFormed : arguments.all Operand.isWellFormed = true

namespace FilterUse

/-- The use of a filter as it is written: a colon before the arguments, and commas between them. -/
def text (use : FilterUse) : List Char :=
  match use.arguments with
  | [] => use.name
  | first :: rest => use.name ++ ':' :: joinWith ',' ((first :: rest).map Operand.text)

variable (use : FilterUse)

theorem isSealed_name {mark : Char} (h : mark = '|' ∨ mark = ':') :
    isSealed mark use.name = true := by
  have hchars := List.all_eq_true.1 use.plain
  refine isSealed_plain (fun c hc => ?_) fun hmark => ?_
  · exact (Bool.and_eq_true_iff.1 (Bool.and_eq_true_iff.1 (hchars c hc)).1).1
  · have hsign := hchars mark hmark
    rcases h with rfl | rfl
    · exact absurd hsign (by decide)
    · exact absurd hsign (by decide)

/-- Commas between the texts of operands cut them apart. -/
theorem arguments_eq {operands : List Operand} (nonempty : operands ≠ [])
    (wellFormed : operands.all Operand.isWellFormed = true) :
    ((split ',' false (joinWith ',' (operands.map Operand.text))).map trim).filter (!·.isEmpty) =
      operands.map Operand.text := by
  have hpieces : ∀ piece ∈ operands.map Operand.text, IsSolid piece ∧ isSealed ',' piece = true := by
    intro piece hpiece
    obtain ⟨operand, hmem, rfl⟩ := List.mem_map.1 hpiece
    have hoperand := List.all_eq_true.1 wellFormed operand hmem
    exact ⟨Operand.isSolid_text hoperand, Operand.isSealed_text hoperand (.inr (.inr rfl))⟩
  have hsplit : split ',' false (joinWith ',' (operands.map Operand.text)) =
      operands.map Operand.text :=
    split_joinWith (fun h => nonempty (List.map_eq_nil_iff.1 h)) fun piece h => (hpieces piece h).2
  have htrim : (operands.map Operand.text).map trim = operands.map Operand.text := by
    conv => rhs; rw [← List.map_id (operands.map Operand.text)]
    exact List.map_congr_left fun piece hpiece => (hpieces piece hpiece).1.trim_eq
  rw [hsplit, htrim]
  refine List.filter_eq_self.2 fun piece hpiece => ?_
  have hne := (hpieces piece hpiece).1.nonempty
  simpa using hne

/-- A use is read as its name and the texts of its arguments, whatever blanks are around it. -/
theorem filterCall_eq {segment : List Char} (h : trim segment = use.text) :
    filterCall segment = (use.name, use.arguments.map Operand.text) := by
  have hname := use.solid.trim_eq
  have hcolon := use.isSealed_name (.inr rfl)
  have hwellFormed := use.wellFormed
  rcases harguments : use.arguments with _ | ⟨first, rest⟩
  · have htext : use.text = use.name := by
      rw [text, harguments]
    rw [filterCall, h, htext, split_sealed hcolon]
    dsimp only
    rw [hname]
    rfl
  · rw [harguments] at hwellFormed
    have htext : use.text = use.name ++ ':' :: joinWith ',' ((first :: rest).map Operand.text) := by
      rw [text, harguments]
    have hcut := splitFrom_mark hcolon (joinWith ',' ((first :: rest).map Operand.text))
    have hdrop : (use.name ++ ':' :: joinWith ',' ((first :: rest).map Operand.text)).drop
        (use.name.length + 1) = joinWith ',' ((first :: rest).map Operand.text) := by
      rw [← List.drop_drop, List.drop_left]
      rfl
    rw [filterCall, h, htext, split, hcut]
    -- only the first colon counts: the arguments are all that stands behind it
    rcases hlater : splitFrom ':' false {} (joinWith ',' ((first :: rest).map Operand.text)) with
      _ | ⟨second, others⟩
    · exact absurd hlater (splitFrom_ne_nil _ _ _ _)
    · dsimp only
      rw [hname, hdrop, arguments_eq (List.cons_ne_nil _ _) hwellFormed]

theorem isSealed_text : isSealed '|' use.text = true := by
  have hname := use.isSealed_name (.inl rfl)
  rcases harguments : use.arguments with _ | ⟨first, rest⟩
  · rw [text, harguments]
    exact hname
  · rw [text, harguments]
    have hcolon : isSealed '|' [':'] = true := by decide
    refine isSealed_append hname (isSealed_append hcolon (isSealed_joinWith (by decide) ?_))
    intro piece hpiece
    obtain ⟨operand, hmem, rfl⟩ := List.mem_map.1 hpiece
    have hoperand := List.all_eq_true.1 use.wellFormed operand (harguments ▸ hmem)
    exact Operand.isSealed_text hoperand (.inl rfl)

theorem isSolid_text : IsSolid use.text := by
  rcases harguments : use.arguments with _ | ⟨first, rest⟩
  · rw [text, harguments]
    exact use.solid
  · rw [text, harguments]
    have hpieces : (first :: rest).map Operand.text ≠ [] := List.cons_ne_nil _ _
    refine use.solid.append (isSolid_joinWith hpieces fun piece hpiece => ?_) [':']
    obtain ⟨operand, hmem, rfl⟩ := List.mem_map.1 hpiece
    exact Operand.isSolid_text (List.all_eq_true.1 use.wellFormed operand (harguments ▸ hmem))

end FilterUse

/-- The uses of filters behind the head of a pipeline, a bar between spaces before each. -/
def usesText (uses : List FilterUse) : List Char :=
  uses.flatMap fun use => ' ' :: '|' :: ' ' :: use.text

theorem isSolid_uses {front : List Char} (solid : IsSolid front) (uses : List FilterUse) :
    IsSolid (front ++ usesText uses) := by
  induction uses generalizing front with
  | nil =>
      rw [usesText, List.flatMap_nil, List.append_nil]
      exact solid
  | cons use rest ih =>
      have hall := ih (solid.append use.isSolid_text [' ', '|', ' '])
      rw [List.append_assoc] at hall
      exact hall

/-- Bars cut the uses of filters apart. -/
theorem segments_uses (uses : List FilterUse) {front : List Char} (h : isSealed '|' front = true) :
    ∃ gap segments, splitFrom '|' true {} (front ++ usesText uses) = (front ++ gap) :: segments ∧
      (∀ c ∈ gap, isBlank c = true) ∧
      List.Forall₂ (fun segment (use : FilterUse) => trim segment = use.text) segments uses := by
  induction uses generalizing front with
  | nil =>
      have hone : split '|' true front = [front] := split_sealed h
      refine ⟨[], [], ?_, fun c hc => absurd hc List.not_mem_nil, .nil⟩
      rw [usesText, List.flatMap_nil, List.append_nil]
      exact hone
  | cons use rest ih =>
      have hspace : isSealed '|' [' '] = true := by decide
      have hblank : ∀ c ∈ [' '], isBlank c = true := List.all_eq_true.1 rfl
      obtain ⟨gap, segments, hsplit, hgap, hsegments⟩ := ih (isSealed_append hspace use.isSealed_text)
      have htext : front ++ usesText (use :: rest) =
          (front ++ [' ']) ++ '|' :: ([' '] ++ use.text ++ usesText rest) := by
        simp [usesText]
      have hbar : splitFrom '|' true {} ('|' :: ([' '] ++ use.text ++ usesText rest)) =
          [] :: splitFrom '|' true {} ([' '] ++ use.text ++ usesText rest) := rfl
      have htrim : trim ([' '] ++ use.text ++ gap) = use.text := by
        rw [trim_append hgap, trim_blanks_append hblank, use.isSolid_text.trim_eq]
      refine ⟨[' '], ([' '] ++ use.text ++ gap) :: segments, ?_, hblank, .cons htrim hsegments⟩
      rw [htext, splitFrom_sealed (isSealed_append h hspace), hbar, hsplit, onto, List.append_nil]

end Reference

end Stencil
