import Stencil.Proofs.Bytewise.Indexers
import Stencil.Proofs.Resolution.Splitting
import Stencil.Reference.Access

/-!
Splitting by bytes: the pieces of a text between the signs outside quotes, brackets and parentheses, the segments of
an expression and the call of a filter. A backslash in quotes makes the loop pass over one byte, which may be the
first of several of one character; what is left of the character is passed then, and no piece is cut inside it.
-/

namespace Stencil.Bytewise

open Text Reference
open Markup (byteSize_append)

/-- Where a splitting stands: the open quote, the number of open brackets and parentheses, where the piece begins,
where the next byte stands, and the pieces that have been cut off. -/
structure Splitting where
  quote : Option UInt8 := none
  depth : Nat := 0
  start : Nat := 0
  index : Nat := 0
  parts : List (List Char) := []

/-- A turn of a splitting takes one byte, or two where the first has the second passed over. Behind the last byte the
rest is the last piece. -/
def splitTurn (mark : UInt8) (single : Bool) (s : List Char) (state : Splitting) :
    Except Slip (Splitting ⊕ List (List Char)) := do
  if state.index < (bytes s).length then
    let byte ← byteAt (bytes s) state.index
    let next := { state with index := state.index + 1 }
    match state.quote with
    | some closing =>
        if byte = '\\'.toUInt8 then return .inl { state with index := state.index + 2 }
        else return .inl { next with quote := if byte = closing then none else some closing }
    | none =>
        if isQuoteByte byte then return .inl { next with quote := some byte }
        else if byte = '['.toUInt8 ∨ byte = '('.toUInt8 then return .inl { next with depth := state.depth + 1 }
        else if byte = ']'.toUInt8 ∨ byte = ')'.toUInt8 then return .inl { next with depth := state.depth - 1 }
        else if byte = mark ∧ state.depth = 0 then
          if single = true ∧ (bytes s)[state.index + 1]? = some mark then
            return .inl { state with index := state.index + 2 }
          else
            let piece ← slice s state.start state.index
            return .inl { next with start := state.index + 1, parts := state.parts ++ [piece] }
        else return .inl next
  else
    let piece ← sliceFrom s state.start
    return .inr (state.parts ++ [piece])

/-- The pieces of a text between the signs outside quotes, brackets and parentheses. -/
def split (mark : Char) (single : Bool) (s : List Char) : Except Slip (List (List Char)) :=
  turns (splitTurn mark.toUInt8 single s) (byteSize s + 1) {}

/-- The segments of an expression between single bars. -/
def segments (expression : List Char) : Except Slip (List (List Char)) := split '|' true expression

/-- The name of a filter and the texts of its arguments. -/
def filterCall (segment : List Char) : Except Slip (List Char × List (List Char)) := do
  let segment := trim segment
  match ← split ':' false segment with
  | name :: _ :: _ =>
      let arguments ← split ',' false (← sliceFrom segment (byteSize name + 1))
      return (trim name, (arguments.map trim).filter (!·.isEmpty))
  | [name] => return (trim name, [])
  | [] => return ([], [])

/-! ### Splitting is what it is by characters -/

theorem onto_onto (first second : List Char) (pieces : List (List Char)) :
    onto first (onto second pieces) = onto (first ++ second) pieces := by
  cases pieces with
  | nil => rfl
  | cons piece others => simp [onto]

theorem onto_nil {pieces : List (List Char)} (h : pieces ≠ []) : onto [] pieces = pieces := by
  obtain ⟨piece, others, rfl⟩ := List.exists_cons_of_ne_nil h
  rfl

/-- A character that does not split belongs to the piece it stands in. -/
theorem splitFrom_inside {mark : Char} {single : Bool} {nesting : Nesting} {c : Char}
    (h : ¬ (nesting.isOutside = true ∧ c = mark)) (rest : List Char) :
    splitFrom mark single nesting (c :: rest) = onto [c] (splitFrom mark single (nesting.step c) rest) := by
  cases rest with
  | nil => simp [splitFrom, h, onto]
  | cons d others => simp [splitFrom, h]

/-- A sign outside quotes and brackets cuts, unless it stands double where only single ones do. -/
theorem splitFrom_outside {mark : Char} {single : Bool} {nesting : Nesting} (h : nesting.isOutside = true)
    {rest : List Char} (alone : ¬ (single = true ∧ rest.head? = some mark)) :
    splitFrom mark single nesting (mark :: rest) = [] :: splitFrom mark single nesting rest := by
  cases rest with
  | nil => simp [splitFrom, h]
  | cons d others =>
      have hsecond : (single && d == mark) = false := by simpa using alone
      simp [splitFrom, h, hsecond]

theorem step_high {nesting : Nesting} (h : nesting.escaping = false) {c : Char} (hc : 128 ≤ c.toNat)
    (hquote : ∀ mark ∈ nesting.quote, mark = '"' ∨ mark = '\'') : nesting.step c = nesting := by
  have hplain (d : Char) (hd : d.toNat < 128) : c ≠ d := ne_of_high hc hd
  cases hopen : nesting.quote with
  | none =>
      have hfree : isPlain c = true := by simp [isPlain, isFree, hplain]
      exact step_plain hfree hopen
  | some mark =>
      have hmark := hplain mark (toNat_of_quote (hquote mark hopen))
      have hbackslash := hplain '\\' (by decide)
      simp [Nesting.step, hopen, h, hmark, hbackslash]

/-- What a splitting leads to. The bytes of a character that stand behind the place may still have to be passed; then
the text goes on, and its pieces follow those that have been cut off. -/
inductive Splitting.Leads (mark : Char) (single : Bool) (s : List Char) : Splitting → List (List Char) → Prop where
  | intro {quote : Option UInt8} {place : Option Char} {depth index : Nat} {parts : List (List Char)}
      {before piece rest : List Char} (high : List UInt8) (same : SameQuote quote place)
      (text : s = before ++ (piece ++ rest)) (behind : (bytes s).drop index = high ++ bytes rest)
      (passing : ∀ byte ∈ high, 128 ≤ byte.toNat) :
      Leads mark single s ⟨quote, depth, byteSize before, index, parts⟩
        (parts ++ onto piece (splitFrom mark single ⟨place, false, depth⟩ rest))

section Turn

variable {mark : Char} (hmark : mark.toNat < 128) {single : Bool} {s : List Char} {quote : Option UInt8}
  {place : Option Char} (same : SameQuote quote place) {depth start index : Nat} {parts : List (List Char)}
  (hlt : index < byteSize s)

include hmark same hlt

/-- A high byte is passed. -/
theorem splitTurn_high {byte : UInt8} (hbyte : 128 ≤ byte.toNat) (hat : byteAt (bytes s) index = .ok byte) :
    splitTurn mark.toUInt8 single s ⟨quote, depth, start, index, parts⟩ =
      .ok (.inl ⟨quote, depth, start, index + 1, parts⟩) := by
  have hne (d : Char) (hd : d.toNat < 128) : byte ≠ d.toUInt8 := ne_toUInt8 hbyte hd
  have hfree := isQuoteByte_high hbyte
  rcases same.cases with ⟨rfl, rfl⟩ | ⟨closing, rfl, rfl, hclosing⟩
  · simp [splitTurn, hlt, hat, hfree, hne, hmark]
  · simp [splitTurn, hlt, hat, hne, toNat_of_quote hclosing]

variable (single start parts) in
/-- A basic character that neither splits nor escapes does to the turn what it does to the reading. -/
theorem splitTurn_basic {c : Char} (hc : c.toNat < 128) (hat : byteAt (bytes s) index = .ok c.toUInt8)
    (inside : ¬ (place = none ∧ depth = 0 ∧ c = mark)) (unescaped : place ≠ none → c ≠ '\\') :
    ∃ quote' place' depth', SameQuote quote' place' ∧
      Nesting.step ⟨place, false, depth⟩ c = ⟨place', false, depth'⟩ ∧
      splitTurn mark.toUInt8 single s ⟨quote, depth, start, index, parts⟩ =
        .ok (.inl ⟨quote', depth', start, index + 1, parts⟩) := by
  have hsame (d : Char) (hd : d.toNat < 128) : c.toUInt8 = d.toUInt8 ↔ c = d := toUInt8_inj hc hd
  rcases same.cases with ⟨rfl, rfl⟩ | ⟨closing, rfl, rfl, hclosing⟩
  · have hquote := isQuoteByte_toUInt8 hc
    by_cases h : c = '"' ∨ c = '\''
    · refine ⟨some c.toUInt8, some c, depth, sameQuote_some h, ?_, ?_⟩
      · simp [Nesting.step, h]
      · simp [splitTurn, hlt, hat, hquote, h]
    · refine ⟨none, none, (Nesting.step ⟨none, false, depth⟩ c).depth, sameQuote_none, ?_, ?_⟩
      · grind [Nesting.step]
      · by_cases hopen : c = '[' ∨ c = '('
        · simp [splitTurn, hlt, hat, hquote, hsame, h, hopen, Nesting.step]
        · by_cases hclose : c = ']' ∨ c = ')'
          · simp [splitTurn, hlt, hat, hquote, hsame, h, hopen, hclose, Nesting.step]
          · have hkept : ¬ (c = mark ∧ depth = 0) := fun hsign => inside ⟨rfl, hsign.2, hsign.1⟩
            simp [splitTurn, hlt, hat, hquote, hsame, hmark, h, hopen, hclose, hkept, Nesting.step]
  · have hbackslash := unescaped (Option.some_ne_none _)
    have hend := hsame closing (toNat_of_quote hclosing)
    by_cases h : c = closing
    · subst h
      refine ⟨none, none, depth, sameQuote_none, ?_, ?_⟩
      · simp [Nesting.step, hbackslash]
      · simp [splitTurn, hlt, hat, hsame, hbackslash]
    · refine ⟨some closing.toUInt8, some closing, depth, sameQuote_some hclosing, ?_, ?_⟩
      · simp [Nesting.step, hbackslash, h]
      · simp [splitTurn, hlt, hat, hsame, hbackslash, hend, h]

end Turn

/-- From an offset between two characters on, one byte more is passed: no character, or one, of which high bytes may
be left. -/
theorem exists_passed {row : List UInt8} {offset : Nat} {rest : List Char} (h : row.drop offset = bytes rest) :
    ∃ passed others high, rest = passed ++ others ∧ row.drop (offset + 1) = high ++ bytes others ∧
      (∀ byte ∈ high, 128 ≤ byte.toNat) ∧ (passed = [] ∧ others = [] ∨ ∃ c, passed = [c]) := by
  cases rest with
  | nil =>
      refine ⟨[], [], [], rfl, ?_, by simp, .inl ⟨rfl, rfl⟩⟩
      rw [← List.drop_drop, h]
      rfl
  | cons c others =>
      obtain ⟨first, more, hbytes, hmore⟩ := bytes_cons_cases c others
      rw [hbytes] at h
      exact ⟨[c], others, more, rfl, (byteAt_of_drop h).2.2, hmore, .inr ⟨c, rfl⟩⟩

/-- The pieces behind an escaping backslash, with the character behind it or without one. -/
theorem splitFrom_escaping {mark closing : Char} {single : Bool} {depth : Nat} {passed others : List Char}
    (h : passed = [] ∧ others = [] ∨ ∃ c, passed = [c]) :
    splitFrom mark single ⟨some closing, true, depth⟩ (passed ++ others) =
      onto passed (splitFrom mark single ⟨some closing, false, depth⟩ others) := by
  rcases h with ⟨rfl, rfl⟩ | ⟨c, rfl⟩
  · rfl
  · have hinside : ¬ ((Nesting.mk (some closing) true depth).isOutside = true ∧ c = mark) :=
      fun houtside => nomatch houtside.1
    rw [List.singleton_append, splitFrom_inside hinside]
    rfl

namespace Splitting.Leads

variable {mark : Char} (hmark : mark.toNat < 128) {single : Bool} {s : List Char} {quote : Option UInt8}
  {place : Option Char} (same : SameQuote quote place) {depth index : Nat} {parts : List (List Char)}
  {before piece rest : List Char}

include hmark same

/-- The turn at a character that splits, unless it is doubled. -/
theorem turn_sign (plain : isPlain mark = true) (text : s = before ++ (piece ++ mark :: rest))
    (behind : (bytes s).drop index = bytes (mark :: rest)) (outside : place = none) :
    ∃ next, splitTurn mark.toUInt8 single s ⟨quote, 0, byteSize before, index, parts⟩ = .ok (.inl next) ∧
      index < next.index ∧
      Leads mark single s next (parts ++ onto piece (splitFrom mark single ⟨place, false, 0⟩ (mark :: rest))) := by
  subst outside
  obtain rfl : quote = none := same.1
  have hbytes := behind
  rw [bytes_cons_basic hmark] at hbytes
  obtain ⟨hlt, hat, hdrop⟩ := byteAt_of_drop hbytes
  have hindex : index = byteSize before + byteSize piece := by
    have hlength := congrArg List.length behind
    rw [text, List.length_drop] at hlength
    rw [text] at hlt
    simp only [length_bytes, byteSize_append] at hlength hlt
    omega
  rw [length_bytes] at hlt
  have hsecond : (bytes s)[index + 1]? = some mark.toUInt8 ↔ rest.head? = some mark := by
    rw [← Nat.add_zero (index + 1), ← List.getElem?_drop, hdrop, ← List.head?_eq_getElem?, head?_bytes hmark]
  simp only [isPlain, Bool.and_eq_true, isFree_iff, bne_iff_ne] at plain
  obtain ⟨⟨⟨hdouble, hsingle, hopen, hclose⟩, hparen⟩, hend⟩ := plain
  have hquote : isQuoteByte mark.toUInt8 = false := by
    rw [← Bool.not_eq_true, isQuoteByte_toUInt8 hmark]
    simp [hdouble, hsingle]
  by_cases double : single = true ∧ rest.head? = some mark
  · obtain ⟨hsingles, hhead⟩ := double
    obtain ⟨others, rfl⟩ := List.head?_eq_some_iff.1 hhead
    rw [bytes_cons_basic hmark] at hdrop
    obtain ⟨-, -, hlater⟩ := byteAt_of_drop hdrop
    have hpieces : onto piece (splitFrom mark single ⟨none, false, 0⟩ (mark :: mark :: others)) =
        onto (piece ++ [mark, mark]) (splitFrom mark single ⟨none, false, 0⟩ others) := by
      simp [splitFrom, Nesting.isOutside, hsingles, onto_onto]
    rw [hpieces]
    refine ⟨⟨none, 0, byteSize before, index + 2, parts⟩, ?_, Nat.lt_add_of_pos_right Nat.two_pos, ?_⟩
    · simp [splitTurn, hlt, hat, hquote, hsecond, hsingles, toUInt8_inj hmark, hopen, hclose, hparen, hend]
    · exact .intro [] sameQuote_none (by rw [text]; simp) hlater (by simp)
  · have hcut := slice_append before piece (mark :: rest)
    rw [← text, ← hindex] at hcut
    rw [splitFrom_outside rfl double]
    refine ⟨⟨none, 0, index + 1, index + 1, parts ++ [piece]⟩, ?_, Nat.lt_succ_self index, ?_⟩
    · simp [splitTurn, hlt, hat, hquote, hsecond, double, toUInt8_inj hmark, hopen, hclose, hparen, hend, hcut]
    · have hstart : byteSize (before ++ (piece ++ [mark])) = index + 1 := by
        simp only [byteSize_append, byteSize_cons, utf8Size_basic hmark, hindex, Nat.add_assoc]
        rfl
      have hanswer : parts ++ onto piece ([] :: splitFrom mark single ⟨none, false, 0⟩ rest) =
          (parts ++ [piece]) ++ onto [] (splitFrom mark single ⟨none, false, 0⟩ rest) := by
        rw [onto_nil (splitFrom_ne_nil mark single _ rest)]
        simp [onto]
      rw [hanswer, ← hstart]
      refine .intro [] sameQuote_none (by rw [text]; simp) ?_ (by simp)
      rw [hstart]
      exact hdrop

omit hmark in
/-- The turn at a backslash in quotes. -/
theorem turn_escape (text : s = before ++ (piece ++ '\\' :: rest))
    (behind : (bytes s).drop index = bytes ('\\' :: rest)) (inside : place ≠ none) :
    ∃ next, splitTurn mark.toUInt8 single s ⟨quote, depth, byteSize before, index, parts⟩ = .ok (.inl next) ∧
      index < next.index ∧
      Leads mark single s next
        (parts ++ onto piece (splitFrom mark single ⟨place, false, depth⟩ ('\\' :: rest))) := by
  rw [bytes_cons_basic (by decide)] at behind
  obtain ⟨hlt, hat, hdrop⟩ := byteAt_of_drop behind
  rw [length_bytes] at hlt
  obtain ⟨passed, others, high, rfl, hbehind, hhigh, hpassed⟩ := exists_passed hdrop
  rcases same.cases with ⟨-, hnone⟩ | ⟨closing, rfl, rfl, hclosing⟩
  · exact absurd hnone inside
  · have houtside : ¬ ((Nesting.mk (some closing) false depth).isOutside = true ∧ '\\' = mark) :=
      fun h => nomatch h.1
    have hstep : (Nesting.mk (some closing) false depth).step '\\' = ⟨some closing, true, depth⟩ := rfl
    have hpieces :
        onto piece (splitFrom mark single ⟨some closing, false, depth⟩ ('\\' :: (passed ++ others))) =
          onto (piece ++ '\\' :: passed) (splitFrom mark single ⟨some closing, false, depth⟩ others) := by
      rw [splitFrom_inside houtside, hstep, splitFrom_escaping hpassed, onto_onto, onto_onto]
      simp
    rw [hpieces]
    refine ⟨⟨some closing.toUInt8, depth, byteSize before, index + 2, parts⟩, ?_,
      Nat.lt_add_of_pos_right Nat.two_pos, ?_⟩
    · simp [splitTurn, hlt, hat]
    · exact .intro high (sameQuote_some hclosing) (by rw [text]; simp) hbehind hhigh

/-- The turn at any other character. -/
theorem turn_inside {c : Char} (text : s = before ++ (piece ++ c :: rest))
    (behind : (bytes s).drop index = bytes (c :: rest)) (inside : ¬ (place = none ∧ depth = 0 ∧ c = mark))
    (unescaped : place ≠ none → c ≠ '\\') :
    ∃ next, splitTurn mark.toUInt8 single s ⟨quote, depth, byteSize before, index, parts⟩ = .ok (.inl next) ∧
      index < next.index ∧
      Leads mark single s next (parts ++ onto piece (splitFrom mark single ⟨place, false, depth⟩ (c :: rest))) := by
  have hinside : ¬ ((Nesting.mk place false depth).isOutside = true ∧ c = mark) := by
    simpa [Nesting.isOutside] using inside
  have htext : s = before ++ ((piece ++ [c]) ++ rest) := by
    rw [text]
    simp
  rw [splitFrom_inside hinside, onto_onto]
  by_cases hc : c.toNat < 128
  · rw [bytes_cons_basic hc] at behind
    obtain ⟨hlt, hat, hdrop⟩ := byteAt_of_drop behind
    rw [length_bytes] at hlt
    obtain ⟨quote', place', depth', hsame, hstep, hturn⟩ :=
      splitTurn_basic hmark single same (byteSize before) parts hlt hc hat inside unescaped
    rw [hstep]
    exact ⟨_, hturn, Nat.lt_succ_self index, .intro [] hsame htext hdrop (by simp)⟩
  · have hhigh := Nat.le_of_not_lt hc
    obtain ⟨first, more, hbytes, -, hfirst, hmore⟩ := bytes_cons_high hhigh rest
    rw [hbytes] at behind
    obtain ⟨hlt, hat, hdrop⟩ := byteAt_of_drop behind
    rw [length_bytes] at hlt
    rw [step_high rfl hhigh same.2]
    exact ⟨_, splitTurn_high hmark same hlt hfirst hat, Nat.lt_succ_self index, .intro more same htext hdrop hmore⟩

omit same in
/-- Each turn that is not the last leads to what its beginning leads to, from a later byte on. -/
theorem turn (plain : isPlain mark = true) {state : Splitting} {answer : List (List Char)}
    (leads : Leads mark single s state answer) :
    splitTurn mark.toUInt8 single s state = .ok (.inr answer) ∨
      ∃ next, splitTurn mark.toUInt8 single s state = .ok (.inl next) ∧
        byteSize s - next.index < byteSize s - state.index ∧ Leads mark single s next answer := by
  obtain @⟨quote, place, depth, index, parts, before, piece, rest, high, same, text, behind, passing⟩ := leads
  by_cases hlt : index < byteSize s
  · refine .inr ?_
    suffices h : ∃ next, splitTurn mark.toUInt8 single s ⟨quote, depth, byteSize before, index, parts⟩ =
        .ok (.inl next) ∧ index < next.index ∧
        Leads mark single s next (parts ++ onto piece (splitFrom mark single ⟨place, false, depth⟩ rest)) by
      obtain ⟨next, hnext, hlater, hleads⟩ := h
      exact ⟨next, hnext, by dsimp only; omega, hleads⟩
    cases high with
    | cons byte high =>
        obtain ⟨hbyte, hhigh⟩ := List.forall_mem_cons.1 passing
        obtain ⟨-, hat, hdrop⟩ := byteAt_of_drop behind
        exact ⟨_, splitTurn_high hmark same hlt hbyte hat, Nat.lt_succ_self index, .intro high same text hdrop hhigh⟩
    | nil =>
        rw [List.nil_append] at behind
        cases rest with
        | nil =>
            rw [← length_bytes] at hlt
            exact absurd (List.drop_eq_nil_iff.1 behind) (Nat.not_le_of_lt hlt)
        | cons c rest =>
            by_cases sign : place = none ∧ depth = 0 ∧ c = mark
            · obtain ⟨outside, rfl, rfl⟩ := sign
              exact turn_sign hmark same plain text behind outside
            · by_cases escape : place ≠ none ∧ c = '\\'
              · obtain ⟨inside, rfl⟩ := escape
                exact turn_escape same text behind inside
              · exact turn_inside hmark same text behind sign fun inside hc => escape ⟨inside, hc⟩
  · have hdrop : (bytes s).drop index = [] := by
      rw [List.drop_eq_nil_iff, length_bytes]
      exact Nat.le_of_not_lt hlt
    rw [hdrop] at behind
    obtain ⟨rfl, hrest⟩ := List.append_eq_nil_iff.1 behind.symm
    have hnil : rest = [] := by
      cases rest with
      | nil => rfl
      | cons c others =>
          obtain ⟨first, more, hbytes, -⟩ := bytes_cons_cases c others
          rw [hbytes] at hrest
          cases hrest
    have hlast := sliceFrom_append before piece
    rw [hnil, List.append_nil] at text
    rw [← text] at hlast
    refine .inl ?_
    simp [splitTurn, hlt, hlast, hnil, splitFrom, onto]

end Splitting.Leads

/-- Splitting by bytes never slips, and cuts the pieces that splitting by characters cuts. -/
theorem split_eq (mark : Char) (hmark : mark.toNat < 128) (plain : isPlain mark = true) (single : Bool)
    (s : List Char) : split mark single s = .ok (Reference.split mark single s) := by
  have hleads : Splitting.Leads mark single s ⟨none, 0, byteSize [], 0, []⟩
      ([] ++ onto [] (splitFrom mark single ⟨none, false, 0⟩ s)) :=
    .intro [] sameQuote_none rfl rfl (by simp)
  rw [onto_nil (splitFrom_ne_nil mark single _ s)] at hleads
  exact turns_eq (fun state => byteSize s - state.index) (Splitting.Leads.turn hmark plain) hleads
    (Nat.lt_succ_self _)

theorem segments_eq (expression : List Char) : segments expression = .ok (Reference.segments expression) :=
  split_eq '|' (by decide) (by decide) true expression

theorem filterCall_eq (segment : List Char) : filterCall segment = .ok (Reference.filterCall segment) := by
  have hcolon := split_eq ':' (by decide) (by decide) false (trim segment)
  rw [filterCall, Reference.filterCall]
  dsimp only
  rw [hcolon, ok_bind]
  have hjoined := joinWith_split ':' false (trim segment)
  rcases hpieces : Reference.split ':' false (trim segment) with _ | ⟨name, _ | ⟨second, others⟩⟩
  · rfl
  · rfl
  · -- the pieces put together are the segment, so that the name and its colon stand in front of the arguments
    rw [hpieces, joinWith_cons (List.cons_ne_nil _ _)] at hjoined
    have hbehind := sliceFrom_append (name ++ [':']) (joinWith ':' (second :: others))
    have hsize : byteSize (name ++ [':']) = byteSize name + 1 := byteSize_append name [':']
    rw [hsize, List.append_assoc, List.singleton_append] at hbehind
    have hdrop : (trim segment).drop (name.length + 1) = joinWith ':' (second :: others) := by
      rw [← hjoined, ← List.drop_drop, List.drop_left, List.drop_one, List.tail_cons]
    have hcomma := split_eq ',' (by decide) (by decide) false (joinWith ':' (second :: others))
    dsimp only
    rw [hdrop, ← hjoined, hbehind, ok_bind, hcomma]
    rfl

/-! ### Text in quotes -/

/-- The text between equal quotes at both ends, which its first and its last byte tell. -/
def betweenQuotes? (s : List Char) : Except Slip (Option (List Char)) := do
  if 2 ≤ (bytes s).length then
    let stop ← minus (bytes s).length 1
    let first ← byteAt (bytes s) 0
    let last ← byteAt (bytes s) stop
    if isQuoteByte first = true ∧ last = first then
      let inner ← slice s 1 stop
      return some inner
    else return none
  else return none

/-- A key that stands for itself: quoted text or an integer. -/
def literal? (text : List Char) : Except Slip (Option Value) := do
  match ← betweenQuotes? text with
  | some inner => return some (.string (String.ofList inner))
  | none => return (Decimal.readInt? text).map .int

/-- A string value without one layer of matching quotes around it. -/
def unwrapQuoted : Value → Except Slip Value
  | .string s => do
      match ← betweenQuotes? s.toList with
      | some inner => return .string (String.ofList inner)
      | none => return .string s
  | other => return other

theorem getLast?_bytes {mark : Char} (hmark : mark.toNat < 128) (s : List Char) :
    (bytes s).getLast? = some mark.toUInt8 ↔ s.getLast? = some mark := by
  rcases List.eq_nil_or_concat s with rfl | ⟨front, c, rfl⟩
  · simp [bytes]
  · rw [List.concat_eq_append, bytes_append, List.getLast?_concat]
    by_cases hc : c.toNat < 128
    · rw [bytes_cons_basic hc]
      simp [bytes, toUInt8_inj hc hmark]
    · have hhigh := Nat.le_of_not_lt hc
      have hbytes : bytes [c] = String.utf8EncodeChar c := by simp [bytes]
      constructor
      · intro h
        have hmem : mark.toUInt8 ∈ bytes [c] := by
          have hne : bytes [c] ≠ [] := by
            obtain ⟨first, more, hcons, -⟩ := bytes_cons_cases c []
            rw [hcons]
            exact List.cons_ne_nil _ _
          rw [List.getLast?_append_of_ne_nil _ hne] at h
          exact List.mem_of_getLast? h
        rw [hbytes] at hmem
        exact absurd rfl (ne_toUInt8 (le_of_mem_utf8EncodeChar hhigh _ hmem) hmark)
      · intro h
        exact absurd (Option.some.inj h) (ne_of_high hhigh hmark)

theorem betweenQuotes?_quoted {mark : Char} (hmark : mark = '"' ∨ mark = '\'') (inner : List Char) :
    betweenQuotes? (mark :: (inner ++ [mark])) = .ok (some inner) := by
  have hbasic := toNat_of_quote hmark
  have hfirst : byteAt (bytes (mark :: (inner ++ [mark]))) 0 = .ok mark.toUInt8 := by
    rw [bytes_cons_basic hbasic]
    rfl
  have hlength : (bytes (mark :: (inner ++ [mark]))).length = byteSize inner + 2 := by
    rw [length_bytes, byteSize_cons, byteSize_append, byteSize_cons, utf8Size_basic hbasic]
    change 1 + (_ + (1 + 0)) = _
    omega
  have hlast : byteAt (bytes (mark :: (inner ++ [mark]))) (byteSize inner + 1) = .ok mark.toUInt8 := by
    have hget : (bytes (mark :: (inner ++ [mark])))[byteSize inner + 1]? = some mark.toUInt8 := by
      have hend := (getLast?_bytes hbasic (mark :: (inner ++ [mark]))).2
        (by rw [← List.cons_append, List.getLast?_concat])
      rwa [List.getLast?_eq_getElem?, hlength] at hend
    rw [byteAt, hget]
  have hslice := slice_append [mark] inner [mark]
  have hstart : byteSize [mark] = 1 := utf8Size_basic hbasic
  rw [hstart, Nat.add_comm 1, List.singleton_append] at hslice
  have hquote := (isQuoteByte_toUInt8 hbasic).2 hmark
  have hstop : minus (byteSize inner + 2) 1 = .ok (byteSize inner + 1) := minus_add (byteSize inner + 1) 1
  rw [betweenQuotes?, hlength, if_pos (Nat.le_add_left ..), hstop, ok_bind, hfirst, ok_bind, hlast, ok_bind,
    if_pos ⟨hquote, rfl⟩, hslice, ok_bind]
  rfl

theorem betweenQuotes?_eq_some_iff {s inner : List Char} :
    Value.betweenQuotes? s = some inner ↔ ∃ mark, (mark = '"' ∨ mark = '\'') ∧ s = mark :: (inner ++ [mark]) := by
  constructor
  · intro h
    unfold Value.betweenQuotes? at h
    split at h
    next first second rest =>
      split at h
      next hends =>
        cases h
        exact ⟨first, hends.1, congrArg (first :: ·) (List.dropLast_append_getLast? first hends.2).symm⟩
      next => cases h
    next => cases h
  · rintro ⟨mark, hmark, rfl⟩
    have hne : inner ++ [mark] ≠ [] := List.append_ne_nil_of_right_ne_nil inner (List.cons_ne_nil mark [])
    obtain ⟨second, rest, htail⟩ := List.exists_cons_of_ne_nil hne
    rw [htail, Value.betweenQuotes?, ← htail, if_pos ⟨hmark, List.getLast?_concat⟩, List.dropLast_concat]

/-- Nothing stands between quotes where the ends do not show equal ones. -/
theorem betweenQuotes?_unquoted {s : List Char}
    (h : ∀ mark inner, mark = '"' ∨ mark = '\'' → s ≠ mark :: (inner ++ [mark])) :
    betweenQuotes? s = .ok none := by
  rw [betweenQuotes?]
  split
  next hlength =>
    have hstop : minus (bytes s).length 1 = .ok ((bytes s).length - 1) := if_pos (by omega)
    have hlt : (bytes s).length - 1 < (bytes s).length := by omega
    have hpos : 0 < (bytes s).length := by omega
    have hfirst : byteAt (bytes s) 0 = .ok (bytes s)[0] := by rw [byteAt, List.getElem?_eq_getElem hpos]
    have hlast : byteAt (bytes s) ((bytes s).length - 1) = .ok (bytes s)[(bytes s).length - 1] := by
      rw [byteAt, List.getElem?_eq_getElem hlt]
    rw [hstop, ok_bind, hfirst, ok_bind, hlast, ok_bind, if_neg]
    · rfl
    · rintro ⟨hquote, hsame⟩
      have hmark : ∃ mark : Char, (mark = '"' ∨ mark = '\'') ∧ (bytes s)[0] = mark.toUInt8 := by
        rw [isQuoteByte, Bool.or_eq_true, beq_iff_eq, beq_iff_eq] at hquote
        rcases hquote with hdouble | hsingle
        · exact ⟨'"', .inl rfl, hdouble⟩
        · exact ⟨'\'', .inr rfl, hsingle⟩
      obtain ⟨mark, hmark, heq⟩ := hmark
      have hbasic := toNat_of_quote hmark
      have hhead : s.head? = some mark := by
        rw [← head?_bytes hbasic, List.head?_eq_getElem?, List.getElem?_eq_getElem hpos, heq]
      have htail : s.getLast? = some mark := by
        rw [← getLast?_bytes hbasic, List.getLast?_eq_getElem?, List.getElem?_eq_getElem hlt, hsame, heq]
      obtain ⟨rest, rfl⟩ := List.head?_eq_some_iff.1 hhead
      cases rest with
      | nil =>
          rw [length_bytes, byteSize_cons, utf8Size_basic hbasic] at hlength
          exact absurd hlength (by decide)
      | cons c others =>
          rw [List.getLast?_cons_cons] at htail
          obtain ⟨inner, hinner⟩ := List.getLast?_eq_some_iff.1 htail
          exact h mark inner hmark (congrArg (mark :: ·) hinner)
  next => rfl

theorem betweenQuotes?_eq (s : List Char) : betweenQuotes? s = .ok (Value.betweenQuotes? s) := by
  cases hquoted : Value.betweenQuotes? s with
  | some inner =>
      obtain ⟨mark, hmark, rfl⟩ := betweenQuotes?_eq_some_iff.1 hquoted
      exact betweenQuotes?_quoted hmark inner
  | none =>
      refine betweenQuotes?_unquoted fun mark inner hmark heq => ?_
      rw [betweenQuotes?_eq_some_iff.2 ⟨mark, hmark, heq⟩] at hquoted
      cases hquoted

theorem literal?_eq (text : List Char) : literal? text = .ok (Resolver.literal? text) := by
  rw [literal?, Resolver.literal?, betweenQuotes?_eq, ok_bind]
  cases Value.betweenQuotes? text with
  | some inner => rfl
  | none => rfl

theorem unwrapQuoted_eq (value : Value) : unwrapQuoted value = .ok value.unwrapQuoted := by
  cases value with
  | string s =>
      rw [unwrapQuoted, Value.unwrapQuoted, betweenQuotes?_eq, ok_bind]
      cases Value.betweenQuotes? s.toList with
      | some inner => rfl
      | none => rfl
  | _ => rfl

end Stencil.Bytewise
