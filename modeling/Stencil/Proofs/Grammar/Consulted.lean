import Mathlib.Data.List.Chain
import Stencil.Formula.Grammar

/-!
Which tokens of an expression are used. The leaves of a formula are the operands among the tokens that are read for
it, in their order, and no two of these operands stand next to one another. The references that are looked up are
those of the tokens that are read, whether the tokens are a formula or break off. The levels of the grammar are named
here, with the reader of each.
-/

namespace Stencil.Formula

/-- The references of a formula, from left to right. -/
def references : Formula → List String
  | .literal _ => []
  | .reference text => [text]
  | .negate operand => operand.references
  | .not operand => operand.references
  | .binary _ left right => left.references ++ right.references

/-- The literals and references of a formula as tokens, from left to right. -/
def leaves : Formula → List Token
  | .literal value => [.literal value]
  | .reference text => [.reference text]
  | .negate operand => operand.leaves
  | .not operand => operand.leaves
  | .binary _ left right => left.leaves ++ right.leaves

theorem reading_bind {reading : Reading} {next : Formula × List Token → Reading}
    {result : Formula × List Token} (h : reading >>= next = .ok result) :
    ∃ found rest, reading = .ok (found, rest) ∧ next (found, rest) = .ok result := by
  cases reading with
  | error stuck => cases h
  | ok pair => exact ⟨pair.1, pair.2, rfl, h⟩

/-- Whether a token can stand between operands. -/
def Token.isJoint : Token → Bool
  | .literal _ | .reference _ => false
  | _ => true

/-- Not both of two tokens are operands. -/
def Parted (first second : Token) : Prop := first.isJoint = true ∨ second.isJoint = true

/-- The references that are looked up for an expression. -/
def consulted (text : List Char) : List String :=
  match tokens? text with
  | none => []
  | some tokens =>
      match read tokens with
      | .ok found => found.references
      | .error references => references

/-- The tokens that a reading leaves, also where it gets stuck. -/
def Reading.left : Reading → List Token
  | .ok (_, rest) => rest
  | .error rest => rest

/-- The operands among tokens. -/
def operands (tokens : List Token) : List Token := tokens.filter fun token => !token.isJoint

/-- A reading of tokens behind some operands, of which it has used some from the front. -/
structure Reading.Uses (tokens behind used : List Token) (reading : Reading) : Prop where
  split : tokens = used ++ reading.left
  parted : used.IsChain Parted
  found : ∀ {formula rest}, reading = .ok (formula, rest) → formula.leaves = behind ++ operands used

/-- A reader that uses tokens from the front, whether it gives a formula or gets stuck. -/
def Uses (reader : Reader) : Prop := ∀ tokens, ∃ used, (reader tokens).Uses tokens [] used

/-- A reading that uses no operand first, and so may go on behind one. -/
def Reading.GoesOn (tokens behind : List Token) (reading : Reading) : Prop :=
  ∃ used, reading.Uses tokens behind used ∧ ∀ token ∈ used.head?, token.isJoint = true

theorem parted_cons {token : Token} (joint : token.isJoint = true) {used : List Token}
    (h : used.IsChain Parted) : (token :: used).IsChain Parted :=
  List.isChain_cons.2 ⟨fun _ _ => Or.inl joint, h⟩

theorem parted_append {first second : List Token} (hfirst : first.IsChain Parted)
    (hsecond : second.IsChain Parted) (joint : ∀ token ∈ second.head?, token.isJoint = true) :
    (first ++ second).IsChain Parted :=
  List.isChain_append.2 ⟨hfirst, hsecond, fun _ _ token hmem => Or.inr (joint token hmem)⟩

namespace Reading.Uses

variable {tokens behind used : List Token} {reading : Reading}

theorem nothing (formula : Formula) (tokens : List Token) :
    Reading.Uses tokens formula.leaves [] (.ok (formula, tokens)) := by
  refine ⟨rfl, List.isChain_nil, fun h => ?_⟩
  cases h
  exact (List.append_nil _).symm

theorem stuck (tokens behind : List Token) : Reading.Uses tokens behind [] (.error tokens) :=
  ⟨rfl, List.isChain_nil, fun h => nomatch h⟩

/-- One more token in front that is no operand. -/
theorem cons (h : reading.Uses tokens behind used) {token : Token} (joint : token.isJoint = true) :
    reading.Uses (token :: tokens) behind (token :: used) := by
  refine ⟨congrArg (token :: ·) h.split, parted_cons joint h.parted, fun hreading => ?_⟩
  rw [operands, List.filter_cons_of_neg (by rw [joint]; decide)]
  exact h.found hreading

theorem goesOn (h : reading.Uses tokens behind used) {token : Token} (joint : token.isJoint = true) :
    reading.GoesOn (token :: tokens) behind := by
  refine ⟨token :: used, h.cons joint, fun first hfirst => ?_⟩
  cases hfirst
  exact joint

/-- A reading that goes on behind a formula. -/
theorem bind (h : reading.Uses tokens [] used) {next : Formula × List Token → Reading}
    (hnext : ∀ formula rest, (next (formula, rest)).GoesOn rest (behind ++ formula.leaves)) :
    ∃ used, Reading.Uses tokens behind used (reading >>= next) := by
  obtain ⟨hsplit, hparted, hfound⟩ := h
  cases reading with
  | error left => exact ⟨used, hsplit, hparted, fun h => nomatch h⟩
  | ok pair =>
      obtain ⟨formula, rest⟩ := pair
      obtain ⟨later, hlater, hjoint⟩ := hnext formula rest
      refine ⟨used ++ later, ?_, parted_append hparted hlater.parted hjoint, fun h => ?_⟩
      · rw [List.append_assoc]
        exact hsplit.trans (congrArg (used ++ ·) hlater.split)
      · rw [hlater.found h, hfound rfl, operands, operands, operands, List.filter_append, List.append_assoc]
        rfl

/-- A token that is no operand, and then a reading that goes on behind a formula. -/
theorem goesOn_bind (h : reading.Uses tokens [] used) {token : Token} (joint : token.isJoint = true)
    {next : Formula × List Token → Reading}
    (hnext : ∀ formula rest, (next (formula, rest)).GoesOn rest (behind ++ formula.leaves)) :
    Reading.GoesOn (token :: tokens) behind (reading >>= next) := by
  obtain ⟨later, hlater⟩ := h.bind hnext
  exact hlater.goesOn joint

end Reading.Uses

theorem Reading.GoesOn.uses {tokens behind : List Token} {reading : Reading} (h : reading.GoesOn tokens behind) :
    ∃ used, reading.Uses tokens behind used := by
  obtain ⟨used, hused, -⟩ := h
  exact ⟨used, hused⟩

theorem goesOn_nothing (formula : Formula) (tokens : List Token) :
    Reading.GoesOn tokens formula.leaves (.ok (formula, tokens)) :=
  ⟨[], .nothing formula tokens, fun _ hmem => nomatch hmem⟩

section Readers

variable {operand : Reader} (uses : Uses operand)

include uses

theorem chainFrom_goesOn {operator? : Token → Option Operator}
    (joint : ∀ token operator, operator? token = some operator → token.isJoint = true) (steps : Nat)
    (left : Formula) (tokens : List Token) :
    (chainFrom operand operator? steps left tokens).GoesOn tokens left.leaves := by
  induction steps generalizing left tokens with
  | zero => exact goesOn_nothing left tokens
  | succ steps ih =>
      cases tokens with
      | nil => exact goesOn_nothing left []
      | cons token rest =>
          rw [chainFrom]
          cases hoperator : operator? token with
          | none => exact goesOn_nothing left (token :: rest)
          | some operator =>
              obtain ⟨used, hused⟩ := uses rest
              refine hused.goesOn_bind (joint token operator hoperator) fun right after => ?_
              exact ih (.binary operator left right) after

theorem Uses.chain {operator? : Token → Option Operator}
    (joint : ∀ token operator, operator? token = some operator → token.isJoint = true) :
    Uses (chain operand operator?) := by
  intro tokens
  obtain ⟨used, hused⟩ := uses tokens
  exact hused.bind fun left after => chainFrom_goesOn uses joint after.length left after

theorem Uses.prefixed {isOperator : Token → Bool} {apply : Formula → Formula}
    (joint : ∀ token, isOperator token = true → token.isJoint = true)
    (keeps : ∀ inner, (apply inner).leaves = inner.leaves) :
    Uses (prefixed operand isOperator apply) := by
  intro tokens
  induction tokens with
  | nil => exact uses []
  | cons token rest ih =>
      rw [Formula.prefixed]
      split
      next hoperator =>
        obtain ⟨used, hused⟩ := ih
        refine (hused.goesOn_bind (joint token hoperator) fun inner after => ?_).uses
        rw [← keeps inner]
        exact goesOn_nothing (apply inner) after
      next => exact uses (token :: rest)

theorem Uses.compared : Uses (compared operand) := by
  intro tokens
  obtain ⟨used, hused⟩ := uses tokens
  refine hused.bind fun left after => ?_
  cases after with
  | nil => exact goesOn_nothing left []
  | cons token rest =>
      dsimp only
      cases hcomparison : comparison? token with
      | none => exact goesOn_nothing left (token :: rest)
      | some comparison =>
          have hjoint : token.isJoint = true := by
            cases token with
            | compare => rfl
            | _ => cases hcomparison
          obtain ⟨taken, htaken⟩ := uses rest
          refine htaken.goesOn_bind hjoint fun right after => ?_
          exact goesOn_nothing (.binary (.compare comparison) left right) after

theorem Uses.primary : Uses (primary operand) := by
  intro tokens
  unfold Formula.primary
  split
  next value rest =>
    refine ⟨[.literal value], rfl, List.isChain_singleton _, fun h => ?_⟩
    cases h
    rfl
  next text rest =>
    refine ⟨[.reference text], rfl, List.isChain_singleton _, fun h => ?_⟩
    cases h
    rfl
  next rest =>
    obtain ⟨used, hused⟩ := uses rest
    refine (hused.goesOn_bind rfl fun formula after => ?_).uses
    split
    next found rest heq =>
      cases heq
      exact (Reading.Uses.nothing formula rest).goesOn rfl
    next heq =>
      cases heq
      exact ⟨[], .stuck after _, fun token hmem => nomatch hmem⟩
  next token rest hliteral hreference hparen =>
    exact ⟨[token], rfl, List.isChain_singleton _, fun h => nomatch h⟩
  next => exact ⟨[], .stuck [] _⟩

end Readers

/-- The levels of the grammar, from the loosest operators to the tightest. -/
inductive Level where
  | or
  | and
  | not
  | comparison
  | additive
  | term
  | unary
  | primary
deriving Repr, DecidableEq

namespace Level

/-- The next tighter level; there is none behind the last. -/
def tighter : Level → Level
  | or => and
  | and => not
  | not => comparison
  | comparison => additive
  | additive => term
  | term => unary
  | unary | primary => primary

/-- The operators that join any number of operands of a level. -/
def operator? : Level → Token → Option Operator
  | or => orOperator?
  | and => andOperator?
  | additive => additiveOperator?
  | term => termOperator?
  | _ => fun _ => none

/-- Whether any number of operands may be joined in a level. -/
def isChain : Level → Bool
  | or | and | additive | term => true
  | _ => false

/-- How tight the operators of a level bind. -/
def tightness : Level → Nat
  | or => 0
  | and => 1
  | not => 2
  | comparison => 3
  | additive => 4
  | term => 5
  | unary => 6
  | primary => 7

end Level

/-- The reader of a level, around what stands in parentheses. -/
def readerAt (inner : Reader) : Level → Reader :=
  let unary := prefixed (primary inner) isMinus .negate
  let term := chain unary termOperator?
  let additive := chain term additiveOperator?
  let negation := prefixed (compared additive) isNot .not
  let conjunction := chain negation andOperator?
  fun
  | .or => chain conjunction orOperator?
  | .and => conjunction
  | .not => negation
  | .comparison => compared additive
  | .additive => additive
  | .term => term
  | .unary => unary
  | .primary => primary inner

theorem readerAt_of_isChain {level : Level} (h : level.isChain = true) (inner : Reader) :
    readerAt inner level = chain (readerAt inner level.tighter) level.operator? := by
  cases level with
  | or => rfl
  | and => rfl
  | additive => rfl
  | term => rfl
  | _ => cases h

theorem isJoint_of_operator? (level : Level) {token : Token} {operator : Operator}
    (h : level.operator? token = some operator) : token.isJoint = true := by
  cases level with
  | or | and | additive | term => cases token <;> first | rfl | cases h
  | _ => cases h

theorem uses_readerAt {inner : Reader} (uses : Uses inner) (level : Level) : Uses (readerAt inner level) := by
  have unary : Uses (readerAt inner .unary) :=
    uses.primary.prefixed (fun token h => by cases token <;> first | rfl | cases h) fun _ => rfl
  have term : Uses (readerAt inner .term) := unary.chain fun _ _ => isJoint_of_operator? .term
  have additive : Uses (readerAt inner .additive) := term.chain fun _ _ => isJoint_of_operator? .additive
  have negation : Uses (readerAt inner .not) :=
    additive.compared.prefixed (fun token h => by cases token <;> first | rfl | cases h) fun _ => rfl
  have conjunction : Uses (readerAt inner .and) := negation.chain fun _ _ => isJoint_of_operator? .and
  cases level with
  | or => exact conjunction.chain fun _ _ => isJoint_of_operator? .or
  | and => exact conjunction
  | not => exact negation
  | comparison => exact additive.compared
  | additive => exact additive
  | term => exact term
  | unary => exact unary
  | primary => exact uses.primary

theorem formulaWithin_uses (depth : Nat) : Uses (formulaWithin depth) := by
  induction depth with
  | zero => exact fun tokens => ⟨[], .stuck tokens _⟩
  | succ depth ih => exact uses_readerAt ih .or

theorem Uses.suffix {reader : Reader} (uses : Uses reader) {tokens rest : List Token} {formula : Formula}
    (h : reader tokens = .ok (formula, rest)) : rest <:+ tokens := by
  obtain ⟨used, hused⟩ := uses tokens
  have hsplit := hused.split
  rw [h] at hsplit
  exact ⟨used, hsplit.symm⟩

theorem leaves_subset_of_read {tokens : List Token} {found : Formula} (h : read tokens = .ok found) :
    found.leaves ⊆ tokens := by
  unfold read at h
  split at h
  next formula hformula =>
    cases h
    obtain ⟨used, hsplit, -, hfound⟩ := formulaWithin_uses (tokens.countP opens + 1) tokens
    rw [hfound hformula, List.nil_append, hsplit]
    exact fun leaf hmem => List.mem_append_left _ (List.mem_of_mem_filter hmem)
  next => cases h
  next => cases h

theorem references_eq (formula : Formula) :
    formula.references = formula.leaves.filterMap Token.reference? := by
  induction formula with
  | literal value => rfl
  | reference text => rfl
  | negate operand ih => exact ih
  | not operand ih => exact ih
  | binary operator left right ihl ihr => rw [references, leaves, List.filterMap_append, ihl, ihr]

theorem filterMap_operands (tokens : List Token) :
    (operands tokens).filterMap Token.reference? = tokens.filterMap Token.reference? := by
  rw [operands, List.filterMap_filter]
  refine List.filterMap_congr fun token _ => ?_
  cases token with
  | literal value => rfl
  | reference text => rfl
  | _ => rfl

/-- The references that are looked up are those of some tokens from the front, among which no two operands stand
next to one another. -/
theorem consulted_eq {text : List Char} {tokens : List Token} (h : tokens? text = some tokens) :
    ∃ used, used <+: tokens ∧ used.IsChain Parted ∧ consulted text = used.filterMap Token.reference? := by
  obtain ⟨used, hsplit, hparted, hfound⟩ := formulaWithin_uses (tokens.countP opens + 1) tokens
  refine ⟨used, ⟨_, hsplit.symm⟩, hparted, ?_⟩
  have htaken (rest : List Token) (hrest : tokens = used ++ rest) :
      tokens.take (tokens.length - rest.length) = used := by
    rw [hrest, List.length_append, Nat.add_sub_cancel]
    exact List.take_left
  unfold consulted
  rw [h]
  dsimp only
  unfold read
  unfold formula
  cases hreading : formulaWithin (tokens.countP opens + 1) tokens with
  | error rest =>
      rw [hreading] at hsplit
      dsimp only
      rw [htaken rest hsplit]
  | ok pair =>
      obtain ⟨found, rest⟩ := pair
      rw [hreading] at hsplit
      cases rest with
      | nil =>
          dsimp only
          rw [references_eq, hfound hreading, List.nil_append, filterMap_operands]
      | cons first others =>
          dsimp only
          rw [htaken (first :: others) hsplit]

theorem mem_of_mem_consulted {text : List Char} {tokens : List Token} (h : tokens? text = some tokens)
    {reference : String} (hmem : reference ∈ consulted text) : Token.reference reference ∈ tokens := by
  obtain ⟨used, hused, -, hconsulted⟩ := consulted_eq h
  rw [hconsulted] at hmem
  obtain ⟨token, htoken, hreference⟩ := List.mem_filterMap.1 hmem
  have hspelled : token = .reference reference := by
    cases token with
    | reference other =>
        cases hreference
        rfl
    | _ => cases hreference
  exact hused.subset (hspelled ▸ htoken)

end Stencil.Formula
