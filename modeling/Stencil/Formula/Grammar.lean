import Stencil.Formula.Token

/-!
The grammar of expressions, from the loosest operators to the tightest:

    or         := and (("||" | "or") and)*
    and        := not (("&&" | "and") not)*
    not        := ("!" | "not") not | comparison
    comparison := additive (("==" | "!=" | "<" | ">" | "<=" | ">=") additive)?
    additive   := term (("+" | "-") term)*
    term       := unary (("*" | "/" | "%") unary)*
    unary      := "-" unary | primary
    primary    := literal | reference | "(" or ")"

Each level is a reader made from the reader of the next tighter level. A reader gives a formula and
the tokens after it, or the tokens at which it got stuck.
-/

namespace Stencil

/-- An expression. -/
inductive Formula where
  | literal (value : Value)
  | reference (text : String)
  | negate (operand : Formula)
  | not (operand : Formula)
  | binary (operator : Formula.Operator) (left right : Formula)

namespace Formula

/-- What reading tokens gives: a formula and the tokens after it, or the tokens after the place where
no formula can be read. -/
abbrev Reading := Except (List Token) (Formula × List Token)

/-- A reader of formulas. -/
abbrev Reader := List Token → Reading

/-- Operands joined by operators of one level, from left to right, after a first operand. Every step
takes a token, so as many steps as there are tokens suffice. -/
def chainFrom (operand : Reader) (operator? : Token → Option Operator) :
    Nat → Formula → Reader
  | 0, left, tokens => .ok (left, tokens)
  | _, left, [] => .ok (left, [])
  | steps + 1, left, token :: rest =>
      match operator? token with
      | none => .ok (left, token :: rest)
      | some operator => do
          let (right, after) ← operand rest
          chainFrom operand operator? steps (.binary operator left right) after

/-- One or more operands joined by operators of one level, from left to right. -/
def chain (operand : Reader) (operator? : Token → Option Operator) : Reader := fun tokens => do
  let (left, after) ← operand tokens
  chainFrom operand operator? after.length left after

/-- An operand behind any number of prefix operators. -/
def prefixed (operand : Reader) (isOperator : Token → Bool) (apply : Formula → Formula) : Reader
  | [] => operand []
  | token :: rest =>
      if isOperator token then do
        let (inner, after) ← prefixed operand isOperator apply rest
        .ok (apply inner, after)
      else operand (token :: rest)

/-- The comparison that a token is. -/
def comparison? : Token → Option Comparison
  | .compare comparison => some comparison
  | _ => none

/-- At most one comparison between two operands. -/
def compared (operand : Reader) : Reader := fun tokens => do
  let (left, after) ← operand tokens
  match after with
  | [] => .ok (left, [])
  | token :: rest =>
      match comparison? token with
      | none => .ok (left, token :: rest)
      | some comparison =>
          let (right, after) ← operand rest
          .ok (.binary (.compare comparison) left right, after)

/-- A literal, a reference, or a formula in parentheses. -/
def primary (inner : Reader) : Reader
  | .literal value :: rest => .ok (.literal value, rest)
  | .reference text :: rest => .ok (.reference text, rest)
  | .openParen :: rest => do
      match ← inner rest with
      | (formula, .closeParen :: after) => .ok (formula, after)
      | (_, after) => .error after
  | _ :: rest => .error rest
  | [] => .error []

/-- The operators that join the operands of a disjunction. -/
def orOperator? : Token → Option Operator
  | .or => some .or
  | _ => none

/-- The operators that join the operands of a conjunction. -/
def andOperator? : Token → Option Operator
  | .and => some .and
  | _ => none

/-- The operators that join terms. -/
def additiveOperator? : Token → Option Operator
  | .plus => some .add
  | .minus => some .subtract
  | _ => none

/-- The operators that join factors. -/
def termOperator? : Token → Option Operator
  | .times => some .multiply
  | .slash => some .divide
  | .percent => some .remainder
  | _ => none

/-- Whether a token negates a number. -/
def isMinus : Token → Bool
  | .minus => true
  | _ => false

/-- Whether a token negates a truth value. -/
def isNot : Token → Bool
  | .not => true
  | _ => false

/-- All levels of the grammar around what stands in parentheses. -/
def levels (inner : Reader) : Reader :=
  let unary := prefixed (primary inner) isMinus .negate
  let additive := chain (chain unary termOperator?) additiveOperator?
  let negation := prefixed (compared additive) isNot .not
  chain (chain negation andOperator?) orOperator?

/-- A formula with parentheses nested up to a depth. -/
def formulaWithin : Nat → Reader
  | 0 => fun tokens => .error tokens
  | depth + 1 => levels (formulaWithin depth)

/-- Whether a token opens a parenthesis. -/
def opens : Token → Bool
  | .openParen => true
  | _ => false

/-- The formula that tokens start with. Parentheses cannot nest deeper than there are open ones. -/
def formula : Reader := fun tokens => formulaWithin (tokens.countP opens + 1) tokens

/-- The text of a reference. -/
def Token.reference? : Token → Option String
  | .reference text => some text
  | _ => none

/-- What a token list is: one formula, or none, with the references before the place where reading
stops. -/
def read (tokens : List Token) : Except (List String) Formula :=
  match formula tokens with
  | .ok (found, []) => .ok found
  | .ok (_, rest) | .error rest =>
      .error ((tokens.take (tokens.length - rest.length)).filterMap Token.reference?)

/-- The value of a formula, its references looked up from left to right. -/
def value {m : Type → Type} [Monad m] (lookup : String → m (Option Value)) :
    Formula → m Value
  | .literal value => pure value
  | .reference text => do return (← lookup text).getD .null
  | .negate operand => do return negateValue (← operand.value lookup)
  | .not operand => do return .bool (!(← operand.value lookup).isTruthy)
  | .binary operator left right => do
      let left ← left.value lookup
      let right ← right.value lookup
      return operator.apply left right

/-- Looks up references in order and forgets what they hold. -/
def lookUpAll {m : Type → Type} [Monad m] (lookup : String → m (Option Value)) :
    List String → m Unit
  | [] => pure ()
  | text :: rest => do
      discard (lookup text)
      lookUpAll lookup rest

/-- The value of an expression. A text that is no expression has none, and neither has one whose
value is null; the references before its first mistake are looked up all the same. -/
def evaluate {m : Type → Type} [Monad m] (lookup : String → m (Option Value)) (text : List Char) :
    m (Option Value) :=
  match tokens? text with
  | none => pure none
  | some tokens =>
      match read tokens with
      | .ok formula => do
          let value ← formula.value lookup
          return if value.isNull then none else some value
      | .error references => do
          lookUpAll lookup references
          return none

end Formula

end Stencil
