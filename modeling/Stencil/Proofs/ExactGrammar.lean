import Stencil.Proofs.Grammar.Derivations
import Stencil.Proofs.Grammar.Lexemes

/-!
Expressions mean what the grammar says, and nothing else means anything. An expression is written with a space
between each two of its tokens, and with parentheses where an operand binds looser than its place asks for. Read
back, it has the value that its operators make of the values of its leaves. A text that has no tokens, or whose
tokens the grammar does not derive, has no value.
-/

namespace Stencil.Formula

open Text

/-- An expression, its tokens spelled. -/
inductive Expression where
  | integer (digits : Digits)
  | quoted (quotation : Quotation)
  | constant (value : Value) (spelling : Spelling (.literal value))
  | reference (plain : PlainReference)
  | negate (operand : Expression)
  | not (spelling : Spelling .not) (operand : Expression)
  | binary (operator : Operator) (spelling : Spelling operator.token) (left right : Expression)

/-- The loosest level at which a left operand needs no parentheses: operands are joined from the left, and
comparisons are not joined. -/
def Operator.leftLevel (operator : Operator) : Level :=
  if operator.level.isChain then operator.level else operator.level.tighter

/-- The loosest level at which a right operand needs no parentheses. -/
def Operator.rightLevel (operator : Operator) : Level := operator.level.tighter

/-- What is written of one level where another one is asked for: looser things stand in parentheses. -/
def enclosed (around inner : Level) (lexemes : List Lexeme) : List Lexeme :=
  if inner.tightness < around.tightness then
    ⟨['('], .openParen⟩ :: (lexemes ++ [⟨[')'], .closeParen⟩])
  else lexemes

namespace Expression

/-- The level of the loosest operator outside parentheses. -/
def level : Expression → Level
  | integer _ | quoted _ | constant _ _ | reference _ => .primary
  | negate _ => .unary
  | not _ _ => .not
  | binary operator _ _ _ => operator.level

/-- The tokens of an expression as they are written. -/
def lexemes : Expression → List Lexeme
  | integer digits => [digits.lexeme]
  | quoted quotation => [quotation.lexeme]
  | constant _ spelling => [spelling.lexeme]
  | reference plain => [plain.lexeme]
  | negate operand => ⟨['-'], .minus⟩ :: enclosed .unary operand.level operand.lexemes
  | not spelling operand => spelling.lexeme :: enclosed .not operand.level operand.lexemes
  | binary operator spelling left right =>
      enclosed operator.leftLevel left.level left.lexemes ++
        spelling.lexeme :: enclosed operator.rightLevel right.level right.lexemes

/-- The text of an expression, with a space between each two tokens. -/
def text (expression : Expression) : List Char := joinWith ' ' (expression.lexemes.map Lexeme.text)

/-- The value of an expression from the values of its leaves, bottom up. -/
def value (bindings : String → Option Value) : Expression → Value
  | integer digits => digits.value
  | quoted quotation => quotation.value
  | constant value _ => value
  | reference plain => (bindings plain.text).getD .null
  | negate operand => negateValue (operand.value bindings)
  | not _ operand => .bool !(operand.value bindings).isTruthy
  | binary operator _ left right => operator.apply (left.value bindings) (right.value bindings)

/-- The formula of an expression, whatever its spelling. -/
def formula : Expression → Formula
  | integer digits => .literal digits.value
  | quoted quotation => .literal quotation.value
  | constant value _ => .literal value
  | reference plain => .reference plain.text
  | negate operand => .negate operand.formula
  | not _ operand => .not operand.formula
  | binary operator _ left right => .binary operator left.formula right.formula

end Expression

/-! What is written is derived. -/

theorem Level.tightness_tighter {level : Level} (h : level.tightness < Level.primary.tightness) :
    level.tighter.tightness = level.tightness + 1 := by
  cases level with
  | primary => exact absurd h (Nat.lt_irrefl _)
  | _ => rfl

theorem Level.eq_of_tightness {level other : Level} (h : level.tightness = other.tightness) : level = other := by
  cases level <;> cases other <;> first | rfl | cases h

/-- What is derived at a level is derived at every looser one. -/
theorem Derives.loosen {level around : Level} {tokens : List Token} {formula : Formula}
    (h : Derives level tokens formula) (hle : around.tightness ≤ level.tightness) :
    Derives around tokens formula := by
  generalize hsteps : level.tightness - around.tightness = steps
  induction steps generalizing around with
  | zero =>
      obtain rfl : around = level := Level.eq_of_tightness (by omega)
      exact h
  | succ steps ih =>
      have hlast : level.tightness ≤ Level.primary.tightness := by cases level <;> decide
      have hnext : around.tighter.tightness = around.tightness + 1 := Level.tightness_tighter (by omega)
      exact .tighter (ih (by omega) (by omega))

theorem derives_enclosed {around inner : Level} {lexemes : List Lexeme} {formula : Formula}
    (h : Derives inner (lexemes.map Lexeme.token) formula) :
    Derives around ((enclosed around inner lexemes).map Lexeme.token) formula := by
  unfold enclosed
  split
  next =>
    have hgroup : Derives .primary (.openParen :: (lexemes.map Lexeme.token ++ [.closeParen])) formula :=
      .group (h.loosen (Nat.zero_le _))
    rw [List.map_cons, List.map_append]
    exact hgroup.loosen (by cases around <;> decide)
  next hle => exact h.loosen (Nat.not_lt.1 hle)

theorem derives_binary {operator : Operator} {first second : List Token} {left right : Formula}
    (hleft : Derives operator.leftLevel first left) (hright : Derives operator.rightLevel second right) :
    Derives operator.level (first ++ operator.token :: second) (.binary operator left right) := by
  cases operator with
  | compare comparison => exact .compare hleft hright
  | or => exact .join hleft rfl hright
  | and => exact .join hleft rfl hright
  | add => exact .join hleft rfl hright
  | subtract => exact .join hleft rfl hright
  | multiply => exact .join hleft rfl hright
  | divide => exact .join hleft rfl hright
  | remainder => exact .join hleft rfl hright

theorem Expression.derives (expression : Expression) :
    Derives expression.level (expression.lexemes.map Lexeme.token) expression.formula := by
  induction expression with
  | integer digits => exact .literal
  | quoted quotation => exact .literal
  | constant value spelling => exact .literal
  | reference plain => exact .reference
  | negate operand ih => exact .negate (derives_enclosed ih)
  | not spelling operand ih => exact .not (derives_enclosed ih)
  | binary operator spelling left right ihleft ihright =>
      rw [lexemes, List.map_append, List.map_cons]
      exact derives_binary (derives_enclosed ihleft) (derives_enclosed ihright)

/-! What is written is read. -/

theorem isRead_sign {sign : List Char} {token : Token} (h : (sign, token) ∈ signs) :
    Lexeme.IsRead ⟨sign, token⟩ := fun _ hrest => tokens?_of_mem_signs h hrest

theorem isRead_enclosed {around inner : Level} {lexemes : List Lexeme}
    (h : ∀ lexeme ∈ lexemes, lexeme.IsRead) : ∀ lexeme ∈ enclosed around inner lexemes, lexeme.IsRead := by
  unfold enclosed
  split
  · refine List.forall_mem_cons.2 ⟨isRead_sign (by simp [signs]), List.forall_mem_append.2 ⟨h, ?_⟩⟩
    exact List.forall_mem_singleton.2 (isRead_sign (by simp [signs]))
  · exact h

theorem Expression.isRead (expression : Expression) : ∀ lexeme ∈ expression.lexemes, lexeme.IsRead := by
  induction expression with
  | integer digits => exact List.forall_mem_singleton.2 digits.isRead
  | quoted quotation => exact List.forall_mem_singleton.2 quotation.isRead
  | constant value spelling => exact List.forall_mem_singleton.2 spelling.isRead
  | reference plain => exact List.forall_mem_singleton.2 plain.isRead
  | negate operand ih => exact List.forall_mem_cons.2 ⟨isRead_sign (by simp [signs]), isRead_enclosed ih⟩
  | not spelling operand ih => exact List.forall_mem_cons.2 ⟨spelling.isRead, isRead_enclosed ih⟩
  | binary operator spelling left right ihleft ihright =>
      refine List.forall_mem_append.2 ⟨isRead_enclosed ihleft, ?_⟩
      exact List.forall_mem_cons.2 ⟨spelling.isRead, isRead_enclosed ihright⟩

theorem Expression.read (expression : Expression) :
    (tokens? expression.text).map Formula.read = some (.ok expression.formula) := by
  have hderives : Derives .or (expression.lexemes.map Lexeme.token) expression.formula :=
    expression.derives.loosen (Nat.zero_le _)
  rw [text, tokens?_joinWith expression.isRead, Option.map_some, read_eq_ok_iff.2 hderives]

section Operands

variable {m : Type → Type} [Monad m] {lookup : String → m (Option Value)}

/-- The text of an expression has the value of its formula, if that is not null. -/
theorem Expression.evaluate_text (expression : Expression) :
    evaluate lookup expression.text = do
      let value ← expression.formula.value lookup
      return Resolver.present value := by
  obtain ⟨tokens, htokens, hread⟩ := Option.map_eq_some_iff.1 expression.read
  unfold evaluate
  rw [htokens]
  dsimp only
  rw [hread]
  rfl

variable [LawfulMonad m] {first second : Expression} {left right : Value}

/-- The value of an operation on operands whose values are known. -/
theorem Expression.evaluate_binary (operator : Operator) (spelling : Spelling operator.token)
    (hfirst : first.formula.value lookup = pure left) (hsecond : second.formula.value lookup = pure right) :
    evaluate lookup (binary operator spelling first second).text =
      pure (Resolver.present (operator.apply left right)) := by
  rw [evaluate_text]
  simp only [formula, Formula.value, hfirst, hsecond, pure_bind]

theorem Expression.evaluate_negate (hfirst : first.formula.value lookup = pure left) :
    evaluate lookup first.negate.text = pure (Resolver.present (negateValue left)) := by
  rw [evaluate_text]
  simp only [formula, Formula.value, hfirst, pure_bind]

end Operands

section Values

variable {m : Type → Type} [Monad m] [LawfulMonad m] (bindings : String → Option Value)

theorem Expression.value_formula (expression : Expression) :
    expression.formula.value (fun text => (pure (bindings text) : m (Option Value))) =
      pure (expression.value bindings) := by
  induction expression with
  | integer digits => rfl
  | quoted quotation => rfl
  | constant value spelling => rfl
  | reference plain => simp only [formula, Formula.value, value, pure_bind]
  | negate operand ih => simp only [formula, Formula.value, value, ih, pure_bind]
  | not spelling operand ih => simp only [formula, Formula.value, value, ih, pure_bind]
  | binary operator spelling left right ihleft ihright =>
      simp only [formula, Formula.value, value, ihleft, ihright, pure_bind]

theorem lookUpAll_pure (references : List String) :
    lookUpAll (fun text => (pure (bindings text) : m (Option Value))) references = pure () := by
  induction references with
  | nil => rfl
  | cons text rest ih => simp [lookUpAll, discard, map_const, ih]

/-- Where look-ups never fail, every expression has the value that is computed from its leaves, and a text
without tokens, or with tokens that are not derived, has none. -/
theorem evaluate_exact :
    (∀ expression : Expression,
      evaluate (fun text => (pure (bindings text) : m (Option Value))) expression.text =
        pure (Resolver.present (expression.value bindings))) ∧
    ∀ text : List Char,
      (tokens? text = none ∨
        ∃ tokens, tokens? text = some tokens ∧ ∀ formula, ¬ Derives .or tokens formula) →
      evaluate (fun text => (pure (bindings text) : m (Option Value))) text = pure none := by
  constructor
  · intro expression
    obtain ⟨tokens, htokens, hread⟩ := Option.map_eq_some_iff.1 expression.read
    unfold evaluate
    rw [htokens]
    dsimp only
    rw [hread]
    dsimp only
    rw [expression.value_formula, pure_bind]
    rfl
  · rintro text (hnone | ⟨tokens, htokens, hunderived⟩)
    · unfold evaluate
      rw [hnone]
    · unfold evaluate
      rw [htokens]
      dsimp only
      cases hread : read tokens with
      | ok formula => exact absurd (read_eq_ok_iff.1 hread) (hunderived formula)
      | error references =>
          dsimp only
          rw [lookUpAll_pure, pure_bind]

end Values

/-- The expression "1 + 2 * ( Count - 1 )". -/
def sample : Expression :=
  let one : Expression := .integer ⟨['1'], by decide, List.all_eq_true.1 rfl⟩
  let two : Expression := .integer ⟨['2'], by decide, List.all_eq_true.1 rfl⟩
  let count : Expression := .reference ⟨"Count".toList, [], by decide, by decide, by decide⟩
  let difference : Expression := .binary .subtract ⟨['-'], .inl (by simp [signs, Operator.token])⟩ count one
  .binary .add ⟨['+'], .inl (by simp [signs, Operator.token])⟩ one
    (.binary .multiply ⟨['*'], .inl (by simp [signs, Operator.token])⟩ two difference)

/-- With a count of four the sample is seven, and a sum without its second operand is nothing. -/
theorem evaluate_exact_sample :
    sample.text = "1 + 2 * ( Count - 1 )".toList ∧
      evaluate (fun _ => (pure (some (.int 4)) : Except Fault (Option Value))) sample.text =
        .ok (some (.int 7)) ∧
      evaluate (fun _ => (pure (some (.int 4)) : Except Fault (Option Value))) "1 +".toList = .ok none := by
  have hexact := evaluate_exact (m := Except Fault) fun _ => some (.int 4)
  let one : Digits := ⟨['1'], by decide, List.all_eq_true.1 rfl⟩
  have hreadable : ∀ lexeme ∈ [one.lexeme, ⟨['+'], .plus⟩], lexeme.IsRead :=
    List.forall_mem_cons.2 ⟨one.isRead, List.forall_mem_singleton.2 (isRead_sign (by simp [signs]))⟩
  have htokens : tokens? "1 +".toList = some [.literal one.value, .plus] := tokens?_joinWith hreadable
  refine ⟨by decide, hexact.1 sample, hexact.2 _ (.inr ⟨_, htokens, fun formula hderives => ?_⟩)⟩
  have hread := read_eq_ok_iff.2 hderives
  cases hread

end Stencil.Formula
