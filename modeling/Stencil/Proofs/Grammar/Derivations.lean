import Stencil.Proofs.Grammar.Consulted

/-!
The grammar of expressions as a relation between tokens and formulas, one rule for each way in which a formula
is written. Operands that are joined by operators of one level are read from the left: what stands before the last
of these operators is a formula of the same level, what stands behind it is one of the next tighter level. The
readers find exactly the formulas that the rules derive. They find no others, since each of them takes what a
rule allows; and they find all of them, since a reader stops only where no rule of its level goes on.
-/

namespace Stencil.Formula

/-- The rules of the grammar. -/
inductive Derives : Level → List Token → Formula → Prop
  | tighter {level : Level} {tokens : List Token} {formula : Formula}
      (inner : Derives level.tighter tokens formula) : Derives level tokens formula
  | join {level : Level} {first second : List Token} {left right : Formula} {token : Token}
      {operator : Operator} (before : Derives level first left) (joins : level.operator? token = some operator)
      (behind : Derives level.tighter second right) :
      Derives level (first ++ token :: second) (.binary operator left right)
  | compare {first second : List Token} {left right : Formula} {comparison : Comparison}
      (before : Derives .additive first left) (behind : Derives .additive second right) :
      Derives .comparison (first ++ .compare comparison :: second) (.binary (.compare comparison) left right)
  | not {tokens : List Token} {formula : Formula} (operand : Derives .not tokens formula) :
      Derives .not (.not :: tokens) (.not formula)
  | negate {tokens : List Token} {formula : Formula} (operand : Derives .unary tokens formula) :
      Derives .unary (.minus :: tokens) (.negate formula)
  | literal {value : Value} : Derives .primary [.literal value] (.literal value)
  | reference {text : String} : Derives .primary [.reference text] (.reference text)
  | group {tokens : List Token} {formula : Formula} (inner : Derives .or tokens formula) :
      Derives .primary (.openParen :: (tokens ++ [.closeParen])) formula

/-! Whatever a reader takes is derived. -/

/-- A reader that takes what a level derives. -/
def Derived (level : Level) (reader : Reader) : Prop :=
  ∀ tokens formula rest, reader tokens = .ok (formula, rest) →
    ∃ taken, tokens = taken ++ rest ∧ Derives level taken formula

section Soundness

variable {operand : Reader}

theorem derives_of_chainFrom {level : Level} (h : Derived level.tighter operand) {steps : Nat}
    {left formula : Formula} {taken tokens rest : List Token} (hleft : Derives level taken left)
    (hread : chainFrom operand level.operator? steps left tokens = .ok (formula, rest)) :
    ∃ more, tokens = more ++ rest ∧ Derives level (taken ++ more) formula := by
  induction steps generalizing left taken tokens with
  | zero =>
      rw [chainFrom] at hread
      cases hread
      exact ⟨[], rfl, (List.append_nil taken).symm ▸ hleft⟩
  | succ steps ih =>
      cases tokens with
      | nil =>
          rw [chainFrom] at hread
          · cases hread
            exact ⟨[], rfl, (List.append_nil taken).symm ▸ hleft⟩
          · exact Nat.succ_ne_zero steps
      | cons token behind =>
          rw [chainFrom] at hread
          split at hread
          next =>
            cases hread
            exact ⟨[], rfl, (List.append_nil taken).symm ▸ hleft⟩
          next operator hoperator =>
            obtain ⟨right, after, hright, hnext⟩ := reading_bind hread
            obtain ⟨second, rfl, hsecond⟩ := h _ _ _ hright
            obtain ⟨more, rfl, hmore⟩ := ih (.join hleft hoperator hsecond) hnext
            refine ⟨token :: (second ++ more), by simp, ?_⟩
            rwa [List.append_assoc, List.cons_append] at hmore

theorem Derived.chain (level : Level) (h : Derived level.tighter operand) :
    Derived level (Formula.chain operand level.operator?) := by
  intro tokens formula rest hread
  obtain ⟨left, after, hleft, hnext⟩ := reading_bind hread
  obtain ⟨first, rfl, hfirst⟩ := h _ _ _ hleft
  obtain ⟨more, rfl, hmore⟩ := derives_of_chainFrom h (.tighter hfirst) hnext
  exact ⟨first ++ more, (List.append_assoc ..).symm, hmore⟩

theorem Derived.prefixed (level : Level) {isOperator : Token → Bool} {apply : Formula → Formula}
    (h : Derived level.tighter operand)
    (apply_derives : ∀ {token tokens formula}, isOperator token = true → Derives level tokens formula →
      Derives level (token :: tokens) (apply formula)) :
    Derived level (Formula.prefixed operand isOperator apply) := by
  intro tokens
  induction tokens with
  | nil =>
      intro formula rest hread
      obtain ⟨taken, htaken, hderived⟩ := h _ _ _ hread
      exact ⟨taken, htaken, .tighter hderived⟩
  | cons token behind ih =>
      intro formula rest hread
      rw [Formula.prefixed] at hread
      split at hread
      next hoperator =>
        obtain ⟨found, after, hfound, hnext⟩ := reading_bind hread
        cases hnext
        obtain ⟨taken, rfl, hderived⟩ := ih _ _ hfound
        exact ⟨token :: taken, rfl, apply_derives hoperator hderived⟩
      next =>
        obtain ⟨taken, htaken, hderived⟩ := h _ _ _ hread
        exact ⟨taken, htaken, .tighter hderived⟩

theorem Derived.compared (h : Derived .additive operand) :
    Derived .comparison (Formula.compared operand) := by
  intro tokens formula rest hread
  obtain ⟨left, after, hleft, hnext⟩ := reading_bind hread
  obtain ⟨first, rfl, hfirst⟩ := h _ _ _ hleft
  cases after with
  | nil =>
      cases hnext
      exact ⟨first, rfl, .tighter hfirst⟩
  | cons token behind =>
      dsimp only at hnext
      split at hnext
      next =>
        cases hnext
        exact ⟨first, rfl, .tighter hfirst⟩
      next comparison hcomparison =>
        obtain ⟨right, last, hright, hlast⟩ := reading_bind hnext
        cases hlast
        obtain ⟨second, rfl, hsecond⟩ := h _ _ _ hright
        unfold comparison? at hcomparison
        split at hcomparison
        next =>
          cases hcomparison
          exact ⟨first ++ .compare comparison :: second, by simp, .compare hfirst hsecond⟩
        next => cases hcomparison

theorem Derived.primary (h : Derived .or operand) : Derived .primary (Formula.primary operand) := by
  intro tokens formula rest hread
  unfold Formula.primary at hread
  split at hread
  next value behind =>
    cases hread
    exact ⟨[.literal value], rfl, .literal⟩
  next text behind =>
    cases hread
    exact ⟨[.reference text], rfl, .reference⟩
  next behind =>
    obtain ⟨inner, after, hinner, hnext⟩ := reading_bind hread
    obtain ⟨taken, rfl, hderived⟩ := h _ _ _ hinner
    split at hnext
    next found last heq =>
      cases heq
      cases hnext
      exact ⟨.openParen :: (taken ++ [.closeParen]), by simp, .group hderived⟩
    next => cases hnext
  next => cases hread
  next => cases hread

theorem Derived.levels (h : Derived .or operand) : Derived .or (Formula.levels operand) := by
  have unary : Derived .unary (readerAt operand .unary) := by
    refine Derived.prefixed .unary h.primary fun {token _ _} hminus hderived => ?_
    cases token with
    | minus => exact .negate hderived
    | _ => cases hminus
  have term : Derived .term (readerAt operand .term) := Derived.chain .term unary
  have additive : Derived .additive (readerAt operand .additive) := Derived.chain .additive term
  have negation : Derived .not (readerAt operand .not) := by
    refine Derived.prefixed .not additive.compared fun {token _ _} hnot hderived => ?_
    cases token with
    | not => exact .not hderived
    | _ => cases hnot
  have conjunction : Derived .and (readerAt operand .and) := Derived.chain .and negation
  exact Derived.chain .or conjunction

end Soundness

theorem derived_formulaWithin (depth : Nat) : Derived .or (formulaWithin depth) := by
  induction depth with
  | zero => exact fun tokens formula rest hread => nomatch hread
  | succ depth ih => exact ih.levels

/-! Whatever is derived is taken. -/

/-- The operator that a token is between two operands, if it is one. -/
def Token.operator? : Token → Option Operator
  | .or => some .or
  | .and => some .and
  | .compare comparison => some (.compare comparison)
  | .plus => some .add
  | .minus => some .subtract
  | .times => some .multiply
  | .slash => some .divide
  | .percent => some .remainder
  | _ => none

/-- The level at which an operator stands. -/
def Operator.level : Operator → Level
  | .or => .or
  | .and => .and
  | .compare _ => .comparison
  | .add | .subtract => .additive
  | .multiply | .divide | .remainder => .term

/-- Tokens with which no formula of a level goes on: an operator at their start binds looser. -/
def Stops (level : Level) (tokens : List Token) : Prop :=
  ∀ token ∈ tokens.head?, ∀ operator ∈ token.operator?, operator.level.tightness < level.tightness

theorem Level.tightness_le_tighter (level : Level) : level.tightness ≤ level.tighter.tightness := by
  cases level <;> decide

theorem Stops.tighter {level : Level} {tokens : List Token} (h : Stops level tokens) :
    Stops level.tighter tokens :=
  fun token htoken operator hoperator =>
    Nat.lt_of_lt_of_le (h token htoken operator hoperator) level.tightness_le_tighter

theorem stops_nil (level : Level) : Stops level [] := fun _ htoken => nomatch htoken

theorem operator_of_joins {level : Level} {token : Token} {operator : Operator}
    (h : level.operator? token = some operator) :
    level.isChain = true ∧ token.operator? = some operator ∧ operator.level = level := by
  cases level <;> cases token <;> cases h <;> exact ⟨rfl, rfl, rfl⟩

/-- An operator of a chain stops the next tighter level. -/
theorem stops_of_joins {level : Level} {token : Token} {operator : Operator}
    (h : level.operator? token = some operator) (rest : List Token) :
    Stops level.tighter (token :: rest) := by
  obtain ⟨hchain, htoken, rfl⟩ := operator_of_joins h
  intro token' htoken' operator' hoperator'
  cases htoken'
  cases htoken.symm.trans hoperator'
  revert hchain
  cases operator.level <;> decide

theorem Stops.operator?_eq_none {level : Level} {token : Token} {rest : List Token}
    (h : Stops level (token :: rest)) : level.operator? token = none := by
  cases hoperator : level.operator? token with
  | none => rfl
  | some operator =>
      obtain ⟨-, htoken, rfl⟩ := operator_of_joins hoperator
      exact absurd (h token rfl operator htoken) (Nat.lt_irrefl _)

theorem chainFrom_of_stops {level : Level} (operand : Reader) (steps : Nat) (left : Formula)
    {tokens : List Token} (h : Stops level tokens) :
    chainFrom operand level.operator? steps left tokens = .ok (left, tokens) := by
  cases tokens with
  | nil => cases steps <;> rfl
  | cons token rest =>
      cases steps with
      | zero => rfl
      | succ steps => rw [chainFrom, h.operator?_eq_none]

/-- How a derived formula starts: with no prefix operator of a looser level. -/
theorem Derives.start {level : Level} {tokens : List Token} {formula : Formula}
    (h : Derives level tokens formula) :
    ∃ token rest, tokens = token :: rest ∧ (Level.not.tightness < level.tightness → isNot token = false) ∧
      (Level.unary.tightness < level.tightness → isMinus token = false) := by
  induction h with
  | @tighter level tokens formula inner ih =>
      obtain ⟨token, rest, rfl, hnot, hminus⟩ := ih
      exact ⟨token, rest, rfl, fun hlevel => hnot (hlevel.trans_le level.tightness_le_tighter),
        fun hlevel => hminus (hlevel.trans_le level.tightness_le_tighter)⟩
  | join before joins behind ih =>
      obtain ⟨token, rest, rfl, hstart⟩ := ih
      exact ⟨token, rest ++ _, rfl, hstart⟩
  | compare before behind ih =>
      obtain ⟨token, rest, rfl, hnot, -⟩ := ih
      exact ⟨token, rest ++ _, rfl, fun _ => hnot (by decide), fun hlevel => absurd hlevel (by decide)⟩
  | not => exact ⟨_, _, rfl, fun hlevel => absurd hlevel (by decide), fun hlevel => absurd hlevel (by decide)⟩
  | negate => exact ⟨_, _, rfl, fun _ => rfl, fun hlevel => absurd hlevel (by decide)⟩
  | literal => exact ⟨_, _, rfl, fun _ => rfl, fun _ => rfl⟩
  | reference => exact ⟨_, _, rfl, fun _ => rfl, fun _ => rfl⟩
  | group => exact ⟨_, _, rfl, fun _ => rfl, fun _ => rfl⟩

/-- The reader of a level takes exactly these tokens, for this formula. -/
def ReadAt (inner : Reader) (level : Level) (tokens : List Token) (formula : Formula) : Prop :=
  ∀ rest, Stops level rest → readerAt inner level (tokens ++ rest) = .ok (formula, rest)

/-- The reader of a level takes these tokens, for this formula, and goes on with what may be joined to it. -/
def ReadOnAt (inner : Reader) (level : Level) (tokens : List Token) (formula : Formula) : Prop :=
  ∀ rest, Stops level.tighter rest → ∃ steps, rest.length ≤ steps ∧
    readerAt inner level (tokens ++ rest) =
      chainFrom (readerAt inner level.tighter) level.operator? steps formula rest

section Completeness

variable {inner : Reader} {level : Level} {tokens : List Token} {formula : Formula}

theorem ReadOnAt.readAt (h : ReadOnAt inner level tokens formula) : ReadAt inner level tokens formula := by
  intro rest hstops
  obtain ⟨steps, -, hread⟩ := h rest hstops.tighter
  rw [hread]
  exact chainFrom_of_stops _ steps formula hstops

theorem ReadAt.readOnAt (hchain : level.isChain = true) (h : ReadAt inner level.tighter tokens formula) :
    ReadOnAt inner level tokens formula := by
  intro rest hstops
  refine ⟨rest.length, Nat.le_refl _, ?_⟩
  rw [readerAt_of_isChain hchain]
  unfold chain
  rw [h rest hstops]
  rfl

theorem ReadOnAt.join {left right : Formula} {first second : List Token} {token : Token} {operator : Operator}
    (hleft : ReadOnAt inner level first left) (hjoins : level.operator? token = some operator)
    (hright : ReadAt inner level.tighter second right) :
    ReadOnAt inner level (first ++ token :: second) (.binary operator left right) := by
  intro rest hstops
  obtain ⟨steps, hsteps, hread⟩ := hleft (token :: (second ++ rest)) (stops_of_joins hjoins _)
  rw [List.length_cons, List.length_append] at hsteps
  obtain ⟨steps, rfl⟩ : ∃ fewer, steps = fewer + 1 := ⟨steps - 1, by omega⟩
  refine ⟨steps, by omega, ?_⟩
  rw [List.append_assoc, List.cons_append, hread, chainFrom, hjoins]
  dsimp only
  rw [hright rest hstops]
  rfl

theorem prefixed_of_not {operand : Reader} {isOperator : Token → Bool} {apply : Formula → Formula}
    {token : Token} (h : isOperator token = false) (rest : List Token) :
    prefixed operand isOperator apply (token :: rest) = operand (token :: rest) := by
  rw [prefixed, h]
  rfl

theorem comparison?_eq_none {token : Token} {rest : List Token} (h : Stops .comparison (token :: rest)) :
    comparison? token = none := by
  cases token with
  | compare comparison => exact absurd (h _ rfl _ rfl) (Nat.lt_irrefl _)
  | _ => rfl

/-- Where no operands are joined, a level takes what the next tighter one takes. -/
theorem ReadAt.looser (hchain : level.isChain = false) (hderives : Derives level.tighter tokens formula)
    (h : ReadAt inner level.tighter tokens formula) : ReadAt inner level tokens formula := by
  intro rest hstops
  have hread := h rest hstops.tighter
  obtain ⟨token, behind, rfl, hnot, hminus⟩ := hderives.start
  cases level with
  | not => exact (prefixed_of_not (hnot (by decide)) _).trans hread
  | unary => exact (prefixed_of_not (hminus (by decide)) _).trans hread
  | primary => exact hread
  | comparison =>
      change compared (readerAt inner Level.comparison.tighter) _ = _
      unfold compared
      rw [hread]
      cases rest with
      | nil => rfl
      | cons next rest =>
          simp only [bind, Except.bind, comparison?_eq_none hstops]
  | _ => cases hchain

end Completeness

/-- A derived formula is read with as many parentheses inside one another as there are open ones. -/
theorem Derives.readAt {level : Level} {tokens : List Token} {formula : Formula}
    (h : Derives level tokens formula) {depth : Nat} (hdepth : tokens.countP opens ≤ depth) :
    ReadAt (formulaWithin depth) level tokens formula ∧
      (level.isChain = true → ReadOnAt (formulaWithin depth) level tokens formula) := by
  induction h generalizing depth with
  | @tighter level tokens formula inner ih =>
      have hinner := (ih hdepth).1
      cases hchain : level.isChain with
      | true => exact ⟨(hinner.readOnAt hchain).readAt, fun _ => hinner.readOnAt hchain⟩
      | false => exact ⟨hinner.looser hchain inner, fun h => nomatch h⟩
  | join before joins behind ihbefore ihbehind =>
      rw [List.countP_append, List.countP_cons] at hdepth
      have hjoined := ((@ihbefore depth (by omega)).2 (operator_of_joins joins).1).join joins
        (@ihbehind depth (by omega)).1
      exact ⟨hjoined.readAt, fun _ => hjoined⟩
  | @compare first second left right comparison before behind ihbefore ihbehind =>
      rw [List.countP_append, List.countP_cons] at hdepth
      refine ⟨fun rest hstops => ?_, fun h => nomatch h⟩
      have hleft := (@ihbefore depth (by omega)).1 (.compare comparison :: (second ++ rest)) (by
        rintro token htoken operator hoperator
        cases htoken
        cases hoperator
        exact Nat.lt_succ_self 3)
      have hright := (@ihbehind depth (by omega)).1 rest hstops.tighter
      change compared (readerAt _ .additive) _ = _
      unfold compared
      rw [List.append_assoc, List.cons_append, hleft]
      change (readerAt _ .additive (second ++ rest) >>= _) = _
      rw [hright]
      rfl
  | not operand ih =>
      rw [List.countP_cons] at hdepth
      refine ⟨fun rest hstops => ?_, fun h => nomatch h⟩
      change (readerAt _ .not (_ ++ rest) >>= _) = _
      rw [(@ih depth (by omega)).1 rest hstops]
      rfl
  | negate operand ih =>
      rw [List.countP_cons] at hdepth
      refine ⟨fun rest hstops => ?_, fun h => nomatch h⟩
      change (readerAt _ .unary (_ ++ rest) >>= _) = _
      rw [(@ih depth (by omega)).1 rest hstops]
      rfl
  | literal => exact ⟨fun rest _ => rfl, fun h => nomatch h⟩
  | reference => exact ⟨fun rest _ => rfl, fun h => nomatch h⟩
  | @group tokens formula inner ih =>
      rw [List.countP_cons, List.countP_append] at hdepth
      have hopens : opens .openParen = true := rfl
      rw [if_pos hopens] at hdepth
      obtain ⟨depth, rfl⟩ : ∃ fewer, depth = fewer + 1 := ⟨depth - 1, by omega⟩
      refine ⟨fun rest _ => ?_, fun h => nomatch h⟩
      have hinner := (@ih depth (by omega)).1 (.closeParen :: rest) (by
        rintro token htoken operator hoperator
        cases htoken
        cases hoperator)
      change (readerAt (formulaWithin depth) .or (tokens ++ [.closeParen] ++ rest) >>= _) = _
      rw [List.append_assoc, List.singleton_append, hinner]
      rfl

/-- Tokens are read as a formula exactly if the grammar derives it from them. -/
theorem read_eq_ok_iff {tokens : List Token} {found : Formula} :
    read tokens = .ok found ↔ Derives .or tokens found := by
  constructor
  · intro hread
    unfold read at hread
    split at hread
    next formula hformula =>
      cases hread
      obtain ⟨taken, rfl, hderived⟩ := derived_formulaWithin _ _ _ _ hformula
      rwa [List.append_nil]
    next => cases hread
    next => cases hread
  · intro hderives
    have hformula := (hderives.readAt (Nat.le_refl _)).1 [] (stops_nil .or)
    rw [List.append_nil] at hformula
    change formula tokens = _ at hformula
    unfold read
    rw [hformula]

end Stencil.Formula
