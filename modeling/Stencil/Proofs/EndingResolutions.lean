import Stencil.Proofs.Resolution.WholeWords

/-!
Resolutions end. Their recursion is opened here: what a call makes of the calls inside it is told whatever these are
answered, and nothing is asked about how long their texts are. It turns out that the calls inside a call are about
shorter texts, or about a text no longer that is not read as a formula where the text of the call is. A reference of
a formula can be as long as the formula, when a quote in it hides its bracket from the indexers; so it is the length
together with the question to the grammar that descends. Cut off behind as many levels as these two allow, the
recursion answers what it answers anyway. The readers of formulas end likewise: each step of theirs takes a token,
inside parentheses as well.
-/

namespace Stencil

namespace Formula

section UpTo

variable (beyond : Formula → Reader) (steps : Nat)

/-- Operands joined by operators of one level behind a first operand. What comes behind so many steps is left
open. -/
def chainedUpTo (operand : Reader) (operator? : Token → Option Operator) : Nat → Formula → Reader
  | 0, left, tokens => beyond left tokens
  | _, left, [] => .ok (left, [])
  | steps + 1, left, token :: rest =>
      match operator? token with
      | none => .ok (left, token :: rest)
      | some operator => do
          let (right, after) ← operand rest
          chainedUpTo operand operator? steps (.binary operator left right) after

/-- One or more operands joined by operators of one level, in so many steps. -/
def chainUpTo (operand : Reader) (operator? : Token → Option Operator) : Reader := fun tokens => do
  let (left, after) ← operand tokens
  chainedUpTo beyond operand operator? steps left after

/-- All levels of the grammar around what stands in parentheses, with so many steps in each chain. -/
def levelsUpTo (inner : Reader) : Reader :=
  let unary := prefixed (primary inner) isMinus .negate
  let additive := chainUpTo beyond steps (chainUpTo beyond steps unary termOperator?) additiveOperator?
  let negation := prefixed (compared additive) isNot .not
  chainUpTo beyond steps (chainUpTo beyond steps negation andOperator?) orOperator?

/-- A formula in so many steps. What comes behind them is left open, in the chains and inside parentheses. -/
def formulaUpTo (behind : Reader) : Nat → Reader
  | 0 => behind
  | steps + 1 => levelsUpTo beyond (steps + 1) (formulaUpTo behind steps)

end UpTo

/-- Two readers read the same from some tokens on. -/
def AgreeOn (tokens : List Token) (reader other : Reader) : Prop :=
  ∀ rest, rest <:+ tokens → reader rest = other rest

theorem reading_bind_congr {reading : Reading} {next next' : Formula × List Token → Reading}
    (h : ∀ formula rest, reading = .ok (formula, rest) → next (formula, rest) = next' (formula, rest)) :
    reading >>= next = reading >>= next' := by
  cases reading with
  | error stuck => rfl
  | ok pair => exact h pair.1 pair.2 rfl

section AgreeOn

variable {tokens : List Token} {operand other : Reader} (agree : AgreeOn tokens operand other)

include agree

theorem AgreeOn.prefixed (isOperator : Token → Bool) (apply : Formula → Formula) :
    AgreeOn tokens (Formula.prefixed operand isOperator apply) (Formula.prefixed other isOperator apply) := by
  intro rest hrest
  induction rest with
  | nil => exact agree [] hrest
  | cons token rest ih =>
      rw [Formula.prefixed, Formula.prefixed, agree _ hrest, ih ((List.suffix_cons token rest).trans hrest)]

variable (uses : Uses other)

include uses

theorem AgreeOn.compared : AgreeOn tokens (Formula.compared operand) (Formula.compared other) := by
  intro rest hrest
  unfold Formula.compared
  rw [agree rest hrest]
  refine reading_bind_congr fun left after hread => ?_
  have hafter := (uses.suffix hread).trans hrest
  cases after with
  | nil => rfl
  | cons token behind =>
      dsimp only
      rw [agree behind ((List.suffix_cons token behind).trans hafter)]

/-- As many steps as there are tokens suffice for a chain, so that what comes behind more of them is left out. -/
theorem chainedUpTo_eq (beyond : Formula → Reader) (operator? : Token → Option Operator) {steps enough : Nat}
    (left : Formula) {rest : List Token} (hrest : rest <:+ tokens) (hsteps : rest.length < steps)
    (henough : rest.length ≤ enough) :
    chainedUpTo beyond operand operator? steps left rest = chainFrom other operator? enough left rest := by
  induction steps generalizing enough left rest with
  | zero => exact absurd hsteps (Nat.not_lt_zero _)
  | succ steps ih =>
      cases rest with
      | nil =>
          rw [chainedUpTo]
          · cases enough with
            | zero => rfl
            | succ => rfl
          · exact Nat.succ_ne_zero steps
      | cons token rest =>
          obtain ⟨enough, rfl⟩ := Nat.exists_eq_add_of_le' (Nat.le_trans (Nat.succ_pos rest.length) henough)
          have hbehind : rest <:+ tokens := (List.suffix_cons token rest).trans hrest
          rw [chainedUpTo, chainFrom]
          cases operator? token with
          | none => rfl
          | some operator =>
              dsimp only
              rw [agree rest hbehind]
              refine reading_bind_congr fun right after hread => ?_
              have hafter := uses.suffix hread
              have hlength := hafter.length_le
              rw [List.length_cons] at hsteps henough
              exact ih (.binary operator left right) (hafter.trans hbehind)
                (Nat.lt_of_le_of_lt hlength (Nat.lt_of_succ_lt_succ hsteps))
                (Nat.le_trans hlength (Nat.le_of_succ_le_succ henough))

theorem AgreeOn.chain (beyond : Formula → Reader) {steps : Nat} (hsteps : tokens.length < steps)
    (operator? : Token → Option Operator) :
    AgreeOn tokens (chainUpTo beyond steps operand operator?) (Formula.chain other operator?) := by
  intro rest hrest
  unfold chainUpTo Formula.chain
  rw [agree rest hrest]
  refine reading_bind_congr fun left after hread => ?_
  have hafter := (uses.suffix hread).trans hrest
  exact chainedUpTo_eq agree uses beyond operator? left hafter (Nat.lt_of_le_of_lt hafter.length_le hsteps)
    (Nat.le_refl _)

end AgreeOn

theorem agreeOn_primary {tokens : List Token} {inner other : Reader}
    (agree : ∀ rest, .openParen :: rest <:+ tokens → inner rest = other rest) :
    AgreeOn tokens (primary inner) (primary other) := by
  intro rest hrest
  unfold primary
  split
  next => rfl
  next => rfl
  next rest => rw [agree rest hrest]
  next => rfl
  next => rfl

theorem levelsUpTo_eq {tokens : List Token} {inner other : Reader} (uses : Uses other)
    (agree : ∀ rest, .openParen :: rest <:+ tokens → inner rest = other rest) (beyond : Formula → Reader)
    {steps : Nat} (hsteps : tokens.length < steps) : levelsUpTo beyond steps inner tokens = levels other tokens := by
  have unary := (agreeOn_primary agree).prefixed isMinus .negate
  have term := unary.chain (uses_readerAt uses .unary) beyond hsteps termOperator?
  have additive := term.chain (uses_readerAt uses .term) beyond hsteps additiveOperator?
  have negation := (additive.compared (uses_readerAt uses .additive)).prefixed isNot .not
  have conjunction := negation.chain (uses_readerAt uses .not) beyond hsteps andOperator?
  have disjunction := conjunction.chain (uses_readerAt uses .and) beyond hsteps orOperator?
  exact disjunction tokens List.suffix_rfl

/-- As many steps as there are tokens suffice for a formula, and as many parentheses as are opened. -/
theorem formulaUpTo_eq (beyond : Formula → Reader) (behind : Reader) {steps depth : Nat} {tokens : List Token}
    (hsteps : tokens.length < steps) (hdepth : tokens.countP opens < depth) :
    formulaUpTo beyond behind steps tokens = formulaWithin depth tokens := by
  induction steps generalizing depth tokens with
  | zero => exact absurd hsteps (Nat.not_lt_zero _)
  | succ steps ih =>
      obtain ⟨depth, rfl⟩ := Nat.exists_eq_add_of_le' (Nat.lt_of_le_of_lt (Nat.zero_le _) hdepth)
      refine levelsUpTo_eq (formulaWithin_uses depth) (fun rest hrest => ?_) beyond hsteps
      have hlength := hrest.length_le
      have hopens : List.countP opens (.openParen :: rest) ≤ tokens.countP opens := hrest.sublist.countP_le
      rw [List.length_cons] at hlength
      rw [List.countP_cons_of_pos rfl] at hopens
      exact ih (by omega) (by omega)

/-- The value of an expression depends on what is found under the references that are looked up for it. -/
theorem evaluate_congr {m : Type → Type} [Monad m] {lookup lookup' : String → m (Option Value)} {text : List Char}
    (h : ∀ reference ∈ consulted text, lookup reference = lookup' reference) :
    evaluate lookup text = evaluate lookup' text := by
  have hvalue (formula : Formula) (h : ∀ reference ∈ formula.references, lookup reference = lookup' reference) :
      formula.value lookup = formula.value lookup' := by
    induction formula with
    | literal value => rfl
    | reference text => rw [value, value, h text (List.mem_singleton_self text)]
    | negate operand ih => rw [value, value, ih h]
    | not operand ih => rw [value, value, ih h]
    | binary operator left right ihl ihr =>
        rw [value, value, ihl fun text hmem => h text (List.mem_append_left _ hmem),
          ihr fun text hmem => h text (List.mem_append_right _ hmem)]
  have hlookUpAll (references : List String) (h : ∀ reference ∈ references, lookup reference = lookup' reference) :
      lookUpAll lookup references = lookUpAll lookup' references := by
    induction references with
    | nil => rfl
    | cons reference rest ih =>
        obtain ⟨hfirst, hrest⟩ := List.forall_mem_cons.1 h
        rw [lookUpAll, lookUpAll, hfirst, ih hrest]
  unfold consulted at h
  unfold evaluate
  cases htokens : tokens? text with
  | none => rfl
  | some tokens =>
      rw [htokens] at h
      dsimp only at h ⊢
      cases hread : read tokens with
      | ok found =>
          rw [hread] at h
          dsimp only
          rw [hvalue found h]
      | error references =>
          rw [hread] at h
          dsimp only
          rw [hlookUpAll references h]

end Formula

namespace Resolver

open Text Reference

/-- What a resolution is called for: a text, and whether the grammar may be asked. -/
structure Call where
  text : List Char
  asksGrammar : Bool

namespace Call

/-- Whether a call may stand inside another one: its text is shorter, or no longer where the grammar may be asked
outside and not inside. -/
def Within (inner outer : Call) : Prop :=
  inner.text.length < outer.text.length ∨
    inner.text.length ≤ outer.text.length ∧ inner.asksGrammar = false ∧ outer.asksGrammar = true

instance (inner outer : Call) : Decidable (inner.Within outer) :=
  inferInstanceAs (Decidable (_ ∨ _ ∧ _ ∧ _))

/-- Below a call stand at most so many calls inside one another. -/
def reach (call : Call) : Nat := 2 * call.text.length + call.asksGrammar.toNat

theorem Within.reach_lt {inner outer : Call} (h : inner.Within outer) : inner.reach < outer.reach := by
  have hinner := inner.asksGrammar.toNat_le
  unfold reach
  rcases h with hshorter | ⟨hlength, hinner, houter⟩
  · omega
  · rw [hinner, houter]
    exact Nat.lt_succ_of_le (Nat.mul_le_mul_left 2 hlength)

theorem wellFounded_within : WellFounded Within :=
  Subrelation.wf Within.reach_lt (measure reach).wf

end Call

/-- How calls are answered. -/
abbrev Answering := Call → Resolving (Option Value)

/-- The answers of resolution. -/
def resolving (r : Resolver) : Answering := fun call => resolveText r call.text call.asksGrammar

section Opened

variable (r : Resolver) (inner : Answering)

/-- The value of a key or an argument, in which one call stands. -/
def keyBy (text : List Char) : Resolving Value := do
  match literal? (trim text) with
  | some value => return value
  | none => do
      let value ← inner ⟨trim text, true⟩
      return value.getD (.string (String.ofList (trim text)))

/-- The value behind members and indexers, in whose keys calls stand. Each turn leaves fewer accessors. -/
def walkBy (value : Value) (accessors : List Char) : Resolving (Option Value) :=
  if value.isNull then return none
  else
    match accessors with
    | [] => return some value
    | '.' :: rest => do
        match ← memberOf r value (trim (rest.takeWhile fun c => c != '.' && c != '[')) with
        | some next => walkBy next (rest.dropWhile fun c => c != '.' && c != '[')
        | none => return none
    | '[' :: rest =>
        match _h : closing? rest with
        | some (inside, after) => do
            let key ← keyBy inner inside
            match ← elementOf r value key with
            | some next => walkBy next (trimStart after)
            | none => return none
        | none => return none
    | _ => return none
termination_by accessors.length
decreasing_by
  · exact Nat.lt_succ_of_le (List.dropWhile_suffix fun c => c != '.' && c != '[').length_le
  · have hclosed := congrArg List.length (closing?_append _h)
    have hafter := length_trimStart_le after
    simp only [List.length_append, List.length_cons] at hclosed ⊢
    omega

/-- The values of arguments. -/
def argumentsBy : List (List Char) → Resolving (List Value)
  | [] => return []
  | text :: rest => do
      let value ← keyBy inner text
      let values ← argumentsBy rest
      return value.unwrapQuoted :: values

/-- A value after filters, in whose arguments calls stand. -/
def pipeBy (value : Value) : List (List Char) → Resolving Value
  | [] => return value
  | segment :: rest =>
      if (filterCall segment).1.isEmpty then pipeBy value rest
      else do
        let arguments ← argumentsBy inner (filterCall segment).2
        let name := String.ofList (filterCall segment).1
        pipeBy (FilterRegister.apply r.ownFilters r.sharedFilters name value arguments) rest

/-- What a call makes of the calls inside it. -/
def resolveBy (call : Call) : Resolving (Option Value) := do
  note (.lookup (String.ofList call.text))
  match indexed? call.text with
  | some found => do
      match ← inner ⟨found.target, false⟩ with
      | none => return none
      | some root => do
          let key ← keyBy inner found.key
          match ← elementOf r root key with
          | some value => walkBy r inner value found.rest
          | none => return none
  | none =>
      match r.direct? call.text with
      | some value => return some value
      | none =>
          match segments call.text with
          | head :: filter :: filters => do
              let value ← inner ⟨trim head, true⟩
              let piped ← pipeBy r inner (value.getD .null).unwrapQuoted (filter :: filters)
              return present piped
          | _ =>
              if isPath call.text then dotted r call.text
              else if isIdentifier call.text || !call.asksGrammar then return none
              else Formula.evaluate (fun reference => inner ⟨reference.toList, false⟩) call.text

end Opened

/-- Resolution, so many levels of calls inside one another; what comes below them is left open. -/
def unrolled (r : Resolver) (beyond : Answering) : Nat → Answering
  | 0 => beyond
  | levels + 1 => resolveBy r (unrolled r beyond levels)

section Agreement

variable {r : Resolver} {inner : Answering} {call : Call}
  (h : ∀ nested : Call, nested.Within call → inner nested = resolving r nested)

include h

theorem keyBy_eq {text : List Char} (hshorter : text.length < call.text.length) :
    keyBy inner text = keyValue r text := by
  have hnested := h ⟨trim text, true⟩ (Or.inl (Nat.lt_of_le_of_lt (length_trim_le text) hshorter))
  rw [keyBy, keyValue, hnested]
  rfl

theorem walkBy_eq (value : Value) {accessors : List Char} (hshorter : accessors.length < call.text.length) :
    walkBy r inner value accessors = walk r value accessors := by
  fun_induction walkBy r inner value accessors with
  | case1 value accessors null => rw [walk.eq_def, if_pos null]
  | case2 value notNull => rw [walk, if_neg notNull]
  | case3 value notNull rest ih =>
      have hrest := (List.dropWhile_suffix (l := rest) fun c => c != '.' && c != '[').length_le
      rw [walk, if_neg notNull]
      refine congrArg (memberOf r value _ >>= ·) (funext fun found => ?_)
      cases found with
      | none => rfl
      | some next => exact ih next (Nat.lt_of_le_of_lt hrest (Nat.lt_of_succ_lt hshorter))
  | case4 value notNull rest inside after closes ih =>
      have hclosed := congrArg List.length (closing?_append closes)
      have hafter := length_trimStart_le after
      rw [List.length_append, List.length_cons] at hclosed
      rw [List.length_cons] at hshorter
      rw [walk_closed r closes, if_neg notNull, keyBy_eq h (by omega)]
      refine congrArg (keyValue r inside >>= ·) (funext fun key => ?_)
      refine congrArg (elementOf r value key >>= ·) (funext fun found => ?_)
      cases found with
      | none => rfl
      | some next => exact ih next (by omega)
  | case5 value notNull rest unclosed => rw [walk_unclosed r unclosed]
  | case6 value accessors notNull notEmpty notMember notIndexer =>
      rw [walk, if_neg notNull]
      · exact notEmpty
      · exact notMember
      · exact notIndexer

theorem argumentsBy_eq {texts : List (List Char)} (hshorter : total texts < call.text.length) :
    argumentsBy inner texts = argumentValues r texts := by
  induction texts with
  | nil => rw [argumentsBy, argumentValues]
  | cons text rest ih =>
      rw [total_cons] at hshorter
      rw [argumentsBy, argumentValues, keyBy_eq h (by omega), ih (by omega)]

theorem pipeBy_eq (value : Value) {segments : List (List Char)} (hshorter : total segments < call.text.length) :
    pipeBy r inner value segments = pipe r value segments := by
  induction segments generalizing value with
  | nil => rw [pipeBy, pipe]
  | cons segment rest ih =>
      have harguments := total_filterCall_le segment
      rw [total_cons] at hshorter
      rw [pipeBy, pipe, argumentsBy_eq h (by omega)]
      simp only [ih _ (by omega : total rest < call.text.length)]

/-- The references of a formula are cut out of it, and the grammar is not asked about them. -/
theorem evaluate_eq (asks : call.asksGrammar = true) :
    Formula.evaluate (fun reference => inner ⟨reference.toList, false⟩) call.text =
      Formula.evaluate (lookUp r call.text) call.text := by
  refine Formula.evaluate_congr fun reference hmem => ?_
  obtain ⟨front, back, hcut, -⟩ := Formula.isCut_of_mem_consulted hmem
  have hlength : reference.toList.length ≤ call.text.length := by
    rw [hcut, List.length_append, List.length_append]
    omega
  rw [h ⟨reference.toList, false⟩ (Or.inr ⟨hlength, rfl, asks⟩), lookUp, if_pos hlength]
  rfl

/-- A call makes of right answers to the calls that may stand inside it the right answer, whatever else would be
answered to other calls. -/
theorem resolveBy_eq : resolveBy r inner call = resolving r call := by
  obtain ⟨text, asksGrammar⟩ := call
  unfold resolveBy resolving
  dsimp only
  cases hindexed : indexed? text with
  | some found =>
      obtain ⟨htarget, hkey, hrest⟩ := indexed?_length hindexed
      rw [resolveText_indexed r asksGrammar hindexed]
      refine congrArg (note _ >>= ·) (funext fun _ => ?_)
      unfold indexedValue behindRoot
      dsimp only
      rw [h ⟨found.target, false⟩ (Or.inl htarget), keyBy_eq h hkey]
      simp only [walkBy_eq h _ hrest]
      rfl
  | none =>
      rw [resolveText_unindexed r asksGrammar hindexed]
      refine congrArg (note _ >>= ·) (funext fun _ => ?_)
      cases r.direct? text with
      | some value => rfl
      | none =>
          dsimp only
          rcases segments_cases text with whole | ⟨head, filter, filters, hsegments⟩
          · rw [whole]
            dsimp only
            split
            next => rfl
            next =>
              split
              next => rfl
              next asks =>
                rw [Bool.not_eq_true, Bool.or_eq_false_iff, Bool.not_eq_false'] at asks
                exact evaluate_eq h asks.2
          · have hlength := total_segments_lt hsegments
            have hhead := length_trim_le head
            have hfirst : (trim head).length < text.length := by omega
            have hfilters : total (filter :: filters) < text.length := by omega
            rw [hsegments]
            dsimp only
            rw [h ⟨trim head, true⟩ (Or.inl hfirst)]
            simp only [pipeBy_eq h _ hfilters]
            rfl

end Agreement

theorem unrolled_eq (r : Resolver) (beyond : Answering) {levels : Nat} {call : Call} (h : call.reach < levels) :
    unrolled r beyond levels call = resolving r call := by
  induction levels generalizing call with
  | zero => exact absurd h (Nat.not_lt_zero _)
  | succ levels ih =>
      refine resolveBy_eq fun nested hwithin => ih ?_
      exact Nat.lt_of_lt_of_le hwithin.reach_lt (Nat.le_of_lt_succ h)

/-- A resolution ends, whatever its text and whatever it is resolved against. The answer to a call is made of the
answers to calls about shorter texts, and to calls about texts no longer of which the grammar may no longer be asked:
what would be answered to any other call makes no difference. No such calls stand inside one another without end, and
what is put below as many levels of them as the first call allows is never come to. Formulas are read in one step
more than there are tokens, and what is put behind these steps is never come to either. -/
theorem resolutions_end (r : Resolver) (call : Call) :
    WellFounded Call.Within ∧
    (∀ other : Answering,
      resolveBy r (fun nested => if nested.Within call then resolving r nested else other nested) call =
        resolving r call) ∧
    (∀ (beyond : Answering) (more : Nat), unrolled r beyond (call.reach + 1 + more) call = resolving r call) ∧
    ∀ (beyond : Formula → Formula.Reader) (behind : Formula.Reader) (tokens : List Formula.Token) (more : Nat),
      Formula.formulaUpTo beyond behind (tokens.length + 1 + more) tokens = Formula.formula tokens := by
  refine ⟨Call.wellFounded_within, fun other => ?_, fun beyond more => ?_, fun beyond behind tokens more => ?_⟩
  · exact resolveBy_eq fun nested hwithin => if_pos hwithin
  · exact unrolled_eq r beyond (by omega)
  · exact Formula.formulaUpTo_eq beyond behind (by omega) (Nat.lt_succ_self _)

example : Formula.consulted "a['k]".toList = ["a['k]"] := by decide +kernel

end Resolver

end Stencil
