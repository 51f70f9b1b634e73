import Stencil.Proofs.Bytewise.Splitting
import Stencil.Proofs.EndingResolutions
import Stencil.Proofs.Resolution.Likeness

/-!
Expressions resolved by bytes, and texts with interpolations in them. The parts of an expression are cut out by
offsets: the target and the key of an indexer, members and keys of accessors, segments, names and arguments of filters,
and the text between quotes. A resolution that could slip at each of these cuts is one that never does.
-/

namespace Stencil.Bytewise

open Text Reference
open Markup (byteSize_append)
open Resolver (Call note memberOf elementOf present isPath dotted)

/-- A resolution that may slip. -/
abbrev Reading := ExceptT Slip Resolving

/-- What has been read from bytes. -/
def checked {α : Type} : Except Slip α → Reading α
  | .ok a => pure a
  | .error slip => throw slip

/-- A resolution that does not slip. -/
def sure {α : Type} (resolution : Resolving α) : Reading α := ExceptT.lift resolution

/-- The answer to a call. -/
abbrev Answering := Call → Reading (Option Value)

section Opened

variable (r : Resolver) (inner : Answering)

/-- The value of a key or an argument, in which one call stands. -/
def keyBy (text : List Char) : Reading Value := do
  match ← checked (literal? (trim text)) with
  | some value => return value
  | none => do
      let value ← inner ⟨trim text, true⟩
      return value.getD (.string (String.ofList (trim text)))

/-- A turn of the walk along members and indexers takes one of them off. -/
def walkTurn : Value × List Char → Reading ((Value × List Char) ⊕ Option Value)
  | (value, []) => return .inr (present value)
  | (value, c :: behind) => do
      if value.isNull then return .inr none
      else if c = '.' then
        let stop := byteSize (behind.takeWhile fun c => c != '.' && c != '[')
        let member ← checked (sliceTo behind stop)
        match ← sure (memberOf r value (trim member)) with
        | none => return .inr none
        | some next =>
            let rest ← checked (sliceFrom behind stop)
            return .inl (next, rest)
      else if c = '[' then
        match ← checked (closingAt? (c :: behind) 0) with
        | none => return .inr none
        | some close =>
            let inside ← checked (slice (c :: behind) 1 close)
            let key ← keyBy inner inside
            match ← sure (elementOf r value key) with
            | none => return .inr none
            | some next =>
                let rest ← checked (sliceFrom (c :: behind) (close + 1))
                return .inl (next, trimStart rest)
      else return .inr none

/-- The value behind members and indexers. -/
def walkBy (value : Value) (accessors : List Char) : Reading (Option Value) :=
  turns (walkTurn r inner) (accessors.length + 1) (value, accessors)

/-- The values of arguments, without quotes around them. -/
def argumentsBy : List (List Char) → Reading (List Value)
  | [] => return []
  | text :: rest => do
      let value ← keyBy inner text
      let plain ← checked (unwrapQuoted value)
      let values ← argumentsBy rest
      return plain :: values

/-- A value after filters. -/
def pipeBy (value : Value) : List (List Char) → Reading Value
  | [] => return value
  | segment :: rest => do
      let (name, texts) ← checked (filterCall segment)
      if name.isEmpty then pipeBy value rest
      else
        let arguments ← argumentsBy inner texts
        pipeBy (FilterRegister.apply r.ownFilters r.sharedFilters (String.ofList name) value arguments) rest

/-- What a call makes of the calls inside it. -/
def resolveBy (call : Call) : Reading (Option Value) := do
  sure (note (.lookup (String.ofList call.text)))
  match ← checked (indexed? call.text) with
  | some found => do
      match ← inner ⟨found.target, false⟩ with
      | none => return none
      | some root => do
          let key ← keyBy inner found.key
          match ← sure (elementOf r root key) with
          | some value => walkBy r inner value found.rest
          | none => return none
  | none =>
      match r.direct? call.text with
      | some value => return some value
      | none => do
          match ← checked (segments call.text) with
          | head :: filter :: filters => do
              let value ← inner ⟨trim head, true⟩
              let plain ← checked (unwrapQuoted (value.getD .null))
              let piped ← pipeBy r inner plain (filter :: filters)
              return present piped
          | _ =>
              if isPath call.text then sure (dotted r call.text)
              else if isIdentifier call.text || !call.asksGrammar then return none
              else Formula.evaluate (fun reference => inner ⟨reference.toList, false⟩) call.text

end Opened

/-- The answers of a resolution in which only so many calls stand inside one another. -/
def answers (r : Resolver) : Nat → Answering
  | 0 => fun _ => throw .endless
  | levels + 1 => resolveBy r (answers r levels)

/-- The value of a text without blanks at its ends. -/
def resolveText (r : Resolver) (text : List Char) (asksGrammar : Bool) : Reading (Option Value) :=
  answers r ((Call.mk text asksGrammar).reach + 1) ⟨text, asksGrammar⟩

/-- The value of an expression that a template hands over. -/
def resolve (r : Resolver) (expression : List Char) : Reading (Option Value) := do
  let text := trim expression
  sure (note (.expression (String.ofList text)))
  if text.isEmpty then return none
  sure (liftExcept (Gate.checkExpression r.security (String.ofList text)))
  match ← resolveText r text true with
  | none => return none
  | some value => do
      let plain ← checked (unwrapQuoted value)
      return present plain

/-- A turn of an interpolation replaces one expression by its value. -/
def interpolationTurn (r : Resolver) : List Char × List Char → Reading ((List Char × List Char) ⊕ List Char)
  | (result, rest) => do
      match find? (bytes ['{', '{']) (bytes rest) with
      | none => return .inr (result ++ rest)
      | some opened =>
          let behind ← checked (sliceFrom rest (opened + 2))
          match find? (bytes ['}', '}']) (bytes behind) with
          | none => return .inr (result ++ rest)
          | some closed =>
              let before ← checked (sliceTo rest opened)
              let inner ← checked (sliceTo behind closed)
              let value ← resolve r inner
              let after ← checked (sliceFrom behind (closed + 2))
              return .inl (result ++ before ++ (value.map Value.text).getD [], after)

/-- A text with every interpolation in it replaced by the text of its value. -/
def interpolateText (r : Resolver) (text : List Char) : Reading (List Char) :=
  turns (interpolationTurn r) (text.length + 1) ([], text)

/-! ### What does not slip -/

@[simp]
theorem checked_ok {α : Type} (a : α) : checked (.ok a) = pure a := rfl

@[simp]
theorem sure_pure {α : Type} (a : α) : sure (pure a) = pure a := rfl

/-- What follows a resolution that does not slip does not slip if none of what may follow does. -/
theorem sure_bind {α β : Type} (resolution : Resolving α) (next : α → Resolving β) :
    sure (resolution >>= next) = sure resolution >>= fun a => sure (next a) := by
  unfold sure
  exact ExceptT.lift_bind ..

theorem sure_map {α β : Type} (f : α → β) (resolution : Resolving α) :
    sure (f <$> resolution) = f <$> sure resolution := by
  rw [map_eq_pure_bind, map_eq_pure_bind, sure_bind]
  rfl

/-- A formula whose references are looked up without slips is evaluated without slips. -/
theorem evaluate_sure (lookup : String → Resolving (Option Value)) (text : List Char) :
    Formula.evaluate (fun reference => sure (lookup reference)) text = sure (Formula.evaluate lookup text) := by
  have hvalue (formula : Formula) :
      formula.value (fun reference => sure (lookup reference)) = sure (formula.value lookup) := by
    induction formula with
    | literal value => rfl
    | reference text => simp [Formula.value, sure_map]
    | negate operand ih => simp [Formula.value, sure_map, ih]
    | not operand ih => simp [Formula.value, sure_map, ih]
    | binary operator left right ihl ihr => simp [Formula.value, sure_bind, sure_map, ihl, ihr]
  have hall (references : List String) :
      Formula.lookUpAll (fun reference => sure (lookup reference)) references =
        sure (Formula.lookUpAll lookup references) := by
    induction references with
    | nil => rfl
    | cons reference rest ih =>
        simp [Formula.lookUpAll, sure_bind, ih, discard, Functor.discard, LawfulFunctor.map_const]
  unfold Formula.evaluate
  split
  next => rfl
  next tokens =>
    split
    next => simp [hvalue, sure_map]
    next => simp [hall, sure_map]

section Agreement

variable {r : Resolver} {inner : Answering} {call : Call}
  (h : ∀ nested : Call, nested.Within call → inner nested = sure (Resolver.resolving r nested))

include h

theorem keyBy_eq {text : List Char} (hshorter : text.length < call.text.length) :
    keyBy inner text = sure (Resolver.keyValue r text) := by
  have hnested := h ⟨trim text, true⟩ (.inl (Nat.lt_of_le_of_lt (length_trim_le text) hshorter))
  rw [keyBy, Resolver.keyValue, literal?_eq, checked_ok, pure_bind]
  cases Resolver.literal? (trim text) with
  | some value => rfl
  | none =>
      dsimp only
      rw [hnested, sure_bind]
      rfl

omit h in
/-- What a turn does at a member. -/
theorem walkTurn_member {value : Value} (notNull : ¬ value.isNull = true) (behind : List Char) :
    walkTurn r inner (value, '.' :: behind) =
      sure (memberOf r value (trim (behind.takeWhile fun c => c != '.' && c != '['))) >>= fun found =>
        pure (match found with
          | none => .inr none
          | some next => .inl (next, behind.dropWhile fun c => c != '.' && c != '[')) := by
  rw [walkTurn, if_neg notNull, if_pos rfl]
  dsimp only
  rw [sliceTo_takeWhile, sliceFrom_takeWhile, checked_ok, checked_ok, pure_bind]
  refine congrArg (sure (memberOf r value _) >>= ·) (funext fun found => ?_)
  cases found with
  | none => rfl
  | some next => rfl

/-- What a turn does at an indexer, which may never close. -/
theorem walkTurn_indexer {value : Value} (notNull : ¬ value.isNull = true) {behind : List Char}
    (hshorter : behind.length < call.text.length) :
    walkTurn r inner (value, '[' :: behind) =
      match closing? behind with
      | none => pure (.inr none)
      | some (inside, after) => sure (Resolver.keyValue r inside) >>= fun key =>
          sure (elementOf r value key) >>= fun found =>
            pure (match found with
              | none => .inr none
              | some next => .inl (next, trimStart after)) := by
  have hclosing : closingAt? ('[' :: behind) 0 = .ok ((closing? behind).map fun parts => 0 + 1 + byteSize parts.1) :=
    closingAt?_eq [] behind
  have hother : '[' ≠ '.' := by decide
  rw [walkTurn, if_neg notNull, if_neg hother, if_pos rfl, hclosing, checked_ok, pure_bind]
  cases hclosed : closing? behind with
  | none => rfl
  | some parts =>
      obtain ⟨inside, after⟩ := parts
      obtain rfl := closing?_append hclosed
      have hopened : StandsAt ('[' :: (inside ++ ']' :: after)) 1 (inside ++ ']' :: after) :=
        StandsAt.pass ['['] (.start _)
      have hafter : StandsAt ('[' :: (inside ++ ']' :: after)) (1 + byteSize inside + 1) after :=
        (hopened.pass _).pass [']']
      have hkey : inside.length < call.text.length := by
        rw [List.length_append] at hshorter
        omega
      dsimp only [Option.map_some]
      rw [Nat.zero_add, hopened.slice_eq, checked_ok, pure_bind, keyBy_eq h hkey, hafter.sliceFrom_eq, checked_ok]
      refine congrArg (sure (Resolver.keyValue r inside) >>= ·) (funext fun key => ?_)
      refine congrArg (sure (elementOf r value key) >>= ·) (funext fun found => ?_)
      cases found with
      | none => rfl
      | some next => rfl

/-- The walk takes a turn for each member and each indexer. -/
theorem turns_walkTurn {more : Nat} (value : Value) {accessors : List Char} (henough : accessors.length < more)
    (hshorter : accessors.length < call.text.length) :
    turns (walkTurn r inner) more (value, accessors) = sure (Resolver.walk r value accessors) := by
  induction more generalizing value accessors with
  | zero => exact absurd henough (Nat.not_lt_zero _)
  | succ more ih =>
      rw [turns]
      cases accessors with
      | nil =>
          rw [walkTurn, Resolver.walk, pure_bind]
          unfold present
          cases value.isNull with
          | true => rfl
          | false => rfl
      | cons c behind =>
          rw [List.length_cons] at henough hshorter
          by_cases null : value.isNull = true
          · rw [walkTurn, if_pos null, pure_bind, Resolver.walk.eq_def, if_pos null]
            rfl
          · by_cases hmember : c = '.'
            · subst hmember
              have hlength := (List.dropWhile_suffix (l := behind) fun c => c != '.' && c != '[').length_le
              rw [walkTurn_member null, bind_assoc, Resolver.walk, if_neg null, sure_bind]
              refine congrArg (sure (memberOf r value _) >>= ·) (funext fun found => ?_)
              cases found with
              | none => rfl
              | some next => exact ih next (by omega) (by omega)
            · by_cases hindexer : c = '['
              · subst hindexer
                rw [walkTurn_indexer h null (by omega)]
                cases hclosed : closing? behind with
                | none =>
                    rw [Resolver.walk_unclosed r hclosed]
                    rfl
                | some parts =>
                    obtain ⟨inside, after⟩ := parts
                    have hbehind := congrArg List.length (closing?_append hclosed)
                    have hafter := length_trimStart_le after
                    rw [List.length_append, List.length_cons] at hbehind
                    rw [Resolver.walk_closed r hclosed, if_neg null, sure_bind]
                    dsimp only
                    rw [bind_assoc]
                    refine congrArg (sure (Resolver.keyValue r inside) >>= ·) (funext fun key => ?_)
                    rw [bind_assoc, sure_bind]
                    refine congrArg (sure (elementOf r value key) >>= ·) (funext fun found => ?_)
                    cases found with
                    | none => rfl
                    | some next => exact ih next (by omega) (by omega)
              · rw [walkTurn, if_neg null, if_neg hmember, if_neg hindexer, pure_bind, Resolver.walk, if_neg null]
                · rfl
                · exact List.cons_ne_nil _ _
                · exact fun rest heq => hmember (List.cons.inj heq).1
                · exact fun rest heq => hindexer (List.cons.inj heq).1

theorem walkBy_eq (value : Value) {accessors : List Char} (hshorter : accessors.length < call.text.length) :
    walkBy r inner value accessors = sure (Resolver.walk r value accessors) :=
  turns_walkTurn h value (Nat.lt_succ_self _) hshorter

theorem argumentsBy_eq {texts : List (List Char)} (hshorter : total texts < call.text.length) :
    argumentsBy inner texts = sure (Resolver.argumentValues r texts) := by
  induction texts with
  | nil =>
      rw [argumentsBy, Resolver.argumentValues]
      rfl
  | cons text rest ih =>
      rw [total_cons] at hshorter
      rw [argumentsBy, Resolver.argumentValues, keyBy_eq h (by omega), sure_bind]
      refine congrArg (sure (Resolver.keyValue r text) >>= ·) (funext fun value => ?_)
      rw [unwrapQuoted_eq, checked_ok, pure_bind, ih (by omega), sure_bind]
      rfl

theorem pipeBy_eq (value : Value) {segments : List (List Char)} (hshorter : total segments < call.text.length) :
    pipeBy r inner value segments = sure (Resolver.pipe r value segments) := by
  induction segments generalizing value with
  | nil =>
      rw [pipeBy, Resolver.pipe]
      rfl
  | cons segment rest ih =>
      have harguments := total_filterCall_le segment
      rw [total_cons] at hshorter
      have hrest : total rest < call.text.length := by omega
      rw [pipeBy, Resolver.pipe, filterCall_eq, checked_ok, pure_bind]
      dsimp only
      split
      next => exact ih value hrest
      next =>
        rw [argumentsBy_eq h (by omega), sure_bind]
        refine congrArg (sure (Resolver.argumentValues r _) >>= ·) (funext fun arguments => ?_)
        exact ih _ hrest

/-- The references of a formula are looked up without slips. -/
theorem evaluateBy_eq (asks : call.asksGrammar = true) :
    Formula.evaluate (fun reference => inner ⟨reference.toList, false⟩) call.text =
      sure (Formula.evaluate (Resolver.lookUp r call.text) call.text) := by
  rw [← evaluate_sure]
  refine Formula.evaluate_congr fun reference hmem => ?_
  obtain ⟨front, back, hcut, -⟩ := Formula.isCut_of_mem_consulted hmem
  have hlength : reference.toList.length ≤ call.text.length := by
    rw [hcut, List.length_append, List.length_append]
    omega
  rw [h ⟨reference.toList, false⟩ (.inr ⟨hlength, rfl, asks⟩), Resolver.lookUp, if_pos hlength]
  rfl

/-- A call slips nowhere if no call inside it does. -/
theorem resolveBy_eq : resolveBy r inner call = sure (Resolver.resolving r call) := by
  obtain ⟨text, asksGrammar⟩ := call
  unfold resolveBy Resolver.resolving
  dsimp only
  rw [indexed?_eq]
  cases hindexed : Reference.indexed? text with
  | some found =>
      obtain ⟨htarget, hkey, hrest⟩ := indexed?_length hindexed
      rw [Resolver.resolveText_indexed r asksGrammar hindexed, sure_bind]
      refine congrArg (sure (note _) >>= ·) (funext fun _ => ?_)
      rw [checked_ok, pure_bind]
      dsimp only
      rw [Resolver.indexedValue, h ⟨found.target, false⟩ (.inl htarget), sure_bind]
      refine congrArg (sure (Resolver.resolving r _) >>= ·) (funext fun root => ?_)
      cases root with
      | none => rfl
      | some root =>
          dsimp only
          rw [Resolver.behindRoot, keyBy_eq h hkey, sure_bind]
          refine congrArg (sure (Resolver.keyValue r found.key) >>= ·) (funext fun key => ?_)
          rw [sure_bind]
          refine congrArg (sure (elementOf r root key) >>= ·) (funext fun value => ?_)
          cases value with
          | none => rfl
          | some value => exact walkBy_eq h value hrest
  | none =>
      rw [Resolver.resolveText_unindexed r asksGrammar hindexed, sure_bind]
      refine congrArg (sure (note _) >>= ·) (funext fun _ => ?_)
      rw [checked_ok, pure_bind]
      dsimp only
      cases r.direct? text with
      | some value => rfl
      | none =>
          dsimp only
          rw [segments_eq, checked_ok, pure_bind]
          rcases Resolver.segments_cases text with whole | ⟨head, filter, filters, hsegments⟩
          · rw [whole]
            dsimp only
            split
            next => rfl
            next =>
              split
              next => rfl
              next asks =>
                rw [Bool.not_eq_true, Bool.or_eq_false_iff, Bool.not_eq_false'] at asks
                exact evaluateBy_eq h asks.2
          · have hlength := total_segments_lt hsegments
            have hhead := length_trim_le head
            have hfirst : (trim head).length < text.length := by omega
            have hfilters : total (filter :: filters) < text.length := by omega
            rw [hsegments]
            dsimp only
            rw [h ⟨trim head, true⟩ (.inl hfirst), Resolver.pipedValue, sure_bind]
            refine congrArg (sure (Resolver.resolving r _) >>= ·) (funext fun value => ?_)
            rw [unwrapQuoted_eq, checked_ok, pure_bind, pipeBy_eq h _ hfilters, sure_bind]
            rfl

end Agreement

/-- As many levels as a call reaches below itself suffice for its answer. -/
theorem answers_eq (r : Resolver) {levels : Nat} {call : Call} (h : call.reach < levels) :
    answers r levels call = sure (Resolver.resolving r call) := by
  induction levels generalizing call with
  | zero => exact absurd h (Nat.not_lt_zero _)
  | succ levels ih =>
      refine resolveBy_eq fun nested hwithin => ih ?_
      exact Nat.lt_of_lt_of_le hwithin.reach_lt (Nat.le_of_lt_succ h)

theorem resolveText_eq (r : Resolver) (text : List Char) (asksGrammar : Bool) :
    resolveText r text asksGrammar = sure (Resolver.resolveText r text asksGrammar) :=
  answers_eq r (Nat.lt_succ_self _)

/-- Resolving by bytes never slips, and finds what resolving by characters finds. -/
theorem resolve_eq (r : Resolver) (expression : List Char) :
    resolve r expression = sure (Resolver.resolve r expression) := by
  rw [resolve, Resolver.resolve, sure_bind]
  refine congrArg (sure (note _) >>= ·) (funext fun _ => ?_)
  split
  next => rfl
  next =>
    rw [sure_bind]
    refine congrArg (sure (liftExcept _) >>= ·) (funext fun _ => ?_)
    rw [resolveText_eq, sure_bind]
    refine congrArg (sure (Resolver.resolveText r _ true) >>= ·) (funext fun value => ?_)
    cases value with
    | none => rfl
    | some value =>
        dsimp only
        rw [unwrapQuoted_eq, checked_ok, pure_bind]
        rfl

/-- Each turn of an interpolation leaves less text, and the braces are found where they stand. -/
theorem turns_interpolationTurn (r : Resolver) {more : Nat} (result : List Char) {rest : List Char}
    (henough : rest.length < more) :
    turns (interpolationTurn r) more (result, rest) = sure ((result ++ ·) <$> Resolver.interpolateText r rest) := by
  induction more generalizing result rest with
  | zero => exact absurd henough (Nat.not_lt_zero _)
  | succ more ih =>
      have hopen := find?_bytes ['{', '{'] (List.cons_ne_nil _ _) (by simp) rest
      rw [turns, interpolationTurn, hopen]
      cases hopened : cut? ['{', '{'] rest with
      | none =>
          rw [Resolver.interpolateText_of_unopened hopened]
          rfl
      | some parts =>
          obtain ⟨before, after⟩ := parts
          have hrest := cut?_append hopened
          have hbefore : sliceTo rest (byteSize before) = .ok before := by
            rw [hrest, List.append_assoc]
            exact sliceTo_append ..
          have hafter : sliceFrom rest (byteSize before + 2) = .ok after := by
            have hcut := sliceFrom_append (before ++ ['{', '{']) after
            rwa [← hrest, byteSize_append] at hcut
          have hclose := find?_bytes ['}', '}'] (List.cons_ne_nil _ _) (by simp) after
          dsimp only [Option.map_some]
          rw [hafter, checked_ok, pure_bind, hclose]
          cases hclosed : cut? ['}', '}'] after with
          | none =>
              rw [Resolver.interpolateText_of_unclosed hopened hclosed]
              rfl
          | some parts =>
              obtain ⟨inner, following⟩ := parts
              have hbehind := cut?_append hclosed
              have hinner : sliceTo after (byteSize inner) = .ok inner := by
                rw [hbehind, List.append_assoc]
                exact sliceTo_append ..
              have hfollowing : sliceFrom after (byteSize inner + 2) = .ok following := by
                have hcut := sliceFrom_append (inner ++ ['}', '}']) following
                rwa [← hbehind, byteSize_append] at hcut
              have hless : following.length < more := by
                have hfirst := congrArg List.length hrest
                have hsecond := congrArg List.length hbehind
                simp only [List.length_append, List.length_cons, List.length_nil] at hfirst hsecond
                omega
              dsimp only [Option.map_some]
              rw [hbefore, hinner, hfollowing, checked_ok, checked_ok, checked_ok, pure_bind, pure_bind, resolve_eq,
                Resolver.interpolateText_of_closed hopened hclosed, map_bind, sure_bind, bind_assoc]
              refine congrArg (sure (Resolver.resolve r inner) >>= ·) (funext fun value => ?_)
              rw [pure_bind, pure_bind]
              dsimp only
              rw [ih _ hless, map_bind, map_eq_pure_bind]
              refine congrArg (fun next => sure (Resolver.interpolateText r following >>= next)) (funext fun text => ?_)
              simp

/-- Interpolating by bytes never slips, and gives the text that interpolating by characters gives. -/
theorem interpolateText_eq (r : Resolver) (text : List Char) :
    interpolateText r text = sure (Resolver.interpolateText r text) := by
  have hturns := turns_interpolationTurn r [] (Nat.lt_succ_self text.length)
  rw [interpolateText, hturns]
  exact congrArg sure (id_map _)

end Stencil.Bytewise
