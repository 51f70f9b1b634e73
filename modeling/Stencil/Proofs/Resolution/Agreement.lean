import Stencil.Proofs.Resolution.Answer

/-!
Two stores of variables side by side. A resolution comes to a variable in two ways alone, by the name
that a whole text is and through a dotted path. Stores that agree on these two give the same answers
for every text.
-/

namespace Stencil.Resolver

open Text Reference

/-- The resolver with another store of variables. -/
def withVars (r : Resolver) (vars : Variables) : Resolver := { r with vars }

/-- A store that a resolver cannot tell from its own by a name or a dotted path. -/
structure Agrees (r : Resolver) (vars : Variables) : Prop where
  direct : ∀ text, indexed? text = none → (r.withVars vars).direct? text = r.direct? text
  dotted : ∀ text, isPath text = true → dotted (r.withVars vars) text = dotted r text

theorem agrees_self (r : Resolver) : Agrees r r.vars := ⟨fun _ _ => rfl, fun _ _ => rfl⟩

variable {r : Resolver} {vars : Variables}

section Likewise

variable {accord : Accord} (lasting : accord.Lasting)

include lasting

/-- A text that is no indexed target, given its parts. -/
theorem Agrees.likewise_unindexed (agrees : Agrees r vars) {text : List Char}
    (unindexed : indexed? text = none) {asksGrammar : Bool}
    (piped : ∀ head filter filters, segments text = head :: filter :: filters →
      Likewise accord (pipedValue r head (filter :: filters))
        (pipedValue (r.withVars vars) head (filter :: filters)))
    (reference : ¬ (isIdentifier text || !asksGrammar) = true → ∀ name,
      Likewise accord (lookUp r text name) (lookUp (r.withVars vars) text name)) :
    Likewise accord (resolveText r text asksGrammar) (resolveText (r.withVars vars) text asksGrammar) := by
  rw [resolveText_unindexed r asksGrammar unindexed, resolveText_unindexed _ asksGrammar unindexed,
    agrees.direct text unindexed]
  refine (likewise_note _).bind fun _ => ?_
  cases r.direct? text with
  | some value => exact likewise_pure _
  | none =>
      dsimp only
      rcases segments_cases text with whole | ⟨head, filter, filters, hsegments⟩
      · rw [whole]
        dsimp only
        split
        next hpath =>
          rw [agrees.dotted text hpath]
          exact likewise_dotted lasting r text
        next =>
          split
          · exact likewise_pure none
          next asks => exact likewise_evaluate (reference asks) text
      · rw [hsegments]
        exact piped head filter filters hsegments

/-- Every part of a resolution goes alike for stores that agree: one case for each step of the
recursion. -/
theorem Agrees.likewise_parts (agrees : Agrees r vars) :
    (∀ text asksGrammar,
      Likewise accord (resolveText r text asksGrammar) (resolveText (r.withVars vars) text asksGrammar)) ∧
    (∀ value segments, Likewise accord (pipe r value segments) (pipe (r.withVars vars) value segments)) ∧
    (∀ texts, Likewise accord (argumentValues r texts) (argumentValues (r.withVars vars) texts)) ∧
    (∀ text, Likewise accord (keyValue r text) (keyValue (r.withVars vars) text)) ∧
    (∀ value accessors, Likewise accord (walk r value accessors) (walk (r.withVars vars) value accessors)) := by
  apply resolveText.mutual_induct
  -- a text
  · intro text asksGrammar target key rest head filters reference
    cases hindexed : indexed? text with
    | some found =>
        rw [resolveText_indexed r asksGrammar hindexed, resolveText_indexed _ asksGrammar hindexed]
        refine (likewise_note _).bind fun _ => (target found hindexed).bind fun root => ?_
        cases root with
        | none => exact likewise_pure none
        | some root =>
            refine (key found hindexed).bind fun _ => (likewise_elementOf lasting r _ _).bind fun element => ?_
            cases element with
            | none => exact likewise_pure none
            | some value => exact rest found hindexed value
    | none =>
        refine agrees.likewise_unindexed lasting hindexed ?_ ?_
        · intro first filter others piped
          exact (head first filter others piped).bind fun value =>
            (filters first filter others piped value).bind fun _ => likewise_pure _
        · intro asks name
          unfold lookUp
          split
          next le => exact reference asks name le
          next => exact likewise_pure none
  -- filters
  · intro value
    rw [pipe, pipe]
    exact likewise_pure value
  · intro value segment rest unnamed ih
    rw [pipe, if_pos unnamed, pipe, if_pos unnamed]
    exact ih
  · intro value segment rest named arguments ih
    rw [pipe, if_neg named, pipe, if_neg named]
    exact arguments.bind fun values => ih values
  -- arguments
  · rw [argumentValues, argumentValues]
    exact likewise_pure []
  · intro text rest first others
    rw [argumentValues, argumentValues]
    exact first.bind fun _ => others.bind fun _ => likewise_pure _
  -- keys
  · intro text value literal
    rw [keyValue, literal, keyValue, literal]
    exact likewise_pure value
  · intro text notLiteral ih
    rw [keyValue, notLiteral, keyValue, notLiteral]
    exact ih.bind fun _ => likewise_pure _
  -- accessors
  · intro value accessors null
    rw [walk.eq_def, if_pos null, walk.eq_def, if_pos null]
    exact likewise_pure none
  · intro value notNull
    rw [walk, if_neg notNull, walk, if_neg notNull]
    exact likewise_pure _
  · intro value notNull rest ih
    rw [walk, if_neg notNull, walk, if_neg notNull]
    refine (likewise_memberOf lasting r _ _).bind fun member => ?_
    cases member with
    | none => exact likewise_pure none
    | some next => exact ih next
  · intro value notNull rest inside after closes key ih
    rw [walk_closed r closes, walk_closed _ closes, if_neg notNull, if_neg notNull]
    refine key.bind fun _ => (likewise_elementOf lasting r _ _).bind fun element => ?_
    cases element with
    | none => exact likewise_pure none
    | some next => exact ih next
  · intro value notNull rest unclosed
    rw [walk_unclosed r unclosed, walk_unclosed _ unclosed]
    exact likewise_pure none
  · intro value accessors notNull notEmpty notMember notIndexer
    rw [walk, if_neg notNull, walk, if_neg notNull]
    · exact likewise_pure none
    · exact notEmpty
    · exact notMember
    · exact notIndexer
    · exact notEmpty
    · exact notMember
    · exact notIndexer

/-- Stores that agree give every expression the same answer. -/
theorem Agrees.likewise_resolve (agrees : Agrees r vars) (expression : List Char) :
    Likewise accord (resolve r expression) (resolve (r.withVars vars) expression) := by
  unfold resolve
  refine (likewise_note _).bind fun _ => ?_
  split
  · exact likewise_pure none
  · refine (likewise_liftExcept _).bind fun _ => ?_
    exact ((agrees.likewise_parts lasting).1 _ true).bind fun _ => likewise_pure _

end Likewise

theorem Agrees.alike_resolveText (agrees : Agrees r vars) (text : List Char) (asksGrammar : Bool) :
    Alike (resolveText r text asksGrammar) (resolveText (r.withVars vars) text asksGrammar) :=
  ((agrees.likewise_parts Accord.lasting_same).1 text asksGrammar).alike

theorem Agrees.alike_resolve (agrees : Agrees r vars) (expression : List Char) :
    Alike (resolve r expression) (resolve (r.withVars vars) expression) :=
  (agrees.likewise_resolve Accord.lasting_same expression).alike

variable (r)

/-- The answer for a text does not depend on the trail. -/
theorem alike_resolveText (text : List Char) (asksGrammar : Bool) :
    Alike (resolveText r text asksGrammar) (resolveText r text asksGrammar) :=
  r.agrees_self.alike_resolveText text asksGrammar

theorem alike_keyValue (text : List Char) : Alike (keyValue r text) (keyValue r text) :=
  ((r.agrees_self.likewise_parts Accord.lasting_same).2.2.2.1 text).alike

theorem alike_pipe (value : Value) (segments : List (List Char)) :
    Alike (pipe r value segments) (pipe r value segments) :=
  ((r.agrees_self.likewise_parts Accord.lasting_same).2.1 value segments).alike

/-- The gate lets an expression through if its verdict says so. -/
theorem accepted_of_toBool {security : Security} {expression : String}
    (h : (Gate.checkExpression security expression).toBool = true) :
    Gate.checkExpression security expression = .ok () := by
  cases hcheck : Gate.checkExpression security expression with
  | ok => rfl
  | error fault =>
      rw [hcheck] at h
      exact absurd h Bool.false_ne_true

/-- What an expression gives to a template: no quotes around it, and nothing in place of null. -/
def finished (value : Option Value) : Option Value := (value.map Value.unwrapQuoted).bind present

theorem finished_present (value : Value) : finished (present value) = finished (some value) := by
  cases value with
  | null => rfl
  | _ => rfl

/-- An accepted text that is the name of a variable has its value. -/
theorem outcome_resolve_direct {r : Resolver} {name : List Char} {value : Value} (trimmed : trim name = name)
    (nonempty : name ≠ []) (accepted : Gate.checkExpression r.security (String.ofList name) = .ok ())
    (unindexed : indexed? name = none) (bound : r.direct? name = some value) (memory : Memory) :
    outcome (resolve r name) memory = (.ok (finished (some value)), { memory with
      trail := .lookup (String.ofList name) :: .expression (String.ofList name) :: memory.trail }) := by
  have hempty : name.isEmpty = false := List.isEmpty_eq_false_iff.2 nonempty
  unfold resolve
  dsimp only
  rw [trimmed, accepted, hempty, resolveText_bound true unindexed bound]
  rfl

/-- An accepted expression has the value of its trimmed text. -/
theorem alike_resolve {expression text : List Char} (trimmed : trim expression = text)
    (nonempty : text ≠ [])
    (accepted : Gate.checkExpression r.security (String.ofList text) = .ok ()) :
    Alike (resolve r expression) (do return finished (← resolveText r text true)) := by
  have hempty : text.isEmpty = false := List.isEmpty_eq_false_iff.2 nonempty
  unfold resolve
  dsimp only
  rw [trimmed, accepted, hempty]
  refine Alike.note ?_ _
  exact (alike_resolveText r text true).bind fun _ => alike_pure _

end Stencil.Resolver
