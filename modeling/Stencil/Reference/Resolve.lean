import Stencil.Formula.Grammar
import Stencil.Reference.Access
import Stencil.Reference.Bracket
import Stencil.Reference.Split

/-!
What an expression stands for. A text is read in the first of these ways that fits: a target with an
indexer, the name of a bound variable, a value piped through filters, a dotted path, a formula. The
parts of a text are resolved in their turn; they are shorter than the text, or as long but no longer
read as formulas, so that resolution ends.
-/

namespace Stencil.Resolver

open Text Reference

/-- Measures descend by their first part that differs. -/
theorem lex_of_lt {a b c a' b' c' : Nat} (h : a < a' ∨ a ≤ a' ∧ (b < b' ∨ b ≤ b' ∧ c < c')) :
    Prod.Lex (· < ·) (Prod.Lex (· < ·) (· < ·)) (a, b, c) (a', b', c') := by
  simp only [Prod.lex_def]
  omega

mutual

/-- The value of a text without blanks at its ends. Only where the grammar may be asked is a text
read as a formula; the references in it are then looked up without the grammar. -/
def resolveText (r : Resolver) (text : List Char) (asksGrammar : Bool) :
    Resolving (Option Value) := do
  note (.lookup (String.ofList text))
  match _h : indexed? text with
  | some found => do
      match ← resolveText r found.target false with
      | none => return none
      | some root => do
          let key ← keyValue r found.key
          match ← elementOf r root key with
          | some value => walk r value found.rest
          | none => return none
  | none =>
      match r.direct? text with
      | some value => return some value
      | none =>
          match _h : segments text with
          | head :: filter :: filters => do
              let value ← resolveText r (trim head) true
              let piped ← pipe r (value.getD .null).unwrapQuoted (filter :: filters)
              return present piped
          | _ =>
              if isPath text then dotted r text
              else if isIdentifier text || !asksGrammar then return none
              else
                let lookup (reference : String) : Resolving (Option Value) :=
                  if reference.toList.length ≤ text.length then
                    resolveText r reference.toList false
                  else return none
                Formula.evaluate lookup text
termination_by (text.length, if asksGrammar then 1 else 0, 0)
decreasing_by
  · exact Prod.Lex.left _ _ (indexed?_length _h).1
  · exact Prod.Lex.left _ _ (indexed?_length _h).2.1
  · exact Prod.Lex.left _ _ (indexed?_length _h).2.2
  · have h1 := total_segments_lt _h
    have h2 := length_trim_le head
    exact Prod.Lex.left _ _ (by omega)
  · have := total_segments_lt _h
    exact Prod.Lex.left _ _ (by omega)
  · next ask le =>
      simp only [Bool.or_eq_true, Bool.not_eq_true', not_or, Bool.not_eq_false] at ask
      exact lex_of_lt (.inr ⟨le, .inl (by simp [ask.2])⟩)

/-- The value of a key between brackets or of an argument: a literal, the value of the text, or else
the text itself. -/
def keyValue (r : Resolver) (text : List Char) : Resolving Value := do
  match literal? (trim text) with
  | some value => return value
  | none => do
      let value ← resolveText r (trim text) true
      return value.getD (.string (String.ofList (trim text)))
termination_by (text.length, 2, 0)
decreasing_by
  exact lex_of_lt (.inr ⟨length_trim_le text, .inl (by decide)⟩)

/-- The value at the end of members and indexers that follow a value. -/
def walk (r : Resolver) (value : Value) (accessors : List Char) : Resolving (Option Value) :=
  if value.isNull then return none
  else
    match accessors with
    | [] => return some value
    | '.' :: rest => do
        match ← memberOf r value (trim (rest.takeWhile fun c => c != '.' && c != '[')) with
        | some next => walk r next (rest.dropWhile fun c => c != '.' && c != '[')
        | none => return none
    | '[' :: rest =>
        match _h : closing? rest with
        | some (inside, after) => do
            let key ← keyValue r inside
            match ← elementOf r value key with
            | some next => walk r next (trimStart after)
            | none => return none
        | none => return none
    | _ => return none
termination_by (accessors.length, 3, 0)
decreasing_by
  · have := (List.dropWhile_suffix (l := rest) fun c => c != '.' && c != '[').length_le
    exact Prod.Lex.left _ _ (Nat.lt_succ_of_le this)
  · have := congrArg List.length (closing?_append _h)
    simp only [List.length_append, List.length_cons] at this
    exact Prod.Lex.left _ _ (by simp only [List.length_cons]; omega)
  · have h1 := congrArg List.length (closing?_append _h)
    have h2 := length_trimStart_le after
    simp only [List.length_append, List.length_cons] at h1
    exact Prod.Lex.left _ _ (by simp only [List.length_cons]; omega)

/-- The values of the arguments of a filter, without quotes around them. -/
def argumentValues (r : Resolver) : List (List Char) → Resolving (List Value)
  | [] => return []
  | text :: rest => do
      let value ← keyValue r text
      let values ← argumentValues r rest
      return value.unwrapQuoted :: values
termination_by texts => (total texts, 4, texts.length)
decreasing_by
  all_goals
    rw [total_cons]
    exact lex_of_lt (by simp only [List.length_cons]; omega)

/-- A value after filters, from left to right. A segment without a name does nothing. -/
def pipe (r : Resolver) (value : Value) : List (List Char) → Resolving Value
  | [] => return value
  | segment :: rest =>
      if (filterCall segment).1.isEmpty then pipe r value rest
      else do
        let arguments ← argumentValues r (filterCall segment).2
        let name := String.ofList (filterCall segment).1
        pipe r (FilterRegister.apply r.ownFilters r.sharedFilters name value arguments) rest
termination_by segments => (total segments, 5, segments.length)
decreasing_by
  all_goals
    have := total_filterCall_le segment
    rw [total_cons]
    exact lex_of_lt (by simp only [List.length_cons]; omega)

end

/-- The value of an expression that a template hands over. The gate looks at it first. One layer of
quotes around a string is taken away, and null is no value. -/
def resolve (r : Resolver) (expression : List Char) : Resolving (Option Value) := do
  let text := trim expression
  note (.expression (String.ofList text))
  if text.isEmpty then return none
  liftExcept (Gate.checkExpression r.security (String.ofList text))
  let value ← resolveText r text true
  return (value.map Value.unwrapQuoted).bind present

end Stencil.Resolver
