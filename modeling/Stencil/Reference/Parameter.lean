import Stencil.Reference.Resolve

/-!
Texts with interpolations in them, as attributes have them, and the values of parameters.
-/

namespace Stencil.Resolver

open Text Markup

/-- A text with every interpolation in it replaced by the text of its value. Nothing is encoded. An
interpolation that does not end stays as it is. -/
def interpolateText (r : Resolver) (text : List Char) : Resolving (List Char) :=
  match _opened : cut? ['{', '{'] text with
  | none => return text
  | some (before, after) =>
      match _closed : cut? ['}', '}'] after with
      | none => return text
      | some (inner, rest) => do
          let value ← resolve r inner
          let following ← interpolateText r rest
          return before ++ ((value.map Value.text).getD [] ++ following)
termination_by text.length
decreasing_by
  have h1 := congrArg List.length (cut?_append _opened)
  have h2 := congrArg List.length (cut?_append _closed)
  simp only [List.length_append, List.length_cons] at h1 h2
  omega

/-- A text with every interpolation in it replaced by the text of its value. -/
def interpolate (r : Resolver) (text : String) : Resolving String := do
  return String.ofList (← interpolateText r text.toList)

/-- The expression of a text that is one interpolation and nothing else. -/
def soleInterpolation? (text : List Char) : Option (List Char) := do
  let rest ← ['{', '{'].isPrefixOf? text
  let inner := (← ['}', '}'].isPrefixOf? rest.reverse).reverse
  if occurs ['{', '{'] inner || occurs ['}', '}'] inner then none else some (trim inner)

/-- Whether a text may be meant as an expression: it has no blanks and no quotes. -/
def isBare (text : List Char) : Bool := !text.any fun c => c == ' ' || c == '"' || c == '\''

/-- The value of what stands for a parameter: nothing is null, a sole interpolation keeps the kind of
its value, and a bare text that has no value stands for itself. -/
def givenValue (r : Resolver) (given : String) : Resolving Value := do
  let text := trim given.toList
  if text.isEmpty then return .null
  match soleInterpolation? text with
  | some inner => return (← resolve r inner).getD .null
  | none =>
      if occurs ['{', '{'] text then
        return .string (String.ofList (← interpolateText r text))
      else if isBare text then
        return (← resolve r text).getD (.string (String.ofList text))
      else return .string given

/-- The value of a parameter. Null and the empty string give way to the default. -/
def parameterValue (r : Resolver) (parameter : Parameter) : Resolving Value := do
  let value ← givenValue r parameter.value
  if value.isEmptyText then
    match parameter.default with
    | none => return value
    | some default => return .string (← interpolate r default)
  else return value

end Stencil.Resolver
