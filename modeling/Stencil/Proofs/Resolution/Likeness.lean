import Stencil.Proofs.Resolution.Answer
import Stencil.Reference.Parameter

/-!
Texts with interpolations and parameters go alike if expressions do.
-/

namespace Stencil.Resolver

open Text

variable {accord : Accord}

theorem interpolateText_of_unopened {r : Resolver} {text : List Char} (h : cut? ['{', '{'] text = none) :
    interpolateText r text = pure text := by
  rw [interpolateText]
  split
  next => rfl
  next opened => cases h.symm.trans opened

theorem interpolateText_of_unclosed {r : Resolver} {text before after : List Char}
    (opened : cut? ['{', '{'] text = some (before, after)) (unclosed : cut? ['}', '}'] after = none) :
    interpolateText r text = pure text := by
  rw [interpolateText]
  split
  next => rfl
  next opened' =>
    cases opened.symm.trans opened'
    split
    next => rfl
    next closed => cases unclosed.symm.trans closed

theorem interpolateText_of_closed {r : Resolver} {text before after inner rest : List Char}
    (opened : cut? ['{', '{'] text = some (before, after))
    (closed : cut? ['}', '}'] after = some (inner, rest)) :
    interpolateText r text = (do
      let value ← resolve r inner
      let following ← interpolateText r rest
      return before ++ ((value.map Value.text).getD [] ++ following)) := by
  rw [interpolateText]
  split
  next unopened => cases opened.symm.trans unopened
  next opened' =>
    cases opened.symm.trans opened'
    split
    next unclosed => cases closed.symm.trans unclosed
    next closed' =>
      cases closed.symm.trans closed'
      rfl

theorem interpolate_of_unopened {r : Resolver} {text : String}
    (h : cut? ['{', '{'] text.toList = none) : interpolate r text = pure text := by
  unfold interpolate
  rw [interpolateText_of_unopened h, pure_bind, String.ofList_toList]

section Texts

variable {r r' : Resolver}
  (hresolve : ∀ expression, Likewise accord (resolve r expression) (resolve r' expression))

include hresolve

theorem likewise_interpolateText (text : List Char) :
    Likewise accord (interpolateText r text) (interpolateText r' text) := by
  induction text using interpolateText.induct with
  | case1 text unopened =>
      rw [interpolateText_of_unopened unopened, interpolateText_of_unopened unopened]
      exact likewise_pure text
  | case2 text before after opened unclosed =>
      rw [interpolateText_of_unclosed opened unclosed, interpolateText_of_unclosed opened unclosed]
      exact likewise_pure text
  | case3 text before after opened inner rest closed ih =>
      rw [interpolateText_of_closed opened closed, interpolateText_of_closed opened closed]
      exact (hresolve inner).bind fun _ => ih.bind fun _ => likewise_pure _

theorem likewise_interpolate (text : String) :
    Likewise accord (interpolate r text) (interpolate r' text) :=
  (likewise_interpolateText hresolve _).bind fun _ => likewise_pure _

theorem likewise_parameterValue (parameter : Markup.Parameter) :
    Likewise accord (parameterValue r parameter) (parameterValue r' parameter) := by
  have hgiven : Likewise accord (givenValue r parameter.value) (givenValue r' parameter.value) := by
    unfold givenValue
    dsimp only
    split
    · exact likewise_pure _
    · split
      next inner _ => exact (hresolve inner).bind fun _ => likewise_pure _
      next =>
        split
        · exact (likewise_interpolateText hresolve _).bind fun _ => likewise_pure _
        · split
          · exact (hresolve _).bind fun _ => likewise_pure _
          · exact likewise_pure _
  unfold parameterValue
  refine hgiven.bind fun value => ?_
  split
  · split
    next => exact likewise_pure _
    next default _ => exact (likewise_interpolate hresolve default).bind fun _ => likewise_pure _
  · exact likewise_pure _

end Texts

end Stencil.Resolver
