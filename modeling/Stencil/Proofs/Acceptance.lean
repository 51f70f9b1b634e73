import Stencil.Gate.Expression
import Stencil.Gate.Template

/-!
When text passes the gate. Template text keeps the three limits, and it has no inline script unless
these are allowed; an expression keeps its limit and has none of the flaws that are looked for.
-/

namespace Stencil.Gate

theorem accepted_iff {security : Security} {source : String} :
    checkTemplate security source = .ok () ↔
      source.utf8ByteSize ≤ security.limits.templateSize ∧
      countOpenings source.toList ≤ security.limits.interpolations ∧
      nestingDepth source.toList ≤ security.limits.nestingDepth ∧
      (security.allowInlineScripts = true ∨ inlineScript? source.toList = none) := by
  unfold checkTemplate
  dsimp only
  split
  next hsize => exact iff_of_false (fun h => nomatch h) fun h => absurd h.1 (Nat.not_le_of_lt hsize)
  next hsize =>
    rw [Nat.not_lt] at hsize
    split
    next hopenings =>
      exact iff_of_false (fun h => nomatch h) fun h => absurd h.2.1 (Nat.not_le_of_lt hopenings)
    next hopenings =>
      rw [Nat.not_lt] at hopenings
      split
      next hdepth =>
        exact iff_of_false (fun h => nomatch h) fun h => absurd h.2.2.1 (Nat.not_le_of_lt hdepth)
      next hdepth =>
        rw [Nat.not_lt] at hdepth
        split
        next hallowed => exact iff_of_true rfl ⟨hsize, hopenings, hdepth, Or.inl hallowed⟩
        next hforbidden =>
          cases inlineScript? source.toList with
          | none => exact iff_of_true rfl ⟨hsize, hopenings, hdepth, Or.inr rfl⟩
          | some fragment =>
              refine iff_of_false (fun h => nomatch h) fun h => ?_
              rcases h.2.2.2 with hallowed | hnone
              · exact absurd hallowed hforbidden
              · cases hnone

/-- What is known of an expression that the gate accepts. -/
structure IsClean (security : Security) (expression : List Char) : Prop where
  fragments : deniedFragment? expression = none
  queries : queryPattern.find? expression = none
  types : typePattern.find? expression = none
  calls : call? security (blankQuoted expression) = none
  indexers : security.allowIndexers = true ∨ '[' ∉ blankQuoted expression

theorem isClean_of_accepted {security : Security} {expression : String}
    (accepted : checkExpression security expression = .ok ()) : IsClean security expression.toList := by
  have hflaw : expressionFlaw? security expression.toList = none := by
    unfold checkExpression at accepted
    split at accepted
    · cases accepted
    · split at accepted
      next => cases accepted
      next hnone => exact hnone
  unfold expressionFlaw? at hflaw
  dsimp only at hflaw
  split at hflaw
  · cases hflaw
  · simp only [Option.or_eq_none_iff, Option.map_eq_none_iff] at hflaw
    obtain ⟨⟨⟨⟨hfragments, hqueries⟩, htypes⟩, hcalls⟩, hindexers⟩ := hflaw
    refine ⟨hfragments, hqueries, htypes, hcalls, ?_⟩
    cases hallowed : security.allowIndexers with
    | true => exact Or.inl rfl
    | false =>
        refine Or.inr fun hmem => ?_
        rw [hallowed, List.contains_iff_mem.2 hmem] at hindexers
        cases hindexers

end Stencil.Gate
