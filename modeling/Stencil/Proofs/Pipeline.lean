import Stencil.Proofs.Resolution.Operand

/-!
Pipelines of filters. A value goes through the filters of a pipeline from left to right, and each
filter gets the values of its arguments, resolved when its turn comes. A pipeline is read so unless
its text as a whole is the name of a variable or starts with an indexed target.
-/

namespace Stencil

open Text Reference

namespace Reference

/-- The head of a pipeline and the filters behind it. -/
structure Pipeline where
  head : Operand
  uses : List FilterUse
  wellFormed : head.isWellFormed = true
  nonempty : uses ≠ []

def Pipeline.text (pipeline : Pipeline) : List Char := pipeline.head.text ++ usesText pipeline.uses

theorem Pipeline.isSolid_text (pipeline : Pipeline) : IsSolid pipeline.text :=
  isSolid_uses (Operand.isSolid_text pipeline.wellFormed) pipeline.uses

/-- Bars cut a pipeline into its head and the uses of its filters. -/
theorem Pipeline.segments_text (pipeline : Pipeline) :
    ∃ head filter filters, segments pipeline.text = head :: filter :: filters ∧
      trim head = pipeline.head.text ∧
      List.Forall₂ (fun segment (use : FilterUse) => trim segment = use.text) (filter :: filters)
        pipeline.uses := by
  obtain ⟨gap, segments, hsplit, hgap, hsegments⟩ :=
    segments_uses pipeline.uses (Operand.isSealed_text pipeline.wellFormed (.inl rfl))
  have hhead : trim (pipeline.head.text ++ gap) = pipeline.head.text := by
    rw [trim_append hgap, (Operand.isSolid_text pipeline.wellFormed).trim_eq]
  cases segments with
  | nil => exact absurd (List.forall₂_nil_left_iff.1 hsegments) pipeline.nonempty
  | cons filter filters => exact ⟨_, filter, filters, hsplit, hhead, hsegments⟩

/-- A pipeline whose head has an indexer is taken for an indexed target if a selector follows it. -/
theorem Pipeline.indexed?_text (pipeline : Pipeline) {place : Place}
    (hhead : pipeline.head = .ofPlace place) (indexed : place.isIndexed = true) :
    indexed? pipeline.text = none ↔ place.endsAtIndex = true := by
  have stops : goesOn (trimStart (usesText pipeline.uses)) = false := by
    rcases huses : pipeline.uses with _ | ⟨use, uses⟩
    · exact absurd huses pipeline.nonempty
    · rfl
  rw [Pipeline.text, hhead]
  exact place.indexed?_text_append indexed stops

end Reference

namespace Resolver

variable (r : Resolver)

/-- The value of an argument, resolved by itself. -/
def argumentValue (operand : Operand) : Resolving Value := do
  return (← keyValue r operand.text).unwrapQuoted

/-- A value after a filter. -/
def filtered (value : Value) (use : FilterUse) : Resolving Value := do
  let arguments ← use.arguments.mapM (argumentValue r)
  return FilterRegister.apply r.ownFilters r.sharedFilters (String.ofList use.name) value arguments

/-- What a pipeline gives to a template: the value of its head, without one layer of quotes, after
the filters from left to right. -/
def pipelineValue (pipeline : Pipeline) : Resolving (Option Value) := do
  let head ← resolveText r pipeline.head.text true
  let value ← pipeline.uses.foldlM (filtered r) (head.getD .null).unwrapQuoted
  return finished (some value)

theorem argumentValues_operands (operands : List Operand) :
    argumentValues r (operands.map Operand.text) = operands.mapM (argumentValue r) := by
  induction operands with
  | nil =>
      rw [List.map_nil, argumentValues]
      rfl
  | cons operand rest ih =>
      rw [List.map_cons, argumentValues, ih, List.mapM_cons]
      simp only [argumentValue, bind_assoc, pure_bind]

/-- Segments that are uses of filters are gone through one after the other. -/
theorem pipe_uses {segments : List (List Char)} {uses : List FilterUse}
    (h : List.Forall₂ (fun segment (use : FilterUse) => trim segment = use.text) segments uses)
    (value : Value) : pipe r value segments = uses.foldlM (filtered r) value := by
  induction h generalizing value with
  | nil => rw [pipe, List.foldlM_nil]
  | @cons segment use segments uses hsegment _ ih =>
      have hcall := use.filterCall_eq hsegment
      have hnamed : ¬ (filterCall segment).1.isEmpty = true := by
        rw [hcall, List.isEmpty_iff]
        exact use.solid.nonempty
      rw [pipe, if_neg hnamed, hcall, argumentValues_operands, List.foldlM_cons]
      simp only [filtered, bind_assoc, pure_bind, ih]

/-- A pipeline that is neither a name nor an indexed target as a whole is the left fold of its
filters over the value of its head. -/
theorem answer_pipeline {r : Resolver} (pipeline : Pipeline)
    (accepted : Gate.checkExpression r.security (String.ofList pipeline.text) = .ok ())
    (unbound : r.direct? pipeline.text = none) (unindexed : indexed? pipeline.text = none)
    (memory : Memory) :
    answer (resolve r pipeline.text) memory = answer (pipelineValue r pipeline) memory := by
  have solid := pipeline.isSolid_text
  obtain ⟨head, filter, filters, piped, hhead, hfilters⟩ := pipeline.segments_text
  have hpiped : Alike (do return finished (← resolveText r pipeline.text true))
      (pipelineValue r pipeline) := by
    rw [resolveText_piped true unindexed unbound piped, pipedValue, hhead, pipelineValue]
    simp only [pipe_uses r hfilters, bind_assoc, pure_bind, finished_present]
    refine Alike.note ?_ _
    refine (alike_resolveText r pipeline.head.text true).bind fun value => ?_
    rw [← pipe_uses r hfilters]
    exact (alike_pipe r _ _).bind fun _ => alike_pure _
  exact ((alike_resolve r solid.trim_eq solid.nonempty accepted).trans hpiped).answer_eq memory

/-- A name, a map with a name in it, and the filters that every engine has. -/
def twoNames : Resolver where
  security := {}
  host := ⟨fun _ _ => none, fun _ _ => false, fun _ _ => none⟩
  ownFilters := .builtin
  sharedFilters := {}
  vars := .ofList [("a", .string "b"), ("a | upper", .string "x"),
    ("user", .map [("name", .string "ada")])]

def inCapitals : FilterUse where
  name := "upper".toList
  arguments := []
  solid := .of_identifier (by decide)
  plain := by decide
  wellFormed := by decide

def mappedName : Pipeline where
  head := .ofPlace ⟨"user".toList, [.index (.quoted '"' "name".toList)], by decide, by decide⟩
  uses := [inCapitals]
  wellFormed := by decide
  nonempty := List.cons_ne_nil _ _

/-- With an indexer at the end of its head, a pipeline goes through its filters. -/
theorem answer_pipeline_mapped :
    Gate.checkExpression twoNames.security (String.ofList mappedName.text) = .ok () ∧
      twoNames.direct? mappedName.text = none ∧ indexed? mappedName.text = none ∧
      answer (resolve twoNames mappedName.text) {} = answer (pipelineValue twoNames mappedName) {} := by
  have accepted : Gate.checkExpression twoNames.security (String.ofList mappedName.text) = .ok () :=
    accepted_of_toBool (by decide +kernel)
  have unbound : twoNames.direct? mappedName.text = none := by rfl
  have unindexed : indexed? mappedName.text = none :=
    (mappedName.indexed?_text rfl rfl).2 rfl
  exact ⟨accepted, unbound, unindexed, answer_pipeline mappedName accepted unbound unindexed {}⟩

def plainName : Pipeline where
  head := .ofPlace ⟨['a'], [], by decide, by decide⟩
  uses := [inCapitals]
  wellFormed := by decide
  nonempty := List.cons_ne_nil _ _

/-- A variable that is named like a pipeline takes its place. -/
theorem not_answer_pipeline :
    ¬ ∀ (r : Resolver) (pipeline : Pipeline) (memory : Memory),
      Gate.checkExpression r.security (String.ofList pipeline.text) = .ok () →
      answer (resolve r pipeline.text) memory = answer (pipelineValue r pipeline) memory := by
  intro hclaim
  have accepted : Gate.checkExpression twoNames.security (String.ofList plainName.text) = .ok () :=
    accepted_of_toBool (by decide +kernel)
  have hbound : answer (resolve twoNames plainName.text) {} = .ok (some (.string "x")) := by
    have solid := plainName.isSolid_text
    have hresolve := alike_resolve twoNames solid.trim_eq solid.nonempty accepted
    have hdirect : twoNames.direct? plainName.text = some (.string "x") := by rfl
    rw [hresolve.answer_eq {}, resolveText_bound true (by decide) hdirect]
    rfl
  have hpiped : answer (pipelineValue twoNames plainName) {} = .ok (some (.string "B")) := by
    have hhead : resolveText twoNames plainName.head.text true =
        (do note (.lookup (String.ofList plainName.head.text)); return some (.string "b")) := by
      rw [resolveText_named twoNames (.inl (by decide))]
      rfl
    rw [pipelineValue, hhead]
    rfl
  have hsame := hbound.symm.trans ((hclaim twoNames plainName {} accepted).trans hpiped)
  have hletters : Value.string "x" = Value.string "B" := Option.some.inj (Except.ok.inj hsame)
  exact absurd (Value.string.inj hletters) (by decide)

end Resolver

end Stencil
