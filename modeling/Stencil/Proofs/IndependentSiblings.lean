import Stencil.Proofs.IsolatedCallbacks
import Stencil.Proofs.Rendering.Steps

/-!
Siblings render independently. What stands beside something is rendered as if it stood alone: the output of
nodes is the outputs of their parts, one after another, and nodes fail with the fault of the first part that
fails alone. No component is such a part.
-/

namespace Stencil.Render

open Markup

variable {σ : Type} {fieldsOf : String → List String} {among : σ → Prop} {renderer : Renderer σ}

section Outputs

variable (typed : renderer.Typed fieldsOf) (steady : renderer.loader.Steady among) {frame : Frame σ}
  (hframe : frame.Typed fieldsOf renderer.host among) (distinct : frame.vars.Distinct)
  (folded : frame.vars.Folded) (inclusions calls : Nat) (scope : Scope)

include typed steady hframe distinct folded

/-- Behind other nodes, nodes give what they give without them. -/
theorem output_behind (siblings nodes : List Node) :
    let entrances := entrancesLeft renderer inclusions calls
    (ofNodes renderer entrances nodes scope (ofNodes renderer entrances siblings scope frame).2).1 =
      (ofNodes renderer entrances nodes scope frame).1 := by
  intro entrances
  have hpersists := persists_ofNodes renderer inclusions calls siblings scope frame
  have htyped : (ofNodes renderer entrances siblings scope frame).2.Typed fieldsOf renderer.host among :=
    holds_ofNodes (kept_typing typed steady) siblings scope trivial (i := ()) hframe
  exact outputs_eq_of_typed typed steady htyped hframe
    (matches_of_persists distinct folded hpersists frame.persists_refl) hpersists.sections
    hpersists.iterations hpersists.calls hpersists.store inclusions calls nodes scope

end Outputs

/-- Two lists of nodes beside one another give the output of the first and then that of the second, as
rendered from the same frame; they fail with the fault of the first if it has one, and with that of the
second otherwise. Nodes fail at one of them that fails alone, and it is no component: a component gives an
output wherever it stands. -/
theorem siblings_independent (typed : renderer.Typed fieldsOf) (steady : renderer.loader.Steady among)
    {frame : Frame σ} (hframe : frame.Typed fieldsOf renderer.host among)
    (distinct : frame.vars.Distinct) (folded : frame.vars.Folded) (inclusions calls : Nat)
    (scope : Scope) :
    let entrances := entrancesLeft renderer inclusions calls
    let output (nodes : List Node) := (ofNodes renderer entrances nodes scope frame).1
    (∀ first second : List Node,
      output (first ++ second) =
          (do let text ← output first
              let more ← output second
              return text ++ more) ∧
        ((∃ text, output (first ++ second) = .ok text) ↔
          (∃ text, output first = .ok text) ∧ ∃ text, output second = .ok text)) ∧
    (∀ (nodes : List Node) (fault : Fault), output nodes = .error fault →
      ∃ before node after text, nodes = before ++ node :: after ∧ output before = .ok text ∧
        output [node] = .error fault ∧ node.componentPath? = none) ∧
    ∀ (head : ComponentHead) (defaultSlot : List Node) (slots : List (String × List Node))
      (inclusions calls : Nat) (scope : Scope) (frame : Frame σ), ∃ text,
        (ofNode renderer (entrancesLeft renderer inclusions calls) (.component head defaultSlot slots)
          scope frame).1 = .ok text := by
  intro entrances output
  have hbehind := output_behind typed steady hframe distinct folded inclusions calls scope
  refine ⟨fun first second => ?_, fun nodes fault hfault => ?_, ?_⟩
  · have hboth : output (first ++ second) = (do
        let text ← output first
        let more ← output second
        return text ++ more) := by
      have hsecond : output second = _ := (hbehind first second).symm
      rw [hsecond]
      change (ofNodes renderer entrances (first ++ second) scope frame).1 =
        ((ofNodes renderer entrances first scope frame).1 >>= _)
      rw [ofNodes_append_run]
      rcases ofNodes renderer entrances first scope frame with ⟨fault | text, after⟩
      · rfl
      · dsimp only
        cases (ofNodes renderer entrances second scope after).1 with
        | error fault => rfl
        | ok more => rfl
    refine ⟨hboth, ?_⟩
    rw [hboth]
    rcases output first with fault | text
    · exact ⟨fun ⟨_, h⟩ => (nomatch h), fun ⟨⟨_, h⟩, _⟩ => (nomatch h)⟩
    · rcases output second with fault | more
      · exact ⟨fun ⟨_, h⟩ => (nomatch h), fun ⟨_, ⟨_, h⟩⟩ => (nomatch h)⟩
      · exact ⟨fun _ => ⟨⟨text, rfl⟩, ⟨more, rfl⟩⟩, fun _ => ⟨text ++ more, rfl⟩⟩
  · obtain ⟨before, node, after, text, middle, hnodes, hbefore, hnode, hcomponent⟩ :=
      exists_failing_node renderer entrances scope frame hfault
    refine ⟨before, node, after, text, hnodes, congrArg Prod.fst hbefore, ?_, hcomponent⟩
    have hmiddle : (ofNodes renderer entrances before scope frame).2 = middle := congrArg Prod.snd hbefore
    rw [← hnode, ← hmiddle, ← ofNodes_singleton_run]
    exact (hbehind before [node]).symm
  · intro head defaultSlot slots inclusions calls scope frame
    exact exists_ofNode_component_output renderer _ scope frame head defaultSlot slots

/-- Two cards with a text between them. -/
theorem siblings_independent_cards :
    let card : Node := .component ⟨.direct, "card", none, none, []⟩ [] []
    let frame : Frame Unit := { vars := {}, store := {}, loaded := () }
    let output (nodes : List Node) : Except Fault String :=
      (ofNodes moody (entrancesLeft moody 2 1) nodes {} frame).1
    output ([card, .text "and"] ++ [card]) = do
      let text ← output [card, .text "and"]
      let more ← output [card]
      return text ++ more := by
  intro card frame output
  have steady : moody.loader.Steady fun _ => True := ⟨fun _ _ _ => trivial, fun _ _ _ _ _ => rfl⟩
  have typed : frame.Typed (fun _ => []) moody.host fun _ => True :=
    ⟨Variables.every_empty, Variables.every_empty,
      ⟨fun _ _ h => (nomatch h), fun _ _ h => (nomatch h)⟩, trivial⟩
  exact ((siblings_independent moody_typed steady typed List.nodup_nil Variables.every_empty 2 1 {}).1
    [card, .text "and"] [card]).1

end Stencil.Render
