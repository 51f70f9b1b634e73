import Mathlib.Data.List.InsertIdx
import Stencil.Proofs.EncodedOutput
import Stencil.Proofs.Markup.Nodes
import Stencil.Proofs.Rendering.Scopes

/-!
Where a fragment is defined does not matter. A definition renders nothing where it stands, and calls find it by
its name alone. So a definition at the top of a page may stand anywhere else there, as long as every name is
still defined first by the same node.
-/

namespace Stencil

open Markup

namespace Markup

/-- Whether a node defines the fragment of a name, whatever the case of its letters. -/
def Node.defines (name : String) : Node → Bool
  | .fragment other _ => Text.lowercase name == Text.lowercase other
  | _ => false

/-- The body of a definition. -/
def Node.definedBody? : Node → Option (List Node)
  | .fragment _ body => some body
  | _ => none

/-- The definition that comes first of those that nodes have of a name, at any depth. -/
def firstDefinition? (nodes : List Node) (name : String) : Option Node :=
  (preorder nodes).find? (Node.defines name)

end Markup

namespace Render

variable {σ : Type}

/-- A call finds the body of the first definition. -/
theorem lookup_fragments (nodes : List Node) (name : String) :
    (Scope.of (Tree.ofNodes nodes)).fragments.lookup (Text.lowercase name) =
      (firstDefinition? nodes name).bind Node.definedBody? := by
  unfold Scope.of Tree.ofNodes firstDefinition?
  dsimp only
  induction preorder nodes with
  | nil => rfl
  | cons node rest ih =>
      cases node with
      | fragment other body =>
          change List.lookup _ ((Text.lowercase other, body) :: _) = _
          rw [List.lookup_cons, List.find?_cons, Node.defines]
          cases Text.lowercase name == Text.lowercase other with
          | true => rfl
          | false => exact ih
      | _ => exact ih

/-- The scopes of two trees in which each name is defined first by the same node. -/
theorem alike_of_firstDefinition {first second : List Node}
    (h : ∀ name, firstDefinition? first name = firstDefinition? second name) :
    (Scope.of (Tree.ofNodes first)).Alike (Scope.of (Tree.ofNodes second)) where
  fragments name := by rw [lookup_fragments, lookup_fragments, h]
  sections := rfl
  body := rfl
  slots := rfl

/-- A definition renders nothing where it stands. -/
theorem ofNodes_insertIdx (renderer : Renderer σ) (entrances : Entrances σ) (name : String) (body : List Node)
    (place : Nat) (nodes : List Node) :
    ofNodes renderer entrances (nodes.insertIdx place (.fragment name body)) =
      ofNodes renderer entrances nodes := by
  have hdefinition (rest : List Node) :
      ofNodes renderer entrances (.fragment name body :: rest) = ofNodes renderer entrances rest := by
    simp only [ofNodes, ofNode, pure_bind, String.empty_append, bind_pure]
  induction nodes generalizing place with
  | nil =>
      cases place with
      | zero => exact hdefinition []
      | succ place => rw [List.insertIdx_succ_nil]
  | cons node rest ih =>
      cases place with
      | zero => exact hdefinition _
      | succ place => rw [List.insertIdx_succ_cons, ofNodes, ih, ofNodes]

/-- A page renders as it does with one of its definitions moved to another place at its top. Calls may stand in
front of what they call, and definitions may call themselves and one another. -/
theorem run_moved_definition (renderer : Renderer σ) {nodes moved : List Node} {source target : Nat}
    {name : String} {body : List Node} (hsource : nodes[source]? = some (.fragment name body))
    (hmoved : moved = (nodes.eraseIdx source).insertIdx target (.fragment name body))
    (hfirst : ∀ called, firstDefinition? moved called = firstDefinition? nodes called)
    (vars store : Variables) (memory : Memory) (loaded : σ) :
    run renderer (Tree.ofNodes moved) vars store memory loaded =
      run renderer (Tree.ofNodes nodes) vars store memory loaded := by
  have hback : (nodes.eraseIdx source).insertIdx source (.fragment name body) = nodes := by
    obtain ⟨hlt, hnode⟩ := List.getElem?_eq_some_iff.1 hsource
    rw [← hnode]
    exact List.insertIdx_eraseIdx_getElem hlt
  have hnodes (entrances : Entrances σ) :
      ofNodes renderer entrances moved = ofNodes renderer entrances nodes :=
    calc ofNodes renderer entrances moved = ofNodes renderer entrances (nodes.eraseIdx source) := by
          rw [hmoved, ofNodes_insertIdx]
      _ = ofNodes renderer entrances ((nodes.eraseIdx source).insertIdx source (.fragment name body)) :=
          (ofNodes_insertIdx ..).symm
      _ = ofNodes renderer entrances nodes := by rw [hback]
  have hscopes := sameIn_entrancesLeft renderer (alike_of_firstDefinition hfirst)
    renderer.security.limits.includeDepth renderer.security.limits.recursionDepth nodes
  have htree : ofTree renderer (Tree.ofNodes moved) (Scope.of (Tree.ofNodes moved)) =
      ofTree renderer (Tree.ofNodes nodes) (Scope.of (Tree.ofNodes nodes)) :=
    (congrFun (hnodes _) _).trans hscopes
  unfold run
  rw [htree]

/-- A page that calls a fragment before it is defined. Two fragments call one another. -/
def turns : List Node := [
  .call "EVEN" [],
  .fragment "even" [.conditional [("More", [.call "odd" []])] none],
  .fragment "Odd" [.text "!", .call "even" []],
  .fragment "ODD" [.text "?"]]

/-- The same page with the first fragment behind the others. -/
def turned : List Node := [
  .call "EVEN" [],
  .fragment "Odd" [.text "!", .call "even" []],
  .fragment "ODD" [.text "?"],
  .fragment "even" [.conditional [("More", [.call "odd" []])] none]]

theorem firstDefinition?_turned (called : String) :
    firstDefinition? turned called = firstDefinition? turns called := by
  have heven : Text.lowercase "even" = "even" := by decide
  have hodd : Text.lowercase "Odd" = "odd" := by decide
  have hodd' : Text.lowercase "ODD" = "odd" := by decide
  simp only [firstDefinition?, turned, turns, preorder, preorderOfBodies, Node.inside, List.find?_cons,
    Node.defines, heven, hodd, hodd', List.append_nil, List.nil_append, List.cons_append, List.find?_nil]
  by_cases hcalled : Text.lowercase called = "even"
  · rw [hcalled]
    rfl
  · rw [beq_false_of_ne hcalled]

theorem run_moved_definition_turned :
    turns[1]? = some (.fragment "even" [.conditional [("More", [.call "odd" []])] none]) ∧
      turned = (turns.eraseIdx 1).insertIdx 3
        (.fragment "even" [.conditional [("More", [.call "odd" []])] none]) ∧
      (∀ called, firstDefinition? turned called = firstDefinition? turns called) ∧
      run greeter (Tree.ofNodes turned) (.ofList [("More", .bool true)]) {} {} () =
        run greeter (Tree.ofNodes turns) (.ofList [("More", .bool true)]) {} {} () := by
  have hsource : turns[1]? = some (.fragment "even" [.conditional [("More", [.call "odd" []])] none]) := rfl
  have hmoved : turned = (turns.eraseIdx 1).insertIdx 3
      (.fragment "even" [.conditional [("More", [.call "odd" []])] none]) := rfl
  exact ⟨hsource, hmoved, firstDefinition?_turned,
    run_moved_definition greeter hsource hmoved firstDefinition?_turned _ _ _ _⟩

end Render

end Stencil
