import Stencil.Markup.Stack
import Stencil.Render.Part

/-!
Rendering of trees. A node renders by the step of its kind, made from the steps of its children; the
bodies of fragments and the trees of components and layouts are entered from it. How often they can
still be entered is part of the recursion, so every render ends: a component or layout may stand
inside another one as often as the limit of inclusions allows, and a fragment may be called inside
another call as often as the limit of calls allows.
-/

namespace Stencil.Render

open Markup

/-- The ways into a fragment's body and into another tree. There is none when its limit is reached. -/
structure Entrances (σ : Type) where
  body : Option (List Node → Render σ String)
  tree : Option (Tree → Render σ String)

variable {σ : Type} (renderer : Renderer σ) (entrances : Entrances σ)

mutual

/-- The output of a node. -/
def ofNode : Node → Render σ String
  | .text source => return source
  | .interpolation expression => interpolation renderer expression
  | .container _ _ children => ofNodes children
  | .conditional branches none => conditional renderer (return "") (ofBodies branches)
  | .conditional branches (some otherwise) =>
      conditional renderer (ofNodes otherwise) (ofBodies branches)
  | .loop item collection children => loop renderer item collection (ofNodes children)
  | .component head defaultSlot slots =>
      component renderer entrances.tree head
        ((if defaultSlot.isEmpty then [] else [(defaultSlotName, ofNodes defaultSlot)]) ++
          ofBodies slots)
  | .layout name children => layout renderer entrances.tree name (ofNodes children)
  | .sectionContent name children => sectionContent name (ofNodes children)
  | .sectionPlace name required default => sectionPlace name required (ofNodes default)
  | .bodyPlace => bodyPlace
  | .slotPlace name default => slotPlace name (ofNodes default)
  | .fragment _ _ => return ""
  | .call name parameters => call renderer entrances.body name parameters

/-- The outputs of nodes, one after another. -/
def ofNodes : List Node → Render σ String
  | [] => return ""
  | node :: rest => do
      let first ← ofNode node
      let others ← ofNodes rest
      return first ++ others

/-- The steps that render named bodies. -/
def ofBodies : List (String × List Node) → List (String × Render σ String)
  | [] => []
  | (name, body) :: rest => (name, ofNodes body) :: ofBodies rest

end

/-- The entrances that are left when this many inclusions and calls may still be opened inside one
another. -/
def entrancesLeft (inclusions calls : Nat) : Entrances σ :=
  let body :=
    match calls with
    | 0 => none
    | calls + 1 => some fun body => ofNodes renderer (entrancesLeft inclusions calls) body
  let tree :=
    match inclusions with
    | 0 => none
    | inclusions + 1 =>
        some fun (tree : Tree) => ofNodes renderer (entrancesLeft inclusions calls) tree.children
  ⟨body, tree⟩
termination_by (inclusions, calls)

/-- The output of a tree, with all that its limits allow. -/
def ofTree (tree : Tree) : Render σ String :=
  let limits := renderer.security.limits
  ofNodes renderer (entrancesLeft renderer limits.includeDepth limits.recursionDepth) tree.children

/-- What a render leaves: its output or a fault, and what of the frame lasts. -/
structure Outcome (σ : Type) where
  output : Except Fault String
  store : Variables
  memory : Memory
  loaded : σ

/-- Renders a tree with variables and with a store that the host program may change. -/
def run (tree : Tree) (vars store : Variables) (memory : Memory) (loaded : σ) : Outcome σ :=
  let (output, frame) :=
    ofTree renderer tree (Scope.of tree) { vars, store, memory, loaded }
  ⟨output, frame.store, frame.memory, frame.loaded⟩

end Stencil.Render
