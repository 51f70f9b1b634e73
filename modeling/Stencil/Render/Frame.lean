import Stencil.Gate.Escape
import Stencil.Reference.Parameter

/-!
The setting of a render: what stays the same during it, what a body sees of the template around it,
and the frame that changes as it goes on. Whatever part of the frame a step changes for a while it
puts back by `keeping`, whether the step succeeds or fails.
-/

namespace Stencil

open Markup

/-- Gives the trees of components and layouts by their paths. A path without a tree renders as
nothing. The loader keeps a state of its own. -/
structure Loader (σ : Type) where
  load : String → ExceptT Fault (StateM σ) (Option Tree)

/-- What the host program does around an inclusion: change variables of the store before it, and
replace the output after it. -/
structure Hooks where
  before : Option (Descriptor → Variables → Variables) := none
  after : Option (Descriptor → String → String) := none

/-- What stays the same during a render. -/
structure Renderer (σ : Type) where
  security : Security
  host : Host
  ownFilters : FilterRegister
  sharedFilters : FilterRegister
  loader : Loader σ
  hooks : Hooks

/-- What a body sees of the template around it. Names are in lower case. -/
structure Scope where
  /-- The bodies of the fragments that can be called. -/
  fragments : List (String × List Node) := []
  /-- The sections and the body that a layout places. -/
  sections : List (String × String) := []
  body : Option String := none
  /-- The slots that a component places. -/
  slots : List (String × String) := []

/-- The scope inside a tree. Every fragment in the tree can be called from anywhere in it; of two
with one name the first counts. -/
def Scope.of (tree : Tree) : Scope where
  fragments := (preorder tree.children).filterMap fun
    | .fragment name body => some (Text.lowercase name, body)
    | _ => none

/-- What changes during a render. -/
structure Frame (σ : Type) where
  vars : Variables
  /-- The sections collected for the layout around, while its children are rendered. -/
  sections : Option (List (String × String)) := none
  /-- The iterations that the open loops have started. -/
  iterations : Nat := 0
  /-- The calls of fragments that are open. -/
  calls : Nat := 0
  /-- The variables that the host program may change before an inclusion. -/
  store : Variables
  memory : Memory := {}
  /-- The state of the loader. -/
  loaded : σ

/-- A step of a render: it gives a fault or an answer and leaves a frame. -/
abbrev Render (σ : Type) := ReaderT Scope (ExceptT Fault (StateM (Frame σ)))

namespace Render

variable {σ : Type} {α : Type}

/-- A step after which part of the frame is put back from the frame before it, however it ends. -/
def keeping (restore : Frame σ → Frame σ → Frame σ) (step : Render σ α) : Render σ α :=
  fun scope frame =>
    let (outcome, after) := step scope frame
    (outcome, restore frame after)

/-- Adds an event to the trail. -/
def note (event : Event) : Render σ Unit :=
  modify fun frame =>
    { frame with memory := { frame.memory with trail := event :: frame.memory.trail } }

/-- A resolution against the variables of the frame. -/
def resolving (renderer : Renderer σ) (resolution : Resolver → Resolving α) : Render σ α :=
  fun _ frame =>
    let resolver : Resolver :=
      ⟨renderer.security, renderer.host, renderer.ownFilters, renderer.sharedFilters,
        frame.vars⟩
    let (outcome, memory) := resolution resolver frame.memory
    (outcome, { frame with memory })

/-- The value of an expression. -/
def resolve (renderer : Renderer σ) (expression : String) : Render σ (Option Value) :=
  resolving renderer fun resolver => resolver.resolve expression.toList

/-- A text with its interpolations replaced. -/
def interpolate (renderer : Renderer σ) (text : String) : Render σ String :=
  resolving renderer fun resolver => resolver.interpolate text

/-- The names and values of parameters. -/
def parameterValues (renderer : Renderer σ) (parameters : List Parameter) :
    Render σ (List (String × Value)) :=
  parameters.mapM fun parameter => do
    let value ← resolving renderer fun resolver => resolver.parameterValue parameter
    return (parameter.name, value)

/-- The tree at a path, if there is one. -/
def load (renderer : Renderer σ) (path : String) : Render σ (Option Tree) := fun _ frame =>
  let (outcome, loaded) := renderer.loader.load path frame.loaded
  (outcome, { frame with loaded })

/-- Another template rendered with a scope and variables of its own, its sections left to itself. -/
def inside (scope : Scope) (vars : Variables) (step : Render σ α) : Render σ α := fun _ frame =>
  let (outcome, after) := step scope { frame with vars, sections := none }
  (outcome, { after with vars := frame.vars, sections := frame.sections })

/-- The comment that tells of a problem in the output. -/
def diagnostic (message : String) : String :=
  "<!-- tessera: " ++ String.ofList (Gate.escapeHtml message.toList) ++ " -->"

end Render

end Stencil
