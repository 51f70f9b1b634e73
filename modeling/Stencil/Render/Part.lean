import Stencil.Render.Frame

/-!
The steps that render the parts of a template, each made from the steps that render what is inside
the part. A step that enters a fragment or another template gets the way in from outside; there is no
way in when a limit is reached.
-/

namespace Stencil.Render

open Markup

variable {σ : Type} (renderer : Renderer σ)

/-- An interpolated value, encoded. -/
def interpolation (expression : String) : Render σ String := do
  match ← resolve renderer expression with
  | some value => return Gate.encodeOutput renderer.security.encoding value.display
  | none => return ""

/-- The first arm whose condition is true, or else what stands for none. Conditions are checked one
by one as they are reached. -/
def conditional (otherwise : Render σ String) :
    List (String × Render σ String) → Render σ String
  | [] => otherwise
  | (condition, body) :: rest => do
      liftExcept (Gate.checkCondition renderer.security (Text.trimmed condition))
      let value ← resolve renderer condition
      if value.any Value.isTruthy then body else conditional otherwise rest

/-- Counts one more iteration among those of all open loops. -/
def startIteration : Render σ Unit := do
  let count := (← get).iterations + 1
  let limit := renderer.security.limits.loopIterations
  if limit < count then throw (.limitExceeded .loopIterations limit count)
  modify fun frame => { frame with iterations := count }
  note (.iteration count)

/-- The frame when a loop over an item is left: its variable and its iterations are put back. The
variable may be spelled differently where it was bound before. -/
def leaveLoop (item : String) (before after : Frame σ) : Frame σ :=
  { after with
    vars := after.vars.restore item (before.vars.get? item)
    iterations := before.iterations
    memory := { after.memory with trail := .loopLeft before.iterations :: after.memory.trail } }

/-- One body per element of a collection, with the element bound. What has no elements renders as
nothing. -/
def loop (item collection : String) (body : Render σ String) : Render σ String := do
  match (← resolve renderer collection).bind Value.elements? with
  | none => return ""
  | some elements =>
      keeping (leaveLoop item) do
        note .loopEntered
        let pieces ← elements.mapM fun element => do
          startIteration renderer
          modify fun frame => { frame with vars := frame.vars.insert item element }
          body
        return String.join pieces

/-- The frame when a call is left: variables and open calls are put back. -/
def leaveCall (before after : Frame σ) : Frame σ :=
  { after with
    vars := before.vars
    calls := before.calls
    memory := { after.memory with trail := .callLeft before.calls :: after.memory.trail } }

/-- A call of a fragment, with its parameters bound in the body. The call counts as open before its
parameters are resolved. -/
def call (enter : Option (List Node → Render σ String)) (name : String)
    (parameters : List Parameter) : Render σ String := do
  match (← read).fragments.lookup (Text.lowercase name) with
  | none => return diagnostic ("fragment `" ++ name ++ "` is not defined")
  | some body =>
      match enter with
      | none =>
          let limit := renderer.security.limits.recursionDepth
          throw (.limitExceeded .recursionDepth limit (limit + 1))
      | some enter =>
          keeping leaveCall do
            modify fun frame => { frame with calls := frame.calls + 1 }
            note (.called (← get).calls)
            let values ← parameterValues renderer parameters
            modify fun frame =>
              { frame with vars := frame.vars.extend (Variables.ofList values) }
            enter body

/-- A step whose sections are collected, with what it renders beside them. -/
def collecting (step : Render σ String) : Render σ (String × List (String × String)) :=
  keeping (fun before after => { after with sections := before.sections }) do
    modify fun frame => { frame with sections := some [] }
    let body ← step
    return (body, (← get).sections.getD [])

/-- Sections with one more, unless there is one of its name. -/
def addSection (name content : String) (sections : List (String × String)) :
    List (String × String) :=
  if (sections.lookup name).isSome then sections else sections ++ [(name, content)]

/-- Content for a section. It renders in place where no layout collects sections. -/
def sectionContent (name : String) (content : Render σ String) : Render σ String := do
  if (← get).sections.isNone then content
  else
    let rendered ← content
    modify fun frame =>
      { frame with sections := frame.sections.map (addSection (Text.lowercase name) rendered) }
    return ""

/-- The place of a section in a layout. -/
def sectionPlace (name : String) (required : Bool) (default : Render σ String) :
    Render σ String := do
  match (← read).sections.lookup (Text.lowercase name) with
  | some content => return content
  | none =>
      if required then return diagnostic ("missing required section `" ++ name ++ "`")
      else default

/-- The place of the body in a layout. -/
def bodyPlace : Render σ String := do
  return (← read).body.getD ""

/-- The place of a slot in a component. -/
def slotPlace (name : String) (default : Render σ String) : Render σ String := do
  match (← read).slots.lookup (Text.lowercase name) with
  | some content => return content
  | none => default

/-- Children in a layout. Without a layout of the name the children stand alone. -/
def layout (enter : Option (Tree → Render σ String)) (name : String)
    (children : Render σ String) : Render σ String := do
  let name ← interpolate renderer name
  let (body, sections) ← collecting children
  match if name.isEmpty then none else some name with
  | none => return body
  | some name =>
      match ← load renderer name with
      | none => return body
      | some tree =>
          match enter with
          | none =>
              let depth := toString renderer.security.limits.includeDepth
              return diagnostic
                ("layout `" ++ name ++ "` exceeds the maximum include depth of " ++ depth) ++ body
          | some enter =>
              let scope := { Scope.of tree with sections, body := some body }
              inside scope (← get).vars (enter tree)

/-- The names of the variables that tell a component about itself. -/
def technicalNames : List String := ["_ComponentName", "_ComponentOldName", "_ComponentPath"]

/-- A text as a value; a missing one is null. -/
def optionalText : Option String → Value
  | some text => .string text
  | none => .null

/-- The variables of a component: those of its surroundings, then what tells it about itself, then
what the host program changed, then its parameters. -/
def componentVariables (surroundings changed : Variables) (descriptor : Descriptor)
    (values : List (String × Value)) : Variables :=
  let own := surroundings.filter fun name _ => !technicalNames.any (Text.sameName · name)
  let technical := Variables.ofList [
    ("_ComponentName", optionalText descriptor.name),
    ("_ComponentOldName", optionalText descriptor.oldName),
    ("_ComponentPath", .string descriptor.path)]
  Variables.layered [own, technical, changed, Variables.ofList values]

/-- Tells the host program of a component; the answer is what it changes in the store. -/
def announce (descriptor : Descriptor) : Render σ Variables := do
  match renderer.hooks.before with
  | none => return {}
  | some before =>
      note (.announced descriptor)
      let frame ← get
      let store := before descriptor frame.store
      set { frame with store }
      return store.changedSince frame.store

/-- The contents of slots in order, by their names in lower case; a later one counts first. -/
def slotContents (slots : List (String × Render σ String)) : Render σ (List (String × String)) := do
  let contents ← slots.mapM fun (name, content) => do
    let rendered ← content
    return (Text.lowercase name, rendered)
  return contents.reverse

/-- A component rendered in its own template. Parameters and slots belong to the surroundings; a
parameter that the host program has just changed is not resolved. The store is put back afterwards. -/
def inclusion (enter : Tree → Render σ String) (head : ComponentHead)
    (slots : List (String × Render σ String)) : Render σ String :=
  keeping (fun before after => { after with store := before.store }) do
    let path ← interpolate renderer head.path
    let name ← head.name.mapM (interpolate renderer)
    let oldName ← head.oldName.mapM (interpolate renderer)
    let descriptor : Descriptor := ⟨name, oldName, path, head.parameters⟩
    let changed ← announce renderer descriptor
    match ← load renderer path with
    | none => return ""
    | some tree =>
        let values ← parameterValues renderer
          (head.parameters.filter fun parameter => !changed.contains parameter.name)
        let vars := componentVariables (← get).vars changed descriptor values
        let contents ← slotContents slots
        let output ← inside { Scope.of tree with slots := contents } vars (enter tree)
        return match renderer.hooks.after with
          | some after => after descriptor output
          | none => output

/-- A component. A fault inside it becomes a comment in its place. -/
def component (enter : Option (Tree → Render σ String)) (head : ComponentHead)
    (slots : List (String × Render σ String)) : Render σ String :=
  match enter with
  | none =>
      let depth := toString renderer.security.limits.includeDepth
      return diagnostic
        ("component `" ++ head.path ++ "` exceeds the maximum include depth of " ++ depth)
  | some enter =>
      tryCatch (inclusion renderer enter head slots) fun fault =>
        return diagnostic ("component `" ++ head.path ++ "` failed: " ++ fault.message)

end Stencil.Render
