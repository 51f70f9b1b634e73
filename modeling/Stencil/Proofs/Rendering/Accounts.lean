import Stencil.Proofs.Rendering.Slots

/-!
Accounts of what children give while the sections in them are collected: texts that stay where they are, and
sections, each when it is finished. An account follows the steps of a render through containers, conditionals,
loops, calls and the contents of slots. A layout inside them, and the template of a component, is in it only
with its output.
-/

namespace Stencil.Render

open Markup

variable {σ α β : Type}

/-- What children give: a text that stays in their output, or a section that is finished, by its name in lower
case. -/
inductive Product where
  | text (content : String)
  | finished (name content : String)

def Product.shown : Product → String
  | .text content => content
  | .finished _ _ => ""

def Product.section? : Product → Option (String × String)
  | .text _ => none
  | .finished name content => some (name, content)

/-- The output that is left when every section contributes nothing. -/
def remaining (products : List Product) : String := String.join (products.map Product.shown)

/-- The sections that are finished, in this order. -/
def finished (products : List Product) : List (String × String) := products.filterMap Product.section?

@[simp] theorem remaining_text (content : String) : remaining [.text content] = content := by
  simp [remaining, Product.shown]

@[simp] theorem remaining_append (first second : List Product) :
    remaining (first ++ second) = remaining first ++ remaining second := by
  simp [remaining, String.join_append]

@[simp] theorem finished_append (first second : List Product) :
    finished (first ++ second) = finished first ++ finished second :=
  List.filterMap_append

/-- Sections with those that are finished later. Of one name the first counts. -/
def gathered (later sections : List (String × String)) : List (String × String) :=
  later.foldl (fun sections entry => addSection entry.1 entry.2 sections) sections

@[simp] theorem map_gathered_nil (sections : Option (List (String × String))) :
    sections.map (gathered []) = sections :=
  congrFun Option.map_id sections

theorem gathered_append (first second : List (String × String)) :
    gathered (first ++ second) = gathered second ∘ gathered first :=
  funext fun _ => List.foldl_append

theorem lookup_addSection (name content key : String) (sections : List (String × String)) :
    (addSection name content sections).lookup key =
      (sections.lookup key).or ([(name, content)].lookup key) := by
  unfold addSection
  split
  next hbound =>
    by_cases hkey : key = name
    · rw [hkey]
      exact (Option.or_of_isSome hbound).symm
    · rw [List.lookup_cons, beq_eq_false_iff_ne.2 hkey]
      exact Option.or_none.symm
  next => exact List.lookup_append

/-- What is found is what was there, and else what is finished first. -/
theorem lookup_gathered (later sections : List (String × String)) (key : String) :
    (gathered later sections).lookup key = (sections.lookup key).or (later.lookup key) := by
  induction later generalizing sections with
  | nil => exact Option.or_none.symm
  | cons entry rest ih =>
      have hentry : ([entry] ++ rest).lookup key = ([entry].lookup key).or (rest.lookup key) :=
        List.lookup_append
      change (gathered rest (addSection entry.1 entry.2 sections)).lookup key = _
      rw [ih, lookup_addSection, Option.or_assoc, ← hentry]
      rfl

/-- What a step gives in a scope from a frame, as far as it comes. -/
abbrev Account (σ : Type) := Scope → Frame σ → List Product

namespace Account

/-- Nothing is given. -/
def nothing : Account σ := fun _ _ => []

/-- What is given behind a step that gives nothing itself. -/
def behind (step : Render σ α) (next : α → Account σ) : Account σ := fun scope frame =>
  match step scope frame with
  | (.ok value, after) => next value scope after
  | (.error _, _) => []

/-- A step that gives its output and nothing else. -/
def whole (step : Render σ String) : Account σ := behind step fun output _ _ => [.text output]

/-- What a step gives, and then what the next one gives if the first has not failed. -/
def followed (account : Account σ) (step : Render σ α) (next : Account σ) : Account σ := fun scope frame =>
  account scope frame ++ behind step (fun _ => next) scope frame

/-- The sections alone, where the output is taken elsewhere. -/
def sectionsOnly (account : Account σ) : Account σ := fun scope frame =>
  (account scope frame).filter fun product => product.section?.isSome

/-- A section whose content is finished. The sections inside it are finished before it. -/
def ofSection (name : String) (content : Render σ String) (account : Account σ) : Account σ := fun scope frame =>
  account.sectionsOnly scope frame ++
    behind content (fun output _ _ => [.finished (Text.lowercase name) output]) scope frame

/-- A place that is filled gives its output alone, and another one what stands for it. -/
def ofPlace (filled : Scope → Bool) (place : Render σ String) (default : Account σ) : Account σ := fun scope =>
  if filled scope then whole place scope else default scope

variable (renderer : Renderer σ)

/-- Whether a condition is true. It is checked first. -/
def decided (condition : String) : Render σ Bool := do
  liftExcept (Gate.checkCondition renderer.security (Text.trimmed condition))
  let value ← resolve renderer condition
  return value.any Value.isTruthy

/-- The start of an iteration with its element bound. -/
def startOf (item : String) (element : Value) : Render σ Unit := do
  startIteration renderer
  modify fun frame => { frame with vars := frame.vars.insert item element }

/-- One iteration after another, up to the first that fails. -/
def ofIterations (item : String) (body : Render σ String) (account : Account σ) : List Value → Account σ
  | [] => nothing
  | element :: rest =>
      behind (startOf renderer item element) fun _ => followed account body (ofIterations item body account rest)

def ofLoop (item collection : String) (body : Render σ String) (account : Account σ) : Account σ :=
  behind (resolve renderer collection) fun value =>
    match value.bind Value.elements? with
    | none => nothing
    | some elements => behind (note .loopEntered) fun _ => ofIterations renderer item body account elements

/-- A component gives the sections in the contents of its slots and the output of all of it. Its slots are not
filled if there is no way into templates, and not before it is prepared. -/
def ofComponent (enter : Option (Tree → Render σ String)) (head : ComponentHead)
    (slots : List (String × Render σ String)) (account : Account σ) : Account σ := fun scope frame =>
  (match enter with
    | none => []
    | some _ => (behind (prepared renderer head) fun found =>
        if found.isSome then account else nothing).sectionsOnly scope frame) ++
    whole (component renderer enter head slots) scope frame

/-- The start of a call with its parameters bound. -/
def openingOf (parameters : List Parameter) : Render σ Unit := do
  modify fun frame => { frame with calls := frame.calls + 1 }
  note (.called (← get).calls)
  let values ← parameterValues renderer parameters
  modify fun frame => { frame with vars := frame.vars.extend (Variables.ofList values) }

/-- A call gives what the body of the fragment gives. -/
def ofCall (enter : Option (List Node → Render σ String)) (bodies : Option (List Node → Account σ))
    (name : String) (parameters : List Parameter) : Account σ := fun scope frame =>
  match scope.fragments.lookup (Text.lowercase name), bodies with
  | some body, some account => behind (openingOf renderer parameters) (fun _ => account body) scope frame
  | _, _ => whole (call renderer enter name parameters) scope frame

end Account

open Account

variable (renderer : Renderer σ) (entrances : Entrances σ) (bodies : Option (List Node → Account σ))

mutual

/-- What a node gives, if the bodies of fragments give what is told of them. -/
def accountOf : Node → Account σ
  | .container _ _ children => accountOfNodes children
  | .conditional branches none => accountOfArms nothing branches
  | .conditional branches (some otherwise) => accountOfArms (accountOfNodes otherwise) branches
  | .loop item collection children =>
      ofLoop renderer item collection (ofNodes renderer entrances children) (accountOfNodes children)
  | .component head defaultSlot slots =>
      ofComponent renderer entrances.tree head (slotSteps renderer entrances defaultSlot slots)
        (followed (accountOfNodes defaultSlot) (ofNodes renderer entrances defaultSlot) (accountOfSlots slots))
  | .sectionContent name children =>
      ofSection name (ofNodes renderer entrances children) (accountOfNodes children)
  | .sectionPlace name required default =>
      ofPlace (fun scope => (scope.sections.lookup (Text.lowercase name)).isSome || required)
        (sectionPlace name required (ofNodes renderer entrances default)) (accountOfNodes default)
  | .slotPlace name default =>
      ofPlace (fun scope => (scope.slots.lookup (Text.lowercase name)).isSome)
        (slotPlace name (ofNodes renderer entrances default)) (accountOfNodes default)
  | .call name parameters => ofCall renderer entrances.body bodies name parameters
  | .text source => whole (return source)
  | .interpolation expression => whole (interpolation renderer expression)
  | .layout name children => whole (layout renderer entrances.tree name (ofNodes renderer entrances children))
  | .bodyPlace => whole bodyPlace
  | .fragment _ _ => nothing

/-- What nodes give, one after another, up to the first that fails. -/
def accountOfNodes : List Node → Account σ
  | [] => nothing
  | node :: rest => followed (accountOf node) (ofNode renderer entrances node) (accountOfNodes rest)

/-- What the first arm gives whose condition is true, or else what stands for none. -/
def accountOfArms (otherwise : Account σ) : List (String × List Node) → Account σ
  | [] => otherwise
  | (condition, body) :: rest =>
      behind (decided renderer condition) fun holds =>
        if holds then accountOfNodes body else accountOfArms otherwise rest

/-- What the contents of slots give, one after another. -/
def accountOfSlots : List (String × List Node) → Account σ
  | [] => nothing
  | (_, body) :: rest => followed (accountOfNodes body) (ofNodes renderer entrances body) (accountOfSlots rest)

end

/-- What the bodies of fragments give while this many calls may be opened inside one another. -/
def bodyAccounts (renderer : Renderer σ) (inclusions : Nat) : Nat → Option (List Node → Account σ)
  | 0 => none
  | calls + 1 =>
      some (accountOfNodes renderer (entrancesLeft renderer inclusions calls)
        (bodyAccounts renderer inclusions calls))

/-- What nodes give with this many inclusions and calls left. -/
def account (renderer : Renderer σ) (inclusions calls : Nat) : List Node → Account σ :=
  accountOfNodes renderer (entrancesLeft renderer inclusions calls) (bodyAccounts renderer inclusions calls)

end Stencil.Render
