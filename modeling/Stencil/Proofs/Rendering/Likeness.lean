import Stencil.Proofs.Rendering.Steps
import Stencil.Proofs.Resolution.Likeness
import Stencil.Proofs.Resolution.Path
import Stencil.Render.Tree

/-!
Two renders that go alike although variables, remembered decisions or loaders differ. A likeness says
which of these count as alike; a render keeps it step by step, so that it gives the same output on both
sides. What the first render decides and loads may be known beforehand, and then a step may count on all
that the render still comes to. On the way it turns out that a render leaves the store of the host
program as it was: a callback changes it for one inclusion only. There is one rule for each way in which
steps are put together.
-/

namespace Stencil

open Markup

/-- The resolver of a renderer for a store of variables. -/
def Renderer.resolver {σ : Type} (renderer : Renderer σ) (vars : Variables) : Resolver :=
  ⟨renderer.security, renderer.host, renderer.ownFilters, renderer.sharedFilters, vars⟩

/-- What counts as alike in two renders: the variables of the frames, the decisions remembered, and the
states of the loaders. -/
structure Likeness (σ τ : Type) where
  vars : Variables → Variables → Prop
  accord : Resolver.Accord
  loaded : σ → τ → Prop
  /-- The states that the first loader may come to. -/
  reached : σ → Prop

namespace Likeness

variable {σ τ α β : Type} (like : Likeness σ τ)

/-- Two renderers keep a likeness: what they resolve and load is alike, and the stores of variables
that they make of alike ones are alike. -/
structure Holds (renderer : Renderer σ) (other : Renderer τ) : Prop where
  security : renderer.security = other.security
  hooks : renderer.hooks = other.hooks
  resolve : ∀ {vars vars'}, like.vars vars vars' → ∀ expression,
    Resolver.Likewise like.accord (Resolver.resolve (renderer.resolver vars) expression)
      (Resolver.resolve (other.resolver vars') expression)
  /-- Variables need no likeness on the other side for decisions to be admitted. -/
  own : ∀ vars expression,
    Resolver.Likewise like.accord (Resolver.resolve (renderer.resolver vars) expression)
      (Resolver.resolve (renderer.resolver vars) expression)
  reach : ∀ path state, like.reached (renderer.loader.load path state).2 → like.reached state
  load : ∀ path {state state'}, like.loaded state state' →
    like.reached (renderer.loader.load path state).2 →
    (renderer.loader.load path state).1 = (other.loader.load path state').1 ∧
      like.loaded (renderer.loader.load path state).2 (other.loader.load path state').2
  insert : ∀ {vars vars'} name value, like.vars vars vars' →
    like.vars (vars.insert name value) (vars'.insert name value)
  restore : ∀ {vars vars' before before'} name, like.vars vars vars' → like.vars before before' →
    like.vars (vars.restore name (before.get? name)) (vars'.restore name (before'.get? name))
  extend : ∀ {vars vars'} more, like.vars vars vars' →
    like.vars (vars.extend more) (vars'.extend more)
  component : ∀ {vars vars'} changed descriptor values, like.vars vars vars' →
    like.vars (Render.componentVariables vars changed descriptor values)
      (Render.componentVariables vars' changed descriptor values)

/-- Two frames are alike. Their trails do not count, and which sections they collect counts as far as it is
asked. -/
structure Frames (R : List (String × String) → List (String × String) → Prop) (frame : Frame σ)
    (other : Frame τ) : Prop where
  vars : like.vars frame.vars other.vars
  sections : Option.Rel R frame.sections other.sections
  iterations : frame.iterations = other.iterations
  calls : frame.calls = other.calls
  store : frame.store = other.store
  decisions : like.accord.alike frame.memory.decisions other.memory.decisions
  loaded : like.loaded frame.loaded other.loaded

/-- A frame that the first render may come to. -/
def Admits (frame : Frame σ) : Prop :=
  like.accord.admits frame.memory.decisions ∧ like.reached frame.loaded

/-- A step that comes to admitted frames from admitted ones alone. -/
def Back (scope : Scope) (step : Render σ α) : Prop :=
  ∀ frame, like.Admits (step scope frame).2 → like.Admits frame

/-- Two steps go alike: from alike frames they lead to the same result and to alike frames, as long as
the first one comes to an admitted frame. They leave the store of the host program as it
was. -/
structure Steps (R : List (String × String) → List (String × String) → Prop) (scope : Scope)
    (step : Render σ α) (other : Render τ α) : Prop where
  back : like.Back scope step
  forth : ∀ frame frame', like.Frames R frame frame' → like.Admits (step scope frame).2 →
    (step scope frame).1 = (other scope frame').1 ∧
      like.Frames R (step scope frame).2 (other scope frame').2 ∧
      (step scope frame).2.store = frame.store

theorem rel_map {R R' : α → α → Prop} {f : α → α} {first second : Option α}
    (h : Option.Rel R first second) (himp : ∀ {x y}, R x y → R' (f x) (f y)) :
    Option.Rel R' (first.map f) (second.map f) := by
  cases h with
  | none => exact .none
  | some hsome => exact .some (himp hsome)

theorem isNone_eq_of_rel {R : α → α → Prop} {first second : Option α} (h : Option.Rel R first second) :
    first.isNone = second.isNone := by
  cases h with
  | none => rfl
  | some hsome => rfl

theorem eq_of_rel {first second : Option α} (h : Option.Rel (· = ·) first second) : first = second := by
  cases h with
  | none => rfl
  | some hsome => exact congrArg some hsome

theorem rel_refl {R : α → α → Prop} (h : ∀ x, R x x) (x : Option α) : Option.Rel R x x := by
  cases x with
  | none => exact .none
  | some value => exact .some (h value)

/-- Two steps go alike once the store of the host program is put back. -/
def StepsBesideStore (R : List (String × String) → List (String × String) → Prop) (scope : Scope)
    (step : Render σ α) (other : Render τ α) : Prop :=
  like.Steps R scope
    (Render.keeping (fun before after => { after with store := before.store }) step)
    (Render.keeping (fun before after => { after with store := before.store }) other)

end Likeness

namespace Render

variable {σ τ α β : Type} {like : Likeness σ τ} {scope : Scope}
  {R : List (String × String) → List (String × String) → Prop}

theorem back_bind {step : Render σ α} {next : α → Render σ β} (h : like.Back scope step)
    (hnext : ∀ value, like.Back scope (next value)) : like.Back scope (step >>= next) := by
  intro frame admitted
  refine h frame ?_
  rw [bind_run] at admitted
  rcases hrun : step scope frame with ⟨fault | value, after⟩
  · rwa [hrun] at admitted
  · rw [hrun] at admitted
    exact hnext value after admitted

theorem back_bind_get {next : Frame σ → Render σ α} (h : ∀ frame, like.Back scope (next frame)) :
    like.Back scope (get >>= next) :=
  fun frame => h frame frame

theorem back_inside {scope' : Scope} {vars : Variables} {step : Render σ α}
    (h : like.Back scope' step) : like.Back scope (inside scope' vars step) :=
  fun frame => h { frame with vars, sections := none }

theorem steps_pure (value : α) : like.Steps R scope (pure value) (pure value) :=
  ⟨fun _ => id, fun _ _ hframes _ => ⟨rfl, hframes, rfl⟩⟩

theorem steps_throw (fault : Fault) :
    like.Steps R scope (throw fault : Render σ α) (throw fault : Render τ α) :=
  ⟨fun _ => id, fun _ _ hframes _ => ⟨rfl, hframes, rfl⟩⟩

/-- The first of two steps comes to an admitted frame if both together do. -/
theorem admits_of_bind {step : Render σ α} {next : α → Render σ β} {frame : Frame σ}
    (hnext : ∀ value, like.Back scope (next value))
    (admitted : like.Admits ((step >>= next) scope frame).2) :
    like.Admits (step scope frame).2 := by
  rw [bind_run] at admitted
  rcases hrun : step scope frame with ⟨fault | value, after⟩
  · rwa [hrun] at admitted
  · rw [hrun] at admitted
    exact hnext value after admitted

theorem steps_bind {step : Render σ α} {step' : Render τ α} {next : α → Render σ β}
    {next' : α → Render τ β} (h : like.Steps R scope step step')
    (hnext : ∀ value, like.Steps R scope (next value) (next' value)) :
    like.Steps R scope (step >>= next) (step' >>= next') := by
  have hback (value : α) := (hnext value).back
  refine ⟨back_bind h.back hback, fun frame frame' hframes admitted => ?_⟩
  obtain ⟨hresult, hafter, hstore⟩ := h.forth frame frame' hframes (admits_of_bind hback admitted)
  rw [bind_run] at admitted ⊢
  rw [bind_run]
  rcases hrun : step scope frame with ⟨result, after⟩
  rcases hrun' : step' scope frame' with ⟨result', after'⟩
  rw [hrun] at admitted
  simp only [hrun, hrun'] at hresult hafter hstore
  subst hresult
  cases result with
  | error fault => exact ⟨rfl, hafter, hstore⟩
  | ok value =>
      obtain ⟨hresult', hlast, hstore'⟩ := (hnext value).forth after after' hafter admitted
      exact ⟨hresult', hlast, hstore'.trans hstore⟩

theorem steps_bind_read {next : Scope → Render σ β} {next' : Scope → Render τ β}
    (h : like.Steps R scope (next scope) (next' scope)) :
    like.Steps R scope (read >>= next) (read >>= next') := ⟨h.back, h.forth⟩

theorem steps_bind_get {next : Frame σ → Render σ β} {next' : Frame τ → Render τ β}
    (hback : ∀ frame, like.Back scope (next frame))
    (h : ∀ frame frame', like.Frames R frame frame' → like.Steps R scope (next frame) (next' frame')) :
    like.Steps R scope (get >>= next) (get >>= next') :=
  ⟨back_bind_get hback, fun frame frame' hframes => (h frame frame' hframes).forth frame frame' hframes⟩

theorem steps_modify {f : Frame σ → Frame σ} {f' : Frame τ → Frame τ}
    (h : ∀ frame frame', like.Frames R frame frame' → like.Frames R (f frame) (f' frame'))
    (hback : ∀ frame, like.Admits (f frame) → like.Admits frame)
    (hstore : ∀ frame, (f frame).store = frame.store) :
    like.Steps R scope (modify f : Render σ PUnit) (modify f' : Render τ PUnit) :=
  ⟨hback, fun frame frame' hframes _ => ⟨rfl, h frame frame' hframes, hstore frame⟩⟩

theorem steps_note (event event' : Event) :
    like.Steps R scope (note event : Render σ Unit) (note event' : Render τ Unit) :=
  steps_modify (fun _ _ hframes => { hframes with }) (fun _ => id) fun _ => rfl

theorem steps_liftExcept (result : Except Fault α) :
    like.Steps R scope (liftExcept result : Render σ α) (liftExcept result : Render τ α) := by
  cases result with
  | error fault => exact steps_throw fault
  | ok value => exact steps_pure value

theorem steps_keeping {step : Render σ α} {step' : Render τ α}
    {restore : Frame σ → Frame σ → Frame σ} {restore' : Frame τ → Frame τ → Frame τ}
    (h : like.Steps R scope step step')
    (hrestore : ∀ before before' after after', like.Frames R before before' → like.Frames R after after' →
      like.Frames R (restore before after) (restore' before' after'))
    (hback : ∀ before after, like.Admits (restore before after) → like.Admits after)
    (hstore : ∀ before after, (restore before after).store = after.store) :
    like.Steps R scope (keeping restore step) (keeping restore' step') := by
  refine ⟨fun frame admitted => h.back frame (hback frame _ admitted),
    fun frame frame' hframes admitted => ?_⟩
  obtain ⟨hresult, hafter, hkept⟩ := h.forth frame frame' hframes (hback frame _ admitted)
  exact ⟨hresult, hrestore _ _ _ _ hframes hafter, (hstore frame _).trans hkept⟩

/-- Steps behind a change of the frame, which may look at the sections more closely. -/
theorem steps_opening {closer : List (String × String) → List (String × String) → Prop}
    {step : Render σ α} {step' : Render τ α} {change : Frame σ → Frame σ} {change' : Frame τ → Frame τ}
    {restore : Frame σ → Frame σ → Frame σ} {restore' : Frame τ → Frame τ → Frame τ}
    (h : like.Steps closer scope step step')
    (henter : ∀ frame frame', like.Frames R frame frame' →
      like.Frames closer (change frame) (change' frame') ∧ (change frame).store = frame.store)
    (henterBack : ∀ frame, like.Admits (change frame) → like.Admits frame)
    (hrestore : ∀ before before' after after', like.Frames R before before' →
      like.Frames closer after after' → like.Frames R (restore before after) (restore' before' after'))
    (hback : ∀ before after, like.Admits (restore before after) → like.Admits after)
    (hstore : ∀ before after, (restore before after).store = after.store) :
    like.Steps R scope (keeping restore (modify change >>= fun _ => step))
      (keeping restore' (modify change' >>= fun _ => step')) := by
  refine ⟨fun frame admitted => henterBack frame (h.back _ (hback frame _ admitted)),
    fun frame frame' hframes admitted => ?_⟩
  obtain ⟨hchanged, hchangedStore⟩ := henter frame frame' hframes
  obtain ⟨hresult, hafter, hkept⟩ := h.forth _ _ hchanged (hback frame _ admitted)
  exact ⟨hresult, hrestore _ _ _ _ hframes hafter, (hstore frame _).trans (hkept.trans hchangedStore)⟩

/-- Another template collects no sections at first. -/
theorem steps_inside {scope' : Scope} {vars vars' : Variables} (hvars : like.vars vars vars')
    {step : Render σ α} {step' : Render τ α} (h : like.Steps (· = ·) scope' step step') :
    like.Steps R scope (inside scope' vars step) (inside scope' vars' step') := by
  refine ⟨back_inside h.back, fun frame frame' hframes admitted => ?_⟩
  obtain ⟨hresult, hafter, hkept⟩ := h.forth { frame with vars, sections := none }
    { frame' with vars := vars', sections := none } { hframes with vars := hvars, sections := .none }
    admitted
  exact ⟨hresult, { hafter with vars := hframes.vars, sections := hframes.sections }, hkept⟩

theorem steps_mapM {step : α → Render σ β} {step' : α → Render τ β}
    (h : ∀ x, like.Steps R scope (step x) (step' x)) (list : List α) :
    like.Steps R scope (list.mapM step) (list.mapM step') := by
  induction list with
  | nil => exact steps_pure []
  | cons x rest ih =>
      rw [List.mapM_cons, List.mapM_cons]
      exact steps_bind (h x) fun _ => steps_bind ih fun _ => steps_pure _

theorem steps_catching {step : Render σ α} {step' : Render τ α} {handler : Fault → Render σ α}
    {handler' : Fault → Render τ α} (h : like.Steps R scope step step')
    (hhandler : ∀ fault, like.Steps R scope (handler fault) (handler' fault)) :
    like.Steps R scope (tryCatch step handler) (tryCatch step' handler') := by
  have hadmits (frame : Frame σ) (admitted : like.Admits ((tryCatch step handler) scope frame).2) :
      like.Admits (step scope frame).2 := by
    rw [tryCatch_run] at admitted
    rcases hrun : step scope frame with ⟨fault | value, after⟩
    · rw [hrun] at admitted
      exact (hhandler fault).back after admitted
    · rwa [hrun] at admitted
  refine ⟨fun frame admitted => h.back frame (hadmits frame admitted),
    fun frame frame' hframes admitted => ?_⟩
  obtain ⟨hresult, hafter, hstore⟩ := h.forth frame frame' hframes (hadmits frame admitted)
  rw [tryCatch_run] at admitted ⊢
  rw [tryCatch_run]
  rcases hrun : step scope frame with ⟨result, after⟩
  rcases hrun' : step' scope frame' with ⟨result', after'⟩
  rw [hrun] at admitted
  simp only [hrun, hrun'] at hresult hafter hstore
  subst hresult
  cases result with
  | error fault =>
      obtain ⟨hresult', hlast, hstore'⟩ := (hhandler fault).forth after after' hafter admitted
      exact ⟨hresult', hlast, hstore'.trans hstore⟩
  | ok value => exact ⟨rfl, hafter, hstore⟩

/-- A step that leaves the store alone may stand before one whose changes of the store are undone. -/
theorem stepsBesideStore_bind {step : Render σ α} {step' : Render τ α} {next : α → Render σ β}
    {next' : α → Render τ β} (h : like.Steps R scope step step')
    (hnext : ∀ value, like.StepsBesideStore R scope (next value) (next' value)) :
    like.StepsBesideStore R scope (step >>= next) (step' >>= next') := by
  have hback (value : α) : like.Back scope (next value) := (hnext value).back
  have hbackBoth : like.Back scope (step >>= next) := back_bind h.back hback
  refine ⟨hbackBoth, fun frame frame' hframes admitted => ?_⟩
  have admittedBoth : like.Admits ((step >>= next) scope frame).2 := admitted
  obtain ⟨hresult, hafter, hstore⟩ :=
    h.forth frame frame' hframes (admits_of_bind hback admittedBoth)
  unfold keeping at admitted ⊢
  rw [bind_run] at admitted ⊢
  rw [bind_run]
  rcases hrun : step scope frame with ⟨result, after⟩
  rcases hrun' : step' scope frame' with ⟨result', after'⟩
  rw [hrun] at admitted
  simp only [hrun, hrun'] at hresult hafter hstore
  subst hresult
  cases result with
  | error fault => exact ⟨rfl, { hafter with store := hframes.store }, rfl⟩
  | ok value =>
      obtain ⟨hresult', hlast, -⟩ := (hnext value).forth after after' hafter admitted
      exact ⟨hresult', { hlast with store := hframes.store }, rfl⟩

end Render

end Stencil

/-!
Names of variables in a template. A text that is the name of a bound variable is resolved to its value, and an
interpolation of it writes the value, encoded.
-/

namespace Stencil.Render

open Text

variable {σ : Type} {renderer : Renderer σ} {scope : Scope} {frame : Frame σ}

theorem resolving_run {α : Type} {resolution : Resolver → Resolving α} {result : Except Fault α}
    {memory : Memory}
    (h : Resolver.outcome (resolution ⟨renderer.security, renderer.host, renderer.ownFilters,
      renderer.sharedFilters, frame.vars⟩) frame.memory = (result, memory)) :
    resolving renderer resolution scope frame = (result, { frame with memory }) := by
  change ((Resolver.outcome _ frame.memory).1,
    { frame with memory := (Resolver.outcome _ frame.memory).2 }) = _
  rw [h]

/-- An accepted name that is bound is resolved to its value. -/
theorem resolve_name {name : String} {value : Value} (identifier : isIdentifier name.toList = true)
    (open_ : renderer.security.blocks name = false)
    (accepted : Gate.checkExpression renderer.security name = .ok ())
    (bound : frame.vars.get? name = some value) :
    resolve renderer name scope frame = (.ok (Resolver.finished (some value)), { frame with memory :=
      { frame.memory with trail := .lookup name :: .expression name :: frame.memory.trail } }) := by
  obtain ⟨text, rfl⟩ : ∃ text, name = String.ofList text := ⟨name.toList, String.ofList_toList.symm⟩
  unfold resolve
  rw [String.toList_ofList] at *
  exact resolving_run (Resolver.outcome_resolve_name _ identifier open_ accepted bound frame.memory)

/-- The interpolation of a variable writes its value, encoded. -/
theorem interpolation_bound {name : String} {value shown : Value} (trimmed : trim name.toList = name.toList)
    (written : name.toList.isEmpty = false)
    (accepted : Gate.checkExpression renderer.security name = .ok ())
    (unindexed : Reference.indexed? name.toList = none)
    (bound : Resolver.direct? ⟨renderer.security, renderer.host, renderer.ownFilters,
      renderer.sharedFilters, frame.vars⟩ name.toList = some value)
    (hshown : Resolver.finished (some value) = some shown) :
    interpolation renderer name scope frame =
      (.ok (Gate.encodeOutput renderer.security.encoding shown.display), { frame with memory :=
        { frame.memory with trail := .lookup name :: .expression name :: frame.memory.trail } }) := by
  have hname : String.ofList name.toList = name := String.ofList_toList
  have houtcome := Resolver.outcome_resolve_direct trimmed (List.isEmpty_eq_false_iff.1 written)
    (hname.symm ▸ accepted) unindexed bound frame.memory
  rw [hname] at houtcome
  rw [interpolation, bind_run, resolve, resolving_run houtcome, hshown]
  rfl

end Stencil.Render
