import Stencil.Proofs.Markup.Nodes
import Stencil.Render.Part
import Stencil.Render.Tree

/-!
Properties that every step of a render keeps. Something is asked of the frames; a step keeps it if it
leaves a frame with it whenever it starts from one, however it ends, and it answers as promised if it
answers. There is one rule for each way in which steps are put together. What a template hands on to
another template, its sections, its slots and its body, lies in the frame and in the scope; a property of
texts that all of these have is a case of this.

Nodes beside one another. They render one after another, each into the output behind those before it, up to
the first fault. A component never is that fault.
-/

namespace Stencil

variable {σ α β : Type}

/-- What a scope holds of the templates around has a property. -/
structure Scope.Has (P : String → Prop) (scope : Scope) : Prop where
  fragments : ∀ fragment ∈ scope.fragments, Markup.TextsHave P fragment.2
  sections : ∀ entry ∈ scope.sections, P entry.2
  body : ∀ body ∈ scope.body, P body
  slots : ∀ slot ∈ scope.slots, P slot.2

/-- What all nodes of a tree have, all nodes have that its fragments lead to. -/
theorem Scope.throughout_of {P : Markup.Node → Prop} {tree : Markup.Tree} (h : Markup.Throughout P tree.children) :
    ∀ fragment ∈ (Scope.of tree).fragments, Markup.Throughout P fragment.2 := by
  intro fragment hmem
  obtain ⟨node, hnode, heq⟩ := List.mem_filterMap.1 hmem
  cases node with
  | fragment name body =>
      cases heq
      exact h.fragment hnode
  | _ => cases heq

/-- The sections that a frame collects have a property. -/
def Frame.Has (P : String → Prop) (frame : Frame σ) : Prop :=
  ∀ sections ∈ frame.sections, ∀ entry ∈ sections, P entry.2

/-- The frame with an event in its trail. -/
def Frame.noted (frame : Frame σ) (event : Event) : Frame σ :=
  { frame with memory := { frame.memory with trail := event :: frame.memory.trail } }

/-- The frame after a callback. -/
def Frame.called (frame : Frame σ) (descriptor : Descriptor)
    (before : Descriptor → Variables → Variables) : Frame σ :=
  { frame.noted (.announced descriptor) with store := before descriptor frame.store }

/-- The frame when an iteration of a loop has started and its element is bound. -/
def Frame.iterated (frame : Frame σ) (item : String) (element : Value) : Frame σ :=
  { frame.noted (.iteration (frame.iterations + 1)) with
    iterations := frame.iterations + 1
    vars := frame.vars.insert item element }

/-- The frame when a call has been opened. -/
def Frame.opened (frame : Frame σ) : Frame σ :=
  { frame.noted (.called (frame.calls + 1)) with calls := frame.calls + 1 }

namespace Render

theorem mem_of_lookup {entries : List (String × α)} {name : String} {value : α}
    (h : entries.lookup name = some value) : (name, value) ∈ entries := by
  obtain ⟨before, after, rfl, -⟩ := List.lookup_eq_some_iff.1 h
  exact List.mem_append_right _ (List.mem_cons_self ..)

/-- A step that keeps what is asked of frames, and gives answers as told if it gives any. -/
def Keeps (asked : Frame σ → Prop) (scope : Scope) (answers : α → Prop) (step : Render σ α) : Prop :=
  ∀ frame, asked frame → asked (step scope frame).2 ∧
    ∀ value, (step scope frame).1 = .ok value → answers value

/-- A step that keeps a property of the sections it collects. -/
abbrev Yields (P : String → Prop) (scope : Scope) (answers : α → Prop) (step : Render σ α) : Prop :=
  Keeps (Frame.Has P) scope answers step

variable {asked : Frame σ → Prop} {scope : Scope} {answers : α → Prop}

theorem keeps_pure {value : α} (h : answers value) :
    Keeps asked scope answers (pure value : Render σ α) := by
  intro frame hframe
  refine ⟨hframe, fun value' heq => ?_⟩
  cases heq
  exact h

theorem keeps_any (value : α) :
    Keeps asked scope (fun _ => True) (pure value : Render σ α) := keeps_pure trivial

theorem keeps_throw (fault : Fault) : Keeps asked scope answers (throw fault : Render σ α) :=
  fun _ hframe => ⟨hframe, fun _ heq => nomatch heq⟩

theorem Keeps.mono {answers' : α → Prop} {step : Render σ α} (h : Keeps asked scope answers step)
    (himp : ∀ value, answers value → answers' value) : Keeps asked scope answers' step := by
  intro frame hframe
  obtain ⟨hafter, hanswer⟩ := h frame hframe
  exact ⟨hafter, fun value heq => himp value (hanswer value heq)⟩

@[simp] theorem pure_run (value : α) (frame : Frame σ) :
    (pure value : Render σ α) scope frame = (.ok value, frame) := rfl

theorem bind_run (step : Render σ α) (next : α → Render σ β) (frame : Frame σ) :
    (step >>= next) scope frame =
      match step scope frame with
      | (.ok value, after) => next value scope after
      | (.error fault, after) => (.error fault, after) := by
  change (ExceptT.bindCont (fun value => next value scope) (step scope frame).1 :
    StateM (Frame σ) (Except Fault β)) (step scope frame).2 = _
  rcases step scope frame with ⟨_ | _, after⟩
  · rfl
  · rfl

theorem Keeps.bind {answers' : β → Prop} {step : Render σ α} {next : α → Render σ β}
    (h : Keeps asked scope answers step)
    (hnext : ∀ value, answers value → Keeps asked scope answers' (next value)) :
    Keeps asked scope answers' (step >>= next) := by
  intro frame hframe
  obtain ⟨hafter, hanswer⟩ := h frame hframe
  rw [bind_run]
  rcases hrun : step scope frame with ⟨fault | value, after⟩
  · rw [hrun] at hafter
    exact ⟨hafter, fun _ heq => nomatch heq⟩
  · rw [hrun] at hafter hanswer
    exact hnext value (hanswer value rfl) after hafter

/-- What a program leaves whose first step keeps something. -/
theorem Keeps.leads (left : Frame σ → Prop) {step : Render σ α} {next : α → Render σ β}
    {frame : Frame σ} (hframe : asked frame) (h : Keeps asked scope answers step)
    (hfault : ∀ after, asked after → left after)
    (hnext : ∀ value, answers value → ∀ after, asked after → left (next value scope after).2) :
    left ((step >>= next) scope frame).2 := by
  obtain ⟨hafter, hanswer⟩ := h frame hframe
  rw [bind_run]
  rcases hrun : step scope frame with ⟨fault | value, after⟩
  · rw [hrun] at hafter
    exact hfault after hafter
  · rw [hrun] at hafter hanswer
    exact hnext value (hanswer value rfl) after hafter

theorem keeps_read : Keeps asked scope (· = scope) (read : Render σ Scope) := by
  intro frame hframe
  refine ⟨hframe, fun value heq => ?_⟩
  cases heq
  rfl

theorem keeps_get : Keeps asked scope asked (get : Render σ (Frame σ)) := by
  intro frame hframe
  refine ⟨hframe, fun value heq => ?_⟩
  cases heq
  exact hframe

theorem keeps_modify {f : Frame σ → Frame σ} (h : ∀ frame, asked frame → asked (f frame)) :
    Keeps asked scope (fun _ => True) (modify f : Render σ PUnit) :=
  fun frame hframe => ⟨h frame hframe, fun _ _ => trivial⟩

theorem keeps_set {frame : Frame σ} (h : asked frame) :
    Keeps asked scope (fun _ => True) (set frame : Render σ PUnit) :=
  fun _ _ => ⟨h, fun _ _ => trivial⟩

theorem keeps_liftExcept (result : Except Fault α) :
    Keeps asked scope (fun _ => True) (liftExcept result : Render σ α) := by
  cases result with
  | error fault => exact keeps_throw fault
  | ok value => exact keeps_pure trivial

/-- What is asked inside may differ from what is asked around. -/
theorem Keeps.keeping {inner : Frame σ → Prop} {restore : Frame σ → Frame σ → Frame σ}
    {step : Render σ α} (h : Keeps inner scope answers step)
    (henter : ∀ frame, asked frame → inner frame)
    (hrestore : ∀ before after, asked before → inner after → asked (restore before after)) :
    Keeps asked scope answers (keeping restore step) := by
  intro frame hframe
  obtain ⟨hafter, hanswer⟩ := h frame (henter frame hframe)
  exact ⟨hrestore frame _ hframe hafter, hanswer⟩

/-- A step that changes the frame before it goes on, and puts back what it changed. -/
theorem Keeps.opening {inner : Frame σ → Prop} {restore : Frame σ → Frame σ → Frame σ}
    {change : Frame σ → Frame σ} {next : Render σ α} (h : Keeps inner scope answers next)
    (henter : ∀ frame, asked frame → inner (change frame))
    (hrestore : ∀ before after, asked before → inner after → asked (restore before after)) :
    Keeps asked scope answers (Render.keeping restore (modify change >>= fun _ => next)) := by
  intro frame hframe
  obtain ⟨hafter, hanswer⟩ := h (change frame) (henter frame hframe)
  exact ⟨hrestore frame _ hframe hafter, hanswer⟩

theorem Keeps.mapM {step : α → Render σ β} {answers : β → Prop} {list : List α}
    (h : ∀ x ∈ list, Keeps asked scope answers (step x)) :
    Keeps asked scope (fun results => ∀ result ∈ results, answers result) (list.mapM step) := by
  induction list with
  | nil => exact keeps_pure fun _ hmem => absurd hmem List.not_mem_nil
  | cons x rest ih =>
      rw [List.mapM_cons]
      refine (h x (List.mem_cons_self ..)).bind fun first hfirst => ?_
      refine (ih fun y hy => h y (List.mem_cons_of_mem _ hy)).bind fun others hothers => ?_
      refine keeps_pure fun result hmem => ?_
      rcases List.mem_cons.1 hmem with rfl | hlater
      · exact hfirst
      · exact hothers result hlater

theorem tryCatch_run (step : Render σ α) (handler : Fault → Render σ α) (frame : Frame σ) :
    (tryCatch step handler) scope frame =
      match step scope frame with
      | (.ok value, after) => (.ok value, after)
      | (.error fault, after) => handler fault scope after := by
  change (ExceptT.tryCatch (step scope) fun fault => handler fault scope) frame = _
  rcases hstep : step scope frame with ⟨_ | _, after⟩
  · simp [ExceptT.tryCatch, ExceptT.mk, bind, StateT.bind, hstep]
  · simp [ExceptT.tryCatch, ExceptT.mk, bind, StateT.bind, hstep]
    rfl

theorem announce_bind_run (renderer : Renderer σ) (descriptor : Descriptor)
    (next : Variables → Render σ String) (frame : Frame σ) :
    (announce renderer descriptor >>= next) scope frame =
      match renderer.hooks.before with
      | none => next {} scope frame
      | some before =>
          next ((before descriptor frame.store).changedSince frame.store) scope
            (frame.called descriptor before) := by
  unfold announce
  cases renderer.hooks.before with
  | none => rfl
  | some before => rfl

theorem startIteration_run (renderer : Renderer σ) (frame : Frame σ) :
    startIteration renderer scope frame =
      if renderer.security.limits.loopIterations < frame.iterations + 1 then
        (.error (.limitExceeded .loopIterations renderer.security.limits.loopIterations
          (frame.iterations + 1)), frame)
      else
        (.ok (), { frame.noted (.iteration (frame.iterations + 1)) with
          iterations := frame.iterations + 1 }) := by
  unfold startIteration
  change (if _ then _ else _ : Render σ Unit) scope frame = _
  split
  · rfl
  · rfl

/-- An iteration fails at its start, or it goes on with its element bound. -/
theorem iteration_run (renderer : Renderer σ) (item : String) (element : Value)
    (body : Render σ α) (frame : Frame σ) :
    (startIteration renderer >>= fun _ =>
        modify (fun frame => { frame with vars := frame.vars.insert item element }) >>= fun _ => body)
      scope frame =
      if renderer.security.limits.loopIterations < frame.iterations + 1 then
        (.error (.limitExceeded .loopIterations renderer.security.limits.loopIterations
          (frame.iterations + 1)), frame)
      else body scope (frame.iterated item element) := by
  rw [bind_run, startIteration_run]
  by_cases hlimit : renderer.security.limits.loopIterations < frame.iterations + 1
  · rw [if_pos hlimit, if_pos hlimit]
  · rw [if_neg hlimit, if_neg hlimit]
    rfl

theorem Keeps.catching {step : Render σ α} {handler : Fault → Render σ α}
    (h : Keeps asked scope answers step) (hhandler : ∀ fault, Keeps asked scope answers (handler fault)) :
    Keeps asked scope answers (tryCatch step handler) := by
  intro frame hframe
  obtain ⟨hafter, hanswer⟩ := h frame hframe
  rw [tryCatch_run]
  rcases hrun : step scope frame with ⟨fault | value, after⟩
  · rw [hrun] at hafter
    exact hhandler fault after hafter
  · rw [hrun] at hafter hanswer
    exact ⟨hafter, hanswer⟩

section Sections

variable {P : String → Prop}

theorem yields_note (event : Event) :
    Yields P scope (fun _ => True) (note event : Render σ Unit) :=
  keeps_modify fun _ hframe => hframe

theorem yields_resolving (renderer : Renderer σ) (resolution : Resolver → Resolving α) :
    Yields P scope (fun _ => True) (resolving renderer resolution) :=
  fun _ hframe => ⟨hframe, fun _ _ => trivial⟩

/-- Another template collects sections of its own, and its scope is another one. -/
theorem Yields.inside {scope' : Scope} {vars : Variables} {step : Render σ α}
    (h : Yields P scope' answers step) : Yields P scope answers (inside scope' vars step) := by
  intro frame hframe
  obtain ⟨-, hanswer⟩ := h { frame with vars, sections := none } fun _ hnone => nomatch hnone
  exact ⟨hframe, hanswer⟩

end Sections

end Render

end Stencil

namespace Stencil.Render

open Markup

variable {σ : Type} (renderer : Renderer σ) (entrances : Entrances σ) (scope : Scope) (frame : Frame σ)

theorem ofNodes_append (first second : List Node) :
    ofNodes renderer entrances (first ++ second) = do
      let text ← ofNodes renderer entrances first
      let more ← ofNodes renderer entrances second
      return text ++ more := by
  induction first with
  | nil => simp only [List.nil_append, ofNodes, pure_bind, String.empty_append, bind_pure]
  | cons node rest ih =>
      simp only [List.cons_append, ofNodes, ih, bind_assoc, pure_bind, String.append_assoc]

/-- What stands second is rendered from where the first ends. -/
theorem ofNodes_append_run (first second : List Node) :
    ofNodes renderer entrances (first ++ second) scope frame =
      match ofNodes renderer entrances first scope frame with
      | (.error fault, after) => (.error fault, after)
      | (.ok text, after) =>
          ((ofNodes renderer entrances second scope after).1.map (text ++ ·),
            (ofNodes renderer entrances second scope after).2) := by
  rw [ofNodes_append, bind_run]
  rcases ofNodes renderer entrances first scope frame with ⟨fault | text, after⟩
  · rfl
  · dsimp only
    rw [bind_run]
    rcases ofNodes renderer entrances second scope after with ⟨fault | more, last⟩
    · rfl
    · rfl

theorem ofNodes_singleton_run (node : Node) :
    ofNodes renderer entrances [node] scope frame = ofNode renderer entrances node scope frame := by
  simp only [ofNodes, pure_bind, String.append_empty, bind_pure]

/-- A component always gives an output: where it fails, what it gives is a comment. -/
theorem exists_component_output (enter : Option (Tree → Render σ String)) (head : ComponentHead)
    (slots : List (String × Render σ String)) :
    ∃ text, (component renderer enter head slots scope frame).1 = .ok text := by
  unfold component
  cases enter with
  | none => exact ⟨_, rfl⟩
  | some enter =>
      dsimp only
      rw [tryCatch_run]
      rcases inclusion renderer enter head slots scope frame with ⟨fault | text, after⟩
      · exact ⟨_, rfl⟩
      · exact ⟨text, rfl⟩

theorem exists_ofNode_component_output (head : ComponentHead) (defaultSlot : List Node)
    (slots : List (String × List Node)) :
    ∃ text, (ofNode renderer entrances (.component head defaultSlot slots) scope frame).1 = .ok text := by
  rw [ofNode]
  exact exists_component_output renderer scope frame entrances.tree head _

/-- The node at which nodes fail: those before it give an output, and it is no component. -/
theorem exists_failing_node {nodes : List Node} {fault : Fault}
    (h : (ofNodes renderer entrances nodes scope frame).1 = .error fault) :
    ∃ before node after text middle, nodes = before ++ node :: after ∧
      ofNodes renderer entrances before scope frame = (.ok text, middle) ∧
      (ofNode renderer entrances node scope middle).1 = .error fault ∧ node.componentPath? = none := by
  induction nodes generalizing frame with
  | nil => cases h
  | cons node rest ih =>
      rw [← List.singleton_append, ofNodes_append_run, ofNodes_singleton_run] at h
      rcases hnode : ofNode renderer entrances node scope frame with ⟨failure | text, after⟩
      · rw [hnode] at h
        refine ⟨[], node, rest, "", frame, rfl, by rw [ofNodes]; rfl, by rw [hnode]; exact h, ?_⟩
        cases node with
        | component head defaultSlot slots =>
            obtain ⟨text, htext⟩ :=
              exists_ofNode_component_output renderer entrances scope frame head defaultSlot slots
            rw [hnode] at htext
            cases htext
        | _ => rfl
      · rw [hnode] at h
        dsimp only at h
        have hrest : (ofNodes renderer entrances rest scope after).1 = .error fault := by
          cases hresult : (ofNodes renderer entrances rest scope after).1 with
          | error failure =>
              rw [hresult] at h
              exact h
          | ok more =>
              rw [hresult] at h
              cases h
        obtain ⟨before, failing, later, more, middle, rfl, hbefore, hfails⟩ := ih after hrest
        refine ⟨node :: before, failing, later, text ++ more, middle, rfl, ?_, hfails⟩
        rw [← List.singleton_append, ofNodes_append_run, ofNodes_singleton_run, hnode]
        dsimp only
        rw [hbefore]
        rfl

end Stencil.Render
