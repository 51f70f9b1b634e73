import Stencil.Proofs.Rendering.Invariants

/-!
What an inclusion leaves of the sections that are collected for the layout around it. Before its slots are
filled an inclusion collects nothing, and what stands in the template of the component collects for itself. In
between, the contents of its slots belong to the surroundings and may add sections, behind those that are there
and under new names; these stay, whatever becomes of the inclusion.
-/

namespace Stencil.Render

open Markup

variable {σ : Type}

/-- Sections collected meanwhile stand behind those from before, under new names. -/
def Collected (before after : Option (List (String × String))) : Prop :=
  ∃ more, after = before.map (· ++ more) ∧
    ∀ sections ∈ before, ∀ entry ∈ more, sections.lookup entry.1 = none

theorem collected_refl (sections : Option (List (String × String))) : Collected sections sections := by
  refine ⟨[], ?_, fun _ _ _ hmem => absurd hmem List.not_mem_nil⟩
  cases sections with
  | none => rfl
  | some sections => exact congrArg some (List.append_nil sections).symm

theorem Collected.addSection {before after : Option (List (String × String))} (h : Collected before after)
    (name content : String) : Collected before (after.map (addSection name content)) := by
  obtain ⟨more, rfl, hnew⟩ := h
  cases before with
  | none => exact collected_refl none
  | some sections =>
      simp only [Option.map_some]
      unfold Render.addSection
      split
      next => exact ⟨more, rfl, hnew⟩
      next hfree =>
        have hlookup : sections.lookup name = none := by
          rw [Option.not_isSome_iff_eq_none, List.lookup_append] at hfree
          exact (Option.or_eq_none_iff.1 hfree).1
        refine ⟨more ++ [(name, content)], congrArg some (List.append_assoc ..),
          fun known hknown entry hmem => ?_⟩
        obtain rfl := Option.some.inj hknown
        rcases List.mem_append.1 hmem with hearlier | hlast
        · exact hnew sections rfl entry hearlier
        · rw [List.mem_singleton.1 hlast]
          exact hlookup

/-- What is known of a frame is the sections that were collected before. -/
def collection : Invariant σ (Option (List (String × String))) where
  holds sections frame := Collected sections frame.sections

theorem kept_collection (renderer : Renderer σ) : (collection (σ := σ)).Kept renderer where
  text _ := trivial
  null := trivial
  elements _ _ _ _ := trivial
  vars _ _ _ := trivial
  resolve _ _ _ _ hframe := ⟨hframe, fun _ _ _ _ => trivial⟩
  interpolate _ _ _ _ hframe := ⟨hframe, fun _ _ => trivial⟩
  parameter _ _ _ _ hframe := ⟨hframe, fun _ _ => trivial⟩
  load _ _ _ _ hframe := ⟨hframe, fun _ _ => trivial⟩
  loop {i _} _ hframe := ⟨(· = i), ⟨i, rfl, hframe⟩,
    fun _ _ _ hj hcurrent _ _ => ⟨_, hj, hcurrent⟩,
    fun _ hj => ⟨fun _ _ => trivial, fun _ hafter => hj ▸ hafter⟩⟩
  call {i _ _} hframe _ := ⟨i, hframe, fun _ hresolved =>
    ⟨hresolved, fun _ _ => ⟨i, trivial, hresolved, fun _ hafter => hafter⟩⟩⟩
  collecting hframe := ⟨some [], fun _ _ => trivial, collected_refl _, fun _ _ => hframe⟩
  addSection name content hframe := hframe.addSection name content
  inside _ hframe _ := ⟨none, fun _ _ => trivial, collected_refl _, fun _ _ => hframe⟩
  announce {i _} _ _ hframe _ :=
    ⟨fun _ _ => trivial, i, fun _ _ => trivial, hframe, fun _ hafter => hafter⟩
  store _ hafter := hafter

theorem collected_ofNode (renderer : Renderer σ) (inclusions calls : Nat) (node : Node) (scope : Scope)
    (frame : Frame σ) : Collected frame.sections
      (ofNode renderer (entrancesLeft renderer inclusions calls) node scope frame).2.sections :=
  holds_ofNode (kept_collection renderer) node scope trivial (collected_refl _)

section Silent

variable {α β : Type} {scope : Scope}

/-- A step that leaves the sections as they are, however it ends. -/
def Silent (scope : Scope) (step : Render σ α) : Prop :=
  ∀ sections, Keeps (fun frame => frame.sections = sections) scope (fun _ => True) step

theorem Silent.sections {step : Render σ α} (h : Silent scope step) (frame : Frame σ) :
    (step scope frame).2.sections = frame.sections :=
  (h frame.sections frame rfl).1

theorem Silent.bind {step : Render σ α} {next : α → Render σ β} (h : Silent scope step)
    (hnext : ∀ value, Silent scope (next value)) : Silent scope (step >>= next) :=
  fun sections => (h sections).bind fun value _ => hnext value sections

theorem silent_pure (value : α) : Silent scope (pure value : Render σ α) := fun _ => keeps_any value

theorem silent_resolving (renderer : Renderer σ) (resolution : Resolver → Resolving α) :
    Silent scope (resolving renderer resolution) :=
  fun _ _ hframe => ⟨hframe, fun _ _ => trivial⟩

theorem silent_load (renderer : Renderer σ) (path : String) : Silent scope (load renderer path) :=
  fun _ _ hframe => ⟨hframe, fun _ _ => trivial⟩

theorem silent_modify {change : Frame σ → Frame σ} (h : ∀ frame, (change frame).sections = frame.sections) :
    Silent scope (modify change : Render σ PUnit) :=
  fun _ => keeps_modify fun frame hframe => (h frame).trans hframe

theorem silent_note (event : Event) : Silent scope (note event : Render σ Unit) := silent_modify fun _ => rfl

theorem silent_get_bind {next : Frame σ → Render σ α} (h : ∀ frame, Silent scope (next frame)) :
    Silent scope (get >>= next) :=
  fun sections => keeps_get.bind fun current _ => h current sections

theorem silent_inside {scope' : Scope} {vars : Variables} (step : Render σ α) :
    Silent scope (inside scope' vars step) :=
  fun _ _ hframe => ⟨hframe, fun _ _ => trivial⟩

theorem silent_collecting (step : Render σ String) : Silent scope (collecting step) :=
  fun _ _ hframe => ⟨hframe, fun _ _ => trivial⟩

theorem silent_announce (renderer : Renderer σ) (descriptor : Descriptor) :
    Silent scope (announce renderer descriptor) := by
  unfold announce
  cases renderer.hooks.before with
  | none => exact silent_pure _
  | some before => exact fun _ _ hframe => ⟨hframe, fun _ _ => trivial⟩

theorem silent_parameterValues (renderer : Renderer σ) (parameters : List Parameter) :
    Silent scope (parameterValues renderer parameters) := by
  intro sections
  have hvalue (parameter : Parameter) : Keeps (fun frame => frame.sections = sections) scope
      (fun _ : String × Value => True) (do
        let value ← resolving renderer fun resolver => resolver.parameterValue parameter
        return (parameter.name, value)) :=
    (silent_resolving renderer _).bind (fun value => silent_pure (parameter.name, value)) sections
  exact (Keeps.mapM fun parameter _ => hvalue parameter).mono fun _ _ => trivial

theorem silent_interpolation (renderer : Renderer σ) (expression : String) :
    Silent scope (interpolation renderer expression) := by
  refine (silent_resolving renderer _).bind fun value => ?_
  cases value with
  | none => exact silent_pure _
  | some value => exact silent_pure _

/-- A layout leaves the sections that are collected around it as they are, whatever becomes of it. -/
theorem silent_layout (renderer : Renderer σ) (enter : Option (Tree → Render σ String)) (name : String)
    (children : Render σ String) : Silent scope (layout renderer enter name children) := by
  refine (silent_resolving renderer _).bind fun name => (silent_collecting children).bind fun result => ?_
  dsimp only
  split
  · exact silent_pure _
  next path _ =>
    refine (silent_load renderer path).bind fun found => ?_
    cases found with
    | none => exact silent_pure _
    | some tree =>
        cases enter with
        | none => exact silent_pure _
        | some enter => exact silent_get_bind fun current => silent_inside (enter tree)

end Silent

variable (renderer : Renderer σ) (head : ComponentHead)

/-- What an inclusion tells of itself: its path and its names with their interpolations replaced. -/
def described : Render σ Descriptor := do
  let path ← interpolate renderer head.path
  let name ← head.name.mapM (interpolate renderer)
  let oldName ← head.oldName.mapM (interpolate renderer)
  return ⟨name, oldName, path, head.parameters⟩

/-- Interpolations change nothing in a frame but its memory. -/
theorem keeps_described {asked : Frame σ → Prop} {scope : Scope}
    (hmemory : ∀ frame memory, asked frame → asked { frame with memory }) :
    Keeps asked scope (fun _ => True) (described renderer head) := by
  have hshown (text : String) : Keeps asked scope (fun _ => True) (interpolate renderer text) :=
    fun frame hframe => ⟨hmemory frame _ hframe, fun _ _ => trivial⟩
  have hoptional (text : Option String) :
      Keeps asked scope (fun _ => True) (text.mapM (interpolate renderer)) := by
    cases text with
    | none => exact keeps_any none
    | some text => exact (hshown text).bind fun shown _ => keeps_any (some shown)
  exact (hshown _).bind fun path _ => (hoptional _).bind fun name _ =>
    (hoptional _).bind fun oldName _ => keeps_any _

/-- What an inclusion does before its slots are filled: it gives the descriptor, the variables and the
template of the component, if there is one. -/
def prepared : Render σ (Option (Descriptor × Variables × Tree)) := do
  let path ← interpolate renderer head.path
  let name ← head.name.mapM (interpolate renderer)
  let oldName ← head.oldName.mapM (interpolate renderer)
  let descriptor : Descriptor := ⟨name, oldName, path, head.parameters⟩
  let changed ← announce renderer descriptor
  match ← load renderer path with
  | none => return none
  | some tree =>
      let values ← parameterValues renderer
        (head.parameters.filter fun parameter => !changed.contains parameter.name)
      return some (descriptor, componentVariables (← get).vars changed descriptor values, tree)

theorem prepared_eq :
    prepared renderer head = (do
      let descriptor ← described renderer head
      let changed ← announce renderer descriptor
      match ← load renderer descriptor.path with
      | none => return none
      | some tree =>
          let values ← parameterValues renderer
            (head.parameters.filter fun parameter => !changed.contains parameter.name)
          return some (descriptor, componentVariables (← get).vars changed descriptor values, tree)) := by
  unfold prepared described
  simp only [bind_assoc, pure_bind]

/-- The rest of an inclusion: it fills the slots and enters the template. -/
def filled (enter : Tree → Render σ String) (slots : List (String × Render σ String))
    (descriptor : Descriptor) (vars : Variables) (tree : Tree) : Render σ String := do
  let contents ← slotContents slots
  let output ← inside { Scope.of tree with slots := contents } vars (enter tree)
  return match renderer.hooks.after with
    | some after => after descriptor output
    | none => output

variable (enter : Tree → Render σ String) (slots : List (String × Render σ String)) (scope : Scope)
  (frame : Frame σ)

theorem inclusion_eq :
    inclusion renderer enter head slots =
      keeping (fun before after => { after with store := before.store }) (do
        match ← prepared renderer head with
        | none => return ""
        | some (descriptor, vars, tree) => filled renderer enter slots descriptor vars tree) := by
  unfold inclusion prepared filled
  simp only [bind_assoc]
  refine congrArg (keeping _) (bind_congr fun path => bind_congr fun name => bind_congr fun oldName =>
    bind_congr fun changed => bind_congr fun found => ?_)
  cases found with
  | none => rfl
  | some tree =>
      refine Eq.trans (bind_congr fun values => ?_) (bind_assoc ..).symm
      refine Eq.trans (bind_congr fun current => ?_) (bind_assoc ..).symm
      exact (pure_bind _ _).symm

/-- The frame behind the contents of the slots, as far as an inclusion comes with them. -/
def slotsLeft : Frame σ :=
  match prepared renderer head scope frame with
  | (.ok (some _), after) => (slotContents slots scope after).2
  | (_, after) => after

/-- Nothing is collected before the slots are filled. -/
theorem silent_prepared : Silent scope (prepared renderer head) := by
  have hdescribed : Silent scope (described renderer head) := fun sections =>
    keeps_described renderer head fun _ _ hafter => hafter
  rw [prepared_eq]
  refine hdescribed.bind fun descriptor => (silent_announce renderer descriptor).bind fun changed => ?_
  refine (silent_load renderer descriptor.path).bind fun found => ?_
  cases found with
  | none => exact silent_pure none
  | some tree =>
      exact (silent_parameterValues renderer _).bind fun values => silent_get_bind fun current => silent_pure _

/-- Behind the slots the sections stay as they are. -/
theorem sections_filled (descriptor : Descriptor) (vars : Variables) (tree : Tree) :
    (filled renderer enter slots descriptor vars tree scope frame).2.sections =
      (slotContents slots scope frame).2.sections := by
  unfold filled
  rw [bind_run]
  rcases slotContents slots scope frame with ⟨fault | contents, after⟩
  · rfl
  · exact ((silent_inside (enter tree)).bind fun output => silent_pure _).sections after

/-- However an inclusion ends, it leaves the sections that there are behind its slots. -/
theorem sections_inclusion :
    (inclusion renderer enter head slots scope frame).2.sections =
      (slotsLeft renderer head slots scope frame).sections := by
  rw [inclusion_eq]
  unfold keeping slotsLeft
  dsimp only
  rw [bind_run]
  rcases prepared renderer head scope frame with ⟨fault | - | found, after⟩
  · rfl
  · rfl
  · exact sections_filled renderer enter slots scope after found.1 found.2.1 found.2.2

end Stencil.Render
