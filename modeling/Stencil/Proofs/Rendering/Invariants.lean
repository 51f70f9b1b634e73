import Stencil.Proofs.Rendering.Entrances
import Stencil.Proofs.Stores

/-!
Invariants of renders. An invariant says what is known of a frame; what is known is told by an index, and a
step that changes the frame for a while goes on with another index until it puts the frame back. What each
change of the frame does to an invariant is asked once. From that every part of a template keeps it, however
the parts are put together and wherever a fault occurs.
-/

namespace Stencil

open Markup

/-- What is known of the frames of a render, told by an index, and what is known of values. -/
structure Invariant (σ ι : Type) where
  holds : ι → Frame σ → Prop
  value : Value → Prop := fun _ => True
  /-- Whether there is room for this many calls inside one another. -/
  room : Nat → ι → Prop := fun _ _ => True

namespace Invariant

open Render

variable {σ ι : Type} (inv : Invariant σ ι)

/-- From a changed frame a render may go on, and what it comes to can be put back. -/
def Opens (i : ι) (changed : Frame σ) (restore : Frame σ → Frame σ) : Prop :=
  ∃ j, (∀ calls, inv.room calls i → inv.room calls j) ∧ inv.holds j changed ∧
    ∀ after, inv.holds j after → inv.holds i (restore after)

/-- What a renderer does to the frame keeps an invariant. -/
structure Kept (renderer : Renderer σ) : Prop where
  text : ∀ text, inv.value (.string text)
  null : inv.value .null
  elements : ∀ {value elements}, inv.value value → value.elements? = some elements →
    ∀ element ∈ elements, inv.value element
  vars : ∀ {i frame}, inv.holds i frame → frame.vars.Every fun binding => inv.value binding.value
  resolve : ∀ i scope expression, Keeps (inv.holds i) scope
    (fun value => ∀ found ∈ value, inv.value found) (resolve renderer expression)
  interpolate : ∀ i scope text, Keeps (inv.holds i) scope (fun _ => True) (interpolate renderer text)
  parameter : ∀ i scope (parameter : Parameter), Keeps (inv.holds i) scope inv.value
    (resolving renderer fun resolver => resolver.parameterValue parameter)
  load : ∀ i scope path, Keeps (inv.holds i) scope (fun _ => True) (load renderer path)
  /-- The indices in a loop are those between which its iterations go. -/
  loop : ∀ {i frame} item, inv.holds i frame → ∃ among : ι → Prop,
    (∃ j, among j ∧ inv.holds j (frame.noted .loopEntered)) ∧
    (∀ j current element, among j → inv.holds j current → inv.value element →
      current.iterations < renderer.security.limits.loopIterations →
      ∃ k, among k ∧ inv.holds k (current.iterated item element)) ∧
    ∀ j, among j → (∀ calls, inv.room calls i → inv.room calls j) ∧
      ∀ after, inv.holds j after → inv.holds i (leaveLoop item frame after)
  /-- Parameters are resolved before they are bound. -/
  call : ∀ {i frame calls}, inv.holds i frame → inv.room (calls + 1) i →
    ∃ j, inv.holds j frame.opened ∧ ∀ resolved, inv.holds j resolved →
      inv.holds i (leaveCall frame resolved) ∧
      ∀ more : Variables, (more.Every fun binding => inv.value binding.value) →
        ∃ k, inv.room calls k ∧ inv.holds k { resolved with vars := resolved.vars.extend more } ∧
          ∀ after, inv.holds k after → inv.holds i (leaveCall frame after)
  collecting : ∀ {i frame}, inv.holds i frame → inv.Opens i { frame with sections := some [] }
    fun after => { after with sections := frame.sections }
  addSection : ∀ {i frame} name content, inv.holds i frame →
    inv.holds i { frame with sections := frame.sections.map (addSection name content) }
  inside : ∀ {i frame} vars, inv.holds i frame →
    (vars.Every fun binding => inv.value binding.value) →
    inv.Opens i { frame with vars, sections := none }
      fun after => { after with vars := frame.vars, sections := frame.sections }
  /-- What a callback has changed, and the frame after it. -/
  announce : ∀ {i frame} descriptor before, inv.holds i frame → before ∈ renderer.hooks.before →
    (((before descriptor frame.store).changedSince frame.store).Every
      fun binding => inv.value binding.value) ∧
    inv.Opens i (frame.called descriptor before) fun after => { after with store := frame.store }
  store : ∀ {i before after}, inv.holds i before → inv.holds i after →
    inv.holds i { after with store := before.store }

/-- A step keeps whatever may be known with room for so many calls. -/
def KeptBy {α : Type} (calls : Nat) (scope : Scope) (step : Render σ α) : Prop :=
  ∀ i, inv.room calls i → Keeps (inv.holds i) scope (fun _ => True) step

/-- What may be entered keeps an invariant. A call takes up room. -/
structure KeptByWays (calls : Nat) (entrances : Entrances σ) : Prop where
  body : ∀ way ∈ entrances.body, ∃ left, calls = left + 1 ∧
    ∀ nodes scope, inv.KeptBy left scope (way nodes)
  tree : ∀ way ∈ entrances.tree, ∀ tree scope, inv.KeptBy calls scope (way tree)

end Invariant

namespace Render

variable {σ ι α : Type} {inv : Invariant σ ι} {renderer : Renderer σ} {calls : Nat} {scope : Scope} {i : ι}

theorem keptBy_pure (value : α) : inv.KeptBy calls scope (pure value : Render σ α) :=
  fun _ _ => keeps_pure trivial

theorem keptBy_bodyPlace : inv.KeptBy calls scope (bodyPlace : Render σ String) :=
  fun _ _ => keeps_read.bind fun _ _ => keeps_pure trivial

theorem keptBy_sectionPlace (name : String) (required : Bool) {default : Render σ String}
    (h : inv.KeptBy calls scope default) :
    inv.KeptBy calls scope (sectionPlace name required default) := by
  refine fun i hroom => keeps_read.bind fun seen _ => ?_
  split
  · exact keeps_pure trivial
  · split
    · exact keeps_pure trivial
    · exact h i hroom

theorem keptBy_slotPlace (name : String) {default : Render σ String}
    (h : inv.KeptBy calls scope default) : inv.KeptBy calls scope (slotPlace name default) := by
  refine fun i hroom => keeps_read.bind fun seen _ => ?_
  split
  · exact keeps_pure trivial
  · exact h i hroom

section Parts

variable (kept : inv.Kept renderer)

include kept

theorem keptBy_interpolation (expression : String) :
    inv.KeptBy calls scope (interpolation renderer expression) := by
  refine fun i _ => (kept.resolve i scope expression).bind fun value _ => ?_
  cases value with
  | none => exact keeps_pure trivial
  | some value => exact keeps_pure trivial

theorem keptBy_conditional {otherwise : Render σ String} (hotherwise : inv.KeptBy calls scope otherwise)
    {branches : List (String × Render σ String)}
    (h : ∀ branch ∈ branches, inv.KeptBy calls scope branch.2) :
    inv.KeptBy calls scope (conditional renderer otherwise branches) := by
  intro i hroom
  induction branches with
  | nil => exact hotherwise i hroom
  | cons branch rest ih =>
      obtain ⟨hfirst, hrest⟩ := List.forall_mem_cons.1 h
      refine (keeps_liftExcept _).bind fun _ _ => ?_
      refine (kept.resolve i scope branch.1).bind fun value _ => ?_
      split
      · exact hfirst i hroom
      · exact ih hrest

theorem keptBy_loop (item collection : String) {body : Render σ String}
    (hbody : inv.KeptBy calls scope body) :
    inv.KeptBy calls scope (loop renderer item collection body) := by
  refine fun i hroom => (kept.resolve i scope collection).bind fun value hvalue => ?_
  split
  · exact keeps_pure trivial
  next elements hfound =>
    obtain ⟨found, hmem, helements⟩ := Option.bind_eq_some_iff.1 hfound
    have helement := kept.elements (hvalue found hmem) helements
    intro frame hframe
    obtain ⟨among, hentered, hstart, hleave⟩ := kept.loop item hframe
    have hpieces : Keeps (fun frame => ∃ j, among j ∧ inv.holds j frame) scope
        (fun pieces => ∀ piece ∈ pieces, True) (elements.mapM fun element => do
          startIteration renderer
          modify fun frame => { frame with vars := frame.vars.insert item element }
          body) := by
      refine Keeps.mapM fun element hmem => ?_
      rintro current ⟨j, hj, hcurrent⟩
      rw [iteration_run]
      split
      next => exact ⟨⟨j, hj, hcurrent⟩, fun _ _ => trivial⟩
      next hlimit =>
        obtain ⟨k, hk, hstarted⟩ :=
          hstart j current element hj hcurrent (helement element hmem) (Nat.not_lt.1 hlimit)
        obtain ⟨hafter, -⟩ := hbody k ((hleave k hk).1 calls hroom) _ hstarted
        exact ⟨⟨k, hk, hafter⟩, fun _ _ => trivial⟩
    have hjoined := hpieces.bind fun pieces _ => keeps_any (String.join pieces)
    obtain ⟨⟨j, hj, hafter⟩, -⟩ := hjoined (frame.noted .loopEntered) hentered
    exact ⟨(hleave j hj).2 _ hafter, fun _ _ => trivial⟩

theorem keeps_parameterValues (parameters : List Parameter) :
    Keeps (inv.holds i) scope (fun values => ∀ value ∈ values, inv.value value.2)
      (parameterValues renderer parameters) :=
  Keeps.mapM fun parameter _ =>
    (kept.parameter i scope parameter).bind fun _ hvalue => keeps_pure hvalue

theorem keptBy_call {enter : Option (List Node → Render σ String)}
    (henter : ∀ way ∈ enter, ∃ left, calls = left + 1 ∧
      ∀ nodes scope, inv.KeptBy left scope (way nodes))
    (name : String) (parameters : List Parameter) :
    inv.KeptBy calls scope (call renderer enter name parameters) := by
  refine fun i hroom => keeps_read.bind fun seen _ => ?_
  split
  · exact keeps_pure trivial
  next body _ =>
    split
    · exact keeps_throw _
    next way =>
      obtain ⟨left, rfl, hway⟩ := henter way rfl
      intro frame hframe
      obtain ⟨j, hopened, hresolved⟩ := kept.call hframe hroom
      refine ⟨?_, fun _ _ => trivial⟩
      refine Keeps.leads (fun after => inv.holds i (leaveCall frame after)) hopened
        (keeps_parameterValues kept parameters) (fun after hafter => (hresolved after hafter).1) ?_
      intro values hvalues after hafter
      obtain ⟨k, hleft, hbound, hleave⟩ := (hresolved after hafter).2 (Variables.ofList values)
        (Variables.every_ofList hvalues)
      exact hleave _ (hway body scope k hleft _ hbound).1

theorem keptBy_collecting {children : Render σ String} (h : inv.KeptBy calls scope children) :
    inv.KeptBy calls scope (collecting children) := by
  intro i hroom frame hframe
  obtain ⟨j, hopen, hentered, hback⟩ := kept.collecting hframe
  have hcollected := (h j (hopen calls hroom)).bind fun body _ =>
    keeps_get.bind fun after _ => keeps_any (body, after.sections.getD [])
  exact ⟨hback _ (hcollected _ hentered).1, fun _ _ => trivial⟩

theorem keptBy_sectionContent (name : String) {content : Render σ String}
    (h : inv.KeptBy calls scope content) : inv.KeptBy calls scope (sectionContent name content) := by
  refine fun i hroom => keeps_get.bind fun frame _ => ?_
  split
  · exact h i hroom
  · refine (h i hroom).bind fun rendered _ => ?_
    refine Keeps.bind (keeps_modify fun frame hframe => ?_) fun _ _ => keeps_pure trivial
    exact kept.addSection (Text.lowercase name) rendered hframe

theorem keptBy_inside {scope' : Scope} {vars : Variables}
    (hvars : vars.Every fun binding => inv.value binding.value) {step : Render σ String}
    (h : inv.KeptBy calls scope' step) : inv.KeptBy calls scope (inside scope' vars step) := by
  intro i hroom frame hframe
  obtain ⟨j, hopen, hentered, hback⟩ := kept.inside vars hframe hvars
  exact ⟨hback _ (h j (hopen calls hroom) _ hentered).1, fun _ _ => trivial⟩

theorem keptBy_layout {enter : Option (Tree → Render σ String)}
    (henter : ∀ way ∈ enter, ∀ tree scope, inv.KeptBy calls scope (way tree))
    (name : String) {children : Render σ String} (h : inv.KeptBy calls scope children) :
    inv.KeptBy calls scope (layout renderer enter name children) := by
  refine fun i hroom => (kept.interpolate i scope name).bind fun name _ => ?_
  refine (keptBy_collecting kept h i hroom).bind fun result _ => ?_
  obtain ⟨body, sections⟩ := result
  dsimp only
  split
  · exact keeps_pure trivial
  next name' _ =>
    refine (kept.load i scope name').bind fun found _ => ?_
    split
    · exact keeps_pure trivial
    next tree =>
      split
      · exact keeps_pure trivial
      next way =>
        refine keeps_get.bind fun frame hframe => ?_
        exact keptBy_inside kept (kept.vars hframe) (henter way rfl tree _) i hroom

theorem keeps_optionMapM (text : Option String) :
    Keeps (inv.holds i) scope (fun _ => True) (text.mapM (interpolate renderer)) := by
  cases text with
  | none => exact keeps_pure trivial
  | some text =>
      exact (kept.interpolate i scope text).bind fun shown _ => keeps_any (some shown)

omit kept in
theorem keptBy_slotContents {slots : List (String × Render σ String)}
    (h : ∀ slot ∈ slots, inv.KeptBy calls scope slot.2) :
    inv.KeptBy calls scope (slotContents slots) := by
  intro i hroom
  unfold slotContents
  have hslot (slot) (hmem : slot ∈ slots) :
      Keeps (inv.holds i) scope (fun _ : String × String => True) (do
        let rendered ← slot.2
        return (Text.lowercase slot.1, rendered)) :=
    (h slot hmem i hroom).bind fun rendered _ => keeps_pure trivial
  exact (Keeps.mapM hslot).bind fun contents _ => keeps_pure trivial

/-- The variables of a component come from its surroundings, from the callback and from its parameters. -/
theorem every_componentVariables {surroundings changed : Variables} (descriptor : Descriptor)
    {values : List (String × Value)}
    (hsurroundings : surroundings.Every fun binding => inv.value binding.value)
    (hchanged : changed.Every fun binding => inv.value binding.value)
    (hvalues : ∀ value ∈ values, inv.value value.2) :
    (componentVariables surroundings changed descriptor values).Every
      fun binding => inv.value binding.value := by
  have hoptional (text : Option String) : inv.value (optionalText text) := by
    cases text with
    | none => exact kept.null
    | some text => exact kept.text text
  unfold componentVariables
  refine Variables.every_layered ?_
  simp only [List.forall_mem_cons]
  refine ⟨Variables.every_filter hsurroundings _, Variables.every_ofList ?_, hchanged,
    Variables.every_ofList hvalues, fun _ hmem => absurd hmem List.not_mem_nil⟩
  simp only [List.forall_mem_cons]
  exact ⟨hoptional _, hoptional _, kept.text _, fun _ hmem => absurd hmem List.not_mem_nil⟩

/-- What follows a callback keeps what is known once the store is put back. -/
theorem holds_announce_bind {before frame : Frame σ} (descriptor : Descriptor)
    {next : Variables → Render σ String}
    (h : ∀ changed : Variables, (changed.Every fun binding => inv.value binding.value) →
      inv.KeptBy calls scope (next changed))
    (hroom : inv.room calls i) (hbefore : inv.holds i before) (hframe : inv.holds i frame) :
    inv.holds i { ((announce renderer descriptor >>= next) scope frame).2 with
      store := before.store } := by
  rw [announce_bind_run]
  cases hcallback : renderer.hooks.before with
  | none => exact kept.store hbefore (h {} Variables.every_empty i hroom frame hframe).1
  | some callback =>
      obtain ⟨hchanged, j, hopen, hcalled, hback⟩ := kept.announce descriptor callback hframe hcallback
      have hback := kept.store hbefore (hback _ (h _ hchanged j (hopen calls hroom) _ hcalled).1)
      exact hback

theorem keptBy_inclusion {enter : Tree → Render σ String}
    (henter : ∀ tree scope, inv.KeptBy calls scope (enter tree)) (head : ComponentHead)
    {slots : List (String × Render σ String)} (h : ∀ slot ∈ slots, inv.KeptBy calls scope slot.2) :
    inv.KeptBy calls scope (inclusion renderer enter head slots) := by
  intro i hroom frame hframe
  refine ⟨?_, fun _ _ => trivial⟩
  -- the store is put back whether the program comes to its end or not
  let left (after : Frame σ) : Prop := inv.holds i { after with store := frame.store }
  have hfault (after : Frame σ) (hafter : inv.holds i after) : left after := kept.store hframe hafter
  refine Keeps.leads left hframe (kept.interpolate i scope _) hfault ?_
  intro path _ after hafter
  refine Keeps.leads left hafter (keeps_optionMapM kept _) hfault ?_
  intro name _ after hafter
  refine Keeps.leads left hafter (keeps_optionMapM kept _) hfault ?_
  intro oldName _ after hafter
  refine holds_announce_bind kept ⟨name, oldName, path, head.parameters⟩
    (fun changed hchanged i hroom => ?_) hroom hframe hafter
  refine (kept.load i scope path).bind fun found _ => ?_
  split
  · exact keeps_pure trivial
  next tree =>
    refine (keeps_parameterValues kept _).bind fun values hvalues => ?_
    refine keeps_get.bind fun current hcurrent => ?_
    refine (keptBy_slotContents h i hroom).bind fun contents _ => ?_
    have hvars := every_componentVariables kept ⟨name, oldName, path, head.parameters⟩
      (kept.vars hcurrent) hchanged hvalues
    exact (keptBy_inside kept hvars (henter tree _) i hroom).bind fun output _ => keeps_pure trivial

theorem keptBy_component {enter : Option (Tree → Render σ String)}
    (henter : ∀ way ∈ enter, ∀ tree scope, inv.KeptBy calls scope (way tree)) (head : ComponentHead)
    {slots : List (String × Render σ String)} (h : ∀ slot ∈ slots, inv.KeptBy calls scope slot.2) :
    inv.KeptBy calls scope (component renderer enter head slots) := by
  unfold component
  split
  · exact keptBy_pure _
  next way =>
    exact fun i hroom => (keptBy_inclusion kept (henter way rfl) head h i hroom).catching
      fun fault => keeps_pure trivial

/-- Nodes keep an invariant: one case for each kind of node. -/
theorem keptBy_nodes {entrances : Entrances σ} (ways : inv.KeptByWays calls entrances) :
    (∀ node scope, inv.KeptBy calls scope (ofNode renderer entrances node)) ∧
    (∀ bodies scope, ∀ body ∈ ofBodies renderer entrances bodies, inv.KeptBy calls scope body.2) ∧
    (∀ nodes scope, inv.KeptBy calls scope (ofNodes renderer entrances nodes)) := by
  apply ofNode.mutual_induct
  · intro source scope
    exact keptBy_pure _
  · intro expression scope
    exact keptBy_interpolation kept expression
  · intro tag attributes children ih scope
    exact ih scope
  · intro branches ih scope
    exact keptBy_conditional kept (keptBy_pure _) (ih scope)
  · intro branches otherwise hotherwise hbranches scope
    exact keptBy_conditional kept (hotherwise scope) (hbranches scope)
  · intro item collection children ih scope
    exact keptBy_loop kept item collection (ih scope)
  · intro head defaultSlot slots hdefault hslots scope
    refine keptBy_component kept ways.tree head fun slot hmem => ?_
    rcases List.mem_append.1 hmem with hmem | hmem
    · split at hmem
      · exact absurd hmem List.not_mem_nil
      · rw [List.mem_singleton.1 hmem]
        exact hdefault scope
    · exact hslots scope slot hmem
  · intro name children ih scope
    exact keptBy_layout kept ways.tree name (ih scope)
  · intro name children ih scope
    exact keptBy_sectionContent kept name (ih scope)
  · intro name required default ih scope
    exact keptBy_sectionPlace name required (ih scope)
  · intro scope
    exact keptBy_bodyPlace
  · intro name default ih scope
    exact keptBy_slotPlace name (ih scope)
  · intro name body scope
    exact keptBy_pure _
  · intro name parameters scope
    exact keptBy_call kept ways.body name parameters
  -- lists of nodes
  · intro scope
    exact keptBy_pure _
  · intro node rest hnode hrest scope i hroom
    exact (hnode scope i hroom).bind fun _ _ => (hrest scope i hroom).bind fun _ _ => keeps_pure trivial
  -- lists of bodies
  · intro scope body hmem
    exact absurd hmem List.not_mem_nil
  · intro name body rest hbody hrest scope step hmem
    rcases List.mem_cons.1 hmem with rfl | hmem
    · exact hbody scope
    · exact hrest scope step hmem

/-- However many inclusions and calls may still be opened, what is entered keeps an invariant that has room
for the calls. -/
theorem keptByWays_entrancesLeft (inclusions calls : Nat) :
    inv.KeptByWays calls (entrancesLeft renderer inclusions calls) := by
  rw [entrancesLeft_eq]
  constructor
  · cases calls with
    | zero => exact fun way hway => nomatch hway
    | succ left =>
        intro way hway
        obtain rfl := Option.some.inj hway
        exact ⟨left, rfl, (keptBy_nodes kept (keptByWays_entrancesLeft inclusions left)).2.2⟩
  · cases inclusions with
    | zero => exact fun way hway => nomatch hway
    | succ inclusions =>
        intro way hway
        obtain rfl := Option.some.inj hway
        exact fun tree => (keptBy_nodes kept (keptByWays_entrancesLeft inclusions calls)).2.2 tree.children
termination_by (inclusions, calls)

/-- What is known where a node is entered is known when it is left, whether it gave an output or a
fault. -/
theorem holds_ofNode {inclusions calls : Nat} (node : Node) (scope : Scope) {frame : Frame σ}
    (hroom : inv.room calls i) (hframe : inv.holds i frame) :
    inv.holds i
      (ofNode renderer (entrancesLeft renderer inclusions calls) node scope frame).2 :=
  ((keptBy_nodes kept (keptByWays_entrancesLeft kept inclusions calls)).1 node scope i hroom frame
    hframe).1

theorem holds_ofNodes {inclusions calls : Nat} (nodes : List Node) (scope : Scope) {frame : Frame σ}
    (hroom : inv.room calls i) (hframe : inv.holds i frame) :
    inv.holds i
      (ofNodes renderer (entrancesLeft renderer inclusions calls) nodes scope frame).2 :=
  ((keptBy_nodes kept (keptByWays_entrancesLeft kept inclusions calls)).2.2 nodes scope i hroom frame
    hframe).1

end Parts

/-! Nothing but loading changes the state of a loader, so what loading keeps a render keeps. -/

section Loaded

variable {σ : Type} {P : σ → Prop} {renderer : Renderer σ}

/-- What is known of a frame concerns the state of the loader alone. -/
def ofLoaded (P : σ → Prop) : Invariant σ Unit where
  holds _ frame := P frame.loaded

theorem kept_ofLoaded (h : ∀ path state, P state → P (renderer.loader.load path state).2) :
    (ofLoaded P).Kept renderer where
  text _ := trivial
  null := trivial
  elements _ _ _ _ := trivial
  vars _ _ _ := trivial
  resolve _ _ _ _ hframe := ⟨hframe, fun _ _ _ _ => trivial⟩
  interpolate _ _ _ _ hframe := ⟨hframe, fun _ _ => trivial⟩
  parameter _ _ _ _ hframe := ⟨hframe, fun _ _ => trivial⟩
  load _ _ path frame hframe := ⟨h path frame.loaded hframe, fun _ _ => trivial⟩
  loop _ hframe := ⟨fun _ => True, ⟨(), trivial, hframe⟩,
    fun _ _ _ _ hcurrent _ _ => ⟨(), trivial, hcurrent⟩,
    fun _ _ => ⟨fun _ _ => trivial, fun _ hafter => hafter⟩⟩
  call hframe _ := ⟨(), hframe, fun _ hresolved =>
    ⟨hresolved, fun _ _ => ⟨(), trivial, hresolved, fun _ hafter => hafter⟩⟩⟩
  collecting hframe := ⟨(), fun _ _ => trivial, hframe, fun _ hafter => hafter⟩
  addSection _ _ hframe := hframe
  inside _ hframe _ := ⟨(), fun _ _ => trivial, hframe, fun _ hafter => hafter⟩
  announce _ _ hframe _ :=
    ⟨fun _ _ => trivial, (), fun _ _ => trivial, hframe, fun _ hafter => hafter⟩
  store _ hafter := hafter

/-- What is known of the state of the loader before a render is known after it. -/
theorem loaded_run (h : ∀ path state, P state → P (renderer.loader.load path state).2) (tree : Tree)
    (vars store : Variables) (memory : Memory) {loaded : σ} (hloaded : P loaded) :
    P (run renderer tree vars store memory loaded).loaded :=
  holds_ofNodes (kept_ofLoaded h) tree.children (Scope.of tree) trivial (i := ()) hloaded

end Loaded

end Render

end Stencil

/-! What a part of a template leaves as it was. Every name has the value that it had, the counters and the store
of the host program are back, and sections are collected as before. A loop changes its variable and its
iterations in the frame; a call, a component and a layout go on with other variables; all of them put back
what they found when they were entered. -/

namespace Stencil

open Markup

variable {σ : Type}

/-- All that lasts of a frame is in a later frame as it was in an earlier one. -/
structure Frame.Persists (before after : Frame σ) : Prop where
  vars : ∀ name, after.vars.get? name = before.vars.get? name
  distinct : before.vars.Distinct → after.vars.Distinct
  folded : before.vars.Folded → after.vars.Folded
  sections : after.sections.isSome = before.sections.isSome
  iterations : after.iterations = before.iterations
  calls : after.calls = before.calls
  store : after.store = before.store

/-- The frames in a loop over an item: its variable and the iterations may change. -/
structure Frame.InLoop (item : String) (before inside : Frame σ) : Prop where
  vars : ∀ name, Variables.fold item ≠ Variables.fold name →
    inside.vars.get? name = before.vars.get? name
  distinct : before.vars.Distinct → inside.vars.Distinct
  folded : before.vars.Folded → inside.vars.Folded
  sections : inside.sections.isSome = before.sections.isSome
  calls : inside.calls = before.calls
  store : inside.store = before.store

namespace Frame

variable {before middle after : Frame σ}

theorem persists_refl (frame : Frame σ) : frame.Persists frame :=
  ⟨fun _ => rfl, id, id, rfl, rfl, rfl, rfl⟩

theorem Persists.trans (h : before.Persists middle) (h' : middle.Persists after) :
    before.Persists after where
  vars name := (h'.vars name).trans (h.vars name)
  distinct := h'.distinct ∘ h.distinct
  folded := h'.folded ∘ h.folded
  sections := h'.sections.trans h.sections
  iterations := h'.iterations.trans h.iterations
  calls := h'.calls.trans h.calls
  store := h'.store.trans h.store

/-- What leaves the frame as it was may stand in a loop. -/
theorem InLoop.behind {item : String} (h : InLoop item before middle) (h' : middle.Persists after) :
    InLoop item before after where
  vars name hother := (h'.vars name).trans (h.vars name hother)
  distinct := h'.distinct ∘ h.distinct
  folded := h'.folded ∘ h.folded
  sections := h'.sections.trans h.sections
  calls := h'.calls.trans h.calls
  store := h'.store.trans h.store

/-- A loop goes on with its next element bound. -/
theorem InLoop.iterated {item : String} (h : InLoop item before after) (element : Value) :
    InLoop item before (after.iterated item element) where
  vars name hother := by
    change (after.vars.insert item element).get? name = _
    rw [Variables.get?_insert, beq_false_of_ne hother, if_neg Bool.false_ne_true]
    exact h.vars name hother
  distinct hbefore := Variables.distinct_insert (h.distinct hbefore) item element
  folded hbefore := Variables.every_insert (h.folded hbefore) rfl
  sections := h.sections
  calls := h.calls
  store := h.store

theorem InLoop.left {item : String} (h : InLoop item before after) :
    before.Persists (Render.leaveLoop item before after) where
  vars name := by
    change (after.vars.restore item (before.vars.get? item)).get? name = _
    rw [Variables.get?_restore]
    split
    next hsame =>
      unfold Variables.get?
      rw [eq_of_beq hsame]
    next hother => exact h.vars name (ne_of_beq_false (Bool.eq_false_iff.2 hother))
  distinct hbefore := Variables.distinct_restore (h.distinct hbefore) item (before.vars.get? item)
  folded hbefore := Variables.every_restore (h.folded hbefore) fun _ _ => rfl
  sections := h.sections
  iterations := rfl
  calls := h.calls
  store := h.store

end Frame

namespace Render

/-- What is known of a frame is the frame that it goes back to. -/
def persistence : Invariant σ (Frame σ) where
  holds := Frame.Persists

variable (renderer : Renderer σ)

theorem kept_persistence : (persistence (σ := σ)).Kept renderer where
  text _ := trivial
  null := trivial
  elements _ _ _ _ := trivial
  vars _ _ _ := trivial
  resolve _ _ _ _ hframe := ⟨{ hframe with }, fun _ _ _ _ => trivial⟩
  interpolate _ _ _ _ hframe := ⟨{ hframe with }, fun _ _ => trivial⟩
  parameter _ _ _ _ hframe := ⟨{ hframe with }, fun _ _ => trivial⟩
  load _ _ _ _ hframe := ⟨{ hframe with }, fun _ _ => trivial⟩
  loop {start frame} item hframe := by
    refine ⟨frame.InLoop item, ⟨frame.noted .loopEntered, ⟨fun _ _ => rfl, id, id, rfl, rfl, rfl⟩,
      Frame.persists_refl _⟩, ?_, ?_⟩
    · intro inside current element hinside hcurrent _ _
      exact ⟨current.iterated item element, (hinside.behind hcurrent).iterated element, Frame.persists_refl _⟩
    · intro inside hinside
      exact ⟨fun _ _ => trivial, fun after hafter => hframe.trans (hinside.behind hafter).left⟩
  call {start frame _} hframe _ := by
    have hleave (inside : Frame σ) {after : Frame σ} (hsections : inside.sections.isSome = frame.sections.isSome)
        (hstore : inside.store = frame.store) (hiterations : inside.iterations = frame.iterations)
        (hafter : inside.Persists after) : start.Persists (leaveCall frame after) :=
      hframe.trans ⟨fun _ => rfl, id, id, hafter.sections.trans hsections,
        hafter.iterations.trans hiterations, rfl, hafter.store.trans hstore⟩
    refine ⟨frame.opened, Frame.persists_refl _, fun resolved (hresolved : frame.opened.Persists _) => ?_⟩
    refine ⟨hleave frame.opened rfl rfl rfl hresolved, fun more _ => ?_⟩
    exact ⟨_, trivial, Frame.persists_refl _,
      fun after => hleave _ hresolved.sections hresolved.store hresolved.iterations⟩
  collecting {start frame} hframe := by
    refine ⟨_, fun _ _ => trivial, Frame.persists_refl _, fun after hafter => hframe.trans ?_⟩
    exact { hafter with sections := rfl }
  addSection _ _ hframe := { hframe with sections := (Option.isSome_map ..).trans hframe.sections }
  inside {start frame} vars hframe _ := by
    refine ⟨_, fun _ _ => trivial, Frame.persists_refl _, fun after hafter => hframe.trans ?_⟩
    exact ⟨fun _ => rfl, id, id, rfl, hafter.iterations, hafter.calls, hafter.store⟩
  announce {start frame} descriptor before hframe _ := by
    refine ⟨fun _ _ => trivial, _, fun _ _ => trivial, Frame.persists_refl _, fun after hafter => ?_⟩
    exact hframe.trans { hafter with store := rfl }
  store hbefore hafter := { hafter with store := hbefore.store }

/-- A node leaves the frame that it finds, whether it gives an output or a fault. -/
theorem persists_ofNode (inclusions calls : Nat) (node : Node) (scope : Scope) (frame : Frame σ) :
    frame.Persists (ofNode renderer (entrancesLeft renderer inclusions calls) node scope frame).2 :=
  holds_ofNode (kept_persistence renderer) node scope trivial frame.persists_refl

theorem persists_ofNodes (inclusions calls : Nat) (nodes : List Node) (scope : Scope)
    (frame : Frame σ) :
    frame.Persists (ofNodes renderer (entrancesLeft renderer inclusions calls) nodes scope frame).2 :=
  holds_ofNodes (kept_persistence renderer) nodes scope trivial frame.persists_refl

end Render

end Stencil
