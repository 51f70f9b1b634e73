import Stencil.Proofs.Caching.Decisions
import Stencil.Proofs.Rendering.Alike
import Stencil.Proofs.Rendering.Invariants
import Stencil.Proofs.Rendering.Steps
import Stencil.Proofs.Resolution.HostTypes

/-!
Renders of typed values. Where the variables, the filters and the callbacks keep to the fields that the types of
objects have, and the loader stays among some states, a render keeps to them too, and whatever it decides about host
objects is what their types decide. So the decisions of two renders never contradict one another: from frames that
differ in what has been decided both go like one that starts with all that either of them decides.

Twins are frames of typed values that a render cannot tell apart: they differ at most in the spelling of names
and in what is remembered. Runs that start from twins end alike. There is one rule for each way in which steps
are put together; steps that go alike step by step are put under these rules as a whole.
-/

namespace Stencil

open Markup

section Types

variable {σ : Type}

/-- A loader that stays among some states and answers a path alike in all of them. -/
structure Loader.Steady (among : σ → Prop) (loader : Loader σ) : Prop where
  stays : ∀ path {state}, among state → among (loader.load path state).2
  answers : ∀ path {state state'}, among state → among state' →
    (loader.load path state).1 = (loader.load path state').1

/-- What the host program supplies to a renderer is typed. -/
structure Renderer.Typed (fieldsOf : String → List String) (renderer : Renderer σ) : Prop where
  host : renderer.host.Typed fieldsOf
  ownFilters : renderer.ownFilters.Typed fieldsOf
  sharedFilters : renderer.sharedFilters.Typed fieldsOf
  before : ∀ before ∈ renderer.hooks.before, ∀ descriptor (store : Variables), store.Typed fieldsOf →
    (before descriptor store).Typed fieldsOf

/-- All values in a frame are typed, and so is what has been decided. -/
structure Frame.Typed (fieldsOf : String → List String) (host : Host) (among : σ → Prop)
    (frame : Frame σ) : Prop where
  vars : frame.vars.Typed fieldsOf
  store : frame.store.Typed fieldsOf
  decisions : frame.memory.decisions.Typed fieldsOf host
  loaded : among frame.loaded

namespace Render

variable {fieldsOf : String → List String} {among : σ → Prop} {α : Type}

/-- What is known of a frame is that it is typed. -/
def typing (fieldsOf : String → List String) (host : Host) (among : σ → Prop) : Invariant σ Unit where
  holds _ frame := frame.Typed fieldsOf host among
  value := Value.Typed fieldsOf

variable {renderer : Renderer σ}

theorem keeps_typing_resolving (typed : renderer.Typed fieldsOf) {resolution : Resolver → Resolving α}
    {answers : α → Prop} (h : ∀ r : Resolver, r.host = renderer.host → r.Typed fieldsOf →
      Resolver.Keeps (Resolver.typing fieldsOf r.host).holds answers (resolution r)) (i : Unit) (scope : Scope) :
    Keeps ((typing fieldsOf renderer.host among).holds i) scope answers
      (resolving renderer resolution) := by
  intro frame hframe
  have hresolver : (renderer.resolver frame.vars).Typed fieldsOf :=
    ⟨typed.host, typed.ownFilters, typed.sharedFilters, hframe.vars⟩
  obtain ⟨hdecisions, hanswer⟩ := h (renderer.resolver frame.vars) rfl hresolver frame.memory
    hframe.decisions
  exact ⟨{ hframe with decisions := hdecisions }, hanswer⟩

theorem kept_typing_of_stays (typed : renderer.Typed fieldsOf)
    (stays : ∀ path {state}, among state → among (renderer.loader.load path state).2) :
    (typing fieldsOf renderer.host among).Kept renderer where
  text := .string
  null := .null
  elements h helements := Value.Typed.elements h helements
  vars hframe := hframe.vars
  resolve i scope _ := keeps_typing_resolving typed
    (fun _ _ hresolver => Resolver.keeps_resolve hresolver _) i scope
  interpolate i scope _ := keeps_typing_resolving typed
    (fun _ _ hresolver => Resolver.keeps_interpolate hresolver _) i scope
  parameter i scope _ := keeps_typing_resolving typed
    (fun _ _ hresolver => Resolver.keeps_parameterValue hresolver _) i scope
  load _ _ path frame hframe :=
    ⟨{ hframe with loaded := stays path hframe.loaded }, fun _ _ => trivial⟩
  loop {_ frame} item hframe := by
    refine ⟨fun _ => True, ⟨(), trivial, { hframe with }⟩, ?_, fun _ _ => ⟨fun _ _ => trivial, ?_⟩⟩
    · intro _ current element _ hcurrent helement _
      exact ⟨(), trivial, { hcurrent with vars := Variables.every_insert hcurrent.vars helement }⟩
    · intro after hafter
      refine { hafter with vars := Variables.every_restore hafter.vars fun value hvalue => ?_ }
      obtain ⟨binding, hbinding, rfl⟩ := hframe.vars.value hvalue
      exact hbinding
  call hframe _ := by
    refine ⟨(), { hframe with }, fun resolved hresolved => ?_⟩
    refine ⟨{ hresolved with vars := hframe.vars }, fun more hmore => ⟨(), trivial, ?_, ?_⟩⟩
    · exact { hresolved with vars := Variables.every_extend hresolved.vars hmore }
    · exact fun after hafter => { hafter with vars := hframe.vars }
  collecting hframe := ⟨(), fun _ _ => trivial, { hframe with }, fun _ hafter => { hafter with }⟩
  addSection _ _ hframe := { hframe with }
  inside _ hframe hvars := ⟨(), fun _ _ => trivial, { hframe with vars := hvars },
    fun _ hafter => { hafter with vars := hframe.vars }⟩
  announce descriptor before hframe hbefore := by
    have hstore := typed.before before hbefore descriptor _ hframe.store
    exact ⟨Variables.every_changedSince hstore _, (), fun _ _ => trivial,
      { hframe with store := hstore }, fun _ hafter => { hafter with store := hframe.store }⟩
  store hbefore hafter := { hafter with store := hbefore.store }

theorem kept_typing (typed : renderer.Typed fieldsOf) (steady : renderer.loader.Steady among) :
    (typing fieldsOf renderer.host among).Kept renderer :=
  kept_typing_of_stays typed steady.stays

end Render

end Types

section Together

variable {κ α : Type} [BEq κ] {first second : List (κ × α)} {key : κ} {answer : α}

theorem lookup_append_left (h : first.lookup key = some answer) :
    (first ++ second).lookup key = some answer := by
  rw [List.lookup_append, h]
  rfl

/-- Answers that are all decided alike never contradict one another. -/
theorem lookup_append_right (decide : κ → α)
    (hfirst : ∀ key answer, first.lookup key = some answer → answer = decide key)
    (hsecond : ∀ key answer, second.lookup key = some answer → answer = decide key)
    (h : second.lookup key = some answer) : (first ++ second).lookup key = some answer := by
  rw [List.lookup_append, h]
  cases hlookup : first.lookup key with
  | none => rfl
  | some other =>
      rw [hfirst key other hlookup, hsecond key answer h]
      rfl

end Together

/-- The decisions of two renders together. -/
def Decisions.append (first second : Decisions) : Decisions :=
  ⟨first.accessors ++ second.accessors, first.indexers ++ second.indexers⟩

theorem Decisions.within_append_left (first second : Decisions) : first.Within (first.append second) :=
  ⟨fun _ _ => lookup_append_left, fun _ _ => lookup_append_left⟩

theorem Decisions.within_append_right {fieldsOf : String → List String} {host : Host}
    {first second : Decisions} (h : first.Typed fieldsOf host) (h' : second.Typed fieldsOf host) :
    second.Within (first.append second) :=
  ⟨fun _ _ => lookup_append_right _ h.accessors h'.accessors,
    fun _ _ => lookup_append_right _ h.indexers h'.indexers⟩

/-- The accord of resolutions that may have decided anything. -/
def Resolver.Accord.any : Accord := ⟨fun _ _ => True, fun _ => True⟩

namespace Render

variable {σ α : Type} {fieldsOf : String → List String} {among : σ → Prop} {renderer : Renderer σ}

/-- Steps that go alike whenever the second repeats what the first decides go alike from any decisions that
are those of the types. What they leave goes with what one repetition leaves. -/
theorem outcome_eq_of_typed {host : Host} {R : List (String × String) → List (String × String) → Prop}
    {loaded : σ → σ → Prop} {scope : Scope} {step other : Render σ α}
    (hstep : ∀ final, (ofStores (.replaying final) loaded).Steps R scope step other)
    (hother : ∀ final, (ofStores (.replaying final) loaded).Steps R scope other other)
    {first second : Frame σ} (hframes : (ofStores .any loaded).Frames R first second)
    (hself : (ofStores .any loaded).Frames R second second)
    (hfirst : (step scope first).2.memory.decisions.Typed fieldsOf host)
    (hsecond : (other scope second).2.memory.decisions.Typed fieldsOf host) :
    (step scope first).1 = (other scope second).1 ∧
      ∃ last, (ofStores .any loaded).Frames R (step scope first).2 last ∧
        (ofStores .any loaded).Frames R (other scope second).2 last := by
  let final := (step scope first).2.memory.decisions.append (other scope second).2.memory.decisions
  let known : Frame σ := { second with memory := { second.memory with decisions := final } }
  obtain ⟨houtcome, hlast, -⟩ := (hstep final).forth first known { hframes with decisions := rfl }
    ⟨Decisions.within_append_left _ _, trivial⟩
  obtain ⟨houtcome', hlast', -⟩ := (hother final).forth second known { hself with decisions := rfl }
    ⟨Decisions.within_append_right hfirst hsecond, trivial⟩
  exact ⟨houtcome.trans houtcome'.symm, (other scope known).2, { hlast with decisions := trivial },
    { hlast' with decisions := trivial }⟩

theorem rel_of_isSome_eq {α : Type} {first second : Option α} (h : first.isSome = second.isSome) :
    Option.Rel (fun _ _ => True) first second := by
  cases first with
  | none =>
      cases second with
      | none => exact .none
      | some _ => cases h
  | some _ =>
      cases second with
      | none => cases h
      | some _ => exact .some trivial

section Outputs

variable (typed : renderer.Typed fieldsOf) (steady : renderer.loader.Steady among)
  {first second : Frame σ} (hfirst : first.Typed fieldsOf renderer.host among)
  (hsecond : second.Typed fieldsOf renderer.host among)

include typed steady hfirst hsecond

/-- Typed frames that differ in what they have decided and loaded, and in the sections they have collected,
give nodes the same output. -/
theorem outputs_eq_of_typed (hvars : first.vars.Matches second.vars)
    (hsections : first.sections.isSome = second.sections.isSome)
    (hiterations : first.iterations = second.iterations) (hcalls : first.calls = second.calls)
    (hstore : first.store = second.store) (inclusions calls : Nat) (nodes : List Node) (scope : Scope) :
    (ofNodes renderer (entrancesLeft renderer inclusions calls) nodes scope first).1 =
      (ofNodes renderer (entrancesLeft renderer inclusions calls) nodes scope second).1 := by
  let render := ofNodes renderer (entrancesLeft renderer inclusions calls) nodes scope
  have hafter {frame : Frame σ} (hframe : frame.Typed fieldsOf renderer.host among) :
      (render frame).2.memory.decisions.Typed fieldsOf renderer.host :=
    (holds_ofNodes (kept_typing typed steady) nodes scope trivial (i := ()) hframe).decisions
  have hsteps (final : Decisions) := by
    have holds : (ofStores (.replaying final) fun state state' => among state ∧ among state').Holds
        renderer renderer := by
      refine holds_ofStores renderer (Resolver.Accord.lasting_replaying final) ?_
      rintro path state state' ⟨hstate, hstate'⟩
      exact ⟨steady.answers path hstate hstate', steady.stays path hstate, steady.stays path hstate'⟩
    exact (steps_nodes holds (entrancesAlike holds inclusions calls)).2.2 nodes scope
      (R := fun _ _ => True) fun _ _ _ _ _ => trivial
  refine (outcome_eq_of_typed hsteps hsteps ?_ ?_ (hafter hfirst) (hafter hsecond)).1
  · exact ⟨hvars, rel_of_isSome_eq hsections, hiterations, hcalls, hstore, trivial, hfirst.loaded,
      hsecond.loaded⟩
  · exact ⟨hvars.right, rel_of_isSome_eq rfl, rfl, rfl, rfl, trivial, hsecond.loaded, hsecond.loaded⟩

/-- A node is the only one of a list. -/
theorem output_eq_of_typed (hvars : first.vars.Matches second.vars)
    (hsections : first.sections.isSome = second.sections.isSome)
    (hiterations : first.iterations = second.iterations) (hcalls : first.calls = second.calls)
    (hstore : first.store = second.store) (inclusions calls : Nat) (node : Node) (scope : Scope) :
    (ofNode renderer (entrancesLeft renderer inclusions calls) node scope first).1 =
      (ofNode renderer (entrancesLeft renderer inclusions calls) node scope second).1 := by
  rw [← ofNodes_singleton_run, ← ofNodes_singleton_run]
  exact outputs_eq_of_typed typed steady hfirst hsecond hvars hsections hiterations hcalls hstore inclusions
    calls [node] scope

end Outputs

end Render

variable {σ : Type} {fieldsOf : String → List String} {host : Host}

/-- Two frames of typed values that differ at most in the spelling of names and in what is remembered. -/
structure Frame.Twins (fieldsOf : String → List String) (host : Host) (first second : Frame σ) : Prop where
  vars : first.vars.Matches second.vars
  sections : first.sections = second.sections
  iterations : first.iterations = second.iterations
  calls : first.calls = second.calls
  store : first.store = second.store
  loaded : first.loaded = second.loaded
  typed : first.Typed fieldsOf host fun _ => True
  typed' : second.Typed fieldsOf host fun _ => True

namespace Frame

variable {first second third : Frame σ}

theorem twins_refl (typed : first.Typed fieldsOf host fun _ => True) (distinct : first.vars.Distinct) :
    first.Twins fieldsOf host first :=
  ⟨Variables.matches_refl distinct, rfl, rfl, rfl, rfl, rfl, typed, typed⟩

theorem Twins.symm (h : first.Twins fieldsOf host second) : second.Twins fieldsOf host first :=
  ⟨h.vars.symm, h.sections.symm, h.iterations.symm, h.calls.symm, h.store.symm, h.loaded.symm, h.typed',
    h.typed⟩

end Frame

namespace Render

variable {renderer : Renderer σ} {scope : Scope} {first second : Frame σ}

/-- Two runs end alike: both with one fault, or with answers that go together; and both in frames that are
twins. -/
inductive EndAlike {α β : Type} (fieldsOf : String → List String) (host : Host) (V : α → β → Prop) :
    Except Fault α × Frame σ → Except Fault β × Frame σ → Prop
  | ok {value : α} {value' : β} {after after' : Frame σ} (answers : V value value')
      (frames : after.Twins fieldsOf host after') :
      EndAlike fieldsOf host V (.ok value, after) (.ok value', after')
  | error {fault : Fault} {after after' : Frame σ} (frames : after.Twins fieldsOf host after') :
      EndAlike fieldsOf host V (.error fault, after) (.error fault, after')

section Rules

variable {α β γ δ : Type} {V : α → β → Prop} {W : γ → δ → Prop}

theorem EndAlike.output_eq {run run' : Except Fault α × Frame σ} (h : EndAlike fieldsOf host (· = ·) run run') :
    run.1 = run'.1 := by
  cases h with
  | ok answers _ => exact congrArg Except.ok answers
  | error _ => rfl

theorem EndAlike.frames {run : Except Fault α × Frame σ} {run' : Except Fault β × Frame σ}
    (h : EndAlike fieldsOf host V run run') : run.2.Twins fieldsOf host run'.2 := by
  cases h with
  | ok _ frames => exact frames
  | error frames => exact frames

/-- What follows steps that end alike may count on their answers and on twins. -/
theorem EndAlike.bind {step : Render σ α} {other : Render σ β} {next : α → Render σ γ}
    {next' : β → Render σ δ} (h : EndAlike fieldsOf host V (step scope first) (other scope second))
    (hnext : ∀ {value value' after after'}, V value value' → after.Twins fieldsOf host after' →
      EndAlike fieldsOf host W (next value scope after) (next' value' scope after')) :
    EndAlike fieldsOf host W ((step >>= next) scope first) ((other >>= next') scope second) := by
  rw [bind_run, bind_run]
  generalize step scope first = run at h
  generalize other scope second = run' at h
  cases h with
  | ok answers frames => exact hnext answers frames
  | error frames => exact .error frames

theorem EndAlike.keeping {restore : Frame σ → Frame σ → Frame σ} {step : Render σ α} {other : Render σ β}
    (h : EndAlike fieldsOf host V (step scope first) (other scope second))
    (hrestore : ∀ {after after' : Frame σ}, after.Twins fieldsOf host after' →
      (restore first after).Twins fieldsOf host (restore second after')) :
    EndAlike fieldsOf host V (keeping restore step scope first) (keeping restore other scope second) := by
  unfold Render.keeping
  generalize step scope first = run at h
  generalize other scope second = run' at h
  cases h with
  | ok answers frames => exact .ok answers (hrestore frames)
  | error frames => exact .error (hrestore frames)

theorem EndAlike.catching {step other : Render σ α} {handler handler' : Fault → Render σ α} {V : α → α → Prop}
    (h : EndAlike fieldsOf host V (step scope first) (other scope second))
    (hhandler : ∀ fault {after after' : Frame σ}, after.Twins fieldsOf host after' →
      EndAlike fieldsOf host V (handler fault scope after) (handler' fault scope after')) :
    EndAlike fieldsOf host V (tryCatch step handler scope first) (tryCatch other handler' scope second) := by
  rw [tryCatch_run, tryCatch_run]
  generalize step scope first = run at h
  generalize other scope second = run' at h
  cases h with
  | ok answers frames => exact .ok answers frames
  | error frames => exact hhandler _ frames

/-- Another template starts from twins if its variables match. -/
theorem EndAlike.inside {scope' : Scope} {vars vars' : Variables} {step : Render σ α} {other : Render σ β}
    (hvars : vars.Matches vars') (htyped : vars.Typed fieldsOf) (htyped' : vars'.Typed fieldsOf)
    (hstep : ∀ {first second : Frame σ}, first.Twins fieldsOf host second →
      EndAlike fieldsOf host V (step scope' first) (other scope' second))
    (h : first.Twins fieldsOf host second) :
    EndAlike fieldsOf host V (inside scope' vars step scope first) (inside scope' vars' other scope second) := by
  have hopened : EndAlike fieldsOf host V (step scope' { first with vars, sections := none })
      (other scope' { second with vars := vars', sections := none }) :=
    hstep { h with
      vars := hvars
      sections := rfl
      typed := { h.typed with vars := htyped }
      typed' := { h.typed' with vars := htyped' } }
  have hleft {after after' : Frame σ} (hafter : after.Twins fieldsOf host after') :
      Frame.Twins fieldsOf host { after with vars := first.vars, sections := first.sections }
        { after' with vars := second.vars, sections := second.sections } :=
    { hafter with
      vars := h.vars
      sections := h.sections
      typed := { hafter.typed with vars := h.typed.vars }
      typed' := { hafter.typed' with vars := h.typed'.vars } }
  unfold Render.inside
  generalize step scope' _ = run at hopened
  generalize other scope' _ = run' at hopened
  cases hopened with
  | ok answers frames => exact .ok answers (hleft frames)
  | error frames => exact .error (hleft frames)

/-- Steps that go alike step by step, whatever the second one knows from before, end alike. -/
theorem endAlike_of_steps {step other : Render σ α}
    (hstep : ∀ final, (ofStores (.replaying final) (· = ·)).Steps (· = ·) scope step other)
    (hother : ∀ final, (ofStores (.replaying final) (· = ·)).Steps (· = ·) scope other other)
    (keeps : Keeps (fun frame : Frame σ => frame.Typed fieldsOf host fun _ => True) scope (fun _ => True) step)
    (keeps' : Keeps (fun frame : Frame σ => frame.Typed fieldsOf host fun _ => True) scope (fun _ => True) other)
    (h : first.Twins fieldsOf host second) :
    EndAlike fieldsOf host (· = ·) (step scope first) (other scope second) := by
  have rel {sections : Option (List (String × String))} : Option.Rel (· = ·) sections sections :=
    Likeness.rel_refl (fun _ => rfl) sections
  have htyped := (keeps first h.typed).1
  have htyped' := (keeps' second h.typed').1
  obtain ⟨houtcome, last, hlast, hlast'⟩ := outcome_eq_of_typed hstep hother
    ⟨h.vars, h.sections ▸ rel, h.iterations, h.calls, h.store, trivial, h.loaded⟩
    ⟨h.vars.right, rel, rfl, rfl, rfl, trivial, rfl⟩ htyped.decisions htyped'.decisions
  have hframes : (step scope first).2.Twins fieldsOf host (other scope second).2 :=
    ⟨hlast.vars.trans hlast'.vars.symm,
      (Likeness.eq_of_rel hlast.sections).trans (Likeness.eq_of_rel hlast'.sections).symm,
      hlast.iterations.trans hlast'.iterations.symm, hlast.calls.trans hlast'.calls.symm,
      hlast.store.trans hlast'.store.symm, hlast.loaded.trans hlast'.loaded.symm, htyped, htyped'⟩
  generalize step scope first = run at houtcome hframes
  generalize other scope second = run' at houtcome hframes
  obtain ⟨result, after⟩ := run
  obtain ⟨result', after'⟩ := run'
  obtain rfl : result = result' := houtcome
  cases result with
  | error fault => exact .error hframes
  | ok value => exact .ok rfl hframes

end Rules

section Parts

variable (typed : renderer.Typed fieldsOf)

/-- Whatever has been decided, a renderer goes on from twins alike. -/
theorem holds_replaying (renderer : Renderer σ) (final : Decisions) :
    (ofStores (.replaying final) (· = ·)).Holds renderer renderer := by
  refine holds_ofStores renderer (Resolver.Accord.lasting_replaying final) ?_
  rintro path state _ rfl
  exact ⟨rfl, rfl⟩

include typed

theorem kept_typing_anywhere : (typing (σ := σ) fieldsOf renderer.host fun _ => True).Kept renderer :=
  kept_typing_of_stays typed fun _ _ _ => trivial

theorem endAlike_ofNodes (inclusions calls : Nat) (nodes : List Node)
    (h : first.Twins fieldsOf renderer.host second) :
    EndAlike fieldsOf renderer.host (· = ·)
      (ofNodes renderer (entrancesLeft renderer inclusions calls) nodes scope first)
      (ofNodes renderer (entrancesLeft renderer inclusions calls) nodes scope second) := by
  have hsteps (final : Decisions) :=
    (steps_nodes (holds_replaying renderer final)
      (entrancesAlike (holds_replaying renderer final) inclusions calls)).2.2 nodes scope sectionsLast_eq
  have hkept := kept_typing_anywhere typed
  have hkeeps := (keptBy_nodes hkept (keptByWays_entrancesLeft hkept inclusions calls)).2.2 nodes scope () trivial
  exact endAlike_of_steps hsteps hsteps hkeeps hkeeps h

end Parts

end Render

end Stencil
