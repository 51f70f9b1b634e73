import Mathlib.Data.List.Forall2
import Stencil.Proofs.Rendering.Entrances
import Stencil.Proofs.Rendering.Likeness
import Stencil.Proofs.Resolution.Agreement
import Stencil.Proofs.Stores

/-!
Every part of a template renders alike if what is inside it does, and so does every tree: renders that
start alike give the same output and end alike.
-/

namespace Stencil

open Markup

namespace Render

variable {σ τ α : Type} {like : Likeness σ τ} {scope : Scope}
  {R : List (String × String) → List (String × String) → Prop}
  {renderer : Renderer σ} {other : Renderer τ}

/-- A likeness of sections that lasts when a section is added to both sides. -/
def SectionsLast (R : List (String × String) → List (String × String) → Prop) : Prop :=
  ∀ name content {first second}, R first second →
    R (addSection name content first) (addSection name content second)

theorem sectionsLast_eq : SectionsLast (· = ·) := by
  rintro name content first _ rfl
  rfl

/-- Named steps that go alike one by one. -/
abbrev StepsAlike (like : Likeness σ τ) (R : List (String × String) → List (String × String) → Prop)
    (scope : Scope) (steps : List (String × Render σ String)) (others : List (String × Render τ String)) :
    Prop :=
  List.Forall₂ (fun step step' => step.1 = step'.1 ∧ like.Steps R scope step.2 step'.2) steps others

/-- The ways into bodies go alike. -/
abbrev BodiesAlike (like : Likeness σ τ) : Option (List Node → Render σ String) →
    Option (List Node → Render τ String) → Prop :=
  Option.Rel fun way way' => ∀ nodes scope {R}, SectionsLast R →
    like.Steps R scope (way nodes) (way' nodes)

theorem BodiesAlike.steps {enter : Option (List Node → Render σ String)}
    {enter' : Option (List Node → Render τ String)} (h : BodiesAlike like enter enter')
    (last : SectionsLast R) :
    Option.Rel (fun way way' => ∀ fragment ∈ scope.fragments,
      like.Steps R scope (way fragment.2) (way' fragment.2)) enter enter' := by
  cases h with
  | none => exact .none
  | some hway => exact .some fun fragment _ => hway fragment.2 scope last

/-- The ways into trees go alike. -/
abbrev TreesAlike (like : Likeness σ τ) : Option (Tree → Render σ String) →
    Option (Tree → Render τ String) → Prop :=
  Option.Rel fun way way' => ∀ tree scope, like.Steps (· = ·) scope (way tree) (way' tree)

theorem steps_collecting {step : Render σ String} {step' : Render τ String}
    (h : like.Steps (· = ·) scope step step') :
    like.Steps R scope (collecting step) (collecting step') := by
  have hcollected : like.Steps (· = ·) scope
      (do let body ← step; return (body, (← get).sections.getD []))
      (do let body ← step'; return (body, (← get).sections.getD [])) := by
    refine steps_bind h fun body => ?_
    refine steps_bind_get (fun frame => fun _ => id) fun frame frame' hframes => ?_
    rw [Likeness.eq_of_rel hframes.sections]
    exact steps_pure _
  exact steps_opening hcollected
    (fun _ _ hframes => ⟨{ hframes with sections := .some rfl }, rfl⟩) (fun _ => id)
    (fun before before' after after' hbefore hafter => { hafter with sections := hbefore.sections })
    (fun _ _ => id) fun _ _ => rfl

theorem steps_sectionContent (last : SectionsLast R) (name : String) {content : Render σ String}
    {content' : Render τ String} (h : like.Steps R scope content content') :
    like.Steps R scope (sectionContent name content) (sectionContent name content') := by
  have hkept : like.Steps R scope
      (do let rendered ← content
          modify fun frame =>
            { frame with sections := frame.sections.map (addSection (Text.lowercase name) rendered) }
          return "")
      (do let rendered ← content'
          modify fun frame =>
            { frame with sections := frame.sections.map (addSection (Text.lowercase name) rendered) }
          return "") := by
    refine steps_bind h fun rendered => ?_
    refine steps_bind (steps_modify (fun frame frame' hframes => { hframes with sections := ?_ })
      (fun _ => id) fun _ => rfl) fun _ => steps_pure _
    exact Likeness.rel_map hframes.sections fun hsections => last _ _ hsections
  refine steps_bind_get (fun frame => ?_) fun frame frame' hframes => ?_
  · split
    · exact h.back
    · exact hkept.back
  · have hcollects : frame.sections.isNone = frame'.sections.isNone := Likeness.isNone_eq_of_rel hframes.sections
    rw [hcollects]
    split
    · exact h
    · exact hkept

theorem steps_sectionPlace (name : String) (required : Bool) {default : Render σ String}
    {default' : Render τ String} (h : like.Steps R scope default default') :
    like.Steps R scope (sectionPlace name required default)
      (sectionPlace name required default') := by
  refine steps_bind_read ?_
  split
  · exact steps_pure _
  · split
    · exact steps_pure _
    · exact h

theorem steps_slotPlace (name : String) {default : Render σ String} {default' : Render τ String}
    (h : like.Steps R scope default default') :
    like.Steps R scope (slotPlace name default) (slotPlace name default') := by
  refine steps_bind_read ?_
  split
  · exact steps_pure _
  · exact h

theorem steps_slotContents {slots : List (String × Render σ String)}
    {slots' : List (String × Render τ String)} (h : StepsAlike like R scope slots slots') :
    like.Steps R scope (slotContents slots) (slotContents slots') := by
  unfold slotContents
  refine steps_bind ?_ fun contents => steps_pure _
  induction h with
  | nil => exact steps_pure _
  | @cons slot slot' rest rest' hslot _ ih =>
      obtain ⟨name, content⟩ := slot
      obtain ⟨name', content'⟩ := slot'
      obtain ⟨rfl, hcontent⟩ := hslot
      rw [List.mapM_cons, List.mapM_cons]
      refine steps_bind ?_ fun _ => steps_bind ih fun _ => steps_pure _
      exact steps_bind hcontent fun _ => steps_pure _

section Parts

variable (holds : like.Holds renderer other)

include holds

theorem steps_resolving {resolution : Resolver → Resolving α}
    (h : ∀ r r', (∀ expression,
        Resolver.Likewise like.accord (Resolver.resolve r expression) (Resolver.resolve r' expression)) →
      Resolver.Likewise like.accord (resolution r) (resolution r')) :
    like.Steps R scope (resolving renderer resolution) (resolving other resolution) := by
  refine ⟨fun frame admitted => ⟨(h _ _ (holds.own frame.vars)).back frame.memory admitted.1, admitted.2⟩,
    fun frame frame' hframes admitted => ?_⟩
  obtain ⟨hanswer, hdecisions⟩ := (h _ _ (holds.resolve hframes.vars)).forth frame.memory frame'.memory
    hframes.decisions admitted.1
  exact ⟨hanswer, { hframes with decisions := hdecisions }, rfl⟩

theorem steps_resolve (expression : String) :
    like.Steps R scope (resolve renderer expression) (resolve other expression) :=
  steps_resolving holds fun _ _ h => h expression.toList

theorem steps_interpolate (text : String) :
    like.Steps R scope (interpolate renderer text) (interpolate other text) :=
  steps_resolving holds fun _ _ h => Resolver.likewise_interpolate h text

theorem steps_optionMapM (text : Option String) :
    like.Steps R scope (text.mapM (interpolate renderer)) (text.mapM (interpolate other)) := by
  cases text with
  | none => exact steps_pure _
  | some text => exact steps_bind (steps_interpolate holds text) fun _ => steps_pure _

theorem steps_parameterValues (parameters : List Parameter) :
    like.Steps R scope (parameterValues renderer parameters) (parameterValues other parameters) := by
  refine steps_mapM (fun parameter => ?_) parameters
  exact steps_bind (steps_resolving holds fun _ _ h => Resolver.likewise_parameterValue h parameter)
    fun _ => steps_pure _

theorem steps_load (path : String) : like.Steps R scope (load renderer path) (load other path) := by
  refine ⟨fun frame admitted => ⟨admitted.1, holds.reach path frame.loaded admitted.2⟩,
    fun frame frame' hframes admitted => ?_⟩
  obtain ⟨hresult, hloaded⟩ := holds.load path hframes.loaded admitted.2
  exact ⟨hresult, { hframes with loaded := hloaded }, rfl⟩

theorem steps_interpolation (expression : String) :
    like.Steps R scope (interpolation renderer expression) (interpolation other expression) := by
  refine steps_bind (steps_resolve holds expression) fun value => ?_
  cases value with
  | none => exact steps_pure _
  | some value =>
      dsimp only
      rw [holds.security]
      exact steps_pure _

theorem steps_conditional {otherwise : Render σ String} {otherwise' : Render τ String}
    (hotherwise : like.Steps R scope otherwise otherwise')
    {branches : List (String × Render σ String)} {branches' : List (String × Render τ String)}
    (h : StepsAlike like R scope branches branches') :
    like.Steps R scope (conditional renderer otherwise branches)
      (conditional other otherwise' branches') := by
  induction h with
  | nil => exact hotherwise
  | @cons branch branch' rest rest' hfirst _ ih =>
      obtain ⟨condition, body⟩ := branch
      obtain ⟨condition', body'⟩ := branch'
      obtain ⟨rfl, hbody⟩ := hfirst
      rw [conditional, conditional, holds.security]
      refine steps_bind (steps_liftExcept _) fun _ => ?_
      refine steps_bind (steps_resolve holds condition) fun value => ?_
      split
      · exact hbody
      · exact ih

theorem steps_startIteration : like.Steps R scope (startIteration renderer) (startIteration other) := by
  refine steps_bind_get (fun frame after => ?_) fun frame frame' hframes => ?_
  · dsimp only
    split
    · exact id
    · exact id
  · dsimp only
    rw [hframes.iterations, holds.security]
    split
    · exact steps_throw _
    · exact steps_bind (steps_modify (fun _ _ hframes => { hframes with iterations := rfl })
        (fun _ => id) fun _ => rfl) fun _ => steps_note _ _

theorem steps_loop (item collection : String) {body : Render σ String} {body' : Render τ String}
    (hbody : like.Steps R scope body body') :
    like.Steps R scope (loop renderer item collection body) (loop other item collection body') := by
  refine steps_bind (steps_resolve holds collection) fun value => ?_
  split
  · exact steps_pure _
  next elements _ =>
    refine steps_keeping ?_ (fun before before' after after' hbefore hafter =>
      { hafter with
        vars := holds.restore item hafter.vars hbefore.vars
        iterations := hbefore.iterations }) (fun _ _ => id) fun _ _ => rfl
    refine steps_bind (steps_note _ _) fun _ => ?_
    refine steps_bind (steps_mapM (fun element => ?_) elements) fun _ => steps_pure _
    refine steps_bind (steps_startIteration holds) fun _ => ?_
    exact steps_bind (steps_modify (fun _ _ hframes =>
      { hframes with vars := holds.insert item element hframes.vars }) (fun _ => id) fun _ => rfl)
      fun _ => hbody

/-- The ways into bodies need to go alike into the bodies of the fragments that can be called. -/
theorem steps_call {enter : Option (List Node → Render σ String)}
    {enter' : Option (List Node → Render τ String)}
    (henter : Option.Rel (fun way way' => ∀ fragment ∈ scope.fragments,
      like.Steps R scope (way fragment.2) (way' fragment.2)) enter enter')
    (name : String) (parameters : List Parameter) :
    like.Steps R scope (call renderer enter name parameters) (call other enter' name parameters) := by
  refine steps_bind_read ?_
  split
  · exact steps_pure _
  next body hbody =>
    cases henter with
    | none =>
        dsimp only
        rw [holds.security]
        exact steps_throw _
    | @some way way' hway =>
        refine steps_keeping ?_ (fun before before' after after' hbefore hafter =>
          { hafter with vars := hbefore.vars, calls := hbefore.calls }) (fun _ _ => id) fun _ _ => rfl
        refine steps_bind (steps_modify (fun _ _ hframes =>
          { hframes with calls := congrArg (· + 1) hframes.calls }) (fun _ => id) fun _ => rfl)
          fun _ => ?_
        have hentered : like.Steps R scope
            (do let values ← parameterValues renderer parameters
                modify fun frame => { frame with vars := frame.vars.extend (Variables.ofList values) }
                way body)
            (do let values ← parameterValues other parameters
                modify fun frame => { frame with vars := frame.vars.extend (Variables.ofList values) }
                way' body) :=
          steps_bind (steps_parameterValues holds parameters) fun values =>
            steps_bind (steps_modify (fun _ _ hframes =>
              { hframes with vars := holds.extend _ hframes.vars }) (fun _ => id) fun _ => rfl)
              fun _ => hway _ (mem_of_lookup hbody)
        exact steps_bind_get (fun frame => back_bind (fun _ => id) fun _ =>
          hentered.back) fun _ _ _ => steps_bind (steps_note _ _) fun _ => hentered

theorem steps_layout {enter : Option (Tree → Render σ String)}
    {enter' : Option (Tree → Render τ String)} (henter : TreesAlike like enter enter')
    (name : String) {children : Render σ String} {children' : Render τ String}
    (h : like.Steps (· = ·) scope children children') :
    like.Steps R scope (layout renderer enter name children) (layout other enter' name children') := by
  refine steps_bind (steps_interpolate holds name) fun name => ?_
  refine steps_bind (steps_collecting h) fun result => ?_
  obtain ⟨body, sections⟩ := result
  dsimp only
  split
  · exact steps_pure _
  next name' _ =>
    refine steps_bind (steps_load holds name') fun found => ?_
    cases found with
    | none => exact steps_pure _
    | some tree =>
        cases henter with
        | none =>
            dsimp only
            rw [holds.security]
            exact steps_pure _
        | some hway =>
            exact steps_bind_get (fun frame => back_inside (hway tree _).back)
              fun frame frame' hframes => steps_inside hframes.vars (hway tree _)

/-- What follows a callback may count on what the callback changed. -/
theorem stepsBesideStore_announce (descriptor : Descriptor) {next : Variables → Render σ String}
    {next' : Variables → Render τ String}
    (h : ∀ changed, like.Steps R scope (next changed) (next' changed)) :
    like.StepsBesideStore R scope (announce renderer descriptor >>= next)
      (announce other descriptor >>= next') := by
  constructor
  · intro frame admitted
    unfold keeping at admitted
    rw [announce_bind_run] at admitted
    cases hbefore : renderer.hooks.before with
    | none =>
        rw [hbefore] at admitted
        exact (h {}).back frame admitted
    | some before =>
        rw [hbefore] at admitted
        exact (h _).back (frame.called descriptor before) admitted
  · intro frame frame' hframes admitted
    unfold keeping at admitted ⊢
    rw [announce_bind_run] at admitted ⊢
    rw [announce_bind_run, ← holds.hooks, ← hframes.store]
    cases hbefore : renderer.hooks.before with
    | none =>
        rw [hbefore] at admitted
        obtain ⟨hresult, hafter, -⟩ := (h {}).forth frame frame' hframes admitted
        exact ⟨hresult, { hafter with store := hframes.store }, rfl⟩
    | some before =>
        rw [hbefore] at admitted
        obtain ⟨hresult, hafter, -⟩ := (h _).forth (frame.called descriptor before)
          (frame'.called descriptor before)
          { hframes with store := congrArg (before descriptor) hframes.store } admitted
        exact ⟨hresult, { hafter with store := hframes.store }, rfl⟩

theorem steps_inclusion {way : Tree → Render σ String} {way' : Tree → Render τ String}
    (hway : ∀ tree scope, like.Steps (· = ·) scope (way tree) (way' tree)) (head : ComponentHead)
    {slots : List (String × Render σ String)} {slots' : List (String × Render τ String)}
    (h : StepsAlike like R scope slots slots') :
    like.Steps R scope (inclusion renderer way head slots) (inclusion other way' head slots') := by
  refine stepsBesideStore_bind (steps_interpolate holds _) fun path => ?_
  refine stepsBesideStore_bind (steps_optionMapM holds _) fun name => ?_
  refine stepsBesideStore_bind (steps_optionMapM holds _) fun oldName => ?_
  refine stepsBesideStore_announce holds _ fun changed => ?_
  refine steps_bind (steps_load holds path) fun found => ?_
  cases found with
  | none => exact steps_pure _
  | some tree =>
      refine steps_bind (steps_parameterValues holds _) fun values => ?_
      have hcontents := steps_slotContents h
      refine steps_bind_get (fun frame => ?_) fun frame frame' hframes => ?_
      · exact back_bind hcontents.back fun contents => back_bind (back_inside (hway tree _).back)
          fun output => fun _ => id
      · refine steps_bind hcontents fun contents => ?_
        have hvars := holds.component changed ⟨name, oldName, path, head.parameters⟩ values hframes.vars
        refine steps_bind (steps_inside hvars (hway tree _)) fun output => ?_
        rw [holds.hooks]
        exact steps_pure _

theorem steps_component {enter : Option (Tree → Render σ String)}
    {enter' : Option (Tree → Render τ String)} (henter : TreesAlike like enter enter')
    (head : ComponentHead) {slots : List (String × Render σ String)}
    {slots' : List (String × Render τ String)} (h : StepsAlike like R scope slots slots') :
    like.Steps R scope (component renderer enter head slots) (component other enter' head slots') := by
  cases henter with
  | none =>
      unfold component
      dsimp only
      rw [holds.security]
      exact steps_pure _
  | some hway => exact steps_catching (steps_inclusion holds hway head h) fun fault => steps_pure _

end Parts

/-- The ways into bodies and trees go alike. -/
structure EntrancesAlike (like : Likeness σ τ) (entrances : Entrances σ) (others : Entrances τ) :
    Prop where
  body : BodiesAlike like entrances.body others.body
  tree : TreesAlike like entrances.tree others.tree

section Trees

variable (holds : like.Holds renderer other)

include holds

/-- Nodes render alike: one case for each kind of node. -/
theorem steps_nodes {entrances : Entrances σ} {others : Entrances τ}
    (halike : EntrancesAlike like entrances others) :
    (∀ node scope {R}, SectionsLast R →
      like.Steps R scope (ofNode renderer entrances node) (ofNode other others node)) ∧
    (∀ bodies scope {R}, SectionsLast R →
      StepsAlike like R scope (ofBodies renderer entrances bodies) (ofBodies other others bodies)) ∧
    (∀ nodes scope {R}, SectionsLast R →
      like.Steps R scope (ofNodes renderer entrances nodes) (ofNodes other others nodes)) := by
  apply ofNode.mutual_induct
  · intro source scope R last
    exact steps_pure _
  · intro expression scope R last
    exact steps_interpolation holds expression
  · intro tag attributes children ih scope R last
    exact ih scope last
  · intro branches ih scope R last
    exact steps_conditional holds (steps_pure _) (ih scope last)
  · intro branches otherwise hotherwise hbranches scope R last
    exact steps_conditional holds (hotherwise scope last) (hbranches scope last)
  · intro item collection children ih scope R last
    exact steps_loop holds item collection (ih scope last)
  · intro head defaultSlot slots hdefault hslots scope R last
    refine steps_component holds halike.tree head (List.rel_append ?_ (hslots scope last))
    split
    · exact .nil
    · exact .cons ⟨rfl, hdefault scope last⟩ .nil
  · intro name children ih scope R last
    exact steps_layout holds halike.tree name (ih scope sectionsLast_eq)
  · intro name children ih scope R last
    exact steps_sectionContent last name (ih scope last)
  · intro name required default ih scope R last
    exact steps_sectionPlace name required (ih scope last)
  · intro scope R last
    exact steps_bind_read (steps_pure _)
  · intro name default ih scope R last
    exact steps_slotPlace name (ih scope last)
  · intro name body scope R last
    exact steps_pure _
  · intro name parameters scope R last
    exact steps_call holds (BodiesAlike.steps halike.body last) name parameters
  -- lists of nodes
  · intro scope R last
    exact steps_pure _
  · intro node rest hnode hrest scope R last
    exact steps_bind (hnode scope last) fun _ =>
      steps_bind (hrest scope last) fun _ => steps_pure _
  -- lists of bodies
  · intro scope R last
    exact .nil
  · intro name body rest hbody hrest scope R last
    exact .cons ⟨rfl, hbody scope last⟩ (hrest scope last)

theorem entrancesAlike (inclusions calls : Nat) :
    EntrancesAlike like (entrancesLeft renderer inclusions calls)
      (entrancesLeft other inclusions calls) := by
  refine entrancesLeft_induction (motive := EntrancesAlike like) (fun hbody htree => ?_) inclusions
    calls
  refine ⟨?_, ?_⟩
  · cases hbody with
    | none => exact .none
    | some halike => exact .some fun nodes scope => (steps_nodes holds halike).2.2 nodes scope
  · cases htree with
    | none => exact .none
    | some halike =>
        exact .some fun tree scope =>
          (steps_nodes holds halike).2.2 tree.children scope sectionsLast_eq

theorem steps_ofTree (tree : Tree) :
    like.Steps (· = ·) (Scope.of tree) (ofTree renderer tree) (ofTree other tree) := by
  unfold ofTree
  dsimp only
  rw [holds.security]
  exact (steps_nodes holds (entrancesAlike holds _ _)).2.2 tree.children (Scope.of tree) sectionsLast_eq

/-- A render that comes to what is admitted starts from what is admitted. -/
theorem run_back (tree : Tree) (vars store : Variables) (memory : Memory) (loaded : σ)
    (admitted : like.accord.admits (run renderer tree vars store memory loaded).memory.decisions)
    (reached : like.reached (run renderer tree vars store memory loaded).loaded) :
    like.accord.admits memory.decisions ∧ like.reached loaded :=
  (steps_ofTree holds tree).back { vars, store, memory, loaded } ⟨admitted, reached⟩

/-- Renders that start alike give the same output, as long as what the first one decides and loads is
admitted. They leave the store of the host program as it was, and what they remember and load is alike
again. -/
theorem run_alike (tree : Tree) {vars vars' : Variables} (store : Variables) (memory memory' : Memory)
    {loaded : σ} {loaded' : τ} (hvars : like.vars vars vars')
    (hdecisions : like.accord.alike memory.decisions memory'.decisions)
    (hloaded : like.loaded loaded loaded')
    (admitted : like.accord.admits (run renderer tree vars store memory loaded).memory.decisions)
    (reached : like.reached (run renderer tree vars store memory loaded).loaded) :
    (run renderer tree vars store memory loaded).output =
        (run other tree vars' store memory' loaded').output ∧
      (run renderer tree vars store memory loaded).store = store ∧
      like.accord.alike (run renderer tree vars store memory loaded).memory.decisions
        (run other tree vars' store memory' loaded').memory.decisions ∧
      like.loaded (run renderer tree vars store memory loaded).loaded
        (run other tree vars' store memory' loaded').loaded := by
  have hframes : like.Frames (· = ·) { vars, store, memory, loaded : Frame σ }
      { vars := vars', store, memory := memory', loaded := loaded' : Frame τ } :=
    ⟨hvars, .none, rfl, rfl, rfl, hdecisions, hloaded⟩
  obtain ⟨houtput, hafter, hkept⟩ := (steps_ofTree holds tree).forth _ _ hframes ⟨admitted, reached⟩
  exact ⟨houtput, hkept, hafter.decisions, hafter.loaded⟩

end Trees

/-- Two renders with the same variables, whose loaders and memories may differ. -/
def ofLoaders (accord : Resolver.Accord) (loaded : σ → τ → Prop) (reached : σ → Prop) :
    Likeness σ τ where
  vars := (· = ·)
  accord := accord
  loaded := loaded
  reached := reached

theorem holds_ofLoaders {accord : Resolver.Accord} (lasting : accord.Lasting) {loaded : σ → τ → Prop}
    {reached : σ → Prop} (hresolver : renderer.resolver = other.resolver)
    (hhooks : renderer.hooks = other.hooks)
    (hreach : ∀ path state, reached (renderer.loader.load path state).2 → reached state)
    (hload : ∀ path {state state'}, loaded state state' →
      reached (renderer.loader.load path state).2 →
      (renderer.loader.load path state).1 = (other.loader.load path state').1 ∧
        loaded (renderer.loader.load path state).2 (other.loader.load path state').2) :
    (ofLoaders accord loaded reached).Holds renderer other where
  security := congrArg Resolver.security (congrFun hresolver {})
  hooks := hhooks
  resolve := by
    rintro vars _ rfl expression
    rw [← hresolver]
    exact (Resolver.agrees_self _).likewise_resolve lasting expression
  own := fun vars expression => (Resolver.agrees_self _).likewise_resolve lasting expression
  reach := hreach
  load := hload
  insert := by
    rintro vars _ name value rfl
    rfl
  restore := by
    rintro vars _ before _ name rfl rfl
    rfl
  extend := by
    rintro vars _ more rfl
    rfl
  component := by
    rintro vars _ changed descriptor values rfl
    rfl

end Render

end Stencil

/-!
Renders with one renderer go alike from stores of variables that match, as long as what is remembered and
loaded on both sides goes alike.
-/

namespace Stencil

namespace Resolver

/-- A resolver cannot tell a store from its own if every name has the same value. -/
theorem agrees_of_get? {r : Resolver} {vars : Variables}
    (h : ∀ name, vars.get? name = r.vars.get? name) : Agrees r vars := by
  have hbound (segments : List (List Char)) (length : Nat) :
      longestBound? vars segments length = longestBound? r.vars segments length := by
    induction length with
    | zero => rfl
    | succ length ih => rw [longestBound?, longestBound?, h, ih]
  constructor
  · intro text _
    unfold direct? withVars
    rw [h]
  · intro text _
    unfold dotted withVars
    simp only [hbound]

end Resolver

namespace Render

variable {σ : Type} (renderer : Renderer σ)

/-- Two renders whose stores match. -/
def ofStores (accord : Resolver.Accord) (loaded : σ → σ → Prop) : Likeness σ σ where
  vars := Variables.Matches
  accord := accord
  loaded := loaded
  reached := fun _ => True

theorem holds_ofStores {accord : Resolver.Accord} (lasting : accord.Lasting) {loaded : σ → σ → Prop}
    (hload : ∀ path {state state'}, loaded state state' →
      (renderer.loader.load path state).1 = (renderer.loader.load path state').1 ∧
        loaded (renderer.loader.load path state).2 (renderer.loader.load path state').2) :
    (ofStores accord loaded).Holds renderer renderer where
  security := rfl
  hooks := rfl
  resolve {vars vars'} h expression := by
    have hagrees : (renderer.resolver vars).Agrees vars' :=
      Resolver.agrees_of_get? fun name => (h.get?_eq name).symm
    exact hagrees.likewise_resolve lasting expression
  own vars expression := (Resolver.agrees_self _).likewise_resolve lasting expression
  reach _ _ := id
  load path _ _ h _ := hload path h
  insert name value h := h.insert name value
  restore name h h' := by
    rw [h'.get?_eq name]
    exact h.restore name _
  extend more h := h.extend more
  component changed descriptor values h := h.component changed descriptor values

end Render

end Stencil
