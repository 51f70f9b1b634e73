import Stencil.Proofs.Rendering.Alike

/-!
The component references that a render of a tree comes to. A render may be listed: it goes through the
nodes like any other one, and whenever it comes to a component of the tree, it writes down the path that is
referred to, whatever becomes of the component. Fragments that are called belong to the tree; the templates
of components and layouts do not, and are rendered without a list. A listed render goes like the render
itself, and what is known of all references in the tree is known of those on the list.
-/

namespace Stencil

open Markup

variable {σ α : Type}

/-- The state of a loader, with the paths of the component references that a render came to, the last one
first. -/
structure Listed (σ : Type) where
  loaded : σ
  reached : List String := []

/-- The renderer with a loader beside which a list is kept. -/
def Renderer.listed (renderer : Renderer σ) : Renderer (Listed σ) where
  security := renderer.security
  host := renderer.host
  ownFilters := renderer.ownFilters
  sharedFilters := renderer.sharedFilters
  loader := ⟨fun path state =>
    let (found, loaded) := renderer.loader.load path state.loaded
    (found, { state with loaded })⟩
  hooks := renderer.hooks

/-- The frame with a list that is still empty. -/
def Frame.listed (frame : Frame σ) : Frame (Listed σ) :=
  { frame with loaded := { loaded := frame.loaded } }

/-- If a node refers to a component, the path is among known ones. -/
def Markup.Node.RefersTo (known : List String) (node : Node) : Prop :=
  ∀ path ∈ node.componentPath?, path ∈ known

namespace Render

/-- A step at a component reference, whose path is written down first. -/
def listing (path : String) (step : Render (Listed σ) α) : Render (Listed σ) α := do
  modify fun frame => { frame with loaded := { frame.loaded with reached := path :: frame.loaded.reached } }
  step

section Evaluation

variable (renderer : Renderer (Listed σ)) (entrances : Entrances (Listed σ))

mutual

/-- The output of a node, with the component references on a list. -/
def listedNode : Node → Render (Listed σ) String
  | .text source => return source
  | .interpolation expression => interpolation renderer expression
  | .container _ _ children => listedNodes children
  | .conditional branches none => conditional renderer (return "") (listedBodies branches)
  | .conditional branches (some otherwise) =>
      conditional renderer (listedNodes otherwise) (listedBodies branches)
  | .loop item collection children => loop renderer item collection (listedNodes children)
  | .component head defaultSlot slots =>
      listing head.path
        (component renderer entrances.tree head
          ((if defaultSlot.isEmpty then [] else [(defaultSlotName, listedNodes defaultSlot)]) ++
            listedBodies slots))
  | .layout name children => layout renderer entrances.tree name (listedNodes children)
  | .sectionContent name children => sectionContent name (listedNodes children)
  | .sectionPlace name required default => sectionPlace name required (listedNodes default)
  | .bodyPlace => bodyPlace
  | .slotPlace name default => slotPlace name (listedNodes default)
  | .fragment _ _ => return ""
  | .call name parameters => call renderer entrances.body name parameters

/-- The outputs of nodes, with the component references on a list. -/
def listedNodes : List Node → Render (Listed σ) String
  | [] => return ""
  | node :: rest => do
      let first ← listedNode node
      let others ← listedNodes rest
      return first ++ others

/-- The steps that render named bodies, with the component references on a list. -/
def listedBodies : List (String × List Node) → List (String × Render (Listed σ) String)
  | [] => []
  | (name, body) :: rest => (name, listedNodes body) :: listedBodies rest

end

end Evaluation

/-- The ways in that are left to a listed render: bodies of fragments are rendered with the list, other
trees without. -/
def listedEntrances (renderer : Renderer σ) (inclusions : Nat) : Nat → Entrances (Listed σ)
  | 0 => ⟨none, (entrancesLeft renderer.listed inclusions 0).tree⟩
  | calls + 1 =>
      ⟨some fun body => listedNodes renderer.listed (listedEntrances renderer inclusions calls) body,
        (entrancesLeft renderer.listed inclusions (calls + 1)).tree⟩

section Likeness

variable {renderer : Renderer σ} {known : List String} {scope : Scope}

/-- A render, and one with a list that holds nothing but known paths. -/
def ofListed (known : List String) : Likeness σ (Listed σ) :=
  ofLoaders .same (fun loaded state => loaded = state.loaded ∧ state.reached ⊆ known) fun _ => True

theorem holds_ofListed (renderer : Renderer σ) (known : List String) :
    (ofListed known).Holds renderer renderer.listed := by
  refine holds_ofLoaders Resolver.Accord.lasting_same rfl rfl (fun _ _ => id) ?_
  rintro path _ state ⟨rfl, hreached⟩ -
  exact ⟨rfl, rfl, hreached⟩

theorem steps_listing {R : List (String × String) → List (String × String) → Prop} {path : String}
    (hpath : path ∈ known) {step : Render σ α} {step' : Render (Listed σ) α}
    (h : (ofListed known).Steps R scope step step') :
    (ofListed known).Steps R scope step (listing path step') := by
  refine ⟨h.back, fun frame frame' hframes => ?_⟩
  obtain ⟨hloaded, hreached⟩ := hframes.loaded
  exact h.forth frame
    { frame' with loaded := { frame'.loaded with reached := path :: frame'.loaded.reached } }
    { hframes with loaded := ⟨hloaded, List.cons_subset.2 ⟨hpath, hreached⟩⟩ }

/-- Nodes render alike with and without a list that their references are known for: one case for each kind
of node. -/
theorem steps_listedNodes {entrances : Entrances σ} {others : Entrances (Listed σ)}
    (hbody : Option.Rel (fun way way' => ∀ fragment ∈ scope.fragments,
      (ofListed known).Steps (· = ·) scope (way fragment.2) (way' fragment.2)) entrances.body others.body)
    (htree : TreesAlike (ofListed known) entrances.tree others.tree) :
    (∀ node, Throughout (Node.RefersTo known) [node] →
      (ofListed known).Steps (· = ·) scope (ofNode renderer entrances node)
        (listedNode renderer.listed others node)) ∧
    (∀ bodies : List (String × List Node), (∀ body ∈ bodies, Throughout (Node.RefersTo known) body.2) →
      StepsAlike (ofListed known) (· = ·) scope (ofBodies renderer entrances bodies)
        (listedBodies renderer.listed others bodies)) ∧
    (∀ nodes, Throughout (Node.RefersTo known) nodes →
      (ofListed known).Steps (· = ·) scope (ofNodes renderer entrances nodes)
        (listedNodes renderer.listed others nodes)) := by
  have holds := holds_ofListed renderer known
  apply ofNode.mutual_induct
  · intro source h
    exact steps_pure _
  · intro expression h
    exact steps_interpolation holds expression
  · intro tag attributes children ih h
    exact ih h.inside
  · intro branches ih h
    exact steps_conditional holds (steps_pure _) (ih (throughout_bodies h.inside))
  · intro branches otherwise hotherwise hbranches h
    have hinside := h.inside
    simp only [Node.inside, List.mem_append, or_imp, forall_and] at hinside
    exact steps_conditional holds (hotherwise hinside.2) (hbranches (throughout_bodies hinside.1))
  · intro item collection children ih h
    exact steps_loop holds item collection (ih h.inside)
  · intro head defaultSlot slots hdefault hslots h
    have hinside := h.inside
    simp only [Node.inside, List.mem_append, or_imp, forall_and] at hinside
    refine steps_listing (h.own head.path rfl) ?_
    refine steps_component holds htree head
      (List.rel_append ?_ (hslots (throughout_bodies hinside.2)))
    split
    · exact .nil
    · exact .cons ⟨rfl, hdefault hinside.1⟩ .nil
  · intro name children ih h
    exact steps_layout holds htree name (ih h.inside)
  · intro name children ih h
    exact steps_sectionContent sectionsLast_eq name (ih h.inside)
  · intro name required default ih h
    exact steps_sectionPlace name required (ih h.inside)
  · intro h
    exact steps_bind_read (steps_pure _)
  · intro name default ih h
    exact steps_slotPlace name (ih h.inside)
  · intro name body h
    exact steps_pure _
  · intro name parameters h
    exact steps_call holds hbody name parameters
  -- lists of nodes
  · intro h
    exact steps_pure _
  · intro node rest hnode hrest h
    obtain ⟨hfirst, hothers⟩ := throughout_cons.1 h
    exact steps_bind (hnode hfirst) fun _ => steps_bind (hrest hothers) fun _ => steps_pure _
  -- lists of bodies
  · intro h
    exact .nil
  · intro name body rest hbody hrest h
    obtain ⟨hfirst, hothers⟩ := List.forall_mem_cons.1 h
    exact .cons ⟨rfl, hbody hfirst⟩ (hrest hothers)

theorem treesAlike_listed (inclusions calls : Nat) :
    TreesAlike (ofListed known) (entrancesLeft renderer inclusions calls).tree
      (listedEntrances renderer inclusions calls).tree := by
  have htree := (entrancesAlike (holds_ofListed renderer known) inclusions calls).tree
  cases calls with
  | zero => exact htree
  | succ calls => exact htree

section Scopes

variable (hscope : ∀ fragment ∈ scope.fragments, Throughout (Node.RefersTo known) fragment.2)

include hscope

theorem steps_listedBody (inclusions calls : Nat) :
    Option.Rel (fun way way' => ∀ fragment ∈ scope.fragments,
        (ofListed known).Steps (· = ·) scope (way fragment.2) (way' fragment.2))
      (entrancesLeft renderer inclusions calls).body (listedEntrances renderer inclusions calls).body := by
  induction calls with
  | zero =>
      rw [body_entrancesLeft_zero]
      exact .none
  | succ calls ih =>
      rw [body_entrancesLeft_succ]
      refine .some fun fragment hmem => ?_
      exact (steps_listedNodes ih (treesAlike_listed inclusions calls)).2.2 fragment.2
        (hscope fragment hmem)

/-- A render of nodes goes as it goes with a list, and what comes to be listed is known. -/
theorem steps_ofNodes_listed (renderer : Renderer σ) (inclusions calls : Nat) {nodes : List Node}
    (h : Throughout (Node.RefersTo known) nodes) :
    (ofListed known).Steps (· = ·) scope (ofNodes renderer (entrancesLeft renderer inclusions calls) nodes)
      (listedNodes renderer.listed (listedEntrances renderer inclusions calls) nodes) :=
  (steps_listedNodes (steps_listedBody hscope inclusions calls)
    (treesAlike_listed inclusions calls)).2.2 nodes h

end Scopes

end Likeness

end Render

end Stencil
