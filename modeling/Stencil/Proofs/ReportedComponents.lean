import Mathlib.Data.List.Induction
import Stencil.Proofs.Rendering.Listing

/-!
A tree reports all components that a render of it may come to. Whatever is rendered and however far it gets,
each component reference that the render comes to in the tree has its path in the report; and the report
holds each path once, in the order in which a walk down the tree first meets it. The walk goes through the
child lists of every node, whereas a render takes one arm of a conditional, goes through a loop several times
or not at all, and jumps to the bodies of fragments.
-/

namespace Stencil

open Markup

/-- The nodes of a list and below it, as a walk meets them that goes down a node before it goes on. -/
inductive Markup.DepthFirst : List Node → List Node → Prop where
  | nil : DepthFirst [] []
  | cons {node : Node} {rest below later : List Node} (down : DepthFirst node.childLists.flatten below)
      (on : DepthFirst rest later) : DepthFirst (node :: rest) (node :: (below ++ later))

namespace Markup

theorem depthFirst_preorder (nodes : List Node) : DepthFirst nodes (preorder nodes) := by
  have all (nodes : List Node) (h : ∀ node ∈ nodes, DepthFirst node.childLists.flatten node.inside) :
      DepthFirst nodes (preorder nodes) := by
    induction nodes with
    | nil => exact .nil
    | cons node rest ih =>
        obtain ⟨hnode, hrest⟩ := List.forall_mem_cons.1 h
        exact .cons hnode (ih hrest)
  have hinside (node : Node) : DepthFirst node.childLists.flatten node.inside := by
    induction node using Node.induction with
    | step node ih =>
        rw [node.inside_eq]
        refine all _ fun child hmem => ?_
        obtain ⟨children, hchildren, hchild⟩ := List.mem_flatten.1 hmem
        exact ih children hchildren child hchild
  exact all nodes fun node _ => hinside node

/-- The members of a list, each once, in the order in which they first occur in it. -/
structure FirstOccurrences (list firsts : List String) : Prop where
  nodup : firsts.Nodup
  mem : ∀ text, text ∈ firsts ↔ text ∈ list
  /-- What stands before a member is what occurs before its first occurrence. -/
  order : ∀ before text after, list = before ++ text :: after → text ∉ before →
    ∃ earlier later, firsts = earlier ++ text :: later ∧ ∀ other, other ∈ earlier ↔ other ∈ before

theorem nodup_eraseDups (list : List String) : list.eraseDups.Nodup := by
  induction list using List.reverseRecOn with
  | nil => exact List.nodup_nil
  | append_singleton front last ih =>
      rw [List.eraseDups_append]
      by_cases hmem : last ∈ front
      · rw [show [last].removeAll front = [] by simp [List.removeAll, hmem]]
        rwa [List.eraseDups_nil, List.append_nil]
      · rw [show [last].removeAll front = [last] by simp [List.removeAll, hmem]]
        refine List.nodup_append.2 ⟨ih, List.pairwise_singleton .., ?_⟩
        intro text hfront other hlast heq
        refine hmem ?_
        rwa [← List.mem_singleton.1 hlast, ← heq, ← List.mem_eraseDups]

theorem firstOccurrences_eraseDups (list : List String) : FirstOccurrences list list.eraseDups where
  nodup := nodup_eraseDups list
  mem _ := List.mem_eraseDups
  order := by
    rintro before text after rfl hfirst
    have hkept : (text :: after).removeAll before = text :: after.removeAll before := by
      simp [List.removeAll, hfirst]
    rw [List.eraseDups_append, hkept, List.eraseDups_cons]
    exact ⟨_, _, rfl, fun _ => List.mem_eraseDups⟩

/-- The components that a tree refers to are known by what it reports. -/
theorem Tree.refersTo_componentRefs (tree : Tree) :
    Throughout (Node.RefersTo tree.componentRefs) tree.children :=
  fun node hmem _ hpath => List.mem_eraseDups.2 (List.mem_filterMap.2 ⟨node, hmem, hpath⟩)

end Markup

namespace Render

variable {σ : Type}

/-- A render of a tree goes as it goes with a list of the component references that it comes to. All of these
are among the components that the tree reports, which are the paths of its references, each once, in the
order in which a walk down the tree first meets them. -/
theorem reached_componentRefs (renderer : Renderer σ) (tree : Tree) (sections slots : List (String × String))
    (body : Option String) (inclusions calls : Nat) (frame : Frame σ) :
    let scope := { Scope.of tree with sections, body, slots }
    let rendered := ofNodes renderer (entrancesLeft renderer inclusions calls) tree.children scope frame
    let listed := listedNodes renderer.listed (listedEntrances renderer inclusions calls) tree.children scope
      frame.listed
    listed.1 = rendered.1 ∧ listed.2.loaded.loaded = rendered.2.loaded ∧
      listed.2.loaded.reached ⊆ tree.componentRefs ∧
      ∃ visited, DepthFirst tree.children visited ∧
        FirstOccurrences (visited.filterMap Node.componentPath?) tree.componentRefs := by
  intro scope rendered listed
  have hscope : ∀ fragment ∈ scope.fragments, Throughout (Node.RefersTo tree.componentRefs) fragment.2 :=
    Scope.throughout_of tree.refersTo_componentRefs
  have hframes : (ofListed tree.componentRefs).Frames (· = ·) frame frame.listed :=
    ⟨rfl, Likeness.rel_refl (fun _ => rfl) _, rfl, rfl, rfl, rfl, rfl, List.nil_subset _⟩
  have hsteps := steps_ofNodes_listed hscope renderer inclusions calls tree.refersTo_componentRefs
  obtain ⟨hresult, hafter, -⟩ := hsteps.forth frame frame.listed hframes ⟨trivial, trivial⟩
  exact ⟨hresult.symm, hafter.loaded.1.symm, hafter.loaded.2, preorder tree.children,
    depthFirst_preorder tree.children, firstOccurrences_eraseDups _⟩

/-- The list of a page whose only component stands in a fragment that is called. -/
example (renderer : Renderer σ) (frame : Frame σ) :
    let page : Tree := .ofNodes [.call "card" [],
      .fragment "card" [.component ⟨.direct, "portrait", none, none, []⟩ [] []]]
    (listedNodes renderer.listed (listedEntrances renderer 0 1) page.children (Scope.of page)
      frame.listed).2.loaded.reached = ["portrait"] := by
  dsimp only [listedEntrances]
  rw [tree_entrancesLeft_zero, tree_entrancesLeft_zero]
  rfl

end Render

end Stencil
