import Stencil.Markup.Node

/-!
The nodes below a node. What is below a node of a tree is below the tree, and the texts in a tree are
those of its parts.
-/

namespace Stencil.Markup

theorem preorder_append (first second : List Node) :
    preorder (first ++ second) = preorder first ++ preorder second := by
  induction first with
  | nil => rfl
  | cons node rest ih =>
      rw [List.cons_append, preorder, ih, preorder, List.cons_append, List.append_assoc]

theorem preorder_singleton (node : Node) : preorder [node] = node :: node.inside := by
  rw [preorder, preorder, List.append_nil]

theorem mem_preorder {inner : Node} {nodes : List Node} :
    inner ∈ preorder nodes ↔ ∃ node ∈ nodes, inner ∈ preorder [node] := by
  induction nodes with
  | nil => simp [preorder]
  | cons node rest ih => simp [preorder, ih, or_assoc]

theorem mem_preorderOfBodies {node : Node} {bodies : List (String × List Node)} :
    node ∈ preorderOfBodies bodies ↔ ∃ body ∈ bodies, node ∈ preorder body.2 := by
  induction bodies with
  | nil => simp [preorderOfBodies]
  | cons body rest ih => simp [preorderOfBodies, ih]

theorem preorderOfBodies_eq (bodies : List (String × List Node)) :
    preorderOfBodies bodies = preorder (bodies.flatMap Prod.snd) := by
  induction bodies with
  | nil => rfl
  | cons body rest ih => rw [preorderOfBodies, ih, List.flatMap_cons, preorder_append]

/-- What is below a node is what its child lists hold, one after another. -/
theorem Node.inside_eq (node : Node) : node.inside = preorder node.childLists.flatten := by
  have hbodies (bodies : List (String × List Node)) :
      preorderOfBodies bodies = preorder (bodies.map Prod.snd).flatten := preorderOfBodies_eq bodies
  cases node with
  | conditional branches otherwise =>
      cases otherwise <;> simp [Node.inside, Node.childLists, hbodies, preorder_append]
  | component head defaultSlot slots =>
      simp [Node.inside, Node.childLists, hbodies, preorder_append]
  | _ => simp [Node.inside, Node.childLists, preorder]

/-- What is below a node stands in its child lists. -/
theorem mem_inside {inner node : Node} :
    inner ∈ node.inside ↔ ∃ children ∈ node.childLists, inner ∈ preorder children := by
  rw [node.inside_eq, mem_preorder]
  constructor
  · rintro ⟨child, hchild, hmem⟩
    obtain ⟨children, hchildren, hchild⟩ := List.mem_flatten.1 hchild
    exact ⟨children, hchildren, mem_preorder.2 ⟨child, hchild, hmem⟩⟩
  · rintro ⟨children, hchildren, hmem⟩
    obtain ⟨child, hchild, hmem⟩ := mem_preorder.1 hmem
    exact ⟨child, List.mem_flatten.2 ⟨children, hchildren, hchild⟩, hmem⟩

/-- A property that a node has if all its children have it is a property of every node. -/
theorem Node.induction {P : Node → Prop}
    (step : ∀ node : Node, (∀ children ∈ node.childLists, ∀ child ∈ children, P child) → P node)
    (node : Node) : P node := by
  have all : (∀ node, P node) ∧
      (∀ bodies : List (String × List Node), ∀ body ∈ bodies, ∀ child ∈ body.2, P child) ∧
      (∀ nodes : List Node, ∀ child ∈ nodes, P child) := by
    apply Node.inside.mutual_induct
    -- nodes without children
    case case1 | case2 | case3 | case4 =>
      intros
      exact step _ fun children hmem => absurd hmem List.not_mem_nil
    -- nodes with one list of children
    case case5 | case8 | case10 | case11 | case12 | case13 | case14 =>
      intros
      rename_i hall
      refine step _ fun children hmem => ?_
      cases List.mem_singleton.1 hmem
      exact hall
    -- conditionals and components
    · intro branches hbranches
      refine step _ fun children hmem => ?_
      rcases List.mem_append.1 hmem with hmem | hmem
      · obtain ⟨body, hbody, rfl⟩ := List.mem_map.1 hmem
        exact hbranches body hbody
      · exact absurd hmem List.not_mem_nil
    · intro branches otherwise hbranches hotherwise
      refine step _ fun children hmem => ?_
      rcases List.mem_append.1 hmem with hmem | hmem
      · obtain ⟨body, hbody, rfl⟩ := List.mem_map.1 hmem
        exact hbranches body hbody
      · cases List.mem_singleton.1 hmem
        exact hotherwise
    · intro head defaultSlot slots hdefault hslots
      refine step _ fun children hmem => ?_
      rcases List.mem_cons.1 hmem with rfl | hmem
      · exact hdefault
      · obtain ⟨body, hbody, rfl⟩ := List.mem_map.1 hmem
        exact hslots body hbody
    -- lists of nodes
    · exact fun child hmem => absurd hmem List.not_mem_nil
    · exact fun node rest hnode hrest => List.forall_mem_cons.2 ⟨hnode, hrest⟩
    -- lists of bodies
    · exact fun body hmem => absurd hmem List.not_mem_nil
    · exact fun name body rest hbody hrest => List.forall_mem_cons.2 ⟨hbody, hrest⟩
  exact all.1 node

/-- What is below a node below others is below the others. -/
theorem inside_subset_inside :
    (∀ node : Node, ∀ middle ∈ node.inside, middle.inside ⊆ node.inside) ∧
    (∀ bodies, ∀ middle ∈ preorderOfBodies bodies, middle.inside ⊆ preorderOfBodies bodies) ∧
    (∀ nodes, ∀ middle ∈ preorder nodes, middle.inside ⊆ preorder nodes) := by
  have append {first second : List Node} (hfirst : ∀ middle ∈ first, middle.inside ⊆ first)
      (hsecond : ∀ middle ∈ second, middle.inside ⊆ second) :
      ∀ middle ∈ first ++ second, middle.inside ⊆ first ++ second := by
    intro middle hmem
    rcases List.mem_append.1 hmem with hmem | hmem
    · exact List.subset_append_of_subset_left second (hfirst middle hmem)
    · exact List.subset_append_of_subset_right first (hsecond middle hmem)
  apply Node.inside.mutual_induct
  -- nodes without children
  case case1 | case2 | case3 | case4 =>
    intros
    contradiction
  -- nodes with one list of children
  case case5 | case6 | case8 | case10 | case11 | case12 | case13 | case14 =>
    intros
    rename_i children middle hmem
    exact children middle hmem
  -- conditionals with an arm for no condition, and components
  · intro branches otherwise hbranches hotherwise
    exact append hbranches hotherwise
  · intro head defaultSlot slots hdefault hslots
    exact append hdefault hslots
  -- lists of nodes
  · exact fun middle hmem => absurd hmem List.not_mem_nil
  · intro node rest hnode hrest middle hmem
    rcases List.mem_cons.1 hmem with rfl | hmem
    · exact fun other hother => List.mem_cons_of_mem _ (List.mem_append_left _ hother)
    · exact fun other hother => List.mem_cons_of_mem _ (append hnode hrest middle hmem hother)
  -- lists of bodies
  · exact fun middle hmem => absurd hmem List.not_mem_nil
  · intro name body rest hbody hrest
    exact append hbody hrest

/-- All nodes of a list and below it have a property. -/
def Throughout (P : Node → Prop) (nodes : List Node) : Prop := ∀ node ∈ preorder nodes, P node

section Throughout

variable {P : Node → Prop}

theorem throughout_cons {node : Node} {rest : List Node} :
    Throughout P (node :: rest) ↔ Throughout P [node] ∧ Throughout P rest := by
  rw [show node :: rest = [node] ++ rest from rfl]
  simp only [Throughout, preorder_append, List.mem_append, or_imp, forall_and]

theorem Throughout.own {node : Node} (h : Throughout P [node]) : P node :=
  h node (List.mem_cons_self ..)

theorem Throughout.inside {node : Node} (h : Throughout P [node]) : ∀ inner ∈ node.inside, P inner := by
  intro inner hmem
  refine h inner ?_
  rw [preorder_singleton]
  exact List.mem_cons_of_mem _ hmem

theorem throughout_bodies {bodies : List (String × List Node)}
    (h : ∀ inner ∈ preorderOfBodies bodies, P inner) : ∀ body ∈ bodies, Throughout P body.2 :=
  fun body hbody inner hmem => h inner (mem_preorderOfBodies.2 ⟨body, hbody, hmem⟩)

/-- What all nodes of a tree have, all nodes of a fragment's body have. -/
theorem Throughout.fragment {nodes body : List Node} {name : String} (h : Throughout P nodes)
    (hmem : Node.fragment name body ∈ preorder nodes) : Throughout P body :=
  fun inner hinner => h inner (inside_subset_inside.2.2 nodes _ hmem hinner)

end Throughout

/-- All texts among nodes and below them have a property. -/
def TextsHave (P : String → Prop) (nodes : List Node) : Prop :=
  ∀ source, Node.text source ∈ preorder nodes → P source

variable {P : String → Prop}

theorem textsHave_iff {nodes : List Node} :
    TextsHave P nodes ↔ Throughout (fun node => ∀ source, node = .text source → P source) nodes :=
  ⟨fun h _ hmem source heq => h source (heq ▸ hmem), fun h source hmem => h _ hmem source rfl⟩

theorem textsHave_append {first second : List Node} :
    TextsHave P (first ++ second) ↔ TextsHave P first ∧ TextsHave P second := by
  simp only [TextsHave, preorder_append, List.mem_append, or_imp, forall_and]

theorem textsHave_cons {node : Node} {rest : List Node} :
    TextsHave P (node :: rest) ↔ TextsHave P [node] ∧ TextsHave P rest :=
  @textsHave_append P [node] rest

/-- Whether a node was written by a tag. -/
def Node.isTag : Node → Bool
  | .text _ | .interpolation _ => false
  | _ => true

/-- The texts of a tag are those of its children. -/
theorem textsHave_tag {node : Node} (htag : node.isTag = true)
    (h : ∀ children ∈ node.childLists, ∀ child ∈ children, TextsHave P [child]) :
    TextsHave P [node] := by
  intro source hmem
  rw [preorder_singleton] at hmem
  rcases List.mem_cons.1 hmem with rfl | hinside
  · cases htag
  · obtain ⟨children, hchildren, hmem⟩ := mem_inside.1 hinside
    obtain ⟨child, hchild, hsource⟩ := mem_preorder.1 hmem
    exact h children hchildren child hchild source hsource

theorem TextsHave.inside {node : Node} (h : TextsHave P [node]) :
    ∀ source, Node.text source ∈ node.inside → P source := by
  intro source hmem
  refine h source ?_
  rw [preorder_singleton]
  exact List.mem_cons_of_mem _ hmem

theorem textsHave_bodies {bodies : List (String × List Node)}
    (h : ∀ source, Node.text source ∈ preorderOfBodies bodies → P source) :
    ∀ body ∈ bodies, TextsHave P body.2 :=
  fun body hbody source hmem => h source (mem_preorderOfBodies.2 ⟨body, hbody, hmem⟩)

end Stencil.Markup
