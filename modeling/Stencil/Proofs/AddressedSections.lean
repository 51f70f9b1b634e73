import Stencil.Proofs.Folding
import Stencil.Proofs.Markup.Nodes

/-!
Sections that can be addressed. A name leads to the first section of that name, in the order of a walk that visits
parents before their children, among the sections that are reached through containers, layouts and loops only; the
case of letters does not matter. The index that a tree keeps for this holds paths of child positions, which one
recursion writes down and another follows.
-/

namespace Stencil.Markup

open Text

/-- The children that a node lets sections be reached through. -/
def Node.passage? : Node → Option (List Node)
  | .container _ _ children | .layout _ children | .loop _ _ children => some children
  | _ => none

/-- Whether a node is a section of a name, which is given in lower case. -/
def Node.isSection (key : String) : Node → Bool
  | .sectionContent name _ => lowercase name == key
  | _ => false

/-- A node that is reached from a list of nodes through containers, layouts and loops only, with its position in
the walk over all nodes of the list and below it. -/
inductive Addressed : List Node → Nat → Node → Prop where
  | here {node : Node} {rest : List Node} : Addressed (node :: rest) 0 node
  | inside {node target : Node} {rest children : List Node} {position : Nat}
      (passes : node.passage? = some children) (h : Addressed children position target) :
      Addressed (node :: rest) (position + 1) target
  | behind {node target : Node} {rest : List Node} {position : Nat} (h : Addressed rest position target) :
      Addressed (node :: rest) (node.inside.length + position + 1) target

/-- The first section of a name that is reached from a list of nodes. -/
structure FirstSection (nodes : List Node) (key : String) (position : Nat) (target : Node) : Prop where
  addressed : Addressed nodes position target
  named : target.isSection key = true
  first : ∀ other node, Addressed nodes other node → node.isSection key = true → position ≤ other

/-- No section of a name is reached from a list of nodes. -/
def Unaddressed (nodes : List Node) (key : String) : Prop :=
  ∀ position target, Addressed nodes position target → target.isSection key = false

theorem Node.inside_of_passage {node : Node} {children : List Node} (passes : node.passage? = some children) :
    node.inside = preorder children := by
  cases node with
  | container tag attributes inner => cases passes; rw [Node.inside]
  | layout name inner => cases passes; rw [Node.inside]
  | loop item collection inner => cases passes; rw [Node.inside]
  | _ => cases passes

theorem Node.not_isSection_of_passage {node : Node} {children : List Node}
    (passes : node.passage? = some children) (key : String) : node.isSection key = false := by
  cases node with
  | sectionContent name inner => cases passes
  | _ => rfl

namespace Addressed

variable {nodes : List Node} {position : Nat} {target : Node}

/-- The position of a node is its position in the walk. -/
theorem getElem?_preorder (h : Addressed nodes position target) : (preorder nodes)[position]? = some target := by
  induction h with
  | here => rfl
  | inside passes h ih =>
      rw [preorder, List.getElem?_cons_succ, Node.inside_of_passage passes]
      obtain ⟨hlt, -⟩ := List.getElem?_eq_some_iff.1 ih
      rw [List.getElem?_append_left hlt, ih]
  | behind h ih =>
      rw [preorder, List.getElem?_cons_succ, List.getElem?_append_right (Nat.le_add_right ..),
        Nat.add_sub_cancel_left, ih]

theorem lt_length (h : Addressed nodes position target) : position < (preorder nodes).length :=
  (List.getElem?_eq_some_iff.1 h.getElem?_preorder).1

end Addressed

/-- From a node no section of a name is reached, and it is none itself. -/
structure Node.Hides (key : String) (node : Node) : Prop where
  unnamed : node.isSection key = false
  below : ∀ children, node.passage? = some children → Unaddressed children key

variable {key : String} {node target : Node} {rest children : List Node} {position : Nat}

theorem unaddressed_cons (hnode : node.Hides key) (hrest : Unaddressed rest key) :
    Unaddressed (node :: rest) key := by
  intro position target h
  cases h with
  | here => exact hnode.unnamed
  | inside passes h => exact hnode.below _ passes _ _ h
  | behind h => exact hrest _ _ h

namespace FirstSection

theorem here (named : node.isSection key = true) : FirstSection (node :: rest) key 0 node :=
  ⟨.here, named, fun _ _ _ _ => Nat.zero_le _⟩

theorem inside (passes : node.passage? = some children) (h : FirstSection children key position target) :
    FirstSection (node :: rest) key (position + 1) target := by
  refine ⟨.inside passes h.addressed, h.named, fun other found haddressed named => ?_⟩
  cases haddressed with
  | here =>
      rw [Node.not_isSection_of_passage passes] at named
      cases named
  | inside passes' haddressed =>
      obtain rfl := Option.some.inj (passes.symm.trans passes')
      exact Nat.succ_le_succ (h.first _ _ haddressed named)
  | behind haddressed =>
      -- what stands behind the node stands behind all that is inside it
      have hlt := h.addressed.lt_length
      rw [← Node.inside_of_passage passes] at hlt
      omega

theorem behind (hides : node.Hides key) (h : FirstSection rest key position target) :
    FirstSection (node :: rest) key (node.inside.length + position + 1) target := by
  refine ⟨.behind h.addressed, h.named, fun other found haddressed named => ?_⟩
  cases haddressed with
  | here =>
      rw [hides.unnamed] at named
      cases named
  | inside passes haddressed =>
      rw [hides.below _ passes _ _ haddressed] at named
      cases named
  | behind haddressed =>
      have hle := h.first _ _ haddressed named
      omega

/-- There is one first section of a name. -/
theorem unique {nodes : List Node} {other : Nat} {found : Node} (h : FirstSection nodes key position target)
    (h' : FirstSection nodes key other found) : found = target := by
  have hsame : position = other :=
    Nat.le_antisymm (h.first _ _ h'.addressed h'.named) (h'.first _ _ h.addressed h.named)
  subst hsame
  have hwalk := h'.addressed.getElem?_preorder
  rw [h.addressed.getElem?_preorder] at hwalk
  exact (Option.some.inj hwalk).symm

end FirstSection

/-- How a node stands to the sections: it is one, or they are reached through it, or all below it are hidden. -/
inductive Node.Standing (node : Node) : Prop where
  | content (name : String) (body : List Node) (eq : node = .sectionContent name body)
  | passage {children : List Node} (child : children ∈ node.childLists) (passes : node.passage? = some children)
      (sections : ∀ path, node.sectionsAt path = sectionsFrom path 0 children)
  | closed (hides : ∀ key, node.Hides key) (sections : ∀ path, node.sectionsAt path = [])

theorem Node.standing (node : Node) : node.Standing := by
  cases node with
  | sectionContent name body => exact .content name body rfl
  | container tag attributes inner =>
      exact .passage (List.mem_singleton_self _) rfl fun path => by rw [Node.sectionsAt]
  | layout name inner => exact .passage (List.mem_singleton_self _) rfl fun path => by rw [Node.sectionsAt]
  | loop item collection inner =>
      exact .passage (List.mem_singleton_self _) rfl fun path => by rw [Node.sectionsAt]
  | _ =>
      refine .closed (fun key => ⟨rfl, fun children passes => nomatch passes⟩) fun path => ?_
      rw [Node.sectionsAt] <;> simp

/-- What an index has under a name, for a list of nodes that stands at the end of a child list: nothing, when no
section of the name is reached from the nodes, or the path that leads to the first one. -/
inductive Indexed (siblings nodes : List Node) (path : List Nat) (key : String) : Option (List Nat) → Prop where
  | missing (h : Unaddressed nodes key) : Indexed siblings nodes path key none
  | found {steps : List Nat} {position : Nat} {target : Node} (leads : nodeAt? siblings steps = some target)
      (first : FirstSection nodes key position target) :
      Indexed siblings nodes path key (some (path.reverse ++ steps))

theorem Indexed.behind {siblings : List Node} {path : List Nat} {entry : Option (List Nat)}
    (hides : node.Hides key) (h : Indexed siblings rest path key entry) :
    Indexed siblings (node :: rest) path key entry := by
  cases h with
  | missing h => exact .missing (unaddressed_cons hides h)
  | found leads first => exact .found leads (first.behind hides)

theorem nodeAt?_passage {siblings : List Node} {index : Nat} {steps : List Nat} (hnode : siblings[index]? = some node)
    (passes : node.passage? = some children) (leads : nodeAt? children steps = some target) :
    nodeAt? siblings (index :: steps) = some target := by
  cases steps with
  | nil => cases leads
  | cons next steps =>
      rw [nodeAt?, hnode]
      · cases node with
        | container tag attributes inner => cases passes; exact leads
        | layout name inner => cases passes; exact leads
        | loop item collection inner => cases passes; exact leads
        | _ => cases passes
      · simp

/-- A node puts its sections in front of those of the nodes behind it. -/
theorem indexed_cons {front : List Node} {path : List Nat}
    (hbelow : ∀ children ∈ node.childLists, ∀ path : List Nat,
      Indexed children children path key ((sectionsFrom path 0 children).lookup key))
    (hrest : Indexed (front ++ node :: rest) rest path key
      ((sectionsFrom path (front.length + 1) rest).lookup key)) :
    Indexed (front ++ node :: rest) (node :: rest) path key
      ((sectionsFrom path front.length (node :: rest)).lookup key) := by
  have hnode : (front ++ node :: rest)[front.length]? = some node := by
    rw [List.getElem?_append_right (Nat.le_refl _), Nat.sub_self, List.getElem?_cons_zero]
  have hpath (steps : List Nat) : (front.length :: path).reverse ++ steps = path.reverse ++ front.length :: steps := by
    rw [List.reverse_cons, List.append_assoc, List.singleton_append]
  rw [sectionsFrom, List.lookup_append]
  cases node.standing with
  | content name body eq =>
      subst eq
      rw [Node.sectionsAt, List.lookup_cons]
      by_cases hkey : key = lowercase name
      · rw [hkey, beq_self_eq_true, ← List.append_nil (front.length :: path).reverse, hpath]
        exact .found (by rw [nodeAt?, hnode]) (.here (beq_self_eq_true _))
      · rw [beq_eq_false_iff_ne.2 hkey]
        exact hrest.behind ⟨beq_eq_false_iff_ne.2 (Ne.symm hkey), fun children passes => nomatch passes⟩
  | passage child passes sections =>
      rw [sections]
      have hinside := hbelow _ child (front.length :: path)
      generalize (sectionsFrom (front.length :: path) 0 _).lookup key = entry at hinside ⊢
      cases hinside with
      | missing h =>
          refine hrest.behind ⟨Node.not_isSection_of_passage passes key, fun children passes' => ?_⟩
          obtain rfl := Option.some.inj (passes.symm.trans passes')
          exact h
      | found leads first =>
          rw [Option.some_or, hpath]
          exact .found (nodeAt?_passage hnode passes leads) (first.inside passes)
  | closed hides sections =>
      rw [sections, List.lookup_nil, Option.none_or]
      exact hrest.behind (hides key)

/-- The paths of an index lead to the first sections of their names, and the names without a path have none. -/
theorem indexed_sectionsFrom (key : String) (nodes : List Node) (path : List Nat) :
    Indexed nodes nodes path key ((sectionsFrom path 0 nodes).lookup key) := by
  have all (nodes front : List Node) (path : List Nat)
      (h : ∀ node ∈ nodes, ∀ children ∈ node.childLists, ∀ path : List Nat,
        Indexed children children path key ((sectionsFrom path 0 children).lookup key)) :
      Indexed (front ++ nodes) nodes path key ((sectionsFrom path front.length nodes).lookup key) := by
    induction nodes generalizing front with
    | nil => exact .missing fun _ _ haddressed => nomatch haddressed
    | cons node rest ih =>
        obtain ⟨hnode, hrest⟩ := List.forall_mem_cons.1 h
        have hbehind := ih (front ++ [node]) hrest
        rw [List.append_assoc, List.singleton_append, List.length_append, List.length_singleton] at hbehind
        exact indexed_cons hnode hbehind
  have hbelow (node : Node) : ∀ children ∈ node.childLists, ∀ path : List Nat,
      Indexed children children path key ((sectionsFrom path 0 children).lookup key) := by
    induction node using Node.induction with
    | step node ih => exact fun children hmem path => all children [] path (ih children hmem)
  exact all nodes [] path fun node _ => hbelow node

/-- Of the entries of one name the first one is kept. -/
theorem lookup_firstOfEach {α : Type} (entries : List (String × α)) (key : String) :
    (firstOfEach entries).lookup key = entries.lookup key := by
  have hfilter (rest : List (String × α)) {name : String} (hname : (key == name) = false) :
      (rest.filter (·.1 != name)).lookup key = rest.lookup key := by
    induction rest with
    | nil => rfl
    | cons entry rest ih =>
        rw [List.filter_cons, List.lookup_cons]
        split
        next => rw [List.lookup_cons, ih]
        next hsame =>
          rw [Bool.not_eq_true, bne_eq_false_iff_eq] at hsame
          rw [hsame, hname, ih]
  induction entries with
  | nil => rfl
  | cons entry rest ih =>
      change (entry :: (firstOfEach rest).filter (·.1 != entry.1)).lookup key = _
      rw [List.lookup_cons, List.lookup_cons]
      cases hkey : key == entry.1 with
      | true => rfl
      | false => rw [hfilter _ hkey, ih]

theorem nodup_firstOfEach {α : Type} (entries : List (String × α)) :
    ((firstOfEach entries).map Prod.fst).Nodup := by
  induction entries with
  | nil => exact List.nodup_nil
  | cons entry rest ih =>
      change (entry.1 :: ((firstOfEach rest).filter (·.1 != entry.1)).map Prod.fst).Nodup
      refine List.nodup_cons.2 ⟨fun hmem => ?_, ?_⟩
      · obtain ⟨other, hother, heq⟩ := List.mem_map.1 hmem
        exact absurd heq (bne_iff_ne.1 (List.mem_filter.1 hother).2)
      · exact ih.sublist (List.filter_sublist.map Prod.fst)

namespace Tree

variable (nodes : List Node)

theorem indexed_ofNodes (key : String) : Indexed nodes nodes [] key ((ofNodes nodes).sections.lookup key) := by
  rw [ofNodes, lookup_firstOfEach]
  exact indexed_sectionsFrom key nodes []

/-- What a name leads to in a tree: the first section of the name, if there is one. -/
theorem section?_cases (name : String) :
    ((ofNodes nodes).section? name = none ∧ (ofNodes nodes).sections.lookup (lowercase name) = none ∧
      Unaddressed nodes (lowercase name)) ∨
    ∃ position target, (ofNodes nodes).section? name = some target ∧
      ((ofNodes nodes).sections.lookup (lowercase name)).isSome = true ∧
      FirstSection nodes (lowercase name) position target := by
  have hindexed := indexed_ofNodes nodes (lowercase name)
  rw [section?]
  generalize (ofNodes nodes).sections.lookup (lowercase name) = entry at hindexed ⊢
  cases hindexed with
  | missing h => exact .inl ⟨rfl, rfl, h⟩
  | found leads first => exact .inr ⟨_, _, leads, rfl, first⟩

theorem section?_eq_some_iff (name : String) (target : Node) :
    (ofNodes nodes).section? name = some target ↔
      ∃ position, FirstSection nodes (lowercase name) position target := by
  rcases section?_cases nodes name with ⟨hnone, -, hun⟩ | ⟨position, found, hsome, -, first⟩
  · rw [hnone]
    constructor
    · intro h
      cases h
    · rintro ⟨position, first⟩
      exact absurd first.named (by rw [hun _ _ first.addressed]; decide)
  · rw [hsome]
    constructor
    · intro h
      cases h
      exact ⟨position, first⟩
    · rintro ⟨other, first'⟩
      rw [first.unique first']

theorem section?_eq_none_iff (name : String) :
    (ofNodes nodes).section? name = none ↔ Unaddressed nodes (lowercase name) := by
  rcases section?_cases nodes name with ⟨hnone, -, hun⟩ | ⟨position, found, hsome, -, first⟩
  · exact ⟨fun _ => hun, fun _ => hnone⟩
  · rw [hsome]
    constructor
    · intro h
      cases h
    · intro hun
      exact absurd first.named (by rw [hun _ _ first.addressed]; decide)

/-- What has a name is named by its lower case. -/
theorem lowercase_of_isSection {key : String} {target : Node} (h : target.isSection key = true) :
    lowercase key = key := by
  cases target with
  | sectionContent name body =>
      obtain rfl : lowercase name = key := eq_of_beq h
      exact lowercase_lowercase name
  | _ => cases h

theorem mem_sectionNames_iff_lookup (name : String) :
    name ∈ (ofNodes nodes).sectionNames ↔ ((ofNodes nodes).sections.lookup name).isSome = true := by
  unfold sectionNames
  rw [List.mem_mergeSort, List.mem_map, List.lookup_isSome_iff]
  exact exists_congr fun entry => and_congr_right fun _ => ⟨fun h => beq_iff_eq.2 h.symm, fun h => (eq_of_beq h).symm⟩

theorem mem_sectionNames (name : String) :
    name ∈ (ofNodes nodes).sectionNames ↔
      lowercase name = name ∧ ((ofNodes nodes).section? name).isSome = true := by
  rw [mem_sectionNames_iff_lookup]
  constructor
  · intro hkey
    have hlower : lowercase name = name := by
      have hindexed := indexed_ofNodes nodes name
      generalize (ofNodes nodes).sections.lookup name = entry at hindexed hkey
      cases hindexed with
      | missing h => cases hkey
      | found leads first => exact lowercase_of_isSection first.named
    refine ⟨hlower, ?_⟩
    rcases section?_cases nodes name with ⟨-, hnone, -⟩ | ⟨position, target, hsome, -, -⟩
    · rw [← hlower, hnone] at hkey
      cases hkey
    · rw [hsome]
      rfl
  · rintro ⟨hlower, hsome⟩
    rcases section?_cases nodes name with ⟨hnone, -, -⟩ | ⟨position, target, -, hkey, -⟩
    · rw [hnone] at hsome
      cases hsome
    · rwa [hlower] at hkey

theorem pairwise_sectionNames : (ofNodes nodes).sectionNames.Pairwise (· < ·) := by
  have hdistinct : (ofNodes nodes).sectionNames.Pairwise (· ≠ ·) :=
    (List.mergeSort_perm _ _).nodup_iff.2 (nodup_firstOfEach _)
  have hsorted : (ofNodes nodes).sectionNames.Pairwise (· ≤ ·) := by
    refine (List.pairwise_mergeSort ?_ ?_ _).imp of_decide_eq_true
    · exact fun a b c hab hbc => decide_eq_true (String.le_trans (of_decide_eq_true hab) (of_decide_eq_true hbc))
    · exact fun a b => by simpa using String.le_total a b
  refine (hsorted.and hdistinct).imp fun ⟨hle, hne⟩ => ?_
  exact String.not_le.1 fun hge => hne (String.le_antisymm hle hge)

/-- A name leads to the first section of that name in the walk over the tree, whatever the case of its letters,
among the sections that are reached through containers, layouts and loops only, and nowhere if there is none. The
names of these sections are listed in order, each once, and are the names in lower case that lead somewhere. -/
theorem sections_addressed (nodes : List Node) :
    (∀ name target, (ofNodes nodes).section? name = some target ↔
      ∃ position, FirstSection nodes (lowercase name) position target) ∧
    (∀ name, (ofNodes nodes).section? name = none ↔ Unaddressed nodes (lowercase name)) ∧
    (∀ position target, Addressed nodes position target → (preorder nodes)[position]? = some target) ∧
    (ofNodes nodes).sectionNames.Pairwise (· < ·) ∧
    ∀ name, name ∈ (ofNodes nodes).sectionNames ↔
      lowercase name = name ∧ ((ofNodes nodes).section? name).isSome = true :=
  ⟨section?_eq_some_iff nodes, section?_eq_none_iff nodes, fun _ _ => Addressed.getElem?_preorder,
    pairwise_sectionNames nodes, mem_sectionNames nodes⟩

/-- A section inside a section is not addressed, nor one in a conditional; of two of one name the first counts. -/
example :
    let nodes : List Node := [.conditional [("x", [.sectionContent "b" []])] none,
      .loop "i" "items" [.sectionContent "B" [.sectionContent "c" []]], .sectionContent "b" [.bodyPlace]]
    (ofNodes nodes).section? "b" = some (.sectionContent "B" [.sectionContent "c" []]) ∧
      (ofNodes nodes).section? "c" = none := ⟨rfl, rfl⟩

end Tree

end Stencil.Markup
