import Stencil.Proofs.Acceptance
import Stencil.Proofs.Descent.Contents
import Stencil.Proofs.Markup.Reading
import Stencil.Proofs.Nesting.Lockstep

/-!
The nesting of tags in the tree of a template that passes the gate. The gate counts the elements that
are open at the same time, and a tag that closes itself opens none. Where the gate and the scanner read
the same template tags, and closing tags close the same for both, no more tags stand in one another
than the limit allows, apart from tags that close themselves: one at the innermost place, and the
layouts among them, which adopt what follows.
-/

namespace Stencil

open Text Gate

namespace Markup

/-- A chain of tags in a tree, each a child of the one before. -/
def IsTagChain (chain : List Node) : Prop :=
  (∀ node ∈ chain, node.isTag = true) ∧
    chain.IsChain fun parent child => ∃ children ∈ parent.childLists, child ∈ children

/-- There is room for every chain of tags that begins with a node or below it, given the depth of the
node. -/
def ChainsFit (room depth : Nat) (node : Node) : Prop :=
  ∀ first rest, IsTagChain (first :: rest) → first ∈ preorder [node] →
    depth + (rest.length + 1) ≤ room

theorem inside_of_not_isTag {node : Node} (h : node.isTag = false) : node.inside = [] := by
  cases node with
  | text | interpolation => rfl
  | _ => cases h

theorem chainsFit_of_not_isTag {node : Node} (h : node.isTag = false) (room depth : Nat) :
    ChainsFit room depth node := by
  intro first rest hchain hmem
  rw [preorder_singleton, inside_of_not_isTag h, List.mem_singleton] at hmem
  subst hmem
  cases h.symm.trans (hchain.1 first (List.mem_cons_self ..))

/-- A chain that begins with a tag goes on with a child of it, and a chain below a tag begins below a
child. -/
theorem builds_chainsFit (room : Nat) : Builds (ChainsFit room) room where
  join _ _ := chainsFit_of_not_isTag rfl _ _
  nest := by
    intro depth node hroom htag hchildren first rest hchain hmem
    rw [preorder_singleton] at hmem
    rcases List.mem_cons.1 hmem with rfl | hinside
    · cases rest with
      | nil => exact hroom
      | cons child rest =>
          obtain ⟨hsteps, hlinks⟩ := hchain
          rw [List.isChain_cons_cons] at hlinks
          obtain ⟨⟨children, hmem, hchild⟩, hlinks⟩ := hlinks
          have hrest : IsTagChain (child :: rest) :=
            ⟨fun other hother => hsteps other (List.mem_cons_of_mem _ hother), hlinks⟩
          have hfits := hchildren children hmem child hchild child rest hrest (List.mem_cons_self ..)
          rw [List.length_cons]
          omega
    · obtain ⟨children, hmem, hbelow⟩ := mem_inside.1 hinside
      obtain ⟨child, hchild, hfirst⟩ := mem_preorder.1 hbelow
      have hfits := hchildren children hmem child hchild first rest hchain hfirst
      omega

theorem isTag_leaf (token : Token) : token.leaf.isTag = false := by
  unfold Token.leaf
  split <;> rfl

/-- A tag with the place of a slot in it, and an element of markup before that. -/
def bar : String := "<Nav>{{ a }}<br><Slot/></Nav>"

theorem children_bar : (Tree.ofSource bar).children =
    [.container .nav [] [.interpolation "a", .text "<br>", .slotPlace "default" []]] := by
  have hscan : scan bar = [⟨.opening false .nav [] "<Nav>", 0, 1⟩, ⟨.interpolation "a", 5, 1⟩,
      ⟨.text "<br>", 12, 1⟩, ⟨.opening true .slot [] "<Slot/>", 16, 1⟩,
      ⟨.closing .nav "</Nav>", 23, 1⟩] := by
    decide +kernel
  change nodesOf (scan bar) = _
  rw [hscan]
  rfl

def barChain : List Node :=
  [.container .nav [] [.interpolation "a", .text "<br>", .slotPlace "default" []],
    .slotPlace "default" []]

theorem isTagChain_bar : IsTagChain barChain := by
  refine ⟨?_, ?_⟩
  · simp [barChain, Node.isTag]
  · simp [barChain, Node.childLists]

theorem head_bar : ∀ first ∈ barChain.head?, first ∈ preorder (Tree.ofSource bar).children := by
  intro first hfirst
  obtain rfl := Option.some.inj hfirst
  rw [children_bar]
  exact List.mem_cons_self ..

end Markup

end Stencil

/-!
The nesting of tags, whatever the tokens are. The tree that tokens write has no chain of tags that is longer than
the limit of the reader, and procedures that read the tokens by calling one another need no more than eight calls
inside one another for each tag of the limit. A tag counts when it is gone into and no longer when it is left; the
bodies of slots and parameters do not count, but whatever tag stands in them does.
-/

namespace Stencil.Markup

/-- Every chain of tags that begins at a node or below it fits into the limit. -/
theorem chainsFit_nodesOf (tokens : List Token) : ∀ node ∈ nodesOf tokens, ChainsFit maxDepth 0 node :=
  nodesOf_have_of_maxDepth (builds_chainsFit maxDepth) (Nat.le_refl _)
    fun token _ depth => chainsFit_of_not_isTag (isTag_leaf token) _ depth

/-- The nesting of tags is capped, in the tree that tokens write and in the calls of the procedures that read
them, and each time that a node has been read, the tags around it are the same as before, and so is their count. -/
theorem nesting_capped (tokens : List Token) :
    (∀ chain, IsTagChain chain → (∀ first ∈ chain.head?, first ∈ preorder (Tree.ofTokens tokens).children) →
      chain.length ≤ maxDepth) ∧
    (Procedures.within (8 * maxDepth)).nodes (fun _ => false) ⟨tokens, [], 0⟩ =
      some ((Tree.ofTokens tokens).children, ⟨[], [], 0⟩) ∧
    ∀ (room : Nat) (place : Place) (node : Option Node) (after : Place),
      (Procedures.within room).node place = some (node, after) →
      after.opened = place.opened ∧ after.depth = place.depth := by
  refine ⟨fun chain hchain hhead => ?_, Procedures.nodes_within (by decide) tokens,
    fun room place node after hnode => ?_⟩
  · cases chain with
    | nil => exact Nat.zero_le _
    | cons first rest =>
        obtain ⟨node, hnode, hbelow⟩ := mem_preorder.1 (hhead first rfl)
        have hfits := chainsFit_nodesOf tokens node hnode first rest hchain hbelow
        rw [List.length_cons]
        omega
  · have hback := (Procedures.comeBack_within room).node hnode
    exact ⟨hback.opened, hback.depth⟩

/-- In the bar two tags stand in one another. Where its first tag has been read, no tag is around. -/
theorem nesting_capped_bar : barChain.length ≤ maxDepth ∧ ∃ node after,
    (Procedures.within (8 * maxDepth)).node ⟨scan bar, [], 0⟩ = some (node, after) ∧
      after.opened = [] ∧ after.depth = 0 := by
  obtain ⟨hchains, -, hback⟩ := nesting_capped (scan bar)
  refine ⟨hchains barChain isTagChain_bar head_bar, ?_⟩
  have hmirrors : Place.Mirrors ⟨scan bar, [], 0⟩ {} := ⟨rfl, rfl, fun _ hmem => absurd hmem List.not_mem_nil⟩
  obtain ⟨node, after, hnode, -⟩ := (Procedures.agree_within (8 * maxDepth)).node hmirrors
    (by decide +kernel : _ = some ⟨.opening false .nav [] "<Nav>", 0, 1⟩) rfl rfl (by decide)
  exact ⟨node, after, hnode, hback _ _ _ _ hnode⟩

end Stencil.Markup
