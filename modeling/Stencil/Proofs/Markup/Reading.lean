import Mathlib.Data.List.Induction
import Stencil.Proofs.Markup.Frames
import Stencil.Proofs.Markup.Nodes

/-!
What holds of every node that tokens write. While tokens are read, nodes wait in the constructs that
are still open; a property that joining texts keeps, and that a node has if all nodes in it have it, is
kept for all of them by every token. The property may speak of the depth at which a node stands: the
number of open constructs around it.
-/

namespace Stencil.Markup

variable {Q : Nat → Node → Prop} {room depth : Nat}

/-- A property of nodes, each at its depth, that is kept when nodes are put together. No more
constructs are open at the same time than there is room for. -/
structure Builds (Q : Nat → Node → Prop) (room : Nat) : Prop where
  join : ∀ {depth first second}, Q depth (.text first) → Q depth (.text second) →
    Q depth (.text (first ++ second))
  nest : ∀ {depth node}, depth < room → node.isTag = true →
    (∀ children ∈ node.childLists, ∀ child ∈ children, Q (depth + 1) child) → Q depth node

/-- The node that a token writes if it neither opens nor closes anything: a tag is text then. -/
def Token.leaf (token : Token) : Node :=
  match token.kind with
  | .text source | .opening _ _ _ source | .closing _ source => .text source
  | .interpolation expression => .interpolation expression

/-- Whether a token is a tag that opens and closes a construct at once. -/
def Token.selfCloses (token : Token) : Bool :=
  match token.kind with
  | .opening selfClosing _ _ _ => selfClosing
  | _ => false

/-- The nodes that wait in a frame. -/
def Frame.held : Frame → List Node
  | .body _ children | .adopting _ children | .slotContent _ children => children
  | .conditional arms =>
      arms.done.flatMap Prod.snd ++ (arms.otherwise.getD [] ++ arms.children)
  | .component filling => filling.defaultSlot ++ filling.slots.flatMap Prod.snd
  | .parameterBody | .call _ _ => []

/-- The nodes in frames have a property, each at its depth. -/
def HeldHave (Q : Nat → Node → Prop) : List Frame → Prop
  | [] => True
  | frame :: outer =>
      (∀ node ∈ frame.held, Q ((frame :: outer).countP Frame.isNested) node) ∧ HeldHave Q outer

/-- All nodes read so far have a property, each at its depth, and there is room for what is open. -/
structure Stack.Has (Q : Nat → Node → Prop) (room : Nat) (stack : Stack) : Prop where
  held : HeldHave Q stack.frames
  nodes : ∀ node ∈ stack.nodes, Q 0 node
  fits : stack.depth ≤ room

/-- The end of an arm moves its nodes to the finished arms. -/
theorem mem_held_endArm {arms : Arms} {node : Node} :
    node ∈ (Frame.conditional arms.endArm).held ↔ node ∈ (Frame.conditional arms).held := by
  unfold Arms.endArm
  dsimp only
  split
  · simp [Frame.held]
  · simp [Frame.held, or_assoc, or_comm]

/-- A finished frame is a tag, and its children waited in the frame. -/
theorem childLists_node? {frame : Frame} {node : Node} (h : frame.node? = some node) :
    node.isTag = true ∧ ∀ children ∈ node.childLists, ∀ child ∈ children, child ∈ frame.held := by
  have hbodies {bodies : List (String × List Node)} {children : List Node} {child : Node}
      (hchildren : children ∈ bodies.map Prod.snd) (hchild : child ∈ children) :
      child ∈ bodies.flatMap Prod.snd := by
    obtain ⟨body, hbody, rfl⟩ := List.mem_map.1 hchildren
    exact List.mem_flatMap.2 ⟨body, hbody, hchild⟩
  cases frame with
  | body construct children =>
      cases construct <;> cases h <;> simp [Node.isTag, Node.childLists, Frame.held]
  | adopting layout children =>
      cases h
      simp [Node.isTag, Node.childLists, Frame.held]
  | conditional arms =>
      cases h
      refine ⟨rfl, fun children hchildren child hchild => mem_held_endArm.1 ?_⟩
      rcases List.mem_append.1 hchildren with hbranch | hotherwise
      · exact List.mem_append_left _ (hbodies hbranch hchild)
      · refine List.mem_append_right _ (List.mem_append_left _ ?_)
        rw [Option.mem_toList.1 hotherwise]
        exact hchild
  | component filling =>
      cases h
      refine ⟨rfl, fun children hchildren child hchild => ?_⟩
      rcases List.mem_cons.1 hchildren with rfl | hslot
      · exact List.mem_append_left _ (List.mem_reverse.1 hchild)
      · exact List.mem_append_right _ (hbodies hslot hchild)
  | slotContent name children => cases h
  | parameterBody => cases h
  | call name parameters =>
      cases h
      exact ⟨rfl, fun children hmem => absurd hmem List.not_mem_nil⟩

theorem held_frameOf? {tag : Tag} {attributes : List Attribute} {frame : Frame}
    (h : frameOf? tag attributes = some frame) : frame.held = [] := by
  cases tag
  case element | data | nav | block =>
    cases h
    split <;> rfl
  all_goals
    cases h <;> rfl

theorem mem_appendSlot {name : String} {body : List Node} {slots : List (String × List Node)}
    {node : Node} (h : node ∈ (appendSlot name body slots).flatMap Prod.snd) :
    node ∈ slots.flatMap Prod.snd ∨ node ∈ body := by
  fun_induction appendSlot name body slots with
  | case1 => exact Or.inr (by simpa using h)
  | case2 existing nodes rest hname =>
      simp only [List.flatMap_cons, List.mem_append] at h ⊢
      exact or_right_comm.1 h
  | case3 existing nodes rest hname ih =>
      simp only [List.flatMap_cons, List.mem_append] at h ih ⊢
      rcases h with hfirst | hlater
      · exact Or.inl (Or.inl hfirst)
      · exact (ih hlater).imp Or.inr id

namespace Builds

variable (builds : Builds Q room)

include builds

theorem addNode {node : Node} {nodes : List Node} (hnode : Q depth node)
    (hall : ∀ other ∈ nodes, Q depth other) : ∀ other ∈ addNode node nodes, Q depth other := by
  fun_cases Markup.addNode node nodes with
  | case1 new old rest =>
      rw [List.forall_mem_cons] at hall ⊢
      exact ⟨builds.join hall.1 hnode, hall.2⟩
  | case2 => exact List.forall_mem_cons.2 ⟨hnode, hall⟩

theorem held_add {node : Node} {frame : Frame} (hnode : Q depth node)
    (hall : ∀ other ∈ frame.held, Q depth other) : ∀ other ∈ (frame.add node).held, Q depth other := by
  cases frame with
  | body construct children => exact builds.addNode hnode hall
  | adopting layout children => exact builds.addNode hnode hall
  | slotContent name children => exact builds.addNode hnode hall
  | conditional arms =>
      simp only [Frame.held, Frame.add, List.forall_mem_append] at hall ⊢
      exact ⟨hall.1, hall.2.1, builds.addNode hnode hall.2.2⟩
  | component filling =>
      simp only [Frame.held, Frame.add, List.forall_mem_append] at hall ⊢
      exact ⟨builds.addNode hnode hall.1, hall.2⟩
  | parameterBody => exact hall
  | call name parameters => exact hall

theorem held_fill {name : String} {body : List Node} {filling : Filling}
    (hbody : ∀ node ∈ body, Q depth node)
    (hall : ∀ node ∈ (Frame.component filling).held, Q depth node) :
    ∀ node ∈ (Frame.component (filling.fill name body)).held, Q depth node := by
  simp only [Frame.held, List.forall_mem_append] at hall
  unfold Filling.fill
  split
  · simp only [Frame.held, List.forall_mem_append]
    refine ⟨?_, hall.2⟩
    have hdefault := hall.1
    generalize filling.defaultSlot = children at hdefault
    induction body generalizing children with
    | nil => exact hdefault
    | cons first rest ih =>
        rw [List.forall_mem_cons] at hbody
        exact ih hbody.2 (Markup.addNode first children) (builds.addNode hbody.1 hdefault)
  · simp only [Frame.held, List.forall_mem_append]
    refine ⟨hall.1, fun node hmem => ?_⟩
    rcases mem_appendSlot hmem with hold | hnew
    · exact hall.2 node hold
    · exact hbody node hnew

end Builds

theorem depth_cons (frame : Frame) (outer : List Frame) (nodes : List Node) :
    (Stack.mk (frame :: outer) nodes).depth =
      (Stack.mk outer nodes).depth + if frame.isNested then 1 else 0 :=
  List.countP_cons

/-- The same constructs, read to another state, have room where they had it. -/
theorem heldHave_cons {frame frame' : Frame} {outer : List Frame}
    (hmould : frame'.mould = frame.mould) (h : HeldHave Q (frame :: outer))
    (hframe : (∀ node ∈ frame.held, Q ((frame :: outer).countP Frame.isNested) node) →
      ∀ node ∈ frame'.held, Q ((frame :: outer).countP Frame.isNested) node) :
    HeldHave Q (frame' :: outer) := by
  have hnested : frame'.isNested = frame.isNested := congrArg Mould.isNested hmould
  have hcount : (frame' :: outer).countP Frame.isNested =
      (frame :: outer).countP Frame.isNested := by
    rw [List.countP_cons, List.countP_cons, hnested]
  refine ⟨?_, h.2⟩
  rw [hcount]
  exact hframe h.1

namespace Stack.Has

variable {stack : Stack} (builds : Builds Q room)

include builds

theorem add {node : Node} (h : stack.Has Q room) (hnode : Q stack.depth node) :
    (stack.add node).Has Q room := by
  obtain ⟨_ | ⟨frame, outer⟩, nodes⟩ := stack
  · exact ⟨trivial, builds.addNode hnode h.nodes, h.fits⟩
  · refine ⟨heldHave_cons (mould_add node frame) h.held (builds.held_add hnode), h.nodes, ?_⟩
    rw [depth_eq, moulds_add, ← depth_eq]
    exact h.fits

theorem add? {node : Option Node} (h : stack.Has Q room)
    (hnode : ∀ value ∈ node, Q stack.depth value) : (stack.add? node).Has Q room := by
  cases node with
  | none => exact h
  | some node => exact h.add builds (hnode node rfl)

theorem fill {name : String} {body : List Node} (h : stack.Has Q room)
    (hbody : ∀ node ∈ body, Q stack.depth node) : (stack.fill name body).Has Q room := by
  have hdepth : (stack.fill name body).depth = stack.depth := by
    rw [depth_eq, moulds_fill, ← depth_eq]
  fun_cases Stack.fill name body stack with
  | case1 filling outer nodes =>
      have hmould : (Frame.component (filling.fill name body)).mould =
          (Frame.component filling).mould := by
        unfold Filling.fill
        split <;> rfl
      exact ⟨heldHave_cons hmould h.held (builds.held_fill hbody), h.nodes, hdepth ▸ h.fits⟩
  | case2 => exact h

/-- Finishing a construct makes a node of its nodes, one step less deep. -/
theorem finish (h : stack.Has Q room) : stack.finish.Has Q room := by
  fun_cases Stack.finish stack with
  | case1 => exact h
  | case2 name children outer nodes =>
      have houter : (Stack.mk outer nodes).Has Q room := ⟨h.held.2, h.nodes, h.fits⟩
      exact houter.fill builds fun node hmem => h.held.1 node (List.mem_reverse.1 hmem)
  | case3 frame outer nodes =>
      have hfits := h.fits
      rw [depth_cons] at hfits
      have houter : (Stack.mk outer nodes).Has Q room := ⟨h.held.2, h.nodes, by omega⟩
      refine houter.add? builds fun node hnode => ?_
      obtain ⟨htag, hchildren⟩ := childLists_node? hnode
      cases hnested : frame.isNested with
      | false =>
          -- what does not count is a part of a construct and makes no node
          cases frame with
          | slotContent => cases hnode
          | parameterBody => cases hnode
          | _ => cases hnested
      | true =>
          rw [if_pos hnested] at hfits
          refine builds.nest (by omega) htag fun children hmem child hchild => ?_
          have hheld := h.held.1 child (hchildren children hmem child hchild)
          rw [List.countP_cons_of_pos hnested] at hheld
          exact hheld

theorem finishMany (count : Nat) (h : stack.Has Q room) : (stack.finishMany count).Has Q room := by
  induction count generalizing stack with
  | zero => exact h
  | succ count ih => exact ih (h.finish builds)

theorem close {tag : Tag} {source : String} (h : stack.Has Q room)
    (htext : Q stack.depth (.text source)) : (stack.close tag source).Has Q room := by
  unfold Stack.close
  split
  · exact h.finishMany builds _
  · split
    · exact h
    · exact h.add builds htext

/-- A construct begins without nodes. One that closes itself stands inside all that is open. -/
theorem begin {selfClosing : Bool} {frame : Frame} (h : stack.Has Q room) (hheld : frame.held = [])
    (hfits : (stack.begin selfClosing frame).depth ≤ room)
    (hself : selfClosing = true → frame.node?.isSome = true → stack.depth < room) :
    (stack.begin selfClosing frame).Has Q room := by
  unfold Stack.begin at hfits ⊢
  cases selfClosing with
  | true =>
      refine h.add? builds fun node hnode => ?_
      obtain ⟨htag, hchildren⟩ := childLists_node? hnode
      have hroom := hself rfl (Option.isSome_of_mem hnode)
      refine builds.nest hroom htag fun children hmem child hchild => ?_
      have hnone := hchildren children hmem child hchild
      rw [hheld] at hnone
      exact absurd hnone List.not_mem_nil
  | false =>
      refine ⟨⟨fun node hmem => ?_, h.held⟩, h.nodes, hfits⟩
      rw [hheld] at hmem
      exact absurd hmem List.not_mem_nil

theorem openNested {selfClosing : Bool} {tag : Tag} {attributes : List Attribute} {source : String}
    (h : stack.Has Q room) (htext : Q stack.depth (.text source))
    (hfits : (stack.openNested selfClosing tag attributes source).depth ≤ room)
    (hself : selfClosing = true → stack.depth < maxDepth → stack.depth < room) :
    (stack.openNested selfClosing tag attributes source).Has Q room := by
  unfold Stack.openNested at hfits ⊢
  split
  · exact h.add builds htext
  next hroom =>
    split
    next frame hframe =>
      have hheld : frame.held = [] := held_frameOf? hframe
      split
      next hlayout =>
        rw [if_neg hroom, hframe] at hfits
        dsimp only at hfits
        rw [if_pos hlayout] at hfits
        exact ⟨⟨fun node hmem => absurd hmem List.not_mem_nil, h.held⟩, h.nodes, hfits⟩
      next hlayout =>
        rw [if_neg hroom, hframe] at hfits
        dsimp only at hfits
        rw [if_neg hlayout] at hfits
        exact h.begin builds hheld hfits fun hclosed _ => hself hclosed (Nat.lt_of_not_le hroom)
    next => exact h.add builds htext

omit builds in
/-- The innermost construct read on, with no new nodes in it. -/
theorem goOn {frame frame' : Frame} {outer : List Frame} (h : stack.Has Q room)
    (hframes : stack.frames = frame :: outer) (hmould : frame'.mould = frame.mould)
    (hheld : frame'.held ⊆ frame.held) : (Stack.mk (frame' :: outer) stack.nodes).Has Q room := by
  have held := h.held
  have fits := h.fits
  rw [depth_eq, moulds, hframes, List.map_cons] at fits
  rw [hframes] at held
  refine ⟨heldHave_cons hmould held fun hall node hmem => hall node (hheld hmem), h.nodes, ?_⟩
  rw [depth_eq, moulds, List.map_cons, hmould]
  exact fits

/-- An opening tag keeps the property if there is room for what it opens. -/
theorem openTag {selfClosing : Bool} {tag : Tag} {attributes : List Attribute} {source : String}
    (h : stack.Has Q room) (htext : Q stack.depth (.text source))
    (hfits : (stack.openTag selfClosing tag attributes source).depth ≤ room)
    (hself : selfClosing = true → stack.depth < maxDepth → stack.depth < room) :
    (stack.openTag selfClosing tag attributes source).Has Q room := by
  revert hfits
  fun_cases Stack.openTag selfClosing tag attributes source stack with
  | case1 arms frames hframes =>
      exact fun _ => h.goOn hframes rfl fun node => mem_held_endArm.1
  | case2 arms frames hframes =>
      exact fun _ => h.goOn hframes rfl fun node => mem_held_endArm.1
  | case3 filling frames hframes =>
      -- what begins is a part of the construct around it and no node by itself
      refine fun hfits => Stack.Has.begin builds ?_ rfl hfits
        fun _ hnode => absurd hnode Bool.false_ne_true
      exact h.goOn hframes rfl (List.Subset.refl _)
  | case4 filling frames hframes hclosed =>
      exact fun _ => h.fill builds fun node hmem => absurd hmem List.not_mem_nil
  | case5 filling frames hframes hopened =>
      exact fun hfits => h.begin builds rfl hfits fun hclosed => absurd hclosed Bool.false_ne_true
  | case6 name parameters frames hframes =>
      refine fun hfits => Stack.Has.begin builds ?_ rfl hfits
        fun _ hnode => absurd hnode Bool.false_ne_true
      exact h.goOn hframes rfl (List.Subset.refl _)
  | case7 => exact fun hfits => h.openNested builds htext hfits hself

/-- Every token keeps the property if there is room for what it opens. -/
theorem read {token : Token} (h : stack.Has Q room) (hleaf : Q stack.depth token.leaf)
    (hfits : (stack.read token).depth ≤ room)
    (hself : token.selfCloses = true → stack.depth < maxDepth → stack.depth < room) :
    (stack.read token).Has Q room := by
  obtain ⟨kind, offset, line⟩ := token
  cases kind with
  | text source => exact h.add builds hleaf
  | interpolation expression => exact h.add builds hleaf
  | opening selfClosing tag attributes source => exact h.openTag builds hleaf hfits hself
  | closing tag source => exact h.close builds hleaf

end Stack.Has

/-- The property of all nodes that tokens write: what it asks of each token depends on the tokens
before. -/
theorem nodesOf_have (builds : Builds Q room) {tokens : List Token}
    (hleaf : ∀ token ∈ tokens, ∀ depth, Q depth token.leaf)
    (hfits : ∀ front, front <+: tokens → (front.foldl Stack.read {}).depth ≤ room)
    (hself : ∀ front token, front ++ [token] <+: tokens → token.selfCloses = true →
      (front.foldl Stack.read {}).depth < maxDepth → (front.foldl Stack.read {}).depth < room) :
    ∀ node ∈ nodesOf tokens, Q 0 node := by
  have hstack (front : List Token) (hfront : front <+: tokens) :
      (front.foldl Stack.read {}).Has Q room := by
    induction front using List.reverseRecOn with
    | nil => exact ⟨trivial, fun node hmem => absurd hmem List.not_mem_nil, Nat.zero_le _⟩
    | append_singleton front token ih =>
        have hbefore : front <+: tokens := (List.prefix_append ..).trans hfront
        have hmem : token ∈ tokens :=
          hfront.subset (List.mem_append_right _ (List.mem_singleton_self _))
        have hafter := hfits _ hfront
        rw [List.foldl_append] at hafter ⊢
        exact (ih hbefore).read builds (hleaf token hmem _) hafter (hself front token hfront)
  intro node hmem
  exact ((hstack tokens (List.prefix_refl _)).finishMany builds _).nodes node (List.mem_reverse.1 hmem)

theorem depth_foldl_le (tokens : List Token) : (tokens.foldl Stack.read {}).depth ≤ maxDepth := by
  induction tokens using List.reverseRecOn with
  | nil => exact Nat.zero_le _
  | append_singleton front token ih =>
      rw [List.foldl_append]
      exact Stack.depth_read_le ih token

/-- The reader itself leaves room for so many constructs as it nests at most. -/
theorem nodesOf_have_of_maxDepth (builds : Builds Q room) (hroom : maxDepth ≤ room)
    {tokens : List Token} (hleaf : ∀ token ∈ tokens, ∀ depth, Q depth token.leaf) :
    ∀ node ∈ nodesOf tokens, Q 0 node :=
  nodesOf_have builds hleaf (fun front _ => Nat.le_trans (depth_foldl_le front) hroom)
    fun _ _ _ _ hdepth => Nat.lt_of_lt_of_le hdepth hroom

end Stencil.Markup
