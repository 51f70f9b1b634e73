import Stencil.Proofs.Markup.Parts

/-!
A layout that closes itself adopts the siblings after it. Wherever no layout is closed it is read like a layout
with a closing tag: whatever is left open inside it, both readers have the same constructs on their stacks, apart
from how a layout would be closed, and at the end both finish everything.
-/

namespace Stencil.Markup

/-- A layout that adopts its siblings, as one that has a closing tag. -/
def Frame.closable : Frame → Frame
  | .adopting name children => .body (.layout name) children
  | frame => frame

/-- The stack with a closing tag for every layout on it. -/
def Stack.closable (stack : Stack) : Stack := ⟨stack.frames.map Frame.closable, stack.nodes⟩

namespace Frame

variable (frame : Frame)

@[simp] theorem closable_closable : frame.closable.closable = frame.closable := by
  cases frame <;> rfl

theorem closable_add (node : Node) : (frame.add node).closable = frame.closable.add node := by
  cases frame <;> rfl

theorem node?_closable : frame.closable.node? = frame.node? := by
  cases frame <;> rfl

theorem isNested_closable : frame.closable.isNested = frame.isNested := by
  cases frame <;> rfl

theorem ignores_closable : frame.closable.ignores = frame.ignores := by
  cases frame <;> rfl

/-- Only the closing tag of a layout sees a difference. -/
theorem tag?_closable {tag : Tag} (h : tag ≠ .layout) :
    (frame.closable.tag? == some tag) = (frame.tag? == some tag) := by
  cases frame with
  | adopting name children => exact beq_false_of_ne fun heq => h (Option.some.inj heq).symm
  | _ => rfl

end Frame

theorem closable_of_frameOf? {tag : Tag} {attributes : List Attribute} {frame : Frame}
    (h : frameOf? tag attributes = some frame) : frame.closable = frame := by
  cases tag with
  | elseIf | elseTag => cases h
  | element | data | nav | block =>
      obtain rfl := Option.some.inj h
      split <;> rfl
  | _ =>
      cases h
      rfl

namespace Stack

variable (stack : Stack)

@[simp] theorem closable_closable : stack.closable.closable = stack.closable := by
  simp [closable]

theorem closable_add (node : Node) : (stack.add node).closable = stack.closable.add node := by
  obtain ⟨_ | ⟨frame, frames⟩, nodes⟩ := stack
  · rfl
  · exact congrArg (fun frame => Stack.mk (frame :: frames.map Frame.closable) nodes)
      (frame.closable_add node)

theorem closable_add? (node : Option Node) : (stack.add? node).closable = stack.closable.add? node := by
  cases node with
  | none => rfl
  | some node => exact stack.closable_add node

theorem closable_fill (name : String) (body : List Node) :
    (stack.fill name body).closable = stack.closable.fill name body := by
  obtain ⟨_ | ⟨frame, frames⟩, nodes⟩ := stack
  · rfl
  · cases frame <;> rfl

theorem closable_finish : stack.finish.closable = stack.closable.finish := by
  obtain ⟨_ | ⟨frame, frames⟩, nodes⟩ := stack
  · rfl
  · cases frame with
    | slotContent name children => exact closable_fill ..
    | _ => exact closable_add? ..

theorem closable_finishMany (count : Nat) :
    (stack.finishMany count).closable = stack.closable.finishMany count := by
  induction count generalizing stack with
  | zero => rfl
  | succ count ih => rw [finishMany, ih, closable_finish, finishMany]

/-- What is left open is finished alike at the end. -/
theorem toNodes_closable : stack.closable.toNodes = stack.toNodes := by
  have hlength : stack.closable.frames.length = stack.frames.length := List.length_map _
  unfold toNodes
  rw [hlength, ← closable_finishMany]
  rfl

theorem depth_closable : stack.closable.depth = stack.depth := by
  unfold depth closable
  rw [List.countP_map]
  exact congrArg (fun p => stack.frames.countP p) (funext Frame.isNested_closable)

theorem closable_close {tag : Tag} (h : tag ≠ .layout) (source : String) :
    (stack.close tag source).closable = stack.closable.close tag source := by
  have hfind : stack.closable.frames.findIdx? (·.tag? == some tag) =
      stack.frames.findIdx? (·.tag? == some tag) := by
    unfold closable
    rw [List.findIdx?_map]
    exact congrArg (fun p => stack.frames.findIdx? p) (funext fun frame => frame.tag?_closable h)
  have hignores : stack.closable.frames.head?.any (·.ignores tag) = stack.frames.head?.any (·.ignores tag) := by
    unfold closable
    rw [List.head?_map, Option.any_map]
    exact congrArg (fun p => stack.frames.head?.any p)
      (funext fun frame => congrFun frame.ignores_closable tag)
  unfold close
  rw [hfind, hignores]
  cases stack.frames.findIdx? (·.tag? == some tag) with
  | some above => exact closable_finishMany ..
  | none =>
      dsimp only
      split
      · rfl
      · exact closable_add ..

theorem closable_begin (selfClosing : Bool) {frame : Frame} (h : frame.closable = frame) :
    (stack.begin selfClosing frame).closable = stack.closable.begin selfClosing frame := by
  unfold begin
  split
  · exact closable_add? ..
  · unfold closable
    rw [List.map_cons, h]

theorem closable_begin_closable (selfClosing : Bool) {frame : Frame} (h : frame.closable = frame) :
    (stack.begin selfClosing frame).closable = (stack.closable.begin selfClosing frame).closable := by
  rw [closable_begin _ _ h, closable_begin _ _ h, closable_closable]

/-- A layout that closes itself is put on a stack as one that adopts its siblings, whatever layouts are on it. -/
theorem closable_openNested (selfClosing : Bool) (tag : Tag) (attributes : List Attribute) (source : String) :
    (stack.openNested selfClosing tag attributes source).closable =
      (stack.closable.openNested selfClosing tag attributes source).closable := by
  unfold openNested
  rw [depth_closable]
  split
  · rw [closable_add, closable_add, closable_closable]
  · split
    next frame hframe =>
      split
      · simp [closable]
      · exact closable_begin_closable _ _ (closable_of_frameOf? hframe)
    next => rw [closable_add, closable_add, closable_closable]

theorem closable_openTag (selfClosing : Bool) (tag : Tag) (attributes : List Attribute) (source : String) :
    (stack.openTag selfClosing tag attributes source).closable =
      (stack.closable.openTag selfClosing tag attributes source).closable := by
  obtain ⟨_ | ⟨frame, frames⟩, nodes⟩ := stack
  · exact closable_openNested ..
  · cases frame with
    | conditional arms =>
        cases tag with
        | elseIf | elseTag => exact (closable_closable ⟨.conditional _ :: frames, nodes⟩).symm
        | _ => exact closable_openNested ..
    | component filling =>
        cases tag with
        | param => exact closable_begin_closable ⟨.component _ :: frames, nodes⟩ selfClosing rfl
        | slot =>
            cases selfClosing with
            | true => exact (closable_closable ⟨.component _ :: frames, nodes⟩).symm
            | false => exact closable_begin_closable ⟨.component filling :: frames, nodes⟩ false rfl
        | _ => exact closable_openNested ..
    | call name parameters =>
        cases tag with
        | param => exact closable_begin_closable ⟨.call name _ :: frames, nodes⟩ selfClosing rfl
        | _ => exact closable_openNested ..
    | _ => exact closable_openNested ..

/-- A token that closes no layout makes the same of a stack whether its layouts have closing tags or not. -/
theorem closable_read {token : Token} (h : ∀ source, token.kind ≠ .closing .layout source) :
    (stack.read token).closable = (stack.closable.read token).closable := by
  unfold read
  split
  · rw [closable_add, closable_add, closable_closable]
  · rw [closable_add, closable_add, closable_closable]
  · exact closable_openTag ..
  next tag source hkind =>
    have htag : tag ≠ .layout := fun heq => h source (heq ▸ hkind)
    rw [closable_close _ htag, closable_close _ htag, closable_closable]

theorem closable_readTokens {stack other : Stack} (h : stack.closable = other.closable) {tokens : List Token}
    (htokens : ∀ token ∈ tokens, ∀ source, token.kind ≠ .closing .layout source) :
    (stack.readTokens tokens).closable = (other.readTokens tokens).closable := by
  induction tokens generalizing stack other with
  | nil => exact h
  | cons token rest ih =>
      obtain ⟨htoken, hrest⟩ := List.forall_mem_cons.1 htokens
      refine ih ?_ hrest
      rw [closable_read stack htoken, closable_read other htoken, h]

/-- The outermost construct is a layout with a closing tag. -/
def InLayout : Prop := stack.moulds.getLast? = some ⟨some .layout, true⟩

variable {stack}

theorem InLayout.cons (h : stack.InLayout) (mould : Mould) :
    (mould :: stack.moulds).getLast? = some ⟨some .layout, true⟩ := by
  rw [List.getLast?_cons, h]
  rfl

/-- What is outermost stays open until its own closing tag. -/
theorem InLayout.read (h : stack.InLayout) {token : Token}
    (hkind : ∀ source, token.kind ≠ .closing .layout source) : (stack.read token).InLayout := by
  unfold InLayout Stack.read
  split
  · rw [moulds_add]
    exact h
  · rw [moulds_add]
    exact h
  next selfClosing tag attributes source _ =>
    generalize hmoulds : (stack.openTag selfClosing tag attributes source).moulds = moulds
    have hopens := opens_openTag selfClosing tag attributes source stack
    rw [hmoulds] at hopens
    cases hopens with
    | nothing => exact h
    | adopting => exact h.cons _
    | construct => exact h.cons _
  next tag source hclosing =>
    rw [moulds_close]
    split
    next above habove =>
      obtain ⟨hlt, hfound, -⟩ := List.findIdx?_eq_some_iff_getElem.1 habove
      rw [List.getLast?_drop, if_neg ?_]
      · exact h
      · -- the construct that is closed is not the layout
        intro hlength
        have hlast : above = stack.moulds.length - 1 := by omega
        subst hlast
        rw [InLayout, List.getLast?_eq_getElem?, List.getElem?_eq_getElem hlt] at h
        rw [Option.some.inj h] at hfound
        exact hkind source ((Option.some.inj (eq_of_beq hfound)) ▸ hclosing)
    next => exact h

theorem InLayout.readTokens (h : stack.InLayout) {tokens : List Token}
    (htokens : ∀ token ∈ tokens, ∀ source, token.kind ≠ .closing .layout source) :
    (stack.readTokens tokens).InLayout := by
  induction tokens generalizing stack with
  | nil => exact h
  | cons token rest ih =>
      obtain ⟨htoken, hrest⟩ := List.forall_mem_cons.1 htokens
      exact ih (h.read htoken) hrest

theorem toNodes_finishMany (count : Nat) (stack : Stack) : (stack.finishMany count).toNodes = stack.toNodes := by
  induction count generalizing stack with
  | zero => rfl
  | succ count ih =>
      rw [finishMany, ih]
      obtain ⟨_ | ⟨frame, frames⟩, nodes⟩ := stack
      · rfl
      · exact toNodes_finish ..

/-- At the end of the tokens it makes no difference to close what is open. -/
theorem InLayout.toNodes_close (h : stack.InLayout) (source : String) :
    (stack.close .layout source).toNodes = stack.toNodes := by
  obtain ⟨frame, hmem, htag⟩ : ∃ frame ∈ stack.frames, frame.tag? = some .layout := by
    obtain ⟨frame, hmem, hmould⟩ := List.mem_map.1 (List.mem_of_getLast? h)
    exact ⟨frame, hmem, congrArg Mould.tag? hmould⟩
  unfold close
  cases hfind : stack.frames.findIdx? (·.tag? == some .layout) with
  | some above => exact toNodes_finishMany ..
  | none =>
      have hnone := List.findIdx?_eq_none_iff.1 hfind frame hmem
      rw [htag, beq_self_eq_true] at hnone
      cases hnone

end Stack

/-- A layout that closes itself is the layout whose closing tag stands behind everything that follows. What
follows may be as malformed as it likes, as long as it closes no layout. -/
theorem ofTokens_selfClosing_layout {adopting opening closing : Token} {attributes : List Attribute}
    {first second third : String} (hadopting : adopting.kind = .opening true .layout attributes first)
    (hopening : opening.kind = .opening false .layout attributes second)
    (hclosing : closing.kind = .closing .layout third) {tokens : List Token}
    (h : ∀ token ∈ tokens, ∀ source, token.kind ≠ .closing .layout source) :
    Tree.ofTokens (adopting :: tokens) = Tree.ofTokens (opening :: (tokens ++ [closing])) := by
  let name := nameOf attributes
  let own : Stack := ⟨[.adopting name []], []⟩
  let closed : Stack := ⟨[.body (.layout name) []], []⟩
  have hown : ({} : Stack).read adopting = own := by
    rw [Stack.read, hadopting]
    rfl
  have hclosed : ({} : Stack).read opening = closed := by
    rw [Stack.read, hopening]
    rfl
  have halike : own.closable = closed.closable := rfl
  have hlayout : closed.InLayout := rfl
  have hinside := hlayout.readTokens h
  have hread : (closed.readTokens tokens).read closing = (closed.readTokens tokens).close .layout third := by
    rw [Stack.read, hclosing]
  have hnodes : nodesOf (adopting :: tokens) = nodesOf (opening :: (tokens ++ [closing])) := by
    calc nodesOf (adopting :: tokens) = (own.readTokens tokens).toNodes := by
          rw [nodesOf, List.foldl_cons, hown]
          rfl
      _ = (closed.readTokens tokens).toNodes := by
          rw [← Stack.toNodes_closable, Stack.closable_readTokens halike h, Stack.toNodes_closable]
      _ = ((closed.readTokens tokens).read closing).toNodes := by
          rw [hread, hinside.toNodes_close]
      _ = nodesOf (opening :: (tokens ++ [closing])) := by
          rw [nodesOf, List.foldl_cons, hclosed, List.foldl_append]
          rfl
  rw [Tree.ofTokens, Tree.ofTokens, hnodes]

/-- A conditional, a layout, a component and a parameter that are left open, and a slot that is closed where none
is open. -/
def dangling : List Token := [
  ⟨.opening false .ifTag [⟨"condition", "Ready"⟩] "<If condition=\"Ready\">", 0, 1⟩,
  ⟨.closing .slot "</Slot>", 0, 1⟩,
  ⟨.opening false .elseTag [] "<Else>", 0, 1⟩,
  ⟨.opening false .layout [⟨"name", "inner"⟩] "<Layout name=\"inner\">", 0, 1⟩,
  ⟨.opening true .layout [] "<Layout/>", 0, 1⟩,
  ⟨.opening false .includeTag [⟨"component", "card"⟩] "<Include component=\"card\">", 0, 1⟩,
  ⟨.text "x", 0, 1⟩,
  ⟨.opening false .param [⟨"name", "Size"⟩] "<Param name=\"Size\">", 0, 1⟩,
  ⟨.interpolation "y", 0, 1⟩]

theorem ofTokens_selfClosing_layout_dangling :
    (∀ token ∈ dangling, ∀ source, token.kind ≠ .closing .layout source) ∧
      Tree.ofTokens (⟨.opening true .layout [⟨"name", "base"⟩] "<Layout name=\"base\"/>", 0, 1⟩ :: dangling) =
        Tree.ofTokens (⟨.opening false .layout [⟨"name", "base"⟩] "<Layout name=\"base\">", 0, 1⟩ ::
          (dangling ++ [⟨.closing .layout "</Layout>", 0, 1⟩])) := by
  have hopen : ∀ token ∈ dangling, ∀ source, token.kind ≠ .closing .layout source := by simp [dangling]
  exact ⟨hopen, ofTokens_selfClosing_layout rfl rfl rfl hopen⟩

end Stencil.Markup
