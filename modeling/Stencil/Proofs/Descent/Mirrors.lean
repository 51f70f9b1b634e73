import Stencil.Proofs.Descent.Procedures
import Stencil.Proofs.Markup.Splitting

/-!
Places and stacks. A place mirrors a stack where the tags around it are those of the open constructs. What a
stack still comes to write says whether it makes a difference to finish a construct: it makes none where the
construct is left.
-/

namespace Stencil.Markup

/-- Whether a token is a part of a construct rather than one of its nodes. -/
def Frame.claims : Frame → TokenKind → Bool
  | .conditional _, .opening _ tag _ _ | .conditional _, .closing tag _ => tag.isBranch
  | .component _, .opening _ tag _ _ => tag == .param || tag == .slot
  | .component _, .closing tag _ => tag == .param
  | .call _ _, .opening _ tag _ _ => tag == .param
  | _, _ => false

theorem Frame.claims_add (node : Node) (frame : Frame) : (frame.add node).claims = frame.claims := by
  funext kind
  cases frame with
  | _ => cases kind <;> rfl

theorem Frame.tag?_addAll (frame : Frame) (nodes : List Node) : (frame.addAll nodes).tag? = frame.tag? := by
  induction nodes generalizing frame with
  | nil => rfl
  | cons node rest ih => exact (ih (frame.add node)).trans (congrArg Mould.tag? (mould_add node frame))

theorem Frame.addAll_parameterBody (nodes : List Node) : Frame.parameterBody.addAll nodes = .parameterBody := by
  induction nodes with
  | nil => rfl
  | cons node rest ih => exact ih

theorem Frame.addAll_adopting (name : String) (nodes children : List Node) :
    (Frame.adopting name children).addAll nodes = .adopting name (pushAll nodes children) :=
  List.foldl_hom (Frame.adopting name) fun _ _ => rfl

/-- A node joins nodes before they are added, or it is added after them. -/
theorem foldl_addNode {α : Type} (add : α → Node → α)
    (join : ∀ (state : α) (old new : String),
      add (add state (.text old)) (.text new) = add state (.text (old ++ new)))
    (node : Node) (nodes : List Node) (state : α) :
    (addNode node nodes).reverse.foldl add state = add (nodes.reverse.foldl add state) node := by
  fun_cases addNode node nodes with
  | case1 new old rest =>
      rw [List.reverse_cons, List.foldl_append, List.reverse_cons, List.foldl_append]
      exact (join _ old new).symm
  | case2 =>
      rw [List.reverse_cons, List.foldl_append]
      rfl

theorem addNode_join (children : List Node) (old new : String) :
    addNode (.text new) (addNode (.text old) children) = addNode (.text (old ++ new)) children := by
  rcases children with _ | ⟨first, rest⟩
  · rfl
  · cases first with
    | text before =>
        change Node.text (before ++ old ++ new) :: rest = .text (before ++ (old ++ new)) :: rest
        rw [String.append_assoc]
    | _ => rfl

theorem Frame.add_join (frame : Frame) (old new : String) :
    (frame.add (.text old)).add (.text new) = frame.add (.text (old ++ new)) := by
  cases frame with
  | parameterBody | call => rfl
  | _ => simp only [Frame.add, addNode_join]

namespace Stack

/-- The nodes that a stack comes to with tokens, every construct finished. -/
def written (stack : Stack) (tokens : List Token) : List Node := (stack.readTokens tokens).toNodes

/-- Whether a token is a part of the innermost construct. -/
def claims (stack : Stack) (kind : TokenKind) : Bool := stack.frames.head?.any (·.claims kind)

theorem claims_add (node : Node) (stack : Stack) : (stack.add node).claims = stack.claims := by
  obtain ⟨_ | ⟨frame, frames⟩, nodes⟩ := stack
  · rfl
  · exact Frame.claims_add node frame

theorem add_join (stack : Stack) (old new : String) :
    (stack.add (.text old)).add (.text new) = stack.add (.text (old ++ new)) := by
  obtain ⟨_ | ⟨frame, frames⟩, nodes⟩ := stack
  · exact congrArg (Stack.mk []) (addNode_join nodes old new)
  · exact congrArg (fun frame => Stack.mk (frame :: frames) nodes) (Frame.add_join frame old new)

theorem moulds_addAll (nodes : List Node) (stack : Stack) : (stack.addAll nodes).moulds = stack.moulds := by
  induction nodes generalizing stack with
  | nil => rfl
  | cons node rest ih => exact (ih (stack.add node)).trans (moulds_add node stack)

theorem claims_addAll (nodes : List Node) (stack : Stack) : (stack.addAll nodes).claims = stack.claims := by
  induction nodes generalizing stack with
  | nil => rfl
  | cons node rest ih => exact (ih (stack.add node)).trans (claims_add node stack)

/-- A closing tag that belongs to no construct is text, unless the innermost construct passes over it. -/
theorem close_of_unopened {stack : Stack} {tag : Tag} (h : tag ∉ stack.moulds.filterMap Mould.tag?)
    (source : String) :
    stack.close tag source =
      if stack.frames.head?.any (·.ignores tag) then stack else stack.add (.text source) := by
  have hnone : stack.frames.findIdx? (·.tag? == some tag) = none := by
    refine List.findIdx?_eq_none_iff.2 fun frame hmem => beq_false_of_ne fun htag => h ?_
    exact List.mem_filterMap.2 ⟨frame.mould, List.mem_map_of_mem hmem, htag⟩
  unfold close
  rw [hnone]

theorem openTag_of_unclaimed {stack : Stack} {selfClosing : Bool} {tag : Tag} {attributes : List Attribute}
    {source : String} (h : stack.claims (.opening selfClosing tag attributes source) = false) :
    stack.openTag selfClosing tag attributes source = stack.openNested selfClosing tag attributes source := by
  unfold claims at h
  fun_cases openTag selfClosing tag attributes source stack with
  | case7 => rfl
  | case1 arms frames hframes | case2 arms frames hframes | case3 filling frames hframes
  | case4 filling frames hframes | case5 filling frames hframes | case6 name parameters frames hframes =>
      rw [hframes] at h
      cases h

/-- What a construct passes over is a part of it. -/
theorem not_ignores_of_unclaimed {stack : Stack} {tag : Tag} {source : String}
    (h : stack.claims (.closing tag source) = false) : stack.frames.head?.any (·.ignores tag) = false := by
  obtain ⟨_ | ⟨frame, frames⟩, nodes⟩ := stack
  · rfl
  · unfold claims at h
    rw [List.head?_cons, Option.any_some] at h ⊢
    cases frame with
    | conditional | component =>
        cases tag with
        | _ => first | rfl | cases h
    | _ => rfl

theorem written_head {stack next : Stack} {place : Place} {token : Token} (hnext : place.ahead.head? = some token)
    (hread : stack.read token = next) : stack.written place.ahead = next.written place.advance.ahead := by
  obtain ⟨rest, hahead⟩ := List.head?_eq_some_iff.1 hnext
  unfold Place.advance
  rw [hahead]
  exact congrArg (fun stack => stack.written rest) hread

/-- It makes no difference to finish a construct before the end of a construct around it. -/
theorem written_finish {frame : Frame} {frames : List Frame} {nodes : List Node} {tokens : List Token}
    (h : ∀ token ∈ tokens.head?, ∃ tag source, token.kind = .closing tag source ∧ frame.tag? ≠ some tag ∧
      tag ∈ (Stack.mk (frame :: frames) nodes).moulds.filterMap Mould.tag?) :
    (Stack.mk (frame :: frames) nodes).written tokens =
      (Stack.mk (frame :: frames) nodes).finish.written tokens := by
  cases tokens with
  | nil => exact (toNodes_finish frame frames nodes).symm
  | cons token rest =>
      obtain ⟨tag, source, hkind, hother, hmem⟩ := h token rfl
      have hfinished : (Stack.mk (frame :: frames) nodes).finish.frames.findIdx? (·.tag? == some tag) =
          frames.findIdx? (·.tag? == some tag) := by
        have hmoulds := congrArg (List.findIdx? (·.tag? == some tag)) (moulds_finish ⟨frame :: frames, nodes⟩)
        unfold moulds at hmoulds
        rw [List.map_cons, List.tail_cons, List.findIdx?_map, List.findIdx?_map] at hmoulds
        exact hmoulds
      obtain ⟨above, habove⟩ : ∃ above, frames.findIdx? (·.tag? == some tag) = some above := by
        refine Option.ne_none_iff_exists'.1 fun hnone => ?_
        obtain ⟨mould, hmould, htag⟩ := List.mem_filterMap.1 hmem
        rcases List.mem_cons.1 hmould with rfl | hmould
        · exact hother htag
        · obtain ⟨other, hin, rfl⟩ := List.mem_map.1 hmould
          exact absurd (beq_of_eq htag) (Bool.eq_false_iff.1 (List.findIdx?_eq_none_iff.1 hnone other hin))
      have hread : (Stack.mk (frame :: frames) nodes).read token =
          (Stack.mk (frame :: frames) nodes).finish.read token := by
        unfold read
        rw [hkind]
        dsimp only
        unfold close
        rw [hfinished, habove, List.findIdx?_cons, beq_false_of_ne hother, if_neg Bool.false_ne_true, habove]
        rfl
      exact congrArg (fun stack => stack.written rest) hread

/-- The closing tag of a construct finishes it. -/
theorem written_closing {frame : Frame} {frames : List Frame} {nodes : List Node} {tokens : List Token}
    {token : Token} {tag : Tag} (hnext : tokens.head? = some token) (hcloses : token.kind.closes tag = true)
    (htag : frame.tag? = some tag) :
    (Stack.mk (frame :: frames) nodes).written tokens =
      (Stack.mk (frame :: frames) nodes).finish.written tokens.tail := by
  obtain ⟨rest, rfl⟩ := List.head?_eq_some_iff.1 hnext
  have hread : (Stack.mk (frame :: frames) nodes).read token = (Stack.mk (frame :: frames) nodes).finish := by
    unfold TokenKind.closes at hcloses
    unfold read
    split at hcloses
    next other source hkind =>
      rw [hkind]
      dsimp only
      unfold close
      rw [List.findIdx?_cons, htag, eq_of_beq hcloses, beq_self_eq_true]
      rfl
    next => cases hcloses
  exact congrArg (fun stack => stack.written rest) hread

end Stack

/-- The tags around a place are those of the constructs that are open on a stack. Nothing is between the arms
of a conditional. -/
structure Place.Mirrors (place : Place) (stack : Stack) : Prop where
  opened : place.opened = stack.moulds.filterMap Mould.tag?
  depth : place.depth = stack.depth
  unbranched : ∀ tag ∈ place.opened, tag.isBranch = false

namespace Place.Mirrors

variable {place after : Place} {stack other : Stack}

theorem of_moulds (h : place.Mirrors stack) (hmoulds : other.moulds = stack.moulds) : place.Mirrors other where
  opened := by rw [hmoulds, h.opened]
  depth := by rw [h.depth, Stack.depth_eq, Stack.depth_eq, hmoulds]
  unbranched := h.unbranched

theorem of_returns (h : place.Mirrors stack) (hreturns : place.Returns after) : after.Mirrors stack where
  opened := hreturns.opened.trans h.opened
  depth := hreturns.depth.trans h.depth
  unbranched := by
    rw [hreturns.opened]
    exact h.unbranched

theorem add (h : place.Mirrors stack) (node : Node) : place.Mirrors (stack.add node) :=
  h.of_moulds (Stack.moulds_add node stack)

/-- A construct that counts is entered one tag deeper. -/
theorem enter_nested (h : place.Mirrors stack) {frame : Frame} {tag : Tag} (hbranch : tag.isBranch = false)
    (hmould : frame.mould = ⟨some tag, true⟩) :
    (place.nest.enter tag).Mirrors ⟨frame :: stack.frames, stack.nodes⟩ where
  opened := by
    simp only [Stack.moulds, List.map_cons, hmould, List.filterMap_cons]
    exact congrArg (tag :: ·) h.opened
  depth := by
    have hnested : frame.isNested = true := congrArg Mould.isNested hmould
    rw [depth_cons, hnested]
    exact congrArg (· + 1) h.depth
  unbranched := List.forall_mem_cons.2 ⟨hbranch, h.unbranched⟩

/-- A part of a construct is entered at its depth. -/
theorem enter_part (h : place.Mirrors stack) {frame : Frame} {tag : Tag} (hbranch : tag.isBranch = false)
    (hmould : frame.mould = ⟨some tag, false⟩) :
    (place.enter tag).Mirrors ⟨frame :: stack.frames, stack.nodes⟩ where
  opened := by
    simp only [Stack.moulds, List.map_cons, hmould, List.filterMap_cons]
    exact congrArg (tag :: ·) h.opened
  depth := by
    have hnested : frame.isNested = false := congrArg Mould.isNested hmould
    rw [depth_cons, hnested]
    exact h.depth
  unbranched := List.forall_mem_cons.2 ⟨hbranch, h.unbranched⟩

/-- A layout that adopts its siblings has no closing tag. -/
theorem nest_adopting (h : place.Mirrors stack) (name : String) (children : List Node) :
    place.nest.Mirrors ⟨.adopting name children :: stack.frames, stack.nodes⟩ where
  opened := h.opened
  depth := by
    rw [depth_cons]
    exact congrArg (· + 1) h.depth
  unbranched := h.unbranched

/-- A closing tag of a tag around belongs to a construct that is open. -/
theorem mem_moulds (h : place.Mirrors stack) {kind : TokenKind} (hcloses : place.closesEnclosing kind = true) :
    ∃ tag source, kind = .closing tag source ∧ tag ∈ stack.moulds.filterMap Mould.tag? := by
  unfold Place.closesEnclosing at hcloses
  split at hcloses
  next tag source => exact ⟨tag, source, rfl, h.opened ▸ List.contains_iff_mem.1 hcloses⟩
  next => cases hcloses

end Place.Mirrors

namespace Stack

variable {place : Place} {frame : Frame} {frames : List Frame} {nodes : List Node}

/-- Where a tag around is closed, or nothing is ahead, a construct with another tag is finished. -/
theorem written_enclosed (h : place.Mirrors ⟨frame :: frames, nodes⟩)
    (hnext : ∀ token ∈ place.ahead.head?, place.closesEnclosing token.kind = true ∧
      ∀ tag, frame.tag? = some tag → token.kind.closes tag = false) :
    (Stack.mk (frame :: frames) nodes).written place.ahead =
      (Stack.mk (frame :: frames) nodes).finish.written place.ahead := by
  refine written_finish fun token htoken => ?_
  obtain ⟨hcloses, hother⟩ := hnext token htoken
  obtain ⟨tag, source, hkind, hmem⟩ := h.mem_moulds hcloses
  refine ⟨tag, source, hkind, fun htag => ?_, hmem⟩
  have hown := hother tag htag
  rw [hkind] at hown
  exact absurd (beq_self_eq_true tag) (Bool.eq_false_iff.1 hown)

/-- Where a construct is left, it is finished. -/
theorem written_left {tag : Tag} (h : place.Mirrors ⟨frame :: frames, nodes⟩) (htag : frame.tag? = some tag)
    (hnext : ∀ token ∈ place.ahead.head?, place.closesEnclosing token.kind = true) :
    (Stack.mk (frame :: frames) nodes).written place.ahead =
      (Stack.mk (frame :: frames) nodes).finish.written (place.leave.passClosing tag).ahead := by
  unfold Place.passClosing
  split
  next hown =>
    obtain ⟨token, htoken, hcloses⟩ := (Option.any_eq_true _ _).1 hown
    exact written_closing htoken hcloses htag
  next hown =>
    refine written_enclosed h fun token htoken => ⟨hnext token htoken, fun other hother => ?_⟩
    cases htag.symm.trans hother
    exact Bool.eq_false_iff.2 fun hcloses => hown ((Option.any_eq_true _ _).2 ⟨token, htoken, hcloses⟩)

end Stack

end Stencil.Markup
