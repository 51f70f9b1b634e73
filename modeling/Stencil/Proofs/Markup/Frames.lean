import Stencil.Markup.Stack

/-!
Which constructs are open after a token. What a later tag can see of an open construct is the tag that
closes it and whether it counts for the depth of nesting. Content never changes that: a closing tag
takes constructs off, and an opening tag puts at most one on.
-/

namespace Stencil.Markup

/-- What a later tag sees of an open construct. -/
structure Mould where
  tag? : Option Tag
  isNested : Bool
deriving DecidableEq

def Frame.mould (frame : Frame) : Mould := ⟨frame.tag?, frame.isNested⟩

/-- What a later tag sees of a stack. -/
def Stack.moulds (stack : Stack) : List Mould := stack.frames.map Frame.mould

theorem mould_add (node : Node) (frame : Frame) : (frame.add node).mould = frame.mould := by
  cases frame <;> rfl

namespace Stack

theorem depth_eq (stack : Stack) : stack.depth = stack.moulds.countP Mould.isNested := by
  rw [moulds, List.countP_map]
  rfl

theorem moulds_add (node : Node) (stack : Stack) : (stack.add node).moulds = stack.moulds := by
  obtain ⟨_ | ⟨frame, frames⟩, nodes⟩ := stack
  · rfl
  · exact congrArg (· :: frames.map Frame.mould) (mould_add node frame)

theorem moulds_add? (node : Option Node) (stack : Stack) :
    (stack.add? node).moulds = stack.moulds := by
  cases node with
  | none => rfl
  | some node => exact moulds_add node stack

theorem moulds_fill (name : String) (body : List Node) (stack : Stack) :
    (stack.fill name body).moulds = stack.moulds := by
  have hkind (filling : Filling) : (filling.fill name body).kind = filling.kind := by
    unfold Filling.fill
    split <;> rfl
  fun_cases Stack.fill name body stack with
  | case1 filling frames nodes =>
      simp only [moulds, List.map_cons, Frame.mould, Frame.tag?, Frame.isNested, hkind]
  | case2 => rfl

theorem moulds_finish (stack : Stack) : stack.finish.moulds = stack.moulds.tail := by
  fun_cases Stack.finish stack with
  | case1 => rfl
  | case2 name children frames nodes => exact moulds_fill ..
  | case3 frame frames nodes => exact moulds_add? ..

theorem moulds_finishMany (count : Nat) (stack : Stack) :
    (stack.finishMany count).moulds = stack.moulds.drop count := by
  induction count generalizing stack with
  | zero => rfl
  | succ count ih => rw [finishMany, ih, moulds_finish, List.drop_tail]

/-- A closing tag closes the innermost construct of its name and all in it, or nothing. -/
theorem moulds_close (tag : Tag) (source : String) (stack : Stack) :
    (stack.close tag source).moulds =
      match stack.moulds.findIdx? (·.tag? == some tag) with
      | some above => stack.moulds.drop (above + 1)
      | none => stack.moulds := by
  have hfind : stack.moulds.findIdx? (·.tag? == some tag) =
      stack.frames.findIdx? (·.tag? == some tag) := by
    rw [moulds, List.findIdx?_map]
    rfl
  rw [hfind, close]
  cases stack.frames.findIdx? (·.tag? == some tag) with
  | some above => exact moulds_finishMany ..
  | none =>
      dsimp only
      split
      · rfl
      · exact moulds_add ..

theorem moulds_close_of_absent {tag : Tag} {stack : Stack}
    (habsent : ∀ mould ∈ stack.moulds, mould.tag? ≠ some tag) (source : String) :
    (stack.close tag source).moulds = stack.moulds := by
  have hfind : stack.moulds.findIdx? (·.tag? == some tag) = none :=
    List.findIdx?_eq_none_iff.2 fun mould hmem => beq_false_of_ne (habsent mould hmem)
  rw [moulds_close, hfind]

theorem moulds_close_of_split {tag : Tag} {stack : Stack} {inner outer : List Mould} {mould : Mould}
    (hmoulds : stack.moulds = inner ++ mould :: outer) (htag : mould.tag? = some tag)
    (hinner : ∀ other ∈ inner, other.tag? ≠ some tag) (source : String) :
    (stack.close tag source).moulds = outer := by
  have hnone : inner.findIdx? (·.tag? == some tag) = none :=
    List.findIdx?_eq_none_iff.2 fun other hmem => beq_false_of_ne (hinner other hmem)
  have hfind : stack.moulds.findIdx? (·.tag? == some tag) = some inner.length := by
    rw [hmoulds, List.findIdx?_append, hnone, List.findIdx?_cons, htag, beq_self_eq_true, if_pos rfl,
      Option.none_or, Option.map_some, Nat.zero_add]
  rw [moulds_close, hfind]
  dsimp only
  rw [hmoulds, List.drop_append, List.drop_eq_nil_of_le (Nat.le_succ _), Nat.add_sub_cancel_left]
  rfl

end Stack

/-- The tags between the arms of a conditional. -/
def Tag.isBranch : Tag → Bool
  | .elseIf | .elseTag => true
  | _ => false

/-- A tag that parts no arms begins a construct of its own. -/
theorem frameOf?_mould (tag : Tag) (attributes : List Attribute) :
    (frameOf? tag attributes).map Frame.mould =
      if tag.isBranch then none else some ⟨some tag, true⟩ := by
  have hcontainer (tag : Tag) : Frame.mould (if (attribute? attributes "component").isSome then
      .component { kind := .container tag, attributes }
    else .body (.container tag attributes) []) = ⟨some tag, true⟩ := by
    split <;> rfl
  cases tag
  case element | data | nav | block => exact congrArg some (hcontainer _)
  all_goals rfl

namespace Stack

/-- What an opening tag leaves open: nothing new, a layout that adopts what follows, or a construct of
its own. -/
inductive Opens (stack : Stack) (selfClosing : Bool) (tag : Tag) : List Mould → Prop
  | nothing (h : (selfClosing = true ∧ tag ≠ .layout) ∨ tag.isBranch = true ∨
      maxDepth ≤ stack.depth) : Opens stack selfClosing tag stack.moulds
  | adopting (closed : selfClosing = true) (layout : tag = .layout) (room : stack.depth < maxDepth) :
      Opens stack selfClosing tag (⟨none, true⟩ :: stack.moulds)
  | construct (isNested : Bool) (opened : selfClosing = false) (branch : tag.isBranch = false)
      (room : isNested = true → stack.depth < maxDepth) :
      Opens stack selfClosing tag (⟨some tag, isNested⟩ :: stack.moulds)

theorem moulds_begin (selfClosing : Bool) (frame : Frame) (stack : Stack) :
    (stack.begin selfClosing frame).moulds =
      if selfClosing then stack.moulds else frame.mould :: stack.moulds := by
  unfold begin
  split
  · exact moulds_add? ..
  · rfl

theorem opens_openNested (selfClosing : Bool) (tag : Tag) (attributes : List Attribute)
    (source : String) (stack : Stack) : stack.Opens selfClosing tag
      (stack.openNested selfClosing tag attributes source).moulds := by
  unfold openNested
  split
  next hdeep =>
    rw [moulds_add]
    exact .nothing (Or.inr (Or.inr hdeep))
  next hroom =>
    have hmould := frameOf?_mould tag attributes
    split
    next frame hframe =>
      rw [hframe, Option.map_some] at hmould
      cases hbranch : tag.isBranch with
      | true =>
          rw [hbranch] at hmould
          cases hmould
      | false =>
          rw [hbranch] at hmould
          split
          next hlayout =>
            rw [Bool.and_eq_true, beq_iff_eq] at hlayout
            exact .adopting hlayout.1 hlayout.2 (Nat.lt_of_not_le hroom)
          next hlayout =>
            rw [moulds_begin]
            cases selfClosing with
            | true => exact .nothing (Or.inl ⟨rfl, fun heq => hlayout (by rw [heq]; rfl)⟩)
            | false =>
                rw [Option.some.inj hmould]
                exact .construct true rfl hbranch fun _ => Nat.lt_of_not_le hroom
    next hframe =>
      rw [moulds_add]
      rw [hframe, Option.map_none] at hmould
      refine .nothing (Or.inr (Or.inl ?_))
      cases hbranch : tag.isBranch with
      | true => rfl
      | false =>
          rw [hbranch] at hmould
          cases hmould

/-- A part of the construct around it does not count for the depth of nesting. -/
theorem opens_part {stack whole : Stack} {tag : Tag} {frame : Frame}
    (hwhole : whole.moulds = stack.moulds) (hframe : frame.mould = ⟨some tag, false⟩)
    (hbranch : tag.isBranch = false) (hlayout : tag ≠ .layout) (selfClosing : Bool) :
    stack.Opens selfClosing tag (whole.begin selfClosing frame).moulds := by
  rw [moulds_begin, hwhole, hframe]
  cases selfClosing with
  | true => exact .nothing (Or.inl ⟨rfl, hlayout⟩)
  | false => exact .construct false rfl hbranch fun hnested => nomatch hnested

theorem opens_openTag (selfClosing : Bool) (tag : Tag) (attributes : List Attribute)
    (source : String) (stack : Stack) : stack.Opens selfClosing tag
      (stack.openTag selfClosing tag attributes source).moulds := by
  have branch {tag : Tag} {frame frame' : Frame} {frames : List Frame}
      (hbranch : tag.isBranch = true) (hframes : stack.frames = frame :: frames)
      (hmould : frame'.mould = frame.mould) :
      stack.Opens selfClosing tag (Stack.mk (frame' :: frames) stack.nodes).moulds := by
    have hsame : (Stack.mk (frame' :: frames) stack.nodes).moulds = stack.moulds := by
      simp only [moulds, hframes, List.map_cons, hmould]
    rw [hsame]
    exact .nothing (Or.inr (Or.inl hbranch))
  fun_cases openTag selfClosing tag attributes source stack with
  | case1 arms frames hframes => exact branch rfl hframes rfl
  | case2 arms frames hframes => exact branch rfl hframes rfl
  | case3 filling frames hframes =>
      refine opens_part ?_ rfl rfl (by decide) selfClosing
      simp only [moulds, hframes, List.map_cons, Frame.mould, Frame.tag?, Frame.isNested]
  | case4 filling frames hframes hclosed =>
      rw [moulds_fill]
      exact .nothing (Or.inl ⟨hclosed, by decide⟩)
  | case5 filling frames hframes hopened =>
      rw [Bool.not_eq_true] at hopened
      subst hopened
      exact opens_part rfl rfl rfl (by decide) false
  | case6 name parameters frames hframes =>
      refine opens_part ?_ rfl rfl (by decide) selfClosing
      simp only [moulds, hframes, List.map_cons, Frame.mould, Frame.tag?, Frame.isNested]
  | case7 => exact opens_openNested ..

/-- The depth of nesting never passes the limit of the reader. -/
theorem depth_read_le {stack : Stack} (h : stack.depth ≤ maxDepth) (token : Token) :
    (stack.read token).depth ≤ maxDepth := by
  rw [depth_eq]
  unfold read
  split
  · rw [moulds_add, ← depth_eq]
    exact h
  · rw [moulds_add, ← depth_eq]
    exact h
  next selfClosing tag attributes source _ =>
    generalize hopens : (stack.openTag selfClosing tag attributes source).moulds = moulds
    have opens := opens_openTag selfClosing tag attributes source stack
    rw [hopens] at opens
    cases opens with
    | nothing =>
        rw [← depth_eq]
        exact h
    | adopting closed layout room =>
        rw [List.countP_cons_of_pos rfl, ← depth_eq]
        exact room
    | construct isNested opened branch room =>
        cases isNested with
        | true =>
            rw [List.countP_cons_of_pos rfl, ← depth_eq]
            exact room rfl
        | false =>
            rw [List.countP_cons_of_neg Bool.false_ne_true, ← depth_eq]
            exact h
  next tag source _ =>
    rw [moulds_close]
    split
    · refine Nat.le_trans (List.Sublist.countP_le (List.drop_sublist ..)) ?_
      rw [← depth_eq]
      exact h
    · rw [← depth_eq]
      exact h

end Stack

end Stencil.Markup
