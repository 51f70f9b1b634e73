import Stencil.Proofs.Markup.Parts

/-!
Whatever tokens are read while a component is open, they split into its parts. A construct that is opened in the
component stays what it is until a closing tag finishes it, with all that is open in it; then it is a part of
the component, and the next part begins.
-/

namespace Stencil.Markup

/-- A construct without its contents. -/
def Frame.bare : Frame → Frame
  | .body construct _ => .body construct []
  | .adopting layout _ => .adopting layout []
  | .conditional _ => .conditional { condition := "" }
  | .component filling => .component { kind := filling.kind, attributes := filling.attributes }
  | .slotContent name _ => .slotContent name []
  | .parameterBody => .parameterBody
  | .call name _ => .call name []

theorem Frame.bare_add (node : Node) (frame : Frame) : (frame.add node).bare = frame.bare := by
  cases frame <;> rfl

theorem Stack.finish_cons {frame : Frame} (h : ∀ name children, frame ≠ .slotContent name children)
    (frames : List Frame) (nodes : List Node) :
    Stack.finish ⟨frame :: frames, nodes⟩ = (Stack.mk frames nodes).add? frame.node? := by
  cases frame with
  | slotContent name children => exact absurd rfl (h name children)
  | _ => rfl

/-- A stack on which a construct is being read, above those outside it. -/
def Stack.Holds (frame : Frame) (outside : List Frame) (nodes : List Node) (stack : Stack) : Prop :=
  ∃ above current, stack = ⟨above ++ current :: outside, nodes⟩ ∧ current.bare = frame.bare

namespace Stack.Holds

variable {frame : Frame} {outside : List Frame} {nodes : List Node} {stack : Stack}

theorem add (h : stack.Holds frame outside nodes) (node : Node) :
    (stack.add node).Holds frame outside nodes := by
  obtain ⟨_ | ⟨first, above⟩, current, rfl, hbare⟩ := h
  · exact ⟨[], current.add node, rfl, (Frame.bare_add node current).trans hbare⟩
  · exact ⟨first.add node :: above, current, rfl, hbare⟩

theorem add? (h : stack.Holds frame outside nodes) (node : Option Node) :
    (stack.add? node).Holds frame outside nodes := by
  cases node with
  | none => exact h
  | some node => exact h.add node

/-- The innermost construct read on to another state. -/
theorem goOn {first first' : Frame} {rest : List Frame} (h : stack.Holds frame outside nodes)
    (hframes : stack.frames = first :: rest) (hbare : first'.bare = first.bare) :
    (Stack.mk (first' :: rest) stack.nodes).Holds frame outside nodes := by
  obtain ⟨_ | ⟨top, above⟩, current, rfl, hcurrent⟩ := h
  · obtain ⟨rfl, rfl⟩ := List.cons.inj hframes
    exact ⟨[], first', rfl, hbare.trans hcurrent⟩
  · obtain ⟨rfl, rfl⟩ := List.cons.inj hframes
    exact ⟨first' :: above, current, rfl, hcurrent⟩

theorem push (h : stack.Holds frame outside nodes) (inner : Frame) :
    (Stack.mk (inner :: stack.frames) stack.nodes).Holds frame outside nodes := by
  obtain ⟨above, current, rfl, hbare⟩ := h
  exact ⟨inner :: above, current, rfl, hbare⟩

theorem fill (h : stack.Holds frame outside nodes) (name : String) (body : List Node) :
    (stack.fill name body).Holds frame outside nodes := by
  fun_cases Stack.fill name body stack with
  | case1 filling frames nodes' =>
      refine h.goOn rfl ?_
      unfold Filling.fill
      split <;> rfl
  | case2 => exact h

theorem begin (h : stack.Holds frame outside nodes) (selfClosing : Bool) (inner : Frame) :
    (stack.begin selfClosing inner).Holds frame outside nodes := by
  unfold Stack.begin
  split
  · exact h.add? _
  · exact h.push inner

theorem finish (h : stack.Holds frame outside nodes) (hinner : outside.length + 1 < stack.frames.length) :
    stack.finish.Holds frame outside nodes := by
  obtain ⟨_ | ⟨first, above⟩, current, rfl, hbare⟩ := h
  · exact absurd hinner (Nat.lt_irrefl _)
  · have hrest : (Stack.mk (above ++ current :: outside) nodes).Holds frame outside nodes :=
      ⟨above, current, rfl, hbare⟩
    change (Stack.finish ⟨first :: (above ++ current :: outside), nodes⟩).Holds frame outside nodes
    by_cases hslot : ∃ name children, first = .slotContent name children
    · obtain ⟨name, children, rfl⟩ := hslot
      exact hrest.fill name _
    · rw [finish_cons fun name children heq => hslot ⟨name, children, heq⟩]
      exact hrest.add? _

theorem finishMany (h : stack.Holds frame outside nodes) {count : Nat}
    (hcount : outside.length + count < stack.frames.length) :
    (stack.finishMany count).Holds frame outside nodes := by
  induction count with
  | zero => exact h
  | succ count ih =>
      rw [finishMany_succ]
      refine (ih (by omega)).finish ?_
      rw [length_finishMany]
      omega

/-- With all that is open in it finished, the construct is on top. -/
theorem settled (h : stack.Holds frame outside nodes) : ∃ current : Frame,
    stack.settled (outside.length + 1) = ⟨current :: outside, nodes⟩ ∧ current.bare = frame.bare := by
  have hlength : outside.length < stack.frames.length := by
    obtain ⟨above, current, rfl, -⟩ := h
    rw [List.length_append, List.length_cons]
    omega
  have hleft := length_finishMany (stack.frames.length - (outside.length + 1)) stack
  have hcount : outside.length + (stack.frames.length - (outside.length + 1)) < stack.frames.length := by omega
  obtain ⟨above, current, hstack, hbare⟩ := h.finishMany hcount
  rw [hstack, List.length_append, List.length_cons] at hleft
  obtain rfl : above = [] := List.length_eq_zero_iff.1 (by omega)
  exact ⟨current, hstack, hbare⟩

theorem openNested (h : stack.Holds frame outside nodes) (selfClosing : Bool) (tag : Tag)
    (attributes : List Attribute) (source : String) :
    (stack.openNested selfClosing tag attributes source).Holds frame outside nodes := by
  unfold Stack.openNested
  split
  · exact h.add _
  · split
    next inner _ =>
      split
      · exact h.push _
      · exact h.begin selfClosing inner
    next => exact h.add _

theorem openTag (h : stack.Holds frame outside nodes) (selfClosing : Bool) (tag : Tag)
    (attributes : List Attribute) (source : String) :
    (stack.openTag selfClosing tag attributes source).Holds frame outside nodes := by
  fun_cases Stack.openTag selfClosing tag attributes source stack with
  | case1 arms frames hframes => exact h.goOn hframes rfl
  | case2 arms frames hframes => exact h.goOn hframes rfl
  | case3 filling frames hframes =>
      refine Holds.begin ?_ selfClosing _
      exact h.goOn hframes rfl
  | case4 filling frames hframes => exact h.fill _ _
  | case5 filling frames hframes => exact h.begin false _
  | case6 name parameters frames hframes =>
      refine Holds.begin ?_ selfClosing _
      exact h.goOn hframes rfl
  | case7 => exact h.openNested selfClosing tag attributes source

/-- A token is read in the construct, or it is a closing tag that finishes it. -/
theorem read (h : stack.Holds frame outside nodes) (token : Token) :
    (stack.read token).Holds frame outside nodes ∨
      ∃ count, stack.read token = stack.finishMany count ∧
        (stack.read token).frames.length ≤ outside.length := by
  unfold Stack.read
  split
  · exact .inl (h.add _)
  · exact .inl (h.add _)
  · exact .inl (h.openTag _ _ _ _)
  next tag source _ =>
    unfold Stack.close
    split
    next above _ =>
      by_cases hcount : outside.length + (above + 1) < stack.frames.length
      · exact .inl (h.finishMany hcount)
      · refine .inr ⟨above + 1, rfl, ?_⟩
        rw [length_finishMany]
        omega
    next =>
      split
      · exact .inl h
      · exact .inl (h.add _)

/-- Tokens are all read in the construct, or one of them is the first that finishes it. -/
theorem readTokens (h : stack.Holds frame outside nodes) (tokens : List Token) :
    (stack.readTokens tokens).Holds frame outside nodes ∨
      ∃ inner last rest count, tokens = inner ++ last :: rest ∧
        (stack.readTokens inner).Holds frame outside nodes ∧
        (stack.readTokens inner).read last = (stack.readTokens inner).finishMany count ∧
        ((stack.readTokens inner).read last).frames.length ≤ outside.length := by
  induction tokens generalizing stack with
  | nil => exact .inl h
  | cons token rest ih =>
      rcases h.read token with hread | ⟨count, hread, hlength⟩
      · rcases ih hread with hall | ⟨inner, last, behind, count, rfl, hinner, hlast, hlength⟩
        · exact .inl hall
        · exact .inr ⟨token :: inner, last, behind, count, rfl, hinner, hlast, hlength⟩
      · exact .inr ⟨[], token, rest, count, rfl, h, hread, hlength⟩

end Stack.Holds

theorem Stack.settled_self {stack : Stack} {outside : Nat} (h : stack.frames.length = outside) :
    stack.settled outside = stack := by
  rw [settled, h, Nat.sub_self]
  rfl

theorem Stack.settled_settled (stack : Stack) (outside : Nat) :
    (stack.settled outside).settled outside = stack.settled outside := by
  have hlength := length_finishMany (stack.frames.length - outside) stack
  unfold settled
  rw [hlength]
  have hnone : stack.frames.length - (stack.frames.length - outside) - outside = 0 := by omega
  rw [hnone]
  rfl

/-- Whether a construct gives a node does not depend on its contents. -/
theorem Frame.isSome_node?_of_bare {frame current : Frame} (h : current.bare = frame.bare) :
    current.node?.isSome = frame.node?.isSome := by
  have hbare (frame : Frame) : frame.bare.node?.isSome = frame.node?.isSome := by
    cases frame with
    | body construct children => cases construct <;> rfl
    | _ => rfl
  rw [← hbare current, h, hbare]

/-- Only a parameter gives no node. -/
theorem isSome_node?_of_frameOf? {tag : Tag} {attributes : List Attribute} {frame : Frame}
    (h : frameOf? tag attributes = some frame) (hparam : tag ≠ .param) : frame.node?.isSome = true := by
  cases tag with
  | param => exact absurd rfl hparam
  | element | data | nav | block =>
      obtain rfl := Option.some.inj h
      split <;> rfl
  | elseIf | elseTag => cases h
  | _ =>
      cases h
      rfl

section Component

variable {outer : List Frame} {top : List Node} {filling after : Filling} {token : Token}

/-- What a token is to the component in which it is read: it closes the component, it is a part of it, or it
opens a slot or another construct in it. -/
inductive Takes (outer : List Frame) (top : List Node) (filling : Filling) (token : Token) : Prop where
  | closing (h : ((inComponent outer top filling).read token).frames.length ≤ outer.length)
  | part {part : Option Part} {after : Filling} (hpart : Reads outer top filling [token] part)
      (hread : (inComponent outer top filling).read token = inComponent outer top after)
  | slot {attributes : List Attribute} {source : String}
      (hopen : token.kind = .opening false .slot attributes source)
  | construct {frame : Frame} (hread : (inComponent outer top filling).read token =
      ⟨frame :: .component filling :: outer, top⟩) (hnode : frame.node?.isSome = true)
  | parameter {parameters : List Parameter} (hread : (inComponent outer top filling).read token =
      ⟨.parameterBody :: .component { filling with parameters } :: outer, top⟩)

theorem takes_child {node : Node}
    (h : (inComponent outer top filling).read token = (inComponent outer top filling).add node) :
    Takes outer top filling token := by
  have hsettled : ((inComponent outer top filling).readTokens [token]).settled (outer.length + 1) =
      inComponent outer top (filling.take (.child node)) := by
    change ((inComponent outer top filling).read token).settled _ = _
    rw [h]
    exact Stack.settled_self rfl
  exact .part (.child hsettled) h

theorem takes_parameters {parameters : List Parameter}
    (h : (inComponent outer top filling).read token = inComponent outer top { filling with parameters }) :
    Takes outer top filling token := by
  have hsettled : ((inComponent outer top filling).readTokens [token]).settled (outer.length + 1) =
      inComponent outer top { filling with parameters } := by
    change ((inComponent outer top filling).read token).settled _ = _
    rw [h]
    exact Stack.settled_self rfl
  exact .part (.parameter hsettled) h

theorem takes_openNested {selfClosing : Bool} {tag : Tag} {attributes : List Attribute} {source : String}
    (hparam : tag ≠ .param) (h : (inComponent outer top filling).read token =
      (inComponent outer top filling).openNested selfClosing tag attributes source) :
    Takes outer top filling token := by
  unfold Stack.openNested at h
  split at h
  · exact takes_child h
  · split at h
    next frame hframe =>
      have hnode := isSome_node?_of_frameOf? hframe hparam
      split at h
      · exact .construct h rfl
      · cases selfClosing with
        | true =>
            obtain ⟨node, hsome⟩ := Option.isSome_iff_exists.1 hnode
            rw [Stack.begin, if_pos rfl, hsome] at h
            exact takes_child h
        | false => exact .construct h hnode
    next => exact takes_child h

/-- Every token is one of these to a component. -/
theorem takes (outer : List Frame) (top : List Node) (filling : Filling) (token : Token) :
    Takes outer top filling token := by
  let stack := inComponent outer top filling
  rcases hkind : token.kind with source | expression | ⟨selfClosing, tag, attributes, source⟩ | ⟨tag, source⟩
  · have hread : stack.read token = stack.add (.text source) := by rw [Stack.read, hkind]
    exact takes_child hread
  · have hread : stack.read token = stack.add (.interpolation expression) := by rw [Stack.read, hkind]
    exact takes_child hread
  · have hread : stack.read token = stack.openTag selfClosing tag attributes source := by rw [Stack.read, hkind]
    by_cases hparam : tag = .param
    · subst hparam
      cases selfClosing with
      | true => exact takes_parameters hread
      | false => exact .parameter hread
    · by_cases hslot : tag = .slot
      · subst hslot
        cases selfClosing with
        | true => exact .part (.emptyBlock hkind) hread
        | false => exact .slot hkind
      · have hnested : stack.openTag selfClosing tag attributes source =
            stack.openNested selfClosing tag attributes source := by
          cases tag with
          | param => exact absurd rfl hparam
          | slot => exact absurd rfl hslot
          | _ => rfl
        exact takes_openNested hparam (hread.trans hnested)
  · have hread : stack.read token = stack.close tag source := by rw [Stack.read, hkind]
    unfold Stack.close at hread
    split at hread
    next above _ =>
      refine .closing ?_
      change (stack.read token).frames.length ≤ _
      rw [hread, Stack.length_finishMany]
      change outer.length + 1 - (above + 1) ≤ outer.length
      omega
    next =>
      split at hread
      · exact takes_parameters hread
      · exact takes_child hread

/-- More than so many constructs stay open while tokens are read. -/
def StaysOpen (outside : Nat) (stack : Stack) (tokens : List Token) : Prop :=
  ∀ front, front <+: tokens → outside < (stack.readTokens front).frames.length

theorem StaysOpen.append {outside : Nat} {stack : Stack} {front rest : List Token}
    (h : StaysOpen outside stack (front ++ rest)) : StaysOpen outside (stack.readTokens front) rest := by
  intro more hmore
  rw [← Stack.readTokens_append]
  exact h _ ((List.prefix_append_right_inj front).2 hmore)

/-- A construct that a token opens in a component is read to its end, or it stays open. -/
inductive Opened (outer : List Frame) (top : List Node) (filling : Filling) (tokens : List Token) : Prop where
  | left {part : Option Part} (hpart : Reads outer top filling tokens part)
  | closed {front rest : List Token} {part : Option Part} {after : Filling} (hsplit : tokens = front ++ rest)
      (hfront : front ≠ []) (hpart : Reads outer top filling front part)
      (hclosed : (inComponent outer top filling).readTokens front = inComponent outer top after)

/-- What a token opens in a component is a part of it, if it is one as far as it is read and if it is one with
the closing tag that finishes it. -/
theorem opened_of_holds {frame : Frame} {rest : List Token}
    (hread : (inComponent outer top filling).read token = ⟨frame :: .component after :: outer, top⟩)
    (hopen : StaysOpen outer.length (inComponent outer top filling) (token :: rest))
    (hleft : ∀ inner, ((inComponent outer top filling).readTokens (token :: inner)).Holds frame
      (.component after :: outer) top → ∃ part, Reads outer top filling (token :: inner) part)
    (hclosed : ∀ inner last, ((inComponent outer top filling).readTokens (token :: inner)).Holds frame
        (.component after :: outer) top →
      ((inComponent outer top filling).readTokens (token :: inner)).read last =
        ((inComponent outer top filling).readTokens (token :: inner)).settled (outer.length + 1) →
      ∃ part, Reads outer top filling (token :: (inner ++ [last])) part) :
    Opened outer top filling (token :: rest) := by
  have hstart : ((inComponent outer top filling).read token).Holds frame (.component after :: outer) top :=
    ⟨[], frame, hread, rfl⟩
  rcases hstart.readTokens rest with hall | ⟨inner, last, behind, count, rfl, hinner, hlast, hlength⟩
  · obtain ⟨part, hpart⟩ := hleft rest hall
    exact .left hpart
  · let stack := (inComponent outer top filling).readTokens (token :: inner)
    have hafter : (inComponent outer top filling).readTokens (token :: (inner ++ [last])) = stack.read last :=
      Stack.readTokens_append ((inComponent outer top filling).read token) inner [last]
    have hopenLast : outer.length < (stack.read last).frames.length := by
      rw [← hafter]
      refine hopen _ ⟨behind, ?_⟩
      simp
    have hlength : (stack.read last).frames.length = outer.length + 1 := Nat.le_antisymm hlength hopenLast
    have hfinished : (stack.finishMany count).frames.length = outer.length + 1 := hlast ▸ hlength
    rw [Stack.length_finishMany] at hfinished
    have hcount : count = stack.frames.length - (outer.length + 1) := by omega
    have hsettled : stack.read last = stack.settled (outer.length + 1) := by
      rw [Stack.settled, ← hcount]
      exact hlast
    obtain ⟨part, hpart⟩ := hclosed inner last hinner hsettled
    obtain ⟨parameters, hclosed⟩ := hpart.settled
    rw [hafter, Stack.settled_self hlength, ← hafter] at hclosed
    have hsplit : token :: (inner ++ last :: behind) = (token :: (inner ++ [last])) ++ behind := by simp
    exact .closed hsplit (List.cons_ne_nil _ _) hpart hclosed

theorem opened_slot {attributes : List Attribute} {source : String} {rest : List Token}
    (hkind : token.kind = .opening false .slot attributes source)
    (hopen : StaysOpen outer.length (inComponent outer top filling) (token :: rest)) :
    Opened outer top filling (token :: rest) := by
  -- what is left of the slot once all that is open in it is finished
  have hbody (inner : List Token) (h : ((inComponent outer top filling).readTokens (token :: inner)).Holds
      (.slotContent (slotNameOf attributes) []) (.component filling :: outer) top) :
      ∃ body : List Node, ((inSlot outer top (slotNameOf attributes) [] filling).readTokens inner).settled
        (outer.length + 2) = inSlot outer top (slotNameOf attributes) body.reverse filling := by
    obtain ⟨current, hsettled, hbare⟩ := h.settled
    rw [readTokens_block hkind] at hsettled
    cases current with
    | slotContent name children =>
        obtain rfl : name = slotNameOf attributes := (Frame.slotContent.inj hbare).1
        refine ⟨children.reverse, ?_⟩
        rw [List.reverse_reverse]
        exact hsettled
    | _ => cases hbare
  refine opened_of_holds (readTokens_block hkind []) hopen (fun inner h => ?_) fun inner last h hlast => ?_
  · obtain ⟨body, hbody⟩ := hbody inner h
    exact ⟨_, .openBlock hkind hbody⟩
  · obtain ⟨body, hbody⟩ := hbody inner h
    rw [readTokens_block hkind] at hlast
    exact ⟨_, .block hkind hbody hlast⟩

/-- A construct other than a slot is a part if what it leaves, once it is finished, is one. -/
theorem opened_of_finished {frame : Frame} {rest : List Token} {parameters : List Parameter}
    (hread : (inComponent outer top filling).read token =
      ⟨frame :: .component { filling with parameters } :: outer, top⟩)
    (hopen : StaysOpen outer.length (inComponent outer top filling) (token :: rest))
    (hfinish : ∀ current : Frame, current.bare = frame.bare → ∀ tokens,
      ((inComponent outer top filling).readTokens tokens).settled (outer.length + 1) =
        Stack.finish ⟨current :: .component { filling with parameters } :: outer, top⟩ →
      ∃ part, Reads outer top filling tokens part) :
    Opened outer top filling (token :: rest) := by
  refine opened_of_holds hread hopen (fun inner h => ?_) fun inner last h hlast => ?_
  · obtain ⟨current, hsettled, hbare⟩ := h.settled
    exact hfinish current hbare _ (Stack.settled_of_succ hsettled rfl)
  · obtain ⟨current, hsettled, hbare⟩ := h.settled
    refine hfinish current hbare _ ?_
    have hafter : (inComponent outer top filling).readTokens (token :: (inner ++ [last])) =
        ((inComponent outer top filling).readTokens (token :: inner)).read last :=
      Stack.readTokens_append ((inComponent outer top filling).read token) inner [last]
    rw [hafter, hlast, Stack.settled_settled]
    exact Stack.settled_of_succ hsettled rfl

theorem opened_construct {frame : Frame} {rest : List Token}
    (hread : (inComponent outer top filling).read token = ⟨frame :: .component filling :: outer, top⟩)
    (hnode : frame.node?.isSome = true)
    (hopen : StaysOpen outer.length (inComponent outer top filling) (token :: rest)) :
    Opened outer top filling (token :: rest) := by
  refine opened_of_finished hread hopen fun current hbare tokens hsettled => ?_
  obtain ⟨node, hsome⟩ := Option.isSome_iff_exists.1 ((Frame.isSome_node?_of_bare hbare).trans hnode)
  rw [Stack.finish_cons (by rintro name children rfl; cases hsome), hsome] at hsettled
  exact ⟨_, .child hsettled⟩

theorem opened_parameter {rest : List Token} {parameters : List Parameter}
    (hread : (inComponent outer top filling).read token =
      ⟨.parameterBody :: .component { filling with parameters } :: outer, top⟩)
    (hopen : StaysOpen outer.length (inComponent outer top filling) (token :: rest)) :
    Opened outer top filling (token :: rest) := by
  refine opened_of_finished hread hopen fun current hbare tokens hsettled => ?_
  cases current with
  | parameterBody => exact ⟨none, .parameter hsettled⟩
  | _ => cases hbare

/-- Whatever tokens are read while a component is open, they are its contents, in parts. -/
theorem exists_contents {tokens : List Token}
    (hopen : StaysOpen outer.length (inComponent outer top filling) tokens) :
    ∃ parts, Contents outer top filling tokens parts := by
  induction hlength : tokens.length using Nat.strong_induction_on generalizing filling tokens with
  | _ length ih =>
    cases tokens with
    | nil => exact ⟨[], .nil filling⟩
    | cons token rest =>
        have hopened : Opened outer top filling (token :: rest) := by
          cases takes outer top filling token with
          | closing h => exact absurd (hopen [token] (by simp)) (Nat.not_lt.2 h)
          | part hpart hread => exact .closed (List.singleton_append ..).symm (List.cons_ne_nil _ _) hpart hread
          | slot hkind => exact opened_slot hkind hopen
          | construct hread hnode => exact opened_construct hread hnode hopen
          | parameter hread => exact opened_parameter hread hopen
        cases hopened with
        | left hpart => exact ⟨_, .last hpart⟩
        | @closed front rest part after hsplit hfront hpart hclosed =>
            rw [hsplit] at hopen hlength ⊢
            have hshorter : rest.length < length := by
              have hpositive := List.length_pos_of_ne_nil hfront
              rw [List.length_append] at hlength
              omega
            obtain ⟨parts, hparts⟩ := ih rest.length hshorter (hclosed ▸ hopen.append) rfl
            exact ⟨_, .cons hpart hclosed hparts⟩

end Component

end Stencil.Markup
