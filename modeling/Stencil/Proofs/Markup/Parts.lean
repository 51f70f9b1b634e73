import Mathlib.Data.List.Induction
import Stencil.Proofs.Folding
import Stencil.Proofs.Writing.Parsing

/-!
What stands in a component. Its contents come one part after another: a child, the block of a slot, or a
parameter. The reader of tokens keeps the children together and gathers the blocks by their names; the
evaluator knows slots by the lower case of their names. For names that both take for the same ones, nothing that
is written is lost, and all that is written for a slot stands there in order.
-/

namespace Stencil.Markup

open Text

/-- What stands in a component: a child of its own, or the block of a slot with its body. -/
inductive Part where
  | child (node : Node)
  | block (slot : String) (body : List Node)

namespace Part

/-- The slot that a part is for. -/
def slot : Part → String
  | .child _ => defaultSlotName
  | .block slot _ => slot

def nodes : Part → List Node
  | .child node => [node]
  | .block _ body => body

end Part

/-- What parts write for a slot, in order. -/
def writtenFor (name : String) (parts : List Part) : List (List Node) :=
  (parts.filter fun part => lowercase part.slot == lowercase name).map Part.nodes

/-- Whether names of slots that agree in lower case agree in the case of basic letters already. -/
def NamesAgree (parts : List Part) : Prop :=
  ∀ first ∈ parts, ∀ second ∈ parts, lowercase first.slot = lowercase second.slot →
    sameName first.slot second.slot = true

/-- The contents of a component with one more part. -/
def Filling.take (filling : Filling) : Part → Filling
  | .child node => { filling with defaultSlot := addNode node filling.defaultSlot }
  | .block slot body => filling.fill slot body

/-- The stack with all constructs finished but so many. -/
def Stack.settled (outside : Nat) (stack : Stack) : Stack :=
  stack.finishMany (stack.frames.length - outside)

/-- The stack after tokens. -/
def Stack.readTokens (stack : Stack) (tokens : List Token) : Stack := tokens.foldl Stack.read stack

section Contents

variable (outer : List Frame) (top : List Node)

/-- The stack on which the contents of a component are read. -/
def inComponent (filling : Filling) : Stack := ⟨.component filling :: outer, top⟩

/-- The stack on which the body of a slot of a component is read. -/
def inSlot (slot : String) (children : List Node) (filling : Filling) : Stack :=
  ⟨.slotContent slot children :: .component filling :: outer, top⟩

/-- Tokens that a component reads as one part, or as a parameter. The part may be left open. -/
inductive Reads (filling : Filling) : List Token → Option Part → Prop where
  | child {tokens : List Token} {node : Node}
      (hread : ((inComponent outer top filling).readTokens tokens).settled (outer.length + 1) =
        inComponent outer top (filling.take (.child node))) :
      Reads filling tokens (some (.child node))
  | parameter {tokens : List Token} {parameters : List Parameter}
      (hread : ((inComponent outer top filling).readTokens tokens).settled (outer.length + 1) =
        inComponent outer top { filling with parameters }) :
      Reads filling tokens none
  | emptyBlock {token : Token} {attributes : List Attribute} {source : String}
      (hopen : token.kind = .opening true .slot attributes source) :
      Reads filling [token] (some (.block (slotNameOf attributes) []))
  | openBlock {token : Token} {attributes : List Attribute} {source : String} {inner : List Token}
      {body : List Node} (hopen : token.kind = .opening false .slot attributes source)
      (hbody : ((inSlot outer top (slotNameOf attributes) [] filling).readTokens inner).settled
        (outer.length + 2) = inSlot outer top (slotNameOf attributes) body.reverse filling) :
      Reads filling (token :: inner) (some (.block (slotNameOf attributes) body))
  | block {token last : Token} {attributes : List Attribute} {source : String} {inner : List Token}
      {body : List Node} (hopen : token.kind = .opening false .slot attributes source)
      (hbody : ((inSlot outer top (slotNameOf attributes) [] filling).readTokens inner).settled
        (outer.length + 2) = inSlot outer top (slotNameOf attributes) body.reverse filling)
      (hclose : ((inSlot outer top (slotNameOf attributes) [] filling).readTokens inner).read last =
        ((inSlot outer top (slotNameOf attributes) [] filling).readTokens inner).settled
          (outer.length + 1)) :
      Reads filling (token :: (inner ++ [last])) (some (.block (slotNameOf attributes) body))

/-- Tokens that a component reads as its contents, with the parts that it reads them as. -/
inductive Contents : Filling → List Token → List Part → Prop where
  | nil (filling : Filling) : Contents filling [] []
  | last {filling : Filling} {tokens : List Token} {part : Option Part}
      (hpart : Reads outer top filling tokens part) : Contents filling tokens part.toList
  | cons {filling after : Filling} {tokens rest : List Token} {part : Option Part} {parts : List Part}
      (hpart : Reads outer top filling tokens part)
      (hclosed : (inComponent outer top filling).readTokens tokens = inComponent outer top after)
      (hrest : Contents after rest parts) :
      Contents filling (tokens ++ rest) (part.toList ++ parts)

end Contents

section Settling

variable {stack : Stack} {outer : List Frame} {top : List Node}

theorem Stack.readTokens_append (stack : Stack) (first second : List Token) :
    stack.readTokens (first ++ second) = (stack.readTokens first).readTokens second :=
  List.foldl_append

theorem Stack.finishMany_succ (count : Nat) (stack : Stack) :
    stack.finishMany (count + 1) = (stack.finishMany count).finish := by
  induction count generalizing stack with
  | zero => rfl
  | succ count ih =>
      rw [finishMany, ih]
      rfl

theorem Stack.length_finishMany (count : Nat) (stack : Stack) :
    (stack.finishMany count).frames.length = stack.frames.length - count := by
  have hmoulds := congrArg List.length (moulds_finishMany count stack)
  rw [List.length_drop] at hmoulds
  unfold moulds at hmoulds
  rwa [List.length_map, List.length_map] at hmoulds

theorem Stack.toNodes_finish (frame : Frame) (frames : List Frame) (nodes : List Node) :
    (Stack.mk (frame :: frames) nodes).finish.toNodes = (Stack.mk (frame :: frames) nodes).toNodes := by
  have hlength : (Stack.mk (frame :: frames) nodes).finish.frames.length = frames.length :=
    length_finishMany 1 _
  unfold toNodes
  rw [hlength]
  rfl

/-- What is left of a stack but one construct more is finished once more. -/
theorem Stack.settled_of_succ {outside : Nat} {left : Stack} (h : stack.settled (outside + 1) = left)
    (hleft : left.frames.length = outside + 1) : stack.settled outside = left.finish := by
  have hlength := length_finishMany (stack.frames.length - (outside + 1)) stack
  rw [settled] at h
  rw [h, hleft] at hlength
  have hcount : stack.frames.length - outside = stack.frames.length - (outside + 1) + 1 := by omega
  rw [settled, hcount, finishMany_succ, h]

theorem Filling.take_parameters (filling : Filling) (parameters : List Parameter) (part : Part) :
    ({ filling with parameters } : Filling).take part = { filling.take part with parameters } := by
  cases part with
  | child node => rfl
  | block slot body =>
      unfold Filling.take Filling.fill
      dsimp only
      split <;> rfl

theorem Filling.foldl_take_parameters (parts : List Part) (filling : Filling)
    (parameters : List Parameter) :
    parts.foldl Filling.take { filling with parameters } =
      { parts.foldl Filling.take filling with parameters } := by
  induction parts generalizing filling with
  | nil => rfl
  | cons part rest ih =>
      rw [List.foldl_cons, take_parameters]
      exact ih (filling.take part)

/-- A slot that is finished gives its body to the component around it. -/
theorem finish_inSlot (slot : String) (body : List Node) (filling : Filling) :
    (inSlot outer top slot body.reverse filling).finish =
      inComponent outer top (filling.take (.block slot body)) := by
  change inComponent outer top (filling.fill slot body.reverse.reverse) = _
  rw [List.reverse_reverse]
  rfl

theorem readTokens_block {filling : Filling} {token : Token} {attributes : List Attribute} {source : String}
    (hopen : token.kind = .opening false .slot attributes source) (inner : List Token) :
    (inComponent outer top filling).readTokens (token :: inner) =
      (inSlot outer top (slotNameOf attributes) [] filling).readTokens inner := by
  have hread : (inComponent outer top filling).read token =
      inSlot outer top (slotNameOf attributes) [] filling := by
    unfold Stack.read
    rw [hopen]
    rfl
  change ((inComponent outer top filling).read token).readTokens inner = _
  rw [hread]

/-- Once a part is finished, the component has it. -/
theorem Reads.settled {filling : Filling} {tokens : List Token} {part : Option Part}
    (h : Reads outer top filling tokens part) :
    ∃ parameters, ((inComponent outer top filling).readTokens tokens).settled (outer.length + 1) =
      inComponent outer top { part.toList.foldl Filling.take filling with parameters } := by
  cases h with
  | child hread => exact ⟨_, hread⟩
  | @parameter _ parameters hread => exact ⟨parameters, hread⟩
  | @emptyBlock token attributes source hopen =>
      have hread : (inComponent outer top filling).read token =
          inComponent outer top (filling.take (.block (slotNameOf attributes) [])) := by
        unfold Stack.read
        rw [hopen]
        rfl
      refine ⟨(filling.take (.block (slotNameOf attributes) [])).parameters, ?_⟩
      change ((inComponent outer top filling).read token).settled _ = _
      rw [hread, Stack.settled, inComponent, List.length_cons, Nat.sub_self]
      rfl
  | openBlock hopen hbody =>
      rw [readTokens_block hopen, Stack.settled_of_succ hbody rfl, finish_inSlot]
      exact ⟨_, rfl⟩
  | block hopen hbody hclose =>
      have hsettled := (Stack.settled_of_succ hbody rfl).trans (finish_inSlot ..)
      rw [readTokens_block hopen, Stack.readTokens_append]
      change ∃ parameters, (Stack.read _ _).settled _ = _
      rw [hclose, hsettled, Stack.settled, inComponent, List.length_cons, Nat.sub_self]
      exact ⟨_, rfl⟩

/-- Once all that stands in a component is finished, the component has all its parts. -/
theorem Contents.settled {filling : Filling} {tokens : List Token} {parts : List Part}
    (h : Contents outer top filling tokens parts) :
    ∃ parameters, ((inComponent outer top filling).readTokens tokens).settled (outer.length + 1) =
      inComponent outer top { parts.foldl Filling.take filling with parameters } := by
  induction h with
  | nil filling =>
      refine ⟨filling.parameters, ?_⟩
      rw [Stack.readTokens, List.foldl_nil, Stack.settled, inComponent, List.length_cons, Nat.sub_self]
      rfl
  | last hpart => exact hpart.settled
  | @cons filling after tokens rest part parts hpart hclosed hrest ih =>
      obtain ⟨parameters, hafter⟩ := hpart.settled
      rw [hclosed, Stack.settled, inComponent, List.length_cons, Nat.sub_self] at hafter
      have hfilling : after = { part.toList.foldl Filling.take filling with parameters } :=
        Frame.component.inj (List.cons.inj (Stack.mk.inj hafter).1).1
      have hfold : parts.foldl Filling.take after =
          { parts.foldl Filling.take (part.toList.foldl Filling.take filling) with parameters } := by
        rw [hfilling, Filling.foldl_take_parameters]
      obtain ⟨last, hlast⟩ := ih
      rw [hfold] at hlast
      rw [Stack.readTokens_append, hclosed, List.foldl_append]
      exact ⟨last, hlast⟩

/-- However a component is finished, its node has all its parts. -/
theorem Contents.finished {filling : Filling} {tokens : List Token} {parts : List Part}
    (h : Contents outer top filling tokens parts) :
    ∃ gathered : Filling,
      ((inComponent outer top filling).readTokens tokens).settled outer.length =
        (Stack.mk outer top).add gathered.node ∧
      gathered.defaultSlot = (parts.foldl Filling.take filling).defaultSlot ∧
      gathered.slots = (parts.foldl Filling.take filling).slots := by
  obtain ⟨parameters, hsettled⟩ := h.settled
  exact ⟨_, Stack.settled_of_succ hsettled rfl, rfl, rfl⟩

end Settling

section Gathering

variable {parts : List Part} {part : Part} {filling : Filling} {name : String}

theorem writtenFor_concat_of_eq (part : Part) (h : lowercase part.slot = lowercase name) :
    writtenFor name (parts ++ [part]) = writtenFor name parts ++ [part.nodes] := by
  unfold writtenFor
  rw [List.filter_append, List.map_append, List.filter_singleton, beq_of_eq h]
  rfl

theorem writtenFor_concat_of_ne (part : Part) (h : lowercase part.slot ≠ lowercase name) :
    writtenFor name (parts ++ [part]) = writtenFor name parts := by
  unfold writtenFor
  rw [List.filter_append, List.map_append, List.filter_singleton, beq_false_of_ne h]
  exact List.append_nil _

theorem writtenFor_congr {other : String} (h : lowercase name = lowercase other) (parts : List Part) :
    writtenFor name parts = writtenFor other parts := by
  unfold writtenFor
  rw [h]

/-- Nothing but the cases of letters is the default slot in lower case. -/
theorem sameName_default_iff :
    sameName name defaultSlotName = true ↔ lowercase name = lowercase defaultSlotName := by
  refine ⟨lowercase_eq_of_sameName, fun h => beq_iff_eq.2 ?_⟩
  have hfaithful : defaultSlotName.toList.all isFaithful = true := by decide +kernel
  have hdefault : lower defaultSlotName.toList = defaultSlotName.toList := by decide +kernel
  have hlower : lower name.toList = defaultSlotName.toList :=
    (String.ofList_injective h).trans hdefault
  rw [asciiLower_of_lower hfaithful hlower, asciiLower_of_lower hfaithful hdefault]

/-- A block goes to the first slot that has its name, or opens a new one. -/
theorem appendSlot_cases (name : String) (body : List Node) (slots : List (String × List Node)) :
    (∃ before existing nodes after, slots = before ++ (existing, nodes) :: after ∧
      sameName existing name = true ∧
      appendSlot name body slots = before ++ (existing, nodes ++ body) :: after) ∨
    (∀ slot ∈ slots, sameName slot.1 name = false) ∧ appendSlot name body slots = slots ++ [(name, body)] := by
  induction slots with
  | nil => exact Or.inr ⟨fun _ hmem => absurd hmem List.not_mem_nil, rfl⟩
  | cons slot rest ih =>
      obtain ⟨existing, nodes⟩ := slot
      rw [appendSlot]
      split
      next hsame => exact Or.inl ⟨[], existing, nodes, rest, rfl, hsame, rfl⟩
      next hother =>
        rcases ih with ⟨before, found, held, after, rfl, hfound, happend⟩ | ⟨hnone, happend⟩
        · exact Or.inl ⟨(existing, nodes) :: before, found, held, after, rfl, hfound,
            congrArg ((existing, nodes) :: ·) happend⟩
        · exact Or.inr ⟨List.forall_mem_cons.2 ⟨Bool.eq_false_iff.2 hother, hnone⟩,
            congrArg ((existing, nodes) :: ·) happend⟩

/-- A component has gathered what is written in it: the children and the blocks of the default slot together, and
all other blocks by their names. -/
structure Filling.Gathers (parts : List Part) (filling : Filling) : Prop where
  children : filling.defaultSlot = pushAll (writtenFor defaultSlotName parts).flatten []
  keys : (filling.slots.map fun slot => lowercase slot.1).Nodup
  bodies : ∀ slot ∈ filling.slots, slot.2 = (writtenFor slot.1 parts).flatten
  named : ∀ slot ∈ filling.slots, lowercase slot.1 ≠ lowercase defaultSlotName ∧
    ∃ part ∈ parts, part.slot = slot.1
  complete : ∀ part ∈ parts, lowercase part.slot ≠ lowercase defaultSlotName →
    ∃ slot ∈ filling.slots, lowercase slot.1 = lowercase part.slot

theorem Filling.Gathers.named_concat (h : filling.Gathers parts) (part : Part) {slot : String × List Node}
    (hmem : slot ∈ filling.slots) : lowercase slot.1 ≠ lowercase defaultSlotName ∧
      ∃ origin ∈ parts ++ [part], origin.slot = slot.1 := by
  obtain ⟨hname, origin, horigin, heq⟩ := h.named slot hmem
  exact ⟨hname, origin, List.mem_append_left _ horigin, heq⟩

/-- A part of the default slot joins its children. -/
theorem Filling.Gathers.takeDefault (h : filling.Gathers parts)
    (hdefault : lowercase part.slot = lowercase defaultSlotName) : (filling.take part).Gathers (parts ++ [part]) := by
  have htake : filling.take part =
      { filling with defaultSlot := pushAll part.nodes filling.defaultSlot } := by
    cases part with
    | child node => rfl
    | block slot body =>
        have hname : sameName slot defaultSlotName = true := sameName_default_iff.2 hdefault
        rw [take, fill, if_pos hname]
        rfl
  rw [htake]
  refine ⟨?_, h.keys, fun slot hmem => ?_, fun slot hmem => h.named_concat part hmem, fun other hmem hother => ?_⟩
  · rw [writtenFor_concat_of_eq part hdefault, List.flatten_append, List.flatten_singleton]
    change pushAll part.nodes filling.defaultSlot = _
    rw [h.children]
    exact List.foldl_append.symm
  · rw [writtenFor_concat_of_ne part fun heq => (h.named slot hmem).1 (heq.symm.trans hdefault)]
    exact h.bodies slot hmem
  · rcases List.mem_append.1 hmem with hmem | hlast
    · exact h.complete other hmem hother
    · rw [List.mem_singleton.1 hlast] at hother
      exact absurd hdefault hother

section Named

variable {slot : String} {body : List Node} (h : filling.Gathers parts)
  (hnamed : lowercase slot ≠ lowercase defaultSlotName)

include h hnamed

/-- A block of a slot that is there stands behind what is written for it. -/
theorem Filling.Gathers.takeKnown {before after : List (String × List Node)} {existing : String}
    {nodes : List Node} (hslots : filling.slots = before ++ (existing, nodes) :: after)
    (hexisting : lowercase existing = lowercase slot) :
    Gathers (parts ++ [.block slot body])
      { filling with slots := before ++ (existing, nodes ++ body) :: after } := by
  have hmem : (existing, nodes) ∈ filling.slots := hslots ▸ List.mem_append_cons_self
  have hstays (other : String × List Node) (hother : other ∈ before ++ after) : other ∈ filling.slots := by
    rw [hslots]
    exact List.mem_append.2 ((List.mem_append.1 hother).imp_right (List.mem_cons_of_mem _))
  have hcases (other : String × List Node) (hother : other ∈ before ++ (existing, nodes ++ body) :: after) :
      other = (existing, nodes ++ body) ∨ other ∈ before ++ after := by
    simpa [or_left_comm] using hother
  have hkeys := h.keys
  rw [hslots, List.map_append, List.map_cons] at hkeys
  -- the keys stay, and only the slot that is found has more
  have hfree (other : String × List Node) (hother : other ∈ before ++ after) :
      lowercase slot ≠ lowercase other.1 := by
    intro heq
    have hin : lowercase other.1 ∈ (before ++ after).map fun slot => lowercase slot.1 :=
      List.mem_map_of_mem hother
    rw [← heq, ← hexisting, List.map_append] at hin
    exact (List.nodup_cons.1 (List.perm_middle.nodup_iff.1 hkeys)).1 hin
  refine ⟨?_, ?_, fun other hother => ?_, fun other hother => ?_, fun part hpart hother => ?_⟩
  · rw [writtenFor_concat_of_ne (.block slot body) hnamed]
    exact h.children
  · rw [List.map_append, List.map_cons]
    exact hkeys
  · rcases hcases other hother with rfl | hother
    · rw [writtenFor_concat_of_eq (.block slot body) hexisting.symm, List.flatten_append, List.flatten_singleton,
        ← h.bodies _ hmem]
      rfl
    · rw [writtenFor_concat_of_ne (.block slot body) (hfree other hother)]
      exact h.bodies other (hstays other hother)
  · rcases hcases other hother with rfl | hother
    · exact (h.named_concat (.block slot body) hmem :)
    · exact h.named_concat (.block slot body) (hstays other hother)
  · have hknown : ∃ known ∈ filling.slots, lowercase known.1 = lowercase part.slot := by
      rcases List.mem_append.1 hpart with hpart | hlast
      · exact h.complete part hpart hother
      · rw [List.mem_singleton.1 hlast]
        exact ⟨_, hmem, hexisting⟩
    obtain ⟨known, hknown, heq⟩ := hknown
    rw [hslots] at hknown
    rcases List.mem_append.1 hknown with hknown | hknown
    · exact ⟨known, List.mem_append_left _ hknown, heq⟩
    · rcases List.mem_cons.1 hknown with rfl | hknown
      · exact ⟨(existing, nodes ++ body), List.mem_append_cons_self, heq⟩
      · exact ⟨known, List.mem_append_right _ (List.mem_cons_of_mem _ hknown), heq⟩

/-- A block of a slot that is not there is the first that is written for it. -/
theorem Filling.Gathers.takeNew (hnew : ∀ other ∈ filling.slots, lowercase slot ≠ lowercase other.1) :
    Gathers (parts ++ [.block slot body]) { filling with slots := filling.slots ++ [(slot, body)] } := by
  have hlast : Part.block slot body ∈ parts ++ [.block slot body] :=
    List.mem_append_right _ (List.mem_singleton_self _)
  have hunwritten : writtenFor slot parts = [] := by
    unfold writtenFor
    rw [List.map_eq_nil_iff, List.filter_eq_nil_iff]
    intro part hpart hkey
    have hkey : lowercase part.slot = lowercase slot := eq_of_beq hkey
    obtain ⟨other, hother, heq⟩ := h.complete part hpart (hkey ▸ hnamed)
    exact hnew other hother (heq.trans hkey).symm
  refine ⟨?_, ?_, fun other hother => ?_, fun other hother => ?_, fun part hpart hother => ?_⟩
  · rw [writtenFor_concat_of_ne (.block slot body) hnamed]
    exact h.children
  · rw [List.map_append, List.map_singleton, List.nodup_append]
    refine ⟨h.keys, List.pairwise_singleton .., fun key hkey last hmem heq => ?_⟩
    obtain ⟨other, hother, rfl⟩ := List.mem_map.1 hkey
    exact hnew other hother (heq.trans (List.mem_singleton.1 hmem)).symm
  · rcases List.mem_append.1 hother with hother | hmem
    · rw [writtenFor_concat_of_ne (.block slot body) (hnew other hother)]
      exact h.bodies other hother
    · have hwritten := @writtenFor_concat_of_eq parts slot (.block slot body) rfl
      rw [List.mem_singleton.1 hmem, hwritten, hunwritten]
      exact (List.append_nil body).symm
  · rcases List.mem_append.1 hother with hother | hmem
    · exact h.named_concat (.block slot body) hother
    · rw [List.mem_singleton.1 hmem]
      exact ⟨hnamed, _, hlast, rfl⟩
  · rcases List.mem_append.1 hpart with hpart | hmem
    · obtain ⟨known, hknown, heq⟩ := h.complete part hpart hother
      exact ⟨known, List.mem_append_left _ hknown, heq⟩
    · rw [List.mem_singleton.1 hmem]
      exact ⟨(slot, body), List.mem_append_right _ (List.mem_singleton_self _), rfl⟩

theorem Filling.Gathers.takeNamed (hagree : NamesAgree (parts ++ [.block slot body])) :
    (filling.take (.block slot body)).Gathers (parts ++ [.block slot body]) := by
  have hfill : filling.take (.block slot body) =
      { filling with slots := appendSlot slot body filling.slots } := by
    rw [take, fill, if_neg fun hdefault => hnamed (sameName_default_iff.1 hdefault)]
  rw [hfill]
  rcases appendSlot_cases slot body filling.slots with
    ⟨before, existing, nodes, after, hslots, hexisting, happend⟩ | ⟨hnone, happend⟩
  · rw [happend]
    exact h.takeKnown hnamed hslots (lowercase_eq_of_sameName hexisting)
  · rw [happend]
    refine h.takeNew hnamed fun other hother heq => ?_
    obtain ⟨-, origin, horigin, hname⟩ := h.named other hother
    have hagrees := hagree origin (List.mem_append_left _ horigin) (.block slot body)
      (List.mem_append_right _ (List.mem_singleton_self _)) ((congrArg lowercase hname).trans heq.symm)
    rw [hname] at hagrees
    cases hagrees.symm.trans (hnone other hother)

end Named

/-- Nothing that is written in a component is lost: it gathers all its parts. -/
theorem gathers_foldl_take (hagree : NamesAgree parts) {start : Filling} (hdefault : start.defaultSlot = [])
    (hslots : start.slots = []) : (parts.foldl Filling.take start).Gathers parts := by
  induction parts using List.reverseRecOn with
  | nil =>
      refine ⟨hdefault, ?_, ?_, ?_, fun _ hmem => absurd hmem List.not_mem_nil⟩
      all_goals
        rw [List.foldl_nil, hslots]
      · exact List.nodup_nil
      · exact fun _ hmem => absurd hmem List.not_mem_nil
      · exact fun _ hmem => absurd hmem List.not_mem_nil
  | append_singleton parts part ih =>
      have hgathers := ih fun first hfirst second hsecond =>
        hagree first (List.mem_append_left _ hfirst) second (List.mem_append_left _ hsecond)
      rw [List.foldl_concat]
      by_cases hpart : lowercase part.slot = lowercase defaultSlotName
      · exact hgathers.takeDefault hpart
      · cases part with
        | child node => exact absurd rfl hpart
        | block slot body => exact hgathers.takeNamed hpart hagree

end Gathering

end Stencil.Markup
