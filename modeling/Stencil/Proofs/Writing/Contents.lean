import Stencil.Proofs.Writing.Parsing

/-!
What the reader of tokens makes of a written conditional and of a written component. The arms of a conditional
are read one after another, each up to the tag of the next one. A component takes its parameters, then the
nodes of its default slot, and then its named slots, each of which stands behind those before it.
-/

namespace Stencil.Markup

open Text

variable {stack : Stack}

section Conditional

theorem conditionOf?_cons {tag : Tag} (htag : tag = .ifTag ∨ tag = .elseIf) (condition : String) :
    (conditionOf? tag [⟨"condition", condition⟩]).getD "" = condition := by
  have hcondition : attribute? [⟨"condition", condition⟩] "condition" = some condition := by
    rw [attribute?_cons, if_pos (by decide)]
  rcases htag with rfl | rfl
  · rw [conditionOf?, hcondition]
    rfl
  · rw [conditionOf?, hcondition]
    rfl

/-- An arm that is read to its end, in front of what is read of the conditional so far. -/
theorem Stack.readAll_arm {arms : Arms} {ps : List Piece} {body : List Node}
    (hbody : Adds (stack.depth + 1) false ps body) (hchildren : arms.children = []) :
    (Stack.mk (.conditional arms :: stack.frames) stack.nodes).readAll ps =
      ⟨.conditional { arms with children := body.reverse } :: stack.frames, stack.nodes⟩ := by
  rw [hbody.readAll_frame (Nat.le_of_eq (depth_cons ..)) rfl, Frame.addAll_conditional, hchildren,
    pushAll_of_separate hbody.separate]

theorem Arms.endArm_branch (done : List (String × List Node)) (condition : String) (body : List Node) :
    Arms.endArm { done, condition, children := body.reverse } =
      { done := done ++ [(condition, body)], condition := "" } := by
  rw [Arms.endArm, List.reverse_reverse]
  rfl

/-- Arms with conditions, of which the first one is already open. -/
theorem Stack.readAll_arms {done rest : List (String × List Node)} {condition : String} {body : List Node}
    (hbody : Adds (stack.depth + 1) false (piecesOf body) body)
    (hrest : ∀ other ∈ rest, Adds (stack.depth + 1) false (piecesOf other.2) other.2) :
    ∃ arms : Arms, (Stack.mk (.conditional { done, condition } :: stack.frames) stack.nodes).readAll
        (piecesOf body ++ armPieces .elseIf (piecesOfBodies rest)) =
          ⟨.conditional arms :: stack.frames, stack.nodes⟩ ∧
      arms.endArm = { done := done ++ (condition, body) :: rest, condition := "" } := by
  rw [readAll_append, readAll_arm hbody rfl]
  induction rest generalizing done condition body with
  | nil => exact ⟨_, rfl, Arms.endArm_branch ..⟩
  | cons other rest ih =>
      obtain ⟨hother, hothers⟩ := List.forall_mem_cons.1 hrest
      have hnext : (Stack.mk (.conditional { done, condition, children := body.reverse } :: stack.frames)
          stack.nodes).readPiece (openingPiece false .elseIf [⟨"condition", other.1⟩]) =
          ⟨.conditional { done := done ++ [(condition, body)], condition := other.1 } :: stack.frames,
            stack.nodes⟩ := by
        change Stack.mk (.conditional { Arms.endArm _ with inElse := false, condition := _ } :: _) _ = _
        rw [Arms.endArm_branch, conditionOf?_cons (Or.inr rfl)]
      obtain ⟨arms, harms, hlast⟩ := @ih (done ++ [(condition, body)]) other.1 other.2 hother hothers
      refine ⟨arms, ?_, ?_⟩
      · rw [piecesOfBodies, armPieces, readAll_cons, hnext, readAll_append, readAll_arm hother rfl, harms]
      · rw [hlast, List.append_assoc]
        rfl

/-- A conditional whose arms with conditions were read. -/
theorem Stack.readAll_conditional {branches : List (String × List Node)} (hnonempty : branches ≠ [])
    (hdepth : stack.depth < maxDepth)
    (hbranches : ∀ branch ∈ branches, Adds (stack.depth + 1) false (piecesOf branch.2) branch.2) :
    ∃ arms : Arms, stack.readAll (armPieces .ifTag (piecesOfBodies branches)) =
        ⟨.conditional arms :: stack.frames, stack.nodes⟩ ∧
      arms.endArm = { done := branches, condition := "" } := by
  obtain ⟨branch, rest, rfl⟩ := List.exists_cons_of_ne_nil hnonempty
  obtain ⟨hfirst, hrest⟩ := List.forall_mem_cons.1 hbranches
  have hframe : frameOf? .ifTag [⟨"condition", branch.1⟩] =
      some (.conditional { condition := branch.1 }) := by
    rw [frameOf?, conditionOf?_cons (Or.inl rfl)]
  have hopen : stack.readPiece (openingPiece false .ifTag [⟨"condition", branch.1⟩]) =
      ⟨.conditional { condition := branch.1 } :: stack.frames, stack.nodes⟩ :=
    openTag_of_frameOf? hframe (by decide) (by rintro ⟨⟩) hdepth _
  rw [piecesOfBodies, armPieces, readAll_cons, hopen]
  exact readAll_arms hfirst hrest

/-- The finished conditional adds its node, with an arm for no condition if there is one. -/
theorem Stack.readAll_branches {branches : List (String × List Node)} {otherwise : Option (List Node)}
    (hnonempty : branches ≠ []) (hdepth : stack.depth < maxDepth)
    (hbranches : ∀ branch ∈ branches, Adds (stack.depth + 1) false (piecesOf branch.2) branch.2)
    (hotherwise : ∀ body ∈ otherwise, Adds (stack.depth + 1) false (piecesOf body) body) :
    stack.readAll (Node.conditional branches otherwise).pieces =
      stack.add (.conditional branches otherwise) := by
  obtain ⟨arms, harms, hended⟩ := readAll_conditional hnonempty hdepth hbranches
  cases otherwise with
  | none =>
      rw [Node.pieces, readAll_append, harms, readAll_closing rfl]
      change stack.add arms.node = _
      rw [Arms.node, hended]
  | some body =>
      have helse : (Stack.mk (.conditional arms :: stack.frames) stack.nodes).readPiece
          (openingPiece false .elseTag []) =
          ⟨.conditional { done := branches, condition := "", inElse := true } :: stack.frames,
            stack.nodes⟩ := by
        change Stack.mk (.conditional { arms.endArm with inElse := true } :: _) _ = _
        rw [hended]
      rw [Node.pieces, readAll_append, harms, elsePieces, List.cons_append, readAll_cons, helse,
        readAll_append, readAll_arm (hotherwise body rfl) rfl, readAll_closing rfl]
      change stack.add (.conditional branches (some ([] ++ body.reverse.reverse))) = _
      rw [List.nil_append, List.reverse_reverse]

end Conditional

section Component

theorem attribute?_optional (key : String) (value : Option String) (rest : List Attribute)
    (name : String) : attribute? ((value.map (Attribute.mk key)).toList ++ rest) name =
      if sameName key name then value.or (attribute? rest name) else attribute? rest name := by
  cases value with
  | none =>
      rw [Option.none_or, ite_self]
      rfl
  | some value =>
      rw [Option.some_or]
      exact attribute?_cons key value rest name

theorem parameterOf?_attributes {parameter : Parameter} (h : parameter.isCanonical = true) :
    parameterOf? parameter.attributes = some parameter := by
  simp only [Parameter.isCanonical, Bool.and_eq_true] at h
  have hdefault : attribute? parameter.attributes "default" = parameter.default := by
    have hoptional := attribute?_optional "default" parameter.default [] "default"
    rw [List.append_nil, if_pos (by decide)] at hoptional
    rw [Parameter.attributes, attribute?_cons, if_neg (by decide), attribute?_cons, if_neg (by decide),
      hoptional]
    exact Option.or_none
  have hname : attribute? parameter.attributes "name" = some parameter.name := by
    rw [Parameter.attributes, attribute?_cons, if_pos (by decide)]
  have hvalue : attribute? parameter.attributes "value" = some parameter.value := by
    rw [Parameter.attributes, attribute?_cons, if_neg (by decide), attribute?_cons, if_pos (by decide)]
  rw [parameterOf?, hname, nonEmpty?_of_isFilledName h.1.1, hvalue, hdefault]
  rfl

theorem attribute?_component (head : ComponentHead) :
    attribute? head.attributes "component" = some head.component ∧
      attribute? head.attributes "name" = head.name ∧
      attribute? head.attributes "oldname" = head.oldName := by
  have hoptional := attribute?_optional "oldname" head.oldName []
  rw [List.append_nil] at hoptional
  have hnone (name : String) : attribute? [] name = none := rfl
  unfold ComponentHead.attributes
  refine ⟨?_, ?_, ?_⟩
  · rw [attribute?_cons, if_pos (by decide)]
  · rw [attribute?_cons, if_neg (by decide), attribute?_optional, if_pos (by decide), hoptional,
      if_neg (by decide), hnone, Option.or_none]
  · rw [attribute?_cons, if_neg (by decide), attribute?_optional, if_neg (by decide), hoptional,
      if_pos (by decide), hnone, Option.or_none]

theorem ComponentKind.tag_ne {kind : ComponentKind} (h : kind.isCanonical = true) :
    kind.tag ≠ .param ∧ kind.tag ≠ .slot := by
  cases kind with
  | direct => exact ⟨Tag.noConfusion, Tag.noConfusion⟩
  | container tag =>
      refine ⟨?_, ?_⟩
      all_goals
        rintro rfl
        cases h

theorem frameOf?_component {head : ComponentHead} (h : head.kind.isCanonical = true) :
    frameOf? head.kind.tag head.attributes =
      some (.component { kind := head.kind, attributes := head.attributes }) := by
  have hpath := (attribute?_component head).1
  cases hkind : head.kind with
  | direct => rfl
  | container tag =>
      rw [hkind] at h
      rw [ComponentKind.tag, frameOf?_container h, hpath]
      rfl

theorem extraParameters_component (head : ComponentHead) :
    extraParameters ["component", "name", "oldname"] head.attributes = [] := by
  have hreserved : ∀ a ∈ head.attributes,
      (["component", "name", "oldname"].any (sameName a.name)) = true := by
    refine List.forall_mem_cons.2 ⟨?_, List.forall_mem_append.2
      ⟨forall_mem_optional.2 fun text _ => ?_, forall_mem_optional.2 fun text _ => ?_⟩⟩
    all_goals
      dsimp only
      decide
  rw [extraParameters, List.filter_eq_nil_iff.2]
  · rfl
  · intro a hmem
    rw [hreserved a hmem]
    decide

theorem Filling.node_of_head {head : ComponentHead} (h : head.isCanonical = true)
    (defaultSlot : List Node) (slots : List (String × List Node)) :
    Filling.node
        { kind := head.kind
          attributes := head.attributes
          parameters := head.parameters
          defaultSlot := defaultSlot.reverse
          slots } = .component head defaultSlot slots := by
  have hfilled {name : Option String} (hname : name.all isFilledName = true) : nonEmpty? name = name := by
    cases name with
    | none => rfl
    | some name => exact nonEmpty?_of_isFilledName hname
  simp only [ComponentHead.isCanonical, Bool.and_eq_true] at h
  obtain ⟨⟨⟨⟨-, hcomponent⟩, hname⟩, holdName⟩, -⟩ := h
  obtain ⟨hpath, hread, hreadOld⟩ := attribute?_component head
  rw [Filling.node]
  dsimp only
  rw [hpath, hread, hreadOld, Option.getD_some, trimmed_of_isName hcomponent, hfilled hname,
    hfilled holdName, extraParameters_component, List.append_nil, List.reverse_reverse]

theorem Stack.readAll_parameters {frames : List Frame} {nodes : List Node} {parameters : List Parameter}
    (h : parameters.all Parameter.isCanonical = true) (filling : Filling) :
    (Stack.mk (.component filling :: frames) nodes).readAll (parameters.map Parameter.piece) =
      ⟨.component { filling with parameters := filling.parameters ++ parameters } :: frames, nodes⟩ := by
  induction parameters generalizing filling with
  | nil =>
      rw [List.append_nil]
      rfl
  | cons parameter rest ih =>
      rw [List.all_cons, Bool.and_eq_true] at h
      have hread : (Stack.mk (.component filling :: frames) nodes).readPiece parameter.piece =
          ⟨.component { filling with parameters := filling.parameters ++ [parameter] } :: frames,
            nodes⟩ := by
        change Stack.mk (.component { filling with
          parameters := filling.parameters ++ (parameterOf? parameter.attributes).toList } :: frames)
          nodes = _
        rw [parameterOf?_attributes h.1]
        rfl
      rw [List.map_cons, readAll_cons, hread, ih h.2, List.append_assoc]
      rfl

/-- A slot of a new name stands behind the slots before it. -/
theorem appendSlot_of_new {name : String} {slots : List (String × List Node)}
    (h : ∀ slot ∈ slots, sameName slot.1 name = false) (body : List Node) :
    appendSlot name body slots = slots ++ [(name, body)] := by
  induction slots with
  | nil => rfl
  | cons slot rest ih =>
      obtain ⟨hslot, hrest⟩ := List.forall_mem_cons.1 h
      rw [appendSlot, hslot, if_neg Bool.false_ne_true, ih hrest, List.cons_append]

/-- A named slot of a component, read to its end. -/
theorem Stack.readAll_slot (filling : Filling) {name : String} {body : List Node}
    (hname : isFilledName name = true) (hdefault : sameName name defaultSlotName = false)
    (hnew : ∀ slot ∈ filling.slots, sameName slot.1 name = false)
    (hbody : Adds (stack.depth + 1) false (piecesOf body) body) :
    (Stack.mk (.component filling :: stack.frames) stack.nodes).readAll
        ((Construct.slotPlace name).wrap (piecesOf body)) =
      ⟨.component { filling with slots := filling.slots ++ [(name, body)] } :: stack.frames,
        stack.nodes⟩ := by
  have hopen : (Stack.mk (.component filling :: stack.frames) stack.nodes).readPiece
      (openingPiece false .slot [⟨"name", name⟩]) =
      ⟨.slotContent name [] :: .component filling :: stack.frames, stack.nodes⟩ := by
    change Stack.mk (.slotContent (slotNameOf [⟨"name", name⟩]) [] :: _) _ = _
    rw [slotNameOf_cons hname]
  have hdepth : (Stack.mk (.slotContent name [] :: .component filling :: stack.frames)
      stack.nodes).depth ≤ stack.depth + 1 := by
    -- a slot does not count for the depth of nesting
    refine Nat.le_of_eq (Eq.trans ?_ (depth_cons (.component filling) ..))
    exact List.countP_cons_of_neg Bool.false_ne_true
  have hfill : filling.fill name body = { filling with slots := filling.slots ++ [(name, body)] } := by
    rw [Filling.fill, hdefault, if_neg Bool.false_ne_true, appendSlot_of_new hnew]
  change (Stack.readPiece _ (openingPiece false .slot [⟨"name", name⟩])).readAll
    (piecesOf body ++ [closingPiece .slot]) = _
  rw [hopen, readAll_append, hbody.readAll_frame hdepth rfl, Frame.addAll_slotContent,
    pushAll_of_separate hbody.separate, readAll_closing rfl]
  change Stack.mk (.component (filling.fill name body.reverse.reverse) :: stack.frames) stack.nodes = _
  rw [List.reverse_reverse, hfill]

theorem Stack.readAll_slots {slots : List (String × List Node)} {filling : Filling}
    (hnames : areSlotNames (slots.map Prod.fst) = true)
    (hnew : ∀ existing ∈ filling.slots, ∀ slot ∈ slots, sameName existing.1 slot.1 = false)
    (hslots : ∀ slot ∈ slots, Adds (stack.depth + 1) false (piecesOf slot.2) slot.2) :
    (Stack.mk (.component filling :: stack.frames) stack.nodes).readAll
        (slots.flatMap fun slot => (Construct.slotPlace slot.1).wrap (piecesOf slot.2)) =
      ⟨.component { filling with slots := filling.slots ++ slots } :: stack.frames, stack.nodes⟩ := by
  induction slots generalizing filling with
  | nil =>
      rw [List.append_nil]
      rfl
  | cons slot rest ih =>
      simp only [List.map_cons, areSlotNames, Bool.and_eq_true, Bool.not_eq_true', List.all_map,
        List.all_eq_true, Function.comp_apply] at hnames
      obtain ⟨⟨⟨hname, hdefault⟩, hdistinct⟩, hothers⟩ := hnames
      obtain ⟨hbody, hbodies⟩ := List.forall_mem_cons.1 hslots
      have hread := readAll_slot filling hname hdefault
        (fun existing hmem => hnew existing hmem slot (List.mem_cons_self ..)) hbody
      rw [List.flatMap_cons, readAll_append, hread, ih hothers _ hbodies, List.append_assoc]
      · rfl
      · intro existing hmem other hother
        rcases List.mem_append.1 hmem with hmem | hmem
        · exact hnew existing hmem other (List.mem_cons_of_mem _ hother)
        · cases List.mem_singleton.1 hmem
          exact hdistinct other hother

/-- A component, read to its end. -/
theorem Stack.readAll_component {head : ComponentHead} {defaultSlot : List Node}
    {slots : List (String × List Node)} (hhead : head.isCanonical = true)
    (hnames : areSlotNames (slots.map Prod.fst) = true) (hdepth : stack.depth < maxDepth)
    (hdefault : Adds (stack.depth + 1) true (piecesOf defaultSlot) defaultSlot)
    (hslots : ∀ slot ∈ slots, Adds (stack.depth + 1) false (piecesOf slot.2) slot.2) :
    stack.readAll (Node.component head defaultSlot slots).pieces =
      stack.add (.component head defaultSlot slots) := by
  have hparts := hhead
  simp only [ComponentHead.isCanonical, Bool.and_eq_true] at hparts
  obtain ⟨⟨⟨⟨hkind, -⟩, -⟩, -⟩, hparameters⟩ := hparts
  have hopen : stack.readPiece (openingPiece false head.kind.tag head.attributes) =
      ⟨.component { kind := head.kind, attributes := head.attributes } :: stack.frames, stack.nodes⟩ :=
    openTag_of_frameOf? (frameOf?_component hkind) (ComponentKind.tag_ne hkind).1
      (fun hslot => absurd hslot (ComponentKind.tag_ne hkind).2) hdepth _
  rw [Node.pieces, readAll_cons, hopen, fillingPieces, piecesOfBodies_eq, List.flatMap_map,
    readAll_append, readAll_append, readAll_append, readAll_parameters hparameters,
    hdefault.readAll_frame (Nat.le_of_eq (depth_cons ..)) rfl, Frame.addAll_component,
    pushAll_of_separate hdefault.separate]
  dsimp only
  rw [readAll_slots hnames (fun existing hmem => absurd hmem List.not_mem_nil) hslots,
    readAll_closing rfl]
  change stack.add (Filling.node _) = _
  dsimp only
  rw [List.nil_append, List.nil_append, Filling.node_of_head hhead]

end Component

theorem frameOf?_call {name : String} {parameters : List Parameter} (hname : isName name = true)
    (h : ∀ parameter ∈ parameters, parameter.isPassable = true) :
    frameOf? .render (callAttributes name parameters) = some (.call name parameters) := by
  have hread : extraParameters ["name"] (callAttributes name parameters) = parameters := by
    rw [extraParameters, callAttributes, List.filter_cons, if_neg (by dsimp only; decide)]
    induction parameters with
    | nil => rfl
    | cons parameter rest ih =>
        obtain ⟨hparameter, hrest⟩ := List.forall_mem_cons.1 h
        simp only [Parameter.isPassable, Bool.and_eq_true, Bool.not_eq_true'] at hparameter
        obtain ⟨⟨-, hdefault⟩, hfree⟩ := hparameter
        have hsame : Parameter.mk parameter.name parameter.value none = parameter := by
          rw [← Option.isNone_iff_eq_none.1 hdefault]
        rw [List.map_cons, List.filter_cons, if_pos, List.map_cons, ih hrest]
        · exact congrArg (· :: rest) hsame
        · simp only [List.any_cons, hfree, List.any_nil, Bool.or_self, Bool.not_false]
  change some (Frame.call (nameOf (callAttributes name parameters)) _) = _
  rw [hread, callAttributes, nameOf_cons hname]

end Stencil.Markup
