import Stencil.Proofs.Descent.Mirrors

/-!
The procedures and the reader with a stack write the same nodes. What a procedure reads as one thing, the stack
reads as frames that are put on it and finished; whatever comes behind is read alike. A procedure needs room for
seven calls inside one another for each tag that it may still go into: from the node of a tag to the nodes in
it, the longest way leads through a block of a slot.
-/

namespace Stencil.Markup

section Rounds

variable {α : Type}

/-- What a round comes to: a state to go on from, or one to end with. -/
def Round.Meets (goesOn ends : α → Prop) : Round α → Prop
  | .more state => goesOn state
  | .over state => ends state

/-- A loop whose rounds keep an invariant and move on comes to its end. -/
theorem rounds_end {round : α → Place → Option (Round α × Place)} {Inv End : α → Place → Prop}
    (step : ∀ state place, Inv state place → ∃ result after, round state place = some (result, after) ∧
      result.Meets (fun next => Inv next after ∧ after.ahead.length < place.ahead.length)
        (fun last => End last after))
    {state : α} {place : Place} (h : Inv state place) :
    ∃ last after, rounds round state place = some (last, after) ∧ End last after := by
  fun_induction rounds round state place with
  | case1 state place hround =>
      obtain ⟨result, after, hsome, -⟩ := step state place h
      cases hround.symm.trans hsome
  | case2 state place last after hround =>
      obtain ⟨result, after', hsome, hmeets⟩ := step state place h
      cases hround.symm.trans hsome
      exact ⟨last, after, rfl, hmeets⟩
  | case3 state place next after hround hmoved ih =>
      obtain ⟨result, after', hsome, hmeets⟩ := step state place h
      cases hround.symm.trans hsome
      exact ih hmeets.1
  | case4 state place next after hround hstays =>
      obtain ⟨result, after', hsome, hmeets⟩ := step state place h
      cases hround.symm.trans hsome
      exact absurd hmeets.2 hstays

end Rounds

/-- The procedures read what a stack reads, where there is room for so many calls. -/
structure Procedures.Agree (procedures : Procedures) (room : Nat) : Prop where
  nodes : ∀ (stop : TokenKind → Bool) {stack : Stack} {place : Place}, place.Mirrors stack →
    (∀ kind, stack.claims kind = true → stop kind = true) → 7 * (maxDepth - place.depth) + 2 ≤ room →
    ∃ nodes after, procedures.nodes stop place = some (nodes, after) ∧
      stack.written place.ahead = (stack.addAll nodes).written after.ahead ∧
      pushAll nodes [] = nodes.reverse ∧
      ∀ token ∈ after.ahead.head?, (stop token.kind || after.closesEnclosing token.kind) = true
  block : ∀ {frame : Frame} {frames : List Frame} {nodes : List Node} {tag : Tag} {place : Place},
    (place.enter tag).Mirrors ⟨frame :: frames, nodes⟩ → frame.tag? = some tag →
    (∀ kind, frame.claims kind = false) → 7 * (maxDepth - place.depth) + 3 ≤ room →
    ∃ children after, procedures.block tag place = some (children, after) ∧
      (Stack.mk (frame :: frames) nodes).written place.ahead =
        (Stack.mk (frame.addAll children :: frames) nodes).finish.written after.ahead ∧
      pushAll children [] = children.reverse
  body : ∀ {frame : Frame} {frames : List Frame} {nodes : List Node} {tag : Tag} {place : Place},
    (place.enter tag).Mirrors ⟨frame :: frames, nodes⟩ → frame.tag? = some tag →
    (∀ kind, frame.claims kind = false) → 7 * (maxDepth - place.depth) + 4 ≤ room →
    ∃ children after, procedures.body tag false place = some (children, after) ∧
      (Stack.mk (frame :: frames) nodes).written place.ahead =
        (Stack.mk (frame.addAll children :: frames) nodes).finish.written after.ahead ∧
      pushAll children [] = children.reverse
  bodiless : ∀ (tag : Tag) (place : Place), 1 ≤ room → procedures.body tag true place = some ([], place)
  node : ∀ {stack : Stack} {place : Place} {token : Token}, place.Mirrors stack →
    place.ahead.head? = some token → stack.claims token.kind = false →
    place.closesEnclosing token.kind = false → 7 * (maxDepth - place.depth) + 1 ≤ room →
    ∃ node after, procedures.node place = some (node, after) ∧
      stack.written place.ahead = (stack.add? node).written after.ahead
  nested : ∀ {stack : Stack} {place : Place} (opening : OpeningTag), place.Mirrors stack →
    place.depth < maxDepth → 7 * (maxDepth - place.depth) ≤ room →
    ∃ node after, procedures.nested opening place = some (node, after) ∧
      (stack.openNested opening.selfClosing opening.tag opening.attributes opening.source).written place.ahead =
        (stack.add? node).written after.ahead
  tag : ∀ {stack : Stack} {place : Place} (opening : OpeningTag), place.Mirrors stack →
    place.depth < maxDepth → 7 * (maxDepth - place.depth) ≤ room + 1 →
    ∃ node after, procedures.tag opening place.nest = some (node, after) ∧
      (stack.openNested opening.selfClosing opening.tag opening.attributes opening.source).written place.ahead =
        (stack.add? node).written after.ahead
  conditional : ∀ {stack : Stack} {place : Place} (opening : OpeningTag), place.Mirrors stack →
    place.depth < maxDepth → 7 * (maxDepth - place.depth) ≤ room + 2 →
    ∃ node after, procedures.conditional opening place.nest = some (node, after) ∧
      (stack.begin opening.selfClosing
        (.conditional { condition := (conditionOf? .ifTag opening.attributes).getD "" })).written place.ahead =
        (stack.add node).written after.ahead
  component : ∀ {stack : Stack} {place : Place} (kind : ComponentKind) (opening : OpeningTag),
    place.Mirrors stack → kind.tag.isBranch = false →
    place.depth < maxDepth → 7 * (maxDepth - place.depth) ≤ room + 2 →
    ∃ node after, procedures.component kind opening place.nest = some (node, after) ∧
      (stack.begin opening.selfClosing (.component { kind, attributes := opening.attributes })).written
        place.ahead = (stack.add node).written after.ahead
  call : ∀ {stack : Stack} {place : Place} (opening : OpeningTag), place.Mirrors stack →
    place.depth < maxDepth → 7 * (maxDepth - place.depth) ≤ room + 2 →
    ∃ node after, procedures.call opening place.nest = some (node, after) ∧
      (stack.begin opening.selfClosing (.call (nameOf opening.attributes)
        (extraParameters ["name"] opening.attributes))).written place.ahead =
        (stack.add node).written after.ahead

/-- Siblings that have been read so far, kept backwards, on the way from one place to another. -/
structure Gathers (stack : Stack) (place : Place) (gathered : List Node) (current : Place) : Prop where
  returns : place.Returns current
  written : stack.written place.ahead = (stack.addAll gathered.reverse).written current.ahead
  pushed : pushAll gathered.reverse [] = gathered

theorem Gathers.push {stack : Stack} {place current after : Place} {gathered : List Node} {node : Option Node}
    (h : Gathers stack place gathered current) (hreturns : current.Returns after)
    (hread : (stack.addAll gathered.reverse).written current.ahead =
      ((stack.addAll gathered.reverse).add? node).written after.ahead) :
    Gathers stack place (pushAll node.toList gathered) after := by
  refine ⟨h.returns.trans hreturns, ?_, ?_⟩
  · rw [h.written, hread]
    cases node with
    | none => rfl
    | some node =>
        have hadded := foldl_addNode (fun stack node => stack.add node) Stack.add_join node gathered stack
        exact congrArg (fun stack => stack.written after.ahead) hadded.symm
  · cases node with
    | none => exact h.pushed
    | some node =>
        have hpushed := foldl_addNode (fun children node => addNode node children) addNode_join node gathered []
        exact hpushed.trans (congrArg (addNode node) h.pushed)

/-- The contents of a construct, read on from one place to another: its frame has changed from the first to
the current one. -/
structure ReadsOn (stack : Stack) (start : Place) (first frame : Frame) (current : Place) : Prop where
  returns : start.Returns current
  written : (Stack.mk (first :: stack.frames) stack.nodes).written start.ahead =
    (Stack.mk (frame :: stack.frames) stack.nodes).written current.ahead

/-- A construct is read to its end, which adds its node. -/
structure ReadsOut (stack : Stack) (start : Place) (first : Frame) (node : Node) (last : Place) : Prop where
  returns : start.Returns last
  written : (Stack.mk (first :: stack.frames) stack.nodes).written start.ahead =
    (stack.add node).written last.ahead

namespace ReadsOn

variable {stack : Stack} {start current after : Place} {first frame next : Frame}

theorem refl (stack : Stack) (start : Place) (first : Frame) : ReadsOn stack start first first start :=
  ⟨.refl start, rfl⟩

theorem trans (h : ReadsOn stack start first frame current) (hreturns : current.Returns after)
    (hread : (Stack.mk (frame :: stack.frames) stack.nodes).written current.ahead =
      (Stack.mk (next :: stack.frames) stack.nodes).written after.ahead) :
    ReadsOn stack start first next after :=
  ⟨h.returns.trans hreturns, h.written.trans hread⟩

/-- A token that the construct reads as a part of it. -/
theorem token (h : ReadsOn stack start first frame current) {token : Token}
    (hnext : current.ahead.head? = some token)
    (hread : (Stack.mk (frame :: stack.frames) stack.nodes).read token =
      Stack.mk (next :: stack.frames) stack.nodes) :
    ReadsOn stack start first next current.advance :=
  h.trans (.advance current) (Stack.written_head hnext hread)

theorem finish (h : ReadsOn stack start first frame current) (hreturns : current.Returns after) {node : Node}
    (hslot : ∀ name children, frame ≠ .slotContent name children) (hnode : frame.node? = some node)
    (hread : (Stack.mk (frame :: stack.frames) stack.nodes).written current.ahead =
      (Stack.mk (frame :: stack.frames) stack.nodes).finish.written after.ahead) :
    ReadsOut stack start first node after := by
  refine ⟨h.returns.trans hreturns, h.written.trans (hread.trans ?_)⟩
  rw [Stack.finish_cons hslot, hnode]
  rfl

end ReadsOn

namespace Procedures.Agree

variable {callee : Procedures} {room : Nat} (h : callee.Agree room) (back : callee.ComeBack)
  {stack : Stack} {place : Place}

/-- A node that is read as one of the siblings leaves less ahead. -/
theorem length_lt_of_node {callee : Procedures} (back : callee.ComeBack) {token : Token}
    {node : Option Node} {after : Place} (hnext : place.ahead.head? = some token)
    (hnode : callee.node place = some (node, after)) : after.ahead.length < place.ahead.length := by
  obtain ⟨rest, hahead⟩ := List.head?_eq_some_iff.1 hnext
  have hlength := (back.node hnode).ahead.length_le
  unfold Place.advance at hlength
  rw [hahead, List.tail_cons] at hlength
  rw [hahead]
  exact Nat.lt_succ_of_le hlength

section Siblings

include h back

theorem nodesRound {stop : TokenKind → Bool} {gathered : List Node} {current : Place}
    (hmirrors : place.Mirrors stack) (hclaims : ∀ kind, stack.claims kind = true → stop kind = true)
    (hroom : 7 * (maxDepth - place.depth) + 1 ≤ room) (hgathers : Gathers stack place gathered current) :
    ∃ result after, callee.nodesRound stop gathered current = some (result, after) ∧
      result.Meets
        (fun next => Gathers stack place next after ∧ after.ahead.length < current.ahead.length)
        (fun last => Gathers stack place last after ∧
          ∀ token ∈ after.ahead.head?, (stop token.kind || after.closesEnclosing token.kind) = true) := by
  unfold Procedures.nodesRound
  split
  next hnone =>
    refine ⟨_, _, rfl, hgathers, fun token htoken => ?_⟩
    rw [hnone] at htoken
    cases htoken
  next token rest hahead =>
    have hnext : current.ahead.head? = some token := by rw [hahead]; rfl
    split
    next hstop =>
      refine ⟨_, _, rfl, hgathers, fun other hother => ?_⟩
      cases hnext.symm.trans hother
      exact hstop
    next hgoes =>
      rw [Bool.or_eq_true, not_or, Bool.not_eq_true, Bool.not_eq_true] at hgoes
      have hfree : (stack.addAll gathered.reverse).claims token.kind = false := by
        rw [Stack.claims_addAll]
        exact Bool.eq_false_iff.2 fun hclaimed => Bool.false_ne_true (hgoes.1.symm.trans (hclaims _ hclaimed))
      have hcurrent : current.Mirrors (stack.addAll gathered.reverse) :=
        (hmirrors.of_returns hgathers.returns).of_moulds (Stack.moulds_addAll _ stack)
      obtain ⟨node, after, hnode, hread⟩ := h.node hcurrent hnext hfree hgoes.2
        (by rw [hgathers.returns.depth]; exact hroom)
      have hreturns := (Place.Returns.advance current).trans (back.node hnode)
      exact ⟨.more (pushAll node.toList gathered), after, by rw [hnode]; rfl, hgathers.push hreturns hread,
        length_lt_of_node back hnext hnode⟩

theorem readNodes (stop : TokenKind → Bool) (hmirrors : place.Mirrors stack)
    (hclaims : ∀ kind, stack.claims kind = true → stop kind = true)
    (hroom : 7 * (maxDepth - place.depth) + 2 ≤ room + 1) :
    ∃ nodes after, callee.readNodes stop place = some (nodes, after) ∧
      stack.written place.ahead = (stack.addAll nodes).written after.ahead ∧
      pushAll nodes [] = nodes.reverse ∧
      ∀ token ∈ after.ahead.head?, (stop token.kind || after.closesEnclosing token.kind) = true := by
  obtain ⟨gathered, after, hrounds, hgathers, hstop⟩ := rounds_end
    (fun _ _ hgathers => h.nodesRound back hmirrors hclaims (Nat.le_of_succ_le_succ hroom) hgathers)
    (⟨.refl place, rfl, rfl⟩ : Gathers stack place [] place)
  refine ⟨gathered.reverse, after, ?_, hgathers.written, ?_, hstop⟩
  · unfold Procedures.readNodes
    rw [hrounds]
    rfl
  · rw [hgathers.pushed, List.reverse_reverse]

theorem readBlock {frame : Frame} {frames : List Frame} {nodes : List Node} {tag : Tag}
    (hmirrors : (place.enter tag).Mirrors ⟨frame :: frames, nodes⟩) (htag : frame.tag? = some tag)
    (hclaims : ∀ kind, frame.claims kind = false) (hroom : 7 * (maxDepth - place.depth) + 3 ≤ room + 1) :
    ∃ children after, callee.readBlock tag place = some (children, after) ∧
      (Stack.mk (frame :: frames) nodes).written place.ahead =
        (Stack.mk (frame.addAll children :: frames) nodes).finish.written after.ahead ∧
      pushAll children [] = children.reverse := by
  obtain ⟨children, after, hnodes, hwritten, hpushed, hstop⟩ := h.nodes (fun _ => false) hmirrors
    (fun kind hclaimed => absurd hclaimed (Bool.eq_false_iff.1 (hclaims kind)))
    (Nat.le_of_succ_le_succ hroom)
  rw [Stack.addAll_cons] at hwritten
  have hsame := Stack.moulds_addAll children ⟨frame :: frames, nodes⟩
  rw [Stack.addAll_cons] at hsame
  have hinner := (hmirrors.of_returns (back.nodes hnodes)).of_moulds hsame
  have hleft := Stack.written_left hinner ((frame.tag?_addAll children).trans htag) fun token htoken =>
    (Bool.false_or _).symm.trans (hstop token htoken)
  refine ⟨children, after.leave.passClosing tag, ?_, hwritten.trans hleft, hpushed⟩
  unfold Procedures.readBlock
  rw [hnodes]
  rfl

omit back in
theorem readNode {token : Token} (hmirrors : place.Mirrors stack) (hnext : place.ahead.head? = some token)
    (hfree : stack.claims token.kind = false) (hopen : place.closesEnclosing token.kind = false)
    (hroom : 7 * (maxDepth - place.depth) + 1 ≤ room + 1) :
    ∃ node after, callee.readNode place = some (node, after) ∧
      stack.written place.ahead = (stack.add? node).written after.ahead := by
  unfold Procedures.readNode
  split
  next hnone =>
    rw [hnone] at hnext
    cases hnext
  next other rest hahead =>
    obtain rfl : other = token := by
      rw [hahead] at hnext
      exact Option.some.inj hnext
    split
    next source hkind =>
      refine ⟨_, _, rfl, Stack.written_head hnext ?_⟩
      rw [Stack.read, hkind]
      rfl
    next expression hkind =>
      refine ⟨_, _, rfl, Stack.written_head hnext ?_⟩
      rw [Stack.read, hkind]
      rfl
    next tag source hkind =>
      refine ⟨_, _, rfl, Stack.written_head hnext ?_⟩
      rw [hkind] at hfree hopen
      have hunopened : tag ∉ stack.moulds.filterMap Mould.tag? := by
        rw [← hmirrors.opened]
        exact fun hmem => Bool.eq_false_iff.1 hopen (List.contains_iff_mem.2 hmem)
      rw [Stack.read, hkind]
      dsimp only
      rw [Stack.close_of_unopened hunopened, Stack.not_ignores_of_unclaimed hfree, if_neg Bool.false_ne_true]
      rfl
    next selfClosing tag attributes source hkind =>
      rw [hkind] at hfree
      have hread : stack.read other = stack.openNested selfClosing tag attributes source := by
        rw [Stack.read, hkind]
        exact Stack.openTag_of_unclaimed hfree
      split
      next hdeep =>
        refine ⟨_, _, rfl, Stack.written_head hnext (hread.trans ?_)⟩
        unfold Stack.openNested
        rw [if_pos (hmirrors.depth ▸ hdeep)]
        rfl
      next hroomy =>
        obtain ⟨node, after, hnode, hwritten⟩ := h.nested ⟨selfClosing, tag, attributes, source⟩
          (hmirrors.of_returns (.advance place)) (Nat.lt_of_not_le hroomy) (Nat.le_of_succ_le_succ hroom)
        exact ⟨node, after, hnode, (Stack.written_head hnext hread).trans hwritten⟩

omit back in
theorem readNested (opening : OpeningTag) (hmirrors : place.Mirrors stack) (hdepth : place.depth < maxDepth)
    (hroom : 7 * (maxDepth - place.depth) ≤ room + 1) :
    ∃ node after, callee.readNested opening place = some (node, after) ∧
      (stack.openNested opening.selfClosing opening.tag opening.attributes opening.source).written place.ahead =
        (stack.add? node).written after.ahead := by
  obtain ⟨node, after, hnode, hwritten⟩ := h.tag opening hmirrors hdepth hroom
  refine ⟨node, { after with depth := after.depth - 1 }, ?_, hwritten⟩
  unfold Procedures.readNested
  rw [hnode]
  rfl

omit back in
theorem readBody {frame : Frame} {frames : List Frame} {nodes : List Node} {tag : Tag}
    (hmirrors : (place.enter tag).Mirrors ⟨frame :: frames, nodes⟩) (htag : frame.tag? = some tag)
    (hclaims : ∀ kind, frame.claims kind = false) (hroom : 7 * (maxDepth - place.depth) + 4 ≤ room + 1) :
    ∃ children after, callee.readBody tag false place = some (children, after) ∧
      (Stack.mk (frame :: frames) nodes).written place.ahead =
        (Stack.mk (frame.addAll children :: frames) nodes).finish.written after.ahead ∧
      pushAll children [] = children.reverse :=
  h.block hmirrors htag hclaims (Nat.le_of_succ_le_succ hroom)

omit h back in
/-- The body of a construct gives its node, if it has one. -/
theorem readConstruct {construct : Construct} {read : Place → Option (List Node × Place)}
    (hread : ∃ children after, read place.nest = some (children, after) ∧
      (Stack.mk (.body construct [] :: stack.frames) stack.nodes).written place.ahead =
        (Stack.mk ((Frame.body construct []).addAll children :: stack.frames) stack.nodes).finish.written
          after.ahead ∧
      pushAll children [] = children.reverse) :
    ∃ children after, read place.nest = some (children, after) ∧
      (stack.begin false (.body construct [])).written place.ahead =
        (stack.add? (construct.node? children)).written after.ahead := by
  obtain ⟨children, after, hchildren, hwritten, hpushed⟩ := hread
  have hnode : (Frame.body construct children.reverse).node? = construct.node? children :=
    congrArg (Construct.node? · construct) (List.reverse_reverse children)
  refine ⟨children, after, hchildren, hwritten.trans ?_⟩
  rw [Frame.addAll_body, hpushed]
  exact congrArg (fun node => (stack.add? node).written after.ahead) hnode

/-- A layout that closes itself adopts what comes before the end of the construct around it. -/
theorem readAdopting (name : String) (hmirrors : place.Mirrors stack)
    (hroom : 7 * (maxDepth - place.nest.depth) + 2 ≤ room) :
    ∃ children after, callee.nodes (fun _ => false) place.nest = some (children, after) ∧
      (Stack.mk (.adopting name [] :: stack.frames) stack.nodes).written place.ahead =
        (stack.add (.layout name children)).written after.ahead := by
  obtain ⟨children, after, hnodes, hwritten, hpushed, hstop⟩ := h.nodes (fun _ => false)
    (hmirrors.nest_adopting name []) (fun kind hclaimed => nomatch hclaimed) hroom
  rw [Stack.addAll_cons, Frame.addAll_adopting, hpushed] at hwritten
  have hinner := ((hmirrors.nest_adopting name children.reverse).of_returns (back.nodes hnodes))
  have hleft := Stack.written_enclosed hinner fun token htoken =>
    ⟨(Bool.false_or _).symm.trans (hstop token htoken), fun tag htag => nomatch htag⟩
  have hnode : (Frame.adopting name children.reverse).node? = some (.layout name children) :=
    congrArg (some <| Node.layout name ·) (List.reverse_reverse children)
  refine ⟨children, after, hnodes, hwritten.trans (hleft.trans ?_)⟩
  exact congrArg (fun node => (stack.add? node).written after.ahead) hnode

end Siblings

end Procedures.Agree

/-- What an opening tag begins, fresh from its attributes. -/
theorem frameOf?_cases {tag : Tag} {attributes : List Attribute} {frame : Frame}
    (h : frameOf? tag attributes = some frame) :
    (∃ construct, frame = .body construct [] ∧ construct.tag = tag) ∨
    frame = .conditional { condition := (conditionOf? .ifTag attributes).getD "" } ∨
    (∃ kind : ComponentKind, frame = .component { kind, attributes } ∧ kind.tag.isBranch = false) ∨
    frame = .call (nameOf attributes) (extraParameters ["name"] attributes) := by
  cases tag with
  | element | data | nav | block =>
      cases h
      split
      · exact .inr (.inr (.inl ⟨_, rfl, rfl⟩))
      · exact .inl ⟨_, rfl, rfl⟩
  | includeTag =>
      cases h
      exact .inr (.inr (.inl ⟨_, rfl, rfl⟩))
  | ifTag =>
      cases h
      exact .inr (.inl rfl)
  | render =>
      cases h
      exact .inr (.inr (.inr rfl))
  | elseIf | elseTag => cases h
  | _ =>
      cases h
      exact .inl ⟨_, rfl, rfl⟩

namespace Procedures.Agree

variable {callee : Procedures} {room : Nat} (h : callee.Agree room) (back : callee.ComeBack)
  {stack : Stack} {place : Place}

include h back

theorem readChildren {opening : OpeningTag} {construct : Construct}
    (hframe : frameOf? opening.tag opening.attributes = some (.body construct []))
    (htag : construct.tag = opening.tag) (hmirrors : place.Mirrors stack) (hdepth : place.depth < maxDepth)
    (hroom : 7 * (maxDepth - place.depth) ≤ room + 2) :
    ∃ children after, callee.readChildren opening place.nest = some (children, after) ∧
      (stack.openNested opening.selfClosing opening.tag opening.attributes opening.source).written place.ahead =
        (stack.add? (construct.node? children)).written after.ahead := by
  have hnested : place.nest.depth = place.depth + 1 := rfl
  have hbranch := Stack.isBranch_of_frameOf? hframe
  have hmould : (Frame.body construct []).mould = ⟨some opening.tag, true⟩ :=
    congrArg (fun tag => Mould.mk (some tag) true) htag
  unfold Stack.openNested
  rw [if_neg (Nat.not_le_of_lt (hmirrors.depth ▸ hdepth)), hframe]
  dsimp only
  unfold Procedures.readChildren
  obtain ⟨selfClosing, tag, attributes, source⟩ := opening
  dsimp only at *
  cases selfClosing with
  | true =>
      by_cases hlayout : tag = .layout
      · subst hlayout
        cases hframe
        rw [if_pos rfl, if_pos rfl]
        exact h.readAdopting back (nameOf attributes) hmirrors (by omega)
      · rw [if_neg hlayout, beq_false_of_ne hlayout, h.bodiless tag place.nest (by omega)]
        exact ⟨[], place.nest, rfl, rfl⟩
  | false =>
      have hentered := hmirrors.enter_nested hbranch hmould
      by_cases hlayout : tag = .layout
      · subst hlayout
        rw [if_pos rfl]
        exact readConstruct (h.block hentered (congrArg some htag) (fun _ => rfl) (by omega))
      · rw [if_neg hlayout]
        exact readConstruct (h.body hentered (congrArg some htag) (fun _ => rfl) (by omega))

end Procedures.Agree

end Stencil.Markup
