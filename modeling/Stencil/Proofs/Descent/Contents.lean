import Stencil.Proofs.Descent.Agreement

/-!
Constructs with contents of their own: conditionals, components and calls. Each has a loop, and each round of
the loop reads what the stack reads while the frame of the construct is its innermost one. With these, all
procedures read what the stack reads, and a whole descent gives the nodes that the tokens write.
-/

namespace Stencil.Markup

section Lengths

variable {start current after : Place} {token : Token}

theorem Place.Returns.length_advance_lt (h : current.Returns after) (hnext : after.ahead.head? = some token) :
    after.advance.ahead.length < current.ahead.length := by
  obtain ⟨rest, hahead⟩ := List.head?_eq_some_iff.1 hnext
  have hlength := h.ahead.length_le
  unfold Place.advance
  rw [hahead] at hlength ⊢
  exact hlength

theorem Place.Returns.length_lt (h : current.advance.Returns after) (hnext : current.ahead.head? = some token) :
    after.ahead.length < current.ahead.length :=
  Nat.lt_of_le_of_lt h.ahead.length_le ((Place.Returns.refl current).length_advance_lt hnext)

end Lengths

/-- Where an arm ends and no arm follows, the conditional is closed, or a tag around it. -/
theorem closes_of_boundary {place : Place} {kind : TokenKind}
    (h : (kind.isBranchBoundary || place.closesEnclosing kind) = true)
    (hopening : ∀ selfClosing tag attributes source, kind = .opening selfClosing tag attributes source →
      tag.isBranch = false)
    (hclosing : ∀ tag source, kind = .closing tag source → tag.isBranch = false ∧ tag ≠ .ifTag) :
    place.closesEnclosing kind = true ∧ kind.closes .ifTag = false := by
  cases kind with
  | text | interpolation => cases h
  | opening selfClosing tag attributes source =>
      rw [TokenKind.isBranchBoundary, hopening _ _ _ _ rfl] at h
      cases h
  | closing tag source =>
      obtain ⟨hbranch, hif⟩ := hclosing tag source rfl
      rw [TokenKind.isBranchBoundary, hbranch, beq_false_of_ne hif] at h
      exact ⟨h, beq_false_of_ne hif⟩

namespace Procedures.Agree

variable {callee : Procedures} {room : Nat} (h : callee.Agree room) (back : callee.ComeBack)
  {stack : Stack} {place : Place}

section Arms

include h back

theorem armRound {arms : Arms} {first : Frame} {current : Place} (hmirrors : place.Mirrors stack)
    (hroom : 7 * (maxDepth - place.nest.depth) + 2 ≤ room)
    (hreads : ReadsOn stack (place.nest.enter .ifTag) first (.conditional arms) current) :
    ∃ result after, callee.armRound arms current = some (result, after) ∧
      result.Meets
        (fun next => ReadsOn stack (place.nest.enter .ifTag) first (.conditional next) after ∧
          after.ahead.length < current.ahead.length)
        (fun last => ReadsOut stack (place.nest.enter .ifTag) first last.node after) := by
  have hinner (arms : Arms) : (place.nest.enter .ifTag).Mirrors ⟨.conditional arms :: stack.frames, stack.nodes⟩ :=
    hmirrors.enter_nested rfl rfl
  obtain ⟨nodes, after, hnodes, hwritten, -, hstop⟩ := h.nodes TokenKind.isBranchBoundary
    ((hinner arms).of_returns hreads.returns) (fun kind hclaimed => by
      cases kind with
      | opening => exact hclaimed
      | closing => exact Bool.or_eq_true_iff.2 (.inl hclaimed)
      | text | interpolation => cases hclaimed)
    (by rw [hreads.returns.depth]; exact hroom)
  rw [Stack.addAll_cons, Frame.addAll_conditional] at hwritten
  have hback := back.nodes hnodes
  have harm := hreads.trans hback hwritten
  have hafter := (hinner { arms with children := pushAll nodes arms.children }).of_returns harm.returns
  unfold Procedures.armRound
  rw [hnodes]
  simp only [Option.bind_eq_bind, Option.bind_some]
  cases hnext : after.ahead.head? with
  | none =>
      refine ⟨_, _, rfl, harm.finish (.refl after) (by simp) rfl ?_⟩
      refine Stack.written_enclosed hafter fun token htoken => ?_
      rw [hnext] at htoken
      cases htoken
  | some token =>
      have hpassed (tag : Tag) (source : String) (hkind : token.kind = .closing tag source)
          (hbranch : tag.isBranch = true) :
          (Stack.mk (.conditional { arms with children := pushAll nodes arms.children } :: stack.frames)
              stack.nodes).read token =
            ⟨.conditional { arms with children := pushAll nodes arms.children } :: stack.frames, stack.nodes⟩ := by
        have hunopened : tag ∉ after.opened := fun hmem =>
          Bool.false_ne_true ((hafter.unbranched tag hmem).symm.trans hbranch)
        rw [hafter.opened] at hunopened
        rw [Stack.read, hkind]
        dsimp only
        rw [Stack.close_of_unopened hunopened]
        cases tag with
        | elseIf | elseTag => rfl
        | _ => cases hbranch
      rw [Option.map_some]
      split
      next source heq =>
        exact ⟨_, _, rfl, harm.token hnext (hpassed .elseIf source (Option.some.inj heq) rfl),
          hback.length_advance_lt hnext⟩
      next source heq =>
        exact ⟨_, _, rfl, harm.token hnext (hpassed .elseTag source (Option.some.inj heq) rfl),
          hback.length_advance_lt hnext⟩
      next selfClosing attributes source heq =>
        refine ⟨_, _, rfl, harm.token hnext ?_, hback.length_advance_lt hnext⟩
        rw [Stack.read, Option.some.inj heq]
        rfl
      next selfClosing attributes source heq =>
        refine ⟨_, _, rfl, harm.token hnext ?_, hback.length_advance_lt hnext⟩
        rw [Stack.read, Option.some.inj heq]
        rfl
      next source heq =>
        refine ⟨_, _, rfl, harm.finish (.advance after) (by simp) rfl ?_⟩
        refine Stack.written_closing hnext ?_ rfl
        rw [Option.some.inj heq]
        rfl
      next helseIf helse hopenElseIf hopenElse hif =>
        refine ⟨_, _, rfl, harm.finish (.refl after) (by simp) rfl ?_⟩
        refine Stack.written_enclosed hafter fun other hother => ?_
        cases hnext.symm.trans hother
        obtain ⟨hcloses, hown⟩ := closes_of_boundary (hstop token hnext)
          (fun selfClosing tag attributes source hkind => by
            cases tag with
            | elseIf => exact absurd (congrArg some hkind) (hopenElseIf _ _ _)
            | elseTag => exact absurd (congrArg some hkind) (hopenElse _ _ _)
            | _ => rfl)
          (fun tag source hkind => by
            cases tag with
            | elseIf => exact absurd (congrArg some hkind) (helseIf _)
            | elseTag => exact absurd (congrArg some hkind) (helse _)
            | ifTag => exact absurd (congrArg some hkind) (hif _)
            | _ => exact ⟨rfl, by simp⟩)
        refine ⟨hcloses, fun tag htag => ?_⟩
        cases htag
        exact hown

end Arms

section Conditionals

include h back

theorem readConditional (opening : OpeningTag) (hmirrors : place.Mirrors stack) (hdepth : place.depth < maxDepth)
    (hroom : 7 * (maxDepth - place.depth) ≤ room + 3) :
    ∃ node after, callee.readConditional opening place.nest = some (node, after) ∧
      (stack.begin opening.selfClosing
        (.conditional { condition := (conditionOf? .ifTag opening.attributes).getD "" })).written place.ahead =
        (stack.add node).written after.ahead := by
  have hnested : place.nest.depth = place.depth + 1 := rfl
  unfold Procedures.readConditional Stack.begin
  cases opening.selfClosing with
  | true => exact ⟨_, _, rfl, rfl⟩
  | false =>
      obtain ⟨arms, last, hrounds, hout⟩ := rounds_end
        (fun _ _ hreads => h.armRound back hmirrors (by omega) hreads)
        (ReadsOn.refl stack (place.nest.enter .ifTag) (.conditional _))
      refine ⟨arms.node, last.leave, ?_, hout.written⟩
      dsimp only
      rw [if_neg Bool.false_ne_true, hrounds]
      rfl

end Conditionals

section Parameters

include h

/-- The body of a parameter is dropped. -/
theorem readParameter (selfClosing : Bool) (hmirrors : place.Mirrors stack)
    (hroom : 7 * (maxDepth - place.depth) + 3 ≤ room) :
    ∃ after, callee.readParameter selfClosing place = some after ∧
      (stack.begin selfClosing .parameterBody).written place.advance.ahead = stack.written after.ahead := by
  unfold Procedures.readParameter Stack.begin
  cases selfClosing with
  | true => exact ⟨_, rfl, rfl⟩
  | false =>
      have hinner : (place.advance.enter .param).Mirrors ⟨.parameterBody :: stack.frames, stack.nodes⟩ :=
        (hmirrors.of_returns (.advance place)).enter_part rfl rfl
      obtain ⟨children, after, hblock, hwritten, -⟩ := h.block hinner rfl (fun _ => rfl) hroom
      rw [Frame.addAll_parameterBody] at hwritten
      refine ⟨after, ?_, hwritten⟩
      rw [if_neg Bool.false_ne_true, hblock]
      rfl

end Parameters

/-- A token that comes next is not the closing tag of a construct, nor of a tag around. -/
theorem written_of_closing {current : Place} {frame : Frame} {token : Token} {tag : Tag}
    (hmirrors : current.Mirrors ⟨frame :: stack.frames, stack.nodes⟩) (htag : frame.tag? = some tag)
    (hnext : current.ahead.head? = some token) (hother : token.kind.closes tag = false)
    (hcloses : current.closesEnclosing token.kind = true) :
    (Stack.mk (frame :: stack.frames) stack.nodes).written current.ahead =
      (Stack.mk (frame :: stack.frames) stack.nodes).finish.written current.ahead := by
  refine Stack.written_enclosed hmirrors fun other hsame => ?_
  cases hnext.symm.trans hsame
  refine ⟨hcloses, fun own hown => ?_⟩
  cases htag.symm.trans hown
  exact hother

section Fillings

include h

/-- The content of a slot is given to the component around it. -/
theorem readSlot (selfClosing : Bool) (attributes : List Attribute) (source : String) {filling : Filling}
    (hmirrors : place.Mirrors ⟨.component filling :: stack.frames, stack.nodes⟩)
    (hroom : 7 * (maxDepth - place.depth) + 4 ≤ room) :
    ∃ body after, callee.body .slot selfClosing place.advance = some (body, after) ∧
      ((Stack.mk (.component filling :: stack.frames) stack.nodes).openTag selfClosing .slot attributes
        source).written place.advance.ahead =
        (Stack.mk (.component (filling.fill (slotNameOf attributes) body) :: stack.frames) stack.nodes).written
          after.ahead := by
  cases selfClosing with
  | true => exact ⟨[], place.advance, h.bodiless .slot place.advance (by omega), rfl⟩
  | false =>
      have hinner : (place.advance.enter .slot).Mirrors
          ⟨.slotContent (slotNameOf attributes) [] :: .component filling :: stack.frames, stack.nodes⟩ :=
        (hmirrors.of_returns (.advance place)).enter_part rfl rfl
      obtain ⟨body, after, hbody, hwritten, hpushed⟩ := h.body hinner rfl (fun _ => rfl) hroom
      rw [Frame.addAll_slotContent, hpushed] at hwritten
      have hfinished : (inSlot stack.frames stack.nodes (slotNameOf attributes) body.reverse filling).finish =
          inComponent stack.frames stack.nodes (filling.fill (slotNameOf attributes) body) := finish_inSlot ..
      exact ⟨body, after, hbody, hwritten.trans (congrArg (fun stack => stack.written after.ahead) hfinished)⟩

include back

theorem partRound {kind : ComponentKind} {filling : Filling} {first : Frame} {current : Place}
    (hmirrors : place.Mirrors stack) (hbranch : kind.tag.isBranch = false) (hkind : filling.kind = kind)
    (hroom : 7 * (maxDepth - place.nest.depth) + 4 ≤ room)
    (hreads : ReadsOn stack (place.nest.enter kind.tag) first (.component filling) current) :
    ∃ result after, callee.partRound kind.tag filling current = some (result, after) ∧
      result.Meets
        (fun next => (ReadsOn stack (place.nest.enter kind.tag) first (.component next) after ∧
          next.kind = kind) ∧ after.ahead.length < current.ahead.length)
        (fun last => ReadsOut stack (place.nest.enter kind.tag) first last.node after) := by
  have htag (filling : Filling) (hkind : filling.kind = kind) : (Frame.component filling).tag? = some kind.tag :=
    congrArg (fun kind : ComponentKind => some kind.tag) hkind
  have hinner (filling : Filling) (hkind : filling.kind = kind) :
      current.Mirrors ⟨.component filling :: stack.frames, stack.nodes⟩ := by
    refine Place.Mirrors.of_returns (hmirrors.enter_nested hbranch ?_) hreads.returns
    exact congrArg (fun kind => Mould.mk (some (ComponentKind.tag kind)) true) hkind
  have hcurrent : 7 * (maxDepth - current.depth) + 4 ≤ room := by rw [hreads.returns.depth]; exact hroom
  have hslotless (name : String) (children : List Node) : Frame.component filling ≠ .slotContent name children :=
    nofun
  unfold Procedures.partRound
  split
  next hnone =>
    refine ⟨_, _, rfl, hreads.finish (.refl current) hslotless rfl ?_⟩
    refine Stack.written_enclosed (hinner filling hkind) fun token htoken => ?_
    rw [hnone] at htoken
    cases htoken
  next token rest hahead =>
    have hnext : current.ahead.head? = some token := by rw [hahead]; rfl
    split
    next hown =>
      exact ⟨_, _, rfl, hreads.finish (.advance current) hslotless rfl
        (Stack.written_closing hnext hown (htag filling hkind))⟩
    next hother =>
      rw [Bool.not_eq_true] at hother
      split
      next hcloses =>
        exact ⟨_, _, rfl, hreads.finish (.refl current) hslotless rfl
          (written_of_closing (hinner filling hkind) (htag filling hkind) hnext hother hcloses)⟩
      next hopen =>
        rw [Bool.not_eq_true] at hopen
        split
        next selfClosing attributes source heq =>
          let parameters := filling.parameters ++ (parameterOf? attributes).toList
          obtain ⟨after, hparameter, hwritten⟩ := h.readParameter selfClosing
            (hinner { filling with parameters } hkind) (by omega)
          have hstep : (Stack.mk (.component filling :: stack.frames) stack.nodes).read token =
              Stack.begin selfClosing .parameterBody
                ⟨.component { filling with parameters } :: stack.frames, stack.nodes⟩ := by
            rw [Stack.read, heq]
            rfl
          have hreturns := back.readParameter hparameter
          exact ⟨.more { filling with parameters }, after, by rw [hparameter]; rfl,
            ⟨hreads.trans ((Place.Returns.advance current).trans hreturns)
              ((Stack.written_head hnext hstep).trans hwritten), hkind⟩, hreturns.length_lt hnext⟩
        next source heq =>
          refine ⟨_, _, rfl, ⟨hreads.token hnext ?_, hkind⟩, (Place.Returns.refl current).length_advance_lt hnext⟩
          have hunopened : Tag.param ∉ current.opened := by
            rw [heq] at hopen
            exact fun hmem => Bool.eq_false_iff.1 hopen (List.contains_iff_mem.2 hmem)
          rw [(hinner filling hkind).opened] at hunopened
          rw [Stack.read, heq]
          dsimp only
          rw [Stack.close_of_unopened hunopened]
          rfl
        next selfClosing attributes source heq =>
          obtain ⟨body, after, hbody, hwritten⟩ := h.readSlot selfClosing attributes source
            (hinner filling hkind) hcurrent
          have hstep : (Stack.mk (.component filling :: stack.frames) stack.nodes).read token =
              (Stack.mk (.component filling :: stack.frames) stack.nodes).openTag selfClosing .slot attributes
                source := by
            rw [Stack.read, heq]
          have hreturns := back.body hbody
          have hfilled : (filling.fill (slotNameOf attributes) body).kind = kind := by
            unfold Filling.fill
            split
            · exact hkind
            · exact hkind
          exact ⟨.more (filling.fill (slotNameOf attributes) body), after, by rw [hbody]; rfl,
            ⟨hreads.trans ((Place.Returns.advance current).trans hreturns)
              ((Stack.written_head hnext hstep).trans hwritten), hfilled⟩, hreturns.length_lt hnext⟩
        next hparameter hstray hslot =>
          have hfree : (Stack.mk (.component filling :: stack.frames) stack.nodes).claims token.kind = false := by
            generalize token.kind = tokenKind at hparameter hstray hslot
            cases tokenKind with
            | opening selfClosing tag attributes source =>
                cases tag with
                | param => exact absurd rfl (hparameter _ _ _)
                | slot => exact absurd rfl (hslot _ _ _)
                | _ => rfl
            | closing tag source =>
                cases tag with
                | param => exact absurd rfl (hstray _)
                | _ => rfl
            | _ => rfl
          obtain ⟨node, after, hnode, hwritten⟩ := h.node (hinner filling hkind) hnext hfree hopen (by omega)
          have hreturns := back.node hnode
          refine ⟨.more { filling with defaultSlot := pushAll node.toList filling.defaultSlot }, after,
            by rw [hnode]; rfl, ⟨hreads.trans ((Place.Returns.advance current).trans hreturns) (hwritten.trans ?_),
              hkind⟩, hreturns.length_lt hnext⟩
          cases node with
          | none => rfl
          | some node => rfl

theorem readComponent (kind : ComponentKind) (opening : OpeningTag) (hmirrors : place.Mirrors stack)
    (hbranch : kind.tag.isBranch = false) (hdepth : place.depth < maxDepth)
    (hroom : 7 * (maxDepth - place.depth) ≤ room + 3) :
    ∃ node after, callee.readComponent kind opening place.nest = some (node, after) ∧
      (stack.begin opening.selfClosing (.component { kind, attributes := opening.attributes })).written
        place.ahead = (stack.add node).written after.ahead := by
  have hnested : place.nest.depth = place.depth + 1 := rfl
  unfold Procedures.readComponent Stack.begin
  cases opening.selfClosing with
  | true => exact ⟨_, _, rfl, rfl⟩
  | false =>
      obtain ⟨filling, last, hrounds, hout⟩ := rounds_end
        (fun _ _ hreads => h.partRound back hmirrors hbranch hreads.2 (by omega) hreads.1)
        ⟨ReadsOn.refl stack (place.nest.enter kind.tag)
          (.component { kind, attributes := opening.attributes }), rfl⟩
      refine ⟨filling.node, last.leave, ?_, hout.written⟩
      dsimp only
      rw [if_neg Bool.false_ne_true, hrounds]
      rfl

end Fillings

section Calls

include h back

theorem parameterRound {name : String} {parameters : List Parameter} {first : Frame} {current : Place}
    (hmirrors : place.Mirrors stack) (hroom : 7 * (maxDepth - place.nest.depth) + 4 ≤ room)
    (hreads : ReadsOn stack (place.nest.enter .render) first (.call name parameters) current) :
    ∃ result after, callee.parameterRound parameters current = some (result, after) ∧
      result.Meets
        (fun next => ReadsOn stack (place.nest.enter .render) first (.call name next) after ∧
          after.ahead.length < current.ahead.length)
        (fun last => ReadsOut stack (place.nest.enter .render) first (.call name last) after) := by
  have hinner (parameters : List Parameter) :
      current.Mirrors ⟨.call name parameters :: stack.frames, stack.nodes⟩ :=
    Place.Mirrors.of_returns (hmirrors.enter_nested rfl rfl) hreads.returns
  have hcurrent : 7 * (maxDepth - current.depth) + 4 ≤ room := by rw [hreads.returns.depth]; exact hroom
  have hslotless (slot : String) (children : List Node) :
      Frame.call name parameters ≠ .slotContent slot children := nofun
  unfold Procedures.parameterRound
  split
  next hnone =>
    refine ⟨_, _, rfl, hreads.finish (.refl current) hslotless rfl ?_⟩
    refine Stack.written_enclosed (hinner parameters) fun token htoken => ?_
    rw [hnone] at htoken
    cases htoken
  next token rest hahead =>
    have hnext : current.ahead.head? = some token := by rw [hahead]; rfl
    split
    next hown =>
      exact ⟨_, _, rfl, hreads.finish (.advance current) hslotless rfl (Stack.written_closing hnext hown rfl)⟩
    next hother =>
      rw [Bool.not_eq_true] at hother
      split
      next hcloses =>
        exact ⟨_, _, rfl, hreads.finish (.refl current) hslotless rfl
          (written_of_closing (hinner parameters) rfl hnext hother hcloses)⟩
      next hopen =>
        rw [Bool.not_eq_true] at hopen
        split
        next selfClosing attributes source heq =>
          let more := parameters ++ (parameterOf? attributes).toList
          obtain ⟨after, hparameter, hwritten⟩ := h.readParameter selfClosing (hinner more) (by omega)
          have hstep : (Stack.mk (.call name parameters :: stack.frames) stack.nodes).read token =
              Stack.begin selfClosing .parameterBody ⟨.call name more :: stack.frames, stack.nodes⟩ := by
            rw [Stack.read, heq]
            rfl
          have hreturns := back.readParameter hparameter
          exact ⟨.more more, after, by rw [hparameter]; rfl,
            hreads.trans ((Place.Returns.advance current).trans hreturns)
              ((Stack.written_head hnext hstep).trans hwritten), hreturns.length_lt hnext⟩
        next hparameter =>
          have hfree :
              (Stack.mk (.call name parameters :: stack.frames) stack.nodes).claims token.kind = false := by
            generalize token.kind = tokenKind at hparameter
            cases tokenKind with
            | opening selfClosing tag attributes source =>
                cases tag with
                | param => exact absurd rfl (hparameter _ _ _)
                | _ => rfl
            | _ => rfl
          obtain ⟨node, after, hnode, hwritten⟩ := h.node (hinner parameters) hnext hfree hopen (by omega)
          have hreturns := back.node hnode
          refine ⟨.more parameters, after, by rw [hnode]; rfl,
            hreads.trans ((Place.Returns.advance current).trans hreturns) (hwritten.trans ?_),
            hreturns.length_lt hnext⟩
          cases node with
          | none => rfl
          | some node => rfl

theorem readCall (opening : OpeningTag) (hmirrors : place.Mirrors stack) (hdepth : place.depth < maxDepth)
    (hroom : 7 * (maxDepth - place.depth) ≤ room + 3) :
    ∃ node after, callee.readCall opening place.nest = some (node, after) ∧
      (stack.begin opening.selfClosing (.call (nameOf opening.attributes)
        (extraParameters ["name"] opening.attributes))).written place.ahead =
        (stack.add node).written after.ahead := by
  have hnested : place.nest.depth = place.depth + 1 := rfl
  unfold Procedures.readCall Stack.begin
  cases opening.selfClosing with
  | true => exact ⟨_, _, rfl, rfl⟩
  | false =>
      obtain ⟨parameters, last, hrounds, hout⟩ := rounds_end
        (fun _ _ hreads => h.parameterRound back hmirrors (by omega) hreads)
        (ReadsOn.refl stack (place.nest.enter .render) (.call (nameOf opening.attributes) _))
      refine ⟨.call (nameOf opening.attributes) parameters, last.leave, ?_, hout.written⟩
      dsimp only
      rw [if_neg Bool.false_ne_true, hrounds]
      rfl

theorem readTag (opening : OpeningTag) (hmirrors : place.Mirrors stack) (hdepth : place.depth < maxDepth)
    (hroom : 7 * (maxDepth - place.depth) ≤ room + 2) :
    ∃ node after, callee.readTag opening place.nest = some (node, after) ∧
      (stack.openNested opening.selfClosing opening.tag opening.attributes opening.source).written place.ahead =
        (stack.add? node).written after.ahead := by
  cases hframe : frameOf? opening.tag opening.attributes with
  | none =>
      refine ⟨some (.text opening.source), place.nest, ?_, ?_⟩
      · unfold Procedures.readTag
        rw [hframe]
      · unfold Stack.openNested
        rw [if_neg (Nat.not_le_of_lt (hmirrors.depth ▸ hdepth)), hframe]
        rfl
  | some frame =>
      have hbegin (hbody : ∀ construct children, frame ≠ .body construct children) :
          stack.openNested opening.selfClosing opening.tag opening.attributes opening.source =
            stack.begin opening.selfClosing frame := by
        unfold Stack.openNested
        rw [if_neg (Nat.not_le_of_lt (hmirrors.depth ▸ hdepth)), hframe]
        dsimp only
        split
        next hlayout =>
          rw [Bool.and_eq_true, beq_iff_eq] at hlayout
          rw [hlayout.2] at hframe
          exact absurd (Option.some.inj hframe).symm (hbody _ _)
        next => rfl
      unfold Procedures.readTag
      rw [hframe]
      rcases frameOf?_cases hframe with ⟨construct, rfl, htag⟩ | rfl | ⟨kind, rfl, hbranch⟩ | rfl
      · obtain ⟨children, after, hchildren, hwritten⟩ := h.readChildren back hframe htag hmirrors hdepth hroom
        exact ⟨construct.node? children, after, by rw [hchildren]; rfl, hwritten⟩
      · obtain ⟨node, after, hnode, hwritten⟩ := h.conditional opening hmirrors hdepth hroom
        exact ⟨some node, after, by rw [hnode]; rfl, by rw [hbegin (fun _ _ => nofun)]; exact hwritten⟩
      · obtain ⟨node, after, hnode, hwritten⟩ := h.component kind opening hmirrors hbranch hdepth hroom
        exact ⟨some node, after, by dsimp only; rw [hnode]; rfl, by rw [hbegin (fun _ _ => nofun)]; exact hwritten⟩
      · obtain ⟨node, after, hnode, hwritten⟩ := h.call opening hmirrors hdepth hroom
        exact ⟨some node, after, by rw [hnode]; rfl, by rw [hbegin (fun _ _ => nofun)]; exact hwritten⟩

end Calls

end Procedures.Agree

namespace Procedures

/-- However much room there is, the procedures read what a stack reads as far as the room goes. -/
theorem agree_within (room : Nat) : (within room).Agree room := by
  induction room with
  | zero =>
      constructor
      all_goals
        intros
        omega
  | succ room ih =>
      have back := comeBack_within room
      exact {
        nodes := fun stop _ _ => ih.readNodes back stop
        block := ih.readBlock back
        body := ih.readBody
        bodiless := fun _ _ _ => rfl
        node := ih.readNode
        nested := ih.readNested
        tag := ih.readTag back
        conditional := ih.readConditional back
        component := ih.readComponent back
        call := ih.readCall back }

/-- A descent from the start reads all tokens and gives the nodes that they write. -/
theorem nodes_within {room : Nat} (hroom : 7 * maxDepth + 2 ≤ room) (tokens : List Token) :
    (within room).nodes (fun _ => false) ⟨tokens, [], 0⟩ = some (nodesOf tokens, ⟨[], [], 0⟩) := by
  have hmirrors : Place.Mirrors ⟨tokens, [], 0⟩ {} := ⟨rfl, rfl, fun _ hmem => absurd hmem List.not_mem_nil⟩
  obtain ⟨nodes, ⟨ahead, opened, depth⟩, hnodes, hwritten, hpushed, hstop⟩ :=
    (agree_within room).nodes (fun _ => false) hmirrors (fun _ hclaimed => nomatch hclaimed) hroom
  obtain ⟨rfl, rfl, -⟩ := (comeBack_within room).nodes hnodes
  -- no tag is around that could be closed
  have hnone : ahead = [] := by
    cases ahead with
    | nil => rfl
    | cons token rest =>
        have hcloses := hstop token rfl
        unfold Place.closesEnclosing at hcloses
        split at hcloses
        · cases hcloses
        · cases hcloses
  subst hnone
  have hall : nodesOf tokens = nodes := by
    refine hwritten.trans ?_
    change (Stack.addAll {} nodes).toNodes = nodes
    rw [Stack.toNodes_addAll, hpushed, List.reverse_reverse]
  rw [hnodes, hall]

end Procedures

end Stencil.Markup
