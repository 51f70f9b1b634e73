import Stencil.Proofs.Markup.Reading
import Stencil.Proofs.Writing.Templates

/-!
What the reader of tokens makes of a written construct. While its contents are read, its frame is on top of
the stack and everything below it stays; the closing tag then adds the finished node to the construct around
it.
-/

namespace Stencil.Markup

open Text

namespace Stack

/-- The stack after a piece. Where the piece stands in the source does not matter. -/
def readPiece (stack : Stack) (piece : Piece) : Stack := stack.read ⟨piece.kind, 0, 0⟩

/-- The stack after pieces, one by one. -/
def readAll (stack : Stack) (ps : List Piece) : Stack := ps.foldl readPiece stack

/-- The stack with nodes added to its innermost construct, one by one. -/
def addAll (stack : Stack) (nodes : List Node) : Stack := nodes.foldl (fun stack node => stack.add node) stack

/-- Whether the innermost construct is a component, in which slots are contents. -/
def inComponent (stack : Stack) : Bool :=
  match stack.frames with
  | .component _ :: _ => true
  | _ => false

variable {stack : Stack}

theorem foldl_read_locate (stack : Stack) (offset line : Nat) (ps : List Piece) :
    (locate offset line ps).foldl Stack.read stack = stack.readAll ps := by
  induction ps generalizing stack offset line with
  | nil => rfl
  | cons piece rest ih => exact ih ..

theorem readAll_cons (stack : Stack) (piece : Piece) (rest : List Piece) :
    stack.readAll (piece :: rest) = (stack.readPiece piece).readAll rest := rfl

theorem readAll_append (stack : Stack) (first second : List Piece) :
    stack.readAll (first ++ second) = (stack.readAll first).readAll second :=
  List.foldl_append

theorem depth_add (node : Node) (stack : Stack) : (stack.add node).depth = stack.depth := by
  rw [depth_eq, moulds_add, ← depth_eq]

theorem inComponent_add (node : Node) (stack : Stack) :
    (stack.add node).inComponent = stack.inComponent := by
  obtain ⟨_ | ⟨frame, frames⟩, nodes⟩ := stack
  · rfl
  · cases frame <;> rfl

theorem openTag_eq_openNested {tag : Tag} (hbranch : tag.isBranch = false) (hparam : tag ≠ .param)
    (hslot : tag = .slot → stack.inComponent = false) (selfClosing : Bool) (attributes : List Attribute)
    (source : String) :
    stack.openTag selfClosing tag attributes source =
      stack.openNested selfClosing tag attributes source := by
  fun_cases Stack.openTag selfClosing tag attributes source stack with
  | case1 | case2 => cases hbranch
  | case3 | case6 => exact absurd rfl hparam
  | case4 filling frames hframes | case5 filling frames hframes =>
      have hcomponent := hslot rfl
      rw [inComponent, hframes] at hcomponent
      cases hcomponent
  | case7 => rfl

theorem isBranch_of_frameOf? {tag : Tag} {attributes : List Attribute} {frame : Frame}
    (h : frameOf? tag attributes = some frame) : tag.isBranch = false := by
  have hmould := frameOf?_mould tag attributes
  rw [h] at hmould
  cases hbranch : tag.isBranch with
  | false => rfl
  | true =>
      rw [hbranch] at hmould
      cases hmould

/-- An opening tag puts the construct that it begins on the stack. -/
theorem openTag_of_frameOf? {tag : Tag} {attributes : List Attribute} {frame : Frame}
    (hframe : frameOf? tag attributes = some frame) (hparam : tag ≠ .param)
    (hslot : tag = .slot → stack.inComponent = false) (hdepth : stack.depth < maxDepth)
    (source : String) :
    stack.openTag false tag attributes source = ⟨frame :: stack.frames, stack.nodes⟩ := by
  rw [openTag_eq_openNested (isBranch_of_frameOf? hframe) hparam hslot, openNested,
    if_neg (Nat.not_le.2 hdepth), hframe]
  rfl

/-- A tag that closes itself adds the finished node. -/
theorem openTag_selfClosing {tag : Tag} {attributes : List Attribute} {frame : Frame}
    (hframe : frameOf? tag attributes = some frame) (hparam : tag ≠ .param) (hslot : tag ≠ .slot)
    (hlayout : tag ≠ .layout) (hdepth : stack.depth < maxDepth) (source : String) :
    stack.openTag true tag attributes source = stack.add? frame.node? := by
  rw [openTag_eq_openNested (isBranch_of_frameOf? hframe) hparam (fun h => absurd h hslot), openNested,
    if_neg (Nat.not_le.2 hdepth), hframe]
  dsimp only
  rw [beq_false_of_ne hlayout]
  rfl

/-- A closing tag finishes the innermost construct if it belongs to it. -/
theorem readAll_closing {frame : Frame} {frames : List Frame} {nodes : List Node} {tag : Tag}
    (h : frame.tag? = some tag) : (Stack.mk (frame :: frames) nodes).readAll [closingPiece tag] =
      (Stack.mk (frame :: frames) nodes).finish := by
  have hfound : (frame :: frames).findIdx? (·.tag? == some tag) = some 0 := by
    rw [List.findIdx?_cons, h, beq_self_eq_true, if_pos rfl]
  change Stack.close tag _ _ = _
  rw [close, hfound]
  rfl

end Stack

/-- Nodes added one by one to others, which are kept backwards. -/
def pushAll (nodes children : List Node) : List Node :=
  nodes.foldl (fun children node => addNode node children) children

theorem pushAll_of_separate {nodes : List Node} (h : Separate nodes) : pushAll nodes [] = nodes.reverse := by
  have hpush (children : List Node) (hlast : ∀ last ∈ children.head?, ∀ first ∈ nodes.head?,
      (last.isText && first.isText) = false) : pushAll nodes children = nodes.reverse ++ children := by
    induction nodes generalizing children with
    | nil => rfl
    | cons node rest ih =>
        obtain ⟨hnext, hrest⟩ := List.isChain_cons.1 h
        have hadd : addNode node children = node :: children := by
          fun_cases addNode node children with
          | case1 new old rest => cases hlast (.text old) rfl (.text new) rfl
          | case2 => rfl
        change pushAll rest (addNode node children) = _
        rw [hadd, ih hrest, List.reverse_cons, List.append_assoc]
        · rfl
        · rintro last ⟨⟩ first hfirst
          exact hnext first hfirst
  rw [hpush [] (by rintro last ⟨⟩), List.append_nil]

namespace Frame

/-- A frame with more children, one by one. -/
def addAll (frame : Frame) (nodes : List Node) : Frame := nodes.foldl (fun frame node => frame.add node) frame

theorem addAll_body (construct : Construct) (nodes children : List Node) :
    (Frame.body construct children).addAll nodes = .body construct (pushAll nodes children) :=
  List.foldl_hom (Frame.body construct) fun _ _ => rfl

theorem addAll_slotContent (name : String) (nodes children : List Node) :
    (Frame.slotContent name children).addAll nodes = .slotContent name (pushAll nodes children) :=
  List.foldl_hom (Frame.slotContent name) fun _ _ => rfl

theorem addAll_conditional (arms : Arms) (nodes : List Node) :
    (Frame.conditional arms).addAll nodes =
      .conditional { arms with children := pushAll nodes arms.children } :=
  List.foldl_hom (fun children => Frame.conditional { arms with children }) fun _ _ => rfl

theorem addAll_component (filling : Filling) (nodes : List Node) :
    (Frame.component filling).addAll nodes =
      .component { filling with defaultSlot := pushAll nodes filling.defaultSlot } :=
  List.foldl_hom (fun defaultSlot => Frame.component { filling with defaultSlot }) fun _ _ => rfl

end Frame

namespace Stack

theorem addAll_cons (frame : Frame) (frames : List Frame) (nodes added : List Node) :
    (Stack.mk (frame :: frames) nodes).addAll added = ⟨frame.addAll added :: frames, nodes⟩ :=
  List.foldl_hom (fun frame => Stack.mk (frame :: frames) nodes) fun _ _ => rfl

theorem toNodes_addAll (nodes : List Node) :
    (Stack.addAll {} nodes).toNodes = (pushAll nodes []).reverse :=
  congrArg toNodes (List.foldl_hom (Stack.mk []) fun _ _ => rfl)

end Stack

theorem attribute?_cons (key value : String) (rest : List Attribute) (name : String) :
    attribute? (⟨key, value⟩ :: rest) name =
      if sameName key name then some value else attribute? rest name := by
  unfold attribute?
  rw [List.find?_cons]
  dsimp only
  cases sameName key name <;> rfl

theorem trimmed_of_isName {name : String} (h : isName name = true) : trimmed name = name :=
  eq_of_beq (Bool.and_eq_true_iff.1 h).2

theorem nameOf_cons {name : String} (h : isName name = true) (rest : List Attribute) :
    nameOf (⟨"name", name⟩ :: rest) = name := by
  rw [nameOf, attribute?_cons, if_pos (by decide)]
  exact trimmed_of_isName h

theorem nonEmpty?_of_isFilledName {name : String} (h : isFilledName name = true) :
    nonEmpty? (some name) = some name := by
  obtain ⟨hname, hfilled⟩ := Bool.and_eq_true_iff.1 h
  have hnonempty : name.isEmpty = false := by
    rw [← Bool.not_eq_true, String.isEmpty_iff]
    exact bne_iff_ne.1 hfilled
  rw [nonEmpty?, Option.map_some, trimmed_of_isName hname, Option.filter_some, hnonempty]
  rfl

theorem slotNameOf_cons {name : String} (h : isFilledName name = true) (rest : List Attribute) :
    slotNameOf (⟨"name", name⟩ :: rest) = name := by
  rw [slotNameOf, attribute?_cons, if_pos (by decide), nonEmpty?_of_isFilledName h]
  rfl

theorem frameOf?_container {tag : Tag} (htag : tag.isContainer = true) (attributes : List Attribute) :
    frameOf? tag attributes = some (if (attribute? attributes "component").isSome then
      .component { kind := .container tag, attributes }
    else .body (.container tag attributes) []) := by
  cases tag with
  | element | data | nav | block => rfl
  | _ => cases htag

theorem frameOf?_loop {item collection : String} (hitem : isName item = true)
    (hcollection : isName collection = true) (hbar : '|' ∉ item.toList) :
    frameOf? .forEach [⟨"var", item⟩, ⟨"in", collection⟩] =
      some (.body (.loop item collection) []) := by
  have hspec : loopSpecOf? .forEach [⟨"var", item⟩, ⟨"in", collection⟩] =
      some (item ++ "|" ++ collection) := by
    rw [loopSpecOf?, attribute?_cons, if_pos (by decide), attribute?_cons, if_neg (by decide),
      attribute?_cons, if_pos (by decide)]
    rfl
  have hcut : cut? ['|'] (item ++ "|" ++ collection).toList = some (item.toList, collection.toList) := by
    refine (cut?_eq_some_iff (List.cons_ne_nil _ _)).2 ⟨?_, isFirst_of_notMem hbar _⟩
    rw [String.toList_append, String.toList_append, List.append_assoc]
    rfl
  have htrim {name : String} (h : isName name = true) : String.ofList (trim name.toList) = name :=
    trimmed_of_isName h
  rw [frameOf?, hspec, Option.getD_some, hcut, Option.getD_some]
  dsimp only
  rw [htrim hitem, htrim hcollection]

/-- The attributes of a construct say all that is read of it. -/
theorem frameOf?_construct {construct : Construct} (h : construct.isCanonical = true) :
    frameOf? construct.tag construct.attributes = some (.body construct []) := by
  cases construct with
  | container tag attributes =>
      simp only [Construct.isCanonical, Bool.and_eq_true] at h
      obtain ⟨⟨htag, -⟩, hnone⟩ := h
      rw [Construct.tag, Construct.attributes, frameOf?_container htag,
        Option.isNone_iff_eq_none.1 hnone]
      rfl
  | loop item collection =>
      simp only [Construct.isCanonical, Bool.and_eq_true, Bool.not_eq_true', List.contains_eq_mem,
        decide_eq_false_iff_not] at h
      exact frameOf?_loop h.1.1 h.1.2 h.2
  | slotPlace name => rw [Construct.tag, Construct.attributes, frameOf?, slotNameOf_cons h]
  | layout name | sectionContent name | fragment name =>
      rw [Construct.tag, Construct.attributes, frameOf?, nameOf_cons h]
  | sectionPlace name required =>
      rw [Construct.tag, Construct.attributes, frameOf?, nameOf_cons h, attribute?_cons,
        if_neg (by decide)]
      cases required with
      | true =>
          have hrequired : sameLetters (trim "true".toList) "true".toList = true := by decide
          rw [if_pos rfl, attribute?_cons, if_pos (by decide), Option.any_some, hrequired]
      | false => rfl
  | bodyPlace => rfl
  | strayParameter => cases h

/-- Pieces that add nodes to a construct, with no more than so many constructs around them. -/
structure Adds (depth : Nat) (inComponent : Bool) (ps : List Piece) (nodes : List Node) : Prop where
  separate : Separate nodes
  readAll : ∀ stack : Stack, stack.depth ≤ depth → stack.inComponent = inComponent →
    stack.readAll ps = stack.addAll nodes

/-- The contents of a construct are added to its frame. -/
theorem Adds.readAll_frame {depth : Nat} {inComponent : Bool} {ps : List Piece} {added : List Node}
    (h : Adds depth inComponent ps added) {frame : Frame} {frames : List Frame} {nodes : List Node}
    (hdepth : (Stack.mk (frame :: frames) nodes).depth ≤ depth)
    (hcomponent : (Stack.mk (frame :: frames) nodes).inComponent = inComponent) :
    (Stack.mk (frame :: frames) nodes).readAll ps = ⟨frame.addAll added :: frames, nodes⟩ := by
  rw [h.readAll _ hdepth hcomponent, Stack.addAll_cons]

variable {stack : Stack}

/-- A construct, read to its end, adds its node. -/
theorem Stack.readAll_wrap {construct : Construct} {inner : List Piece} {children : List Node} {node : Node}
    (hcanonical : construct.isCanonical = true) (hnode : construct.node? children = some node)
    (hdepth : stack.depth < maxDepth) (hslot : construct.tag = .slot → stack.inComponent = false)
    (hinner : Adds (stack.depth + 1) false inner children) :
    stack.readAll (construct.wrap inner) = stack.add node := by
  have hparam : construct.tag ≠ .param := by
    cases construct with
    | container tag attributes =>
        rintro rfl
        cases hcanonical
    | strayParameter => cases hcanonical
    | _ => exact fun h => nomatch h
  have hopen : stack.readPiece (openingPiece false construct.tag construct.attributes) =
      ⟨.body construct [] :: stack.frames, stack.nodes⟩ :=
    openTag_of_frameOf? (frameOf?_construct hcanonical) hparam hslot hdepth _
  rw [Construct.wrap, readAll_cons, hopen, readAll_append,
    hinner.readAll_frame (Nat.le_of_eq (depth_cons ..)) rfl, Frame.addAll_body,
    pushAll_of_separate hinner.separate, readAll_closing rfl]
  change Stack.add? (construct.node? children.reverse.reverse) stack = _
  rw [List.reverse_reverse, hnode]
  rfl

end Stencil.Markup
