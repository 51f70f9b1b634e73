import Stencil.Proofs.Writing.Contents
import Stencil.Proofs.Writing.Templates

/-!
The scanner finds the pieces of a written template again. A node is read in front of whatever is read behind
it: its tags are known, and plain text ends at the next tag or interpolation.

A template gives back the syntax tree that it was written from. The tree is in canonical form, and its tags
are nested no deeper than the reader follows them.
-/

namespace Stencil.Markup

open Text

/-- Pieces that can be read between two tags. -/
def ReadInside (ps : List Piece) : Prop := ∀ rest, Readable true rest → Readable false (ps ++ rest)

namespace Readable

variable {behindText : Bool} {rest : List Piece}

theorem closing (tag : Tag) (h : Readable false rest) : Readable behindText (closingPiece tag :: rest) :=
  .mark (Piece.isRead_closing tag) rfl h

theorem opening {selfClosing : Bool} {tag : Tag} {attributes : List Attribute}
    (hattributes : ∀ a ∈ attributes, a.isWritable = true) (h : Readable false rest) :
    Readable behindText (openingPiece selfClosing tag attributes :: rest) :=
  .mark (Piece.isRead_opening hattributes selfClosing tag) rfl h

theorem wrap {construct : Construct} {inner : List Piece} (hcanonical : construct.isCanonical = true)
    (hinner : ReadInside inner) (h : Readable false rest) :
    Readable behindText (construct.wrap inner ++ rest) := by
  rw [Construct.wrap, List.cons_append, List.append_assoc]
  exact opening (Construct.isWritable hcanonical) (hinner _ (closing _ h))

theorem arms {tag : Tag} {bodies : List (String × List Piece)}
    (hbodies : ∀ body ∈ bodies, isQuotable body.1 = true ∧ ReadInside body.2) (h : Readable true rest) :
    Readable true (armPieces tag bodies ++ rest) := by
  induction bodies generalizing tag with
  | nil => exact h
  | cons body others ih =>
      obtain ⟨⟨hcondition, hbody⟩, hothers⟩ := List.forall_mem_cons.1 hbodies
      rw [armPieces, List.cons_append, List.append_assoc]
      have hattributes : ∀ a ∈ [Attribute.mk "condition" body.1], a.isWritable = true :=
        List.forall_mem_singleton.2 (isWritable_mk (by decide) hcondition)
      exact opening hattributes (hbody _ (ih hothers))

theorem filling {parameters : List Parameter} {defaultSlot : List Piece}
    {slots : List (String × List Piece)} (hparameters : parameters.all Parameter.isCanonical = true)
    (hdefault : ReadInside defaultSlot)
    (hslots : ∀ slot ∈ slots, isFilledName slot.1 = true ∧ ReadInside slot.2)
    (h : Readable true rest) :
    Readable false (fillingPieces parameters defaultSlot slots ++ rest) := by
  have hnamed : Readable true
      (slots.flatMap (fun slot => (Construct.slotPlace slot.1).wrap slot.2) ++ rest) := by
    induction slots with
    | nil => exact h
    | cons slot others ih =>
        obtain ⟨⟨hname, hbody⟩, hothers⟩ := List.forall_mem_cons.1 hslots
        rw [List.flatMap_cons, List.append_assoc]
        exact wrap hname hbody (ih hothers).anywhere
  rw [fillingPieces, List.append_assoc, List.append_assoc]
  induction parameters with
  | nil => exact hdefault _ hnamed
  | cons parameter others ih =>
      rw [List.all_cons, Bool.and_eq_true] at hparameters
      exact opening (Parameter.isWritable hparameters.1) (ih hparameters.2)

end Readable

/-- A node whose pieces can be read in front of what is read behind them. -/
def Node.IsReadable (node : Node) : Prop :=
  ∀ behindText rest, (behindText && node.isText) = false → Readable node.isText rest →
    Readable behindText (node.pieces ++ rest)

theorem readInside_piecesOf {nodes : List Node} (hnodes : ∀ node ∈ nodes, node.IsReadable)
    (h : Separate nodes) : ReadInside (piecesOf nodes) := by
  intro rest hrest
  have hafter (behindText : Bool) (hhead : ∀ node ∈ nodes.head?, (behindText && node.isText) = false) :
      Readable behindText (piecesOf nodes ++ rest) := by
    induction nodes generalizing behindText with
    | nil => exact hrest.anywhere
    | cons node others ih =>
        obtain ⟨hnode, hothers⟩ := List.forall_mem_cons.1 hnodes
        obtain ⟨hnext, hseparate⟩ := List.isChain_cons.1 h
        rw [piecesOf, List.append_assoc]
        exact hnode _ _ (hhead node rfl) (ih hothers hseparate _ hnext)
  exact hafter false fun _ _ => rfl

theorem isReadable_of_isCanonical {node : Node} (hcanonical : node.isCanonical = true)
    (hchildren : ∀ children ∈ node.childLists, Canonical children) : node.IsReadable := by
  induction node using Node.induction with | step node ih => ?_
  have hlists : ∀ children ∈ node.childLists, ReadInside (piecesOf children) := by
    intro children hmem
    have hlist := hchildren children hmem
    refine readInside_piecesOf (fun child hchild => ?_) hlist.1
    obtain ⟨hown, hbelow⟩ := hlist.of_mem hchild
    exact ih children hmem child hchild hown hbelow
  have hbodies {bodies : List (String × List Node)} {named : String → Bool}
      (hnames : ∀ body ∈ bodies, named body.1 = true)
      (hmem : ∀ body ∈ bodies, body.2 ∈ node.childLists) :
      ∀ body ∈ piecesOfBodies bodies, named body.1 = true ∧ ReadInside body.2 := by
    rw [piecesOfBodies_eq, List.forall_mem_map]
    exact fun body hbody => ⟨hnames body hbody, hlists _ (hmem body hbody)⟩
  intro behindText rest hbehind hrest
  cases node
  case text source =>
    simp only [Node.isCanonical, Bool.and_eq_true, List.all_eq_true, Bool.not_eq_true',
      List.isEmpty_eq_false_iff] at hcanonical
    exact .cons hcanonical hbehind hrest
  case interpolation expression =>
    simp only [Node.isCanonical, Bool.and_eq_true, Bool.not_eq_true'] at hcanonical
    refine .mark (Piece.isRead_interpolation fun hinfix => ?_) rfl hrest
    rw [(occurs_iff (List.cons_ne_nil _ _)).2 hinfix] at hcanonical
    cases hcanonical.2
  case conditional branches otherwise =>
    simp only [Node.isCanonical, Bool.and_eq_true, List.all_eq_true] at hcanonical
    have harms := hbodies hcanonical.2 fun body hmem =>
      List.mem_append_left _ (List.mem_map_of_mem hmem)
    cases otherwise with
    | none =>
        rw [Node.pieces, List.append_assoc]
        exact (Readable.arms harms (.closing _ hrest)).anywhere
    | some otherwise =>
        have helse := hlists otherwise (List.mem_append_right _ (List.mem_singleton_self _))
        rw [Node.pieces, List.append_assoc, List.append_assoc, elsePieces, List.cons_append]
        refine (Readable.arms harms (.opening ?_ (helse _ (.closing _ hrest)))).anywhere
        exact fun a hmem => absurd hmem List.not_mem_nil
  case component head defaultSlot slots =>
    simp only [Node.isCanonical, Bool.and_eq_true] at hcanonical
    obtain ⟨⟨hhead, -⟩, hnames⟩ := hcanonical
    have hparameters : head.parameters.all Parameter.isCanonical = true := (Bool.and_eq_true_iff.1 hhead).2
    rw [Node.pieces, List.cons_append, List.append_assoc]
    refine .opening (ComponentHead.isWritable hhead) (.filling hparameters ?_ ?_ (.closing _ hrest))
    · exact hlists defaultSlot (List.mem_cons_self ..)
    · refine hbodies (areSlotNames_filled hnames) fun body hmem => ?_
      exact List.mem_cons_of_mem _ (List.mem_map_of_mem hmem)
  case bodyPlace => exact .opening (fun a hmem => absurd hmem List.not_mem_nil) hrest
  case call name parameters =>
    simp only [Node.isCanonical, Bool.and_eq_true, List.all_eq_true] at hcanonical
    exact .opening (isWritable_call hcanonical.1 hcanonical.2) hrest
  -- what stands between the tags of a construct
  case container | loop | layout | sectionContent | sectionPlace | slotPlace | fragment =>
    exact hrest.wrap hcanonical (hlists _ (List.mem_singleton_self _))

/-- The scanner finds the pieces of a written template again. -/
theorem scan_write {nodes : List Node} (h : Canonical nodes) :
    scan (write nodes) = locate 0 1 (piecesOf nodes) := by
  have hreadable : ReadInside (piecesOf nodes) := by
    refine readInside_piecesOf (fun node hmem => ?_) h.1
    obtain ⟨hcanonical, hchildren⟩ := h.of_mem hmem
    exact isReadable_of_isCanonical hcanonical hchildren
  have hpieces := hreadable [] (.nil true)
  rw [List.append_nil] at hpieces
  rw [scan, write, String.toList_ofList, hpieces.mergePieces_pieces]

/-- What a node is written as, read where its tags still count, adds the node to the construct around it. A
slot inside a component would be content of the component. -/
def Node.IsReadBack (node : Node) : Prop :=
  ∀ stack : Stack, stack.depth + node.height ≤ maxDepth →
    (node.isSlotPlace = true → stack.inComponent = false) → stack.readAll node.pieces = stack.add node

theorem adds_piecesOf {nodes : List Node} {depth : Nat} {inComponent : Bool}
    (hnodes : ∀ node ∈ nodes, node.IsReadBack) (hseparate : Separate nodes)
    (hdepth : depth + heightOf nodes ≤ maxDepth)
    (hslots : inComponent = true → ∀ node ∈ nodes, node.isSlotPlace = false) :
    Adds depth inComponent (piecesOf nodes) nodes := by
  refine ⟨hseparate, fun stack hstack hcomponent => ?_⟩
  clear hseparate
  induction nodes generalizing stack with
  | nil => rfl
  | cons node rest ih =>
      obtain ⟨hnode, hrest⟩ := List.forall_mem_cons.1 hnodes
      have hheight : node.height ≤ heightOf (node :: rest) := height_le_of_mem (List.mem_cons_self ..)
      have hheights : heightOf rest ≤ heightOf (node :: rest) := Nat.le_max_right ..
      have hread : stack.readAll node.pieces = stack.add node := by
        refine hnode stack (by omega) fun hslot => ?_
        rw [hcomponent, ← Bool.not_eq_true]
        intro hinside
        cases hslot.symm.trans (hslots hinside node (List.mem_cons_self ..))
      rw [piecesOf, Stack.readAll_append, hread]
      refine ih hrest (by omega) (fun h other hmem => hslots h other (List.mem_cons_of_mem _ hmem)) _ ?_ ?_
      · rw [Stack.depth_add]
        exact hstack
      · rw [Stack.inComponent_add]
        exact hcomponent

theorem isReadBack_of_isCanonical {node : Node} (hcanonical : node.isCanonical = true)
    (hchildren : ∀ children ∈ node.childLists, Canonical children) : node.IsReadBack := by
  induction node using Node.induction with | step node ih => ?_
  intro stack hfits hslot
  have hlists {inComponent : Bool} : ∀ children ∈ node.childLists,
      (inComponent = true → ∀ child ∈ children, child.isSlotPlace = false) →
      Adds (stack.depth + 1) inComponent (piecesOf children) children := by
    intro children hmem hslots
    have hlist := hchildren children hmem
    have hheight := heightOf_lt_height hmem
    refine adds_piecesOf (fun child hchild => ?_) hlist.1 (by omega) hslots
    obtain ⟨hown, hbelow⟩ := hlist.of_mem hchild
    exact ih children hmem child hchild hown hbelow
  have hplain : ∀ children ∈ node.childLists,
      Adds (stack.depth + 1) false (piecesOf children) children :=
    fun children hmem => hlists children hmem fun h => absurd h Bool.false_ne_true
  have hbodies {bodies : List (String × List Node)} (hmem : ∀ body ∈ bodies, body.2 ∈ node.childLists) :
      ∀ body ∈ bodies, Adds (stack.depth + 1) false (piecesOf body.2) body.2 :=
    fun body hbody => hplain _ (hmem body hbody)
  have hroom {height : Nat} (hheight : node.height = height + 1) : stack.depth < maxDepth := by omega
  cases node
  case text source =>
    change stack.add (.text (String.ofList source.toList)) = _
    rw [String.ofList_toList]
  case interpolation expression =>
    simp only [Node.isCanonical, Bool.and_eq_true, beq_iff_eq] at hcanonical
    change stack.read ⟨(interpolationPiece expression).kind, 0, 0⟩ = _
    rw [Piece.kind_interpolation hcanonical.1]
    rfl
  case conditional branches otherwise =>
    simp only [Node.isCanonical, Bool.and_eq_true, Bool.not_eq_true',
      List.isEmpty_eq_false_iff] at hcanonical
    refine Stack.readAll_branches hcanonical.1 ?_ ?_ ?_
    · cases otherwise <;> exact hroom rfl
    · exact hbodies fun body hmem => List.mem_append_left _ (List.mem_map_of_mem hmem)
    · exact fun body hmem => hplain body (List.mem_append_right _ (Option.mem_toList.2 hmem))
  case component head defaultSlot slots =>
    simp only [Node.isCanonical, Bool.and_eq_true, List.all_eq_true, Bool.not_eq_true'] at hcanonical
    obtain ⟨⟨hhead, hdirect⟩, hnames⟩ := hcanonical
    refine Stack.readAll_component hhead hnames (hroom rfl) ?_ ?_
    · exact hlists defaultSlot (List.mem_cons_self ..) fun _ => hdirect
    · exact hbodies fun body hmem => List.mem_cons_of_mem _ (List.mem_map_of_mem hmem)
  case bodyPlace =>
    have hframe : frameOf? .renderBody [] = some (.body .bodyPlace []) := rfl
    exact Stack.openTag_selfClosing hframe (by decide) (by decide) (by decide) (hroom rfl) _
  case call name parameters =>
    simp only [Node.isCanonical, Bool.and_eq_true, List.all_eq_true] at hcanonical
    have hframe := frameOf?_call hcanonical.1 hcanonical.2
    exact Stack.openTag_selfClosing hframe (by decide) (by decide) (by decide) (hroom rfl) _
  -- what stands between the tags of a construct
  case container tag attributes children =>
    refine Stack.readAll_wrap hcanonical rfl (hroom rfl) ?_ (hplain _ (List.mem_singleton_self _))
    rintro rfl
    cases hcanonical
  case loop | layout | sectionContent | sectionPlace | fragment =>
    exact Stack.readAll_wrap hcanonical rfl (hroom rfl) (by rintro ⟨⟩)
      (hplain _ (List.mem_singleton_self _))
  case slotPlace name default =>
    exact Stack.readAll_wrap hcanonical rfl (hroom rfl) (fun _ => hslot rfl)
      (hplain _ (List.mem_singleton_self _))

/-- Reading what was written gives it back. The limit counts the tags around one another, the innermost one
included. -/
theorem ofSource_write {nodes : List Node} (h : Canonical nodes) (hdepth : heightOf nodes ≤ maxDepth) :
    Tree.ofSource (write nodes) = Tree.ofNodes nodes := by
  have hadds : Adds 0 false (piecesOf nodes) nodes := by
    refine adds_piecesOf (fun node hmem => ?_) h.1 (by omega) fun hinside => nomatch hinside
    obtain ⟨hcanonical, hchildren⟩ := h.of_mem hmem
    exact isReadBack_of_isCanonical hcanonical hchildren
  have hread : nodesOf (scan (write nodes)) = nodes := by
    rw [nodesOf, scan_write h, Stack.foldl_read_locate, hadds.readAll {} (Nat.le_refl 0) rfl,
      Stack.toNodes_addAll, pushAll_of_separate h.1, List.reverse_reverse]
  rw [Tree.ofSource, Tree.ofTokens, hread]

/-- A page with a node of every kind. -/
def everyKind : List Node := [
  .text "Hello ",
  .interpolation "User.Name | upper",
  .container .block [⟨"class", "wide"⟩] [.text "!"],
  .conditional [("Ready", [.text "yes"]), ("Count > 1", [])] (some [.bodyPlace]),
  .loop "item" "Items" [.interpolation "item"],
  .component ⟨.container .nav, "main", some "menu", none, [⟨"Size", "2", some "1"⟩]⟩ [.text "links"]
    [("header", [.slotPlace "title" []])],
  .layout "base" [.sectionContent "top" [.text "Top"]],
  .sectionPlace "aside" true [],
  .fragment "row" [.text "row"],
  .call "row" [⟨"number", "1", none⟩]]

theorem ofSource_write_everyKind : Canonical everyKind ∧ heightOf everyKind ≤ maxDepth ∧
    Tree.ofSource (write everyKind) = Tree.ofNodes everyKind :=
  ⟨by decide, by decide, ofSource_write (by decide) (by decide)⟩

example : write [.text "Hello ", .conditional [("Known", [.interpolation "Name"])] (some [.bodyPlace])] =
    "Hello <If condition=\"Known\">{{ Name }}<Else><RenderBody/></If>" := by
  cbv

end Stencil.Markup
