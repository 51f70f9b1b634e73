import Stencil.Markup.Stack
import Stencil.Proofs.Markup.Nodes
import Stencil.Proofs.Writing.Pieces

/-!
How a syntax tree is written as a template. Every construct stands between its opening and its closing tag,
and what has no contents closes itself. A tree in canonical form holds nothing that the syntax cannot say, and
the scanner finds the pieces of its template again.
-/

namespace Stencil.Markup

open Text

/-- The attributes that a construct is written with. -/
def Construct.attributes : Construct → List Attribute
  | .container _ attributes => attributes
  | .loop item collection => [⟨"var", item⟩, ⟨"in", collection⟩]
  | .slotPlace name | .layout name | .sectionContent name | .fragment name => [⟨"name", name⟩]
  | .sectionPlace name required =>
      ⟨"name", name⟩ :: if required then [⟨"required", "true"⟩] else []
  | .bodyPlace | .strayParameter => []

/-- A construct around what stands in it. -/
def Construct.wrap (construct : Construct) (inner : List Piece) : List Piece :=
  openingPiece false construct.tag construct.attributes :: (inner ++ [closingPiece construct.tag])

/-- The attributes that a component is written with, apart from its parameters. -/
def ComponentHead.attributes (head : ComponentHead) : List Attribute :=
  ⟨"component", head.component⟩ ::
    ((head.name.map (Attribute.mk "name")).toList ++
      (head.oldName.map (Attribute.mk "oldname")).toList)

def Parameter.attributes (parameter : Parameter) : List Attribute :=
  ⟨"name", parameter.name⟩ :: ⟨"value", parameter.value⟩ ::
    (parameter.default.map (Attribute.mk "default")).toList

def Parameter.piece (parameter : Parameter) : Piece := openingPiece true .param parameter.attributes

/-- The attributes of a call: the name of the fragment, and what is passed to it. -/
def callAttributes (name : String) (parameters : List Parameter) : List Attribute :=
  ⟨"name", name⟩ :: parameters.map fun parameter => ⟨parameter.name, parameter.value⟩

/-- The arms of a conditional, of which the first one opens with a given tag. -/
def armPieces (tag : Tag) : List (String × List Piece) → List Piece
  | [] => []
  | (condition, body) :: rest =>
      openingPiece false tag [⟨"condition", condition⟩] :: (body ++ armPieces .elseIf rest)

/-- The arm of a conditional for no condition. -/
def elsePieces (body : List Piece) : List Piece := openingPiece false .elseTag [] :: body

/-- The contents of a component: its parameters, its default slot, and its named slots. -/
def fillingPieces (parameters : List Parameter) (defaultSlot : List Piece)
    (slots : List (String × List Piece)) : List Piece :=
  parameters.map Parameter.piece ++
    (defaultSlot ++ slots.flatMap fun slot => (Construct.slotPlace slot.1).wrap slot.2)

mutual

/-- The pieces of the template that a node is written as. -/
def Node.pieces : Node → List Piece
  | .text source => [.text source.toList]
  | .interpolation expression => [interpolationPiece expression]
  | .container tag attributes children => (Construct.container tag attributes).wrap (piecesOf children)
  | .conditional branches none => armPieces .ifTag (piecesOfBodies branches) ++ [closingPiece .ifTag]
  | .conditional branches (some otherwise) =>
      armPieces .ifTag (piecesOfBodies branches) ++
        (elsePieces (piecesOf otherwise) ++ [closingPiece .ifTag])
  | .loop item collection children => (Construct.loop item collection).wrap (piecesOf children)
  | .component head defaultSlot slots =>
      openingPiece false head.kind.tag head.attributes ::
        (fillingPieces head.parameters (piecesOf defaultSlot) (piecesOfBodies slots) ++
          [closingPiece head.kind.tag])
  | .layout name children => (Construct.layout name).wrap (piecesOf children)
  | .sectionContent name children => (Construct.sectionContent name).wrap (piecesOf children)
  | .sectionPlace name required default =>
      (Construct.sectionPlace name required).wrap (piecesOf default)
  | .bodyPlace => [openingPiece true .renderBody []]
  | .slotPlace name default => (Construct.slotPlace name).wrap (piecesOf default)
  | .fragment name body => (Construct.fragment name).wrap (piecesOf body)
  | .call name parameters => [openingPiece true .render (callAttributes name parameters)]

/-- The pieces of nodes one after another. -/
def piecesOf : List Node → List Piece
  | [] => []
  | node :: rest => node.pieces ++ piecesOf rest

/-- The pieces of named bodies, each on its own. -/
def piecesOfBodies : List (String × List Node) → List (String × List Piece)
  | [] => []
  | (name, body) :: rest => (name, piecesOf body) :: piecesOfBodies rest

end

/-- The template that nodes are written as. -/
def write (nodes : List Node) : String := String.ofList ((piecesOf nodes).flatMap Piece.source)

mutual

/-- How many tags are nested in one another at a node and below it. -/
def Node.height : Node → Nat
  | .text _ | .interpolation _ => 0
  | .bodyPlace | .call _ _ => 1
  | .container _ _ children => heightOf children + 1
  | .conditional branches none => heightOfBodies branches + 1
  | .conditional branches (some otherwise) => max (heightOfBodies branches) (heightOf otherwise) + 1
  | .loop _ _ children => heightOf children + 1
  | .component _ defaultSlot slots => max (heightOf defaultSlot) (heightOfBodies slots) + 1
  | .layout _ children => heightOf children + 1
  | .sectionContent _ children => heightOf children + 1
  | .sectionPlace _ _ default => heightOf default + 1
  | .slotPlace _ default => heightOf default + 1
  | .fragment _ body => heightOf body + 1

/-- How many tags are nested in one another among nodes and below them. -/
def heightOf : List Node → Nat
  | [] => 0
  | node :: rest => max node.height (heightOf rest)

/-- How many tags are nested in one another in named bodies. -/
def heightOfBodies : List (String × List Node) → Nat
  | [] => 0
  | (_, body) :: rest => max (heightOf body) (heightOfBodies rest)

end

/-- Whether a name can be written, and has no blanks around it that reading would take away. -/
def isName (name : String) : Bool := isQuotable name && trimmed name == name

/-- Whether a name can be written where it may not be missing. -/
def isFilledName (name : String) : Bool := isName name && name != ""

def Construct.isCanonical : Construct → Bool
  | .container tag attributes =>
      tag.isContainer && attributes.all Attribute.isWritable &&
        (attribute? attributes "component").isNone
  | .loop item collection => isName item && isName collection && !item.toList.contains '|'
  | .slotPlace name => isFilledName name
  | .layout name | .sectionContent name | .sectionPlace name _ | .fragment name => isName name
  | .bodyPlace => true
  | .strayParameter => false

def ComponentKind.isCanonical : ComponentKind → Bool
  | .direct => true
  | .container tag => tag.isContainer

def Parameter.isCanonical (parameter : Parameter) : Bool :=
  isFilledName parameter.name && isQuotable parameter.value && parameter.default.all isQuotable

/-- Whether a parameter can be passed as an attribute of a call. An attribute called `name`, whatever the case
of its letters, names the fragment. -/
def Parameter.isPassable (parameter : Parameter) : Bool :=
  (Attribute.mk parameter.name parameter.value).isWritable && parameter.default.isNone &&
    !sameName parameter.name "name"

def ComponentHead.isCanonical (head : ComponentHead) : Bool :=
  head.kind.isCanonical && isName head.component && head.name.all isFilledName &&
    head.oldName.all isFilledName && head.parameters.all Parameter.isCanonical

/-- Whether names are those of different slots, none of them the default slot. Names that differ at most in
the case of their letters are those of one slot. -/
def areSlotNames : List String → Bool
  | [] => true
  | name :: rest =>
      isFilledName name && !sameName name defaultSlotName && rest.all (!sameName name ·) &&
        areSlotNames rest

def Node.isText : Node → Bool
  | .text _ => true
  | _ => false

def Node.isSlotPlace : Node → Bool
  | .slotPlace _ _ => true
  | _ => false

/-- Whether a node says nothing by itself that the syntax cannot say. A container with a component attribute
would be a component, and a slot directly in the default slot of a component would be a named slot. -/
def Node.isCanonical : Node → Bool
  | .text source => !source.toList.isEmpty && source.toList.all isPlain
  | .interpolation expression => trimmed expression == expression && !occurs ['}', '}'] expression.toList
  | .container tag attributes _ => (Construct.container tag attributes).isCanonical
  | .conditional branches _ => !branches.isEmpty && branches.all fun branch => isQuotable branch.1
  | .loop item collection _ => (Construct.loop item collection).isCanonical
  | .component head defaultSlot slots =>
      head.isCanonical && defaultSlot.all (!·.isSlotPlace) && areSlotNames (slots.map Prod.fst)
  | .layout name _ => (Construct.layout name).isCanonical
  | .sectionContent name _ => (Construct.sectionContent name).isCanonical
  | .sectionPlace name required _ => (Construct.sectionPlace name required).isCanonical
  | .bodyPlace => true
  | .slotPlace name _ => (Construct.slotPlace name).isCanonical
  | .fragment name _ => (Construct.fragment name).isCanonical
  | .call name parameters => isName name && parameters.all Parameter.isPassable

/-- No two texts are neighbours. -/
def Separate (nodes : List Node) : Prop :=
  nodes.IsChain fun node next => (node.isText && next.isText) = false

/-- Nodes in canonical form: each of them can be written, and no two texts are neighbours. -/
def Canonical (nodes : List Node) : Prop :=
  Separate nodes ∧ ∀ node ∈ preorder nodes,
    node.isCanonical = true ∧ ∀ children ∈ node.childLists, Separate children

instance (nodes : List Node) : Decidable (Separate nodes) :=
  inferInstanceAs (Decidable (List.IsChain _ nodes))

instance (nodes : List Node) : Decidable (Canonical nodes) :=
  inferInstanceAs (Decidable (_ ∧ _))

theorem piecesOfBodies_eq (bodies : List (String × List Node)) :
    piecesOfBodies bodies = bodies.map fun body => (body.1, piecesOf body.2) := by
  induction bodies with
  | nil => rfl
  | cons body rest ih => rw [piecesOfBodies, ih, List.map_cons]

theorem height_le_of_mem {node : Node} {nodes : List Node} (hmem : node ∈ nodes) :
    node.height ≤ heightOf nodes := by
  induction nodes with
  | nil => exact absurd hmem List.not_mem_nil
  | cons first rest ih =>
      rw [heightOf]
      rcases List.mem_cons.1 hmem with rfl | hmem
      · exact Nat.le_max_left ..
      · exact Nat.le_trans (ih hmem) (Nat.le_max_right ..)

theorem heightOf_le_of_mem {body : String × List Node} {bodies : List (String × List Node)}
    (hmem : body ∈ bodies) : heightOf body.2 ≤ heightOfBodies bodies := by
  induction bodies with
  | nil => exact absurd hmem List.not_mem_nil
  | cons first rest ih =>
      rw [heightOfBodies]
      rcases List.mem_cons.1 hmem with rfl | hmem
      · exact Nat.le_max_left ..
      · exact Nat.le_trans (ih hmem) (Nat.le_max_right ..)

theorem heightOf_lt_height {node : Node} {children : List Node} (hmem : children ∈ node.childLists) :
    heightOf children < node.height := by
  have hbodies {bodies : List (String × List Node)} (h : children ∈ bodies.map Prod.snd) :
      heightOf children ≤ heightOfBodies bodies := by
    obtain ⟨body, hbody, rfl⟩ := List.mem_map.1 h
    exact heightOf_le_of_mem hbody
  cases node
  case text | interpolation | bodyPlace | call => cases hmem
  case conditional branches otherwise =>
    rcases List.mem_append.1 hmem with hbranch | hother
    · cases otherwise with
      | none => exact Nat.lt_succ_of_le (hbodies hbranch)
      | some body => exact Nat.lt_succ_of_le (Nat.le_trans (hbodies hbranch) (Nat.le_max_left ..))
    · cases otherwise with
      | none => cases hother
      | some body =>
          cases List.mem_singleton.1 hother
          exact Nat.lt_succ_of_le (Nat.le_max_right ..)
  case component head defaultSlot slots =>
    rcases List.mem_cons.1 hmem with rfl | hslot
    · exact Nat.lt_succ_of_le (Nat.le_max_left ..)
    · exact Nat.lt_succ_of_le (Nat.le_trans (hbodies hslot) (Nat.le_max_right ..))
  case container | loop | layout | sectionContent | sectionPlace | slotPlace | fragment =>
    cases List.mem_singleton.1 hmem
    exact Nat.lt_succ_self _

theorem isQuotable_of_isName {name : String} (h : isName name = true) : isQuotable name = true :=
  (Bool.and_eq_true_iff.1 h).1

theorem isName_of_isFilledName {name : String} (h : isFilledName name = true) : isName name = true :=
  (Bool.and_eq_true_iff.1 h).1

theorem isWritable_mk {name value : String} (hname : isAttributeName name = true)
    (hvalue : isQuotable value = true) : (Attribute.mk name value).isWritable = true :=
  Bool.and_eq_true_iff.2 ⟨hname, hvalue⟩

theorem forall_mem_optional {P : Attribute → Prop} {key : String} {value : Option String} :
    (∀ a ∈ (value.map (Attribute.mk key)).toList, P a) ↔ ∀ text ∈ value, P ⟨key, text⟩ := by
  cases value <;> simp

theorem isWritable_optional {key : String} {value : Option String} (hkey : isAttributeName key = true)
    (hvalue : value.all isQuotable = true) :
    ∀ a ∈ (value.map (Attribute.mk key)).toList, a.isWritable = true :=
  forall_mem_optional.2 fun text hmem =>
    isWritable_mk hkey ((Option.all_eq_true ..).1 hvalue text hmem)

theorem Construct.isWritable {construct : Construct} (h : construct.isCanonical = true) :
    ∀ a ∈ construct.attributes, a.isWritable = true := by
  have named {name : String} (hname : isName name = true) : (Attribute.mk "name" name).isWritable = true :=
    isWritable_mk (by decide) (isQuotable_of_isName hname)
  cases construct with
  | container tag attributes =>
      simp only [isCanonical, Bool.and_eq_true, List.all_eq_true] at h
      exact h.1.2
  | loop item collection =>
      simp only [isCanonical, Bool.and_eq_true] at h
      refine List.forall_mem_cons.2 ⟨isWritable_mk (by decide) (isQuotable_of_isName h.1.1), ?_⟩
      exact List.forall_mem_singleton.2 (isWritable_mk (by decide) (isQuotable_of_isName h.1.2))
  | slotPlace name => exact List.forall_mem_singleton.2 (named (isName_of_isFilledName h))
  | layout name | sectionContent name | fragment name => exact List.forall_mem_singleton.2 (named h)
  | sectionPlace name required =>
      refine List.forall_mem_cons.2 ⟨named h, ?_⟩
      cases required with
      | true => exact List.forall_mem_singleton.2 (by decide)
      | false => exact fun a hmem => absurd hmem List.not_mem_nil
  | bodyPlace | strayParameter => exact fun a hmem => absurd hmem List.not_mem_nil

theorem ComponentHead.isWritable {head : ComponentHead} (h : head.isCanonical = true) :
    ∀ a ∈ head.attributes, a.isWritable = true := by
  have hquotable {name : Option String} (hname : name.all isFilledName = true) :
      name.all isQuotable = true := by
    rw [Option.all_eq_true] at hname ⊢
    exact fun x hx => isQuotable_of_isName (isName_of_isFilledName (hname x hx))
  simp only [isCanonical, Bool.and_eq_true] at h
  obtain ⟨⟨⟨⟨-, hcomponent⟩, hname⟩, holdName⟩, -⟩ := h
  refine List.forall_mem_cons.2 ⟨isWritable_mk (by decide) (isQuotable_of_isName hcomponent), ?_⟩
  exact List.forall_mem_append.2 ⟨isWritable_optional (by decide) (hquotable hname),
    isWritable_optional (by decide) (hquotable holdName)⟩

theorem Parameter.isWritable {parameter : Parameter} (h : parameter.isCanonical = true) :
    ∀ a ∈ parameter.attributes, a.isWritable = true := by
  simp only [isCanonical, Bool.and_eq_true] at h
  obtain ⟨⟨hname, hvalue⟩, hdefault⟩ := h
  have hquotable := isQuotable_of_isName (isName_of_isFilledName hname)
  refine List.forall_mem_cons.2 ⟨isWritable_mk (by decide) hquotable, ?_⟩
  refine List.forall_mem_cons.2 ⟨isWritable_mk (by decide) hvalue, ?_⟩
  exact isWritable_optional (by decide) hdefault

theorem isWritable_call {name : String} {parameters : List Parameter} (hname : isName name = true)
    (h : ∀ parameter ∈ parameters, parameter.isPassable = true) :
    ∀ a ∈ callAttributes name parameters, a.isWritable = true := by
  refine List.forall_mem_cons.2 ⟨isWritable_mk (by decide) (isQuotable_of_isName hname), ?_⟩
  refine List.forall_mem_map.2 fun parameter hmem => ?_
  have hpassable := h parameter hmem
  simp only [Parameter.isPassable, Bool.and_eq_true] at hpassable
  exact hpassable.1.1

theorem areSlotNames_filled {slots : List (String × List Node)}
    (h : areSlotNames (slots.map Prod.fst) = true) : ∀ slot ∈ slots, isFilledName slot.1 = true := by
  induction slots with
  | nil => exact fun slot hmem => absurd hmem List.not_mem_nil
  | cons slot others ih =>
      simp only [List.map_cons, areSlotNames, Bool.and_eq_true] at h
      exact List.forall_mem_cons.2 ⟨h.1.1.1, ih h.2⟩

/-- The nodes of a canonical list, one by one. -/
theorem Canonical.of_mem {node : Node} {nodes : List Node} (h : Canonical nodes) (hmem : node ∈ nodes) :
    node.isCanonical = true ∧ ∀ children ∈ node.childLists, Canonical children := by
  have hinside : ∀ inner ∈ preorder [node], inner ∈ preorder nodes :=
    fun inner hinner => mem_preorder.2 ⟨node, hmem, hinner⟩
  rw [preorder_singleton] at hinside
  obtain ⟨hnode, hbelow⟩ := List.forall_mem_cons.1 hinside
  refine ⟨(h.2 node hnode).1, fun children hchildren => ⟨(h.2 node hnode).2 children hchildren, ?_⟩⟩
  exact fun inner hinner => h.2 inner (hbelow inner (mem_inside.2 ⟨children, hchildren, hinner⟩))

end Stencil.Markup
