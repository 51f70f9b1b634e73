import Stencil.Markup.Tag
import Stencil.Markup.Attribute

/-!
The syntax tree of a template. Beside the tree stand its views: the child lists of a node, all nodes
in order, the index of the sections that can be addressed, and the components it refers to.
-/

namespace Stencil.Markup

/-- A parameter of a component or of a fragment call. Its value is an expression or a text, read
when it is rendered; the default replaces an empty value. -/
structure Parameter where
  name : String
  value : String
  default : Option String
deriving Repr, DecidableEq

/-- How a component is referred to: by its path, or by a container tag that stands before its
path. -/
inductive ComponentKind where
  | direct
  | container (tag : Tag)
deriving Repr, DecidableEq

/-- What a component reference says besides its contents. -/
structure ComponentHead where
  kind : ComponentKind
  /-- The path as written; it may hold interpolations. -/
  component : String
  name : Option String
  oldName : Option String
  parameters : List Parameter
deriving Repr, DecidableEq

/-- The path that is loaded, before interpolation. -/
def ComponentHead.path (head : ComponentHead) : String :=
  match head.kind with
  | .direct => head.component
  | .container tag => Text.lowercase tag.name ++ "/" ++ head.component

/-- A node of a syntax tree. -/
inductive Node where
  /-- Text written as it is. -/
  | text (source : String)
  | interpolation (expression : String)
  /-- A container that names no component. -/
  | container (tag : Tag) (attributes : List Attribute) (children : List Node)
  /-- The arms of a conditional, each with its condition, and what stands for none of them. -/
  | conditional (branches : List (String × List Node)) (otherwise : Option (List Node))
  | loop (item collection : String) (children : List Node)
  /-- A component with the contents of its default slot and of its named slots. -/
  | component (head : ComponentHead) (defaultSlot : List Node) (slots : List (String × List Node))
  /-- Children that fill a named layout. -/
  | layout (name : String) (children : List Node)
  /-- Content for a section of the layout around it. -/
  | sectionContent (name : String) (children : List Node)
  /-- The place of a section inside a layout. -/
  | sectionPlace (name : String) (required : Bool) (default : List Node)
  /-- The place of the body inside a layout. -/
  | bodyPlace
  /-- The place of a slot inside a component. -/
  | slotPlace (name : String) (default : List Node)
  /-- A named fragment, which renders nothing by itself. -/
  | fragment (name : String) (body : List Node)
  /-- A call of a fragment. -/
  | call (name : String) (parameters : List Parameter)

/-- The child lists of a node, bodies of arms and slots among them. -/
def Node.childLists : Node → List (List Node)
  | .text _ | .interpolation _ | .bodyPlace | .call _ _ => []
  | .container _ _ children | .loop _ _ children | .layout _ children
  | .sectionContent _ children => [children]
  | .conditional branches otherwise => branches.map Prod.snd ++ otherwise.toList
  | .component _ defaultSlot slots => defaultSlot :: slots.map Prod.snd
  | .sectionPlace _ _ default | .slotPlace _ default => [default]
  | .fragment _ body => [body]

mutual

/-- All nodes below a node in order, parents before their children. -/
def Node.inside : Node → List Node
  | .text _ | .interpolation _ | .bodyPlace | .call _ _ => []
  | .container _ _ children => preorder children
  | .conditional branches none => preorderOfBodies branches
  | .conditional branches (some otherwise) => preorderOfBodies branches ++ preorder otherwise
  | .loop _ _ children => preorder children
  | .component _ defaultSlot slots => preorder defaultSlot ++ preorderOfBodies slots
  | .layout _ children => preorder children
  | .sectionContent _ children => preorder children
  | .sectionPlace _ _ default => preorder default
  | .slotPlace _ default => preorder default
  | .fragment _ body => preorder body

/-- All nodes of a list and below it in order. -/
def preorder : List Node → List Node
  | [] => []
  | node :: rest => node :: (node.inside ++ preorder rest)

/-- All nodes of named bodies in order. -/
def preorderOfBodies : List (String × List Node) → List Node
  | [] => []
  | (_, body) :: rest => preorder body ++ preorderOfBodies rest

end

mutual

/-- The sections at or below a node with the paths that lead to them, given the path of the node
backwards. Only containers, layouts and loops are passed through. -/
def Node.sectionsAt (path : List Nat) : Node → List (String × List Nat)
  | .sectionContent name _ => [(Text.lowercase name, path.reverse)]
  | .container _ _ children => sectionsFrom path 0 children
  | .layout _ children => sectionsFrom path 0 children
  | .loop _ _ children => sectionsFrom path 0 children
  | _ => []

/-- The sections at or below the nodes of a list, given the path of the list backwards and the
position of its first node. -/
def sectionsFrom (path : List Nat) (position : Nat) : List Node → List (String × List Nat)
  | [] => []
  | node :: rest => node.sectionsAt (position :: path) ++ sectionsFrom path (position + 1) rest

end

/-- The first entry of each name. -/
def firstOfEach {α : Type} (entries : List (String × α)) : List (String × α) :=
  entries.foldr (fun entry rest => entry :: rest.filter (·.1 != entry.1)) []

/-- The node at a path of child positions, which leads through containers, layouts and loops. -/
def nodeAt? : List Node → List Nat → Option Node
  | _, [] => none
  | nodes, [last] => nodes[last]?
  | nodes, position :: rest =>
      match nodes[position]? with
      | some (.container _ _ children) => nodeAt? children rest
      | some (.layout _ children) => nodeAt? children rest
      | some (.loop _ _ children) => nodeAt? children rest
      | _ => none

/-- A parsed template: its nodes and the path of the first section of each name, in lower case. -/
structure Tree where
  children : List Node
  sections : List (String × List Nat)

/-- The tree of a list of nodes. -/
def Tree.ofNodes (children : List Node) : Tree :=
  ⟨children, firstOfEach (sectionsFrom [] 0 children)⟩

/-- The first section of a name that can be addressed, whatever the case of its letters. -/
def Tree.section? (tree : Tree) (name : String) : Option Node := do
  nodeAt? tree.children (← tree.sections.lookup (Text.lowercase name))

/-- The names of the sections that can be addressed, in lower case and in order. -/
def Tree.sectionNames (tree : Tree) : List String := (tree.sections.map Prod.fst).mergeSort

/-- The path of the component that a node refers to. -/
def Node.componentPath? : Node → Option String
  | .component head _ _ => some head.path
  | _ => none

/-- The paths of the components that a tree refers to, each once, in the order of the source. -/
def Tree.componentRefs (tree : Tree) : List String :=
  ((preorder tree.children).filterMap Node.componentPath?).eraseDups

end Stencil.Markup
