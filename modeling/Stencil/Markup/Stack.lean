import Stencil.Markup.Token
import Stencil.Markup.Node

/-!
The tree of a token list. Tokens are read one by one onto a stack of unfinished constructs. A
closing tag finishes the constructs above the one it belongs to, and that one; a closing tag that
belongs to none is plain text. At the end of the tokens every construct is finished. So every token
list has a tree.
-/

namespace Stencil.Markup

open Text

/-- The name of the slot for content outside any named slot. -/
def defaultSlotName : String := "default"

/-- The deepest nesting of tags. Tags below it are plain text. -/
def maxDepth : Nat := 256

/-- A construct whose body holds any nodes up to its own closing tag. -/
inductive Construct where
  | container (tag : Tag) (attributes : List Attribute)
  | loop (item collection : String)
  | slotPlace (name : String)
  | layout (name : String)
  | sectionContent (name : String)
  | sectionPlace (name : String) (required : Bool)
  | bodyPlace
  | fragment (name : String)
  /-- A parameter outside a component, which is dropped with its body. -/
  | strayParameter

/-- The tag that opens and closes a construct. -/
def Construct.tag : Construct → Tag
  | .container tag _ => tag
  | .loop _ _ => .forEach
  | .slotPlace _ => .slot
  | .layout _ => .layout
  | .sectionContent _ => .sectionTag
  | .sectionPlace _ _ => .renderSection
  | .bodyPlace => .renderBody
  | .fragment _ => .define
  | .strayParameter => .param

/-- The node of a construct with its children. -/
def Construct.node? (children : List Node) : Construct → Option Node
  | .container tag attributes => some (.container tag attributes children)
  | .loop item collection => some (.loop item collection children)
  | .slotPlace name => some (.slotPlace name children)
  | .layout name => some (.layout name children)
  | .sectionContent name => some (.sectionContent name children)
  | .sectionPlace name required => some (.sectionPlace name required children)
  | .bodyPlace => some .bodyPlace
  | .fragment name => some (.fragment name children)
  | .strayParameter => none

/-- A conditional whose last arm is being read. Children are kept backwards. -/
structure Arms where
  done : List (String × List Node) := []
  otherwise : Option (List Node) := none
  inElse : Bool := false
  condition : String
  children : List Node := []

/-- A component whose contents are being read. The nodes of the default slot are kept backwards. -/
structure Filling where
  kind : ComponentKind
  attributes : List Attribute
  parameters : List Parameter := []
  defaultSlot : List Node := []
  slots : List (String × List Node) := []

/-- An unfinished construct. Children are kept backwards. -/
inductive Frame where
  | body (construct : Construct) (children : List Node)
  /-- A layout that closes itself and adopts the siblings after it. -/
  | adopting (layout : String) (children : List Node)
  | conditional (arms : Arms)
  | component (filling : Filling)
  /-- A named slot among the contents of a component. -/
  | slotContent (name : String) (children : List Node)
  /-- The body of a parameter of a component or a call, which is dropped. -/
  | parameterBody
  /-- A call with a body, of which only parameters count. -/
  | call (name : String) (parameters : List Parameter)

/-- The tag of a component reference. -/
def ComponentKind.tag : ComponentKind → Tag
  | .direct => .includeTag
  | .container tag => tag

/-- The tag whose closing finishes a frame. -/
def Frame.tag? : Frame → Option Tag
  | .body construct _ => some construct.tag
  | .adopting _ _ => none
  | .conditional _ => some .ifTag
  | .component filling => some filling.kind.tag
  | .slotContent _ _ => some .slot
  | .parameterBody => some .param
  | .call _ _ => some .render

/-- Whether a frame counts for the depth of nesting. -/
def Frame.isNested : Frame → Bool
  | .slotContent _ _ | .parameterBody => false
  | _ => true

/-- Whether a frame passes over a closing tag that belongs to no construct. -/
def Frame.ignores : Frame → Tag → Bool
  | .conditional _, .elseIf | .conditional _, .elseTag => true
  | .component _, .param => true
  | _, _ => false

/-- A node after others, which are kept backwards; text joins text. -/
def addNode : Node → List Node → List Node
  | .text new, .text old :: rest => .text (old ++ new) :: rest
  | node, children => node :: children

/-- A frame with one more child. -/
def Frame.add (node : Node) : Frame → Frame
  | .body construct children => .body construct (addNode node children)
  | .adopting layout children => .adopting layout (addNode node children)
  | .conditional arms => .conditional { arms with children := addNode node arms.children }
  | .component filling =>
      .component { filling with defaultSlot := addNode node filling.defaultSlot }
  | .slotContent name children => .slotContent name (addNode node children)
  | .parameterBody => .parameterBody
  | .call name parameters => .call name parameters

/-- The arms after the last one was read to its end. -/
def Arms.endArm (arms : Arms) : Arms :=
  let body := arms.children.reverse
  if arms.inElse then
    { arms with otherwise := some (arms.otherwise.getD [] ++ body), children := [] }
  else
    { arms with done := arms.done ++ [(arms.condition, body)], condition := "", children := [] }

/-- The finished conditional. -/
def Arms.node (arms : Arms) : Node :=
  let ended := arms.endArm
  .conditional ended.done ended.otherwise

/-- A trimmed text, unless it is empty. -/
def nonEmpty? (value : Option String) : Option String :=
  (value.map trimmed).filter (!·.isEmpty)

/-- The trimmed value of the name attribute, or nothing written. -/
def nameOf (attributes : List Attribute) : String :=
  trimmed ((attribute? attributes "name").getD "")

/-- The name of a slot; without one it is the default slot. -/
def slotNameOf (attributes : List Attribute) : String :=
  (nonEmpty? (attribute? attributes "name")).getD defaultSlotName

/-- The parameter that a parameter tag writes, if it has a name. -/
def parameterOf? (attributes : List Attribute) : Option Parameter := do
  let name ← nonEmpty? (attribute? attributes "name")
  some ⟨name, (attribute? attributes "value").getD "", attribute? attributes "default"⟩

/-- The attributes without a fixed meaning, as parameters. -/
def extraParameters (reserved : List String) (attributes : List Attribute) : List Parameter :=
  (attributes.filter fun a => !reserved.any (sameName a.name)).map fun a => ⟨a.name, a.value, none⟩

/-- The finished component. Its attributes count as parameters after those of its contents. -/
def Filling.node (filling : Filling) : Node :=
  .component
    { kind := filling.kind
      component := trimmed ((attribute? filling.attributes "component").getD "")
      name := nonEmpty? (attribute? filling.attributes "name")
      oldName := nonEmpty? (attribute? filling.attributes "oldname")
      parameters :=
        filling.parameters ++ extraParameters ["component", "name", "oldname"] filling.attributes }
    filling.defaultSlot.reverse filling.slots

/-- More content for the first slot of a name, or a new slot. -/
def appendSlot (name : String) (body : List Node) :
    List (String × List Node) → List (String × List Node)
  | [] => [(name, body)]
  | (existing, nodes) :: rest =>
      if sameName existing name then (existing, nodes ++ body) :: rest
      else (existing, nodes) :: appendSlot name body rest

/-- The component with the content of one slot. -/
def Filling.fill (filling : Filling) (name : String) (body : List Node) : Filling :=
  if sameName name defaultSlotName then
    { filling with
      defaultSlot := body.foldl (fun children node => addNode node children) filling.defaultSlot }
  else { filling with slots := appendSlot name body filling.slots }

/-- The node of a finished frame; slots and parameter bodies have none of their own. -/
def Frame.node? : Frame → Option Node
  | .body construct children => construct.node? children.reverse
  | .adopting layout children => some (.layout layout children.reverse)
  | .conditional arms => some arms.node
  | .component filling => some filling.node
  | .slotContent _ _ | .parameterBody => none
  | .call name parameters => some (.call name parameters)

/-- The unfinished constructs, innermost first, and the top-level nodes backwards. -/
structure Stack where
  frames : List Frame := []
  nodes : List Node := []

/-- The stack with a node added to its innermost construct. -/
def Stack.add (node : Node) : Stack → Stack
  | ⟨[], nodes⟩ => ⟨[], addNode node nodes⟩
  | ⟨frame :: frames, nodes⟩ => ⟨frame.add node :: frames, nodes⟩

/-- The stack with the content of a slot given to the component around it. -/
def Stack.fill (name : String) (body : List Node) : Stack → Stack
  | ⟨.component filling :: frames, nodes⟩ => ⟨.component (filling.fill name body) :: frames, nodes⟩
  | stack => stack

/-- The stack with a node added, if there is one. -/
def Stack.add? (node : Option Node) (stack : Stack) : Stack :=
  match node with
  | some node => stack.add node
  | none => stack

/-- The stack with its innermost construct finished. -/
def Stack.finish : Stack → Stack
  | ⟨[], nodes⟩ => ⟨[], nodes⟩
  | ⟨.slotContent name children :: frames, nodes⟩ =>
      (Stack.mk frames nodes).fill name children.reverse
  | ⟨frame :: frames, nodes⟩ => (Stack.mk frames nodes).add? frame.node?

/-- The stack with a number of constructs finished. -/
def Stack.finishMany : Nat → Stack → Stack
  | 0, stack => stack
  | count + 1, stack => stack.finish.finishMany count

/-- The stack after a closing tag. -/
def Stack.close (tag : Tag) (source : String) (stack : Stack) : Stack :=
  match stack.frames.findIdx? (·.tag? == some tag) with
  | some above => stack.finishMany (above + 1)
  | none =>
      if stack.frames.head?.any (·.ignores tag) then stack else stack.add (.text source)

/-- How many constructs that count are open. -/
def Stack.depth (stack : Stack) : Nat := stack.frames.countP Frame.isNested

/-- The stack with a construct on it, unless it closes itself. -/
def Stack.begin (selfClosing : Bool) (frame : Frame) (stack : Stack) : Stack :=
  if selfClosing then stack.add? frame.node? else { stack with frames := frame :: stack.frames }

/-- The construct that an opening tag begins, apart from components. -/
def frameOf? (tag : Tag) (attributes : List Attribute) : Option Frame :=
  let name := nameOf attributes
  match tag with
  | .element | .data | .nav | .block =>
      some (if (attribute? attributes "component").isSome then
        .component { kind := .container tag, attributes }
      else .body (.container tag attributes) [])
  | .includeTag => some (.component { kind := .direct, attributes })
  | .ifTag => some (.conditional { condition := (conditionOf? tag attributes).getD "" })
  | .elseIf | .elseTag => none
  | .forEach =>
      let spec := (loopSpecOf? tag attributes).getD ""
      let (item, collection) := (cut? ['|'] spec.toList).getD ([], [])
      some (.body (.loop (String.ofList (trim item)) (String.ofList (trim collection))) [])
  | .param => some (.body .strayParameter [])
  | .slot => some (.body (.slotPlace (slotNameOf attributes)) [])
  | .layout => some (.body (.layout name) [])
  | .sectionTag => some (.body (.sectionContent name) [])
  | .renderSection =>
      let required := (attribute? attributes "required").any fun value =>
        sameLetters (trim value.toList) "true".toList
      some (.body (.sectionPlace name required) [])
  | .renderBody => some (.body .bodyPlace [])
  | .define => some (.body (.fragment name) [])
  | .render => some (.call name (extraParameters ["name"] attributes))

/-- The stack after an opening tag that is no part of the construct around it. -/
def Stack.openNested (selfClosing : Bool) (tag : Tag) (attributes : List Attribute)
    (source : String) (stack : Stack) : Stack :=
  if maxDepth ≤ stack.depth then stack.add (.text source)
  else
    match frameOf? tag attributes with
    | some frame =>
        if selfClosing && tag == .layout then
          { stack with frames := .adopting (nameOf attributes) [] :: stack.frames }
        else stack.begin selfClosing frame
    | none => stack.add (.text source)

/-- The stack after an opening tag. Arms of a conditional, parameters and slots are parts of the
construct around them. -/
def Stack.openTag (selfClosing : Bool) (tag : Tag) (attributes : List Attribute) (source : String)
    (stack : Stack) : Stack :=
  match stack.frames, tag with
  | .conditional arms :: frames, .elseIf =>
      let condition := (conditionOf? tag attributes).getD ""
      { stack with frames := .conditional { arms.endArm with inElse := false, condition } :: frames }
  | .conditional arms :: frames, .elseTag =>
      { stack with frames := .conditional { arms.endArm with inElse := true } :: frames }
  | .component filling :: frames, .param =>
      let parameters := filling.parameters ++ (parameterOf? attributes).toList
      Stack.begin selfClosing .parameterBody
        { stack with frames := .component { filling with parameters } :: frames }
  | .component _ :: _, .slot =>
      if selfClosing then stack.fill (slotNameOf attributes) []
      else stack.begin false (.slotContent (slotNameOf attributes) [])
  | .call name parameters :: frames, .param =>
      Stack.begin selfClosing .parameterBody
        { stack with frames := .call name (parameters ++ (parameterOf? attributes).toList) :: frames }
  | _, _ => stack.openNested selfClosing tag attributes source

/-- The stack after a token. -/
def Stack.read (stack : Stack) (token : Token) : Stack :=
  match token.kind with
  | .text source => stack.add (.text source)
  | .interpolation expression => stack.add (.interpolation expression)
  | .opening selfClosing tag attributes source =>
      stack.openTag selfClosing tag attributes source
  | .closing tag source => stack.close tag source

/-- The top-level nodes, with every construct finished. -/
def Stack.toNodes (stack : Stack) : List Node := (stack.finishMany stack.frames.length).nodes.reverse

/-- The nodes that tokens write. -/
def nodesOf (tokens : List Token) : List Node := (tokens.foldl Stack.read {}).toNodes

/-- The tree that tokens write. Nothing is resolved or validated. -/
def Tree.ofTokens (tokens : List Token) : Tree := Tree.ofNodes (nodesOf tokens)

/-- The tree of template text. -/
def Tree.ofSource (source : String) : Tree := Tree.ofTokens (scan source)

end Stencil.Markup
