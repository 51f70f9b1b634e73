import Stencil.Proofs.Writing.Parsing

/-!
The reader of tokens as procedures that call one another, one for each kind of thing that tokens write. They
share a place: the tokens ahead, the tags whose bodies they are in, and the number of tags they are in. A
procedure may only call others while there is room for one more call, so the room that is needed is the depth
to which calls nest. The loops of a procedure take no room.

Where a procedure comes back to. Whatever is ahead, and however little room there is: a procedure that gives an
answer has left every tag that it entered, counts as many tags as before, and has only moved on.
-/

namespace Stencil.Markup

/-- Where the procedures are. -/
structure Place where
  ahead : List Token
  /-- The tags whose bodies are being read, innermost first. -/
  opened : List Tag := []
  /-- How many tags are being read, layouts that adopt their siblings among them. -/
  depth : Nat := 0

/-- Whether a token is the closing tag of a name. -/
def TokenKind.closes (tag : Tag) : TokenKind → Bool
  | .closing other _ => other == tag
  | _ => false

namespace Place

/-- The place in the body of a tag. -/
def enter (tag : Tag) (place : Place) : Place := { place with opened := tag :: place.opened }

def leave (place : Place) : Place := { place with opened := place.opened.tail }

/-- The place one tag deeper. -/
def nest (place : Place) : Place := { place with depth := place.depth + 1 }

/-- The place behind the next token. -/
def advance (place : Place) : Place := { place with ahead := place.ahead.tail }

/-- Whether a token closes one of the tags around. -/
def closesEnclosing (place : Place) : TokenKind → Bool
  | .closing tag _ => place.opened.contains tag
  | _ => false

/-- The place behind the closing tag of a name, if that comes next. -/
def passClosing (tag : Tag) (place : Place) : Place :=
  if place.ahead.head?.any fun token => token.kind.closes tag then place.advance else place

end Place

/-- An opening tag, as a token says it. -/
structure OpeningTag where
  selfClosing : Bool
  tag : Tag
  attributes : List Attribute
  source : String

/-- What the round of a loop comes to: another round, or the end. -/
inductive Round (α : Type) where
  | more (state : α)
  | over (state : α)

def Round.state {α : Type} : Round α → α
  | .more state | .over state => state

/-- A loop. A round that is not the last one has to move on. -/
def rounds {α : Type} (round : α → Place → Option (Round α × Place)) (state : α) (place : Place) :
    Option (α × Place) :=
  match round state place with
  | none => none
  | some (.over last, after) => some (last, after)
  | some (.more next, after) =>
      if after.ahead.length < place.ahead.length then rounds round next after else none
termination_by place.ahead.length

/-- The procedures, as they can be called. There is no answer where the room for calls ends. -/
structure Procedures where
  /-- Siblings up to a token at which they stop, or the closing tag of a tag around. -/
  nodes : (TokenKind → Bool) → Place → Option (List Node × Place)
  /-- The body of a tag with its closing tag. -/
  block : Tag → Place → Option (List Node × Place)
  body : Tag → Bool → Place → Option (List Node × Place)
  /-- The next token with what belongs to it. A parameter that stands alone gives no node. -/
  node : Place → Option (Option Node × Place)
  nested : OpeningTag → Place → Option (Option Node × Place)
  tag : OpeningTag → Place → Option (Option Node × Place)
  conditional : OpeningTag → Place → Option (Node × Place)
  component : ComponentKind → OpeningTag → Place → Option (Node × Place)
  call : OpeningTag → Place → Option (Node × Place)

/-- The tokens at which an arm of a conditional ends. -/
def TokenKind.isBranchBoundary : TokenKind → Bool
  | .opening _ tag _ _ => tag.isBranch
  | .closing tag _ => tag.isBranch || tag == .ifTag
  | _ => false

namespace Procedures

variable (callee : Procedures)

def nodesRound (stop : TokenKind → Bool) (nodes : List Node) (place : Place) :
    Option (Round (List Node) × Place) :=
  match place.ahead with
  | [] => some (.over nodes, place)
  | token :: _ =>
      if stop token.kind || place.closesEnclosing token.kind then some (.over nodes, place)
      else do
        let (node, after) ← callee.node place
        return (.more (pushAll node.toList nodes), after)

def readNodes (stop : TokenKind → Bool) (place : Place) : Option (List Node × Place) := do
  let (nodes, after) ← rounds (callee.nodesRound stop) [] place
  return (nodes.reverse, after)

def readBlock (tag : Tag) (place : Place) : Option (List Node × Place) := do
  let (children, after) ← callee.nodes (fun _ => false) (place.enter tag)
  return (children, after.leave.passClosing tag)

def readBody (tag : Tag) (selfClosing : Bool) (place : Place) : Option (List Node × Place) :=
  if selfClosing then some ([], place) else callee.block tag place

def readNode (place : Place) : Option (Option Node × Place) :=
  match place.ahead with
  | [] => some (none, place)
  | token :: _ =>
      match token.kind with
      | .text source => some (some (.text source), place.advance)
      | .interpolation expression => some (some (.interpolation expression), place.advance)
      | .closing _ source => some (some (.text source), place.advance)
      | .opening selfClosing tag attributes source =>
          if maxDepth ≤ place.depth then some (some (.text source), place.advance)
          else callee.nested ⟨selfClosing, tag, attributes, source⟩ place.advance

def readNested (opening : OpeningTag) (place : Place) : Option (Option Node × Place) := do
  let (node, after) ← callee.tag opening place.nest
  return (node, { after with depth := after.depth - 1 })

/-- The children of a construct. A layout that closes itself adopts the rest of its siblings. -/
def readChildren (opening : OpeningTag) (place : Place) : Option (List Node × Place) :=
  if opening.tag = .layout then
    if opening.selfClosing then callee.nodes (fun _ => false) place else callee.block .layout place
  else callee.body opening.tag opening.selfClosing place

def readTag (opening : OpeningTag) (place : Place) : Option (Option Node × Place) :=
  match frameOf? opening.tag opening.attributes with
  | some (.body construct _) => do
      let (children, after) ← callee.readChildren opening place
      return (construct.node? children, after)
  | some (.conditional _) => do
      let (node, after) ← callee.conditional opening place
      return (some node, after)
  | some (.component filling) => do
      let (node, after) ← callee.component filling.kind opening place
      return (some node, after)
  | some (.call _ _) => do
      let (node, after) ← callee.call opening place
      return (some node, after)
  -- the tags between the arms of a conditional begin nothing
  | _ => some (some (.text opening.source), place)

def armRound (arms : Arms) (place : Place) : Option (Round Arms × Place) := do
  let (nodes, after) ← callee.nodes TokenKind.isBranchBoundary place
  let arms := { arms with children := pushAll nodes arms.children }
  match after.ahead.head?.map Token.kind with
  | some (.closing .elseIf _) | some (.closing .elseTag _) => return (.more arms, after.advance)
  | some (.opening _ .elseIf attributes _) =>
      let condition := (conditionOf? .elseIf attributes).getD ""
      return (.more { arms.endArm with inElse := false, condition }, after.advance)
  | some (.opening _ .elseTag _ _) => return (.more { arms.endArm with inElse := true }, after.advance)
  | some (.closing .ifTag _) => return (.over arms, after.advance)
  | _ => return (.over arms, after)

def readConditional (opening : OpeningTag) (place : Place) : Option (Node × Place) :=
  let arms : Arms := { condition := (conditionOf? .ifTag opening.attributes).getD "" }
  if opening.selfClosing then some (arms.node, place)
  else do
    let (arms, after) ← rounds callee.armRound arms (place.enter .ifTag)
    return (arms.node, after.leave)

/-- A parameter among the contents of a component or a call. Its body is dropped. -/
def readParameter (selfClosing : Bool) (place : Place) : Option Place := do
  if selfClosing then return place.advance
  let (_, after) ← callee.block .param place.advance
  return after

def partRound (tag : Tag) (filling : Filling) (place : Place) : Option (Round Filling × Place) :=
  match place.ahead with
  | [] => some (.over filling, place)
  | token :: _ =>
      if token.kind.closes tag then some (.over filling, place.advance)
      else if place.closesEnclosing token.kind then some (.over filling, place)
      else
        match token.kind with
        | .opening selfClosing .param attributes _ => do
            let after ← callee.readParameter selfClosing place
            let parameters := filling.parameters ++ (parameterOf? attributes).toList
            return (.more { filling with parameters }, after)
        | .closing .param _ => some (.more filling, place.advance)
        | .opening selfClosing .slot attributes _ => do
            let (body, after) ← callee.body .slot selfClosing place.advance
            return (.more (filling.fill (slotNameOf attributes) body), after)
        | _ => do
            let (node, after) ← callee.node place
            return (.more { filling with defaultSlot := pushAll node.toList filling.defaultSlot }, after)

def readComponent (kind : ComponentKind) (opening : OpeningTag) (place : Place) :
    Option (Node × Place) :=
  let filling : Filling := { kind, attributes := opening.attributes }
  if opening.selfClosing then some (filling.node, place)
  else do
    let (filling, after) ← rounds (callee.partRound kind.tag) filling (place.enter kind.tag)
    return (filling.node, after.leave)

def parameterRound (parameters : List Parameter) (place : Place) :
    Option (Round (List Parameter) × Place) :=
  match place.ahead with
  | [] => some (.over parameters, place)
  | token :: _ =>
      if token.kind.closes .render then some (.over parameters, place.advance)
      else if place.closesEnclosing token.kind then some (.over parameters, place)
      else
        match token.kind with
        | .opening selfClosing .param attributes _ => do
            let after ← callee.readParameter selfClosing place
            return (.more (parameters ++ (parameterOf? attributes).toList), after)
        | _ => do
            let (_, after) ← callee.node place
            return (.more parameters, after)

def readCall (opening : OpeningTag) (place : Place) : Option (Node × Place) :=
  let name := nameOf opening.attributes
  let parameters := extraParameters ["name"] opening.attributes
  if opening.selfClosing then some (.call name parameters, place)
  else do
    let (parameters, after) ← rounds callee.parameterRound parameters (place.enter .render)
    return (.call name parameters, after.leave)

/-- The procedures with room for so many calls inside one another. -/
def within : Nat → Procedures
  | 0 =>
      { nodes _ _ := none, block _ _ := none, body _ _ _ := none, node _ := none, nested _ _ := none
        tag _ _ := none, conditional _ _ := none, component _ _ _ := none, call _ _ := none }
  | room + 1 =>
      let callee := within room
      { nodes := callee.readNodes, block := callee.readBlock, body := callee.readBody
        node := callee.readNode, nested := callee.readNested, tag := callee.readTag
        conditional := callee.readConditional, component := callee.readComponent
        call := callee.readCall }

end Procedures

/-- From a place a procedure has come back to another: in the body of the same tags, not before it. -/
structure Place.Returns (place after : Place) : Prop where
  opened : after.opened = place.opened
  depth : after.depth = place.depth
  ahead : after.ahead <:+ place.ahead

namespace Place.Returns

variable {place middle after : Place}

theorem refl (place : Place) : place.Returns place := ⟨rfl, rfl, List.suffix_rfl⟩

theorem trans (h : place.Returns middle) (h' : middle.Returns after) : place.Returns after :=
  ⟨h'.opened.trans h.opened, h'.depth.trans h.depth, h'.ahead.trans h.ahead⟩

theorem advance (place : Place) : place.Returns place.advance := ⟨rfl, rfl, List.tail_suffix _⟩

theorem passClosing (tag : Tag) (place : Place) : place.Returns (place.passClosing tag) := by
  unfold Place.passClosing
  split
  · exact advance place
  · exact refl place

/-- What returns to the body of a tag leaves it to where it was entered. -/
theorem leave {tag : Tag} (h : (place.enter tag).Returns after) : place.Returns after.leave where
  opened := congrArg List.tail h.opened
  depth := h.depth
  ahead := h.ahead

end Place.Returns

/-- What every round of a loop keeps holds where the loop ends. -/
theorem rounds_keep {α : Type} {round : α → Place → Option (Round α × Place)} {P : α → Place → Prop}
    (step : ∀ state place result after, P state place → round state place = some (result, after) →
      P result.state after)
    {state last : α} {place after : Place} (hplace : P state place)
    (h : rounds round state place = some (last, after)) : P last after := by
  fun_induction rounds round state place with
  | case1 => cases h
  | case2 state place last' after' hround =>
      cases h
      exact step state place _ _ hplace hround
  | case3 state place next after' hround hmoved ih => exact ih (step state place _ _ hplace hround) h
  | case4 => cases h

/-- Every procedure comes back, and the one for nodes moves on. -/
structure Procedures.ComeBack (procedures : Procedures) : Prop where
  nodes : ∀ {stop place nodes after}, procedures.nodes stop place = some (nodes, after) → place.Returns after
  block : ∀ {tag place nodes after}, procedures.block tag place = some (nodes, after) → place.Returns after
  body : ∀ {tag selfClosing place nodes after},
    procedures.body tag selfClosing place = some (nodes, after) → place.Returns after
  node : ∀ {place node after}, procedures.node place = some (node, after) → place.advance.Returns after
  nested : ∀ {opening place node after}, procedures.nested opening place = some (node, after) → place.Returns after
  tag : ∀ {opening place node after}, procedures.tag opening place = some (node, after) → place.Returns after
  conditional : ∀ {opening place node after},
    procedures.conditional opening place = some (node, after) → place.Returns after
  component : ∀ {kind opening place node after},
    procedures.component kind opening place = some (node, after) → place.Returns after
  call : ∀ {opening place node after}, procedures.call opening place = some (node, after) → place.Returns after

namespace Procedures.ComeBack

variable {callee : Procedures} (h : callee.ComeBack) {opening : OpeningTag} {place after : Place}
  {node : Node} {node? : Option Node} {nodes : List Node}

include h

theorem nodesRound {stop : TokenKind → Bool} {result : Round (List Node)}
    (hround : callee.nodesRound stop nodes place = some (result, after)) : place.Returns after := by
  unfold Procedures.nodesRound at hround
  split at hround
  · cases hround
    exact .refl _
  · split at hround
    · cases hround
      exact .refl _
    · simp only [Option.bind_eq_bind, Option.bind_eq_some_iff, Prod.exists] at hround
      obtain ⟨node, last, hnode, hlast⟩ := hround
      cases hlast
      exact (Place.Returns.advance place).trans (h.node hnode)

theorem readNodes {stop : TokenKind → Bool} (hread : callee.readNodes stop place = some (nodes, after)) :
    place.Returns after := by
  simp only [Procedures.readNodes, Option.bind_eq_bind, Option.bind_eq_some_iff, Prod.exists] at hread
  obtain ⟨gathered, last, hrounds, hlast⟩ := hread
  cases hlast
  exact rounds_keep (P := fun _ => place.Returns)
    (fun _ _ _ _ hcurrent hround => hcurrent.trans (h.nodesRound hround)) (.refl place) hrounds

theorem readBlock {tag : Tag} (hread : callee.readBlock tag place = some (nodes, after)) :
    place.Returns after := by
  simp only [Procedures.readBlock, Option.bind_eq_bind, Option.bind_eq_some_iff, Prod.exists] at hread
  obtain ⟨children, last, hnodes, hlast⟩ := hread
  cases hlast
  exact (h.nodes hnodes).leave.trans (.passClosing tag _)

theorem readBody {tag : Tag} {selfClosing : Bool}
    (hread : callee.readBody tag selfClosing place = some (nodes, after)) : place.Returns after := by
  unfold Procedures.readBody at hread
  split at hread
  · cases hread
    exact .refl _
  · exact h.block hread

theorem readNested (hread : callee.readNested opening place = some (node?, after)) : place.Returns after := by
  simp only [Procedures.readNested, Option.bind_eq_bind, Option.bind_eq_some_iff, Prod.exists] at hread
  obtain ⟨node, last, htag, hlast⟩ := hread
  cases hlast
  have hlast := h.tag htag
  exact ⟨hlast.opened, congrArg (· - 1) hlast.depth, hlast.ahead⟩

theorem readNode (hread : callee.readNode place = some (node?, after)) : place.advance.Returns after := by
  unfold Procedures.readNode at hread
  split at hread
  next hnone =>
    cases hread
    unfold Place.advance
    rw [hnone]
    exact ⟨rfl, rfl, by rw [hnone]; exact List.suffix_rfl⟩
  next token rest htoken =>
    split at hread
    · cases hread
      exact .refl _
    · cases hread
      exact .refl _
    · cases hread
      exact .refl _
    · split at hread
      · cases hread
        exact .refl _
      · exact h.nested hread

theorem readChildren (hread : callee.readChildren opening place = some (nodes, after)) :
    place.Returns after := by
  unfold Procedures.readChildren at hread
  split at hread
  · split at hread
    · exact h.nodes hread
    · exact h.block hread
  · exact h.body hread

theorem readTag (hread : callee.readTag opening place = some (node?, after)) : place.Returns after := by
  unfold Procedures.readTag at hread
  split at hread
  next construct children _ =>
    simp only [Option.bind_eq_bind, Option.bind_eq_some_iff, Prod.exists] at hread
    obtain ⟨children, last, hchildren, hlast⟩ := hread
    cases hlast
    exact h.readChildren hchildren
  next =>
    simp only [Option.bind_eq_bind, Option.bind_eq_some_iff, Prod.exists] at hread
    obtain ⟨node, last, hnode, hlast⟩ := hread
    cases hlast
    exact h.conditional hnode
  next =>
    simp only [Option.bind_eq_bind, Option.bind_eq_some_iff, Prod.exists] at hread
    obtain ⟨node, last, hnode, hlast⟩ := hread
    cases hlast
    exact h.component hnode
  next =>
    simp only [Option.bind_eq_bind, Option.bind_eq_some_iff, Prod.exists] at hread
    obtain ⟨node, last, hnode, hlast⟩ := hread
    cases hlast
    exact h.call hnode
  next =>
    cases hread
    exact .refl _

theorem armRound {arms : Arms} {result : Round Arms}
    (hround : callee.armRound arms place = some (result, after)) : place.Returns after := by
  simp only [Procedures.armRound, Option.bind_eq_bind, Option.bind_eq_some_iff, Prod.exists] at hround
  obtain ⟨nodes, last, hnodes, hlast⟩ := hround
  have hreturns := h.nodes hnodes
  have hadvance := hreturns.trans (.advance last)
  split at hlast
  all_goals
    cases hlast
  · exact hadvance
  · exact hadvance
  · exact hadvance
  · exact hadvance
  · exact hadvance
  · exact hreturns

theorem readParameter {selfClosing : Bool} (hread : callee.readParameter selfClosing place = some after) :
    place.advance.Returns after := by
  unfold Procedures.readParameter at hread
  split at hread
  · cases hread
    exact .refl _
  · simp only [Option.bind_eq_bind, Option.bind_eq_some_iff, Prod.exists] at hread
    obtain ⟨children, last, hblock, hlast⟩ := hread
    cases hlast
    exact h.block hblock

theorem partRound {tag : Tag} {filling : Filling} {result : Round Filling}
    (hround : callee.partRound tag filling place = some (result, after)) : place.Returns after := by
  unfold Procedures.partRound at hround
  split at hround
  · cases hround
    exact .refl _
  split at hround
  · cases hround
    exact .advance _
  split at hround
  · cases hround
    exact .refl _
  split at hround
  · simp only [Option.bind_eq_bind, Option.bind_eq_some_iff] at hround
    obtain ⟨last, hparameter, hlast⟩ := hround
    cases hlast
    exact (Place.Returns.advance place).trans (h.readParameter hparameter)
  · cases hround
    exact .advance _
  · simp only [Option.bind_eq_bind, Option.bind_eq_some_iff, Prod.exists] at hround
    obtain ⟨body, last, hbody, hlast⟩ := hround
    cases hlast
    exact (Place.Returns.advance place).trans (h.body hbody)
  · simp only [Option.bind_eq_bind, Option.bind_eq_some_iff, Prod.exists] at hround
    obtain ⟨node, last, hnode, hlast⟩ := hround
    cases hlast
    exact (Place.Returns.advance place).trans (h.node hnode)

theorem parameterRound {parameters : List Parameter} {result : Round (List Parameter)}
    (hround : callee.parameterRound parameters place = some (result, after)) : place.Returns after := by
  unfold Procedures.parameterRound at hround
  split at hround
  · cases hround
    exact .refl _
  split at hround
  · cases hround
    exact .advance _
  split at hround
  · cases hround
    exact .refl _
  split at hround
  · simp only [Option.bind_eq_bind, Option.bind_eq_some_iff] at hround
    obtain ⟨last, hparameter, hlast⟩ := hround
    cases hlast
    exact (Place.Returns.advance place).trans (h.readParameter hparameter)
  · simp only [Option.bind_eq_bind, Option.bind_eq_some_iff, Prod.exists] at hround
    obtain ⟨node, last, hnode, hlast⟩ := hround
    cases hlast
    exact (Place.Returns.advance place).trans (h.node hnode)

theorem readConditional (hread : callee.readConditional opening place = some (node, after)) :
    place.Returns after := by
  unfold Procedures.readConditional at hread
  split at hread
  · cases hread
    exact .refl _
  · simp only [Option.bind_eq_bind, Option.bind_eq_some_iff, Prod.exists] at hread
    obtain ⟨arms, last, hrounds, hlast⟩ := hread
    cases hlast
    exact Place.Returns.leave (rounds_keep (P := fun _ => (place.enter .ifTag).Returns)
      (fun _ _ _ _ hcurrent hround => hcurrent.trans (h.armRound hround)) (.refl _) hrounds)

theorem readComponent {kind : ComponentKind}
    (hread : callee.readComponent kind opening place = some (node, after)) : place.Returns after := by
  unfold Procedures.readComponent at hread
  split at hread
  · cases hread
    exact .refl _
  · simp only [Option.bind_eq_bind, Option.bind_eq_some_iff, Prod.exists] at hread
    obtain ⟨filling, last, hrounds, hlast⟩ := hread
    cases hlast
    exact Place.Returns.leave (rounds_keep (P := fun _ => (place.enter kind.tag).Returns)
      (fun _ _ _ _ hcurrent hround => hcurrent.trans (h.partRound hround)) (.refl _) hrounds)

theorem readCall (hread : callee.readCall opening place = some (node, after)) : place.Returns after := by
  unfold Procedures.readCall at hread
  split at hread
  · cases hread
    exact .refl _
  · simp only [Option.bind_eq_bind, Option.bind_eq_some_iff, Prod.exists] at hread
    obtain ⟨parameters, last, hrounds, hlast⟩ := hread
    cases hlast
    exact Place.Returns.leave (rounds_keep (P := fun _ => (place.enter .render).Returns)
      (fun _ _ _ _ hcurrent hround => hcurrent.trans (h.parameterRound hround)) (.refl _) hrounds)

end Procedures.ComeBack

/-- However much room there is for calls, every procedure comes back. -/
theorem Procedures.comeBack_within (room : Nat) : (within room).ComeBack := by
  induction room with
  | zero =>
      constructor
      all_goals
        intros
        contradiction
  | succ room ih =>
      exact ⟨ih.readNodes, ih.readBlock, ih.readBody, ih.readNode, ih.readNested, ih.readTag,
        ih.readConditional, ih.readComponent, ih.readCall⟩

end Stencil.Markup
