import Mathlib.Algebra.Order.Group.Multiset
import Stencil.Proofs.Descent.Contents

/-!
Interpolations are neither lost nor doubled on their way from the tokens to the tree, however the tags are
nested, left open, or closed where they should not be. Whatever accumulates nodes, an arm, a slot or the siblings
that a layout adopts, has the interpolations of the tokens that are behind. Only the bodies of parameters, of the
place of the body and of calls are dropped.
-/

namespace Stencil.Markup

def Node.interpolation? : Node → Option String
  | .interpolation expression => some expression
  | _ => none

def Token.interpolation? (token : Token) : Option String :=
  match token.kind with
  | .interpolation expression => some expression
  | _ => none

/-- The interpolations among nodes and below them. -/
def interpolationsIn (nodes : List Node) : Multiset String := ↑((preorder nodes).filterMap Node.interpolation?)

/-- The interpolations among tokens. -/
def interpolationsOf (tokens : List Token) : Multiset String := ↑(tokens.filterMap Token.interpolation?)

/-- The tags whose bodies are not kept. -/
def Tag.drops : Tag → Bool
  | .param | .renderBody | .render => true
  | _ => false

/-- Whether a token opens or closes a tag whose body is not kept. -/
def Token.drops (token : Token) : Bool :=
  match token.kind with
  | .opening _ tag _ _ | .closing tag _ => tag.drops
  | _ => false

section Nodes

theorem interpolationsIn_append (first second : List Node) :
    interpolationsIn (first ++ second) = interpolationsIn first + interpolationsIn second := by
  unfold interpolationsIn
  rw [preorder_append, List.filterMap_append, Multiset.coe_add]

theorem interpolationsIn_cons (node : Node) (rest : List Node) :
    interpolationsIn (node :: rest) = interpolationsIn [node] + interpolationsIn rest :=
  interpolationsIn_append [node] rest

@[simp] theorem interpolationsIn_nil : interpolationsIn [] = 0 := rfl

@[simp] theorem interpolationsIn_text (source : String) : interpolationsIn [.text source] = 0 := rfl

@[simp] theorem interpolationsIn_reverse (nodes : List Node) :
    interpolationsIn nodes.reverse = interpolationsIn nodes := by
  induction nodes with
  | nil => rfl
  | cons node rest ih =>
      rw [List.reverse_cons, interpolationsIn_append, ih, interpolationsIn_cons node rest, add_comm]

theorem interpolationsIn_addNode (node : Node) (nodes : List Node) :
    interpolationsIn (addNode node nodes) = interpolationsIn [node] + interpolationsIn nodes := by
  fun_cases addNode node nodes with
  | case1 new old rest =>
      rw [interpolationsIn_cons, interpolationsIn_cons (.text old)]
      simp only [interpolationsIn_text, zero_add]
  | case2 => exact interpolationsIn_cons node nodes

theorem interpolationsIn_pushAll (nodes children : List Node) :
    interpolationsIn (pushAll nodes children) = interpolationsIn nodes + interpolationsIn children := by
  induction nodes generalizing children with
  | nil => exact (zero_add _).symm
  | cons node rest ih =>
      refine (ih (addNode node children)).trans ?_
      rw [interpolationsIn_addNode, interpolationsIn_cons node rest, add_left_comm, add_assoc]

/-- The interpolations of a tag are those of the nodes below it. -/
theorem interpolationsIn_tag {node : Node} {below : List Node} (htag : node.isTag = true)
    (h : node.inside = preorder below) : interpolationsIn [node] = interpolationsIn below := by
  have hnone : node.interpolation? = none := by
    cases node with
    | interpolation => cases htag
    | _ => rfl
  unfold interpolationsIn
  rw [preorder_singleton, List.filterMap_cons, hnone, h]

/-- A construct whose body is kept has the interpolations of its body. -/
theorem interpolationsIn_construct {construct : Construct} (hkept : construct.tag.drops = false)
    (children : List Node) :
    interpolationsIn (construct.node? children).toList = interpolationsIn children := by
  cases construct with
  | bodyPlace | strayParameter => cases hkept
  | _ => exact interpolationsIn_tag rfl rfl

/-- The interpolations that wait in a conditional. -/
def Arms.interpolations (arms : Arms) : Multiset String :=
  interpolationsIn (arms.done.flatMap Prod.snd ++ (arms.otherwise.getD [] ++ arms.children))

theorem Arms.interpolations_endArm (arms : Arms) : arms.endArm.interpolations = arms.interpolations := by
  unfold endArm
  dsimp only
  split
  · simp [interpolations, interpolationsIn_append]
  · simp [interpolations, interpolationsIn_append, add_comm]

theorem Arms.interpolations_node (arms : Arms) : interpolationsIn [arms.node] = arms.interpolations := by
  have hended : arms.endArm.children = [] := by
    unfold endArm
    dsimp only
    split
    · rfl
    · rfl
  have hinside : arms.node.inside =
      preorder (arms.endArm.done.flatMap Prod.snd ++ arms.endArm.otherwise.getD []) := by
    unfold Arms.node
    dsimp only
    cases arms.endArm.otherwise with
    | none => rw [Node.inside, preorderOfBodies_eq, Option.getD_none, List.append_nil]
    | some body => rw [Node.inside, preorderOfBodies_eq, Option.getD_some, preorder_append]
  rw [← interpolations_endArm, interpolationsIn_tag rfl hinside]
  unfold interpolations
  rw [hended, List.append_nil]

/-- The interpolations that wait in a component. -/
def Filling.interpolations (filling : Filling) : Multiset String :=
  interpolationsIn (filling.defaultSlot ++ filling.slots.flatMap Prod.snd)

theorem Filling.interpolations_node (filling : Filling) :
    interpolationsIn [filling.node] = filling.interpolations := by
  have hinside : filling.node.inside =
      preorder (filling.defaultSlot.reverse ++ filling.slots.flatMap Prod.snd) := by
    unfold Filling.node
    rw [Node.inside, preorderOfBodies_eq, preorder_append]
  rw [interpolationsIn_tag rfl hinside]
  unfold interpolations
  rw [interpolationsIn_append, interpolationsIn_append, interpolationsIn_reverse]

theorem interpolationsIn_appendSlot (name : String) (body : List Node) (slots : List (String × List Node)) :
    interpolationsIn ((appendSlot name body slots).flatMap Prod.snd) =
      interpolationsIn body + interpolationsIn (slots.flatMap Prod.snd) := by
  fun_induction appendSlot name body slots with
  | case1 => simp
  | case2 existing nodes rest hname =>
      simp only [List.flatMap_cons, interpolationsIn_append]
      ac_rfl
  | case3 existing nodes rest hname ih =>
      simp only [List.flatMap_cons, interpolationsIn_append, ih]
      ac_rfl

/-- A slot gives all that it has to the component around it. -/
theorem Filling.interpolations_fill (filling : Filling) (name : String) (body : List Node) :
    (filling.fill name body).interpolations = interpolationsIn body + filling.interpolations := by
  unfold fill
  split
  · change interpolationsIn (pushAll body filling.defaultSlot ++ filling.slots.flatMap Prod.snd) = _
    rw [interpolationsIn_append, interpolationsIn_pushAll, add_assoc, ← interpolationsIn_append]
    rfl
  · change interpolationsIn (filling.defaultSlot ++ (appendSlot name body filling.slots).flatMap Prod.snd) = _
    rw [interpolationsIn_append, interpolationsIn_appendSlot, add_left_comm, ← interpolationsIn_append]
    rfl

end Nodes

/-- None of the tokens opens or closes a tag whose body is dropped. -/
def Undropped (tokens : List Token) : Prop := ∀ token ∈ tokens, token.drops = false

theorem Undropped.of_suffix {tokens rest : List Token} (h : Undropped tokens) (hsuffix : rest <:+ tokens) :
    Undropped rest :=
  fun token hmem => h token (hsuffix.subset hmem)

/-- On the way from one place to another nodes get the interpolations of the tokens that are passed. -/
def Place.Yields (place : Place) (nodes : List Node) (after : Place) : Prop :=
  interpolationsOf place.ahead = interpolationsIn nodes + interpolationsOf after.ahead

/-- A token that comes next has its interpolation, if it is one, and the rest has the others. -/
theorem interpolationsOf_advance {place : Place} {token : Token} (hnext : place.ahead.head? = some token) :
    interpolationsOf place.ahead = ↑token.interpolation?.toList + interpolationsOf place.advance.ahead := by
  obtain ⟨rest, hahead⟩ := List.head?_eq_some_iff.1 hnext
  unfold Place.advance interpolationsOf
  rw [hahead, List.filterMap_cons, List.tail_cons]
  cases token.interpolation? with
  | none => exact (zero_add _).symm
  | some expression => rfl

/-- A tag that comes next has no interpolation. -/
theorem interpolationsOf_advance_tag {place : Place} {kind : TokenKind}
    (hnext : place.ahead.head?.map Token.kind = some kind)
    (htag : ∀ expression, kind ≠ .interpolation expression) :
    interpolationsOf place.ahead = interpolationsOf place.advance.ahead := by
  obtain ⟨token, htoken, hkind⟩ := Option.map_eq_some_iff.1 hnext
  have hnone : token.interpolation? = none := by
    unfold Token.interpolation?
    split
    next expression heq => exact absurd (hkind.symm.trans heq) (htag expression)
    next => rfl
  rw [interpolationsOf_advance htoken, hnone]
  exact zero_add _

theorem ne_interpolation_of_closes {kind : TokenKind} {tag : Tag} (h : kind.closes tag = true)
    (expression : String) : kind ≠ .interpolation expression := by
  rintro rfl
  cases h

theorem interpolationsOf_passClosing (tag : Tag) (place : Place) :
    interpolationsOf (place.passClosing tag).ahead = interpolationsOf place.ahead := by
  unfold Place.passClosing
  split
  next hcloses =>
    obtain ⟨token, htoken, hcloses⟩ := (Option.any_eq_true _ _).1 hcloses
    have hnext : place.ahead.head?.map Token.kind = some token.kind := by rw [htoken]; rfl
    exact (interpolationsOf_advance_tag hnext (ne_interpolation_of_closes hcloses)).symm
  next => rfl

/-- Procedures that give nodes all interpolations that they pass. -/
structure Procedures.Keep (procedures : Procedures) : Prop where
  nodes : ∀ {stop place nodes after}, procedures.nodes stop place = some (nodes, after) →
    Undropped place.ahead → place.Yields nodes after
  block : ∀ {tag place nodes after}, procedures.block tag place = some (nodes, after) →
    Undropped place.ahead → place.Yields nodes after
  body : ∀ {tag selfClosing place nodes after}, procedures.body tag selfClosing place = some (nodes, after) →
    Undropped place.ahead → place.Yields nodes after
  node : ∀ {place node after}, procedures.node place = some (node, after) →
    Undropped place.ahead → place.Yields node.toList after
  nested : ∀ {opening place node after}, procedures.nested opening place = some (node, after) →
    Undropped place.ahead → opening.tag.drops = false → place.Yields node.toList after
  tag : ∀ {opening place node after}, procedures.tag opening place = some (node, after) →
    Undropped place.ahead → opening.tag.drops = false → place.Yields node.toList after
  conditional : ∀ {opening place node after}, procedures.conditional opening place = some (node, after) →
    Undropped place.ahead → place.Yields [node] after
  component : ∀ {kind opening place node after},
    procedures.component kind opening place = some (node, after) →
    Undropped place.ahead → place.Yields [node] after

namespace Procedures.Keep

variable {callee : Procedures} (h : callee.Keep) (back : callee.ComeBack) {opening : OpeningTag}
  {place after : Place} {node : Node} {node? : Option Node} {nodes : List Node}

/-- A loop keeps the interpolations if every round does. -/
theorem rounds {α : Type} (waiting : α → Multiset String) {round : α → Place → Option (Round α × Place)}
    (back : ∀ {state place result after}, round state place = some (result, after) → place.Returns after)
    (step : ∀ {state place result after}, round state place = some (result, after) → Undropped place.ahead →
      waiting state + interpolationsOf place.ahead = waiting result.state + interpolationsOf after.ahead)
    {state last : α} (h : Markup.rounds round state place = some (last, after)) (hkept : Undropped place.ahead) :
    waiting state + interpolationsOf place.ahead = waiting last + interpolationsOf after.ahead := by
  have hall : Undropped after.ahead ∧
      waiting state + interpolationsOf place.ahead = waiting last + interpolationsOf after.ahead := by
    refine rounds_keep (P := fun current at' => Undropped at'.ahead ∧
      waiting state + interpolationsOf place.ahead = waiting current + interpolationsOf at'.ahead)
      (fun current at' result after' hcurrent hround => ?_) ⟨hkept, rfl⟩ h
    exact ⟨hcurrent.1.of_suffix (back hround).ahead, hcurrent.2.trans (step hround hcurrent.1)⟩
  exact hall.2

include h

theorem nodesRound {stop : TokenKind → Bool} {result : Round (List Node)}
    (hround : callee.nodesRound stop nodes place = some (result, after)) (hkept : Undropped place.ahead) :
    interpolationsIn nodes + interpolationsOf place.ahead =
      interpolationsIn result.state + interpolationsOf after.ahead := by
  unfold Procedures.nodesRound at hround
  split at hround
  · cases hround
    rfl
  split at hround
  · cases hround
    rfl
  simp only [Option.bind_eq_bind, Option.bind_eq_some_iff, Prod.exists] at hround
  obtain ⟨node, last, hnode, hlast⟩ := hround
  cases hlast
  have hyields : interpolationsOf place.ahead = _ := h.node hnode hkept
  rw [hyields, Round.state, interpolationsIn_pushAll]
  ac_rfl

theorem armRound {arms : Arms} {result : Round Arms}
    (hround : callee.armRound arms place = some (result, after)) (hkept : Undropped place.ahead) :
    arms.interpolations + interpolationsOf place.ahead =
      result.state.interpolations + interpolationsOf after.ahead := by
  simp only [Procedures.armRound, Option.bind_eq_bind, Option.bind_eq_some_iff, Prod.exists] at hround
  obtain ⟨nodes, last, hnodes, hlast⟩ := hround
  have hyields : interpolationsOf place.ahead = _ := h.nodes hnodes hkept
  have hjoined : arms.interpolations + interpolationsOf place.ahead =
      Arms.interpolations { arms with children := pushAll nodes arms.children } + interpolationsOf last.ahead := by
    rw [hyields]
    unfold Arms.interpolations
    simp only [interpolationsIn_append, interpolationsIn_pushAll]
    ac_rfl
  rw [hjoined]
  split at hlast
  next heq =>
    cases hlast
    rw [interpolationsOf_advance_tag heq (by simp)]
    rfl
  next heq =>
    cases hlast
    rw [interpolationsOf_advance_tag heq (by simp)]
    rfl
  next heq =>
    cases hlast
    rw [interpolationsOf_advance_tag heq (by simp), ← Arms.interpolations_endArm]
    rfl
  next heq =>
    cases hlast
    rw [interpolationsOf_advance_tag heq (by simp), ← Arms.interpolations_endArm]
    rfl
  next heq =>
    cases hlast
    rw [interpolationsOf_advance_tag heq (by simp)]
    rfl
  next =>
    cases hlast
    rfl

theorem partRound {tag : Tag} {filling : Filling} {result : Round Filling}
    (hround : callee.partRound tag filling place = some (result, after)) (hkept : Undropped place.ahead) :
    filling.interpolations + interpolationsOf place.ahead =
      result.state.interpolations + interpolationsOf after.ahead := by
  unfold Procedures.partRound at hround
  split at hround
  · cases hround
    rfl
  next token rest hahead =>
    have hnext : place.ahead.head?.map Token.kind = some token.kind := by rw [hahead]; rfl
    have htoken := hkept token (hahead ▸ List.mem_cons_self ..)
    have hbehind := hkept.of_suffix (List.tail_suffix place.ahead)
    split at hround
    next hcloses =>
      cases hround
      rw [interpolationsOf_advance_tag hnext (ne_interpolation_of_closes hcloses)]
      rfl
    split at hround
    · cases hround
      rfl
    unfold Token.drops at htoken
    split at hround
    next heq =>
      rw [heq] at htoken
      cases htoken
    next heq =>
      rw [heq] at htoken
      cases htoken
    next heq =>
      simp only [Option.bind_eq_bind, Option.bind_eq_some_iff, Prod.exists] at hround
      obtain ⟨body, last, hbody, hlast⟩ := hround
      cases hlast
      have hyields : interpolationsOf place.advance.ahead = _ := h.body hbody hbehind
      rw [heq] at hnext
      rw [interpolationsOf_advance_tag hnext (by simp), hyields, Round.state, Filling.interpolations_fill]
      ac_rfl
    next =>
      simp only [Option.bind_eq_bind, Option.bind_eq_some_iff, Prod.exists] at hround
      obtain ⟨node, last, hnode, hlast⟩ := hround
      cases hlast
      have hyields : interpolationsOf place.ahead = _ := h.node hnode hkept
      rw [hyields]
      unfold Filling.interpolations
      simp only [Round.state, interpolationsIn_append, interpolationsIn_pushAll]
      ac_rfl

theorem readBlock {tag : Tag} (hread : callee.readBlock tag place = some (nodes, after))
    (hkept : Undropped place.ahead) : place.Yields nodes after := by
  simp only [Procedures.readBlock, Option.bind_eq_bind, Option.bind_eq_some_iff, Prod.exists] at hread
  obtain ⟨children, last, hnodes, hlast⟩ := hread
  cases hlast
  have hyields : (place.enter tag).Yields nodes last := h.nodes hnodes hkept
  unfold Place.Yields
  rw [interpolationsOf_passClosing]
  exact hyields

theorem readBody {tag : Tag} {selfClosing : Bool}
    (hread : callee.readBody tag selfClosing place = some (nodes, after)) (hkept : Undropped place.ahead) :
    place.Yields nodes after := by
  unfold Procedures.readBody at hread
  split at hread
  · cases hread
    exact (zero_add _).symm
  · exact h.block hread hkept

theorem readNode (hread : callee.readNode place = some (node?, after)) (hkept : Undropped place.ahead) :
    place.Yields node?.toList after := by
  unfold Procedures.readNode at hread
  split at hread
  · cases hread
    exact (zero_add _).symm
  next token rest hahead =>
    have hnext : place.ahead.head? = some token := by rw [hahead]; rfl
    have hadvance := interpolationsOf_advance hnext
    have htoken := hkept token (hahead ▸ List.mem_cons_self ..)
    unfold Token.interpolation? at hadvance
    unfold Token.drops at htoken
    split at hread
    next heq =>
      cases hread
      rw [heq] at hadvance
      exact hadvance
    next heq =>
      cases hread
      rw [heq] at hadvance
      exact hadvance
    next heq =>
      cases hread
      rw [heq] at hadvance
      exact hadvance
    next heq =>
      rw [heq] at hadvance htoken
      split at hread
      · cases hread
        exact hadvance
      · have hyields : interpolationsOf place.advance.ahead = _ :=
          h.nested hread (hkept.of_suffix (List.tail_suffix place.ahead)) htoken
        unfold Place.Yields
        rw [hadvance, hyields]
        exact zero_add _

theorem readNested (hread : callee.readNested opening place = some (node?, after))
    (hkept : Undropped place.ahead) (htag : opening.tag.drops = false) : place.Yields node?.toList after := by
  simp only [Procedures.readNested, Option.bind_eq_bind, Option.bind_eq_some_iff, Prod.exists] at hread
  obtain ⟨node, last, hnode, hlast⟩ := hread
  cases hlast
  have hyields : place.nest.Yields node?.toList last := h.tag hnode hkept htag
  exact hyields

theorem readChildren (hread : callee.readChildren opening place = some (nodes, after))
    (hkept : Undropped place.ahead) : place.Yields nodes after := by
  unfold Procedures.readChildren at hread
  split at hread
  · split at hread
    · exact h.nodes hread hkept
    · exact h.block hread hkept
  · exact h.body hread hkept

theorem readTag (hread : callee.readTag opening place = some (node?, after)) (hkept : Undropped place.ahead)
    (htag : opening.tag.drops = false) : place.Yields node?.toList after := by
  unfold Procedures.readTag at hread
  have hmould := frameOf?_mould opening.tag opening.attributes
  split at hread
  next construct children hframe =>
    simp only [Option.bind_eq_bind, Option.bind_eq_some_iff, Prod.exists] at hread
    obtain ⟨children, last, hchildren, hlast⟩ := hread
    cases hlast
    rcases frameOf?_cases hframe with ⟨other, heq, hother⟩ | heq | ⟨kind, heq, -⟩ | heq
    · cases heq
      unfold Place.Yields
      rw [interpolationsIn_construct (hother ▸ htag)]
      exact h.readChildren hchildren hkept
    all_goals cases heq
  next =>
    simp only [Option.bind_eq_bind, Option.bind_eq_some_iff, Prod.exists] at hread
    obtain ⟨node, last, hnode, hlast⟩ := hread
    cases hlast
    exact h.conditional hnode hkept
  next =>
    simp only [Option.bind_eq_bind, Option.bind_eq_some_iff, Prod.exists] at hread
    obtain ⟨node, last, hnode, hlast⟩ := hread
    cases hlast
    exact h.component hnode hkept
  next name parameters hframe =>
    -- only a call begins a call, and its body is dropped
    rw [hframe, Option.map_some] at hmould
    split at hmould
    · cases hmould
    · have hcall : Tag.render = opening.tag := Option.some.inj (congrArg Mould.tag? (Option.some.inj hmould))
      rw [← hcall] at htag
      cases htag
  next =>
    cases hread
    exact (zero_add _).symm

include back

theorem readNodes {stop : TokenKind → Bool} (hread : callee.readNodes stop place = some (nodes, after))
    (hkept : Undropped place.ahead) : place.Yields nodes after := by
  simp only [Procedures.readNodes, Option.bind_eq_bind, Option.bind_eq_some_iff, Prod.exists] at hread
  obtain ⟨gathered, last, hrounds, hlast⟩ := hread
  cases hlast
  have hsum := rounds interpolationsIn back.nodesRound h.nodesRound hrounds hkept
  rw [interpolationsIn_nil, zero_add] at hsum
  unfold Place.Yields
  rw [interpolationsIn_reverse]
  exact hsum

theorem readConditional (hread : callee.readConditional opening place = some (node, after))
    (hkept : Undropped place.ahead) : place.Yields [node] after := by
  unfold Procedures.readConditional at hread
  split at hread
  · cases hread
    exact (zero_add _).symm
  · simp only [Option.bind_eq_bind, Option.bind_eq_some_iff, Prod.exists] at hread
    obtain ⟨arms, last, hrounds, hlast⟩ := hread
    cases hlast
    have hsum := rounds Arms.interpolations back.armRound h.armRound hrounds hkept
    unfold Place.Yields
    rw [Arms.interpolations_node]
    exact (zero_add _).symm.trans hsum

theorem readComponent {kind : ComponentKind}
    (hread : callee.readComponent kind opening place = some (node, after)) (hkept : Undropped place.ahead) :
    place.Yields [node] after := by
  unfold Procedures.readComponent at hread
  split at hread
  · cases hread
    exact (zero_add _).symm
  · simp only [Option.bind_eq_bind, Option.bind_eq_some_iff, Prod.exists] at hread
    obtain ⟨filling, last, hrounds, hlast⟩ := hread
    cases hlast
    have hsum := rounds Filling.interpolations back.partRound h.partRound hrounds hkept
    unfold Place.Yields
    rw [Filling.interpolations_node]
    exact (zero_add _).symm.trans hsum

end Procedures.Keep

theorem Procedures.keep_within (room : Nat) : (within room).Keep := by
  induction room with
  | zero =>
      constructor
      all_goals
        intros
        contradiction
  | succ room ih =>
      have back := comeBack_within room
      exact ⟨ih.readNodes back, ih.readBlock, ih.readBody, ih.readNode, ih.readNested, ih.readTag,
        ih.readConditional back, ih.readComponent back⟩

/-- Whatever the tokens are, if none opens or closes a tag whose body is dropped, they are all read, and the
interpolations in the tree are those of the tokens. -/
theorem interpolations_kept {tokens : List Token} (h : Undropped tokens) :
    (Procedures.within (8 * maxDepth)).nodes (fun _ => false) ⟨tokens, [], 0⟩ =
      some ((Tree.ofTokens tokens).children, ⟨[], [], 0⟩) ∧
    interpolationsIn (Tree.ofTokens tokens).children = interpolationsOf tokens := by
  have hnodes := Procedures.nodes_within (by decide : 7 * maxDepth + 2 ≤ 8 * maxDepth) tokens
  have hyields : interpolationsOf tokens = interpolationsIn (nodesOf tokens) + interpolationsOf [] :=
    (Procedures.keep_within _).nodes hnodes h
  exact ⟨hnodes, ((add_zero _).symm.trans hyields.symm)⟩

/-- A conditional that is closed while a slot of a card in it is open, and a layout that adopts what follows,
a closing tag that belongs to nothing included. -/
def tangle : List Token := [
  ⟨.opening false .ifTag [⟨"condition", "on"⟩] "", 0, 1⟩, ⟨.interpolation "a", 0, 1⟩,
  ⟨.opening false .elseTag [] "", 0, 1⟩, ⟨.opening false .includeTag [⟨"component", "card"⟩] "", 0, 1⟩,
  ⟨.opening false .slot [⟨"name", "top"⟩] "", 0, 1⟩, ⟨.interpolation "b", 0, 1⟩, ⟨.closing .ifTag "", 0, 1⟩,
  ⟨.opening true .layout [⟨"name", "page"⟩] "", 0, 1⟩, ⟨.interpolation "c", 0, 1⟩,
  ⟨.closing .nav "</Nav>", 0, 1⟩, ⟨.interpolation "a", 0, 1⟩]

theorem interpolations_kept_tangle :
    (Tree.ofTokens tangle).children =
      [.conditional [("on", [.interpolation "a"])]
        (some [.component ⟨.direct, "card", none, none, []⟩ [] [("top", [.interpolation "b"])]]),
       .layout "page" [.interpolation "c", .text "</Nav>", .interpolation "a"]] ∧
    interpolationsIn (Tree.ofTokens tangle).children = ↑["a", "b", "c", "a"] := by
  have hkept : Undropped tangle := by
    unfold Undropped
    decide
  exact ⟨rfl, (interpolations_kept hkept).2⟩

end Stencil.Markup
