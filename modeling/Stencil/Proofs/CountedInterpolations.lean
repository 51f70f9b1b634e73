import Stencil.Proofs.Acceptance
import Stencil.Proofs.KeptInterpolations
import Stencil.Proofs.Markup.Runs

/-!
The gate counts opening braces where it finds them, two at a time, in plain text, tags and comments alike; the
scanner looks for them only where its last piece ended. However the braces run on, each interpolation that is
scanned has a pair of its own among those counted, and reading the tokens adds none. So what the gate accepts
has no more interpolations than it allows, neither among the tokens nor in the tree.
-/

namespace Stencil.Markup

open Text Gate

section Openings

/-- One more character in front, and the count stays or grows by one. -/
theorem countOpenings_cons (c : Char) (s : List Char) :
    countOpenings s ≤ countOpenings (c :: s) ∧ countOpenings (c :: s) ≤ countOpenings s + 1 := by
  induction s generalizing c with
  | nil =>
      have hnone : countOpenings [] = 0 := rfl
      have hone : countOpenings [c] = 0 := by
        rw [countOpenings]
        · rfl
        · simp
      omega
  | cons d rest ih =>
      by_cases hpair : c = '{' ∧ d = '{'
      · obtain ⟨rfl, rfl⟩ := hpair
        have hrest := ih '{'
        rw [countOpenings]
        omega
      · have hskip : countOpenings (c :: d :: rest) = countOpenings (d :: rest) := by
          rw [countOpenings]
          rintro _ rfl heq
          cases heq
          exact hpair ⟨rfl, rfl⟩
        omega

/-- A text has at least the openings of its parts: the count from the left finds as many as any other. -/
theorem countOpenings_append (first second : List Char) :
    countOpenings first + countOpenings second ≤ countOpenings (first ++ second) := by
  fun_induction countOpenings first with
  | case1 rest ih =>
      rw [List.cons_append, List.cons_append, countOpenings]
      omega
  | case2 c rest hskip ih =>
      have hlonger := (countOpenings_cons c (rest ++ second)).1
      rw [List.cons_append]
      omega
  | case3 =>
      rw [List.nil_append]
      omega

def Piece.isInterpolation : Piece → Bool
  | .interpolation _ => true
  | _ => false

/-- An interpolation begins with a pair of braces. -/
theorem countOpenings_source (piece : Piece) :
    (if piece.isInterpolation then 1 else 0) ≤ countOpenings piece.source := by
  cases piece with
  | interpolation body =>
      rw [Piece.source, countOpenings]
      exact Nat.le_add_left 1 _
  | _ => exact Nat.zero_le _

theorem countP_pieces (s : List Char) : (pieces s).countP Piece.isInterpolation ≤ countOpenings s := by
  fun_induction pieces s with
  | case1 => exact Nat.zero_le _
  | case2 c rest piece after h ih =>
      have hpiece := countOpenings_source piece
      have hparts := countOpenings_append piece.source after
      rw [construct?_append h] at hparts
      rw [List.countP_cons]
      omega
  | case3 c rest h ih =>
      have hparts := countOpenings_append (c :: rest.takeWhile isPlain) (rest.dropWhile isPlain)
      rw [List.cons_append, List.takeWhile_append_dropWhile] at hparts
      rw [List.countP_cons_of_neg Bool.false_ne_true]
      omega

theorem countP_mergePieces (ps : List Piece) :
    (mergePieces ps).countP Piece.isInterpolation = ps.countP Piece.isInterpolation := by
  induction ps with
  | nil => rfl
  | cons piece rest ih =>
      change (consPiece piece (mergePieces rest)).countP Piece.isInterpolation = _
      rw [List.countP_cons, ← ih]
      rcases consPiece_cases piece (mergePieces rest) with
        ⟨first, second, others, rfl, hrest, heq⟩ | ⟨heq, -⟩
      · rw [heq, hrest]
        rfl
      · rw [heq, List.countP_cons]

theorem card_interpolationsOf_locate (offset line : Nat) (ps : List Piece) :
    (interpolationsOf (locate offset line ps)).card = ps.countP Piece.isInterpolation := by
  have hlength : ((locate offset line ps).filterMap Token.interpolation?).length =
      ps.countP Piece.isInterpolation := by
    induction ps generalizing offset line with
    | nil => rfl
    | cons piece rest ih =>
        have hrest := ih (offset + byteSize piece.source) (line + piece.source.count '\n')
        rw [locate, List.filterMap_cons, List.countP_cons, ← hrest]
        cases piece with
        | interpolation body => exact List.length_cons
        | _ => rfl
  exact hlength

/-- The tokens have no more interpolations than the gate counts. -/
theorem card_interpolationsOf_scan (source : String) :
    (interpolationsOf (scan source)).card ≤ countOpenings source.toList := by
  unfold scan
  rw [card_interpolationsOf_locate, countP_mergePieces]
  exact countP_pieces source.toList

end Openings

section Reading

/-- The interpolations that wait in open constructs or stand at the top. -/
def Stack.interpolations (stack : Stack) : Multiset String :=
  interpolationsIn (stack.frames.flatMap Frame.held) + interpolationsIn stack.nodes

theorem Stack.interpolations_cons (frame : Frame) (outer : List Frame) (nodes : List Node) :
    (Stack.mk (frame :: outer) nodes).interpolations =
      interpolationsIn frame.held + (Stack.mk outer nodes).interpolations := by
  unfold Stack.interpolations
  rw [List.flatMap_cons, interpolationsIn_append, add_assoc]

/-- A finished construct has at most what waited in it. -/
theorem Frame.interpolations_node? (frame : Frame) :
    interpolationsIn frame.node?.toList ≤ interpolationsIn frame.held := by
  cases frame with
  | body construct children =>
      cases construct with
      | bodyPlace => exact Multiset.zero_le _
      | strayParameter => exact Multiset.zero_le _
      | _ =>
          apply le_of_eq
          exact (interpolationsIn_tag rfl rfl).trans (interpolationsIn_reverse children)
  | adopting layout children =>
      apply le_of_eq
      exact (interpolationsIn_tag rfl rfl).trans (interpolationsIn_reverse children)
  | conditional arms => exact le_of_eq arms.interpolations_node
  | component filling => exact le_of_eq filling.interpolations_node
  | slotContent name children => exact Multiset.zero_le _
  | parameterBody => exact Multiset.zero_le _
  | call name parameters => exact Multiset.zero_le _

theorem Frame.interpolations_add (node : Node) (frame : Frame) :
    interpolationsIn (frame.add node).held ≤ interpolationsIn [node] + interpolationsIn frame.held := by
  cases frame with
  | body construct children => exact le_of_eq (interpolationsIn_addNode node children)
  | adopting layout children => exact le_of_eq (interpolationsIn_addNode node children)
  | slotContent name children => exact le_of_eq (interpolationsIn_addNode node children)
  | conditional arms =>
      apply le_of_eq
      simp only [Frame.add, Frame.held, interpolationsIn_append, interpolationsIn_addNode]
      ac_rfl
  | component filling =>
      apply le_of_eq
      simp only [Frame.add, Frame.held, interpolationsIn_append, interpolationsIn_addNode]
      ac_rfl
  | parameterBody => exact Multiset.zero_le _
  | call name parameters => exact Multiset.zero_le _

namespace Stack

variable (stack : Stack)

theorem interpolations_add (node : Node) :
    (stack.add node).interpolations ≤ interpolationsIn [node] + stack.interpolations := by
  obtain ⟨_ | ⟨frame, outer⟩, nodes⟩ := stack
  · apply le_of_eq
    exact (congrArg (0 + ·) (interpolationsIn_addNode node nodes)).trans (add_left_comm ..)
  · rw [Stack.add, interpolations_cons, interpolations_cons, ← add_assoc]
    exact add_le_add_left (frame.interpolations_add node) _

theorem interpolations_add_text (source : String) :
    (stack.add (.text source)).interpolations ≤ stack.interpolations := by
  have hadd := stack.interpolations_add (.text source)
  rw [interpolationsIn_text, zero_add] at hadd
  exact hadd

theorem interpolations_add? (node : Option Node) :
    (stack.add? node).interpolations ≤ interpolationsIn node.toList + stack.interpolations := by
  cases node with
  | none => exact le_of_eq (zero_add _).symm
  | some node => exact stack.interpolations_add node

theorem interpolations_fill (name : String) (body : List Node) :
    (stack.fill name body).interpolations ≤ interpolationsIn body + stack.interpolations := by
  fun_cases Stack.fill name body stack with
  | case1 filling outer nodes =>
      apply le_of_eq
      rw [interpolations_cons, interpolations_cons, ← add_assoc]
      exact congrArg (· + _) (filling.interpolations_fill name body)
  | case2 => exact Multiset.le_add_left _ _

theorem interpolations_finish : stack.finish.interpolations ≤ stack.interpolations := by
  fun_cases Stack.finish stack with
  | case1 => exact le_refl _
  | case2 name children outer nodes =>
      have hfill := (Stack.mk outer nodes).interpolations_fill name children.reverse
      rw [interpolationsIn_reverse] at hfill
      rw [interpolations_cons]
      exact hfill
  | case3 frame outer nodes =>
      rw [interpolations_cons]
      calc (Stack.add? frame.node? ⟨outer, nodes⟩).interpolations
          ≤ interpolationsIn frame.node?.toList + (Stack.mk outer nodes).interpolations :=
            (Stack.mk outer nodes).interpolations_add? frame.node?
        _ ≤ interpolationsIn frame.held + (Stack.mk outer nodes).interpolations :=
            add_le_add_left frame.interpolations_node? _

theorem interpolations_finishMany (count : Nat) :
    (stack.finishMany count).interpolations ≤ stack.interpolations := by
  induction count generalizing stack with
  | zero => exact le_refl _
  | succ count ih => exact (ih stack.finish).trans stack.interpolations_finish

theorem interpolations_close (tag : Tag) (source : String) :
    (stack.close tag source).interpolations ≤ stack.interpolations := by
  unfold Stack.close
  split
  · exact stack.interpolations_finishMany _
  · split
    · exact le_refl _
    · exact stack.interpolations_add_text source

/-- A construct begins with nothing in it. -/
theorem interpolations_begin (selfClosing : Bool) {frame : Frame} (hheld : frame.held = []) :
    (stack.begin selfClosing frame).interpolations ≤ stack.interpolations := by
  unfold Stack.begin
  cases selfClosing with
  | true =>
      have hnode := frame.interpolations_node?
      rw [hheld, interpolationsIn_nil] at hnode
      calc (stack.add? frame.node?).interpolations
          ≤ interpolationsIn frame.node?.toList + stack.interpolations := stack.interpolations_add? frame.node?
        _ ≤ 0 + stack.interpolations := add_le_add_left hnode _
        _ = stack.interpolations := zero_add _
  | false =>
      apply le_of_eq
      refine (interpolations_cons frame stack.frames stack.nodes).trans ?_
      rw [hheld, interpolationsIn_nil, zero_add]

theorem interpolations_openNested (selfClosing : Bool) (tag : Tag) (attributes : List Attribute)
    (source : String) :
    (stack.openNested selfClosing tag attributes source).interpolations ≤ stack.interpolations := by
  unfold Stack.openNested
  split
  · exact stack.interpolations_add_text source
  split
  next frame hframe =>
    split
    · apply le_of_eq
      exact (interpolations_cons _ stack.frames stack.nodes).trans (zero_add _)
    · exact stack.interpolations_begin selfClosing (held_frameOf? hframe)
  next => exact stack.interpolations_add_text source

/-- The innermost construct read on, with the same nodes in it. -/
theorem interpolations_goOn {frame frame' : Frame} {outer : List Frame} (hframes : stack.frames = frame :: outer)
    (hheld : interpolationsIn frame'.held = interpolationsIn frame.held) :
    (Stack.mk (frame' :: outer) stack.nodes).interpolations = stack.interpolations := by
  obtain ⟨frames, nodes⟩ := stack
  obtain rfl : frames = frame :: outer := hframes
  rw [interpolations_cons, interpolations_cons, hheld]

theorem interpolations_openTag (selfClosing : Bool) (tag : Tag) (attributes : List Attribute)
    (source : String) :
    (stack.openTag selfClosing tag attributes source).interpolations ≤ stack.interpolations := by
  fun_cases Stack.openTag selfClosing tag attributes source stack with
  | case1 arms frames hframes =>
      exact le_of_eq (stack.interpolations_goOn hframes arms.interpolations_endArm)
  | case2 arms frames hframes =>
      exact le_of_eq (stack.interpolations_goOn hframes arms.interpolations_endArm)
  | case3 filling frames hframes =>
      refine (interpolations_begin _ selfClosing rfl).trans (le_of_eq ?_)
      exact stack.interpolations_goOn hframes rfl
  | case4 filling frames hframes hclosed =>
      have hfill := stack.interpolations_fill (slotNameOf attributes) []
      rw [interpolationsIn_nil, zero_add] at hfill
      exact hfill
  | case5 filling frames hframes hopened => exact stack.interpolations_begin false rfl
  | case6 name parameters frames hframes =>
      refine (interpolations_begin _ selfClosing rfl).trans (le_of_eq ?_)
      exact stack.interpolations_goOn hframes rfl
  | case7 => exact stack.interpolations_openNested selfClosing tag attributes source

/-- A token adds at most its own interpolation. -/
theorem interpolations_read (token : Token) :
    (stack.read token).interpolations ≤ stack.interpolations + interpolationsOf [token] := by
  obtain ⟨kind, offset, line⟩ := token
  cases kind with
  | text source =>
      have hnone : interpolationsOf [⟨.text source, offset, line⟩] = 0 := rfl
      rw [hnone, add_zero]
      exact stack.interpolations_add_text source
  | interpolation expression =>
      rw [add_comm]
      exact stack.interpolations_add (.interpolation expression)
  | opening selfClosing tag attributes source =>
      have hnone : interpolationsOf [⟨.opening selfClosing tag attributes source, offset, line⟩] = 0 := rfl
      rw [hnone, add_zero]
      exact stack.interpolations_openTag selfClosing tag attributes source
  | closing tag source =>
      have hnone : interpolationsOf [⟨.closing tag source, offset, line⟩] = 0 := rfl
      rw [hnone, add_zero]
      exact stack.interpolations_close tag source

/-- All tokens together add at most theirs. -/
theorem interpolations_foldl_read (tokens : List Token) :
    (tokens.foldl Stack.read stack).interpolations ≤ stack.interpolations + interpolationsOf tokens := by
  induction tokens generalizing stack with
  | nil => exact le_of_eq (add_zero _).symm
  | cons token rest ih =>
      have hsplit : interpolationsOf (token :: rest) = interpolationsOf [token] + interpolationsOf rest := by
        unfold interpolationsOf
        rw [← List.singleton_append, List.filterMap_append, Multiset.coe_add]
      calc (rest.foldl Stack.read (stack.read token)).interpolations
          ≤ (stack.read token).interpolations + interpolationsOf rest := ih (stack.read token)
        _ ≤ stack.interpolations + interpolationsOf [token] + interpolationsOf rest :=
            add_le_add_left (stack.interpolations_read token) _
        _ = stack.interpolations + interpolationsOf (token :: rest) := by rw [hsplit, add_assoc]

end Stack

/-- Whatever is dropped on the way, the tree has no interpolation that the tokens do not have. -/
theorem interpolationsIn_nodesOf (tokens : List Token) :
    interpolationsIn (nodesOf tokens) ≤ interpolationsOf tokens := by
  have hfinished := (tokens.foldl Stack.read {}).interpolations_finishMany
    (tokens.foldl Stack.read {}).frames.length
  have hread := Stack.interpolations_foldl_read {} tokens
  unfold nodesOf Stack.toNodes
  rw [interpolationsIn_reverse]
  calc interpolationsIn ((tokens.foldl Stack.read {}).finishMany _).nodes
      ≤ ((tokens.foldl Stack.read {}).finishMany _).interpolations := Multiset.le_add_left _ _
    _ ≤ (tokens.foldl Stack.read {}).interpolations := hfinished
    _ ≤ 0 + interpolationsOf tokens := hread
    _ = interpolationsOf tokens := zero_add _

end Reading

/-- What the gate accepts has at most as many interpolations as are allowed, among its tokens and in its
tree. -/
theorem interpolations_limited {security : Security} {source : String}
    (haccepted : checkTemplate security source = .ok ()) :
    (interpolationsOf (scan source)).card ≤ security.limits.interpolations ∧
    (interpolationsIn (Tree.ofSource source).children).card ≤ security.limits.interpolations := by
  have hcounted : countOpenings source.toList ≤ security.limits.interpolations :=
    (accepted_iff.1 haccepted).2.1
  have htokens := (card_interpolationsOf_scan source).trans hcounted
  have htree := Multiset.card_le_card (interpolationsIn_nodesOf (scan source))
  exact ⟨htokens, htree.trans htokens⟩

/-- Braces that run on, a pair of them in a comment, and one in a body that is dropped. -/
def bracedPage : String :=
  "{{{a}}}<!-- {{b}} --><Include component='card'><Param name='p'>{{c}}</Param>{{d}}</Include>{{{{e}}}}"

/-- The page opens six pairs of braces by the count of the gate, which is just allowed; the scanner finds four
interpolations, and the tree has three. -/
theorem interpolations_limited_braced :
    checkTemplate { limits := { interpolations := 6 } } bracedPage = .ok () ∧
    (interpolationsOf (scan bracedPage)).card ≤ 6 ∧
    (interpolationsIn (Tree.ofSource bracedPage).children).card ≤ 6 := by
  have haccepted : checkTemplate { limits := { interpolations := 6 } } bracedPage = .ok () :=
    accepted_iff.2 (by decide +kernel)
  exact ⟨haccepted, interpolations_limited haccepted⟩

end Stencil.Markup
