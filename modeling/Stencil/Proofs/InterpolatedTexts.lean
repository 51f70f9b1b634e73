import Stencil.Proofs.EncodedOutput
import Stencil.Proofs.Nesting.Delimiting
import Stencil.Proofs.Rendering.Slots
import Stencil.Proofs.Resolution.Likeness

/-!
The two ways in which a text with interpolations is read. A page is scanned into tokens, which become the nodes of
a tree; an attribute is searched for the braces of one interpolation after another. Where a text has neither tags
nor comments, both find the same interpolations, and what they leave between them is the same text. So without
encoding they give the same output, or the same fault.
-/

namespace Stencil

open Text Markup

/-- No braces open in a run of plain text, so a text with a run before it is cut behind the run. -/
theorem Text.cut?_plain {run : List Char} (hrun : ∀ c ∈ run, isPlain c = true) (rest : List Char) :
    cut? ['{', '{'] (run ++ rest) = (cut? ['{', '{'] rest).map fun parts => (run ++ parts.1, parts.2) := by
  induction run with
  | nil => exact Option.map_id'.symm
  | cons c run ih =>
      obtain ⟨hc, hrun⟩ := List.forall_mem_cons.1 hrun
      have hbrace : ¬ ['{', '{'] <+: c :: (run ++ rest) := by
        intro hstarts
        obtain ⟨rfl, -⟩ := List.cons_prefix_cons.1 hstarts
        cases hc
      rw [List.cons_append, cut?_cons (List.cons_ne_nil _ _) hbrace, ih hrun, Option.map_map]
      rfl

namespace Markup

/-- Whether a piece is a tag. -/
def Piece.isTag : Piece → Bool
  | .opening _ _ _ _ | .closing _ _ => true
  | _ => false

/-- Merging leaves every tag. -/
theorem mem_mergePieces {ps : List Piece} {piece : Piece} (hmem : piece ∈ ps) (htag : piece.isTag = true) :
    piece ∈ mergePieces ps := by
  induction ps with
  | nil => cases hmem
  | cons first rest ih =>
      change piece ∈ consPiece first (mergePieces rest)
      rcases consPiece_cases first (mergePieces rest) with ⟨run, more, others, rfl, hrest, heq⟩ | ⟨heq, -⟩
      · rw [heq]
        rcases List.mem_cons.1 hmem with rfl | hmem
        · cases htag
        · have hmerged := ih hmem
          rw [hrest] at hmerged
          rcases List.mem_cons.1 hmerged with rfl | hmerged
          · cases htag
          · exact List.mem_cons_of_mem _ hmerged
      · rw [heq]
        exact List.mem_cons.2 ((List.mem_cons.1 hmem).imp_right ih)

/-- A source in which no tag is found is cut into no tags. -/
theorem isTag_mergePieces {source : String} (h : ∀ token ∈ scan source, token.tagSource? = none) :
    ∀ piece ∈ mergePieces (pieces source.toList), piece.isTag = false := by
  intro piece hmem
  have hkind : piece.kind ∈ (scan source).map Token.kind := by
    rw [scan, map_kind_locate]
    exact List.mem_map_of_mem hmem
  obtain ⟨token, htoken, heq⟩ := List.mem_map.1 hkind
  have hnone := h token htoken
  unfold Token.tagSource? at hnone
  rw [heq] at hnone
  cases piece with
  | opening | closing => cases hnone
  | _ => rfl

theorem isTag_pieces {source : String} (h : ∀ token ∈ scan source, token.tagSource? = none) :
    ∀ piece ∈ pieces source.toList, piece.isTag = false := by
  intro piece hmem
  by_contra htag
  rw [Bool.not_eq_false] at htag
  exact Bool.false_ne_true ((isTag_mergePieces h piece (mem_mergePieces hmem htag)).symm.trans htag)

/-- Where no construct begins, no braces open, or they open and nothing closes them. -/
theorem braces_of_unconstructed {c : Char} {rest : List Char} (h : construct? (c :: rest) = none) :
    ¬ ['{', '{'] <+: c :: rest ∨ ∃ after, c = '{' ∧ rest = '{' :: after ∧ cut? ['}', '}'] after = none := by
  by_cases hbraces : ['{', '{'] <+: c :: rest
  · obtain ⟨after, hafter⟩ := hbraces
    obtain ⟨rfl, rfl⟩ := List.cons.inj hafter
    refine .inr ⟨after, rfl, rfl, ?_⟩
    change interpolation? after = none at h
    simpa only [interpolation?, Option.bind_eq_bind, Option.bind_eq_none_iff, Prod.forall, reduceCtorEq,
      imp_false, ← Option.eq_none_iff_forall_ne_some] using h
  · exact .inl hbraces

/-- Only comments and tags begin with `<`. -/
theorem not_angle_of_construct? {c : Char} {rest after : List Char} {piece : Piece}
    (h : construct? (c :: rest) = some (piece, after)) (htag : piece.isTag = false)
    (uncommented : ¬ "<!--".toList <+: c :: rest) : c ≠ '<' := by
  rintro rfl
  unfold construct? at h
  split at h
  next heq => cases heq
  next behind heq => exact uncommented ⟨behind, heq.symm⟩
  next =>
    simp only [closingTag?, Option.bind_eq_bind, Option.bind_eq_some_iff] at h
    obtain ⟨tag, -, h⟩ := h
    split at h
    · cases h
      cases htag
    · cases h
  next =>
    simp only [openingTag?, Option.bind_eq_bind, Option.bind_eq_some_iff] at h
    obtain ⟨tag, -, body, -, heq⟩ := h
    cases heq
    cases htag
  next => cases h

section Leaves

/-- The node that a piece writes if it is no tag. -/
def Piece.leaf (piece : Piece) : Node := (Token.mk piece.kind 0 0).leaf

theorem readAll_of_untagged {ps : List Piece} (h : ∀ piece ∈ ps, piece.isTag = false) (stack : Stack) :
    stack.readAll ps = stack.addAll (ps.map Piece.leaf) := by
  induction ps generalizing stack with
  | nil => rfl
  | cons piece rest ih =>
      obtain ⟨htag, hrest⟩ := List.forall_mem_cons.1 h
      have hread : stack.readPiece piece = stack.add piece.leaf := by
        cases piece with
        | opening | closing => cases htag
        | _ => rfl
      rw [Stack.readAll_cons, hread, ih hrest]
      rfl

/-- Where no tag is found, the tree has the interpolations and the runs of text between them. -/
theorem children_ofSource_of_untagged {source : String} (h : ∀ token ∈ scan source, token.tagSource? = none) :
    (Tree.ofSource source).children =
      (pushAll ((mergePieces (pieces source.toList)).map Piece.leaf) []).reverse := by
  change ((scan source).foldl Stack.read {}).toNodes = _
  rw [scan, Stack.foldl_read_locate, readAll_of_untagged (isTag_mergePieces h), Stack.toNodes_addAll]

end Leaves

end Markup

namespace Resolver

variable (r : Resolver)

/-- Pieces with the interpolations among them replaced by the texts of their values. -/
def fillPieces : List Piece → Resolving (List Char)
  | [] => return []
  | .interpolation body :: rest => do
      let value ← resolve r body
      let following ← fillPieces rest
      return (value.map Value.text).getD [] ++ following
  | piece :: rest => do
      let following ← fillPieces rest
      return piece.source ++ following

theorem fillPieces_text (run : List Char) (rest : List Piece) :
    r.fillPieces (.text run :: rest) = do
      let following ← r.fillPieces rest
      return run ++ following := rfl

theorem fillPieces_congr {ps qs : List Piece} (h : r.fillPieces ps = r.fillPieces qs) (piece : Piece) :
    r.fillPieces (piece :: ps) = r.fillPieces (piece :: qs) := by
  cases piece with
  | _ => simp only [fillPieces, h]

/-- Plain text is the same whether it is merged or not. -/
theorem fillPieces_mergePieces (ps : List Piece) : r.fillPieces (mergePieces ps) = r.fillPieces ps := by
  induction ps with
  | nil => rfl
  | cons piece rest ih =>
      change r.fillPieces (consPiece piece (mergePieces rest)) = _
      rw [← fillPieces_congr r ih]
      rcases consPiece_cases piece (mergePieces rest) with ⟨run, more, others, rfl, hrest, heq⟩ | ⟨heq, -⟩
      · rw [heq, hrest]
        simp only [fillPieces_text, bind_assoc, pure_bind, List.append_assoc]
      · rw [heq]

/-- Text before the first braces is written as it is. -/
theorem interpolateText_append {run rest : List Char}
    (h : cut? ['{', '{'] (run ++ rest) =
      (cut? ['{', '{'] rest).map fun parts => (run ++ parts.1, parts.2)) :
    interpolateText r (run ++ rest) = do
      let following ← interpolateText r rest
      return run ++ following := by
  cases hopened : cut? ['{', '{'] rest with
  | none =>
      rw [hopened] at h
      rw [interpolateText_of_unopened h, interpolateText_of_unopened hopened, pure_bind]
  | some parts =>
      obtain ⟨before, after⟩ := parts
      rw [hopened] at h
      cases hclosed : cut? ['}', '}'] after with
      | none =>
          rw [interpolateText_of_unclosed h hclosed, interpolateText_of_unclosed hopened hclosed, pure_bind]
      | some inside =>
          obtain ⟨inner, behind⟩ := inside
          rw [interpolateText_of_closed h hclosed, interpolateText_of_closed hopened hclosed]
          simp only [bind_assoc, pure_bind, List.append_assoc]

/-- Where nothing closes an interpolation, the text is written as it is. -/
theorem interpolateText_of_unended {text : List Char} (h : cut? ['}', '}'] text = none) :
    interpolateText r text = pure text := by
  cases hopened : cut? ['{', '{'] text with
  | none => exact interpolateText_of_unopened hopened
  | some parts =>
      obtain ⟨before, after⟩ := parts
      refine interpolateText_of_unclosed hopened (cut?_eq_none_of_suffix (List.cons_ne_nil _ _) h ?_)
      rw [cut?_append hopened]
      exact List.suffix_append _ _

/-- A run of plain text where no construct begins is written as it is. -/
theorem interpolateText_plain {c : Char} {rest : List Char} (h : construct? (c :: rest) = none) :
    interpolateText r (c :: rest) = do
      let following ← interpolateText r (rest.dropWhile isPlain)
      return c :: rest.takeWhile isPlain ++ following := by
  rcases braces_of_unconstructed h with hbraces | ⟨after, rfl, rfl, hunclosed⟩
  · have hsplit : c :: rest = c :: rest.takeWhile isPlain ++ rest.dropWhile isPlain :=
      congrArg (c :: ·) List.takeWhile_append_dropWhile.symm
    rw [hsplit] at hbraces ⊢
    apply interpolateText_append r
    rw [List.cons_append] at hbraces ⊢
    rw [cut?_cons (List.cons_ne_nil _ _) hbraces, cut?_plain fun c hmem => List.mem_takeWhile_imp hmem,
      Option.map_map]
    rfl
  · -- the scanner goes on behind the first brace, and nothing closes what it finds there either
    have hend {s : List Char} (hs : cut? ['}', '}'] s = none) : cut? ['}', '}'] ('{' :: s) = none := by
      rw [cut?_cons (List.cons_ne_nil _ _) (by simp), hs, Option.map_none]
    rw [interpolateText_of_unended r (hend (hend hunclosed))]
    change _ = (do
      let following ← interpolateText r ('{' :: after)
      return '{' :: following)
    rw [interpolateText_of_unended r (hend hunclosed), pure_bind]

/-- The pieces of a text give what the text gives where it has neither comments nor tags. -/
theorem fillPieces_pieces {s : List Char} (uncommented : ¬ "<!--".toList <:+: s)
    (untagged : ∀ piece ∈ pieces s, piece.isTag = false) :
    r.fillPieces (pieces s) = interpolateText r s := by
  fun_induction pieces s with
  | case1 => exact (interpolateText_of_unopened rfl).symm
  | case2 c rest piece after h ih =>
      obtain ⟨htag, untagged⟩ := List.forall_mem_cons.1 untagged
      have hangle : c ≠ '<' :=
        not_angle_of_construct? h htag fun hstarts => uncommented hstarts.isInfix
      have hsuffix : after <:+ c :: rest := ⟨piece.source, construct?_append h⟩
      have hafter := ih (fun hwithin => uncommented (hwithin.trans hsuffix.isInfix)) untagged
      obtain ⟨inside, body, hs, hcut, rfl⟩ := interpolation_of_construct? hangle h
      have hopened : cut? ['{', '{'] (c :: rest) = some ([], inside) :=
        (cut?_eq_some_iff (List.cons_ne_nil _ _)).2 ⟨hs, isFirst_nil _ _⟩
      rw [fillPieces, hafter, interpolateText_of_closed hopened hcut]
      rfl
  | case3 c rest h ih =>
      obtain ⟨-, untagged⟩ := List.forall_mem_cons.1 untagged
      have hsuffix : rest.dropWhile isPlain <:+ c :: rest :=
        (List.dropWhile_suffix _).trans (List.suffix_cons _ _)
      rw [fillPieces_text, ih (fun hwithin => uncommented (hwithin.trans hsuffix.isInfix)) untagged,
        interpolateText_plain r h]

end Resolver

namespace Render

variable {σ : Type} (renderer : Renderer σ)

section Resolving

variable {α β : Type}

theorem resolving_pure (value : α) : resolving renderer (fun _ => pure value) = pure value := rfl

/-- A resolution may be cut into steps of the render. -/
theorem resolving_bind (first : Resolver → Resolving α) (next : Resolver → α → Resolving β) :
    resolving renderer (fun r => first r >>= next r) =
      resolving renderer first >>= fun value => resolving renderer fun r => next r value := by
  funext scope frame
  rw [bind_run]
  rcases hfirst : Resolver.outcome (first ⟨renderer.security, renderer.host, renderer.ownFilters,
    renderer.sharedFilters, frame.vars⟩) frame.memory with ⟨fault | value, memory⟩
  · rw [resolving_run hfirst]
    exact resolving_run (Resolver.outcome_bind_error hfirst (next _))
  · rw [resolving_run hfirst]
    exact resolving_run (Resolver.outcome_bind_ok hfirst (next _))

end Resolving

section Unencoded

variable (unencoded : renderer.security.encoding =
  { htmlEncode := false, stripTags := false, scriptEncode := false })

include unencoded

/-- Without encoding, the text of a value is written as it is. -/
theorem interpolation_unencoded (body : List Char) :
    interpolation renderer (String.ofList (Text.trim body)) = do
      let value ← resolving renderer fun r => r.resolve body
      return String.ofList ((value.map Value.text).getD []) := by
  have hresolve : resolve renderer (String.ofList (Text.trim body)) =
      resolving renderer fun r => r.resolve body := by
    unfold resolve Resolver.resolve
    rw [String.toList_ofList, Text.trim_trim]
  unfold interpolation
  rw [hresolve, unencoded]
  congr 1
  funext value
  cases value with
  | none => rfl
  | some value =>
      change pure (String.ofList value.display.toList) = _
      rw [String.ofList_toList]
      rfl

/-- The nodes of pieces that are no tags render to what the pieces give. -/
theorem ofNodes_leaves (entrances : Entrances σ) {ps : List Piece}
    (untagged : ∀ piece ∈ ps, piece.isTag = false) :
    ofNodes renderer entrances (ps.map Piece.leaf) = do
      return String.ofList (← resolving renderer fun r => r.fillPieces ps) := by
  induction ps with
  | nil => rfl
  | cons piece rest ih =>
      obtain ⟨htag, hrest⟩ := List.forall_mem_cons.1 untagged
      rw [List.map_cons, ofNodes, ih hrest]
      cases piece with
      | text run =>
          change (do
            let first ← pure (String.ofList run)
            let others ← _
            return first ++ others) = _
          simp only [Resolver.fillPieces_text, resolving_bind, resolving_pure, bind_assoc, pure_bind,
            String.ofList_append]
      | interpolation body =>
          change (do
            let first ← interpolation renderer (String.ofList (Text.trim body))
            let others ← _
            return first ++ others) = _
          simp only [interpolation_unencoded renderer unencoded, Resolver.fillPieces, resolving_bind,
            resolving_pure, bind_assoc, pure_bind, String.ofList_append]
      | opening | closing => cases htag

/-- Where a source has neither comments nor tags and nothing is encoded, its tree renders to what the source gives
as the text of an attribute: the same output or fault, and the same frame after it. -/
theorem ofNodes_ofSource_interpolated {source : String} (uncommented : ¬ "<!--".toList <:+: source.toList)
    (untagged : ∀ token ∈ scan source, token.tagSource? = none) (entrances : Entrances σ) :
    ofNodes renderer entrances (Tree.ofSource source).children = interpolate renderer source := by
  rw [children_ofSource_of_untagged untagged, ofNodes_pushAll, List.reverse_nil, List.nil_append,
    ofNodes_leaves renderer unencoded entrances (isTag_mergePieces untagged)]
  simp only [Resolver.fillPieces_mergePieces, Resolver.fillPieces_pieces _ uncommented (isTag_pieces untagged)]
  unfold interpolate Resolver.interpolate
  simp only [resolving_bind, resolving_pure]

end Unencoded

/-- The greeter without any encoding. -/
def plainGreeter : Renderer Unit :=
  { greeter with security := { encoding := { htmlEncode := false, stripTags := false, scriptEncode := false } } }

/-- Braces in all states: closed, one too many, and left open, with what looks like a tag between them. -/
def braced : String :=
  "\x7b\x7b name \x7d\x7d, <if>\x7b\x7b\x7b name \x7d\x7d\x7d <Card/> \x7b\x7b name"

theorem ofNodes_ofSource_interpolated_braced :
    (scan braced).map Token.kind =
      [.interpolation "name", .text ", <if>", .interpolation "\x7b name",
        .text "\x7d <Card/> \x7b\x7b name"] ∧
    ofNodes plainGreeter ⟨none, none⟩ (Tree.ofSource braced).children = interpolate plainGreeter braced := by
  have untagged : ∀ token ∈ scan braced, token.tagSource? = none := by decide +kernel
  exact ⟨by decide +kernel,
    ofNodes_ofSource_interpolated plainGreeter rfl (by decide) untagged ⟨none, none⟩⟩

end Render

end Stencil
