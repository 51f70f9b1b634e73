import Stencil.Proofs.Rendering.Entrances
import Stencil.Proofs.Rendering.Steps
import Stencil.Render.Tree

/-!
What a render can write. The output is put together from the texts of the templates, from encoded
values and from diagnostics, however often a piece is carried from one template to another on its
way. So a property that these have, and that joining keeps, is a property of every output.
-/

namespace Stencil

open Markup

variable {σ α : Type}

/-- Every place of a text with a character of a class has a property, which may speak of the text
before the place and behind it. -/
def PlacesHave (marks : Char → Bool) (here : List Char → Char → List Char → Prop) (text : String) :
    Prop :=
  ∀ before c after, text.toList = before ++ c :: after → marks c = true → here before c after

section

variable {marks : Char → Bool} {here : List Char → Char → List Char → Prop}

theorem placesHave_of_unmarked {text : String} (h : ∀ c ∈ text.toList, marks c = false) :
    PlacesHave marks here text := by
  intro before c after htext hc
  have hmem : c ∈ text.toList := by
    rw [htext]
    exact List.mem_append_right _ (List.mem_cons_self ..)
  rw [h c hmem] at hc
  cases hc

/-- What is true of places however much text stands around is true of the places of joined texts. -/
theorem PlacesHave.append
    (extend : ∀ {before c after}, here before c after → ∀ left right,
      here (left ++ before) c (after ++ right))
    {first second : String} (hfirst : PlacesHave marks here first)
    (hsecond : PlacesHave marks here second) : PlacesHave marks here (first ++ second) := by
  intro before c after htext hc
  rw [String.toList_append] at htext
  rcases List.append_eq_append_iff.1 htext with ⟨inside, rfl, hinside⟩ | ⟨inside, hfront, hback⟩
  · have h := extend (hsecond inside c after hinside hc) first.toList []
    rw [List.append_nil] at h
    exact h
  · cases inside with
    | nil =>
        have h := extend (hsecond [] c after hback.symm hc) first.toList []
        rw [List.append_nil, List.append_nil, hfront, List.append_nil] at h
        exact h
    | cons d rest =>
        cases hback
        exact extend (hfirst before c rest hfront hc) [] second.toList

end

/-- A property of all that a renderer writes besides the texts of the page: it survives joining, and
no callback gets at the output. -/
structure Renderer.Writes (renderer : Renderer σ) (P : String → Prop) : Prop where
  empty : P ""
  append : ∀ {first second}, P first → P second → P (first ++ second)
  value : ∀ text, P (Gate.encodeOutput renderer.security.encoding text)
  diagnostic : ∀ message, P (Render.diagnostic message)
  loaded : ∀ path state tree, (renderer.loader.load path state).1 = .ok (some tree) →
    TextsHave P tree.children
  unhooked : renderer.hooks.after = none

namespace Render

variable {renderer : Renderer σ} {P : String → Prop} (writes : renderer.Writes P) {scope : Scope}

include writes

theorem holds_join {pieces : List String} (h : ∀ piece ∈ pieces, P piece) :
    P (String.join pieces) := by
  induction pieces with
  | nil => exact writes.empty
  | cons piece rest ih =>
      rw [String.join_cons]
      exact writes.append (h piece (List.mem_cons_self ..))
        (ih fun other hmem => h other (List.mem_cons_of_mem _ hmem))

theorem yields_interpolation (expression : String) :
    Yields P scope P (interpolation renderer expression) := by
  refine (yields_resolving renderer _).bind fun value _ => ?_
  cases value with
  | none => exact keeps_pure writes.empty
  | some value => exact keeps_pure (writes.value value.display)

omit writes in
theorem yields_conditional {otherwise : Render σ String} (hotherwise : Yields P scope P otherwise)
    {branches : List (String × Render σ String)}
    (h : ∀ branch ∈ branches, Yields P scope P branch.2) :
    Yields P scope P (conditional renderer otherwise branches) := by
  induction branches with
  | nil => exact hotherwise
  | cons branch rest ih =>
      refine (keeps_liftExcept _).bind fun _ _ => ?_
      refine (yields_resolving renderer _).bind fun value _ => ?_
      split
      · exact h branch (List.mem_cons_self ..)
      · exact ih fun other hmem => h other (List.mem_cons_of_mem _ hmem)

omit writes in
theorem yields_startIteration : Yields P scope (fun _ => True) (startIteration renderer) := by
  refine keeps_get.bind fun frame _ => ?_
  dsimp only
  split
  · exact keeps_throw _
  · exact Keeps.bind (keeps_modify fun frame hframe => hframe) fun _ _ => yields_note _

theorem yields_loop (item collection : String) {body : Render σ String}
    (hbody : Yields P scope P body) : Yields P scope P (loop renderer item collection body) := by
  refine (yields_resolving renderer _).bind fun value _ => ?_
  split
  · exact keeps_pure writes.empty
  next elements _ =>
    have hpieces : Yields P scope (fun pieces => ∀ piece ∈ pieces, P piece)
        (elements.mapM fun element => do
          startIteration renderer
          modify fun frame => { frame with vars := frame.vars.insert item element }
          body) :=
      Keeps.mapM fun element _ => yields_startIteration.bind fun _ _ =>
        Keeps.bind (keeps_modify fun frame hframe => hframe) fun _ _ => hbody
    refine Keeps.keeping ?_ (fun _ hframe => hframe) fun before after _ hafter => hafter
    refine (yields_note _).bind fun _ _ => ?_
    exact hpieces.bind fun pieces hall => keeps_pure (holds_join writes hall)

omit writes in
theorem yields_parameterValues (parameters : List Parameter) :
    Yields P scope (fun _ => True) (parameterValues renderer parameters) := by
  have hvalues : Yields P scope (fun values => ∀ value ∈ values, True)
      (parameterValues renderer parameters) :=
    Keeps.mapM fun parameter _ => (yields_resolving renderer _).bind fun _ _ => keeps_pure trivial
  exact hvalues.mono fun _ _ => trivial

theorem yields_call (hscope : scope.Has P) {enter : Option (List Node → Render σ String)}
    (henter : ∀ way ∈ enter, ∀ nodes, TextsHave P nodes → Yields P scope P (way nodes))
    (name : String) (parameters : List Parameter) :
    Yields P scope P (call renderer enter name parameters) := by
  refine keeps_read.bind fun seen hseen => ?_
  subst hseen
  split
  · exact keeps_pure (writes.diagnostic _)
  next body hbody =>
    split
    · exact keeps_throw _
    next way =>
      refine Keeps.keeping ?_ (fun _ hframe => hframe) fun before after _ hafter => hafter
      refine Keeps.bind (keeps_modify fun frame hframe => hframe) fun _ _ => ?_
      refine keeps_get.bind fun frame _ => (yields_note _).bind fun _ _ => ?_
      refine (yields_parameterValues parameters).bind fun values _ => ?_
      refine Keeps.bind (keeps_modify fun frame hframe => hframe) fun _ _ => ?_
      exact henter way rfl body (hscope.fragments _ (mem_of_lookup hbody))

omit writes in
/-- What is rendered while sections are collected, and the sections. -/
theorem yields_collecting {step : Render σ String} (h : Yields P scope P step) :
    Yields P scope (fun result => P result.1 ∧ ∀ entry ∈ result.2, P entry.2) (collecting step) := by
  refine Keeps.keeping ?_ (fun _ hframe => hframe) fun before after hbefore _ => hbefore
  refine Keeps.bind (keeps_modify fun frame _ sections hsections => ?_) fun _ _ => ?_
  · cases hsections
    exact fun entry hmem => absurd hmem List.not_mem_nil
  · refine h.bind fun body hbody => keeps_get.bind fun frame hframe => ?_
    refine keeps_pure ⟨hbody, fun entry hmem => ?_⟩
    cases hsections : frame.sections with
    | none =>
        rw [hsections] at hmem
        exact absurd hmem List.not_mem_nil
    | some sections =>
        rw [hsections] at hmem
        exact hframe sections hsections entry hmem

omit writes in
theorem mem_addSection {name content : String} {sections : List (String × String)}
    {entry : String × String} (h : entry ∈ addSection name content sections) :
    entry ∈ sections ∨ entry = (name, content) := by
  unfold addSection at h
  split at h
  · exact Or.inl h
  · exact (List.mem_append.1 h).imp id List.mem_singleton.1

theorem yields_sectionContent (name : String) {content : Render σ String}
    (h : Yields P scope P content) : Yields P scope P (sectionContent name content) := by
  refine keeps_get.bind fun frame _ => ?_
  split
  · exact h
  · refine h.bind fun rendered hrendered => ?_
    refine Keeps.bind (keeps_modify fun frame hframe sections hsections entry hmem => ?_)
      fun _ _ => keeps_pure writes.empty
    obtain ⟨old, hold, rfl⟩ := Option.map_eq_some_iff.1 hsections
    rcases mem_addSection hmem with hkept | rfl
    · exact hframe old hold entry hkept
    · exact hrendered

theorem yields_sectionPlace (hscope : scope.Has P) (name : String) (required : Bool)
    {default : Render σ String} (h : Yields P scope P default) :
    Yields P scope P (sectionPlace name required default) := by
  refine keeps_read.bind fun seen hseen => ?_
  subst hseen
  split
  next content hcontent => exact keeps_pure (hscope.sections _ (mem_of_lookup hcontent))
  next =>
    split
    · exact keeps_pure (writes.diagnostic _)
    · exact h

theorem yields_bodyPlace (hscope : scope.Has P) :
    Yields P scope P (bodyPlace : Render σ String) := by
  refine keeps_read.bind fun seen hseen => ?_
  subst hseen
  refine keeps_pure ?_
  cases hbody : seen.body with
  | none => exact writes.empty
  | some body => exact hscope.body body hbody

omit writes in
theorem yields_slotPlace (hscope : scope.Has P) (name : String) {default : Render σ String}
    (h : Yields P scope P default) : Yields P scope P (slotPlace name default) := by
  refine keeps_read.bind fun seen hseen => ?_
  subst hseen
  split
  next content hcontent => exact keeps_pure (hscope.slots _ (mem_of_lookup hcontent))
  next => exact h

theorem yields_load (path : String) :
    Yields P scope (fun found => ∀ tree ∈ found, TextsHave P tree.children) (load renderer path) := by
  refine fun frame hframe => ⟨hframe, fun found heq tree hmem => ?_⟩
  obtain rfl : found = some tree := hmem
  exact writes.loaded path frame.loaded tree heq

omit writes in
/-- The fragments of a tree have the texts of the tree. -/
theorem textsHave_fragments {tree : Tree} (h : TextsHave P tree.children) :
    ∀ fragment ∈ (Scope.of tree).fragments, TextsHave P fragment.2 :=
  fun fragment hmem => textsHave_iff.2 (Scope.throughout_of (textsHave_iff.1 h) fragment hmem)

theorem yields_layout {enter : Option (Tree → Render σ String)}
    (henter : ∀ way ∈ enter, ∀ (tree : Tree) (scope : Scope), TextsHave P tree.children →
      scope.Has P → Yields P scope P (way tree))
    (name : String) {children : Render σ String} (h : Yields P scope P children) :
    Yields P scope P (layout renderer enter name children) := by
  refine (yields_resolving renderer _).bind fun name _ => ?_
  refine (yields_collecting h).bind fun result hresult => ?_
  obtain ⟨body, sections⟩ := result
  dsimp only
  split
  · exact keeps_pure hresult.1
  next name' _ =>
    refine (yields_load writes name').bind fun found hfound => ?_
    split
    · exact keeps_pure hresult.1
    next tree =>
      split
      · exact keeps_pure (writes.append (writes.diagnostic _) hresult.1)
      next way =>
        refine keeps_get.bind fun frame _ => Yields.inside ?_
        refine henter way rfl tree _ (hfound tree rfl) ?_
        exact ⟨textsHave_fragments (hfound tree rfl), hresult.2,
          fun body' hbody => Option.some.inj hbody ▸ hresult.1,
          fun slot hslot => absurd hslot List.not_mem_nil⟩

omit writes in
theorem yields_announce (descriptor : Descriptor) :
    Yields P scope (fun _ => True) (announce renderer descriptor) := by
  unfold announce
  split
  · exact keeps_pure trivial
  · refine (yields_note _).bind fun _ _ => keeps_get.bind fun frame hframe => ?_
    exact Keeps.bind (keeps_set hframe) fun _ _ => keeps_pure trivial

omit writes in
theorem yields_slotContents {slots : List (String × Render σ String)}
    (h : ∀ slot ∈ slots, Yields P scope P slot.2) :
    Yields P scope (fun contents => ∀ content ∈ contents, P content.2) (slotContents slots) := by
  unfold slotContents
  have step (slot) (hslot : slot ∈ slots) :
      Yields P scope (fun content : String × String => P content.2) (do
        let rendered ← slot.2
        return (Text.lowercase slot.1, rendered)) :=
    (h slot hslot).bind fun rendered hrendered => keeps_pure hrendered
  refine (Keeps.mapM step).bind fun contents hall => keeps_pure fun content hmem => ?_
  exact hall content (List.mem_reverse.1 hmem)

omit writes in
theorem yields_optionMapM (text : Option String) :
    Yields P scope (fun _ => True) (text.mapM (interpolate renderer)) := by
  cases text with
  | none => exact keeps_pure trivial
  | some text => exact (yields_resolving renderer _).bind fun _ (_ : True) => keeps_pure trivial

theorem yields_inclusion {enter : Tree → Render σ String}
    (henter : ∀ (tree : Tree) (scope : Scope), TextsHave P tree.children → scope.Has P →
      Yields P scope P (enter tree))
    (head : ComponentHead) {slots : List (String × Render σ String)}
    (h : ∀ slot ∈ slots, Yields P scope P slot.2) :
    Yields P scope P (inclusion renderer enter head slots) := by
  refine Keeps.keeping ?_ (fun _ hframe => hframe) fun before after _ hafter => hafter
  refine (yields_resolving renderer _).bind fun path _ => ?_
  refine (yields_optionMapM head.name).bind fun name _ => ?_
  refine (yields_optionMapM head.oldName).bind fun oldName _ => ?_
  refine (yields_announce _).bind fun changed _ => ?_
  refine (yields_load writes path).bind fun found hfound => ?_
  split
  · exact keeps_pure writes.empty
  next tree =>
    refine (yields_parameterValues _).bind fun values _ => keeps_get.bind fun frame _ => ?_
    refine (yields_slotContents h).bind fun contents hcontents => ?_
    have hscope : Scope.Has P { Scope.of tree with slots := contents } :=
      ⟨textsHave_fragments (hfound tree rfl), fun entry hentry => absurd hentry List.not_mem_nil,
        (fun body hbody => nomatch hbody), hcontents⟩
    refine Keeps.bind (Yields.inside (henter tree _ (hfound tree rfl) hscope)) fun output houtput => ?_
    rw [writes.unhooked]
    exact keeps_pure houtput

theorem yields_component {enter : Option (Tree → Render σ String)}
    (henter : ∀ way ∈ enter, ∀ (tree : Tree) (scope : Scope), TextsHave P tree.children →
      scope.Has P → Yields P scope P (way tree))
    (head : ComponentHead) {slots : List (String × Render σ String)}
    (h : ∀ slot ∈ slots, Yields P scope P slot.2) :
    Yields P scope P (component renderer enter head slots) := by
  unfold component
  split
  · exact keeps_pure (writes.diagnostic _)
  next way =>
    exact (yields_inclusion writes (henter way rfl) head h).catching fun fault =>
      keeps_pure (writes.diagnostic _)

/-- Every way into a body or a tree gives outputs with the property. -/
structure Entrances.Keep (P : String → Prop) (entrances : Entrances σ) : Prop where
  body : ∀ way ∈ entrances.body, ∀ (scope : Scope) (nodes : List Node), scope.Has P →
    TextsHave P nodes → Yields P scope P (way nodes)
  tree : ∀ way ∈ entrances.tree, ∀ (tree : Tree) (scope : Scope), TextsHave P tree.children →
    scope.Has P → Yields P scope P (way tree)

/-- Nodes give outputs with the property if their texts have it: one case for each kind of node. -/
theorem yields_nodes {entrances : Entrances σ} (keep : entrances.Keep P) (hscope : scope.Has P) :
    (∀ node, TextsHave P [node] → Yields P scope P (ofNode renderer entrances node)) ∧
    (∀ bodies : List (String × List Node), (∀ body ∈ bodies, TextsHave P body.2) →
      ∀ step ∈ ofBodies renderer entrances bodies, Yields P scope P step.2) ∧
    (∀ nodes, TextsHave P nodes → Yields P scope P (ofNodes renderer entrances nodes)) := by
  apply ofNode.mutual_induct
  · intro source h
    exact keeps_pure (h source (List.mem_cons_self ..))
  · intro expression h
    exact yields_interpolation writes expression
  · intro tag attributes children ih h
    exact ih h.inside
  · intro branches ih h
    exact yields_conditional (keeps_pure writes.empty) (ih (textsHave_bodies h.inside))
  · intro branches otherwise hotherwise hbranches h
    have hinside := h.inside
    simp only [Node.inside, List.mem_append, or_imp, forall_and] at hinside
    exact yields_conditional (hotherwise hinside.2) (hbranches (textsHave_bodies hinside.1))
  · intro item collection children ih h
    exact yields_loop writes item collection (ih h.inside)
  · intro head defaultSlot slots hdefault hslots h
    have hinside := h.inside
    simp only [Node.inside, List.mem_append, or_imp, forall_and] at hinside
    refine yields_component writes keep.tree head fun slot hmem => ?_
    rcases List.mem_append.1 hmem with hmem | hmem
    · split at hmem
      · exact absurd hmem List.not_mem_nil
      · rw [List.mem_singleton.1 hmem]
        exact hdefault hinside.1
    · exact hslots (textsHave_bodies hinside.2) slot hmem
  · intro name children ih h
    exact yields_layout writes keep.tree name (ih h.inside)
  · intro name children ih h
    exact yields_sectionContent writes name (ih h.inside)
  · intro name required default ih h
    exact yields_sectionPlace writes hscope name required (ih h.inside)
  · intro h
    exact yields_bodyPlace writes hscope
  · intro name default ih h
    exact yields_slotPlace hscope name (ih h.inside)
  · intro name body h
    exact keeps_pure writes.empty
  · intro name parameters h
    exact yields_call writes hscope (fun way hway nodes => keep.body way hway scope nodes hscope) name
      parameters
  -- lists of nodes
  · intro h
    exact keeps_pure writes.empty
  · intro node rest hnode hrest h
    obtain ⟨hfirst, hothers⟩ := textsHave_cons.1 h
    refine (hnode hfirst).bind fun first hfirst => (hrest hothers).bind fun others hothers => ?_
    exact keeps_pure (writes.append hfirst hothers)
  -- lists of bodies
  · intro h step hmem
    exact absurd hmem List.not_mem_nil
  · intro name body rest hbody hrest h step hmem
    rcases List.mem_cons.1 hmem with rfl | hmem
    · exact hbody (h _ (List.mem_cons_self ..))
    · exact hrest (fun other hother => h other (List.mem_cons_of_mem _ hother)) step hmem

/-- However many inclusions and calls may still be opened, what is entered gives outputs with the
property. -/
theorem keep_entrancesLeft (inclusions calls : Nat) :
    (entrancesLeft renderer inclusions calls).Keep P := by
  refine @entrancesLeft_induction σ σ renderer renderer (fun entrances _ => entrances.Keep P)
    (fun hbody htree => ?_) inclusions calls
  constructor
  · intro way hway scope nodes hscope h
    cases hbody with
    | none => cases hway
    | some keep =>
        obtain rfl := Option.some.inj hway
        exact (yields_nodes writes keep hscope).2.2 nodes h
  · intro way hway tree scope h hscope
    cases htree with
    | none => cases hway
    | some keep =>
        obtain rfl := Option.some.inj hway
        exact (yields_nodes writes keep hscope).2.2 tree.children h

/-- A property that the texts of the page and of every tree that can be loaded have, and all that a
renderer writes by itself, is a property of every output. -/
theorem output_has {page : Tree} (h : TextsHave P page.children) {vars store : Variables}
    {memory : Memory} {loaded : σ} {output : String}
    (hrun : (run renderer page vars store memory loaded).output = .ok output) : P output := by
  have hscope : (Scope.of page).Has P :=
    ⟨textsHave_fragments h, fun entry hentry => absurd hentry List.not_mem_nil,
      (fun body hbody => nomatch hbody), fun slot hslot => absurd hslot List.not_mem_nil⟩
  have keep := keep_entrancesLeft writes renderer.security.limits.includeDepth
    renderer.security.limits.recursionDepth
  have hnodes := (yields_nodes writes keep hscope).2.2 page.children h
  obtain ⟨-, hanswer⟩ := hnodes { vars, store, memory, loaded } fun _ hnone => nomatch hnone
  exact hanswer output hrun

end Render

end Stencil
