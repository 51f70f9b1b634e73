import Stencil.Proofs.Acceptance
import Stencil.Proofs.EncodedOutput
import Stencil.Proofs.Markup.Reading
import Stencil.Proofs.Markup.Runs
import Stencil.Proofs.Matching

/-!
Inline scripts in an output. The gate looks for the tag of a script in the source of a template, and an
output is put together from runs of plain text, from encoded values and from diagnostics. No piece has
the whole tag in it, so a script that an output has nevertheless is put together at a seam: a run of
plain text ends inside the name of the tag, and something else goes on with it.
-/

namespace Stencil

open Text Markup

namespace Gate

/-- Whether the name of a tag is that of a script, in any case of its letters, and ends as a word. -/
def IsScript (name after : List Char) : Prop :=
  asciiLower name = "script".toList ∧ wordBound name.getLast? after.head? = true

/-- A template that passes the gate has no tag of a script in it, wherever it stands. -/
theorem not_isScript_of_accepted {security : Security} {source : String}
    (forbidden : security.allowInlineScripts = false) (accepted : checkTemplate security source = .ok ())
    {before name after : List Char} (hsource : source.toList = before ++ '<' :: (name ++ after)) :
    ¬ IsScript name after := by
  rintro ⟨hname, hbound⟩
  have hnone : inlineScript? source.toList = none := by
    rcases (accepted_iff.1 accepted).2.2.2 with hallowed | hnone
    · cases forbidden.symm.trans hallowed
    · exact hnone
  rw [inlineScript?, Option.or_eq_none_iff] at hnone
  have hword : Way.Matches (some '<') (Way.word "script" ++ [.bound]) (name ++ after) after := by
    refine matches_word hname (.bound ?_ (.done _ _))
    cases hlast : name.getLast? with
    | none =>
        rw [List.getLast?_eq_none_iff.1 hlast] at hname
        cases hname
    | some last =>
        rw [hlast] at hbound
        exact hbound
  exact Pattern.find?_complete hnone.1 hsource (List.mem_singleton_self _) after (.one rfl hword)

theorem eq_or_eq_of_toLower {c : Char} (h : c.toLower = 't') : c = 't' ∨ c = 'T' := by
  unfold Char.toLower at h
  split at h
  next hupper =>
    have hcode : c.val + ('a'.val - 'A'.val) = 't'.val := congrArg Char.val h
    exact Or.inr (Char.ext ((UInt32.add_left_inj ('a'.val - 'A'.val)).1 hcode))
  next => exact Or.inl h

/-- The name of a script ends in a letter, so any other character ends the word. -/
theorem isScript_of_not_isWord {name after : List Char} (hname : asciiLower name = "script".toList)
    (hafter : after.head?.any isWord = false) : IsScript name after := by
  have hlast : name.getLast?.map Char.toLower = some 't' := by
    rw [← List.getLast?_map]
    exact congrArg List.getLast? hname
  obtain ⟨last, hlast, hlower⟩ := Option.map_eq_some_iff.1 hlast
  have hword : isWord last = true := by
    rcases eq_or_eq_of_toLower hlower with rfl | rfl
    · decide
    · decide
  refine ⟨hname, ?_⟩
  rw [wordBound, hlast, hafter, Option.any_some, hword]
  rfl

end Gate

namespace Markup

theorem leaf_inside (token : Token) : token.leaf.inside = [] := by
  unfold Token.leaf
  split <;> rfl

/-- The texts of a tree have a property that joining keeps if what its tokens write has it. -/
theorem textsHave_ofSource {P : String → Prop}
    (append : ∀ {first second}, P first → P second → P (first ++ second)) {source : String}
    (h : ∀ token ∈ scan source, ∀ written, token.leaf = .text written → P written) :
    TextsHave P (Tree.ofSource source).children := by
  have builds : Builds (fun _ node => TextsHave P [node]) maxDepth := {
    join := fun hfirst hsecond text hmem => by
      obtain rfl : text = _ := by simpa [preorder, Node.inside] using hmem
      exact append (hfirst _ (List.mem_cons_self ..)) (hsecond _ (List.mem_cons_self ..))
    nest := fun _ htag hchildren => textsHave_tag htag hchildren }
  have hleaf : ∀ token ∈ scan source, TextsHave P [token.leaf] := by
    intro token hmem text htext
    rw [preorder_singleton] at htext
    rcases List.mem_cons.1 htext with hself | hinside
    · exact h token hmem text hself.symm
    · rcases leaf_inside token ▸ hinside
  have hnodes := nodesOf_have_of_maxDepth builds (Nat.le_refl _) fun token hmem _ => hleaf token hmem
  intro text htext
  obtain ⟨node, hnode, hmem⟩ := mem_preorder.1 htext
  exact hnodes node hnode text hmem

end Markup

namespace Render

/-- A place in an output that a template has written: the text around it begins and ends with what
stands around the place in the template. -/
def IsWritten (templates : String → Prop) (before : List Char) (c : Char) (after : List Char) : Prop :=
  ∃ source token written front behind, templates source ∧ token ∈ scan source ∧
    token.leaf = .text written ∧ written.toList = front ++ c :: behind ∧
    front <:+ before ∧ behind <+: after

/-- The places where a tag of a template can begin in an output. A comment begins with an exclamation
mark. -/
def CanOpen (templates : String → Prop) (before : List Char) (c : Char) (after : List Char) : Prop :=
  after.head? = some '!' ∨ IsWritten templates before c after

variable {templates : String → Prop}

theorem CanOpen.extend {before after : List Char} {c : Char} (h : CanOpen templates before c after)
    (left right : List Char) : CanOpen templates (left ++ before) c (after ++ right) := by
  rcases h with hmark | ⟨source, token, written, front, behind, hsource, htoken, hleaf, hwritten,
    hbefore, hafter⟩
  · obtain ⟨rest, rfl⟩ := List.head?_eq_some_iff.1 hmark
    exact Or.inl rfl
  · exact Or.inr ⟨source, token, written, front, behind, hsource, htoken, hleaf, hwritten,
      hbefore.trans (List.suffix_append ..), hafter.trans (List.prefix_append ..)⟩

/-- The only `<` of a diagnostic is that of its comment. -/
theorem openings_diagnostic (message : String) :
    PlacesHave (· == '<') (CanOpen templates) (diagnostic message) := by
  intro before c after htext hc
  obtain rfl : c = '<' := by simpa using hc
  rw [toList_diagnostic] at htext
  have hopening : diagnosticOpening = '<' :: '!' :: "-- tessera: ".toList := rfl
  rw [hopening] at htext
  cases before with
  | nil =>
      cases htext
      exact Or.inl rfl
  | cons d rest =>
      have hrest : '!' :: "-- tessera: ".toList ++ (Gate.escapeHtml message.toList ++
          diagnosticClosing) = rest ++ '<' :: after := (List.cons.inj htext).2
      have hmem : '<' ∈ '!' :: "-- tessera: ".toList ++
          (Gate.escapeHtml message.toList ++ diagnosticClosing) := by
        rw [hrest]
        exact List.mem_append_right _ (List.mem_cons_self ..)
      rcases List.mem_append.1 hmem with hopened | hbehind
      · exact absurd hopened (by decide)
      · rcases List.mem_append.1 hbehind with hmessage | hclosing
        · cases Gate.not_isDelimiter_escapeHtml _ hmessage
        · exact absurd hclosing (by decide)

theorem openings_written {source written : String} {token : Token} (hsource : templates source)
    (htoken : token ∈ scan source) (hleaf : token.leaf = .text written) :
    PlacesHave (· == '<') (CanOpen templates) written := by
  intro before c after htext _
  exact Or.inr ⟨source, token, written, before, after, hsource, htoken, hleaf, htext,
    List.suffix_refl _, List.prefix_refl _⟩

variable {σ : Type} {renderer : Renderer σ}

/-- Every `<` of an output is written by a template or opens a comment. -/
theorem openings_output (encodes : renderer.security.encoding.htmlEncode = true)
    (unhooked : renderer.hooks.after = none) {page : String} (hpage : templates page)
    (loaded : ∀ path state tree, (renderer.loader.load path state).1 = .ok (some tree) →
      ∃ source, templates source ∧ tree = Tree.ofSource source)
    {vars store : Variables} {memory : Memory} {state : σ} {output : String}
    (hrun : (run renderer (Tree.ofSource page) vars store memory state).output = .ok output) :
    PlacesHave (· == '<') (CanOpen templates) output := by
  have htexts {source : String} (hsource : templates source) :
      TextsHave (PlacesHave (· == '<') (CanOpen templates)) (Tree.ofSource source).children :=
    textsHave_ofSource (PlacesHave.append CanOpen.extend) fun token htoken written hleaf =>
      openings_written hsource htoken hleaf
  have writes : renderer.Writes (PlacesHave (· == '<') (CanOpen templates)) := {
    empty := fun before c after htext => by simp at htext
    append := PlacesHave.append CanOpen.extend
    value := fun text => placesHave_of_unmarked fun c hmem => by
      rw [Gate.encodeOutput, String.toList_ofList] at hmem
      have hplain := Gate.not_isDelimiter_encode encodes _ c hmem
      simp only [Gate.isDelimiter, Bool.or_eq_false_iff] at hplain
      exact hplain.1.1.1
    diagnostic := openings_diagnostic
    loaded := fun path state tree hload => by
      obtain ⟨source, hsource, rfl⟩ := loaded path state tree hload
      exact htexts hsource
    unhooked }
  exact output_has writes (htexts hpage) hrun

/-- What a source without scripts writes of a script in an output ends inside the name. -/
theorem begun_of_written {source front behind right name after : List Char}
    (clean : ∀ before name after, source = before ++ '<' :: (name ++ after) →
      ¬ Gate.IsScript name after)
    (hsource : source = front ++ '<' :: (behind ++ right)) (hbehind : behind <+: name ++ after)
    (hscript : Gate.IsScript name after) : ∃ rest, name = behind ++ rest := by
  obtain ⟨later, hlater⟩ := hbehind
  rcases List.append_eq_append_iff.1 hlater with ⟨rest, hname, -⟩ | ⟨rest, rfl, rfl⟩
  · exact ⟨rest, hname⟩
  · cases rest with
    | nil => exact ⟨[], by rw [List.append_nil, List.append_nil]⟩
    | cons c rest =>
        rw [List.append_assoc] at hsource
        exact absurd hscript (clean front name (c :: rest ++ right) hsource)

theorem not_mem_of_isScript {name after : List Char} {c : Char} (hscript : Gate.IsScript name after)
    (hc : c.toLower ∉ "script".toList) : c ∉ name := by
  intro hmem
  have hlower : c.toLower ∈ asciiLower name := List.mem_map_of_mem hmem
  rw [hscript.1] at hlower
  exact hc hlower

theorem mem_of_append_eq_concat {front behind inner : List Char} {c d : Char} (hne : c ≠ d)
    (h : front ++ c :: behind = inner ++ [d]) : d ∈ behind := by
  rcases List.eq_nil_or_concat behind with rfl | ⟨begun, last, rfl⟩
  · exact absurd (List.singleton_inj.1 (List.append_inj' h rfl).2) hne
  · rw [List.concat_eq_append, ← List.cons_append, ← List.append_assoc] at h
    rw [← List.singleton_inj.1 (List.append_inj' h rfl).2, List.concat_eq_append]
    exact List.mem_append_right _ (List.mem_singleton_self _)

/-- A token that is kept as text is a tag or a run of plain text. -/
theorem kind_of_leaf {token : Token} {written : String} (hleaf : token.leaf = .text written)
    (htag : token.tagSource? ≠ some written) : token.kind = .text written := by
  obtain ⟨kind, offset, line⟩ := token
  cases kind with
  | text run =>
      cases hleaf
      rfl
  | interpolation expression => cases hleaf
  | opening selfClosing tag attributes source =>
      cases hleaf
      exact absurd rfl htag
  | closing tag source =>
      cases hleaf
      exact absurd rfl htag

/-- A tag that is kept as text has its closing mark in it, so only a run of plain text can end inside
the name of a script; an interpolation, a tag or the end of the source stands behind it. -/
theorem script_at_seam {source written : String} {token : Token}
    (clean : ∀ before name after, source.toList = before ++ '<' :: (name ++ after) →
      ¬ Gate.IsScript name after)
    (htoken : token ∈ scan source) (hleaf : token.leaf = .text written)
    {front behind name after : List Char} (hwritten : written.toList = front ++ '<' :: behind)
    (hbehind : behind <+: name ++ after) (hscript : Gate.IsScript name after) :
    token.kind = .text written ∧ ∃ rest, name = behind ++ rest ∧ rest ≠ [] := by
  have htag : token.tagSource? ≠ some written := by
    intro htag
    obtain ⟨⟨left, right, hsource⟩, inner, hinner⟩ := scan_tag htoken htag
    rw [hwritten, List.append_assoc, List.cons_append, ← List.append_assoc] at hsource
    obtain ⟨rest, rfl⟩ := begun_of_written clean hsource hbehind hscript
    have hmark : '>' ∈ behind := mem_of_append_eq_concat (by decide) (hwritten ▸ hinner)
    exact not_mem_of_isScript hscript (by decide) (List.mem_append_left rest hmark)
  have hkind := kind_of_leaf hleaf htag
  refine ⟨hkind, ?_⟩
  obtain ⟨left, right, hsource, hright⟩ := scan_text htoken hkind
  rw [hwritten, List.append_assoc, List.cons_append, ← List.append_assoc] at hsource
  obtain ⟨rest, hname⟩ := begun_of_written clean hsource hbehind hscript
  refine ⟨rest, hname, ?_⟩
  -- a name that the run completes would be a script in the source: a run ends before no letter
  rintro rfl
  rw [List.append_nil] at hname
  rw [← hname] at hsource
  refine clean _ name right hsource (Gate.isScript_of_not_isWord hscript.1 ?_)
  cases right with
  | nil => rfl
  | cons c rest =>
      rcases hright c rfl with rfl | rfl
      · exact (by decide : isWord '{' = false)
      · exact (by decide : isWord '<' = false)

/-- With encoding for markup and templates that pass the gate, a script in an output was begun by the
end of a run of plain text in one of the templates, which stops before the end of its name. -/
theorem script_begins_at_seam
    (accepted : ∀ source, templates source → ∃ security : Security,
      security.allowInlineScripts = false ∧ Gate.checkTemplate security source = .ok ())
    (encodes : renderer.security.encoding.htmlEncode = true)
    (unhooked : renderer.hooks.after = none) {page : String} (hpage : templates page)
    (loaded : ∀ path state tree, (renderer.loader.load path state).1 = .ok (some tree) →
      ∃ source, templates source ∧ tree = Tree.ofSource source)
    {vars store : Variables} {memory : Memory} {state : σ} {output : String}
    (hrun : (run renderer (Tree.ofSource page) vars store memory state).output = .ok output)
    {before name after : List Char} (hplace : output.toList = before ++ '<' :: (name ++ after))
    (hscript : Gate.IsScript name after) :
    ∃ source token run front begun rest, templates source ∧ token ∈ scan source ∧
      token.kind = .text run ∧ run.toList = front ++ '<' :: begun ∧ front <:+ before ∧
      name = begun ++ rest ∧ rest ≠ [] := by
  have hopening := openings_output encodes unhooked hpage loaded hrun
  rcases hopening before '<' (name ++ after) hplace rfl with
    hmark | ⟨source, token, written, front, behind, hsource, htoken, hleaf, hwritten, hfront, hbehind⟩
  · cases name with
    | nil => cases hscript.1
    | cons c rest =>
        obtain rfl : c = '!' := Option.some.inj hmark
        cases not_mem_of_isScript hscript (by decide) (List.mem_cons_self ..)
  · obtain ⟨security, forbidden, hgate⟩ := accepted source hsource
    obtain ⟨hrun, rest, hname, hrest⟩ := script_at_seam (fun before name after hplace =>
      Gate.not_isScript_of_accepted forbidden hgate hplace) htoken hleaf hwritten hbehind hscript
    exact ⟨source, token, written, front, behind, rest, hsource, htoken, hrun, hwritten, hfront,
      hname, hrest⟩

/-- A renderer that finds no other templates. -/
def alone : Renderer Unit where
  security := {}
  host := ⟨fun _ _ => none, fun _ _ => false, fun _ _ => none⟩
  ownFilters := {}
  sharedFilters := {}
  loader := ⟨fun _ => return none⟩
  hooks := {}

theorem load_alone (path : String) (state : Unit) (tree : Tree) :
    (alone.loader.load path state).1 ≠ .ok (some tree) :=
  fun hload => nomatch hload

/-- A page with an interpolation for the name of a tag. -/
def seam : String := "<{{ t }}>x"

theorem scan_seam : scan seam =
    [⟨.text "<", 0, 1⟩, ⟨.interpolation "t", 1, 1⟩, ⟨.text ">x", 8, 1⟩] := by
  decide +kernel

theorem accepted_seam : Gate.checkTemplate alone.security seam = .ok () :=
  Gate.accepted_iff.2 (by decide +kernel)

theorem output_seam : (run alone (Tree.ofSource seam) (.ofList [("t", .string "script")]) {} {}
    ()).output = .ok "<script>x" := by
  have hchildren : (Tree.ofSource seam).children = [.text "<", .interpolation "t", .text ">x"] := by
    change nodesOf (scan seam) = _
    rw [scan_seam]
    rfl
  have accepted : Gate.checkExpression alone.security "t" = .ok () :=
    Resolver.accepted_of_toBool (by decide +kernel)
  have houtput : Gate.encodeOutput alone.security.encoding (Value.string "script").display =
      "script" := by decide
  have hvalue (scope : Scope) (frame : Stencil.Frame Unit)
      (hvars : frame.vars = .ofList [("t", .string "script")]) :
      interpolation alone "t" scope frame = (.ok "script", { frame with memory :=
        { frame.memory with trail := .lookup "t" :: .expression "t" :: frame.memory.trail } }) := by
    have hbound : Resolver.direct? ⟨alone.security, alone.host, alone.ownFilters,
        alone.sharedFilters, frame.vars⟩ "t".toList = some (.string "script") := by
      rw [hvars]
      rfl
    rw [← houtput]
    exact interpolation_bound rfl rfl accepted rfl hbound rfl
  have hnodes (entrances : Entrances Unit) (scope : Scope) (frame : Stencil.Frame Unit)
      (hvars : frame.vars = .ofList [("t", .string "script")]) :
      (ofNodes alone entrances [.text "<", .interpolation "t", .text ">x"] scope frame).1 =
        .ok "<script>x" := by
    simp only [ofNodes, ofNode, bind_run, pure_run, hvalue _ _ hvars]
    exact congrArg Except.ok (by decide)
  unfold run ofTree
  rw [hchildren]
  exact hnodes _ _ _ rfl

theorem isScript_seam : Gate.IsScript "script".toList ">x".toList := ⟨by decide, by decide⟩

/-- The script of the page with a seam begins with the text before the interpolation. -/
theorem seam_begins_script :
    Gate.IsScript "script".toList ">x".toList ∧
    ∃ source token run front begun rest, source = seam ∧ token ∈ scan source ∧
      token.kind = .text run ∧ run.toList = front ++ '<' :: begun ∧ front <:+ [] ∧
      "script".toList = begun ++ rest ∧ rest ≠ [] := by
  have accepted : ∀ source, source = seam → ∃ security : Security,
      security.allowInlineScripts = false ∧ Gate.checkTemplate security source = .ok () := by
    rintro source rfl
    exact ⟨alone.security, rfl, accepted_seam⟩
  have hplace : "<script>x".toList = [] ++ '<' :: ("script".toList ++ ">x".toList) := by decide
  refine ⟨isScript_seam, ?_⟩
  exact @script_begins_at_seam (· = seam) Unit alone accepted rfl rfl seam rfl
    (fun path state tree hload => absurd hload (load_alone path state tree)) _ _ _ _ _ output_seam _ _ _
    hplace isScript_seam

/-- Not every output of templates that pass the gate is without scripts. -/
theorem not_scriptless_of_accepted :
    ¬ ∀ (renderer : Renderer Unit) (vars : Variables) (page output : String),
      renderer.security.allowInlineScripts = false →
      renderer.security.encoding.htmlEncode = true → renderer.hooks.after = none →
      Gate.checkTemplate renderer.security page = .ok () →
      (∀ path state tree, (renderer.loader.load path state).1 = .ok (some tree) →
        ∃ source, Gate.checkTemplate renderer.security source = .ok () ∧
          tree = Tree.ofSource source) →
      (run renderer (Tree.ofSource page) vars {} {} ()).output = .ok output →
      ∀ before name after, output.toList = before ++ '<' :: (name ++ after) →
        ¬ Gate.IsScript name after := by
  intro scriptless
  exact scriptless alone (.ofList [("t", .string "script")]) seam "<script>x" rfl rfl rfl accepted_seam
    (fun path state tree hload => absurd hload (load_alone path state tree)) output_seam [] _ _
    (by decide) isScript_seam

end Render

end Stencil
