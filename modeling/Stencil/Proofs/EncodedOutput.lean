import Stencil.Proofs.Rendering.Likeness
import Stencil.Proofs.Rendering.Output

/-!
Values cannot write markup. With encoding for markup, neither a value nor the text of a diagnostic has
a character of markup in it, whatever the other encodings do to it. Where the texts of the templates
have none either, such a character in an output stands in the delimiters of a diagnostic.
-/

namespace Stencil

open Text Markup

namespace Gate

/-- A character that tags and the values of attributes are delimited by. -/
def isDelimiter (c : Char) : Bool := c == '<' || c == '>' || c == '"' || c == '\''

theorem not_isDelimiter_of_all {s : List Char} (hall : (s.all fun c => !isDelimiter c) = true) :
    ∀ c ∈ s, isDelimiter c = false := by
  intro c hmem
  have hc := List.all_eq_true.1 hall c hmem
  rwa [Bool.not_eq_true'] at hc

theorem not_isDelimiter_of_entity? {c d : Char} (h : d ∈ (entity? c).getD [c]) :
    isDelimiter d = false := by
  unfold entity? at h
  split at h
  case h_6 hamp hless hmore hquote happ =>
    obtain rfl : d = c := List.mem_singleton.1 h
    simp only [isDelimiter, Bool.or_eq_false_iff, beq_eq_false_iff_ne]
    exact ⟨⟨⟨hless, hmore⟩, hquote⟩, happ⟩
  all_goals exact not_isDelimiter_of_all (by decide) d h

theorem not_isDelimiter_escapeHtml {s : List Char} : ∀ c ∈ escapeHtml s, isDelimiter c = false := by
  intro c hmem
  obtain ⟨d, -, hd⟩ := List.mem_flatMap.1 hmem
  exact not_isDelimiter_of_entity? hd

/-- Text for a script has only backslashes and the letters of escapes that were not there before. -/
theorem mem_escapeScript {s : List Char} {c : Char} (h : c ∈ escapeScript s) :
    c ∈ s ∨ c = '\\' ∨ c = 'n' ∨ c = 'r' := by
  induction s with
  | nil => exact absurd h List.not_mem_nil
  | cons d rest ih =>
      rw [escapeScript.eq_def] at h
      rcases List.mem_append.1 h with h | h
      · have hpiece : c = d ∨ c = '\\' ∨ c = 'n' ∨ c = 'r' := by grind
        rcases hpiece with rfl | hescape
        · exact Or.inl (List.mem_cons_self ..)
        · exact Or.inr hescape
      · exact (ih h).imp (List.mem_cons_of_mem _) id

theorem not_isDelimiter_encode {encoding : Encoding} (encodes : encoding.htmlEncode = true)
    (s : List Char) : ∀ c ∈ encode encoding s, isDelimiter c = false := by
  intro c hmem
  unfold encode at hmem
  rw [encodes] at hmem
  dsimp only at hmem
  split at hmem
  · rcases mem_escapeScript hmem with hmem | rfl | rfl | rfl
    · exact not_isDelimiter_escapeHtml c hmem
    · rfl
    · rfl
    · rfl
  · exact not_isDelimiter_escapeHtml c hmem

end Gate

namespace Render

def diagnosticOpening : List Char := "<!-- tessera: ".toList

def diagnosticClosing : List Char := " -->".toList

theorem toList_diagnostic (message : String) : (diagnostic message).toList =
    diagnosticOpening ++ (Gate.escapeHtml message.toList ++ diagnosticClosing) := by
  have hmessage : (String.ofList (Gate.escapeHtml message.toList)).toList =
    Gate.escapeHtml message.toList := String.toList_ofList
  rw [diagnostic, String.toList_append, String.toList_append, hmessage, List.append_assoc]
  rfl

/-- A place in a text that lies in one of the two delimiters of a diagnostic there. The text before and
after the place is given. -/
def InDiagnosticDelimiter (before : List Char) (c : Char) (after : List Char) : Prop :=
  ∃ front inside behind back message, before = front ++ inside ∧ after = behind ++ back ∧
    (diagnostic message).toList = inside ++ c :: behind ∧
    (inside.length < diagnosticOpening.length ∨ behind.length < diagnosticClosing.length)

theorem InDiagnosticDelimiter.extend {before after : List Char} {c : Char}
    (h : InDiagnosticDelimiter before c after) (left right : List Char) :
    InDiagnosticDelimiter (left ++ before) c (after ++ right) := by
  obtain ⟨front, inside, behind, back, message, rfl, rfl, hmessage, hplace⟩ := h
  exact ⟨left ++ front, inside, behind, back ++ right, message, (List.append_assoc ..).symm,
    List.append_assoc .., hmessage, hplace⟩

/-- An output in which every character of markup lies in the delimiters of a diagnostic. -/
def IsGuarded (output : String) : Prop :=
  ∀ before c after, output.toList = before ++ c :: after → Gate.isDelimiter c = true →
    InDiagnosticDelimiter before c after

def IsPlainText (text : String) : Prop := ∀ c ∈ text.toList, Gate.isDelimiter c = false

theorem IsPlainText.isGuarded {text : String} (h : IsPlainText text) : IsGuarded text :=
  placesHave_of_unmarked h

theorem IsGuarded.append {first second : String} (hfirst : IsGuarded first)
    (hsecond : IsGuarded second) : IsGuarded (first ++ second) :=
  PlacesHave.append InDiagnosticDelimiter.extend hfirst hsecond

/-- What stands neither in the front nor in the back of a text stands in the middle. -/
theorem mem_middle {front middle back before after : List Char} {c : Char}
    (h : front ++ (middle ++ back) = before ++ c :: after) (hfront : front.length ≤ before.length)
    (hback : back.length ≤ after.length) : c ∈ middle := by
  obtain ⟨inside, hinside⟩ : ∃ inside, middle ++ back = inside ++ c :: after := by
    rcases List.append_eq_append_iff.1 h with ⟨inside, -, hinside⟩ | ⟨inside, rfl, hinside⟩
    · exact ⟨inside, hinside⟩
    · have hnil : inside = [] := by
        rw [List.length_append] at hfront
        exact List.length_eq_zero_iff.1 (by omega)
      subst hnil
      exact ⟨[], hinside.symm⟩
  rcases List.append_eq_append_iff.1 hinside with ⟨behind, -, hbehind⟩ | ⟨behind, rfl, hbehind⟩
  · rw [hbehind, List.length_append, List.length_cons] at hback
    omega
  · cases behind with
    | nil =>
        rw [List.nil_append] at hbehind
        rw [← hbehind, List.length_cons] at hback
        omega
    | cons d rest =>
        cases hbehind
        exact List.mem_append_right _ (List.mem_cons_self ..)

theorem isGuarded_diagnostic (message : String) : IsGuarded (diagnostic message) := by
  intro before c after htext hc
  refine ⟨[], before, after, [], message, rfl, (List.append_nil _).symm, htext, ?_⟩
  -- neither in the opening nor in the closing means in the message, which is encoded
  rcases Nat.lt_or_ge before.length diagnosticOpening.length with hbefore | hbefore
  · exact Or.inl hbefore
  · rcases Nat.lt_or_ge after.length diagnosticClosing.length with hafter | hafter
    · exact Or.inr hafter
    · rw [toList_diagnostic] at htext
      rw [Gate.not_isDelimiter_escapeHtml c (mem_middle htext hbefore hafter)] at hc
      cases hc

variable {σ : Type} {renderer : Renderer σ}

/-- With encoding for markup, every character of markup in an output lies in the delimiters of a
diagnostic, if the texts of the page and of all trees that can be loaded have none. -/
theorem output_isGuarded (encodes : renderer.security.encoding.htmlEncode = true)
    (unhooked : renderer.hooks.after = none) {page : Tree} (hpage : TextsHave IsPlainText page.children)
    (loaded : ∀ path state tree, (renderer.loader.load path state).1 = .ok (some tree) →
      TextsHave IsPlainText tree.children)
    {vars store : Variables} {memory : Memory} {state : σ} {output : String}
    (hrun : (run renderer page vars store memory state).output = .ok output) : IsGuarded output := by
  have writes : renderer.Writes IsGuarded := {
    empty := fun before c after htext => by simp at htext
    append := IsGuarded.append
    value := fun text => IsPlainText.isGuarded fun c hmem => by
      rw [Gate.encodeOutput, String.toList_ofList] at hmem
      exact Gate.not_isDelimiter_encode encodes _ c hmem
    diagnostic := isGuarded_diagnostic
    loaded := fun path state tree hload source hmem =>
      (loaded path state tree hload source hmem).isGuarded
    unhooked }
  exact output_has writes (fun source hmem => (hpage source hmem).isGuarded) hrun

/-- A renderer that finds the same tree at every path. -/
def greeter : Renderer Unit where
  security := {}
  host := ⟨fun _ _ => none, fun _ _ => false, fun _ _ => none⟩
  ownFilters := {}
  sharedFilters := {}
  loader := ⟨fun _ => return some (Tree.ofNodes [.text "Yours"])⟩
  hooks := {}

/-- A greeting by name, with a call of a fragment that is not there. -/
def greeting : Tree := Tree.ofNodes [.text "Dear ", .interpolation "name", .call "sign" []]

theorem interpolation_name (scope : Scope) (frame : Stencil.Frame Unit)
    (hvars : frame.vars = .ofList [("name", .string "<b>")]) :
    interpolation greeter "name" scope frame = (.ok "&lt;b&gt;", { frame with memory :=
      { frame.memory with trail := .lookup "name" :: .expression "name" :: frame.memory.trail } }) := by
  have hbound : Resolver.direct? ⟨greeter.security, greeter.host, greeter.ownFilters,
      greeter.sharedFilters, frame.vars⟩ "name".toList = some (.string "<b>") := by
    rw [hvars]
    rfl
  have accepted : Gate.checkExpression greeter.security "name" = .ok () :=
    Resolver.accepted_of_toBool (by decide +kernel)
  have houtput : Gate.encodeOutput greeter.security.encoding (Value.string "<b>").display =
      "&lt;b&gt;" := by decide
  rw [← houtput]
  exact interpolation_bound rfl rfl accepted rfl hbound rfl

/-- A tag in a value becomes text; the comment about the fragment has the only tag marks. -/
theorem greeting_isGuarded :
    (run greeter greeting (.ofList [("name", .string "<b>")]) {} {} ()).output =
        .ok "Dear &lt;b&gt;<!-- tessera: fragment `sign` is not defined -->" ∧
      IsGuarded "Dear &lt;b&gt;<!-- tessera: fragment `sign` is not defined -->" := by
  have hrun : (run greeter greeting (.ofList [("name", .string "<b>")]) {} {} ()).output =
      .ok "Dear &lt;b&gt;<!-- tessera: fragment `sign` is not defined -->" := by
    unfold run ofTree
    generalize entrancesLeft greeter _ _ = entrances
    rw [show greeting.children = [.text "Dear ", .interpolation "name", .call "sign" []] from rfl]
    have hnodes (frame : Stencil.Frame Unit)
        (hvars : frame.vars = .ofList [("name", .string "<b>")]) :
        (ofNodes greeter entrances [.text "Dear ", .interpolation "name", .call "sign" []]
          (Scope.of greeting) frame).1 =
            .ok "Dear &lt;b&gt;<!-- tessera: fragment `sign` is not defined -->" := by
      have hcall (after : Stencil.Frame Unit) :
          call greeter entrances.body "sign" [] (Scope.of greeting) after =
            (.ok (diagnostic "fragment `sign` is not defined"), after) := rfl
      simp only [ofNodes, ofNode, bind_run, pure_run, interpolation_name _ _ hvars, hcall]
      exact congrArg Except.ok (by decide)
    exact hnodes _ rfl
  have hpage : TextsHave IsPlainText greeting.children := by
    intro source hmem
    have hsource : Node.text source = .text "Dear " := by
      simpa [greeting, Tree.ofNodes, preorder, Node.inside] using hmem
    cases hsource
    exact Gate.not_isDelimiter_of_all (by decide)
  have hloaded : ∀ path state tree, (greeter.loader.load path state).1 = .ok (some tree) →
      TextsHave IsPlainText tree.children := by
    intro path state tree hload source hmem
    cases hload
    have hsource : Node.text source = .text "Yours" := by
      simpa [Tree.ofNodes, preorder, Node.inside] using hmem
    cases hsource
    exact Gate.not_isDelimiter_of_all (by decide)
  exact ⟨hrun, output_isGuarded rfl rfl hpage hloaded hrun⟩

end Render

end Stencil
