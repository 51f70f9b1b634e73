import Stencil.Proofs.Markup.Splitting
import Stencil.Proofs.Rendering.Slots

/-!
Slots lose nothing. Whatever blocks a component is written with, and whatever stands beside them, in its
template the place of a slot renders all that is written for the slot, one after another, as long as the names of
the blocks that agree in lower case agree in the case of basic letters already. Other names are two slots for the
reader and one for the evaluator, and then only the last of the two is seen.
-/

namespace Stencil.Render

open Markup

variable {σ : Type}

/-- In a scope with these contents the place of a slot for which something is written renders all of it in order,
as rendered around the component. -/
def SlotsKept (renderer : Renderer σ) (entrances : Entrances σ) (scope : Scope) (ready : Frame σ)
    (parts : List Part) (contents : List (String × String)) : Prop :=
  ∀ name, (∃ body ∈ writtenFor name parts, body ≠ []) →
    ∃ start texts last, ready.Persists start ∧
      (writtenFor name parts).mapM (ofNodes renderer entrances) scope start = (.ok texts, last) ∧
      ∀ (default : Render σ String) (own : Scope) (frame : Frame σ), own.slots = contents →
        slotPlace name default own frame = (.ok (String.join texts), frame)

theorem ofBodies_eq (renderer : Renderer σ) (entrances : Entrances σ) (bodies : List (String × List Node)) :
    ofBodies renderer entrances bodies = bodies.map fun body => (body.1, ofNodes renderer entrances body.2) := by
  induction bodies with
  | nil => rw [ofBodies, List.map_nil]
  | cons body rest ih => rw [ofBodies, ih, List.map_cons]

theorem pushAll_ne_nil {nodes : List Node} (h : nodes ≠ []) (children : List Node) :
    pushAll nodes children ≠ [] := by
  have hadd (node : Node) (children : List Node) : addNode node children ≠ [] := by
    unfold addNode
    split
    · exact List.cons_ne_nil _ _
    · exact List.cons_ne_nil _ _
  induction nodes using List.reverseRecOn with
  | nil => exact absurd rfl h
  | append_singleton nodes node =>
      rw [pushAll, List.foldl_concat]
      exact hadd _ _

/-- What a component has gathered is found in its template. -/
theorem slotsKept_of_gathers (renderer : Renderer σ) (inclusions calls : Nat) {parts : List Part}
    {filling : Filling} (h : filling.Gathers parts) {scope : Scope} {ready after : Frame σ}
    {contents : List (String × String)}
    (hcontents : slotContents (slotSteps renderer (entrancesLeft renderer inclusions calls)
      filling.defaultSlot.reverse filling.slots) scope ready = (.ok contents, after)) :
    SlotsKept renderer (entrancesLeft renderer inclusions calls) scope ready parts contents := by
  intro name hwritten
  let entrances := entrancesLeft renderer inclusions calls
  -- the step of the slot among the others, and what it renders
  obtain ⟨earlier, slot, later, hsteps, hkey, hlater, hstep⟩ : ∃ earlier slot later,
      slotSteps renderer entrances filling.defaultSlot.reverse filling.slots = earlier ++ slot :: later ∧
      Text.lowercase slot.1 = Text.lowercase name ∧
      (∀ other ∈ later, Text.lowercase other.1 ≠ Text.lowercase slot.1) ∧
      slot.2 = ofNodes renderer entrances (writtenFor name parts).flatten := by
    by_cases hdefault : Text.lowercase name = Text.lowercase defaultSlotName
    · have hbodies : writtenFor name parts = writtenFor defaultSlotName parts := writtenFor_congr hdefault parts
      have hnodes : (writtenFor defaultSlotName parts).flatten ≠ [] := by
        obtain ⟨body, hbody, hnonempty⟩ := hwritten
        rw [ne_eq, List.flatten_eq_nil_iff]
        exact fun hempty => hnonempty (hempty body (hbodies ▸ hbody))
      have hfilled : filling.defaultSlot.reverse.isEmpty = false := by
        rw [List.isEmpty_eq_false_iff, ne_eq, List.reverse_eq_nil_iff, h.children]
        exact pushAll_ne_nil hnodes []
      refine ⟨[], (defaultSlotName, ofNodes renderer entrances filling.defaultSlot.reverse),
        ofBodies renderer entrances filling.slots, ?_, hdefault.symm, fun other hother => ?_, ?_⟩
      · unfold slotSteps
        rw [hfilled]
        rfl
      · rw [ofBodies_eq] at hother
        obtain ⟨slot, hslot, rfl⟩ := List.mem_map.1 hother
        exact (h.named slot hslot).1
      · dsimp only
        rw [h.children, ofNodes_pushAll, hbodies]
        rfl
    · obtain ⟨body, hbody, -⟩ := hwritten
      obtain ⟨part, hpart, -⟩ := List.mem_map.1 hbody
      obtain ⟨hpart, hname⟩ := List.mem_filter.1 hpart
      have hname : Text.lowercase part.slot = Text.lowercase name := eq_of_beq hname
      obtain ⟨slot, hslot, hkey⟩ := h.complete part hpart fun heq => hdefault (hname.symm.trans heq)
      obtain ⟨before, behind, hslots⟩ := List.append_of_mem hslot
      refine ⟨(if filling.defaultSlot.reverse.isEmpty then []
          else [(defaultSlotName, ofNodes renderer entrances filling.defaultSlot.reverse)]) ++
            ofBodies renderer entrances before, (slot.1, ofNodes renderer entrances slot.2),
        ofBodies renderer entrances behind, ?_, hkey.trans hname, fun other hother heq => ?_, ?_⟩
      · unfold slotSteps
        rw [hslots, ofBodies_eq, List.map_append, List.map_cons, ← ofBodies_eq, ← ofBodies_eq,
          List.append_assoc]
      · rw [ofBodies_eq] at hother
        obtain ⟨found, hfound, rfl⟩ := List.mem_map.1 hother
        have hkeys := h.keys
        rw [hslots, List.map_append, List.map_cons, List.nodup_append] at hkeys
        exact (List.nodup_cons.1 hkeys.2.1).1 (heq ▸ List.mem_map_of_mem hfound)
      · dsimp only
        rw [h.bodies slot hslot, writtenFor_congr (hkey.trans hname) parts]
  rw [hsteps] at hcontents
  obtain ⟨before, start, text, last, hearlier, hrendered, hfound⟩ := lookup_slotContents hcontents hlater
  have hpersists := persists_slotContents renderer inclusions calls filling.defaultSlot.reverse filling.slots
    (hsteps ▸ List.subset_append_left earlier (slot :: later)) scope ready
  rw [hearlier] at hpersists
  rw [hstep] at hrendered
  obtain ⟨texts, htexts, rfl⟩ := exists_outputs renderer entrances hrendered
  refine ⟨start, texts, last, hpersists, htexts, fun default own frame hown => ?_⟩
  refine slotPlace_found ?_ default frame
  rw [hown, ← hkey]
  exact hfound

/-- What is left of tokens, once the constructs are finished that they leave open, is a component among what
stands outside. If its slots can be filled, its template is entered with these contents, and they keep all
that is written for them. -/
def KeepsSlots (renderer : Renderer σ) (inclusions calls : Nat) (outside stack : Stack) (parts : List Part) :
    Prop :=
  ∃ head defaultSlot slots,
    stack.settled outside.frames.length = outside.add (.component head defaultSlot slots) ∧
    ∀ (scope : Scope) (frame ready after : Frame σ) (descriptor : Descriptor) (vars : Variables) (tree : Tree)
      (contents : List (String × String)),
      let entrances := entrancesLeft renderer inclusions calls
      let steps := slotSteps renderer entrances defaultSlot slots
      prepared renderer head scope frame = (.ok (some (descriptor, vars, tree)), ready) →
      slotContents steps scope ready = (.ok contents, after) →
      (∀ enter : Tree → Render σ String, inclusion renderer enter head steps scope frame =
        let (output, last) :=
          enter tree { Scope.of tree with slots := contents } { after with vars, sections := none }
        (output.map (renderer.finished descriptor),
          { last with vars := after.vars, sections := after.sections, store := frame.store })) ∧
      SlotsKept renderer entrances scope ready parts contents

/-- Whatever is read while a component is open is its contents, and the component keeps all that is written in
them for its slots, whatever its blocks are and whatever stands beside them, if the names that the evaluator
takes for one slot are one for the reader too. -/
theorem keepsSlots_of_namesAgree (renderer : Renderer σ) (inclusions calls : Nat) {outside : Stack}
    {opening : Token} {kind : ComponentKind} {attributes : List Attribute} {tokens : List Token}
    (hopen : outside.read opening = inComponent outside.frames outside.nodes { kind, attributes }) :
    (StaysOpen outside.frames.length (outside.read opening) tokens →
      ∃ parts, Contents outside.frames outside.nodes { kind, attributes } tokens parts) ∧
    ∀ parts, Contents outside.frames outside.nodes { kind, attributes } tokens parts → NamesAgree parts →
      KeepsSlots renderer inclusions calls outside (outside.readTokens (opening :: tokens)) parts := by
  refine ⟨fun hstays => exists_contents (hopen ▸ hstays), fun parts hcontents hagree => ?_⟩
  obtain ⟨gathered, hfinished, hdefault, hslots⟩ := hcontents.finished
  have hgathers := gathers_foldl_take hagree (rfl : ({ kind, attributes } : Filling).defaultSlot = []) rfl
  have hread : outside.readTokens (opening :: tokens) =
      (inComponent outside.frames outside.nodes { kind, attributes }).readTokens tokens :=
    congrArg (·.readTokens tokens) hopen
  rw [hread]
  refine ⟨_, _, _, hfinished, ?_⟩
  intro scope frame ready after descriptor vars tree contents entrances steps hprepared hcontents
  refine ⟨fun enter => ?_, ?_⟩
  · rewrite [inclusion_run hprepared, hcontents]
    rfl
  · change slotContents (slotSteps _ _ gathered.defaultSlot.reverse gathered.slots) scope ready = _ at hcontents
    rw [hdefault, hslots] at hcontents
    exact slotsKept_of_gathers renderer inclusions calls hgathers hcontents

section Cards

/-- The opening tag of a card. -/
def cardOpening : Token := ⟨.opening false .includeTag [⟨"component", "card"⟩] "", 0, 1⟩

/-- A card that nothing is written in yet. -/
def emptyCard : Filling := { kind := .direct, attributes := [⟨"component", "card"⟩] }

/-- The block of a slot with a text in it. -/
def slotBlock (name text : String) : List Token :=
  [⟨.opening false .slot [⟨"name", name⟩] "", 0, 1⟩, ⟨.text text, 0, 1⟩, ⟨.closing .slot "", 0, 1⟩]

theorem reads_slotBlock (filling : Filling) (name text : String) :
    Reads [] [] filling (slotBlock name text) (some (.block (slotNameOf [⟨"name", name⟩]) [.text text])) := by
  change Reads [] [] filling (_ :: ([⟨.text text, 0, 1⟩] ++ [_])) _
  exact .block rfl rfl rfl

/-- A card with two blocks and a text between them. -/
theorem contents_card (first second : String) :
    Contents [] [] emptyCard (slotBlock first "A" ++ ([⟨.text "x", 0, 1⟩] ++ slotBlock second "B"))
      [.block (slotNameOf [⟨"name", first⟩]) [.text "A"], .child (.text "x"),
        .block (slotNameOf [⟨"name", second⟩]) [.text "B"]] :=
  .cons (reads_slotBlock emptyCard first "A") rfl
    (.cons (.child rfl) rfl (.last (reads_slotBlock _ second "B")))

theorem prepared_card (scope : Scope) (frame : Frame Unit) :
    ∃ found, prepared callless card scope frame = (.ok (some found), frame) := by
  have hpath : Text.cut? ['{', '{'] "card".toList = none := by decide
  unfold prepared
  simp only [card, ComponentHead.path, interpolate_of_unopened hpath, pure_bind, Option.mapM_none]
  exact ⟨_, rfl⟩

/-- Under two spellings of a name that differ in the case of a basic letter both blocks are kept. -/
theorem keepsSlots_of_namesAgree_card :
    let tokens := slotBlock "a" "A" ++ ([⟨.text "x", 0, 1⟩] ++ slotBlock "A" "B")
    let frame : Frame Unit := { vars := {}, store := {}, loaded := () }
    (Stack.readTokens {} (cardOpening :: tokens)).settled 0 =
        ⟨[], [.component card [.text "x"] [("a", [.text "A", .text "B"])]]⟩ ∧
      ∀ own : Scope, own.slots = [("a", "AB"), ("default", "x")] →
        slotPlace "A" (return "none") own frame = (.ok "AB", frame) := by
  intro tokens frame
  have hagree : NamesAgree [.block (slotNameOf [⟨"name", "a"⟩]) [.text "A"], .child (.text "x"),
      .block (slotNameOf [⟨"name", "A"⟩]) [.text "B"]] := by
    unfold NamesAgree
    decide +kernel
  have hkeeps : KeepsSlots callless 1 0 {} (Stack.readTokens {} (cardOpening :: tokens)) _ :=
    (keepsSlots_of_namesAgree callless 1 0 rfl).2 _ (contents_card "a" "A") hagree
  have hcomputed : (Stack.readTokens {} (cardOpening :: tokens)).settled 0 =
      ⟨[], [.component card [.text "x"] [("a", [.text "A", .text "B"])]]⟩ := rfl
  refine ⟨hcomputed, fun own hown => ?_⟩
  obtain ⟨head, defaultSlot, slots, hstack, hkept⟩ := hkeeps
  cases (Stack.mk.inj (hcomputed.symm.trans hstack)).2
  obtain ⟨⟨descriptor, vars, tree⟩, hprepared⟩ := prepared_card {} frame
  have hcontents : slotContents (slotSteps callless (entrancesLeft callless 1 0) [.text "x"]
      [("a", [.text "A", .text "B"])]) {} frame = (.ok [("a", "AB"), ("default", "x")], frame) := rfl
  have hwritten : writtenFor "A" [.block (slotNameOf [⟨"name", "a"⟩]) [.text "A"], .child (.text "x"),
      .block (slotNameOf [⟨"name", "A"⟩]) [.text "B"]] = [[.text "A"], [.text "B"]] := rfl
  obtain ⟨-, hslots⟩ := hkept {} frame frame frame descriptor vars tree _ hprepared hcontents
  obtain ⟨start, texts, last, -, htexts, hplace⟩ :=
    hslots "A" ⟨[.text "A"], hwritten ▸ List.mem_cons_self .., List.cons_ne_nil _ _⟩
  rw [hwritten] at htexts
  cases htexts
  exact hplace (return "none") own frame hown

/-- Under two spellings that differ in the case of another letter the first block is lost. -/
theorem not_keepsSlots :
    ¬ ∀ (renderer : Renderer Unit) (inclusions calls : Nat) (outside : Stack) (opening : Token)
        (kind : ComponentKind) (attributes : List Attribute) (tokens : List Token) (parts : List Part),
      outside.read opening = inComponent outside.frames outside.nodes { kind, attributes } →
      Contents outside.frames outside.nodes { kind, attributes } tokens parts →
      KeepsSlots renderer inclusions calls outside (outside.readTokens (opening :: tokens)) parts := by
  intro hclaim
  let frame : Frame Unit := { vars := {}, store := {}, loaded := () }
  let tokens := slotBlock "\u00c9" "A" ++ ([⟨.text "x", 0, 1⟩] ++ slotBlock "\u00e9" "B")
  have hkeeps : KeepsSlots callless 1 0 {} (Stack.readTokens {} (cardOpening :: tokens)) _ :=
    hclaim callless 1 0 {} cardOpening .direct [⟨"component", "card"⟩] tokens _ rfl
      (contents_card "\u00c9" "\u00e9")
  have hcomputed : (Stack.readTokens {} (cardOpening :: tokens)).settled 0 =
      ⟨[], [.component card [.text "x"] [("\u00c9", [.text "A"]), ("\u00e9", [.text "B"])]]⟩ := rfl
  obtain ⟨head, defaultSlot, slots, hstack, hkept⟩ := hkeeps
  cases (Stack.mk.inj (hcomputed.symm.trans hstack)).2
  obtain ⟨⟨descriptor, vars, tree⟩, hprepared⟩ := prepared_card {} frame
  have hcontents : slotContents (slotSteps callless (entrancesLeft callless 1 0) [.text "x"]
      [("\u00c9", [.text "A"]), ("\u00e9", [.text "B"])]) {} frame =
      (.ok [("\u00e9", "B"), ("\u00e9", "A"), ("default", "x")], frame) := rfl
  have hwritten : writtenFor "\u00e9" [.block (slotNameOf [⟨"name", "\u00c9"⟩]) [.text "A"], .child (.text "x"),
      .block (slotNameOf [⟨"name", "\u00e9"⟩]) [.text "B"]] = [[.text "A"], [.text "B"]] := rfl
  obtain ⟨-, hslots⟩ := hkept {} frame frame frame descriptor vars tree _ hprepared hcontents
  obtain ⟨start, texts, last, -, htexts, hplace⟩ :=
    hslots "\u00e9" ⟨[.text "A"], hwritten ▸ List.mem_cons_self .., List.cons_ne_nil _ _⟩
  rw [hwritten] at htexts
  cases htexts
  have hboth := hplace (return "none") { slots := [("\u00e9", "B"), ("\u00e9", "A"), ("default", "x")] } frame rfl
  have hlast := @slotPlace_found Unit "\u00e9" "B"
    { slots := [("\u00e9", "B"), ("\u00e9", "A"), ("default", "x")] } rfl (return "none") frame
  have hsame := congrArg Prod.fst (hboth.symm.trans hlast)
  exact absurd (Except.ok.inj hsame) (by decide)

end Cards

end Stencil.Render
