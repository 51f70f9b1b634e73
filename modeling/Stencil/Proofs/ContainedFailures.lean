import Stencil.Proofs.Rendering.Component
import Stencil.Proofs.Rendering.Inclusion
import Stencil.Proofs.Rendering.Invariants
import Stencil.Proofs.Rendering.Steps

/-!
What a failed component leaves. In its place stands a comment, behind all that was rendered before; names mean
what they meant, the counters are back, and so is the store of the host program. Only sections are not put
back: those that the contents of its slots had added to the layout around before it failed are kept.
-/

namespace Stencil.Render

open Markup

variable {σ : Type}

/-- The steps that render the contents of the slots of a component. -/
def slotSteps (renderer : Renderer σ) (entrances : Entrances σ) (defaultSlot : List Node)
    (slots : List (String × List Node)) : List (String × Render σ String) :=
  (if defaultSlot.isEmpty then [] else [(defaultSlotName, ofNodes renderer entrances defaultSlot)]) ++
    ofBodies renderer entrances slots

theorem ofNode_component (renderer : Renderer σ) (entrances : Entrances σ) (head : ComponentHead)
    (defaultSlot : List Node) (slots : List (String × List Node)) :
    ofNode renderer entrances (.component head defaultSlot slots) =
      component renderer entrances.tree head (slotSteps renderer entrances defaultSlot slots) := by
  rw [ofNode]
  rfl

/-- What nodes keep, the contents of slots keep. -/
theorem keptBy_slotSteps {ι : Type} {inv : Invariant σ ι} {renderer : Renderer σ} (kept : inv.Kept renderer)
    (inclusions calls : Nat) (defaultSlot : List Node) (slots : List (String × List Node)) (scope : Scope) :
    ∀ step ∈ slotSteps renderer (entrancesLeft renderer inclusions calls) defaultSlot slots,
      inv.KeptBy calls scope step.2 := by
  have hnodes := keptBy_nodes kept (keptByWays_entrancesLeft kept inclusions calls)
  intro step hmem
  rcases List.mem_append.1 hmem with hdefault | hnamed
  · split at hdefault
    · exact absurd hdefault List.not_mem_nil
    · rw [List.mem_singleton.1 hdefault]
      exact hnodes.2.2 defaultSlot scope
  · exact hnodes.2.1 slots scope step hnamed

/-- The comment that stands for a component that failed. -/
def failureComment (head : ComponentHead) (fault : Fault) : String :=
  diagnostic ("component `" ++ head.path ++ "` failed: " ++ fault.message)

section Failure

variable {renderer : Renderer σ} {enter : Tree → Render σ String} {head : ComponentHead}
  {slots : List (String × Render σ String)} {scope : Scope} {frame : Frame σ} {fault : Fault}

/-- A component that fails is a comment, and it leaves what its inclusion leaves. -/
theorem component_of_failed
    (h : (inclusion renderer enter head slots scope frame).1 = .error fault) :
    component renderer (some enter) head slots scope frame =
      (.ok (failureComment head fault), (inclusion renderer enter head slots scope frame).2) := by
  unfold component
  dsimp only
  rw [tryCatch_run]
  rcases hrun : inclusion renderer enter head slots scope frame with ⟨result, after⟩
  rw [hrun] at h
  obtain rfl : result = .error fault := h
  rfl

theorem sections_of_unprepared (h : (prepared renderer head scope frame).1 = .error fault) :
    (slotsLeft renderer head slots scope frame).sections = frame.sections := by
  rw [← (silent_prepared renderer head scope).sections frame]
  unfold slotsLeft
  rcases hrun : prepared renderer head scope frame with ⟨result, after⟩
  rw [hrun] at h
  obtain rfl : result = .error fault := h
  rfl

end Failure

/-- A component whose inclusion fails behind other nodes adds its comment to their output and nothing else.
Names, counters and the store are as they were before it. The sections collected so far keep their places, and
the only ones behind them are those that the contents of the slots added, as far as these were rendered: none
if no layout collects, and none if the inclusion fails before its slots are filled. -/
theorem failure_contained (renderer : Renderer σ) (inclusions calls : Nat) {enter : Tree → Render σ String}
    (henter : (entrancesLeft renderer inclusions calls).tree = some enter) (scope : Scope)
    {earlier : List Node} {start before : Frame σ} {text : String}
    (hearlier : ofNodes renderer (entrancesLeft renderer inclusions calls) earlier scope start =
      (.ok text, before))
    (head : ComponentHead) (defaultSlot : List Node) (slots : List (String × List Node)) {fault : Fault}
    (hfails : (inclusion renderer enter head
      (slotSteps renderer (entrancesLeft renderer inclusions calls) defaultSlot slots) scope before).1 =
        .error fault) :
    let entrances := entrancesLeft renderer inclusions calls
    let (output, after) :=
      ofNodes renderer entrances (earlier ++ [.component head defaultSlot slots]) scope start
    output = .ok (text ++ failureComment head fault) ∧
      (∀ name, after.vars.get? name = before.vars.get? name) ∧
      after.iterations = before.iterations ∧ after.calls = before.calls ∧ after.store = before.store ∧
      Collected before.sections after.sections ∧
      after.sections =
        (slotsLeft renderer head (slotSteps renderer entrances defaultSlot slots) scope before).sections ∧
      (before.sections = none → after.sections = none) ∧
      ∀ flaw, (prepared renderer head scope before).1 = .error flaw →
        after.sections = before.sections := by
  intro entrances
  have hcomponent : ofNode renderer entrances (.component head defaultSlot slots) scope before =
      (.ok (failureComment head fault), (inclusion renderer enter head
        (slotSteps renderer entrances defaultSlot slots) scope before).2) := by
    rw [ofNode_component, henter]
    exact component_of_failed hfails
  have hpersists := persists_ofNode renderer inclusions calls (.component head defaultSlot slots) scope
    before
  have hcollected := collected_ofNode renderer inclusions calls (.component head defaultSlot slots) scope
    before
  rw [hcomponent] at hpersists hcollected
  rw [ofNodes_append_run, hearlier]
  dsimp only
  rw [ofNodes_singleton_run, hcomponent]
  have hsections := sections_inclusion renderer head enter
    (slotSteps renderer entrances defaultSlot slots) scope before
  refine ⟨rfl, hpersists.vars, hpersists.iterations, hpersists.calls, hpersists.store, hcollected,
    hsections, fun hnone => ?_, fun flaw hflaw => ?_⟩
  · obtain ⟨more, hmore, -⟩ := hcollected
    rw [hmore, hnone]
    rfl
  · rw [hsections]
    exact sections_of_unprepared hflaw

/-- A renderer without calls, whose components have empty templates. -/
def callless : Renderer Unit where
  security := { limits := { recursionDepth := 0 } }
  host := ⟨fun _ _ => none, fun _ _ => false, fun _ _ => none⟩
  ownFilters := {}
  sharedFilters := {}
  loader := ⟨fun _ => return some (Tree.ofNodes [])⟩
  hooks := {}

/-- A card without a name. -/
def card : ComponentHead := ⟨.direct, "card", none, none, []⟩

/-- The contents of a slot that add a section and then fail. -/
def tornSlot : List Node := [.sectionContent "s" [.text "S"], .call "f" []]

/-- The scope of a page with a fragment. -/
def fragmentScope : Scope := { fragments := [("f", [])] }

/-- A frame that collects sections. -/
def collectingFrame : Frame Unit := { vars := {}, sections := some [], store := {}, loaded := () }

theorem slotContents_torn :
    slotContents (slotSteps callless (entrancesLeft callless 1 0) tornSlot []) fragmentScope
        collectingFrame =
      (.error (.limitExceeded .recursionDepth 0 1),
        { collectingFrame with sections := some [("s", "S")] }) := by
  rw [entrancesLeft_eq]
  rfl

theorem inclusion_torn (enter : Tree → Render Unit String) :
    inclusion callless enter card (slotSteps callless (entrancesLeft callless 1 0) tornSlot [])
        fragmentScope collectingFrame =
      (.error (.limitExceeded .recursionDepth 0 1),
        { collectingFrame with sections := some [("s", "S")] }) := by
  have hpath : Text.cut? ['{', '{'] "card".toList = none := by decide
  have hprepared : ∃ found, prepared callless card fragmentScope collectingFrame =
      (.ok (some found), collectingFrame) := by
    unfold prepared
    simp only [card, ComponentHead.path, interpolate_of_unopened hpath, pure_bind, Option.mapM_none]
    exact ⟨_, rfl⟩
  obtain ⟨found, hprepared⟩ := hprepared
  rw [inclusion_eq]
  unfold keeping
  rw [bind_run, hprepared]
  dsimp only
  unfold filled
  rw [bind_run, slotContents_torn]

theorem tree_callless : (entrancesLeft callless 1 0).tree =
    some fun tree => ofNodes callless (entrancesLeft callless 0 0) tree.children :=
  tree_entrancesLeft_succ callless 0 0

/-- A failed inclusion may leave other sections behind than there were before it. -/
theorem not_sections_restored :
    ¬ ∀ (renderer : Renderer Unit) (inclusions calls : Nat) (enter : Tree → Render Unit String)
        (head : ComponentHead) (defaultSlot : List Node) (slots : List (String × List Node))
        (scope : Scope) (frame : Frame Unit) (fault : Fault),
      let entrances := entrancesLeft renderer inclusions calls
      entrances.tree = some enter →
      (inclusion renderer enter head (slotSteps renderer entrances defaultSlot slots) scope frame).1 =
        .error fault →
      (ofNode renderer entrances (.component head defaultSlot slots) scope frame).2.sections =
        frame.sections := by
  intro restored
  have hfailed := congrArg Prod.fst
    (inclusion_torn fun tree => ofNodes callless (entrancesLeft callless 0 0) tree.children)
  have hsections := restored callless 1 0 _ card tornSlot [] fragmentScope collectingFrame _ tree_callless
    hfailed
  rw [ofNode_component, tree_callless, component_of_failed hfailed, inclusion_torn] at hsections
  cases hsections

/-- A card that fails behind a text, its section kept. -/
theorem failure_contained_torn :
    let entrances := entrancesLeft callless 1 0
    let (output, after) := ofNodes callless entrances ([.text "T"] ++ [.component card tornSlot []])
      fragmentScope collectingFrame
    output = .ok ("T" ++ failureComment card (.limitExceeded .recursionDepth 0 1)) ∧
      after.store = {} ∧ Collected (some []) after.sections := by
  have hearlier : ofNodes callless (entrancesLeft callless 1 0) [.text "T"] fragmentScope collectingFrame =
      (.ok "T", collectingFrame) := by
    rw [ofNodes_singleton_run, ofNode]
    rfl
  have hcontained := failure_contained callless 1 0 tree_callless fragmentScope hearlier card tornSlot []
    (congrArg Prod.fst (inclusion_torn _))
  exact ⟨hcontained.1, hcontained.2.2.2.2.1, hcontained.2.2.2.2.2.1⟩

end Stencil.Render
