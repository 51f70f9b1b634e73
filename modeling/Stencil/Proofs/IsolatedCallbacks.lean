import Stencil.Proofs.Rendering.Invariants
import Stencil.Proofs.Rendering.TypedFrames

/-!
Callbacks reach no further than the inclusion that they are told of. Whatever a callback does to the store is
undone when its inclusion is left, and what comes after an inclusion is rendered as if the callback had done
something else or nothing. What could tell are the decisions on host objects, and where objects of one type
have the same fields these say the same whoever made them.
-/

namespace Stencil

open Markup Template

/-- The renderer with another callback before inclusions, or with none. -/
def Renderer.calling {σ : Type} (renderer : Renderer σ)
    (before : Option (Descriptor → Variables → Variables)) : Renderer σ :=
  { renderer with hooks := { renderer.hooks with before } }

/-- The loader of an engine is steady while what is at hand is sound. -/
theorem Engine.steady_treeLoader {engine : Engine} {site : Site} {disks : List Disk}
    {texts : List String} (known : Known disks texts) (hdisk : site.disk ∈ disks) :
    (engine.treeLoader site).Steady (Shelf.Sound engine.settings disks texts) where
  stays path shelf hshelf := by
    change ((engine.renderer {} site).loader.load path shelf).2.Sound engine.settings disks texts
    exact (load_alike known hdisk hdisk rfl hshelf hshelf).2.1
  answers path shelf other hshelf hother := by
    change ((engine.renderer {} site).loader.load path shelf).1 =
      ((engine.renderer {} site).loader.load path other).1
    exact (load_alike known hdisk hdisk rfl hshelf hother).1

namespace Render

variable {σ : Type} {fieldsOf : String → List String} {among : σ → Prop} {renderer : Renderer σ}

theorem matches_of_persists {before after after' : Frame σ} (distinct : before.vars.Distinct)
    (folded : before.vars.Folded) (h : before.Persists after) (h' : before.Persists after') :
    after.vars.Matches after'.vars :=
  Variables.matches_of_get? (h.distinct distinct) (h'.distinct distinct) (h.folded folded)
    (h'.folded folded) fun name => (h.vars name).trans (h'.vars name).symm

/-- A component leaves the store as it found it, and so does a whole render. What a component gives does not
tell what a callback did before the siblings in front of it. -/
theorem callbacks_isolated :
    (∀ (renderer : Renderer σ) (inclusions calls : Nat) (head : ComponentHead) (defaultSlot : List Node)
        (slots : List (String × List Node)) (scope : Scope) (frame : Frame σ),
      (ofNode renderer (entrancesLeft renderer inclusions calls) (.component head defaultSlot slots)
        scope frame).2.store = frame.store) ∧
    (∀ (renderer : Renderer σ) (tree : Tree) (vars store : Variables) (memory : Memory) (loaded : σ),
      (run renderer tree vars store memory loaded).store = store) ∧
    (∀ (site : Site) (tree : Tree) (extra : Variables) (work : Work),
      (Engine.renderTree site tree extra work).2.engine.vars = work.engine.vars) ∧
    ∀ {fieldsOf : String → List String} {among : σ → Prop} {renderer : Renderer σ},
      renderer.Typed fieldsOf → renderer.loader.Steady among →
      ∀ {call call' : Option (Descriptor → Variables → Variables)},
      (renderer.calling call).Typed fieldsOf → (renderer.calling call').Typed fieldsOf →
      ∀ {frame : Frame σ}, frame.Typed fieldsOf renderer.host among → frame.vars.Distinct →
      frame.vars.Folded →
      ∀ (inclusions calls : Nat) (siblings : List Node) (scope : Scope) (head : ComponentHead)
        (defaultSlot : List Node) (slots : List (String × List Node)),
      let left (before : Option (Descriptor → Variables → Variables)) : Frame σ :=
        (ofNodes (renderer.calling before) (entrancesLeft (renderer.calling before) inclusions calls)
          siblings scope frame).2
      let shown (frame : Frame σ) : Except Fault String :=
        (ofNode renderer (entrancesLeft renderer inclusions calls) (.component head defaultSlot slots)
          scope frame).1
      shown (left call) = shown (left call') := by
  refine ⟨fun renderer inclusions calls head defaultSlot slots scope frame =>
      (persists_ofNode renderer inclusions calls _ scope frame).store,
    fun renderer tree vars store memory loaded => (persists_ofNodes renderer _ _ _ _ _).store,
    fun site tree extra work => (persists_ofNodes _ _ _ _ _ _).store, ?_⟩
  intro fieldsOf among renderer typed steady call call' htyped htyped' frame hframe distinct folded
    inclusions calls siblings scope head defaultSlot slots left shown
  have hleft (before : Option (Descriptor → Variables → Variables))
      (hbefore : (renderer.calling before).Typed fieldsOf) :
      frame.Persists (left before) ∧ (left before).Typed fieldsOf renderer.host among :=
    ⟨persists_ofNodes (renderer.calling before) inclusions calls siblings scope frame,
      holds_ofNodes (kept_typing hbefore steady) siblings scope trivial (i := ()) hframe⟩
  obtain ⟨hpersists, hfirst⟩ := hleft call htyped
  obtain ⟨hpersists', hsecond⟩ := hleft call' htyped'
  exact output_eq_of_typed typed steady hfirst hsecond
    (matches_of_persists distinct folded hpersists hpersists')
    (hpersists.sections.trans hpersists'.sections.symm)
    (hpersists.iterations.trans hpersists'.iterations.symm)
    (hpersists.calls.trans hpersists'.calls.symm) (hpersists.store.trans hpersists'.store.symm)
    inclusions calls (.component head defaultSlot slots) scope

/-- A renderer whose components show a mood. -/
def moody : Renderer Unit where
  security := {}
  host := ⟨fun _ _ => none, fun _ _ => false, fun _ _ => none⟩
  ownFilters := {}
  sharedFilters := .builtin
  loader := ⟨fun _ => return some (Tree.ofNodes [.interpolation "mood"])⟩
  hooks := {}

theorem moody_accepts_mood : Gate.checkExpression moody.security "mood" = .ok () :=
  Resolver.accepted_of_toBool (by decide +kernel)

/-- Cheers up the components that it is told of. -/
def cheering : Descriptor → Variables → Variables := fun _ store => store.insert "mood" (.string "glad")

theorem moody_typed : moody.Typed fun _ => [] where
  host := ⟨fun _ h => (nomatch h), fun _ _ h => (nomatch h)⟩
  ownFilters := fun _ hmem => absurd hmem List.not_mem_nil
  sharedFilters := FilterRegister.typed_builtin
  before := fun _ hmem => nomatch hmem

theorem moody_cheering_typed : (moody.calling (some cheering)).Typed fun _ => [] :=
  { moody_typed with
    before := fun _ hbefore _ _ hstore => by
      cases hbefore
      exact Variables.every_insert hstore (.string "glad") }

/-- The second of two cards has the mood that it would have had if the first had not been cheered up. -/
theorem callbacks_isolated_cheering :
    let card : Node := .component ⟨.direct, "card", none, none, []⟩ [] []
    let frame : Frame Unit := { vars := {}, store := {}, loaded := () }
    let left (before : Option (Descriptor → Variables → Variables)) : Frame Unit :=
      (ofNodes (moody.calling before) (entrancesLeft (moody.calling before) 2 1) [card] {} frame).2
    let shown (frame : Frame Unit) : Except Fault String :=
      (ofNode moody (entrancesLeft moody 2 1) card {} frame).1
    shown (left (some cheering)) = shown (left none) := by
  have steady : moody.loader.Steady fun _ => True := ⟨fun _ _ _ => trivial, fun _ _ _ _ _ => rfl⟩
  have typed : Frame.Typed (fun _ => []) moody.host (fun _ : Unit => True)
      { vars := {}, store := {}, loaded := () } :=
    ⟨Variables.every_empty, Variables.every_empty,
      ⟨fun _ _ h => (nomatch h), fun _ _ h => (nomatch h)⟩, trivial⟩
  exact callbacks_isolated.2.2.2 moody_typed steady moody_cheering_typed moody_typed typed
    List.nodup_nil Variables.every_empty 2 1 _ {} _ [] []

end Render

end Stencil
