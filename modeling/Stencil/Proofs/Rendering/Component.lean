import Stencil.Proofs.Rendering.Entrances
import Stencil.Proofs.Rendering.Steps
import Stencil.Proofs.Resolution.Likeness

/-!
The simplest page with a component: it has no parameters and no slots, and no callback is told of it. Such
a page is the template of its component.
-/

namespace Stencil.Render

open Markup

variable {σ : Type}

variable {renderer : Renderer σ}

/-- A text without interpolations stands for itself. -/
theorem interpolate_of_unopened {text : String} (h : Text.cut? ['{', '{'] text.toList = none) :
    interpolate renderer text = pure text := by
  funext scope frame
  unfold interpolate resolving
  simp only [Resolver.interpolate_of_unopened h]
  rfl

section Component

variable {path text : String} {tree : Tree} {loaded : σ}
  (hhooks : renderer.hooks = {}) (hpath : Text.cut? ['{', '{'] path.toList = none)

include hhooks hpath

/-- Where no callbacks are, a component without parameters and slots is its template. -/
theorem component_text {enter : Tree → Render σ String} {scope : Scope} {frame : Frame σ}
    (hload : (renderer.loader.load path frame.loaded).1 = .ok (some tree))
    (henter : ∀ scope frame, (enter tree scope frame).1 = .ok text) :
    (component renderer (some enter) ⟨.direct, path, none, none, []⟩ [] scope frame).1 =
      .ok text := by
  have hannounce (descriptor : Descriptor) : announce renderer descriptor = pure {} := by
    unfold announce
    rw [hhooks]
  have hfound : load renderer path scope frame = (.ok (some tree),
      { frame with loaded := (renderer.loader.load path frame.loaded).2 }) := by
    unfold load
    rw [← hload]
    rfl
  have hinclusion :
      (inclusion renderer enter ⟨.direct, path, none, none, []⟩ [] scope frame).1 = .ok text := by
    unfold inclusion keeping
    simp only [ComponentHead.path, interpolate_of_unopened hpath, pure_bind, hannounce, Option.mapM_none, hhooks]
    rw [bind_run, hfound]
    change ((inside _ _ (enter tree) >>= pure) scope _).1 = _
    rw [bind_pure]
    exact henter _ _
  unfold component
  dsimp only
  rw [tryCatch_run]
  rcases hrun : inclusion renderer enter ⟨.direct, path, none, none, []⟩ [] scope frame with
    ⟨result, after⟩
  rw [hrun] at hinclusion
  obtain rfl : result = .ok text := hinclusion
  rfl

theorem run_component (hdepth : 0 < renderer.security.limits.includeDepth)
    (hload : (renderer.loader.load path loaded).1 = .ok (some (Tree.ofNodes [.text text])))
    (vars store : Variables) (memory : Memory) :
    let page := Tree.ofNodes [.component ⟨.direct, path, none, none, []⟩ [] []]
    (run renderer page vars store memory loaded).output = .ok text := by
  intro page
  obtain ⟨depth, hdepth⟩ := Nat.exists_eq_add_of_lt hdepth
  have hrun : (run renderer page vars store memory loaded).output =
      (ofTree renderer page (Scope.of page) { vars, store, memory, loaded }).1 := rfl
  rw [hrun]
  unfold ofTree
  dsimp only [page, Tree.ofNodes]
  rw [ofNodes_singleton_run, hdepth, Nat.zero_add, entrancesLeft_eq]
  exact component_text hhooks hpath hload fun scope frame =>
    congrArg Prod.fst (ofNodes_singleton_run renderer _ scope frame (.text text))

end Component

end Stencil.Render
