import Stencil.Proofs.Rendering.Accounting
import Stencil.Proofs.Rendering.Alike
import Stencil.Proofs.Rendering.Invariants

/-!
How far a render reaches. A render may be watched: then it is told how many components and layouts are open
inside one another, and how many there have been at most. A watched render that counts what is open and looks
at its limits whenever something is entered goes like a render that counts what is left; and it never goes
through more ways inside one another than the two limits allow, so that what stands behind them makes no
difference.

Renders end. Whatever a loader gives, trees that include or wrap themselves or one another among them, a
render goes through no more ways inside one another than its limits allow, and ends with an output or with a
fault.
-/

namespace Stencil

open Markup

variable {σ α : Type}

/-- The state of a loader, with the trees of components and layouts that are open inside one another, and the
most that there have been. -/
structure Watched (σ : Type) where
  loaded : σ
  opened : Nat := 0
  deepest : Nat := 0

/-- One more tree is open. -/
def Watched.entered (state : Watched σ) : Watched σ :=
  { state with opened := state.opened + 1, deepest := max state.deepest (state.opened + 1) }

/-- The renderer with a loader that is watched. -/
def Renderer.watched (renderer : Renderer σ) : Renderer (Watched σ) where
  security := renderer.security
  host := renderer.host
  ownFilters := renderer.ownFilters
  sharedFilters := renderer.sharedFilters
  loader := ⟨fun path state =>
    let (found, loaded) := renderer.loader.load path state.loaded
    (found, { state with loaded })⟩
  hooks := renderer.hooks

namespace Render

/-- A step inside one more tree. However it ends, the tree is closed behind it. -/
def visiting (step : Render (Watched σ) α) : Render (Watched σ) α :=
  keeping (fun before after =>
      { after with loaded := { after.loaded with opened := before.loaded.opened } }) do
    modify fun frame => { frame with loaded := frame.loaded.entered }
    step

variable (renderer : Renderer σ) (beyond : Nat → Nat → Entrances (Watched σ))

/-- The ways into bodies and trees where so many trees and calls are open. They are gone through this often
inside one another; behind them is something else. -/
def unrolled : (reach opened calls : Nat) → Entrances (Watched σ)
  | 0, opened, calls => beyond opened calls
  | reach + 1, opened, calls =>
      let limits := renderer.security.limits
      { body :=
          if calls < limits.recursionDepth then
            some fun body => ofNodes renderer.watched (unrolled reach opened (calls + 1)) body
          else none
        tree :=
          if opened < limits.includeDepth then
            some fun tree =>
              visiting (ofNodes renderer.watched (unrolled reach (opened + 1) calls) tree.children)
          else none }

section Likeness

variable {renderer : Renderer σ}

/-- A render and one that is watched. -/
def ofWatched : Likeness σ (Watched σ) :=
  ofLoaders .same (fun loaded state => loaded = state.loaded) fun _ => True

theorem holds_ofWatched (renderer : Renderer σ) : ofWatched.Holds renderer renderer.watched := by
  refine holds_ofLoaders Resolver.Accord.lasting_same rfl rfl (fun _ _ => id) ?_
  rintro path _ state rfl -
  exact ⟨rfl, rfl⟩

variable {R : List (String × String) → List (String × String) → Prop} {scope : Scope}

theorem steps_visiting {step : Render σ α} {step' : Render (Watched σ) α}
    (h : ofWatched.Steps R scope step step') : ofWatched.Steps R scope step (visiting step') := by
  refine ⟨h.back, fun frame frame' hframes admitted => ?_⟩
  obtain ⟨hresult, hafter, hstore⟩ := h.forth frame
    { frame' with loaded := frame'.loaded.entered } { hframes with } admitted
  exact ⟨hresult, { hafter with }, hstore⟩

/-- What is left of the limits and what is open go together, wherever there is still reach. -/
theorem entrancesAlike_unrolled {reach opened calls : Nat}
    (hreach : renderer.security.limits.includeDepth - opened +
      (renderer.security.limits.recursionDepth - calls) < reach) :
    EntrancesAlike ofWatched
      (entrancesLeft renderer (renderer.security.limits.includeDepth - opened)
        (renderer.security.limits.recursionDepth - calls))
      (unrolled renderer beyond reach opened calls) := by
  induction reach generalizing opened calls with
  | zero => exact absurd hreach (Nat.not_lt_zero _)
  | succ reach ih =>
      rw [entrancesLeft_eq, unrolled]
      constructor
      · by_cases hcalls : calls < renderer.security.limits.recursionDepth
        · have hleft : renderer.security.limits.recursionDepth - calls =
              renderer.security.limits.recursionDepth - (calls + 1) + 1 := by omega
          dsimp only
          rw [if_pos hcalls, hleft]
          exact .some fun nodes scope =>
            (steps_nodes (holds_ofWatched renderer) (ih (by omega))).2.2 nodes scope
        · have hleft : renderer.security.limits.recursionDepth - calls = 0 := by omega
          dsimp only
          rw [if_neg hcalls, hleft]
          exact .none
      · by_cases hopened : opened < renderer.security.limits.includeDepth
        · have hleft : renderer.security.limits.includeDepth - opened =
              renderer.security.limits.includeDepth - (opened + 1) + 1 := by omega
          dsimp only
          rw [if_pos hopened, hleft]
          exact .some fun tree scope => steps_visiting
            ((steps_nodes (holds_ofWatched renderer) (ih (by omega))).2.2 tree.children scope sectionsLast_eq)
        · have hleft : renderer.security.limits.includeDepth - opened = 0 := by omega
          dsimp only
          rw [if_neg hopened, hleft]
          exact .none

end Likeness

section Depth

variable {renderer : Renderer σ} {most opened : Nat}

/-- So many trees are open, and there never were more than so many. -/
def atDepth (most opened : Nat) (state : Watched σ) : Prop :=
  state.opened = opened ∧ state.deepest ≤ most

theorem kept_atDepth (renderer : Renderer σ) (most opened : Nat) :
    (ofLoaded (atDepth (σ := σ) most opened)).Kept renderer.watched :=
  kept_ofLoaded fun _ _ hstate => hstate

theorem keptBy_visiting {scope : Scope} {calls : Nat} {step : Render (Watched σ) String}
    (hopened : opened < most)
    (h : (ofLoaded (atDepth (σ := σ) most (opened + 1))).KeptBy calls scope step) :
    (ofLoaded (atDepth (σ := σ) most opened)).KeptBy calls scope (visiting step) := by
  refine fun i hroom => (h i hroom).opening (fun frame hframe => ?_) fun before after hbefore hafter => ?_
  · obtain ⟨hnow, hmost⟩ := hframe
    refine ⟨congrArg (· + 1) hnow, Nat.max_le.2 ⟨hmost, ?_⟩⟩
    rw [hnow]
    exact hopened
  · exact ⟨hbefore.1, hafter.2⟩

theorem keptByWays_unrolled {reach calls : Nat}
    (hreach : renderer.security.limits.includeDepth - opened +
      (renderer.security.limits.recursionDepth - calls) < reach) :
    (ofLoaded (atDepth (σ := σ) renderer.security.limits.includeDepth opened)).KeptByWays
      (renderer.security.limits.recursionDepth - calls) (unrolled renderer beyond reach opened calls) := by
  induction reach generalizing opened calls with
  | zero => exact absurd hreach (Nat.not_lt_zero _)
  | succ reach ih =>
      rw [unrolled]
      constructor
      · intro way hway
        dsimp only at hway
        split at hway
        next hcalls =>
          obtain rfl := Option.some.inj hway
          exact ⟨renderer.security.limits.recursionDepth - (calls + 1), by omega,
            (keptBy_nodes (kept_atDepth ..) (ih (by omega))).2.2⟩
        next => cases hway
      · intro way hway
        dsimp only at hway
        split at hway
        next hopened =>
          obtain rfl := Option.some.inj hway
          exact fun tree scope => keptBy_visiting hopened
            ((keptBy_nodes (kept_atDepth ..) (ih (by omega))).2.2 tree.children scope)
        next => cases hway

end Depth

end Render

end Stencil

namespace Stencil.Render

open Markup

variable {σ : Type}

/-- A render ends with an output or with a fault. It is the render that counts what is open and follows every
way as far as its limits allow, and it never comes to what stands behind as many ways inside one another as
both limits allow together. No more components and layouts are open inside one another than the one limit
allows, and at no moment are there more open calls than the other one does. -/
theorem renders_end (renderer : Renderer σ) (tree : Tree) (vars store : Variables) (memory : Memory)
    (loaded : σ) :
    let limits := renderer.security.limits
    let outcome := run renderer tree vars store memory loaded
    ((∃ text, outcome.output = .ok text) ∨ ∃ fault, outcome.output = .error fault) ∧
    (∀ (beyond : Nat → Nat → Entrances (Watched σ)) (more : Nat),
      let reach := limits.includeDepth + limits.recursionDepth + more + 1
      let (output, after) := ofNodes renderer.watched (unrolled renderer beyond reach 0 0) tree.children
        (Scope.of tree) { vars, store, memory, loaded := { loaded } }
      output = outcome.output ∧ after.store = outcome.store ∧
        after.memory.decisions = outcome.memory.decisions ∧ after.loaded.loaded = outcome.loaded ∧
        after.loaded.deepest ≤ limits.includeDepth) ∧
    ∃ events, outcome.memory.trail = events ++ memory.trail ∧
      ∀ moment : Trail, moment <:+ events → moment.openCalls ≤ limits.recursionDepth := by
  intro limits outcome
  refine ⟨?_, fun beyond more => ?_, ?_⟩
  · cases outcome.output with
    | ok text => exact Or.inl ⟨text, rfl⟩
    | error fault => exact Or.inr ⟨fault, rfl⟩
  · intro reach
    have hreach : limits.includeDepth - 0 + (limits.recursionDepth - 0) < reach := by omega
    have hsteps := (steps_nodes (holds_ofWatched renderer)
      (entrancesAlike_unrolled beyond hreach)).2.2 tree.children (Scope.of tree) sectionsLast_eq
    obtain ⟨houtput, hafter, -⟩ := hsteps.forth { vars, store, memory, loaded }
      { vars, store, memory, loaded := { loaded } } ⟨rfl, .none, rfl, rfl, rfl, rfl, rfl⟩
      ⟨trivial, trivial⟩
    have hkept := (keptBy_nodes (kept_atDepth renderer _ _)
      (keptByWays_unrolled beyond hreach)).2.2 tree.children (Scope.of tree) () trivial
    obtain ⟨hdepth, -⟩ := hkept { vars, store, memory, loaded := { loaded } } ⟨rfl, Nat.zero_le _⟩
    exact ⟨houtput.symm, hafter.store.symm, hafter.decisions.symm, hafter.loaded.symm, hdepth.2⟩
  · obtain ⟨events, haccounted⟩ := accounted_ofNodes renderer limits.includeDepth limits.recursionDepth
      (Scope.of tree) { vars, store, memory, loaded } tree.children
    exact ⟨events, haccounted.trail, fun moment hmoment => (haccounted.always moment hmoment).depth⟩

end Stencil.Render
