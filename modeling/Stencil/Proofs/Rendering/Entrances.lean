import Stencil.Render.Tree

/-!
What is left to be entered, by induction. A property of the ways into bodies and trees holds however
many inclusions and calls may still be opened, if it passes from what is entered to the ways in. It is
stated for two renderers side by side; a property of one of them is the case in which both are the same.
-/

namespace Stencil.Render

variable {σ τ : Type}

/-- The ways in that lead to what may be entered behind them. -/
def waysInto (renderer : Renderer σ) (body tree : Option (Entrances σ)) : Entrances σ where
  body := body.map fun entrances nodes => ofNodes renderer entrances nodes
  tree := tree.map fun entrances tree => ofNodes renderer entrances tree.children

theorem entrancesLeft_eq (renderer : Renderer σ) (inclusions calls : Nat) :
    entrancesLeft renderer inclusions calls = waysInto renderer
      (match calls with
        | 0 => none
        | calls + 1 => some (entrancesLeft renderer inclusions calls))
      (match inclusions with
        | 0 => none
        | inclusions + 1 => some (entrancesLeft renderer inclusions calls)) := by
  rw [entrancesLeft.eq_def]
  cases calls <;> cases inclusions <;> rfl

theorem body_entrancesLeft_succ (renderer : Renderer σ) (inclusions calls : Nat) :
    (entrancesLeft renderer inclusions (calls + 1)).body =
      some fun nodes => ofNodes renderer (entrancesLeft renderer inclusions calls) nodes := by
  rw [entrancesLeft_eq]
  rfl

theorem body_entrancesLeft_zero (renderer : Renderer σ) (inclusions : Nat) :
    (entrancesLeft renderer inclusions 0).body = none := by
  rw [entrancesLeft_eq]
  rfl

theorem tree_entrancesLeft_succ (renderer : Renderer σ) (inclusions calls : Nat) :
    (entrancesLeft renderer (inclusions + 1) calls).tree =
      some fun tree => ofNodes renderer (entrancesLeft renderer inclusions calls) tree.children := by
  rw [entrancesLeft_eq]
  rfl

theorem tree_entrancesLeft_zero (renderer : Renderer σ) (calls : Nat) :
    (entrancesLeft renderer 0 calls).tree = none := by
  rw [entrancesLeft_eq]
  rfl

theorem entrancesLeft_induction {renderer : Renderer σ} {other : Renderer τ}
    {motive : Entrances σ → Entrances τ → Prop}
    (step : ∀ {body body' tree tree'}, Option.Rel motive body body' → Option.Rel motive tree tree' →
      motive (waysInto renderer body tree) (waysInto other body' tree'))
    (inclusions calls : Nat) :
    motive (entrancesLeft renderer inclusions calls) (entrancesLeft other inclusions calls) := by
  induction inclusions generalizing calls with
  | zero =>
      induction calls with
      | zero =>
          rw [entrancesLeft_eq, entrancesLeft_eq other]
          exact step .none .none
      | succ calls ih =>
          rw [entrancesLeft_eq, entrancesLeft_eq other]
          exact step (.some ih) .none
  | succ inclusions outer =>
      induction calls with
      | zero =>
          rw [entrancesLeft_eq, entrancesLeft_eq other]
          exact step .none (.some (outer 0))
      | succ calls ih =>
          rw [entrancesLeft_eq, entrancesLeft_eq other]
          exact step (.some ih) (.some (outer (calls + 1)))

end Stencil.Render
