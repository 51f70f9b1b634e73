import Stencil.Proofs.Rendering.Entrances
import Stencil.Proofs.Rendering.Steps

/-!
What a render sees of its scope. Fragments are looked up by their names in lower case, and nothing else is asked
of the list of them; so in scopes in which each name finds the same body, and that agree otherwise, every part of
a template does the same. There is one rule for each way in which steps are put together.
-/

namespace Stencil

open Markup

/-- Two scopes in which each call finds the same body, and that agree in all that is placed. -/
structure Scope.Alike (first second : Scope) : Prop where
  fragments : ∀ name, first.fragments.lookup (Text.lowercase name) =
    second.fragments.lookup (Text.lowercase name)
  sections : first.sections = second.sections
  body : first.body = second.body
  slots : first.slots = second.slots

namespace Render

variable {σ α β : Type} {first second : Scope}

/-- A step that does the same in two scopes, whatever frame it starts from. -/
def SameIn (first second : Scope) (step : Render σ α) : Prop := step first = step second

theorem sameIn_pure (value : α) : SameIn first second (pure value : Render σ α) := rfl

theorem SameIn.bind {step : Render σ α} {next : α → Render σ β} (h : SameIn first second step)
    (hnext : ∀ value, SameIn first second (next value)) : SameIn first second (step >>= next) := by
  change (step first >>= fun value => next value first) = (step second >>= fun value => next value second)
  rw [show step first = step second from h]
  exact congrArg _ (funext hnext)

theorem sameIn_read_bind {next : Scope → Render σ α} (hnext : next first = next second)
    (h : SameIn first second (next second)) : SameIn first second (read >>= next) :=
  (congrFun hnext first).trans h

theorem sameIn_liftExcept (result : Except Fault α) :
    SameIn first second (liftExcept result : Render σ α) := by
  cases result with
  | error fault => rfl
  | ok value => rfl

theorem SameIn.keeping {step : Render σ α} (h : SameIn first second step)
    (restore : Frame σ → Frame σ → Frame σ) : SameIn first second (keeping restore step) := by
  unfold SameIn Render.keeping
  rw [show step first = step second from h]

theorem SameIn.catching {step : Render σ α} {handler : Fault → Render σ α} (h : SameIn first second step)
    (hhandler : ∀ fault, SameIn first second (handler fault)) :
    SameIn first second (tryCatch step handler) := by
  change ExceptT.tryCatch (step first) (fun fault => handler fault first) =
    ExceptT.tryCatch (step second) fun fault => handler fault second
  rw [show step first = step second from h]
  exact congrArg _ (funext hhandler)

theorem sameIn_mapM {step : α → Render σ β} {list : List α} (h : ∀ x ∈ list, SameIn first second (step x)) :
    SameIn first second (list.mapM step) := by
  induction list with
  | nil => exact sameIn_pure []
  | cons x rest ih =>
      obtain ⟨hfirst, hrest⟩ := List.forall_mem_cons.1 h
      rw [List.mapM_cons]
      exact hfirst.bind fun _ => (ih hrest).bind fun _ => sameIn_pure _

section Parts

variable (renderer : Renderer σ)

theorem sameIn_parameterValues (parameters : List Parameter) :
    SameIn first second (parameterValues renderer parameters) :=
  sameIn_mapM fun _ _ => SameIn.bind rfl fun _ => sameIn_pure _

theorem sameIn_startIteration : SameIn first second (startIteration renderer) :=
  funext fun frame => (startIteration_run renderer frame).trans (startIteration_run renderer frame).symm

theorem sameIn_interpolation (expression : String) :
    SameIn first second (interpolation renderer expression) := by
  refine SameIn.bind rfl fun value => ?_
  cases value with
  | none => exact sameIn_pure _
  | some value => exact sameIn_pure _

theorem sameIn_conditional {otherwise : Render σ String} (hotherwise : SameIn first second otherwise)
    {branches : List (String × Render σ String)} (h : ∀ branch ∈ branches, SameIn first second branch.2) :
    SameIn first second (conditional renderer otherwise branches) := by
  induction branches with
  | nil => exact hotherwise
  | cons branch rest ih =>
      obtain ⟨hfirst, hrest⟩ := List.forall_mem_cons.1 h
      refine (sameIn_liftExcept _).bind fun _ => SameIn.bind rfl fun value => ?_
      split
      · exact hfirst
      · exact ih hrest

theorem sameIn_loop (item collection : String) {body : Render σ String} (h : SameIn first second body) :
    SameIn first second (loop renderer item collection body) := by
  refine SameIn.bind rfl fun value => ?_
  split
  · exact sameIn_pure _
  · refine SameIn.keeping ?_ _
    refine SameIn.bind rfl fun _ => SameIn.bind ?_ fun _ => sameIn_pure _
    refine sameIn_mapM fun element _ => (sameIn_startIteration renderer).bind fun _ => ?_
    exact SameIn.bind rfl fun _ => h

theorem sameIn_call (alike : first.Alike second) {enter : Option (List Node → Render σ String)}
    (h : ∀ way ∈ enter, ∀ nodes, SameIn first second (way nodes)) (name : String)
    (parameters : List Parameter) : SameIn first second (call renderer enter name parameters) := by
  refine sameIn_read_bind (by rw [alike.fragments]) ?_
  split
  · exact sameIn_pure _
  next body _ =>
    cases enter with
    | none => rfl
    | some way =>
        refine SameIn.keeping ?_ _
        refine SameIn.bind rfl fun _ => SameIn.bind rfl fun _ => SameIn.bind rfl fun _ => ?_
        refine (sameIn_parameterValues renderer parameters).bind fun _ => SameIn.bind rfl fun _ => ?_
        exact h way rfl body

theorem sameIn_sectionContent (name : String) {content : Render σ String} (h : SameIn first second content) :
    SameIn first second (sectionContent name content) := by
  refine SameIn.bind rfl fun _ => ?_
  split
  · exact h
  · exact h.bind fun _ => SameIn.bind rfl fun _ => sameIn_pure _

theorem sameIn_sectionPlace (alike : first.Alike second) (name : String) (required : Bool)
    {default : Render σ String} (h : SameIn first second default) :
    SameIn first second (sectionPlace name required default) := by
  refine sameIn_read_bind (by rw [alike.sections]) ?_
  split
  · exact sameIn_pure _
  · split
    · exact sameIn_pure _
    · exact h

theorem sameIn_slotPlace (alike : first.Alike second) (name : String) {default : Render σ String}
    (h : SameIn first second default) : SameIn first second (slotPlace name default) := by
  refine sameIn_read_bind (by rw [alike.slots]) ?_
  split
  · exact sameIn_pure _
  · exact h

/-- Another template has a scope of its own. -/
theorem sameIn_layout (enter : Option (Tree → Render σ String)) (name : String) {children : Render σ String}
    (h : SameIn first second children) : SameIn first second (layout renderer enter name children) := by
  refine SameIn.bind rfl fun _ => ?_
  have hcollecting : SameIn first second (collecting children) := by
    refine SameIn.keeping ?_ _
    exact SameIn.bind rfl fun _ => h.bind fun _ => SameIn.bind rfl fun _ => sameIn_pure _
  refine hcollecting.bind fun ⟨body, sections⟩ => ?_
  dsimp only
  split
  · exact sameIn_pure _
  · refine SameIn.bind rfl fun found => ?_
    cases found with
    | none => exact sameIn_pure _
    | some tree =>
        cases enter with
        | none => exact sameIn_pure _
        | some enter => rfl

theorem sameIn_inclusion (enter : Tree → Render σ String) (head : ComponentHead)
    {slots : List (String × Render σ String)} (h : ∀ slot ∈ slots, SameIn first second slot.2) :
    SameIn first second (inclusion renderer enter head slots) := by
  have hcontents : SameIn first second (slotContents slots) := by
    refine SameIn.bind (sameIn_mapM fun slot hmem => ?_) fun _ => sameIn_pure _
    exact (h slot hmem).bind fun _ => sameIn_pure _
  have hname (name : Option String) : SameIn first second (name.mapM (interpolate renderer)) := by
    cases name <;> rfl
  have hannounce (descriptor : Descriptor) : SameIn first second (announce renderer descriptor) := by
    unfold announce
    cases renderer.hooks.before <;> rfl
  refine SameIn.keeping ?_ _
  refine SameIn.bind rfl fun path => (hname _).bind fun name => (hname _).bind fun oldName => ?_
  refine (hannounce _).bind fun changed => SameIn.bind rfl fun found => ?_
  cases found with
  | none => exact sameIn_pure _
  | some tree =>
      refine (sameIn_parameterValues renderer _).bind fun values => SameIn.bind rfl fun _ => ?_
      exact hcontents.bind fun contents => SameIn.bind rfl fun output => sameIn_pure _

theorem sameIn_component (enter : Option (Tree → Render σ String)) (head : ComponentHead)
    {slots : List (String × Render σ String)} (h : ∀ slot ∈ slots, SameIn first second slot.2) :
    SameIn first second (component renderer enter head slots) := by
  cases enter with
  | none => exact sameIn_pure _
  | some enter => exact (sameIn_inclusion renderer enter head h).catching fun _ => sameIn_pure _

end Parts

/-- Nodes do the same in scopes that are alike: one case for each kind of node. -/
theorem sameIn_nodes (renderer : Renderer σ) (alike : first.Alike second) {entrances : Entrances σ}
    (hbody : ∀ way ∈ entrances.body, ∀ nodes, SameIn first second (way nodes)) :
    (∀ node, SameIn first second (ofNode renderer entrances node)) ∧
    (∀ bodies, ∀ body ∈ ofBodies renderer entrances bodies, SameIn first second body.2) ∧
    (∀ nodes, SameIn first second (ofNodes renderer entrances nodes)) := by
  apply ofNode.mutual_induct
  · intro source
    exact sameIn_pure _
  · intro expression
    exact sameIn_interpolation renderer expression
  · intro tag attributes children ih
    exact ih
  · intro branches ih
    exact sameIn_conditional renderer (sameIn_pure _) ih
  · intro branches otherwise hotherwise hbranches
    exact sameIn_conditional renderer hotherwise hbranches
  · intro item collection children ih
    exact sameIn_loop renderer item collection ih
  · intro head defaultSlot slots hdefault hslots
    refine sameIn_component renderer _ head fun slot hmem => ?_
    rcases List.mem_append.1 hmem with hown | hnamed
    · split at hown
      · cases hown
      · cases List.mem_singleton.1 hown
        exact hdefault
    · exact hslots slot hnamed
  · intro name children ih
    exact sameIn_layout renderer _ name ih
  · intro name children ih
    exact sameIn_sectionContent name ih
  · intro name required default ih
    exact sameIn_sectionPlace alike name required ih
  · exact sameIn_read_bind (by rw [alike.body]) (sameIn_pure _)
  · intro name default ih
    exact sameIn_slotPlace alike name ih
  · intro name body
    exact sameIn_pure _
  · intro name parameters
    exact sameIn_call renderer alike hbody name parameters
  -- lists of nodes
  · exact sameIn_pure _
  · intro node rest hnode hrest
    exact hnode.bind fun _ => hrest.bind fun _ => sameIn_pure _
  -- lists of bodies
  · exact fun body hmem => absurd hmem List.not_mem_nil
  · intro name body rest hbody hrest
    exact List.forall_mem_cons.2 ⟨hbody, hrest⟩

/-- However many calls may still be opened, nodes do the same in scopes that are alike. -/
theorem sameIn_entrancesLeft (renderer : Renderer σ) (alike : first.Alike second) (inclusions calls : Nat)
    (nodes : List Node) : SameIn first second (ofNodes renderer (entrancesLeft renderer inclusions calls) nodes) := by
  induction calls generalizing nodes with
  | zero =>
      refine (sameIn_nodes renderer alike fun way hway => ?_).2.2 nodes
      rw [body_entrancesLeft_zero] at hway
      cases hway
  | succ calls ih =>
      refine (sameIn_nodes renderer alike fun way hway => ?_).2.2 nodes
      rw [body_entrancesLeft_succ] at hway
      obtain rfl := Option.some.inj hway
      exact ih

end Render

end Stencil
