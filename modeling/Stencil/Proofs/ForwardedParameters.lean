import Mathlib.Logic.Function.Iterate
import Stencil.Proofs.ChangedVariables
import Stencil.Proofs.LayeredScopes
import Stencil.Proofs.Rendering.Likeness
import Stencil.Proofs.Rendering.Telling
import Stencil.Proofs.Resolution.Path

/-!
Where a render stands. At every moment there are nodes still to be rendered in some template, with what is left
of the limits, with a scope and with a frame. A call and a component enter another body: what they give is what
this body gives from where it starts.

Parameters that are passed on. Where calls and components, one inside the template of another, all pass on a
variable under its own name, it comes in with the value that it had outside. Every time it is passed on, a
string loses the quotes around it, if it has some; no other value changes, however often it is passed on.
-/

namespace Stencil.Render

open Markup

variable {σ : Type}

/-- Nodes that are to be rendered, with what is left of the limits, the scope and the frame. -/
structure Stage (σ : Type) where
  inclusions : Nat
  calls : Nat
  scope : Scope
  nodes : List Node
  frame : Frame σ

namespace Stage

/-- The ways that lead on from a stage. -/
def entrances (stage : Stage σ) (renderer : Renderer σ) : Entrances σ :=
  entrancesLeft renderer stage.inclusions stage.calls

/-- What the nodes of a stage give. -/
def output (stage : Stage σ) (renderer : Renderer σ) : Except Fault String :=
  (ofNodes renderer (stage.entrances renderer) stage.nodes stage.scope stage.frame).1

/-- The second stage is in the same template as the first: behind nodes that have been rendered, or in a child
list of one. Where a child list starts, a name means what it meant. It may start after more has been resolved,
in an iteration over another name, or behind other slots. -/
inductive Reaches (renderer : Renderer σ) (name : String) : Stage σ → Stage σ → Prop
  | here {stage : Stage σ} : Reaches renderer name stage stage
  | behind {stage last : Stage σ} {node : Node} {rest : List Node} {output : String} {after : Frame σ}
      (front : stage.nodes = node :: rest)
      (rendered : ofNode renderer (stage.entrances renderer) node stage.scope stage.frame =
        (.ok output, after))
      (others : Reaches renderer name { stage with nodes := rest, frame := after } last) :
      Reaches renderer name stage last
  | within {stage last : Stage σ} {node : Node} {rest children : List Node} {start : Frame σ}
      (front : stage.nodes = node :: rest) (part : children ∈ node.childLists)
      (kept : start.vars.get? name = stage.frame.vars.get? name)
      (others : Reaches renderer name { stage with nodes := children, frame := start } last) :
      Reaches renderer name stage last

/-- What is reached in a template knows a name as the template knew it where this began. -/
theorem Reaches.get?_eq {renderer : Renderer σ} {name : String} {stage last : Stage σ}
    (h : stage.Reaches renderer name last) : last.frame.vars.get? name = stage.frame.vars.get? name := by
  induction h with
  | here => rfl
  | @behind stage last node rest output after front rendered others ih =>
      have hpersists :=
        (persists_ofNode renderer stage.inclusions stage.calls node stage.scope stage.frame).vars name
      change (ofNode renderer (stage.entrances renderer) node stage.scope stage.frame).2.vars.get? name = _
        at hpersists
      rw [rendered] at hpersists
      exact ih.trans hpersists
  | within front part kept others ih => exact ih.trans kept

/-- A call or a component in front of a stage enters the body that it stands for. There its parameters are
bound, and what the body gives is left as told. -/
inductive Enters (renderer : Renderer σ) :
    Stage σ → List Parameter → (Except Fault String → Except Fault String) → Stage σ → Prop
  | call {stage : Stage σ} {name : String} {parameters : List Parameter} {rest body : List Node} {calls : Nat}
      {values : List (String × Value)} {ready : Frame σ}
      (front : stage.nodes = .call name parameters :: rest)
      (known : stage.scope.fragments.lookup (Text.lowercase name) = some body)
      (left : stage.calls = calls + 1)
      (resolved : parameterValues renderer parameters stage.scope stage.frame.opened = (.ok values, ready)) :
      Enters renderer stage parameters id
        { stage with
          calls, nodes := body
          frame := { ready with vars := ready.vars.extend (Variables.ofList values) } }
  | component {stage : Stage σ} {head : ComponentHead} {defaultSlot rest : List Node}
      {slots : List (String × List Node)} {inclusions : Nat} {descriptor : Descriptor} {tree : Tree} {loaded : σ}
      {values : List (String × Value)} {contents : List (String × String)} {shown ready filled : Frame σ}
      (front : stage.nodes = .component head defaultSlot slots :: rest)
      (left : stage.inclusions = inclusions + 1)
      (described : described renderer head stage.scope stage.frame = (.ok descriptor, shown))
      (found : renderer.loader.load descriptor.path stage.frame.loaded = (.ok (some tree), loaded))
      (resolved : parameterValues renderer
        (head.parameters.filter fun parameter =>
          !(renderer.changes descriptor stage.frame.store).contains parameter.name)
        stage.scope { renderer.told descriptor shown with loaded } = (.ok values, ready))
      (slotted : slotContents (slotSteps renderer (stage.entrances renderer) defaultSlot slots) stage.scope
        ready = (.ok contents, filled)) :
      Enters renderer stage head.parameters
        (fun output => .ok (match output with
          | .ok output => renderer.finished descriptor output
          | .error fault => failureComment head fault))
        { inclusions, calls := stage.calls, nodes := tree.children
          scope := { Scope.of tree with slots := contents }
          frame := { filled with
            sections := none
            vars := componentVariables ready.vars (renderer.changes descriptor stage.frame.store) descriptor
              values } }

/-- What a call or a component gives is what it leaves of the body that it enters. -/
theorem Enters.output_eq {renderer : Renderer σ} {stage entered : Stage σ} {parameters : List Parameter}
    {leave : Except Fault String → Except Fault String} (h : stage.Enters renderer parameters leave entered) :
    ∃ node rest, stage.nodes = node :: rest ∧
      (ofNode renderer (stage.entrances renderer) node stage.scope stage.frame).1 =
        leave (entered.output renderer) := by
  cases h with
  | @call name parameters rest body calls values ready front known left resolved =>
      refine ⟨_, rest, front, ?_⟩
      unfold output entrances
      rw [ofNode, left, body_entrancesLeft_succ, call_run renderer known _ resolved]
      rfl
  | @component head defaultSlot rest slots inclusions descriptor tree loaded values contents shown ready filled
      front left described found resolved slotted =>
      refine ⟨_, rest, front, ?_⟩
      have hprepared := prepared_loaded described found
      rw [resolved] at hprepared
      have hincluded := inclusion_run hprepared
        (fun tree => ofNodes renderer (entrancesLeft renderer inclusions stage.calls) tree.children)
        (slotSteps renderer (stage.entrances renderer) defaultSlot slots)
      rw [slotted] at hincluded
      have htree : (stage.entrances renderer).tree =
          some fun tree => ofNodes renderer (entrancesLeft renderer inclusions stage.calls) tree.children := by
        unfold entrances
        rw [left, tree_entrancesLeft_succ]
      rw [ofNode_component, htree]
      unfold Render.component
      dsimp only
      rw [tryCatch_run, hincluded]
      dsimp only
      unfold output entrances
      dsimp only
      rcases ofNodes renderer (entrancesLeft renderer inclusions stage.calls) tree.children _ _ with
        ⟨fault | output, last⟩
      · rfl
      · rfl

end Stage

end Stencil.Render

namespace Stencil

open Markup Text

/-- Only strings in matching quotes lose quotes. -/
theorem Value.unwrapQuoted_eq_self {value : Value}
    (h : ∀ text, value = .string text → betweenQuotes? text.toList = none) : value.unwrapQuoted = value := by
  cases value with
  | string text =>
      unfold unwrapQuoted
      dsimp only
      rw [h text rfl]
  | _ => rfl

/-- Of parameters that are resolved, one that passes on a bound name gives its value without the quotes
around it. -/
theorem Resolver.ResolvesAll.latestValue?_passed {r : Resolver} {parameters : List Parameter}
    {memory after : Memory} {values : List (String × Value)} (h : r.ResolvesAll parameters memory values after)
    {name : String} (identifier : isIdentifier name.toList = true) (open_ : r.security.blocks name = false)
    (accepted : Gate.checkExpression r.security name = .ok ()) {value : Value}
    (bound : r.vars.get? name = some value)
    (passed : latestParameter? name parameters = some ⟨name, interpolationText name, none⟩) :
    Variables.latestValue? name values = some value.unwrapQuoted := by
  obtain ⟨found, start, stop, hfound, hlatest⟩ := h.latestValue? passed
  have hanswer := r.answer_parameterValue_interpolation identifier open_ accepted bound name start
  cases (congrArg Prod.fst hfound).symm.trans hanswer
  exact hlatest

namespace Render

variable {σ : Type} {renderer : Renderer σ}

/-- From the first stage to the second, so many calls and components are entered one inside the template of
another, and each of them passes on the variable. -/
inductive Stage.Forwards (renderer : Renderer σ) (name : String) : Stage σ → Nat → Stage σ → Prop
  | here {outer inner : Stage σ} (reached : outer.Reaches renderer name inner) :
      Forwards renderer name outer 0 inner
  | entering {outer before entered inner : Stage σ} {parameters : List Parameter} {hops : Nat}
      {leave : Except Fault String → Except Fault String} (reached : outer.Reaches renderer name before)
      (passed : latestParameter? name parameters = some ⟨name, interpolationText name, none⟩)
      (enters : before.Enters renderer parameters leave entered)
      (others : Forwards renderer name entered hops inner) : Forwards renderer name outer (hops + 1) inner

section Forwarding

variable {name : String} {value : Value} (silent : renderer.hooks.before = none)
  (identifier : isIdentifier name.toList = true) (open_ : renderer.security.blocks name = false)
  (accepted : Gate.checkExpression renderer.security name = .ok ())

include silent identifier open_ accepted

/-- What is entered knows a variable that is passed on, without the quotes around its value. -/
theorem Stage.Enters.get?_passed {stage entered : Stage σ} {parameters : List Parameter}
    {leave : Except Fault String → Except Fault String} (h : stage.Enters renderer parameters leave entered)
    (passed : latestParameter? name parameters = some ⟨name, interpolationText name, none⟩)
    (bound : stage.frame.vars.get? name = some value) :
    entered.frame.vars.get? name = some value.unwrapQuoted := by
  cases h with
  | call front known left resolved =>
      have hlatest := (resolvesAll_of_parameterValues resolved).latestValue?_passed identifier open_ accepted bound
        passed
      dsimp only
      rw [Variables.get?_extend (Variables.distinct_ofList _), Variables.get?_ofList, hlatest, Option.some_or]
  | @component head _ _ _ _ descriptor _ _ _ _ shown _ _ front left described found resolved slotted =>
      have hvars : (renderer.told descriptor shown).vars = stage.frame.vars := by
        rw [Renderer.told_vars, eq_of_described described]
      have hunchanged : (renderer.changes descriptor stage.frame.store).contains name = false := by
        unfold Renderer.changes
        rw [silent]
        rfl
      have hresolved := resolvesAll_of_parameterValues resolved
      dsimp only at hresolved
      rw [hvars] at hresolved
      rw [← latestParameter?_filter hunchanged] at passed
      exact get?_componentVariables_of_latest
        (hresolved.latestValue?_passed identifier open_ accepted bound passed)

theorem Stage.Forwards.get?_eq {outer inner : Stage σ} {hops : Nat}
    (h : outer.Forwards renderer name hops inner) (bound : outer.frame.vars.get? name = some value) :
    inner.frame.vars.get? name = some (Value.unwrapQuoted^[hops] value) := by
  induction h generalizing value with
  | here reached => exact reached.get?_eq.trans bound
  | entering reached passed enters others ih =>
      have hentered := enters.get?_passed silent identifier open_ accepted passed (reached.get?_eq.trans bound)
      rw [Function.iterate_succ_apply]
      exact ih hentered

end Forwarding

/-- However often a variable is passed on, in the innermost body it has the value that it had outside, which has
lost one layer of quotes each time. So a value that is not a string in quotes comes in as it is, and there is no
value where null was passed on. -/
theorem parameter_forwarded (silent : renderer.hooks.before = none) {name : String}
    (identifier : isIdentifier name.toList = true) (open_ : renderer.security.blocks name = false)
    (accepted : Gate.checkExpression renderer.security name = .ok ()) {outer inner : Stage σ} {hops : Nat}
    (forwards : outer.Forwards renderer name hops inner) {value : Value}
    (bound : outer.frame.vars.get? name = some value) :
    let found := (resolve renderer name inner.scope inner.frame).1
    inner.frame.vars.get? name = some (Value.unwrapQuoted^[hops] value) ∧
      found = .ok (Resolver.finished (some (Value.unwrapQuoted^[hops] value))) ∧
      ((∀ text, value = .string text → Value.betweenQuotes? text.toList = none) →
        inner.frame.vars.get? name = some value ∧ found = .ok (Resolver.present value)) := by
  intro found
  have harrived := forwards.get?_eq silent identifier open_ accepted bound
  have hfound : found = .ok (Resolver.finished (some (Value.unwrapQuoted^[hops] value))) :=
    congrArg Prod.fst (resolve_name identifier open_ accepted harrived)
  refine ⟨harrived, hfound, fun hplain => ?_⟩
  have hsame := Value.unwrapQuoted_eq_self hplain
  rw [Function.iterate_fixed hsame] at harrived hfound
  refine ⟨harrived, hfound.trans ?_⟩
  unfold Resolver.finished
  rw [Option.map_some, Option.bind_some, hsame]

/-- A mood that is passed on. -/
def passedMood : List Parameter := [⟨"mood", interpolationText "mood", none⟩]

/-- A page that shows a mood by way of a fragment, which passes it on to a card. -/
def moodStage (mood : Value) : Stage Unit where
  inclusions := 1
  calls := 1
  scope := { fragments := [("show", [.component ⟨.direct, "card", none, none, passedMood⟩ [] []])] }
  nodes := [.text "Mood: ", .call "show" passedMood]
  frame := { vars := .ofList [("mood", mood)], store := {}, loaded := () }

theorem parameterValues_passedMood (scope : Scope) {frame : Frame Unit} {mood : Value}
    (bound : frame.vars.get? "mood" = some mood) :
    ∃ memory, parameterValues moody passedMood scope frame =
      (.ok [("mood", mood.unwrapQuoted)], { frame with memory }) := by
  have open_ : moody.security.blocks "mood" = false := by decide
  have hanswer := (moody.resolver frame.vars).answer_parameterValue_interpolation (by decide) open_
    moody_accepts_mood bound "mood" frame.memory
  exact ⟨_, parameterValues_run (.cons (Prod.ext hanswer rfl) .nil)⟩

/-- The page passes its mood on twice, to where the card shows it. -/
theorem moodStage_forwards (mood : Value) :
    ∃ inner, (moodStage mood).Forwards moody "mood" 2 inner ∧ inner.nodes = [.interpolation "mood"] := by
  let page := moodStage mood
  let called : Frame Unit := page.frame.opened
  have hcalled : called.vars.get? "mood" = some mood := rfl
  obtain ⟨memory, hvalues⟩ := parameterValues_passedMood page.scope hcalled
  let fragment : Frame Unit := { called with
    memory
    vars := called.vars.extend (.ofList [("mood", mood.unwrapQuoted)]) }
  have hfragment : fragment.vars.get? "mood" = some mood.unwrapQuoted := rfl
  obtain ⟨memory', hvalues'⟩ := parameterValues_passedMood page.scope hfragment
  have hdescribed : described moody ⟨.direct, "card", none, none, passedMood⟩ page.scope fragment =
      (.ok ⟨none, none, "card", passedMood⟩, fragment) := by
    have hpath : Text.cut? ['{', '{'] "card".toList = none := by decide
    unfold described
    simp only [ComponentHead.path, interpolate_of_unopened hpath, pure_bind, Option.mapM_none]
    rfl
  refine ⟨_, .entering (.behind rfl rfl .here) rfl (.call rfl rfl rfl hvalues)
    (.entering .here rfl (.component rfl rfl hdescribed rfl hvalues' rfl) (.here .here)), rfl⟩

/-- A mood in quotes within quotes comes to the card without quotes, and one that has none comes as it is. -/
theorem parameter_forwarded_mood :
    (∃ inner, (moodStage (.string "'\"glad\"'")).Forwards moody "mood" 2 inner ∧
      inner.frame.vars.get? "mood" = some (.string "glad")) ∧
    ∃ inner, (moodStage (.string "glad")).Forwards moody "mood" 2 inner ∧
      inner.frame.vars.get? "mood" = some (.string "glad") ∧
      (resolve moody "mood" inner.scope inner.frame).1 = .ok (some (.string "glad")) := by
  have open_ : moody.security.blocks "mood" = false := by decide
  obtain ⟨quoted, hquoted, -⟩ := moodStage_forwards (.string "'\"glad\"'")
  obtain ⟨plain, hplain, -⟩ := moodStage_forwards (.string "glad")
  have hunquoted := (parameter_forwarded rfl (by decide) open_ moody_accepts_mood hquoted rfl).1
  have hsame := (parameter_forwarded rfl (by decide) open_ moody_accepts_mood hplain rfl).2.2 fun text htext => by
    cases htext
    decide
  exact ⟨⟨quoted, hquoted, hunquoted⟩, plain, hplain, hsame⟩

/-- A variable that is passed on may come in with another value than it had. -/
theorem not_forwarded_unchanged :
    ¬ ∀ (renderer : Renderer Unit), renderer.hooks.before = none → ∀ (name : String),
      isIdentifier name.toList = true → renderer.security.blocks name = false →
      Gate.checkExpression renderer.security name = .ok () →
      ∀ (outer inner : Stage Unit) (hops : Nat), outer.Forwards renderer name hops inner →
      ∀ value, value ≠ .null → outer.frame.vars.get? name = some value →
      inner.frame.vars.get? name = some value := by
  intro hunchanged
  have open_ : moody.security.blocks "mood" = false := by decide
  obtain ⟨inner, hforwards, -⟩ := moodStage_forwards (.string "'glad'")
  have harrived : inner.frame.vars.get? "mood" = some (.string "glad") :=
    hforwards.get?_eq rfl (by decide) open_ moody_accepts_mood rfl
  have hsame := hunchanged moody rfl "mood" (by decide) open_ moody_accepts_mood _ inner 2 hforwards
    (.string "'glad'") (fun hnull => nomatch hnull) rfl
  have htexts : "glad" = "'glad'" := Value.string.inj (Option.some.inj (harrived.symm.trans hsame))
  exact absurd htexts (by decide)

end Render

end Stencil
