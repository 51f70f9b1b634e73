import Stencil.Proofs.EncodedOutput
import Stencil.Proofs.LayeredScopes

/-!
What counts as changed by a callback: every variable whose value is not equal to the value that it had, or
that had none, and nothing that is as it was. The stores are compared when the callback is done, so it is
enough that a value is equal to itself, an undefined number and an object of the host program included. Then
a parameter whose name the callback has left alone is resolved and bound.
-/

namespace Stencil

open Markup

theorem Floating.nearlyEqual_refl (x : Floating) : x.nearlyEqual x = true := by
  unfold nearlyEqual
  simp only [UInt64.sub_self, UInt64.zero_le, decide_true, Bool.or_true]

namespace Value

mutual

/-- A value is equal to itself. -/
theorem equal_refl : (value : Value) → value.equal value = true
  | .null => by simp only [equal]
  | .bool b => by simp only [equal, beq_self_eq_true]
  | .int n => by simp only [equal, beq_self_eq_true]
  | .float x => by simp only [equal, x.nearlyEqual_refl]
  | .string s => by simp only [equal, beq_self_eq_true]
  | .list items => by
      unfold equal
      exact equalItems_refl items
  | .map entries => by
      unfold equal
      exact equalEntries_refl entries
  | .object o => by simp only [equal, beq_self_eq_true]

theorem equalItems_refl : (items : List Value) → equalItems items items = true
  | [] => by simp only [equalItems]
  | item :: rest => by
      simp only [equalItems, equal_refl item, equalItems_refl rest, Bool.and_true]

theorem equalEntries_refl : (entries : List (String × Value)) → equalEntries entries entries = true
  | [] => by simp only [equalEntries]
  | (key, value) :: rest => by
      simp only [equalEntries, beq_self_eq_true, equal_refl value, equalEntries_refl rest, Bool.and_true]

end

instance : ReflBEq Value := ⟨equal_refl _⟩

end Value

namespace Variables

variable {store before : Variables} {name : String}

/-- A variable counts as changed exactly if it has a value, and no equal one before. -/
theorem get?_changedSince_eq_some_iff (distinct : store.Distinct) {value : Value} :
    (store.changedSince before).get? name = some value ↔
      store.get? name = some value ∧ ∀ old ∈ before.get? name, (old == value) = false := by
  unfold get?
  rw [Option.map_eq_some_iff, Option.map_eq_some_iff]
  constructor
  · rintro ⟨binding, hbinding, rfl⟩
    obtain ⟨hmem, hkey⟩ := (find?_eq_some_iff (distinct_changedSince distinct before)).1 hbinding
    obtain ⟨hstore, hdiffers⟩ := List.mem_filter.1 hmem
    refine ⟨⟨binding, (find?_eq_some_iff distinct).2 ⟨hstore, hkey⟩, rfl⟩, fun old hold => ?_⟩
    obtain ⟨earlier, hearlier, rfl⟩ := Option.map_eq_some_iff.1 hold
    rw [hkey, hearlier, Option.any_some, Bool.not_eq_eq_eq_not, Bool.not_true] at hdiffers
    exact hdiffers
  · rintro ⟨⟨binding, hbinding, rfl⟩, hdiffers⟩
    obtain ⟨hmem, hkey⟩ := (find?_eq_some_iff distinct).1 hbinding
    refine ⟨binding, (find?_eq_some_iff (distinct_changedSince distinct before)).2
      ⟨List.mem_filter.2 ⟨hmem, ?_⟩, hkey⟩, rfl⟩
    rw [hkey]
    cases hearlier : before.find? (fold name) with
    | none => rfl
    | some earlier =>
        rw [Option.any_some, hdiffers earlier.value (Option.map_eq_some_iff.2 ⟨earlier, hearlier, rfl⟩)]
        rfl

/-- What looks up to the same as before does not count as changed. -/
theorem contains_changedSince_of_get?_eq (distinct : store.Distinct)
    (h : store.get? name = before.get? name) : (store.changedSince before).contains name = false := by
  rw [contains_eq_isSome_get?, Option.isSome_eq_false_iff, Option.isNone_iff_eq_none]
  by_contra hchanged
  obtain ⟨value, hvalue⟩ := Option.ne_none_iff_exists'.1 hchanged
  obtain ⟨hstore, hdiffers⟩ := (get?_changedSince_eq_some_iff distinct).1 hvalue
  have hsame := hdiffers value (h ▸ hstore)
  rw [beq_self_eq_true] at hsame
  cases hsame

theorem latestValue?_cons (entry : String × Value) (entries : List (String × Value)) :
    latestValue? name (entry :: entries) =
      (latestValue? name entries).or (if fold entry.1 == fold name then some entry.2 else none) := by
  unfold latestValue?
  rw [List.reverse_cons, List.find?_append, List.find?_singleton, Option.map_or]
  split
  · rfl
  · rfl

end Variables

/-- The parameter that counts among those with a name. -/
def latestParameter? (name : String) (parameters : List Parameter) : Option Parameter :=
  parameters.reverse.find? fun parameter => Variables.fold parameter.name == Variables.fold name

section LatestParameter

variable {name : String} {parameters : List Parameter} {parameter : Parameter}

theorem latestParameter?_cons (first : Parameter) (parameters : List Parameter) :
    latestParameter? name (first :: parameters) =
      (latestParameter? name parameters).or
        (if Variables.fold first.name == Variables.fold name then some first else none) := by
  unfold latestParameter?
  rw [List.reverse_cons, List.find?_append, List.find?_singleton]

/-- A parameter counts, or a later one with its name does. -/
theorem exists_latestParameter? (h : parameter ∈ parameters) :
    ∃ latest, latestParameter? parameter.name parameters = some latest := by
  refine Option.isSome_iff_exists.1 (List.find?_isSome.2 ⟨parameter, List.mem_reverse.2 h, ?_⟩)
  exact beq_self_eq_true _

/-- Parameters that are left out because of their names do not decide which one counts for another name. -/
theorem latestParameter?_filter {changed : Variables} (h : changed.contains name = false)
    (parameters : List Parameter) :
    latestParameter? name (parameters.filter fun parameter => !changed.contains parameter.name) =
      latestParameter? name parameters := by
  unfold latestParameter?
  rw [← List.filter_reverse, List.find?_filter]
  refine congrArg (List.find? · parameters.reverse) (funext fun parameter => ?_)
  by_cases hsame : Variables.fold parameter.name = Variables.fold name
  · unfold Variables.contains at h ⊢
    simp [hsame, h]
  · simp [hsame]

end LatestParameter

/-- Of the parameters that are resolved, the one that counts for a name gives the value of the name. -/
theorem Resolver.ResolvesAll.latestValue? {r : Resolver} {parameters : List Parameter}
    {memory after : Memory} {values : List (String × Value)}
    (h : r.ResolvesAll parameters memory values after) {name : String} {latest : Parameter}
    (hlatest : latestParameter? name parameters = some latest) :
    ∃ value start stop, Resolver.outcome (r.parameterValue latest) start = (.ok value, stop) ∧
      Variables.latestValue? name values = some value := by
  have hnone {parameters : List Parameter} {memory after : Memory} {values : List (String × Value)}
      (h : r.ResolvesAll parameters memory values after) (hlatest : latestParameter? name parameters = none) :
      Variables.latestValue? name values = none := by
    refine Variables.latestValue?_eq_none fun entry hmem hsame => ?_
    have hname : entry.1 ∈ _ := h.names ▸ List.mem_map_of_mem hmem
    obtain ⟨parameter, hparameter, heq⟩ := List.mem_map.1 hname
    have hdiffers := List.find?_eq_none.1 hlatest parameter (List.mem_reverse.2 hparameter)
    rw [heq, hsame, beq_self_eq_true] at hdiffers
    exact hdiffers rfl
  induction h with
  | nil => cases hlatest
  | @cons parameter rest start middle after value values first others ih =>
      rw [latestParameter?_cons] at hlatest
      rw [Variables.latestValue?_cons]
      cases hlater : latestParameter? name rest with
      | some later =>
          rw [hlater] at hlatest
          obtain ⟨value, start, stop, hvalue, hfound⟩ := ih (hlater.trans hlatest)
          exact ⟨value, start, stop, hvalue, by rw [hfound, Option.some_or]⟩
      | none =>
          rw [hlater, Option.none_or] at hlatest
          rw [hnone others hlater, Option.none_or]
          split at hlatest
          next hsame =>
            cases hlatest
            exact ⟨value, start, middle, first, if_pos hsame⟩
          next => cases hlatest

namespace Render

variable {σ : Type} {renderer : Renderer σ} {scope : Scope} {frame after : Frame σ}

/-- Where parameters have been resolved, each of them has been, in the memory that those before it leave. -/
theorem resolvesAll_of_parameterValues {parameters : List Parameter} {values : List (String × Value)}
    (h : parameterValues renderer parameters scope frame = (.ok values, after)) :
    (renderer.resolver frame.vars).ResolvesAll parameters frame.memory values after.memory := by
  induction parameters generalizing frame values with
  | nil =>
      cases h
      exact .nil
  | cons parameter rest ih =>
      unfold parameterValues at h ih
      rw [List.mapM_cons, bind_assoc, bind_run] at h
      rcases hfirst : Resolver.outcome ((renderer.resolver frame.vars).parameterValue parameter)
        frame.memory with ⟨fault | value, middle⟩
      · rw [resolving_run hfirst] at h
        cases h
      · rw [resolving_run hfirst] at h
        dsimp only at h
        rw [pure_bind, bind_run] at h
        rcases hrest : rest.mapM (m := Render σ) (fun parameter => do
            let value ← resolving renderer fun resolver => resolver.parameterValue parameter
            return (parameter.name, value)) scope { frame with memory := middle } with ⟨fault | others, last⟩
        · rw [hrest] at h
          cases h
        · rw [hrest] at h
          cases h
          exact .cons hfirst (ih hrest)

section Changes

variable {before : Descriptor → Variables → Variables} {descriptor : Descriptor}

theorem changes_of_before (h : renderer.hooks.before = some before) (store : Variables) :
    renderer.changes descriptor store = (before descriptor store).changedSince store := by
  unfold Renderer.changes
  rw [h]

variable {head : ComponentHead} {shown : Frame σ} {tree : Tree} {loaded : σ}

/-- Where a parameter cannot be resolved, its fault is all that the inclusion gives. -/
theorem inclusion_of_unresolved (hdescribed : described renderer head scope frame = (.ok descriptor, shown))
    (hload : renderer.loader.load descriptor.path frame.loaded = (.ok (some tree), loaded)) {fault : Fault}
    (h : parameterValues renderer
      (head.parameters.filter fun parameter =>
        !(renderer.changes descriptor frame.store).contains parameter.name)
      scope { renderer.told descriptor shown with loaded } = (.error fault, after))
    (enter : Tree → Render σ String) (slots : List (String × Render σ String)) :
    inclusion renderer enter head slots scope frame = (.error fault, { after with store := frame.store }) := by
  have hprepared := prepared_loaded hdescribed hload
  rw [h] at hprepared
  rw [inclusion_eq]
  unfold keeping
  rw [bind_run, hprepared]

/-- Parameters come before all else in the variables of a component. -/
theorem get?_componentVariables_of_latest {vars changed : Variables} {values : List (String × Value)}
    {name : String} {value : Value} (h : Variables.latestValue? name values = some value) :
    (componentVariables vars changed descriptor values).get? name = some value := by
  unfold componentVariables Variables.layered
  simp only [List.foldl_cons, List.foldl_nil]
  rw [Variables.get?_extend (Variables.distinct_ofList values), Variables.get?_ofList, h, Option.some_or]

/-- A parameter whose name does not count as changed has a value in the template, that of the last parameter
with its name. -/
theorem get?_componentVariables_of_unchanged {changed vars : Variables} {parameter : Parameter}
    (hmem : parameter ∈ head.parameters) (hunchanged : changed.contains parameter.name = false)
    {memory memory' : Memory} {values : List (String × Value)} {r : Resolver}
    (hvalues : r.ResolvesAll (head.parameters.filter fun parameter => !changed.contains parameter.name)
      memory values memory') :
    ∃ latest value start stop, latestParameter? parameter.name head.parameters = some latest ∧
      Resolver.outcome (r.parameterValue latest) start = (.ok value, stop) ∧
      (componentVariables vars changed descriptor values).get? parameter.name = some value := by
  obtain ⟨latest, hlatest⟩ := exists_latestParameter? hmem
  rw [← latestParameter?_filter hunchanged] at hlatest
  obtain ⟨value, start, stop, hvalue, hfound⟩ := hvalues.latestValue? hlatest
  rw [latestParameter?_filter hunchanged] at hlatest
  exact ⟨latest, value, start, stop, hlatest, hvalue, get?_componentVariables_of_latest hfound⟩

/-- A callback counts as having changed exactly the variables that it leaves with another value than before,
or with their first one. A parameter whose name it has not touched is resolved, and bound in the template
unless that ends in a fault. -/
theorem announce_changes (renderer : Renderer σ) {before : Descriptor → Variables → Variables}
    (hbefore : renderer.hooks.before = some before) {descriptor : Descriptor} {frame : Frame σ}
    (distinct : (before descriptor frame.store).Distinct) :
    let left := before descriptor frame.store
    let changed := renderer.changes descriptor frame.store
    (∀ scope, announce renderer descriptor scope frame = (.ok changed, frame.called descriptor before)) ∧
    (∀ name value, changed.get? name = some value ↔
      left.get? name = some value ∧ ∀ old ∈ frame.store.get? name, (old == value) = false) ∧
    (∀ name, left.get? name = frame.store.get? name → changed.contains name = false) ∧
    ∀ (head : ComponentHead) (scope : Scope) (shown : Frame σ) (tree : Tree) (loaded : σ),
      described renderer head scope frame = (.ok descriptor, shown) →
      renderer.loader.load descriptor.path frame.loaded = (.ok (some tree), loaded) →
      match parameterValues renderer
          (head.parameters.filter fun parameter => !changed.contains parameter.name)
          scope { renderer.told descriptor shown with loaded } with
      | (.error fault, stopped) =>
          ∀ (enter : Tree → Render σ String) (slots : List (String × Render σ String)),
            inclusion renderer enter head slots scope frame =
              (.error fault, { stopped with store := frame.store })
      | (.ok values, ready) =>
          let vars := componentVariables ready.vars changed descriptor values
          (∀ (enter : Tree → Render σ String) (slots : List (String × Render σ String)),
            inclusion renderer enter head slots scope frame =
              match slotContents slots scope ready with
              | (.error fault, after) => (.error fault, { after with store := frame.store })
              | (.ok contents, after) =>
                  let (output, last) :=
                    enter tree { Scope.of tree with slots := contents } { after with vars, sections := none }
                  (output.map (renderer.finished descriptor),
                    { last with vars := after.vars, sections := after.sections, store := frame.store })) ∧
          ∀ parameter ∈ head.parameters, left.get? parameter.name = frame.store.get? parameter.name →
            ∃ latest value start stop, latestParameter? parameter.name head.parameters = some latest ∧
              Resolver.outcome ((renderer.resolver frame.vars).parameterValue latest) start =
                (.ok value, stop) ∧
              vars.get? parameter.name = some value := by
  intro left changed
  have hchanged : changed = left.changedSince frame.store := changes_of_before hbefore frame.store
  have huntouched (name : String) (h : left.get? name = frame.store.get? name) :
      changed.contains name = false := by
    rw [hchanged]
    exact Variables.contains_changedSince_of_get?_eq distinct h
  refine ⟨fun scope => ?_, fun name value => ?_, huntouched, ?_⟩
  · rw [announce_run]
    unfold Renderer.told
    rw [hbefore]
  · rw [hchanged]
    exact Variables.get?_changedSince_eq_some_iff distinct
  · intro head scope shown tree loaded hdescribed hload
    have hvars : (renderer.told descriptor shown).vars = frame.vars := by
      rw [Renderer.told_vars, eq_of_described hdescribed]
    have hprepared := prepared_loaded hdescribed hload
    rcases hvalues : parameterValues renderer
        (head.parameters.filter fun parameter => !changed.contains parameter.name)
        scope { renderer.told descriptor shown with loaded } with ⟨fault | values, ready⟩
    · exact inclusion_of_unresolved hdescribed hload hvalues
    · rw [hvalues] at hprepared
      have hresolved := resolvesAll_of_parameterValues hvalues
      dsimp only at hresolved
      rw [hvars] at hresolved
      exact ⟨inclusion_run hprepared, fun parameter hmem h =>
        get?_componentVariables_of_unchanged hmem (huntouched _ h) hresolved⟩

/-- A frame with a store in which a mood and a score are known. The score is an undefined number. -/
def scoredFrame : Frame Unit :=
  { tonedFrame with store := .ofList [("Mood", .string "sad"), ("score", .float (.undefined false))] }

/-- Of a mood and a score the callback has changed the mood alone. The tone of the card is that of its last
parameter. -/
theorem announce_changes_scored :
    let descriptor : Descriptor := ⟨none, none, "card", tonedCard.parameters⟩
    let changed := (moody.calling (some cheering)).changes descriptor scoredFrame.store
    changed.get? "MOOD" = some (.string "glad") ∧ changed.contains "score" = false ∧
      ∃ vars : Variables, vars.get? "tone" = some (.string "low key") ∧
        ∀ enter : Tree → Render Unit String,
          (inclusion (moody.calling (some cheering)) enter tonedCard [] {} scoredFrame).1 =
            (enter (Tree.ofNodes [.interpolation "mood"]) {}
              { (moody.calling (some cheering)).told descriptor scoredFrame with vars }).1 := by
  intro descriptor changed
  have distinct : (cheering descriptor scoredFrame.store).Distinct :=
    Variables.distinct_insert (Variables.distinct_ofList _) _ _
  have hdescribed : described (moody.calling (some cheering)) tonedCard {} scoredFrame =
      (.ok descriptor, scoredFrame) := by
    have hpath : Text.cut? ['{', '{'] tonedCard.path.toList = none := by decide
    unfold described
    rw [interpolate_of_unopened hpath]
    rfl
  obtain ⟨-, hiff, huntouched, hruns⟩ := announce_changes (moody.calling (some cheering)) rfl distinct
  have hmood : changed.get? "MOOD" = some (.string "glad") := by
    refine (hiff "MOOD" _).2 ⟨rfl, fun old hold => ?_⟩
    cases hold
    decide
  have hskipped : changed.contains "Mood" = true := by
    rw [Variables.contains_eq_isSome_get?]
    exact congrArg Option.isSome hmood
  have htone : changed.contains "tone" = false := huntouched "tone" rfl
  have hfiltered : (tonedCard.parameters.filter fun parameter => !changed.contains parameter.name) =
      tonedCard.parameters.drop 1 := by
    have hTONE : changed.contains "TONE" = false := huntouched "TONE" rfl
    unfold tonedCard
    simp only [List.filter_cons, List.filter_nil, hskipped, htone, hTONE, List.drop_one, List.tail_cons]
    rfl
  have hrun := hruns tonedCard {} scoredFrame _ () hdescribed rfl
  rw [hfiltered, parameterValues_run (resolvesAll_toned _ _)] at hrun
  obtain ⟨hincluded, hbound⟩ := hrun
  obtain ⟨latest, value, start, stop, hlatest, hvalue, hfound⟩ :=
    hbound ⟨"tone", "very loud", none⟩ (by decide) rfl
  cases hlatest
  rw [parameterValue_low] at hvalue
  cases hvalue
  refine ⟨hmood, huntouched "score" rfl, _, hfound, fun enter => ?_⟩
  have hsame (result : Except Fault String) : result.map (fun output => output) = result := by
    cases result with
    | error fault => rfl
    | ok output => rfl
  rw [hincluded]
  exact hsame _

end Changes

end Render

end Stencil
