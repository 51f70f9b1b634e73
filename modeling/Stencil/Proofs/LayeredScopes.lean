import Stencil.Proofs.ContainedFailures
import Stencil.Proofs.IsolatedCallbacks

/-!
What names mean in the template of a component. What the callback has just changed comes first, then the
parameters, then what tells the component about itself, and then the surroundings. Parameters and the contents
of slots belong to the surroundings: they are resolved and rendered where names mean what they mean around the
component.
-/

namespace Stencil

open Markup

namespace Variables

variable {vars more store before changed : Variables} {name : String}

theorem contains_eq_isSome_get? (vars : Variables) (name : String) :
    vars.contains name = (vars.get? name).isSome :=
  (Option.isSome_map ..).symm

theorem get?_extend (distinct : more.Distinct) (name : String) :
    (vars.extend more).get? name = (more.get? name).or (vars.get? name) := by
  unfold get?
  rw [find?_extend, latest?_eq_find? distinct, Option.map_or]

/-- The value that counts among names and values bound one after another. -/
def latestValue? (name : String) (entries : List (String × Value)) : Option Value :=
  (entries.reverse.find? fun entry => fold entry.1 == fold name).map Prod.snd

theorem get?_ofList (entries : List (String × Value)) (name : String) :
    (ofList entries).get? name = latestValue? name entries := by
  induction entries using List.reverseRecOn with
  | nil => rfl
  | append_singleton entries entry ih =>
      unfold latestValue? at ih ⊢
      rw [ofList_concat, get?_insert, List.reverse_append, List.reverse_singleton, List.singleton_append,
        List.find?_cons]
      split
      next hsame =>
        rw [hsame]
        rfl
      next hother =>
        rw [Bool.eq_false_iff.2 hother]
        exact ih

/-- A name that none of the entries have has no value among them. -/
theorem latestValue?_eq_none {entries : List (String × Value)}
    (h : ∀ entry ∈ entries, fold entry.1 ≠ fold name) : latestValue? name entries = none := by
  unfold latestValue?
  rw [Option.map_eq_none_iff, List.find?_eq_none]
  exact fun entry hmem hsame => h entry (List.mem_reverse.1 hmem) (eq_of_beq hsame)

theorem distinct_changedSince (distinct : store.Distinct) (before : Variables) :
    (store.changedSince before).Distinct :=
  distinct.sublist (List.filter_sublist.map _)

/-- What has changed in a store has the value that it has there. -/
theorem get?_changedSince (distinct : store.Distinct) (h : (store.changedSince before).contains name) :
    (store.changedSince before).get? name = store.get? name := by
  obtain ⟨binding, hbinding⟩ := Option.isSome_iff_exists.1 h
  obtain ⟨hmem, hkey⟩ := (find?_eq_some_iff (distinct_changedSince distinct before)).1 hbinding
  unfold get?
  rw [hbinding, (find?_eq_some_iff distinct).2 ⟨(List.mem_filter.1 hmem).1, hkey⟩]

theorem distinct_technical (descriptor : Descriptor) : (technical descriptor).Distinct :=
  distinct_ofList _

/-- Where no technical name is bound, a store without technical names holds what it held with them. -/
theorem get?_withoutTechnical (distinct : vars.Distinct) (folded : vars.Folded) (descriptor : Descriptor)
    (h : (technical descriptor).get? name = none) :
    (vars.filter fun name _ => !Render.technicalNames.any (Text.sameName · name)).get? name =
      vars.get? name := by
  unfold get?
  rw [find?_filter distinct]
  cases hfound : vars.find? (fold name) with
  | none => rfl
  | some binding =>
      obtain ⟨hmem, hkey⟩ := (find?_eq_some_iff distinct).1 hfound
      have hkept : Render.technicalNames.any (Text.sameName · binding.name) = false := by
        by_contra hany
        have hbound := technical_bound descriptor (Bool.of_not_eq_false hany)
        rw [← folded binding hmem, hkey, latest?_eq_find? (distinct_technical descriptor)] at hbound
        exact hbound (Option.map_eq_none_iff.1 h)
      rw [Option.filter_some, hkept]
      rfl

/-- The layers of the variables of a component, one behind another. -/
theorem get?_componentVariables (distinct : vars.Distinct) (folded : vars.Folded)
    (hchanged : changed.Distinct) (descriptor : Descriptor) (values : List (String × Value))
    (name : String) :
    (Render.componentVariables vars changed descriptor values).get? name =
      (latestValue? name values).or ((changed.get? name).or
        (((technical descriptor).get? name).or (vars.get? name))) := by
  let own := vars.filter fun name _ => !Render.technicalNames.any (Text.sameName · name)
  change (((({} : Variables).extend own).extend (technical descriptor)).extend changed |>.extend
    (ofList values)).get? name = _
  rw [get?_extend (distinct_ofList values), get?_ofList, get?_extend hchanged,
    get?_extend (distinct_technical descriptor), get?_extend (distinct_filter distinct _)]
  refine congrArg (Option.or _) (congrArg (Option.or _) ?_)
  cases htechnical : (technical descriptor).get? name with
  | some value => rfl
  | none =>
      rw [get?_withoutTechnical distinct folded descriptor htechnical]
      exact Option.or_none

end Variables

namespace Resolver

/-- Parameters are resolved one after another, none with a fault, and give these names and values. -/
inductive ResolvesAll (r : Resolver) : List Parameter → Memory → List (String × Value) → Memory → Prop
  | nil {memory : Memory} : ResolvesAll r [] memory [] memory
  | cons {parameter : Parameter} {rest : List Parameter} {memory middle after : Memory} {value : Value}
      {values : List (String × Value)} (first : outcome (r.parameterValue parameter) memory = (.ok value, middle))
      (others : ResolvesAll r rest middle values after) :
      ResolvesAll r (parameter :: rest) memory ((parameter.name, value) :: values) after

variable {r : Resolver} {parameters : List Parameter} {memory after : Memory}
  {values : List (String × Value)}

theorem ResolvesAll.names (h : r.ResolvesAll parameters memory values after) :
    values.map Prod.fst = parameters.map Parameter.name := by
  induction h with
  | nil => rfl
  | cons _ _ ih => exact congrArg (List.cons _) ih

end Resolver

/-- The frame of an inclusion when the callback has been told of it, if there is one. -/
def Renderer.told {σ : Type} (renderer : Renderer σ) (descriptor : Descriptor) (frame : Frame σ) : Frame σ :=
  match renderer.hooks.before with
  | none => frame
  | some before => frame.called descriptor before

@[simp] theorem Renderer.told_vars {σ : Type} (renderer : Renderer σ) (descriptor : Descriptor)
    (frame : Frame σ) : (renderer.told descriptor frame).vars = frame.vars := by
  unfold Renderer.told
  split
  · rfl
  · rfl

@[simp] theorem Renderer.told_loaded {σ : Type} (renderer : Renderer σ) (descriptor : Descriptor)
    (frame : Frame σ) : (renderer.told descriptor frame).loaded = frame.loaded := by
  unfold Renderer.told
  split
  · rfl
  · rfl

/-- What the callback changes in a store; without a callback this is nothing. -/
def Renderer.changes {σ : Type} (renderer : Renderer σ) (descriptor : Descriptor) (store : Variables) :
    Variables :=
  match renderer.hooks.before with
  | none => {}
  | some before => (before descriptor store).changedSince store

/-- The output of a component with a descriptor, as the host program leaves it. -/
def Renderer.finished {σ : Type} (renderer : Renderer σ) (descriptor : Descriptor) (output : String) : String :=
  match renderer.hooks.after with
  | some after => after descriptor output
  | none => output

namespace Render

variable {σ : Type} {renderer : Renderer σ} {scope : Scope} {frame : Frame σ}

theorem announce_run (renderer : Renderer σ) (descriptor : Descriptor) (scope : Scope) (frame : Frame σ) :
    announce renderer descriptor scope frame =
      (.ok (renderer.changes descriptor frame.store), renderer.told descriptor frame) := by
  unfold announce Renderer.changes Renderer.told
  cases renderer.hooks.before with
  | none => rfl
  | some before => rfl

theorem parameterValues_run {parameters : List Parameter} {values : List (String × Value)}
    {memory : Memory}
    (h : (renderer.resolver frame.vars).ResolvesAll parameters frame.memory values memory) :
    parameterValues renderer parameters scope frame = (.ok values, { frame with memory }) := by
  generalize hmemory : frame.memory = start at h
  generalize hresolver : renderer.resolver frame.vars = resolver at h
  induction h generalizing frame with
  | nil =>
      subst hmemory
      rfl
  | @cons parameter rest start middle after value values first others ih =>
      have hfirst : resolving renderer (fun resolver => resolver.parameterValue parameter) scope frame =
          (.ok value, { frame with memory := middle }) := by
        subst hmemory hresolver
        exact congrArg (fun result => (result.1, { frame with memory := result.2 })) first
      have hrest := @ih { frame with memory := middle } rfl hresolver
      unfold parameterValues at hrest ⊢
      rw [List.mapM_cons, bind_assoc, bind_run, hfirst]
      dsimp only
      rw [pure_bind, bind_run, hrest]
      rfl

section Included

variable {head : ComponentHead} {shown : Frame σ} {descriptor : Descriptor} {tree : Tree} {loaded : σ}
  {values : List (String × Value)} {memory : Memory}

theorem eq_of_described (h : described renderer head scope frame = (.ok descriptor, shown)) :
    shown = { frame with memory := shown.memory } := by
  have hkept : Keeps (fun after => after = { frame with memory := after.memory }) scope (fun _ => True)
      (described renderer head) :=
    keeps_described renderer head fun after memory hafter => by rw [hafter]
  have hshown := (hkept frame rfl).1
  rw [h] at hshown
  exact hshown

/-- A component whose template has been found is prepared as soon as its parameters are resolved. -/
theorem prepared_loaded (hdescribed : described renderer head scope frame = (.ok descriptor, shown))
    (hload : renderer.loader.load descriptor.path frame.loaded = (.ok (some tree), loaded)) :
    prepared renderer head scope frame =
      match parameterValues renderer
          (head.parameters.filter fun parameter =>
            !(renderer.changes descriptor frame.store).contains parameter.name)
          scope { renderer.told descriptor shown with loaded } with
      | (.error fault, after) => (.error fault, after)
      | (.ok values, after) =>
          (.ok (some (descriptor,
            componentVariables after.vars (renderer.changes descriptor frame.store) descriptor values, tree)),
            after) := by
  have hshown := eq_of_described hdescribed
  have hstore : shown.store = frame.store := by rw [hshown]
  have hfound : load renderer descriptor.path scope (renderer.told descriptor shown) =
      (.ok (some tree), { renderer.told descriptor shown with loaded }) := by
    have hloaded : (renderer.told descriptor shown).loaded = frame.loaded := by
      rw [Renderer.told_loaded, hshown]
    unfold load
    rw [hloaded, hload]
  rw [prepared_eq, bind_run, hdescribed]
  dsimp only
  rw [bind_run, announce_run, hstore]
  dsimp only
  rw [bind_run, hfound]
  dsimp only
  rw [bind_run]
  rcases parameterValues renderer _ scope _ with ⟨fault | values, after⟩
  · rfl
  · rfl

/-- Before its slots are filled an inclusion has changed nothing but the store, what is remembered, and what
the loader keeps. -/
theorem prepared_run (hdescribed : described renderer head scope frame = (.ok descriptor, shown))
    (hload : renderer.loader.load descriptor.path frame.loaded = (.ok (some tree), loaded))
    (hvalues : (renderer.resolver frame.vars).ResolvesAll
      (head.parameters.filter fun parameter =>
        !(renderer.changes descriptor frame.store).contains parameter.name)
      (renderer.told descriptor shown).memory values memory) :
    prepared renderer head scope frame =
      (.ok (some (descriptor,
          componentVariables frame.vars (renderer.changes descriptor frame.store) descriptor values, tree)),
        { renderer.told descriptor shown with loaded, memory }) := by
  have hshown := eq_of_described hdescribed
  have hvars : (renderer.told descriptor shown).vars = frame.vars := by rw [Renderer.told_vars, hshown]
  have hresolved : parameterValues renderer
      (head.parameters.filter fun parameter =>
        !(renderer.changes descriptor frame.store).contains parameter.name)
      scope { renderer.told descriptor shown with loaded } =
        (.ok values, { renderer.told descriptor shown with loaded, memory }) :=
    parameterValues_run (hvars ▸ hvalues)
  rw [prepared_loaded hdescribed hload, hresolved, ← hvars]

/-- An inclusion that has been prepared fills its slots in the scope around it. Then it enters the template, with
the variables of the component and with nothing in scope but the template and the slots. -/
theorem inclusion_run {vars : Variables} {ready : Frame σ}
    (h : prepared renderer head scope frame = (.ok (some (descriptor, vars, tree)), ready))
    (enter : Tree → Render σ String) (slots : List (String × Render σ String)) :
    inclusion renderer enter head slots scope frame =
      match slotContents slots scope ready with
      | (.error fault, after) => (.error fault, { after with store := frame.store })
      | (.ok contents, after) =>
          let (output, last) :=
            enter tree { Scope.of tree with slots := contents } { after with vars, sections := none }
          (output.map (renderer.finished descriptor),
            { last with vars := after.vars, sections := after.sections, store := frame.store }) := by
  rw [inclusion_eq]
  unfold keeping
  rw [bind_run, h]
  dsimp only
  unfold filled
  rw [bind_run]
  rcases slotContents slots scope ready with ⟨fault | contents, after⟩
  · rfl
  · dsimp only
    rw [bind_run]
    unfold inside
    rcases enter tree { Scope.of tree with slots := contents } { after with vars, sections := none } with
      ⟨fault | output, last⟩
    · rfl
    · rfl

end Included

/-- What comes next among the contents of slots starts from the frame that those before it leave. -/
theorem slotContents_concat_run (earlier : List (String × Render σ String)) (slot : String × Render σ String)
    {contents : List (String × String)} {start : Frame σ}
    (h : slotContents earlier scope frame = (.ok contents, start)) :
    slotContents (earlier ++ [slot]) scope frame =
      ((slot.2 scope start).1.map fun content => (Text.lowercase slot.1, content) :: contents,
        (slot.2 scope start).2) := by
  unfold slotContents at h ⊢
  rw [bind_run] at h
  rw [List.mapM_append, bind_assoc, bind_run]
  rcases hearlier : earlier.mapM (m := Render σ) (fun slot => do
      let rendered ← slot.2
      return (Text.lowercase slot.1, rendered)) scope frame with ⟨fault | before, after⟩
  · rw [hearlier] at h
    cases h
  · rw [hearlier] at h
    cases h
    rw [hearlier]
    simp only [List.mapM_cons, List.mapM_nil, bind_assoc, pure_bind]
    rw [bind_run]
    rcases slot.2 scope start with ⟨fault | content, last⟩
    · rfl
    · exact congrArg (fun contents => (Except.ok contents, last)) (List.reverse_append ..)

/-- The contents of slots leave frames as they were, one after another. -/
theorem persists_slotContents (renderer : Renderer σ) (inclusions calls : Nat) (defaultSlot : List Node)
    (slots : List (String × List Node)) {earlier : List (String × Render σ String)}
    (h : earlier ⊆ slotSteps renderer (entrancesLeft renderer inclusions calls) defaultSlot slots)
    (scope : Scope) (frame : Frame σ) : frame.Persists (slotContents earlier scope frame).2 := by
  have hsteps := keptBy_slotSteps (kept_persistence renderer) inclusions calls defaultSlot slots scope
  exact (keptBy_slotContents (fun step hmem => hsteps step (h hmem)) frame trivial frame
    frame.persists_refl).1

/-- What a name looks up to in the template of a component. What the callback has changed has the value that
it has left. Any other name has the value of the last parameter with this name, or it tells the component about
itself, or it means what it means around the component. -/
def layeredValue (renderer : Renderer σ) (descriptor : Descriptor) (frame : Frame σ)
    (values : List (String × Value)) (name : String) : Option Value :=
  if (renderer.changes descriptor frame.store).contains name then
    (renderer.told descriptor frame).store.get? name
  else
    ((Variables.latestValue? name values).or ((Variables.technical descriptor).get? name)).or
      (frame.vars.get? name)

theorem get?_componentVariables_of_told {frame : Frame σ} (distinct : frame.vars.Distinct)
    (folded : frame.vars.Folded) {descriptor : Descriptor}
    (hstore : (renderer.told descriptor frame).store.Distinct) {values : List (String × Value)}
    (hvalues : ∀ entry ∈ values, (renderer.changes descriptor frame.store).contains entry.1 = false)
    (name : String) :
    (componentVariables frame.vars (renderer.changes descriptor frame.store) descriptor values).get? name =
      layeredValue renderer descriptor frame values name := by
  have hchanged : (renderer.changes descriptor frame.store).Distinct ∧
      ((renderer.changes descriptor frame.store).contains name →
        (renderer.changes descriptor frame.store).get? name =
          (renderer.told descriptor frame).store.get? name) := by
    revert hstore
    unfold Renderer.changes Renderer.told
    cases renderer.hooks.before with
    | none => exact fun _ => ⟨List.nodup_nil, fun hbound => nomatch hbound⟩
    | some before =>
        exact fun hstore => ⟨Variables.distinct_changedSince hstore _, Variables.get?_changedSince hstore⟩
  rw [Variables.get?_componentVariables distinct folded hchanged.1]
  unfold layeredValue
  split
  next hbound =>
    have hskipped : Variables.latestValue? name values = none := by
      refine Variables.latestValue?_eq_none fun entry hmem hsame => ?_
      have hfree := hvalues entry hmem
      unfold Variables.contains at hbound hfree
      rw [hsame, hbound] at hfree
      cases hfree
    rw [hskipped, Option.none_or, ← hchanged.2 hbound]
    rw [Variables.contains_eq_isSome_get?] at hbound
    exact Option.or_of_isSome hbound
  next hfree =>
    rw [Variables.contains_eq_isSome_get?, Option.not_isSome_iff_eq_none] at hfree
    rw [hfree, Option.none_or, Option.or_assoc]

/-- In the template of a component names mean what the layers around it say, and its slots are filled where
names mean what they mean around it. -/
theorem inclusion_layered (renderer : Renderer σ) {head : ComponentHead} {scope : Scope}
    {frame shown : Frame σ} {descriptor : Descriptor} {tree : Tree} {loaded : σ}
    {values : List (String × Value)} {memory : Memory} (distinct : frame.vars.Distinct)
    (folded : frame.vars.Folded)
    (hdescribed : described renderer head scope frame = (.ok descriptor, shown))
    (hstore : (renderer.told descriptor shown).store.Distinct)
    (hload : renderer.loader.load descriptor.path frame.loaded = (.ok (some tree), loaded))
    (hvalues : (renderer.resolver frame.vars).ResolvesAll
      (head.parameters.filter fun parameter =>
        !(renderer.changes descriptor frame.store).contains parameter.name)
      (renderer.told descriptor shown).memory values memory) :
    let ready : Frame σ := { renderer.told descriptor shown with loaded, memory }
    ∃ vars : Variables,
      (∀ (enter : Tree → Render σ String) (slots : List (String × Render σ String)),
        inclusion renderer enter head slots scope frame =
          match slotContents slots scope ready with
          | (.error fault, after) => (.error fault, { after with store := frame.store })
          | (.ok contents, after) =>
              let (output, last) :=
                enter tree { Scope.of tree with slots := contents } { after with vars, sections := none }
              (output.map (renderer.finished descriptor),
                { last with vars := after.vars, sections := after.sections, store := frame.store })) ∧
      (∀ name, vars.get? name = layeredValue renderer descriptor shown values name) ∧
      ∀ (inclusions calls : Nat) (defaultSlot : List Node) (slots : List (String × List Node))
        (earlier later : List (String × Render σ String)) (slot : String × Render σ String)
        (contents : List (String × String)) (start : Frame σ),
        slotSteps renderer (entrancesLeft renderer inclusions calls) defaultSlot slots =
          earlier ++ slot :: later →
        slotContents earlier scope ready = (.ok contents, start) →
        slotContents (earlier ++ [slot]) scope ready =
            ((slot.2 scope start).1.map fun content => (Text.lowercase slot.1, content) :: contents,
              (slot.2 scope start).2) ∧
          ∀ name, start.vars.get? name = frame.vars.get? name := by
  intro ready
  have hshown := eq_of_described hdescribed
  have hvars : shown.vars = frame.vars := by rw [hshown]
  have hsame : shown.store = frame.store := by rw [hshown]
  have hprepared := prepared_run hdescribed hload hvalues
  rw [← hsame] at hvalues
  refine ⟨_, inclusion_run hprepared, fun name => ?_, ?_⟩
  · rw [← hvars, ← hsame]
    rw [← hvars] at distinct folded
    refine get?_componentVariables_of_told distinct folded hstore (fun entry hmem => ?_) name
    have hname : entry.1 ∈ _ := hvalues.names ▸ List.mem_map_of_mem hmem
    obtain ⟨parameter, hparameter, heq⟩ := List.mem_map.1 hname
    rw [← heq]
    exact Bool.not_eq_eq_eq_not.1 (List.mem_filter.1 hparameter).2
  · intro inclusions calls defaultSlot slots earlier later slot contents start hsteps hearlier
    refine ⟨slotContents_concat_run earlier slot hearlier, fun name => ?_⟩
    have hpersists := persists_slotContents renderer inclusions calls defaultSlot slots
      (hsteps ▸ List.subset_append_left earlier (slot :: later)) scope ready
    rw [hearlier] at hpersists
    rw [hpersists.vars name, ← hvars]
    exact congrArg (·.get? name) (Renderer.told_vars renderer descriptor shown)

/-- A card with a mood, which the host program has just changed, and with two tones. -/
def tonedCard : ComponentHead where
  kind := .direct
  component := "card"
  name := none
  oldName := none
  parameters := [⟨"Mood", "much too sad", none⟩, ⟨"tone", "very loud", none⟩, ⟨"TONE", "", some "low key"⟩]

/-- A frame in which a tone, a topic and a path are known. -/
def tonedFrame : Frame Unit where
  vars := .ofList [("tone", .string "plain"), ("topic", .string "rain"), ("_componentPath", .string "page")]
  store := {}
  loaded := ()

theorem parameterValue_low (r : Resolver) :
    r.parameterValue ⟨"TONE", "", some "low key"⟩ = pure (.string "low key") := by
  have hdefault : Text.cut? ['{', '{'] "low key".toList = none := by decide
  change (do return .string (← r.interpolate "low key") : Resolving Value) = _
  rw [Resolver.interpolate_of_unopened hdefault, pure_bind]

theorem resolvesAll_toned (r : Resolver) (memory : Memory) :
    r.ResolvesAll (tonedCard.parameters.drop 1) memory
      [("tone", .string "very loud"), ("TONE", .string "low key")] memory :=
  .cons rfl (.cons (congrArg (Resolver.outcome · memory) (parameterValue_low r)) .nil)

/-- The card has the mood of the callback, its last tone, its own path, and the topic around it. -/
theorem inclusion_layered_toned : ∃ vars : Variables,
    vars.get? "mood" = some (.string "glad") ∧ vars.get? "Tone" = some (.string "low key") ∧
      vars.get? "_COMPONENTPATH" = some (.string "card") ∧ vars.get? "topic" = some (.string "rain") ∧
      ∀ enter : Tree → Render Unit String,
        (inclusion (moody.calling (some cheering)) enter tonedCard [] {} tonedFrame).1 =
          (enter (Tree.ofNodes [.interpolation "mood"]) {}
            { (moody.calling (some cheering)).told ⟨none, none, "card", tonedCard.parameters⟩ tonedFrame with
              vars }).1 := by
  have hdescribed : described (moody.calling (some cheering)) tonedCard {} tonedFrame =
      (.ok ⟨none, none, "card", tonedCard.parameters⟩, tonedFrame) := by
    have hpath : Text.cut? ['{', '{'] tonedCard.path.toList = none := by decide
    unfold described
    rw [interpolate_of_unopened hpath]
    rfl
  have hempty : Variables.Distinct {} := List.nodup_nil
  obtain ⟨vars, hruns, hvars, -⟩ := inclusion_layered (moody.calling (some cheering))
    (Variables.distinct_ofList _) (by decide) hdescribed (Variables.distinct_insert hempty _ _) rfl
    (resolvesAll_toned _ _)
  refine ⟨vars, by rw [hvars]; rfl, by rw [hvars]; rfl, by rw [hvars]; rfl, by rw [hvars]; rfl, fun enter => ?_⟩
  have hsame (result : Except Fault String) : result.map (fun output => output) = result := by
    cases result with
    | error fault => rfl
    | ok output => rfl
  rw [hruns]
  exact hsame _

end Render

end Stencil
