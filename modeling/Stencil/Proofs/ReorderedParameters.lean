import Stencil.Proofs.LayeredScopes
import Stencil.Proofs.Rendering.Telling
import Stencil.Proofs.Rendering.TypedFrames
import Stencil.Proofs.Resolution.Path

/-!
The order of parameters does not matter. The parameters of a call and of a component are all resolved where
the call or the component stands, before any of them is bound, so that none of them sees the value of another;
and where their names differ, none of them is bound in the place of another.
-/

namespace Stencil

open Markup

namespace Variables

variable {entries entries' : List (String × Value)}

/-- Names that differ are bound one beside another. -/
theorem bindings_ofList (names : (entries.map fun entry => fold entry.1).Nodup) :
    (ofList entries).bindings = entries.map fun entry => ⟨fold entry.1, entry.1, entry.2⟩ := by
  induction entries using List.reverseRecOn with
  | nil => rfl
  | append_singleton entries entry ih =>
      rw [List.map_append, List.nodup_append] at names
      obtain ⟨hnames, -, hnew⟩ := names
      have hput (bindings : List Binding) (binding : Binding)
          (h : ∀ b ∈ bindings, (b.key == binding.key) = false) :
          put binding bindings = bindings ++ [binding] := by
        induction bindings with
        | nil => rfl
        | cons b rest ih =>
            obtain ⟨hb, hrest⟩ := List.forall_mem_cons.1 h
            rw [put, hb, ih hrest]
            rfl
      rw [ofList_concat, List.map_append, ← ih hnames]
      refine hput _ _ fun b hb => beq_false_of_ne ?_
      rw [ih hnames] at hb
      obtain ⟨earlier, hearlier, rfl⟩ := List.mem_map.1 hb
      exact hnew _ (List.mem_map_of_mem hearlier) _ (List.mem_singleton_self _)

/-- Names that differ are found in whatever order they are bound. -/
theorem find?_ofList_of_perm (perm : entries.Perm entries')
    (names : (entries.map fun entry => fold entry.1).Nodup) (key : String) :
    (ofList entries).find? key = (ofList entries').find? key := by
  have names' : (entries'.map fun entry => fold entry.1).Nodup := (perm.map _).nodup_iff.1 names
  apply Option.ext
  intro binding
  rw [find?_eq_some_iff (distinct_ofList entries), find?_eq_some_iff (distinct_ofList entries'),
    bindings_ofList names, bindings_ofList names', (perm.map _).mem_iff]

variable {vars other : Variables}

theorem Matches.extend_perm (h : vars.Matches other) (perm : entries.Perm entries')
    (names : (entries.map fun entry => fold entry.1).Nodup) :
    (vars.extend (ofList entries)).Matches (other.extend (ofList entries')) where
  distinct := distinct_extend h.distinct _
  distinct' := distinct_extend h.distinct' _
  find? := fun key => by
    rw [find?_extend, find?_extend, latest?_eq_find? (distinct_ofList entries),
      latest?_eq_find? (distinct_ofList entries'), find?_ofList_of_perm perm names]
    exact rel_or _ fun _ => h.find? key

/-- Parameters are bound in a component behind all else. -/
theorem componentVariables_eq (surroundings changed : Variables) (descriptor : Descriptor)
    (values : List (String × Value)) :
    Render.componentVariables surroundings changed descriptor values =
      (Render.componentVariables surroundings changed descriptor []).extend (ofList values) := by
  have hempty (vars : Variables) : vars.extend (ofList []) = vars := rfl
  unfold Render.componentVariables layered
  simp only [List.foldl_cons, List.foldl_nil, hempty]

theorem Matches.component_perm (h : vars.Matches other) (perm : entries.Perm entries')
    (names : (entries.map fun entry => fold entry.1).Nodup) (changed : Variables) (descriptor : Descriptor) :
    (Render.componentVariables vars changed descriptor entries).Matches
      (Render.componentVariables other changed descriptor entries') := by
  rw [componentVariables_eq vars, componentVariables_eq other]
  exact (h.component changed descriptor []).extend_perm perm names

end Variables

/-- The callbacks do not look at the order of the parameters in a descriptor. -/
structure Hooks.OrderFree (hooks : Hooks) : Prop where
  before : ∀ before ∈ hooks.before, ∀ (descriptor : Descriptor) {parameters : List Parameter},
    descriptor.parameters.Perm parameters →
    before { descriptor with parameters } = before descriptor
  after : ∀ after ∈ hooks.after, ∀ (descriptor : Descriptor) {parameters : List Parameter},
    descriptor.parameters.Perm parameters →
    after { descriptor with parameters } = after descriptor

namespace Render

variable {σ : Type} {fieldsOf : String → List String} {renderer : Renderer σ} {scope : Scope}

/-- Every parameter has its value in a store of variables, with what is remembered. -/
def Given (renderer : Renderer σ) (vars : Variables) (memory : Memory) (value : Parameter → Value)
    (parameters : List Parameter) : Prop :=
  ∀ parameter ∈ parameters,
    Resolver.answer ((renderer.resolver vars).parameterValue parameter) memory = .ok (value parameter)

/-- The entries of parameters with their values. -/
def entriesOf (value : Parameter → Value) (parameters : List Parameter) : List (String × Value) :=
  parameters.map fun parameter => (parameter.name, value parameter)

theorem names_entriesOf {value : Parameter → Value} {parameters : List Parameter}
    (names : (parameters.map fun parameter => Variables.fold parameter.name).Nodup) :
    ((entriesOf value parameters).map fun entry => Variables.fold entry.1).Nodup := by
  unfold entriesOf
  rw [List.map_map]
  exact names

theorem typed_entriesOf {value : Parameter → Value} {parameters : List Parameter}
    (h : ∀ parameter ∈ parameters, (value parameter).Typed fieldsOf) :
    ∀ entry ∈ entriesOf value parameters, entry.2.Typed fieldsOf := by
  intro entry hmem
  obtain ⟨parameter, hparameter, rfl⟩ := List.mem_map.1 hmem
  exact h parameter hparameter

section Parameters

variable (typed : renderer.Typed fieldsOf) {base frame : Frame σ}
  (hbase : base.Typed fieldsOf renderer.host fun _ => True)
  (hframe : frame.Typed fieldsOf renderer.host fun _ => True) (hvars : base.vars.Matches frame.vars)
  {value : Parameter → Value}

include typed hbase hframe hvars

/-- A parameter has the value that it has, whatever has been decided meanwhile. -/
theorem resolving_given (scope : Scope) {parameter : Parameter}
    (h : Resolver.answer ((renderer.resolver base.vars).parameterValue parameter) base.memory =
      .ok (value parameter)) :
    ∃ memory, resolving renderer (fun resolver => resolver.parameterValue parameter) scope frame =
        (.ok (value parameter), { frame with memory }) ∧
      memory.decisions.Typed fieldsOf renderer.host ∧ (value parameter).Typed fieldsOf := by
  let step : Render σ Value := resolving renderer fun resolver => resolver.parameterValue parameter
  let start : Frame σ := { frame with vars := base.vars, memory := base.memory }
  have hstart : start.Twins fieldsOf renderer.host frame :=
    ⟨hvars, rfl, rfl, rfl, rfl, rfl, { hframe with vars := hbase.vars, decisions := hbase.decisions }, hframe⟩
  have hsteps (final : Decisions) : (ofStores (.replaying final) (· = ·)).Steps (· = ·) scope step step :=
    steps_resolving (holds_replaying renderer final) fun _ _ h => Resolver.likewise_parameterValue h parameter
  have hkept := (kept_typing_anywhere typed).parameter () scope parameter
  have hkeeps := hkept.mono fun _ _ => trivial
  have houtput := (endAlike_of_steps hsteps hsteps hkeeps hkeeps hstart).output_eq
  have hvalue : (step scope frame).1 = .ok (value parameter) := houtput.symm.trans h
  exact ⟨_, Prod.ext hvalue rfl, (hkept frame hframe).1.decisions, (hkept frame hframe).2 _ hvalue⟩

/-- Parameters have the values that they have, whatever has been decided meanwhile. -/
theorem parameterValues_given (scope : Scope) {parameters : List Parameter}
    (h : Given renderer base.vars base.memory value parameters) :
    ∃ memory, parameterValues renderer parameters scope frame =
        (.ok (entriesOf value parameters), { frame with memory }) ∧
      memory.decisions.Typed fieldsOf renderer.host ∧
      ∀ parameter ∈ parameters, (value parameter).Typed fieldsOf := by
  induction parameters generalizing frame with
  | nil => exact ⟨frame.memory, rfl, hframe.decisions, fun _ hmem => absurd hmem List.not_mem_nil⟩
  | cons parameter rest ih =>
      obtain ⟨hfirst, hrest⟩ := List.forall_mem_cons.1 h
      obtain ⟨middle, hvalue, hmiddle, hfirstTyped⟩ := resolving_given typed hbase hframe hvars scope hfirst
      have hbetween : Frame.Typed fieldsOf renderer.host (fun _ => True) { frame with memory := middle } :=
        { hframe with decisions := hmiddle }
      obtain ⟨memory, hvalues, hmemory, hrestTyped⟩ := ih hbetween hvars hrest
      refine ⟨memory, ?_, hmemory, List.forall_mem_cons.2 ⟨hfirstTyped, hrestTyped⟩⟩
      unfold parameterValues at hvalues ⊢
      rw [List.mapM_cons, bind_assoc, bind_run, hvalue]
      dsimp only
      rw [pure_bind, bind_run, hvalues]
      rfl

end Parameters

section Reordering

variable (typed : renderer.Typed fieldsOf) {frame : Frame σ}
  (hframe : frame.Typed fieldsOf renderer.host fun _ => True) (distinct : frame.vars.Distinct)
  {value : Parameter → Value} {parameters parameters' : List Parameter} (perm : parameters.Perm parameters')
  (names : (parameters.map fun parameter => Variables.fold parameter.name).Nodup)
  (given : Given renderer frame.vars frame.memory value parameters) (inclusions calls : Nat)

include typed hframe distinct perm names given

theorem endAlike_call (name : String) :
    let entrances := entrancesLeft renderer inclusions calls
    EndAlike fieldsOf renderer.host (· = ·) (call renderer entrances.body name parameters scope frame)
      (call renderer entrances.body name parameters' scope frame) := by
  intro entrances
  have hself := Frame.twins_refl hframe distinct
  cases hlookup : scope.fragments.lookup (Text.lowercase name) with
  | none =>
      unfold call
      rw [read_bind_run, read_bind_run, hlookup]
      exact .ok rfl hself
  | some body =>
      cases calls with
      | zero =>
          unfold call
          rw [read_bind_run, read_bind_run, hlookup, show entrances.body = none from body_entrancesLeft_zero ..]
          exact .error hself
      | succ calls =>
          have hopened : frame.opened.Typed fieldsOf renderer.host fun _ => True :=
            { hframe with decisions := hframe.decisions }
          obtain ⟨memory, hvalues, hmemory, htyped⟩ :=
            parameterValues_given typed hframe hopened hself.vars scope given
          obtain ⟨memory', hvalues', hmemory', htyped'⟩ := parameterValues_given typed hframe hopened hself.vars
            scope fun parameter hmem => given parameter (perm.mem_iff.2 hmem)
          rw [show entrances.body = _ from body_entrancesLeft_succ .., call_eq renderer hlookup,
            call_eq renderer hlookup]
          refine EndAlike.keeping ?_ fun h => ?_
          · rw [bind_run, openingOf_run renderer hvalues, bind_run, openingOf_run renderer hvalues']
            refine endAlike_ofNodes typed inclusions calls body ?_
            exact {
              hself with
              vars := hself.vars.extend_perm (perm.map _) (names_entriesOf names)
              calls := rfl
              typed := ⟨Variables.every_extend hframe.vars (Variables.every_ofList (typed_entriesOf htyped)),
                hframe.store, hmemory, trivial⟩
              typed' := ⟨Variables.every_extend hframe.vars (Variables.every_ofList (typed_entriesOf htyped')),
                hframe.store, hmemory', trivial⟩ }
          · exact {
              h with
              vars := hself.vars
              calls := rfl
              typed := { h.typed with vars := hframe.vars }
              typed' := { h.typed' with vars := hframe.vars } }

end Reordering

theorem described_with (renderer : Renderer σ) (head : ComponentHead) (parameters : List Parameter) :
    described renderer { head with parameters } = (do
      let descriptor ← described renderer head
      return { descriptor with parameters }) := by
  unfold described
  simp only [bind_assoc, pure_bind]
  rfl

theorem parameters_of_described {head : ComponentHead} {frame shown : Frame σ} {descriptor : Descriptor}
    (h : described renderer head scope frame = (.ok descriptor, shown)) :
    descriptor.parameters = head.parameters := by
  have hwith := congrFun (congrFun (described_with renderer head head.parameters) scope) frame
  rw [bind_run, show ({ head with parameters := head.parameters } : ComponentHead) = head from rfl, h] at hwith
  have hdescriptor := Except.ok.inj (congrArg Prod.fst hwith)
  exact congrArg Descriptor.parameters hdescriptor

/-- What is known of two prepared inclusions whose parameters stand in different orders. -/
structure Reordered (fieldsOf : String → List String) (one other : Descriptor × Variables × Tree) : Prop where
  descriptor : ∃ parameters, one.1.parameters.Perm parameters ∧ other.1 = { one.1 with parameters }
  vars : one.2.1.Matches other.2.1
  typed : one.2.1.Typed fieldsOf
  typed' : other.2.1.Typed fieldsOf
  tree : one.2.2 = other.2.2

section Inclusions

variable (typed : renderer.Typed fieldsOf) (orderFree : renderer.hooks.OrderFree) {head : ComponentHead}
  {parameters : List Parameter} (perm : head.parameters.Perm parameters)

include typed in
theorem keeps_typing_described : Keeps (fun frame : Frame σ => frame.Typed fieldsOf renderer.host fun _ => True)
    scope (fun _ => True) (described renderer head) := by
  have kept := kept_typing_anywhere (σ := σ) typed
  exact (kept.interpolate () scope _).bind fun path _ => (keeps_optionMapM kept _).bind fun name _ =>
    (keeps_optionMapM kept _).bind fun oldName _ => keeps_any _

include typed in
theorem typed_changes (descriptor : Descriptor) {store : Variables} (hstore : store.Typed fieldsOf) :
    (renderer.changes descriptor store).Typed fieldsOf := by
  unfold Renderer.changes
  cases hbefore : renderer.hooks.before with
  | none => exact Variables.every_empty
  | some before => exact Variables.every_changedSince (typed.before before hbefore descriptor store hstore) store

include orderFree in
theorem changes_with {descriptor : Descriptor} (perm : descriptor.parameters.Perm parameters)
    (store : Variables) :
    renderer.changes { descriptor with parameters } store = renderer.changes descriptor store := by
  unfold Renderer.changes
  cases hbefore : renderer.hooks.before with
  | none => rfl
  | some before =>
      dsimp only
      rw [orderFree.before before hbefore descriptor perm]

include orderFree in
theorem finished_with {descriptor : Descriptor} (perm : descriptor.parameters.Perm parameters)
    (output : String) :
    renderer.finished { descriptor with parameters } output = renderer.finished descriptor output := by
  unfold Renderer.finished
  cases hafter : renderer.hooks.after with
  | none => rfl
  | some after =>
      dsimp only
      rw [orderFree.after after hafter descriptor perm]

include typed orderFree in
theorem twins_told {frame : Frame σ} (hframe : frame.Typed fieldsOf renderer.host fun _ => True)
    (distinct : frame.vars.Distinct) {descriptor : Descriptor} (perm : descriptor.parameters.Perm parameters) :
    (renderer.told descriptor frame).Twins fieldsOf renderer.host
      (renderer.told { descriptor with parameters } frame) := by
  have hself := Frame.twins_refl hframe distinct
  unfold Renderer.told
  cases hbefore : renderer.hooks.before with
  | none => exact hself
  | some before =>
      have hsame := orderFree.before before hbefore descriptor perm
      dsimp only
      exact {
        hself with
        store := congrFun hsame.symm frame.store
        typed := { hframe with store := typed.before before hbefore _ _ hframe.store }
        typed' := { hframe with store := typed.before before hbefore _ _ hframe.store } }

include typed in
theorem endAlike_slotContents (inclusions calls : Nat) (defaultSlot : List Node)
    (slots : List (String × List Node)) (scope : Scope) {first second : Frame σ}
    (h : first.Twins fieldsOf renderer.host second) :
    let steps := slotSteps renderer (entrancesLeft renderer inclusions calls) defaultSlot slots
    EndAlike fieldsOf renderer.host (· = ·) (slotContents steps scope first)
      (slotContents steps scope second) := by
  intro steps
  have hsteps (final : Decisions) :
      (ofStores (.replaying final) (· = ·)).Steps (· = ·) scope (slotContents steps) (slotContents steps) := by
    have holds := holds_replaying renderer final
    have hnodes := steps_nodes holds (entrancesAlike holds inclusions calls)
    refine steps_slotContents (List.rel_append ?_ (hnodes.2.1 slots scope sectionsLast_eq))
    split
    · exact .nil
    · exact .cons ⟨rfl, hnodes.2.2 defaultSlot scope sectionsLast_eq⟩ .nil
  have hkeeps := keptBy_slotContents
    (keptBy_slotSteps (kept_typing_anywhere typed) inclusions calls defaultSlot slots scope) () trivial
  exact endAlike_of_steps hsteps hsteps hkeeps hkeeps h

include typed orderFree in
/-- From here on the order of the parameters shows in the descriptor alone. -/
theorem endAlike_filled {enter : Tree → Render σ String}
    (hway : ∀ tree scope {first second : Frame σ}, first.Twins fieldsOf renderer.host second →
      EndAlike fieldsOf renderer.host (· = ·) (enter tree scope first) (enter tree scope second))
    (inclusions calls : Nat) (defaultSlot : List Node) (slots : List (String × List Node))
    {one other : Descriptor × Variables × Tree} (hprepared : Reordered fieldsOf one other)
    {first second : Frame σ} (h : first.Twins fieldsOf renderer.host second) :
    let steps := slotSteps renderer (entrancesLeft renderer inclusions calls) defaultSlot slots
    EndAlike fieldsOf renderer.host (· = ·)
      (filled renderer enter steps one.1 one.2.1 one.2.2 scope first)
      (filled renderer enter steps other.1 other.2.1 other.2.2 scope second) := by
  intro steps
  obtain ⟨⟨parameters, hperm, hdescriptor⟩, hvars, htyped, htyped', htree⟩ := hprepared
  unfold filled
  refine (endAlike_slotContents typed inclusions calls defaultSlot slots scope h).bind fun hcontents h => ?_
  rw [← hcontents, ← htree]
  refine EndAlike.bind (EndAlike.inside hvars htyped htyped' (hway _ _) h) fun houtput h => ?_
  rw [hdescriptor, ← houtput]
  exact .ok (finished_with orderFree hperm _).symm h

variable {frame : Frame σ} (hframe : frame.Typed fieldsOf renderer.host fun _ => True)
  (distinct : frame.vars.Distinct)
  (names : (head.parameters.map fun parameter => Variables.fold parameter.name).Nodup)
  {value : Parameter → Value} (given : Given renderer frame.vars frame.memory value head.parameters)

include typed orderFree perm hframe distinct names given

/-- Inclusions are prepared alike if their parameters stand in different orders. -/
theorem endAlike_prepared (scope : Scope) :
    EndAlike fieldsOf renderer.host (Option.Rel (Reordered fieldsOf)) (prepared renderer head scope frame)
      (prepared renderer { head with parameters } scope frame) := by
  have htyped : Keeps (fun frame : Frame σ => frame.Typed fieldsOf renderer.host fun _ => True) scope
      (fun _ => True) (described renderer head) := keeps_typing_described typed
  have hkept : Keeps (fun after => after = { frame with memory := after.memory }) scope (fun _ => True)
      (described renderer head) := keeps_described renderer head fun after memory hafter => by rw [hafter]
  obtain ⟨memory, hsame⟩ : ∃ memory, (described renderer head scope frame).2 = { frame with memory } :=
    ⟨_, (hkept frame rfl).1⟩
  have hshown := hsame ▸ (htyped frame hframe).1
  rw [prepared_eq renderer head, prepared_eq renderer { head with parameters },
    described_with renderer head parameters, bind_assoc, bind_run, bind_run]
  rcases hdescribed : described renderer head scope frame with ⟨fault | descriptor, shown⟩
  · obtain rfl : shown = { frame with memory } := (congrArg Prod.snd hdescribed).symm.trans hsame
    exact .error (Frame.twins_refl hshown distinct)
  · obtain rfl : shown = { frame with memory } := (congrArg Prod.snd hdescribed).symm.trans hsame
    have hperm : descriptor.parameters.Perm parameters := (parameters_of_described hdescribed).symm ▸ perm
    have htold := twins_told typed orderFree hshown distinct hperm
    dsimp only
    rw [pure_bind, bind_run, announce_run, bind_run, announce_run, changes_with orderFree hperm]
    dsimp only
    rw [bind_run, bind_run]
    unfold load
    rw [Renderer.told_loaded, Renderer.told_loaded]
    rcases renderer.loader.load descriptor.path frame.loaded with ⟨fault | - | tree, loaded⟩
    · exact .error { htold with loaded := rfl, typed := { htold.typed with }, typed' := { htold.typed' with } }
    · exact .ok .none { htold with loaded := rfl, typed := { htold.typed with }, typed' := { htold.typed' with } }
    · let changed := renderer.changes descriptor frame.store
      let resolved := head.parameters.filter fun parameter => !changed.contains parameter.name
      have hnames : (resolved.map fun parameter => Variables.fold parameter.name).Nodup :=
        names.sublist (List.filter_sublist.map _)
      have hgiven : Given renderer frame.vars frame.memory value resolved :=
        fun parameter hmem => given parameter (List.mem_filter.1 hmem).1
      have hperm' : resolved.Perm (parameters.filter fun parameter => !changed.contains parameter.name) :=
        perm.filter _
      have hself : frame.vars.Matches frame.vars := Variables.matches_refl distinct
      have hready : Frame.Twins fieldsOf renderer.host
          { renderer.told descriptor { frame with memory } with loaded }
          { renderer.told { descriptor with parameters } { frame with memory } with loaded } :=
        { htold with loaded := rfl, typed := { htold.typed with }, typed' := { htold.typed' with } }
      obtain ⟨first, hvalues, hfirst, htyped⟩ := parameterValues_given typed hframe hready.typed
        ((renderer.told_vars ..).symm ▸ hself) scope hgiven
      obtain ⟨second, hvalues', hsecond, htyped'⟩ := parameterValues_given typed hframe hready.typed'
        ((renderer.told_vars ..).symm ▸ hself) scope fun parameter hmem =>
          hgiven parameter (hperm'.mem_iff.2 hmem)
      have hchanged := typed_changes typed descriptor hframe.store
      have kept := kept_typing_anywhere (σ := σ) typed
      dsimp only
      rw [bind_run, hvalues, bind_run, hvalues']
      refine .ok (.some ?_) ?_
      · exact {
          descriptor := ⟨parameters, hperm, rfl⟩
          vars := htold.vars.component_perm (hperm'.map _) (names_entriesOf hnames) changed _
          typed := every_componentVariables kept _ htold.typed.vars hchanged (typed_entriesOf htyped)
          typed' := every_componentVariables kept _ htold.typed'.vars hchanged (typed_entriesOf htyped')
          tree := rfl }
      · exact {
          hready with
          typed := { hready.typed with decisions := hfirst }
          typed' := { hready.typed' with decisions := hsecond } }

/-- An inclusion gives the same in whatever order its parameters stand. -/
theorem endAlike_inclusion {enter : Tree → Render σ String}
    (hway : ∀ tree scope {first second : Frame σ}, first.Twins fieldsOf renderer.host second →
      EndAlike fieldsOf renderer.host (· = ·) (enter tree scope first) (enter tree scope second))
    (inclusions calls : Nat) (defaultSlot : List Node) (slots : List (String × List Node)) (scope : Scope) :
    let steps := slotSteps renderer (entrancesLeft renderer inclusions calls) defaultSlot slots
    EndAlike fieldsOf renderer.host (· = ·) (inclusion renderer enter head steps scope frame)
      (inclusion renderer enter { head with parameters } steps scope frame) := by
  intro steps
  rw [inclusion_eq, inclusion_eq]
  refine EndAlike.keeping ?_ fun h => ?_
  · refine (endAlike_prepared typed orderFree perm hframe distinct names given scope).bind fun hprepared h => ?_
    cases hprepared with
    | none => exact .ok rfl h
    | some hprepared => exact endAlike_filled typed orderFree hway inclusions calls defaultSlot slots hprepared h
  · exact { h with
      store := rfl
      typed := { h.typed with store := hframe.store }
      typed' := { h.typed' with store := hframe.store } }

end Inclusions

/-- Parameters that are resolved without a fault have values. -/
theorem exists_given {vars : Variables} {memory : Memory} {parameters : List Parameter}
    (resolved : ∀ parameter ∈ parameters, ∃ value,
      Resolver.answer ((renderer.resolver vars).parameterValue parameter) memory = .ok value) :
    ∃ value, Given renderer vars memory value parameters := by
  let answers (parameter : Parameter) : Except Fault Value :=
    Resolver.answer ((renderer.resolver vars).parameterValue parameter) memory
  refine ⟨fun parameter => (answers parameter).toOption.getD .null, fun parameter hmem => ?_⟩
  obtain ⟨value, hvalue⟩ := resolved parameter hmem
  have hanswer : answers parameter = .ok value := hvalue
  change answers parameter = .ok ((answers parameter).toOption.getD .null)
  rw [hanswer]
  rfl

/-- A node and what stands behind it give what they give with another node that ends like it. -/
theorem output_cons_eq (typed : renderer.Typed fieldsOf) {inclusions calls : Nat} {node node' : Node}
    {frame : Frame σ}
    (h : EndAlike fieldsOf renderer.host (· = ·)
      (ofNode renderer (entrancesLeft renderer inclusions calls) node scope frame)
      (ofNode renderer (entrancesLeft renderer inclusions calls) node' scope frame)) (rest : List Node) :
    (ofNodes renderer (entrancesLeft renderer inclusions calls) (node :: rest) scope frame).1 =
      (ofNodes renderer (entrancesLeft renderer inclusions calls) (node' :: rest) scope frame).1 := by
  rw [ofNodes, ofNodes]
  refine EndAlike.output_eq (h.bind fun hfirst hbetween => ?_)
  refine (endAlike_ofNodes typed inclusions calls rest hbetween).bind fun hothers hlast => ?_
  rw [hfirst, hothers]
  exact .ok rfl hlast

/-- Parameters whose names differ in more than the case of letters, and that are all resolved without a fault
where they stand, may stand in any order: neither the call of a fragment nor a component gives another output,
nor does anything that stands behind it, as long as the callbacks do not look at the order of parameters and
objects of one type have the same fields. What a parameter refers to may have the name of another one. -/
theorem parameters_reorder (typed : renderer.Typed fieldsOf) (orderFree : renderer.hooks.OrderFree)
    {frame : Frame σ} (hframe : frame.Typed fieldsOf renderer.host fun _ => True)
    (distinct : frame.vars.Distinct) {parameters parameters' : List Parameter}
    (perm : parameters.Perm parameters')
    (names : (parameters.map fun parameter => Variables.fold parameter.name).Nodup)
    (resolved : ∀ parameter ∈ parameters, ∃ value,
      Resolver.answer ((renderer.resolver frame.vars).parameterValue parameter) frame.memory = .ok value)
    (inclusions calls : Nat) (scope : Scope) (rest : List Node) :
    let output (node : Node) :=
      (ofNodes renderer (entrancesLeft renderer inclusions calls) (node :: rest) scope frame).1
    (∀ name, output (.call name parameters) = output (.call name parameters')) ∧
      ∀ (head : ComponentHead) (defaultSlot : List Node) (slots : List (String × List Node)),
        output (.component { head with parameters } defaultSlot slots) =
          output (.component { head with parameters := parameters' } defaultSlot slots) := by
  intro output
  obtain ⟨value, given⟩ := exists_given resolved
  refine ⟨fun name => ?_, fun head defaultSlot slots => ?_⟩
  · refine output_cons_eq typed ?_ rest
    rw [ofNode, ofNode]
    exact endAlike_call typed hframe distinct perm names given inclusions calls name
  · refine output_cons_eq typed ?_ rest
    rw [ofNode_component, ofNode_component]
    cases inclusions with
    | zero =>
        rw [tree_entrancesLeft_zero]
        exact .ok rfl (Frame.twins_refl hframe distinct)
    | succ inclusions =>
        rw [tree_entrancesLeft_succ]
        unfold component
        dsimp only
        refine EndAlike.catching ?_ fun fault _ _ h => .ok rfl h
        have hway (tree : Tree) (scope : Scope) {first second : Frame σ}
            (h : first.Twins fieldsOf renderer.host second) : EndAlike fieldsOf renderer.host (· = ·)
              (ofNodes renderer (entrancesLeft renderer inclusions calls) tree.children scope first)
              (ofNodes renderer (entrancesLeft renderer inclusions calls) tree.children scope second) :=
          endAlike_ofNodes typed inclusions calls tree.children h
        let one : ComponentHead := { head with parameters }
        have hperm : one.parameters.Perm parameters' := perm
        exact endAlike_inclusion typed orderFree hperm hframe distinct names given hway (inclusions + 1) calls
          defaultSlot slots scope

/-- A mood and a tone that are passed on in the place of one another. -/
def swapped : List Parameter :=
  [⟨"mood", interpolationText "tone", none⟩, ⟨"tone", interpolationText "mood", none⟩]

/-- A frame with a mood and a tone. -/
def moodFrame : Frame Unit :=
  { vars := .ofList [("mood", .string "glad"), ("tone", .string "low")], store := {}, loaded := () }

/-- A card shows its mood in whatever order its mood and its tone stand. -/
theorem parameters_reorder_swapped :
    let card (parameters : List Parameter) : Node :=
      .component ⟨.direct, "card", none, none, parameters⟩ [] []
    let shown (node : Node) : Except Fault String :=
      (ofNodes moody (entrancesLeft moody 2 1) [node] {} moodFrame).1
    shown (card swapped) = shown (card swapped.reverse) := by
  intro card shown
  have typed : moodFrame.Typed (fun _ => []) moody.host fun _ => True := by
    refine ⟨Variables.every_ofList ?_, Variables.every_empty,
      ⟨fun _ _ h => (nomatch h), fun _ _ h => (nomatch h)⟩, trivial⟩
    simp only [List.forall_mem_cons]
    exact ⟨.string _, .string _, fun _ hmem => absurd hmem List.not_mem_nil⟩
  have orderFree : moody.hooks.OrderFree := ⟨fun _ h => (nomatch h), fun _ h => (nomatch h)⟩
  have resolved : ∀ parameter ∈ swapped, ∃ value,
      Resolver.answer ((moody.resolver moodFrame.vars).parameterValue parameter) moodFrame.memory =
        .ok value := by
    unfold swapped
    simp only [List.forall_mem_cons]
    refine ⟨⟨_, Resolver.answer_parameterValue_interpolation _ (by decide) (by decide)
        (Resolver.accepted_of_toBool (by decide +kernel)) rfl _ _⟩,
      ⟨_, Resolver.answer_parameterValue_interpolation _ (by decide) (by decide) moody_accepts_mood rfl _ _⟩, ?_⟩
    exact fun _ hmem => absurd hmem List.not_mem_nil
  exact (parameters_reorder moody_typed orderFree typed (Variables.distinct_ofList _) (List.reverse_perm _).symm
    (by decide) resolved 2 1 {} []).2 ⟨.direct, "card", none, none, swapped⟩ [] []

end Render

end Stencil
