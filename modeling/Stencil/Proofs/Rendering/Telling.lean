import Stencil.Proofs.Rendering.Accounts

/-!
What accounts tell. However a step ends, it leaves the sections from before with those that are finished in its
account; and if it gives an output while sections are collected, that is what remains beside them. Each way in
which steps are put together has its rule, and with it nodes are told of as their steps are made.
-/

namespace Stencil.Render

open Markup Account

variable {σ α β : Type} {scope : Scope} {frame after : Frame σ} {shown : α → String}

theorem silent_startOf (renderer : Renderer σ) (item : String) (element : Value) :
    Silent scope (startOf renderer item element) := by
  have hstart : Silent scope (startIteration renderer) := by
    intro sections frame hframe
    rw [startIteration_run]
    split
    · exact ⟨hframe, fun _ _ => trivial⟩
    · exact ⟨hframe, fun _ _ => trivial⟩
  exact hstart.bind fun _ => silent_modify fun _ => rfl

theorem silent_openingOf (renderer : Renderer σ) (parameters : List Parameter) :
    Silent scope (openingOf renderer parameters) := by
  refine Silent.bind (silent_modify fun _ => rfl) fun _ => silent_get_bind fun current => ?_
  refine (silent_note _).bind fun _ => (silent_parameterValues renderer parameters).bind fun values => ?_
  exact silent_modify fun _ => rfl

theorem Account.behind_of_ok {step : Render σ α} {value : α} (h : step scope frame = (.ok value, after))
    (next : α → Account σ) : behind step next scope frame = next value scope after := by
  unfold behind
  rw [h]

theorem Account.behind_of_error {step : Render σ α} {fault : Fault}
    (h : step scope frame = (.error fault, after)) (next : α → Account σ) :
    behind step next scope frame = [] := by
  unfold behind
  rw [h]

theorem finished_whole (step : Render σ String) : finished (whole step scope frame) = [] := by
  rcases hrun : step scope frame with ⟨fault | output, after⟩
  · exact congrArg finished (behind_of_error hrun _)
  · exact congrArg finished (behind_of_ok hrun _)

@[simp] theorem finished_sectionsOnly (account : Account σ) :
    finished (account.sectionsOnly scope frame) = finished (account scope frame) := by
  unfold sectionsOnly finished
  rw [List.filterMap_filter]
  refine List.filterMap_congr fun product _ => ?_
  cases product with
  | text content => rfl
  | finished name content => rfl

@[simp] theorem remaining_sectionsOnly (account : Account σ) :
    remaining (account.sectionsOnly scope frame) = "" := by
  unfold sectionsOnly
  induction account scope frame with
  | nil => rfl
  | cons product rest ih =>
      cases product with
      | text content => exact ih
      | finished name content =>
          have hsplit := remaining_append [.finished name content]
            (rest.filter fun product => product.section?.isSome)
          rw [ih] at hsplit
          exact hsplit

/-- An account tells of a step if the sections that the step leaves are those from before with those that are
finished, however it ends, and if what it answers while sections are collected shows what remains. -/
def Account.Tells (account : Account σ) (scope : Scope) (shown : α → String) (step : Render σ α) : Prop :=
  ∀ frame, (step scope frame).2.sections = frame.sections.map (gathered (finished (account scope frame))) ∧
    ∀ value, frame.sections.isSome → (step scope frame).1 = .ok value →
      shown value = remaining (account scope frame)

theorem tells_pure {value : α} (h : shown value = "") :
    nothing.Tells scope shown (pure value : Render σ α) := by
  intro frame
  refine ⟨(map_gathered_nil _).symm, fun other _ heq => ?_⟩
  cases heq
  exact h

/-- What comes behind a silent step. -/
theorem Account.Tells.behind {step : Render σ α} {next : α → Render σ β} {account : α → Account σ}
    {shown : β → String} (hstep : Silent scope step)
    (hnext : ∀ value, (account value).Tells scope shown (next value)) :
    (behind step account).Tells scope shown (step >>= next) := by
  intro frame
  have hsections := hstep.sections frame
  rw [bind_run]
  rcases hrun : step scope frame with ⟨fault | value, after⟩
  · rw [hrun] at hsections
    rw [behind_of_error hrun]
    exact ⟨hsections.trans (map_gathered_nil _).symm, fun _ _ heq => nomatch heq⟩
  · rw [hrun] at hsections
    rw [behind_of_ok hrun, ← hsections]
    exact hnext value after

theorem remaining_whole {step : Render σ String} {output : String} (h : (step scope frame).1 = .ok output) :
    remaining (whole step scope frame) = output := by
  have hrun : step scope frame = (.ok output, (step scope frame).2) := Prod.ext h rfl
  rw [whole, behind_of_ok hrun]
  exact remaining_text output

theorem tells_whole {step : Render σ String} (h : Silent scope step) : (whole step).Tells scope id step := by
  intro frame
  refine ⟨?_, fun output _ houtput => ?_⟩
  · rw [finished_whole, h.sections]
    exact (map_gathered_nil _).symm
  · exact (remaining_whole houtput).symm

/-- Two steps one after another, of which the second does not depend on the answer of the first. -/
theorem Account.Tells.followed {first : Render σ α} {second : Render σ β} {account next : Account σ}
    {shownFirst : α → String} {shownSecond : β → String} {γ : Type} {combine : α → β → γ} {shown : γ → String}
    (h : account.Tells scope shownFirst first) (hnext : next.Tells scope shownSecond second)
    (hshown : ∀ value more, shown (combine value more) = shownFirst value ++ shownSecond more) :
    (followed account first next).Tells scope shown (do
      let value ← first
      let more ← second
      return combine value more) := by
  intro frame
  obtain ⟨hleft, hanswer⟩ := h frame
  unfold Account.followed
  rw [bind_run, finished_append, gathered_append, remaining_append]
  rcases hfirst : first scope frame with ⟨fault | value, after⟩
  · rw [hfirst] at hleft
    rw [behind_of_error hfirst]
    exact ⟨hleft, fun _ _ heq => nomatch heq⟩
  · rw [hfirst] at hleft hanswer
    obtain ⟨hlast, hmore⟩ := hnext after
    dsimp only at hleft ⊢
    rw [behind_of_ok hfirst, bind_run, ← Option.map_map, ← hleft]
    rcases hsecond : second scope after with ⟨fault | more, last⟩
    · rw [hsecond] at hlast
      exact ⟨hlast, fun _ _ heq => nomatch heq⟩
    · rw [hsecond] at hlast hmore
      refine ⟨hlast, fun result hsome heq => ?_⟩
      cases heq
      have hsome' : after.sections.isSome := by
        rw [hleft, Option.isSome_map]
        exact hsome
      rw [hshown, hanswer value hsome rfl, hmore more hsome' rfl]

theorem Account.Tells.map {step : Render σ α} {account : Account σ} {shown' : β → String}
    (h : account.Tells scope shown step) (f : α → β) (hshown : ∀ value, shown' (f value) = shown value) :
    account.Tells scope shown' (step >>= fun value => pure (f value)) := by
  intro frame
  obtain ⟨hleft, hanswer⟩ := h frame
  rw [bind_run]
  rcases hrun : step scope frame with ⟨fault | value, after⟩
  · rw [hrun] at hleft
    exact ⟨hleft, fun _ _ heq => nomatch heq⟩
  · rw [hrun] at hleft hanswer
    refine ⟨hleft, fun result hsome heq => ?_⟩
    cases heq
    exact (hshown value).trans (hanswer value hsome rfl)

/-- What is put back afterwards does not matter if it is no sections. -/
theorem Account.Tells.keeping {step : Render σ α} {account : Account σ}
    {restore : Frame σ → Frame σ → Frame σ} (h : account.Tells scope shown step)
    (hrestore : ∀ before after, (restore before after).sections = after.sections) :
    account.Tells scope shown (keeping restore step) :=
  fun frame => ⟨(hrestore frame _).trans (h frame).1, (h frame).2⟩

section Parts

variable {account : Account σ}

/-- While sections are collected, content for a section is the last of the sections that are finished in it, and
it shows nothing. -/
theorem tells_ofSection (name : String) {content : Render σ String} (h : account.Tells scope id content) :
    (ofSection name content account).Tells scope id (sectionContent name content) := by
  intro frame
  obtain ⟨hleft, -⟩ := h frame
  have hget : (get : Render σ (Frame σ)) scope frame = (.ok frame, frame) := rfl
  unfold ofSection sectionContent
  rw [bind_run, hget, finished_append, gathered_append, remaining_append, finished_sectionsOnly,
    remaining_sectionsOnly]
  dsimp only
  cases hsections : frame.sections with
  | none =>
      rw [hsections] at hleft
      refine ⟨hleft, fun _ hsome => nomatch hsome⟩
  | some sections =>
      rw [hsections] at hleft
      rw [if_neg (fun hnone => nomatch hnone), bind_run, ← Option.map_map, ← hleft]
      rcases hcontent : content scope frame with ⟨fault | output, after⟩
      · rw [behind_of_error hcontent]
        exact ⟨(map_gathered_nil _).symm, fun _ _ heq => nomatch heq⟩
      · rw [behind_of_ok hcontent]
        refine ⟨rfl, fun result _ heq => ?_⟩
        cases heq
        rfl

theorem tells_ofPlace {filled : Scope → Bool} {place default : Render σ String}
    (h : account.Tells scope id default) (hfilled : filled scope = true → Silent scope place)
    (hopen : filled scope = false → place scope = default scope) :
    (ofPlace filled place account).Tells scope id place := by
  intro frame
  unfold ofPlace
  cases hplace : filled scope with
  | true => exact tells_whole (hfilled hplace) frame
  | false =>
      rw [hopen hplace]
      exact h frame

theorem tells_sectionPlace (name : String) (required : Bool) {default : Render σ String}
    (h : account.Tells scope id default) :
    (ofPlace (fun scope => (scope.sections.lookup (Text.lowercase name)).isSome || required)
      (sectionPlace name required default) account).Tells scope id (sectionPlace name required default) := by
  refine tells_ofPlace h (fun hfilled sections frame hframe => ?_) fun hopen => funext fun frame => ?_
  · cases hlookup : scope.sections.lookup (Text.lowercase name) with
    | some content =>
        rw [sectionPlace_found hlookup]
        exact ⟨hframe, fun _ _ => trivial⟩
    | none =>
        rw [hlookup] at hfilled
        obtain rfl : required = true := hfilled
        rw [sectionPlace_missing hlookup]
        exact ⟨hframe, fun _ _ => trivial⟩
  · obtain ⟨hlookup, rfl⟩ := Bool.or_eq_false_iff.1 hopen
    exact sectionPlace_missing (Option.isNone_iff_eq_none.1 (Option.isSome_eq_false_iff.1 hlookup)) false _ frame

theorem tells_slotPlace (name : String) {default : Render σ String} (h : account.Tells scope id default) :
    (ofPlace (fun scope => (scope.slots.lookup (Text.lowercase name)).isSome) (slotPlace name default)
      account).Tells scope id (slotPlace name default) := by
  refine tells_ofPlace h (fun hfilled sections frame hframe => ?_) fun hopen => ?_
  · obtain ⟨content, hlookup⟩ := Option.isSome_iff_exists.1 hfilled
    rw [slotPlace_found hlookup]
    exact ⟨hframe, fun _ _ => trivial⟩
  · exact slotPlace_missing (Option.isNone_iff_eq_none.1 (Option.isSome_eq_false_iff.1 hopen)) _

variable (renderer : Renderer σ)

theorem tells_ofIterations (item : String) {body : Render σ String} (h : account.Tells scope id body)
    (elements : List Value) :
    (ofIterations renderer item body account elements).Tells scope String.join
      (elements.mapM fun element => do
        startIteration renderer
        modify fun frame => { frame with vars := frame.vars.insert item element }
        body) := by
  induction elements with
  | nil => exact tells_pure rfl
  | cons element rest ih =>
      have hiterations := Account.Tells.behind (silent_startOf renderer item element) fun _ =>
        h.followed ih fun first others => String.join_cons
      rw [List.mapM_cons]
      simp only [startOf, bind_assoc] at hiterations ⊢
      exact hiterations

theorem tells_ofLoop (item collection : String) {body : Render σ String} (h : account.Tells scope id body) :
    (ofLoop renderer item collection body account).Tells scope id (loop renderer item collection body) := by
  refine Account.Tells.behind (silent_resolving renderer _) fun value => ?_
  cases value.bind Value.elements? with
  | none => exact tells_pure rfl
  | some elements =>
      refine Account.Tells.keeping (Account.Tells.behind (silent_note _) fun _ => ?_) fun _ _ => rfl
      exact (tells_ofIterations renderer item h elements).map String.join fun _ => rfl

theorem silent_decided (condition : String) : Silent scope (decided renderer condition) :=
  Silent.bind (fun _ => keeps_liftExcept _) fun _ =>
    (silent_resolving renderer _).bind fun _ => silent_pure _

theorem conditional_cons (condition : String) (otherwise body : Render σ String)
    (rest : List (String × Render σ String)) :
    conditional renderer otherwise ((condition, body) :: rest) =
      decided renderer condition >>= fun holds =>
        if holds then body else conditional renderer otherwise rest := by
  rw [conditional, decided]
  simp only [bind_assoc, pure_bind]

theorem call_eq {name : String} {body : List Node} (h : scope.fragments.lookup (Text.lowercase name) = some body)
    (enter : List Node → Render σ String) (parameters : List Parameter) :
    call renderer (some enter) name parameters scope =
      keeping leaveCall (openingOf renderer parameters >>= fun _ => enter body) scope := by
  unfold call openingOf
  rw [read_bind_run, h]
  simp only [bind_assoc]

theorem openingOf_run {parameters : List Parameter} {values : List (String × Value)} {frame ready : Frame σ}
    (resolved : parameterValues renderer parameters scope frame.opened = (.ok values, ready)) :
    openingOf renderer parameters scope frame =
      (.ok (), { ready with vars := ready.vars.extend (Variables.ofList values) }) := by
  change (parameterValues renderer parameters >>= fun values =>
    modify fun frame => { frame with vars := frame.vars.extend (Variables.ofList values) }) scope
      frame.opened = _
  rw [bind_run, resolved]
  rfl

/-- A call whose parameters are resolved enters the body with these bound. -/
theorem call_run {name : String} {body : List Node} (h : scope.fragments.lookup (Text.lowercase name) = some body)
    (enter : List Node → Render σ String) {parameters : List Parameter} {values : List (String × Value)}
    {frame ready : Frame σ}
    (resolved : parameterValues renderer parameters scope frame.opened = (.ok values, ready)) :
    call renderer (some enter) name parameters scope frame =
      let (output, last) := enter body scope { ready with vars := ready.vars.extend (Variables.ofList values) }
      (output, leaveCall frame last) := by
  rw [call_eq renderer h]
  unfold keeping
  rw [bind_run, openingOf_run renderer resolved]
  rfl

theorem silent_call_of_unopened {enter : Option (List Node → Render σ String)} {name : String}
    (h : scope.fragments.lookup (Text.lowercase name) = none ∨ enter = none) (parameters : List Parameter) :
    Silent scope (call renderer enter name parameters) := by
  intro sections frame hframe
  unfold call
  rw [read_bind_run]
  rcases h with hlookup | rfl
  · rw [hlookup]
    exact ⟨hframe, fun _ _ => trivial⟩
  · cases scope.fragments.lookup (Text.lowercase name) with
    | none => exact ⟨hframe, fun _ _ => trivial⟩
    | some body => exact ⟨hframe, fun _ heq => nomatch heq⟩

theorem tells_ofCall {enter : Option (List Node → Render σ String)}
    {bodies : Option (List Node → Account σ)}
    (h : Option.Rel (fun way account => ∀ nodes, (account nodes).Tells scope id (way nodes)) enter bodies)
    (name : String) (parameters : List Parameter) :
    (ofCall renderer enter bodies name parameters).Tells scope id (call renderer enter name parameters) := by
  intro frame
  unfold ofCall
  cases hlookup : scope.fragments.lookup (Text.lowercase name) with
  | none => exact tells_whole (silent_call_of_unopened renderer (.inl hlookup) parameters) frame
  | some body =>
      cases h with
      | none => exact tells_whole (silent_call_of_unopened renderer (.inr rfl) parameters) frame
      | some h =>
          rw [call_eq renderer hlookup]
          exact (Account.Tells.behind (silent_openingOf renderer parameters) fun _ => h body).keeping
            (fun _ _ => rfl) frame

/-- The contents of slots in the order in which they are rendered. -/
def shownContents (contents : List (String × String)) : String := String.join (contents.reverse.map Prod.snd)

theorem tells_slot (name : String) {content : Render σ String} {slots : List (String × Render σ String)}
    {next : Account σ} (h : account.Tells scope id content)
    (hnext : next.Tells scope shownContents (slotContents slots)) :
    (followed account content next).Tells scope shownContents (slotContents ((name, content) :: slots)) := by
  rw [slotContents_cons]
  refine h.followed hnext fun value more => ?_
  unfold shownContents
  rw [List.reverse_append, List.reverse_singleton, List.singleton_append, List.map_cons, String.join_cons]
  rfl

/-- However a component ends, it leaves the sections that the contents of its slots have added. -/
theorem tells_ofComponent (enter : Option (Tree → Render σ String)) (head : ComponentHead)
    {slots : List (String × Render σ String)} (h : account.Tells scope shownContents (slotContents slots)) :
    (ofComponent renderer enter head slots account).Tells scope id (component renderer enter head slots) := by
  intro frame
  cases enter with
  | none => exact tells_whole (silent_pure _) frame
  | some enter =>
      have hleft : (component renderer (some enter) head slots scope frame).2.sections =
          (slotsLeft renderer head slots scope frame).sections := by
        rw [← sections_inclusion renderer head enter]
        unfold component
        dsimp only
        rw [tryCatch_run]
        rcases inclusion renderer enter head slots scope frame with ⟨fault | output, after⟩
        · rfl
        · rfl
      have hprepared := (silent_prepared renderer head scope).sections frame
      unfold ofComponent
      dsimp only
      rw [finished_append, finished_whole, List.append_nil, finished_sectionsOnly, remaining_append,
        remaining_sectionsOnly, String.empty_append, hleft]
      refine ⟨?_, fun output _ houtput => ?_⟩
      · unfold slotsLeft
        rcases hrun : prepared renderer head scope frame with ⟨fault | - | found, after⟩
        · rw [hrun] at hprepared
          rw [behind_of_error hrun]
          exact hprepared.trans (map_gathered_nil _).symm
        · rw [hrun] at hprepared
          rw [behind_of_ok hrun]
          exact hprepared.trans (map_gathered_nil _).symm
        · rw [hrun] at hprepared
          rw [behind_of_ok hrun, ← hprepared]
          exact (h after).1
      · exact (remaining_whole houtput).symm

end Parts

section Trees

variable (renderer : Renderer σ)

/-- The accounts of nodes, of arms and of slots tell of their steps: one case for each kind of node. -/
theorem tells_nodes {entrances : Entrances σ} {bodies : Option (List Node → Account σ)}
    (hbodies : ∀ scope, Option.Rel (fun way account => ∀ nodes, (account nodes).Tells scope id (way nodes))
      entrances.body bodies) :
    (∀ node scope, (accountOf renderer entrances bodies node).Tells scope id (ofNode renderer entrances node)) ∧
    (∀ named scope,
      (∀ account otherwise, account.Tells scope id otherwise →
        (accountOfArms renderer entrances bodies account named).Tells scope id
          (conditional renderer otherwise (ofBodies renderer entrances named))) ∧
      (accountOfSlots renderer entrances bodies named).Tells scope shownContents
        (slotContents (ofBodies renderer entrances named))) ∧
    (∀ nodes scope,
      (accountOfNodes renderer entrances bodies nodes).Tells scope id (ofNodes renderer entrances nodes)) := by
  apply ofNode.mutual_induct
  · intro source scope
    exact tells_whole (silent_pure source)
  · intro expression scope
    exact tells_whole (silent_interpolation renderer expression)
  · intro tag attributes children ih scope
    exact ih scope
  · intro branches ih scope
    exact (ih scope).1 nothing _ (tells_pure rfl)
  · intro branches otherwise hotherwise hbranches scope
    exact (hbranches scope).1 _ _ (hotherwise scope)
  · intro item collection children ih scope
    exact tells_ofLoop renderer item collection (ih scope)
  · intro head defaultSlot slots hdefault hslots scope
    refine tells_ofComponent renderer entrances.tree head ?_
    cases defaultSlot with
    | nil => exact (hslots scope).2
    | cons first rest => exact tells_slot defaultSlotName (hdefault scope) (hslots scope).2
  · intro name children ih scope
    exact tells_whole (silent_layout renderer entrances.tree name _)
  · intro name children ih scope
    exact tells_ofSection name (ih scope)
  · intro name required default ih scope
    exact tells_sectionPlace name required (ih scope)
  · intro scope
    exact tells_whole (fun _ => keeps_read.bind fun _ _ => keeps_any _)
  · intro name default ih scope
    exact tells_slotPlace name (ih scope)
  · intro name body scope
    exact tells_pure rfl
  · intro name parameters scope
    exact tells_ofCall renderer (hbodies scope) name parameters
  -- lists of nodes
  · intro scope
    exact tells_pure rfl
  · intro node rest hnode hrest scope
    exact (hnode scope).followed (hrest scope) fun _ _ => rfl
  -- lists of bodies
  · intro scope
    exact ⟨fun _ _ h => h, tells_pure rfl⟩
  · intro name body rest hbody hrest scope
    refine ⟨fun account otherwise h => ?_, tells_slot name (hbody scope) (hrest scope).2⟩
    rw [ofBodies, conditional_cons]
    refine Account.Tells.behind (silent_decided renderer name) fun holds => ?_
    cases holds with
    | true => exact hbody scope
    | false => exact (hrest scope).1 account otherwise h

/-- What nodes give is told, however many inclusions and calls may still be opened. -/
theorem tells_account (inclusions calls : Nat) (nodes : List Node) (scope : Scope) :
    (account renderer inclusions calls nodes).Tells scope id
      (ofNodes renderer (entrancesLeft renderer inclusions calls) nodes) := by
  induction calls generalizing nodes scope with
  | zero =>
      refine (tells_nodes renderer fun scope => ?_).2.2 nodes scope
      rw [entrancesLeft_eq]
      exact .none
  | succ calls ih =>
      refine (tells_nodes renderer fun scope => ?_).2.2 nodes scope
      rw [entrancesLeft_eq]
      exact .some fun nodes => ih nodes scope

end Trees

end Stencil.Render
