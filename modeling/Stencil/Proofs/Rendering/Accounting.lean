import Mathlib.Algebra.GroupWithZero.Nat
import Stencil.Proofs.Rendering.Invariants
import Stencil.Proofs.Resolution.Events

/-!
The accounts of a render. Its trail tells at every moment which loops and calls are open and what the two
counters stand at. The counters stand at what they stood at before, with the iterations that the open loops
have started and with the open calls, and they never go beyond their limits: an iteration is counted only
below its limit, and a call only while there is a way into its body.
-/

namespace Stencil

open Markup

namespace Trail

/-- The iterations that the open loops have started, of the innermost loop first. -/
def openLoops : Trail → List Nat
  | [] => []
  | .loopEntered :: earlier => 0 :: openLoops earlier
  | .iteration _ :: earlier => (openLoops earlier).modifyHead (· + 1)
  | .loopLeft _ :: earlier => (openLoops earlier).tail
  | _ :: earlier => openLoops earlier

/-- The number of calls that are open. -/
def openCalls : Trail → Nat
  | [] => 0
  | .called _ :: earlier => openCalls earlier + 1
  | .callLeft _ :: earlier => openCalls earlier - 1
  | _ :: earlier => openCalls earlier

/-- What the counter of iterations stands at, given what it stood at before. -/
def iterations (before : Nat) : Trail → Nat
  | [] => before
  | .iteration count :: _ | .loopLeft count :: _ => count
  | _ :: earlier => iterations before earlier

/-- What the counter of calls stands at, given what it stood at before. -/
def calls (before : Nat) : Trail → Nat
  | [] => before
  | .called count :: _ | .callLeft count :: _ => count
  | _ :: earlier => calls before earlier

/-- At every moment of some events something was so. -/
def Always (P : Trail → Prop) (events : Trail) : Prop := ∀ moment, moment <:+ events → P moment

theorem always_nil {P : Trail → Prop} (h : P []) : Always P [] :=
  fun _ hmoment => List.suffix_nil.1 hmoment ▸ h

theorem Always.cons {P : Trail → Prop} {event : Event} {events : Trail} (h : Always P events)
    (hnow : P (event :: events)) : Always P (event :: events) := by
  intro moment hmoment
  rcases List.suffix_cons_iff.1 hmoment with rfl | hearlier
  · exact hnow
  · exact h moment hearlier

/-- The counters tell what is open, on top of what they stood at before, and they are within bounds. -/
structure Balanced (before called most depth : Nat) (events : Trail) : Prop where
  iterations : events.iterations before = before + events.openLoops.sum
  calls : events.calls called = called + events.openCalls
  most : events.openLoops.sum ≤ most - before
  depth : events.openCalls ≤ depth

end Trail

/-- What a frame has come to since an earlier one: the loops and calls that have been opened meanwhile and
are still open. -/
structure Frame.Accounted {σ : Type} (start : Frame σ) (most depth : Nat) (loops : List Nat) (calls : Nat)
    (frame : Frame σ) (events : Trail) : Prop where
  trail : frame.memory.trail = events ++ start.memory.trail
  always : events.Always (Trail.Balanced start.iterations start.calls most depth)
  openLoops : events.openLoops = loops
  openCalls : events.openCalls = calls
  iterations : frame.iterations = start.iterations + loops.sum
  calls : frame.calls = start.calls + calls

namespace Frame.Accounted

variable {σ : Type} {start frame after : Frame σ} {most depth : Nat} {loops : List Nat} {calls : Nat}
  {events : Trail}

theorem refl (frame : Frame σ) (most depth : Nat) : frame.Accounted most depth [] 0 frame [] where
  trail := rfl
  always := Trail.always_nil ⟨rfl, rfl, Nat.zero_le _, Nat.zero_le _⟩
  openLoops := rfl
  openCalls := rfl
  iterations := rfl
  calls := rfl

theorem now (h : start.Accounted most depth loops calls frame events) :
    Trail.Balanced start.iterations start.calls most depth events :=
  h.always events (List.suffix_refl _)

/-- Resolutions change no account. -/
theorem reading (h : start.Accounted most depth loops calls frame events) {more : Trail}
    (hmore : ∀ event ∈ more, event.isReading = true)
    (htrail : after.memory.trail = more ++ frame.memory.trail)
    (hcounters : after.iterations = frame.iterations ∧ after.calls = frame.calls) :
    start.Accounted most depth loops calls after (more ++ events) := by
  have hsilent (event : Event) (hevent : event.isReading = true) (events : Trail) :
      Trail.openLoops (event :: events) = events.openLoops ∧
        Trail.openCalls (event :: events) = events.openCalls ∧
        (∀ before, Trail.iterations before (event :: events) = events.iterations before) ∧
        ∀ before, Trail.calls before (event :: events) = events.calls before := by
    cases event with
    | expression | lookup | indexer => exact ⟨rfl, rfl, fun _ => rfl, fun _ => rfl⟩
    | _ => cases hevent
  have hall : (more ++ events).Always (Trail.Balanced start.iterations start.calls most depth) ∧
      Trail.openLoops (more ++ events) = loops ∧ Trail.openCalls (more ++ events) = calls := by
    clear htrail
    induction more with
    | nil => exact ⟨h.always, h.openLoops, h.openCalls⟩
    | cons event more ih =>
        obtain ⟨hevent, hrest⟩ := List.forall_mem_cons.1 hmore
        obtain ⟨halways, hloops, hcalls⟩ := ih hrest
        obtain ⟨hloops', hcalls', htold, htold'⟩ := hsilent event hevent (more ++ events)
        have hnow := halways _ (List.suffix_refl _)
        refine ⟨halways.cons ⟨?_, ?_, ?_, ?_⟩, hloops'.trans hloops, hcalls'.trans hcalls⟩
        · rw [htold, hloops']
          exact hnow.iterations
        · rw [htold', hcalls']
          exact hnow.calls
        · exact hloops' ▸ hnow.most
        · exact hcalls' ▸ hnow.depth
  exact ⟨by rw [htrail, h.trail, List.append_assoc], hall.1, hall.2.1, hall.2.2,
    hcounters.1.trans h.iterations, hcounters.2.trans h.calls⟩

/-- One more event, by what it says of the loops and calls. -/
theorem cons (h : start.Accounted most depth loops calls frame events) {event : Event}
    {loops' : List Nat} {calls' : Nat} (htrail : after.memory.trail = event :: frame.memory.trail)
    (hloops : Trail.openLoops (event :: events) = loops')
    (hcalls : Trail.openCalls (event :: events) = calls')
    (htold : Trail.iterations start.iterations (event :: events) = after.iterations)
    (htold' : Trail.calls start.calls (event :: events) = after.calls)
    (hiterations : after.iterations = start.iterations + loops'.sum)
    (hcounter : after.calls = start.calls + calls') (hmost : loops'.sum ≤ most - start.iterations)
    (hdepth : calls' ≤ depth) : start.Accounted most depth loops' calls' after (event :: events) where
  trail := by rw [htrail, h.trail, List.cons_append]
  always := h.always.cons
    ⟨by rw [htold, hiterations, hloops], by rw [htold', hcounter, hcalls], hloops ▸ hmost, hcalls ▸ hdepth⟩
  openLoops := hloops
  openCalls := hcalls
  iterations := hiterations
  calls := hcounter

theorem sum_le (h : start.Accounted most depth loops calls frame events) :
    loops.sum ≤ most - start.iterations :=
  h.openLoops ▸ h.now.most

theorem calls_le (h : start.Accounted most depth loops calls frame events) : calls ≤ depth :=
  h.openCalls ▸ h.now.depth

theorem told (h : start.Accounted most depth loops calls frame events) :
    Trail.iterations start.iterations events = frame.iterations ∧
      Trail.calls start.calls events = frame.calls := by
  rw [h.now.iterations, h.now.calls, h.iterations, h.calls, h.openLoops, h.openCalls]
  exact ⟨rfl, rfl⟩

theorem loopEntered (h : start.Accounted most depth loops calls frame events) :
    start.Accounted most depth (0 :: loops) calls (frame.noted .loopEntered)
      (.loopEntered :: events) := by
  have hsum : (0 :: loops).sum = loops.sum := by rw [List.sum_cons, Nat.zero_add]
  refine h.cons rfl (congrArg (0 :: ·) h.openLoops) h.openCalls h.told.1 h.told.2 ?_ h.calls ?_ h.calls_le
  · rw [hsum]
    exact h.iterations
  · rw [hsum]
    exact h.sum_le

/-- An iteration of the innermost loop starts below the limit. -/
theorem iterated {count : Nat}
    (h : start.Accounted most depth (count :: loops) calls frame events)
    (hlimit : frame.iterations < most) (item : String) (element : Value) :
    start.Accounted most depth ((count + 1) :: loops) calls (frame.iterated item element)
      (.iteration (frame.iterations + 1) :: events) := by
  have hiterations := h.iterations
  rw [List.sum_cons] at hiterations
  refine h.cons rfl ?_ h.openCalls rfl h.told.2 ?_ h.calls ?_ h.calls_le
  · change (events.openLoops).modifyHead (· + 1) = _
    rw [h.openLoops]
    rfl
  · change frame.iterations + 1 = _
    rw [List.sum_cons]
    omega
  · rw [List.sum_cons]
    omega

/-- The frame from before a loop tells what its iterations are put back to. -/
theorem loopLeft {before : Frame σ} {count : Nat} {events' : Trail}
    (hbefore : start.Accounted most depth loops calls before events')
    (h : start.Accounted most depth (count :: loops) calls frame events) (item : String) :
    start.Accounted most depth loops calls (Render.leaveLoop item before frame)
      (.loopLeft before.iterations :: events) := by
  refine h.cons rfl ?_ h.openCalls rfl h.told.2 hbefore.iterations h.calls hbefore.sum_le h.calls_le
  change (events.openLoops).tail = _
  rw [h.openLoops]
  rfl

theorem opened (h : start.Accounted most depth loops calls frame events) (hdepth : calls < depth) :
    start.Accounted most depth loops (calls + 1) frame.opened
      (.called (frame.calls + 1) :: events) := by
  refine h.cons rfl h.openLoops (congrArg (· + 1) h.openCalls) h.told.1 rfl h.iterations ?_ h.sum_le
    hdepth
  exact congrArg (· + 1) h.calls

theorem callLeft {before : Frame σ} {events' : Trail}
    (hbefore : start.Accounted most depth loops calls before events')
    (h : start.Accounted most depth loops (calls + 1) frame events) :
    start.Accounted most depth loops calls (Render.leaveCall before frame)
      (.callLeft before.calls :: events) := by
  refine h.cons rfl h.openLoops ?_ h.told.1 rfl h.iterations hbefore.calls h.sum_le hbefore.calls_le
  change events.openCalls - 1 = _
  rw [h.openCalls]
  rfl

end Frame.Accounted

namespace Render

variable {σ α : Type}

/-- What is known of a frame are the loops and calls that are open in it. -/
def accounts (start : Frame σ) (most depth : Nat) : Invariant σ (List Nat × Nat) where
  holds opened frame := ∃ events, start.Accounted most depth opened.1 opened.2 frame events
  room calls opened := opened.2 + calls ≤ depth

variable {start : Frame σ} {most depth : Nat} {opened : List Nat × Nat}

/-- What touches neither the trail nor the counters changes no account. -/
theorem holds_accounts_of_same {frame after : Frame σ}
    (h : (accounts start most depth).holds opened frame)
    (htrail : after.memory.trail = frame.memory.trail)
    (hcounters : after.iterations = frame.iterations ∧ after.calls = frame.calls) :
    (accounts start most depth).holds opened after := by
  obtain ⟨events, haccounted⟩ := h
  exact ⟨[] ++ events, haccounted.reading (fun _ hmem => absurd hmem List.not_mem_nil) htrail hcounters⟩

theorem keeps_accounts_resolving (renderer : Renderer σ) {scope : Scope}
    {resolution : Resolver → Resolving α} (h : ∀ resolver, Resolver.Reads (resolution resolver)) :
    Keeps ((accounts start most depth).holds opened) scope (fun _ => True)
      (resolving renderer resolution) := by
  rintro frame ⟨events, haccounted⟩
  refine ⟨?_, fun _ _ => trivial⟩
  obtain ⟨more, htrail, hmore⟩ := h ⟨renderer.security, renderer.host, renderer.ownFilters,
    renderer.sharedFilters, frame.vars⟩ frame.memory
  exact ⟨more ++ events, haccounted.reading hmore htrail ⟨rfl, rfl⟩⟩

theorem kept_accounts (renderer : Renderer σ) (start : Frame σ) (depth : Nat) :
    (accounts start renderer.security.limits.loopIterations depth).Kept renderer where
  text _ := trivial
  null := trivial
  elements _ _ _ _ := trivial
  vars _ _ _ := trivial
  resolve _ _ expression := (keeps_accounts_resolving renderer fun resolver =>
    resolver.reads_resolve expression.toList).mono fun _ _ _ _ => trivial
  interpolate _ _ text := keeps_accounts_resolving renderer fun resolver =>
    resolver.reads_interpolate text
  parameter _ _ parameter := keeps_accounts_resolving renderer fun resolver =>
    resolver.reads_parameterValue parameter
  load _ _ _ _ hframe := ⟨holds_accounts_of_same hframe rfl ⟨rfl, rfl⟩, fun _ _ => trivial⟩
  loop {opened frame} item hframe := by
    obtain ⟨before, hbefore⟩ := hframe
    refine ⟨fun inside => ∃ count, inside = (count :: opened.1, opened.2), ?_, ?_, ?_⟩
    · exact ⟨_, ⟨0, rfl⟩, _, hbefore.loopEntered⟩
    · rintro _ current element ⟨count, rfl⟩ ⟨events, hcurrent⟩ _ hlimit
      exact ⟨_, ⟨count + 1, rfl⟩, _, hcurrent.iterated hlimit item element⟩
    · rintro _ ⟨count, rfl⟩
      refine ⟨fun _ hroom => hroom, ?_⟩
      rintro after ⟨events, hafter⟩
      exact ⟨_, hbefore.loopLeft hafter item⟩
  call {opened frame calls} hframe hroom := by
    obtain ⟨before, hbefore⟩ := hframe
    have hroom : opened.2 + (calls + 1) ≤ depth := hroom
    refine ⟨(opened.1, opened.2 + 1), ⟨_, hbefore.opened (by omega)⟩, ?_⟩
    rintro resolved ⟨events, hresolved⟩
    refine ⟨⟨_, hbefore.callLeft hresolved⟩, fun more _ => ⟨(opened.1, opened.2 + 1), ?_, ?_, ?_⟩⟩
    · change opened.2 + 1 + calls ≤ depth
      omega
    · exact holds_accounts_of_same ⟨events, hresolved⟩ rfl ⟨rfl, rfl⟩
    · rintro after ⟨later, hafter⟩
      exact ⟨_, hbefore.callLeft hafter⟩
  collecting hframe := ⟨_, fun _ hroom => hroom, holds_accounts_of_same hframe rfl ⟨rfl, rfl⟩,
    fun _ hafter => holds_accounts_of_same hafter rfl ⟨rfl, rfl⟩⟩
  addSection _ _ hframe := holds_accounts_of_same hframe rfl ⟨rfl, rfl⟩
  inside _ hframe _ := ⟨_, fun _ hroom => hroom, holds_accounts_of_same hframe rfl ⟨rfl, rfl⟩,
    fun _ hafter => holds_accounts_of_same hafter rfl ⟨rfl, rfl⟩⟩
  announce {opened frame} descriptor before hframe _ := by
    refine ⟨fun _ _ => trivial, opened, fun _ hroom => hroom, ?_, fun after hafter =>
      holds_accounts_of_same hafter rfl ⟨rfl, rfl⟩⟩
    obtain ⟨events, haccounted⟩ := hframe
    exact ⟨_, haccounted.cons rfl haccounted.openLoops haccounted.openCalls haccounted.told.1
      haccounted.told.2 haccounted.iterations haccounted.calls haccounted.sum_le haccounted.calls_le⟩
  store _ hafter := holds_accounts_of_same hafter rfl ⟨rfl, rfl⟩

variable (renderer : Renderer σ) (inclusions calls : Nat) (scope : Scope) (frame : Frame σ)

theorem holds_accounts_refl : (accounts frame most calls).holds ([], 0) frame :=
  ⟨[], Frame.Accounted.refl frame most calls⟩

/-- The account of a node: at every moment the counters tell what has been opened since the node was
entered, and in the end nothing of it is open. -/
theorem accounted_ofNode (node : Node) :
    ∃ events, frame.Accounted renderer.security.limits.loopIterations calls [] 0
      (ofNode renderer (entrancesLeft renderer inclusions calls) node scope frame).2 events :=
  holds_ofNode (kept_accounts renderer frame calls) node scope (Nat.le_of_eq (Nat.zero_add calls))
    (holds_accounts_refl calls frame)

theorem accounted_ofNodes (nodes : List Node) :
    ∃ events, frame.Accounted renderer.security.limits.loopIterations calls [] 0
      (ofNodes renderer (entrancesLeft renderer inclusions calls) nodes scope frame).2 events :=
  holds_ofNodes (kept_accounts renderer frame calls) nodes scope (Nat.le_of_eq (Nat.zero_add calls))
    (holds_accounts_refl calls frame)

end Render

end Stencil

/-!
A render gives back what it takes. Wherever a node is left, with an output or with a fault, names mean what
they meant where it was entered and the counters are back; and all the time in between the counters tell
exactly the iterations of the loops and the calls that are open, and stay within their limits.
-/

namespace Stencil.Render

open Markup

variable {σ : Type} (renderer : Renderer σ)

/-- No binding outlives the node that makes it. -/
theorem bindings_restored (inclusions calls : Nat) (node : Node) (scope : Scope) (frame : Frame σ) :
    let after := (ofNode renderer (entrancesLeft renderer inclusions calls) node scope frame).2
    (∀ name, after.vars.get? name = frame.vars.get? name) ∧
      ∀ name, after.vars.contains name = frame.vars.contains name := by
  intro after
  have hget (name : String) : after.vars.get? name = frame.vars.get? name :=
    (persists_ofNode renderer inclusions calls node scope frame).vars name
  have hcontains (vars : Variables) (name : String) :
      vars.contains name = (vars.get? name).isSome := (Option.isSome_map ..).symm
  exact ⟨hget, fun name => by rw [hcontains, hcontains, hget]⟩

/-- The counters of a render tell at every moment what is open, within their limits, and a node leaves them
as it found them. -/
theorem budgets_exact :
    (∀ (tree : Tree) (vars store : Variables) (memory : Memory) (loaded : σ), ∃ events,
      (run renderer tree vars store memory loaded).memory.trail = events ++ memory.trail ∧
      ∀ moment : Trail, moment <:+ events →
        moment.iterations 0 = moment.openLoops.sum ∧ moment.calls 0 = moment.openCalls ∧
        moment.iterations 0 ≤ renderer.security.limits.loopIterations ∧
        moment.calls 0 ≤ renderer.security.limits.recursionDepth) ∧
    ∀ (inclusions calls : Nat) (node : Node) (scope : Scope) (frame : Frame σ),
      let after := (ofNode renderer (entrancesLeft renderer inclusions calls) node scope frame).2
      (∃ events, after.memory.trail = events ++ frame.memory.trail ∧
        ∀ moment : Trail, moment <:+ events →
          moment.iterations frame.iterations = frame.iterations + moment.openLoops.sum ∧
          moment.calls frame.calls = frame.calls + moment.openCalls) ∧
      after.iterations = frame.iterations ∧ after.calls = frame.calls := by
  constructor
  · intro tree vars store memory loaded
    obtain ⟨events, haccounted⟩ := accounted_ofNodes renderer
      renderer.security.limits.includeDepth renderer.security.limits.recursionDepth (Scope.of tree)
      { vars, store, memory, loaded } tree.children
    refine ⟨events, haccounted.trail, fun moment hmoment => ?_⟩
    obtain ⟨hiterations, hcalls, hmost, hdepth⟩ := haccounted.always moment hmoment
    rw [Nat.zero_add] at hiterations hcalls
    rw [hiterations, hcalls]
    exact ⟨rfl, rfl, hmost, hdepth⟩
  · intro inclusions calls node scope frame after
    obtain ⟨events, haccounted⟩ := accounted_ofNode renderer inclusions calls scope frame node
    refine ⟨⟨events, haccounted.trail, fun moment hmoment => ?_⟩, haccounted.iterations,
      haccounted.calls⟩
    exact ⟨(haccounted.always moment hmoment).iterations, (haccounted.always moment hmoment).calls⟩

end Stencil.Render
