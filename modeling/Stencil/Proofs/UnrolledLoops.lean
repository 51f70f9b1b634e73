import Stencil.Proofs.IsolatedCallbacks
import Stencil.Proofs.Rendering.Likeness

/-!
Loops unroll. What a loop gives is put together from what its body gives for each element, rendered where the
item is bound to the element, the counter of iterations is one further on, and all else is as it was where the
loop was entered. A body that loops over the same item, calls fragments or includes components changes nothing
of this for the elements behind it. The loop fails where the first body does, or where the limit of iterations
is passed.
-/

namespace Stencil

open Markup

variable {σ : Type}

/-- A frame in which the body of a loop starts: the item is bound to the element, and as many iterations have
been started since the loop was entered. -/
structure Frame.Iterates (entry : Frame σ) (item : String) (element : Value) (count : Nat)
    (start : Frame σ) : Prop where
  vars : ∀ name, start.vars.get? name = (entry.vars.insert item element).get? name
  distinct : entry.vars.Distinct → start.vars.Distinct
  folded : entry.vars.Folded → start.vars.Folded
  sections : start.sections.isSome = entry.sections.isSome
  iterations : start.iterations = entry.iterations + count
  calls : start.calls = entry.calls
  store : start.store = entry.store

/-- Behind the bodies before it, a body starts with its own element in place of theirs. -/
theorem Frame.InLoop.iterates {item : String} {entry inside : Frame σ} (h : entry.InLoop item inside)
    {count : Nat} (hcount : inside.iterations = entry.iterations + count) (element : Value) :
    entry.Iterates item element (count + 1) (inside.iterated item element) where
  vars name := by
    change (inside.vars.insert item element).get? name = _
    rw [Variables.get?_insert, Variables.get?_insert]
    split
    · rfl
    next hother => exact h.vars name (ne_of_beq_false (Bool.eq_false_iff.2 hother))
  distinct hentry := Variables.distinct_insert (h.distinct hentry) item element
  folded hentry := Variables.every_insert (h.folded hentry) rfl
  sections := h.sections
  iterations := congrArg (· + 1) hcount
  calls := h.calls
  store := h.store

namespace Render

/-- The frames in which the body of a loop starts, one for each element, each behind what the body before it
has left. -/
def iterationStarts (body : Render σ String) (scope : Scope) (item : String) :
    List Value → Frame σ → List (Frame σ)
  | [], _ => []
  | element :: rest, frame =>
      let start := frame.iterated item element
      start :: iterationStarts body scope item rest (body scope start).2

section Results

variable {ε α : Type}

theorem mapM_id_map_ok (answers : List α) :
    (answers.map Except.ok).mapM (id : Except ε α → Except ε α) = .ok answers := by
  induction answers with
  | nil => rfl
  | cons answer rest ih =>
      rw [List.map_cons, List.mapM_cons, ih]
      rfl

/-- Of several results the first fault counts. -/
theorem mapM_id_eq_error {results : List (Except ε α)} {i : Nat} {fault : ε}
    (hfault : results[i]? = some (.error fault))
    (hbefore : ∀ j < i, ∃ answer, results[j]? = some (.ok answer)) : results.mapM id = .error fault := by
  induction results generalizing i with
  | nil => cases hfault
  | cons result rest ih =>
      rw [List.mapM_cons]
      cases i with
      | zero =>
          cases hfault
          rfl
      | succ i =>
          obtain ⟨answer, hanswer⟩ := hbefore 0 (Nat.zero_lt_succ i)
          cases hanswer
          rw [ih hfault fun j hj => hbefore (j + 1) (Nat.succ_lt_succ hj)]
          rfl

/-- What comes of bodies under a limit of iterations, some of which have been started before: behind the limit
they are not rendered. -/
def limited (limit : Nat) : Nat → List (Except Fault String) → List (Except Fault String)
  | _, [] => []
  | count, body :: rest =>
      (if limit < count + 1 then .error (.limitExceeded .loopIterations limit (count + 1)) else body) ::
        limited limit (count + 1) rest

variable {limit count : Nat} {bodies : List (Except Fault String)}

theorem limited_eq_self (h : count + bodies.length ≤ limit) : limited limit count bodies = bodies := by
  induction bodies generalizing count with
  | nil => rfl
  | cons body rest ih =>
      rw [List.length_cons] at h
      rw [limited, if_neg (by omega), ih (by omega)]

theorem getElem?_limited {i : Nat} (h : count + (i + 1) ≤ limit) :
    (limited limit count bodies)[i]? = bodies[i]? := by
  induction bodies generalizing count i with
  | nil => rfl
  | cons body rest ih =>
      rw [limited]
      cases i with
      | zero => rw [List.getElem?_cons_zero, List.getElem?_cons_zero, if_neg (by omega)]
      | succ i =>
          rw [List.getElem?_cons_succ, List.getElem?_cons_succ]
          exact ih (by omega)

/-- The first body behind the limit stands for the limit. -/
theorem getElem?_limited_exceeded (h : count ≤ limit) (h' : limit < count + bodies.length) :
    (limited limit count bodies)[limit - count]? =
      some (.error (.limitExceeded .loopIterations limit (limit + 1))) := by
  induction bodies generalizing count with
  | nil => exact absurd h' (Nat.not_lt.2 h)
  | cons body rest ih =>
      rw [limited]
      rcases Nat.eq_or_lt_of_le h with rfl | hlt
      · rw [Nat.sub_self, List.getElem?_cons_zero, if_pos (Nat.lt_succ_self _)]
      · rw [List.length_cons] at h'
        rw [show limit - count = limit - (count + 1) + 1 by omega, List.getElem?_cons_succ]
        exact ih hlt (by omega)

end Results

section Bodies

variable (renderer : Renderer σ) (body : Render σ String) (scope : Scope) (item : String)

/-- A body behind the start of its iteration. -/
def iteration (element : Value) : Render σ String := do
  startIteration renderer
  modify fun frame => { frame with vars := frame.vars.insert item element }
  body

/-- The bodies of a loop give what comes of them under the limit, up to the first fault. -/
theorem iterations_output (persists : ∀ frame : Frame σ, frame.Persists (body scope frame).2)
    (elements : List Value) (frame : Frame σ) :
    (elements.mapM (iteration renderer body item) scope frame).1 =
      (limited renderer.security.limits.loopIterations frame.iterations
        ((iterationStarts body scope item elements frame).map fun start => (body scope start).1)).mapM id := by
  induction elements generalizing frame with
  | nil => rfl
  | cons element rest ih =>
      rw [List.mapM_cons, iterationStarts, List.map_cons, limited, List.mapM_cons, bind_run, iteration,
        iteration_run]
      by_cases hlimit : renderer.security.limits.loopIterations < frame.iterations + 1
      · rw [if_pos hlimit, if_pos hlimit]
        rfl
      · rw [if_neg hlimit, if_neg hlimit]
        have hcount := (persists (frame.iterated item element)).iterations
        rcases hbody : body scope (frame.iterated item element) with ⟨fault | text, after⟩
        · rfl
        · rw [hbody] at hcount
          have hrest := ih after
          rw [show after.iterations = frame.iterations + 1 from hcount] at hrest
          dsimp only
          rw [bind_run, ← hrest]
          rcases rest.mapM (iteration renderer body item) scope after with ⟨fault | texts, last⟩
          · rfl
          · rfl

/-- The frame when the bodies of a loop start, behind its collection. -/
def loopEntered (collection : String) (frame : Frame σ) : Frame σ :=
  (resolve renderer collection scope frame).2.noted .loopEntered

theorem persists_resolve (expression : String) (frame : Frame σ) :
    frame.Persists (resolve renderer expression scope frame).2 :=
  ((kept_persistence renderer).resolve frame scope expression frame frame.persists_refl).1

theorem inLoop_loopEntered (collection : String) (frame : Frame σ) :
    frame.InLoop item (loopEntered renderer scope collection frame) := by
  have h := persists_resolve renderer scope collection frame
  unfold loopEntered
  generalize (resolve renderer collection scope frame).2 = after at h
  exact ⟨fun name _ => h.vars name, h.distinct, h.folded, h.sections, h.calls, h.store⟩

/-- A loop over elements joins what its bodies give. -/
theorem loop_output (persists : ∀ frame : Frame σ, frame.Persists (body scope frame).2) (collection : String)
    (frame : Frame σ) {value : Value} {elements : List Value}
    (resolved : (resolve renderer collection scope frame).1 = .ok (some value))
    (enumerable : value.elements? = some elements) :
    (loop renderer item collection body scope frame).1 =
      ((limited renderer.security.limits.loopIterations frame.iterations
        ((iterationStarts body scope item elements (loopEntered renderer scope collection frame)).map
          fun start => (body scope start).1)).mapM id).map String.join := by
  unfold loop loopEntered
  rw [bind_run]
  have hkept := (persists_resolve renderer scope collection frame).iterations
  rcases hrun : resolve renderer collection scope frame with ⟨result, after⟩
  rw [hrun] at resolved hkept
  obtain rfl : result = .ok (some value) := resolved
  dsimp only [Option.bind_some]
  rw [enumerable, ← hkept]
  dsimp only
  rw [← show (after.noted .loopEntered).iterations = after.iterations from rfl,
    ← iterations_output renderer body scope item persists]
  change ((elements.mapM (iteration renderer body item) >>= fun pieces => pure (String.join pieces)) scope
    (after.noted .loopEntered)).1 = _
  rw [bind_run]
  rcases elements.mapM (iteration renderer body item) scope (after.noted .loopEntered) with
    ⟨fault | texts, last⟩
  · rfl
  · rfl

end Bodies

section Starts

variable {body : Render σ String} {scope : Scope} {item : String}

theorem length_iterationStarts (elements : List Value) (frame : Frame σ) :
    (iterationStarts body scope item elements frame).length = elements.length := by
  induction elements generalizing frame with
  | nil => rfl
  | cons element rest ih => exact congrArg (· + 1) (ih _)

/-- Where bodies leave the frame as they find it, the next one starts with its own element alone. -/
theorem iterates_of_getElem?_iterationStarts
    (persists : ∀ frame : Frame σ, frame.Persists (body scope frame).2) {entry inside : Frame σ}
    (h : entry.InLoop item inside) {count : Nat} (hcount : inside.iterations = entry.iterations + count)
    {elements : List Value} {i : Nat} {element : Value} {start : Frame σ}
    (helement : elements[i]? = some element)
    (hstart : (iterationStarts body scope item elements inside)[i]? = some start) :
    entry.Iterates item element (count + (i + 1)) start := by
  induction elements generalizing inside count i with
  | nil => cases helement
  | cons first rest ih =>
      cases i with
      | zero =>
          cases helement
          cases hstart
          exact h.iterates hcount element
      | succ i =>
          have hleft := persists (inside.iterated item first)
          have hinside := h.iterated first
          have hiterations : (body scope (inside.iterated item first)).2.iterations =
              entry.iterations + (count + 1) := hleft.iterations.trans (congrArg (· + 1) hcount)
          rw [show count + (i + 1 + 1) = count + 1 + (i + 1) by omega]
          exact ih (hinside.behind hleft) hiterations helement hstart

theorem typed_of_mem_iterationStarts {fieldsOf : String → List String} {host : Host} {among : σ → Prop}
    (keeps : ∀ frame : Frame σ, frame.Typed fieldsOf host among → (body scope frame).2.Typed fieldsOf host among)
    {elements : List Value} (helements : ∀ element ∈ elements, element.Typed fieldsOf) {frame : Frame σ}
    (hframe : frame.Typed fieldsOf host among) :
    ∀ start ∈ iterationStarts body scope item elements frame, start.Typed fieldsOf host among := by
  induction elements generalizing frame with
  | nil => exact fun _ hmem => absurd hmem List.not_mem_nil
  | cons first rest ih =>
      obtain ⟨hfirst, hrest⟩ := List.forall_mem_cons.1 helements
      have hstart : (frame.iterated item first).Typed fieldsOf host among :=
        { hframe with vars := Variables.every_insert hframe.vars hfirst }
      exact List.forall_mem_cons.2 ⟨hstart, ih hrest (keeps _ hstart)⟩

end Starts

/-- Where a body starts, it gives what it gives from the entry with its element bound and the counter as far
on. -/
theorem output_eq_of_iterates {fieldsOf : String → List String} {among : σ → Prop} {renderer : Renderer σ}
    (typed : renderer.Typed fieldsOf) (steady : renderer.loader.Steady among) {entry start : Frame σ}
    (hentry : entry.Typed fieldsOf renderer.host among) (hstart : start.Typed fieldsOf renderer.host among)
    (distinct : entry.vars.Distinct) (folded : entry.vars.Folded) {item : String} {element : Value}
    (helement : element.Typed fieldsOf) {count : Nat} (h : entry.Iterates item element count start)
    (inclusions calls : Nat) (nodes : List Node) (scope : Scope) :
    (ofNodes renderer (entrancesLeft renderer inclusions calls) nodes scope start).1 =
      (ofNodes renderer (entrancesLeft renderer inclusions calls) nodes scope
        { entry with
          vars := entry.vars.insert item element
          iterations := entry.iterations + count }).1 := by
  have htyped : Frame.Typed fieldsOf renderer.host among
      { entry with
        vars := entry.vars.insert item element
        iterations := entry.iterations + count } :=
    { hentry with vars := Variables.every_insert hentry.vars helement }
  have hvars : start.vars.Matches (entry.vars.insert item element) :=
    Variables.matches_of_get? (h.distinct distinct) (Variables.distinct_insert distinct item element)
      (h.folded folded) (Variables.every_insert folded rfl) h.vars
  exact outputs_eq_of_typed typed steady hstart htyped hvars h.sections h.iterations h.calls h.store inclusions
    calls nodes scope

/-- A loop over elements gives the outputs of its body, one after another, if the limit leaves room for all of
them and none of them fails; it fails with the fault of the first body that fails within the limit, or else
with the limit. Each body is rendered where the item is bound to its element, the counter is as far on as
bodies have started, and all else is as it was at the entry; that it is rendered behind other bodies does not
show in its output if objects of one type have the same fields. -/
theorem loops_unroll (renderer : Renderer σ) (inclusions calls : Nat) (item collection : String)
    (children : List Node) (scope : Scope) (frame : Frame σ) {value : Value} {elements : List Value}
    (resolved : (resolve renderer collection scope frame).1 = .ok (some value))
    (enumerable : value.elements? = some elements) :
    let entrances := entrancesLeft renderer inclusions calls
    let limit := renderer.security.limits.loopIterations
    let output := (ofNode renderer entrances (.loop item collection children) scope frame).1
    let body (start : Frame σ) : Except Fault String := (ofNodes renderer entrances children scope start).1
    let starts := iterationStarts (ofNodes renderer entrances children) scope item elements
      (loopEntered renderer scope collection frame)
    let bodies := starts.map body
    starts.length = elements.length ∧
    (∀ i element start, elements[i]? = some element → starts[i]? = some start →
      frame.Iterates item element (i + 1) start) ∧
    (frame.iterations + elements.length ≤ limit → ∀ texts, bodies = texts.map .ok →
      output = .ok (String.join texts)) ∧
    (∀ i fault, frame.iterations + (i + 1) ≤ limit → bodies[i]? = some (.error fault) →
      (∀ j < i, ∃ text, bodies[j]? = some (.ok text)) → output = .error fault) ∧
    (frame.iterations ≤ limit → limit < frame.iterations + elements.length →
      (∀ i, frame.iterations + (i + 1) ≤ limit → ∃ text, bodies[i]? = some (.ok text)) →
      output = .error (.limitExceeded .loopIterations limit (limit + 1))) ∧
    ∀ {fieldsOf : String → List String} {among : σ → Prop}, renderer.Typed fieldsOf →
      renderer.loader.Steady among → frame.Typed fieldsOf renderer.host among → frame.vars.Distinct →
      frame.vars.Folded →
      bodies = elements.mapIdx fun i element => body
        { frame with
          vars := frame.vars.insert item element
          iterations := frame.iterations + (i + 1) } := by
  intro entrances limit output body starts bodies
  have hentered := inLoop_loopEntered renderer scope item collection frame
  have hlength : starts.length = elements.length := length_iterationStarts elements _
  have hiterates (i : Nat) (element : Value) (start : Frame σ) (helement : elements[i]? = some element)
      (hstart : starts[i]? = some start) : frame.Iterates item element (i + 1) start := by
    have h : frame.Iterates item element (0 + (i + 1)) start :=
      iterates_of_getElem?_iterationStarts (persists_ofNodes renderer inclusions calls children scope) hentered rfl
        helement hstart
    rwa [Nat.zero_add] at h
  have houtput : output = ((limited limit frame.iterations bodies).mapM id).map String.join := by
    change (ofNode renderer entrances (.loop item collection children) scope frame).1 = _
    rw [ofNode]
    exact loop_output renderer _ scope item (persists_ofNodes renderer inclusions calls children scope)
      collection frame resolved enumerable
  have hbodies : bodies.length = elements.length := (List.length_map ..).trans hlength
  refine ⟨hlength, hiterates, ?_, ?_, ?_, ?_⟩
  · intro hroom texts htexts
    rw [houtput, limited_eq_self (hbodies ▸ hroom), htexts, mapM_id_map_ok]
    rfl
  · intro i fault hi hfault hbefore
    have hfailed : (limited limit frame.iterations bodies).mapM id = .error fault := by
      refine mapM_id_eq_error ((getElem?_limited hi).trans hfault) fun j hj => ?_
      rw [getElem?_limited (by omega)]
      exact hbefore j hj
    rw [houtput, hfailed]
    rfl
  · intro hentry hexceeds hbefore
    have hfailed : (limited limit frame.iterations bodies).mapM id =
        .error (.limitExceeded .loopIterations limit (limit + 1)) := by
      refine mapM_id_eq_error (getElem?_limited_exceeded hentry (hbodies ▸ hexceeds)) fun j hj => ?_
      have hj' : frame.iterations + (j + 1) ≤ limit := by omega
      rw [getElem?_limited hj']
      exact hbefore j hj'
    rw [houtput, hfailed]
    rfl
  · intro fieldsOf among typed steady hframe distinct folded
    have keeps := kept_typing typed steady
    obtain ⟨hafter, hvalue⟩ := keeps.resolve () scope collection frame hframe
    have helements := keeps.elements (hvalue _ resolved value rfl) enumerable
    have hentered : (loopEntered renderer scope collection frame).Typed fieldsOf renderer.host among := by
      unfold loopEntered
      generalize (resolve renderer collection scope frame).2 = after at hafter
      exact { hafter with decisions := hafter.decisions }
    have hstarts : ∀ start ∈ starts, start.Typed fieldsOf renderer.host among :=
      typed_of_mem_iterationStarts
        (fun _ hstart => holds_ofNodes keeps children scope trivial (i := ()) hstart) helements hentered
    refine List.ext_getElem? fun i => ?_
    rw [List.getElem?_map, List.getElem?_mapIdx]
    rcases Nat.lt_or_ge i elements.length with hlt | hbeyond
    · have hstart : starts[i]? = some starts[i] := List.getElem?_eq_getElem (hlength ▸ hlt)
      have helement : elements[i]? = some elements[i] := List.getElem?_eq_getElem hlt
      rw [hstart, helement, Option.map_some, Option.map_some]
      exact congrArg some (output_eq_of_iterates typed steady hframe
        (hstarts _ (List.getElem_mem (hlength ▸ hlt))) distinct folded (helements _ (List.getElem_mem hlt))
        (hiterates i _ _ helement hstart) inclusions calls children scope)
    · rw [List.getElem?_eq_none hbeyond, List.getElem?_eq_none (hlength ▸ hbeyond)]
      rfl

/-- The moods are shown under a limit of iterations. -/
def patient (limit : Nat) : Renderer Unit :=
  { moody with security := { limits := { loopIterations := limit } } }

/-- Two moods are shown one after the other. With room for one iteration alone the second is one too many. -/
theorem loops_unroll_moods :
    let frame : Frame Unit :=
      { vars := ({} : Variables).insert "moods" (.list [.string "glad", .string "sad"]), store := {},
        loaded := () }
    let shown (limit : Nat) : Except Fault String :=
      (ofNode (patient limit) (entrancesLeft (patient limit) 0 0)
        (.loop "mood" "moods" [.interpolation "mood"]) {} frame).1
    shown 2 = .ok "gladsad" ∧ shown 1 = .error (.limitExceeded .loopIterations 1 2) := by
  intro frame shown
  -- what the gate says of a name does not depend on the limit
  have haccepted (limit : Nat) {name : String} (h : (Gate.checkExpression {} name).toBool = true) :
      Gate.checkExpression (patient limit).security name = .ok () := Resolver.accepted_of_toBool h
  have hmoods (limit : Nat) : (resolve (patient limit) "moods" {} frame).1 =
      .ok (some (.list [.string "glad", .string "sad"])) := by
    have bound : frame.vars.get? "moods" = some (.list [.string "glad", .string "sad"]) :=
      (Variables.get?_insert ..).trans (if_pos (beq_self_eq_true _))
    rw [resolve_name (by decide) (by rfl) (haccepted limit (by decide +kernel)) bound]
    rfl
  have hmood (limit : Nat) {element : Value} {start : Frame Unit} {count : Nat}
      (h : frame.Iterates "mood" element count start) :
      (ofNodes (patient limit) (entrancesLeft (patient limit) 0 0) [.interpolation "mood"] {} start).1 =
        .ok (((Resolver.finished (some element)).map fun shown =>
          Gate.encodeOutput {} shown.display).getD "") := by
    have bound : start.vars.get? "mood" = some element :=
      (h.vars "mood").trans ((Variables.get?_insert ..).trans (if_pos (beq_self_eq_true _)))
    rw [ofNodes_singleton_run, ofNode, interpolation, bind_run,
      resolve_name (by decide) (by rfl) (haccepted limit (congrArg Except.toBool moody_accepts_mood)) bound]
    cases Resolver.finished (some element) with
    | none => rfl
    | some shown => rfl
  have hunrolled (limit : Nat) := loops_unroll (patient limit) 0 0 "mood" "moods" [.interpolation "mood"] {}
    frame (hmoods limit) rfl
  have hbodies (limit : Nat) :
      (iterationStarts (ofNodes (patient limit) (entrancesLeft (patient limit) 0 0) [.interpolation "mood"]) {}
        "mood" [.string "glad", .string "sad"] (loopEntered (patient limit) {} "moods" frame)).map
          (fun start => (ofNodes (patient limit) (entrancesLeft (patient limit) 0 0)
            [.interpolation "mood"] {} start).1) =
        ["glad", "sad"].map .ok := by
    obtain ⟨hlength, hiterates, -⟩ := hunrolled limit
    obtain ⟨first, second, hstarts⟩ := List.length_eq_two.1 hlength
    have hfirst := hmood limit (hiterates 0 _ first rfl (by rw [hstarts]; rfl))
    have hsecond := hmood limit (hiterates 1 _ second rfl (by rw [hstarts]; rfl))
    rw [hstarts, List.map_cons, List.map_cons, hfirst, hsecond]
    rfl
  obtain ⟨-, -, hroom, -⟩ := hunrolled 2
  obtain ⟨-, -, -, -, hlimit, -⟩ := hunrolled 1
  refine ⟨hroom (by decide) _ (hbodies 2), hlimit (by decide) (by decide) fun i hi => ⟨"glad", ?_⟩⟩
  have hfirst : i = 0 := by
    change 0 + (i + 1) ≤ 1 at hi
    omega
  rw [hbodies 1, hfirst]
  rfl

end Render

end Stencil
