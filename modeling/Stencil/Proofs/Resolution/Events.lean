import Stencil.Proofs.Resolution.Invariants

/-!
What a resolution leaves in the trail. The steps of an evaluation are look-ups and indexers; they come
behind the expression that they evaluate, and only if the gate let it through. No part of an evaluation
hands over an expression of its own: the one that stands in the trail is a stretch of the text that was
to be resolved.
-/

namespace Stencil

open Text Reference

/-- Whether an event is a step of an evaluation. -/
def Event.isEvaluation : Event → Bool
  | .lookup _ | .indexer => true
  | _ => false

/-- Whether an event belongs to a resolution. -/
def Event.isReading : Event → Bool
  | .expression _ | .lookup _ | .indexer => true
  | _ => false

/-- The expression that an event hands over. -/
def Event.expression? : Event → Option String
  | .expression text => some text
  | _ => none

namespace Trail

/-- The expression handed over latest. -/
def latest? (trail : Trail) : Option String := trail.findSome? Event.expression?

/-- Every step of an evaluation comes after an expression that is not empty and that the gate
accepts, with no other expression between. -/
def IsGuarded (security : Security) (trail : Trail) : Prop :=
  ∀ later event earlier, trail = later ++ event :: earlier → event.isEvaluation = true →
    ∃ text, latest? earlier = some text ∧ text ≠ "" ∧
      Gate.checkExpression security text = .ok ()

/-- Every expression handed over is, without the blanks at its ends, a stretch of a source. -/
def IsFrom (sources : List String) (trail : Trail) : Prop :=
  ∀ text, Event.expression text ∈ trail → ∃ source ∈ sources, ∃ given,
    given <:+: source.toList ∧ text = String.ofList (trim given)

theorem latest?_append_of_some {later earlier : Trail} {text : String}
    (h : latest? later = some text) : latest? (later ++ earlier) = some text := by
  unfold latest? at h ⊢
  rw [List.findSome?_append, h]
  rfl

/-- Guarded stretches of a trail make a guarded trail: an evaluation never reaches back beyond the
stretch that it stands in. -/
theorem IsGuarded.append {security : Security} {later earlier : Trail}
    (hlater : IsGuarded security later) (hearlier : IsGuarded security earlier) :
    IsGuarded security (later ++ earlier) := by
  intro front event back hsplit hevent
  rcases List.append_eq_append_iff.1 hsplit.symm with ⟨inside, hfront, hback⟩ | ⟨inside, hfront, hback⟩
  · cases inside with
    | nil =>
        obtain ⟨text, hlatest, hrest⟩ := hearlier [] event back hback.symm hevent
        exact ⟨text, hlatest, hrest⟩
    | cons first inside =>
        obtain ⟨rfl, rfl⟩ := List.cons.inj hback
        obtain ⟨text, hlatest, hrest⟩ := hlater front event inside hfront hevent
        exact ⟨text, latest?_append_of_some hlatest, hrest⟩
  · exact hearlier inside event back hback hevent

theorem IsFrom.append {sources : List String} {later earlier : Trail} (hlater : IsFrom sources later)
    (hearlier : IsFrom sources earlier) : IsFrom sources (later ++ earlier) := by
  intro text hmem
  rcases List.mem_append.1 hmem with hmem | hmem
  · exact hlater text hmem
  · exact hearlier text hmem

theorem IsFrom.mono {sources more : List String} {trail : Trail} (h : IsFrom sources trail)
    (hsub : sources ⊆ more) : IsFrom more trail := by
  intro text hmem
  obtain ⟨source, hsource, rest⟩ := h text hmem
  exact ⟨source, hsub hsource, rest⟩

/-- Events that neither hand over an expression nor evaluate one. -/
def IsSilent (trail : Trail) : Prop :=
  ∀ event ∈ trail, event.isEvaluation = false ∧ event.expression? = none

theorem IsSilent.isGuarded {security : Security} {trail : Trail} (h : trail.IsSilent) :
    IsGuarded security trail := by
  rintro later event earlier rfl hevent
  have hquiet := (h event (List.mem_append_right _ (List.mem_cons_self ..))).1
  rw [hquiet] at hevent
  cases hevent

theorem IsSilent.isFrom {sources : List String} {trail : Trail} (h : trail.IsSilent) :
    IsFrom sources trail := by
  intro text hmem
  exact nomatch (h _ hmem).2

end Trail

namespace Resolver

variable {α β : Type}

/-- A program whose new events are as told, whether it answers or fails. -/
def Leaves (good : Trail → Prop) (program : Resolving α) : Prop :=
  ∀ memory, ∃ events, (outcome program memory).2.trail = events ++ memory.trail ∧ good events

theorem leaves_pure {good : Trail → Prop} (empty : good []) (value : α) :
    Leaves good (pure value) :=
  fun _ => ⟨[], rfl, empty⟩

/-- What two programs leave one after the other. -/
theorem Leaves.bind {good : Trail → Prop}
    (append : ∀ {later earlier}, good later → good earlier → good (later ++ earlier))
    {program : Resolving α} {next : α → Resolving β} (h : Leaves good program)
    (hnext : ∀ value, Leaves good (next value)) : Leaves good (program >>= next) := by
  intro memory
  obtain ⟨events, htrail, hgood⟩ := h memory
  rcases hrun : outcome program memory with ⟨fault | value, after⟩
  · rw [outcome_bind_error hrun]
    rw [hrun] at htrail
    exact ⟨events, htrail, hgood⟩
  · rw [outcome_bind_ok hrun]
    rw [hrun] at htrail
    obtain ⟨later, hlater, hlaterGood⟩ := hnext value after
    refine ⟨later ++ events, ?_, append hlaterGood hgood⟩
    rw [hlater, List.append_assoc]
    exact congrArg (later ++ ·) htrail

/-- A program that leaves nothing but steps of an evaluation. -/
abbrev Evaluates (program : Resolving α) : Prop :=
  Leaves (fun events => ∀ event ∈ events, event.isEvaluation = true) program

/-- A program that leaves nothing but events of resolutions. -/
abbrev Reads (program : Resolving α) : Prop :=
  Leaves (fun events => ∀ event ∈ events, event.isReading = true) program

/-- What is known of a memory is that nothing but events of some kind came behind a trail. -/
def leaving (trail : Trail) (among : Event → Bool) : Memory.Invariant where
  holds memory := ∃ events, memory.trail = events ++ trail ∧ ∀ event ∈ events, among event = true

theorem keeps_leaving_note {trail : Trail} {among : Event → Bool} {event : Event}
    (h : among event = true) : Keeps (leaving trail among).holds (fun _ => True) (note event) := by
  rintro memory ⟨events, htrail, hamong⟩
  exact ⟨⟨event :: events, congrArg (event :: ·) htrail, List.forall_mem_cons.2 ⟨h, hamong⟩⟩,
    fun _ _ => trivial⟩

variable (r : Resolver) {among : Event → Bool}

/-- What a resolver does by itself leaves look-ups and indexers. -/
theorem kept_leaving (trail : Trail) (hlookup : ∀ text, among (.lookup text) = true)
    (hindexer : among .indexer = true) : (leaving trail among).Kept r where
  lookup text := keeps_leaving_note (hlookup text)
  indexer := keeps_leaving_note hindexer
  member _ _ := fun _ hmemory => ⟨hmemory, fun _ _ _ _ => trivial⟩
  index _ _ := fun _ hmemory => ⟨hmemory, fun _ _ _ _ => trivial⟩
  path _ _ := fun _ hmemory => ⟨hmemory, fun _ _ _ _ => trivial⟩
  bound _ := trivial
  scalar _ := trivial
  filter _ _ _ _ _ := trivial

theorem leaves_of_keeps {answers : Trail → α → Prop} {program : Resolving α}
    (h : ∀ trail, Keeps (leaving trail among).holds (answers trail) program) :
    Leaves (fun events => ∀ event ∈ events, among event = true) program :=
  fun memory => (h memory.trail memory ⟨[], rfl, fun _ hmem => absurd hmem List.not_mem_nil⟩).1

/-- A text is evaluated, and nothing else is done. -/
theorem evaluates_resolveText (text : List Char) (asksGrammar : Bool) :
    Evaluates (resolveText r text asksGrammar) :=
  leaves_of_keeps fun trail => (kept_leaving r trail (fun _ => rfl) rfl).parts.1 text asksGrammar

theorem kept_reading (trail : Trail) : (leaving trail Event.isReading).Kept r :=
  kept_leaving r trail (fun _ => rfl) rfl

theorem reads_resolve (given : List Char) : Reads (resolve r given) :=
  leaves_of_keeps fun trail => (kept_reading r trail).resolve (fun _ => keeps_leaving_note rfl) given

theorem reads_interpolate (text : String) : Reads (interpolate r text) :=
  leaves_of_keeps fun trail => (kept_reading r trail).interpolate (fun _ => keeps_leaving_note rfl) text

theorem reads_parameterValue (parameter : Markup.Parameter) : Reads (parameterValue r parameter) :=
  leaves_of_keeps fun trail =>
    (kept_reading r trail).parameterValue (fun _ => keeps_leaving_note rfl) parameter

/-- What is left by a resolution of stretches of some sources: expressions from them, each
evaluated only behind the gate. -/
def Asks (r : Resolver) (sources : List String) (program : Resolving α) : Prop :=
  Leaves (fun events => Trail.IsGuarded r.security events ∧ Trail.IsFrom sources events) program

variable {r} {sources : List String}

theorem asks_pure (value : α) : Asks r sources (pure value) :=
  have silent : Trail.IsSilent [] := fun _ hmem => absurd hmem List.not_mem_nil
  leaves_pure ⟨silent.isGuarded, silent.isFrom⟩ value

theorem Asks.bind {program : Resolving α} {next : α → Resolving β} (h : Asks r sources program)
    (hnext : ∀ value, Asks r sources (next value)) : Asks r sources (program >>= next) :=
  Leaves.bind (fun hlater hearlier => ⟨hlater.1.append hearlier.1, hlater.2.append hearlier.2⟩) h
    hnext

/-- An evaluation behind its own expression. -/
theorem isGuarded_behind {security : Security} {text : String} {events : Trail}
    (hevents : ∀ event ∈ events, event.isEvaluation = true)
    (accepted : events ≠ [] → text ≠ "" ∧ Gate.checkExpression security text = .ok ()) :
    Trail.IsGuarded security (events ++ [.expression text]) := by
  intro later event earlier hsplit hevent
  rcases List.append_eq_append_iff.1 hsplit.symm with ⟨inside, hfront, hback⟩ | ⟨inside, -, hback⟩
  · cases inside with
    | nil =>
        obtain ⟨rfl, -⟩ := List.cons.inj hback
        cases hevent
    | cons first inside =>
        obtain ⟨rfl, rfl⟩ := List.cons.inj hback
        have hnone : ∀ other ∈ inside, Event.expression? other = none := by
          intro other hmem
          have hother := hevents other (hfront ▸ List.mem_append_right _ (List.mem_cons_of_mem _ hmem))
          cases other with
          | expression => cases hother
          | _ => rfl
        refine ⟨text, ?_, accepted (by simp [hfront])⟩
        change (inside ++ [Event.expression text]).findSome? Event.expression? = some text
        rw [List.findSome?_append, List.findSome?_eq_none_iff.2 hnone]
        rfl
  · have hmem : event ∈ [Event.expression text] := by
      rw [hback]
      exact List.mem_append_right _ (List.mem_cons_self ..)
    rw [List.mem_singleton.1 hmem] at hevent
    cases hevent

/-- An expression is evaluated once it is not empty and the gate accepted it. -/
theorem asks_resolve {given : List Char} {source : String} (hsource : source ∈ sources)
    (hgiven : given <:+: source.toList) : Asks r sources (resolve r given) := by
  intro memory
  -- the events of the evaluation, if there is one
  have hbehind : ∃ events, (outcome (resolve r given) memory).2.trail =
      (events ++ [.expression (String.ofList (trim given))]) ++ memory.trail ∧
      (∀ event ∈ events, event.isEvaluation = true) ∧
      (events ≠ [] → String.ofList (trim given) ≠ "" ∧
        Gate.checkExpression r.security (String.ofList (trim given)) = .ok ()) := by
    unfold resolve
    dsimp only
    rw [outcome_bind_ok (outcome_note _ memory)]
    split
    · exact ⟨[], rfl, fun _ hmem => absurd hmem List.not_mem_nil, fun h => absurd rfl h⟩
    next nonempty =>
      cases hcheck : Gate.checkExpression r.security (String.ofList (trim given)) with
      | error fault =>
          exact ⟨[], rfl, fun _ hmem => absurd hmem List.not_mem_nil, fun h => absurd rfl h⟩
      | ok =>
          have hevaluates : Evaluates (do
              let value ← resolveText r (trim given) true
              return (value.map Value.unwrapQuoted).bind present) :=
            Leaves.bind (fun hlater hearlier event hmem =>
                (List.mem_append.1 hmem).elim (hlater event) (hearlier event))
              (evaluates_resolveText r (trim given) true)
              fun _ => leaves_pure (fun _ hmem => absurd hmem List.not_mem_nil) _
          obtain ⟨events, htrail, hevents⟩ := hevaluates
            { memory with trail := .expression (String.ofList (trim given)) :: memory.trail }
          refine ⟨events, ?_, hevents, fun _ => ⟨fun hempty => nonempty ?_, rfl⟩⟩
          · rw [List.append_assoc]
            exact htrail
          · rw [String.ofList_eq_empty_iff] at hempty
            rw [hempty]
            rfl
  obtain ⟨events, htrail, hevents, haccepted⟩ := hbehind
  refine ⟨_, htrail, isGuarded_behind hevents haccepted, fun text hmem => ?_⟩
  rcases List.mem_append.1 hmem with hmem | hmem
  · exact nomatch hevents _ hmem
  · cases List.mem_singleton.1 hmem
    exact ⟨source, hsource, given, hgiven, rfl⟩

/-- Interpolations are read behind the first braces that open one. -/
theorem asks_interpolateText {text : List Char} {source : String} (hsource : source ∈ sources)
    (hbehind : ∀ before after, cut? ['{', '{'] text = some (before, after) →
      after <:+: source.toList) : Asks r sources (interpolateText r text) := by
  induction text using interpolateText.induct with
  | case1 text unopened =>
      rw [interpolateText_of_unopened unopened]
      exact asks_pure _
  | case2 text before after opened unclosed =>
      rw [interpolateText_of_unclosed opened unclosed]
      exact asks_pure _
  | case3 text before after opened inner rest closed ih =>
      have hafter := hbehind before after opened
      have hsplit : after = inner ++ ['}', '}'] ++ rest := cut?_append closed
      have hinner : inner <:+: after := ⟨[], ['}', '}'] ++ rest, by simp [hsplit]⟩
      have hrest : rest <:+: after := ⟨inner ++ ['}', '}'], [], by simp [hsplit]⟩
      rw [interpolateText_of_closed opened closed]
      refine (asks_resolve hsource (hinner.trans hafter)).bind fun _ => ?_
      refine (ih fun front back hopened => ?_).bind fun _ => asks_pure _
      have hback : back <:+: rest := ⟨front ++ ['{', '{'], [], by simp [cut?_append hopened]⟩
      exact hback.trans (hrest.trans hafter)

/-- The interpolations of a stretch of a source. -/
theorem asks_interpolateText_of_part {text : List Char} {source : String} (hsource : source ∈ sources)
    (htext : text <:+: source.toList) : Asks r sources (interpolateText r text) := by
  refine asks_interpolateText hsource fun before after opened => ?_
  have hafter : after <:+: text := ⟨before ++ ['{', '{'], [], by simp [cut?_append opened]⟩
  exact hafter.trans htext

/-- A source with a word before it that opens no interpolation. -/
theorem asks_interpolate_behind {front source : String} (hsource : source ∈ sources)
    (hfront : '{' ∉ front.toList) : Asks r sources (interpolate r (front ++ source)) := by
  refine Asks.bind (asks_interpolateText hsource fun before after opened => ?_) fun _ => asks_pure _
  have hsplit := cut?_append opened
  rw [String.toList_append, List.append_assoc] at hsplit
  rcases List.append_eq_append_iff.1 hsplit with ⟨inside, -, hback⟩ | ⟨inside, hfront', hback⟩
  · exact ⟨inside ++ ['{', '{'], [], by simp [hback]⟩
  · cases inside with
    | nil => exact ⟨['{', '{'], [], by simpa using hback⟩
    | cons first inside =>
        obtain ⟨rfl, -⟩ := List.cons.inj hback
        exact absurd (hfront' ▸ List.mem_append_right _ (List.mem_cons_self ..)) hfront

theorem asks_interpolate {source : String} (hsource : source ∈ sources) :
    Asks r sources (interpolate r source) :=
  (asks_interpolateText_of_part hsource List.infix_rfl).bind fun _ => asks_pure _

theorem infix_trim (text : List Char) : trim text <:+: text := by
  unfold trim trimEnd trimStart
  have hback := (List.reverse_prefix.2 (List.dropWhile_suffix (l := (text.dropWhile isBlank).reverse)
    isBlank))
  rw [List.reverse_reverse] at hback
  exact hback.isInfix.trans (List.dropWhile_suffix _).isInfix

theorem infix_of_soleInterpolation? {text inner : List Char} (h : soleInterpolation? text = some inner) :
    inner <:+: text := by
  unfold soleInterpolation? at h
  simp only [Option.bind_eq_bind, Option.bind_eq_some_iff] at h
  obtain ⟨rest, hrest, back, hback, hinner⟩ := h
  split at hinner
  · cases hinner
  · obtain rfl := Option.some.inj hinner
    have hbackward := eq_append_of_isPrefixOf? hback
    have hrest' : rest = back.reverse ++ ['}', '}'] := by
      have := congrArg List.reverse hbackward
      simpa using this
    refine (infix_trim _).trans ⟨['{', '{'], ['}', '}'], ?_⟩
    rw [eq_append_of_isPrefixOf? hrest, hrest', List.append_assoc]

/-- What a parameter stands for is read from its value as written, and its default is read as it is
written: neither comes back from a value. -/
theorem asks_parameterValue {parameter : Markup.Parameter} (hvalue : parameter.value ∈ sources)
    (hdefault : ∀ default ∈ parameter.default, default ∈ sources) :
    Asks r sources (parameterValue r parameter) := by
  have hgiven : Asks r sources (givenValue r parameter.value) := by
    unfold givenValue
    dsimp only
    split
    · exact asks_pure _
    · split
      next inner hinner =>
        exact (asks_resolve hvalue ((infix_of_soleInterpolation? hinner).trans (infix_trim _))).bind
          fun _ => asks_pure _
      next =>
        split
        · exact (asks_interpolateText_of_part hvalue (infix_trim _)).bind fun _ => asks_pure _
        · split
          · exact (asks_resolve hvalue (infix_trim _)).bind fun _ => asks_pure _
          · exact asks_pure _
  unfold parameterValue
  refine hgiven.bind fun value => ?_
  split
  · split
    next => exact asks_pure _
    next default hmem => exact (asks_interpolate (hdefault default hmem)).bind fun _ => asks_pure _
  · exact asks_pure _

end Resolver

end Stencil
