import Stencil.Reference.Resolve

/-!
Resolutions are programs that remember. This module runs them step by step, and compares two of them
by what they answer and which decisions they remember, whatever stands in their trails. The decisions need
not be the same: which ones count as alike is left open, and so is which ones the first resolution may come
to, since what it remembers in the end may be known beforehand. The parts of a resolution that read no
further text never look at the trail.

The ways in which a text is read, one equation for each: behind a target with an indexer, as a bound
name, through filters, as a dotted path, as a formula. Later modules say which way a text takes and
rewrite with the equation of that way; only this module opens the recursion.
-/

namespace Stencil

namespace Resolver

/-- What a resolution answers, and the memory it leaves. -/
def outcome {α : Type} (program : Resolving α) (memory : Memory) : Except Fault α × Memory :=
  program.run.run memory

/-- What a resolution answers. -/
def answer {α : Type} (program : Resolving α) (memory : Memory) : Except Fault α :=
  (outcome program memory).1

variable {α β : Type}

@[simp] theorem outcome_pure (value : α) (memory : Memory) :
    outcome (pure value : Resolving α) memory = (.ok value, memory) := rfl

theorem outcome_bind (program : Resolving α) (next : α → Resolving β) (memory : Memory) :
    outcome (program >>= next) memory =
      match outcome program memory with
      | (.ok value, after) => outcome (next value) after
      | (.error fault, after) => (.error fault, after) := by
  change (ExceptT.bindCont next (outcome program memory).1 : StateM Memory (Except Fault β))
    (outcome program memory).2 = _
  rcases outcome program memory with ⟨_ | _, after⟩ <;> rfl

/-- A program whose first part answers goes on in the memory of that part. -/
theorem outcome_bind_ok {program : Resolving α} {memory after : Memory} {value : α}
    (h : outcome program memory = (.ok value, after)) (next : α → Resolving β) :
    outcome (program >>= next) memory = outcome (next value) after := by
  rw [outcome_bind, h]

/-- A program whose first part fails goes no further. -/
theorem outcome_bind_error {program : Resolving α} {memory after : Memory} {fault : Fault}
    (h : outcome program memory = (.error fault, after)) (next : α → Resolving β) :
    outcome (program >>= next) memory = (.error fault, after) := by
  rw [outcome_bind, h]

/-- What is made of the value of an answer. -/
theorem answer_map {program : Resolving α} {memory : Memory} {value : α}
    (h : answer program memory = .ok value) (f : α → β) :
    answer (do return f (← program)) memory = .ok (f value) := by
  rcases hrun : outcome program memory with ⟨result, after⟩
  rw [answer, hrun] at h
  subst h
  rw [answer, outcome_bind_ok hrun]
  rfl

@[simp] theorem outcome_note (event : Event) (memory : Memory) :
    outcome (note event) memory = (.ok (), { memory with trail := event :: memory.trail }) := rfl

@[simp] theorem outcome_recalling (read : StateM Decisions α) (memory : Memory) :
    outcome (recalling read) memory =
      (.ok (read memory.decisions).1, { memory with decisions := (read memory.decisions).2 }) := rfl

/-- What is asked of the decisions of two resolutions: which ones are alike, and which ones the first
resolution may come to. -/
structure Accord where
  alike : Decisions → Decisions → Prop
  admits : Decisions → Prop := fun _ => True

variable {accord : Accord}

/-- A program that comes to admitted decisions from admitted ones alone, and another one that answers the
same from alike decisions and leaves alike decisions, as long as those it comes to are admitted. -/
structure Likewise (accord : Accord) (program other : Resolving α) : Prop where
  back : ∀ memory : Memory, accord.admits (outcome program memory).2.decisions →
    accord.admits memory.decisions
  forth : ∀ first second : Memory, accord.alike first.decisions second.decisions →
    accord.admits (outcome program first).2.decisions →
    answer program first = answer other second ∧
      accord.alike (outcome program first).2.decisions (outcome other second).2.decisions

theorem likewise_pure (value : α) : Likewise accord (pure value) (pure value) :=
  ⟨fun _ admitted => admitted, fun _ _ same _ => ⟨rfl, same⟩⟩

theorem likewise_note (event : Event) : Likewise accord (note event) (note event) :=
  ⟨fun _ admitted => admitted, fun _ _ same _ => ⟨rfl, same⟩⟩

theorem likewise_liftExcept (result : Except Fault α) :
    Likewise accord (liftExcept result) (liftExcept result) := by
  cases result with
  | error fault => exact ⟨fun _ admitted => admitted, fun _ _ same _ => ⟨rfl, same⟩⟩
  | ok value => exact likewise_pure value

theorem Likewise.bind {program other : Resolving α} {next next' : α → Resolving β}
    (h : Likewise accord program other) (hnext : ∀ value, Likewise accord (next value) (next' value)) :
    Likewise accord (program >>= next) (other >>= next') := by
  -- the first part comes to admitted decisions because the whole does
  have hmiddle (memory : Memory)
      (admitted : accord.admits (outcome (program >>= next) memory).2.decisions) :
      accord.admits (outcome program memory).2.decisions := by
    rw [outcome_bind] at admitted
    rcases hrun : outcome program memory with ⟨fault | value, after⟩
    · rwa [hrun] at admitted
    · rw [hrun] at admitted
      exact (hnext value).back after admitted
  refine ⟨fun memory admitted => h.back memory (hmiddle memory admitted),
    fun first second same admitted => ?_⟩
  obtain ⟨hanswer, hrelated⟩ := h.forth first second same (hmiddle first admitted)
  unfold answer at hanswer ⊢
  rw [outcome_bind] at admitted ⊢
  rw [outcome_bind]
  rcases hfirst : outcome program first with ⟨result, after⟩
  rcases hsecond : outcome other second with ⟨result', after'⟩
  rw [hfirst] at admitted
  simp only [hfirst, hsecond] at hanswer hrelated
  subst hanswer
  cases result with
  | error fault => exact ⟨rfl, hrelated⟩
  | ok value => exact (hnext value).forth after after' hrelated admitted

/-- A reading of decisions that gives the same from alike ones and comes to admitted ones from admitted
ones alone. -/
structure Accord.Recalls (accord : Accord) (read : StateM Decisions α) : Prop where
  back : ∀ decisions, accord.admits (read decisions).2 → accord.admits decisions
  forth : ∀ decisions decisions', accord.alike decisions decisions' → accord.admits (read decisions).2 →
    (read decisions).1 = (read decisions').1 ∧ accord.alike (read decisions).2 (read decisions').2

theorem Accord.recalls_pure (value : α) : accord.Recalls (pure value) :=
  ⟨fun _ admitted => admitted, fun _ _ same _ => ⟨rfl, same⟩⟩

theorem Accord.Recalls.bind {read : StateM Decisions α} {next : α → StateM Decisions β}
    (h : accord.Recalls read) (hnext : ∀ value, accord.Recalls (next value)) :
    accord.Recalls (read >>= next) := by
  have hrun (decisions : Decisions) :
      (read >>= next) decisions = next (read decisions).1 (read decisions).2 := rfl
  refine ⟨fun decisions admitted => ?_, fun decisions decisions' same admitted => ?_⟩
  · rw [hrun] at admitted
    exact h.back decisions ((hnext _).back _ admitted)
  · rw [hrun] at admitted ⊢
    rw [hrun]
    obtain ⟨hanswer, hrelated⟩ := h.forth decisions decisions' same ((hnext _).back _ admitted)
    rw [← hanswer]
    exact (hnext _).forth _ _ hrelated admitted

theorem Accord.Recalls.likewise {read : StateM Decisions α} (h : accord.Recalls read) :
    Likewise accord (recalling read) (recalling read) := by
  refine ⟨fun memory admitted => ?_, fun first second same admitted => ?_⟩
  · rw [outcome_recalling] at admitted
    exact h.back memory.decisions admitted
  · unfold answer
    rw [outcome_recalling] at admitted ⊢
    rw [outcome_recalling]
    obtain ⟨hanswer, hrelated⟩ := h.forth first.decisions second.decisions same admitted
    exact ⟨congrArg Except.ok hanswer, hrelated⟩

/-- What is decided for the members and the elements of objects stays decided. -/
structure Accord.Lasting (accord : Accord) : Prop where
  member : ∀ host object name, accord.Recalls (objectMember host object name)
  index : ∀ host object key, accord.Recalls (objectIndex host object key)

section Lasting

variable (lasting : accord.Lasting) (host : Host)

include lasting

theorem Accord.Lasting.recalls_member (value : Value) (name : String) :
    accord.Recalls (value.member host name) := by
  cases value with
  | object object => exact lasting.member host object name
  | _ => exact Accord.recalls_pure _

theorem Accord.Lasting.recalls_index (value key : Value) : accord.Recalls (value.index host key) := by
  cases value with
  | object object => exact lasting.index host object key
  | _ => exact Accord.recalls_pure _

theorem Accord.Lasting.recalls_path (security : Security) (value : Value) (segments : List String) :
    accord.Recalls (value.path host security segments) := by
  induction segments generalizing value with
  | nil => exact Accord.recalls_pure _
  | cons segment rest ih =>
      rw [Value.path]
      split
      · exact Accord.recalls_pure _
      · refine (lasting.recalls_member host value segment).bind fun found => ?_
        cases found with
        | none => exact Accord.recalls_pure _
        | some next => exact ih next

end Lasting

/-- The accord of two resolutions that remember the same. -/
def Accord.same : Accord := ⟨(· = ·), fun _ => True⟩

theorem Accord.recalls_same (read : StateM Decisions α) : Accord.same.Recalls read := by
  refine ⟨fun _ _ => trivial, fun decisions decisions' same _ => ?_⟩
  obtain rfl : decisions = decisions' := same
  exact ⟨rfl, rfl⟩

theorem Accord.lasting_same : Accord.same.Lasting :=
  ⟨fun _ _ _ => Accord.recalls_same _, fun _ _ _ => Accord.recalls_same _⟩

/-- Two programs that answer alike and remember the same decisions, whatever the trails before and
after them. A program that is alike to itself does not look at the trail. -/
def Alike (program other : Resolving α) : Prop :=
  ∀ first second : Memory, first.decisions = second.decisions →
    answer program first = answer other second ∧
      (outcome program first).2.decisions = (outcome other second).2.decisions

theorem Alike.likewise {program other : Resolving α} (h : Alike program other) :
    Likewise Accord.same program other :=
  ⟨fun _ _ => trivial, fun first second same _ => h first second same⟩

theorem Likewise.alike {program other : Resolving α} (h : Likewise Accord.same program other) :
    Alike program other :=
  fun first second same => h.forth first second same trivial

theorem Alike.answer_eq {program other : Resolving α} (h : Alike program other) (memory : Memory) :
    answer program memory = answer other memory :=
  (h memory memory rfl).1

theorem Alike.trans {program middle other : Resolving α} (h : Alike program middle)
    (h' : Alike middle other) : Alike program other := by
  intro first second same
  obtain ⟨hanswer, hdecisions⟩ := h first second same
  obtain ⟨hanswer', hdecisions'⟩ := h' second second rfl
  exact ⟨hanswer.trans hanswer', hdecisions.trans hdecisions'⟩

theorem alike_pure (value : α) : Alike (pure value) (pure value) := (likewise_pure value).alike

theorem Alike.bind {program other : Resolving α} {next next' : α → Resolving β}
    (hprogram : Alike program other) (hnext : ∀ value, Alike (next value) (next' value)) :
    Alike (program >>= next) (other >>= next') :=
  (hprogram.likewise.bind fun value => (hnext value).likewise).alike

/-- An event more or less makes no difference. -/
theorem Alike.note {program other : Resolving α} (h : Alike program other) (event : Event) :
    Alike (note event >>= fun _ => program) other := by
  intro first second same
  unfold answer
  rw [outcome_bind_ok (outcome_note event first)]
  exact h _ second same

section Lookups

variable {lookup lookup' : String → Resolving (Option Value)}
  (hlookup : ∀ reference, Likewise accord (lookup reference) (lookup' reference))

include hlookup

/-- The value of a formula depends on the values of its references alone. -/
theorem likewise_value (formula : Formula) :
    Likewise accord (formula.value lookup) (formula.value lookup') := by
  induction formula with
  | literal value => exact likewise_pure value
  | reference text => exact (hlookup text).bind fun _ => likewise_pure _
  | negate operand ih => exact ih.bind fun _ => likewise_pure _
  | not operand ih => exact ih.bind fun _ => likewise_pure _
  | binary operator left right ihl ihr =>
      exact ihl.bind fun _ => ihr.bind fun _ => likewise_pure _

theorem likewise_lookUpAll (references : List String) :
    Likewise accord (Formula.lookUpAll lookup references) (Formula.lookUpAll lookup' references) := by
  induction references with
  | nil => exact likewise_pure ()
  | cons reference rest ih =>
      exact ((hlookup reference).bind fun _ => likewise_pure _).bind fun _ => ih

theorem likewise_evaluate (text : List Char) :
    Likewise accord (Formula.evaluate lookup text) (Formula.evaluate lookup' text) := by
  unfold Formula.evaluate
  split
  · exact likewise_pure none
  · split
    · exact (likewise_value hlookup _).bind fun _ => likewise_pure _
    · exact (likewise_lookUpAll hlookup _).bind fun _ => likewise_pure _

end Lookups

section Readings

variable (lasting : accord.Lasting) (r : Resolver)

include lasting

theorem likewise_memberOf (value : Value) (name : List Char) :
    Likewise accord (memberOf r value name) (memberOf r value name) := by
  unfold memberOf
  split
  · exact likewise_pure none
  · exact (lasting.recalls_member _ _ _).likewise

theorem likewise_elementOf (value key : Value) :
    Likewise accord (elementOf r value key) (elementOf r value key) :=
  (likewise_note _).bind fun _ => (lasting.recalls_index _ _ _).likewise

theorem likewise_dotted (text : List Char) : Likewise accord (dotted r text) (dotted r text) := by
  unfold dotted
  dsimp only
  split
  · exact likewise_pure none
  · refine (likewise_liftExcept _).bind fun _ => ?_
    split
    · exact (lasting.recalls_path _ _ _ _).likewise
    · exact likewise_pure none

end Readings

theorem alike_memberOf (r : Resolver) (value : Value) (name : List Char) :
    Alike (memberOf r value name) (memberOf r value name) :=
  (likewise_memberOf Accord.lasting_same r value name).alike

theorem alike_elementOf (r : Resolver) (value key : Value) :
    Alike (elementOf r value key) (elementOf r value key) :=
  (likewise_elementOf Accord.lasting_same r value key).alike

theorem alike_dotted (r : Resolver) (text : List Char) : Alike (dotted r text) (dotted r text) :=
  (likewise_dotted Accord.lasting_same r text).alike

end Resolver

end Stencil

namespace Stencil.Resolver

open Text Reference

variable (r : Resolver) {text : List Char} (asksGrammar : Bool)

/-- What follows from the root of an indexed text: the element at the key, and the accessors behind
the bracket. -/
def behindRoot (found : Indexed) (root : Value) : Resolving (Option Value) := do
  let key ← keyValue r found.key
  match ← elementOf r root key with
  | some value => walk r value found.rest
  | none => return none

/-- The reading of a text as an indexed target. -/
def indexedValue (found : Indexed) : Resolving (Option Value) := do
  match ← resolveText r found.target false with
  | none => return none
  | some root => behindRoot r found root

/-- The reading of a text as a value that goes through filters. -/
def pipedValue (head : List Char) (filters : List (List Char)) : Resolving (Option Value) := do
  let value ← resolveText r (trim head) true
  let piped ← pipe r (value.getD .null).unwrapQuoted filters
  return present piped

/-- The reference that a formula asks for, if it is no longer than the formula. -/
def lookUp (text : List Char) (reference : String) : Resolving (Option Value) :=
  if reference.toList.length ≤ text.length then resolveText r reference.toList false
  else return none

theorem resolveText_indexed {found : Indexed} (h : indexed? text = some found) :
    resolveText r text asksGrammar =
      (do note (.lookup (String.ofList text)); indexedValue r found) := by
  rw [resolveText]
  congr 1
  funext _
  split
  next found' h' =>
    cases h.symm.trans h'
    rfl
  next h' => cases h.symm.trans h'

/-- The reading of a text that is no indexed target. -/
theorem resolveText_unindexed (h : indexed? text = none) :
    resolveText r text asksGrammar = (do
      note (.lookup (String.ofList text))
      match r.direct? text with
      | some value => return some value
      | none =>
          match segments text with
          | head :: filter :: filters => pipedValue r head (filter :: filters)
          | _ =>
              if isPath text then dotted r text
              else if isIdentifier text || !asksGrammar then return none
              else Formula.evaluate (lookUp r text) text) := by
  rw [resolveText]
  congr 1
  funext _
  split
  next found h' => cases h.symm.trans h'
  next =>
    cases r.direct? text with
    | some value => rfl
    | none =>
        dsimp only
        rcases hs : segments text with _ | ⟨head, _ | ⟨filter, filters⟩⟩
        · rfl
        · rfl
        · rfl

/-- The walk through an indexer whose bracket closes. -/
theorem walk_closed {value : Value} {inside after rest : List Char}
    (closes : closing? rest = some (inside, after)) :
    walk r value ('[' :: rest) =
      if value.isNull then return none
      else do
        let key ← keyValue r inside
        match ← elementOf r value key with
        | some next => walk r next (trimStart after)
        | none => return none := by
  rw [walk]
  congr 1
  split
  next inside' after' closes' =>
    cases closes.symm.trans closes'
    rfl
  next closes' => cases closes.symm.trans closes'

/-- A bracket that does not close leads nowhere. -/
theorem walk_unclosed {value : Value} {rest : List Char} (closes : closing? rest = none) :
    walk r value ('[' :: rest) = pure none := by
  rw [walk]
  split
  · rfl
  · split
    next closes' => cases closes.symm.trans closes'
    next => rfl

/-- A text is one segment, or bars split it. -/
theorem segments_cases (text : List Char) :
    segments text = [text] ∨
      ∃ head filter filters, segments text = head :: filter :: filters := by
  have hjoin : joinWith '|' (segments text) = text := joinWith_split '|' true text
  have hne : segments text ≠ [] := splitFrom_ne_nil '|' true {} text
  rcases hs : segments text with _ | ⟨head, _ | ⟨filter, filters⟩⟩
  · exact absurd hs hne
  · rw [hs] at hjoin
    exact Or.inl (by rw [show head = text from hjoin])
  · exact Or.inr ⟨head, filter, filters, rfl⟩

section Unindexed

variable {r} (unindexed : indexed? text = none)

include unindexed

theorem resolveText_bound {value : Value} (bound : r.direct? text = some value) :
    resolveText r text asksGrammar =
      (do note (.lookup (String.ofList text)); return some value) := by
  rw [resolveText_unindexed r asksGrammar unindexed, bound]

variable (unbound : r.direct? text = none)

include unbound

theorem resolveText_piped {head filter : List Char} {filters : List (List Char)}
    (piped : segments text = head :: filter :: filters) :
    resolveText r text asksGrammar =
      (do note (.lookup (String.ofList text)); pipedValue r head (filter :: filters)) := by
  rw [resolveText_unindexed r asksGrammar unindexed, unbound, piped]

variable (whole : segments text = [text])

include whole

theorem resolveText_path (path : isPath text = true) :
    resolveText r text asksGrammar =
      (do note (.lookup (String.ofList text)); dotted r text) := by
  rw [resolveText_unindexed r asksGrammar unindexed, unbound, whole]
  simp only [path, if_true]

theorem resolveText_identifier (named : isIdentifier text = true) (noPath : isPath text = false) :
    resolveText r text asksGrammar =
      (do note (.lookup (String.ofList text)); return none) := by
  rw [resolveText_unindexed r asksGrammar unindexed, unbound, whole]
  simp only [noPath, named, Bool.true_or, if_true, Bool.false_eq_true, if_false]

theorem resolveText_formula (noPath : isPath text = false) (unnamed : isIdentifier text = false) :
    resolveText r text true =
      (do note (.lookup (String.ofList text)); Formula.evaluate (lookUp r text) text) := by
  rw [resolveText_unindexed r true unindexed, unbound, whole]
  simp only [noPath, unnamed, Bool.not_true, Bool.or_false, Bool.false_eq_true, if_false]

end Unindexed

/-- The grammar has no say in a text that an indexer, a name or bars lay claim to. -/
theorem resolveText_of_claimed (claimed : indexed? text ≠ none ∨ segments text ≠ [text]) :
    resolveText r text true = resolveText r text false := by
  cases h : indexed? text with
  | some found => rw [resolveText_indexed r true h, resolveText_indexed r false h]
  | none =>
      have hs : segments text ≠ [text] := claimed.resolve_left fun hne => hne h
      obtain ⟨head, filter, filters, piped⟩ := (segments_cases text).resolve_left hs
      rw [resolveText_unindexed r true h, resolveText_unindexed r false h]
      simp only [piped]

end Stencil.Resolver
