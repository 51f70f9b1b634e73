import Stencil.Engine
import Stencil.Proofs.Stores

/-!
Bindings by name. The variables of all engines and those of one engine are bound, removed and cleared by one
call after another. A name has the value that was accepted last in some spelling of it. Spellings are told by
the lower case of all scripts, but the block list is compared by the case of basic letters: through the
spellings in between a blocked name is bound after all.
-/

namespace Stencil.Registry

open Variables (fold)

/-- A change of the variables of one store. -/
inductive Change where
  | set (name : String) (value : Value)
  | remove (name : String)
  | clear

/-- A call that changes the variables of all engines, or those of one. -/
inductive Call where
  | setGlobal (name : String) (value : Value)
  | removeGlobal (name : String)
  | clearGlobals
  | setVariable (name : String) (value : Value)
  | removeVariable (name : String)

namespace Change

/-- Whether a change is made: a blocked name is not bound. -/
def accepted (security : Security) : Change → Bool
  | .set name _ => !security.blocks name
  | _ => true

/-- Whether a change is about the variable of a name. -/
def concerns (name : String) : Change → Bool
  | .set other _ => fold other == fold name
  | .remove other => fold other == fold name
  | .clear => true

/-- The store after a change. -/
def apply (security : Security) (change : Change) (vars : Variables) : Variables :=
  match change with
  | .set name value => if security.blocks name then vars else vars.insert name value
  | .remove name => vars.erase name
  | .clear => {}

end Change

namespace Call

/-- What a call answers, and what there is after it. -/
def perform (work : Work) : Call → Except Fault (Option Value) × Work
  | .setGlobal name value =>
      match work.shared.setGlobal name value with
      | .ok shared => (.ok none, { work with shared })
      | .error fault => (.error fault, work)
  | .removeGlobal name =>
      let (value, shared) := work.shared.removeGlobal name
      (.ok value, { work with shared })
  | .clearGlobals => (.ok none, { work with shared := work.shared.clearGlobals })
  | .setVariable name value =>
      match work.engine.setVariable name value with
      | .ok engine => (.ok none, { work with engine })
      | .error fault => (.error fault, work)
  | .removeVariable name =>
      let (value, engine) := work.engine.removeVariable name
      (.ok value, { work with engine })

/-- What a call changes of the variables of all engines. -/
def global? : Call → Option Change
  | .setGlobal name value => some (.set name value)
  | .removeGlobal name => some (.remove name)
  | .clearGlobals => some .clear
  | _ => none

/-- What a call changes of the variables of the engine. -/
def own? : Call → Option Change
  | .setVariable name value => some (.set name value)
  | .removeVariable name => some (.remove name)
  | _ => none

/-- Why a call is rejected, if it is. -/
def rejection? (settings : Settings) : Call → Option Fault
  | .setGlobal name _ =>
      if ({} : Security).blocks name then some (.unsafePropertyPath name .blockedGlobal) else none
  | .setVariable name _ =>
      if settings.security.blocks name then some (.unsafePropertyPath name .blockedVariable) else none
  | _ => none

end Call

/-- A new engine, where no engine has bound anything, after calls; the latest call comes first. -/
def after (settings : Settings) (calls : List Call) : Work :=
  calls.foldr (fun call work => (call.perform work).2) ⟨Engine.ofSettings settings, {}, []⟩

/-- A name was set in some spelling, that was accepted, and no accepted change was about it since. -/
def Holds (security : Security) (changes : List Change) (name spelled : String) (value : Value) : Prop :=
  ∃ later earlier, changes = later ++ .set spelled value :: earlier ∧
    security.blocks spelled = false ∧ fold spelled = fold name ∧
    ∀ change ∈ later, change.accepted security = true → change.concerns name = false

/-- No variable of all engines has a name that is always blocked, and none of the engine has one that the engine
blocks. -/
def BlockedUnbound (work : Work) : Prop :=
  (∀ blocked ∈ ({} : Security).blockedNames, work.shared.value? blocked = none) ∧
    ∀ blocked ∈ work.engine.settings.security.blockedNames, work.engine.value? blocked = none

/-- A name that is found under the key of a blocked one is blocked too. -/
def Plain (security : Security) (name : String) : Prop :=
  ∀ blocked ∈ security.blockedNames, fold blocked = fold name → security.blocks name = true

section Changes

variable {security : Security} {change : Change} {changes : List Change} {name spelled : String} {value : Value}

theorem holds_cons_iff :
    Holds security (change :: changes) name spelled value ↔
      (change = .set spelled value ∧ security.blocks spelled = false ∧ fold spelled = fold name) ∨
      Holds security changes name spelled value ∧
        (change.accepted security = true → change.concerns name = false) := by
  constructor
  · rintro ⟨later, earlier, heq, hopen, hfold, hlater⟩
    cases later with
    | nil => exact Or.inl ⟨(List.cons.inj heq).1, hopen, hfold⟩
    | cons latest later =>
        obtain ⟨rfl, rfl⟩ := List.cons.inj heq
        obtain ⟨hlatest, hlater⟩ := List.forall_mem_cons.1 hlater
        exact Or.inr ⟨⟨later, earlier, rfl, hopen, hfold, hlater⟩, hlatest⟩
  · rintro (⟨rfl, hopen, hfold⟩ | ⟨⟨later, earlier, rfl, hopen, hfold, hlater⟩, hlatest⟩)
    · exact ⟨[], changes, rfl, hopen, hfold, fun _ hmem => absurd hmem List.not_mem_nil⟩
    · exact ⟨change :: later, earlier, rfl, hopen, hfold, List.forall_mem_cons.2 ⟨hlatest, hlater⟩⟩

/-- After a change a name has the value that was just accepted in some spelling of it, or else the one that it
had, unless the change is about it. -/
theorem get?_apply {vars : Variables} :
    (change.apply security vars).get? name = some value ↔
      (∃ spelled, change = .set spelled value ∧ security.blocks spelled = false ∧ fold spelled = fold name) ∨
      vars.get? name = some value ∧
        (change.accepted security = true → change.concerns name = false) := by
  cases change with
  | set other new =>
      unfold Change.apply Change.accepted Change.concerns
      dsimp only
      simp only [Change.set.injEq]
      cases hblocks : security.blocks other with
      | true =>
          rw [if_pos rfl]
          constructor
          · exact fun hfound => Or.inr ⟨hfound, fun haccepted => nomatch haccepted⟩
          · rintro (⟨spelled, ⟨rfl, -⟩, hopen, -⟩ | ⟨hfound, -⟩)
            · cases hblocks.symm.trans hopen
            · exact hfound
      | false =>
          rw [if_neg Bool.false_ne_true, Variables.get?_insert]
          cases hfold : fold other == fold name with
          | true =>
              rw [if_pos rfl, Option.some.injEq]
              constructor
              · rintro rfl
                exact Or.inl ⟨other, ⟨rfl, rfl⟩, hblocks, eq_of_beq hfold⟩
              · rintro (⟨spelled, ⟨-, rfl⟩, -⟩ | ⟨-, hconcerns⟩)
                · rfl
                · cases hconcerns rfl
          | false =>
              rw [if_neg Bool.false_ne_true]
              constructor
              · exact fun hfound => Or.inr ⟨hfound, fun _ => rfl⟩
              · rintro (⟨spelled, ⟨rfl, -⟩, -, heq⟩ | ⟨hfound, -⟩)
                · rw [heq, beq_self_eq_true] at hfold
                  cases hfold
                · exact hfound
  | remove other =>
      change (vars.erase other).get? name = some value ↔ _
      rw [Variables.get?_erase]
      simp only [reduceCtorEq, false_and, exists_false, false_or, Change.accepted, Change.concerns, forall_const]
      cases hfold : fold other == fold name with
      | true => simp
      | false => simp
  | clear =>
      simp [Change.apply, Change.accepted, Change.concerns, Variables.get?, Variables.find?]

theorem get?_foldr (security : Security) (changes : List Change) (name : String) (value : Value) :
    (changes.foldr (Change.apply security) {}).get? name = some value ↔
      ∃ spelled, Holds security changes name spelled value := by
  induction changes with
  | nil =>
      refine ⟨fun hfound => (nomatch hfound), ?_⟩
      rintro ⟨spelled, later, earlier, hnil, -⟩
      exact absurd hnil.symm (List.append_ne_nil_of_right_ne_nil later (List.cons_ne_nil _ _))
  | cons change earlier ih =>
      rw [List.foldr_cons, get?_apply, ih]
      simp only [holds_cons_iff, exists_or, exists_and_right]

/-- Under names that are plain nothing blocked is set. -/
theorem not_holds_of_plain (hplain : ∀ other new, .set other new ∈ changes → Plain security other)
    (hblocked : name ∈ security.blockedNames) : ¬ Holds security changes name spelled value := by
  rintro ⟨later, earlier, rfl, hopen, hfold, -⟩
  have hmem : Change.set spelled value ∈ later ++ .set spelled value :: earlier :=
    List.mem_append_right _ (List.mem_cons_self ..)
  cases hopen.symm.trans (hplain spelled value hmem name hblocked hfold.symm)

end Changes

/-- Whether a name has basic characters alone. -/
def isBasic (name : String) : Bool := name.toList.all (·.toNat < 128)

theorem toNat_lt_of_isBasic {name : String} (h : isBasic name = true) : ∀ c ∈ name.toList, c.toNat < 128 :=
  fun c hc => of_decide_eq_true (List.all_eq_true.1 h c hc)

/-- Among names of basic characters every spelling of a blocked one is blocked. -/
theorem plain_of_isBasic {security : Security} {name : String}
    (hblocked : security.blockedNames.all isBasic = true) (hname : isBasic name = true) :
    Plain security name := by
  intro blocked hmem hfold
  have hlower : Text.lower blocked.toList = Text.lower name.toList := String.ofList_injective hfold
  have hbasic : isBasic blocked = true := List.all_eq_true.1 hblocked blocked hmem
  rw [Text.lower_eq_asciiLower (toNat_lt_of_isBasic hbasic),
    Text.lower_eq_asciiLower (toNat_lt_of_isBasic hname)] at hlower
  exact List.any_eq_true.2 ⟨blocked, hmem, beq_of_eq hlower⟩

section Calls

variable {settings : Settings} {calls : List Call}

theorem globals_perform (call : Call) (work : Work) :
    (call.perform work).2.shared.globals =
      (call.global?.elim id (Change.apply {})) work.shared.globals := by
  cases call with
  | setGlobal name value =>
      cases hblocks : ({} : Security).blocks name with
      | true => simp [Call.perform, Call.global?, Change.apply, Shared.setGlobal, hblocks]
      | false => simp [Call.perform, Call.global?, Change.apply, Shared.setGlobal, hblocks]
  | setVariable name value =>
      cases hset : work.engine.setVariable name value with
      | error fault => simp [Call.perform, Call.global?, hset]
      | ok engine => simp [Call.perform, Call.global?, hset]
  | removeGlobal | clearGlobals | removeVariable => rfl

theorem own_perform (call : Call) (work : Work) :
    (call.perform work).2.engine.vars =
      (call.own?.elim id (Change.apply work.engine.settings.security)) work.engine.vars := by
  cases call with
  | setGlobal name value =>
      cases hset : work.shared.setGlobal name value with
      | error fault => simp [Call.perform, Call.own?, hset]
      | ok shared => simp [Call.perform, Call.own?, hset]
  | setVariable name value =>
      cases hblocks : work.engine.settings.security.blocks name with
      | true => simp [Call.perform, Call.own?, Change.apply, Engine.setVariable, hblocks]
      | false => simp [Call.perform, Call.own?, Change.apply, Engine.setVariable, hblocks]
  | removeGlobal | clearGlobals | removeVariable => rfl

theorem settings_perform (call : Call) (work : Work) :
    (call.perform work).2.engine.settings = work.engine.settings := by
  cases call with
  | setGlobal name value =>
      cases hset : work.shared.setGlobal name value with
      | error fault => simp [Call.perform, hset]
      | ok shared => simp [Call.perform, hset]
  | setVariable name value =>
      cases hblocks : work.engine.settings.security.blocks name with
      | true => simp [Call.perform, Engine.setVariable, hblocks]
      | false => simp [Call.perform, Engine.setVariable, hblocks]
  | removeGlobal | clearGlobals | removeVariable => rfl

/-- A call is rejected exactly if it sets a blocked name, and then nothing changes. -/
theorem perform_rejected (call : Call) (work : Work) {fault : Fault} :
    (call.perform work).1 = .error fault ↔ call.rejection? work.engine.settings = some fault := by
  cases call with
  | setGlobal name value =>
      cases hblocks : ({} : Security).blocks name with
      | true => simp [Call.perform, Call.rejection?, Shared.setGlobal, hblocks]
      | false => simp [Call.perform, Call.rejection?, Shared.setGlobal, hblocks]
  | setVariable name value =>
      cases hblocks : work.engine.settings.security.blocks name with
      | true => simp [Call.perform, Call.rejection?, Engine.setVariable, hblocks]
      | false => simp [Call.perform, Call.rejection?, Engine.setVariable, hblocks]
  | removeGlobal | clearGlobals | removeVariable => exact ⟨fun h => (nomatch h), fun h => (nomatch h)⟩

theorem unchanged_of_rejected (call : Call) (work : Work) {fault : Fault}
    (hrejected : (call.perform work).1 = .error fault) : (call.perform work).2 = work := by
  cases call with
  | setGlobal name value =>
      cases hset : work.shared.setGlobal name value with
      | error fault => simp [Call.perform, hset]
      | ok shared => simp [Call.perform, hset] at hrejected
  | setVariable name value =>
      cases hset : work.engine.setVariable name value with
      | error fault => simp [Call.perform, hset]
      | ok engine => simp [Call.perform, hset] at hrejected
  | removeGlobal | clearGlobals | removeVariable => exact nomatch hrejected

theorem settings_after : (after settings calls).engine.settings = settings := by
  induction calls with
  | nil => rfl
  | cons call earlier ih => exact (settings_perform call _).trans ih

theorem globals_after :
    (after settings calls).shared.globals = (calls.filterMap Call.global?).foldr (Change.apply {}) {} := by
  induction calls with
  | nil => rfl
  | cons call earlier ih =>
      refine (globals_perform call (after settings earlier)).trans ?_
      rw [List.filterMap_cons, ih]
      cases call.global? with
      | none => rfl
      | some change => rfl

theorem own_after :
    (after settings calls).engine.vars =
      (calls.filterMap Call.own?).foldr (Change.apply settings.security) {} := by
  induction calls with
  | nil => rfl
  | cons call earlier ih =>
      refine (own_perform call (after settings earlier)).trans ?_
      rw [List.filterMap_cons, settings_after, ih]
      cases call.own? with
      | none => rfl
      | some change => rfl

end Calls

/-- After any calls a name has the value that was accepted last in some spelling of it, among all engines as in
one; so a blocked name is bound exactly if it was set in a spelling that is not blocked, and never where all
names that were set are plain. A call is rejected exactly if it sets a blocked name, and then changes nothing. -/
theorem bound_iff_spelled (settings : Settings) (calls : List Call) :
    let work := after settings calls
    (∀ name value, work.shared.value? name = some value ↔
      ∃ spelled, Holds {} (calls.filterMap Call.global?) name spelled value) ∧
    (∀ name value, work.engine.value? name = some value ↔
      ∃ spelled, Holds settings.security (calls.filterMap Call.own?) name spelled value) ∧
    ((∀ name value, .set name value ∈ calls.filterMap Call.global? → Plain {} name) →
      (∀ name value, .set name value ∈ calls.filterMap Call.own? → Plain settings.security name) →
      BlockedUnbound work) ∧
    ∀ call : Call, ∀ fault, (call.perform work).1 = .error fault ↔
      call.rejection? settings = some fault ∧ (call.perform work).2 = work := by
  intro work
  have hglobals : ∀ name value, work.shared.value? name = some value ↔
      ∃ spelled, Holds {} (calls.filterMap Call.global?) name spelled value := by
    intro name value
    rw [← get?_foldr, ← @globals_after settings calls]
    rfl
  have hown : ∀ name value, work.engine.value? name = some value ↔
      ∃ spelled, Holds settings.security (calls.filterMap Call.own?) name spelled value := by
    intro name value
    rw [← get?_foldr, ← own_after]
    rfl
  refine ⟨hglobals, hown, fun hplain hplainOwn => ⟨fun blocked hmem => ?_, fun blocked hmem => ?_⟩,
    fun call fault => ?_⟩
  · refine Option.eq_none_iff_forall_ne_some.2 fun value hfound => ?_
    obtain ⟨spelled, hholds⟩ := (hglobals blocked value).1 hfound
    exact not_holds_of_plain hplain hmem hholds
  · refine Option.eq_none_iff_forall_ne_some.2 fun value hfound => ?_
    obtain ⟨spelled, hholds⟩ := (hown blocked value).1 hfound
    rw [settings_after] at hmem
    exact not_holds_of_plain hplainOwn hmem hholds
  · have hreason : (call.perform work).1 = .error fault ↔ call.rejection? settings = some fault := by
      rw [perform_rejected, settings_after]
    exact ⟨fun hrejected => ⟨hreason.1 hrejected, unchanged_of_rejected call work hrejected⟩,
      fun hrejected => hreason.2 hrejected.1⟩

/-- Where basic letters alone are used, no spelling of a key gets in, and other names do. -/
theorem bound_iff_spelled_basic :
    let work := after {}
      [.setVariable "title" (.int 2), .setVariable "apikey" (.int 1), .setGlobal "APIKEY" (.int 0)]
    BlockedUnbound work ∧ work.engine.value? "Title" = some (.int 2) := by
  have hblocked : ({} : Security).blockedNames.all isBasic = true := by decide +kernel
  obtain ⟨-, hown, hunbound, -⟩ := bound_iff_spelled {}
    [.setVariable "title" (.int 2), .setVariable "apikey" (.int 1), .setGlobal "APIKEY" (.int 0)]
  refine ⟨hunbound (fun name value hmem => ?_) fun name value hmem => ?_, (hown "Title" (.int 2)).2 ?_⟩
  · obtain ⟨rfl, -⟩ := Change.set.inj (List.mem_singleton.1 hmem)
    exact plain_of_isBasic hblocked (by decide +kernel)
  · rcases List.mem_cons.1 hmem with heq | hmem
    · obtain ⟨rfl, -⟩ := Change.set.inj heq
      exact plain_of_isBasic hblocked (by decide +kernel)
    · obtain ⟨rfl, -⟩ := Change.set.inj (List.mem_singleton.1 hmem)
      exact plain_of_isBasic hblocked (by decide +kernel)
  · exact ⟨"title", [], [.set "apikey" (.int 1)], rfl, by decide +kernel, by decide +kernel,
      fun _ hmem => absurd hmem List.not_mem_nil⟩

/-- The sign of the kelvin in place of the capital K binds a key that is always blocked. -/
theorem not_blockedUnbound : ¬ ∀ settings calls, BlockedUnbound (after settings calls) := by
  intro hclaim
  have hnone := (hclaim {} [.setGlobal "apiKey" (.int 1)]).1 "apiKey" (by decide +kernel)
  have hholds : Holds {} [.set "apiKey" (.int 1)] "apiKey" "apiKey" (.int 1) :=
    ⟨[], [], rfl, by decide +kernel, by decide +kernel, fun _ hmem => absurd hmem List.not_mem_nil⟩
  have hsome := (get?_foldr {} [.set "apiKey" (.int 1)] "apiKey" (.int 1)).2 ⟨_, hholds⟩
  unfold Shared.value? at hnone
  rw [globals_after] at hnone
  cases hnone.symm.trans hsome

end Stencil.Registry
