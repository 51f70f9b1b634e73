import Stencil.Engine
import Stencil.Proofs.Caching.Shelf

/-!
Sessions: an engine at work on a disk that is edited meanwhile. A history lists what was done, its latest
action first, as trails do. An edit gives a file a time of last change; where that is always a time the
file never had before, the times tell apart all that the file has ever held.
-/

namespace Stencil

open Disk Template

/-- A call whose answer the trees and texts at hand are not to change. -/
inductive Call where
  | render (template : String) (extra : Variables)
  | prepare (template : String)
  /-- Renders one of the templates prepared so far, counted from the first. -/
  | renderPrepared (index : Nat) (extra : Variables)
  | renderFile (path : String) (extra : Variables) (isPage : Bool)

/-- A page that is asked for through the cache of outputs. -/
structure PageRequest where
  path : String
  key : String
  expiry : Option Int
  mindsData : Bool
  extra : Variables

/-- What is done in a session. -/
inductive Action where
  | call (call : Call)
  | page (request : PageRequest)
  | clear
  | invalidate (key : String)
  | invalidateStart (start : String)
  | write (location : Location) (file : File)
  | erase (location : Location)
  | wait (now : Int)

/-- The actions of a session, latest first. -/
abbrev History := List Action

/-- What a call answers. -/
inductive Answer where
  | output (result : Except Fault String)
  | prepared (result : Except Fault Engine.Prepared)
  | nothing

/-- The texts of templates that a call hands over. -/
def Call.texts : Call → List String
  | .render template _ | .prepare template => [template]
  | _ => []

/-- The texts that an action brings up. -/
def Action.texts : Action → List String
  | .call asked => asked.texts
  | .write _ file => file.text.toList
  | _ => []

/-- What an action does to the disk. -/
def Action.edit : Action → Disk → Disk
  | .write location file, disk => disk.write location file
  | .erase location, disk => disk.erase location
  | _, disk => disk

namespace Disk

variable (disk : Disk)

/-- The disk after a history. -/
def after (history : History) : Disk := history.foldr Action.edit disk

/-- All states of the disk in a history, latest first. -/
def states : History → List Disk
  | [] => [disk]
  | action :: earlier => disk.after (action :: earlier) :: states earlier

/-- Every file that is written gets a time of last change that it never had before. -/
def EditedAnew : History → Prop
  | [] => True
  | .write location file :: earlier =>
      (∀ state ∈ disk.states earlier, ∀ old ∈ state.file? location, old.modified ≠ file.modified) ∧
        EditedAnew earlier
  | _ :: earlier => EditedAnew earlier

/-- The texts that come up in a history. -/
def textsIn (history : History) : List String := disk.texts ++ history.flatMap Action.texts

theorem after_mem_states (history : History) : disk.after history ∈ disk.states history := by
  cases history with
  | nil => exact List.mem_singleton.2 rfl
  | cons action earlier => exact List.mem_cons_self ..

theorem states_suffix (later earlier : History) :
    disk.states earlier <:+ disk.states (later ++ earlier) := by
  induction later with
  | nil => exact List.suffix_refl _
  | cons action later ih => exact ih.trans (List.suffix_cons _ _)

variable {disk}

theorem EditedAnew.of_append {later earlier : History} (h : disk.EditedAnew (later ++ earlier)) :
    disk.EditedAnew earlier := by
  induction later with
  | nil => exact h
  | cons action later ih =>
      cases action with
      | write location file => exact ih h.2
      | _ => exact ih h

theorem lookup_filter_ne {α β : Type} [BEq α] [LawfulBEq α] (entries : List (α × β)) (key other : α) :
    (entries.filter (·.1 != key)).lookup other =
      if other == key then none else entries.lookup other := by
  induction entries with
  | nil => simp
  | cons entry rest ih =>
      obtain ⟨name, value⟩ := entry
      by_cases hname : name = key
      · subst hname
        rw [List.filter_cons_of_neg (by simp), ih, List.lookup_cons]
        cases other == name with
        | true => rfl
        | false => rfl
      · rw [List.filter_cons_of_pos (by simpa using hname), List.lookup_cons, List.lookup_cons, ih]
        by_cases hother : other = name
        · subst hother
          simp [hname]
        · rw [beq_false_of_ne hother]

theorem file?_write (location other : Location) (file : File) :
    (disk.write location file).file? other =
      if other == location then some file else disk.file? other := by
  unfold write file?
  dsimp only
  rw [List.lookup_cons, lookup_filter_ne]
  cases other == location with
  | true => rfl
  | false => rfl

theorem file?_erase (location other : Location) :
    (disk.erase location).file? other = if other == location then none else disk.file? other :=
  lookup_filter_ne disk.files location other

theorem texts_edit (action : Action) : (action.edit disk).texts ⊆ disk.texts ++ action.texts := by
  have hkept (files : List (Location × File)) (location : Location) :
      (files.filter (·.1 != location)).filterMap (fun entry => entry.2.text) ⊆
        files.filterMap fun entry => entry.2.text :=
    (List.filter_sublist.filterMap _).subset
  cases action with
  | write location file =>
      intro text htext
      unfold Action.edit write texts at htext
      rw [List.filterMap_cons] at htext
      cases hfile : file.text with
      | none =>
          rw [hfile] at htext
          exact List.mem_append_left _ (hkept disk.files location htext)
      | some written =>
          rw [hfile] at htext
          rcases List.mem_cons.1 htext with rfl | htext
          · exact List.mem_append_right _ (by simp [Action.texts, hfile])
          · exact List.mem_append_left _ (hkept disk.files location htext)
  | erase location => exact fun text htext => List.mem_append_left _ (hkept disk.files location htext)
  | _ => exact List.subset_append_left _ _

theorem texts_states {history : History} {state : Disk} (h : state ∈ disk.states history) :
    state.texts ⊆ disk.textsIn history := by
  have hafter (history : History) : (disk.after history).texts ⊆ disk.textsIn history := by
    induction history with
    | nil => exact List.subset_append_left _ _
    | cons action earlier ih =>
        intro text htext
        rcases List.mem_append.1 (texts_edit action htext) with hbefore | haction
        · rcases List.mem_append.1 (ih hbefore) with hdisk | hearlier
          · exact List.mem_append_left _ hdisk
          · exact List.mem_append_right _ (List.mem_append_right _ hearlier)
        · exact List.mem_append_right _ (List.mem_append_left _ haction)
  induction history with
  | nil =>
      rw [List.mem_singleton.1 h]
      exact List.subset_append_left _ _
  | cons action earlier ih =>
      rcases List.mem_cons.1 h with rfl | hearlier
      · exact hafter _
      · intro text htext
        rcases List.mem_append.1 (ih hearlier htext) with hdisk | hlater
        · exact List.mem_append_left _ hdisk
        · exact List.mem_append_right _ (List.mem_append_right _ hlater)

theorem EditedAnew.unchanged_or_anew {action : Action} {earlier : History}
    (h : disk.EditedAnew (action :: earlier)) {location : Location} {file : File}
    (hfile : file ∈ (disk.after (action :: earlier)).file? location) :
    file ∈ (disk.after earlier).file? location ∨
      ∀ state ∈ disk.states earlier, ∀ old ∈ state.file? location, old.modified ≠ file.modified := by
  change file ∈ (action.edit (disk.after earlier)).file? location at hfile
  cases action with
  | write place written =>
      change file ∈ ((disk.after earlier).write place written).file? location at hfile
      rw [file?_write] at hfile
      split at hfile
      next hplace =>
        obtain rfl := Option.some.inj hfile
        exact Or.inr (eq_of_beq hplace ▸ h.1)
      next => exact Or.inl hfile
  | erase place =>
      change file ∈ ((disk.after earlier).erase place).file? location at hfile
      rw [file?_erase] at hfile
      split at hfile
      next => cases hfile
      next => exact Or.inl hfile
  | _ => exact Or.inl hfile

/-- Times that are always new tell apart all that a file has ever held. -/
theorem EditedAnew.dated {history : History} (h : disk.EditedAnew history) :
    Dated (disk.states history) := by
  induction history with
  | nil =>
      intro first hfirst second hsecond location file hfile file' hfile' _
      rw [List.mem_singleton.1 hfirst] at hfile
      rw [List.mem_singleton.1 hsecond] at hfile'
      exact Option.some.inj (hfile.symm.trans hfile')
  | cons action earlier ih =>
      have hearlier := ih (EditedAnew.of_append (show disk.EditedAnew ([action] ++ earlier) from h))
      -- a file is as it was before the action, or its time is new
      have hlatest (state : Disk) (hstate : state ∈ disk.states earlier) (location : Location) :
          ∀ file ∈ (disk.after (action :: earlier)).file? location, ∀ file' ∈ state.file? location,
            file.modified = file'.modified → file = file' := by
        intro file hfile file' hfile' htime
        rcases h.unchanged_or_anew hfile with hkept | hanew
        · exact hearlier _ (disk.after_mem_states earlier) state hstate location file hkept file' hfile'
            htime
        · exact absurd htime.symm (hanew state hstate file' hfile')
      intro first hfirst second hsecond location file hfile file' hfile' htime
      rcases List.mem_cons.1 hfirst with rfl | hfirst
      · rcases List.mem_cons.1 hsecond with rfl | hsecond
        · exact Option.some.inj (hfile.symm.trans hfile')
        · exact hlatest second hsecond location file hfile file' hfile' htime
      · rcases List.mem_cons.1 hsecond with rfl | hsecond
        · exact (hlatest first hfirst location file' hfile' file hfile htime.symm).symm
        · exact hearlier first hfirst second hsecond location file hfile file' hfile' htime

/-- The disks of a history and the texts that came up in it are known. -/
theorem EditedAnew.known {history : History} (h : disk.EditedAnew history) {texts : List String}
    (hdigests : CollisionFree texts) (htexts : disk.textsIn history ⊆ texts) :
    Known (disk.states history) texts where
  dated := h.dated
  digests := hdigests
  files := fun _ hstate => List.Subset.trans (texts_states hstate) htexts

end Disk

/-- An engine at work: what changes with its work, what is around it, and the templates that were
prepared, with their texts. -/
structure Session where
  work : Work
  site : Site
  prepared : List (String × Engine.Prepared) := []

/-- The engine as it is when it is new: nothing is at hand. -/
def Engine.renewed (engine : Engine) : Engine :=
  { engine with
    shelf := Shelf.empty engine.settings.cache
    outputs := { capacity := engine.settings.cache.outputs } }

namespace Session

/-- The session of a new engine. -/
def opened (engine : Engine) (shared : Shared) (site : Site) : Session where
  work := ⟨engine.renewed, shared, []⟩
  site := site

/-- A piece of work in a session. -/
def run {α : Type} (session : Session) (job : Working α) : Except Fault α × Session :=
  ((job session.work).1, { session with work := (job session.work).2 })

/-- The answer of a call, and the session after it. -/
def answer (session : Session) : Call → Answer × Session
  | .render template extra =>
      let done := session.run (Engine.render session.site template extra)
      (.output done.1, done.2)
  | .prepare template =>
      let done := session.run (Engine.prepare template)
      let more := match done.1 with
        | .ok prepared => [(template, prepared)]
        | .error _ => []
      (.prepared done.1, { done.2 with prepared := session.prepared ++ more })
  | .renderPrepared index extra =>
      match session.prepared[index]? with
      | some (_, prepared) =>
          let done := session.run (Engine.renderTree session.site prepared.tree extra)
          (.output done.1, done.2)
      | none => (.nothing, session)
  | .renderFile path extra isPage =>
      let done := session.run (Engine.renderFile session.site path extra isPage)
      (.output done.1, done.2)

/-- What is given for a page, and the session after it. -/
def page (session : Session) (request : PageRequest) : Except Fault String × Session :=
  session.run (Engine.renderCached session.site request.path request.key request.expiry
    request.mindsData request.extra)

/-- The session after an action. -/
def perform (session : Session) (action : Action) : Session :=
  match action with
  | .call call => (session.answer call).2
  | .page request => (session.page request).2
  | .clear =>
      { session with work := { session.work with engine := session.work.engine.clearCaches } }
  | .invalidate key =>
      { session with work := { session.work with engine := (session.work.engine.invalidate key).2 } }
  | .invalidateStart start =>
      { session with
        work := { session.work with engine := (session.work.engine.invalidateStart start).2 } }
  | .write _ _ | .erase _ =>
      { session with site := { session.site with disk := action.edit session.site.disk } }
  | .wait now => { session with site := { session.site with now } }

/-- The session after a history. -/
def after (start : Session) (history : History) : Session :=
  history.foldr (fun action session => session.perform action) start

theorem run_site {α : Type} (session : Session) (job : Working α) :
    (session.run job).2.site = session.site := rfl

theorem answer_site (session : Session) (call : Call) : (session.answer call).2.site = session.site := by
  cases call with
  | renderPrepared index extra =>
      unfold answer
      dsimp only
      split
      · exact run_site ..
      · rfl
  | prepare template => exact run_site session (Engine.prepare template)
  | render template extra => exact run_site session (Engine.render session.site template extra)
  | renderFile path extra isPage =>
      exact run_site session (Engine.renderFile session.site path extra isPage)

theorem perform_site (session : Session) (action : Action) :
    (session.perform action).site.host = session.site.host ∧
      (session.perform action).site.disk = action.edit session.site.disk := by
  cases action with
  | call call =>
      have hsite := session.answer_site call
      exact ⟨congrArg Site.host hsite, congrArg Site.disk hsite⟩
  | page request =>
      have hsite : (session.page request).2.site = session.site := run_site ..
      exact ⟨congrArg Site.host hsite, congrArg Site.disk hsite⟩
  | _ => exact ⟨rfl, rfl⟩

theorem after_site (start : Session) (history : History) :
    (start.after history).site.host = start.site.host ∧
      (start.after history).site.disk = start.site.disk.after history := by
  induction history with
  | nil => exact ⟨rfl, rfl⟩
  | cons action earlier ih =>
      obtain ⟨hhost, hdisk⟩ := perform_site (start.after earlier) action
      exact ⟨hhost.trans ih.1, hdisk.trans (congrArg action.edit ih.2)⟩

end Session

end Stencil
