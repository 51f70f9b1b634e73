import Stencil.Proofs.Caching.Outputs
import Stencil.Proofs.Disk.Confinement
import Stencil.Proofs.Rendering.Invariants

/-!
Files are confined. Whatever is done in a session, a file is read only below an allowed root and with an
allowed extension, as the disk is at that time; where nothing is allowed, nothing is read. What stands
anywhere else on the disk does not show in any answer.
-/

namespace Stencil

open Disk Template

/-- Later work with the same settings, up to which files were read at confined locations alone. -/
structure Work.Confined (disk : Disk) (before after : Work) : Prop where
  settings : after.engine.settings = before.engine.settings
  reads : before.engine.shelf.ReadsOnly (Gate.Confines before.engine.settings.security disk)
    after.engine.shelf

/-- The site with another disk. -/
def Site.on (site : Site) (other : Disk) : Site := { site with disk := other }

namespace Work.Confined

variable {disk : Disk} {first second third : Work}

theorem refl (work : Work) : work.Confined disk work := ⟨rfl, Shelf.readsOnly_of_reads_eq rfl⟩

theorem trans (h : first.Confined disk second) (h' : second.Confined disk third) :
    first.Confined disk third :=
  ⟨h'.settings.trans h.settings, h.reads.trans (h.settings ▸ h'.reads)⟩

/-- Nothing more is read by keeping other outputs. -/
theorem withOutputs (h : first.Confined disk second) (outputs : Cache String Page) :
    first.Confined disk (second.withOutputs outputs) := ⟨h.settings, h.reads⟩

end Work.Confined

namespace Engine

variable (site : Site) {other : Disk} (work : Work) {location : Location} (tree : Markup.Tree)
  (extra : Variables)

theorem confined_renderTree : work.Confined site.disk (renderTree site tree extra work).2 := by
  refine ⟨rfl, ?_⟩
  rw [renderTree_run]
  refine Render.loaded_run (P := work.engine.shelf.ReadsOnly
    (Gate.Confines work.engine.settings.security site.disk)) (fun path shelf hshelf => ?_) tree _ _ _
    (Shelf.readsOnly_of_reads_eq rfl)
  unfold renderer treeLoader
  cases work.engine.loader with
  | some load =>
      dsimp only
      rw [run_liftExcept]
      exact hshelf
  | none => exact hshelf.trans (Shelf.readsOnly_component path)

theorem confined_datedOutput (h : Gate.Confines work.engine.settings.security site.disk location) :
    work.Confined site.disk (datedOutput site work.engine.settings location extra work).2 := by
  have htree := Shelf.readsOnly_treeOfFile work.engine.settings site.disk work.engine.shelf h
  rw [datedOutput_run]
  rcases hrun : Shelf.treeOfFile work.engine.settings site.disk location work.engine.shelf with
    ⟨fault | ⟨tree, modified⟩, shelf⟩
  · rw [hrun] at htree
    exact ⟨rfl, htree⟩
  · rw [hrun] at htree
    have hafter : work.Confined site.disk (work.withShelf shelf) := ⟨rfl, htree⟩
    have hrendered := hafter.trans (confined_renderTree site (work.withShelf shelf) tree extra)
    dsimp only
    rcases hrun : renderTree site tree extra (work.withShelf shelf) with ⟨fault | output, after⟩
    · rw [hrun] at hrendered
      exact hrendered
    · rw [hrun] at hrendered
      exact hrendered

theorem confined_renderFile (path : String) (isPage : Bool) :
    work.Confined site.disk (renderFile site path extra isPage work).2 := by
  rw [renderFile_run]
  cases hlocate : locate work.engine.settings site.disk path isPage with
  | error fault => exact .refl work
  | ok location =>
      have hdated := confined_datedOutput site work extra (confines_of_locate hlocate)
      dsimp only
      rcases hrun : datedOutput site work.engine.settings location extra work with
        ⟨fault | ⟨output, modified⟩, after⟩
      · rw [hrun] at hdated
        exact hdated
      · rw [hrun] at hdated
        exact hdated

theorem confined_keptOutput (h : Gate.Confines work.engine.settings.security site.disk location)
    (key : String) (expiry : Option Int) :
    work.Confined site.disk
      (keptOutput site work.engine.settings location key expiry extra work).2 := by
  have hdated := confined_datedOutput site work extra h
  rw [keptOutput_run]
  rcases hrun : datedOutput site work.engine.settings location extra work with
    ⟨fault | ⟨output, modified⟩, after⟩
  · rw [hrun] at hdated
    exact hdated
  · rw [hrun] at hdated
    exact hdated.withOutputs _

theorem confined_renderCached (path key : String) (expiry : Option Int) (mindsData : Bool) :
    work.Confined site.disk (renderCached site path key expiry mindsData extra work).2 := by
  rw [renderCached_run]
  cases hlocate : locate work.engine.settings site.disk path true with
  | error fault => exact .refl work
  | ok location =>
      have hconfined := confines_of_locate hlocate
      dsimp only
      split
      · exact confined_keptOutput site work extra hconfined _ _
      · split
        · exact (Work.Confined.refl work).withOutputs _
        next outputs _ =>
          have hkept := confined_keptOutput site (work.withOutputs outputs) extra hconfined
          exact ((Work.Confined.refl work).withOutputs outputs).trans (hkept _ _)

theorem confined_compile (template : String) :
    work.Confined site.disk
      (work.withShelf (Shelf.compile work.engine.settings template work.engine.shelf).2) :=
  ⟨rfl, Shelf.readsOnly_of_reads_eq (Shelf.reads_compile template)⟩

theorem confined_render (template : String) :
    work.Confined site.disk (render site template extra work).2 := by
  have hcompiled := confined_compile site work template
  unfold render
  rw [run_get_bind, run_bind, shelving_run]
  dsimp only
  cases (Shelf.compile work.engine.settings template work.engine.shelf).1 with
  | error fault => exact hcompiled
  | ok found => exact hcompiled.trans (confined_renderTree site _ found.2 extra)

theorem confined_prepare (template : String) :
    work.Confined site.disk (prepare template work).2 := by
  have hcompiled := confined_compile site work template
  unfold prepare
  rw [run_get_bind, run_bind, shelving_run]
  dsimp only
  cases (Shelf.compile work.engine.settings template work.engine.shelf).1 with
  | error fault => exact hcompiled
  | ok found => exact hcompiled

section Elsewhere

variable (h : site.disk.AgreeOn (Gate.Confines work.engine.settings.security site.disk) other)

include h

theorem renderTree_on : renderTree (site.on other) tree extra work = renderTree site tree extra work := by
  have hloader : work.engine.treeLoader (site.on other) = work.engine.treeLoader site := by
    unfold treeLoader
    cases work.engine.loader with
    | some load => rfl
    | none => exact congrArg Loader.mk (funext (Shelf.component?_agreeOn h))
  unfold renderTree
  dsimp only
  rw [hloader]
  rfl

theorem datedOutput_on (hlocation : Gate.Confines work.engine.settings.security site.disk location) :
    datedOutput (site.on other) work.engine.settings location extra work =
      datedOutput site work.engine.settings location extra work := by
  rw [datedOutput_run, datedOutput_run, show (site.on other).disk = other from rfl,
    Shelf.treeOfFile_agreeOn h hlocation]
  rcases Shelf.treeOfFile work.engine.settings site.disk location work.engine.shelf with
    ⟨fault | ⟨tree, modified⟩, shelf⟩
  · rfl
  · dsimp only
    rw [renderTree_on site (work.withShelf shelf) tree extra h]

theorem renderFile_on (path : String) (isPage : Bool) :
    renderFile (site.on other) path extra isPage work = renderFile site path extra isPage work := by
  rw [renderFile_run, renderFile_run, show (site.on other).disk = other from rfl, locate_agreeOn h]
  cases hlocate : locate work.engine.settings site.disk path isPage with
  | error fault => rfl
  | ok location =>
      dsimp only
      rw [datedOutput_on site work extra h (confines_of_locate hlocate)]

theorem keptOutput_on (hlocation : Gate.Confines work.engine.settings.security site.disk location)
    (key : String) (expiry : Option Int) :
    keptOutput (site.on other) work.engine.settings location key expiry extra work =
      keptOutput site work.engine.settings location key expiry extra work := by
  rw [keptOutput_run, keptOutput_run, datedOutput_on site work extra h hlocation]

theorem renderCached_on (path key : String) (expiry : Option Int) (mindsData : Bool) :
    renderCached (site.on other) path key expiry mindsData extra work =
      renderCached site path key expiry mindsData extra work := by
  rw [renderCached_run, renderCached_run, show (site.on other).disk = other from rfl, locate_agreeOn h]
  cases hlocate : locate work.engine.settings site.disk path true with
  | error fault => rfl
  | ok location =>
      have hconfined := confines_of_locate hlocate
      dsimp only
      rw [h.same location hconfined, show (site.on other).now = site.now from rfl]
      cases site.disk.file? location with
      | none => exact keptOutput_on site work extra h hconfined _ _
      | some file =>
          dsimp only
          rcases work.engine.outputs.lookupIf (·.isFresh site.now file.modified)
            (work.engine.outputKey work.shared key mindsData extra) with ⟨- | page, outputs⟩
          · exact keptOutput_on site (work.withOutputs outputs) extra h hconfined _ _
          · rfl

theorem render_on (template : String) :
    render (site.on other) template extra work = render site template extra work := by
  unfold render
  rw [run_get_bind, run_get_bind, run_bind, run_bind, shelving_run]
  dsimp only
  cases (Shelf.compile work.engine.settings template work.engine.shelf).1 with
  | error fault => rfl
  | ok found => exact renderTree_on site (work.withShelf _) found.2 extra h

end Elsewhere

end Engine

namespace Session

/-- The session on another disk. -/
def on (session : Session) (other : Disk) : Session :=
  { session with site := session.site.on other }

theorem confined_run {α : Type} {session : Session} {job : Working α}
    (h : session.work.Confined session.site.disk (job session.work).2) :
    session.work.Confined session.site.disk (session.run job).2.work := h

theorem confined_answer (session : Session) (call : Call) :
    session.work.Confined session.site.disk (session.answer call).2.work := by
  unfold answer
  cases call with
  | render template extra => exact confined_run (Engine.confined_render _ _ extra template)
  | prepare template => exact confined_run (Engine.confined_prepare _ _ template)
  | renderFile path extra isPage => exact confined_run (Engine.confined_renderFile _ _ extra path isPage)
  | renderPrepared index extra =>
      dsimp only
      split
      next prepared _ => exact confined_run (Engine.confined_renderTree _ _ prepared.tree extra)
      next => exact .refl _

/-- No action reads anything but confined files. -/
theorem confined_perform (session : Session) (action : Action) :
    session.work.Confined session.site.disk (session.perform action).work := by
  unfold perform
  cases action with
  | call call => exact confined_answer session call
  | page request => exact confined_run (Engine.confined_renderCached _ _ request.extra _ _ _ _)
  | _ => exact ⟨rfl, Shelf.readsOnly_of_reads_eq rfl⟩

theorem settings_after (start : Session) (history : History) :
    (start.after history).work.engine.settings = start.work.engine.settings := by
  induction history with
  | nil => rfl
  | cons action earlier ih => exact (confined_perform (start.after earlier) action).settings.trans ih

/-- Every file that was read in a history was confined on the disk as it was then. -/
theorem readsOnly_after (start : Session) (history : History) :
    start.work.engine.shelf.ReadsOnly (fun location => ∃ later action earlier,
        history = later ++ action :: earlier ∧
          Gate.Confines start.work.engine.settings.security (start.site.disk.after earlier) location)
      (start.after history).work.engine.shelf := by
  induction history with
  | nil => exact Shelf.readsOnly_of_reads_eq rfl
  | cons action earlier ih =>
      obtain ⟨before, hbefore, hread⟩ := ih
      obtain ⟨more, hmore, hconfined⟩ := (confined_perform (start.after earlier) action).reads
      rw [settings_after, (after_site start earlier).2] at hconfined
      refine ⟨more ++ before, ?_, fun location hmem => ?_⟩
      · rw [List.append_assoc, ← hbefore]
        exact hmore
      rcases List.mem_append.1 hmem with hnow | hthen
      · exact ⟨[], action, earlier, rfl, hconfined location hnow⟩
      · obtain ⟨later, past, first, hsplit, hpast⟩ := hread location hthen
        exact ⟨action :: later, past, first, congrArg (action :: ·) hsplit, hpast⟩

section Elsewhere

variable {session : Session} {other : Disk}
  (h : session.site.disk.AgreeOn
    (Gate.Confines session.work.engine.settings.security session.site.disk) other)

include h

omit h in
theorem run_on {α : Type} {job job' : Working α} (hjob : job session.work = job' session.work) :
    ((session.on other).run job).1 = (session.run job').1 := by
  unfold run
  dsimp only
  exact congrArg Prod.fst hjob

theorem page_on (request : PageRequest) :
    ((session.on other).page request).1 = (session.page request).1 :=
  run_on (Engine.renderCached_on session.site session.work request.extra h _ _ _ _)

theorem answer_on (call : Call) : ((session.on other).answer call).1 = (session.answer call).1 := by
  cases call with
  | prepare template => rfl
  | render template extra =>
      exact congrArg Answer.output (run_on (Engine.render_on session.site session.work extra h template))
  | renderFile path extra isPage =>
      exact congrArg Answer.output
        (run_on (Engine.renderFile_on session.site session.work extra h path isPage))
  | renderPrepared index extra =>
      unfold answer
      rw [show (session.on other).prepared = session.prepared from rfl]
      dsimp only
      cases session.prepared[index]? with
      | none => rfl
      | some entry =>
          exact congrArg Answer.output
            (run_on (Engine.renderTree_on session.site session.work entry.2.tree extra h))

end Elsewhere

/-- Whatever is done in a session, files are read only where, on the disk of that time, a location is below
an allowed root and has an allowed extension. Where there are no allowed roots nothing is read. What the
disk holds anywhere else shows in no answer and in no page. -/
theorem files_confined (start : Session) (history : History) :
    let security := start.work.engine.settings.security
    let session := start.after history
    start.work.engine.shelf.ReadsOnly (fun location => ∃ later action earlier,
        history = later ++ action :: earlier ∧
          Gate.Confines security (start.site.disk.after earlier) location)
      session.work.engine.shelf ∧
    (security.allowedRoots = [] → session.work.engine.shelf.reads = start.work.engine.shelf.reads) ∧
    ∀ other, session.site.disk.AgreeOn (Gate.Confines security session.site.disk) other →
      (∀ call, ((session.on other).answer call).1 = (session.answer call).1) ∧
        ∀ request, ((session.on other).page request).1 = (session.page request).1 := by
  intro security session
  have hreads := readsOnly_after start history
  refine ⟨hreads, fun hroots => ?_, fun other hother => ?_⟩
  · obtain ⟨more, hmore, hread⟩ := hreads
    have hnone : more = [] := by
      rw [List.eq_nil_iff_forall_not_mem]
      intro location hmem
      obtain ⟨_, _, _, _, hconfined⟩ := hread location hmem
      exact hconfined.roots_ne_nil hroots
    rw [hmore, hnone, List.nil_append]
  · rw [show security = session.work.engine.settings.security from
      (congrArg Settings.security (settings_after start history)).symm] at hother
    exact ⟨answer_on hother, page_on hother⟩

/-- A page is rendered while a file beside the templates is another one; without roots there is no page. -/
theorem files_confined_beside :
    let files (text : String) : List (Location × File) :=
      [(["t", "page.html"], ⟨some "one", 1⟩), (["secret.html"], ⟨some text, 1⟩)]
    let disk : Disk := { files := files "first", directories := [["t"]] }
    let other : Disk := { files := files "second", directories := [["t"]] }
    let site : Site := ⟨⟨fun _ _ => none, fun _ _ => false, fun _ _ => none⟩, disk, 0⟩
    let session := opened (Engine.ofSettings (({} : Settings).withTemplateRoot "/t")) {} site
    let rootless := opened (Engine.ofSettings {}) {} site
    let call := Call.renderFile "page" {} true
    ((session.on other).answer call).1 = (session.answer call).1 ∧
      (rootless.after [.call call]).work.engine.shelf.reads = [] := by
  intro files disk other site session rootless call
  have hagree : disk.AgreeOn
      (Gate.Confines (({} : Settings).withTemplateRoot "/t").security disk) other := by
    refine ⟨rfl, rfl, fun location => ?_, fun location hconfined => ?_⟩
    · unfold file?
      simp only [disk, other, files, List.lookup_cons]
      split
      · rfl
      · split
        · rfl
        · rfl
    · obtain ⟨root, hroot, top, htop, hbelow⟩ := hconfined.below
      obtain rfl : root = "/t" := by simpa [Settings.withTemplateRoot] using hroot
      obtain rfl : ["t"] = top := by
        have : disk.location? "/t" = some ["t"] := by decide +kernel
        exact Option.some.inj (this.symm.trans htop)
      obtain ⟨rest, rfl⟩ := hbelow
      unfold file?
      simp [disk, other, files, List.lookup_cons]
  exact ⟨((files_confined session []).2.2 other hagree).1 call, (files_confined rootless [.call call]).2.1 rfl⟩

end Session

end Stencil
