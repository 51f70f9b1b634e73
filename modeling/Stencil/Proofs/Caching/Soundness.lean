import Stencil.Proofs.Caching.Session
import Stencil.Proofs.Caching.Work

/-!
What is at hand in a session stays sound. A call is answered as reckoned with nothing at hand, and every
action leaves a sound session, whatever the disk has become meanwhile.
-/

namespace Stencil

open Template

namespace Session

/-- A session of an engine with nothing but sound templates at hand and prepared. -/
structure Sound (engine : Engine) (shared : Shared) (disks : List Disk) (texts : List String)
    (session : Session) : Prop where
  work : session.work.Sound engine shared disks texts
  prepared : ∀ entry ∈ session.prepared, entry.1 ∈ texts ∧
    parsed engine.settings entry.1 = .ok (entry.2.key, entry.2.tree)

variable {engine : Engine} {shared : Shared} {site : Site} {disks : List Disk} {texts : List String}
  {session : Session} {P : String → Page → Prop}

theorem sound_opened : (opened engine shared site).Sound engine shared disks texts where
  work := ⟨rfl, rfl, rfl, rfl, rfl, rfl, rfl, Shelf.sound_empty _⟩
  prepared := fun _ hmem => absurd hmem List.not_mem_nil

theorem Sound.mono (h : session.Sound engine shared disks texts) {disks' : List Disk}
    (hsub : disks ⊆ disks') : session.Sound engine shared disks' texts :=
  ⟨{ h.work with shelf := h.work.shelf.mono hsub }, h.prepared⟩

/-- The answer of a call with nothing at hand. -/
def reckoned (engine : Engine) (shared : Shared) (session : Session) (call : Call) : Answer :=
  let decisions := session.work.shared.decisions
  match call with
  | .render template extra =>
      .output (engine.output shared session.site template extra decisions).1
  | .prepare template => .prepared (engine.preparation template decisions).1
  | .renderPrepared index extra =>
      match session.prepared[index]? with
      | some (template, _) =>
          .output (engine.output shared session.site template extra decisions).1
      | none => .nothing
  | .renderFile path extra isPage =>
      .output (engine.fileOutput shared session.site path extra isPage decisions).1

theorem run_gives {α : Type} {expected : Reckoning α} {job : Working α}
    (hjob : Engine.Gives engine shared disks texts expected job)
    (h : session.Sound engine shared disks texts) :
    (session.run job).1 = (expected session.work.shared.decisions).1 ∧
      (session.run job).2.work.shared.decisions = (expected session.work.shared.decisions).2 ∧
      (session.run job).2.Sound engine shared disks texts ∧
      (session.run job).2.work.engine.outputs = session.work.engine.outputs := by
  obtain ⟨hresult, hdecisions, hsound, houtputs⟩ := hjob session.work h.work
  exact ⟨hresult, hdecisions, ⟨hsound, h.prepared⟩, houtputs⟩

theorem parsed_of_preparation {template : String} {decisions : Decisions} {prepared : Engine.Prepared}
    (h : (engine.preparation template decisions).1 = .ok prepared) :
    parsed engine.settings template = .ok (prepared.key, prepared.tree) := by
  unfold Engine.preparation at h
  rw [run_bind, run_liftExcept] at h
  cases hparsed : parsed engine.settings template with
  | error fault =>
      rw [hparsed] at h
      cases h
  | ok found =>
      rw [hparsed] at h
      obtain rfl := Except.ok.inj h
      rfl

section Steps

variable (known : Known disks texts) (hdisk : session.site.disk ∈ disks)
  (h : session.Sound engine shared disks texts)

include known hdisk h

/-- A call is answered as reckoned, and leaves a sound session and the outputs as they were. -/
theorem answer_sound (call : Call) (htexts : call.texts ⊆ texts) :
    (session.answer call).1 = reckoned engine shared session call ∧
      (session.answer call).2.Sound engine shared disks texts ∧
      (session.answer call).2.work.engine.outputs = session.work.engine.outputs := by
  unfold answer reckoned
  cases call with
  | render template extra =>
      have htemplate : template ∈ texts := htexts (List.mem_cons_self ..)
      obtain ⟨hresult, -, hsound, houtputs⟩ :=
        run_gives (Engine.gives_render known hdisk htemplate extra) h
      dsimp only
      exact ⟨congrArg Answer.output hresult, hsound, houtputs⟩
  | renderFile path extra isPage =>
      obtain ⟨hresult, -, hsound, houtputs⟩ :=
        run_gives (Engine.gives_renderFile known hdisk path extra isPage) h
      dsimp only
      exact ⟨congrArg Answer.output hresult, hsound, houtputs⟩
  | prepare template =>
      have htemplate : template ∈ texts := htexts (List.mem_cons_self ..)
      obtain ⟨hresult, -, hsound, houtputs⟩ := run_gives (Engine.gives_prepare known htemplate) h
      dsimp only
      refine ⟨congrArg Answer.prepared hresult, ⟨hsound.work, fun entry hmem => ?_⟩, houtputs⟩
      rcases List.mem_append.1 hmem with hmem | hmem
      · exact h.prepared entry hmem
      · split at hmem
        next prepared hprepared =>
          obtain rfl := List.mem_singleton.1 hmem
          exact ⟨htemplate, parsed_of_preparation (hresult.symm.trans hprepared)⟩
        next => exact absurd hmem List.not_mem_nil
  | renderPrepared index extra =>
      dsimp only
      cases hprepared : session.prepared[index]? with
      | none => exact ⟨rfl, h, rfl⟩
      | some entry =>
          obtain ⟨-, hparsed⟩ := h.prepared entry (List.mem_of_getElem? hprepared)
          obtain ⟨hresult, -, hsound, houtputs⟩ :=
            run_gives (Engine.gives_renderTree known hdisk entry.2.tree extra) h
          refine ⟨congrArg Answer.output (hresult.trans ?_), hsound, houtputs⟩
          unfold Engine.output
          rw [hparsed]
          rfl

/-- A page is given as reckoned, or it is one of those kept under its key. -/
theorem page_sound (hkept : session.work.engine.outputs.Holds P) (request : PageRequest)
    (hnew : ∀ text location tree modified,
      (engine.fileOutput shared session.site request.path request.extra true
        session.work.shared.decisions).1 = .ok text →
      locate engine.settings session.site.disk request.path true = .ok location →
      parsedFile engine.settings session.site.disk location = .ok (tree, modified) →
      (session.page request).2.work.shared.decisions = (engine.fileOutput shared session.site
        request.path request.extra true session.work.shared.decisions).2 →
      P (engine.outputKey shared request.key request.mindsData request.extra)
        ⟨text, request.expiry, modified⟩) :
    (session.page request).2.Sound engine shared disks texts ∧
      (session.page request).2.work.engine.outputs.Holds P ∧
      ((session.page request).1 = (engine.fileOutput shared session.site request.path request.extra true
            session.work.shared.decisions).1 ∧
          (session.page request).2.work.shared.decisions = (engine.fileOutput shared session.site
            request.path request.extra true session.work.shared.decisions).2 ∨
        (session.page request).2.work.shared.decisions = session.work.shared.decisions ∧
          ∃ location file page,
            locate engine.settings session.site.disk request.path true = .ok location ∧
            session.site.disk.file? location = some file ∧
            page.isFresh session.site.now file.modified = true ∧
            P (engine.outputKey shared request.key request.mindsData request.extra) page ∧
            (session.page request).1 = .ok page.text) := by
  unfold page run at hnew ⊢
  dsimp only at hnew ⊢
  generalize hdone : Engine.renderCached session.site request.path request.key request.expiry
    request.mindsData request.extra session.work = done at hnew ⊢
  obtain ⟨hsound, houtputs, hresult⟩ := Engine.renderCached_gives known hdisk h.work hkept request.path
    request.key request.expiry request.mindsData request.extra done hdone.symm hnew
  exact ⟨⟨hsound, h.prepared⟩, houtputs, hresult⟩

/-- A page is given as reckoned, or it was kept under its key before and is fresh. -/
theorem page_reckoned_or_kept (hkept : session.work.engine.outputs.Holds P) (request : PageRequest) :
    (session.page request).1 = (engine.fileOutput shared session.site request.path request.extra true
        session.work.shared.decisions).1 ∨
      ∃ location file page,
        locate engine.settings session.site.disk request.path true = .ok location ∧
        session.site.disk.file? location = some file ∧
        page.isFresh session.site.now file.modified = true ∧
        P (engine.outputKey shared request.key request.mindsData request.extra) page ∧
        (session.page request).1 = .ok page.text := by
  -- what is kept under the key was kept before, or it is what is rendered now
  have hgiven := page_sound known hdisk h (fun entry hmem => Or.inl (hkept entry hmem)) request
    (P := fun key page => P key page ∨ (engine.fileOutput shared session.site request.path
      request.extra true session.work.shared.decisions).1 = .ok page.text)
    fun text _ _ _ htext _ _ _ => Or.inr htext
  obtain ⟨-, -, ⟨hrendered, -⟩ | ⟨-, location, file, page, hlocation, hfile, hfresh, hpage, hserved⟩⟩ :=
    hgiven
  · exact Or.inl hrendered
  · rcases hpage with hbefore | hnow
    · exact Or.inr ⟨location, file, page, hlocation, hfile, hfresh, hbefore, hserved⟩
    · exact Or.inl (hserved.trans hnow.symm)

/-- An action leaves a sound session, and of the outputs whatever holds of those that were kept before and
of the one that it keeps. -/
theorem perform_sound (hkept : session.work.engine.outputs.Holds P) (action : Action)
    (htexts : action.texts ⊆ texts)
    (hnew : ∀ request, action = .page request → ∀ text location tree modified,
      (engine.fileOutput shared session.site request.path request.extra true
        session.work.shared.decisions).1 = .ok text →
      locate engine.settings session.site.disk request.path true = .ok location →
      parsedFile engine.settings session.site.disk location = .ok (tree, modified) →
      (session.page request).2.work.shared.decisions = (engine.fileOutput shared session.site
        request.path request.extra true session.work.shared.decisions).2 →
      P (engine.outputKey shared request.key request.mindsData request.extra)
        ⟨text, request.expiry, modified⟩) :
    (session.perform action).Sound engine shared disks texts ∧
      (session.perform action).work.engine.outputs.Holds P := by
  unfold perform
  cases action with
  | call call =>
      obtain ⟨-, hsound, houtputs⟩ := answer_sound known hdisk h call htexts
      dsimp only
      rw [houtputs]
      exact ⟨hsound, hkept⟩
  | page request =>
      obtain ⟨hsound, houtputs, -⟩ := page_sound known hdisk h hkept request (hnew request rfl)
      dsimp only
      exact ⟨hsound, houtputs⟩
  | clear =>
      exact ⟨⟨{ h.work with shelf := Shelf.sound_clear }, h.prepared⟩, Cache.holds_clear⟩
  | invalidate key => exact ⟨⟨{ h.work with }, h.prepared⟩, Cache.holds_erase hkept key⟩
  | invalidateStart start =>
      exact ⟨⟨{ h.work with }, h.prepared⟩, Cache.holds_filterKeys hkept fun key => !start.toList.isPrefixOf key.toList⟩
  | _ => exact ⟨⟨h.work, h.prepared⟩, hkept⟩

end Steps

/-- A session of a new engine is sound after every history, and the outputs it keeps are as they were
when they were kept. -/
theorem after_sound (kept : History → String → Page → Prop) {history : History}
    (known : Known (site.disk.states history) texts) (htexts : site.disk.textsIn history ⊆ texts)
    (hkept : ∀ action earlier key page, kept earlier key page → kept (action :: earlier) key page)
    (hnew : ∀ request earlier, .page request :: earlier <:+ history →
      let session := (opened engine shared site).after earlier
      ∀ text location tree modified,
      (engine.fileOutput shared session.site request.path request.extra true
        session.work.shared.decisions).1 = .ok text →
      locate engine.settings session.site.disk request.path true = .ok location →
      parsedFile engine.settings session.site.disk location = .ok (tree, modified) →
      (session.page request).2.work.shared.decisions = (engine.fileOutput shared session.site
        request.path request.extra true session.work.shared.decisions).2 →
      kept (.page request :: earlier)
        (engine.outputKey shared request.key request.mindsData request.extra)
        ⟨text, request.expiry, modified⟩) :
    ((opened engine shared site).after history).Sound engine shared (site.disk.states history) texts ∧
      ((opened engine shared site).after history).work.engine.outputs.Holds (kept history) := by
  induction history with
  | nil => exact ⟨sound_opened, fun _ hmem => absurd hmem List.not_mem_nil⟩
  | cons action earlier ih =>
      have hstates : site.disk.states earlier ⊆ site.disk.states (action :: earlier) :=
        List.subset_cons_self ..
      have hactions : action.texts ⊆ texts := fun text htext =>
        htexts (List.mem_append_right _ (List.mem_append_left _ htext))
      have hearlier : site.disk.textsIn earlier ⊆ texts := by
        intro text htext
        rcases List.mem_append.1 htext with hdisk | hlater
        · exact htexts (List.mem_append_left _ hdisk)
        · exact htexts (List.mem_append_right _ (List.mem_append_right _ hlater))
      obtain ⟨hsound, houtputs⟩ := ih (known.mono hstates) hearlier fun request earlier' hsuffix =>
        hnew request earlier' (hsuffix.trans (List.suffix_cons action earlier))
      have hdisk : ((opened engine shared site).after earlier).site.disk ∈
          site.disk.states (action :: earlier) := by
        rw [(after_site _ _).2]
        exact hstates (site.disk.after_mem_states earlier)
      refine perform_sound known hdisk (hsound.mono hstates) ?_ action hactions ?_
      · exact fun entry hmem => hkept action earlier _ _ (houtputs entry hmem)
      · rintro request rfl
        exact hnew request earlier (List.suffix_refl _)

end Session

end Stencil
