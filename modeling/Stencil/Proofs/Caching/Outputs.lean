import Stencil.Proofs.Caching.Pages

/-!
A page as it is served or rendered. What is served was kept and is fresh, and serving it changes the cache of
outputs alone. What is not served is rendered as any file is; the output is kept if there is one.
-/

namespace Stencil

open Template

/-- The work with other outputs. -/
def Work.withOutputs (work : Work) (outputs : Cache String Page) : Work :=
  { work with engine := { work.engine with outputs } }

/-- The work with another shelf. -/
def Work.withShelf (work : Work) (shelf : Shelf) : Work :=
  { work with engine := { work.engine with shelf } }

namespace Engine

variable {site : Site}

/-- All that an engine does without its cache of outputs leaves the outputs as they are. -/
theorem passage_outputs : Passage fun before after => after.engine.outputs = before.engine.outputs where
  refl _ := rfl
  trans h h' := h'.trans h
  shelved _ _ := rfl
  rendered _ _ _ _ := rfl

theorem shelving_run {α : Type} (step : Shelving α) (work : Work) :
    shelving step work =
      ((step work.engine.shelf).1, work.withShelf (step work.engine.shelf).2) := rfl

/-- The output of the file at a location, and the file's time of last change. -/
def datedOutput (site : Site) (settings : Settings) (location : Disk.Location) (extra : Variables) :
    Working (String × Int) := do
  let (tree, modified) ← shelving (Shelf.treeOfFile settings site.disk location)
  let output ← renderTree site tree extra
  return (output, modified)

section Runs

variable (settings : Settings) (location : Disk.Location) (extra : Variables) (work : Work)

theorem datedOutput_run :
    datedOutput site settings location extra work =
      match Shelf.treeOfFile settings site.disk location work.engine.shelf with
      | (.error fault, shelf) => (.error fault, work.withShelf shelf)
      | (.ok (tree, modified), shelf) =>
          match renderTree site tree extra (work.withShelf shelf) with
          | (.error fault, after) => (.error fault, after)
          | (.ok output, after) => (.ok (output, modified), after) := by
  unfold datedOutput
  rw [run_bind, shelving_run]
  rcases Shelf.treeOfFile settings site.disk location work.engine.shelf with ⟨fault | found, shelf⟩
  · rfl
  · dsimp only
    rw [run_bind]
    rcases renderTree site found.1 extra (work.withShelf shelf) with ⟨fault | output, after⟩
    · rfl
    · rfl

theorem keptOutput_run (key : String) (expiry : Option Int) :
    keptOutput site settings location key expiry extra work =
      match datedOutput site settings location extra work with
      | (.error fault, after) => (.error fault, after)
      | (.ok (output, modified), after) =>
          (.ok output, after.withOutputs (after.engine.outputs.insert key ⟨output, expiry, modified⟩)) := by
  have hdated : keptOutput site settings location key expiry extra = do
      let (output, modified) ← datedOutput site settings location extra
      modify fun work => work.withOutputs (work.engine.outputs.insert key ⟨output, expiry, modified⟩)
      return output := by
    unfold keptOutput datedOutput
    rw [bind_assoc]
    refine bind_congr fun found => ?_
    rw [bind_assoc]
    rfl
  rw [hdated, run_bind]
  rcases datedOutput site settings location extra work with ⟨fault | ⟨output, modified⟩, after⟩
  · rfl
  · rfl

theorem renderFile_run (path : String) (isPage : Bool) :
    renderFile site path extra isPage work =
      match locate work.engine.settings site.disk path isPage with
      | .error fault => (.error fault, work)
      | .ok location =>
          match datedOutput site work.engine.settings location extra work with
          | (.error fault, after) => (.error fault, after)
          | (.ok (output, _), after) => (.ok output, after) := by
  have hdated (location : Disk.Location) :
      (do let (tree, _) ← shelving (Shelf.treeOfFile work.engine.settings site.disk location)
          renderTree site tree extra) = do
        let (output, _) ← datedOutput site work.engine.settings location extra
        return output := by
    unfold datedOutput
    rw [bind_assoc]
    refine bind_congr fun found => ?_
    rw [bind_assoc]
    exact (bind_pure _).symm
  unfold renderFile
  rw [run_get_bind, run_bind, run_liftExcept]
  cases locate work.engine.settings site.disk path isPage with
  | error fault => rfl
  | ok location =>
      dsimp only
      rw [hdated, run_bind]
      rcases datedOutput site work.engine.settings location extra work with
        ⟨fault | ⟨output, modified⟩, after⟩
      · rfl
      · rfl

variable {settings location extra work}

theorem file?_of_datedOutput {output : String} {modified : Int}
    (h : (datedOutput site settings location extra work).1 = .ok (output, modified)) :
    ∃ file, site.disk.file? location = some file ∧ file.modified = modified := by
  rw [datedOutput_run] at h
  rcases htree : Shelf.treeOfFile settings site.disk location work.engine.shelf with
    ⟨fault | ⟨tree, time⟩, shelf⟩
  · rw [htree] at h
    cases h
  · rw [htree] at h
    dsimp only at h
    split at h
    · cases h
    · cases h
      exact Shelf.file?_of_treeOfFile (congrArg Prod.fst htree)

/-- A render does not look at the outputs that are kept. -/
theorem renderTree_withOutputs (tree : Markup.Tree) (outputs : Cache String Page) :
    renderTree site tree extra (work.withOutputs outputs) =
      ((renderTree site tree extra work).1,
        (renderTree site tree extra work).2.withOutputs outputs) := rfl

theorem datedOutput_withOutputs (outputs : Cache String Page) :
    datedOutput site settings location extra (work.withOutputs outputs) =
      ((datedOutput site settings location extra work).1,
        (datedOutput site settings location extra work).2.withOutputs outputs) := by
  have hshelf : (work.withOutputs outputs).engine.shelf = work.engine.shelf := rfl
  have hwork (shelf : Shelf) : (work.withOutputs outputs).withShelf shelf =
      (work.withShelf shelf).withOutputs outputs := rfl
  rw [datedOutput_run, datedOutput_run, hshelf]
  rcases Shelf.treeOfFile settings site.disk location work.engine.shelf with ⟨fault | found, shelf⟩
  · rfl
  · dsimp only
    rw [hwork, renderTree_withOutputs]
    rcases renderTree site found.1 extra (work.withShelf shelf) with ⟨fault | output, after⟩
    · rfl
    · rfl

end Runs

end Engine

namespace Session

/-- The session with other outputs. -/
def withOutputs (session : Session) (outputs : Cache String Page) : Session :=
  { session with work := session.work.withOutputs outputs }

/-- The key under which a page is looked for and kept. -/
def outputKey (session : Session) (request : PageRequest) : String :=
  session.work.engine.outputKey session.work.shared request.key request.mindsData request.extra

/-- The time of last change of the file of a page. -/
def time? (session : Session) (request : PageRequest) : Option Int :=
  pageTime? session.work.engine.settings session.site.disk request.path

/-- The output of the file of a page, and the session after it is rendered. -/
def rendering (session : Session) (request : PageRequest) : Except Fault String × Session :=
  session.run (Engine.renderFile session.site request.path request.extra true)

/-- The page that is kept for a request, if it is fresh, and the session after the look for it. -/
def look (session : Session) (request : PageRequest) : Option Page × Session :=
  match session.time? request with
  | none => (none, session)
  | some modified =>
      let (page, outputs) := session.work.engine.outputs.lookupIf
        (·.isFresh session.site.now modified) (session.outputKey request)
      (page, session.withOutputs outputs)

variable {session : Session} {request : PageRequest}

theorem rendering_outputs {result : Except Fault String} {last : Session}
    (h : session.rendering request = (result, last)) :
    last.work.engine.outputs = session.work.engine.outputs := by
  obtain rfl : (session.rendering request).2 = last := congrArg Prod.snd h
  exact run_passes (Engine.passes_renderFile Engine.passage_outputs request.path request.extra true)
    session

theorem rendering_withOutputs (outputs : Cache String Page) :
    ((session.withOutputs outputs).rendering request).1 = (session.rendering request).1 := by
  unfold rendering run
  dsimp only
  have hsettings : (session.work.withOutputs outputs).engine.settings = session.work.engine.settings :=
    rfl
  change (Engine.renderFile session.site request.path request.extra true
    (session.work.withOutputs outputs)).1 = _
  rw [Engine.renderFile_run, Engine.renderFile_run, hsettings]
  cases locate session.work.engine.settings session.site.disk request.path true with
  | error fault => rfl
  | ok location =>
      dsimp only
      rw [Engine.datedOutput_withOutputs]
      rcases Engine.datedOutput session.site session.work.engine.settings location request.extra
        session.work with ⟨fault | ⟨output, modified⟩, after⟩
      · rfl
      · rfl

variable (session request)

/-- A page that is not served is rendered; its output is kept with the time of last change of its file. -/
theorem keptOutput_cases {location : Disk.Location}
    (hlocation : locate session.work.engine.settings session.site.disk request.path true = .ok location)
    (key : String) :
    let kept := session.run (Engine.keptOutput session.site session.work.engine.settings location key
      request.expiry request.extra)
    (∃ fault last, session.rendering request = (.error fault, last) ∧ kept = (.error fault, last)) ∨
      ∃ text modified last, session.rendering request = (.ok text, last) ∧
        session.time? request = some modified ∧
        kept = (.ok text, last.withOutputs
          (last.work.engine.outputs.insert key ⟨text, request.expiry, modified⟩)) := by
  intro kept
  rcases hdated : Engine.datedOutput session.site session.work.engine.settings location request.extra
    session.work with ⟨fault | ⟨text, modified⟩, after⟩
  · refine Or.inl ⟨fault, { session with work := after }, ?_, ?_⟩
    · unfold rendering run
      rw [Engine.renderFile_run, hlocation]
      dsimp only
      rw [hdated]
    · change session.run _ = _
      unfold run
      rw [Engine.keptOutput_run, hdated]
  · refine Or.inr ⟨text, modified, { session with work := after }, ?_, ?_, ?_⟩
    · unfold rendering run
      rw [Engine.renderFile_run, hlocation]
      dsimp only
      rw [hdated]
    · obtain ⟨file, hfile, rfl⟩ := Engine.file?_of_datedOutput (congrArg Prod.fst hdated)
      exact pageTime?_eq_some hlocation hfile
    · change session.run _ = _
      unfold run
      rw [Engine.keptOutput_run, hdated]
      rfl

theorem page_run :
    session.page request =
      match locate session.work.engine.settings session.site.disk request.path true with
      | .error fault => (.error fault, session)
      | .ok location =>
          match session.look request with
          | (some page, after) => (.ok page.text, after)
          | (none, after) =>
              after.run (Engine.keptOutput after.site after.work.engine.settings location
                (session.outputKey request) request.expiry request.extra) := by
  unfold page run look time? pageTime? outputKey
  rw [Engine.renderCached_run]
  cases locate session.work.engine.settings session.site.disk request.path true with
  | error fault => rfl
  | ok location =>
      dsimp only
      cases session.site.disk.file? location with
      | none => rfl
      | some file =>
          dsimp only [Option.map_some]
          rcases session.work.engine.outputs.lookupIf (·.isFresh session.site.now file.modified)
            (session.work.engine.outputKey session.work.shared request.key request.mindsData
              request.extra) with ⟨- | page, outputs⟩
          · rfl
          · rfl

/-- The look for a page changes the outputs alone. -/
theorem exists_look : ∃ outputs, (session.look request).2 = session.withOutputs outputs := by
  unfold look
  split
  · exact ⟨session.work.engine.outputs, rfl⟩
  · exact ⟨_, rfl⟩

variable {session}

/-- A page that is found was kept under its key and is fresh. -/
theorem holds_look {P : String → Page → Prop} (h : session.work.engine.outputs.Holds P) :
    (∀ page ∈ (session.look request).1, P (session.outputKey request) page ∧
        (∀ expiry ∈ page.expiry, session.site.now < expiry) ∧
        session.time? request = some page.modified) ∧
      (session.look request).2.work.engine.outputs.Holds P := by
  unfold look
  cases htime : session.time? request with
  | none => exact ⟨fun _ hmem => (nomatch hmem), h⟩
  | some modified =>
      obtain ⟨hfound, hafter⟩ := Cache.holds_lookupIf h (·.isFresh session.site.now modified)
        (session.outputKey request)
      refine ⟨fun page hpage => ?_, hafter⟩
      obtain ⟨hfresh, hkept⟩ := hfound page hpage
      unfold Page.isFresh at hfresh
      obtain ⟨hexpiry, hmodified⟩ := Bool.and_eq_true_iff.1 hfresh
      refine ⟨hkept, fun expiry hmem => ?_, congrArg some (eq_of_beq hmodified).symm⟩
      rw [Option.mem_def.1 hmem] at hexpiry
      exact of_decide_eq_true hexpiry

variable {request}

/-- A look that finds nothing puts nothing among the outputs. -/
theorem look_entries (h : (session.look request).1 = none) :
    (session.look request).2.work.engine.outputs.entries ⊆ session.work.engine.outputs.entries := by
  unfold look at h ⊢
  cases htime : session.time? request with
  | none => exact List.Subset.refl _
  | some modified =>
      rw [htime] at h
      exact Cache.lookupIf_entries h

variable (session request)

/-- A page is served, or rendered with a fault, or rendered and kept. -/
theorem page_cases :
    (∃ page after, session.look request = (some page, after) ∧
      session.page request = (.ok page.text, after)) ∨
    ∃ after, session.look request = (none, after) ∧
      ((∃ fault last, after.rendering request = (.error fault, last) ∧
          session.page request = (.error fault, last)) ∨
        ∃ text modified last, after.rendering request = (.ok text, last) ∧
          session.time? request = some modified ∧
          session.page request = (.ok text, last.withOutputs (last.work.engine.outputs.insert
            (session.outputKey request) ⟨text, request.expiry, modified⟩))) := by
  rw [page_run]
  obtain ⟨outputs, hlook⟩ := session.exists_look request
  cases hlocation : locate session.work.engine.settings session.site.disk request.path true with
  | error fault =>
      have hmissed : session.look request = (none, session) := by
        unfold look time? pageTime?
        rw [hlocation]
      refine Or.inr ⟨session, hmissed, Or.inl ⟨fault, session, ?_, rfl⟩⟩
      unfold rendering run
      rw [Engine.renderFile_run, hlocation]
  | ok location =>
      rcases hfound : session.look request with ⟨- | page, after⟩
      · rw [hfound] at hlook
        obtain rfl : after = session.withOutputs outputs := hlook
        exact Or.inr ⟨_, rfl, keptOutput_cases (session.withOutputs outputs) request hlocation _⟩
      · exact Or.inl ⟨page, after, rfl, rfl⟩

end Session

end Stencil
