import Stencil.Engine
import Stencil.Proofs.Caching.Shelf
import Stencil.Proofs.Rendering.Alike

/-!
What an engine gives does not depend on what it has at hand. Its work is compared with a reckoning: the
same work with every template read and parsed again, in which only the decisions on host objects are
remembered. Whatever is at hand, as long as it is sound, the work gives what the reckoning gives, and
leaves everything but the shelf and these decisions as it was.
-/

namespace Stencil

open Markup Template

/-- Work that has nothing at hand and remembers decisions only. -/
abbrev Reckoning := ExceptT Fault (StateM Decisions)

namespace Engine

/-- What stays the same in the renders of an engine. -/
def renderer (engine : Engine) (shared : Shared) (site : Site) : Renderer Shelf where
  security := engine.settings.security
  host := site.host
  ownFilters := engine.filters
  sharedFilters := shared.filters
  loader := engine.treeLoader site
  hooks := engine.hooks

/-- The output of a tree, with nothing at hand. -/
def treeOutput (engine : Engine) (shared : Shared) (site : Site) (tree : Tree) (extra : Variables) :
    Reckoning String := fun decisions =>
  let outcome := Render.run (engine.renderer shared site) tree (engine.environment shared extra)
    engine.vars ⟨decisions, []⟩ (Shelf.empty engine.settings.cache)
  (outcome.output, outcome.memory.decisions)

/-- The output of a template, with nothing at hand. -/
def output (engine : Engine) (shared : Shared) (site : Site) (template : String) (extra : Variables) :
    Reckoning String := do
  let (_, tree) ← liftExcept (parsed engine.settings template)
  engine.treeOutput shared site tree extra

/-- A prepared template, with nothing at hand. -/
def preparation (engine : Engine) (template : String) : Reckoning Prepared := do
  let (key, tree) ← liftExcept (parsed engine.settings template)
  return ⟨key, tree⟩

/-- The output of a file, with nothing at hand. -/
def fileOutput (engine : Engine) (shared : Shared) (site : Site) (path : String) (extra : Variables)
    (isPage : Bool) : Reckoning String := do
  let location ← liftExcept (locate engine.settings site.disk path isPage)
  let (tree, _) ← liftExcept (parsedFile engine.settings site.disk location)
  engine.treeOutput shared site tree extra

end Engine

/-- Work of an engine: only what is at hand and the decisions remembered have changed. -/
structure Work.Sound (engine : Engine) (shared : Shared) (disks : List Disk) (texts : List String)
    (work : Work) : Prop where
  settings : work.engine.settings = engine.settings
  vars : work.engine.vars = engine.vars
  filters : work.engine.filters = engine.filters
  loader : work.engine.loader = engine.loader
  hooks : work.engine.hooks = engine.hooks
  globals : work.shared.globals = shared.globals
  sharedFilters : work.shared.filters = shared.filters
  shelf : work.engine.shelf.Sound engine.settings disks texts

theorem Work.Sound.environment {engine : Engine} {shared : Shared} {disks : List Disk}
    {texts : List String} {work : Work} (h : work.Sound engine shared disks texts) (extra : Variables) :
    work.engine.environment work.shared extra = engine.environment shared extra := by
  unfold Engine.environment
  rw [h.globals, h.vars]

theorem Work.Sound.renderer {engine : Engine} {shared : Shared} {disks : List Disk}
    {texts : List String} {work : Work} (h : work.Sound engine shared disks texts) (site : Site) :
    work.engine.renderer work.shared site = engine.renderer shared site := by
  unfold Engine.renderer Engine.treeLoader
  rw [h.settings, h.filters, h.sharedFilters, h.loader, h.hooks]

namespace Engine

variable {engine : Engine} {shared : Shared} {site : Site} {disks : List Disk} {texts : List String}
  {α β : Type}

/-- Work that gives what a reckoning gives, whatever is at hand, and leaves the cache of outputs as it
was. -/
def Gives (engine : Engine) (shared : Shared) (disks : List Disk) (texts : List String)
    (expected : Reckoning α) (job : Working α) : Prop :=
  ∀ work : Work, work.Sound engine shared disks texts →
    (job work).1 = (expected work.shared.decisions).1 ∧
      (job work).2.shared.decisions = (expected work.shared.decisions).2 ∧
      (job work).2.Sound engine shared disks texts ∧
      (job work).2.engine.outputs = work.engine.outputs

theorem gives_pure (value : α) : Gives engine shared disks texts (pure value) (pure value) :=
  fun _ h => ⟨rfl, rfl, h, rfl⟩

theorem Gives.bind {expected : Reckoning α} {job : Working α} {rest : α → Reckoning β}
    {next : α → Working β} (h : Gives engine shared disks texts expected job)
    (hnext : ∀ value, Gives engine shared disks texts (rest value) (next value)) :
    Gives engine shared disks texts (expected >>= rest) (job >>= next) := by
  intro work hwork
  obtain ⟨hanswer, hdecisions, hsound, houtputs⟩ := h work hwork
  rw [run_bind, run_bind]
  rcases hrun : job work with ⟨result, after⟩
  rcases hrun' : expected work.shared.decisions with ⟨result', decisions⟩
  simp only [hrun, hrun'] at hanswer hdecisions hsound houtputs
  subst hanswer hdecisions
  cases result with
  | error fault => exact ⟨rfl, rfl, hsound, houtputs⟩
  | ok value =>
      obtain ⟨hanswer', hdecisions', hsound', houtputs'⟩ := hnext value after hsound
      exact ⟨hanswer', hdecisions', hsound', houtputs'.trans houtputs⟩

theorem gives_liftExcept (result : Except Fault α) :
    Gives engine shared disks texts (liftExcept result) (liftExcept result) := by
  cases result with
  | error fault => exact fun _ h => ⟨rfl, rfl, h, rfl⟩
  | ok value => exact gives_pure value

/-- The settings never change. -/
theorem gives_settings {expected : Reckoning α} (job : Settings → Working α)
    (h : Gives engine shared disks texts expected (job engine.settings)) :
    Gives engine shared disks texts expected (get >>= fun work => job work.engine.settings) := by
  intro work hwork
  rw [run_get_bind, hwork.settings]
  exact h work hwork

theorem gives_shelving {expected : Except Fault α} {step : Shelving α}
    (h : Shelf.Gives engine.settings disks texts expected step) :
    Gives engine shared disks texts (liftExcept expected) (shelving step) := by
  intro work hwork
  obtain ⟨hanswer, hsound⟩ := h work.engine.shelf hwork.shelf
  rw [run_liftExcept]
  exact ⟨hanswer, rfl, { hwork with shelf := hsound }, rfl⟩

section Site

variable (known : Known disks texts) (hdisk : site.disk ∈ disks)

include known hdisk

omit known hdisk in
theorem renderTree_run (work : Work) (tree : Tree) (extra : Variables) :
    renderTree site tree extra work =
      let outcome := Render.run (work.engine.renderer work.shared site) tree
        (work.engine.environment work.shared extra) work.engine.vars
        ⟨work.shared.decisions, work.trail⟩ work.engine.shelf
      (outcome.output, {
        engine := { work.engine with vars := outcome.store, shelf := outcome.loaded }
        shared := { work.shared with decisions := outcome.memory.decisions }
        trail := outcome.memory.trail }) := rfl

omit known hdisk in
theorem renderer_load (h : engine.loader = none) (path : String) :
    (engine.renderer shared site).loader.load path = Shelf.component? engine.settings site.disk path := by
  unfold renderer treeLoader fileLoader
  rw [h]

/-- On two disks with the same component at a path, the loader gives the same whatever is at hand. -/
theorem load_alike {site' : Site} (hdisk' : site'.disk ∈ disks) {path : String}
    (hcomponent : parsedComponent engine.settings site.disk path =
      parsedComponent engine.settings site'.disk path) {shelf other : Shelf}
    (hshelf : shelf.Sound engine.settings disks texts)
    (hother : other.Sound engine.settings disks texts) :
    ((engine.renderer shared site).loader.load path shelf).1 =
        ((engine.renderer shared site').loader.load path other).1 ∧
      ((engine.renderer shared site).loader.load path shelf).2.Sound engine.settings disks texts ∧
      ((engine.renderer shared site').loader.load path other).2.Sound engine.settings disks texts := by
  unfold renderer treeLoader
  cases engine.loader with
  | some load =>
      cases hload : load path with
      | error fault => exact ⟨by simp only [hload]; rfl, by simp only [hload]; exact ⟨hshelf, hother⟩⟩
      | ok found => exact ⟨by simp only [hload]; rfl, by simp only [hload]; exact ⟨hshelf, hother⟩⟩
  | none =>
      obtain ⟨hanswer, hafter⟩ := Shelf.gives_component known hdisk path shelf hshelf
      obtain ⟨hanswer', hafter'⟩ := Shelf.gives_component known hdisk' path other hother
      exact ⟨hanswer.trans (hcomponent.trans hanswer'.symm), hafter, hafter'⟩

theorem gives_renderTree (tree : Tree) (extra : Variables) :
    Gives engine shared disks texts (engine.treeOutput shared site tree extra)
      (renderTree site tree extra) := by
  intro work hwork
  have hempty : (Shelf.empty engine.settings.cache).Sound engine.settings disks texts :=
    Shelf.sound_empty _
  have holds : Likeness.Holds (Render.ofLoaders .same (fun shelf other : Shelf =>
      shelf.Sound engine.settings disks texts ∧ other.Sound engine.settings disks texts) fun _ => True)
      (engine.renderer shared site) (engine.renderer shared site) :=
    Render.holds_ofLoaders Resolver.Accord.lasting_same rfl rfl (fun _ _ => id)
      fun path _ _ hshelves _ => load_alike known hdisk hdisk rfl hshelves.1 hshelves.2
  obtain ⟨houtput, hstore, hdecisions, hshelf, -⟩ := Render.run_alike holds tree engine.vars
    ⟨work.shared.decisions, work.trail⟩ ⟨work.shared.decisions, []⟩
    (rfl : engine.environment shared extra = _) rfl ⟨hwork.shelf, hempty⟩ trivial trivial
  rw [renderTree_run, hwork.renderer, hwork.environment, hwork.vars]
  exact ⟨houtput, hdecisions, { hwork with vars := hstore, shelf := hshelf }, rfl⟩

theorem gives_render {template : String} (htemplate : template ∈ texts) (extra : Variables) :
    Gives engine shared disks texts (engine.output shared site template extra)
      (render site template extra) := by
  refine gives_settings (fun settings => do
    let (_, tree) ← shelving (Shelf.compile settings template)
    renderTree site tree extra) ?_
  exact (gives_shelving (Shelf.gives_compile known htemplate)).bind fun found =>
    gives_renderTree known hdisk found.2 extra

omit hdisk in
theorem gives_prepare {template : String} (htemplate : template ∈ texts) :
    Gives engine shared disks texts (engine.preparation template) (prepare template) := by
  refine gives_settings (fun settings => do
    let (key, tree) ← shelving (Shelf.compile settings template)
    return Prepared.mk key tree) ?_
  exact (gives_shelving (Shelf.gives_compile known htemplate)).bind fun found => gives_pure _

theorem gives_renderFile (path : String) (extra : Variables) (isPage : Bool) :
    Gives engine shared disks texts (engine.fileOutput shared site path extra isPage)
      (renderFile site path extra isPage) := by
  refine gives_settings (fun settings => do
    let location ← liftExcept (locate settings site.disk path isPage)
    let (tree, _) ← shelving (Shelf.treeOfFile settings site.disk location)
    renderTree site tree extra) ?_
  refine (gives_liftExcept _).bind fun location => ?_
  exact (gives_shelving (Shelf.gives_treeOfFile known hdisk location)).bind fun found =>
    gives_renderTree known hdisk found.1 extra

/-- The output of a page whose file is at a location, which is then kept under a key. -/
def keptOutput (site : Site) (settings : Settings) (location : Disk.Location) (key : String)
    (expiry : Option Int) (extra : Variables) : Working String := do
  let (tree, modified) ← shelving (Shelf.treeOfFile settings site.disk location)
  let output ← renderTree site tree extra
  modify fun work =>
    let outputs := work.engine.outputs.insert key ⟨output, expiry, modified⟩
    { work with engine := { work.engine with outputs } }
  return output

omit known hdisk in
theorem renderCached_run (work : Work) (path key : String) (expiry : Option Int) (mindsData : Bool)
    (extra : Variables) :
    renderCached site path key expiry mindsData extra work =
      match locate work.engine.settings site.disk path true with
      | .error fault => (.error fault, work)
      | .ok location =>
          let key := work.engine.outputKey work.shared key mindsData extra
          match site.disk.file? location with
          | none => keptOutput site work.engine.settings location key expiry extra work
          | some file =>
              match work.engine.outputs.lookupIf (·.isFresh site.now file.modified) key with
              | (some page, outputs) =>
                  (.ok page.text, { work with engine := { work.engine with outputs } })
              | (none, outputs) =>
                  keptOutput site work.engine.settings location key expiry extra
                    { work with engine := { work.engine with outputs } } := by
  unfold renderCached
  rw [run_get_bind]
  dsimp only
  rw [run_bind, run_liftExcept]
  cases locate work.engine.settings site.disk path true with
  | error fault => rfl
  | ok location =>
      dsimp only
      cases site.disk.file? location with
      | none => rfl
      | some file =>
          dsimp only
          rw [run_bind]
          unfold cachedPage
          dsimp only
          rcases work.engine.outputs.lookupIf (·.isFresh site.now file.modified)
            (work.engine.outputKey work.shared key mindsData extra) with ⟨- | page, outputs⟩
          · rfl
          · rfl

/-- A page that is not at hand is rendered as without the cache, and then kept. -/
theorem keptOutput_gives {P : String → Page → Prop} {work : Work}
    (hwork : work.Sound engine shared disks texts) (hkept : work.engine.outputs.Holds P)
    (location : Disk.Location) (key : String) (expiry : Option Int) (extra : Variables)
    {expected : Reckoning String}
    (hexpected : expected = do
      let (tree, _) ← liftExcept (parsedFile engine.settings site.disk location)
      engine.treeOutput shared site tree extra) :
    ∀ done, done = keptOutput site engine.settings location key expiry extra work →
      (∀ text tree modified, (expected work.shared.decisions).1 = .ok text →
        parsedFile engine.settings site.disk location = .ok (tree, modified) →
        done.2.shared.decisions = (expected work.shared.decisions).2 →
        P key ⟨text, expiry, modified⟩) →
      done.1 = (expected work.shared.decisions).1 ∧
        done.2.shared.decisions = (expected work.shared.decisions).2 ∧
        done.2.Sound engine shared disks texts ∧ done.2.engine.outputs.Holds P := by
  intro done hdone hnew
  subst hexpected
  have hgives : Gives engine shared disks texts _ _ :=
    gives_shelving (Shelf.gives_treeOfFile known hdisk location)
  obtain ⟨hfound, hdecisions, hsound, houtputs⟩ := hgives work hwork
  unfold keptOutput at hdone
  rw [run_bind] at hdone hnew ⊢
  rw [run_liftExcept] at hfound hdecisions hnew ⊢
  rcases hrun : shelving (Shelf.treeOfFile engine.settings site.disk location) work with ⟨result, after⟩
  simp only [hrun] at hfound hdecisions hsound houtputs hdone
  subst hfound
  cases hparsed : parsedFile engine.settings site.disk location with
  | error fault =>
      rw [hparsed] at hdone
      subst hdone
      exact ⟨rfl, hdecisions, hsound, houtputs ▸ hkept⟩
  | ok found =>
      obtain ⟨tree, modified⟩ := found
      obtain ⟨houtput, hdecisions', hsound', houtputs'⟩ :=
        gives_renderTree known hdisk tree extra after hsound
      simp only [hparsed] at hnew hdone
      rw [← hdecisions] at hnew
      dsimp only at hdecisions ⊢
      rw [run_bind] at hdone
      rw [← hdecisions]
      rcases hrun' : renderTree site tree extra after with ⟨result', last⟩
      simp only [hrun'] at houtput hdecisions' hsound' houtputs' hdone
      cases result' with
      | error fault =>
          subst hdone
          exact ⟨houtput, hdecisions', hsound', houtputs' ▸ houtputs ▸ hkept⟩
      | ok text =>
          subst hdone
          refine ⟨houtput, hdecisions', { hsound' with }, ?_⟩
          exact Cache.holds_insert (houtputs' ▸ houtputs ▸ hkept)
            (hnew text tree modified houtput.symm rfl hdecisions')

omit known hdisk in
/-- A page that was rendered is kept with the time of last change that its file had. -/
theorem keptOutput_keeps (settings : Settings) (location : Disk.Location) (key : String)
    (expiry : Option Int) (extra : Variables) (work : Work) :
    ∀ done, done = keptOutput site settings location key expiry extra work →
      ∀ text, done.1 = .ok text → ∃ tree modified,
        (Shelf.treeOfFile settings site.disk location work.engine.shelf).1 = .ok (tree, modified) ∧
          done.2.engine.outputs = work.engine.outputs.insert key ⟨text, expiry, modified⟩ := by
  intro done hdone text htext
  unfold keptOutput at hdone
  rw [run_bind] at hdone
  unfold shelving at hdone
  rcases hfound : Shelf.treeOfFile settings site.disk location work.engine.shelf with ⟨fault | found, shelf⟩
  · rw [hfound] at hdone
    subst hdone
    cases htext
  · rw [hfound] at hdone
    dsimp only at hdone
    rw [run_bind, renderTree_run] at hdone
    dsimp only at hdone
    split at hdone
    next output after hrun =>
      obtain ⟨-, rfl⟩ := Prod.mk.inj hrun
      subst hdone
      obtain rfl : output = text := Except.ok.inj htext
      exact ⟨found.1, found.2, rfl, rfl⟩
    next =>
      subst hdone
      cases htext

omit known hdisk in
theorem fileOutput_run (path : String) (extra : Variables) (isPage : Bool) (decisions : Decisions) :
    engine.fileOutput shared site path extra isPage decisions =
      match locate engine.settings site.disk path isPage with
      | .error fault => (.error fault, decisions)
      | .ok location =>
          (do let (tree, _) ← liftExcept (parsedFile engine.settings site.disk location)
              engine.treeOutput shared site tree extra : Reckoning String) decisions := by
  unfold fileOutput
  rw [run_bind, run_liftExcept]
  cases locate engine.settings site.disk path isPage with
  | error fault => rfl
  | ok location => rfl

omit known hdisk in
theorem fileOutput_of_parsed {path : String} {isPage : Bool} {location : Disk.Location} {tree : Tree}
    {modified : Int} (hlocation : locate engine.settings site.disk path isPage = .ok location)
    (hparsed : parsedFile engine.settings site.disk location = .ok (tree, modified))
    (extra : Variables) (decisions : Decisions) :
    engine.fileOutput shared site path extra isPage decisions =
      engine.treeOutput shared site tree extra decisions := by
  rw [fileOutput_run, hlocation]
  dsimp only
  rw [run_bind, run_liftExcept, hparsed]

/-- A page is rendered as without the cache, or it is one of those kept under its key and fresh. -/
theorem renderCached_gives {P : String → Page → Prop} {work : Work}
    (hwork : work.Sound engine shared disks texts) (hkept : work.engine.outputs.Holds P)
    (path key : String) (expiry : Option Int) (mindsData : Bool) (extra : Variables) :
    ∀ done, done = renderCached site path key expiry mindsData extra work →
      (∀ text location tree modified,
        (engine.fileOutput shared site path extra true work.shared.decisions).1 = .ok text →
        locate engine.settings site.disk path true = .ok location →
        parsedFile engine.settings site.disk location = .ok (tree, modified) →
        done.2.shared.decisions =
          (engine.fileOutput shared site path extra true work.shared.decisions).2 →
        P (engine.outputKey shared key mindsData extra) ⟨text, expiry, modified⟩) →
      done.2.Sound engine shared disks texts ∧ done.2.engine.outputs.Holds P ∧
        (done.1 = (engine.fileOutput shared site path extra true work.shared.decisions).1 ∧
            done.2.shared.decisions =
              (engine.fileOutput shared site path extra true work.shared.decisions).2 ∨
          done.2.shared.decisions = work.shared.decisions ∧
            ∃ location file page, locate engine.settings site.disk path true = .ok location ∧
              site.disk.file? location = some file ∧ page.isFresh site.now file.modified = true ∧
              P (engine.outputKey shared key mindsData extra) page ∧ done.1 = .ok page.text) := by
  intro done hdone hnew
  have hkey : work.engine.outputKey work.shared key mindsData extra =
      engine.outputKey shared key mindsData extra := by
    unfold outputKey
    rw [hwork.environment]
  rw [renderCached_run, hwork.settings, hkey] at hdone
  rw [fileOutput_run] at hnew ⊢
  cases hlocation : locate engine.settings site.disk path true with
  | error fault =>
      rw [hlocation] at hdone
      subst hdone
      exact ⟨hwork, hkept, Or.inl ⟨rfl, rfl⟩⟩
  | ok location =>
      simp only [hlocation] at hnew hdone
      have hmissed (work' : Work) (hwork' : work'.Sound engine shared disks texts)
          (hkept' : work'.engine.outputs.Holds P)
          (hdecisions : work'.shared.decisions = work.shared.decisions)
          (hdone : done = keptOutput site engine.settings location
            (engine.outputKey shared key mindsData extra) expiry extra work') :=
        keptOutput_gives known hdisk hwork' hkept' location (engine.outputKey shared key mindsData extra)
          expiry extra rfl done hdone fun text tree modified htext hparsed hafter =>
            hnew text location tree modified (hdecisions ▸ htext) rfl hparsed (hdecisions ▸ hafter)
      dsimp only
      cases hfile : site.disk.file? location with
      | none =>
          rw [hfile] at hdone
          obtain ⟨hresult, hdecisions, hsound, houtputs⟩ := hmissed work hwork hkept rfl hdone
          exact ⟨hsound, houtputs, Or.inl ⟨hresult, hdecisions⟩⟩
      | some file =>
          obtain ⟨hserved, hkept'⟩ := Cache.holds_lookupIf hkept (·.isFresh site.now file.modified)
            (engine.outputKey shared key mindsData extra)
          rw [hfile] at hdone
          dsimp only at hdone ⊢
          rcases hlookup : work.engine.outputs.lookupIf (·.isFresh site.now file.modified)
            (engine.outputKey shared key mindsData extra) with ⟨- | page, outputs⟩
          · rw [hlookup] at hkept' hdone
            obtain ⟨hresult, hdecisions, hsound, houtputs⟩ := hmissed
              { work with engine := { work.engine with outputs } } { hwork with } hkept' rfl hdone
            exact ⟨hsound, houtputs, Or.inl ⟨hresult, hdecisions⟩⟩
          · rw [hlookup] at hserved hkept' hdone
            subst hdone
            obtain ⟨hfresh, hpage⟩ := hserved page rfl
            exact ⟨{ hwork with }, hkept', Or.inr ⟨rfl, location, file, page, rfl, hfile, hfresh, hpage, rfl⟩⟩

end Site

end Engine

end Stencil
