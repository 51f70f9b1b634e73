import Stencil.Proofs.Caching.Session
import Stencil.Proofs.Caching.Work

/-!
What a piece of work does besides giving an answer. An engine uses its shelf and renders trees; what holds
from before to after each of these, and from one step on to the next, holds from before to after a call.

Decisions are only ever added. So what is repeated when all that it came to has been decided finds every
decision as it made it and decides nothing anew, whatever else has been decided meanwhile.

What a render loads. A loader may list the paths that it is asked for: every tree renders as before. So a
render that is repeated gives the same output if the components on its list are as they were, whatever has
become of the others.
-/

namespace Stencil

open Markup Template

namespace Engine

/-- A relation that holds from before to after whatever an engine does without its cache of outputs. -/
structure Passage (R : Work → Work → Prop) : Prop where
  refl : ∀ work, R work work
  trans : ∀ {first second third}, R first second → R second third → R first third
  shelved : ∀ work shelf, R work { work with engine := { work.engine with shelf } }
  rendered : ∀ site tree extra work, R work (renderTree site tree extra work).2

/-- Work before and after which a relation holds. -/
def Passes {α : Type} (R : Work → Work → Prop) (job : Working α) : Prop :=
  ∀ work : Work, R work (job work).2

section Rules

variable {α β : Type} {R : Work → Work → Prop} {site : Site} (passage : Passage R)

include passage

theorem passes_pure (value : α) : Passes R (pure value : Working α) := passage.refl

theorem passes_liftExcept (result : Except Fault α) : Passes R (liftExcept result : Working α) := by
  intro work
  rw [run_liftExcept]
  exact passage.refl work

theorem Passes.bind {job : Working α} {next : α → Working β} (h : Passes R job)
    (hnext : ∀ value, Passes R (next value)) : Passes R (job >>= next) := by
  intro work
  have hjob := h work
  rw [run_bind]
  rcases hrun : job work with ⟨result, after⟩
  rw [hrun] at hjob
  cases result with
  | error fault => exact hjob
  | ok value => exact passage.trans hjob (hnext value after)

omit passage in
theorem passes_get {next : Work → Working α} (h : ∀ work, Passes R (next work)) :
    Passes R (get >>= next) := fun work => h work work

theorem passes_shelving (step : Shelving α) : Passes R (shelving step) :=
  fun work => passage.shelved work (step work.engine.shelf).2

theorem passes_renderTree (tree : Markup.Tree) (extra : Variables) :
    Passes R (renderTree site tree extra) := passage.rendered site tree extra

theorem passes_render (template : String) (extra : Variables) : Passes R (render site template extra) :=
  passes_get fun _ => (passes_shelving passage _).bind passage fun found =>
    passes_renderTree passage found.2 extra

theorem passes_prepare (template : String) : Passes R (prepare template) :=
  passes_get fun _ => (passes_shelving passage _).bind passage fun _ => passes_pure passage _

theorem passes_renderFile (path : String) (extra : Variables) (isPage : Bool) :
    Passes R (renderFile site path extra isPage) :=
  passes_get fun _ => (passes_liftExcept passage _).bind passage fun _ =>
    (passes_shelving passage _).bind passage fun found => passes_renderTree passage found.1 extra

end Rules

end Engine

namespace Session

variable {R : Work → Work → Prop}

theorem run_passes {α : Type} {job : Working α} (h : Engine.Passes R job) (session : Session) :
    R session.work (session.run job).2.work := h session.work

/-- A relation that holds from before to after all work holds from before to after a call. -/
theorem answer_passes (passage : Engine.Passage R) (session : Session) (call : Call) :
    R session.work (session.answer call).2.work := by
  unfold answer
  cases call with
  | render template extra =>
      dsimp only
      exact run_passes (Engine.passes_render passage template extra) session
  | prepare template =>
      dsimp only
      exact run_passes (Engine.passes_prepare passage template) session
  | renderFile path extra isPage =>
      dsimp only
      exact run_passes (Engine.passes_renderFile passage path extra isPage) session
  | renderPrepared index extra =>
      dsimp only
      split
      next prepared _ =>
        exact run_passes (Engine.passes_renderTree passage prepared.tree extra) session
      next => exact passage.refl session.work

end Session

/-- Whatever is decided stays decided. -/
structure Decisions.Within (decisions later : Decisions) : Prop where
  accessors : ∀ key accessor, decisions.accessors.lookup key = some accessor →
    later.accessors.lookup key = some accessor
  indexers : ∀ key supported, decisions.indexers.lookup key = some supported →
    later.indexers.lookup key = some supported

namespace Decisions

theorem within_refl (decisions : Decisions) : decisions.Within decisions :=
  ⟨fun _ _ h => h, fun _ _ h => h⟩

theorem Within.trans {first second third : Decisions} (h : first.Within second)
    (h' : second.Within third) : first.Within third :=
  ⟨fun key accessor hlookup => h'.accessors key accessor (h.accessors key accessor hlookup),
    fun key supported hlookup => h'.indexers key supported (h.indexers key supported hlookup)⟩

/-- An answer that is remembered adds to what is known, and is given again wherever all of this is known. -/
theorem remember_again {κ α : Type} [BEq κ] [LawfulBEq κ] {key : κ} {build : α}
    {known final : List (κ × α)}
    (h : ∀ k answer, (remember key build known).2.lookup k = some answer → final.lookup k = some answer) :
    (∀ k answer, known.lookup k = some answer → final.lookup k = some answer) ∧
      remember key build final = ((remember key build known).1, final) := by
  unfold remember at h ⊢
  cases hknown : known.lookup key with
  | some answer =>
      rw [hknown] at h
      refine ⟨h, ?_⟩
      rw [h key answer hknown]
  | none =>
      rw [hknown] at h
      dsimp only at h ⊢
      refine ⟨fun k answer hlookup => h k answer ?_, ?_⟩
      · have hne : (k == key) = false := by
          rw [beq_eq_false_iff_ne]
          rintro rfl
          rw [hknown] at hlookup
          cases hlookup
        rw [List.lookup_cons, hne]
        exact hlookup
      · rw [h key build (by rw [List.lookup_cons, beq_self_eq_true])]

end Decisions

namespace Resolver

/-- The accord of a resolution with its repetition, when all that the resolution comes to is decided. -/
def Accord.replaying (final : Decisions) : Accord :=
  ⟨fun _ decisions => decisions = final, fun decisions => decisions.Within final⟩

theorem Accord.lasting_replaying (final : Decisions) : (Accord.replaying final).Lasting where
  member := fun host object name => by
    have hagain (decisions : Decisions)
        (admitted : (objectMember host object name decisions).2.Within final) :=
      Decisions.remember_again admitted.accessors
    refine ⟨fun decisions admitted => ⟨(hagain decisions admitted).1, admitted.indexers⟩, ?_⟩
    rintro decisions _ rfl admitted
    unfold objectMember
    rw [(hagain decisions admitted).2]
    exact ⟨rfl, rfl⟩
  index := fun host object key => by
    have hagain (decisions : Decisions)
        (admitted : (objectIndex host object key decisions).2.Within final) :=
      Decisions.remember_again admitted.indexers
    refine ⟨fun decisions admitted => ⟨admitted.accessors, (hagain decisions admitted).1⟩, ?_⟩
    rintro decisions _ rfl admitted
    unfold objectIndex
    rw [(hagain decisions admitted).2]
    exact ⟨rfl, rfl⟩

end Resolver

namespace Render

open Resolver

variable {σ τ : Type}

/-- A render adds to the decisions. -/
theorem run_grows (renderer : Renderer σ) (tree : Tree) (vars store : Variables) (memory : Memory)
    (loaded : σ) :
    memory.decisions.Within (run renderer tree vars store memory loaded).memory.decisions := by
  have holds (final : Decisions) : Likeness.Holds
      (ofLoaders (.replaying final) (· = ·) fun _ => True) renderer renderer := by
    refine holds_ofLoaders (Accord.lasting_replaying final) rfl rfl (fun _ _ => id) ?_
    rintro path state _ rfl -
    exact ⟨rfl, rfl⟩
  exact (run_back (holds _) tree vars store memory loaded (Decisions.within_refl _) trivial).1

end Render

/-- Later work, with all that was decided before. -/
def Work.Grows (before after : Work) : Prop :=
  before.shared.decisions.Within after.shared.decisions

namespace Engine

variable {site : Site}

theorem passage_grows : Passage Work.Grows where
  refl _ := Decisions.within_refl _
  trans h h' := Decisions.Within.trans h h'
  shelved _ _ := Decisions.within_refl _
  rendered site tree extra work := by
    rw [renderTree_run]
    exact Render.run_grows _ tree _ _ ⟨work.shared.decisions, work.trail⟩ _

theorem grows_keptOutput (settings : Settings) (location : Disk.Location) (key : String)
    (expiry : Option Int) (extra : Variables) :
    Passes Work.Grows (keptOutput site settings location key expiry extra) := by
  refine (passes_shelving passage_grows _).bind passage_grows fun found => ?_
  refine (passes_renderTree passage_grows found.1 extra).bind passage_grows fun output => ?_
  exact Passes.bind passage_grows (fun _ => Decisions.within_refl _) fun _ =>
    passes_pure passage_grows output

theorem grows_renderCached (path key : String) (expiry : Option Int) (mindsData : Bool)
    (extra : Variables) :
    Passes Work.Grows (renderCached site path key expiry mindsData extra) := by
  intro work
  rw [renderCached_run]
  split
  · exact Decisions.within_refl _
  · dsimp only
    split
    · exact grows_keptOutput _ _ _ _ _ work
    · split
      · exact Decisions.within_refl _
      next outputs _ =>
        exact grows_keptOutput _ _ _ _ _ { work with engine := { work.engine with outputs } }

end Engine

namespace Session

theorem perform_grows (session : Session) (action : Action) :
    session.work.Grows (session.perform action).work := by
  unfold perform
  cases action with
  | call call =>
      dsimp only
      exact answer_passes Engine.passage_grows session call
  | page request =>
      dsimp only
      unfold page
      exact run_passes (Engine.grows_renderCached _ _ _ _ _) session
  | _ => exact Decisions.within_refl _

end Session

variable {σ : Type}

/-- The loader with a list of the paths that it is asked for, latest first. -/
def Loader.listing (loader : Loader σ) : Loader (σ × List String) where
  load := fun path state =>
    let (found, after) := loader.load path state.1
    (found, (after, path :: state.2))

/-- The renderer with a list of the paths that its loader is asked for. -/
def Renderer.listing (renderer : Renderer σ) : Renderer (σ × List String) where
  security := renderer.security
  host := renderer.host
  ownFilters := renderer.ownFilters
  sharedFilters := renderer.sharedFilters
  loader := renderer.loader.listing
  hooks := renderer.hooks

namespace Render

theorem run_listing (renderer : Renderer σ) (tree : Tree) (vars store : Variables) (memory : Memory)
    (loaded : σ) (paths : List String) :
    (run renderer.listing tree vars store memory (loaded, paths)).output =
        (run renderer tree vars store memory loaded).output ∧
      (run renderer.listing tree vars store memory (loaded, paths)).memory.decisions =
        (run renderer tree vars store memory loaded).memory.decisions := by
  have holds : Likeness.Holds (ofLoaders .same (fun state other => state.1 = other) fun _ => True)
      renderer.listing renderer := by
    refine holds_ofLoaders Resolver.Accord.lasting_same rfl rfl (fun _ _ => id) ?_
    rintro path state _ rfl -
    exact ⟨rfl, rfl⟩
  obtain ⟨houtput, -, hdecisions, -⟩ := run_alike holds tree store memory memory
    (rfl : vars = vars) rfl (rfl : (loaded, paths).1 = loaded) trivial trivial
  exact ⟨houtput, hdecisions⟩

end Render

namespace Engine

variable {engine : Engine} {shared : Shared} {site site' : Site}

/-- The paths of the components and layouts that a tree loads, with nothing at hand. -/
def treeLoads (engine : Engine) (shared : Shared) (site : Site) (tree : Tree) (extra : Variables)
    (decisions : Decisions) : List String :=
  (Render.run (engine.renderer shared site).listing tree (engine.environment shared extra) engine.vars
    ⟨decisions, []⟩ (Shelf.empty engine.settings.cache, [])).loaded.2

/-- The paths of the components and layouts that a file loads, with nothing at hand. -/
def fileLoads (engine : Engine) (shared : Shared) (site : Site) (path : String) (extra : Variables)
    (isPage : Bool) (decisions : Decisions) : List String :=
  match locate engine.settings site.disk path isPage with
  | .error _ => []
  | .ok location =>
      match parsedFile engine.settings site.disk location with
      | .error _ => []
      | .ok (tree, _) => engine.treeLoads shared site tree extra decisions

theorem fileLoads_of_parsed {path : String} {isPage : Bool} {location : Disk.Location} {tree : Tree}
    {modified : Int} (hlocation : locate engine.settings site.disk path isPage = .ok location)
    (hparsed : parsedFile engine.settings site.disk location = .ok (tree, modified))
    (extra : Variables) (decisions : Decisions) :
    engine.fileLoads shared site path extra isPage decisions =
      engine.treeLoads shared site tree extra decisions := by
  unfold fileLoads
  rw [hlocation]
  dsimp only
  rw [hparsed]

/-- A tree renders as before, with all decided that it came to before, where the components that it loaded
are as before. -/
theorem treeOutput_again {disks : List Disk} {texts : List String} (known : Known disks texts)
    (hdisk : site.disk ∈ disks) (hdisk' : site'.disk ∈ disks) (hhost : site.host = site'.host)
    (tree : Tree) (extra : Variables) {decisions final : Decisions}
    (hcomponents : ∀ path ∈ engine.treeLoads shared site tree extra decisions,
      parsedComponent engine.settings site.disk path = parsedComponent engine.settings site'.disk path)
    (hfinal : (engine.treeOutput shared site tree extra decisions).2.Within final) :
    (engine.treeOutput shared site' tree extra final).1 =
      (engine.treeOutput shared site tree extra decisions).1 := by
  have hempty : (Shelf.empty engine.settings.cache).Sound engine.settings disks texts :=
    Shelf.sound_empty _
  have hresolver : (engine.renderer shared site).listing.resolver =
      (engine.renderer shared site').resolver := by
    funext vars
    unfold Renderer.resolver Renderer.listing renderer
    rw [hhost]
  -- whatever is loaded at some point is on the list in the end
  have holds : Likeness.Holds (Render.ofLoaders (.replaying final)
      (fun state other => state.1.Sound engine.settings disks texts ∧
        other.Sound engine.settings disks texts)
      (fun state => ∀ path ∈ state.2, parsedComponent engine.settings site.disk path =
        parsedComponent engine.settings site'.disk path))
      (engine.renderer shared site).listing (engine.renderer shared site') :=
    Render.holds_ofLoaders (Resolver.Accord.lasting_replaying final) hresolver rfl
      (fun path _ hreached name hname => hreached name (List.mem_cons_of_mem path hname))
      fun path _ _ hshelves hreached =>
        load_alike known hdisk hdisk' (hreached path (List.mem_cons_self ..)) hshelves.1 hshelves.2
  obtain ⟨hlisted, hdecisions⟩ := Render.run_listing (engine.renderer shared site) tree
    (engine.environment shared extra) engine.vars ⟨decisions, []⟩ (Shelf.empty engine.settings.cache) []
  have hagain : (Render.run (engine.renderer shared site).listing tree (engine.environment shared extra)
      engine.vars ⟨decisions, []⟩ (Shelf.empty engine.settings.cache, [])).output = _ :=
    (Render.run_alike holds tree engine.vars ⟨decisions, []⟩ ⟨final, []⟩
      (rfl : engine.environment shared extra = _) rfl ⟨hempty, hempty⟩ ?_ hcomponents).1
  · exact hagain.symm.trans hlisted
  · change Decisions.Within _ final
    rw [hdecisions]
    exact hfinal

end Engine

end Stencil
