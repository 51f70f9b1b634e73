import Stencil.Render.Tree
import Stencil.Template.Collection
import Stencil.Template.Shelf

/-!
Engines. An engine renders texts and files with its settings, variables, filters and hooks, and keeps
what it has parsed and rendered. Three layers of variables count, later before earlier: those shared by
all engines, those of the engine, and those given with a call.
-/

namespace Stencil

open Markup Template

/-- What all engines share. -/
structure Shared where
  globals : Variables := {}
  filters : FilterRegister := FilterRegister.builtin
  /-- What is remembered of the types of host objects. -/
  decisions : Decisions := {}

namespace Shared

/-- Binds a variable for all engines, unless its name is one of those that are always blocked. -/
def setGlobal (shared : Shared) (name : String) (value : Value) : Except Fault Shared :=
  if ({} : Security).blocks name then .error (.unsafePropertyPath name .blockedGlobal)
  else .ok { shared with globals := shared.globals.insert name value }

/-- The value of a variable of all engines. -/
def value? (shared : Shared) (name : String) : Option Value := shared.globals.get? name

/-- The value of a variable of all engines, and what they share without it. -/
def removeGlobal (shared : Shared) (name : String) : Option Value × Shared :=
  (shared.value? name, { shared with globals := shared.globals.erase name })

/-- What engines share, without variables. -/
def clearGlobals (shared : Shared) : Shared := { shared with globals := {} }

end Shared

/-- What an engine finds around it: the objects of the host program, the disk and the time. -/
structure Site where
  host : Host
  disk : Disk
  now : Int

/-- A rendered page in the cache of outputs. -/
structure Page where
  text : String
  expiry : Option Int
  /-- The last change of the file when the page was rendered. -/
  modified : Int
deriving Repr, DecidableEq

/-- Whether a page may still be served: it has not expired and its file has not changed. -/
def Page.isFresh (page : Page) (now modified : Int) : Bool :=
  page.expiry.all (now < ·) && page.modified == modified

/-- An engine. -/
structure Engine where
  settings : Settings
  vars : Variables := {}
  filters : FilterRegister := {}
  /-- Gives components and layouts in place of their files. -/
  loader : Option (String → Except Fault (Option Tree)) := none
  hooks : Hooks := {}
  shelf : Shelf
  outputs : Cache String Page

/-- What changes while an engine works. -/
structure Work where
  engine : Engine
  shared : Shared
  /-- The events of the renders of this work, latest first. -/
  trail : Trail := []

/-- A piece of work of an engine. -/
abbrev Working := ExceptT Fault (StateM Work)

namespace Engine

/-- A new engine. -/
def ofSettings (settings : Settings) : Engine where
  settings := settings
  shelf := Shelf.empty settings.cache
  outputs := { capacity := settings.cache.outputs }

/-- Binds a variable of the engine, unless its name is blocked. -/
def setVariable (engine : Engine) (name : String) (value : Value) : Except Fault Engine :=
  if engine.settings.security.blocks name then .error (.unsafePropertyPath name .blockedVariable)
  else .ok { engine with vars := engine.vars.insert name value }

/-- The value of a variable of the engine. -/
def value? (engine : Engine) (name : String) : Option Value := engine.vars.get? name

/-- The value of a variable of the engine, and the engine without it. -/
def removeVariable (engine : Engine) (name : String) : Option Value × Engine :=
  (engine.value? name, { engine with vars := engine.vars.erase name })

/-- The variables of a call. -/
def environment (engine : Engine) (shared : Shared) (extra : Variables) : Variables :=
  Variables.layered [shared.globals, engine.vars, extra]

/-- A loader of an engine: its own, or the one of files. -/
def treeLoader (engine : Engine) (site : Site) : Loader Shelf :=
  match engine.loader with
  | some load => ⟨fun path => liftExcept (load path)⟩
  | none => fileLoader engine.settings site.disk

/-- Work on the shelf. -/
def shelving {α : Type} (step : Shelving α) : Working α := fun work =>
  let (outcome, shelf) := step work.engine.shelf
  (outcome, { work with engine := { work.engine with shelf } })

/-- Renders a tree with the variables of a call. -/
def renderTree (site : Site) (tree : Tree) (extra : Variables) : Working String := fun work =>
  let engine := work.engine
  let renderer : Renderer Shelf := {
    security := engine.settings.security
    host := site.host
    ownFilters := engine.filters
    sharedFilters := work.shared.filters
    loader := engine.treeLoader site
    hooks := engine.hooks }
  let vars := engine.environment work.shared extra
  let outcome := Render.run renderer tree vars engine.vars
    ⟨work.shared.decisions, work.trail⟩ engine.shelf
  (outcome.output, {
    engine := { engine with vars := outcome.store, shelf := outcome.loaded }
    shared := { work.shared with decisions := outcome.memory.decisions }
    trail := outcome.memory.trail })

/-- Renders a template. -/
def render (site : Site) (template : String) (extra : Variables) : Working String := do
  let (_, tree) ← shelving (Shelf.compile (← get).engine.settings template)
  renderTree site tree extra

/-- Renders the file of a page or of a component. -/
def renderFile (site : Site) (path : String) (extra : Variables) (isPage : Bool) :
    Working String := do
  let settings := (← get).engine.settings
  let location ← liftExcept (locate settings site.disk path isPage)
  let (tree, _) ← shelving (Shelf.treeOfFile settings site.disk location)
  renderTree site tree extra

/-- The key of an output. A key that minds the data also tells the variables of the call. -/
def outputKey (engine : Engine) (shared : Shared) (key : String) (mindsData : Bool)
    (extra : Variables) : String :=
  if mindsData then key ++ "::" ++ (engine.environment shared extra).fingerprint else key

/-- A page from the cache of outputs, if it is fresh. -/
def cachedPage (site : Site) (key : String) (modified : Int) : Working (Option Page) := fun work =>
  let (page, outputs) := work.engine.outputs.lookupIf (·.isFresh site.now modified) key
  (.ok page, { work with engine := { work.engine with outputs } })

/-- Renders the file of a page, or serves it from the cache of outputs while it is fresh. -/
def renderCached (site : Site) (path key : String) (expiry : Option Int) (mindsData : Bool)
    (extra : Variables) : Working String := do
  let work ← get
  let settings := work.engine.settings
  let location ← liftExcept (locate settings site.disk path true)
  let key := work.engine.outputKey work.shared key mindsData extra
  let cached ← match site.disk.file? location with
    | some file => cachedPage site key file.modified
    | none => pure none
  match cached with
  | some page => return page.text
  | none =>
      let (tree, modified) ← shelving (Shelf.treeOfFile settings site.disk location)
      let output ← renderTree site tree extra
      modify fun work =>
        let outputs := work.engine.outputs.insert key ⟨output, expiry, modified⟩
        { work with engine := { work.engine with outputs } }
      return output

/-- A template that is parsed ahead of its renders. -/
structure Prepared where
  key : Key
  tree : Tree

/-- Prepares a template. -/
def prepare (template : String) : Working Prepared := do
  let (key, tree) ← shelving (Shelf.compile (← get).engine.settings template)
  return ⟨key, tree⟩

/-- Whether there was an output under a key, and the engine without it. -/
def invalidate (engine : Engine) (key : String) : Bool × Engine :=
  ((engine.outputs.find? key).isSome, { engine with outputs := engine.outputs.erase key })

/-- How many outputs had keys with a start, and the engine without them. -/
def invalidateStart (engine : Engine) (start : String) : Nat × Engine :=
  let (count, outputs) :=
    engine.outputs.filterKeys fun key => !start.toList.isPrefixOf key.toList
  (count, { engine with outputs })

/-- The engine with empty caches. -/
def clearCaches (engine : Engine) : Engine :=
  { engine with shelf := engine.shelf.clear, outputs := engine.outputs.clear }

end Engine

end Stencil
