import Stencil.Cache
import Stencil.Gate.Template
import Stencil.Markup.Stack
import Stencil.Render.Frame
import Stencil.Template.Key
import Stencil.Template.Location

/-!
The templates that an engine has at hand: trees by the keys of their sources, and the texts of files
with the times of their last change. A file that was changed is read again.
-/

namespace Stencil.Template

open Markup Disk

/-- The text of a template file as it was at the time of its last change. -/
structure Source where
  location : Location
  text : String
  modified : Int

/-- The templates at hand. -/
structure Shelf where
  trees : Cache Key Tree
  sources : List Source := []
  counters : Counters := {}
  /-- The files whose texts were read, latest first. -/
  reads : List Location := []

/-- A step that uses the shelf. -/
abbrev Shelving := ExceptT Fault (StateM Shelf)

namespace Shelf

/-- An empty shelf. -/
def empty (sizes : CacheSizes) : Shelf := { trees := { capacity := sizes.templates } }

/-- The text of a file, and the text that it had before when it was changed since. -/
structure Loaded where
  source : Source
  stale : Option String

/-- The text of a file. It is read only if it is not at hand as it is now. -/
def load (disk : Disk) (location : Location) : Shelving Loaded := do
  let some file := disk.file? location | throw (.file .missing)
  let shelf ← get
  let known := shelf.sources.find? (·.location == location)
  let hit := { shelf with counters := { shelf.counters with hits := shelf.counters.hits + 1 } }
  let miss := { shelf with
    counters := { shelf.counters with misses := shelf.counters.misses + 1 }
    reads := location :: shelf.reads }
  match known.filter (·.modified == file.modified) with
  | some source =>
      set hit
      return ⟨source, none⟩
  | none =>
      set miss
      let some text := file.text | throw (.file .invalidText)
      let source : Source := ⟨location, text, file.modified⟩
      set { miss with sources := source :: miss.sources.filter (·.location != location) }
      return ⟨source, known.map Source.text⟩

/-- The tree of a template. The gate looks at a template whose tree is not at hand. -/
def compile (settings : Settings) (source : String) : Shelving (Key × Tree) := do
  let key := Key.of source settings.cache.literalKey
  let shelf ← get
  let (found, trees) := shelf.trees.lookup key
  set { shelf with trees }
  match found with
  | some tree => return (key, tree)
  | none =>
      liftExcept (Gate.checkTemplate settings.security source)
      let tree := Tree.ofSource source
      modify fun shelf => { shelf with trees := shelf.trees.insert key tree }
      return (key, tree)

/-- The tree of a file and the time of the file's last change. The tree of a text that the file no
longer has is put away. -/
def treeOfFile (settings : Settings) (disk : Disk) (location : Location) :
    Shelving (Tree × Int) := do
  let loaded ← load disk location
  if let some stale := loaded.stale then
    let key := Key.of stale settings.cache.literalKey
    modify fun shelf => { shelf with trees := shelf.trees.erase key }
  let (_, tree) ← compile settings loaded.source.text
  return (tree, loaded.source.modified)

/-- The tree of a component's file. Slashes before the path do not count, and a path without a file
has no tree. -/
def component? (settings : Settings) (disk : Disk) (path : String) : Shelving (Option Tree) := do
  let path := String.ofList ((Text.trim path.toList).dropWhile (· == '/'))
  match locate settings disk path false with
  | .ok location => return some (← treeOfFile settings disk location).1
  | .error (.templateNotFound _) => return none
  | .error fault => throw fault

/-- The shelf without trees and texts, its counters at zero. -/
def clear (shelf : Shelf) : Shelf :=
  { shelf with trees := shelf.trees.clear, sources := [], counters := {} }

/-- What the cache of texts tells about itself. -/
def sourceStats (shelf : Shelf) : Stats := ⟨shelf.sources.length, shelf.counters⟩

end Shelf

/-- The loader of component files. -/
def fileLoader (settings : Settings) (disk : Disk) : Loader Shelf := ⟨Shelf.component? settings disk⟩

end Stencil.Template
