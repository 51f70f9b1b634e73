import Stencil.Gate.FilePath

/-!
Where the file of a template lies. A path names a file, a file without its extension, or a directory
with a default template in it.
-/

namespace Stencil.Template

open Disk

/-- The paths at which a template may lie, in the order in which they are tried. -/
def candidates (base path : String) : List String :=
  let joined := join base path
  (if (extension? joined).isSome then [joined] else []) ++
    [joined ++ ".html", join joined "default.html"]

/-- The first location of a file among paths. A path that the gate refuses ends the search. -/
def firstFile? (security : Security) (disk : Disk) :
    List String → Except Fault (Option Location)
  | [] => .ok none
  | path :: rest => do
      let location ← Gate.checkFilePath security disk path
      if (disk.file? location).isSome then return some location
      else firstFile? security disk rest

/-- The location of the file of a page or of a component. -/
def locate (settings : Settings) (disk : Disk) (path : String) (isPage : Bool) :
    Except Fault Location := do
  let base := if isPage then settings.places.pages else settings.places.components
  match ← firstFile? settings.security disk (candidates base path) with
  | some location => return location
  | none => throw (.templateNotFound path)

end Stencil.Template
