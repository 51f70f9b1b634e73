import Stencil.Text.Basic

/-!
Paths as texts. Names stand between slashes; empty names and single points do not count.
-/

namespace Stencil.Disk

open Text

/-- A place on a disk: the names that lead to it from the top. -/
abbrev Location := List String

/-- The path of a location. -/
def Location.path (location : Location) : String := "/" ++ "/".intercalate location

/-- Whether a path starts from the top. -/
def isAbsolute (path : String) : Bool := path.toList.head? == some '/'

/-- A path below another one; an absolute path stands for itself. -/
def join (base path : String) : String :=
  if isAbsolute path then path
  else
    match base.toList.getLast? with
    | none | some '/' => base ++ path
    | _ => base ++ "/" ++ path

/-- The names in a path. -/
def names (path : String) : List String :=
  ((splitAt '/' path.toList).map String.ofList).filter fun name => name != "" && name != "."

/-- Whether a path starts with a single point as a name. -/
def startsHere (path : String) : Bool := (splitAt '/' path.toList).head? == some ['.']

/-- Whether two paths have the same names. A single point counts at the start of a path alone. -/
def samePath (a b : String) : Bool :=
  isAbsolute a == isAbsolute b && startsHere a == startsHere b && names a == names b

/-- Whether a path ends in a slash or in a single point, so that only a directory can be there. -/
def endsInDirectory (path : String) : Bool :=
  match path.toList.reverse with
  | '/' :: _ => true
  | '.' :: '/' :: _ => true
  | ['.'] => true
  | _ => false

/-- The path of the directory that what is at a path is in. A path without names is taken to lead to
something in the working directory. -/
def parent (path : String) : String :=
  match (names path).reverse with
  | [] => "."
  | _ :: above =>
      let inner := "/".intercalate above.reverse
      if isAbsolute path then "/" ++ inner else if above.isEmpty then "." else inner

/-- The last name of a path, unless it leads upwards. -/
def fileName? (path : String) : Option String := (names path).getLast?.filter (· != "..")

/-- What follows the last point of a name; nothing when no other character comes before it. -/
def extensionOf? (name : List Char) : Option (List Char) :=
  let ending := name.reverse.takeWhile (· != '.')
  if ending.length + 1 < name.length then some ending.reverse else none

/-- The extension of a path: what follows the last point of its last name. -/
def extension? (path : String) : Option String :=
  (fileName? path).bind fun name => (extensionOf? name.toList).map String.ofList

end Stencil.Disk
