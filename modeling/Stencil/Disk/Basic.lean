import Stencil.Disk.Path

/-!
A disk: files with their texts and the times of their last change, the directories there are, and the
directory that relative paths start from. There are no links, so that the location of a path is what
is left of its names when those that lead upwards are followed.
-/

namespace Stencil

open Disk

/-- A file. Its text is missing when its bytes are no text. -/
structure File where
  text : Option String
  modified : Int
deriving Repr, DecidableEq

/-- A disk. -/
structure Disk where
  files : List (Location × File) := []
  directories : List Location := []
  workingDirectory : Location := []

namespace Disk

/-- The file at a location. -/
def file? (disk : Disk) (location : Location) : Option File := disk.files.lookup location

/-- Whether there is a directory at a location. The top is one. -/
def isDirectory (disk : Disk) (location : Location) : Bool :=
  location.isEmpty || disk.directories.contains location

/-- A location and all locations above it, from the top on. -/
def pathTo : Location → List Location
  | [] => [[]]
  | name :: rest => [] :: (pathTo rest).map (name :: ·)

/-- The disk with a directory and all directories above it. -/
def createDirectory (disk : Disk) (location : Location) : Disk :=
  { disk with directories := disk.directories ++ (pathTo location).filter (!disk.isDirectory ·) }

/-- The disk with a file, in place of one at the same location. -/
def write (disk : Disk) (location : Location) (file : File) : Disk :=
  let disk := disk.createDirectory location.dropLast
  { disk with files := (location, file) :: disk.files.filter (·.1 != location) }

/-- The disk without the file at a location. Its directory stays. -/
def erase (disk : Disk) (location : Location) : Disk :=
  { disk with files := disk.files.filter (·.1 != location) }

/-- The location that names lead to from a location, if everything on the way is there. -/
def walk? (disk : Disk) (start : Location) : List String → Option Location
  | [] => some start
  | name :: rest =>
      if !disk.isDirectory start then none
      else if name = ".." then disk.walk? start.dropLast rest
      else
        let next := start ++ [name]
        if disk.isDirectory next || (disk.file? next).isSome then disk.walk? next rest else none

/-- Where a path starts from. -/
def origin (disk : Disk) (path : String) : Location :=
  if isAbsolute path then [] else disk.workingDirectory

/-- The location of what is at a path. A path that ends in a slash or a point leads to a directory. -/
def existing? (disk : Disk) (path : String) : Option Location :=
  (disk.walk? (disk.origin path) (names path)).filter fun location =>
    !endsInDirectory path || disk.isDirectory location

/-- The file at a path. -/
def fileAt? (disk : Disk) (path : String) : Option File := (disk.existing? path).bind disk.file?

/-- The location of names given backwards: what leads to something that is there is followed, and
missing names are put after it. A missing place has nothing above it to follow. -/
def settle? (disk : Disk) : List String → Option Location
  | [] => some []
  | name :: earlier =>
      match disk.walk? [] (name :: earlier).reverse with
      | some location => some location
      | none => if name = ".." then none else (disk.settle? earlier).map (· ++ [name])

/-- The location of a path. -/
def location? (disk : Disk) (path : String) : Option Location :=
  disk.settle? (disk.origin path ++ names path).reverse

end Disk

end Stencil
