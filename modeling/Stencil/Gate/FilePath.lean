import Stencil.Disk.Basic
import Stencil.Fault
import Stencil.Settings

/-!
The gate for template files. A path passes when it hides nothing, has an allowed extension, and leads
to a location below an allowed root. The location is the answer.
-/

namespace Stencil.Gate

open Text

/-- Marks of a separator or a point that is written in code. -/
def encodedMarks : List String := ["%2e", "%2f", "%5c"]

/-- The flaw that shows in the text of a path. -/
def hiddenFlaw? (path : List Char) : Option FileFlaw :=
  let lowered := lower path
  if occurs ['.', '.'] path then some .parentReference
  else if path.contains '~' then some .tilde
  else if encodedMarks.any fun mark => occurs mark.toList lowered then some .encodedSeparator
  else if occurs ['/', '/'] path || occurs ['\\', '\\'] path then some .doubledSeparator
  else none

/-- Whether an extension is allowed. Points before an allowed extension and the case of letters do
not count. -/
def allowsExtension (security : Security) (extension : String) : Bool :=
  security.allowedExtensions.any fun allowed =>
    sameLetters (allowed.toList.dropWhile (· == '.')) extension.toList

/-- Whether a location is an allowed root or below one. -/
def isBelowRoot (security : Security) (disk : Disk) (location : Disk.Location) : Bool :=
  security.allowedRoots.any fun root =>
    (disk.location? root).any fun root => root.isPrefixOf location

/-- Checks the path of a template file. -/
def checkFilePath (security : Security) (disk : Disk) (path : String) :
    Except Fault Disk.Location :=
  match hiddenFlaw? path.toList with
  | some flaw => .error (.unsafeFilePath path flaw)
  | none =>
      if !allowsExtension security ((Disk.extension? path).getD "") then
        .error (.unsafeFilePath path .extension)
      else if security.allowedRoots.isEmpty then .error (.unsafeFilePath path .noRoots)
      else
        match (disk.location? path).filter (isBelowRoot security disk) with
        | some location => .ok location
        | none => .error (.unsafeFilePath path .outsideRoots)

end Stencil.Gate
