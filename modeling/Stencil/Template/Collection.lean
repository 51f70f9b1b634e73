import Stencil.Gate.Template
import Stencil.Markup.Stack

/-!
Templates held in memory. The case of a path, slashes around it and the usual extension do not count,
and a path without a template of its own leads to the default template below it.
-/

namespace Stencil.Template

open Text

/-- A path without the extension it ends in, if it is a usual one. -/
def withoutExtension (path : List Char) : List Char :=
  if ".html".toList.isSuffixOf path then path.take (path.length - 5)
  else if ".htm".toList.isSuffixOf path then path.take (path.length - 4)
  else path

/-- The form of a path under which templates are kept. -/
def normalPath (path : String) : String :=
  let inner := (trim path.toList).dropWhile (· == '/')
  String.ofList (withoutExtension (lower (inner.reverse.dropWhile (· == '/')).reverse))

/-- Templates by their paths, and the settings that they were accepted under. -/
structure Collection where
  security : Security := {}
  trees : List (String × Markup.Tree) := []

namespace Collection

/-- The collection with a template, if the gate accepts it. -/
def insert (collection : Collection) (path source : String) : Except Fault Collection := do
  Gate.checkTemplate collection.security source
  let key := normalPath path
  let others := collection.trees.filter (·.1 != key)
  return { collection with trees := (key, Markup.Tree.ofSource source) :: others }

/-- The collection without the template of a path. -/
def erase (collection : Collection) (path : String) : Collection :=
  { collection with trees := collection.trees.filter (·.1 != normalPath path) }

/-- The number of templates. -/
def size (collection : Collection) : Nat := collection.trees.length

/-- The tree that a path leads to. -/
def tree? (collection : Collection) (path : String) : Option Markup.Tree :=
  let key := normalPath path
  (collection.trees.lookup key).or (collection.trees.lookup (key ++ "/default"))

end Collection

end Stencil.Template
