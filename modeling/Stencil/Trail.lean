import Stencil.Markup.Node

/-!
What happens during a render, in the order in which it happens. A trail is kept with its latest event
first. Nothing reads it back while the render goes on.
-/

namespace Stencil

/-- What is told of a component that is about to be included. Parameters are as written. -/
structure Descriptor where
  name : Option String
  oldName : Option String
  /-- The path handed to the loader. -/
  path : String
  parameters : List Markup.Parameter
deriving Repr, DecidableEq

/-- An event of a render. -/
inductive Event where
  /-- A template hands over an expression. -/
  | expression (text : String)
  /-- A text is looked up on the way to the value of an expression. -/
  | lookup (text : String)
  /-- An indexer is applied to a value. -/
  | indexer
  /-- A component is announced to the host program. -/
  | announced (descriptor : Descriptor)
  /-- A loop is entered. -/
  | loopEntered
  /-- An iteration of the innermost open loop starts; iterations of all open loops are counted. -/
  | iteration (count : Nat)
  /-- A loop is left, with the count from before it. -/
  | loopLeft (count : Nat)
  /-- A fragment is called; open calls are counted. -/
  | called (count : Nat)
  /-- A call is left, with the count from before it. -/
  | callLeft (count : Nat)
deriving Repr, DecidableEq

/-- The events so far, latest first. -/
abbrev Trail := List Event

/-- The components announced, in order. -/
def Trail.announced (trail : Trail) : List Descriptor :=
  trail.reverse.filterMap fun
    | .announced descriptor => some descriptor
    | _ => none

end Stencil
