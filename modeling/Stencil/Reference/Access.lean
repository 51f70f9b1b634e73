import Stencil.Filter
import Stencil.Gate.Expression
import Stencil.Trail
import Stencil.Value.Member
import Stencil.Variables

/-!
What expressions are resolved against, and the steps of a resolution that read no further text:
variables, members, elements, literal keys and dotted paths. Blocked names, unknown names and null
lead to no value instead of a fault.
-/

namespace Stencil

open Text

/-- What expressions are resolved against. -/
structure Resolver where
  security : Security
  host : Host
  /-- The filters that are looked at first. -/
  ownFilters : FilterRegister
  sharedFilters : FilterRegister
  vars : Variables

/-- What is kept from one resolution to the next. -/
structure Memory where
  decisions : Decisions := {}
  trail : Trail := []

/-- A resolution: a fault or an answer, with what is remembered. -/
abbrev Resolving := ExceptT Fault (StateM Memory)

namespace Resolver

/-- Adds an event to the trail. -/
def note (event : Event) : Resolving Unit :=
  modify fun memory => { memory with trail := event :: memory.trail }

/-- Reads a member or an element with the remembered decisions. -/
def recalling {α : Type} (read : StateM Decisions α) : Resolving α := do
  let memory ← get
  let (answer, decisions) := read memory.decisions
  set { memory with decisions }
  return answer

/-- The member of a value, unless it is blocked. -/
def memberOf (r : Resolver) (value : Value) (name : List Char) : Resolving (Option Value) :=
  if r.security.blocks (String.ofList name) then return none
  else recalling (value.member r.host (String.ofList name))

/-- The element of a value at a key. -/
def elementOf (r : Resolver) (value key : Value) : Resolving (Option Value) := do
  note .indexer
  recalling (value.index r.host key)

/-- The variable that has the whole text as its name, unless it is blocked. -/
def direct? (r : Resolver) (text : List Char) : Option Value :=
  if r.security.blocks (String.ofList text) then none else r.vars.get? (String.ofList text)

/-- A key that stands for itself: quoted text or an integer. -/
def literal? (text : List Char) : Option Value :=
  match Value.betweenQuotes? text with
  | some inner => some (.string (String.ofList inner))
  | none => (Decimal.readInt? text).map .int

/-- No value in place of null. -/
def present (value : Value) : Option Value := if value.isNull then none else some value

/-- The trimmed segments of a dotted path. -/
def pathSegments (text : List Char) : List (List Char) := (splitAt '.' text).map trim

/-- Whether a text consists of identifiers with points between, blanks aside. -/
def isPath (text : List Char) : Bool := text.contains '.' && (pathSegments text).all isIdentifier

/-- The variable bound under the longest prefix of a path, and the segments after the prefix. -/
def longestBound? (vars : Variables) (segments : List (List Char)) :
    Nat → Option (Value × List (List Char))
  | 0 => none
  | length + 1 =>
      match vars.get? (String.ofList (joinWith '.' (segments.take (length + 1)))) with
      | some root => some (root, segments.drop (length + 1))
      | none => longestBound? vars segments length

/-- The value at a dotted path: a walk of members from the variable bound under its longest bound
prefix. -/
def dotted (r : Resolver) (text : List Char) : Resolving (Option Value) := do
  let segments := pathSegments text
  if segments.any fun segment => r.security.blocks (String.ofList segment) then return none
  liftExcept (Gate.checkPropertyPath r.security (String.ofList (joinWith '.' segments)))
  match longestBound? r.vars segments segments.length with
  | some (root, rest) => recalling (root.path r.host r.security (rest.map String.ofList))
  | none => return none

end Resolver

end Stencil
