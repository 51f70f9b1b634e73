import Stencil.Settings
import Stencil.Value.Basic

/-!
Members and indexers of values. What a member name means on a type of host object is decided once
and remembered for every object of the type, and so is whether the type has an indexer for a kind of
key. The plain readings beside them remember nothing.
-/

namespace Stencil

/-- What the host program supplies about its objects beyond their stored fields. -/
structure Host where
  /-- A member that is computed rather than stored. -/
  computed : Object Value → String → Option Value
  /-- Whether objects of a type have an indexer for a kind of key. -/
  supportsIndex : String → ValueKind → Bool
  index : Object Value → Value → Option Value

/-- What a member name means on a type. -/
inductive Accessor where
  | field (position : Nat)
  | computed
deriving Repr, DecidableEq

/-- The decisions made so far, for types and member names and for types and kinds of keys. -/
structure Decisions where
  accessors : List ((String × String) × Accessor) := []
  indexers : List ((String × ValueKind) × Bool) := []

/-- What a name means among field names: the field of that spelling, or else the first that differs
in case only. -/
def Accessor.of (fieldNames : List String) (name : String) : Accessor :=
  match (fieldNames.findIdx? (· == name)).or (fieldNames.findIdx? (Text.sameName · name)) with
  | some position => .field position
  | none => .computed

/-- The member of an object under an accessor. -/
def Accessor.read (host : Host) (object : Object Value) (name : String) : Accessor → Option Value
  | .field position => object.fields[position]?.map Prod.snd
  | .computed => host.computed object name

/-- The member of an object, with nothing remembered. -/
def Host.objectMember (host : Host) (object : Object Value) (name : String) : Option Value :=
  (Accessor.of (object.fields.map Prod.fst) name).read host object name

/-- The element of an object at a key, with nothing remembered. -/
def Host.objectIndex (host : Host) (object : Object Value) (key : Value) : Option Value :=
  if host.supportsIndex object.type key.kind then host.index object key else none

/-- A remembered answer, or a new one that is remembered. -/
def remember {κ α : Type} [BEq κ] (key : κ) (build : α) (known : List (κ × α)) :
    α × List (κ × α) :=
  match known.lookup key with
  | some answer => (answer, known)
  | none => (build, (key, build) :: known)

/-- The member of an object. -/
def objectMember (host : Host) (object : Object Value) (name : String) :
    StateM Decisions (Option Value) := fun decisions =>
  let (accessor, accessors) :=
    remember (object.type, name) (Accessor.of (object.fields.map Prod.fst) name) decisions.accessors
  (accessor.read host object name, { decisions with accessors })

/-- The element of an object at a key. -/
def objectIndex (host : Host) (object : Object Value) (key : Value) :
    StateM Decisions (Option Value) := fun decisions =>
  let (supported, indexers) :=
    remember (object.type, key.kind) (host.supportsIndex object.type key.kind) decisions.indexers
  (if supported then host.index object key else none, { decisions with indexers })

namespace Value

/-- The two names under which lists, maps and strings tell their size. -/
def isCountName (name : String) : Bool := Text.sameName name "count" || Text.sameName name "length"

/-- The entry of a map with a key: of that spelling, or else the first that differs in case only. -/
def valueAt? (entries : List (String × Value)) (key : String) : Option Value :=
  (entries.lookup key).or ((entries.find? fun e => Text.sameName e.1 key).map Prod.snd)

/-- A member of a value. -/
def member (host : Host) (target : Value) (name : String) : StateM Decisions (Option Value) :=
  match target with
  | .map entries =>
      pure ((valueAt? entries name).or (if isCountName name then some (ofNat entries.length) else none))
  | .list items => pure (if isCountName name then some (ofNat items.length) else none)
  | .string s => pure (if isCountName name then some (ofNat s.length) else none)
  | .object o => objectMember host o name
  | _ => pure none

/-- The position that a number writes, if it is whole and not negative. -/
def position? (x : Float) : Option Nat :=
  if x < 0 || !(x - x.floor == 0) then none else some x.toUInt64.toNat

/-- The element of a value at a key. Lists take whole numbers, maps the text of the key. -/
def index (host : Host) (target key : Value) : StateM Decisions (Option Value) :=
  match target with
  | .list items => pure do
      let position ← position? (← key.number?).number
      items[position]?
  | .map entries => pure (valueAt? entries key.display)
  | .object o => objectIndex host o key
  | _ => pure none

/-- The value at the end of a path of members. A blocked name and a member of null lead nowhere, and
neither does a path to null. -/
def path (host : Host) (security : Security) : Value → List String →
    StateM Decisions (Option Value)
  | target, [] => pure (if target.isNull then none else some target)
  | target, segment :: rest =>
      if security.blocks segment || target.isNull then pure none
      else do
        match ← member host target segment with
        | some next => path host security next rest
        | none => pure none

end Value

end Stencil
