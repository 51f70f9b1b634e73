import Stencil.Value.Basic

/-!
JSON documents. A number in a document is an integer below zero, an integer from zero on, or a finite
number in floating point; which one is told by where it comes from and not by its size. As a value, a
number is an integer if it is one in range, and otherwise floating point.
-/

namespace Stencil

namespace Json

/-- A number in a document. -/
inductive Number where
  | natural (n : UInt64)
  | negative (n : Int64) (below : n < 0)
  | float (x : Float) (finite : x.isFinite = true)

namespace Number

/-- An integer as a number. -/
def ofInt (n : Int64) : Number := if below : n < 0 then .negative n below else .natural n.toUInt64

/-- A number in floating point; what is not finite is no number. -/
def ofFloat? (x : Float) : Option Number :=
  if finite : x.isFinite = true then some (.float x finite) else none

/-- The integer that a number is. Floating point is none, whole or not. -/
def int? : Number → Option Int64
  | .natural n => Decimal.word? n.toNat
  | .negative n _ => some n
  | .float _ _ => none

/-- The number in floating point. -/
def toFloating : Number → Floating
  | .natural n => Decimal.nearest n.toNat 0
  | .negative n _ => .ofInt64 n
  | .float x _ => x

/-- The number as a value: an integer where it is one, and otherwise floating point. -/
def value (number : Number) : Value :=
  match number.int? with
  | some n => .int n
  | none => .float number.toFloating

end Number

/-- A document. The entries of a map are sorted by their keys. -/
inductive Document where
  | null
  | bool (value : Bool)
  | number (number : Number)
  | string (value : String)
  | list (items : List Document)
  | map (entries : List (String × Document))

namespace Document

mutual

/-- The value that a document writes. -/
def value : Document → Value
  | .null => .null
  | .bool b => .bool b
  | .number n => n.value
  | .string s => .string s
  | .list items => .list (itemValues items)
  | .map entries => .ofEntries (entryValues entries)

/-- The values of the items of a list. -/
def itemValues : List Document → List Value
  | [] => []
  | item :: rest => item.value :: itemValues rest

/-- The values of the entries of a map, with their keys. -/
def entryValues : List (String × Document) → List (String × Value)
  | [] => []
  | (key, item) :: rest => (key, item.value) :: entryValues rest

end

end Document

end Json

namespace Value

open Json

mutual

/-- The document that a value is handed over as: an object is the map of its fields, and what is no
finite number is null. -/
def document : Value → Document
  | .null => .null
  | .bool b => .bool b
  | .int n => .number (.ofInt n)
  | .float x =>
      match Number.ofFloat? x.number with
      | some number => .number number
      | none => .null
  | .string s => .string s
  | .list items => .list (itemDocuments items)
  | .map entries => .map (sortEntries (entryDocuments entries))
  | .object ⟨_, _, fields, _, _, _⟩ => .map (sortEntries (entryDocuments fields))

/-- The documents of the items of a list. -/
def itemDocuments : List Value → List Document
  | [] => []
  | item :: rest => item.document :: itemDocuments rest

/-- The documents of the entries of a map, with their keys. -/
def entryDocuments : List (String × Value) → List (String × Document)
  | [] => []
  | (key, value) :: rest => (key, value.document) :: entryDocuments rest

end

/-- The value read back from the document it is handed over as. -/
def reread (value : Value) : Value := value.document.value

end Value

end Stencil
