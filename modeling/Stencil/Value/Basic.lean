import Stencil.Decimal.Read
import Stencil.Decimal.Layout
import Stencil.Json.Quote
import Stencil.Text.Basic
import Stencil.Text.Case

/-!
The values that template variables hold. A value has a kind, a text, a truth, and perhaps elements
that a loop runs over. Maps are kept sorted by their keys. The text of a map is JSON.
-/

namespace Stencil

/-- The kinds of values. -/
inductive ValueKind where
  | null
  | bool
  | int
  | float
  | string
  | list
  | map
  | object
deriving Repr, DecidableEq

/-- An object of the host program. Two objects are the same when their identities are. -/
structure Object (α : Type) where
  identity : Nat
  type : String
  /-- The stored fields in order. Objects of one type have the same field names. -/
  fields : List (String × α)
  /-- The elements a loop runs over, if it can. -/
  elements : Option (List α)
  /-- The text written when the object itself is interpolated. -/
  text : String
  /-- The text shown to someone who inspects the object. -/
  inspected : String

/-- A value. -/
inductive Value where
  | null
  | bool (value : Bool)
  | int (value : Int64)
  | float (value : Floating)
  | string (value : String)
  | list (items : List Value)
  | map (entries : List (String × Value))
  | object (object : Object Value)

namespace Value

instance : Inhabited Value := ⟨.null⟩

/-- The kind of a value. -/
def kind : Value → ValueKind
  | .null => .null
  | .bool _ => .bool
  | .int _ => .int
  | .float _ => .float
  | .string _ => .string
  | .list _ => .list
  | .map _ => .map
  | .object _ => .object

/-- A count as a value. -/
def ofNat (n : Nat) : Value := .int (Int64.ofNat (min n (Nat.pow 2 63 - 1)))

/-- Sorted entries with one more; of two entries with one key the later counts. -/
def insertEntry {α : Type} (key : String) (value : α) : List (String × α) → List (String × α)
  | [] => [(key, value)]
  | (k, v) :: rest =>
      if key < k then (key, value) :: (k, v) :: rest
      else if key = k then (key, value) :: rest
      else (k, v) :: insertEntry key value rest

/-- Entries in any order, sorted by their keys; of two entries with one key the later counts. -/
def sortEntries {α : Type} (entries : List (String × α)) : List (String × α) :=
  entries.foldl (fun sorted entry => insertEntry entry.1 entry.2 sorted) []

/-- The map of entries in any order; of two entries with one key the later counts. -/
def ofEntries (entries : List (String × Value)) : Value := .map (sortEntries entries)

/-- Whether this is the null value. -/
def isNull : Value → Bool
  | .null => true
  | _ => false

/-- The string of a string value. -/
def string? : Value → Option String
  | .string s => some s
  | _ => none

/-- The value as a number: numbers, and strings that write one. -/
def number? : Value → Option Floating
  | .int n => some (.ofInt64 n)
  | .float x => some x
  | .string s => Decimal.readFloat? (Text.trim s.toList)
  | _ => none

/-- Whether the value is written as nothing: null or the empty string. -/
def isEmptyText : Value → Bool
  | .null => true
  | .string s => s.isEmpty
  | _ => false

/-- What a loop over the value runs over. The entries of a map are maps of their key and value. -/
def elements? : Value → Option (List Value)
  | .list items => some items
  | .map entries =>
      some (entries.map fun (key, value) => .map [("Key", .string key), ("Value", value)])
  | .object o => o.elements
  | _ => none

/-- The truth of a value in a condition. Null, zero and whatever is empty are false, and so are the
strings that say so; other values are true. -/
def isTruthy : Value → Bool
  | .null => false
  | .bool b => b
  | .int n => n != 0
  | .float x => x.number != 0 && !x.isUndefined
  | .string s =>
      !(s.isEmpty || Text.sameName s "false" || Text.sameName s "null" || s == "0")
  | .list items => !items.isEmpty
  | .map entries => !entries.isEmpty
  | .object o => o.elements.all (!·.isEmpty)

/-- The text between matching quotes at both ends. -/
def betweenQuotes? (s : List Char) : Option (List Char) :=
  match s with
  | first :: second :: rest =>
      if (first = '"' ∨ first = '\'') ∧ (second :: rest).getLast? = some first then
        some (second :: rest).dropLast
      else none
  | _ => none

/-- A string value without one layer of matching quotes around it. -/
def unwrapQuoted : Value → Value
  | .string s =>
      match betweenQuotes? s.toList with
      | some inner => .string (String.ofList inner)
      | none => .string s
  | other => other

/-- Numbers in output: never with an exponent. -/
def plainLayout : Decimal.Layout where
  tie := .up
  positional := fun _ => true
  keepsPoint := false
  signsExponent := false
  special := fun
    | none => "NaN"
    | some true => "-inf"
    | some false => "inf"

/-- Numbers in JSON: with a point, and with an exponent when very large or small. What is no finite
number is null. -/
def jsonLayout : Decimal.Layout where
  tie := .even
  positional := fun exponent => -5 ≤ exponent ∧ exponent < 16
  keepsPoint := true
  signsExponent := true
  special := fun _ => "null"

/-- An integer in decimal digits. -/
def intText (n : Int64) : List Char :=
  if n.toInt < 0 then '-' :: Nat.toDigits 10 n.toInt.natAbs else Nat.toDigits 10 n.toInt.natAbs

/-- The truth values in words. -/
def boolText (b : Bool) : List Char := if b then "true".toList else "false".toList

mutual

/-- The value as JSON text without blanks. An object is the map of its fields in their order. -/
def jsonText : Value → List Char
  | .null => "null".toList
  | .bool b => boolText b
  | .int n => intText n
  | .float x => (jsonLayout.write x.number).toList
  | .string s => Json.quote s
  | .list items => '[' :: (jsonItems items ++ [']'])
  | .map entries => '{' :: (jsonEntries entries ++ ['}'])
  | .object ⟨_, _, fields, _, _, _⟩ => '{' :: (jsonEntries fields ++ ['}'])

/-- The items of a list as JSON text, with commas between. -/
def jsonItems : List Value → List Char
  | [] => []
  | [item] => item.jsonText
  | item :: rest => item.jsonText ++ ',' :: jsonItems rest

/-- The entries of a map as JSON text, with commas between. -/
def jsonEntries : List (String × Value) → List Char
  | [] => []
  | [(key, value)] => Json.quote key ++ ':' :: value.jsonText
  | (key, value) :: rest => Json.quote key ++ ':' :: (value.jsonText ++ ',' :: jsonEntries rest)

end

/-- The value as a JSON string. -/
def json (value : Value) : String := String.ofList value.jsonText

mutual

/-- The text of a value in output. -/
def text : Value → List Char
  | .null => []
  | .bool b => boolText b
  | .int n => intText n
  | .float x => (plainLayout.write x.number).toList
  | .string s => s.toList
  | .list items => itemsText items
  | .map entries => jsonText (.map entries)
  | .object ⟨_, _, _, _, written, _⟩ => written.toList

/-- The texts of the items of a list, with commas and spaces between. -/
def itemsText : List Value → List Char
  | [] => []
  | [item] => item.text
  | item :: rest => item.text ++ ',' :: ' ' :: itemsText rest

end

/-- The string of a value in output. -/
def display (value : Value) : String := String.ofList value.text

end Value

end Stencil
