import Stencil.Value.Basic

/-!
The text that shows a value to a developer: strings quoted, brackets around lists and braces around
maps, and numbers always with a point or an exponent.
-/

namespace Stencil.Value

/-- Numbers for inspection: with a point, and with an exponent when very large or small. -/
def inspectLayout : Decimal.Layout where
  tie := .up
  positional := fun exponent => -4 ≤ exponent ∧ exponent < 16
  keepsPoint := true
  signsExponent := false
  special := fun
    | none => "NaN"
    | some true => "-inf"
    | some false => "inf"

/-- A character inside quotes. What has no shape of its own is written by its code. -/
def inspectChar (c : Char) : List Char :=
  match c with
  | '\x00' => ['\\', '0']
  | '\t' => ['\\', 't']
  | '\r' => ['\\', 'r']
  | '\n' => ['\\', 'n']
  | '"' => ['\\', '"']
  | '\\' => ['\\', '\\']
  | other =>
      if Text.isHidden other then
        '\\' :: 'u' :: '\x7b' :: (Nat.toDigits 16 other.toNat ++ ['\x7d'])
      else [other]

/-- A string in quotes. -/
def inspectString (s : String) : List Char := '"' :: (s.toList.flatMap inspectChar ++ ['"'])

mutual

/-- The text that shows a value. -/
def inspectText : Value → List Char
  | .null => "Null".toList
  | .bool b => boolText b
  | .int n => intText n
  | .float x => (inspectLayout.write x.number).toList
  | .string s => inspectString s
  | .list items => '[' :: (inspectItems items ++ [']'])
  | .map entries => '{' :: (inspectEntries entries ++ ['}'])
  | .object ⟨_, _, _, _, _, inspected⟩ => inspected.toList

/-- The items of a list, with commas and spaces between. -/
def inspectItems : List Value → List Char
  | [] => []
  | [item] => item.inspectText
  | item :: rest => item.inspectText ++ ',' :: ' ' :: inspectItems rest

/-- The entries of a map, with commas and spaces between. -/
def inspectEntries : List (String × Value) → List Char
  | [] => []
  | [(key, value)] => inspectString key ++ ':' :: ' ' :: value.inspectText
  | (key, value) :: rest =>
      inspectString key ++ ':' :: ' ' :: (value.inspectText ++ ',' :: ' ' :: inspectEntries rest)

end

/-- The string that shows a value. -/
def inspect (value : Value) : String := String.ofList value.inspectText

end Stencil.Value
