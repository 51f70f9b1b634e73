import Stencil.Digest.Sha256

/-!
Strings in JSON text. Quotes, backslashes and control characters are escaped; every other character
stands for itself.
-/

namespace Stencil.Json

/-- The escape of a character, if it needs one. -/
def escape? (c : Char) : Option (List Char) :=
  match c with
  | '"' => some ['\\', '"']
  | '\\' => some ['\\', '\\']
  | '\n' => some ['\\', 'n']
  | '\r' => some ['\\', 'r']
  | '\t' => some ['\\', 't']
  | '\x08' => some ['\\', 'b']
  | '\x0c' => some ['\\', 'f']
  | other =>
      if other.toNat < 0x20 then some ('\\' :: 'u' :: Digest.hexDigits other.toNat 4) else none

/-- The text between the quotes of a string. -/
def escaped (s : List Char) : List Char := s.flatMap fun c => (escape? c).getD [c]

/-- A string as JSON text. -/
def quote (s : String) : List Char := '"' :: (escaped s.toList ++ ['"'])

end Stencil.Json
