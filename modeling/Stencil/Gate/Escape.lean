import Stencil.Settings

/-!
Encoding of interpolated values. The three steps are removal of tags, escaping for markup, and
escaping for a string inside a script, in this order.
-/

namespace Stencil.Gate

/-- The text with everything from a `<` to the next `>` removed. A `<` that no `>` follows stays. -/
def stripTags (s : List Char) : List Char :=
  match s with
  | [] => []
  | c :: rest =>
      if c = '<' then
        match _h : rest.dropWhile (· != '>') with
        | _ :: after => stripTags after
        | [] => c :: rest
      else c :: stripTags rest
termination_by s.length
decreasing_by
  · have := (List.dropWhile_suffix (l := rest) (· != '>')).length_le
    rw [_h] at this
    simp only [List.length_cons] at this ⊢
    omega
  · simp

/-- The entity of a special character of markup. -/
def entity? : Char → Option (List Char)
  | '&' => some "&amp;".toList
  | '<' => some "&lt;".toList
  | '>' => some "&gt;".toList
  | '"' => some "&quot;".toList
  | '\'' => some "&#39;".toList
  | _ => none

/-- The text with the special characters of markup as entities. -/
def escapeHtml (s : List Char) : List Char := s.flatMap fun c => (entity? c).getD [c]

/-- The text with quotes, backslashes and line ends escaped, and no closing tag in it. -/
def escapeScript : List Char → List Char
  | [] => []
  | c :: rest =>
      let escaped : List Char := match c with
        | '\\' => ['\\', '\\']
        | '\'' => ['\\', '\'']
        | '"' => ['\\', '"']
        | '\n' => ['\\', 'n']
        | '\r' => ['\\', 'r']
        | '<' => if rest.head? = some '/' then ['<', '\\'] else ['<']
        | other => [other]
      escaped ++ escapeScript rest

/-- The text of a value as it is written into the output. -/
def encode (encoding : Encoding) (s : List Char) : List Char :=
  let s := if encoding.stripTags then stripTags s else s
  let s := if encoding.htmlEncode then escapeHtml s else s
  if encoding.scriptEncode then escapeScript s else s

/-- The string of a value as it is written into the output. -/
def encodeOutput (encoding : Encoding) (text : String) : String :=
  String.ofList (encode encoding text.toList)

end Stencil.Gate
