import Stencil.Decimal.Read

/-!
Removal of quotes and escapes from a text, as a command line reads it: inside single quotes every
character stands for itself, inside double quotes a backslash starts an escape, and outside quotes
the two quote characters open and everything else is itself. Before that, a quoted text is cut out of
its surroundings: it ends at the first mark that no backslash escapes.
-/

namespace Stencil.Text

/-- Where a text stands with respect to quotes: outside, inside single or double quotes, or in the
digits of a character code, which are kept backwards. -/
inductive QuoteMode where
  | bare
  | single
  | double
  | code (digits : List Char)

/-- The character that an escape letter stands for. -/
def escaped? : Char → Option Char
  | 'a' => some '\x07'
  | 'b' => some '\x08'
  | 'v' => some '\x0b'
  | 'f' => some '\x0c'
  | 'n' => some '\n'
  | 'r' => some '\r'
  | 't' => some '\t'
  | 'e' | 'E' => some '\x1b'
  | '\\' => some '\\'
  | '\'' => some '\''
  | '"' => some '"'
  | '$' => some '$'
  | '`' => some '`'
  | ' ' => some ' '
  | _ => none

/-- The character with a hexadecimal code, which may carry a plus sign. -/
def scalar? (digits : List Char) : Option Char := do
  let digits := match digits with
    | '+' :: rest => rest
    | all => all
  let code ← Decimal.readDigits? 16 digits
  if h : code.isValidChar then some (Char.ofNatAux code h) else none

/-- The text with its quotes removed, from a given mode on; nothing when an escape is unknown. -/
def unquoteFrom? : QuoteMode → List Char → Option (List Char)
  | .code digits, [] => (scalar? digits.reverse).map ([·])
  | _, [] => some []
  | .bare, c :: rest =>
      if c = '\'' then unquoteFrom? .single rest
      else if c = '"' then unquoteFrom? .double rest
      else (unquoteFrom? .bare rest).map (c :: ·)
  | .single, c :: rest =>
      if c = '\'' then unquoteFrom? .bare rest
      else (unquoteFrom? .single rest).map (c :: ·)
  | .code digits, c :: rest =>
      if c = '}' then do
        let x ← scalar? digits.reverse
        (unquoteFrom? .double rest).map (x :: ·)
      else unquoteFrom? (.code (c :: digits)) rest
  | .double, '\\' :: 'u' :: '{' :: rest => unquoteFrom? (.code []) rest
  | .double, '\\' :: c :: rest => do
      let x ← escaped? c
      (unquoteFrom? .double rest).map (x :: ·)
  | .double, ['\\'] => none
  | .double, c :: rest =>
      if c = '"' then unquoteFrom? .bare rest
      else (unquoteFrom? .double rest).map (c :: ·)

/-- The text with its quotes removed; nothing when it holds an unknown escape. -/
def unquote? (s : List Char) : Option (List Char) := unquoteFrom? .bare s

/-- The text inside a quote up to its closing mark, kept backwards on the way, and what follows the
mark. A quote that never closes, or in which a backslash ends a line, gives the text to go on
with. -/
def quotedText (mark : Char) (passed : List Char) :
    List Char → Except (List Char) (List Char × List Char)
  | [] => .error []
  | '\\' :: rest =>
      match rest with
      | [] => .error []
      | c :: after =>
          if c = '\n' then .error (c :: after) else quotedText mark (c :: '\\' :: passed) after
  | c :: rest => if c = mark then .ok (passed.reverse, rest) else quotedText mark (c :: passed) rest

theorem quotedText_length {mark : Char} {passed s : List Char} :
    (∀ text rest, quotedText mark passed s = .ok (text, rest) → rest.length < s.length) ∧
      (∀ rest, quotedText mark passed s = .error rest → rest.length ≤ s.length) := by
  fun_induction quotedText mark passed s with
  | case1 => simp
  | case2 => simp
  | case3 => simp +contextual
  | case4 passed c after hc ih =>
      exact ⟨fun text rest h => by have := ih.1 text rest h; simp; omega,
        fun rest h => by have := ih.2 rest h; simp; omega⟩
  | case5 => simp +contextual
  | case6 passed c rest hc hm ih =>
      exact ⟨fun text rest h => by have := ih.1 text rest h; simp; omega,
        fun rest h => by have := ih.2 rest h; simp; omega⟩

end Stencil.Text
