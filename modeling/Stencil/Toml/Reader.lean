import Stencil.Toml.Scalar

/-!
The reader of documents of settings. A document is a list of lines: headers, and keys with their
values. Loops over lines and elements take at least one character per turn, so that as many turns as
there are characters suffice; values nest up to a fixed depth.
-/

namespace Stencil.Toml

open Text

/-- The text after blanks, line ends and comments; nothing when a comment holds what it must not. -/
def skipGaps? (inComment : Bool) : List Char → Option (List Char)
  | [] => some []
  | '\n' :: rest => skipGaps? false rest
  | '\r' :: '\n' :: rest => skipGaps? false rest
  | c :: rest =>
      if inComment then if isControl c then none else skipGaps? true rest
      else if c = '#' then skipGaps? true rest
      else if isLineBlank c then skipGaps? false rest
      else some (c :: rest)

/-- The text after blanks within a line. -/
def skipBlanks (s : List Char) : List Char := s.dropWhile isLineBlank

/-- What follows the end of a line, with a comment before it perhaps. -/
def lineEnd? (s : List Char) : Option (List Char) :=
  match skipBlanks s with
  | [] => some []
  | '#' :: rest =>
      match rest.dropWhile (!isControl ·) with
      | [] => some []
      | after => afterLineEnd? after
  | rest => afterLineEnd? rest

/-- A character of a key without quotes. -/
def isKeyPart (c : Char) : Bool := isAsciiAlphanumeric c || c == '_' || c == '-'

/-- The key that starts here, and what follows it. -/
def simpleKey? (s : List Char) : Option (String × List Char) :=
  match s with
  | c :: _ =>
      if c = '"' ∨ c = '\'' then (shortText? s).map fun (text, after) => (String.ofList text, after)
      else if isKeyPart c then
        some (String.ofList (s.takeWhile isKeyPart), s.dropWhile isKeyPart)
      else none
  | [] => none

/-- The keys with points between them that start here, and what follows them and blanks. -/
def keys? : Nat → List Char → Option (List String × List Char)
  | 0, _ => none
  | turns + 1, s => do
      let (key, after) ← simpleKey? (skipBlanks s)
      match skipBlanks after with
      | '.' :: rest => do
          let (keys, rest) ← keys? turns rest
          return (key :: keys, rest)
      | rest => return ([key], rest)

/-- How deep arrays and tables nest in values, and the most keys with points between them. -/
def maxDepth : Nat := 80

/-- A dotted key: the keys before the last one, the last one, and what follows. -/
def dottedKey? (s : List Char) : Option (List String × String × List Char) := do
  let (keys, rest) ← keys? s.length s
  if maxDepth < keys.length then none
  else return (keys.dropLast, ← keys.getLast?, rest)

/-- A reader of values: a value and what follows it. -/
abbrev ValueReader := List Char → Option (Value × List Char)

/-- The items of an array after those read, and what follows the array. -/
def items? (value? : ValueReader) : Nat → List Value → List Char → Option (Value × List Char)
  | 0, _, _ => none
  | turns + 1, done, s => do
      match ← skipGaps? false s with
      | ']' :: rest => return (.array done.reverse, rest)
      | s =>
          let (item, after) ← value? s
          match ← skipGaps? false after with
          | ',' :: rest => items? value? turns (item :: done) rest
          | ']' :: rest => return (.array (item :: done).reverse, rest)
          | _ => none

/-- The entries of a table in braces after those read, and what follows the table. Lines may end
everywhere but inside a key. -/
def entries? (value? : ValueReader) : Nat → Entries → List Char → Option (Value × List Char)
  | 0, _, _ => none
  | turns + 1, done, s => do
      match ← skipGaps? false s with
      | '}' :: rest => return (.table .inline done, rest)
      | s =>
          let (path, key, after) ← dottedKey? s
          let after ← expect? '=' (← skipGaps? false after)
          let (value, after) ← value? (← skipGaps? false after)
          let done ← addValue path key value .headed done
          match ← skipGaps? false after with
          | ',' :: rest => entries? value? turns done rest
          | '}' :: rest => return (.table .inline done, rest)
          | _ => none

/-- The value that starts here and holds no other values. -/
def scalar? (s : List Char) : Option (Value × List Char) :=
  match s with
  | c :: _ =>
      if c = '"' ∨ c = '\'' then
        (quotedText? s).map fun (text, after) => (.text (String.ofList text), after)
      else do
        let (word, after) := word s
        return (← wordValue? word, after)
  | [] => none

/-- The value that starts here, with arrays and tables that nest up to a depth. -/
def valueWithin? : Nat → ValueReader
  | 0, s => scalar? s
  | depth + 1, s =>
      match s with
      | '[' :: rest => items? (valueWithin? depth) s.length [] rest
      | '\x7b' :: rest => entries? (valueWithin? depth) s.length [] rest
      | _ => scalar? s

/-- A document that is being read: its entries, and the header that the next keys belong to. -/
structure Draft where
  entries : Entries := []
  header : List String := []

/-- The draft after the statement that starts here, and what follows its line. -/
def statement? (draft : Draft) (s : List Char) : Option (Draft × List Char) :=
  match s with
  | '[' :: '[' :: rest => do
      let (path, key, after) ← dottedKey? rest
      let after ← expect? ']' (← expect? ']' after)
      let entries ← openElement path key draft.entries
      return (⟨entries, path ++ [key]⟩, ← lineEnd? after)
  | '[' :: rest => do
      let (path, key, after) ← dottedKey? rest
      let entries ← openTable path key draft.entries
      return (⟨entries, path ++ [key]⟩, ← lineEnd? (← expect? ']' after))
  | _ => do
      let (path, key, after) ← dottedKey? s
      let (value, after) ← valueWithin? maxDepth (skipBlanks (← expect? '=' after))
      let entries ←
        changeAt .implied headerPasses (addValue path key value) draft.header .headed draft.entries
      return (⟨entries, draft.header⟩, ← lineEnd? after)

/-- The entries of a document after those of a draft. -/
def statements? : Nat → Draft → List Char → Option Entries
  | 0, _, _ => none
  | turns + 1, draft, s => do
      match ← skipGaps? false s with
      | [] => return draft.entries
      | s =>
          let (draft, rest) ← statement? draft s
          statements? turns draft rest

/-- The entries of a document. A mark of byte order at its start does not count. -/
def read? (document : String) : Option Entries :=
  let s := document.toList
  let s := if s.head? = some '\ufeff' then s.tail else s
  statements? (s.length + 1) {} s

end Stencil.Toml
