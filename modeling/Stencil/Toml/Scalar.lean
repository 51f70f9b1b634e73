import Stencil.Decimal.Read
import Stencil.Text.Basic
import Stencil.Toml.Value

/-!
The values of a document that hold no other values: texts in four kinds of quotes, numbers, truth
values and times.
-/

namespace Stencil.Toml

open Text Decimal

/-- A blank within a line. -/
def isLineBlank (c : Char) : Bool := c == ' ' || c == '\t'

/-- A character that may stand nowhere but in line ends. -/
def isControl (c : Char) : Bool := (c.toNat < 0x20 && c != '\t') || c.toNat == 0x7F

/-- What follows a line end. -/
def afterLineEnd? : List Char → Option (List Char)
  | '\n' :: rest => some rest
  | '\r' :: '\n' :: rest => some rest
  | _ => none

/-- The text in single quotes whose opening quote was just passed, and what follows it. -/
def literalText? (rest : List Char) : Option (List Char × List Char) :=
  let text := rest.takeWhile (· != '\'')
  match rest.dropWhile (· != '\'') with
  | _ :: after => if text.any isControl then none else some (text, after)
  | [] => none

/-- The text in double quotes as written, with its escapes, and what follows it. -/
def basicText? (taken : List Char) : List Char → Option (List Char × List Char)
  | [] => none
  | '"' :: rest => some (taken.reverse, rest)
  | '\\' :: c :: rest => if isControl c then none else basicText? (c :: '\\' :: taken) rest
  | c :: rest => if isControl c then none else basicText? (c :: taken) rest

/-- What follows the closing quotes of a long text: up to two more quotes still belong to it. -/
def closeLong (mark : Char) (taken : List Char) : List Char → List Char × List Char
  | c :: d :: rest =>
      if c = mark ∧ d = mark then ((d :: c :: taken).reverse, rest)
      else if c = mark then ((c :: taken).reverse, d :: rest)
      else (taken.reverse, c :: d :: rest)
  | [c] => if c = mark then ((c :: taken).reverse, []) else (taken.reverse, [c])
  | [] => (taken.reverse, [])

/-- The text in three quotes as written, and what follows it. It may run over lines. -/
def longText? (mark : Char) (escapes : Bool) (taken : List Char) :
    List Char → Option (List Char × List Char)
  | [] => none
  | c :: rest =>
      if c = mark ∧ rest.take 2 = [mark, mark] then
        some (closeLong mark taken (rest.drop 2))
      else
        match rest with
        | d :: more =>
            if c = '\\' ∧ escapes = true then
              if d = '\r' ∧ more.head? ≠ some '\n' then none
              else if isControl d ∧ d ≠ '\n' ∧ d ≠ '\r' then none
              else longText? mark escapes (d :: c :: taken) more
            else if c = '\r' ∧ d ≠ '\n' then none
            else if isControl c ∧ c ≠ '\n' ∧ c ≠ '\r' then none
            else longText? mark escapes (c :: taken) (d :: more)
        | [] => none

/-- The character of a code in hexadecimal digits. -/
def codeChar? (digits : List Char) : Option Char := do
  let code ← readDigits? 16 digits
  if code.isValidChar then some (Char.ofNat code) else none

/-- The character of a one-letter escape. -/
def escaped? : Char → Option Char
  | 'b' => some '\x08'
  | 't' => some '\t'
  | 'n' => some '\n'
  | 'f' => some '\x0c'
  | 'r' => some '\r'
  | 'e' => some '\x1b'
  | '"' => some '"'
  | '\\' => some '\\'
  | _ => none

/-- Whether a line ends here, blanks aside. -/
def endsLine (s : List Char) : Bool := (afterLineEnd? (s.dropWhile isLineBlank)).isSome

/-- A text with its escapes undone. In a long text a backslash at the end of a line takes away all
blanks and line ends after it. -/
def unescape? (long skipping : Bool) : List Char → Option (List Char)
  | [] => some []
  | '\\' :: 'x' :: a :: b :: rest => do
      return (← codeChar? [a, b]) :: (← unescape? long false rest)
  | '\\' :: 'u' :: a :: b :: c :: d :: rest => do
      return (← codeChar? [a, b, c, d]) :: (← unescape? long false rest)
  | '\\' :: 'U' :: a :: b :: c :: d :: e :: f :: g :: h :: rest => do
      return (← codeChar? [a, b, c, d, e, f, g, h]) :: (← unescape? long false rest)
  | '\\' :: c :: rest =>
      if long && endsLine (c :: rest) then unescape? long true rest
      else do
        return (← escaped? c) :: (← unescape? long false rest)
  | c :: rest =>
      if skipping && (isLineBlank c || c == '\n' || c == '\r') then unescape? long true rest
      else do
        return c :: (← unescape? long false rest)

/-- A long text without the line end that it starts with. -/
def withoutFirstLineEnd (s : List Char) : List Char := (afterLineEnd? s).getD s

/-- The text that starts here in quotes of one line, and what follows it. -/
def shortText? : List Char → Option (List Char × List Char)
  | '"' :: rest => do
      let (raw, after) ← basicText? [] rest
      return (← unescape? false false raw, after)
  | '\'' :: rest => literalText? rest
  | _ => none

/-- The text that starts here in quotes, and what follows it. -/
def quotedText? : List Char → Option (List Char × List Char)
  | '"' :: '"' :: '"' :: rest => do
      let (raw, after) ← longText? '"' true [] rest
      return (← unescape? true false (withoutFirstLineEnd raw), after)
  | '\'' :: '\'' :: '\'' :: rest => do
      let (raw, after) ← longText? '\'' false [] rest
      return (withoutFirstLineEnd raw, after)
  | s => shortText? s

/-- Digits of a base, without the single underscores that may stand between them. -/
def digits? (base : Nat) (s : List Char) : Option (List Char) :=
  let groups := splitAt '_' s
  if groups.all fun group => !group.isEmpty && group.all fun c => (digit? base c).isSome then
    some groups.flatten
  else none

/-- The digits of a decimal number without needless zeros. -/
def wholeDigits? (s : List Char) : Option (List Char) :=
  (digits? 10 s).filter fun digits => digits.length == 1 || digits.head? != some '0'

/-- An integer, if it is in the range of signed or of unsigned 128 bits. -/
def inRange (n : Int) : Value :=
  if -(Nat.pow 2 127 : Nat) ≤ n && n < (Nat.pow 2 128 : Nat) then .integer n else .unreadable

/-- The integer that digits of a base write behind the mark of the base. -/
def basedInteger? (base : Nat) (s : List Char) : Option Value :=
  if s.isEmpty then some .unreadable
  else (digits? base s).bind (readDigits? base) |>.map fun n => inRange n

/-- The integer that a word writes. -/
def integer? (word : List Char) : Option Value :=
  match word with
  | '0' :: 'x' :: rest => basedInteger? 16 rest
  | '0' :: 'o' :: rest => basedInteger? 8 rest
  | '0' :: 'b' :: rest => basedInteger? 2 rest
  | _ => do
      let (negative, digits) := takeSign word
      let magnitude ← readDigits? 10 (← wholeDigits? digits)
      return inRange (if negative then -(magnitude : Int) else magnitude)

/-- A word cut at a mark: what comes before it, and what comes after it if it is there. -/
def cutAtMark (isMark : Char → Bool) (s : List Char) : List Char × Option (List Char) :=
  (s.takeWhile (!isMark ·), (s.dropWhile (!isMark ·)).tail?)

/-- The exponent of a number, signed and with any zeros. -/
def exponentDigits? (s : List Char) : Option (List Char) := do
  let sign := s.takeWhile fun c => c == '+' || c == '-'
  if sign.length > 1 then none
  else return sign ++ (← digits? 10 (s.drop sign.length))

/-- The number with a fraction, an exponent or both that a word writes, as plain text. -/
def realText? (unsigned : List Char) : Option (List Char) := do
  let (mantissa, exponent) := cutAtMark (fun c => c == 'e' || c == 'E') unsigned
  let (whole, fraction) := cutAtMark (· == '.') mantissa
  let whole ← wholeDigits? whole
  let fraction ← fraction.mapM (digits? 10)
  let exponent ← exponent.mapM exponentDigits?
  match fraction, exponent with
  | none, none => none
  | _, _ =>
      return whole ++ (fraction.elim [] ('.' :: ·)) ++ (exponent.elim [] ('e' :: ·))

/-- The number that a word writes and that is no integer. -/
def real? (word : List Char) : Option Value :=
  let unsigned := (takeSign word).2
  if unsigned = "inf".toList ∨ unsigned = "nan".toList then some .real
  else
    ((realText? unsigned).bind readFloat?).map fun x => if x.number.isFinite then .real else .unreadable

/-- The number that exactly `count` digits write, and what follows them. -/
def fixedDigits? (count : Nat) (s : List Char) : Option (Nat × List Char) := do
  let number ← readDigits? 10 (s.take count)
  if (s.take count).length = count then some (number, s.drop count) else none

/-- What follows a character that must stand here. -/
def expect? (c : Char) : List Char → Option (List Char)
  | d :: rest => if c = d then some rest else none
  | [] => none

/-- The number of days of a month. -/
def daysOf (year month : Nat) : Nat :=
  if month = 2 then
    if year % 4 = 0 ∧ (year % 100 ≠ 0 ∨ year % 400 = 0) then 29 else 28
  else if month = 4 ∨ month = 6 ∨ month = 9 ∨ month = 11 then 30
  else 31

/-- What follows a date. -/
def afterDate? (s : List Char) : Option (List Char) := do
  let (year, s) ← fixedDigits? 4 s
  let (month, s) ← fixedDigits? 2 (← expect? '-' s)
  let (day, s) ← fixedDigits? 2 (← expect? '-' s)
  if 1 ≤ month ∧ month ≤ 12 ∧ 1 ≤ day ∧ day ≤ daysOf year month then some s else none

/-- What follows a time of the day. Seconds may be missing. -/
def afterTime? (s : List Char) : Option (List Char) := do
  let (hour, s) ← fixedDigits? 2 s
  let (minute, s) ← fixedDigits? 2 (← expect? ':' s)
  if 24 ≤ hour ∨ 60 ≤ minute then none
  else
    match s with
    | ':' :: rest => do
        let (second, rest) ← fixedDigits? 2 rest
        if 60 < second then none
        else
          match rest with
          | '.' :: fraction =>
              if (fraction.takeWhile isAsciiDigit).isEmpty then none
              else some (fraction.dropWhile isAsciiDigit)
          | _ => some rest
    | _ => some s

/-- Whether a text is nothing or the distance from world time. -/
def isOffset (s : List Char) : Bool :=
  match s with
  | [] => true
  | ['Z'] | ['z'] => true
  | c :: rest =>
      (c == '+' || c == '-') &&
        ((do
          let (hour, s) ← fixedDigits? 2 rest
          let (minute, s) ← fixedDigits? 2 (← expect? ':' s)
          if hour < 24 ∧ minute < 60 ∧ s.isEmpty then some () else none : Option Unit).isSome)

/-- Whether a word writes a date, a time of the day, or both. -/
def isTime (word : List Char) : Bool :=
  match afterDate? word with
  | some [] => true
  | some (c :: rest) =>
      (c == 'T' || c == 't' || c == ' ') && (afterTime? rest).any isOffset
  | none => (afterTime? word).any List.isEmpty

/-- The value of a word. -/
def wordValue? (word : List Char) : Option Value :=
  if word = "true".toList then some (.boolean true)
  else if word = "false".toList then some (.boolean false)
  else
    (integer? word).or <| (real? word).or <| if isTime word then some .time else none

/-- A character that ends a word. -/
def endsWord (c : Char) : Bool :=
  isLineBlank c || isControl c || c == ',' || c == ']' || c == '}' || c == '#'

/-- The word that starts here, and what follows it. A date and a time with one blank between them are
one word. -/
def word (s : List Char) : List Char × List Char :=
  let first := s.takeWhile (!endsWord ·)
  let after := s.dropWhile (!endsWord ·)
  match after with
  | ' ' :: c :: rest =>
      if (afterDate? first).any List.isEmpty && isAsciiDigit c then
        (first ++ ' ' :: (c :: rest).takeWhile (!endsWord ·), (c :: rest).dropWhile (!endsWord ·))
      else (first, after)
  | _ => (first, after)

end Stencil.Toml
