import Stencil.Text.Basic
import Stencil.Text.Case
import Stencil.Text.Quoted

/-!
Attributes of a tag: where a tag ends, and how the list of attributes between its name and its end
is read. An attribute is a name alone, a name with a quoted value, or a name with a value that runs
to the next blank.
-/

namespace Stencil.Markup

open Text

/-- An attribute as written, with the quotes of its value removed. -/
structure Attribute where
  name : String
  value : String
deriving Repr, DecidableEq

/-- The value of the first attribute with a name, whatever the case of its letters. -/
def attribute? (attributes : List Attribute) (name : String) : Option String :=
  (attributes.find? fun a => sameName a.name name).map Attribute.value

/-- What follows the name of a tag: the text up to its end, whether the end is `/>`, and the text
after it. -/
structure TagBody where
  inner : List Char
  selfClosing : Bool
  rest : List Char
deriving DecidableEq

/-- What has been seen of a tag's body: the open quote, whether a backslash in it still escapes the
next character, and whether the last character that is no blank was a slash. -/
structure TagScan where
  quote : Option Char := none
  escaping : Bool := false
  slash : Bool := false

/-- The scan after one more character that does not end the tag. -/
def TagScan.step (scan : TagScan) (c : Char) : TagScan :=
  let slash := if isAsciiBlank c then scan.slash else c == '/'
  match scan.quote with
  | some mark =>
      if scan.escaping then ⟨some mark, false, slash⟩
      else if c = '\\' then ⟨some mark, true, slash⟩
      else if c = mark then ⟨none, false, slash⟩
      else ⟨some mark, false, slash⟩
  | none => if c = '"' ∨ c = '\'' then ⟨some c, false, slash⟩ else ⟨none, false, slash⟩

/-- The end of a tag at the first `>` outside quotes. Inside quotes a backslash escapes the next
character. The characters passed so far are given backwards. -/
def tagBodyFrom? (scan : TagScan) (passed : List Char) : List Char → Option TagBody
  | [] => none
  | c :: rest =>
      if c = '>' ∧ scan.quote = none then some ⟨passed.reverse, scan.slash, rest⟩
      else tagBodyFrom? (scan.step c) (c :: passed) rest

/-- The body of a tag whose name was just read; nothing when the tag never ends. -/
def tagBody? (s : List Char) : Option TagBody := tagBodyFrom? {} [] s

theorem tagBodyFrom?_append {scan : TagScan} {passed s : List Char} {body : TagBody}
    (h : tagBodyFrom? scan passed s = some body) :
    passed.reverse ++ s = body.inner ++ '>' :: body.rest := by
  induction s generalizing scan passed with
  | nil => simp [tagBodyFrom?] at h
  | cons c rest ih =>
      rw [tagBodyFrom?] at h
      split at h
      next hc => cases h; simp [hc.1]
      next => simpa using ih h

/-- A tag's body, its end and what follows make up the text it was read from. -/
theorem tagBody?_append {s : List Char} {body : TagBody} (h : tagBody? s = some body) :
    s = body.inner ++ '>' :: body.rest := by
  simpa using tagBodyFrom?_append h

/-- Whether a character separates attributes. -/
def isSeparator (c : Char) : Bool := isAsciiBlank c || c == '/'

/-- Whether a character can stand in an attribute's name. -/
def isNamePart (c : Char) : Bool := !(isSeparator c || c == '=' || c == '"' || c == '\'')

/-- The text that a quoted value stands for. Double quotes know escapes, and a value with an
unknown one is kept as written; single quotes know the escaped quote only. -/
def quotedValue (mark : Char) (text : List Char) : List Char :=
  if !text.contains '\\' then text
  else if mark = '"' then (unquote? ('"' :: (text ++ ['"']))).getD text
  else replaceAll ['\\', '\''] ['\''] text

/-- A value without quotes loses one slash at its end. -/
def bareValue (text : List Char) : List Char :=
  match text.reverse with
  | '/' :: before => before.reverse
  | _ => text

theorem length_dropWhile_le (p : Char → Bool) (s : List Char) :
    (s.dropWhile p).length ≤ s.length :=
  (List.dropWhile_suffix p).length_le

/-- An attribute without a value. -/
def bareAttribute (name : List Char) : Attribute := ⟨String.ofList name, ""⟩

/-- The attributes of a list, given a name that still lacks a value and whether the next quoted
text is its value. -/
def attributesFrom (pending : Option (List Char)) (awaiting : Bool) (s : List Char) :
    List Attribute :=
  match s with
  | [] => (pending.map bareAttribute).toList
  | c :: rest =>
      if isSeparator c then attributesFrom pending awaiting rest
      else if c = '=' then
        match pending with
        | none => attributesFrom none awaiting rest
        | some name =>
            let value := trimStart rest
            if value.head? = some '"' ∨ value.head? = some '\'' then
              attributesFrom (some name) true rest
            else
              ⟨String.ofList name, String.ofList (bareValue (value.takeWhile (!isAsciiBlank ·)))⟩ ::
                attributesFrom none awaiting (value.dropWhile (!isAsciiBlank ·))
      else if c = '"' ∨ c = '\'' then
        match _h : quotedText c [] rest with
        | .error after => attributesFrom pending false after
        | .ok (text, after) =>
            match awaiting, pending with
            | true, some name =>
                ⟨String.ofList name, String.ofList (quotedValue c text)⟩ ::
                  attributesFrom none false after
            | _, _ => attributesFrom pending false after
      else
        (pending.map bareAttribute).toList ++
          attributesFrom (some (c :: rest.takeWhile isNamePart)) false (rest.dropWhile isNamePart)
termination_by s.length
decreasing_by
  all_goals simp only [List.length_cons]
  · omega
  · omega
  · omega
  · have h1 := length_dropWhile_le (!isAsciiBlank ·) (trimStart rest)
    have h2 := length_dropWhile_le isBlank rest
    simp only [trimStart] at h1 ⊢
    omega
  · have := quotedText_length.2 _ _h
    omega
  · have := quotedText_length.1 _ _ _h
    omega
  · have := quotedText_length.1 _ _ _h
    omega
  · have := length_dropWhile_le isNamePart rest
    omega

/-- The attributes of the list between the name of a tag and its end. -/
def attributesOf (inner : List Char) : List Attribute := attributesFrom none false inner

end Stencil.Markup
