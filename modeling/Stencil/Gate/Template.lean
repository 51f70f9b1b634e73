import Stencil.Fault
import Stencil.Settings
import Stencil.Text.Pattern
import Stencil.Markup.Attribute

/-!
The gate for template text: its size, the number of its interpolations, the nesting of its tags and
inline scripts, checked in this order before the text is scanned.
-/

namespace Stencil.Gate

open Text Markup

/-- Elements that never have a closing tag. -/
def voidElements : List String := [
  "area", "base", "br", "col", "embed", "hr", "img", "input", "link", "meta", "param", "source",
  "track", "wbr"]

/-- Elements that end where another of their kind follows. -/
def siblingClosedElements : List String := ["p", "li", "dt", "dd", "option", "tr", "td", "th"]

/-- Tags that part the arms of a conditional and open nothing. -/
def branchMarkers : List String := ["else", "elseif"]

/-- How often an interpolation opens. -/
def countOpenings : List Char → Nat
  | '{' :: '{' :: rest => countOpenings rest + 1
  | _ :: rest => countOpenings rest
  | [] => 0

/-- A tag of any name, in small letters. -/
structure AnyTag where
  closing : Bool
  name : String
  selfClosing : Bool
deriving Repr, DecidableEq

/-- The tag whose name a text starts with, and what follows it. -/
def namedTag? (closing : Bool) (s : List Char) : Option (AnyTag × List Char) :=
  let name := s.takeWhile isAsciiAlphanumeric
  if name.head?.any isAsciiLetter then
    (tagBody? (s.dropWhile isAsciiAlphanumeric)).map fun body =>
      (⟨closing, String.ofList (asciiLower name), body.selfClosing⟩, body.rest)
  else none

/-- The tag whose `<` was just passed, and what follows it. -/
def anyTag? : List Char → Option (AnyTag × List Char)
  | '/' :: rest => namedTag? true rest
  | rest => namedTag? false rest

theorem namedTag?_length {closing : Bool} {s after : List Char} {tag : AnyTag}
    (h : namedTag? closing s = some (tag, after)) : after.length ≤ s.length := by
  rw [namedTag?] at h
  split at h
  next =>
    obtain ⟨body, hb, h⟩ := Option.map_eq_some_iff.1 h
    cases h
    have h1 := congrArg List.length (tagBody?_append hb)
    have h2 := length_dropWhile_le isAsciiAlphanumeric s
    simp only [List.length_append, List.length_cons] at h1
    omega
  next => cases h

theorem anyTag?_length {rest after : List Char} {tag : AnyTag}
    (h : anyTag? rest = some (tag, after)) : after.length ≤ rest.length := by
  unfold anyTag? at h
  split at h
  · have := namedTag?_length h
    simp only [List.length_cons]
    omega
  · exact namedTag?_length h

/-- The tags of a text outside comments. -/
def anyTags (s : List Char) : List AnyTag :=
  match s with
  | [] => []
  | c :: rest =>
      if c = '<' then
        match _h : ['!', '-', '-'].isPrefixOf? rest with
        | some inside =>
            match _h' : cut? ['-', '-', '>'] inside with
            | some (_, after) => anyTags after
            | none => []
        | none =>
            match _h' : anyTag? rest with
            | some (tag, after) => tag :: anyTags after
            | none => anyTags rest
      else anyTags rest
termination_by s.length
decreasing_by
  · have h1 := congrArg List.length (eq_append_of_isPrefixOf? _h)
    have h2 := congrArg List.length (cut?_append _h')
    simp only [List.length_append, List.length_cons] at h1 h2 ⊢
    omega
  · have := anyTag?_length _h'
    simp only [List.length_cons]
    omega
  · simp
  · simp

/-- The elements open after a tag, innermost first. A closing tag also closes what was left open
inside its element. -/
def openAfter (opened : List String) (tag : AnyTag) : List String :=
  if tag.closing then
    match opened.dropWhile (· != tag.name) with
    | _ :: outer => outer
    | [] => opened
  else if tag.selfClosing || voidElements.contains tag.name || branchMarkers.contains tag.name then
    opened
  else if siblingClosedElements.contains tag.name && opened.head? == some tag.name then opened
  else tag.name :: opened

/-- The elements open and the greatest number of them so far. -/
def nest (state : List String × Nat) (tag : AnyTag) : List String × Nat :=
  let opened := openAfter state.1 tag
  (opened, max state.2 opened.length)

/-- The deepest nesting of the tags of a text. -/
def nestingDepth (s : List Char) : Nat := ((anyTags s).foldl nest ([], 0)).2

/-- The tag of a script. -/
def scriptPattern : Pattern := [.one (· == '<') :: Way.word "script" ++ [.bound]]

/-- An attribute that handles an event. -/
def handlerPattern : Pattern := [
  [.one (· == '<'), .run (· != '>'), .one isBlank] ++ Way.word "on" ++ Way.oneOrMore isFoldedLetter ++
    [.run isBlank, .one (· == '=')]]

/-- The first inline script or event handler of a text. -/
def inlineScript? (s : List Char) : Option (List Char) :=
  (scriptPattern.find? s).or (handlerPattern.find? s)

/-- Checks template text before it is scanned. -/
def checkTemplate (security : Security) (source : String) : Except Fault Unit :=
  let limits := security.limits
  let text := source.toList
  let openings := countOpenings text
  let depth := nestingDepth text
  if limits.templateSize < source.utf8ByteSize then
    .error (.limitExceeded .templateSize limits.templateSize source.utf8ByteSize)
  else if limits.interpolations < openings then
    .error (.limitExceeded .interpolations limits.interpolations openings)
  else if limits.nestingDepth < depth then
    .error (.limitExceeded .nestingDepth limits.nestingDepth depth)
  else if security.allowInlineScripts then .ok ()
  else
    match inlineScript? text with
    | some fragment => .error (.unsafeTemplate (String.ofList fragment))
    | none => .ok ()

end Stencil.Gate
