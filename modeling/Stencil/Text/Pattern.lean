import Stencil.Text.Class

/-!
Search patterns over texts. A pattern is a list of ways, each a sequence of atoms: single
characters, runs of them, and bounds of words. A search follows all attempts at a match through the
text at the same time, so that its work grows with the length of the text alone. Of the matches in a
text the one that starts first is found; of those the one by the earliest way, with its first runs as
long as possible.
-/

namespace Stencil.Text

/-- An atom of a way. -/
inductive Atom where
  /-- One character of a class. -/
  | one (cls : Char → Bool)
  /-- Any number of characters of a class, as many as possible. -/
  | run (cls : Char → Bool)
  /-- A place where a word begins or ends. -/
  | bound

/-- A way of matching: atoms one after the other. -/
abbrev Way := List Atom

/-- The ways of matching, the preferred ones first. -/
abbrev Pattern := List Way

/-- Whether a word begins or ends between two characters; at the end of a text there is none. -/
def wordBound (before next : Option Char) : Bool := before.any isWord != next.any isWord

/-- What a way leaves at each of its places that are reached here without a character and go on with
the next one, the greedier first. A way that ends here leaves nothing. -/
def reach (before next : Option Char) : Way → List Way
  | [] => [[]]
  | .one cls :: rest => if next.any cls then [.one cls :: rest] else []
  | .run cls :: rest =>
      let later := reach before next rest
      if next.any cls then (.run cls :: rest) :: later else later
  | .bound :: rest => (reach before next rest).filter fun _ => wordBound before next

/-- What a way leaves after the next character. -/
def afterNext : Way → Way
  | .one _ :: rest => rest
  | way => way

/-- An attempt at a match: the way it follows, what that leaves, and where the match starts. -/
structure Attempt where
  way : Nat
  left : Way
  start : Nat

namespace Attempt

/-- Whether the match ends here. -/
def isDone (attempt : Attempt) : Bool := attempt.left.isEmpty

/-- Whether two attempts go on in the same way. -/
def sameWay (a b : Attempt) : Bool := a.way == b.way && a.left.length == b.left.length

/-- The attempts that one becomes before the next character is taken. -/
def reached (before next : Option Char) (attempt : Attempt) : List Attempt :=
  (reach before next attempt.left).map fun left => { attempt with left }

/-- The attempt after the next character. -/
def advance (attempt : Attempt) : Attempt := { attempt with left := afterNext attempt.left }

/-- Attempts put before those that were kept, backwards, unless one kept goes on in the same way. -/
def distinct (kept : List Attempt) : List Attempt → List Attempt
  | [] => kept.reverse
  | attempt :: rest =>
      if kept.any attempt.sameWay then distinct kept rest else distinct (attempt :: kept) rest

end Attempt

/-- The attempts that begin at a place. -/
def Pattern.begin (pattern : Pattern) (start : Nat) (before next : Option Char) : List Attempt :=
  pattern.zipIdx.flatMap fun (atoms, way) => Attempt.reached before next ⟨way, atoms, start⟩

/-- Where the match lies that a search finds, as the numbers of characters before its start and before
its end. The search stands behind `place` characters, the last of them `before`; it follows the
attempts, the preferred ones first, and a match that is preferred to none of them may be found
already. -/
def Pattern.search (pattern : Pattern) (place : Nat) (before : Option Char)
    (attempts : List Attempt) (found : Option (Nat × Nat)) : List Char → Option (Nat × Nat)
  | [] =>
      let fresh := if found.isSome then [] else pattern.begin place before none
      let reached := attempts.flatMap (Attempt.reached before none) ++ fresh
      ((reached.find? Attempt.isDone).map fun attempt => (attempt.start, place)).or found
  | c :: rest =>
      let fresh := if found.isSome then [] else pattern.begin place before (some c)
      let reached :=
        Attempt.distinct [] (attempts.flatMap (Attempt.reached before (some c)) ++ fresh)
      let found :=
        ((reached.find? Attempt.isDone).map fun attempt => (attempt.start, place)).or found
      let pending := reached.takeWhile (!·.isDone)
      if pending.isEmpty && found.isSome then found
      else pattern.search (place + 1) (some c) (pending.map Attempt.advance) found rest

/-- The text of the match that a search finds. -/
def Pattern.find? (pattern : Pattern) (s : List Char) : Option (List Char) :=
  (pattern.search 0 none [] none s).map fun (start, stop) => (s.drop start).take (stop - start)

/-- The long s, whose upper case is `S`. -/
def longS : Char := '\u017f'

/-- The sign for kelvin, whose lower case is `k`. -/
def kelvin : Char := '\u212a'

/-- Whether a character is a given small basic letter in either case, or one of the two characters
outside the basic alphabet that share a case with one. -/
def sameFold (letter c : Char) : Bool :=
  c.toLower == letter || (letter == 's' && c == longS) || (letter == 'k' && c == kelvin)

/-- A letter for a search that ignores case. -/
def isFoldedLetter (c : Char) : Bool := isAsciiLetter c || c == longS || c == kelvin

/-- A word of small letters, whatever the case it is written in. -/
def Way.word (word : String) : Way := word.toList.map fun letter => .one (sameFold letter)

/-- One or more characters of a class. -/
def Way.oneOrMore (cls : Char → Bool) : Way := [.one cls, .run cls]

/-- One or more blanks. -/
def Way.blanks : Way := Way.oneOrMore isBlank

end Stencil.Text
