import Stencil.Text.Class

/-!
Trimming, cutting and splitting of texts. A text under examination is a list of characters; sizes
are counted in bytes of its UTF-8 form.
-/

namespace Stencil.Text

/-- The number of bytes a text takes. -/
def byteSize (s : List Char) : Nat := s.foldr (fun c size => c.utf8Size + size) 0

/-- The text without leading blanks. -/
def trimStart (s : List Char) : List Char := s.dropWhile isBlank

/-- The text without trailing blanks. -/
def trimEnd (s : List Char) : List Char := (s.reverse.dropWhile isBlank).reverse

/-- The text without blanks at either end. -/
def trim (s : List Char) : List Char := trimEnd (trimStart s)

/-- A string without blanks at either end. -/
def trimmed (s : String) : String := String.ofList (trim s.toList)

theorem length_trim_le (s : List Char) : (trim s).length ≤ s.length := by
  have h1 := (List.dropWhile_suffix (l := s) isBlank).length_le
  have h2 := (List.dropWhile_suffix (l := (trimStart s).reverse) isBlank).length_le
  simp only [trim, trimEnd, trimStart, List.length_reverse] at h1 h2 ⊢
  omega

theorem length_trimStart_le (s : List Char) : (trimStart s).length ≤ s.length :=
  (List.dropWhile_suffix isBlank).length_le

/-- The texts before and after the first occurrence of `mark`, where `before` holds what was
already passed, backwards. -/
def cutFrom? (mark before : List Char) : List Char → Option (List Char × List Char)
  | [] => if mark.isEmpty then some (before.reverse, []) else none
  | c :: rest =>
      match mark.isPrefixOf? (c :: rest) with
      | some after => some (before.reverse, after)
      | none => cutFrom? mark (c :: before) rest

/-- The texts before and after the first occurrence of `mark`, if there is one. -/
def cut? (mark s : List Char) : Option (List Char × List Char) := cutFrom? mark [] s

theorem eq_append_of_isPrefixOf? {mark s after : List Char} (h : mark.isPrefixOf? s = some after) :
    s = mark ++ after := by
  induction mark generalizing s with
  | nil => exact Option.some.inj h
  | cons m ms ih =>
      cases s with
      | nil => exact nomatch h
      | cons c cs =>
          change (if m == c then ms.isPrefixOf? cs else none) = some after at h
          split at h
          next hc => rw [ih h, eq_of_beq hc]; rfl
          next => cases h

theorem cutFrom?_append {mark before s b a : List Char} (h : cutFrom? mark before s = some (b, a)) :
    before.reverse ++ s = b ++ mark ++ a := by
  induction s generalizing before with
  | nil =>
      rw [cutFrom?] at h
      split at h
      next hm =>
        cases h
        simp [List.isEmpty_iff.1 hm]
      next => cases h
  | cons c rest ih =>
      rw [cutFrom?] at h
      split at h
      next after hp =>
        cases h
        rw [List.append_assoc]
        congr 1
        exact eq_append_of_isPrefixOf? hp
      next => simpa using ih h

/-- A text is what comes before the first mark, the mark, and what comes after. -/
theorem cut?_append {mark s b a : List Char} (h : cut? mark s = some (b, a)) :
    s = b ++ mark ++ a := by
  simpa using cutFrom?_append h

/-- Whether `mark` occurs in the text. -/
def occurs (mark s : List Char) : Bool := (cut? mark s).isSome

/-- The pieces between the occurrences of a character; one more than there are occurrences. -/
def splitAt (mark : Char) : List Char → List (List Char)
  | [] => [[]]
  | c :: rest =>
      if c = mark then [] :: splitAt mark rest
      else
        match splitAt mark rest with
        | piece :: pieces => (c :: piece) :: pieces
        | [] => [[c]]

/-- Pieces put together with a character between each two. -/
def joinWith (mark : Char) : List (List Char) → List Char
  | [] => []
  | [piece] => piece
  | piece :: pieces => piece ++ mark :: joinWith mark pieces

/-- Every occurrence of `old` replaced by `new`; `skip` characters of a found occurrence are still
to be passed over. -/
def replaceFrom (old new : List Char) (skip : Nat) : List Char → List Char
  | [] => []
  | c :: rest =>
      match skip with
      | n + 1 => replaceFrom old new n rest
      | 0 =>
          if old.isPrefixOf (c :: rest) then new ++ replaceFrom old new (old.length - 1) rest
          else c :: replaceFrom old new 0 rest

/-- Every occurrence of a non-empty text replaced, from left to right. -/
def replaceAll (old new s : List Char) : List Char := replaceFrom old new 0 s

/-- A non-empty identifier of basic letters, digits and underscores that does not start with a
digit. -/
def isIdentifier : List Char → Bool
  | [] => false
  | c :: rest => isIdentifierStart c && rest.all isIdentifierPart

end Stencil.Text
