import Stencil.Proofs.Decimal.Written
import Stencil.Proofs.Folding
import Stencil.Proofs.Resolution.Tokens

/-!
How the tokens of expressions are written, and that what is written is read: signs, words that stand for
operators and constants, integers, texts in quotes, and references. Tokens with a space between each two of
them are read one by one.
-/

namespace Stencil

open Text Reference

namespace Formula

/-- A token as it is written. -/
structure Lexeme where
  text : List Char
  token : Token

/-- A token is read from its text wherever an operand could end behind it. -/
def Lexeme.IsRead (lexeme : Lexeme) : Prop :=
  ∀ rest, EndsOperand rest → tokens? (lexeme.text ++ rest) = (tokens? rest).map (lexeme.token :: ·)

theorem tokens?_joinWith {lexemes : List Lexeme} (h : ∀ lexeme ∈ lexemes, lexeme.IsRead) :
    tokens? (joinWith ' ' (lexemes.map Lexeme.text)) = some (lexemes.map Lexeme.token) := by
  induction lexemes with
  | nil => rw [List.map_nil, joinWith, tokens?, List.map_nil]
  | cons lexeme others ih =>
      obtain ⟨hfirst, hothers⟩ := List.forall_mem_cons.1 h
      cases others with
      | nil =>
          have hread := hfirst [] (.inl rfl)
          rw [List.append_nil] at hread
          rw [List.map_singleton, joinWith, hread, tokens?]
          rfl
      | cons second others =>
          have hrest := ih hothers
          rw [List.map_cons, joinWith_cons (by simp), hfirst _ (.inr ⟨_, rfl⟩), tokens?_space, hrest]
          rfl

/-- The words that stand for operators and constants. -/
def keywords : List (String × Token) := [
  ("or", .or), ("and", .and), ("not", .not), ("true", .literal (.bool true)),
  ("false", .literal (.bool false)), ("null", .literal .null)]

/-- How an operator or a constant may be spelled: as a sign, or as a word in any case. -/
structure Spelling (token : Token) where
  text : List Char
  spells : (text, token) ∈ signs ∨ ∃ word, (word, token) ∈ keywords ∧ sameLetters text word.toList = true

/-- One or more digits. -/
structure Digits where
  text : List Char
  nonempty : text ≠ []
  digits : ∀ c ∈ text, isAsciiDigit c = true

/-- A text in quotes, without backslashes and without its mark. -/
structure Quotation where
  mark : Char
  inner : List Char
  isMark : mark = '"' ∨ mark = '\''
  plain : ∀ c ∈ inner, c ≠ '\\' ∧ c ≠ mark

/-- A name with members and indexers behind it that is no keyword. -/
structure PlainReference where
  name : List Char
  accesses : List Access
  named : isIdentifier name = true
  wellFormed : accesses.all isTaken = true
  free : isReserved (name ++ accessText accesses) = false

def Spelling.lexeme {token : Token} (spelling : Spelling token) : Lexeme := ⟨spelling.text, token⟩

/-- The number that digits write: an integer if it is one of 64 bits, and otherwise the floating-point number
nearest to it. -/
def Digits.value (digits : Digits) : Value :=
  let number := Nat.ofDigitChars 10 digits.text 0
  match Decimal.word? number with
  | some word => .int word
  | none => .float (Decimal.nearest number 0)

def Digits.lexeme (digits : Digits) : Lexeme := ⟨digits.text, .literal digits.value⟩

def Quotation.value (quotation : Quotation) : Value := .string (String.ofList quotation.inner)

def Quotation.lexeme (quotation : Quotation) : Lexeme :=
  ⟨quotation.mark :: (quotation.inner ++ [quotation.mark]), .literal quotation.value⟩

def PlainReference.text (reference : PlainReference) : String :=
  String.ofList (reference.name ++ accessText reference.accesses)

def PlainReference.lexeme (reference : PlainReference) : Lexeme :=
  ⟨reference.text.toList, .reference reference.text⟩

theorem isIdentifier_of_sameLetters {text : List Char} {word : String} {token : Token}
    (hmem : (word, token) ∈ keywords) (h : sameLetters text word.toList = true) : isIdentifier text = true := by
  have hkeywords : ∀ entry ∈ keywords, entry.1.toList ≠ [] ∧
      (asciiLower entry.1.toList).all isAsciiLetter = true := by decide
  obtain ⟨hne, hall⟩ := hkeywords _ hmem
  have hletters := List.all_eq_true.1 hall
  have hsame : asciiLower text = asciiLower word.toList := eq_of_beq h
  have htext : ∀ c ∈ text, isAsciiLetter c = true := fun c hc =>
    isAsciiLetter_of_toLower (hletters _ (hsame ▸ List.mem_map_of_mem hc))
  cases text with
  | nil => exact absurd (List.map_eq_nil_iff.1 hsame.symm) hne
  | cons first rest =>
      obtain ⟨hfirst, hrest⟩ := List.forall_mem_cons.1 htext
      refine Bool.and_eq_true_iff.2 ⟨?_, List.all_eq_true.2 fun c hc => ?_⟩
      · simp only [isIdentifierStart, hfirst, Bool.true_or]
      · simp only [isIdentifierPart, isAsciiAlphanumeric, hrest c hc, Bool.true_or]

theorem wordToken_of_sameLetters {text : List Char} {word : String} {token : Token}
    (hmem : (word, token) ∈ keywords) (h : sameLetters text word.toList = true) : wordToken text = token := by
  have hsame : asciiLower text = asciiLower word.toList := eq_of_beq h
  unfold wordToken sameLetters
  rw [hsame]
  simp only [keywords, List.mem_cons, Prod.mk.injEq, List.not_mem_nil, or_false] at hmem
  rcases hmem with h | h | h | h | h | h <;> obtain ⟨rfl, rfl⟩ := h <;> rfl

theorem Spelling.isRead {token : Token} (spelling : Spelling token) : spelling.lexeme.IsRead := by
  intro rest hrest
  rcases spelling.spells with hsign | ⟨word, hmem, hsame⟩
  · exact tokens?_of_mem_signs hsign hrest
  · have hplain : List.all [] isTaken = true := rfl
    have hread := tokens?_word (isIdentifier_of_sameLetters hmem hsame) hplain hrest
    rw [accessText, List.flatMap_nil, List.append_nil, wordToken_of_sameLetters hmem hsame] at hread
    exact hread

theorem PlainReference.isRead (reference : PlainReference) : reference.lexeme.IsRead := by
  intro rest hrest
  have hread := tokens?_word reference.named reference.wellFormed hrest
  rw [wordToken_of_not_reserved reference.free] at hread
  unfold lexeme text
  rw [String.toList_ofList]
  exact hread

theorem toLower_of_isAsciiDigit {c : Char} (h : isAsciiDigit c = true) : c.toLower = c := by
  unfold Char.toLower
  refine dif_neg fun hupper => ?_
  have hle : c.toNat ≤ '9'.toNat := by
    unfold isAsciiDigit at h
    rw [Bool.and_eq_true, decide_eq_true_iff, decide_eq_true_iff] at h
    exact h.2
  have hlow : 'A'.toNat ≤ c.toNat := hupper.1
  exact absurd (hlow.trans hle) (by decide)

theorem readFloat?_digits (digits : Digits) :
    Decimal.readFloat? digits.text =
      some ((Decimal.nearest (Nat.ofDigitChars 10 digits.text 0) 0 : Float) : Floating) := by
  have hlower : digits.text.map Char.toLower = digits.text :=
    (List.map_congr_left fun c hc => toLower_of_isAsciiDigit (digits.digits c hc)).trans (List.map_id _)
  have hword {word : List Char} (h : word.all isAsciiDigit = false) : digits.text ≠ word := by
    rintro rfl
    rw [List.all_eq_true.2 digits.digits] at h
    cases h
  have hending : ∀ c ∈ ([] : List Char).head?, isAsciiDigit c = false := fun _ hc => nomatch hc
  have hparts := Decimal.readParts?_whole digits.digits digits.nonempty hending (fun hpoint => nomatch hpoint)
  rw [List.append_nil] at hparts
  unfold Decimal.readFloat?
  rw [Decimal.takeSign_of_digits digits.digits]
  dsimp only
  rw [hlower, if_neg, if_neg (hword (by decide)), hparts]
  · have hvalue : Decimal.Parts.value ⟨digits.text, [], 0⟩ =
        Decimal.nearest (Nat.ofDigitChars 10 digits.text 0) 0 := by
      unfold Decimal.Parts.value
      rw [List.append_nil, Decimal.readAfter?_of_digits digits.digits]
      rfl
    rw [← hvalue]
    rfl
  · rintro (h | h)
    · exact hword (by decide) h
    · exact hword (by decide) h

theorem numberValue_digits (digits : Digits) : numberValue digits.text = digits.value := by
  have hempty : digits.text.isEmpty = false := List.isEmpty_eq_false_iff.2 digits.nonempty
  have hinteger : Decimal.readInt? digits.text = Decimal.word? (Nat.ofDigitChars 10 digits.text 0) := by
    unfold Decimal.readInt? Decimal.readDigits?
    rw [Decimal.takeSign_of_digits digits.digits]
    dsimp only
    rw [hempty, Decimal.readAfter?_of_digits digits.digits]
    rfl
  unfold numberValue Digits.value
  rw [hinteger]
  dsimp only
  cases Decimal.word? (Nat.ofDigitChars 10 digits.text 0) with
  | none => simp only [readFloat?_digits]
  | some word => rfl

theorem Digits.isRead (digits : Digits) : digits.lexeme.IsRead := by
  intro rest hrest
  have hstop : ∀ c ∈ rest.head?, isAsciiDigit c = false ∧ c ≠ '.' ∧ c ≠ 'e' ∧ c ≠ 'E' := by
    rcases hrest with rfl | ⟨more, rfl⟩
    · exact fun c hc => nomatch hc
    · intro c hc
      cases hc
      decide
  obtain ⟨htake, hdrop⟩ := span_append digits.digits fun c hc => (hstop c hc).1
  have hfraction : fraction rest = ([], rest) := by
    unfold fraction
    refine if_neg fun hpoint => ?_
    exact absurd rfl (hstop '.' (hpoint ▸ rfl)).2.1
  have hexponent : exponent rest = ([], rest) := by
    rcases hrest with rfl | ⟨more, rfl⟩
    · rfl
    · rfl
  have hnumber : number (digits.text ++ rest) = (.literal digits.value, rest) := by
    unfold number
    rw [htake, hdrop, hfraction]
    dsimp only
    rw [hexponent, List.append_nil, List.append_nil, numberValue_digits]
  cases hcons : digits.text with
  | nil => exact absurd hcons digits.nonempty
  | cons first others =>
      have hfirst : isAsciiDigit first = true := digits.digits first (hcons ▸ List.mem_cons_self ..)
      have hgap : isGap first = false := by
        rw [← Bool.not_eq_true]
        intro hgap
        simp only [isGap, Bool.or_eq_true, beq_iff_eq] at hgap
        rcases hgap with ((rfl | rfl) | rfl) | rfl <;> exact absurd hfirst (by decide)
      rw [hcons, List.cons_append] at hnumber
      have htoken : token? first (others ++ rest) = some (.literal digits.value, rest) := by
        rw [token?, if_pos hfirst, hnumber]
      unfold lexeme
      rw [hcons]
      exact tokens?_cons hgap htoken

theorem unquote?_plain (quotation : Quotation) :
    unquote? (quotation.mark :: (quotation.inner ++ [quotation.mark])) = some quotation.inner := by
  obtain ⟨mark, inner, hmark, hplain⟩ := quotation
  have hinside (mode : QuoteMode) (hstep : ∀ c rest, c ≠ '\\' ∧ c ≠ mark →
      unquoteFrom? mode (c :: rest) = (unquoteFrom? mode rest).map (c :: ·))
      (hend : unquoteFrom? mode [mark] = some []) : unquoteFrom? mode (inner ++ [mark]) = some inner := by
    clear hmark
    induction inner with
    | nil => exact hend
    | cons c others ih =>
        obtain ⟨hc, hothers⟩ := List.forall_mem_cons.1 hplain
        rw [List.cons_append, hstep c _ hc, ih hothers]
        rfl
  rcases hmark with rfl | rfl
  · refine hinside .double (fun c rest hc => ?_) rfl
    rw [unquoteFrom?]
    · exact if_neg hc.2
    all_goals
      intros
      exact hc.1 ‹c = '\\'›
  · refine hinside .single (fun c rest hc => ?_) rfl
    rw [unquoteFrom?]
    exact if_neg hc.2

theorem Quotation.isRead (quotation : Quotation) : quotation.lexeme.IsRead := by
  intro rest hrest
  have hmark : quotation.mark ≠ '\\' := by
    rcases quotation.isMark with h | h <;> rw [h] <;> decide
  have hquoted : quoted? quotation.mark (quotation.inner ++ quotation.mark :: rest) =
      some (.literal quotation.value, rest) := by
    unfold quoted?
    rw [quotedText_plain quotation.plain hmark, List.reverse_nil, List.nil_append]
    dsimp only
    rw [unquote?_plain]
    rfl
  have htoken : token? quotation.mark (quotation.inner ++ quotation.mark :: rest) =
      some (.literal quotation.value, rest) := by
    rw [← hquoted]
    rcases quotation.isMark with h | h <;> rw [h] <;> rfl
  have hgap : isGap quotation.mark = false := by
    rcases quotation.isMark with h | h <;> rw [h] <;> rfl
  unfold lexeme
  rw [List.cons_append, List.append_assoc, List.singleton_append]
  exact tokens?_cons hgap htoken

end Formula

end Stencil
