import Stencil.Formula.Grammar
import Stencil.Proofs.Cutting
import Stencil.Proofs.Resolution.Place

/-!
Places and operators in front of the grammar: a place that is no reserved word is one token, and so is
an operator between spaces. Two places with an operator between them are one formula.
-/

namespace Stencil

open Text Reference

theorem Text.isAsciiDigit_of_isIdentifierStart {c : Char} (h : isIdentifierStart c = true) :
    isAsciiDigit c = false := by
  rw [← Bool.not_eq_true]
  intro hdigit
  simp only [isIdentifierStart, isAsciiLetter, isAsciiDigit, Bool.or_eq_true, Bool.and_eq_true,
    decide_eq_true_eq, beq_iff_eq, Char.le_def, UInt32.le_iff_toNat_le] at h hdigit
  have hhigh : c.val.toNat ≤ 57 := hdigit.2
  rcases h with (⟨hlow, -⟩ | ⟨hlow, -⟩) | rfl
  · have hlow' : 97 ≤ c.val.toNat := hlow
    omega
  · have hlow' : 65 ≤ c.val.toNat := hlow
    omega
  · exact absurd hhigh (by decide)

namespace Formula

/-- What may stand behind an operand: a space or nothing. -/
def EndsOperand (rest : List Char) : Prop := rest = [] ∨ ∃ more, rest = ' ' :: more

theorem head_accessText (accesses : List Access) {rest : List Char} (h : EndsOperand rest) :
    ∀ c ∈ (accessText accesses ++ rest).head?, isIdentifierPart c = false := by
  rcases accesses with _ | ⟨_ | _, more⟩
  · rcases h with rfl | ⟨more, rfl⟩
    · exact fun c hc => nomatch hc
    · intro c hc
      cases hc
      rfl
  · intro c hc
    cases hc
    rfl
  · intro c hc
    cases hc
    rfl

theorem accessors_of_endsOperand {rest : List Char} (h : EndsOperand rest) (taken : List Char) :
    accessors taken rest = (taken.reverse, rest) := by
  rcases h with rfl | ⟨more, rfl⟩
  · rw [accessors.eq_def]
  · rw [accessors.eq_def]
    rfl

theorem accessors_member {name : List Char} (named : isIdentifier name = true) {behind : List Char}
    (hbehind : ∀ c ∈ behind.head?, isIdentifierPart c = false) (taken : List Char) :
    accessors taken ('.' :: (name ++ behind)) = accessors (name.reverse ++ '.' :: taken) behind := by
  cases name with
  | nil => exact absurd named (by decide)
  | cons first parts =>
      obtain ⟨hfirst, hparts⟩ := Bool.and_eq_true_iff.1 named
      obtain ⟨htake, hdrop⟩ := span_append (List.all_eq_true.1 hparts) hbehind
      rw [List.cons_append, accessors, if_pos hfirst, htake, hdrop, List.reverse_cons,
        List.append_assoc, List.singleton_append]

theorem accessors_index {key : List Char} (inside : ∀ c ∈ key, c ≠ ']') (behind taken : List Char) :
    accessors taken ('[' :: (key ++ ']' :: behind)) =
      accessors (']' :: (key.reverse ++ '[' :: taken)) behind := by
  have hkey : ∀ c ∈ key, (c != ']') = true := fun c hc => bne_iff_ne.2 (inside c hc)
  have htake : (key ++ ']' :: behind).takeWhile (· != ']') = key := by
    rw [List.takeWhile_append_of_pos hkey]
    simp
  have hdrop : (key ++ ']' :: behind).dropWhile (· != ']') = ']' :: behind := by
    rw [List.dropWhile_append_of_pos hkey]
    simp
  rw [accessors]
  split
  next close after hafter =>
    cases hdrop.symm.trans hafter
    rw [htake]
  next hafter => cases hdrop.symm.trans hafter

/-- Whether an accessor is taken as a whole: a member whose name is an identifier, or an indexer that ends
with its first closing bracket. -/
def isTaken : Access → Bool
  | .member name => isIdentifier name
  | .index key gap => key.all (· != ']') && gap.isEmpty

/-- The members and indexers behind a name are taken as a whole. -/
theorem accessors_accessText {accesses : List Access} (wellFormed : accesses.all isTaken = true)
    {rest : List Char} (h : EndsOperand rest) (taken : List Char) :
    accessors taken (accessText accesses ++ rest) = (taken.reverse ++ accessText accesses, rest) := by
  induction accesses generalizing taken with
  | nil =>
      have hstop := accessors_of_endsOperand h taken
      rw [accessText, List.flatMap_nil, List.nil_append, List.append_nil]
      exact hstop
  | cons access others ih =>
      obtain ⟨haccess, hothers⟩ := Bool.and_eq_true_iff.1 wellFormed
      rw [accessText_cons, List.append_assoc]
      cases access with
      | member name =>
          rw [Access.text, List.cons_append, accessors_member haccess (head_accessText others h), ih hothers]
          simp
      | index key gap =>
          obtain ⟨hkey, hgap⟩ := Bool.and_eq_true_iff.1 haccess
          have hinside : ∀ c ∈ key, c ≠ ']' := fun c hc => bne_iff_ne.1 (List.all_eq_true.1 hkey c hc)
          rw [List.isEmpty_iff.1 hgap, Access.text, List.cons_append, List.append_assoc, List.cons_append,
            List.nil_append, accessors_index hinside, ih hothers]
          simp

theorem isTaken_access {selector : Selector} (h : selector.isWellFormed = true) :
    isTaken selector.access = true := by
  cases selector with
  | member name => exact h
  | index key =>
      refine Bool.and_eq_true_iff.2 ⟨List.all_eq_true.2 fun c hc => ?_, rfl⟩
      exact bne_iff_ne.2 (Key.ne_bracket h c hc)

def reservedWords : List String := ["or", "and", "not", "true", "false", "null"]

/-- Whether a word is an operator or a literal, whatever the case of its letters. -/
def isReserved (word : List Char) : Bool :=
  reservedWords.any fun reserved => sameLetters word reserved.toList

theorem wordToken_of_not_reserved {word : List Char} (h : isReserved word = false) :
    wordToken word = .reference (String.ofList word) := by
  simp only [isReserved, reservedWords, List.any_cons, List.any_nil, Bool.or_eq_false_iff] at h
  obtain ⟨hor, hand, hnot, htrue, hfalse, hnull, -⟩ := h
  simp only [wordToken, hor, hand, hnot, htrue, hfalse, hnull, Bool.false_eq_true, if_false]

/-- No reserved word has a point or a bracket in it. -/
theorem not_reserved_of_mem {word : List Char} {mark : Char} (hmark : mark = '.' ∨ mark = '[')
    (hmem : mark ∈ word) : isReserved word = false := by
  have hwords : ∀ reserved ∈ reservedWords,
      '.' ∉ asciiLower reserved.toList ∧ '[' ∉ asciiLower reserved.toList := by decide
  rw [isReserved, List.any_eq_false]
  intro reserved hreserved hsame
  have hlower : mark ∈ asciiLower word := by
    have hself : mark.toLower = mark := by
      rcases hmark with rfl | rfl
      · rfl
      · rfl
    rw [← hself]
    exact List.mem_map_of_mem hmem
  rw [eq_of_beq hsame] at hlower
  rcases hmark with rfl | rfl
  · exact (hwords reserved hreserved).1 hlower
  · exact (hwords reserved hreserved).2 hlower

/-- A place is a reserved word only if it is a name alone. -/
theorem not_reserved_text {place : Place} (h : isReserved place.name = false) :
    isReserved place.text = false := by
  rcases hselectors : place.selectors with _ | ⟨_ | _, rest⟩
  · rw [Place.text, hselectors, selectorText, List.map_nil, accessText, List.flatMap_nil,
      List.append_nil]
    exact h
  · refine not_reserved_of_mem (.inl rfl) ?_
    rw [Place.text, hselectors]
    exact List.mem_append_right _ (List.mem_cons_self ..)
  · refine not_reserved_of_mem (.inr rfl) ?_
    rw [Place.text, hselectors]
    exact List.mem_append_right _ (List.mem_cons_self ..)

/-- The tokens of a text whose first token is known. -/
theorem tokens?_cons {c : Char} {rest after : List Char} {token : Token} (hgap : isGap c = false)
    (h : token? c rest = some (token, after)) :
    tokens? (c :: rest) = (tokens? after).map (token :: ·) := by
  rw [tokens?, hgap]
  simp only [Bool.false_eq_true, if_false]
  split
  next token' after' h' =>
    cases h.symm.trans h'
    rfl
  next h' => cases h.symm.trans h'

theorem tokens?_space (rest : List Char) : tokens? (' ' :: rest) = tokens? rest := by
  rw [tokens?]
  rfl

theorem isGap_of_isIdentifierStart {c : Char} (h : isIdentifierStart c = true) :
    isGap c = false := by
  rw [← Bool.not_eq_true]
  intro hgap
  simp only [isGap, Bool.or_eq_true, beq_iff_eq] at hgap
  rcases hgap with ((rfl | rfl) | rfl) | rfl
  · exact absurd h (by decide)
  · exact absurd h (by decide)
  · exact absurd h (by decide)
  · exact absurd h (by decide)

/-- A name with accessors behind it is one word. -/
theorem tokens?_word {name : List Char} (named : isIdentifier name = true) {accesses : List Access}
    (wellFormed : accesses.all isTaken = true) {rest : List Char} (h : EndsOperand rest) :
    tokens? (name ++ accessText accesses ++ rest) =
      (tokens? rest).map (wordToken (name ++ accessText accesses) :: ·) := by
  cases name with
  | nil => exact absurd named (by decide)
  | cons first parts =>
      obtain ⟨hfirst, hparts⟩ := Bool.and_eq_true_iff.1 named
      obtain ⟨htake, hdrop⟩ := span_append (List.all_eq_true.1 hparts) (head_accessText accesses h)
      have hword : word first (parts ++ (accessText accesses ++ rest)) =
          (wordToken (first :: parts ++ accessText accesses), rest) := by
        rw [word, htake, hdrop, accessors_accessText wellFormed h]
        simp only [List.reverse_append, List.reverse_reverse, List.reverse_singleton, List.cons_append,
          List.nil_append]
      have htoken : token? first (parts ++ (accessText accesses ++ rest)) =
          some (wordToken (first :: parts ++ accessText accesses), rest) := by
        rw [token?, isAsciiDigit_of_isIdentifierStart hfirst, hfirst, hword]
        rfl
      rw [← tokens?_cons (isGap_of_isIdentifierStart hfirst) htoken, List.cons_append, List.cons_append,
        List.append_assoc]

/-- A place that is not reserved is a reference for the grammar. -/
theorem tokens?_place {place : Place} (named : isReserved place.name = false) {rest : List Char}
    (h : EndsOperand rest) :
    tokens? (place.text ++ rest) =
      (tokens? rest).map (.reference (String.ofList place.text) :: ·) := by
  have hselectors : (place.selectors.map Selector.access).all isTaken = true := by
    rw [List.all_map]
    exact List.all_eq_true.2 fun selector hmem =>
      isTaken_access (List.all_eq_true.1 place.wellFormed selector hmem)
  rw [← wordToken_of_not_reserved (not_reserved_text named)]
  exact tokens?_word place.named hselectors h

def Operator.sign : Operator → List Char
  | .or => ['|', '|']
  | .and => ['&', '&']
  | .compare .equal => ['=', '=']
  | .compare .notEqual => ['!', '=']
  | .compare .less => ['<']
  | .compare .greater => ['>']
  | .compare .lessEqual => ['<', '=']
  | .compare .greaterEqual => ['>', '=']
  | .add => ['+']
  | .subtract => ['-']
  | .multiply => ['*']
  | .divide => ['/']
  | .remainder => ['%']

def Operator.token : Operator → Token
  | .or => .or
  | .and => .and
  | .compare comparison => .compare comparison
  | .add => .plus
  | .subtract => .minus
  | .multiply => .times
  | .divide => .slash
  | .remainder => .percent

theorem sign_mem_signs (operator : Operator) : (operator.sign, operator.token) ∈ signs := by
  cases operator with
  | compare comparison => cases comparison <;> simp [signs, Operator.sign, Operator.token]
  | _ => simp [signs, Operator.sign, Operator.token]

/-- A sign is one token, where an operand could end behind it. -/
theorem tokens?_of_mem_signs {sign : List Char} {token : Token} (hmem : (sign, token) ∈ signs)
    {rest : List Char} (h : EndsOperand rest) :
    tokens? (sign ++ rest) = (tokens? rest).map (token :: ·) := by
  have hsign : ∃ c more, sign = c :: more ∧ isGap c = false ∧ token? c (more ++ rest) = some (token, rest) := by
    simp only [signs, List.mem_cons, Prod.mk.injEq, List.not_mem_nil, or_false] at hmem
    rcases h with rfl | ⟨more, rfl⟩
    · rcases hmem with h | h | h | h | h | h | h | h | h | h | h | h | h | h | h | h <;> obtain ⟨rfl, rfl⟩ := h <;>
        exact ⟨_, _, rfl, rfl, rfl⟩
    · rcases hmem with h | h | h | h | h | h | h | h | h | h | h | h | h | h | h | h <;> obtain ⟨rfl, rfl⟩ := h <;>
        exact ⟨_, _, rfl, rfl, rfl⟩
  obtain ⟨c, more, rfl, hgap, htoken⟩ := hsign
  exact tokens?_cons hgap htoken

theorem tokens?_sign (operator : Operator) (rest : List Char) :
    tokens? (operator.sign ++ ' ' :: rest) = (tokens? rest).map (operator.token :: ·) := by
  rw [tokens?_of_mem_signs (sign_mem_signs operator) (.inr ⟨rest, rfl⟩), tokens?_space]

/-- Two references with an operator between them are one formula. -/
theorem read_binary (left right : String) (operator : Operator) :
    read [.reference left, operator.token, .reference right] =
      .ok (.binary operator (.reference left) (.reference right)) := by
  cases operator with
  | compare comparison => cases comparison <;> rfl
  | or => rfl
  | and => rfl
  | add => rfl
  | subtract => rfl
  | multiply => rfl
  | divide => rfl
  | remainder => rfl

/-- Two places with an operator between them, as they are written. -/
def operationText (left : Place) (operator : Operator) (right : Place) : List Char :=
  left.text ++ ' ' :: (operator.sign ++ ' ' :: right.text)

/-- What an operation has for a value: that of the operator on the values of the places, where what is
missing counts as null. -/
theorem evaluate_operation {m : Type → Type} [Monad m] [LawfulMonad m]
    (lookup : String → m (Option Value)) {left right : Place} (operator : Operator)
    (hleft : isReserved left.name = false) (hright : isReserved right.name = false) :
    evaluate lookup (operationText left operator right) = do
      let x ← lookup (String.ofList left.text)
      let y ← lookup (String.ofList right.text)
      return Resolver.present (operator.apply (x.getD .null) (y.getD .null)) := by
  have htokens : tokens? (operationText left operator right) =
      some [.reference (String.ofList left.text), operator.token,
        .reference (String.ofList right.text)] := by
    have hlast := tokens?_place hright (.inl rfl)
    rw [List.append_nil] at hlast
    rw [operationText, tokens?_place hleft (.inr ⟨_, rfl⟩), tokens?_space, tokens?_sign, hlast,
      tokens?]
    rfl
  rw [evaluate, htokens]
  dsimp only
  rw [read_binary]
  simp only [value, bind_assoc, pure_bind, Resolver.present]

end Formula

end Stencil
