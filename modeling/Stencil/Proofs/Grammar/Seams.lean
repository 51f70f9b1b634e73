import Mathlib.Data.List.Chain
import Stencil.Proofs.Resolution.References
import Stencil.Proofs.Resolution.Tokens

/-!
The tokens of an expression with the places they stand at, and what stands before a word. A word takes all the
characters of names that follow one another, so that none stands right before it; only a number ends in such a
character, a digit, without taking the letters behind it.
-/

namespace Stencil

namespace Text

/-- The numbers in ranges. -/
def inside : List Nat → List Nat
  | start :: stop :: rest => List.range' start (stop - start) ++ inside rest
  | _ => []

theorem mem_inside_of_inRanges {code : Nat} {ranges : List Nat} (h : inRanges code ranges = true) :
    code ∈ inside ranges := by
  fun_induction inRanges code ranges with
  | case1 => cases h
  | case2 start stop rest hlow hhigh =>
      rw [inside, List.mem_append, List.mem_range'_1]
      exact Or.inl (by omega)
  | case3 start stop rest hlow hhigh ih =>
      rw [inside, List.mem_append]
      exact Or.inr (ih h)
  | case4 => cases h

/-- No blank is a character of a word. -/
theorem not_isWord_of_isBlank {c : Char} (h : isBlank c = true) : isWord c = false := by
  have hblanks : ((inside blankRanges).all fun code => !inRanges code wordRanges) = true := by
    decide +kernel
  have hcode := List.all_eq_true.1 hblanks c.toNat (mem_inside_of_inRanges h)
  rw [Bool.not_eq_true'] at hcode
  exact hcode

theorem isWord_of_isIdentifierPart {c : Char} (h : isIdentifierPart c = true) : isWord c = true := by
  simp only [isIdentifierPart, isAsciiAlphanumeric, isAsciiLetter, isAsciiDigit, Bool.or_eq_true,
    Bool.and_eq_true, decide_eq_true_eq, beq_iff_eq, Char.le_def, UInt32.le_iff_toNat_le] at h
  have hplace : (0x30 ≤ c.toNat ∧ c.toNat < 0x3A) ∨ (0x41 ≤ c.toNat ∧ c.toNat < 0x5B) ∨ c.toNat = 0x5F ∨
      (0x61 ≤ c.toNat ∧ c.toNat < 0x7B) := by
    rcases h with ((h | h) | h) | rfl
    · exact Or.inr (Or.inr (Or.inr ⟨h.1, Nat.lt_succ_of_le h.2⟩))
    · exact Or.inr (Or.inl ⟨h.1, Nat.lt_succ_of_le h.2⟩)
    · exact Or.inl ⟨h.1, Nat.lt_succ_of_le h.2⟩
    · exact Or.inr (Or.inr (Or.inl rfl))
  obtain ⟨rest, hwords⟩ : ∃ rest,
      wordRanges = 0x30 :: 0x3A :: 0x41 :: 0x5B :: 0x5F :: 0x60 :: 0x61 :: 0x7B :: rest := ⟨_, rfl⟩
  unfold isWord
  rw [hwords]
  simp only [inRanges]
  grind

/-- What a name leaves of a text goes on with no character of names. -/
theorem head?_dropWhile_isIdentifierPart (s : List Char) :
    ∀ c ∈ (s.dropWhile isIdentifierPart).head?, isIdentifierPart c = false := by
  intro c hc
  have hstops := List.head?_dropWhile_not isIdentifierPart s
  rw [hc] at hstops
  exact hstops

end Text

open Text Reference

namespace Formula

theorem not_isWord_of_isGap {c : Char} (h : isGap c = true) : isWord c = false := by
  simp only [isGap, Bool.or_eq_true, beq_iff_eq] at h
  rcases h with ((rfl | rfl) | rfl) | rfl
  · decide
  · decide
  · decide
  · decide

theorem isBlank_of_isGap {c : Char} (h : isGap c = true) : isBlank c = true := by
  simp only [isGap, Bool.or_eq_true, beq_iff_eq] at h
  rcases h with ((rfl | rfl) | rfl) | rfl
  · decide
  · decide
  · decide
  · decide

/-- Whether a text ends with a digit, unless it is empty. -/
def EndsInDigit (s : List Char) : Prop := ∀ c ∈ s.getLast?, isAsciiDigit c = true

theorem endsInDigit_of_all {s : List Char} (h : ∀ c ∈ s, isAsciiDigit c = true) : EndsInDigit s :=
  fun c hc => h c (List.mem_of_getLast? hc)

theorem endsInDigit_cons (c : Char) {s : List Char} (hne : s ≠ []) (h : EndsInDigit s) :
    EndsInDigit (c :: s) := by
  intro d hd
  rw [List.getLast?_cons_of_ne_nil hne] at hd
  exact h d hd

theorem EndsInDigit.append {first second : List Char} (hfirst : EndsInDigit first)
    (hsecond : EndsInDigit second) : EndsInDigit (first ++ second) := by
  intro c hc
  rw [List.getLast?_append, Option.mem_def, Option.or_eq_some_iff] at hc
  rcases hc with hlast | ⟨-, hlast⟩
  · exact hsecond c hlast
  · exact hfirst c hlast

theorem endsInDigit_digitsAfter (s : List Char) : EndsInDigit (digitsAfter s).1 := by
  unfold digitsAfter
  split
  next c d rest =>
    split
    next hd =>
      refine endsInDigit_cons c (List.cons_ne_nil _ _) (endsInDigit_of_all fun x hx => ?_)
      rcases List.mem_cons.1 hx with rfl | hx
      · exact hd
      · exact List.mem_takeWhile_imp hx
    next => exact fun c hc => nomatch hc
  next => exact fun c hc => nomatch hc

theorem endsInDigit_fraction (s : List Char) : EndsInDigit (fraction s).1 := by
  unfold fraction
  split
  · exact endsInDigit_digitsAfter s
  · exact fun c hc => nomatch hc

theorem endsInDigit_exponent (s : List Char) : EndsInDigit (exponent s).1 := by
  have behind (c : Char) (rest : List Char) (read : List Char × List Char) (h : EndsInDigit read.1) :
      EndsInDigit (if read.1.isEmpty then ([], c :: rest) else (c :: read.1, read.2)).1 := by
    split
    · exact fun c hc => nomatch hc
    next hsome => exact endsInDigit_cons c (fun hnil => hsome (List.isEmpty_iff.2 hnil)) h
  unfold exponent
  split
  next c rest =>
    split
    · have hdigits : EndsInDigit (if rest.head? = some '+' ∨ rest.head? = some '-' then
          digitsAfter rest else (rest.takeWhile isAsciiDigit, rest.dropWhile isAsciiDigit)).1 := by
        split
        · exact endsInDigit_digitsAfter rest
        · exact endsInDigit_of_all fun x hx => List.mem_takeWhile_imp hx
      exact behind c rest _ hdigits
    · exact fun c hc => nomatch hc
  next => exact fun c hc => nomatch hc

/-- A number is cut off behind a digit. -/
theorem number_split {c : Char} (hdigit : isAsciiDigit c = true) (rest : List Char) :
    ∃ source, c :: rest = source ++ (number (c :: rest)).2 ∧ source ≠ [] ∧ EndsInDigit source := by
  have hdigits := takes_digits (c :: rest)
  have hfraction := takes_fraction ((c :: rest).dropWhile isAsciiDigit)
  have hexponent := takes_exponent (fraction ((c :: rest).dropWhile isAsciiDigit)).2
  refine ⟨_, (hdigits.append (hfraction.append hexponent)).1, ?_, ?_⟩
  · rw [List.takeWhile_cons_of_pos hdigit]
    exact List.cons_ne_nil _ _
  · have hfirst := endsInDigit_of_all (s := (c :: rest).takeWhile isAsciiDigit)
      fun x hx => List.mem_takeWhile_imp hx
    exact hfirst.append ((endsInDigit_fraction _).append (endsInDigit_exponent _))

/-- Where a word ends: behind the bracket of an indexer, or behind a name, its first or that of a member, that no
further character of names follows. -/
def EndsWord (source after : List Char) : Prop :=
  source.getLast? = some ']' ∨
    (∀ c ∈ after.head?, isIdentifierPart c = false) ∧
      ∃ front name, source = front ++ name ∧ isIdentifier name = true ∧
        (front = [] ∨ front.getLast? = some '.')

theorem isIdentifier_name {first : Char} (hfirst : isIdentifierStart first = true) (rest : List Char) :
    isIdentifier (first :: rest.takeWhile isIdentifierPart) = true := by
  refine Bool.and_eq_true_iff.2 ⟨hfirst, List.all_eq_true.2 fun c hc => ?_⟩
  exact List.mem_takeWhile_imp hc

/-- Members and indexers are cut off as a whole. -/
theorem accessors_split (taken s : List Char) (h : EndsWord taken.reverse s) :
    ∃ accesses : List Access, accesses.all isTaken = true ∧ s = accessText accesses ++ (accessors taken s).2 ∧
      (accessors taken s).1 = taken.reverse ++ accessText accesses ∧
      EndsWord (taken.reverse ++ accessText accesses) (accessors taken s).2 := by
  fun_induction accessors taken s with
  | case1 taken c rest hc ih =>
      have hname : EndsWord ((rest.takeWhile isIdentifierPart).reverse ++ c :: '.' :: taken).reverse
          (rest.dropWhile isIdentifierPart) := by
        refine Or.inr ⟨head?_dropWhile_isIdentifierPart rest, taken.reverse ++ ['.'], _, ?_,
          isIdentifier_name hc rest, Or.inr List.getLast?_concat⟩
        simp
      obtain ⟨accesses, htaken, hrest, hword, hends⟩ := ih hname
      have hjoin : ((rest.takeWhile isIdentifierPart).reverse ++ c :: '.' :: taken).reverse ++ accessText accesses =
          taken.reverse ++ accessText (.member (c :: rest.takeWhile isIdentifierPart) :: accesses) := by
        rw [accessText_cons, Access.text]
        simp
      rw [hjoin] at hword hends
      refine ⟨.member (c :: rest.takeWhile isIdentifierPart) :: accesses,
        Bool.and_eq_true_iff.2 ⟨isIdentifier_name hc rest, htaken⟩, ?_, hword, hends⟩
      rw [accessText_cons, Access.text, List.cons_append, List.cons_append, List.append_assoc, List.cons_append,
        ← hrest, List.takeWhile_append_dropWhile]
  | case2 taken c rest hc => exact ⟨[], rfl, rfl, (List.append_nil _).symm, (List.append_nil _).symm ▸ h⟩
  | case3 taken rest close behind hclose ih =>
      obtain rfl : close = ']' := by
        have hstops := List.head?_dropWhile_not (· != ']') rest
        rw [hclose] at hstops
        exact bne_eq_false_iff_eq.1 hstops
      have hindexer : EndsWord
          (']' :: ((rest.takeWhile (· != ']')).reverse ++ '[' :: taken)).reverse behind := by
        rw [List.reverse_cons]
        exact Or.inl List.getLast?_concat
      obtain ⟨accesses, htaken, hrest, hword, hends⟩ := ih hindexer
      have hjoin : (']' :: ((rest.takeWhile (· != ']')).reverse ++ '[' :: taken)).reverse ++ accessText accesses =
          taken.reverse ++ accessText (.index (rest.takeWhile (· != ']')) [] :: accesses) := by
        rw [accessText_cons, Access.text]
        simp
      rw [hjoin] at hword hends
      have hkey : (rest.takeWhile (· != ']')).all (· != ']') = true :=
        List.all_eq_true.2 fun c hc => List.mem_takeWhile_imp (p := (· != ']')) hc
      refine ⟨.index (rest.takeWhile (· != ']')) [] :: accesses,
        Bool.and_eq_true_iff.2 ⟨Bool.and_eq_true_iff.2 ⟨hkey, rfl⟩, htaken⟩, ?_, hword, hends⟩
      rw [accessText_cons, Access.text, List.cons_append, List.cons_append, List.append_assoc, List.append_assoc,
        List.singleton_append, ← hrest, ← hclose, List.takeWhile_append_dropWhile]
  | case4 taken rest hunclosed => exact ⟨[], rfl, rfl, (List.append_nil _).symm, (List.append_nil _).symm ▸ h⟩
  | case5 taken s hpoint hbracket =>
      exact ⟨[], rfl, rfl, (List.append_nil _).symm, (List.append_nil _).symm ▸ h⟩

/-- Whether a text is a name with members and indexers. -/
def IsWordText (source : List Char) : Prop :=
  ∃ (name : List Char) (accesses : List Access), isIdentifier name = true ∧ accesses.all isTaken = true ∧
    source = name ++ accessText accesses

theorem word_split {first : Char} (hfirst : isIdentifierStart first = true) (rest : List Char) :
    ∃ more, first :: rest = first :: more ++ (word first rest).2 ∧
      (word first rest).1 = wordToken (first :: more) ∧ EndsWord (first :: more) (word first rest).2 ∧
      IsWordText (first :: more) := by
  have hname : EndsWord ((rest.takeWhile isIdentifierPart).reverse ++ [first]).reverse
      (rest.dropWhile isIdentifierPart) := by
    refine Or.inr ⟨head?_dropWhile_isIdentifierPart rest, [], _, ?_, isIdentifier_name hfirst rest, Or.inl rfl⟩
    simp
  obtain ⟨accesses, htaken, hrest, hword, hends⟩ := accessors_split _ _ hname
  have hjoin : ((rest.takeWhile isIdentifierPart).reverse ++ [first]).reverse ++ accessText accesses =
      first :: (rest.takeWhile isIdentifierPart ++ accessText accesses) := by simp
  rw [hjoin] at hword hends
  refine ⟨_, ?_, congrArg wordToken hword, hends, _, accesses, isIdentifier_name hfirst rest, htaken, rfl⟩
  rw [List.cons_append, List.append_assoc]
  exact congrArg (first :: ·) ((List.takeWhile_append_dropWhile (p := isIdentifierPart)).symm.trans
    (congrArg (rest.takeWhile isIdentifierPart ++ ·) hrest))

theorem accessors_stop {s : List Char} (h : ∀ c ∈ s.head?, c ≠ '.' ∧ c ≠ '[') (taken : List Char) :
    accessors taken s = (taken.reverse, s) := by
  rw [accessors.eq_def]
  split
  next => exact absurd rfl (h '.' rfl).1
  next => exact absurd rfl (h '[' rfl).2
  next => rfl

/-- A name without members and indexers is a word. -/
theorem token?_name {first : Char} {more after : List Char} (hname : isIdentifier (first :: more) = true)
    (hafter : ∀ c ∈ after.head?, isIdentifierPart c = false ∧ c ≠ '.' ∧ c ≠ '[') :
    token? first (more ++ after) = some (wordToken (first :: more), after) := by
  obtain ⟨hfirst, hmore⟩ := Bool.and_eq_true_iff.1 hname
  obtain ⟨htake, hdrop⟩ := span_append (List.all_eq_true.1 hmore) fun c hc => (hafter c hc).1
  rw [token?, isAsciiDigit_of_isIdentifierStart hfirst, if_neg Bool.false_ne_true, if_pos hfirst, word, htake, hdrop,
    accessors_stop fun c hc => (hafter c hc).2]
  simp

/-- What a token is, given the characters it takes and what follows them. -/
inductive Spells (source after : List Char) : Token → Prop where
  | number (value : Value) (begins : ∀ c ∈ source.head?, isAsciiDigit c = true) (ends : EndsInDigit source) :
      Spells source after (.literal value)
  | word (begins : ∀ c ∈ source.head?, isIdentifierStart c = true) (ends : EndsWord source after)
      (text : IsWordText source) : Spells source after (wordToken source)
  | quoted (text : String) {mark : Char} (hmark : mark = '"' ∨ mark = '\'') (begins : source.head? = some mark)
      (ends : source.getLast? = some mark) : Spells source after (.literal (.string text))
  | sign {token : Token} (hmem : (source, token) ∈ signs) : Spells source after token

/-- Quoted text stands before a mark. -/
theorem quotedText_split {mark : Char} {passed s text after : List Char}
    (h : quotedText mark passed s = .ok (text, after)) : ∃ inner, s = inner ++ mark :: after := by
  fun_induction quotedText mark passed s with
  | case1 => cases h
  | case2 => cases h
  | case3 => cases h
  | case4 passed c behind hc ih =>
      obtain ⟨inner, rfl⟩ := ih h
      exact ⟨'\\' :: c :: inner, rfl⟩
  | case5 passed behind hbackslash =>
      cases h
      exact ⟨[], rfl⟩
  | case6 passed c behind hbackslash hmark ih =>
      obtain ⟨inner, rfl⟩ := ih h
      exact ⟨c :: inner, rfl⟩

theorem quoted?_split {mark : Char} {rest after : List Char} {token : Token}
    (h : quoted? mark rest = some (token, after)) :
    ∃ inner text, rest = inner ++ mark :: after ∧ token = .literal (.string text) := by
  unfold quoted? at h
  split at h
  next text behind hquoted =>
    cases h
    obtain ⟨inner, hinner⟩ := quotedText_split hquoted
    exact ⟨inner, _, hinner, rfl⟩
  next => cases h

/-- A token is cut off the front of a text. -/
theorem token?_split {c : Char} {rest after : List Char} {token : Token}
    (h : token? c rest = some (token, after)) :
    ∃ source, c :: rest = source ++ after ∧ source ≠ [] ∧ Spells source after token := by
  unfold token? at h
  split at h
  next hdigit =>
    obtain ⟨source, hsource, hne, hends⟩ := number_split hdigit rest
    cases h
    refine ⟨source, hsource, hne, .number _ (fun d hd => ?_) hends⟩
    rw [← List.head?_append_of_ne_nil _ hne, ← hsource] at hd
    cases hd
    exact hdigit
  next =>
    split at h
    next hstart =>
      obtain ⟨more, hsource, htoken, hends, htext⟩ := word_split hstart rest
      rw [Option.some.injEq] at h
      rw [h] at hsource htoken hends
      obtain rfl : token = wordToken (c :: more) := htoken
      refine ⟨c :: more, hsource, List.cons_ne_nil _ _, .word (fun d hd => ?_) hends htext⟩
      cases hd
      exact hstart
    next =>
      split at h
      next hmark =>
        obtain ⟨inner, text, hrest, rfl⟩ := quoted?_split h
        refine ⟨c :: (inner ++ [c]), ?_, List.cons_ne_nil _ _, .quoted text hmark rfl ?_⟩
        · rw [hrest]
          simp
        · rw [← List.cons_append]
          exact List.getLast?_concat
      next =>
        obtain ⟨⟨sign, found⟩, hmem, hsign⟩ := List.exists_of_findSome?_eq_some h
        obtain ⟨behind, hprefix, heq⟩ := Option.map_eq_some_iff.1 hsign
        cases heq
        refine ⟨sign, eq_append_of_isPrefixOf? hprefix, ?_, .sign hmem⟩
        have hsigns : ∀ sign ∈ signs.map Prod.fst, sign ≠ [] := by decide
        exact hsigns sign (List.mem_map_of_mem hmem)

/-- Only words begin like names. -/
theorem Spells.endsWord {source after : List Char} {token : Token} (h : Spells source after token)
    {c : Char} (hhead : source.head? = some c) (hstart : isIdentifierStart c = true) : EndsWord source after := by
  cases h with
  | number value begins ends =>
      have hdigit := begins c hhead
      rw [isAsciiDigit_of_isIdentifierStart hstart] at hdigit
      cases hdigit
  | word begins ends text => exact ends
  | quoted text hmark begins ends =>
      cases hhead.symm.trans begins
      rcases hmark with rfl | rfl
      · exact absurd hstart (by decide)
      · exact absurd hstart (by decide)
  | sign hmem =>
      have hsigns : ∀ sign ∈ signs.map Prod.fst, sign.head?.any isIdentifierStart = false := by decide
      have hno := hsigns source (List.mem_map_of_mem hmem)
      rw [hhead, Option.any_some, hstart] at hno
      cases hno

/-- A token with its own characters, what stands before them and what follows. -/
structure Placed where
  before : List Char
  source : List Char
  after : List Char
  token : Token

/-- What is cut off the front of a text if so much is left. -/
def cutOff (s after : List Char) : List Char := s.take (s.length - after.length)

theorem cutOff_append (source after : List Char) : cutOff (source ++ after) after = source := by
  unfold cutOff
  rw [List.length_append, Nat.add_sub_cancel]
  exact List.take_left

/-- The tokens of a text that follows `before`, with their places. -/
def placedFrom? (before s : List Char) : Option (List Placed) :=
  match s with
  | [] => some []
  | c :: rest =>
      if isGap c then placedFrom? (before ++ [c]) rest
      else
        match _h : token? c rest with
        | some (token, after) =>
            (placedFrom? (before ++ cutOff (c :: rest) after) after).map
              (⟨before, cutOff (c :: rest) after, after, token⟩ :: ·)
        | none => none
termination_by s.length
decreasing_by
  · simp
  · have := token?_length _h
    simp only [List.length_cons]
    omega

/-- The tokens of a text with their places. -/
def placed? (s : List Char) : Option (List Placed) := placedFrom? [] s

theorem map_placedFrom? (before s : List Char) :
    (placedFrom? before s).map (List.map Placed.token) = tokens? s := by
  fun_induction placedFrom? before s with
  | case1 before =>
      rw [tokens?]
      rfl
  | case2 before c rest hgap ih => rw [tokens?, if_pos hgap, ih]
  | case3 before c rest hgap token after htoken ih =>
      rw [Bool.not_eq_true] at hgap
      rw [tokens?_cons hgap htoken, ← ih, Option.map_map, Option.map_map]
      rfl
  | case4 before c rest hgap htoken =>
      rw [tokens?, if_neg hgap]
      split
      next heq => cases htoken.symm.trans heq
      next => rfl

/-- The places add nothing to the tokens. -/
theorem map_placed? (s : List Char) : (placed? s).map (List.map Placed.token) = tokens? s :=
  map_placedFrom? [] s

theorem placedFrom?_nil {before : List Char} : placedFrom? before [] = some [] := by
  rw [placedFrom?]

theorem placedFrom?_gap {c : Char} (hgap : isGap c = true) {before rest : List Char} {ps : List Placed}
    (h : placedFrom? (before ++ [c]) rest = some ps) : placedFrom? before (c :: rest) = some ps := by
  rw [placedFrom?, if_pos hgap, h]

theorem placedFrom?_token {c : Char} (hgap : isGap c = false) {before rest source after : List Char} {token : Token}
    (htoken : token? c rest = some (token, after)) (hsource : c :: rest = source ++ after) {ps : List Placed}
    (h : placedFrom? (before ++ source) after = some ps) :
    placedFrom? before (c :: rest) = some (⟨before, source, after, token⟩ :: ps) := by
  have hcut : cutOff (c :: rest) after = source := by rw [hsource, cutOff_append]
  rw [placedFrom?, hgap, if_neg Bool.false_ne_true]
  split
  next found behind heq =>
    cases htoken.symm.trans heq
    rw [hcut, h]
    rfl
  next heq => cases htoken.symm.trans heq

/-- Only blanks stand between what ends at a place and a token. -/
def Placed.Adjoins (place : List Char) (p : Placed) : Prop :=
  ∃ gap, (∀ c ∈ gap, isGap c = true) ∧ p.before = place ++ gap

/-- Whether a token stands in a text as it is placed there. -/
structure Placed.StandsIn (s : List Char) (p : Placed) : Prop where
  split : s = p.before ++ (p.source ++ p.after)
  nonempty : p.source ≠ []
  spells : Spells p.source p.after p.token

theorem placedFrom?_spec {before s : List Char} {ps : List Placed} (h : placedFrom? before s = some ps) :
    (∀ p ∈ ps, p.StandsIn (before ++ s)) ∧ (∀ p ∈ ps.head?, p.Adjoins before) ∧
      ps.IsChain fun p q => q.Adjoins (p.before ++ p.source) := by
  fun_induction placedFrom? before s generalizing ps with
  | case1 before =>
      cases h
      refine ⟨?_, ?_, List.isChain_nil⟩
      · exact fun p hp => absurd hp List.not_mem_nil
      · exact fun p hp => nomatch hp
  | case2 before c rest hgap ih =>
      obtain ⟨hstands, hhead, hchain⟩ := ih h
      rw [List.append_assoc] at hstands
      refine ⟨hstands, fun p hp => ?_, hchain⟩
      obtain ⟨gap, hblank, hplace⟩ := hhead p hp
      refine ⟨c :: gap, List.forall_mem_cons.2 ⟨hgap, hblank⟩, ?_⟩
      rw [hplace, List.append_assoc]
      rfl
  | case3 before c rest hgap token after htoken ih =>
      obtain ⟨others, hothers, rfl⟩ := Option.map_eq_some_iff.1 h
      obtain ⟨taken, htaken, hne, hspells⟩ := token?_split htoken
      have hsource : cutOff (c :: rest) after = taken := by rw [htaken, cutOff_append]
      rw [hsource] at hothers ih ⊢
      obtain ⟨hstands, hhead, hchain⟩ := ih hothers
      rw [List.append_assoc, ← htaken] at hstands
      refine ⟨List.forall_mem_cons.2 ⟨⟨congrArg (before ++ ·) htaken, hne, hspells⟩, hstands⟩, ?_, ?_⟩
      · intro p hp
        cases hp
        exact ⟨[], fun c hc => absurd hc List.not_mem_nil, (List.append_nil _).symm⟩
      · exact List.isChain_cons.2 ⟨hhead, hchain⟩
  | case4 => cases h

/-- Right before a token that begins like a name stands no character of a word, unless that is the last digit of
a number. -/
theorem seam {s : List Char} {p q : Placed} (hp : p.StandsIn s) (hq : q.StandsIn s)
    (hadjoins : q.Adjoins (p.before ++ p.source))
    (hname : ∀ c ∈ q.source.head?, isIdentifierStart c = true) :
    (∀ d ∈ q.before.getLast?, isWord d = false) ∨
      (∃ value, p.token = .literal value) ∧ ∀ d ∈ q.before.getLast?, isAsciiDigit d = true := by
  obtain ⟨gap, hblank, hplace⟩ := hadjoins
  have hafter : p.after = gap ++ (q.source ++ q.after) := by
    have hboth := hp.split.symm.trans hq.split
    rw [hplace, List.append_assoc, List.append_assoc] at hboth
    exact List.append_cancel_left (List.append_cancel_left hboth)
  rw [hplace, List.getLast?_append]
  rcases List.eq_nil_or_concat gap with rfl | ⟨gap', last, rfl⟩
  · rw [List.getLast?_nil, Option.none_or, List.getLast?_append_of_ne_nil _ hp.nonempty]
    have hhead : ∀ c ∈ p.after.head?, isIdentifierPart c = true := by
      rw [hafter, List.nil_append, List.head?_append_of_ne_nil _ hq.nonempty]
      exact fun c hc => isIdentifierPart_of_isIdentifierStart (hname c hc)
    have hspells := hp.spells
    generalize htoken : p.token = token at hspells
    cases hspells with
    | number value begins ends => exact Or.inr ⟨⟨value, rfl⟩, ends⟩
    | word begins ends text =>
        rcases ends with hbracket | ⟨hstops, -⟩
        · refine Or.inl fun d hd => ?_
          rw [hbracket] at hd
          cases hd
          decide
        · -- the name would go on
          obtain ⟨c, hc⟩ : ∃ c, p.after.head? = some c := by
            rw [hafter, List.nil_append, List.head?_append_of_ne_nil _ hq.nonempty]
            exact ⟨_, List.head?_eq_some_head hq.nonempty⟩
          exact absurd (hhead c hc) (Bool.eq_false_iff.1 (hstops c hc))
    | quoted text hmark begins ends =>
        refine Or.inl fun d hd => ?_
        rw [ends] at hd
        cases hd
        rcases hmark with rfl | rfl
        · decide
        · decide
    | sign hmem =>
        have hsigns : ∀ sign ∈ signs.map Prod.fst, sign.getLast?.any isWord = false := by decide
        refine Or.inl fun d hd => ?_
        have hno := hsigns p.source (List.mem_map_of_mem hmem)
        rw [hd] at hno
        exact hno
  · refine Or.inl fun d hd => ?_
    rw [List.concat_eq_append, List.getLast?_concat] at hd
    cases hd
    exact not_isWord_of_isGap (hblank last (by simp))

/-- Right before a token that begins like a name stands no character of a word, unless a number ends there. -/
theorem before_name {s : List Char} {ps front back : List Placed} (hps : placed? s = some ps) {p : Placed}
    (hsplit : front ++ p :: back <+: ps) (hname : ∀ c ∈ p.source.head?, isIdentifierStart c = true) :
    (∀ d ∈ p.before.getLast?, isWord d = false) ∨
      (∃ q value, front.getLast? = some q ∧ q.token = .literal value) ∧
        ∀ d ∈ p.before.getLast?, isAsciiDigit d = true := by
  obtain ⟨hstands, hfirst, hchain⟩ := placedFrom?_spec hps
  have hp : p ∈ ps := hsplit.subset (List.mem_append_right _ (List.mem_cons_self ..))
  rcases List.eq_nil_or_concat front with rfl | ⟨front', q, rfl⟩
  · obtain ⟨rest, hrest⟩ := hsplit
    have hhead : p ∈ ps.head? := by
      rw [← hrest]
      rfl
    obtain ⟨gap, hblank, hbefore⟩ := hfirst p hhead
    rw [hbefore]
    exact Or.inl fun d hd => not_isWord_of_isGap (hblank d (List.mem_of_getLast? hd))
  · rw [List.concat_eq_append] at hsplit ⊢
    have hq : q ∈ ps := hsplit.subset (by simp)
    have hlast : (front' ++ [q]).getLast? = some q := List.getLast?_concat
    have hpart := hchain.prefix hsplit
    have hadjoins : p.Adjoins (q.before ++ q.source) := (List.isChain_append.1 hpart).2.2 q hlast p rfl
    rcases seam (hstands q hq) (hstands p hp) hadjoins hname with hbehind | ⟨⟨value, hvalue⟩, hdigit⟩
    · exact Or.inl hbehind
    · exact Or.inr ⟨⟨q, value, hlast, hvalue⟩, hdigit⟩

end Formula

end Stencil
