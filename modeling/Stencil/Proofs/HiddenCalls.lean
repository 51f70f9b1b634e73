import Stencil.Proofs.Acceptance
import Stencil.Proofs.Blanking
import Stencil.Proofs.Folding
import Stencil.Proofs.Grammar.Seams

/-!
Calls in an expression. The gate looks for an identifier in front of each parenthesis that it sees, the grammar reads
a whole reference there, with its members and indexers, and reads quotes with escapes. What the gate accepts has no
call but those behind an indexer, behind a member that is named like an operator, and those that it takes for quoted.
-/

namespace Stencil

open Text Formula

namespace Gate

/-- Whether a word is an operator. -/
def isOperatorWord (word : List Char) : Bool :=
  operatorWords.any fun operator => sameLetters operator.toList word

theorem isAsciiLetter_of_isOperatorWord {word : List Char} (h : isOperatorWord word = true) :
    ∀ c ∈ word, isAsciiLetter c = true := by
  obtain ⟨operator, hmem, hsame⟩ := List.any_eq_true.1 h
  have hoperators : ∀ operator ∈ operatorWords, (asciiLower operator.toList).all isAsciiLetter = true := by decide
  have hletters := List.all_eq_true.1 (hoperators operator hmem)
  have hlower : asciiLower operator.toList = asciiLower word := eq_of_beq hsame
  exact fun c hc => isAsciiLetter_of_toLower (hletters _ (hlower ▸ List.mem_map_of_mem hc))

theorem isOperatorWord_of_mayCall {security : Security} (hnone : security.allowedFunctions = []) {name : List Char}
    (hname : name ≠ []) (h : mayCall security name = true) : isOperatorWord name = true := by
  unfold mayCall at h
  rw [hnone, List.append_nil, List.isEmpty_eq_false_iff.2 hname] at h
  exact h

/-- Every parenthesis is looked at. -/
theorem mem_namesBeforeParens (before front back : List Char) :
    nameBefore (front.reverse ++ before) ∈ namesBeforeParens before (front ++ '(' :: back) := by
  induction front generalizing before with
  | nil =>
      rw [List.nil_append, namesBeforeParens]
      exact List.mem_cons_self ..
  | cons c front ih =>
      have hlater := ih (c :: before)
      rw [List.cons_append, namesBeforeParens, List.reverse_cons, List.append_assoc]
      split
      · exact List.mem_cons_of_mem _ hlater
      · exact hlater

theorem mayCall_of_accepted {security : Security} {front back : List Char}
    (h : call? security (front ++ '(' :: back) = none) : mayCall security (nameBefore front.reverse) = true := by
  have hmem := mem_namesBeforeParens [] front back
  rw [List.append_nil] at hmem
  have hfound := List.find?_eq_none.1 h _ hmem
  rw [Bool.not_eq_true, Bool.not_eq_false'] at hfound
  exact hfound

/-- A parenthesis that the gate sees has an allowed name in front of it. -/
theorem mayCall_of_seen {security : Security} {front back : List Char}
    (hopen : front.foldl Reference.plainQuote none = none)
    (accepted : call? security (blankQuoted (front ++ '(' :: back)) = none) :
    mayCall security (nameBefore (blankQuoted front).reverse) = true := by
  rw [blankQuoted_split, hopen] at accepted
  exact mayCall_of_accepted accepted

/-- Digits that are left out in front of a name end where the name begins. -/
theorem dropWhile_isAsciiDigit_name {name : List Char} (hname : isIdentifier name = true) (before : List Char) :
    ∃ more, (before ++ name).dropWhile isAsciiDigit = more ++ name ∧
      ∀ d ∈ more.getLast?, before.getLast? = some d := by
  cases name with
  | nil => cases hname
  | cons first rest =>
      have hfirst : isAsciiDigit first = false :=
        isAsciiDigit_of_isIdentifierStart (Bool.and_eq_true_iff.1 hname).1
      have hstops : (first :: rest).dropWhile isAsciiDigit = first :: rest :=
        List.dropWhile_cons_of_neg (Bool.eq_false_iff.1 hfirst)
      refine ⟨before.dropWhile isAsciiDigit, ?_, fun d hd => ?_⟩
      · rw [List.dropWhile_append, hstops]
        split
        next hempty => rw [List.isEmpty_iff.1 hempty, List.nil_append]
        next => rfl
      · obtain ⟨front, hfront⟩ := List.dropWhile_suffix (l := before) isAsciiDigit
        rw [← hfront, List.getLast?_append, Option.mem_def.1 hd]
        rfl

/-- In front of a parenthesis the gate reads the last name, with what stands right before it as far as that could
belong to a name. -/
theorem nameBefore_name {name gap : List Char} (hname : isIdentifier name = true)
    (hgap : ∀ c ∈ gap, isBlank c = true) (front : List Char) :
    ∃ more, nameBefore (front ++ (name ++ gap)).reverse = more ++ name ∧
      ∀ d ∈ more.getLast?, front.getLast? = some d := by
  have hparts : ∀ c ∈ name.reverse, isIdentifierPart c = true := fun c hc =>
    isIdentifierPart_of_isIdentifier hname c (List.mem_reverse.1 hc)
  have hblanks : ((front ++ (name ++ gap)).reverse).dropWhile isBlank = name.reverse ++ front.reverse := by
    rw [List.reverse_append, List.reverse_append, List.append_assoc,
      List.dropWhile_append_of_pos fun c hc => hgap c (List.mem_reverse.1 hc)]
    rcases List.eq_nil_or_concat name with rfl | ⟨front', last, rfl⟩
    · cases hname
    · rw [List.concat_eq_append, List.reverse_append] at hparts ⊢
      have hlast : isBlank last = false := isBlank_of_isIdentifierPart (hparts last (List.mem_cons_self ..))
      exact List.dropWhile_cons_of_neg (Bool.eq_false_iff.1 hlast)
  have htaken : (name.reverse ++ front.reverse).takeWhile isIdentifierPart =
      name.reverse ++ front.reverse.takeWhile isIdentifierPart := List.takeWhile_append_of_pos hparts
  obtain ⟨more, hmore, hlast⟩ :=
    dropWhile_isAsciiDigit_name hname (front.reverse.takeWhile isIdentifierPart).reverse
  refine ⟨more, ?_, fun d hd => ?_⟩
  · rw [nameBefore, hblanks, htaken, List.reverse_append, List.reverse_reverse]
    exact hmore
  · have hhead := hlast d hd
    rw [List.getLast?_reverse, List.head?_takeWhile, Option.filter_eq_some_iff, List.head?_reverse] at hhead
    exact hhead.1

end Gate

namespace Formula

/-- Whether a token is a word, with members and indexers, that is no operator. -/
def Placed.isReference (p : Placed) : Bool :=
  p.source.head?.any isIdentifierStart && !Gate.isOperatorWord p.source

/-- Whether a token, if the second one follows it, is called. -/
def Placed.calls (p q : Placed) : Bool := p.isReference && opens q.token

/-- The calls that the gate does not see as such. -/
inductive Unseen (s : List Char) (p q : Placed) : Prop where
  /-- The parenthesis stands behind an indexer. -/
  | indexed (h : p.source.getLast? = some ']')
  /-- It stands behind a member that is named like an operator. -/
  | member (front word : List Char) (h : p.source = front ++ '.' :: word) (hword : Gate.isOperatorWord word = true)
  /-- It stands in what the gate takes for a quote. -/
  | quoted (h : (Gate.blankQuoted s)[q.before.length]? ≠ some '(')

theorem source_of_opens {source after : List Char} {token : Token} (h : Spells source after token)
    (hopens : opens token = true) : source = ['('] := by
  cases h with
  | number value begins ends => cases hopens
  | word begins ends text =>
      unfold wordToken at hopens
      repeat' split at hopens
      all_goals cases hopens
  | quoted text hmark begins ends => cases hopens
  | sign hmem =>
      have hsigns : ∀ entry ∈ signs, opens entry.2 = true → entry.1 = ['('] := by decide
      exact hsigns _ hmem hopens

/-- Between the last name of a reference and a parenthesis that the gate sees, it sees everything. -/
theorem blankQuoted_before {front name gap : List Char} (hname : isIdentifier name = true)
    (hgap : ∀ c ∈ gap, isGap c = true)
    (hquote : (front ++ (name ++ gap)).foldl Reference.plainQuote none = none) :
    Gate.blankQuoted (front ++ (name ++ gap)) = Gate.blankQuoted front ++ (name ++ gap) := by
  have hmarkless : Reference.Markless (name ++ gap) := by
    intro c hc
    rcases List.mem_append.1 hc with hpart | hblank
    · have hpart := isIdentifierPart_of_isIdentifier hname c hpart
      constructor
      · rintro rfl
        exact absurd hpart (by decide)
      · rintro rfl
        exact absurd hpart (by decide)
    · exact Reference.ne_quote_of_isBlank (isBlank_of_isGap (hgap c hblank))
  rw [List.foldl_append, hmarkless.foldl_plainQuote (Reference.isQuote_none.foldl front)] at hquote
  unfold Gate.blankQuoted
  rw [Gate.blankQuotedFrom_append, hquote, Gate.blankQuotedFrom_none hmarkless]

/-- A name in front of a parenthesis that the gate sees and accepts is an operator, unless it goes on to the left. -/
theorem isOperatorWord_of_seen {security : Security} (hnone : security.allowedFunctions = [])
    {front name gap back : List Char} (hname : isIdentifier name = true) (hgap : ∀ c ∈ gap, isGap c = true)
    (hbehind : ∀ d ∈ front.getLast?, isAsciiLetter d = false)
    (hopen : (front ++ (name ++ gap)).foldl Reference.plainQuote none = none)
    (accepted : Gate.call? security (Gate.blankQuoted (front ++ (name ++ gap) ++ '(' :: back)) = none) :
    Gate.isOperatorWord name = true := by
  have hmay := Gate.mayCall_of_seen hopen accepted
  rw [blankQuoted_before hname hgap hopen] at hmay
  obtain ⟨more, hmore, hlast⟩ :=
    Gate.nameBefore_name hname (fun c hc => isBlank_of_isGap (hgap c hc)) (Gate.blankQuoted front)
  have hne : more ++ name ≠ [] := by
    intro hnil
    rw [(List.append_eq_nil_iff.1 hnil).2] at hname
    cases hname
  rw [hmore] at hmay
  have hword : Gate.isOperatorWord (more ++ name) = true := Gate.isOperatorWord_of_mayCall hnone hne hmay
  rcases List.eq_nil_or_concat more with rfl | ⟨more', d, rfl⟩
  · exact hword
  · -- what goes on to the left would be a letter, as in every operator
    rw [List.concat_eq_append] at hlast hword
    have hletter := Gate.isAsciiLetter_of_isOperatorWord hword d (by simp)
    rcases Gate.getLast?_blankQuotedFrom (hlast d List.getLast?_concat) with hshown | rfl
    · rw [hbehind d hshown] at hletter
      cases hletter
    · exact absurd hletter (by decide)

/-- No letter stands right before a word. -/
theorem not_isAsciiLetter_before {s : List Char} {ps front back : List Placed} (hps : placed? s = some ps)
    {p : Placed} (hsplit : front ++ p :: back <+: ps) (hname : ∀ c ∈ p.source.head?, isIdentifierStart c = true) :
    ∀ d ∈ p.before.getLast?, isAsciiLetter d = false := by
  intro d hd
  rw [Bool.eq_false_iff]
  intro hletter
  have hstart : isIdentifierStart d = true := by rw [isIdentifierStart, hletter, Bool.true_or]
  rcases before_name hps hsplit hname with hoff | ⟨-, hdigit⟩
  · have hword := hoff d hd
    rw [isWord_of_isIdentifierPart (isIdentifierPart_of_isIdentifierStart hstart)] at hword
    cases hword
  · have hboth := hdigit d hd
    rw [isAsciiDigit_of_isIdentifierStart hstart] at hboth
    cases hboth

/-- A call in an accepted expression is one of those that the gate does not see. -/
theorem unseen_of_calls {security : Security} (hnone : security.allowedFunctions = []) {s : List Char}
    (accepted : Gate.call? security (Gate.blankQuoted s) = none) {ps front back : List Placed}
    (hps : placed? s = some ps) {p q : Placed} (hsplit : ps = front ++ p :: q :: back) (hcalls : p.calls q = true) :
    Unseen s p q := by
  obtain ⟨hreference, hopens⟩ := Bool.and_eq_true_iff.1 hcalls
  obtain ⟨hname, hoperator⟩ := Bool.and_eq_true_iff.1 hreference
  obtain ⟨first, hfirst, hstart⟩ := (Option.any_eq_true _ _).1 hname
  obtain ⟨hstands, -, hchain⟩ := placedFrom?_spec hps
  rw [hsplit] at hchain
  obtain ⟨gap, hgap, hbefore⟩ : q.Adjoins (p.before ++ p.source) := (List.isChain_append_cons_cons.1 hchain).2.1
  have hparen : s = q.before ++ '(' :: q.after := by
    have hq := hstands q (by rw [hsplit]; simp)
    have hsplit := hq.split
    rw [source_of_opens hq.spells hopens] at hsplit
    exact hsplit
  have hp := hstands p (by rw [hsplit]; simp)
  have hword := hp.spells.endsWord hfirst hstart
  rcases hword with hbracket | ⟨-, inner, name, hsource, hidentifier, hinner⟩
  · exact .indexed hbracket
  · by_cases hshown : (Gate.blankQuoted s)[q.before.length]? = some '('
    case neg => exact .quoted hshown
    have hopen : q.before.foldl Reference.plainQuote none = none := by
      rw [hparen, Gate.getElem?_blankQuoted, Option.some.injEq] at hshown
      exact Gate.quote_of_shown (Reference.isQuote_none.foldl _) (by decide) (by decide) hshown
    have hplace : q.before = (p.before ++ inner) ++ (name ++ gap) := by
      rw [hbefore, hsource]
      simp
    have hbehind : ∀ d ∈ (p.before ++ inner).getLast?, isAsciiLetter d = false := by
      rcases hinner with rfl | hpoint
      · have hpart : front ++ p :: q :: back <+: ps := hsplit ▸ List.prefix_rfl
        rw [List.append_nil]
        refine not_isAsciiLetter_before hps hpart fun c hc => ?_
        cases hfirst.symm.trans hc
        exact hstart
      · intro d hd
        rw [List.getLast?_append, hpoint] at hd
        cases hd
        decide
    rw [hplace] at hopen
    rw [hparen, hplace] at accepted
    have hlast := isOperatorWord_of_seen hnone hidentifier hgap hbehind hopen accepted
    rcases hinner with rfl | hpoint
    · rw [hsource, List.nil_append, hlast] at hoperator
      cases hoperator
    · obtain ⟨front', rfl⟩ := List.getLast?_eq_some_iff.1 hpoint
      refine .member front' name ?_ hlast
      rw [hsource, List.append_assoc]
      rfl

/-- Without allowed functions an accepted expression has no call exactly if it has none of those that the gate does
not see: every other call is refused. -/
theorem no_calls_iff {security : Security} (hnone : security.allowedFunctions = []) {expression : String}
    (accepted : Gate.checkExpression security expression = .ok ()) {ps : List Placed}
    (hps : placed? expression.toList = some ps) :
    (ps.IsChain fun p q => p.calls q = false) ↔
      ps.IsChain fun p q => p.calls q = true → ¬ Unseen expression.toList p q := by
  constructor
  · refine List.IsChain.imp fun p q hno hcalls => ?_
    rw [hno] at hcalls
    cases hcalls
  · intro hseen
    refine List.isChain_iff_forall_rel_of_append_cons_cons.2 fun p q front back hsplit => ?_
    rw [Bool.eq_false_iff]
    intro hcalls
    refine List.isChain_iff_forall_rel_of_append_cons_cons.1 hseen hsplit hcalls ?_
    exact unseen_of_calls hnone (Gate.isClean_of_accepted accepted).calls hps hsplit hcalls

/-- A name of one letter in front of a parenthesis is a token. -/
theorem token?_letter {letter : Char} (hname : isIdentifier [letter] = true) {paren : Char}
    (hparen : paren = '(' ∨ paren = ')') (rest : List Char) :
    token? letter (paren :: rest) = some (wordToken [letter], paren :: rest) := by
  refine @token?_name letter [] (paren :: rest) hname fun c hc => ?_
  cases hc
  rcases hparen with rfl | rfl
  · decide
  · decide

/-- A member that is named like an operator is called. -/
theorem no_calls_iff_member :
    Gate.checkExpression {} "a.and(x)" = .ok () ∧
      ∃ ps, placed? "a.and(x)".toList = some ps ∧ ¬ ps.IsChain fun p q => p.calls q = false := by
  have accepted : Gate.checkExpression {} "a.and(x)" = .ok () := rfl
  have hreference : token? 'a' ".and(x)".toList = some (.reference "a.and", "(x)".toList) := by
    have hparen : ∀ c ∈ ['(', 'x', ')'].head?, isIdentifierPart c = false ∧ c ≠ '.' ∧ c ≠ '[' := by
      rintro _ ⟨⟩
      decide
    have hread : accessors ['a'] ".and(x)".toList = ("a.and".toList, "(x)".toList) :=
      (@accessors_member ['a', 'n', 'd'] rfl ['(', 'x', ')'] (fun c hc => (hparen c hc).1) ['a']).trans
        (accessors_stop (fun c hc => (hparen c hc).2) _)
    change some (wordToken (accessors ['a'] ".and(x)".toList).1, (accessors ['a'] ".and(x)".toList).2) = _
    rw [hread]
    rfl
  have hps : placed? "a.and(x)".toList = some [
      ⟨[], "a.and".toList, "(x)".toList, .reference "a.and"⟩, ⟨"a.and".toList, ['('], ['x', ')'], .openParen⟩,
      ⟨"a.and(".toList, ['x'], [')'], .reference "x"⟩, ⟨"a.and(x".toList, [')'], [], .closeParen⟩] :=
    placedFrom?_token rfl hreference rfl (placedFrom?_token rfl rfl rfl
      (placedFrom?_token rfl (token?_letter rfl (.inr rfl) []) rfl (placedFrom?_token rfl rfl rfl placedFrom?_nil)))
  refine ⟨accepted, _, hps, fun hno => ?_⟩
  have hfirst := (List.isChain_cons_cons.1 ((no_calls_iff rfl accepted hps).1 hno)).1
  exact hfirst (by decide) (.member ['a'] "and".toList rfl (by decide))

/-- Behind an escaped mark, which opens a quote for the gate, any function is called. -/
theorem not_no_calls :
    ¬ ∀ (security : Security) (expression : String) (ps : List Placed), security.allowedFunctions = [] →
      Gate.checkExpression security expression = .ok () → placed? expression.toList = some ps →
      ps.IsChain fun p q => p.calls q = false := by
  intro hno
  have accepted : Gate.checkExpression {} "'\\'' + f(x)" = .ok () := rfl
  have hps : placed? "'\\'' + f(x)".toList = some [
      ⟨[], "'\\''".toList, " + f(x)".toList, .literal (.string "\\")⟩,
      ⟨"'\\'' ".toList, ['+'], " f(x)".toList, .plus⟩,
      ⟨"'\\'' + ".toList, ['f'], "(x)".toList, .reference "f"⟩,
      ⟨"'\\'' + f".toList, ['('], ['x', ')'], .openParen⟩,
      ⟨"'\\'' + f(".toList, ['x'], [')'], .reference "x"⟩,
      ⟨"'\\'' + f(x".toList, [')'], [], .closeParen⟩] :=
    placedFrom?_token rfl rfl rfl (placedFrom?_gap rfl (placedFrom?_token rfl rfl rfl (placedFrom?_gap rfl
      (placedFrom?_token rfl (token?_letter rfl (.inl rfl) _) rfl (placedFrom?_token rfl rfl rfl
        (placedFrom?_token rfl (token?_letter rfl (.inr rfl) []) rfl
          (placedFrom?_token rfl rfl rfl placedFrom?_nil)))))))
  have hcalls := hno {} _ _ rfl accepted hps
  simp only [List.isChain_cons_cons] at hcalls
  exact absurd hcalls.2.2.1 (by decide)

end Formula

end Stencil
