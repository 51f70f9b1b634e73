import Stencil.Formula.Grammar
import Stencil.Proofs.Resolution.Quoting

/-!
Where the references of an expression come from. The tokenizer cuts a reference out of the text as it stands
there, at a place where no quotes are open. So a text that hides its brackets hides them in its references.
-/

namespace Stencil

open Text Reference

namespace Formula

theorem unquoted_of_isIdentifierPart {c : Char} (h : isIdentifierPart c = true) :
    c ≠ '"' ∧ c ≠ '\'' := by
  have hfree := isFree_iff.1 (isFree_of_isIdentifierPart h)
  exact ⟨hfree.1, hfree.2.1⟩

theorem unquoted_of_isAsciiDigit {c : Char} (h : isAsciiDigit c = true) : c ≠ '"' ∧ c ≠ '\'' := by
  refine unquoted_of_isIdentifierPart ?_
  simp only [isIdentifierPart, isAsciiAlphanumeric, h, Bool.or_true, Bool.true_or]

/-- A text that is read up to a place where no quotes are open. -/
def Consumes (text taken after : List Char) : Prop :=
  text = taken ++ after ∧ (Nesting.after {} taken).quote = none

/-- What is taken off the front of a text, and what follows it; no quotes are taken. -/
def Takes (s : List Char) (read : List Char × List Char) : Prop :=
  s = read.1 ++ read.2 ∧ ∀ c ∈ read.1, c ≠ '"' ∧ c ≠ '\''

theorem takes_nothing (s : List Char) : Takes s ([], s) :=
  ⟨rfl, fun _ hc => absurd hc List.not_mem_nil⟩

theorem takes_takeWhile {p : Char → Bool} (hp : ∀ {c}, p c = true → c ≠ '"' ∧ c ≠ '\'')
    (s : List Char) : Takes s (s.takeWhile p, s.dropWhile p) :=
  ⟨List.takeWhile_append_dropWhile.symm, fun _ hc => hp (List.mem_takeWhile_imp hc)⟩

theorem takes_digits (s : List Char) :
    Takes s (s.takeWhile isAsciiDigit, s.dropWhile isAsciiDigit) :=
  takes_takeWhile unquoted_of_isAsciiDigit s

theorem Takes.cons {c : Char} (hc : c ≠ '"' ∧ c ≠ '\'') {s : List Char}
    {read : List Char × List Char} (h : Takes s read) : Takes (c :: s) (c :: read.1, read.2) := by
  refine ⟨congrArg (c :: ·) h.1, fun d hd => ?_⟩
  rcases List.mem_cons.1 hd with rfl | hd
  · exact hc
  · exact h.2 d hd

theorem takes_name {first : Char} (hfirst : isIdentifierStart first = true) (rest : List Char) :
    Takes (first :: rest) (first :: rest.takeWhile isIdentifierPart, rest.dropWhile isIdentifierPart) :=
  (takes_takeWhile unquoted_of_isIdentifierPart rest).cons
    (unquoted_of_isIdentifierPart (isIdentifierPart_of_isIdentifierStart hfirst))

theorem Takes.append {s : List Char} {read read' : List Char × List Char} (h : Takes s read)
    (h' : Takes read.2 read') : Takes s (read.1 ++ read'.1, read'.2) := by
  refine ⟨?_, fun c hc => ?_⟩
  · rw [List.append_assoc, ← h'.1]
    exact h.1
  · rcases List.mem_append.1 hc with hc | hc
    · exact h.2 c hc
    · exact h'.2 c hc

theorem Takes.consumes {s : List Char} {read : List Char × List Char} (h : Takes s read) :
    Consumes s read.1 read.2 :=
  ⟨h.1, after_unquoted h.2⟩

theorem Consumes.isPart {s taken after : List Char} (h : Consumes s taken after) :
    IsPart s after := by
  obtain ⟨rfl, unquoted⟩ := h
  exact isPart_right unquoted after

/-- Digits behind a character that is no quote are taken with it, or nothing is. -/
theorem takes_digitsAfter {s : List Char} (hfirst : ∀ c ∈ s.head?, c ≠ '"' ∧ c ≠ '\'') :
    Takes s (digitsAfter s) := by
  unfold digitsAfter
  split
  next c d rest =>
    split
    next hd => exact ((takes_digits rest).cons (unquoted_of_isAsciiDigit hd)).cons (hfirst c rfl)
    next => exact takes_nothing _
  next => exact takes_nothing _

theorem takes_fraction (s : List Char) : Takes s (fraction s) := by
  unfold fraction
  split
  next hpoint =>
    refine takes_digitsAfter fun c hc => ?_
    rw [hpoint] at hc
    cases hc
    decide
  next => exact takes_nothing s

theorem takes_exponent (s : List Char) : Takes s (exponent s) := by
  have behind : ∀ (c : Char) (rest : List Char) (read : List Char × List Char), c = 'e' ∨ c = 'E' →
      Takes rest read →
        Takes (c :: rest) (if read.1.isEmpty then ([], c :: rest) else (c :: read.1, read.2)) := by
    intro c rest read hc hread
    have hletter : c ≠ '"' ∧ c ≠ '\'' := by
      rcases hc with rfl | rfl
      · decide
      · decide
    split
    · exact takes_nothing _
    · exact hread.cons hletter
  unfold exponent
  split
  next c rest =>
    split
    next hc =>
      have hdigits : Takes rest (if rest.head? = some '+' ∨ rest.head? = some '-' then
          digitsAfter rest else (rest.takeWhile isAsciiDigit, rest.dropWhile isAsciiDigit)) := by
        split
        next hsign =>
          refine takes_digitsAfter fun x hx => ?_
          rcases hsign with hplus | hminus
          · rw [hplus] at hx
            cases hx
            decide
          · rw [hminus] at hx
            cases hx
            decide
        next => exact takes_digits rest
      exact behind c rest _ hc hdigits
    next => exact takes_nothing _
  next => exact takes_nothing _

theorem number_consumes (s : List Char) : ∃ taken, Consumes s taken (number s).2 := by
  have hfraction := takes_fraction (s.dropWhile isAsciiDigit)
  have hexponent := takes_exponent (fraction (s.dropWhile isAsciiDigit)).2
  exact ⟨_, ((takes_digits s).append (hfraction.append hexponent)).consumes⟩

/-- Quoted text ends where its quotes do. -/
theorem quotedText_consumes {mark : Char} {passed s text after : List Char}
    (h : quotedText mark passed s = .ok (text, after)) :
    ∃ inner, s = inner ++ after ∧
      ∀ depth, (Nesting.after ⟨some mark, false, depth⟩ inner).quote = none := by
  fun_induction quotedText mark passed s with
  | case1 => cases h
  | case2 => cases h
  | case3 => cases h
  | case4 passed c behind hc ih =>
      obtain ⟨inner, rfl, hclosed⟩ := ih h
      refine ⟨'\\' :: c :: inner, rfl, fun depth => ?_⟩
      exact hclosed depth
  | case5 passed behind hbackslash =>
      cases h
      refine ⟨[mark], rfl, fun depth => ?_⟩
      have hmark : mark ≠ '\\' := hbackslash
      simp [Nesting.after, Nesting.step, hmark]
  | case6 passed c behind hbackslash hmark ih =>
      obtain ⟨inner, rfl, hclosed⟩ := ih h
      refine ⟨c :: inner, rfl, fun depth => ?_⟩
      have hstep : Nesting.step ⟨some mark, false, depth⟩ c = ⟨some mark, false, depth⟩ := by
        have hplain : c ≠ '\\' := hbackslash
        simp [Nesting.step, hmark, hplain]
      rw [Nesting.after, List.foldl_cons, hstep]
      exact hclosed depth

theorem quoted?_consumes {mark : Char} (hmark : mark = '"' ∨ mark = '\'') {rest after : List Char}
    {token : Token} (h : quoted? mark rest = some (token, after)) :
    ∃ taken, Consumes (mark :: rest) taken after := by
  unfold quoted? at h
  split at h
  next text behind hquoted =>
    cases h
    obtain ⟨inner, rfl, hclosed⟩ := quotedText_consumes hquoted
    refine ⟨mark :: inner, rfl, ?_⟩
    have hstep : Nesting.step {} mark = ⟨some mark, false, 0⟩ := by
      simp [Nesting.step, hmark]
    rw [Nesting.after, List.foldl_cons, hstep]
    exact hclosed 0
  next => cases h

theorem sign?_consumes {s after : List Char} {token : Token} (h : sign? s = some (token, after)) :
    ∃ taken, Consumes s taken after := by
  have hsigns : ((signs.map Prod.fst).all fun sign => sign.all fun c => c ≠ '"' ∧ c ≠ '\'') = true := by
    decide
  obtain ⟨⟨sign, found⟩, hmem, hsign⟩ := List.exists_of_findSome?_eq_some h
  obtain ⟨behind, hprefix, heq⟩ := Option.map_eq_some_iff.1 hsign
  cases heq
  refine ⟨sign, eq_append_of_isPrefixOf? hprefix, after_unquoted fun c hc => ?_⟩
  have hsign := List.all_eq_true.1 hsigns sign (List.mem_map_of_mem hmem)
  exact of_decide_eq_true (List.all_eq_true.1 hsign c hc)

/-- Without brackets, only points and the characters of names follow a name. -/
theorem accessors_takes (taken : List Char) {s : List Char} (hidden : HidesBrackets s) :
    ∃ more, Takes s (more, (accessors taken s).2) ∧
      (accessors taken s).1 = taken.reverse ++ more := by
  fun_induction accessors taken s with
  | case1 taken c rest hc ih =>
      have hmember := (takes_name hc rest).cons (show '.' ≠ '"' ∧ '.' ≠ '\'' by decide)
      obtain ⟨more, hmore, htext⟩ := ih (hidden.part hmember.consumes.isPart)
      refine ⟨'.' :: c :: (rest.takeWhile isIdentifierPart ++ more), hmember.append hmore, ?_⟩
      rw [htext]
      simp
  | case2 taken c rest hc => exact ⟨[], takes_nothing _, (List.append_nil _).symm⟩
  | case3 taken rest close behind hclose ih =>
      -- a bracket would be an indexer that shows
      have hshown := hidden.opening?_eq_none
      simp [opening?, openingFrom?] at hshown
  | case4 taken rest hunclosed => exact ⟨[], takes_nothing _, (List.append_nil _).symm⟩
  | case5 taken s hpoint hbracket => exact ⟨[], takes_nothing _, (List.append_nil _).symm⟩

theorem word_consumes {first : Char} (hfirst : isIdentifierStart first = true) {rest : List Char}
    (hidden : HidesBrackets (first :: rest)) :
    ∃ taken, Consumes (first :: rest) taken (word first rest).2 ∧
      (word first rest).1 = wordToken taken := by
  have hname := takes_name hfirst rest
  obtain ⟨more, hmore, htext⟩ :=
    accessors_takes ((rest.takeWhile isIdentifierPart).reverse ++ [first])
      (hidden.part hname.consumes.isPart)
  refine ⟨_, (hname.append hmore).consumes, ?_⟩
  rw [word, htext]
  simp

theorem reference_of_wordToken {word : List Char} {text : String}
    (h : wordToken word = .reference text) : text.toList = word := by
  unfold wordToken at h
  repeat' split at h
  all_goals cases h
  exact String.toList_ofList

/-- A token is cut off where no quotes are open, and a reference is the text that is cut off. -/
theorem token?_consumes {c : Char} {rest after : List Char} {token : Token}
    (hidden : HidesBrackets (c :: rest)) (h : token? c rest = some (token, after)) :
    ∃ taken, Consumes (c :: rest) taken after ∧
      ∀ text, token = .reference text → text.toList = taken := by
  unfold token? at h
  split at h
  next hdigit =>
    obtain ⟨taken, htaken⟩ := number_consumes (c :: rest)
    cases h
    exact ⟨taken, htaken, fun text htext => nomatch htext⟩
  next =>
    split at h
    next hstart =>
      obtain ⟨taken, htaken, htoken⟩ := word_consumes hstart hidden
      rw [Option.some.injEq] at h
      rw [h] at htaken htoken
      refine ⟨taken, htaken, fun text htext => reference_of_wordToken ?_⟩
      exact htoken.symm.trans htext
    next =>
      split at h
      next hmark =>
        obtain ⟨taken, htaken⟩ := quoted?_consumes hmark h
        refine ⟨taken, htaken, ?_⟩
        rintro text rfl
        unfold quoted? at h
        split at h
        · cases h
        · cases h
      next =>
        obtain ⟨taken, htaken⟩ := sign?_consumes h
        refine ⟨taken, htaken, ?_⟩
        rintro text rfl
        have hsigns : ∀ token ∈ signs.map Prod.snd, token.reference? = none := by decide
        obtain ⟨⟨sign, found⟩, hmem, hsign⟩ := List.exists_of_findSome?_eq_some h
        obtain ⟨behind, hprefix, heq⟩ := Option.map_eq_some_iff.1 hsign
        cases heq
        exact absurd (hsigns _ (List.mem_map_of_mem hmem)) (by rintro ⟨⟩)

/-- The references among the tokens of a text that hides its brackets are parts of it. -/
theorem isPart_of_mem_tokens? {s : List Char} (hidden : HidesBrackets s) {tokens : List Token}
    (h : tokens? s = some tokens) {text : String} (hmem : Token.reference text ∈ tokens) :
    IsPart s text.toList := by
  fun_induction tokens? s generalizing tokens with
  | case1 =>
      cases h
      exact absurd hmem List.not_mem_nil
  | case2 c rest hgap ih =>
      have hc : c ≠ '"' ∧ c ≠ '\'' := by
        simp only [isGap, Bool.or_eq_true, beq_iff_eq] at hgap
        rcases hgap with ((rfl | rfl) | rfl) | rfl
        · decide
        · decide
        · decide
        · decide
      have hpart : IsPart (c :: rest) rest := ((takes_nothing rest).cons hc).consumes.isPart
      exact hpart.trans (ih (hidden.part hpart) h hmem)
  | case3 c rest hgap token after htoken ih =>
      obtain ⟨others, hothers, rfl⟩ := Option.map_eq_some_iff.1 h
      obtain ⟨taken, hconsumes, hreference⟩ := token?_consumes hidden htoken
      rcases List.mem_cons.1 hmem with hfirst | hlater
      · rw [hreference text hfirst.symm, hconsumes.1]
        exact isPart_left taken after
      · exact hconsumes.isPart.trans (ih (hidden.part hconsumes.isPart) hothers hlater)
  | case4 => cases h

end Formula

end Stencil
