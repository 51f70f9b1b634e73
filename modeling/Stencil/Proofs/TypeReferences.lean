import Stencil.Proofs.Acceptance
import Stencil.Proofs.Folding
import Stencil.Proofs.Matching
import Stencil.Proofs.Resolution.WholeWords

/-!
Names of host types in front of a point. The gate looks for them once, in the whole expression, where a word begins;
resolution looks up parts that are cut out of it. As no cut goes through a word, a part that begins with such a name
and a point would have been seen by the gate, so none is ever looked up, whatever the variables are.
-/

namespace Stencil

open Text Reference

/-- The names of host types that no dotted path may begin with. -/
def hostTypes : List String := [
  "system", "process", "file", "directory", "reflection", "assembly", "activator", "environment"]

/-- Whether a dotted text begins with the name of a host type, blanks and the case of letters aside. -/
def NamesHostType (text : List Char) : Prop :=
  ∃ first second others, Resolver.pathSegments text = first :: second :: others ∧
    ∃ name ∈ hostTypes, sameLetters first name.toList = true

namespace Text

theorem joinWith_splitAt (mark : Char) (s : List Char) : joinWith mark (splitAt mark s) = s := by
  induction s with
  | nil => rfl
  | cons c rest ih =>
      rw [splitAt]
      split
      next hc =>
        rw [joinWith_cons (splitAt_ne_nil mark rest), ih, hc]
        rfl
      next =>
        rcases hs : splitAt mark rest with _ | ⟨piece, pieces⟩
        · exact absurd hs (splitAt_ne_nil mark rest)
        · rw [hs] at ih
          have honto : joinWith mark (([c] ++ piece) :: pieces) = [c] ++ joinWith mark (piece :: pieces) :=
            joinWith_onto (List.cons_ne_nil piece pieces)
          rw [ih] at honto
          exact honto

/-- What trimming takes away. -/
theorem exists_trim (s : List Char) :
    ∃ front back, s = front ++ (trim s ++ back) ∧ (∀ c ∈ front, isBlank c = true) ∧
      ∀ c ∈ back, isBlank c = true := by
  refine ⟨s.takeWhile isBlank, (((s.dropWhile isBlank).reverse).takeWhile isBlank).reverse, ?_, ?_, ?_⟩
  · have hend := congrArg List.reverse
      (List.takeWhile_append_dropWhile (p := isBlank) (l := (s.dropWhile isBlank).reverse))
    rw [List.reverse_append, List.reverse_reverse] at hend
    unfold trim trimEnd trimStart
    rw [hend, List.takeWhile_append_dropWhile]
  · exact fun c hc => List.mem_takeWhile_imp hc
  · exact fun c hc => List.mem_takeWhile_imp (List.mem_reverse.1 hc)

end Text

namespace Gate

theorem hostTypes_subset_typeWords : hostTypes ⊆ typeWords := by decide

/-- The names of host types are written with letters. -/
theorem word_of_hostType {name : String} (hname : name ∈ hostTypes) {word : List Char}
    (hsame : sameLetters word name.toList = true) :
    asciiLower word = name.toList ∧ ∃ first rest, word = first :: rest ∧ isWord first = true := by
  have hlower : ∀ name ∈ hostTypes, asciiLower name.toList = name.toList ∧
      name.toList.head?.any isAsciiLetter = true := by decide
  obtain ⟨hself, hfirst⟩ := hlower name hname
  have hword : asciiLower word = name.toList := (eq_of_beq hsame).trans hself
  refine ⟨hword, ?_⟩
  rw [← hword] at hfirst
  cases word with
  | nil => cases hfirst
  | cons first rest =>
      have hletter : isAsciiLetter first = true := isAsciiLetter_of_toLower hfirst
      refine ⟨first, rest, rfl, isWord_of_isIdentifierPart ?_⟩
      rw [isIdentifierPart, isAsciiAlphanumeric, hletter]
      rfl

/-- Where the name of a host type begins as a word, with a point behind it, the pattern matches. -/
theorem matches_hostType {name : String} (hname : name ∈ hostTypes) {word blanks : List Char}
    (hsame : sameLetters word name.toList = true) (hblanks : ∀ c ∈ blanks, isBlank c = true)
    {before : Option Char} (hbefore : ∀ c ∈ before, isWord c = false) (rest : List Char) :
    Way.Matches before (.bound :: Way.word name ++ [.run isBlank, .one (· == '.')])
      (word ++ (blanks ++ '.' :: rest)) rest := by
  obtain ⟨hword, first, more, hfirst, hletter⟩ := word_of_hostType hname hsame
  have hpoint : Way.Matches (blanks.getLast?.or (word.getLast?.or before)) [.one (· == '.')]
      ('.' :: rest) rest := .one rfl (.done _ _)
  refine .bound ?_ (matches_word hword (Way.matches_run_iff.2 ⟨blanks, _, rfl, hblanks, hpoint⟩))
  have hbehind : before.any isWord = false := by
    cases before with
    | none => rfl
    | some c => exact hbefore c rfl
  rw [wordBound, hbehind, hfirst, List.cons_append, List.head?_cons, Option.any_some, hletter]
  rfl

/-- What the gate accepts has no part, cut between its words, that begins with the name of a host type. -/
theorem not_namesHostType_of_isCut {expression part : List Char} (hnone : typePattern.find? expression = none)
    (hcut : IsCut expression part) : ¬ NamesHostType part := by
  rintro ⟨first, second, others, hsegments, name, hname, hsame⟩
  obtain ⟨head, tail, hpieces, hfirst, htail⟩ := List.map_eq_cons_iff.1 hsegments
  obtain ⟨next, more, rfl, -, -⟩ := List.map_eq_cons_iff.1 htail
  have hpart : part = head ++ '.' :: joinWith '.' (next :: more) := by
    have hjoin := joinWith_splitAt '.' part
    rw [hpieces, joinWith_cons (List.cons_ne_nil next more)] at hjoin
    exact hjoin.symm
  obtain ⟨blanks, blanks', hhead, hblanks, hblanks'⟩ := exists_trim head
  rw [hfirst] at hhead
  obtain ⟨front, back, hexpression, hcut⟩ := hcut
  have hsplit : expression =
      (front ++ blanks) ++ (first ++ (blanks' ++ '.' :: (joinWith '.' (next :: more) ++ back))) := by
    rw [hexpression, hpart, hhead]
    simp
  have hbefore : ∀ c ∈ (front ++ blanks).getLast?, isWord c = false := by
    rcases List.eq_nil_or_concat blanks with rfl | ⟨blanks, last, rfl⟩
    · rw [List.append_nil]
      refine hcut.resolve_right fun hoff => ?_
      obtain ⟨-, c, rest, hc, hletter⟩ := word_of_hostType hname hsame
      have hnone := hoff c (by rw [hpart, hhead, hc]; rfl)
      rw [hletter] at hnone
      cases hnone
    · rw [List.concat_eq_append, ← List.append_assoc, List.getLast?_concat]
      rintro _ ⟨⟩
      exact not_isWord_of_isBlank (hblanks last (by simp))
  have hway : .bound :: Way.word name ++ [.run isBlank, .one (· == '.')] ∈ typePattern :=
    List.mem_map_of_mem (hostTypes_subset_typeWords hname)
  exact Pattern.find?_complete hnone hsplit hway _ (matches_hostType hname hsame hblanks' hbefore _)

end Gate

namespace Resolver

/-- No resolution looks up a dotted path that begins with the name of a host type, whether it succeeds or fails,
whatever the settings, the variables and the filters are. -/
theorem never_looks_up_host_types (r : Resolver) (expression : List Char) :
    LeavesOnly (fun event => ∀ text, event = .lookup text → ¬ NamesHostType text.toList)
      (resolve r expression) := by
  unfold resolve
  refine (leavesOnly_note (fun text h => nomatch h)).bind fun _ => ?_
  split
  · exact leavesOnly_pure none
  · refine LeavesOnly.bind_liftExcept fun _ accepted => ?_
    have hclean := Gate.isClean_of_accepted accepted
    rw [String.toList_ofList] at hclean
    have hparts := leavesOnly_parts (fun event => ∀ text, event = .lookup text →
      ¬ NamesHostType text.toList) r (keptByCuts_isCut (trim expression)) ?_ ?_
    · exact (hparts.1 (trim expression) true (isCut_self _)).bind fun _ => leavesOnly_pure _
    · intro part hcut text htext
      cases htext
      rw [String.toList_ofList]
      exact Gate.not_namesHostType_of_isCut hclean.types hcut
    · exact fun _ _ text h => nomatch h

end Resolver

end Stencil
