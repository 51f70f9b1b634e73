import Stencil.Proofs.Resolution.Tokens

/-!
Operations on two places. The grammar gives an operation the value of its operator on the values of
its places, if it is asked: a text with an indexer is tried as an indexed target first, and where the
first indexer of an operation ends so that accessors or nothing follow, the operation is taken for
one. Which operations stay operations is told by their indexers.
-/

namespace Stencil

open Text Reference Formula

namespace Formula

theorem isFree_sign (operator : Operator) : ∀ c ∈ operator.sign, isFree c = true := by
  refine List.all_eq_true.1 ?_
  cases operator with
  | compare comparison => cases comparison <;> rfl
  | _ => rfl

/-- No accessor goes on with the sign of an operator. -/
theorem goesOn_sign (operator : Operator) (rest : List Char) :
    goesOn (trimStart (' ' :: (operator.sign ++ rest))) = false := by
  cases operator with
  | compare comparison => cases comparison <;> rfl
  | _ => rfl

/-- Signs do not split: the bars of a disjunction stand together. -/
theorem splitFrom_sign (operator : Operator) (rest : List Char) :
    splitFrom '|' true {} (operator.sign ++ rest) =
      onto operator.sign (splitFrom '|' true {} rest) := by
  cases operator with
  | or => rfl
  | compare comparison =>
      refine splitFrom_sealed ?_ rest
      cases comparison <;> decide
  | _ => exact splitFrom_sealed (by decide) rest

variable (left : Place) (operator : Operator) (right : Place)

/-- Whether the first indexer of an operation does not make an indexed target of the whole. -/
def keepsTargets : Bool := left.endsAtIndex && (!right.isIndexed || left.isIndexed)

/-- An operation is taken for an indexed target unless its left place ends at its first indexer, and
has one if the right place does. -/
theorem indexed?_operation :
    indexed? (operationText left operator right) = none ↔ keepsTargets left right = true := by
  rcases left.text_cases with ⟨hnone, hend, hfree⟩ | ⟨-, -, -, -, -, -, -, hany, -⟩
  · have hkeeps : keepsTargets left right = !right.isIndexed := by
      rw [keepsTargets, hnone, hend, Bool.true_and, Bool.or_false]
    have hbefore : ∀ c ∈ left.text ++ ' ' :: (operator.sign ++ [' ']), isFree c = true := by
      intro c hc
      rcases List.mem_append.1 hc with hin | hin
      · exact hfree c hin
      · rcases List.mem_cons.1 hin with rfl | hin
        · rfl
        · rcases List.mem_append.1 hin with hin | hlast
          · exact isFree_sign operator c hin
          · rw [List.mem_singleton.1 hlast]
            rfl
    have htext : operationText left operator right =
        left.text ++ ' ' :: (operator.sign ++ [' ']) ++ right.text := by
      simp [operationText]
    rw [hkeeps, htext, right.indexed?_append_text hbefore, Bool.not_eq_true']
  · have hkeeps : keepsTargets left right = left.endsAtIndex := by
      rw [keepsTargets, hany, Bool.or_true, Bool.and_true]
    rw [hkeeps]
    exact left.indexed?_text_append hany (goesOn_sign operator _)

/-- No bar splits an operation whose keys are closed. -/
theorem segments_operation (hleft : left.isClosed = true) (hright : right.isClosed = true) :
    segments (operationText left operator right) = [operationText left operator right] := by
  have hspace (rest : List Char) :
      splitFrom '|' true {} (' ' :: rest) = onto [' '] (splitFrom '|' true {} rest) :=
    splitFrom_sealed (s := [' ']) (by decide) rest
  have hlast : splitFrom '|' true {} right.text = [right.text] :=
    split_sealed (right.isSealed_text hright (.inl rfl))
  have hall : splitFrom '|' true {} (operationText left operator right) = onto left.text
      (splitFrom '|' true {} (' ' :: (operator.sign ++ ' ' :: right.text))) :=
    splitFrom_sealed (left.isSealed_text hleft (.inl rfl)) _
  rw [hspace, splitFrom_sign, hspace, hlast] at hall
  exact hall

theorem isSolid_operation : IsSolid (operationText left operator right) := by
  have hsolid := left.isSolid_text.append right.isSolid_text (' ' :: (operator.sign ++ [' ']))
  simpa [operationText] using hsolid

theorem exists_sign (operator : Operator) : ∃ c ∈ operator.sign, Resolver.isPathChar c = false := by
  cases operator with
  | compare comparison => cases comparison <;> exact ⟨_, List.mem_cons_self .., by decide⟩
  | _ => exact ⟨_, List.mem_cons_self .., by decide⟩

/-- The sign of an operator is in no name and in no path. -/
theorem not_named_operation :
    isIdentifier (operationText left operator right) = false ∧
      Resolver.isPath (operationText left operator right) = false := by
  obtain ⟨c, hmem, hchar⟩ := exists_sign operator
  have hin : c ∈ operationText left operator right :=
    List.mem_append_right _ (List.mem_cons_of_mem _ (List.mem_append_left _ hmem))
  have hnot : ¬ (isIdentifier (operationText left operator right) = true ∨
      Resolver.isPath (operationText left operator right) = true) := by
    intro named
    exact Bool.noConfusion (hchar.symm.trans (Resolver.isPathChar_of_named named c hin))
  exact ⟨Bool.eq_false_iff.2 fun h => hnot (.inl h), Bool.eq_false_iff.2 fun h => hnot (.inr h)⟩

end Formula

namespace Resolver

variable (r : Resolver) (left : Place) (operator : Operator) (right : Place)

/-- What an operation gives to a template if its places are resolved by themselves: the value of the
operator, where what is missing counts as null. -/
def operationValue : Resolving (Option Value) := do
  let x ← resolveText r left.text true
  let y ← resolveText r right.text true
  return finished (some (operator.apply (x.getD .null) (y.getD .null)))

/-- Whether an operation stays one: it is not taken for an indexed target, and no bar in it splits. -/
def StaysOperation : Prop :=
  keepsTargets left right = true ∧
    segments (operationText left operator right) = [operationText left operator right]

/-- Where backslashes leave the marks of keys alone, the indexers decide. -/
theorem staysOperation_iff (hleft : left.isClosed = true) (hright : right.isClosed = true) :
    StaysOperation left operator right ↔ keepsTargets left right = true :=
  ⟨And.left, fun hkeeps => ⟨hkeeps, segments_operation left operator right hleft hright⟩⟩

variable {r left operator right}

/-- An operation that stays one has the value of its operator. -/
theorem alike_operation (hleft : isReserved left.name = false) (hright : isReserved right.name = false)
    (unbound : r.direct? (operationText left operator right) = none)
    (stays : StaysOperation left operator right) :
    Alike (do return finished (← resolveText r (operationText left operator right) true))
      (operationValue r left operator right) := by
  obtain ⟨hkeeps, whole⟩ := stays
  obtain ⟨unnamed, noPath⟩ := not_named_operation left operator right
  have unindexed := (indexed?_operation left operator right).2 hkeeps
  have hlookUp (place : Place) (h : place.text.length ≤ (operationText left operator right).length) :
      lookUp r (operationText left operator right) (String.ofList place.text) =
        resolveText r place.text true := by
    rw [lookUp, String.toList_ofList, if_pos h, place.resolveText_text r]
  rw [resolveText_formula unindexed unbound whole noPath unnamed,
    evaluate_operation _ operator hleft hright, hlookUp left (by simp [operationText]),
    hlookUp right (by simp [operationText]; omega)]
  simp only [bind_assoc, pure_bind, finished_present]
  refine Alike.note ?_ _
  exact (alike_resolveText r left.text true).bind fun x =>
    (alike_resolveText r right.text true).bind fun y => alike_pure _

/-- When an operation gives what its operator makes of its places: when it stays an operation, and
otherwise only by chance, if what its text gives without the grammar is the same. -/
theorem answer_operation_iff (hleft : isReserved left.name = false)
    (hright : isReserved right.name = false)
    (accepted : Gate.checkExpression r.security
      (String.ofList (operationText left operator right)) = .ok ())
    (unbound : r.direct? (operationText left operator right) = none) (memory : Memory) :
    answer (resolve r (operationText left operator right)) memory =
        answer (operationValue r left operator right) memory ↔
      StaysOperation left operator right ∨
        answer (do return finished (← resolveText r (operationText left operator right) false)) memory =
          answer (operationValue r left operator right) memory := by
  have solid := isSolid_operation left operator right
  have hresolve := (alike_resolve r solid.trim_eq solid.nonempty accepted).answer_eq memory
  by_cases stays : StaysOperation left operator right
  · have hvalue := (alike_operation hleft hright unbound stays).answer_eq memory
    rw [hresolve, hvalue]
    exact ⟨fun _ => .inl stays, fun _ => rfl⟩
  · -- an indexer or a bar lays claim to the text before the grammar is asked
    have claimed : indexed? (operationText left operator right) ≠ none ∨
        segments (operationText left operator right) ≠ [operationText left operator right] := by
      by_cases hindexed : indexed? (operationText left operator right) = none
      · refine .inr fun whole => stays ⟨?_, whole⟩
        exact (indexed?_operation left operator right).1 hindexed
      · exact .inl hindexed
    rw [hresolve, resolveText_of_claimed r claimed]
    exact ⟨.inr, fun h => h.resolve_left stays⟩

/-- Two flags, one of them in a map. -/
def twoFlags : Resolver where
  security := {}
  host := ⟨fun _ _ => none, fun _ _ => false, fun _ _ => none⟩
  ownFilters := {}
  sharedFilters := {}
  vars := .ofList [("a", .bool true), ("b", .map [("k", .bool true)])]

def namedFlag : Place := ⟨['a'], [], rfl, rfl⟩

def mappedFlag : Place := ⟨['b'], [.index (.quoted '"' ['k'])], by decide, by decide⟩

/-- With the indexer on the left, the flags are compared. -/
theorem answer_operation_iff_flags :
    isReserved mappedFlag.name = false ∧ isReserved namedFlag.name = false ∧
      Gate.checkExpression twoFlags.security
        (String.ofList (operationText mappedFlag (.compare .equal) namedFlag)) = .ok () ∧
      twoFlags.direct? (operationText mappedFlag (.compare .equal) namedFlag) = none ∧
      answer (resolve twoFlags (operationText mappedFlag (.compare .equal) namedFlag)) {} =
        answer (operationValue twoFlags mappedFlag (.compare .equal) namedFlag) {} := by
  have hleft : isReserved mappedFlag.name = false := by decide
  have hright : isReserved namedFlag.name = false := by decide
  have accepted : Gate.checkExpression twoFlags.security
      (String.ofList (operationText mappedFlag (.compare .equal) namedFlag)) = .ok () :=
    accepted_of_toBool (by decide +kernel)
  have unbound :
      twoFlags.direct? (operationText mappedFlag (.compare .equal) namedFlag) = none := by rfl
  have stays : StaysOperation mappedFlag (.compare .equal) namedFlag := by
    constructor
    · decide
    · decide
  exact ⟨hleft, hright, accepted, unbound,
    (answer_operation_iff hleft hright accepted unbound {}).2 (.inl stays)⟩

/-- With the indexer on the right, the comparison is taken for a target, and nothing is compared. -/
theorem not_answer_operation :
    ¬ ∀ (r : Resolver) (left right : Place) (operator : Operator) (memory : Memory)
      (value : Option Value), isReserved left.name = false → isReserved right.name = false →
      Gate.checkExpression r.security (String.ofList (operationText left operator right)) = .ok () →
      r.vars.get? (String.ofList (operationText left operator right)) = none →
      answer (operationValue r left operator right) memory = .ok value →
      answer (resolve r (operationText left operator right)) memory = .ok value := by
  intro hclaim
  have accepted : Gate.checkExpression twoFlags.security
      (String.ofList (operationText namedFlag (.compare .equal) mappedFlag)) = .ok () :=
    accepted_of_toBool (by decide +kernel)
  have hvalue : answer (operationValue twoFlags namedFlag (.compare .equal) mappedFlag) {} =
      .ok (some (.bool true)) := by
    have hkey : keyValue twoFlags ['"', 'k', '"'] = pure (.string "k") := by
      rw [keyValue]
      rfl
    have hindexed : indexed? mappedFlag.text = some ⟨['b'], ['"', 'k', '"'], []⟩ := by decide
    rw [operationValue, resolveText_named twoFlags (.inl (by decide)) true,
      resolveText_indexed twoFlags true hindexed, indexedValue,
      resolveText_named twoFlags (.inl (by decide)) false]
    simp only [behindRoot, hkey, walk]
    rfl
  have hnothing : answer (resolve twoFlags (operationText namedFlag (.compare .equal) mappedFlag)) {} =
      .ok none := by
    have solid := isSolid_operation namedFlag (.compare .equal) mappedFlag
    have hresolve := alike_resolve twoFlags solid.trim_eq solid.nonempty accepted
    have hindexed : indexed? (operationText namedFlag (.compare .equal) mappedFlag) =
        some ⟨"a == b".toList, ['"', 'k', '"'], []⟩ := by decide
    have htarget : resolveText twoFlags "a == b".toList false =
        (do note (.lookup (String.ofList "a == b".toList)); return none) := by
      rw [resolveText_unindexed twoFlags false (by decide)]
      rfl
    rw [hresolve.answer_eq {}, resolveText_indexed twoFlags true hindexed, indexedValue, htarget]
    rfl
  have hanswer := hclaim twoFlags namedFlag mappedFlag (.compare .equal) {} _ (by decide) (by decide)
    accepted (by rfl) hvalue
  cases hanswer.symm.trans hnothing

end Resolver

end Stencil
