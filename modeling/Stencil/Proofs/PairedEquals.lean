import Stencil.Proofs.Acceptance
import Stencil.Proofs.Blanking
import Stencil.Proofs.Grammar.Roles

/-!
Equals signs in a condition. The gate looks at the two neighbours of each sign that it sees, the grammar pairs signs
from left to right. What the gate accepts has no sign left over but in quotes that never close, where the gate takes
it for quoted, and right behind a comparison.
-/

namespace Stencil

open Text Formula

/-- Whether every equals sign is part of a literal or of a comparison. -/
def EqualsPaired (s : List Char) : Prop :=
  ∀ mark ∈ roles s, mark.1 = '=' → mark.2 = .literal ∨ mark.2 = .comparison

/-- The equals signs that are left over and not refused. -/
inductive Overlooked (s : List Char) : Prop where
  /-- It stands in quotes that never close. -/
  | unfinished (h : ('=', .unfinished) ∈ roles s)
  /-- It stands in what the gate takes for a quote. -/
  | quoted (front back : List (Char × Role)) (h : roles s = front ++ ('=', .other) :: back)
      (hidden : (Gate.blankQuoted s)[front.length]? ≠ some '=')
  /-- It stands behind a comparison. -/
  | behind (front back : List (Char × Role))
      (h : roles s = front ++ ('=', .comparison) :: ('=', .other) :: back)

namespace Gate

/-- An equals sign that is no assignment has a sign of a comparison next to it. -/
theorem neighbour_of_not_assigns {before : Option Char} {front back : List Char}
    (h : assigns before (front ++ '=' :: back) = false) :
    (∃ c ∈ front.getLast?.or before, beginsComparison c = true) ∨ back.head? = some '=' := by
  induction front generalizing before with
  | nil =>
      have hfirst : (before.any beginsComparison || back.head? == some '=') = true :=
        (Bool.not_eq_false' _).mp (Bool.or_eq_false_iff.1 h).1
      rcases Bool.or_eq_true_iff.1 hfirst with hbefore | hbehind
      · exact Or.inl ((Option.any_eq_true _ _).1 hbefore)
      · exact Or.inr (eq_of_beq hbehind)
  | cons c front ih =>
      have hrest : assigns (some c) (front ++ '=' :: back) = false := (Bool.or_eq_false_iff.1 h).2
      have hnext := ih hrest
      rw [List.getLast?_cons]
      cases hlast : front.getLast? with
      | none =>
          rw [hlast] at hnext
          exact hnext
      | some last =>
          rw [hlast] at hnext
          exact hnext

theorem not_assigns_of_accepted {security : Security} {condition : String}
    (accepted : checkCondition security condition = .ok ()) :
    assigns none (blankQuoted condition.toList) = false := by
  unfold checkCondition at accepted
  split at accepted
  next => cases accepted
  next => cases accepted
  next =>
    split at accepted
    next => cases accepted
    next hnone => exact Bool.eq_false_iff.2 hnone

end Gate

/-- An equals sign that the gate sees and accepts stands behind a comparison, if it is left over. -/
theorem overlooked_of_other {s : List Char} (accepted : Gate.assigns none (Gate.blankQuoted s) = false)
    {front back : List (Char × Role)} (h : roles s = front ++ ('=', .other) :: back) : Overlooked s := by
  by_cases hshown : (Gate.blankQuoted s)[front.length]? = some '='
  case neg => exact .quoted front back h hshown
  have hkeeps := keeps_roles s
  have hsplit : s = front.map Prod.fst ++ '=' :: back.map Prod.fst := by
    have htext := hkeeps.text
    rw [h, List.map_append] at htext
    exact htext.symm
  have hvisible := hshown
  rw [hsplit, ← List.length_map (f := Prod.fst), Gate.getElem?_blankQuoted, Option.some.injEq] at hvisible
  rw [hsplit, Gate.blankQuoted_split, hvisible] at accepted
  have hchain := hkeeps.chain
  rw [h] at hchain
  obtain ⟨-, htail, hseam⟩ := List.isChain_append.1 hchain
  rcases Gate.neighbour_of_not_assigns accepted with ⟨c, hc, hcomparison⟩ | hbehind
  · rw [Option.or_none] at hc
    rcases Gate.getLast?_blankQuotedFrom hc with hlast | rfl
    · rw [List.getLast?_map] at hlast
      obtain ⟨m, hm, rfl⟩ := Option.map_eq_some_iff.1 hlast
      obtain ⟨front', rfl⟩ := List.getLast?_eq_some_iff.1 hm
      have hpair : m = ('=', .comparison) := (hseam m hm _ rfl).before rfl hcomparison
      refine .behind front' back ?_
      rw [h, hpair, List.append_assoc]
      rfl
    · cases hcomparison
  · rcases Gate.head?_blankQuotedFrom hbehind with hhead | hblank
    · rw [List.head?_map] at hhead
      obtain ⟨n, hn, hequal⟩ := Option.map_eq_some_iff.1 hhead
      exact absurd hequal (((List.isChain_cons.1 htail).1 n hn).behind rfl)
    · exact absurd hblank (by decide)

/-- In an accepted condition the equals signs are paired exactly if none of them is overlooked: every other one that
is left over is refused. -/
theorem equals_paired_iff {security : Security} {condition : String}
    (accepted : Gate.checkCondition security condition = .ok ()) :
    EqualsPaired condition.toList ↔ ¬ Overlooked condition.toList := by
  constructor
  · rintro hpaired (hunfinished | ⟨front, back, hroles, -⟩ | ⟨front, back, hroles⟩)
    · exact absurd (hpaired _ hunfinished rfl) (by decide)
    · exact absurd (hpaired ('=', .other) (by rw [hroles]; simp) rfl) (by decide)
    · exact absurd (hpaired ('=', .other) (by rw [hroles]; simp) rfl) (by decide)
  · rintro hseen ⟨c, role⟩ hmem (rfl : c = '=')
    cases role with
    | literal => exact Or.inl rfl
    | comparison => exact Or.inr rfl
    | unfinished => exact absurd (.unfinished hmem) hseen
    | other =>
        obtain ⟨front, back, hroles⟩ := List.append_of_mem hmem
        exact absurd (overlooked_of_other (Gate.not_assigns_of_accepted accepted) hroles) hseen

/-- An equals sign in quotes behind a comparison. -/
theorem equals_paired_iff_quoted :
    Gate.checkCondition {} "a == '='" = .ok () ∧ EqualsPaired "a == '='".toList := by
  have accepted : Gate.checkCondition {} "a == '='" = .ok () := rfl
  have hroles : roles "a == '='".toList =
      [('a', .other), (' ', .other), ('=', .comparison), ('=', .comparison), (' ', .other), ('\'', .literal),
        ('=', .literal), ('\'', .literal)] := by
    have hname : token? 'a' [' ', '=', '=', ' ', '\'', '=', '\''] =
        some (.reference "a", [' ', '=', '=', ' ', '\'', '=', '\'']) :=
      @token?_name 'a' [] _ rfl (by rintro _ ⟨⟩; decide)
    have hcompare : token? '=' ['=', ' ', '\'', '=', '\''] =
        some (.compare .equal, [' ', '\'', '=', '\'']) := rfl
    have hquoted : token? '\'' ['=', '\''] = some (.literal (.string "="), []) := rfl
    change rolesWith _ ['a', ' ', '=', '=', ' ', '\'', '=', '\''] = _
    rw [rolesWith_token hname (rfl : _ = ['a'] ++ _) (by decide), rolesWith_other rfl (by decide),
      rolesWith_token hcompare (rfl : _ = ['=', '='] ++ _) (by decide), rolesWith_other rfl (by decide),
      rolesWith_token hquoted (rfl : _ = ['\'', '=', '\''] ++ _) (by decide), rolesWith]
    rfl
  refine ⟨accepted, (equals_paired_iff accepted).2 ?_⟩
  rintro (hunfinished | ⟨front, back, h, -⟩ | ⟨front, back, h⟩)
  · rw [hroles] at hunfinished
    exact absurd hunfinished (by decide)
  · have hmem : ('=', Role.other) ∈ roles "a == '='".toList := by rw [h]; simp
    rw [hroles] at hmem
    exact absurd hmem (by decide)
  · have hmem : ('=', Role.other) ∈ roles "a == '='".toList := by rw [h]; simp
    rw [hroles] at hmem
    exact absurd hmem (by decide)

/-- A comparison takes two of three equals signs; the third has one for a neighbour. -/
theorem not_equals_paired :
    ¬ ∀ (security : Security) (condition : String), Gate.checkCondition security condition = .ok () →
      EqualsPaired condition.toList := by
  intro hpaired
  have accepted : Gate.checkCondition {} "a === b" = .ok () := rfl
  have hroles : roles "a === b".toList =
      [('a', .other), (' ', .other), ('=', .comparison), ('=', .comparison), ('=', .other), (' ', .other),
        ('b', .other)] := by
    have hname : token? 'a' [' ', '=', '=', '=', ' ', 'b'] =
        some (.reference "a", [' ', '=', '=', '=', ' ', 'b']) :=
      @token?_name 'a' [] _ rfl (by rintro _ ⟨⟩; decide)
    have hcompare : token? '=' ['=', '=', ' ', 'b'] = some (.compare .equal, ['=', ' ', 'b']) := rfl
    have hlast : token? 'b' [] = some (.reference "b", []) := @token?_name 'b' [] [] rfl nofun
    change rolesWith _ ['a', ' ', '=', '=', '=', ' ', 'b'] = _
    rw [rolesWith_token hname (rfl : _ = ['a'] ++ _) (by decide), rolesWith_other rfl (by decide),
      rolesWith_token hcompare (rfl : _ = ['=', '='] ++ _) (by decide), rolesWith_other rfl (by decide),
      rolesWith_other rfl (by decide), rolesWith_token hlast (rfl : _ = ['b'] ++ _) (by decide), rolesWith]
    rfl
  have hleft := hpaired {} _ accepted ('=', .other) (by rw [hroles]; decide) rfl
  exact absurd hleft (by decide)

end Stencil
