import Stencil.Proofs.Resolution.Operand

/-!
Splitting undoes joining. Segments that leave nothing open and show no bar come back when what bars join them to is
split, and so do the arguments that commas join behind the name of a filter, whatever stands in their quotes and
brackets: at each sign the scan stands again as it stood at the beginning. A name that leaves a quote or a bracket
open hides its colon and is not read back.
-/

namespace Stencil.Reference

open Text

/-- Whether a text leaves no quote, bracket or parenthesis open. -/
def isBalanced (s : List Char) : Bool := (Nesting.after {} s).isOutside

/-- Outside quotes no backslash waits for a character to escape. -/
theorem escaping_after {s : List Char} {nesting : Nesting}
    (h : nesting.quote = none → nesting.escaping = false) :
    (nesting.after s).quote = none → (nesting.after s).escaping = false := by
  induction s generalizing nesting with
  | nil => exact h
  | cons c rest ih =>
      have hstep : (nesting.step c).quote = none → (nesting.step c).escaping = false := by
        grind [Nesting.step]
      exact ih hstep

/-- A scan that leaves nothing open stands as it stood at the beginning. -/
theorem after_eq_start_iff {s : List Char} : Nesting.after {} s = {} ↔ isBalanced s = true := by
  have hescaping : (Nesting.after {} s).quote = none → (Nesting.after {} s).escaping = false :=
    escaping_after fun _ => rfl
  unfold isBalanced
  constructor
  · intro h
    rw [h]
    rfl
  · intro h
    generalize Nesting.after {} s = nesting at h hescaping
    obtain ⟨quote, escaping, depth⟩ := nesting
    simp only [Nesting.isOutside, Bool.and_eq_true, Option.isNone_iff_eq_none, beq_iff_eq] at h
    obtain ⟨rfl, rfl⟩ := h
    obtain rfl : escaping = false := hescaping rfl
    rfl

theorem isSealed_iff {mark : Char} {s : List Char} :
    isSealed mark s = true ↔ Nesting.passes mark {} s = true ∧ isBalanced s = true := by
  rw [isSealed, Bool.and_eq_true, beq_iff_eq, after_eq_start_iff]

/-- Where doubled signs do not split, segments come back that are not empty: none of them makes a double of the sign
before it. -/
theorem split_joinWith_single {mark : Char} {pieces : List (List Char)} (nonempty : pieces ≠ [])
    (h : ∀ piece ∈ pieces, piece ≠ [] ∧ isSealed mark piece = true) :
    split mark true (joinWith mark pieces) = pieces := by
  induction pieces with
  | nil => exact absurd rfl nonempty
  | cons piece rest ih =>
      obtain ⟨⟨-, hpiece⟩, hrest⟩ := List.forall_mem_cons.1 h
      cases rest with
      | nil => exact split_sealed hpiece
      | cons second rest =>
          have hsplit := ih (List.cons_ne_nil _ _) hrest
          obtain ⟨⟨hsecond, hsealed⟩, -⟩ := List.forall_mem_cons.1 hrest
          obtain ⟨c, second, rfl⟩ := List.exists_cons_of_ne_nil hsecond
          have hc : (c == mark) = false := by
            have hpasses := (isSealed_iff.1 hsealed).1
            simp only [Nesting.passes, Nesting.isOutside, Bool.and_eq_true] at hpasses
            simpa using hpasses.1
          have hjoined : ∃ others, joinWith mark ((c :: second) :: rest) = c :: others := by
            cases rest with
            | nil => exact ⟨second, rfl⟩
            | cons third rest => exact ⟨second ++ mark :: joinWith mark (third :: rest), rfl⟩
          obtain ⟨others, hothers⟩ := hjoined
          rw [joinWith_cons (List.cons_ne_nil _ _), split, splitFrom_sealed hpiece]
          rw [split] at hsplit
          rw [hothers] at hsplit ⊢
          have hmark : splitFrom mark true {} (mark :: c :: others) =
              [] :: splitFrom mark true {} (c :: others) := by
            simp [splitFrom, Nesting.isOutside, hc]
          rw [hmark, hsplit, onto, List.append_nil]

/-- A text is solid when it is not empty and trimming leaves it alone. -/
theorem isSolid_iff {s : List Char} : IsSolid s ↔ s ≠ [] ∧ trim s = s := by
  constructor
  · exact fun solid => ⟨solid.nonempty, solid.trim_eq⟩
  · rintro ⟨nonempty, trimmed⟩
    have hlength := congrArg List.length trimmed
    refine ⟨nonempty, fun c hc => ?_, fun c hc => ?_⟩
    · obtain ⟨rest, rfl⟩ := List.head?_eq_some_iff.1 hc
      by_contra hblank
      have hfront : ∀ d ∈ [c], isBlank d = true := by simpa using hblank
      have hrest := length_trim_le rest
      rw [← List.singleton_append, trim_blanks_append hfront] at hlength
      simp only [List.length_append, List.length_singleton] at hlength
      omega
    · obtain ⟨front, rfl⟩ := List.getLast?_eq_some_iff.1 hc
      by_contra hblank
      have hback : ∀ d ∈ [c], isBlank d = true := by simpa using hblank
      have hfront := length_trim_le front
      rw [trim_append hback] at hlength
      simp only [List.length_append, List.length_singleton] at hlength
      omega

/-- A sign behind a text that leaves something open stands in the first piece. -/
theorem splitFrom_unbalanced {mark : Char} {name : List Char} (hpasses : Nesting.passes mark {} name = true)
    (unbalanced : isBalanced name = false) (rest : List Char) :
    ∃ more others, split mark false (name ++ mark :: rest) = (name ++ mark :: more) :: others := by
  rw [split, splitFrom_append hpasses]
  have hinside : (Nesting.after {} name).isOutside = false := unbalanced
  cases rest with
  | nil => exact ⟨[], [], by simp [splitFrom, hinside, onto]⟩
  | cons c rest =>
      simp only [splitFrom, hinside, Bool.false_and, Bool.false_eq_true, if_false]
      obtain ⟨piece, others, hpieces⟩ := List.exists_cons_of_ne_nil
        (splitFrom_ne_nil mark false ((Nesting.after {} name).step mark) (c :: rest))
      exact ⟨piece, others, by simp [hpieces, onto]⟩

/-- Trimming takes nothing away from a solid text at the front. -/
theorem prefix_trim_append {front : List Char} (solid : IsSolid front) (rest : List Char) :
    front <+: trim (front ++ rest) := by
  obtain ⟨c, others, rfl⟩ := List.exists_cons_of_ne_nil solid.nonempty
  have hstart : trimStart (c :: others ++ rest) = c :: others ++ rest := trimStart_cons (solid.head c rfl) _
  obtain ⟨kept, last, hlast⟩ : ∃ kept last, c :: others = kept ++ [last] :=
    ⟨_, _, (List.dropLast_concat_getLast (List.cons_ne_nil c others)).symm⟩
  have hblank : isBlank last = false := solid.last last (by simp [hlast])
  rw [trim, hstart, ← List.reverse_suffix, trimEnd, List.reverse_reverse, List.reverse_append,
    List.dropWhile_append]
  split
  · rw [hlast, List.reverse_append, List.reverse_singleton, List.singleton_append,
      List.dropWhile_cons_of_neg (by simp [hblank])]
  · exact List.suffix_append _ _

theorem isSolid_colon : IsSolid [':'] :=
  IsSolid.of_all (List.cons_ne_nil _ _) (List.forall_mem_singleton.2 (by decide))

/-- A filter's name behind which the colon is hidden is not what is read for it. -/
theorem filterCall_unbalanced {name : List Char} (solid : IsSolid name)
    (hpasses : Nesting.passes ':' {} name = true) (unbalanced : isBalanced name = false) {rest : List Char}
    (trimmed : trim (name ++ ':' :: rest) = name ++ ':' :: rest) :
    (filterCall (name ++ ':' :: rest)).1 ≠ name := by
  obtain ⟨more, others, hsplit⟩ := splitFrom_unbalanced hpasses unbalanced rest
  have hfirst : (filterCall (name ++ ':' :: rest)).1 = trim (name ++ ':' :: more) := by
    rw [filterCall, trimmed, hsplit]
    cases others with
    | nil => rfl
    | cons second others => rfl
  have hkept := prefix_trim_append (solid.append isSolid_colon []) more
  rw [List.nil_append, List.append_assoc, List.singleton_append] at hkept
  intro hname
  have hlength := hkept.length_le
  rw [← hfirst, hname] at hlength
  simp only [List.length_append, List.length_singleton] at hlength
  omega

/-- What a filter is called with is trimmed, whether there are arguments or not. -/
theorem isSolid_call {name : List Char} (solid : IsSolid name) {arguments : List (List Char)}
    (h : ∀ argument ∈ arguments, IsSolid argument) : IsSolid (name ++ ':' :: joinWith ',' arguments) := by
  cases arguments with
  | nil => exact solid.append isSolid_colon []
  | cons first rest => exact solid.append (isSolid_joinWith (List.cons_ne_nil _ _) h) [':']

/-- Solid arguments without a comma of their own come back when what commas join them to is split, also when there
are none. -/
theorem arguments_joinWith {arguments : List (List Char)}
    (h : ∀ argument ∈ arguments, IsSolid argument ∧ isSealed ',' argument = true) :
    ((split ',' false (joinWith ',' arguments)).map trim).filter (!·.isEmpty) = arguments := by
  cases arguments with
  | nil => rfl
  | cons first rest =>
      have hsplit := split_joinWith (List.cons_ne_nil first rest) fun argument hmem => (h argument hmem).2
      have htrim : (first :: rest).map trim = first :: rest :=
        (List.map_congr_left fun argument hmem => (h argument hmem).1.trim_eq).trans (List.map_id' _)
      rw [hsplit, htrim]
      refine List.filter_eq_self.2 fun argument hmem => ?_
      simpa using (h argument hmem).1.nonempty

/-- A filter whose name leaves nothing open is read as its name and its arguments. -/
theorem filterCall_joined {name : List Char} (solid : IsSolid name) (hname : isSealed ':' name = true)
    {arguments : List (List Char)}
    (h : ∀ argument ∈ arguments, IsSolid argument ∧ isSealed ',' argument = true) :
    filterCall (name ++ ':' :: joinWith ',' arguments) = (name, arguments) := by
  have hcall := (isSolid_call solid fun argument hmem => (h argument hmem).1).trim_eq
  have hcut := splitFrom_mark hname (joinWith ',' arguments)
  have hdrop : (name ++ ':' :: joinWith ',' arguments).drop (name.length + 1) = joinWith ',' arguments := by
    simp [List.drop_append]
  rw [filterCall, hcall, split, hcut]
  -- only the first colon counts: the arguments are all that stands behind it
  obtain ⟨second, others, hlater⟩ :=
    List.exists_cons_of_ne_nil (splitFrom_ne_nil ':' false {} (joinWith ',' arguments))
  rw [hlater]
  dsimp only
  rw [hdrop, solid.trim_eq, arguments_joinWith h]

/-- Segments joined by bars come back, unless there are none, which are joined to one empty segment; the segments of
any text are joined to it again; and the call of a filter is read as the name and the arguments that it is made of
exactly if the name leaves nothing open. -/
theorem splitting_undoes_joining :
    (∀ pieces : List (List Char),
      (∀ piece ∈ pieces, piece ≠ [] ∧ Nesting.passes '|' {} piece = true ∧ isBalanced piece = true) →
      (segments (joinWith '|' pieces) = pieces ↔ pieces ≠ [])) ∧
    (∀ text : List Char, joinWith '|' (segments text) = text) ∧
    ∀ (name : List Char) (arguments : List (List Char)),
      name ≠ [] → trim name = name → Nesting.passes ':' {} name = true →
      (∀ argument ∈ arguments, argument ≠ [] ∧ trim argument = argument ∧
        Nesting.passes ',' {} argument = true ∧ isBalanced argument = true) →
      (filterCall (name ++ ':' :: joinWith ',' arguments) = (name, arguments) ↔ isBalanced name = true) := by
  refine ⟨fun pieces hpieces => ⟨?_, fun nonempty => ?_⟩, joinWith_split '|' true,
    fun name arguments nonempty trimmed hname harguments => ⟨fun hcall => ?_, fun balanced => ?_⟩⟩
  · rintro hsegments rfl
    cases hsegments
  · refine split_joinWith_single nonempty fun piece hmem => ?_
    obtain ⟨hne, hsealed⟩ := hpieces piece hmem
    exact ⟨hne, isSealed_iff.2 hsealed⟩
  · have solid := isSolid_iff.2 ⟨nonempty, trimmed⟩
    have hcallSolid := isSolid_call solid fun argument hmem =>
      isSolid_iff.2 ⟨(harguments argument hmem).1, (harguments argument hmem).2.1⟩
    by_contra unbalanced
    rw [Bool.not_eq_true] at unbalanced
    exact filterCall_unbalanced solid hname unbalanced hcallSolid.trim_eq (congrArg Prod.fst hcall)
  · refine filterCall_joined (isSolid_iff.2 ⟨nonempty, trimmed⟩) (isSealed_iff.2 ⟨hname, balanced⟩)
      fun argument hmem => ?_
    obtain ⟨hne, htrim, hsealed⟩ := harguments argument hmem
    exact ⟨isSolid_iff.2 ⟨hne, htrim⟩, isSealed_iff.2 hsealed⟩

/-- Bars, colons and commas in quotes and brackets are not seen, behind escaped marks neither. -/
theorem splitting_undoes_joining_quoted :
    segments (joinWith '|' ["a[\"|\"] ".toList, " ']' ".toList]) = ["a[\"|\"] ".toList, " ']' ".toList] ∧
      filterCall ("cut".toList ++ ':' :: joinWith ',' ["'\\',:'".toList, "(a, b)".toList]) =
        ("cut".toList, ["'\\',:'".toList, "(a, b)".toList]) := by
  refine ⟨(splitting_undoes_joining.1 _ ?_).2 (by decide),
    (splitting_undoes_joining.2.2 _ _ ?_ ?_ ?_ ?_).2 ?_⟩
  all_goals decide

/-- No segments at all are joined to one empty segment, and a bracket in the name of a filter hides the colon behind
it. -/
theorem not_splitting_undoes_joining :
    (¬ ∀ pieces : List (List Char),
      (∀ piece ∈ pieces, piece ≠ [] ∧ Nesting.passes '|' {} piece = true ∧ isBalanced piece = true) →
      segments (joinWith '|' pieces) = pieces) ∧
    ¬ ∀ (name : List Char) (arguments : List (List Char)),
      name ≠ [] → trim name = name → Nesting.passes ':' {} name = true →
      (∀ argument ∈ arguments, argument ≠ [] ∧ trim argument = argument ∧
        Nesting.passes ',' {} argument = true ∧ isBalanced argument = true) →
      filterCall (name ++ ':' :: joinWith ',' arguments) = (name, arguments) := by
  constructor
  · intro h
    have hsegments := h [] (by decide)
    exact absurd hsegments (by decide)
  · intro h
    have hcall := h ['['] [['7']] (by decide) (by decide) (by decide) (by decide)
    exact absurd hcall (by decide)

end Stencil.Reference
