import Stencil.Proofs.Resolution.Scanning

/-!
Where bars, colons, commas and points cut a text of known shape. A scan passes a text in which no
sign stands outside quotes and brackets, and comes out where its last character leaves it.
-/

namespace Stencil

namespace Text

theorem splitAt_of_not_mem {mark : Char} {s : List Char} (h : mark ∉ s) : splitAt mark s = [s] := by
  induction s with
  | nil => rfl
  | cons c rest ih =>
      have hc : c ≠ mark := fun e => h (e ▸ List.mem_cons_self ..)
      have hrest := ih fun hm => h (List.mem_cons_of_mem _ hm)
      rw [splitAt, if_neg hc, hrest]

theorem splitAt_append_cons {mark : Char} {s : List Char} (h : mark ∉ s) (rest : List Char) :
    splitAt mark (s ++ mark :: rest) = s :: splitAt mark rest := by
  induction s with
  | nil => rw [List.nil_append, splitAt, if_pos rfl]
  | cons c s ih =>
      have hc : c ≠ mark := fun e => h (e ▸ List.mem_cons_self ..)
      have hs := ih fun hm => h (List.mem_cons_of_mem _ hm)
      rw [List.cons_append, splitAt, if_neg hc, hs]

/-- Pieces without the sign come back when what they are joined to is split. -/
theorem splitAt_joinWith {mark : Char} {pieces : List (List Char)} (hne : pieces ≠ [])
    (h : ∀ piece ∈ pieces, mark ∉ piece) : splitAt mark (joinWith mark pieces) = pieces := by
  induction pieces with
  | nil => exact absurd rfl hne
  | cons piece rest ih =>
      have hpiece : mark ∉ piece := h piece (List.mem_cons_self ..)
      cases rest with
      | nil => exact splitAt_of_not_mem hpiece
      | cons second rest =>
          have hrest := ih (List.cons_ne_nil _ _) fun p hp => h p (List.mem_cons_of_mem _ hp)
          rw [joinWith, splitAt_append_cons hpiece, hrest]
          exact List.cons_ne_nil _ _

theorem splitAt_ne_nil (mark : Char) (s : List Char) : splitAt mark s ≠ [] := by
  cases s with
  | nil => exact List.cons_ne_nil _ _
  | cons c rest =>
      rw [splitAt]
      split
      · exact List.cons_ne_nil _ _
      · split
        · exact List.cons_ne_nil _ _
        · exact List.cons_ne_nil _ _

/-- Every character but the sign is in one of the pieces. -/
theorem mem_splitAt {mark c : Char} {s : List Char} (hc : c ∈ s) (hne : c ≠ mark) :
    ∃ piece ∈ splitAt mark s, c ∈ piece := by
  induction s with
  | nil => exact absurd hc List.not_mem_nil
  | cons d rest ih =>
      have hrest : c ∈ rest → ∃ piece ∈ splitAt mark rest, c ∈ piece := ih
      rw [splitAt]
      split
      next hd =>
        have hmem : c ∈ rest := (List.mem_cons.1 hc).resolve_left fun e => hne (e.trans hd)
        obtain ⟨piece, hpiece, hin⟩ := hrest hmem
        exact ⟨piece, List.mem_cons_of_mem _ hpiece, hin⟩
      next hd =>
        rcases hs : splitAt mark rest with _ | ⟨first, pieces⟩
        · exact absurd hs (splitAt_ne_nil mark rest)
        · dsimp only
          rcases List.mem_cons.1 hc with rfl | hmem
          · exact ⟨_, List.mem_cons_self .., List.mem_cons_self ..⟩
          · obtain ⟨piece, hpiece, hin⟩ := hrest hmem
            rw [hs] at hpiece
            rcases List.mem_cons.1 hpiece with rfl | hlater
            · exact ⟨_, List.mem_cons_self .., List.mem_cons_of_mem _ hin⟩
            · exact ⟨piece, List.mem_cons_of_mem _ hlater, hin⟩

end Text

namespace Reference

/-- A text without the sign is one piece. -/
theorem split_of_not_mem {mark : Char} {single : Bool} {s : List Char} (h : mark ∉ s) :
    split mark single s = [s] := by
  -- the scan may stand anywhere: without the sign it never splits
  have hfrom : ∀ nesting, splitFrom mark single nesting s = [s] := by
    induction s with
    | nil => exact fun _ => rfl
    | cons c rest ih =>
        intro nesting
        have hc : (c == mark) = false := by
          rw [beq_eq_false_iff_ne]
          exact fun e => h (e ▸ List.mem_cons_self ..)
        have hrest := ih fun hm => h (List.mem_cons_of_mem _ hm)
        cases rest with
        | nil => simp only [splitFrom, hc, Bool.and_false, Bool.false_eq_true, if_false]
        | cons d rest =>
            simp only [splitFrom, hc, Bool.and_false, Bool.false_eq_true, if_false, hrest, onto,
              List.singleton_append]
  exact hfrom {}

theorem onto_nil {pieces : List (List Char)} (h : pieces ≠ []) : onto [] pieces = pieces := by
  cases pieces with
  | nil => exact absurd rfl h
  | cons piece rest => rfl

theorem onto_onto (front middle : List Char) (pieces : List (List Char)) :
    onto front (onto middle pieces) = onto (front ++ middle) pieces := by
  cases pieces with
  | nil => rfl
  | cons piece rest => simp only [onto, List.append_assoc]

/-- Where a scan stands after a text. -/
def Nesting.after (nesting : Nesting) (s : List Char) : Nesting := s.foldl Nesting.step nesting

/-- Whether a scan gets through a text without meeting the sign outside quotes and brackets. -/
def Nesting.passes (mark : Char) (nesting : Nesting) : List Char → Bool
  | [] => true
  | c :: rest => !(nesting.isOutside && c == mark) && (nesting.step c).passes mark rest

theorem Nesting.after_append (nesting : Nesting) (s t : List Char) :
    nesting.after (s ++ t) = (nesting.after s).after t :=
  List.foldl_append

theorem Nesting.passes_append (mark : Char) (nesting : Nesting) (s t : List Char) :
    nesting.passes mark (s ++ t) = (nesting.passes mark s && (nesting.after s).passes mark t) := by
  induction s generalizing nesting with
  | nil => rfl
  | cons c rest ih =>
      rw [List.cons_append, Nesting.passes, ih, Nesting.passes, Bool.and_assoc]
      rfl

/-- A text without the sign outside quotes and brackets belongs to the first piece. -/
theorem splitFrom_append {mark : Char} {single : Bool} {nesting : Nesting} {s : List Char}
    (h : nesting.passes mark s = true) (t : List Char) :
    splitFrom mark single nesting (s ++ t) = onto s (splitFrom mark single (nesting.after s) t) := by
  induction s generalizing nesting with
  | nil => exact (onto_nil (splitFrom_ne_nil mark single nesting t)).symm
  | cons c rest ih =>
      obtain ⟨hc, hrest⟩ := Bool.and_eq_true_iff.1 h
      have hstep := ih hrest
      have hmark : (nesting.isOutside && c == mark) = false := by
        rw [← Bool.not_eq_true']
        exact hc
      have hcons : splitFrom mark single nesting (c :: (rest ++ t)) =
          onto [c] (splitFrom mark single (nesting.step c) (rest ++ t)) := by
        cases rest ++ t with
        | nil => simp only [splitFrom, hmark, Bool.false_eq_true, if_false, onto, List.append_nil]
        | cons d more => simp only [splitFrom, hmark, Bool.false_eq_true, if_false]
      rw [List.cons_append, hcons, hstep, onto_onto]
      rfl

/-- Whether a text has no sign outside quotes and brackets, and closes those that it opens. -/
def isSealed (mark : Char) (s : List Char) : Bool :=
  Nesting.passes mark {} s && Nesting.after {} s == {}

theorem splitFrom_sealed {mark : Char} {single : Bool} {s : List Char} (h : isSealed mark s = true)
    (t : List Char) : splitFrom mark single {} (s ++ t) = onto s (splitFrom mark single {} t) := by
  obtain ⟨hpasses, hafter⟩ := Bool.and_eq_true_iff.1 h
  rw [splitFrom_append hpasses, eq_of_beq hafter]

theorem isSealed_append {mark : Char} {s t : List Char} (hs : isSealed mark s = true)
    (ht : isSealed mark t = true) : isSealed mark (s ++ t) = true := by
  obtain ⟨hpasses, hafter⟩ := Bool.and_eq_true_iff.1 hs
  rw [isSealed, Nesting.passes_append, Nesting.after_append, hpasses, eq_of_beq hafter]
  exact ht

theorem split_sealed {mark : Char} {single : Bool} {s : List Char} (h : isSealed mark s = true) :
    split mark single s = [s] := by
  have hnil : splitFrom mark single {} (s ++ []) = onto s [[]] := splitFrom_sealed h []
  rw [List.append_nil] at hnil
  rw [split, hnil, onto, List.append_nil]

/-- A character that neither opens nor closes quotes, brackets or parentheses. -/
def isPlain (c : Char) : Bool := isFree c && c != '(' && c != ')'

theorem step_plain {c : Char} (hc : isPlain c = true) {nesting : Nesting}
    (unquoted : nesting.quote = none) : nesting.step c = nesting := by
  simp only [isPlain, Bool.and_eq_true, isFree_iff, bne_iff_ne] at hc
  obtain ⟨⟨⟨h1, h2, h3, h4⟩, h5⟩, h6⟩ := hc
  simp [Nesting.step, unquoted, h1, h2, h3, h4, h5, h6]

theorem after_plain {s : List Char} (plain : ∀ c ∈ s, isPlain c = true) {nesting : Nesting}
    (unquoted : nesting.quote = none) : nesting.after s = nesting := by
  induction s with
  | nil => rfl
  | cons c rest ih =>
      have hc := step_plain (plain c (List.mem_cons_self ..)) unquoted
      have hrest := ih fun d hd => plain d (List.mem_cons_of_mem _ hd)
      rw [Nesting.after, List.foldl_cons, hc]
      exact hrest

theorem passes_plain {mark : Char} {s : List Char} (plain : ∀ c ∈ s, isPlain c = true)
    {nesting : Nesting} (unquoted : nesting.quote = none)
    (h : mark ∉ s ∨ nesting.isOutside = false) : nesting.passes mark s = true := by
  induction s with
  | nil => rfl
  | cons c rest ih =>
      have hc := step_plain (plain c (List.mem_cons_self ..)) unquoted
      have hrest := ih (fun d hd => plain d (List.mem_cons_of_mem _ hd))
        (h.imp (fun hmem hlater => hmem (List.mem_cons_of_mem _ hlater)) id)
      have hmark : (nesting.isOutside && c == mark) = false := by
        rcases h with hmem | hinside
        · have hne : (c == mark) = false := by
            rw [beq_eq_false_iff_ne]
            exact fun e => hmem (e ▸ List.mem_cons_self ..)
          rw [hne, Bool.and_false]
        · rw [hinside, Bool.false_and]
      rw [Nesting.passes, hmark, hc, hrest]
      rfl

theorem isSealed_plain {mark : Char} {s : List Char} (plain : ∀ c ∈ s, isPlain c = true)
    (h : mark ∉ s) : isSealed mark s = true := by
  rw [isSealed, passes_plain plain rfl (.inl h), after_plain plain rfl]
  rfl

/-- Whether the closing mark of a quote may follow a text: each of its marks stands behind a
backslash, and no backslash stands alone at its end. -/
def isQuotable (mark : Char) : List Char → Bool
  | [] => true
  | '\\' :: rest =>
      match rest with
      | [] => false
      | _ :: after => isQuotable mark after
  | c :: rest => c != mark && isQuotable mark rest

/-- Inside quotes a scan sees nothing but their closing mark. -/
theorem scan_quotable (mark : Char) {quote : Char} (hquote : quote = '"' ∨ quote = '\'') {inner : List Char}
    (quotable : isQuotable quote inner = true) (depth : Nat) :
    Nesting.passes mark ⟨some quote, false, depth⟩ (inner ++ [quote]) = true ∧
      Nesting.after ⟨some quote, false, depth⟩ (inner ++ [quote]) = ⟨none, false, depth⟩ := by
  fun_induction isQuotable quote inner with
  | case1 =>
      rcases hquote with rfl | rfl
      · exact ⟨rfl, rfl⟩
      · exact ⟨rfl, rfl⟩
  | case2 => exact absurd quotable Bool.false_ne_true
  | case3 c after ih => exact ih quotable
  | case4 c rest hc ih =>
      obtain ⟨hne, hrest⟩ := Bool.and_eq_true_iff.1 quotable
      have hbackslash : c ≠ '\\' := hc
      have hclose : c ≠ quote := bne_iff_ne.1 hne
      have hstep : Nesting.step ⟨some quote, false, depth⟩ c = ⟨some quote, false, depth⟩ := by
        simp [Nesting.step, hbackslash, hclose]
      rw [List.cons_append, Nesting.passes, Nesting.after, List.foldl_cons, hstep]
      exact ih hrest

/-- A scan gets through a text in quotes, wherever the quotes open. -/
theorem scan_quoted {mark quote : Char} (hquote : quote = '"' ∨ quote = '\'') (hne : quote ≠ mark)
    {inner : List Char} (quotable : isQuotable quote inner = true) (depth : Nat) :
    Nesting.passes mark ⟨none, false, depth⟩ (quote :: (inner ++ [quote])) = true ∧
      Nesting.after ⟨none, false, depth⟩ (quote :: (inner ++ [quote])) = ⟨none, false, depth⟩ := by
  obtain ⟨hpasses, hafter⟩ := scan_quotable mark hquote quotable depth
  have hstep : Nesting.step ⟨none, false, depth⟩ quote = ⟨some quote, false, depth⟩ := by
    simp [Nesting.step, hquote]
  have hmark : (quote == mark) = false := beq_eq_false_iff_ne.2 hne
  rw [Nesting.passes, hstep, hmark, Bool.and_false, hpasses, Nesting.after, List.foldl_cons, hstep]
  exact ⟨rfl, hafter⟩

/-- An indexer is sealed if a scan gets through its key. -/
theorem isSealed_indexer {mark : Char} (hopen : mark ≠ '[') {key : List Char}
    (hkey : Nesting.passes mark ⟨none, false, 1⟩ key = true ∧
      Nesting.after ⟨none, false, 1⟩ key = ⟨none, false, 1⟩) :
    isSealed mark ('[' :: (key ++ [']'])) = true := by
  obtain ⟨hpasses, hafter⟩ := hkey
  have hmark : ('[' == mark) = false := beq_eq_false_iff_ne.2 fun e => hopen e.symm
  have hafterAll : Nesting.after {} ('[' :: (key ++ [']'])) = {} := by
    change Nesting.after ⟨none, false, 1⟩ (key ++ [']']) = {}
    rw [Nesting.after_append, hafter]
    rfl
  have hpassesAll : Nesting.passes mark {} ('[' :: (key ++ [']'])) = true := by
    rw [Nesting.passes, hmark, Bool.and_false]
    change Nesting.passes mark ⟨none, false, 1⟩ (key ++ [']']) = true
    rw [Nesting.passes_append, hpasses, hafter]
    rfl
  rw [isSealed, hpassesAll, hafterAll]
  rfl

end Reference

end Stencil
