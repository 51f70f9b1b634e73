import Mathlib.Data.List.DropRight
import Stencil.Proofs.Acceptance
import Stencil.Proofs.Resolution.Cuts
import Stencil.Proofs.Resolution.References
import Stencil.Proofs.Resolution.Tokens

/-!
Indexers that are not allowed. The gate refuses an expression with a bracket outside quotes, and ends
quotes at the next mark. As long as no mark before the last bracket is escaped, that is enough: no
part of the expression that is resolved on its own shows a bracket, so that no indexer is ever
applied. An escaped mark lets a bracket through, since the gate takes it for the end of the quotes.
-/

namespace Stencil

open Text Reference

namespace Resolver

/-- A program that applies no indexer, whether it answers or fails. -/
def Indexless {α : Type} (program : Resolving α) : Prop :=
  ∀ memory, ∃ events, (outcome program memory).2.trail = events ++ memory.trail ∧
    Event.indexer ∉ events

section Steps

variable {α β : Type}

theorem indexless_pure (value : α) : Indexless (pure value) :=
  fun _ => ⟨[], rfl, List.not_mem_nil⟩

theorem Indexless.bind {program : Resolving α} {next : α → Resolving β} (h : Indexless program)
    (hnext : ∀ value, Indexless (next value)) : Indexless (program >>= next) := by
  intro memory
  obtain ⟨events, htrail, hevents⟩ := h memory
  rcases hrun : outcome program memory with ⟨fault | value, after⟩
  · rw [outcome_bind_error hrun]
    rw [hrun] at htrail
    exact ⟨events, htrail, hevents⟩
  · rw [outcome_bind_ok hrun]
    rw [hrun] at htrail
    obtain ⟨later, hlater, hnone⟩ := hnext value after
    refine ⟨later ++ events, ?_, ?_⟩
    · rw [hlater, List.append_assoc]
      exact congrArg (later ++ ·) htrail
    · rw [List.mem_append, not_or]
      exact ⟨hnone, hevents⟩

theorem indexless_of_leavesOnly {program : Resolving α} (h : LeavesOnly (· ≠ .indexer) program) :
    Indexless program := by
  intro memory
  obtain ⟨events, htrail, hother⟩ := h memory
  exact ⟨events, htrail, fun hmem => hother _ hmem rfl⟩

theorem indexless_note {event : Event} (h : event ≠ .indexer) : Indexless (note event) := by
  refine fun memory => ⟨[event], rfl, fun hmem => ?_⟩
  exact h (List.mem_singleton.1 hmem).symm

theorem Indexless.bind_liftExcept {result : Except Fault α} {next : α → Resolving β}
    (h : ∀ value, result = .ok value → Indexless (next value)) :
    Indexless (liftExcept result >>= next) := by
  cases result with
  | error fault => exact fun _ => ⟨[], rfl, List.not_mem_nil⟩
  | ok value => exact h value rfl

end Steps

variable (r : Resolver)

/-- What hides its brackets has no indexer, and every cut hides them as well. -/
theorem keptByCuts_hidesBrackets : KeptByCuts HidesBrackets fun _ => False where
  trim hidden := hidden.part (isPart_trim _)
  segment hidden hmem := hidden.part (isPart_of_mem_segments hmem)
  argument hidden hmem := hidden.part (isPart_of_mem_filterCall hmem)
  indexed hidden hindexed := nomatch hidden.indexed?_eq_none.symm.trans hindexed
  reference {text reference} hidden hmem := by
    cases htokens : Formula.tokens? text with
    | none =>
        unfold Formula.consulted at hmem
        rw [htokens] at hmem
        exact absurd hmem List.not_mem_nil
    | some tokens =>
        exact hidden.part (Formula.isPart_of_mem_tokens? hidden htokens (Formula.mem_of_mem_consulted htokens hmem))
  member := False.elim
  index := False.elim

/-- Every part of a resolution does without indexers if its text hides the brackets. Accessors are
not walked at all. -/
theorem indexless_parts :
    (∀ text asksGrammar, HidesBrackets text → Indexless (resolveText r text asksGrammar)) ∧
    (∀ value segments, (∀ segment ∈ segments, HidesBrackets segment) →
      Indexless (pipe r value segments)) ∧
    (∀ texts, (∀ text ∈ texts, HidesBrackets text) → Indexless (argumentValues r texts)) ∧
    ∀ text, HidesBrackets text → Indexless (keyValue r text) := by
  obtain ⟨htext, hpipe, harguments, hkey, -⟩ := leavesOnly_parts (· ≠ .indexer) r
    keptByCuts_hidesBrackets (fun _ _ h => nomatch h) fun _ h => h.elim
  refine ⟨fun text asksGrammar hidden => ?_, fun value segments hidden => ?_, fun texts hidden => ?_,
    fun text hidden => ?_⟩
  · exact indexless_of_leavesOnly (htext text asksGrammar hidden)
  · exact indexless_of_leavesOnly (hpipe value segments hidden)
  · exact indexless_of_leavesOnly (harguments texts hidden)
  · exact indexless_of_leavesOnly (hkey text hidden)

/-- Where no mark is escaped before the last bracket, none is before any. -/
theorem escapesMark_before {text before behind : List Char}
    (h : Nesting.escapesMark {} (text.rdropWhile (· ≠ '[')) = false)
    (hbracket : text = before ++ '[' :: behind) : Nesting.escapesMark {} before = false := by
  have hsplit : ∃ inner, text.rdropWhile (· ≠ '[') = before ++ '[' :: inner := by
    rw [List.rdropWhile, hbracket, List.reverse_append, List.reverse_cons, List.append_assoc,
      List.dropWhile_append]
    split
    · refine ⟨[], ?_⟩
      simp
    · refine ⟨(behind.reverse.dropWhile (· ≠ '[')).reverse, ?_⟩
      simp
  obtain ⟨inner, hinner⟩ := hsplit
  rw [hinner] at h
  exact (Nesting.escapesMark_append h).1

/-- With indexers disabled, the gate lets through only what hides its brackets as a whole. -/
theorem opening?_of_accepted {security : Security} (disabled : security.allowIndexers = false)
    {text : List Char} (accepted : Gate.checkExpression security (String.ofList text) = .ok ()) :
    opening? text = none := by
  have hclean := Gate.isClean_of_accepted accepted
  rw [String.toList_ofList] at hclean
  have hbracket : '[' ∉ Gate.blankQuoted text := hclean.indexers.resolve_left fun hallowed => by
    cases disabled.symm.trans hallowed
  exact (not_mem_blankQuotedFrom (fun mark hmark => by cases hmark) text).1 hbracket

/-- With indexers disabled none is applied, whatever the variables, filters and earlier decisions
are, if no mark is escaped before the last bracket of the expression. -/
theorem indexless_of_disabled (disabled : r.security.allowIndexers = false) {expression : List Char}
    (unescaped : Nesting.escapesMark {} ((trim expression).rdropWhile (· ≠ '[')) = false) :
    Indexless (resolve r expression) := by
  unfold resolve
  refine (indexless_note (by rintro ⟨⟩)).bind fun _ => ?_
  split
  · exact indexless_pure none
  · refine Indexless.bind_liftExcept fun _ accepted => ?_
    have hidden : HidesBrackets (trim expression) :=
      hidesBrackets_of_opening? (opening?_of_accepted disabled accepted) fun _ _ =>
        escapesMark_before unescaped
    exact ((indexless_parts r).1 _ true hidden).bind fun _ => indexless_pure _

/-- A map with one entry, under indexers that are not allowed. -/
def oneSecret : Resolver where
  security := { allowIndexers := false }
  host := ⟨fun _ _ => none, fun _ _ => false, fun _ _ => none⟩
  ownFilters := {}
  sharedFilters := {}
  vars := .ofList [("x", .map [("0", .string "leak")])]

/-- Brackets in quotes are no indexers, and behind the last of them marks may be escaped. -/
theorem indexless_quoted_bracket :
    oneSecret.security.allowIndexers = false ∧
      Gate.checkExpression oneSecret.security "'[' + x + '\\']'" = .ok () ∧
      Indexless (resolve oneSecret "'[' + x + '\\']'".toList) := by
  have accepted : Gate.checkExpression oneSecret.security "'[' + x + '\\']'" = .ok () :=
    accepted_of_toBool (by decide +kernel)
  exact ⟨rfl, accepted, indexless_of_disabled oneSecret rfl (by decide)⟩

/-- The tokenizer goes by backslashes: the quotes close behind the escaped mark. -/
theorem tokens?_escaped_mark : Formula.tokens? "'\\'' + x[0]".toList =
    some [.literal (.string "\\"), .plus, .reference "x[0]"] := by
  have hplace : Formula.tokens? ['x', '[', '0', ']'] = some [.reference "x[0]"] := by
    let place : Place := ⟨['x'], [.index (.bare ['0'])], by decide, by decide⟩
    have hend := Formula.tokens?_place (show Formula.isReserved place.name = false by decide) (.inl rfl)
    rw [Formula.tokens?.eq_def []] at hend
    exact hend
  have hplus := Formula.tokens?_sign .add ['x', '[', '0', ']']
  rw [hplace] at hplus
  have hquoted : Formula.token? '\'' ['\\', '\'', '\'', ' ', '+', ' ', 'x', '[', '0', ']'] =
      some (.literal (.string "\\"), [' ', '+', ' ', 'x', '[', '0', ']']) := rfl
  have hcons := Formula.tokens?_cons rfl hquoted
  rw [Formula.tokens?_space] at hcons
  exact hcons.trans (congrArg _ hplus)

/-- The reference to the entry is an indexer, allowed or not. -/
theorem outcome_reference (memory : Memory) :
    outcome (resolveText oneSecret "x[0]".toList false) memory =
      (.ok (some (.string "leak")), { memory with
        trail := .indexer :: .lookup "x" :: .lookup "x[0]" :: memory.trail }) := by
  have hname : resolveText oneSecret "x".toList false =
      (do note (.lookup "x"); return some (.map [("0", .string "leak")])) :=
    resolveText_bound (r := oneSecret) false rfl rfl
  have hkey : keyValue oneSecret ['0'] = pure (.int 0) := by
    rw [keyValue]
    rfl
  have helement (before : Memory) :
      outcome (elementOf oneSecret (.map [("0", .string "leak")]) (.int 0)) before =
        (.ok (some (.string "leak")), { before with trail := .indexer :: before.trail }) := rfl
  have hwalk : walk oneSecret (.string "leak") [] = pure (some (.string "leak")) := by
    rw [walk]
    rfl
  have hindexed : indexed? "x[0]".toList = some ⟨"x".toList, "0".toList, []⟩ := rfl
  rw [resolveText_indexed oneSecret false hindexed, indexedValue, hname]
  simp [behindRoot, hkey, outcome_bind, helement, hwalk]

/-- The gate takes an escaped mark for the end of the quotes, and so lets an indexer through. -/
theorem not_indexless_of_accepted :
    ¬ ∀ (r : Resolver) (expression : List Char), r.security.allowIndexers = false →
      Gate.checkExpression r.security (String.ofList (trim expression)) = .ok () →
      Indexless (resolve r expression) := by
  intro hclaim
  have accepted : Gate.checkExpression oneSecret.security "'\\'' + x[0]" = .ok () :=
    accepted_of_toBool (by decide +kernel)
  have hlift (before : Memory) :
      outcome (liftExcept (.ok () : Except Fault Unit) : Resolving Unit) before = (.ok (), before) := rfl
  have hvalue : resolveText oneSecret "'\\'' + x[0]".toList true = (do
      note (.lookup "'\\'' + x[0]")
      Formula.evaluate (lookUp oneSecret "'\\'' + x[0]".toList) "'\\'' + x[0]".toList) :=
    resolveText_formula (r := oneSecret) rfl rfl rfl rfl rfl
  have hread : Formula.read [.literal (.string "\\"), .plus, .reference "x[0]"] =
      .ok (.binary .add (.literal (.string "\\")) (.reference "x[0]")) := rfl
  have hafter : (outcome (resolve oneSecret "'\\'' + x[0]".toList) {}).2.trail = [.indexer,
      .lookup "x", .lookup "x[0]", .lookup "'\\'' + x[0]", .expression "'\\'' + x[0]"] := by
    unfold resolve
    change (outcome (do
      note (.expression "'\\'' + x[0]")
      liftExcept (Gate.checkExpression oneSecret.security "'\\'' + x[0]")
      let value ← resolveText oneSecret "'\\'' + x[0]".toList true
      return finished value) {}).2.trail = _
    rw [accepted, hvalue, Formula.evaluate, tokens?_escaped_mark]
    dsimp only
    rw [hread]
    simp only [Formula.value, lookUp]
    rw [if_pos (by decide)]
    simp only [outcome_bind, outcome_note, outcome_pure, hlift, outcome_reference]
  obtain ⟨events, htrail, hnone⟩ := hclaim oneSecret "'\\'' + x[0]".toList rfl accepted {}
  rw [hafter] at htrail
  refine hnone ?_
  rw [← List.append_nil events, ← htrail]
  exact List.mem_cons_self ..

end Resolver

end Stencil
