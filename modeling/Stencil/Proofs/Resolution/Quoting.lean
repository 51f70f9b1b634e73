import Stencil.Gate.Expression
import Stencil.Proofs.Resolution.Path

/-!
Two readings of the quotes in an expression. The gate and the search for an indexer end quotes at the
next mark; bars, commas and the grammar pass over a mark behind a backslash. The readings go together
as long as no mark is escaped, and then no part of an expression shows a bracket that the expression
as a whole hides in quotes.
-/

namespace Stencil

open Text

namespace Reference

/-- The open quote after one more character, for a reader that knows no escapes. -/
def plainQuote (quote : Option Char) (c : Char) : Option Char :=
  match quote with
  | some mark => if c = mark then none else some mark
  | none => if c = '"' ∨ c = '\'' then some c else none

theorem openingFrom?_cons_eq_none {quote : Option Char} {c : Char} {rest : List Char} :
    openingFrom? quote (c :: rest) = none ↔
      ¬ (quote = none ∧ c = '[') ∧ openingFrom? (plainQuote quote c) rest = none := by
  cases quote with
  | some mark => simp [openingFrom?, plainQuote]
  | none =>
      by_cases hc : c = '['
      · simp [openingFrom?, hc]
      · simp [openingFrom?, plainQuote, hc]

/-- A bracket opens in a text if it does in the first part, or in the rest from there on. -/
theorem openingFrom?_append_eq_none {quote : Option Char} {s t : List Char} :
    openingFrom? quote (s ++ t) = none ↔
      openingFrom? quote s = none ∧ openingFrom? (s.foldl plainQuote quote) t = none := by
  induction s generalizing quote with
  | nil => simp [openingFrom?]
  | cons c rest ih =>
      rw [List.cons_append, openingFrom?_cons_eq_none, openingFrom?_cons_eq_none, ih,
        List.foldl_cons, and_assoc]

/-- What the gate sees of the brackets in a text is what the search for an indexer sees. -/
theorem not_mem_blankQuotedFrom {quote : Option Char}
    (hquote : ∀ mark ∈ quote, mark = '"' ∨ mark = '\'') (s : List Char) :
    '[' ∉ Gate.blankQuotedFrom quote s ↔ openingFrom? quote s = none := by
  induction s generalizing quote with
  | nil => simp [Gate.blankQuotedFrom, openingFrom?]
  | cons c rest ih =>
      rw [openingFrom?_cons_eq_none]
      cases quote with
      | some mark =>
          have hmark : mark ≠ '[' := by
            rintro rfl
            exact absurd (hquote '[' rfl) (by decide)
          by_cases hc : c = mark
          · have hnone : '[' ∉ Gate.blankQuotedFrom none rest ↔ openingFrom? none rest = none :=
              ih (by simp)
            simp [Gate.blankQuotedFrom, plainQuote, hc, hmark.symm, hnone]
          · have hsome := ih hquote
            simp [Gate.blankQuotedFrom, plainQuote, hc, hsome]
      | none =>
          have hmark : ∀ mark ∈ plainQuote none c, mark = '"' ∨ mark = '\'' := by
            intro mark hmark
            simp only [plainQuote, Option.mem_def, Option.ite_none_right_eq_some,
              Option.some.injEq] at hmark
            rw [← hmark.2]
            exact hmark.1
          have hnext := ih hmark
          rw [Gate.blankQuotedFrom, List.mem_cons, not_or, eq_comm]
          simp only [plainQuote] at hnext ⊢
          rw [hnext]
          simp

/-- A place that a scan can come to: only inside quotes does a backslash escape, and quotes are opened
by a mark. -/
def Nesting.IsRegular (nesting : Nesting) : Prop :=
  match nesting.quote with
  | none => nesting.escaping = false
  | some mark => mark = '"' ∨ mark = '\''

theorem Nesting.isRegular_empty : Nesting.IsRegular {} := rfl

theorem Nesting.IsRegular.step {nesting : Nesting} (h : nesting.IsRegular) (c : Char) :
    (nesting.step c).IsRegular := by
  rcases nesting with ⟨_ | mark, escaping, depth⟩
  · by_cases hc : c = '"' ∨ c = '\''
    · simp [Nesting.step, Nesting.IsRegular, hc]
    · have hescaping : escaping = false := h
      simp only [Nesting.step, hc, if_false]
      split
      · exact hescaping
      · split
        · exact hescaping
        · exact hescaping
  · have hmark : mark = '"' ∨ mark = '\'' := h
    simp only [Nesting.step]
    split
    · exact hmark
    · split
      · exact hmark
      · split
        next hescaping _ _ => simpa [Nesting.IsRegular] using hescaping
        · exact hmark

theorem Nesting.IsRegular.after {nesting : Nesting} (h : nesting.IsRegular) (s : List Char) :
    (nesting.after s).IsRegular := by
  induction s generalizing nesting with
  | nil => exact h
  | cons c rest ih => exact ih (h.step c)

/-- The quotes of a scan do not depend on how many brackets are open. -/
theorem Nesting.after_quote_congr {first second : Nesting} (hquote : first.quote = second.quote)
    (hescaping : first.escaping = second.escaping) (s : List Char) :
    (first.after s).quote = (second.after s).quote := by
  induction s generalizing first second with
  | nil => exact hquote
  | cons c rest ih =>
      have hstep : (first.step c).quote = (second.step c).quote ∧
          (first.step c).escaping = (second.step c).escaping := by
        obtain ⟨quote, escaping, depth⟩ := first
        obtain ⟨quote', escaping', depth'⟩ := second
        subst hquote hescaping
        cases quote with
        | none => grind [Nesting.step]
        | some mark => grind [Nesting.step]
      exact ih hstep.1 hstep.2

/-- Outside quotes, scans go on alike. -/
theorem Nesting.after_quote_of_unquoted {nesting : Nesting} (regular : nesting.IsRegular)
    (unquoted : nesting.quote = none) (s : List Char) :
    (nesting.after s).quote = (Nesting.after {} s).quote := by
  have hescaping : nesting.escaping = false := by
    simpa [Nesting.IsRegular, unquoted] using regular
  exact Nesting.after_quote_congr unquoted hescaping s

/-- Whether a backslash escapes the mark of the quotes that it stands in. -/
def Nesting.escapesMark (nesting : Nesting) : List Char → Bool
  | [] => false
  | c :: rest =>
      (nesting.escaping && nesting.quote == some c) || (nesting.step c).escapesMark rest

/-- Both readings have the same open quotes as long as no mark is escaped. -/
theorem Nesting.plainQuote_eq {nesting : Nesting} (regular : nesting.IsRegular) {s : List Char}
    (h : nesting.escapesMark s = false) :
    s.foldl plainQuote nesting.quote = (nesting.after s).quote := by
  induction s generalizing nesting with
  | nil => rfl
  | cons c rest ih =>
      obtain ⟨hc, hrest⟩ := Bool.or_eq_false_iff.1 h
      have hstep : plainQuote nesting.quote c = (nesting.step c).quote := by
        obtain ⟨_ | mark, escaping, depth⟩ := nesting
        · grind [plainQuote, Nesting.step]
        · have hmark : mark = '"' ∨ mark = '\'' := regular
          grind [plainQuote, Nesting.step]
      rw [List.foldl_cons, hstep]
      exact ih (regular.step c) hrest

theorem Nesting.escapesMark_append {nesting : Nesting} {s t : List Char}
    (h : nesting.escapesMark (s ++ t) = false) :
    nesting.escapesMark s = false ∧ (nesting.after s).escapesMark t = false := by
  induction s generalizing nesting with
  | nil => exact ⟨rfl, h⟩
  | cons c rest ih =>
      obtain ⟨hc, hrest⟩ := Bool.or_eq_false_iff.1 h
      obtain ⟨hs, ht⟩ := ih hrest
      exact ⟨Bool.or_eq_false_iff.2 ⟨hc, hs⟩, ht⟩

/-- A part of a text that begins outside quotes, where backslashes escape. -/
def IsPart (text part : List Char) : Prop :=
  ∃ front back, text = front ++ (part ++ back) ∧ (Nesting.after {} front).quote = none

theorem isPart_left (front back : List Char) : IsPart (front ++ back) front :=
  ⟨[], back, rfl, rfl⟩

theorem isPart_right {front : List Char} (h : (Nesting.after {} front).quote = none)
    (back : List Char) : IsPart (front ++ back) back :=
  ⟨front, [], by rw [List.append_nil], h⟩

/-- What follows a sign outside quotes is a part. -/
theorem isPart_behind {mark : Char} (plain : isPlain mark = true) {front : List Char}
    (unquoted : (Nesting.after {} front).quote = none) (rest : List Char) :
    IsPart (front ++ mark :: rest) rest := by
  have hbehind : (Nesting.after {} (front ++ [mark])).quote = none := by
    rw [Nesting.after_append]
    change ((Nesting.after {} front).step mark).quote = none
    rw [step_plain plain unquoted]
    exact unquoted
  rw [List.append_cons]
  exact isPart_right hbehind rest

theorem IsPart.trans {text middle part : List Char} (h : IsPart text middle)
    (h' : IsPart middle part) : IsPart text part := by
  obtain ⟨front, back, rfl, hfront⟩ := h
  obtain ⟨front', back', rfl, hfront'⟩ := h'
  refine ⟨front ++ front', back' ++ back, by simp, ?_⟩
  have regular : (Nesting.after {} front).IsRegular := Nesting.isRegular_empty.after front
  rw [Nesting.after_append, Nesting.after_quote_of_unquoted regular hfront]
  exact hfront'

/-- A text without quotes ends outside of them. -/
theorem after_unquoted {s : List Char} (h : ∀ c ∈ s, c ≠ '"' ∧ c ≠ '\'') :
    (Nesting.after {} s).quote = none := by
  have hfrom : ∀ nesting : Nesting, nesting.quote = none → (nesting.after s).quote = none := by
    induction s with
    | nil => exact fun nesting unquoted => unquoted
    | cons c rest ih =>
        intro nesting unquoted
        have hc := h c (List.mem_cons_self ..)
        refine ih (fun d hd => h d (List.mem_cons_of_mem _ hd)) (nesting.step c) ?_
        grind [Nesting.step]
  exact hfrom {} rfl

theorem ne_quote_of_isBlank {c : Char} (h : isBlank c = true) : c ≠ '"' ∧ c ≠ '\'' := by
  have hfree := isFree_iff.1 (isFree_of_isBlank h)
  exact ⟨hfree.1, hfree.2.1⟩

theorem isPart_trimStart (s : List Char) : IsPart s (trimStart s) := by
  have hsplit := List.takeWhile_append_dropWhile (p := isBlank) (l := s)
  have hblank : (Nesting.after {} (s.takeWhile isBlank)).quote = none :=
    after_unquoted fun c hc => ne_quote_of_isBlank (List.mem_takeWhile_imp hc)
  have hpart := isPart_right hblank (s.dropWhile isBlank)
  rw [hsplit] at hpart
  exact hpart

theorem isPart_trimEnd (s : List Char) : IsPart s (trimEnd s) := by
  have hsplit := List.takeWhile_append_dropWhile (p := isBlank) (l := s.reverse)
  have hreverse := congrArg List.reverse hsplit
  rw [List.reverse_append, List.reverse_reverse] at hreverse
  have hpart := isPart_left (s.reverse.dropWhile isBlank).reverse (s.reverse.takeWhile isBlank).reverse
  rw [hreverse] at hpart
  exact hpart

theorem isPart_trim (s : List Char) : IsPart s (trim s) :=
  (isPart_trimStart s).trans (isPart_trimEnd _)

/-- The first sign that cuts a text stands outside quotes and brackets, and what follows it is cut from
there on. -/
theorem splitFrom_cons {mark : Char} (plain : isPlain mark = true) {single : Bool} {nesting : Nesting}
    {s first second : List Char} {others : List (List Char)}
    (h : splitFrom mark single nesting s = first :: second :: others) :
    ∃ rest, s = first ++ mark :: rest ∧ (nesting.after first).quote = none ∧
      splitFrom mark single (nesting.after first) rest = second :: others := by
  fun_induction splitFrom mark single nesting s generalizing first with
  | case1 => cases h
  | case2 nesting c hc =>
      obtain ⟨houtside, hmark⟩ := Bool.and_eq_true_iff.1 hc
      obtain ⟨hquote, -⟩ := Bool.and_eq_true_iff.1 houtside
      cases h
      exact ⟨[], by rw [eq_of_beq hmark]; rfl, Option.isNone_iff_eq_none.1 hquote, rfl⟩
  | case3 => cases h
  | case4 nesting c d rest hc hd ih =>
      obtain ⟨houtside, hmark⟩ := Bool.and_eq_true_iff.1 hc
      obtain ⟨hquote, -⟩ := Bool.and_eq_true_iff.1 houtside
      obtain ⟨-, hmark'⟩ := Bool.and_eq_true_iff.1 hd
      have unquoted := Option.isNone_iff_eq_none.1 hquote
      rcases hpieces : splitFrom mark single nesting rest with _ | ⟨piece, pieces⟩
      · exact absurd hpieces (splitFrom_ne_nil mark single nesting rest)
      · rw [hpieces] at h ih
        cases h
        obtain ⟨behind, rfl, hafter, hbehind⟩ := ih rfl
        have hstay : nesting.after (c :: d :: piece) = nesting.after piece := by
          have hstep := step_plain plain unquoted
          rw [eq_of_beq hmark, eq_of_beq hmark', Nesting.after, List.foldl_cons, List.foldl_cons, hstep,
            hstep]
          rfl
        refine ⟨behind, rfl, ?_⟩
        rw [List.cons_append, List.cons_append, List.nil_append, hstay]
        exact ⟨hafter, hbehind⟩
  | case5 nesting c d rest hc hd ih =>
      obtain ⟨houtside, hmark⟩ := Bool.and_eq_true_iff.1 hc
      obtain ⟨hquote, -⟩ := Bool.and_eq_true_iff.1 houtside
      obtain ⟨rfl, hrest⟩ := List.cons.inj h
      exact ⟨d :: rest, by rw [eq_of_beq hmark]; rfl, Option.isNone_iff_eq_none.1 hquote, hrest⟩
  | case6 nesting c d rest hc ih =>
      rcases hpieces : splitFrom mark single (nesting.step c) (d :: rest) with _ | ⟨piece, pieces⟩
      · exact absurd hpieces (splitFrom_ne_nil mark single (nesting.step c) (d :: rest))
      · rw [hpieces] at h ih
        cases h
        obtain ⟨behind, hs, hafter, hbehind⟩ := ih rfl
        exact ⟨behind, by rw [hs]; rfl, hafter, hbehind⟩

/-- The pieces of a text are parts of it. -/
theorem isPart_of_mem_splitFrom {mark : Char} (plain : isPlain mark = true) {single : Bool}
    {pieces : List (List Char)} {nesting : Nesting} (regular : nesting.IsRegular)
    (unquoted : nesting.quote = none) {s : List Char}
    (h : splitFrom mark single nesting s = pieces) {piece : List Char} (hmem : piece ∈ pieces) :
    IsPart s piece := by
  induction pieces generalizing nesting s with
  | nil => exact absurd hmem List.not_mem_nil
  | cons first others ih =>
      cases others with
      | nil =>
          have hjoin := joinWith_splitFrom mark single nesting s
          rw [h] at hjoin
          obtain rfl : piece = first := List.mem_singleton.1 hmem
          obtain rfl : piece = s := hjoin
          exact ⟨[], [], by simp, rfl⟩
      | cons second others =>
          obtain ⟨rest, rfl, hafter, hrest⟩ := splitFrom_cons plain h
          rcases List.mem_cons.1 hmem with rfl | hlater
          · exact isPart_left piece _
          · have hpiece := ih (regular.after first) hafter hrest hlater
            rw [Nesting.after_quote_of_unquoted regular unquoted] at hafter
            exact (isPart_behind plain hafter rest).trans hpiece

theorem isPart_of_mem_split {mark : Char} (plain : isPlain mark = true) {single : Bool}
    {s piece : List Char} (hmem : piece ∈ split mark single s) : IsPart s piece :=
  isPart_of_mem_splitFrom plain Nesting.isRegular_empty rfl rfl hmem

theorem isPart_of_mem_segments {text segment : List Char} (hmem : segment ∈ segments text) :
    IsPart text segment :=
  isPart_of_mem_split rfl hmem

/-- The arguments of a filter are parts of its segment. -/
theorem isPart_of_mem_filterCall {segment argument : List Char}
    (hmem : argument ∈ (filterCall segment).2) : IsPart segment argument := by
  unfold filterCall at hmem
  dsimp only at hmem
  split at hmem
  next name second others hsplit =>
    obtain ⟨hargument, -⟩ := List.mem_filter.1 hmem
    obtain ⟨piece, hpiece, rfl⟩ := List.mem_map.1 hargument
    obtain ⟨rest, hsegment, hafter, -⟩ := splitFrom_cons rfl hsplit
    have hdrop : (trim segment).drop (name.length + 1) = rest := by
      rw [hsegment, List.drop_append]
      simp
    have hwhole : IsPart (trim segment) rest := by
      rw [hsegment]
      exact isPart_behind rfl hafter rest
    rw [hdrop] at hpiece
    exact (((isPart_trim segment).trans hwhole).trans (isPart_of_mem_split rfl hpiece)).trans
      (isPart_trim piece)
  next => exact absurd hmem List.not_mem_nil
  next => exact absurd hmem List.not_mem_nil

/-- Whether no bracket shows, wherever outside quotes a text is entered. -/
def HidesBrackets (text : List Char) : Prop := ∀ part, IsPart text part → opening? part = none

theorem HidesBrackets.part {text part : List Char} (hidden : HidesBrackets text)
    (h : IsPart text part) : HidesBrackets part :=
  fun _ h' => hidden _ (h.trans h')

theorem HidesBrackets.opening?_eq_none {text : List Char} (hidden : HidesBrackets text) :
    opening? text = none :=
  hidden text ⟨[], [], by simp, rfl⟩

theorem HidesBrackets.indexed?_eq_none {text : List Char} (hidden : HidesBrackets text) :
    indexed? text = none := by
  rw [indexed?, hidden.opening?_eq_none]
  rfl

/-- A text that hides its brackets as a whole hides them in every part, if no bracket has an escaped
mark before it. -/
theorem hidesBrackets_of_opening? {text : List Char} (hidden : opening? text = none)
    (unescaped : ∀ before behind, text = before ++ '[' :: behind →
      Nesting.escapesMark {} before = false) : HidesBrackets text := by
  rintro part ⟨front, back, rfl, hfront⟩
  cases hopening : opening? part with
  | none => rfl
  | some found =>
      obtain ⟨inside, behind⟩ := found
      -- up to the bracket the two readings agree, so that the gate has seen it
      obtain rfl := opening?_append hopening
      have hagree : Nesting.escapesMark {} (front ++ inside) = false := by
        refine unescaped (front ++ inside) (behind ++ back) ?_
        simp
      have hquote : front.foldl plainQuote none = none := by
        have hboth := Nesting.plainQuote_eq Nesting.isRegular_empty (Nesting.escapesMark_append hagree).1
        exact hboth.trans hfront
      have hwhole := openingFrom?_append_eq_none.1 hidden
      have hpart := openingFrom?_append_eq_none.1 hwhole.2
      rw [hquote] at hpart
      have hnone : opening? (inside ++ '[' :: behind) = none := hpart.1
      rw [hnone] at hopening
      cases hopening

end Reference

end Stencil
