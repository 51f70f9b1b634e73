import Stencil.Proofs.Bytewise.Scanning

/-!
Indexers read by bytes: where the first one of an expression opens, where one closes, and what stands around it. None
of it slips, and each reading gives what the reading by characters gives.
-/

namespace Stencil.Bytewise

open Text Markup Reference

/-- Whether a byte opens a quote. -/
def isQuoteByte (byte : UInt8) : Bool := byte == '"'.toUInt8 || byte == '\''.toUInt8

/-- The byte of an open quote and its mark. -/
def SameQuote (quote : Option UInt8) (place : Option Char) : Prop :=
  quote = place.map Char.toUInt8 ∧ ∀ mark ∈ place, mark = '"' ∨ mark = '\''

theorem isQuoteByte_toUInt8 {c : Char} (h : c.toNat < 128) : isQuoteByte c.toUInt8 = true ↔ c = '"' ∨ c = '\'' := by
  rw [isQuoteByte, Bool.or_eq_true, beq_iff_eq, beq_iff_eq, toUInt8_inj h (by decide), toUInt8_inj h (by decide)]

theorem isQuoteByte_high {byte : UInt8} (h : 128 ≤ byte.toNat) : isQuoteByte byte = false := by
  have hdouble := ne_toUInt8 (c := '"') h (by decide)
  have hsingle := ne_toUInt8 (c := '\'') h (by decide)
  simp [isQuoteByte, hdouble, hsingle]

theorem sameQuote_none : SameQuote none none := ⟨rfl, fun _ h => nomatch h⟩

theorem sameQuote_some {c : Char} (h : c = '"' ∨ c = '\'') : SameQuote (some c.toUInt8) (some c) := by
  refine ⟨rfl, fun mark hmark => ?_⟩
  obtain rfl := Option.some.inj hmark
  exact h

theorem toNat_of_quote {c : Char} (h : c = '"' ∨ c = '\'') : c.toNat < 128 := by
  rcases h with rfl | rfl <;> decide

/-- An open quote as bytes and as characters see it. -/
theorem SameQuote.cases {quote : Option UInt8} {place : Option Char} (h : SameQuote quote place) :
    (quote = none ∧ place = none) ∨
      ∃ mark, quote = some mark.toUInt8 ∧ place = some mark ∧ (mark = '"' ∨ mark = '\'') := by
  obtain ⟨rfl, hmark⟩ := h
  cases place with
  | none => exact .inl ⟨rfl, rfl⟩
  | some mark => exact .inr ⟨mark, rfl, rfl, hmark mark rfl⟩

/-! ### Indexers -/

/-- The open quote behind a byte, unless the byte is a bracket that opens outside quotes. -/
def openingStep (quote : Option UInt8) (byte : UInt8) : Except Slip (Option UInt8 ⊕ Unit) :=
  match quote with
  | some mark => .ok (.inl (if byte = mark then none else some mark))
  | none =>
      if isQuoteByte byte then .ok (.inl (some byte))
      else if byte = '['.toUInt8 then .ok (.inr ())
      else .ok (.inl none)

/-- Where the first bracket opens outside quotes. -/
def openingAt? (s : List Char) : Except Slip (Option Nat) := do
  let found ← stop? openingStep none 0 (bytes s)
  return found.map Prod.fst

/-- The open quote and the number of open brackets behind a byte, unless the byte closes the last of them. -/
def closingStep : Option UInt8 × Nat → UInt8 → Except Slip ((Option UInt8 × Nat) ⊕ Unit)
  | (some mark, depth), byte => .ok (.inl (if byte = mark then none else some mark, depth))
  | (none, depth), byte =>
      if isQuoteByte byte then .ok (.inl (some byte, depth))
      else if byte = '['.toUInt8 then .ok (.inl (none, depth + 1))
      else if byte = ']'.toUInt8 then do
        let depth ← minus depth 1
        return if depth = 0 then .inr () else .inl (none, depth)
      else .ok (.inl (none, depth))

/-- Where the bracket closes that opens at an offset. -/
def closingAt? (s : List Char) (opened : Nat) : Except Slip (Option Nat) := do
  let found ← stop? closingStep (none, 0) opened ((bytes s).drop opened)
  return found.map Prod.fst

/-- The open quote behind a character, unless a bracket opens outside quotes. -/
def openingRead (quote : Option Char) (c : Char) : Option Char ⊕ Unit :=
  match quote with
  | some mark => .inl (if c = mark then none else some mark)
  | none => if c = '[' then .inr () else .inl (if c = '"' ∨ c = '\'' then some c else none)

/-- The open quote and the number of inner brackets behind a character, unless the outer one closes. -/
def closingRead : Option Char × Nat → Char → (Option Char × Nat) ⊕ Unit
  | (some mark, inner), c => .inl (if c = mark then none else some mark, inner)
  | (none, inner), c =>
      if c = ']' then
        match inner with
        | 0 => .inr ()
        | inner + 1 => .inl (none, inner)
      else if c = '[' then .inl (none, inner + 1)
      else .inl (if c = '"' ∨ c = '\'' then some c else none, inner)

theorem openingFrom?_eq (quote : Option Char) (s : List Char) :
    openingFrom? quote s = (stopCut? openingRead quote s).map fun parts => (parts.1, parts.2.2) := by
  induction s generalizing quote with
  | nil => rfl
  | cons c rest ih =>
      cases quote with
      | some mark =>
          simp only [openingFrom?, stopCut?, openingRead, ih, Option.map_map]
          rfl
      | none =>
          simp only [openingFrom?, stopCut?, openingRead]
          split
          · rfl
          · simp only [ih, Option.map_map]
            rfl

theorem closingFrom?_eq (quote : Option Char) (inner : Nat) (s : List Char) :
    closingFrom? quote inner s =
      (stopCut? closingRead (quote, inner) s).map fun parts => (parts.1, parts.2.2) := by
  induction s generalizing quote inner with
  | nil => rfl
  | cons c rest ih =>
      cases quote with
      | some mark =>
          simp only [closingFrom?, stopCut?, closingRead, ih, Option.map_map]
          rfl
      | none =>
          simp only [closingFrom?, stopCut?, closingRead]
          split
          · cases inner with
            | zero => rfl
            | succ inner =>
                simp only [ih, Option.map_map]
                rfl
          · split
            · simp only [ih, Option.map_map]
              rfl
            · simp only [ih, Option.map_map]
              rfl

theorem inStep_opening : InStep openingStep openingRead SameQuote where
  basic {quote place c} same hc := by
    rcases same.cases with ⟨rfl, rfl⟩ | ⟨mark, rfl, rfl, hmark⟩
    · by_cases hquote : c = '"' ∨ c = '\''
      · have hbracket : c ≠ '[' := by rcases hquote with rfl | rfl <;> decide
        refine .inl ⟨some c.toUInt8, some c, ?_, ?_, sameQuote_some hquote⟩
        · simp [openingStep, isQuoteByte_toUInt8 hc, hquote]
        · simp [openingRead, hbracket, hquote]
      · by_cases hbracket : c = '['
        · subst hbracket
          exact .inr ⟨(), rfl, rfl⟩
        · refine .inl ⟨none, none, ?_, ?_, sameQuote_none⟩
          · simp [openingStep, isQuoteByte_toUInt8 hc, hquote, toUInt8_inj hc, hbracket]
          · simp [openingRead, hbracket, hquote]
    · refine .inl ?_
      by_cases hclose : c = mark
      · exact ⟨none, none, by simp [openingStep, hclose], by simp [openingRead, hclose], sameQuote_none⟩
      · refine ⟨some mark.toUInt8, some mark, ?_, ?_, sameQuote_some hmark⟩
        · simp [openingStep, toUInt8_inj hc (toNat_of_quote hmark), hclose]
        · simp [openingRead, hclose]
  high {quote place c} same hc := by
    have hdouble := ne_of_high (d := '"') hc (by decide)
    have hsingle := ne_of_high (d := '\'') hc (by decide)
    have hbracket := ne_of_high (d := '[') hc (by decide)
    rcases same.cases with ⟨rfl, rfl⟩ | ⟨mark, rfl, rfl, hmark⟩
    · have hread : openingRead none c = .inl none := by simp [openingRead, hbracket, hdouble, hsingle]
      refine ⟨none, hread, hread, fun byte hbyte => ⟨none, ?_, sameQuote_none⟩⟩
      have hopen := ne_toUInt8 (c := '[') hbyte (by decide)
      simp [openingStep, isQuoteByte_high hbyte, hopen]
    · have hread : openingRead (some mark) c = .inl (some mark) := by
        simp [openingRead, ne_of_high hc (toNat_of_quote hmark)]
      refine ⟨some mark, hread, hread, fun byte hbyte => ⟨some mark.toUInt8, ?_, sameQuote_some hmark⟩⟩
      simp [openingStep, ne_toUInt8 hbyte (toNat_of_quote hmark)]

theorem inStep_closing : InStep closingStep closingRead
    fun state place => SameQuote state.1 place.1 ∧ state.2 = place.2 + 1 where
  basic := by
    rintro ⟨quote, depth⟩ ⟨place, inner⟩ c ⟨same, rfl⟩ hc
    rcases same.cases with ⟨rfl, rfl⟩ | ⟨mark, rfl, rfl, hmark⟩
    · by_cases hquote : c = '"' ∨ c = '\''
      · have hopen : c ≠ '[' := by rcases hquote with rfl | rfl <;> decide
        have hclose : c ≠ ']' := by rcases hquote with rfl | rfl <;> decide
        refine .inl ⟨(some c.toUInt8, inner + 1), (some c, inner), ?_, ?_, sameQuote_some hquote, rfl⟩
        · simp [closingStep, isQuoteByte_toUInt8 hc, hquote]
        · simp [closingRead, hopen, hclose, hquote]
      · by_cases hopen : c = '['
        · subst hopen
          exact .inl ⟨(none, inner + 1 + 1), (none, inner + 1), rfl, rfl, sameQuote_none, rfl⟩
        · by_cases hclose : c = ']'
          · subst hclose
            cases inner with
            | zero => exact .inr ⟨(), rfl, rfl⟩
            | succ inner => exact .inl ⟨(none, inner + 1), (none, inner), rfl, rfl, sameQuote_none, rfl⟩
          · refine .inl ⟨(none, inner + 1), (none, inner), ?_, ?_, sameQuote_none, rfl⟩
            · simp [closingStep, isQuoteByte_toUInt8 hc, hquote, toUInt8_inj hc, hopen, hclose]
            · simp [closingRead, hopen, hclose, hquote]
    · refine .inl ?_
      by_cases hend : c = mark
      · refine ⟨(none, inner + 1), (none, inner), ?_, ?_, sameQuote_none, rfl⟩
        · simp [closingStep, hend]
        · simp [closingRead, hend]
      · refine ⟨(some mark.toUInt8, inner + 1), (some mark, inner), ?_, ?_, sameQuote_some hmark, rfl⟩
        · simp [closingStep, toUInt8_inj hc (toNat_of_quote hmark), hend]
        · simp [closingRead, hend]
  high := by
    rintro ⟨quote, depth⟩ ⟨place, inner⟩ c ⟨same, rfl⟩ hc
    have hdouble := ne_of_high (d := '"') hc (by decide)
    have hsingle := ne_of_high (d := '\'') hc (by decide)
    have hopen := ne_of_high (d := '[') hc (by decide)
    have hclose := ne_of_high (d := ']') hc (by decide)
    rcases same.cases with ⟨rfl, rfl⟩ | ⟨mark, rfl, rfl, hmark⟩
    · have hread : closingRead (none, inner) c = .inl (none, inner) := by
        simp [closingRead, hopen, hclose, hdouble, hsingle]
      refine ⟨_, hread, hread, fun byte hbyte => ⟨(none, inner + 1), ?_, sameQuote_none, rfl⟩⟩
      have hopen := ne_toUInt8 (c := '[') hbyte (by decide)
      have hclose := ne_toUInt8 (c := ']') hbyte (by decide)
      simp [closingStep, isQuoteByte_high hbyte, hopen, hclose]
    · have hread : closingRead (some mark, inner) c = .inl (some mark, inner) := by
        simp [closingRead, ne_of_high hc (toNat_of_quote hmark)]
      refine ⟨_, hread, hread, fun byte hbyte => ⟨(some mark.toUInt8, inner + 1), ?_, sameQuote_some hmark, rfl⟩⟩
      simp [closingStep, ne_toUInt8 hbyte (toNat_of_quote hmark)]

/-- The first bracket that opens outside quotes is found at its byte. -/
theorem openingAt?_eq (s : List Char) :
    openingAt? s = .ok ((opening? s).map fun parts => byteSize parts.1) := by
  rw [openingAt?, inStep_opening.stop?_eq none none sameQuote_none, opening?, openingFrom?_eq, Option.map_map]
  rw [ok_bind, Option.map_map]
  refine congrArg (fun found => Except.ok (Option.map found _)) (funext fun parts => ?_)
  simp

/-- From a bracket on, wherever it stands, the scan for its end closes no more brackets than it has seen open, and
finds the end at its byte. -/
theorem closingAt?_eq (before after : List Char) :
    closingAt? (before ++ '[' :: after) (byteSize before) =
      .ok ((closing? after).map fun parts => byteSize before + 1 + byteSize parts.1) := by
  have hdrop : (bytes (before ++ '[' :: after)).drop (byteSize before) = '['.toUInt8 :: bytes after := by
    rw [bytes_append, ← length_bytes, List.drop_left, bytes_cons_basic (by decide)]
  have hfirst : closingStep (none, 0) '['.toUInt8 = .ok (.inl (none, 1)) := rfl
  have hscan := inStep_closing.stop?_eq (none, 1) (none, 0) ⟨sameQuote_none, rfl⟩
    (byteSize before + 1) after
  rw [closingAt?, hdrop, stop?, hfirst, closing?, closingFrom?_eq, Option.map_map, ok_bind]
  dsimp only
  rw [hscan, ok_bind, Option.map_map]
  rfl

-- a scan that does not begin at a bracket that opens may close more than it has seen open
example : closingAt? "a]".toList 0 = .error .negative := by rfl

/-- The target, the key and the accessors of an expression, cut out at the brackets of its first indexer. -/
def indexed? (s : List Char) : Except Slip (Option Indexed) := do
  match ← openingAt? s with
  | none => return none
  | some opened =>
      match ← closingAt? s opened with
      | none => return none
      | some closed =>
          let target := trim (← sliceTo s opened)
          let rest := trimStart (← sliceFrom s (closed + 1))
          if target.isEmpty || !(rest.isEmpty || rest.head? == some '.' || rest.head? == some '[') then
            return none
          else
            let key ← slice s (opened + 1) closed
            return some ⟨target, key, rest⟩

theorem indexed?_eq (s : List Char) : indexed? s = .ok (Reference.indexed? s) := by
  rw [indexed?, Reference.indexed?, openingAt?_eq]
  cases hopen : opening? s with
  | none => rfl
  | some opened =>
      obtain ⟨before, after⟩ := opened
      obtain rfl := opening?_append hopen
      rw [ok_bind, Option.map_some]
      dsimp only
      rw [closingAt?_eq, ok_bind]
      change _ = Except.ok (closing? after >>= _)
      cases hclose : closing? after with
      | none => rfl
      | some closed =>
          obtain ⟨key, behind⟩ := closed
          obtain rfl := closing?_append hclose
          have htarget := sliceTo_append before ('[' :: (key ++ ']' :: behind))
          have hkey := slice_append (before ++ ['[']) key (']' :: behind)
          have hrest := sliceFrom_append (before ++ '[' :: (key ++ [']'])) behind
          have hopened : byteSize (before ++ ['[']) = byteSize before + 1 := byteSize_append before ['[']
          have hclosed : byteSize (before ++ '[' :: (key ++ [']'])) = byteSize before + 1 + byteSize key + 1 := by
            simp only [byteSize_append, byteSize_cons, utf8Size_basic (c := '[') (by decide)]
            change _ + (1 + (_ + 1)) = _
            omega
          simp only [List.append_assoc, List.cons_append, List.nil_append, hopened, hclosed] at hkey hrest
          simp only [Option.map_some, htarget, hrest, hkey, ok_bind, pure_eq_ok, Option.bind_eq_bind, Option.bind_some]
          split
          · rfl
          · rfl

end Stencil.Bytewise
