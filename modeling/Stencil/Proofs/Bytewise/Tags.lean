import Stencil.Gate.Template
import Stencil.Proofs.Bytewise.Indexers
import Stencil.Proofs.Writing.Tags

/-!
Tags read by bytes: where a tag ends, the attributes between its name and its end, and how deep tags nest. Offsets go
forward only, from the place behind one token or tag to the place behind the next, and each such place is one between
two characters, whatever bytes a backslash made the scan pass over.
-/

namespace Stencil.Bytewise

open Text Markup

/-- Whether a byte is a basic character of a class. -/
def holds (p : Char → Bool) (byte : UInt8) : Bool := decide (byte.toNat < 128) && p (Char.ofNat byte.toNat)

theorem holds_toUInt8 (p : Char → Bool) {c : Char} (hc : c.toNat < 128) : holds p c.toUInt8 = p c := by
  rw [holds, toNat_toUInt8 hc, decide_eq_true hc, Bool.true_and, Char.ofNat_toNat]

theorem holds_high (p : Char → Bool) {byte : UInt8} (h : 128 ≤ byte.toNat) : holds p byte = false := by
  rw [holds, decide_eq_false (Nat.not_lt_of_le h), Bool.false_and]

/-- The characters of a class of basic ones at the front of a text are the bytes of the class at the front of its
bytes. -/
theorem takeWhile_bytes {p : Char → Bool} (hp : ∀ c, p c = true → c.toNat < 128) (s : List Char) :
    (bytes s).takeWhile (holds p) = bytes (s.takeWhile p) := by
  induction s with
  | nil => rfl
  | cons c rest ih =>
      by_cases hc : c.toNat < 128
      · rw [bytes_cons_basic hc, List.takeWhile_cons, List.takeWhile_cons, holds_toUInt8 p hc]
        split
        · rw [bytes_cons_basic hc, ih]
        · rfl
      · have hhigh := Nat.le_of_not_lt hc
        obtain ⟨first, more, hbytes, -, hfirst, -⟩ := bytes_cons_high hhigh rest
        have hno : ¬ p c = true := fun h => hc (hp c h)
        rw [hbytes, List.takeWhile_cons_of_neg hno, List.takeWhile_cons_of_neg (by simp [holds_high p hfirst])]
        rfl

theorem basic_of_isAsciiBlank {c : Char} (h : isAsciiBlank c = true) : c.toNat < 128 := by
  simp only [isAsciiBlank, Bool.or_eq_true, beq_iff_eq] at h
  rcases h with (((rfl | rfl) | rfl) | rfl) | rfl <;> decide

theorem basic_of_isAsciiLetter {c : Char} (h : isAsciiLetter c = true) : c.toNat < 128 := by
  simp only [isAsciiLetter, Bool.or_eq_true, Bool.and_eq_true, decide_eq_true_eq, Char.le_def,
    UInt32.le_iff_toNat_le] at h
  change c.val.toNat < 128
  rcases h with ⟨-, h⟩ | ⟨-, h⟩
  · exact Nat.lt_of_le_of_lt h (by decide)
  · exact Nat.lt_of_le_of_lt h (by decide)

theorem basic_of_isAsciiAlphanumeric {c : Char} (h : isAsciiAlphanumeric c = true) : c.toNat < 128 := by
  rw [isAsciiAlphanumeric, Bool.or_eq_true] at h
  rcases h with hletter | hdigit
  · exact basic_of_isAsciiLetter hletter
  · simp only [isAsciiDigit, Bool.and_eq_true, decide_eq_true_eq, Char.le_def, UInt32.le_iff_toNat_le] at hdigit
    change c.val.toNat < 128
    exact Nat.lt_of_le_of_lt hdigit.2 (by decide)

/-! ### Where a tag ends -/

/-- What has been seen of a tag: the open quote, whether a backslash in it escapes the next byte, and the last byte
that is no blank. -/
structure TagState where
  quote : Option UInt8 := none
  escaped : Bool := false
  last : Option UInt8 := none

/-- The last byte that is no blank, behind one more. -/
def lastAfter (last : Option UInt8) (byte : UInt8) : Option UInt8 :=
  if holds isAsciiBlank byte then last else some byte

/-- A byte of a tag, or its end and whether a slash stands before it. -/
def tagStep (state : TagState) (byte : UInt8) : Except Slip (TagState ⊕ Bool) :=
  let last := lastAfter state.last byte
  match state.quote with
  | some closing =>
      if state.escaped then .ok (.inl ⟨some closing, false, last⟩)
      else if byte = '\\'.toUInt8 then .ok (.inl ⟨some closing, true, last⟩)
      else .ok (.inl ⟨if byte = closing then none else some closing, false, last⟩)
  | none =>
      if isQuoteByte byte then .ok (.inl ⟨some byte, state.escaped, last⟩)
      else if byte = '>'.toUInt8 then .ok (.inr (state.last == some '/'.toUInt8))
      else .ok (.inl ⟨none, state.escaped, last⟩)

/-- Where the tag ends that an offset stands in, and whether it closes itself. -/
def tagEnd? (row : List UInt8) (start : Nat) : Except Slip (Option (Nat × Bool)) :=
  stop? tagStep {} start (row.drop start)

/-- A character of a tag, or its end and whether a slash stands before it. -/
def tagRead (scan : TagScan) (c : Char) : TagScan ⊕ Bool :=
  if c = '>' ∧ scan.quote = none then .inr scan.slash else .inl (scan.step c)

theorem tagBodyFrom?_eq (scan : TagScan) (passed s : List Char) :
    tagBodyFrom? scan passed s =
      (stopCut? tagRead scan s).map fun parts => ⟨passed.reverse ++ parts.1, parts.2.1, parts.2.2⟩ := by
  induction s generalizing scan passed with
  | nil => rfl
  | cons c rest ih =>
      rw [tagBodyFrom?, stopCut?, tagRead]
      split
      next =>
        simp
      next =>
        rw [ih]
        simp [Function.comp_def]

/-- What has been seen of a tag, by bytes and by characters. -/
structure SameScan (state : TagState) (scan : TagScan) : Prop where
  quote : SameQuote state.quote scan.quote
  escaped : state.escaped = scan.escaping
  settled : state.quote = none → state.escaped = false
  slash : (state.last == some '/'.toUInt8) = scan.slash

/-- Whether the last character that is no blank is a slash, behind one more. -/
def slashAfter (slash : Bool) (c : Char) : Bool := if isAsciiBlank c then slash else c == '/'

theorem lastAfter_basic {c : Char} (hc : c.toNat < 128) (last : Option UInt8) :
    (lastAfter last c.toUInt8 == some '/'.toUInt8) = slashAfter (last == some '/'.toUInt8) c := by
  rw [lastAfter, slashAfter, holds_toUInt8 isAsciiBlank hc]
  split
  · rfl
  · rw [Bool.eq_iff_iff, beq_iff_eq, beq_iff_eq, Option.some.injEq]
    exact toUInt8_inj hc (by decide)

theorem lastAfter_high {byte : UInt8} (hbyte : 128 ≤ byte.toNat) (last : Option UInt8) :
    (lastAfter last byte == some '/'.toUInt8) = false := by
  have hslash := ne_toUInt8 (c := '/') hbyte (by decide)
  simp [lastAfter, holds_high isAsciiBlank hbyte, hslash]

theorem slashAfter_high {c : Char} (hc : 128 ≤ c.toNat) (slash : Bool) : slashAfter slash c = false := by
  have hblank : ¬ isAsciiBlank c = true := fun h => absurd (basic_of_isAsciiBlank h) (Nat.not_lt_of_le hc)
  have hslash := ne_of_high (d := '/') hc (by decide)
  simp [slashAfter, hblank, hslash]

theorem inStep_tag : InStep tagStep tagRead SameScan where
  basic := by
    rintro ⟨quote, escaped, last⟩ ⟨place, escaping, slash⟩ c ⟨same, rfl, settled, rfl⟩ hc
    have hlast := lastAfter_basic hc last
    have hsame (d : Char) (hd : d.toNat < 128) : c.toUInt8 = d.toUInt8 ↔ c = d := toUInt8_inj hc hd
    rcases same.cases with ⟨rfl, rfl⟩ | ⟨mark, rfl, rfl, hmark⟩
    · obtain rfl : escaped = false := settled rfl
      by_cases hquote : c = '"' ∨ c = '\''
      · have hend : c ≠ '>' := by rcases hquote with rfl | rfl <;> decide
        refine .inl ⟨⟨some c.toUInt8, false, lastAfter last c.toUInt8⟩, ⟨some c, false, slashAfter _ c⟩, ?_, ?_,
          sameQuote_some hquote, rfl, fun _ => rfl, hlast⟩
        · simp [tagStep, isQuoteByte_toUInt8 hc, hquote]
        · simp [tagRead, TagScan.step, slashAfter, hend, hquote]
      · by_cases hend : c = '>'
        · subst hend
          exact .inr ⟨last == some '/'.toUInt8, rfl, rfl⟩
        · refine .inl ⟨⟨none, false, lastAfter last c.toUInt8⟩, ⟨none, false, slashAfter _ c⟩, ?_, ?_,
            sameQuote_none, rfl, fun _ => rfl, hlast⟩
          · simp [tagStep, isQuoteByte_toUInt8 hc, hquote, hsame, hend]
          · simp [tagRead, TagScan.step, slashAfter, hend, hquote]
    · refine .inl ?_
      have hbasic := hsame mark (toNat_of_quote hmark)
      cases escaped with
      | true =>
          refine ⟨⟨some mark.toUInt8, false, lastAfter last c.toUInt8⟩, ⟨some mark, false, slashAfter _ c⟩, ?_, ?_,
            sameQuote_some hmark, rfl, fun _ => rfl, hlast⟩
          · simp [tagStep]
          · simp [tagRead, TagScan.step, slashAfter]
      | false =>
          by_cases hbackslash : c = '\\'
          · refine ⟨⟨some mark.toUInt8, true, lastAfter last c.toUInt8⟩, ⟨some mark, true, slashAfter _ c⟩, ?_, ?_,
              sameQuote_some hmark, rfl, fun hnone => absurd hnone (Option.some_ne_none _), hlast⟩
            · simp [tagStep, hbackslash]
            · simp [tagRead, TagScan.step, slashAfter, hbackslash]
          · by_cases hclose : c = mark
            · subst hclose
              refine ⟨⟨none, false, lastAfter last c.toUInt8⟩, ⟨none, false, slashAfter _ c⟩, ?_, ?_,
                sameQuote_none, rfl, fun _ => rfl, hlast⟩
              · simp [tagStep, hsame, hbackslash]
              · simp [tagRead, TagScan.step, slashAfter, hbackslash]
            · refine ⟨⟨some mark.toUInt8, false, lastAfter last c.toUInt8⟩, ⟨some mark, false, slashAfter _ c⟩, ?_, ?_,
                sameQuote_some hmark, rfl, fun _ => rfl, hlast⟩
              · simp [tagStep, hsame, hbackslash, hbasic, hclose]
              · simp [tagRead, TagScan.step, slashAfter, hbackslash, hclose]
  high := by
    rintro ⟨quote, escaped, last⟩ ⟨place, escaping, slash⟩ c ⟨same, rfl, settled, rfl⟩ hc
    have hplain (d : Char) (hd : d.toNat < 128) : c ≠ d := ne_of_high hc hd
    have hslash := slashAfter_high hc
    rcases same.cases with ⟨rfl, rfl⟩ | ⟨mark, rfl, rfl, hmark⟩
    · obtain rfl : escaped = false := settled rfl
      have hread (slash : Bool) : tagRead ⟨none, false, slash⟩ c = .inl ⟨none, false, slashAfter slash c⟩ := by
        simp [tagRead, TagScan.step, slashAfter, hplain]
      rw [hread, hslash]
      refine ⟨⟨none, false, false⟩, rfl, by rw [hread, hslash], fun byte hbyte => ?_⟩
      have hend := ne_toUInt8 (c := '>') hbyte (by decide)
      refine ⟨⟨none, false, lastAfter last byte⟩, ?_, sameQuote_none, rfl, fun _ => rfl, lastAfter_high hbyte last⟩
      simp [tagStep, isQuoteByte_high hbyte, hend]
    · have hread (escaping slash : Bool) :
          tagRead ⟨some mark, escaping, slash⟩ c = .inl ⟨some mark, false, slashAfter slash c⟩ := by
        cases escaping <;> simp [tagRead, TagScan.step, slashAfter, hplain, toNat_of_quote hmark]
      rw [hread, hslash]
      refine ⟨⟨some mark, false, false⟩, rfl, by rw [hread, hslash], fun byte hbyte => ?_⟩
      have hne (d : Char) (hd : d.toNat < 128) : byte ≠ d.toUInt8 := ne_toUInt8 hbyte hd
      refine ⟨⟨some mark.toUInt8, false, lastAfter last byte⟩, ?_, sameQuote_some hmark, rfl, fun _ => rfl,
        lastAfter_high hbyte last⟩
      cases escaped <;> simp [tagStep, hne, toNat_of_quote hmark]

theorem tagEnd?_eq {s rest : List Char} {offset : Nat} (h : StandsAt s offset rest) :
    tagEnd? (bytes s) offset =
      .ok ((tagBody? rest).map fun body => (offset + byteSize body.inner, body.selfClosing)) := by
  have hscan := inStep_tag.stop?_eq {} {}
    ⟨sameQuote_none, rfl, fun _ => rfl, rfl⟩ offset rest
  rw [tagEnd?, h.drop_eq, hscan, tagBody?, tagBodyFrom?_eq, Option.map_map]
  rfl

/-! ### The attributes of a tag -/

/-- What a token of a list of attributes is. -/
inductive AttributeKind where
  | equals
  | quoted (mark : Char)
  | name
  | other

/-- What the first token of a text is that no separator starts, and what stands behind it. -/
def attributeKind (c : Char) (rest : List Char) : AttributeKind × List Char :=
  if c = '=' then (.equals, rest)
  else if c = '"' ∨ c = '\'' then
    match quotedText c [] rest with
    | .ok (_, after) => (.quoted c, after)
    | .error after => (.other, after)
  else (.name, rest.dropWhile isNamePart)

/-- A token with the offsets of its beginning and its end. -/
structure AttributeToken where
  kind : AttributeKind
  start : Nat
  stop : Nat

/-- The first token from an offset on, behind separators. -/
def attributeToken? (s : List Char) (position : Nat) : Except Slip (Option AttributeToken) := do
  let rest ← sliceFrom s position
  match rest.dropWhile isSeparator with
  | [] => return none
  | c :: behind =>
      let (kind, after) := attributeKind c behind
      return some ⟨kind, byteSize s - byteSize (c :: behind), byteSize s - byteSize after⟩

/-- The text that a quoted value stands for. -/
def unquote (mark : Char) (quoted : List Char) : Except Slip (List Char) := do
  let stop ← minus (byteSize quoted) 1
  let inner ← slice quoted 1 stop
  if !inner.contains '\\' then return inner
  else if mark = '"' then return (unquote? quoted).getD inner
  else return replaceAll ['\\', '\''] ['\''] inner

/-- Where a reading of attributes stands: the offset of what has not been read, a name that still lacks a value,
whether the next quoted text is its value, and the attributes so far. -/
structure AttributeReading where
  position : Nat := 0
  pending : Option (List Char) := none
  awaiting : Bool := false
  attributes : List Attribute := []

/-- A turn takes one token, and with an equals sign the value behind it that no quote opens. -/
def attributeTurn (s : List Char) (state : AttributeReading) : Except Slip (AttributeReading ⊕ List Attribute) := do
  match ← attributeToken? s state.position with
  | none => return .inr (state.attributes ++ (state.pending.map bareAttribute).toList)
  | some ⟨.name, start, stop⟩ =>
      let name ← slice s start stop
      return .inl ⟨stop, some name, false, state.attributes ++ (state.pending.map bareAttribute).toList⟩
  | some ⟨.equals, _, stop⟩ =>
      match state.pending with
      | none => return .inl { state with position := stop }
      | some name =>
          let remainder ← sliceFrom s stop
          let value := trimStart remainder
          if value.head? = some '"' ∨ value.head? = some '\'' then
            return .inl { state with position := stop, awaiting := true }
          else
            let length := byteSize (value.takeWhile (!isAsciiBlank ·))
            let blanks ← minus (byteSize remainder) (byteSize value)
            let raw ← sliceTo value length
            return .inl ⟨stop + (blanks + length), none, state.awaiting,
              state.attributes ++ [⟨String.ofList name, String.ofList (bareValue raw)⟩]⟩
  | some ⟨.quoted mark, start, stop⟩ =>
      match state.awaiting, state.pending with
      | true, some name =>
          let quoted ← slice s start stop
          let value ← unquote mark quoted
          return .inl ⟨stop, none, false, state.attributes ++ [⟨String.ofList name, String.ofList value⟩]⟩
      | _, _ => return .inl { state with position := stop, awaiting := false }
  | some ⟨.other, _, stop⟩ => return .inl { state with position := stop, awaiting := false }

/-- The attributes of the list between the name of a tag and its end. -/
def attributesOf (inner : List Char) : Except Slip (List Attribute) :=
  turns (attributeTurn inner) (byteSize inner + 1) {}

/-- A quoted text, its mark and what follows make up the text it was read from; what cannot be read leaves an end of
it. -/
theorem quotedText_append {mark : Char} {passed s : List Char} :
    (∀ text after, quotedText mark passed s = .ok (text, after) → passed.reverse ++ s = text ++ mark :: after) ∧
      ∀ after, quotedText mark passed s = .error after → after <:+ s := by
  fun_induction quotedText mark passed s with
  | case1 => simp
  | case2 => simp
  | case3 passed =>
      refine ⟨by simp, fun after h => ?_⟩
      cases h
      exact List.suffix_cons _ _
  | case4 passed c after hc ih =>
      refine ⟨fun text rest h => ?_, fun rest h => ?_⟩
      · rw [← ih.1 text rest h]
        simp
      · exact (ih.2 rest h).trans ((List.suffix_cons ..).trans (List.suffix_cons ..))
  | case5 passed rest hc =>
      refine ⟨fun text after h => ?_, by simp⟩
      cases h
      rfl
  | case6 passed c rest hc hm ih =>
      refine ⟨fun text after h => ?_, fun after h => (ih.2 after h).trans (List.suffix_cons ..)⟩
      rw [← ih.1 text after h]
      simp

theorem unquote_eq {mark : Char} (hmark : mark = '"' ∨ mark = '\'') (text : List Char) :
    unquote mark (mark :: (text ++ [mark])) = .ok (quotedValue mark text) := by
  have hsize : byteSize [mark] = 1 := utf8Size_basic (toNat_of_quote hmark)
  have hslice := slice_append [mark] text [mark]
  rw [hsize, List.singleton_append] at hslice
  have hstop : minus (byteSize (mark :: (text ++ [mark]))) 1 = .ok (1 + byteSize text) := by
    have hwhole : byteSize (mark :: (text ++ [mark])) = 1 + byteSize text + 1 := by
      rw [byteSize_cons, byteSize_append, hsize, utf8Size_basic (toNat_of_quote hmark), Nat.add_assoc]
    rw [hwhole, minus_add]
  rw [unquote, hstop, ok_bind, hslice, ok_bind, quotedValue]
  split
  · rfl
  · split
    next hdouble =>
      subst hdouble
      rfl
    next => rfl

/-- What a reading of attributes leads to. -/
def AttributeReading.Leads (s : List Char) (state : AttributeReading) (answer : List Attribute) : Prop :=
  ∃ rest, StandsAt s state.position rest ∧
    answer = state.attributes ++ attributesFrom state.pending state.awaiting rest

/-- A turn that goes on behind what it takes of a text leads to what the text leads to. -/
def AttributeReading.Passes (s : List Char) (state : AttributeReading) (ahead : List Char) : Prop :=
  ∃ next after, attributeTurn s state = .ok (.inl next) ∧ StandsAt s next.position after ∧
    byteSize after < byteSize ahead ∧
    state.attributes ++ attributesFrom state.pending state.awaiting ahead =
      next.attributes ++ attributesFrom next.pending next.awaiting after

/-- A token is found where it stands. -/
theorem attributeToken?_eq {s rest behind taken after : List Char} {position : Nat} {c : Char}
    {kind : AttributeKind} (h : StandsAt s position rest) (hahead : rest.dropWhile isSeparator = c :: behind)
    (hkind : attributeKind c behind = (kind, after)) (htaken : c :: behind = taken ++ after) :
    ∃ start, StandsAt s start (taken ++ after) ∧
      attributeToken? s position = .ok (some ⟨kind, start, start + byteSize taken⟩) := by
  have hgap := List.takeWhile_append_dropWhile (p := isSeparator) (l := rest)
  rw [hahead] at hgap
  rw [← hgap] at h
  have hstart := h.behind
  have hstop := hstart.size_eq
  rw [htaken] at hstart hstop
  refine ⟨byteSize s - byteSize (c :: behind), by rwa [htaken], ?_⟩
  have hend : byteSize s - byteSize after = byteSize s - byteSize (c :: behind) + byteSize taken := by
    rw [byteSize_append] at hstop
    rw [htaken, byteSize_append]
    omega
  rw [attributeToken?, h.sliceFrom_eq, ok_bind, hgap, hahead]
  dsimp only
  rw [hkind, ← hend]
  rfl

section Passes

variable {s rest behind : List Char} {state : AttributeReading} {c : Char} (h : StandsAt s state.position rest)

include h

theorem passes_name (hahead : rest.dropWhile isSeparator = c :: behind) (hseparator : isSeparator c = false)
    (hequals : c ≠ '=') (hquote : ¬ (c = '"' ∨ c = '\'')) : state.Passes s (c :: behind) := by
  have hsplit : c :: behind = (c :: behind.takeWhile isNamePart) ++ behind.dropWhile isNamePart :=
    congrArg (c :: ·) List.takeWhile_append_dropWhile.symm
  have hkind : attributeKind c behind = (.name, behind.dropWhile isNamePart) := by
    rw [attributeKind, if_neg hequals, if_neg hquote]
  obtain ⟨start, hstart, htoken⟩ := attributeToken?_eq h hahead hkind hsplit
  refine ⟨⟨start + byteSize (c :: behind.takeWhile isNamePart), some (c :: behind.takeWhile isNamePart), false,
    state.attributes ++ (state.pending.map bareAttribute).toList⟩, behind.dropWhile isNamePart, ?_, hstart.pass _, ?_,
    ?_⟩
  · rw [attributeTurn, htoken, ok_bind]
    dsimp only
    rw [hstart.slice_eq]
    rfl
  · have hpos := byteSize_pos (List.cons_ne_nil c (behind.takeWhile isNamePart))
    rw [hsplit, byteSize_append]
    omega
  · have hno : ¬ isSeparator c = true := Bool.not_eq_true _ ▸ hseparator
    rw [attributesFrom.eq_def state.pending]
    dsimp only
    rw [if_neg hno, if_neg hequals, if_neg hquote, List.append_assoc]

/-- Behind an equals sign without a name nothing is read; behind one with a name, a quote is left to the next turn and
any other value is taken up to the next blank. -/
theorem passes_equals (hahead : rest.dropWhile isSeparator = '=' :: behind) : state.Passes s ('=' :: behind) := by
  obtain ⟨position, pending, awaiting, attributes⟩ := state
  have hkind : attributeKind '=' behind = (.equals, behind) := rfl
  have htaken : '=' :: behind = ['='] ++ behind := rfl
  obtain ⟨start, hstart, htoken⟩ := attributeToken?_eq h hahead hkind htaken
  have hbehind := hstart.pass _
  have hless : byteSize behind < byteSize ('=' :: behind) := Nat.lt_add_of_pos_left (Char.utf8Size_pos _)
  have hno : ¬ isSeparator '=' = true := by decide
  dsimp only at htoken
  cases pending with
  | none =>
      refine ⟨⟨start + byteSize ['='], none, awaiting, attributes⟩, behind, ?_, hbehind, hless, ?_⟩
      · rw [attributeTurn, htoken, ok_bind]
        rfl
      · dsimp only
        rw [attributesFrom.eq_def none awaiting ('=' :: behind)]
        dsimp only
        rw [if_neg hno, if_pos rfl]
  | some name =>
      by_cases hquoted : (trimStart behind).head? = some '"' ∨ (trimStart behind).head? = some '\''
      · refine ⟨⟨start + byteSize ['='], some name, true, attributes⟩, behind, ?_, hbehind, hless, ?_⟩
        · rw [attributeTurn, htoken, ok_bind]
          dsimp only
          rw [hbehind.sliceFrom_eq, ok_bind, if_pos hquoted]
          rfl
        · dsimp only
          rw [attributesFrom.eq_def (some name) awaiting]
          dsimp only
          rw [if_neg hno, if_pos rfl, if_pos hquoted]
      · -- the value stands between the blanks behind the sign and the next blank
        have hblanks := List.takeWhile_append_dropWhile (p := isBlank) (l := behind)
        have hvalue := List.takeWhile_append_dropWhile (p := (!isAsciiBlank ·)) (l := trimStart behind)
        have hafter : StandsAt s (start + byteSize ['='] + (byteSize (behind.takeWhile isBlank) +
            byteSize ((trimStart behind).takeWhile (!isAsciiBlank ·))))
            ((trimStart behind).dropWhile (!isAsciiBlank ·)) := by
          rw [← hblanks] at hbehind
          have hpassed := hbehind.pass _
          change StandsAt s _ (trimStart behind) at hpassed
          rw [← hvalue] at hpassed
          have hlast := hpassed.pass _
          rwa [Nat.add_assoc (start + _)] at hlast
        refine ⟨⟨_, none, awaiting, attributes ++ [⟨String.ofList name, String.ofList (bareValue
          ((trimStart behind).takeWhile (!isAsciiBlank ·)))⟩]⟩, _, ?_, hafter, ?_, ?_⟩
        · rw [attributeTurn, htoken, ok_bind]
          dsimp only
          rw [hbehind.sliceFrom_eq, ok_bind, if_neg hquoted, minus_trimStart, ok_bind, sliceTo_takeWhile, ok_bind]
          rfl
        · have hsize := congrArg byteSize hblanks
          have hrest := congrArg byteSize hvalue
          rw [byteSize_append] at hsize hrest
          change _ + byteSize (trimStart behind) = _ at hsize
          omega
        · dsimp only
          rw [attributesFrom.eq_def (some name) awaiting]
          dsimp only
          rw [if_neg hno, if_pos rfl, if_neg hquoted, List.append_assoc]
          rfl

theorem passes_quoted (hahead : rest.dropWhile isSeparator = c :: behind) (hseparator : isSeparator c = false)
    (hequals : c ≠ '=') (hquote : c = '"' ∨ c = '\'') {text after : List Char}
    (hread : quotedText c [] behind = .ok (text, after)) : state.Passes s (c :: behind) := by
  have hsplit : c :: behind = (c :: (text ++ [c])) ++ after := by
    have hbehind : behind = text ++ c :: after := quotedText_append.1 text after hread
    simp [hbehind]
  have hkind : attributeKind c behind = (.quoted c, after) := by
    rw [attributeKind, if_neg hequals, if_pos hquote, hread]
  obtain ⟨start, hstart, htoken⟩ := attributeToken?_eq h hahead hkind hsplit
  have hless : byteSize after < byteSize (c :: behind) := by
    have hpos := byteSize_pos (List.cons_ne_nil c (text ++ [c]))
    rw [hsplit, byteSize_append]
    omega
  have hno : ¬ isSeparator c = true := Bool.not_eq_true _ ▸ hseparator
  have hafter := hstart.pass _
  obtain ⟨position, pending, awaiting, attributes⟩ := state
  dsimp only at htoken
  by_cases hvalue : ∃ name, awaiting = true ∧ pending = some name
  · obtain ⟨name, rfl, rfl⟩ := hvalue
    refine ⟨⟨_, none, false, attributes ++ [⟨String.ofList name, String.ofList (quotedValue c text)⟩]⟩, after, ?_,
      hafter, hless, ?_⟩
    · rw [attributeTurn, htoken, ok_bind]
      dsimp only
      rw [hstart.slice_eq, ok_bind, unquote_eq hquote, ok_bind]
      rfl
    · dsimp only
      rw [attributesFrom.eq_def (some name) true]
      dsimp only
      rw [if_neg hno, if_neg hequals, if_pos hquote]
      split
      next _ heq => cases hread.symm.trans heq
      next _ _ heq =>
        cases hread.symm.trans heq
        rw [List.append_assoc]
        rfl
  · refine ⟨⟨start + byteSize (c :: (text ++ [c])), pending, false, attributes⟩, after, ?_, hafter, hless, ?_⟩
    · rw [attributeTurn, htoken, ok_bind]
      dsimp only
      split
      next name => exact absurd ⟨name, rfl, rfl⟩ hvalue
      next => rfl
    · dsimp only
      rw [attributesFrom.eq_def pending awaiting]
      dsimp only
      rw [if_neg hno, if_neg hequals, if_pos hquote]
      split
      next _ heq => cases hread.symm.trans heq
      next _ _ heq =>
        cases hread.symm.trans heq
        split
        next name => exact absurd ⟨name, rfl, rfl⟩ hvalue
        next => rfl

theorem passes_other (hahead : rest.dropWhile isSeparator = c :: behind) (hseparator : isSeparator c = false)
    (hequals : c ≠ '=') (hquote : c = '"' ∨ c = '\'') {after : List Char}
    (hread : quotedText c [] behind = .error after) : state.Passes s (c :: behind) := by
  obtain ⟨front, hfront⟩ := quotedText_append.2 after hread
  have hsplit : c :: behind = (c :: front) ++ after := congrArg (c :: ·) hfront.symm
  have hkind : attributeKind c behind = (.other, after) := by
    rw [attributeKind, if_neg hequals, if_pos hquote, hread]
  obtain ⟨start, hstart, htoken⟩ := attributeToken?_eq h hahead hkind hsplit
  have hno : ¬ isSeparator c = true := Bool.not_eq_true _ ▸ hseparator
  refine ⟨⟨start + byteSize (c :: front), state.pending, false, state.attributes⟩, after, ?_, hstart.pass _, ?_, ?_⟩
  · rw [attributeTurn, htoken, ok_bind]
    rfl
  · have hpos := byteSize_pos (List.cons_ne_nil c front)
    rw [hsplit, byteSize_append]
    omega
  · dsimp only
    rw [attributesFrom.eq_def state.pending state.awaiting]
    dsimp only
    rw [if_neg hno, if_neg hequals, if_pos hquote]
    split
    next _ heq =>
      cases hread.symm.trans heq
      rfl
    next _ _ heq => cases hread.symm.trans heq

end Passes

/-- Each turn that is not the last leads to what its beginning leads to, from a later offset on. -/
theorem AttributeReading.Leads.turn {s : List Char} {state : AttributeReading} {answer : List Attribute}
    (leads : state.Leads s answer) :
    attributeTurn s state = .ok (.inr answer) ∨
      ∃ next, attributeTurn s state = .ok (.inl next) ∧
        byteSize s - next.position < byteSize s - state.position ∧ next.Leads s answer := by
  obtain ⟨rest, hrest, rfl⟩ := leads
  have hgap := List.takeWhile_append_dropWhile (p := isSeparator) (l := rest)
  have hseparators : ∀ c ∈ rest.takeWhile isSeparator, isSeparator c = true := fun c hc => List.mem_takeWhile_imp hc
  have hskip := attributesFrom_separators hseparators state.pending state.awaiting (rest.dropWhile isSeparator)
  rw [hgap] at hskip
  rw [hskip]
  cases hahead : rest.dropWhile isSeparator with
  | nil =>
      refine .inl ?_
      rw [attributeTurn, attributeToken?, hrest.sliceFrom_eq, ok_bind, hahead, attributesFrom.eq_def]
      rfl
  | cons c behind =>
      refine .inr ?_
      suffices hpasses : state.Passes s (c :: behind) by
        obtain ⟨next, after, hnext, hafter, hless, heq⟩ := hpasses
        refine ⟨next, hnext, ?_, after, hafter, heq⟩
        have hsize := congrArg byteSize hgap
        have hhere := hrest.size_eq
        have hthere := hafter.size_eq
        rw [hahead, byteSize_append] at hsize
        omega
      have hseparator : isSeparator c = false := by
        have hhead := List.head?_dropWhile_not isSeparator rest
        rw [hahead] at hhead
        exact hhead
      by_cases hequals : c = '='
      · subst hequals
        exact passes_equals hrest hahead
      · by_cases hquote : c = '"' ∨ c = '\''
        · cases hread : quotedText c [] behind with
          | ok parts => exact passes_quoted hrest hahead hseparator hequals hquote hread
          | error after => exact passes_other hrest hahead hseparator hequals hquote hread
        · exact passes_name hrest hahead hseparator hequals hquote

/-- Reading attributes by bytes never slips, and reads what reading by characters reads. -/
theorem attributesOf_eq (inner : List Char) : attributesOf inner = .ok (Markup.attributesOf inner) := by
  have hleads : AttributeReading.Leads inner {} (Markup.attributesOf inner) := ⟨inner, .start inner, rfl⟩
  exact turns_eq (fun state => byteSize inner - state.position) AttributeReading.Leads.turn hleads
    (Nat.lt_succ_self _)

end Stencil.Bytewise
