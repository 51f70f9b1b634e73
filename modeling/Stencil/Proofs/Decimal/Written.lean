import Stencil.Decimal.Layout
import Stencil.Decimal.Read
import Stencil.Proofs.Cutting
import Stencil.Proofs.Decimal.Shortest

/-!
Every layout writes the digits of a number so that the reader of decimals gets exactly their value back.
With the fewest digits, which lie in the interval of their number, the text of a finite number belongs to
no other number.
-/

namespace Stencil.Decimal

open Text

/-- The number that a decimal writes, before it is rounded. -/
def Parts.exact (parts : Parts) : ℚ :=
  ((readAfter? 10 0 (parts.whole ++ parts.fraction)).getD 0 : ℕ) *
    10 ^ (parts.exponent - parts.fraction.length)

/-- A text that the reader of decimals takes for a number. -/
def Reads (s : List Char) (x : ℚ) : Prop := ∃ parts, readParts? s = some parts ∧ parts.exact = x

theorem isAsciiDigit_iff {c : Char} : isAsciiDigit c = true ↔ c.isDigit = true := by
  unfold isAsciiDigit Char.isDigit
  rw [Bool.and_eq_true, Bool.and_eq_true, decide_eq_true_iff, decide_eq_true_iff, decide_eq_true_iff,
    decide_eq_true_iff]
  exact Iff.rfl

theorem isAsciiDigit_of_mem_digitsText {n : Nat} {c : Char} (h : c ∈ digitsText n) :
    isAsciiDigit c = true :=
  isAsciiDigit_iff.2 (Nat.isDigit_of_mem_toDigits (by norm_num) (by norm_num) h)

theorem digit?_of_isAsciiDigit {c : Char} (h : isAsciiDigit c = true) :
    digit? 10 c = some (c.toNat - '0'.toNat) := by
  have hle : c.toNat ≤ '9'.toNat := by
    unfold isAsciiDigit at h
    rw [Bool.and_eq_true, decide_eq_true_iff, decide_eq_true_iff] at h
    exact h.2
  have hlt : c.toNat - '0'.toNat < 10 := by
    have : '9'.toNat = 57 := rfl
    have : '0'.toNat = 48 := rfl
    omega
  unfold digit?
  dsimp only
  rw [if_pos h, Option.filter_some, if_pos (decide_eq_true hlt)]

/-- Digits read one after another have the value that the library gives them. -/
theorem readAfter?_of_digits {digits : List Char} (h : ∀ c ∈ digits, isAsciiDigit c = true)
    (high : Nat) : readAfter? 10 high digits = some (Nat.ofDigitChars 10 digits high) := by
  induction digits generalizing high with
  | nil => rfl
  | cons c rest ih =>
      rw [readAfter?, digit?_of_isAsciiDigit (h c (List.mem_cons_self ..)), Nat.ofDigitChars_cons,
        Nat.mul_comm 10 high]
      exact ih (fun d hd => h d (List.mem_cons_of_mem c hd)) _

theorem readAfter?_digitsText (n : Nat) : readAfter? 10 0 (digitsText n) = some n := by
  rw [readAfter?_of_digits fun c => isAsciiDigit_of_mem_digitsText]
  exact congrArg some Nat.ofDigitChars_ten_toDigits

section Reading

variable {whole fraction tail : List Char}

variable (hwhole : ∀ c ∈ whole, isAsciiDigit c = true) (hnonempty : whole ≠ [])
  (htail : ∀ c ∈ tail.head?, isAsciiDigit c = false)

include hwhole hnonempty htail

/-- A decimal without a point. -/
theorem readParts?_whole (hpoint : tail.head? ≠ some '.') :
    readParts? (whole ++ tail) = (readExponent? tail).map fun exponent => ⟨whole, [], exponent⟩ := by
  have hempty : whole.isEmpty = false := List.isEmpty_eq_false_iff.2 hnonempty
  unfold readParts?
  rw [(span_append hwhole htail).1, (span_append hwhole htail).2]
  dsimp only
  split
  next => exact absurd rfl hpoint
  next =>
    dsimp only
    rw [hempty, Bool.false_and, if_neg Bool.false_ne_true]
    exact Option.map_eq_bind.symm

/-- A decimal with a point. -/
theorem readParts?_point (hfraction : ∀ c ∈ fraction, isAsciiDigit c = true) :
    readParts? (whole ++ '.' :: (fraction ++ tail)) =
      (readExponent? tail).map fun exponent => ⟨whole, fraction, exponent⟩ := by
  have hempty : whole.isEmpty = false := List.isEmpty_eq_false_iff.2 hnonempty
  have hpoint : ∀ c ∈ ('.' :: (fraction ++ tail)).head?, isAsciiDigit c = false := by
    rintro c ⟨⟩
    rfl
  unfold readParts?
  rw [(span_append hwhole hpoint).1, (span_append hwhole hpoint).2]
  simp only [span_append hfraction htail, hempty, Bool.false_and,
    Bool.false_eq_true, if_false]
  exact Option.map_eq_bind.symm

end Reading

theorem not_reads_minus (s : List Char) (x : ℚ) : ¬ Reads ('-' :: s) x := by
  rintro ⟨parts, hparts, -⟩
  cases hparts

theorem digitsText_ne_nil (n : Nat) : digitsText n ≠ [] := Nat.toDigits_ne_nil

theorem takeSign_of_digits {digits : List Char} (h : ∀ c ∈ digits, isAsciiDigit c = true) :
    takeSign digits = (false, digits) := by
  unfold takeSign
  split
  next => exact absurd (h '-' (List.mem_cons_self ..)) (by decide)
  next => exact absurd (h '+' (List.mem_cons_self ..)) (by decide)
  next => rfl

/-- The sign in front of an exponent. -/
def exponentSign (signsExponent : Bool) (exponent : Int) : List Char :=
  if exponent < 0 then ['-'] else if signsExponent then ['+'] else []

theorem takeSign_exponentSign (signsExponent : Bool) (exponent : Int) :
    takeSign (exponentSign signsExponent exponent ++ digitsText exponent.natAbs) =
      (decide (exponent < 0), digitsText exponent.natAbs) := by
  unfold exponentSign
  by_cases hnegative : exponent < 0
  · rw [if_pos hnegative, decide_eq_true hnegative]
    rfl
  · rw [if_neg hnegative, decide_eq_false hnegative]
    cases signsExponent with
    | true => rfl
    | false => exact takeSign_of_digits fun c => isAsciiDigit_of_mem_digitsText

theorem readExponent?_text (signsExponent : Bool) (exponent : Int) :
    readExponent? ('e' :: (exponentSign signsExponent exponent ++ digitsText exponent.natAbs)) =
      some exponent := by
  have hdigits : readDigits? 10 (digitsText exponent.natAbs) = some exponent.natAbs := by
    unfold readDigits?
    rw [List.isEmpty_eq_false_iff.2 (digitsText_ne_nil _), if_neg Bool.false_ne_true,
      readAfter?_digitsText]
  rw [readExponent?, if_pos (Or.inl rfl), takeSign_exponentSign]
  dsimp only
  rw [hdigits]
  refine congrArg some ?_
  split
  next hnegative =>
    have := of_decide_eq_true hnegative
    omega
  next hpositive =>
    have := of_decide_eq_false (Bool.eq_false_iff.2 hpositive)
    omega

/-- Digits without an exponent have the value of all of them, at the place of the point. -/
theorem exact_of_digits {whole fraction : List Char} {exponent : Int}
    (hdigits : ∀ c ∈ whole ++ fraction, isAsciiDigit c = true) :
    Parts.exact ⟨whole, fraction, exponent⟩ =
      (Nat.ofDigitChars 10 (whole ++ fraction) 0 : ℕ) * 10 ^ (exponent - fraction.length) := by
  unfold Parts.exact
  dsimp only
  rw [readAfter?_of_digits hdigits, Option.getD_some]

theorem ofDigitChars_digitsText (n : Nat) : Nat.ofDigitChars 10 (digitsText n) 0 = n :=
  Nat.ofDigitChars_ten_toDigits

/-- Digits around a point in the middle of a text or at one of its ends. -/
theorem reads_of_point (whole fraction : List Char) {x : ℚ} (hnonempty : whole ≠ [])
    (hdigits : ∀ c ∈ whole ++ fraction, isAsciiDigit c = true)
    (hvalue : (Nat.ofDigitChars 10 (whole ++ fraction) 0 : ℕ) * 10 ^ (-(fraction.length : ℤ)) = x) :
    Reads (whole ++ '.' :: fraction) x := by
  have hwhole (c : Char) (hc : c ∈ whole) := hdigits c (List.mem_append_left fraction hc)
  have hfraction (c : Char) (hc : c ∈ fraction) := hdigits c (List.mem_append_right whole hc)
  refine ⟨⟨whole, fraction, 0⟩, ?_, ?_⟩
  · have hread : readParts? (whole ++ '.' :: (fraction ++ [])) = some ⟨whole, fraction, 0⟩ :=
      readParts?_point hwhole hnonempty (fun _ hc => by cases hc) hfraction
    rwa [List.append_nil] at hread
  · rw [exact_of_digits hdigits, zero_sub]
    exact hvalue

theorem isAsciiDigit_of_mem_zeros {count : Nat} {c : Char} (h : c ∈ List.replicate count '0') :
    isAsciiDigit c = true := by
  rw [List.eq_of_mem_replicate h]
  rfl

theorem reads_positionalText (keepsPoint : Bool) (d : Digits) :
    Reads (positionalText keepsPoint (digitsText d.digits) d.power) d.value := by
  obtain ⟨n, power⟩ := d
  have hdigits (c : Char) (hc : c ∈ digitsText n) : isAsciiDigit c = true :=
    isAsciiDigit_of_mem_digitsText hc
  unfold positionalText Digits.value
  dsimp only
  split
  next hpower =>
    obtain ⟨count, rfl⟩ := Int.eq_ofNat_of_zero_le hpower
    rw [Int.toNat_natCast, zpow_natCast]
    have hwhole : ∀ c ∈ digitsText n ++ List.replicate count '0', isAsciiDigit c = true := by
      intro c hc
      rcases List.mem_append.1 hc with hc | hc
      · exact hdigits c hc
      · exact isAsciiDigit_of_mem_zeros hc
    have hnonempty : digitsText n ++ List.replicate count '0' ≠ [] :=
      List.append_ne_nil_of_left_ne_nil (digitsText_ne_nil n) _
    have hvalue : Nat.ofDigitChars 10 (digitsText n ++ List.replicate count '0') 0 = 10 ^ count * n := by
      rw [Nat.ofDigitChars_append, ofDigitChars_digitsText, Nat.ofDigitChars_replicate_zero]
    cases keepsPoint with
    | true =>
        refine reads_of_point _ ['0'] hnonempty ?_ ?_
        · intro c hc
          rcases List.mem_append.1 hc with hc | hc
          · exact hwhole c hc
          · rw [List.mem_singleton.1 hc]
            rfl
        · rw [Nat.ofDigitChars_append, hvalue, Nat.ofDigitChars_cons]
          simp
          ring
    | false =>
        refine ⟨⟨_, [], 0⟩, readParts?_whole hwhole hnonempty (fun _ hc => by cases hc) ?_, ?_⟩
        · simp
        rw [exact_of_digits (by rwa [List.append_nil]), List.append_nil, hvalue]
        simp
        ring
  next hpower =>
    have hnegative : -((power.natAbs : ℕ) : ℤ) = power := by omega
    split
    next hlength =>
      refine reads_of_point _ _ ?_ ?_ ?_
      · intro hnil
        have := congrArg List.length hnil
        rw [List.length_take, List.length_nil] at this
        omega
      · rwa [List.take_append_drop]
      · rw [List.take_append_drop, ofDigitChars_digitsText, List.length_drop,
          Nat.sub_sub_self hlength.le, hnegative]
    next hlength =>
      refine reads_of_point ['0'] _ (List.cons_ne_nil _ _) ?_ ?_
      · intro c hc
        rcases List.mem_append.1 hc with hc | hc
        · rw [List.mem_singleton.1 hc]
          rfl
        · rcases List.mem_append.1 hc with hc | hc
          · exact isAsciiDigit_of_mem_zeros hc
          · exact hdigits c hc
      · rw [Nat.ofDigitChars_append, Nat.ofDigitChars_append, Nat.ofDigitChars_cons,
          List.length_append, List.length_replicate, Nat.sub_add_cancel (not_lt.1 hlength), hnegative,
          Nat.ofDigitChars_replicate_zero]
        simp [ofDigitChars_digitsText]

theorem reads_exponentText (signsExponent : Bool) (d : Digits) :
    Reads (exponentText signsExponent (digitsText d.digits) d.power) d.value := by
  obtain ⟨n, power⟩ := d
  have hdigits (c : Char) (hc : c ∈ digitsText n) : isAsciiDigit c = true :=
    isAsciiDigit_of_mem_digitsText hc
  have hvalue := ofDigitChars_digitsText n
  have hnonempty := digitsText_ne_nil n
  unfold Digits.value exponentText
  dsimp only
  generalize digitsText n = digits at hdigits hvalue hnonempty ⊢
  generalize hexponent : power + (digits.length : ℤ) - 1 = exponent
  have htail : ∀ c ∈ ('e' :: (exponentSign signsExponent exponent ++ digitsText exponent.natAbs)).head?,
      isAsciiDigit c = false := by
    rintro c ⟨⟩
    rfl
  have hread := readExponent?_text signsExponent exponent
  rcases digits with _ | ⟨first, _ | ⟨second, rest⟩⟩
  · exact absurd rfl hnonempty
  · refine ⟨⟨[first], [], exponent⟩, ?_, ?_⟩
    · refine (readParts?_whole hdigits hnonempty htail (by simp)).trans ?_
      rw [hread]
      rfl
    · rw [exact_of_digits (by simpa using hdigits), List.append_nil, hvalue, ← hexponent]
      simp
  · refine ⟨⟨[first], second :: rest, exponent⟩, ?_, ?_⟩
    · have hfirst : ∀ c ∈ [first], isAsciiDigit c = true := fun c hc =>
        hdigits c (List.mem_append_left (second :: rest) hc)
      have hrest : ∀ c ∈ second :: rest, isAsciiDigit c = true := fun c hc =>
        hdigits c (List.mem_cons_of_mem first hc)
      refine (readParts?_point hfirst (List.cons_ne_nil _ _) htail hrest).trans ?_
      rw [hread]
      rfl
    · rw [exact_of_digits hdigits]
      change ((Nat.ofDigitChars 10 (first :: second :: rest) 0 : ℕ) : ℚ) * _ = _
      rw [hvalue, ← hexponent]
      congr 2
      rw [List.length_cons, List.length_cons]
      push_cast
      ring

/-- Whether a number taken apart is finite. -/
def Binary.isFinite : Binary → Bool
  | .finite .. => true
  | _ => false

section Finite

open Float.Model UnpackedFloat

theorem toNat_unpackExponent (x : Float) :
    (@unpackExponent Format.binary64 x.toBits.toBitVec).toNat =
      x.toBits.toNat / Nat.pow 2 52 % Nat.pow 2 11 := by
  unfold unpackExponent
  rw [BitVec.toNat_cast, BitVec.extractLsb_toNat, Nat.shiftRight_eq_div_pow]
  rfl

theorem map_ite_eq {α β : Type} (f : α → β) {condition : Prop} [Decidable condition] {yes no : α}
    {answer : β} (hyes : f yes = answer) (hno : f no = answer) :
    f (if condition then yes else no) = answer := by
  rw [apply_ite f, hyes, hno, ite_self]

theorem map_dite_eq {α β : Type} (f : α → β) {condition : Prop} [Decidable condition]
    {yes : condition → α} {no : ¬ condition → α} {answer : β} (hyes : ∀ h, f (yes h) = answer)
    (hno : ∀ h, f (no h) = answer) : f (dite condition yes no) = answer := by
  by_cases h : condition
  · rw [dif_pos h]
    exact hyes h
  · rw [dif_neg h]
    exact hno h

theorem isFinite_ofFloat (x : Float) : (Binary.ofFloat x).isFinite = x.isFinite := by
  have hall : @unpackExponent Format.binary64 x.toBits.toBitVec =
      -BitVec.ofNat Format.binary64.exponentBits 1 ↔
      x.toBits.toNat / Nat.pow 2 52 % Nat.pow 2 11 = Nat.pow 2 11 - 1 := by
    rw [← BitVec.toNat_inj, toNat_unpackExponent]
    exact Iff.rfl
  change _ = (UnpackedFloat.unpack Format.binary64 x.toBits.toBitVec).isFinite
  unfold Binary.ofFloat UnpackedFloat.unpack
  dsimp only
  by_cases hbiased : x.toBits.toNat / Nat.pow 2 52 % Nat.pow 2 11 = Nat.pow 2 11 - 1
  · rw [if_pos hbiased, if_pos (hall.2 hbiased)]
    refine Eq.trans (b := false) (map_ite_eq _ ?_ ?_) (map_ite_eq _ ?_ ?_).symm <;> rfl
  · rw [if_neg hbiased, if_neg fun h => hbiased (hall.1 h)]
    refine Eq.trans (b := true) (map_ite_eq _ ?_ ?_)
      (map_ite_eq _ (map_dite_eq _ (fun _ => ?_) fun _ => ?_) ?_).symm <;> rfl

end Finite

/-- What is taken apart is canonical unless it is zero. -/
theorem canonical_of_ofFloat {x : Float} {negative : Bool} {mantissa : Nat} {scale : Int}
    (h : Binary.ofFloat x = .finite negative mantissa scale) (hpos : 0 < mantissa) :
    Canonical mantissa scale := by
  unfold Binary.ofFloat at h
  simp only [Nat.pow_eq] at h
  have hfraction : x.toBits.toNat % 2 ^ 52 < 2 ^ 52 := Nat.mod_lt _ (by norm_num)
  split at h
  · split at h
    · cases h
    · cases h
  · split at h
    next =>
      cases h
      exact ⟨hpos, by omega, le_rfl, Or.inl rfl⟩
    next hbiased =>
      cases h
      exact ⟨hpos, by omega, by omega, Or.inr (by omega)⟩

/-- The bits of a finite number, put together from its parts. -/
theorem toBits_of_ofFloat {x : Float} {negative : Bool} {mantissa : Nat} {scale : Int}
    (h : Binary.ofFloat x = .finite negative mantissa scale) :
    x.toBits.toNat = (if negative then 2 ^ 63 else 0) +
      (if mantissa < 2 ^ 52 then mantissa else (scale + 1075).toNat * 2 ^ 52 + (mantissa - 2 ^ 52)) := by
  have hlt := x.toBits.toNat_lt
  unfold Binary.ofFloat at h
  simp only [Nat.pow_eq] at h
  generalize x.toBits.toNat = bits at h hlt ⊢
  split at h
  · split at h
    · cases h
    · cases h
  · split at h
    next =>
      cases h
      rw [if_pos (Nat.mod_lt _ (by norm_num))]
      split
      next hsign =>
        have := of_decide_eq_true hsign
        omega
      next hsign =>
        have := of_decide_eq_false (Bool.eq_false_iff.2 hsign)
        omega
    next =>
      cases h
      have hfull : ¬ bits % 2 ^ 52 + 2 ^ 52 < 2 ^ 52 := by omega
      rw [if_neg hfull]
      split
      next hsign =>
        have := of_decide_eq_true hsign
        omega
      next hsign =>
        have := of_decide_eq_false (Bool.eq_false_iff.2 hsign)
        omega

theorem eq_of_toBits {x y : Float} (h : x.toBits = y.toBits) : x = y := by
  obtain ⟨⟨bits, valid⟩⟩ := x
  obtain ⟨⟨bits', valid'⟩⟩ := y
  obtain rfl : bits = bits' := h
  rfl

/-- The text of a finite number without its sign. -/
def Layout.bodyText (layout : Layout) (mantissa : Nat) (scale : Int) : List Char :=
  let found := if mantissa = 0 then ⟨0, 0⟩ else shortest layout.tie mantissa scale
  let digits := digitsText found.digits
  if layout.positional (found.power + digits.length - 1) then
    positionalText layout.keepsPoint digits found.power
  else exponentText layout.signsExponent digits found.power

theorem write_of_finite (layout : Layout) {x : Float} {negative : Bool} {mantissa : Nat} {scale : Int}
    (h : Binary.ofFloat x = .finite negative mantissa scale) :
    (layout.write x).toList =
      if negative then '-' :: layout.bodyText mantissa scale else layout.bodyText mantissa scale := by
  unfold Layout.write
  rw [h]
  exact String.toList_ofList

/-- The text of a number reads as a decimal that rounds to the number. -/
theorem reads_bodyText (layout : Layout) (mantissa : Nat) (scale : Int) :
    ∃ x, Reads (layout.bodyText mantissa scale) x ∧ (mantissa = 0 → x = 0) ∧
      (Canonical mantissa scale → (Interval.of mantissa scale).Contains x) := by
  generalize hfound : (if mantissa = 0 then ⟨0, 0⟩ else shortest layout.tie mantissa scale) = found
  refine ⟨found.value, ?_, fun hzero => ?_, fun h => ?_⟩
  · unfold Layout.bodyText
    rw [hfound]
    dsimp only
    split
    · exact reads_positionalText _ _
    · exact reads_exponentText _ _
  · rw [if_pos hzero] at hfound
    rw [← hfound]
    norm_num [Digits.value]
  · rw [if_neg h.pos.ne'] at hfound
    rw [← hfound]
    exact contains_shortest h layout.tie

theorem Reads.unique {s : List Char} {x y : ℚ} (hx : Reads s x) (hy : Reads s y) : x = y := by
  obtain ⟨parts, hparts, rfl⟩ := hx
  obtain ⟨parts', hparts', rfl⟩ := hy
  rw [Option.some.inj (hparts.symm.trans hparts')]

/-- The parts of a number are told by its text: the sign stands in front, and the rest reads as a decimal
that rounds to no other number. -/
theorem parts_of_text (layout : Layout) {negative negative' : Bool} {mantissa mantissa' : Nat}
    {scale scale' : Int} (hcanonical : 0 < mantissa → Canonical mantissa scale)
    (hcanonical' : 0 < mantissa' → Canonical mantissa' scale')
    (h : (if negative then '-' :: layout.bodyText mantissa scale else layout.bodyText mantissa scale) =
      if negative' then '-' :: layout.bodyText mantissa' scale' else layout.bodyText mantissa' scale') :
    negative = negative' ∧ mantissa = mantissa' ∧ (0 < mantissa → scale = scale') := by
  obtain ⟨x, hreads, hzero, hcontains⟩ := reads_bodyText layout mantissa scale
  obtain ⟨y, hreads', hzero', hcontains'⟩ := reads_bodyText layout mantissa' scale'
  have hbody : negative = negative' ∧ layout.bodyText mantissa scale = layout.bodyText mantissa' scale' := by
    cases negative with
    | true =>
        cases negative' with
        | true => exact ⟨rfl, (List.cons.inj h).2⟩
        | false =>
            rw [if_pos rfl, if_neg Bool.false_ne_true] at h
            exact absurd (h ▸ hreads') (not_reads_minus _ _)
    | false =>
        cases negative' with
        | true =>
            rw [if_neg Bool.false_ne_true, if_pos rfl] at h
            exact absurd (h ▸ hreads) (not_reads_minus _ _)
        | false => exact ⟨rfl, h⟩
  obtain rfl : x = y := hreads.unique (hbody.2 ▸ hreads')
  refine ⟨hbody.1, ?_⟩
  rcases mantissa.eq_zero_or_pos with rfl | hpos
  · rcases mantissa'.eq_zero_or_pos with rfl | hpos'
    · exact ⟨rfl, fun h => absurd h (lt_irrefl 0)⟩
    · have := Interval.least_pos hpos' scale'
      have := (hcontains' (hcanonical' hpos')).least_le
      rw [hzero rfl] at this
      linarith
  · have hleast := Interval.least_pos hpos scale
    have hx := (hcontains (hcanonical hpos)).least_le
    rcases mantissa'.eq_zero_or_pos with rfl | hpos'
    · rw [hzero' rfl] at hx
      linarith
    · obtain ⟨hmantissa, hscale⟩ := Interval.eq_of_contains (hcanonical hpos) (hcanonical' hpos')
        (hcontains (hcanonical hpos)) (hcontains' (hcanonical' hpos'))
      exact ⟨hmantissa, fun _ => hscale⟩

/-- No two finite numbers have one text, in any layout. -/
theorem write_injective (layout : Layout) {x y : Float} (hx : x.isFinite = true)
    (hy : y.isFinite = true) (h : layout.write x = layout.write y) : x = y := by
  rw [← isFinite_ofFloat] at hx hy
  cases hxparts : Binary.ofFloat x with
  | finite negative mantissa scale =>
      cases hyparts : Binary.ofFloat y with
      | finite negative' mantissa' scale' =>
          have htexts := (write_of_finite layout hxparts).symm.trans
            ((congrArg String.toList h).trans (write_of_finite layout hyparts))
          obtain ⟨rfl, rfl, hscale⟩ := parts_of_text layout (canonical_of_ofFloat hxparts)
            (canonical_of_ofFloat hyparts) htexts
          apply eq_of_toBits
          rw [← UInt64.toNat_inj, toBits_of_ofFloat hxparts, toBits_of_ofFloat hyparts]
          rcases mantissa.eq_zero_or_pos with rfl | hpos
          · have hsmall : 0 < 2 ^ 52 := by norm_num
            rw [if_pos hsmall, if_pos hsmall]
          · rw [hscale hpos]
      | infinite negative => rw [hyparts] at hy; cases hy
      | nan => rw [hyparts] at hy; cases hy
  | infinite negative => rw [hxparts] at hx; cases hx
  | nan => rw [hxparts] at hx; cases hx

end Stencil.Decimal
