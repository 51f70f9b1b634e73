import Stencil.Json.Read
import Stencil.Proofs.Decimal.Written

/-!
The reader of JSON reads back every string that was quoted, character by character, and leaves what
follows it. So no two quoted strings are the start of one text.

JSON text tells values apart, except that host objects look like maps and that whatever is no finite
number looks like null. Where neither occurs in two values, their texts are equal only if they are. What
follows a value in a text starts with a mark that occurs in no number, so that the value ends where the
mark stands; this is what the induction over values carries along.
-/

namespace Stencil.Json

/-- The code of a control character, behind its mark. -/
theorem codedChar?_hexDigits {c : Char} (h : c.toNat < 0x20) (tail : List Char) :
    codedChar? (Digest.hexDigits c.toNat 4 ++ tail) = some (c, tail) := by
  have hcode : ∀ n < 0x20, (Digest.hexDigits n 4).length = 4 ∧
      Decimal.readDigits? 16 (Digest.hexDigits n 4) = some n := by
    decide
  obtain ⟨hlength, hread⟩ := hcode c.toNat h
  have htake : (Digest.hexDigits c.toNat 4 ++ tail).take 4 = Digest.hexDigits c.toNat 4 :=
    List.take_left' hlength
  have hdrop : (Digest.hexDigits c.toNat 4 ++ tail).drop 4 = tail := List.drop_left' hlength
  have hunit : unit? (Digest.hexDigits c.toNat 4 ++ tail) = some (c.toNat, tail) := by
    unfold unit?
    rw [htake, hdrop, hread, hlength]
    rfl
  unfold codedChar?
  rw [hunit]
  change (if 0xDC00 ≤ c.toNat ∧ c.toNat < 0xE000 then none
    else if 0xD800 ≤ c.toNat ∧ c.toNat < 0xDC00 then _ else some (Char.ofNat c.toNat, tail)) = _
  rw [if_neg (by omega), if_neg (by omega), Char.ofNat_toNat]

/-- The reader takes one character for its code. -/
theorem string?_code (turns : Nat) (taken : List Char) (c : Char) (tail : List Char) :
    string? (turns + 1) taken ((escape? c).getD [c] ++ tail) = string? turns (c :: taken) tail := by
  unfold escape?
  split
  · rfl
  · rfl
  · rfl
  · rfl
  · rfl
  · rfl
  · rfl
  next hquote hslash _ _ _ _ _ =>
    split
    next hcontrol =>
      change (codedChar? (Digest.hexDigits c.toNat 4 ++ tail)).bind _ = _
      rw [codedChar?_hexDigits hcontrol]
      rfl
    next hplain =>
      change string? (turns + 1) taken (c :: tail) = _
      rw [string?]
      · rw [if_neg hplain]
      · exact hquote
      · rintro rest rfl
        exact absurd rfl hslash
      · rintro d rest rfl
        exact absurd rfl hslash

/-- A quoted string is read back. -/
theorem string?_escaped (s taken tail : List Char) (turns : Nat) (h : s.length < turns) :
    string? turns taken (escaped s ++ '"' :: tail) =
      some (String.ofList (taken.reverse ++ s), tail) := by
  induction s generalizing taken turns with
  | nil =>
      obtain ⟨turns, rfl⟩ := Nat.exists_eq_succ_of_ne_zero (Nat.ne_of_gt h)
      rw [List.append_nil]
      rfl
  | cons c rest ih =>
      obtain ⟨turns, rfl⟩ := Nat.exists_eq_succ_of_ne_zero (Nat.ne_of_gt (Nat.zero_lt_of_lt h))
      unfold escaped
      rw [List.flatMap_cons, List.append_assoc, string?_code]
      refine (ih (c :: taken) turns (Nat.lt_of_succ_lt_succ h)).trans ?_
      rw [List.reverse_cons, List.append_assoc]
      rfl

/-- A text starts with one quoted string at the most. -/
theorem quote_append_inj {s s' : String} {tail tail' : List Char}
    (h : quote s ++ tail = quote s' ++ tail') : s = s' ∧ tail = tail' := by
  have hread (t : String) (rest : List Char) (turns : Nat) (hturns : t.toList.length < turns) :
      string? turns [] (escaped t.toList ++ ['"'] ++ rest) = some (t, rest) := by
    rw [List.append_assoc]
    refine (string?_escaped t.toList [] rest turns hturns).trans ?_
    rw [List.reverse_nil, List.nil_append, String.ofList_toList]
  have hbehind : escaped s.toList ++ ['"'] ++ tail = escaped s'.toList ++ ['"'] ++ tail' :=
    (List.cons.inj h).2
  have hsame := congrArg (string? (s.toList.length + s'.toList.length + 1) []) hbehind
  rw [hread s tail _ (by omega), hread s' tail' _ (by omega)] at hsame
  exact Prod.mk.inj (Option.some.inj hsame)

end Stencil.Json

namespace Stencil

open Decimal Text

namespace Value

mutual

/-- Whether no host object is in a value, and no number that is not finite. A finite number has its sign in
itself. -/
def isPlain : Value → Bool
  | .float x => x.number.isFinite && !x.negative
  | .list items => arePlain items
  | .map entries => entriesPlain entries
  | .object _ => false
  | _ => true

/-- Whether all items of a list are plain. -/
def arePlain : List Value → Bool
  | [] => true
  | item :: rest => item.isPlain && arePlain rest

/-- Whether all values of a map are plain. -/
def entriesPlain : List (String × Value) → Bool
  | [] => true
  | (_, value) :: rest => value.isPlain && entriesPlain rest

end

theorem entriesPlain_iff {entries : List (String × Value)} :
    entriesPlain entries = true ↔ ∀ entry ∈ entries, entry.2.isPlain = true := by
  induction entries with
  | nil => simp [entriesPlain]
  | cons entry rest ih => rw [entriesPlain, Bool.and_eq_true, ih, List.forall_mem_cons]

/-- A character that numbers are written with. -/
def isNumeral (c : Char) : Bool := isAsciiDigit c || ['-', '+', '.', 'e'].contains c

/-- A text at which a value can end: the end, or a mark between or behind values. -/
def Ends (tail : List Char) : Prop := ∀ c ∈ tail.head?, c = ',' ∨ c = ']' ∨ c = '}'

theorem ends_cons {c : Char} (h : c = ',' ∨ c = ']' ∨ c = '}') (rest : List Char) : Ends (c :: rest) := by
  rintro d ⟨⟩
  exact h

theorem isNumeral_of_isAsciiDigit {c : Char} (h : isAsciiDigit c = true) : isNumeral c = true := by
  unfold isNumeral
  rw [h, Bool.true_or]

/-- Numbers end where what follows them begins. -/
theorem numeral_append_inj {text text' tail tail' : List Char}
    (htext : ∀ c ∈ text, isNumeral c = true) (htext' : ∀ c ∈ text', isNumeral c = true)
    (htail : Ends tail) (htail' : Ends tail') (h : text ++ tail = text' ++ tail') :
    text = text' ∧ tail = tail' := by
  have hmark {c : Char} (hc : c = ',' ∨ c = ']' ∨ c = '}') : isNumeral c ≠ true := by
    rcases hc with rfl | rfl | rfl
    · decide
    · decide
    · decide
  have hspan {s rest : List Char} (hs : ∀ c ∈ s, isNumeral c = true) (hrest : Ends rest) :
      (s ++ rest).takeWhile isNumeral = s := by
    rw [List.takeWhile_append_of_pos hs]
    cases rest with
    | nil => rw [List.takeWhile_nil, List.append_nil]
    | cons c rest => rw [List.takeWhile_cons_of_neg (hmark (hrest c rfl)), List.append_nil]
  have hsame := hspan htext htail
  rw [h, hspan htext' htail'] at hsame
  exact ⟨hsame.symm, List.append_cancel_left (hsame ▸ h)⟩

section Numbers

theorem isNumeral_of_mem_intText {n : Int64} {c : Char} (h : c ∈ intText n) :
    c = '-' ∨ isAsciiDigit c = true := by
  have hdigits (m : Nat) (hc : c ∈ Nat.toDigits 10 m) : isAsciiDigit c = true :=
    isAsciiDigit_of_mem_digitsText hc
  unfold intText at h
  split at h
  · exact (List.mem_cons.1 h).imp_right (hdigits _)
  · exact Or.inr (hdigits _ h)

theorem intText_injective {n m : Int64} (h : intText n = intText m) : n = m := by
  have hread (k : Nat) : Nat.ofDigitChars 10 (Nat.toDigits 10 k) 0 = k := ofDigitChars_digitsText k
  have hminus (k : Nat) (rest : List Char) : Nat.toDigits 10 k ≠ '-' :: rest := fun heq => by
    have hmem : '-' ∈ digitsText k := by
      unfold digitsText
      rw [heq]
      exact List.mem_cons_self ..
    cases isAsciiDigit_of_mem_digitsText hmem
  unfold intText at h
  apply Int64.toInt_inj.1
  split at h
  next hn =>
    split at h
    next hm =>
      have := congrArg (Nat.ofDigitChars 10 · 0) (List.cons.inj h).2
      simp only [hread] at this
      omega
    next => exact absurd h.symm (hminus _ _)
  next hn =>
    split at h
    next => exact absurd h (hminus _ _)
    next hm =>
      have := congrArg (Nat.ofDigitChars 10 · 0) h
      simp only [hread] at this
      omega

theorem isNumeral_of_mem_positionalText {n : Nat} {power : Int} {c : Char}
    (h : c ∈ positionalText true (digitsText n) power) : isNumeral c = true := by
  have hdigits {c : Char} (hc : c ∈ digitsText n) : isNumeral c = true :=
    isNumeral_of_isAsciiDigit (isAsciiDigit_of_mem_digitsText hc)
  have hzeros {count : Nat} {c : Char} (hc : c ∈ List.replicate count '0') : isNumeral c = true :=
    isNumeral_of_isAsciiDigit (isAsciiDigit_of_mem_zeros hc)
  unfold positionalText at h
  dsimp only at h
  split at h
  · simp only [if_true, List.mem_append, List.mem_cons, List.not_mem_nil, or_false] at h
    rcases h with (h | h) | rfl | rfl
    · exact hdigits h
    · exact hzeros h
    · rfl
    · rfl
  · split at h
    · rcases List.mem_append.1 h with h | h
      · exact hdigits (List.mem_of_mem_take h)
      · rcases List.mem_cons.1 h with rfl | h
        · rfl
        · exact hdigits (List.mem_of_mem_drop h)
    · simp only [List.mem_append, List.mem_cons] at h
      rcases h with rfl | rfl | h | h
      · rfl
      · rfl
      · exact hzeros h
      · exact hdigits h

theorem isNumeral_of_mem_exponentText {n : Nat} {power : Int} {c : Char}
    (h : c ∈ exponentText true (digitsText n) power) : isNumeral c = true := by
  have hdigits {n : Nat} {c : Char} (hc : c ∈ digitsText n) : isNumeral c = true :=
    isNumeral_of_isAsciiDigit (isAsciiDigit_of_mem_digitsText hc)
  have hsign {exponent : Int} (hc : c ∈ exponentSign true exponent) : isNumeral c = true := by
    unfold exponentSign at hc
    split at hc
    · rw [List.mem_singleton.1 hc]
      rfl
    · rw [if_pos rfl] at hc
      rw [List.mem_singleton.1 hc]
      rfl
  have hdigits' {c : Char} (hc : c ∈ digitsText n) := hdigits hc
  unfold exponentText at h
  dsimp only at h
  generalize digitsText n = digits at h hdigits'
  rcases List.mem_append.1 h with h | h
  · split at h
    next first second rest _ =>
      rcases List.mem_cons.1 h with rfl | h
      · exact hdigits' (List.mem_cons_self ..)
      · rcases List.mem_cons.1 h with rfl | h
        · rfl
        · exact hdigits' (List.mem_cons_of_mem first h)
    next => exact hdigits' h
  · rcases List.mem_cons.1 h with rfl | h
    · rfl
    · rcases List.mem_append.1 h with h | h
      · exact hsign h
      · exact hdigits h

/-- A finite number in JSON consists of the characters of numbers, and a point or an exponent tells it from
the integers. -/
theorem numeral_of_finite {x : Float} (h : x.isFinite = true) :
    (∀ c ∈ (jsonLayout.write x).toList, isNumeral c = true) ∧
      ('.' ∈ (jsonLayout.write x).toList ∨ 'e' ∈ (jsonLayout.write x).toList) := by
  rw [← isFinite_ofFloat] at h
  cases hparts : Binary.ofFloat x with
  | finite negative mantissa scale =>
      have hbody : (∀ c ∈ jsonLayout.bodyText mantissa scale, isNumeral c = true) ∧
          ('.' ∈ jsonLayout.bodyText mantissa scale ∨ 'e' ∈ jsonLayout.bodyText mantissa scale) := by
        unfold Layout.bodyText
        generalize (if mantissa = 0 then (⟨0, 0⟩ : Digits) else shortest jsonLayout.tie mantissa scale) =
          found
        dsimp only
        split
        · refine ⟨fun c => isNumeral_of_mem_positionalText, Or.inl ?_⟩
          unfold positionalText jsonLayout
          dsimp only
          split
          · simp
          · split
            · simp
            · simp
        · refine ⟨fun c => isNumeral_of_mem_exponentText, Or.inr ?_⟩
          exact List.mem_append_right _ (List.mem_cons_self ..)
      rw [write_of_finite jsonLayout hparts]
      cases negative with
      | false => exact hbody
      | true =>
          rw [if_pos rfl]
          refine ⟨fun c hc => ?_, hbody.2.imp (List.mem_cons_of_mem _) (List.mem_cons_of_mem _)⟩
          rcases List.mem_cons.1 hc with rfl | hc
          · rfl
          · exact hbody.1 c hc
  | infinite negative => rw [hparts] at h; cases h
  | nan => rw [hparts] at h; cases h

end Numbers

/-- The kind of the values whose texts start with a character. Numbers look alike; a mark that starts no
value stands for an object, which has no text of its own. -/
def startKind (c : Char) : ValueKind :=
  if c = 'n' then .null
  else if c = 't' ∨ c = 'f' then .bool
  else if c = '"' then .string
  else if c = '[' then .list
  else if c = '\x7b' then .map
  else if isNumeral c then .int
  else .object

/-- The kind of a value as far as the start of its text tells it. -/
def shownKind : Value → ValueKind
  | .float _ => .int
  | other => other.kind

theorem startKind_of_isNumeral {c : Char} (h : isNumeral c = true) : startKind c = .int := by
  have hother : ['n', 't', 'f', '"', '[', '\x7b'].all (!isNumeral ·) = true := by decide
  have hne {d : Char} (hd : d ∈ ['n', 't', 'f', '"', '[', '\x7b']) : c ≠ d := by
    rintro rfl
    exact Bool.eq_false_iff.1 ((Bool.not_eq_true' _).mp (List.all_eq_true.1 hother c hd)) h
  unfold startKind
  rw [if_neg (hne (by decide)), if_neg (not_or.2 ⟨hne (by decide), hne (by decide)⟩),
    if_neg (hne (by decide)), if_neg (hne (by decide)), if_neg (hne (by decide)), if_pos h]

theorem exists_start {v : Value} (h : v.isPlain = true) :
    ∃ c rest, v.jsonText = c :: rest ∧ startKind c = v.shownKind := by
  have hnumber {text : List Char} (hne : text ≠ []) (htext : ∀ c ∈ text, isNumeral c = true) :
      ∃ c rest, text = c :: rest ∧ startKind c = .int := by
    obtain ⟨c, rest, rfl⟩ := List.exists_cons_of_ne_nil hne
    exact ⟨c, rest, rfl, startKind_of_isNumeral (htext c (List.mem_cons_self ..))⟩
  cases v with
  | null => exact ⟨_, _, rfl, rfl⟩
  | bool b =>
      cases b with
      | false => exact ⟨_, _, rfl, rfl⟩
      | true => exact ⟨_, _, rfl, rfl⟩
  | int n =>
      refine hnumber ?_ fun c hc => ?_
      · unfold jsonText intText
        split
        · exact List.cons_ne_nil _ _
        · exact Nat.toDigits_ne_nil
      · rcases isNumeral_of_mem_intText hc with rfl | hc
        · rfl
        · exact isNumeral_of_isAsciiDigit hc
  | float x =>
      unfold isPlain at h
      obtain ⟨htext, hmark⟩ := numeral_of_finite (Bool.and_eq_true_iff.1 h).1
      refine hnumber ?_ htext
      rcases hmark with hmark | hmark
      · exact List.ne_nil_of_mem hmark
      · exact List.ne_nil_of_mem hmark
  | string s => exact ⟨_, _, rfl, rfl⟩
  | list items => exact ⟨_, _, rfl, rfl⟩
  | map entries => exact ⟨_, _, rfl, rfl⟩
  | object o => cases h

/-- Texts with one start are of values of one kind. -/
theorem shownKind_eq {v v' : Value} (hv : v.isPlain = true) (hv' : v'.isPlain = true)
    {tail tail' : List Char} (h : v.jsonText ++ tail = v'.jsonText ++ tail') :
    v.shownKind = v'.shownKind := by
  obtain ⟨c, rest, htext, hkind⟩ := exists_start hv
  obtain ⟨c', rest', htext', hkind'⟩ := exists_start hv'
  rw [htext, htext'] at h
  rw [← hkind, ← hkind', (List.cons.inj h).1]

/-- No value starts with a mark. -/
theorem ne_mark {v : Value} (hv : v.isPlain = true) {c : Char} (hc : startKind c = .object)
    {tail tail' : List Char} : v.jsonText ++ tail ≠ c :: tail' := by
  intro h
  obtain ⟨d, rest, htext, hkind⟩ := exists_start hv
  rw [htext] at h
  rw [(List.cons.inj h).1, hc] at hkind
  cases v with
  | object o => cases hv
  | _ => cases hkind

/-- A finite number is no integer, and no other number. -/
theorem number_append_inj {v v' : Value} (hv : v.isPlain = true) (hv' : v'.isPlain = true)
    (hint : v.shownKind = .int) (hint' : v'.shownKind = .int) {tail tail' : List Char}
    (htail : Ends tail) (htail' : Ends tail') (h : v.jsonText ++ tail = v'.jsonText ++ tail') :
    v = v' ∧ tail = tail' := by
  have hinteger (n : Int64) (c : Char) (hc : c ∈ intText n) : isNumeral c = true := by
    rcases isNumeral_of_mem_intText hc with rfl | hc
    · rfl
    · exact isNumeral_of_isAsciiDigit hc
  have hfloat {x : Floating} (hx : (Value.float x).isPlain = true) :
      x.number.isFinite = true ∧ x.negative = false := by
    unfold isPlain at hx
    rw [Bool.and_eq_true, Bool.not_eq_true'] at hx
    exact hx
  have hdiffer {n : Int64} {x : Floating} (hx : (Value.float x).isPlain = true) :
      intText n ≠ (jsonLayout.write x.number).toList := by
    intro heq
    rcases (numeral_of_finite (hfloat hx).1).2 with hmark | hmark
    · rcases isNumeral_of_mem_intText (heq ▸ hmark) with hminus | hdigit
      · cases hminus
      · cases hdigit
    · rcases isNumeral_of_mem_intText (heq ▸ hmark) with hminus | hdigit
      · cases hminus
      · cases hdigit
  cases v with
  | int n =>
      cases v' with
      | int m =>
          obtain ⟨htext, htails⟩ := numeral_append_inj (hinteger n) (hinteger m) htail htail' h
          exact ⟨congrArg Value.int (intText_injective htext), htails⟩
      | float x =>
          obtain ⟨htext, -⟩ := numeral_append_inj (hinteger n) (numeral_of_finite (hfloat hv').1).1
            htail htail' h
          exact absurd htext (hdiffer hv')
      | _ => cases hint'
  | float x =>
      cases v' with
      | int m =>
          obtain ⟨htext, -⟩ := numeral_append_inj (numeral_of_finite (hfloat hv).1).1 (hinteger m)
            htail htail' h
          exact absurd htext.symm (hdiffer hv)
      | float y =>
          obtain ⟨htext, htails⟩ := numeral_append_inj (numeral_of_finite (hfloat hv).1).1
            (numeral_of_finite (hfloat hv').1).1 htail htail' h
          obtain ⟨number, negative⟩ := x
          obtain ⟨number', negative'⟩ := y
          obtain rfl : number = number' :=
            write_injective jsonLayout (hfloat hv).1 (hfloat hv').1 (String.toList_inj.1 htext)
          obtain rfl : negative = false := (hfloat hv).2
          obtain rfl : negative' = false := (hfloat hv').2
          exact ⟨rfl, htails⟩
      | _ => cases hint'
  | _ => cases hint

theorem jsonItems_cons (item : Value) (rest : List Value) :
    jsonItems (item :: rest) =
      item.jsonText ++ (if rest.isEmpty then [] else ',' :: jsonItems rest) := by
  cases rest with
  | nil => simp [jsonItems]
  | cons next more =>
      rw [jsonItems]
      · rfl
      · exact List.cons_ne_nil _ _

theorem jsonEntries_cons (key : String) (value : Value) (rest : List (String × Value)) :
    jsonEntries ((key, value) :: rest) = Json.quote key ++ ':' ::
      (value.jsonText ++ (if rest.isEmpty then [] else ',' :: jsonEntries rest)) := by
  cases rest with
  | nil => simp [jsonEntries]
  | cons next more =>
      rw [jsonEntries]
      · rfl
      · exact List.cons_ne_nil _ _

section More

variable {α : Type} {write : List α → List Char} {mark : Char}

theorem ends_more (hmark : mark = ']' ∨ mark = '}') (rest : List α) (tail : List Char) :
    Ends ((if rest.isEmpty then [] else ',' :: write rest) ++ mark :: tail) := by
  cases rest with
  | nil => exact ends_cons (Or.inr hmark) _
  | cons next more => exact ends_cons (Or.inl rfl) _

/-- Behind the first of several things a comma tells that there are more. -/
theorem more_append_inj (hmark : mark = ']' ∨ mark = '}') {rest rest' : List α} {tail tail' : List Char}
    (hrest : write rest ++ mark :: tail = write rest' ++ mark :: tail' → rest = rest' ∧ tail = tail')
    (h : (if rest.isEmpty then [] else ',' :: write rest) ++ mark :: tail =
      (if rest'.isEmpty then [] else ',' :: write rest') ++ mark :: tail') :
    rest = rest' ∧ tail = tail' := by
  have hcomma : mark ≠ ',' := by
    rcases hmark with rfl | rfl
    · decide
    · decide
  cases rest with
  | nil =>
      cases rest' with
      | nil => exact ⟨rfl, (List.cons.inj h).2⟩
      | cons next' more' => exact absurd (List.cons.inj h).1 hcomma
  | cons next more =>
      cases rest' with
      | nil => exact absurd (List.cons.inj h).1.symm hcomma
      | cons next' more' => exact hrest (List.cons.inj h).2

end More

mutual

/-- A text starts with one plain value at the most, if what follows can follow a value. -/
theorem jsonText_append_inj : (v v' : Value) → v.isPlain = true → v'.isPlain = true →
    {tail tail' : List Char} → Ends tail → Ends tail' →
    v.jsonText ++ tail = v'.jsonText ++ tail' → v = v' ∧ tail = tail'
  | .null, v', hv, hv', tail, tail', _, _, h => by
      have hkind := shownKind_eq hv hv' h
      cases v' with
      | null => exact ⟨rfl, List.append_cancel_left h⟩
      | _ => cases hkind
  | .bool b, v', hv, hv', tail, tail', _, _, h => by
      have hkind := shownKind_eq hv hv' h
      cases v' with
      | bool b' =>
          cases b with
          | false =>
              cases b' with
              | false => exact ⟨rfl, List.append_cancel_left h⟩
              | true => exact absurd (List.cons.inj h).1 (by decide)
          | true =>
              cases b' with
              | false => exact absurd (List.cons.inj h).1 (by decide)
              | true => exact ⟨rfl, List.append_cancel_left h⟩
      | _ => cases hkind
  | .int n, v', hv, hv', tail, tail', htail, htail', h =>
      number_append_inj hv hv' rfl (shownKind_eq hv hv' h).symm htail htail' h
  | .float x, v', hv, hv', tail, tail', htail, htail', h =>
      number_append_inj hv hv' rfl (shownKind_eq hv hv' h).symm htail htail' h
  | .string s, v', hv, hv', tail, tail', _, _, h => by
      have hkind := shownKind_eq hv hv' h
      cases v' with
      | string s' =>
          obtain ⟨rfl, htails⟩ := Json.quote_append_inj h
          exact ⟨rfl, htails⟩
      | _ => cases hkind
  | .list items, v', hv, hv', tail, tail', _, _, h => by
      have hkind := shownKind_eq hv hv' h
      cases v' with
      | list items' =>
          unfold isPlain at hv hv'
          have hitems : jsonItems items ++ ']' :: tail = jsonItems items' ++ ']' :: tail' := by
            simpa [jsonText] using h
          obtain ⟨rfl, htails⟩ := jsonItems_append_inj items items' hv hv' hitems
          exact ⟨rfl, htails⟩
      | _ => cases hkind
  | .map entries, v', hv, hv', tail, tail', _, _, h => by
      have hkind := shownKind_eq hv hv' h
      cases v' with
      | map entries' =>
          unfold isPlain at hv hv'
          have hentries : jsonEntries entries ++ '}' :: tail = jsonEntries entries' ++ '}' :: tail' := by
            simpa [jsonText] using h
          obtain ⟨rfl, htails⟩ := jsonEntries_append_inj entries entries' hv hv' hentries
          exact ⟨rfl, htails⟩
      | _ => cases hkind
  | .object _, _, hv, _, _, _, _, _, _ => by cases hv

theorem jsonItems_append_inj : (items items' : List Value) → arePlain items = true →
    arePlain items' = true → {tail tail' : List Char} →
    jsonItems items ++ ']' :: tail = jsonItems items' ++ ']' :: tail' → items = items' ∧ tail = tail'
  | [], [], _, _, _, _, h => ⟨rfl, (List.cons.inj h).2⟩
  | [], item' :: rest', _, hplain', tail, tail', h => by
      rw [arePlain, Bool.and_eq_true] at hplain'
      rw [jsonItems_cons, List.append_assoc] at h
      exact absurd h.symm (ne_mark hplain'.1 rfl)
  | item :: rest, [], hplain, _, tail, tail', h => by
      rw [arePlain, Bool.and_eq_true] at hplain
      rw [jsonItems_cons, List.append_assoc] at h
      exact absurd h (ne_mark hplain.1 rfl)
  | item :: rest, item' :: rest', hplain, hplain', tail, tail', h => by
      rw [arePlain, Bool.and_eq_true] at hplain hplain'
      rw [jsonItems_cons, jsonItems_cons, List.append_assoc, List.append_assoc] at h
      obtain ⟨rfl, hmore⟩ := jsonText_append_inj item item' hplain.1 hplain'.1
        (ends_more (Or.inl rfl) rest tail) (ends_more (Or.inl rfl) rest' tail') h
      obtain ⟨rfl, htails⟩ := more_append_inj (Or.inl rfl)
        (jsonItems_append_inj rest rest' hplain.2 hplain'.2) hmore
      exact ⟨rfl, htails⟩

theorem jsonEntries_append_inj : (entries entries' : List (String × Value)) →
    entriesPlain entries = true → entriesPlain entries' = true → {tail tail' : List Char} →
    jsonEntries entries ++ '}' :: tail = jsonEntries entries' ++ '}' :: tail' →
    entries = entries' ∧ tail = tail'
  | [], [], _, _, _, _, h => ⟨rfl, (List.cons.inj h).2⟩
  | [], (key', value') :: rest', _, _, tail, tail', h => by
      rw [jsonEntries_cons] at h
      exact absurd (List.cons.inj h).1 (by decide)
  | (key, value) :: rest, [], _, _, tail, tail', h => by
      rw [jsonEntries_cons] at h
      exact absurd (List.cons.inj h).1 (by decide)
  | (key, value) :: rest, (key', value') :: rest', hplain, hplain', tail, tail', h => by
      rw [entriesPlain, Bool.and_eq_true] at hplain hplain'
      rw [jsonEntries_cons, jsonEntries_cons, List.append_assoc, List.append_assoc] at h
      obtain ⟨rfl, hvalues⟩ := Json.quote_append_inj h
      have hvalues := (List.cons.inj hvalues).2
      change value.jsonText ++ _ ++ _ = value'.jsonText ++ _ ++ _ at hvalues
      rw [List.append_assoc, List.append_assoc] at hvalues
      obtain ⟨rfl, hmore⟩ := jsonText_append_inj value value' hplain.1 hplain'.1
        (ends_more (Or.inr rfl) rest tail) (ends_more (Or.inr rfl) rest' tail') hvalues
      obtain ⟨rfl, htails⟩ := more_append_inj (Or.inr rfl)
        (jsonEntries_append_inj rest rest' hplain.2 hplain'.2) hmore
      exact ⟨rfl, htails⟩

end

/-- Plain values have different texts. -/
theorem json_injective {v v' : Value} (hv : v.isPlain = true) (hv' : v'.isPlain = true)
    (h : v.json = v'.json) : v = v' := by
  have hends : Ends [] := fun c hc => by cases hc
  refine (jsonText_append_inj v v' hv hv' hends hends ?_).1
  rw [List.append_nil, List.append_nil]
  exact String.ofList_injective h

end Value

end Stencil
