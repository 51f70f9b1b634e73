import Stencil.Text.Case

/-!
Lower case read backwards: which characters and texts have a given lower case. The table of runs is
searched for the runs that lead to a code.
-/

namespace Stencil.Text

/-- A counterpart stems from a run of the table. -/
theorem exists_run_of_counterpart? {code target : Nat} {runs : List CaseRun}
    (h : counterpart? code runs = some target) :
    ∃ run ∈ runs, run.first ≤ code ∧ code ≤ run.last ∧ (code - run.first) % run.step = 0 ∧
      (code + run.shift).toNat = target := by
  induction runs with
  | nil => cases h
  | cons run rest ih =>
      rw [counterpart?] at h
      split at h
      · cases h
      · split at h
        next hlow hrun =>
          exact ⟨run, List.mem_cons_self .., Nat.le_of_not_lt hlow, hrun.1, hrun.2, Option.some.inj h⟩
        next =>
          obtain ⟨found, hmem, hfound⟩ := ih h
          exact ⟨found, List.mem_cons_of_mem _ hmem, hfound⟩

theorem eq_of_ofNat_eq {code : Nat} {c : Char} (h : Char.ofNat code = c) (hc : c.toNat ≠ 0) :
    code = c.toNat := by
  subst h
  unfold Char.ofNat at hc ⊢
  by_cases hcode : code.isValidChar
  · rw [dif_pos hcode]
    rfl
  · rw [dif_neg hcode] at hc
    exact absurd rfl hc

theorem mem_of_lookup {code : Nat} {codes : List Nat} {entries : List (Nat × List Nat)}
    (h : entries.lookup code = some codes) : (code, codes) ∈ entries := by
  obtain ⟨front, back, rfl, -⟩ := List.lookup_eq_some_iff.1 h
  exact List.mem_append_right _ (List.mem_cons_self ..)

/-- Where a character stands with its lower case: it has none of its own, or a run of the table leads to it, or
it is one of those with several characters. -/
theorem lowerChar_cases {c first : Char} {more : List Char} (h : lowerChar c = first :: more) :
    (c = first ∧ more = []) ∨
    ((∃ run ∈ lowerRuns, run.first ≤ c.toNat ∧ c.toNat ≤ run.last ∧
      first = Char.ofNat (c.toNat + run.shift).toNat) ∧ more = []) ∨
    ∃ entry ∈ lowerExpansions, entry.2.map Char.ofNat = first :: more := by
  unfold lowerChar counterpart at h
  split at h
  next code hcode =>
    obtain ⟨run, hmem, hfirst, hlast, -, rfl⟩ := exists_run_of_counterpart? hcode
    obtain ⟨rfl, rfl⟩ := List.cons.inj h
    exact Or.inr (Or.inl ⟨⟨run, hmem, hfirst, hlast, rfl⟩, rfl⟩)
  next =>
    split at h
    next codes hcodes => exact Or.inr (Or.inr ⟨_, mem_of_lookup hcodes, h⟩)
    next =>
      obtain ⟨rfl, rfl⟩ := List.cons.inj h
      exact Or.inl ⟨rfl, rfl⟩

/-- Three characters have the lower case of the letter k, the sign of the kelvin among them. -/
theorem eq_of_lowerChar_eq_k {c : Char} (h : lowerChar c = ['k']) :
    c = 'k' ∨ c = 'K' ∨ c = '\u212a' := by
  have htable : ∀ run ∈ lowerRuns, (0x6B - run.shift < run.first ∨ run.last < 0x6B - run.shift) ∨
      0x6B - run.shift = 0x4B ∨ 0x6B - run.shift = 0x212A := by
    decide +kernel
  have hexpansions : ∀ entry ∈ lowerExpansions, entry.2.map Char.ofNat ≠ ['k'] := by
    decide
  rcases lowerChar_cases h with ⟨rfl, -⟩ | ⟨⟨run, hmem, hfirst, hlast, hk⟩, -⟩ | ⟨entry, hmem, hentry⟩
  · exact Or.inl rfl
  · have hcode : (c.toNat + run.shift).toNat = 0x6B := eq_of_ofNat_eq hk.symm (by decide)
    have hrun := htable run hmem
    have hc : c.toNat = 0x4B ∨ c.toNat = 0x212A := by omega
    refine Or.inr (hc.imp (fun hupper => ?_) fun hkelvin => ?_)
    · rw [← Char.ofNat_toNat c, hupper]
    · rw [← Char.ofNat_toNat c, hkelvin]
  · exact absurd hentry (hexpansions entry hmem)

theorem lowerChar_ne_nil (c : Char) : lowerChar c ≠ [] := by
  have hexpansions : ∀ entry ∈ lowerExpansions, entry.2.map Char.ofNat ≠ [] := by
    decide
  unfold lowerChar counterpart
  split
  · exact List.cons_ne_nil _ _
  · split
    next codes hcodes => exact hexpansions _ (mem_of_lookup hcodes)
    next => exact List.cons_ne_nil _ _

theorem lowerAfter_eq_nil {before s : List Char} (h : lowerAfter before s = []) : s = [] := by
  cases s with
  | nil => rfl
  | cons c rest =>
      rw [lowerAfter] at h
      split at h
      · exact absurd h (List.cons_ne_nil _ _)
      · exact absurd (List.append_eq_nil_iff.1 h).1 (lowerChar_ne_nil c)

theorem lowerSigma_ne_k (before after : List Char) : lowerSigma before after ≠ 'k' := by
  unfold lowerSigma
  split
  · decide
  · decide

theorem eq_of_lower_eq_k {s : List Char} (h : lower s = ['k']) :
    s = ['k'] ∨ s = ['K'] ∨ s = ['\u212a'] := by
  cases s with
  | nil => cases h
  | cons c rest =>
      rw [lower, lowerAfter] at h
      split at h
      · exact absurd (List.cons.inj h).1 (lowerSigma_ne_k [] rest)
      · rcases hchar : lowerChar c with _ | ⟨first, more⟩
        · exact absurd hchar (lowerChar_ne_nil c)
        · rw [hchar] at h
          obtain ⟨rfl, htail⟩ := List.cons.inj h
          obtain ⟨rfl, hrest⟩ := List.append_eq_nil_iff.1 htail
          rw [lowerAfter_eq_nil hrest]
          rcases eq_of_lowerChar_eq_k hchar with rfl | rfl | rfl
          · exact Or.inl rfl
          · exact Or.inr (Or.inl rfl)
          · exact Or.inr (Or.inr rfl)

/-- A basic letter that begins the lower case of no character but its own two cases. -/
def isFaithful (letter : Char) : Bool :=
  letter.toLower == letter && letter != '\x00' && letter != 'ς' && letter != 'σ' &&
    (lowerRuns.all fun run =>
      letter.toNat - run.shift < run.first || run.last < letter.toNat - run.shift ||
        (Char.ofNat (letter.toNat - run.shift).toNat).toLower == letter) &&
    lowerExpansions.all fun entry => entry.2.head?.map Char.ofNat != some letter

theorem toLower_of_lowerChar {c letter : Char} {more : List Char} (hletter : isFaithful letter = true)
    (h : lowerChar c = letter :: more) : c.toLower = letter ∧ more = [] := by
  simp only [isFaithful, Bool.and_eq_true, List.all_eq_true, Bool.or_eq_true, decide_eq_true_eq, bne_iff_ne,
    beq_iff_eq] at hletter
  obtain ⟨⟨⟨⟨⟨hlower, hzero⟩, -⟩, -⟩, htable⟩, hexpansions⟩ := hletter
  rcases lowerChar_cases h with ⟨rfl, hmore⟩ | ⟨⟨run, hmem, hfirst, hlast, heq⟩, hmore⟩ | ⟨entry, hmem, hentry⟩
  · exact ⟨hlower, hmore⟩
  · have hnonzero : letter.toNat ≠ 0 := fun hnull => hzero <| by rw [← Char.ofNat_toNat letter, hnull]
    have hcode : (c.toNat + run.shift).toNat = letter.toNat := eq_of_ofNat_eq heq.symm hnonzero
    have hc : (letter.toNat - run.shift).toNat = c.toNat := by omega
    have hrun := htable run hmem
    rw [hc, Char.ofNat_toNat] at hrun
    exact ⟨hrun.resolve_left (by omega), hmore⟩
  · refine absurd ?_ (hexpansions entry hmem)
    rw [← List.head?_map, hentry]
    rfl

theorem not_isFaithful_lowerSigma (before after : List Char) : isFaithful (lowerSigma before after) = false := by
  unfold lowerSigma
  split
  · rfl
  · rfl

theorem asciiLower_of_lowerAfter {before word s : List Char} (hword : word.all isFaithful = true)
    (h : lowerAfter before s = word) : asciiLower s = word := by
  induction s generalizing before word with
  | nil => exact h
  | cons c rest ih =>
      rw [lowerAfter] at h
      split at h
      next =>
        rw [← h, List.all_cons, not_isFaithful_lowerSigma] at hword
        cases hword
      next =>
        rcases hchar : lowerChar c with _ | ⟨first, more⟩
        · exact absurd hchar (lowerChar_ne_nil c)
        · rw [hchar] at h
          rw [← h, List.cons_append, List.all_cons, Bool.and_eq_true] at hword
          obtain ⟨hfirst, rfl⟩ := toLower_of_lowerChar hword.1 hchar
          rw [← h, ← hfirst]
          exact congrArg (c.toLower :: ·) (ih hword.2 rfl)

/-- What has a word of faithful letters for its lower case differs from it in the case of letters alone. -/
theorem asciiLower_of_lower {word s : List Char} (hword : word.all isFaithful = true) (h : lower s = word) :
    asciiLower s = word :=
  asciiLower_of_lowerAfter hword h

section Basic

/-- What does not tell the cases of basic letters apart does not tell any character from itself in lower case. -/
theorem apply_toLower {β : Type} {f : Char → β} (h : ∀ n < 128, f (Char.ofNat n).toLower = f (Char.ofNat n))
    (c : Char) : f c.toLower = f c := by
  unfold Char.toLower
  split
  next hupper =>
    have hle : c.val.toNat ≤ 90 := hupper.2
    have hbasic := h c.toNat (by change c.val.toNat < 128; omega)
    rw [Char.ofNat_toNat] at hbasic
    unfold Char.toLower at hbasic
    rw [dif_pos hupper] at hbasic
    exact hbasic
  next => rfl

theorem meetsCased_asciiLower (s : List Char) : meetsCased (asciiLower s) = meetsCased s := by
  have hcased : ∀ c, isCased c.toLower = isCased c := apply_toLower (by decide +kernel)
  have hignorable : ∀ c, isCaseIgnorable c.toLower = isCaseIgnorable c := apply_toLower (by decide +kernel)
  unfold meetsCased asciiLower
  rw [List.dropWhile_map]
  have hsame : isCaseIgnorable ∘ Char.toLower = isCaseIgnorable := funext hignorable
  rw [hsame]
  cases s.dropWhile isCaseIgnorable with
  | nil => rfl
  | cons c rest => exact hcased c

/-- The lower case of a text is that of its basic letters in lower case. -/
theorem lower_asciiLower (s : List Char) : lower (asciiLower s) = lower s := by
  have hchar : ∀ c, lowerChar c.toLower = lowerChar c := apply_toLower (by decide +kernel)
  have hsigma : ∀ c : Char, (c.toLower == 'Σ') = (c == 'Σ') := @apply_toLower _ (· == 'Σ') (by decide +kernel)
  have hafter (before : List Char) : lowerAfter (asciiLower before) (asciiLower s) = lowerAfter before s := by
    induction s generalizing before with
    | nil => rfl
    | cons c rest ih =>
        have hrest := ih (c :: before)
        change lowerAfter (c.toLower :: asciiLower before) (asciiLower rest) = _ at hrest
        change lowerAfter (asciiLower before) (c.toLower :: asciiLower rest) = _
        rw [lowerAfter, lowerAfter, hrest, hchar]
        have hiff : c.toLower = 'Σ' ↔ c = 'Σ' := by rw [← beq_iff_eq, hsigma, beq_iff_eq]
        simp only [hiff]
        unfold lowerSigma
        rw [meetsCased_asciiLower, meetsCased_asciiLower]
  exact hafter []

theorem lowercase_eq_of_sameName {name other : String} (h : sameName name other = true) :
    lowercase name = lowercase other := by
  have hsame : asciiLower name.toList = asciiLower other.toList := eq_of_beq h
  unfold lowercase
  rw [← lower_asciiLower, hsame, lower_asciiLower]

/-- Among the basic characters only the case of letters changes. -/
theorem lower_eq_asciiLower {s : List Char} (h : ∀ c ∈ s, c.toNat < 128) : lower s = asciiLower s := by
  have hchar : ∀ n < 128, lowerChar (Char.ofNat n) = [(Char.ofNat n).toLower] := by
    decide +kernel
  have hafter (before : List Char) : lowerAfter before s = asciiLower s := by
    induction s generalizing before with
    | nil => rfl
    | cons c rest ih =>
        have hc := h c (List.mem_cons_self ..)
        have hsigma : c ≠ 'Σ' := by
          rintro rfl
          exact absurd hc (by decide)
        have hlower := hchar c.toNat hc
        rw [Char.ofNat_toNat] at hlower
        rw [lowerAfter, if_neg hsigma, hlower, ih (fun d hd => h d (List.mem_cons_of_mem c hd))]
        rfl
  exact hafter []

end Basic

section Settled

/-- Whether the codes `low`, `low + step`, … up to `high` pass by all runs: below them, above them, or between
their steps. The comparisons are those that are computed fast. -/
def passBy (low high step : Nat) : List CaseRun → Bool
  | [] => true
  | run :: rest =>
      Nat.blt high run.first ||
        (Nat.blt run.last low ||
          (Nat.beq run.step 2 && (Nat.beq step 2 || Nat.beq low high) && Nat.beq ((low + run.first) % 2) 1)) &&
          passBy low high step rest

theorem counterpart?_eq_none {low high step code : Nat} {runs : List CaseRun}
    (h : passBy low high step runs = true) (hlow : low ≤ code) (hhigh : code ≤ high)
    (hstep : (code - low) % step = 0) : counterpart? code runs = none := by
  induction runs with
  | nil => rfl
  | cons run rest ih =>
      simp only [passBy, Bool.or_eq_true, Bool.and_eq_true, Nat.blt_eq, Nat.beq_eq] at h
      rw [counterpart?]
      split
      · rfl
      · rcases h with hbelow | ⟨hpass, hrest⟩
        · omega
        · rw [if_neg ?_, ih hrest]
          rintro ⟨hlast, hon⟩
          rcases hpass with habove | ⟨⟨htwo, htwo' | hone⟩, hparity⟩
          · omega
          · rw [htwo] at hon
            rw [htwo'] at hstep
            omega
          · rw [htwo] at hon
            omega

theorem lowerChar_eq_self {c : Char} (hrun : counterpart? c.toNat lowerRuns = none)
    (hexpansion : lowerExpansions.lookup c.toNat = none) : lowerChar c = [c] := by
  unfold lowerChar counterpart
  rw [hrun, hexpansion]

/-- What a run leads to has no lower case of its own. -/
theorem lowerChar_of_run {run : CaseRun} (hrun : run ∈ lowerRuns) {code : Nat} (hfirst : run.first ≤ code)
    (hlast : code ≤ run.last) (hstep : (code - run.first) % run.step = 0) :
    lowerChar (Char.ofNat (code + run.shift).toNat) = [Char.ofNat (code + run.shift).toNat] := by
  have hruns : (lowerRuns.all fun run =>
      passBy (run.first + run.shift).toNat (run.last + run.shift).toNat run.step lowerRuns) = true := by
    decide +kernel
  have hpass : passBy (run.first + run.shift).toNat (run.last + run.shift).toNat run.step lowerRuns = true :=
    List.all_eq_true.1 hruns run hrun
  have hexpansions : ∀ run ∈ lowerRuns, 0 ≤ run.first + run.shift ∧
      ∀ entry ∈ lowerExpansions, run.last + run.shift < entry.1 ∨ entry.1 < run.first + run.shift := by
    decide +kernel
  obtain ⟨hpos, hexpansion⟩ := hexpansions run hrun
  by_cases hvalid : (code + run.shift).toNat.isValidChar
  · have hcode : (Char.ofNat (code + run.shift).toNat).toNat = (code + run.shift).toNat := by
      unfold Char.ofNat
      rw [dif_pos hvalid]
      rfl
    refine lowerChar_eq_self ?_ ?_
    · have hsame : (code + run.shift).toNat - (run.first + run.shift).toNat = code - run.first := by omega
      rw [hcode]
      exact counterpart?_eq_none hpass (by omega) (by omega) (hsame ▸ hstep)
    · rw [hcode, ← Option.not_isSome_iff_eq_none]
      intro hsome
      obtain ⟨codes, hcodes⟩ := Option.isSome_iff_exists.1 hsome
      have hentry := hexpansion _ (mem_of_lookup hcodes)
      dsimp only at hentry
      omega
  · have hnull : Char.ofNat (code + run.shift).toNat = '\x00' := (dif_neg hvalid).trans rfl
    rw [hnull]
    rfl

/-- A lower case is its own lower case. -/
theorem lowerChar_of_mem {c d : Char} (h : d ∈ lowerChar c) : lowerChar d = [d] := by
  have hexpansions : ∀ entry ∈ lowerExpansions,
      (entry.2.map Char.ofNat).all (fun d => lowerChar d == [d]) = true := by
    decide
  unfold lowerChar counterpart at h
  split at h
  next code hcode =>
    obtain ⟨run, hmem, hfirst, hlast, hstep, rfl⟩ := exists_run_of_counterpart? hcode
    rw [List.mem_singleton.1 h]
    exact lowerChar_of_run hmem hfirst hlast hstep
  next hrun =>
    split at h
    next codes hcodes => exact eq_of_beq (List.all_eq_true.1 (hexpansions _ (mem_of_lookup hcodes)) d h)
    next hexpansion =>
      rw [List.mem_singleton.1 h]
      exact lowerChar_eq_self hrun hexpansion

theorem mem_lowerAfter {before s : List Char} {d : Char} (h : d ∈ lowerAfter before s) : lowerChar d = [d] := by
  induction s generalizing before with
  | nil => exact absurd h List.not_mem_nil
  | cons c rest ih =>
      rw [lowerAfter] at h
      split at h
      · rcases List.mem_cons.1 h with rfl | h
        · unfold lowerSigma
          split
          · rfl
          · rfl
        · exact ih h
      · rcases List.mem_append.1 h with h | h
        · exact lowerChar_of_mem h
        · exact ih h

theorem lowerAfter_eq_self {before s : List Char} (h : ∀ d ∈ s, lowerChar d = [d]) : lowerAfter before s = s := by
  induction s generalizing before with
  | nil => rfl
  | cons c rest ih =>
      obtain ⟨hc, hrest⟩ := List.forall_mem_cons.1 h
      have hsigma : c ≠ 'Σ' := by
        rintro rfl
        exact absurd hc (by decide)
      rw [lowerAfter, if_neg hsigma, hc, ih hrest, List.singleton_append]

/-- The lower case of a text is its own lower case. -/
theorem lower_lower (s : List Char) : lower (lower s) = lower s :=
  lowerAfter_eq_self fun _ => mem_lowerAfter

theorem lowercase_lowercase (s : String) : lowercase (lowercase s) = lowercase s := by
  unfold lowercase
  rw [String.toList_ofList, lower_lower]

end Settled

theorem isAsciiLetter_of_toLower {c : Char} (h : isAsciiLetter c.toLower = true) : isAsciiLetter c = true := by
  unfold Char.toLower at h
  split at h
  next hupper =>
    unfold isAsciiLetter
    rw [Bool.or_eq_true_iff, Bool.and_eq_true_iff, Bool.and_eq_true_iff]
    exact Or.inr ⟨decide_eq_true hupper.1, decide_eq_true hupper.2⟩
  next => exact h

end Stencil.Text
