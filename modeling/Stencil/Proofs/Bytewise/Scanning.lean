import Stencil.Proofs.Bytewise.Slices
import Stencil.Reference.Bracket

/-!
What scanners of bytes see of a text. A basic character is one byte, and all bytes of other characters are high: no
basic character is among them. So a scanner that looks for basic characters finds them at the offsets at which they
stand in the text, and one that goes on unchanged at high bytes stays in step with a reader of characters.
-/

namespace Stencil.Bytewise

open Text Markup

theorem toNat_toUInt8 {c : Char} (h : c.toNat < 128) : c.toUInt8.toNat = c.toNat := by
  change c.val.toNat % 256 = c.val.toNat
  change c.val.toNat < 128 at h
  omega

theorem toUInt8_inj {c d : Char} (hc : c.toNat < 128) (hd : d.toNat < 128) : c.toUInt8 = d.toUInt8 ↔ c = d := by
  rw [← UInt8.toNat_inj, toNat_toUInt8 hc, toNat_toUInt8 hd, Char.toNat_inj]

/-- No high byte is a basic character. -/
theorem ne_toUInt8 {byte : UInt8} (h : 128 ≤ byte.toNat) {c : Char} (hc : c.toNat < 128) : byte ≠ c.toUInt8 := by
  rintro rfl
  rw [toNat_toUInt8 hc] at h
  omega

theorem utf8EncodeChar_basic {c : Char} (h : c.toNat < 128) : String.utf8EncodeChar c = [c.toUInt8] := by
  change c.val.toNat < 128 at h
  unfold String.utf8EncodeChar
  dsimp only
  rw [if_pos (by omega)]
  rfl

theorem le_of_mem_utf8EncodeChar {c : Char} (h : 128 ≤ c.toNat) :
    ∀ byte ∈ String.utf8EncodeChar c, 128 ≤ byte.toNat := by
  change 128 ≤ c.val.toNat at h
  have hvalid := c.val.toNat_lt
  unfold String.utf8EncodeChar
  dsimp only
  rw [if_neg (by omega)]
  intro byte hmem
  split at hmem
  next =>
    simp only [List.mem_cons, List.not_mem_nil, or_false] at hmem
    rcases hmem with rfl | rfl <;> (rw [UInt8.toNat_ofNat']; omega)
  next =>
    split at hmem
    next =>
      simp only [List.mem_cons, List.not_mem_nil, or_false] at hmem
      rcases hmem with rfl | rfl | rfl <;> (rw [UInt8.toNat_ofNat']; omega)
    next =>
      simp only [List.mem_cons, List.not_mem_nil, or_false] at hmem
      rcases hmem with rfl | rfl | rfl | rfl <;> (rw [UInt8.toNat_ofNat']; omega)

theorem bytes_cons_basic {c : Char} (h : c.toNat < 128) (rest : List Char) :
    bytes (c :: rest) = c.toUInt8 :: bytes rest := by
  rw [bytes_cons, utf8EncodeChar_basic h, List.singleton_append]

theorem utf8Size_basic {c : Char} (h : c.toNat < 128) : c.utf8Size = 1 := by
  rw [← String.length_utf8EncodeChar, utf8EncodeChar_basic h, List.length_singleton]

/-- Other characters are rows of high bytes. -/
theorem bytes_cons_high {c : Char} (h : 128 ≤ c.toNat) (rest : List Char) :
    ∃ first more, bytes (c :: rest) = first :: (more ++ bytes rest) ∧ c.utf8Size = more.length + 1 ∧
      128 ≤ first.toNat ∧ ∀ byte ∈ more, 128 ≤ byte.toNat := by
  have hpos := c.utf8Size_pos
  have hhigh := le_of_mem_utf8EncodeChar h
  rw [bytes_cons, ← String.length_utf8EncodeChar]
  rw [← String.length_utf8EncodeChar] at hpos
  obtain ⟨first, more, hbytes⟩ := List.exists_cons_of_length_pos hpos
  rw [hbytes] at hhigh ⊢
  obtain ⟨hfirst, hmore⟩ := List.forall_mem_cons.1 hhigh
  exact ⟨first, more, List.cons_append, List.length_cons, hfirst, hmore⟩

theorem ne_of_high {c d : Char} (hc : 128 ≤ c.toNat) (hd : d.toNat < 128) : c ≠ d := by
  rintro rfl
  omega

/-- A basic character is the first of a text exactly if its byte is the first of the text's bytes. -/
theorem head?_bytes {mark : Char} (hmark : mark.toNat < 128) (s : List Char) :
    (bytes s).head? = some mark.toUInt8 ↔ s.head? = some mark := by
  cases s with
  | nil => simp [bytes]
  | cons c rest =>
      by_cases hc : c.toNat < 128
      · rw [bytes_cons_basic hc]
        simp [toUInt8_inj hc hmark]
      · have hhigh := Nat.le_of_not_lt hc
        obtain ⟨first, more, hbytes, -, hfirst, -⟩ := bytes_cons_high hhigh rest
        rw [hbytes]
        simp [ne_toUInt8 hfirst hmark, ne_of_high hhigh hmark]

/-- Behind the first byte of a character stand high bytes only. -/
theorem bytes_cons_cases (c : Char) (rest : List Char) :
    ∃ first more, bytes (c :: rest) = first :: (more ++ bytes rest) ∧ ∀ byte ∈ more, 128 ≤ byte.toNat := by
  by_cases hc : c.toNat < 128
  · exact ⟨c.toUInt8, [], bytes_cons_basic hc rest, fun _ h => nomatch h⟩
  · obtain ⟨first, more, hbytes, -, -, hmore⟩ := bytes_cons_high (Nat.le_of_not_lt hc) rest
    exact ⟨first, more, hbytes, hmore⟩

/-- What stands from an offset on says which byte is at the offset and what stands behind it. -/
theorem byteAt_of_drop {row : List UInt8} {offset : Nat} {byte : UInt8} {rest : List UInt8}
    (h : row.drop offset = byte :: rest) :
    offset < row.length ∧ byteAt row offset = .ok byte ∧ row.drop (offset + 1) = rest := by
  have hlt : offset < row.length := by
    by_contra hge
    rw [List.drop_eq_nil_of_le (Nat.le_of_not_lt hge)] at h
    cases h
  have hget : row[offset]? = some byte := by
    rw [← Nat.add_zero offset, ← List.getElem?_drop, h, List.getElem?_cons_zero]
  refine ⟨hlt, ?_, ?_⟩
  · rw [byteAt, hget]
  · rw [← List.drop_drop, h, List.drop_one, List.tail_cons]

/-! ### The first place of a row of bytes -/

/-- The offset at which some bytes first stand. -/
def find? (mark : List UInt8) : List UInt8 → Option Nat
  | [] => none
  | byte :: rest => if mark.isPrefixOf (byte :: rest) then some 0 else (find? mark rest).map (· + 1)

/-- Basic characters stand at the front of a text exactly if their bytes stand at the front of its bytes. -/
theorem bytes_prefix_iff {mark : List Char} (hmark : ∀ c ∈ mark, c.toNat < 128) {s : List Char} :
    bytes mark <+: bytes s ↔ mark <+: s := by
  induction mark generalizing s with
  | nil => simp [bytes]
  | cons c mark ih =>
      obtain ⟨hc, hrest⟩ := List.forall_mem_cons.1 hmark
      rw [bytes_cons_basic hc]
      cases s with
      | nil => simp [bytes]
      | cons d s =>
          by_cases hd : d.toNat < 128
          · rw [bytes_cons_basic hd, List.cons_prefix_cons, List.cons_prefix_cons, toUInt8_inj hc hd, ih hrest]
          · obtain ⟨first, more, hbytes, -, hfirst, -⟩ := bytes_cons_high (Nat.le_of_not_lt hd) s
            rw [hbytes, List.cons_prefix_cons, List.cons_prefix_cons]
            constructor
            · rintro ⟨heq, -⟩
              exact absurd heq.symm (ne_toUInt8 hfirst hc)
            · rintro ⟨rfl, -⟩
              exact absurd hc hd

/-- No row of bytes that begins with a basic character stands anywhere in high bytes. -/
theorem find?_append_high {c : Char} (hc : c.toNat < 128) (mark : List UInt8) {high : List UInt8}
    (hhigh : ∀ byte ∈ high, 128 ≤ byte.toNat) (rest : List UInt8) :
    find? (c.toUInt8 :: mark) (high ++ rest) = (find? (c.toUInt8 :: mark) rest).map (· + high.length) := by
  induction high with
  | nil => simp
  | cons byte high ih =>
      obtain ⟨hbyte, hothers⟩ := List.forall_mem_cons.1 hhigh
      have hno : ¬ (c.toUInt8 :: mark).isPrefixOf (byte :: (high ++ rest)) = true := by
        rw [List.isPrefixOf_iff_prefix, List.cons_prefix_cons]
        rintro ⟨rfl, -⟩
        exact ne_toUInt8 hbyte hc rfl
      rw [List.cons_append, find?, if_neg hno, ih hothers, Option.map_map, List.length_cons]
      rfl

/-- Basic characters are first found where a text is cut at them. -/
theorem find?_bytes (mark : List Char) (hne : mark ≠ []) (hmark : ∀ c ∈ mark, c.toNat < 128) (s : List Char) :
    find? (bytes mark) (bytes s) = (cut? mark s).map fun parts => byteSize parts.1 := by
  induction s with
  | nil =>
      have hempty : mark.isEmpty = false := by simpa using hne
      simp [bytes, find?, cut?, cutFrom?, hempty]
  | cons c rest ih =>
      by_cases hprefix : mark <+: c :: rest
      · obtain ⟨after, hafter⟩ := hprefix
        have hcut : cut? mark (c :: rest) = some ([], after) :=
          (cut?_eq_some_iff hne).2 ⟨hafter.symm, isFirst_nil mark after⟩
        have hfront : bytes mark <+: bytes (c :: rest) := (bytes_prefix_iff hmark).2 ⟨after, hafter⟩
        rw [hcut]
        cases hbytes : bytes (c :: rest) with
        | nil =>
            have hlength := length_bytes (c :: rest)
            have hpos := c.utf8Size_pos
            rw [hbytes, byteSize_cons, List.length_nil] at hlength
            omega
        | cons byte others =>
            rw [hbytes, ← List.isPrefixOf_iff_prefix] at hfront
            rw [find?, if_pos hfront]
            rfl
      · have hno : ¬ bytes mark <+: bytes (c :: rest) := fun h => hprefix ((bytes_prefix_iff hmark).1 h)
        rw [cut?_cons hne hprefix, Option.map_map]
        have hshift (parts : List Char × List Char) :
            byteSize (c :: parts.1) = byteSize parts.1 + c.utf8Size := Nat.add_comm ..
        by_cases hc : c.toNat < 128
        · rw [bytes_cons_basic hc] at hno ⊢
          rw [find?, if_neg fun h => hno (List.isPrefixOf_iff_prefix.1 h), ih, Option.map_map]
          refine congrArg (Option.map · _) (funext fun parts => ?_)
          simp [hshift, utf8Size_basic hc]
        · obtain ⟨first, more, hbytes, hsize, -, hmore⟩ := bytes_cons_high (Nat.le_of_not_lt hc) rest
          obtain ⟨d, mark, rfl⟩ := List.exists_cons_of_ne_nil hne
          have hd := hmark d (List.mem_cons_self ..)
          rw [hbytes] at hno ⊢
          rw [find?, if_neg fun h => hno (List.isPrefixOf_iff_prefix.1 h)]
          rw [bytes_cons_basic hd] at ih ⊢
          rw [find?_append_high hd _ hmore, ih, Option.map_map, Option.map_map]
          refine congrArg (Option.map · _) (funext fun parts => ?_)
          rw [Function.comp_apply, Function.comp_apply, Function.comp_apply, hshift, hsize]
          exact Nat.add_assoc ..

/-! ### Scanners that pass one byte after the other -/

/-- Where a scan stops and what it stops with, from an offset on. Each byte takes the scan to another state, or stops
it. -/
def stop? {σ α : Type} (step : σ → UInt8 → Except Slip (σ ⊕ α)) (state : σ) (offset : Nat) :
    List UInt8 → Except Slip (Option (Nat × α))
  | [] => .ok none
  | byte :: rest => do
      match ← step state byte with
      | .inl next => stop? step next (offset + 1) rest
      | .inr found => return some (offset, found)

/-- The texts before and behind the character that stops a reading, and what it stops with. -/
def stopCut? {τ α : Type} (step : τ → Char → τ ⊕ α) (state : τ) :
    List Char → Option (List Char × α × List Char)
  | [] => none
  | c :: rest =>
      match step state c with
      | .inl next => (stopCut? step next rest).map fun (before, found, behind) => (c :: before, found, behind)
      | .inr found => some ([], found, rest)

/-- A scan of bytes is in step with a reading of characters: a basic character does to both the same, and no high byte
does more than the whole character did. -/
structure InStep {σ τ α : Type} (step : σ → UInt8 → Except Slip (σ ⊕ α)) (read : τ → Char → τ ⊕ α)
    (Alike : σ → τ → Prop) : Prop where
  basic : ∀ {state place c}, Alike state place → c.toNat < 128 →
    (∃ next after, step state c.toUInt8 = .ok (.inl next) ∧ read place c = .inl after ∧ Alike next after) ∨
    ∃ found, step state c.toUInt8 = .ok (.inr found) ∧ read place c = .inr found
  high : ∀ {state place c}, Alike state place → 128 ≤ c.toNat →
    ∃ after, read place c = .inl after ∧ read after c = .inl after ∧
      ∀ byte : UInt8, 128 ≤ byte.toNat → ∃ next, step state byte = .ok (.inl next) ∧ Alike next after

section InStep

variable {σ τ α : Type} {step : σ → UInt8 → Except Slip (σ ⊕ α)} {read : τ → Char → τ ⊕ α} {Alike : σ → τ → Prop}
  (inStep : InStep step read Alike)

include inStep

/-- High bytes of a character that has been read change nothing. -/
theorem InStep.passes {state : σ} {place : τ} {c : Char} (alike : Alike state place) (hc : 128 ≤ c.toNat)
    (settled : read place c = .inl place) (offset : Nat) {high : List UInt8}
    (hhigh : ∀ byte ∈ high, 128 ≤ byte.toNat) (rest : List UInt8) :
    ∃ next, Alike next place ∧
      stop? step state offset (high ++ rest) = stop? step next (offset + high.length) rest := by
  induction high generalizing state offset with
  | nil => exact ⟨state, alike, rfl⟩
  | cons byte high ih =>
      obtain ⟨hbyte, hothers⟩ := List.forall_mem_cons.1 hhigh
      obtain ⟨after, hafter, -, hstep⟩ := inStep.high alike hc
      obtain rfl : after = place := Sum.inl.inj (hafter.symm.trans settled)
      obtain ⟨next, hnext, hlater⟩ := hstep byte hbyte
      obtain ⟨last, hlast, hrest⟩ := ih hlater (offset + 1) hothers
      refine ⟨last, hlast, ?_⟩
      rw [List.cons_append, stop?, hnext, List.length_cons, Nat.add_comm high.length, ← Nat.add_assoc]
      exact hrest

/-- A scan stops at the byte of the character at which the reading stops. -/
theorem InStep.stop?_eq (state : σ) (place : τ) (alike : Alike state place) (offset : Nat) (s : List Char) :
    stop? step state offset (bytes s) =
      .ok ((stopCut? read place s).map fun parts => (offset + byteSize parts.1, parts.2.1)) := by
  induction s generalizing state place offset with
  | nil => rfl
  | cons c rest ih =>
      by_cases hc : c.toNat < 128
      · rw [bytes_cons_basic hc, stop?, stopCut?]
        rcases inStep.basic alike hc with ⟨next, after, hnext, hafter, hlater⟩ | ⟨found, hfound, hread⟩
        · rw [hnext, hafter]
          change stop? step next (offset + 1) (bytes rest) = _
          rw [ih _ _ hlater, Option.map_map]
          refine congrArg (fun found => Except.ok (Option.map found _)) (funext fun parts => ?_)
          simp [byteSize_cons, utf8Size_basic hc, Nat.add_assoc]
        · rw [hfound, hread]
          rfl
      · have hhigh := Nat.le_of_not_lt hc
        obtain ⟨first, more, hbytes, hsize, hfirst, hmore⟩ := bytes_cons_high hhigh rest
        obtain ⟨after, hafter, settled, hstep⟩ := inStep.high alike hhigh
        obtain ⟨next, hnext, hlater⟩ := hstep first hfirst
        obtain ⟨last, hlast, hpass⟩ := inStep.passes hlater hhigh settled (offset + 1) hmore (bytes rest)
        rw [hbytes, stop?, hnext, stopCut?, hafter]
        change stop? step next (offset + 1) (more ++ bytes rest) = _
        rw [hpass, ih _ _ hlast, Option.map_map]
        refine congrArg (fun found => Except.ok (Option.map found _)) (funext fun parts => ?_)
        simp [byteSize_cons, hsize, Nat.add_assoc, Nat.add_comm, Nat.add_left_comm]

end InStep

end Stencil.Bytewise
