import Stencil.Proofs.Cutting
import Stencil.Proofs.LosslessTokens

/-!
Texts read by bytes. A text is a row of bytes here, and places in it are offsets, counted in bytes. Whatever is
asked for is checked: a byte has to exist, a slice has to begin and end between two characters and not to end
before it begins, a number must not fall below zero, and a loop has to end within the turns it is given. What
fails a check is a slip.
-/

namespace Stencil.Bytewise

open Text Markup

/-- What cannot be done with bytes and offsets. -/
inductive Slip where
  /-- An offset lies behind the end, or a slice ends before it begins. -/
  | beyond
  /-- A slice begins or ends inside a character. -/
  | inside
  /-- A number falls below zero. -/
  | negative
  /-- A loop goes on behind its last turn. -/
  | endless
deriving Repr, DecidableEq

/-- The bytes of a text in UTF-8. -/
def bytes (s : List Char) : List UInt8 := s.flatMap String.utf8EncodeChar

/-- The byte at an offset. -/
def byteAt (bytes : List UInt8) (offset : Nat) : Except Slip UInt8 :=
  match bytes[offset]? with
  | some byte => .ok byte
  | none => .error .beyond

/-- The bytes from an offset on. -/
def bytesFrom (bytes : List UInt8) (offset : Nat) : Except Slip (List UInt8) :=
  if offset ≤ bytes.length then .ok (bytes.drop offset) else .error .beyond

/-- The bytes between two offsets. -/
def bytesBetween (bytes : List UInt8) (start stop : Nat) : Except Slip (List UInt8) :=
  if start ≤ stop ∧ stop ≤ bytes.length then .ok ((bytes.drop start).take (stop - start))
  else .error .beyond

/-- The texts before and behind an offset. -/
def cutAt (offset : Nat) : List Char → Except Slip (List Char × List Char)
  | [] => if offset = 0 then .ok ([], []) else .error .beyond
  | c :: rest =>
      if offset = 0 then .ok ([], c :: rest)
      else if offset < c.utf8Size then .error .inside
      else do
        let (before, behind) ← cutAt (offset - c.utf8Size) rest
        return (c :: before, behind)

/-- The text between two offsets. -/
def slice (s : List Char) (start stop : Nat) : Except Slip (List Char) := do
  let (front, _) ← cutAt stop s
  let (_, between) ← cutAt start front
  return between

/-- The text up to an offset. -/
def sliceTo (s : List Char) (stop : Nat) : Except Slip (List Char) := do
  let (front, _) ← cutAt stop s
  return front

/-- The text from an offset on. -/
def sliceFrom (s : List Char) (start : Nat) : Except Slip (List Char) := do
  let (_, behind) ← cutAt start s
  return behind

/-- The difference of two numbers. -/
def minus (first second : Nat) : Except Slip Nat :=
  if second ≤ first then .ok (first - second) else .error .negative

/-- The answer of a loop. Each turn goes on with another state or leaves with the answer, and there are only so many
of them. -/
def turns {m : Type → Type} [Monad m] [MonadExceptOf Slip m] {σ α : Type} (turn : σ → m (σ ⊕ α)) : Nat → σ → m α
  | 0, _ => throw .endless
  | more + 1, state => do
      match ← turn state with
      | .inl next => turns turn more next
      | .inr answer => return answer

@[simp]
theorem ok_bind {α β : Type} (a : α) (next : α → Except Slip β) : Except.ok a >>= next = next a := rfl

@[simp]
theorem pure_eq_ok {α : Type} (a : α) : (pure a : Except Slip α) = .ok a := rfl

/-- What a loop leads to is its answer, when every turn that is not the last brings it nearer to its end. -/
theorem turns_eq {σ α : Type} {turn : σ → Except Slip (σ ⊕ α)} (size : σ → Nat) {Leads : σ → α → Prop}
    (step : ∀ {state answer}, Leads state answer →
      turn state = .ok (.inr answer) ∨
        ∃ next, turn state = .ok (.inl next) ∧ size next < size state ∧ Leads next answer)
    {more : Nat} {state : σ} {answer : α} (leads : Leads state answer) (enough : size state < more) :
    turns turn more state = .ok answer := by
  induction more generalizing state with
  | zero => exact absurd enough (Nat.not_lt_zero _)
  | succ more ih =>
      rw [turns]
      rcases step leads with hlast | ⟨next, hnext, hsize, hleads⟩
      · rw [hlast]
        rfl
      · rw [hnext, ok_bind]
        exact ih hleads (by omega)

theorem bytes_append (s t : List Char) : bytes (s ++ t) = bytes s ++ bytes t := List.flatMap_append

theorem bytes_cons (c : Char) (s : List Char) : bytes (c :: s) = String.utf8EncodeChar c ++ bytes s :=
  List.flatMap_cons

@[simp]
theorem length_bytes (s : List Char) : (bytes s).length = byteSize s := by
  induction s with
  | nil => rfl
  | cons c rest ih =>
      rw [bytes_cons, List.length_append, String.length_utf8EncodeChar, ih]
      rfl

theorem byteSize_cons (c : Char) (s : List Char) : byteSize (c :: s) = c.utf8Size + byteSize s := rfl

/-- Behind a text stands what it is joined to. -/
theorem cutAt_append (before behind : List Char) :
    cutAt (byteSize before) (before ++ behind) = .ok (before, behind) := by
  induction before with
  | nil =>
      cases behind with
      | nil => rfl
      | cons c rest => rfl
  | cons c front ih =>
      have hpos := c.utf8Size_pos
      have hsome : byteSize (c :: front) ≠ 0 := by
        rw [byteSize_cons]
        omega
      have hwhole : ¬ byteSize (c :: front) < c.utf8Size := by
        rw [byteSize_cons]
        omega
      have hrest : byteSize (c :: front) - c.utf8Size = byteSize front := by
        rw [byteSize_cons, Nat.add_sub_cancel_left]
      rw [List.cons_append, cutAt, if_neg hsome, if_neg hwhole, hrest, ih]
      rfl

theorem append_of_cutAt {offset : Nat} {s before behind : List Char} (h : cutAt offset s = .ok (before, behind)) :
    s = before ++ behind ∧ byteSize before = offset := by
  induction s generalizing offset before with
  | nil =>
      rw [cutAt] at h
      split at h
      next hzero =>
        cases h
        exact ⟨rfl, hzero.symm⟩
      next => cases h
  | cons c rest ih =>
      rw [cutAt] at h
      split at h
      next hzero =>
        cases h
        exact ⟨rfl, hzero.symm⟩
      next =>
        split at h
        next => cases h
        next hwhole =>
          cases hrest : cutAt (offset - c.utf8Size) rest with
          | error slip =>
              rw [hrest] at h
              cases h
          | ok parts =>
              obtain ⟨front, back⟩ := parts
              rw [hrest] at h
              cases h
              obtain ⟨rfl, hsize⟩ := ih hrest
              refine ⟨rfl, ?_⟩
              rw [byteSize_cons]
              omega

/-- A slice can be taken of a text exactly where a text stands in it, from its first to its last byte. -/
theorem slice_eq_ok_iff {s between : List Char} {start stop : Nat} :
    slice s start stop = .ok between ↔
      ∃ before behind, s = before ++ (between ++ behind) ∧ byteSize before = start ∧
        byteSize (before ++ between) = stop := by
  constructor
  · intro h
    unfold slice at h
    cases hfront : cutAt stop s with
    | error slip =>
        rw [hfront] at h
        cases h
    | ok parts =>
        obtain ⟨front, behind⟩ := parts
        rw [hfront] at h
        obtain ⟨rfl, hstop⟩ := append_of_cutAt hfront
        rw [ok_bind] at h
        dsimp only at h
        cases hbefore : cutAt start front with
        | error slip =>
            rw [hbefore] at h
            cases h
        | ok inner =>
            obtain ⟨before, part⟩ := inner
            rw [hbefore] at h
            cases h
            obtain ⟨rfl, hstart⟩ := append_of_cutAt hbefore
            exact ⟨before, behind, List.append_assoc .., hstart, hstop⟩
  · rintro ⟨before, behind, rfl, rfl, rfl⟩
    unfold slice
    rw [← List.append_assoc, cutAt_append, ok_bind]
    dsimp only
    rw [cutAt_append]
    rfl

theorem slice_append (before between behind : List Char) :
    slice (before ++ (between ++ behind)) (byteSize before) (byteSize before + byteSize between) = .ok between :=
  slice_eq_ok_iff.2 ⟨before, behind, rfl, rfl, byteSize_append before between⟩

theorem sliceTo_append (front behind : List Char) : sliceTo (front ++ behind) (byteSize front) = .ok front := by
  rw [sliceTo, cutAt_append]
  rfl

theorem sliceFrom_append (front behind : List Char) : sliceFrom (front ++ behind) (byteSize front) = .ok behind := by
  rw [sliceFrom, cutAt_append]
  rfl

/-- The end of the characters of a class at the front of a text is a place between two characters. -/
theorem sliceTo_takeWhile (p : Char → Bool) (s : List Char) :
    sliceTo s (byteSize (s.takeWhile p)) = .ok (s.takeWhile p) := by
  have hfront := sliceTo_append (s.takeWhile p) (s.dropWhile p)
  rwa [List.takeWhile_append_dropWhile] at hfront

theorem sliceFrom_takeWhile (p : Char → Bool) (s : List Char) :
    sliceFrom s (byteSize (s.takeWhile p)) = .ok (s.dropWhile p) := by
  have hbehind := sliceFrom_append (s.takeWhile p) (s.dropWhile p)
  rwa [List.takeWhile_append_dropWhile] at hbehind

theorem minus_add (first second : Nat) : minus (first + second) second = .ok first := by
  rw [minus, if_pos (Nat.le_add_left ..), Nat.add_sub_cancel]

/-- What trimming takes from the front of a text are the blanks there. -/
theorem minus_trimStart (s : List Char) :
    minus (byteSize s) (byteSize (trimStart s)) = .ok (byteSize (s.takeWhile isBlank)) := by
  have hsize : byteSize s = byteSize (s.takeWhile isBlank) + byteSize (trimStart s) := by
    rw [← byteSize_append]
    exact congrArg byteSize List.takeWhile_append_dropWhile.symm
  rw [hsize, minus_add]

/-- Whether a text stands in another one from an offset on, up to the end. -/
def StandsAt (s : List Char) (offset : Nat) (rest : List Char) : Prop :=
  ∃ front, s = front ++ rest ∧ byteSize front = offset

namespace StandsAt

variable {s part rest : List Char} {offset : Nat}

theorem start (s : List Char) : StandsAt s 0 s := ⟨[], rfl, rfl⟩

theorem pass (part : List Char) (h : StandsAt s offset (part ++ rest)) : StandsAt s (offset + byteSize part) rest := by
  obtain ⟨front, rfl, rfl⟩ := h
  exact ⟨front ++ part, (List.append_assoc ..).symm, byteSize_append front part⟩

theorem slice_eq (h : StandsAt s offset (part ++ rest)) : slice s offset (offset + byteSize part) = .ok part := by
  obtain ⟨front, rfl, rfl⟩ := h
  exact slice_append front part rest

theorem sliceFrom_eq (h : StandsAt s offset rest) : sliceFrom s offset = .ok rest := by
  obtain ⟨front, rfl, rfl⟩ := h
  exact sliceFrom_append front rest

theorem drop_eq (h : StandsAt s offset rest) : (bytes s).drop offset = bytes rest := by
  obtain ⟨front, rfl, rfl⟩ := h
  rw [bytes_append, ← length_bytes, List.drop_left]

theorem size_eq (h : StandsAt s offset rest) : offset + byteSize rest = byteSize s := by
  obtain ⟨front, rfl, rfl⟩ := h
  exact (byteSize_append front rest).symm

/-- What stands at the end of the text stands as far from its beginning as the two differ in size. -/
theorem behind (h : StandsAt s offset (part ++ rest)) : StandsAt s (byteSize s - byteSize rest) rest := by
  have hrest := h.pass _
  rwa [← hrest.size_eq, Nat.add_sub_cancel]

theorem bytesFrom_eq (h : StandsAt s offset rest) : bytesFrom (bytes s) offset = .ok (bytes rest) := by
  have hle : offset ≤ (bytes s).length := by
    rw [length_bytes, ← h.size_eq]
    exact Nat.le_add_right ..
  rw [bytesFrom, if_pos hle, h.drop_eq]

theorem getElem?_eq (h : StandsAt s offset rest) (more : Nat) : (bytes s)[offset + more]? = (bytes rest)[more]? := by
  rw [← h.drop_eq, List.getElem?_drop]

end StandsAt

theorem toByteArray_ofList (s : List Char) : (String.ofList s).toByteArray = (bytes s).toByteArray :=
  String.toByteArray_ofList

/-- The places at which a text can be cut are those between its characters and at its ends. -/
theorem isValid_iff {s : List Char} {offset : Nat} :
    (String.Pos.Raw.mk offset).IsValid (String.ofList s) ↔
      ∃ before behind, s = before ++ behind ∧ byteSize before = offset := by
  have hsize (t : List Char) : (String.ofList t).utf8ByteSize = byteSize t := by
    rw [← length_bytes, ← String.size_toByteArray, toByteArray_ofList]
    simp
  rw [String.Pos.Raw.isValid_ofList]
  constructor
  · rintro ⟨count, hcount⟩
    exact ⟨s.take count, s.drop count, (List.take_append_drop count s).symm, by rw [← hsize, ← hcount]⟩
  · rintro ⟨before, behind, rfl, rfl⟩
    exact ⟨before.length, by rw [List.take_left, hsize]⟩

/-- A slice is refused exactly when it ends before it begins, or when one of its ends is no place between two
characters. -/
theorem exists_slice_iff {s : List Char} {start stop : Nat} :
    (∃ between, slice s start stop = .ok between) ↔
      start ≤ stop ∧ (String.Pos.Raw.mk start).IsValid (String.ofList s) ∧
        (String.Pos.Raw.mk stop).IsValid (String.ofList s) := by
  simp only [slice_eq_ok_iff, isValid_iff]
  constructor
  · rintro ⟨between, before, behind, rfl, rfl, rfl⟩
    exact ⟨by rw [byteSize_append]; omega, ⟨before, _, rfl, rfl⟩, before ++ between, behind, by simp, rfl⟩
  · rintro ⟨hle, ⟨before, rest, rfl, rfl⟩, front, behind, heq, rfl⟩
    rcases List.append_eq_append_iff.1 heq with ⟨between, rfl, rfl⟩ | ⟨between, rfl, rfl⟩
    · exact ⟨between, before, behind, rfl, rfl, rfl⟩
    · -- the slice is empty when its end stands no further than its beginning
      rw [byteSize_append] at hle
      have hnil : between = [] := by
        by_contra hne
        exact absurd hle (by have := byteSize_pos hne; omega)
      subst hnil
      exact ⟨[], front, rest, by simp, by simp, by simp⟩

-- the second character takes two bytes, and the slice ends between them
example : slice "né".toList 0 2 = .error .inside := by rfl

end Stencil.Bytewise
