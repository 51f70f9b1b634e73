import Stencil.Proofs.Resolution.Path

/-!
Chains of accessors: how they are written, which texts start with an indexed target, and that the
walk along a text follows the accessors written there one after the other.
-/

namespace Stencil

open Text

namespace Reference

/-- Whether the accessors behind an indexer may go on so: nothing, a member or another indexer. -/
def goesOn (behind : List Char) : Bool :=
  behind.isEmpty || behind.head? == some '.' || behind.head? == some '['

/-- A text whose first bracket outside quotes is known starts with an indexed target if accessors or
nothing follow the bracket that closes. -/
theorem indexed?_enclosed {front key : List Char} (free : ∀ c ∈ front, isFree c = true)
    (enclosed : isEnclosed key = true) (behind : List Char) :
    indexed? (front ++ '[' :: (key ++ ']' :: behind)) =
      if !(trim front).isEmpty && goesOn (trimStart behind) then
        some ⟨trim front, key, trimStart behind⟩
      else none := by
  have hopen := opening?_free free (key ++ ']' :: behind)
  have hclose := closing?_of_isEnclosed enclosed behind
  unfold indexed? goesOn
  simp only [hopen, hclose, Option.bind_eq_bind, Option.bind_some]
  cases (trim front).isEmpty
  · cases (trimStart behind).isEmpty || (trimStart behind).head? == some '.' ||
      (trimStart behind).head? == some '['
    · rfl
    · rfl
  · rfl

/-- An accessor as it is written: a member with the name behind its point, or an indexer with its key
and the blanks behind its bracket. -/
inductive Access where
  | member (name : List Char)
  | index (key gap : List Char)

namespace Access

def text : Access → List Char
  | .member name => '.' :: name
  | .index key gap => '[' :: (key ++ ']' :: gap)

/-- Whether the text of an accessor ends where it should. -/
def isWellFormed : Access → Bool
  | .member name => name.all fun c => c != '.' && c != '['
  | .index key gap => isEnclosed key && gap.all isBlank

def isIndex : Access → Bool
  | .member _ => false
  | .index _ _ => true

end Access

/-- Accessors as they are written one after the other. -/
def accessText (accesses : List Access) : List Char := accesses.flatMap Access.text

theorem accessText_cons (access : Access) (rest : List Access) :
    accessText (access :: rest) = access.text ++ accessText rest := rfl

theorem goesOn_accessText (accesses : List Access) : goesOn (accessText accesses) = true := by
  rcases accesses with _ | ⟨_ | _, rest⟩
  · rfl
  · rfl
  · rfl

/-- Where an accessor follows, it goes on, whatever comes later. -/
theorem goesOn_accessText_cons (access : Access) (rest : List Access) (behind : List Char) :
    goesOn (trimStart (accessText (access :: rest) ++ behind)) = true := by
  cases access with
  | member name => rfl
  | index key gap => rfl

theorem trimStart_accessText (accesses : List Access) :
    trimStart (accessText accesses) = accessText accesses := by
  rcases accesses with _ | ⟨_ | _, rest⟩
  · rfl
  · exact trimStart_cons (by decide) _
  · exact trimStart_cons (by decide) _

/-- The name of a member ends where the next accessor starts. -/
theorem span_accessText {name : List Char}
    (h : (name.all fun c => c != '.' && c != '[') = true) (rest : List Access) :
    ((name ++ accessText rest).takeWhile fun c => c != '.' && c != '[') = name ∧
      ((name ++ accessText rest).dropWhile fun c => c != '.' && c != '[') = accessText rest := by
  have hname : ∀ c ∈ name, (c != '.' && c != '[') = true := List.all_eq_true.1 h
  have hrest : ((accessText rest).takeWhile fun c => c != '.' && c != '[') = [] ∧
      ((accessText rest).dropWhile fun c => c != '.' && c != '[') = accessText rest := by
    rcases rest with _ | ⟨_ | _, rest⟩
    · exact ⟨rfl, rfl⟩
    · exact ⟨rfl, rfl⟩
    · exact ⟨rfl, rfl⟩
  constructor
  · rw [List.takeWhile_append_of_pos hname, hrest.1, List.append_nil]
  · rw [List.dropWhile_append_of_pos hname, hrest.2]

/-- Accessors that start with an indexer make an indexed target of the text before them. -/
theorem indexed?_accessText {front target key gap : List Char}
    (free : ∀ c ∈ front, isFree c = true) (trimmed : trim front = target) (nonempty : target ≠ [])
    (wellFormed : (Access.index key gap).isWellFormed = true) (rest : List Access) :
    indexed? (front ++ accessText (.index key gap :: rest)) =
      some ⟨target, key, accessText rest⟩ := by
  obtain ⟨enclosed, blank⟩ : isEnclosed key = true ∧ gap.all isBlank = true :=
    Bool.and_eq_true_iff.1 wellFormed
  have htext : accessText (.index key gap :: rest) =
      '[' :: (key ++ ']' :: (gap ++ accessText rest)) := by
    rw [accessText_cons, Access.text, List.cons_append, List.append_assoc, List.cons_append]
  have hbehind : trimStart (gap ++ accessText rest) = accessText rest := by
    rw [trimStart_append (List.all_eq_true.1 blank), trimStart_accessText]
  have htarget : target.isEmpty = false := List.isEmpty_eq_false_iff.2 nonempty
  rw [htext, indexed?_enclosed free enclosed, hbehind, trimmed, htarget, goesOn_accessText]
  rfl

end Reference

namespace Resolver

open Reference

/-- What an accessor leads to from a value. The names of members are checked by `guard`. -/
def reach (guard r : Resolver) (value : Value) : Access → Resolving (Option Value)
  | .member name => memberOf guard value (trim name)
  | .index key _ => do elementOf r value (← keyValue r key)

/-- What accessors lead to from a value, one after the other, until one leads to nothing or null. -/
def follow (guard r : Resolver) : Value → List Access → Resolving (Option Value)
  | value, [] => return some value
  | value, access :: rest => do
      match ← reach guard r value access with
      | some next => if next.isNull then return none else follow guard r next rest
      | none => return none

/-- The walk along a text follows the accessors that are written there. -/
theorem walk_accessText (r : Resolver) {accesses : List Access}
    (wellFormed : accesses.all Access.isWellFormed = true) (value : Value) :
    walk r value (accessText accesses) =
      if value.isNull then return none else follow r r value accesses := by
  -- a walk asks for null before each accessor, `follow` after it
  induction accesses generalizing value with
  | nil => rw [accessText, List.flatMap_nil, walk, follow]
  | cons access rest ih =>
      obtain ⟨haccess, hrest⟩ : access.isWellFormed = true ∧ rest.all Access.isWellFormed = true :=
        Bool.and_eq_true_iff.1 wellFormed
      cases hnull : value.isNull with
      | true =>
          rw [walk.eq_def, hnull]
          rfl
      | false =>
          cases access with
          | member name =>
              obtain ⟨htake, hdrop⟩ := span_accessText haccess rest
              rw [accessText_cons, Access.text, List.cons_append, walk, hnull, htake, hdrop]
              simp only [Bool.false_eq_true, if_false, follow, reach]
              congr 1
              funext member
              cases member with
              | none => rfl
              | some next => exact ih hrest next
          | index key gap =>
              obtain ⟨enclosed, blank⟩ : isEnclosed key = true ∧ gap.all isBlank = true :=
                Bool.and_eq_true_iff.1 haccess
              have hclose := closing?_of_isEnclosed enclosed (gap ++ accessText rest)
              have hbehind : trimStart (gap ++ accessText rest) = accessText rest := by
                rw [trimStart_append (List.all_eq_true.1 blank), trimStart_accessText]
              rw [accessText_cons, Access.text, List.cons_append, List.append_assoc,
                List.cons_append, walk_closed r hclose, hnull, hbehind]
              simp only [Bool.false_eq_true, if_false, follow, reach, bind_assoc]
              congr 1
              funext found
              congr 1
              funext element
              cases element with
              | none => rfl
              | some next => exact ih hrest next

/-- What follows the root of an indexed text are its accessors. -/
theorem behindRoot_accessText (r : Resolver) {rest : List Access}
    (wellFormed : rest.all Access.isWellFormed = true) (target key gap : List Char) (root : Value) :
    behindRoot r ⟨target, key, accessText rest⟩ root =
      follow r r root (.index key gap :: rest) := by
  rw [behindRoot, follow, reach, bind_assoc]
  congr 1
  funext found
  congr 1
  funext element
  cases element with
  | none => rfl
  | some next => exact walk_accessText r wellFormed next

theorem alike_follow (guard r : Resolver) (value : Value) (accesses : List Access) :
    Alike (follow guard r value accesses) (follow guard r value accesses) := by
  induction accesses generalizing value with
  | nil => exact alike_pure _
  | cons access rest ih =>
      have hreach : Alike (reach guard r value access) (reach guard r value access) := by
        cases access with
        | member name => exact alike_memberOf guard value _
        | index key gap => exact (alike_keyValue r key).bind fun found => alike_elementOf r value found
      rw [follow]
      refine hreach.bind fun found => ?_
      cases found with
      | none => exact alike_pure none
      | some next =>
          dsimp only
          split
          · exact alike_pure none
          · exact ih next

end Resolver

end Stencil
