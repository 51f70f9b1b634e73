import Stencil.Proofs.Resolution.Chain

/-!
Blocked names along chains of accessors. A member that is read by a point is checked wherever it
stands, in the dotted path at the start of a chain or behind an indexer. The key of an indexer is
not: an entry of a map is found under a blocked name as under any other.
-/

namespace Stencil

open Text Reference

namespace Reference

/-- A variable or dotted path with accessors behind it, the first of them an indexer. -/
structure Chain where
  path : List Char
  /-- The blanks before the first indexer. -/
  gap : List Char
  accesses : List Access
  named : isIdentifier path = true ∨ Resolver.isPath path = true
  trimmed : trim path = path
  blank : gap.all isBlank = true
  wellFormed : accesses.all Access.isWellFormed = true
  indexFirst : accesses.head?.all Access.isIndex = true
  closed : accesses = [] → gap = []

def Chain.text (chain : Chain) : List Char := chain.path ++ chain.gap ++ accessText chain.accesses

/-- Whether an accessor reads a member of a blocked name. -/
def Access.isBlocked (security : Security) : Access → Bool
  | .member name => security.blocks (String.ofList (trim name))
  | .index _ _ => false

end Reference

namespace Resolver

/-- The resolver without blocked names. -/
def unguarded (r : Resolver) : Resolver :=
  { r with security := { r.security with blockedNames := [] } }

theorem blocks_unguarded (r : Resolver) (name : String) :
    r.unguarded.security.blocks name = false := rfl

variable (r : Resolver)

/-- The variable or path that a chain starts from, with no name checked but that of the variable. -/
def rootValue (path : List Char) : Resolving (Option Value) :=
  match r.direct? path with
  | some value => return some value
  | none => if isPath path then dotted r.unguarded path else return none

/-- What a chain leads to when no member is checked. -/
def chainValue (chain : Chain) : Resolving (Option Value) := do
  match ← rootValue r chain.path with
  | some root => follow r.unguarded r root chain.accesses
  | none => return none

/-- Whether a chain reads a member of a blocked name by a point. The names in a path that is bound as
a whole are the name of a variable, not of members. -/
def blocksMember (chain : Chain) : Prop :=
  (r.direct? chain.path = none ∧
      ∃ segment ∈ pathSegments chain.path, r.security.blocks (String.ofList segment) = true) ∨
    ∃ access ∈ chain.accesses, access.isBlocked r.security = true

/-- A program that never answers with a value. -/
def Valueless (program : Resolving (Option Value)) : Prop :=
  ∀ memory value, answer program memory ≠ .ok (some value)

theorem valueless_none : Valueless (pure none) := by
  intro memory value h
  cases h

theorem Valueless.bind {α : Type} {program : Resolving α} {next : α → Resolving (Option Value)}
    (h : ∀ value, Valueless (next value)) : Valueless (program >>= next) := by
  intro memory value
  unfold answer
  rcases hrun : outcome program memory with ⟨result, after⟩
  cases result with
  | error fault =>
      rw [outcome_bind_error hrun]
      exact fun e => nomatch e
  | ok found =>
      rw [outcome_bind_ok hrun]
      exact h found after value

/-- What makes nothing of nothing has no value behind a program without one. -/
theorem Valueless.bind_none {program : Resolving (Option Value)}
    {next : Option Value → Resolving (Option Value)} (h : Valueless program)
    (hnext : Valueless (next none)) : Valueless (program >>= next) := by
  intro memory value
  have hfirst := h memory
  unfold answer at hfirst ⊢
  rcases hrun : outcome program memory with ⟨_ | _ | found, after⟩
  · rw [outcome_bind_error hrun]
    exact fun e => nomatch e
  · rw [outcome_bind_ok hrun]
    exact hnext after value
  · rw [hrun] at hfirst
    exact absurd rfl (hfirst found)

/-- Behind a blocked member no accessor is reached. -/
theorem valueless_follow {accesses : List Access}
    (h : ∃ access ∈ accesses, access.isBlocked r.security = true) (value : Value) :
    Valueless (follow r r value accesses) := by
  induction accesses generalizing value with
  | nil =>
      obtain ⟨access, hmem, -⟩ := h
      exact absurd hmem List.not_mem_nil
  | cons access rest ih =>
      cases hblocked : access.isBlocked r.security with
      | true =>
          cases access with
          | index key gap => exact absurd hblocked Bool.false_ne_true
          | member name =>
              have hname : r.security.blocks (String.ofList (trim name)) = true := hblocked
              have hreach : reach r r value (.member name) = pure none := by
                rw [reach, memberOf, if_pos hname]
              rw [follow, hreach]
              exact valueless_none
      | false =>
          have hrest : ∃ access ∈ rest, access.isBlocked r.security = true := by
            obtain ⟨other, hmem, hother⟩ := h
            rcases List.mem_cons.1 hmem with rfl | hlater
            · exact absurd hother (by rw [hblocked]; decide)
            · exact ⟨other, hlater, hother⟩
          rw [follow]
          refine Valueless.bind fun found => ?_
          cases found with
          | none => exact valueless_none
          | some next =>
              dsimp only
              split
              · exact valueless_none
              · exact ih hrest next

/-- Where no member is blocked, the check of members makes no difference. -/
theorem follow_unguarded {accesses : List Access}
    (h : ∀ access ∈ accesses, access.isBlocked r.security = false) (value : Value) :
    follow r r value accesses = follow r.unguarded r value accesses := by
  induction accesses generalizing value with
  | nil => rfl
  | cons access rest ih =>
      have haccess : access.isBlocked r.security = false := h access (List.mem_cons_self ..)
      have hreach : reach r r value access = reach r.unguarded r value access := by
        cases access with
        | index key gap => rfl
        | member name =>
            have hname : r.security.blocks (String.ofList (trim name)) = false := haccess
            rw [reach, reach, memberOf, memberOf, hname, blocks_unguarded]
            rfl
      rw [follow, follow, hreach]
      congr 1
      funext found
      cases found with
      | none => rfl
      | some next =>
          dsimp only
          rw [ih (fun other hmem => h other (List.mem_cons_of_mem _ hmem)) next]

theorem path_unguarded {host : Host} {security : Security} {names : List String}
    (h : ∀ name ∈ names, security.blocks name = false) (value : Value) :
    value.path host security names = value.path host { security with blockedNames := [] } names := by
  induction names generalizing value with
  | nil => rfl
  | cons name rest ih =>
      have hname : security.blocks name = false := h name (List.mem_cons_self ..)
      have hrest := ih fun other hmem => h other (List.mem_cons_of_mem _ hmem)
      have hnone : ({ security with blockedNames := [] } : Security).blocks name = false := rfl
      rw [Value.path, Value.path, hname, hnone]
      congr 1
      congr 1
      funext found
      cases found with
      | none => rfl
      | some next => exact hrest next

theorem checkPropertyPath_unguarded {path : List Char} (hpath : isPath path = true)
    (open_ : ∀ segment ∈ pathSegments path, r.security.blocks (String.ofList segment) = false) :
    Gate.checkPropertyPath r.security (String.ofList (joinWith '.' (pathSegments path))) =
      Gate.checkPropertyPath r.unguarded.security
        (String.ofList (joinWith '.' (pathSegments path))) := by
  have hfind : ((pathSegments path).find? fun s => r.security.blocks (String.ofList s)) = none :=
    List.find?_eq_none.2 fun segment hmem => by rw [open_ segment hmem]; exact Bool.false_ne_true
  have hfree : ((pathSegments path).find? fun s =>
      r.unguarded.security.blocks (String.ofList s)) = none :=
    List.find?_eq_none.2 fun segment _ => by
      rw [blocks_unguarded]
      exact Bool.false_ne_true
  have nonempty := pathSegments_ne_nil path
  have names := isIdentifier_of_mem_pathSegments hpath
  rw [checkPropertyPath_joinWith nonempty names, checkPropertyPath_joinWith nonempty names, hfind,
    hfree]
  rfl

/-- A path without blocked names is read as if no name were blocked. -/
theorem dotted_unguarded {path : List Char} (hpath : isPath path = true)
    (open_ : ∀ segment ∈ pathSegments path, r.security.blocks (String.ofList segment) = false) :
    dotted r path = dotted r.unguarded path := by
  have hcheck := checkPropertyPath_unguarded r hpath open_
  rw [dotted_open r open_, dotted_open r.unguarded fun _ _ => rfl, hcheck]
  congr 1
  funext _
  rcases hroot : longestBound? r.vars (pathSegments path) (pathSegments path).length with
    _ | ⟨root, rest⟩
  · rw [show r.unguarded.vars = r.vars from rfl, hroot]
  · rw [show r.unguarded.vars = r.vars from rfl, hroot]
    have hnames : ∀ name ∈ rest.map String.ofList, r.security.blocks name = false := by
      intro name hname
      obtain ⟨segment, hmem, rfl⟩ := List.mem_map.1 hname
      exact open_ segment (mem_of_longestBound? hroot segment hmem)
    dsimp only
    rw [path_unguarded hnames root]
    rfl

/-- Behind a root, a chain that starts with an indexer is an indexed target. -/
theorem alike_indexedValue {path key gap : List Char} {rest : List Access}
    (wellFormed : rest.all Access.isWellFormed = true) :
    Alike (indexedValue r ⟨path, key, accessText rest⟩) (do
      match ← resolveText r path false with
      | some root => follow r r root (.index key gap :: rest)
      | none => return none) := by
  refine (alike_resolveText r path false).bind fun root => ?_
  cases root with
  | none => exact alike_pure none
  | some root =>
      dsimp only
      rw [behindRoot_accessText r wellFormed path key gap root]
      exact alike_follow r r root _

/-- A chain is resolved by following its accessors from the value of its path. -/
theorem alike_chain (chain : Chain) :
    Alike (resolveText r chain.text true) (do
      match ← resolveText r chain.path false with
      | some root => follow r r root chain.accesses
      | none => return none) := by
  obtain ⟨path, gap, accesses, named, trimmed, blank, wellFormed, indexFirst, closed⟩ := chain
  -- the first accessor decides: without one the chain is a name or a path, an indexer makes it an
  -- indexed target, and members do not come first
  rcases accesses with _ | ⟨name | ⟨key, after⟩, rest⟩
  · obtain rfl : gap = [] := closed rfl
    have htext : Chain.text ⟨path, [], [], named, trimmed, blank, wellFormed, indexFirst, closed⟩ =
        path := by
      simp only [Chain.text, accessText, List.flatMap_nil, List.append_nil]
    have hroot : resolveText r path true = resolveText r path false := by
      rw [resolveText_named r named true, resolveText_named r named false]
    have hsame : (do
        match ← resolveText r path false with
        | some root => follow r r root []
        | none => return none) = resolveText r path false := by
      conv => rhs; rw [← bind_pure (resolveText r path false)]
      congr 1
      funext root
      cases root with
      | none => rfl
      | some root => rfl
    rw [htext, hroot, hsame]
    exact alike_resolveText r path false
  · exact absurd indexFirst Bool.false_ne_true
  · obtain ⟨hindex, hrest⟩ := Bool.and_eq_true_iff.1 wellFormed
    have hpath : path ≠ [] := by
      rintro rfl
      exact absurd named (by decide)
    have hfree : ∀ c ∈ path ++ gap, isFree c = true := by
      intro c hc
      rcases List.mem_append.1 hc with hmem | hmem
      · exact isFree_of_isPathChar (isPathChar_of_named named c hmem)
      · exact isFree_of_isBlank (List.all_eq_true.1 blank c hmem)
    have htrim : trim (path ++ gap) = path := by
      rw [trim_append (List.all_eq_true.1 blank), trimmed]
    have hindexed := indexed?_accessText hfree htrim hpath hindex rest
    rw [show Chain.text _ = path ++ gap ++ accessText (.index key after :: rest) from rfl,
      resolveText_indexed r true hindexed]
    exact (alike_indexedValue r hrest).note _

theorem valueless_root {path : List Char} (named : isIdentifier path = true ∨ isPath path = true)
    (unbound : r.direct? path = none)
    (blocked : ∃ segment ∈ pathSegments path, r.security.blocks (String.ofList segment) = true) :
    Valueless (resolveText r path false) := by
  rw [resolveText_named r named, unbound, dotted_blocked r blocked]
  refine Valueless.bind fun _ => ?_
  dsimp only
  split
  · exact valueless_none
  · exact valueless_none

theorem alike_root {path : List Char} (named : isIdentifier path = true ∨ isPath path = true)
    (open_ : r.direct? path = none →
      ∀ segment ∈ pathSegments path, r.security.blocks (String.ofList segment) = false) :
    Alike (resolveText r path false) (rootValue r path) := by
  rw [resolveText_named r named]
  refine Alike.note ?_ _
  unfold rootValue
  cases bound : r.direct? path with
  | some value => exact alike_pure _
  | none =>
      dsimp only
      cases hpath : isPath path with
      | true =>
          rw [if_pos rfl, if_pos rfl, dotted_unguarded r hpath (open_ bound)]
          exact alike_dotted r.unguarded path
      | false => exact alike_pure none

/-- A chain that reads a member of a blocked name by a point has no value. -/
theorem valueless_chain {chain : Chain} (blocked : r.blocksMember chain) :
    Valueless (resolveText r chain.text true) := by
  have hchain : Valueless (do
      match ← resolveText r chain.path false with
      | some root => follow r r root chain.accesses
      | none => return none) := by
    rcases blocked with ⟨unbound, hsegment⟩ | haccess
    · exact (valueless_root r chain.named unbound hsegment).bind_none valueless_none
    · refine Valueless.bind fun root => ?_
      cases root with
      | none => exact valueless_none
      | some root => exact valueless_follow r haccess root
  intro memory value
  rw [(alike_chain r chain).answer_eq memory]
  exact hchain memory value

/-- A chain that reads no member of a blocked name by a point is read as if no name were blocked. -/
theorem alike_chainValue {chain : Chain} (open_ : ¬ r.blocksMember chain) :
    Alike (resolveText r chain.text true) (chainValue r chain) := by
  have hroot : r.direct? chain.path = none → ∀ segment ∈ pathSegments chain.path,
      r.security.blocks (String.ofList segment) = false := by
    intro unbound segment hmem
    rw [← Bool.not_eq_true]
    exact fun hblocked => open_ (Or.inl ⟨unbound, segment, hmem, hblocked⟩)
  have haccesses : ∀ access ∈ chain.accesses, access.isBlocked r.security = false := by
    intro access hmem
    rw [← Bool.not_eq_true]
    exact fun hblocked => open_ (Or.inr ⟨access, hmem, hblocked⟩)
  refine (alike_chain r chain).trans ((alike_root r chain.named hroot).bind fun root => ?_)
  cases root with
  | none => exact alike_pure none
  | some root =>
      dsimp only
      rw [follow_unguarded r haccesses root]
      exact alike_follow r.unguarded r root chain.accesses

/-- Which value a chain of accessors has: that of the chain with no member checked, unless a member
of a blocked name is read by a point. The keys of indexers have no part in it. -/
theorem resolve_chain_iff (chain : Chain) {expression : List Char}
    (written : trim expression = chain.text)
    (accepted : Gate.checkExpression r.security (String.ofList chain.text) = .ok ())
    (memory : Memory) (value : Value) :
    answer (resolve r expression) memory = .ok (some value) ↔
      ¬ r.blocksMember chain ∧
        answer (do return finished (← chainValue r chain)) memory = .ok (some value) := by
  have nonempty : chain.text ≠ [] := by
    intro hnil
    have hpath : chain.path = [] := (List.append_eq_nil_iff.1 (List.append_eq_nil_iff.1 hnil).1).1
    have hnamed := chain.named
    rw [hpath] at hnamed
    exact absurd hnamed (by decide)
  have hresolve := (alike_resolve r written nonempty accepted).answer_eq memory
  by_cases blocked : r.blocksMember chain
  · have hvalueless : Valueless (do return finished (← resolveText r chain.text true)) :=
      (valueless_chain r blocked).bind_none valueless_none
    constructor
    · intro h
      exact absurd (hresolve.symm.trans h) (hvalueless memory value)
    · exact fun h => absurd blocked h.1
  · have hvalue := ((alike_chainValue r blocked).bind fun found =>
      alike_pure (finished found)).answer_eq memory
    rw [hresolve, hvalue]
    exact ⟨fun h => ⟨blocked, h⟩, fun h => h.2⟩

/-- A user with a login and nothing else in the store. -/
def oneLogin : Resolver where
  security := {}
  host := ⟨fun _ _ => none, fun _ _ => false, fun _ _ => none⟩
  ownFilters := {}
  sharedFilters := {}
  vars := .ofList [("user", .map [("login", .map [("password", .string "hunter2")])])]

/-- The password of the user, read by a point behind an indexer. -/
def passwordByPoint : Chain where
  path := "user".toList
  gap := []
  accesses := [.index "\"login\"".toList [], .member "password".toList]
  named := .inl (by decide)
  trimmed := by decide
  blank := by decide
  wellFormed := by decide
  indexFirst := by decide
  closed := by decide

/-- The password is in the store, but no expression reads it by a point. -/
theorem password_by_point_valueless :
    trim passwordByPoint.text = passwordByPoint.text ∧
      Gate.checkExpression oneLogin.security (String.ofList passwordByPoint.text) = .ok () ∧
      ∀ memory value, answer (resolve oneLogin passwordByPoint.text) memory ≠ .ok (some value) := by
  have written : trim passwordByPoint.text = passwordByPoint.text := by decide
  have accepted :
      Gate.checkExpression oneLogin.security (String.ofList passwordByPoint.text) = .ok () :=
    accepted_of_toBool (by decide +kernel)
  refine ⟨written, accepted, fun memory value h => ?_⟩
  have hopen := ((resolve_chain_iff oneLogin passwordByPoint written accepted memory value).1 h).1
  have hmember : Access.member "password".toList ∈ passwordByPoint.accesses :=
    List.mem_cons_of_mem _ (List.mem_cons_self ..)
  exact hopen (.inr ⟨_, hmember, by decide +kernel⟩)

/-- Whether the text of the key of an indexer is a blocked name. -/
def blocksKey (chain : Chain) (memory : Memory) : Prop :=
  ∃ key gap, .index key gap ∈ chain.accesses ∧
    ∃ found, answer (keyValue r key) memory = .ok found ∧ r.security.blocks found.display = true

/-- The password of the user, read by indexers. -/
def passwordByKey : Chain where
  path := "user".toList
  gap := []
  accesses := [.index "\"login\"".toList [], .index "\"password\"".toList []]
  named := .inl (by decide)
  trimmed := by decide
  blank := by decide
  wellFormed := by decide
  indexFirst := by decide
  closed := by decide

/-- Blocked names do not keep indexers away: the password is there under its key. -/
theorem not_valueless_of_blocked_key :
    ¬ ∀ (r : Resolver) (chain : Chain) (memory : Memory) (value : Value),
      Gate.checkExpression r.security (String.ofList chain.text) = .ok () →
      r.blocksMember chain ∨ r.blocksKey chain memory →
      answer (resolve r chain.text) memory ≠ .ok (some value) := by
  intro hclaim
  have hlogin : keyValue oneLogin "\"login\"".toList = pure (.string "login") := by
    rw [keyValue]
    rfl
  have hpassword : keyValue oneLogin "\"password\"".toList = pure (.string "password") := by
    rw [keyValue]
    rfl
  have accepted : Gate.checkExpression oneLogin.security (String.ofList passwordByKey.text) = .ok () :=
    accepted_of_toBool (by decide +kernel)
  have hopen : ¬ oneLogin.blocksMember passwordByKey := by
    rintro (⟨unbound, -⟩ | ⟨access, hmem, hblocked⟩)
    · cases unbound
    · rcases List.mem_cons.1 hmem with rfl | hlast
      · exact Bool.false_ne_true hblocked
      · rcases List.mem_singleton.1 hlast with rfl
        exact Bool.false_ne_true hblocked
  have hvalue : answer (resolve oneLogin passwordByKey.text) {} = .ok (some (.string "hunter2")) := by
    have hresolve := alike_resolve oneLogin (show trim passwordByKey.text = _ by decide) (by decide)
      accepted
    have hchain := (alike_chainValue oneLogin hopen).bind fun found => alike_pure (finished found)
    rw [(hresolve.trans hchain).answer_eq {}]
    simp only [chainValue, passwordByKey, follow, reach, hlogin, hpassword]
    rfl
  refine hclaim oneLogin passwordByKey {} _ accepted (.inr ?_) hvalue
  refine ⟨_, _, List.mem_cons_of_mem _ (List.mem_cons_self ..), .string "password", ?_, ?_⟩
  · rw [hpassword]
    rfl
  · decide +kernel

end Resolver

end Stencil
