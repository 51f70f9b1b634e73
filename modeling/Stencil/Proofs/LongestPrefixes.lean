import Mathlib.Data.List.Forall2
import Stencil.Proofs.Resolution.Path

/-!
Dotted paths. Of all the starts of a path that are names of variables the longest one counts, and from its
value the names behind it lead on as members. What is bound under a shorter start makes no difference, and
neither do blanks around the points.
-/

namespace Stencil

open Text

/-- The value that members lead to, one after another. A missing member leads nowhere, and so does null. -/
def Value.walk (host : Host) : Value → List String → StateM Decisions (Option Value)
  | target, [] => pure (Resolver.present target)
  | target, name :: rest => do
      match ← target.member host name with
      | some next => next.walk host rest
      | none => pure none

/-- Where nothing is blocked, a path is a walk of members. -/
theorem Value.path_eq_walk {security : Security} {names : List String}
    (unblocked : ∀ name ∈ names, security.blocks name = false) (host : Host) (value : Value) :
    value.path host security names = value.walk host names := by
  induction names generalizing value with
  | nil => rfl
  | cons name rest ih =>
      obtain ⟨hname, hrest⟩ := List.forall_mem_cons.1 unblocked
      rw [path, walk, hname, Bool.false_or]
      split
      next hnull =>
        -- null has no members
        cases value with
        | null => rfl
        | _ => cases hnull
      next =>
        refine congrArg _ (funext fun found => ?_)
        cases found with
        | none => rfl
        | some next => exact ih hrest next

/-- A dotted path as the settings allow it: identifiers, none of them blocked, and not too many. -/
structure DottedPath (security : Security) where
  names : List (List Char)
  nonempty : names ≠ []
  identifiers : ∀ name ∈ names, isIdentifier name = true
  unblocked : ∀ name ∈ names, security.blocks (String.ofList name) = false
  shallow : names.length ≤ security.propertyDepth

/-- A name with blanks around it. -/
def Padded (name piece : List Char) : Prop :=
  ∃ before after : List Char, (∀ c ∈ before, isBlank c = true) ∧ (∀ c ∈ after, isBlank c = true) ∧
    piece = before ++ name ++ after

theorem Padded.trim_eq {name piece : List Char} (h : Padded name piece) (identifier : isIdentifier name = true) :
    trim piece = name := by
  obtain ⟨before, after, hbefore, hafter, rfl⟩ := h
  rw [trim_append hafter, trim_blanks_append hbefore]
  exact (IsSolid.of_identifier identifier).trim_eq

theorem Padded.not_mem {name piece : List Char} (h : Padded name piece) (identifier : isIdentifier name = true) :
    '.' ∉ piece := by
  obtain ⟨before, after, hbefore, hafter, rfl⟩ := h
  have hblank {gap : List Char} (hgap : ∀ c ∈ gap, isBlank c = true) : '.' ∉ gap := fun hmem =>
    absurd (hgap '.' hmem) (by decide)
  simp [hblank hbefore, hblank hafter, not_mem_identifier identifier]

namespace DottedPath

variable {security : Security} (path : DottedPath security)

/-- The path without blanks. -/
def text : List Char := joinWith '.' path.names

/-- The first names of the path, as the name of a variable. -/
def start (length : Nat) : String := String.ofList (joinWith '.' (path.names.take length))

/-- The names behind the first ones. -/
def members (length : Nat) : List String := (path.names.drop length).map String.ofList

/-- A text is the path, maybe with blanks around its names. -/
def IsSpelled (text : List Char) : Prop :=
  ∃ pieces, List.Forall₂ Padded path.names pieces ∧ text = joinWith '.' pieces

/-- The longest start of the path that is the name of a variable, and its value. -/
structure Longest (vars : Variables) (length : Nat) (root : Value) : Prop where
  pos : 0 < length
  le : length ≤ path.names.length
  bound : vars.get? (path.start length) = some root
  longest : ∀ longer, length < longer → longer ≤ path.names.length → vars.get? (path.start longer) = none

/-- No start of the path is the name of a variable. -/
def Unbound (vars : Variables) : Prop :=
  ∀ length, 0 < length → length ≤ path.names.length → vars.get? (path.start length) = none

variable {path} {vars : Variables}

theorem longestBound?_succ (path : DottedPath security) (vars : Variables) (length : Nat) :
    Resolver.longestBound? vars path.names (length + 1) =
      match vars.get? (path.start (length + 1)) with
      | some root => some (root, path.names.drop (length + 1))
      | none => Resolver.longestBound? vars path.names length :=
  rfl

theorem longestBound?_of_longest {length : Nat} {root : Value} (h : path.Longest vars length root) :
    Resolver.longestBound? vars path.names path.names.length = some (root, path.names.drop length) := by
  have hdescent {limit : Nat} (hlimit : limit ≤ path.names.length) (hlength : length ≤ limit) :
      Resolver.longestBound? vars path.names limit = some (root, path.names.drop length) := by
    induction limit with
    | zero => exact absurd h.pos (Nat.not_lt.2 hlength)
    | succ limit ih =>
        rw [longestBound?_succ]
        rcases Nat.eq_or_lt_of_le hlength with rfl | hlt
        · rw [h.bound]
        · rw [h.longest (limit + 1) hlt hlimit]
          exact ih (Nat.le_of_succ_le hlimit) (Nat.le_of_lt_succ hlt)
  exact hdescent (Nat.le_refl _) h.le

theorem longestBound?_of_unbound (h : path.Unbound vars) :
    Resolver.longestBound? vars path.names path.names.length = none := by
  have hdescent {limit : Nat} (hlimit : limit ≤ path.names.length) :
      Resolver.longestBound? vars path.names limit = none := by
    induction limit with
    | zero => rfl
    | succ limit ih =>
        rw [longestBound?_succ, h (limit + 1) (Nat.succ_pos _) hlimit]
        exact ih (Nat.le_of_succ_le hlimit)
  exact hdescent (Nat.le_refl _)

/-- Some start of a path is the longest one that is bound, or none is bound. -/
theorem exists_longest_or_unbound (path : DottedPath security) (vars : Variables) :
    (∃ length root, path.Longest vars length root) ∨ path.Unbound vars := by
  have hascent {limit : Nat} (hlimit : limit ≤ path.names.length)
      (habove : ∀ longer, limit < longer → longer ≤ path.names.length → vars.get? (path.start longer) = none) :
      (∃ length root, path.Longest vars length root) ∨ path.Unbound vars := by
    induction limit with
    | zero => exact .inr habove
    | succ limit ih =>
        cases hbound : vars.get? (path.start (limit + 1)) with
        | some root => exact .inl ⟨limit + 1, root, Nat.succ_pos _, hlimit, hbound, habove⟩
        | none =>
            refine ih (Nat.le_of_succ_le hlimit) fun longer hlt hle => ?_
            rcases Nat.eq_or_lt_of_le (Nat.succ_le_of_lt hlt) with rfl | hlt
            · exact hbound
            · exact habove longer hlt hle
  exact hascent (Nat.le_refl _) fun longer hlt hle => absurd hle (Nat.not_le.2 hlt)

theorem pathSegments_of_isSpelled {text : List Char} (h : path.IsSpelled text) :
    Resolver.pathSegments text = path.names := by
  obtain ⟨pieces, hpadded, rfl⟩ := h
  have hpieces : (∀ piece ∈ pieces, '.' ∉ piece) ∧ pieces.map trim = path.names := by
    have identifiers := path.identifiers
    generalize path.names = names at hpadded identifiers
    induction hpadded with
    | nil => exact ⟨fun _ hmem => absurd hmem List.not_mem_nil, rfl⟩
    | cons hpiece _ ih =>
        obtain ⟨hname, hnames⟩ := List.forall_mem_cons.1 identifiers
        obtain ⟨hpoints, htrim⟩ := ih hnames
        exact ⟨List.forall_mem_cons.2 ⟨hpiece.not_mem hname, hpoints⟩,
          congrArg₂ List.cons (hpiece.trim_eq hname) htrim⟩
  have hnonempty : pieces ≠ [] := by
    rintro rfl
    exact path.nonempty (List.forall₂_nil_right_iff.1 hpadded)
  rw [Resolver.pathSegments, splitAt_joinWith hnonempty hpieces.1, hpieces.2]

/-- A text without blanks at its ends that spells a path is an identifier or a dotted path for a resolution. -/
theorem named_of_isSpelled {text : List Char} (h : path.IsSpelled text) (trimmed : trim text = text) :
    isIdentifier text = true ∨ Resolver.isPath text = true := by
  have hsegments := pathSegments_of_isSpelled h
  have hall : ∀ segment ∈ Resolver.pathSegments text, isIdentifier segment = true := by
    rw [hsegments]
    exact path.identifiers
  by_cases hpoint : '.' ∈ text
  · refine .inr (Bool.and_eq_true_iff.2 ⟨?_, List.all_eq_true.2 hall⟩)
    rw [List.contains_eq_mem, decide_eq_true hpoint]
  · rw [Resolver.pathSegments, splitAt_of_not_mem hpoint, List.map_singleton, trimmed] at hall
    exact .inl (hall text (List.mem_singleton_self text))

end DottedPath

namespace Resolver

/-- What is found for a dotted path: the walk from the longest start that is bound. -/
def foundAt (r : Resolver) (path : DottedPath r.security) (decisions : Decisions) : Option Value :=
  match longestBound? r.vars path.names path.names.length with
  | some (root, rest) => (root.walk r.host (rest.map String.ofList) decisions).1
  | none => none

section Resolved

variable {r : Resolver} {path : DottedPath r.security} {expression : List Char}
  (spelled : path.IsSpelled (trim expression))
  (accepted : Gate.checkExpression r.security (String.ofList (trim expression)) = .ok ())
  (unbound : trim expression = path.text ∨ r.vars.get? (String.ofList (trim expression)) = none)

include spelled in
theorem answer_dotted_isSpelled (memory : Memory) :
    answer (dotted r (trim expression)) memory = .ok (r.foundAt path memory.decisions) := by
  have hsegments := DottedPath.pathSegments_of_isSpelled spelled
  have hcheck := (checkPropertyPath_joinWith_eq_ok path.nonempty path.identifiers).2 ⟨path.shallow, path.unblocked⟩
  rw [dotted_open r (hsegments.symm ▸ path.unblocked), hsegments, hcheck]
  unfold foundAt
  cases hlongest : longestBound? r.vars path.names path.names.length with
  | none => rfl
  | some found =>
      obtain ⟨root, rest⟩ := found
      have hrest : ∀ name ∈ rest.map String.ofList, r.security.blocks name = false := by
        intro name hmem
        obtain ⟨segment, hsegment, rfl⟩ := List.mem_map.1 hmem
        exact path.unblocked segment (mem_of_longestBound? hlongest segment hsegment)
      dsimp only
      rw [Value.path_eq_walk hrest]
      rfl

include unbound in
/-- A path that is the name of a variable as it stands is the longest start of itself that is bound. -/
theorem longest_of_direct? {value : Value} (h : r.direct? (trim expression) = some value) :
    path.Longest r.vars path.names.length value := by
  have hbound : r.vars.get? (String.ofList (trim expression)) = some value := by
    unfold direct? at h
    split at h
    · cases h
    · exact h
  have htext : trim expression = path.text := unbound.resolve_right fun hnone => by
    rw [hbound] at hnone
    cases hnone
  refine ⟨List.length_pos_of_ne_nil path.nonempty, Nat.le_refl _, ?_, fun longer hlt hle =>
    absurd hle (Nat.not_le.2 hlt)⟩
  rw [DottedPath.start, List.take_length, ← DottedPath.text, ← htext, hbound]

include spelled in
/-- A single identifier without a value is a path without one. -/
theorem unbound_of_direct? (identifier : isIdentifier (trim expression) = true)
    (h : r.direct? (trim expression) = none) : path.Unbound r.vars := by
  have hnames : path.names = [trim expression] := by
    rw [← DottedPath.pathSegments_of_isSpelled spelled, pathSegments,
      splitAt_of_not_mem (not_mem_identifier identifier), List.map_singleton, trim_trim]
  have hopen : r.security.blocks (String.ofList (trim expression)) = false :=
    path.unblocked _ (hnames ▸ List.mem_singleton_self _)
  have hnone : r.vars.get? (String.ofList (trim expression)) = none := by
    rw [direct?, hopen] at h
    exact h
  intro length hpos hle
  rw [hnames, List.length_singleton] at hle
  rw [DottedPath.start, hnames, Nat.le_antisymm hle hpos]
  exact hnone

include spelled accepted unbound

/-- A dotted path is resolved to what is found for it. -/
theorem answer_resolve_isSpelled (memory : Memory) :
    answer (resolve r expression) memory = .ok (finished (r.foundAt path memory.decisions)) := by
  have named := DottedPath.named_of_isSpelled spelled (trim_trim expression)
  have hnonempty : trim expression ≠ [] := by
    intro hnil
    rw [hnil] at named
    rcases named with h | h
    · cases h
    · cases h
  suffices hvalue : ∃ value, answer (resolveText r (trim expression) true) memory = .ok value ∧
      finished value = finished (r.foundAt path memory.decisions) by
    obtain ⟨value, hanswer, hfinished⟩ := hvalue
    rw [(alike_resolve r rfl hnonempty accepted).answer_eq memory, answer_map hanswer finished, hfinished]
  rw [resolveText_named r named, answer, outcome_bind_ok (outcome_note _ memory)]
  cases hdirect : r.direct? (trim expression) with
  | some value =>
      refine ⟨some value, rfl, ?_⟩
      rw [foundAt, DottedPath.longestBound?_of_longest (longest_of_direct? unbound hdirect), List.drop_length,
        ← finished_present]
      rfl
  | none =>
      cases hpath : isPath (trim expression) with
      | true => exact ⟨_, answer_dotted_isSpelled spelled _, rfl⟩
      | false =>
          have identifier := named.resolve_right fun h => Bool.noConfusion (hpath.symm.trans h)
          refine ⟨none, rfl, ?_⟩
          rw [foundAt, DottedPath.longestBound?_of_unbound (unbound_of_direct? spelled identifier hdirect)]

/-- Where some start of the path is bound, what is found is what the walk from the longest one finds. -/
theorem answer_resolve_of_longest {length : Nat} {root : Value} (h : path.Longest r.vars length root)
    (memory : Memory) :
    answer (resolve r expression) memory =
      .ok (finished (root.walk r.host (path.members length) memory.decisions).1) := by
  rw [answer_resolve_isSpelled spelled accepted unbound, foundAt, DottedPath.longestBound?_of_longest h]
  rfl

end Resolved

/-- Longest prefixes win. A dotted path that the gate accepts is resolved to what the walk of members finds that
starts from the variable bound under the longest start of the path that is bound, and to nothing where no start
is bound, or where the walk comes to a missing member or to null. Shorter starts make no difference, nor does
any other variable; and neither do blanks around the names, unless the text with them is a name itself. -/
theorem longest_prefix_wins (r : Resolver) (path : DottedPath r.security) {expression : List Char}
    (spelled : path.IsSpelled (trim expression))
    (accepted : Gate.checkExpression r.security (String.ofList (trim expression)) = .ok ())
    (unbound : trim expression = path.text ∨ r.vars.get? (String.ofList (trim expression)) = none)
    (memory : Memory) :
    let found := answer (resolve r expression) memory
    (∀ length root, path.Longest r.vars length root →
      found = .ok (finished (root.walk r.host (path.members length) memory.decisions).1)) ∧
    (path.Unbound r.vars → found = .ok none) ∧
    (∀ length root, path.Longest r.vars length root → ∀ vars : Variables,
      (∀ longer, length ≤ longer → longer ≤ path.names.length →
        vars.get? (path.start longer) = r.vars.get? (path.start longer)) →
      (trim expression = path.text ∨ vars.get? (String.ofList (trim expression)) = none) →
      answer (resolve (r.withVars vars) expression) memory = found) ∧
    ∀ respelled, path.IsSpelled (trim respelled) →
      Gate.checkExpression r.security (String.ofList (trim respelled)) = .ok () →
      (trim respelled = path.text ∨ r.vars.get? (String.ofList (trim respelled)) = none) →
      answer (resolve r respelled) memory = found := by
  intro found
  have hfound : found = .ok (finished (r.foundAt path memory.decisions)) :=
    answer_resolve_isSpelled spelled accepted unbound memory
  refine ⟨fun length root hlongest => answer_resolve_of_longest spelled accepted unbound hlongest memory,
    fun hunbound => ?_, fun length root hlongest vars hsame unbound' => ?_,
    fun respelled spelled' accepted' unbound' => ?_⟩
  · rw [hfound, foundAt, DottedPath.longestBound?_of_unbound hunbound]
    rfl
  · have hlongest' : path.Longest vars length root := { hlongest with
      bound := (hsame length (Nat.le_refl _) hlongest.le).trans hlongest.bound
      longest := fun longer hlt hle =>
        (hsame longer (Nat.le_of_lt hlt) hle).trans (hlongest.longest longer hlt hle) }
    have hother := @answer_resolve_of_longest (r.withVars vars) path expression spelled accepted unbound' length
      root hlongest' memory
    exact hother.trans (answer_resolve_of_longest spelled accepted unbound hlongest memory).symm
  · exact (answer_resolve_isSpelled spelled' accepted' unbound' memory).trans hfound.symm

/-- A city that is bound under a dotted name, and once more as a member. -/
def twoCities : Resolver where
  security := {}
  host := ⟨fun _ _ => none, fun _ _ => false, fun _ _ => none⟩
  ownFilters := {}
  sharedFilters := {}
  vars := .ofList [("user", .map [("home", .map [("city", .string "Bern")])]),
    ("User.Home", .map [("City", .string "Genf")])]

def homeCity : DottedPath twoCities.security where
  names := ["user".toList, "home".toList, "city".toList]
  nonempty := List.cons_ne_nil _ _
  identifiers := by decide
  unblocked := by decide
  shallow := by decide

/-- Of two cities the one counts that is found from the longer name, with blanks and without them. -/
theorem longest_prefix_wins_city :
    answer (resolve twoCities "user.home.city".toList) {} = .ok (some (.string "Genf")) ∧
      answer (resolve twoCities " user . home.city".toList) {} = .ok (some (.string "Genf")) := by
  have plain : homeCity.IsSpelled (trim "user.home.city".toList) :=
    ⟨homeCity.names, List.forall₂_same.2 fun name _ => ⟨[], [], by simp, by simp, by simp⟩, by decide⟩
  have padded : homeCity.IsSpelled (trim " user . home.city".toList) := by
    refine ⟨["user ".toList, " home".toList, "city".toList], ?_, by decide⟩
    have hblank : ∀ c ∈ [' '], isBlank c = true := List.forall_mem_singleton.2 (by decide)
    exact .cons ⟨[], [' '], by simp, hblank, rfl⟩
      (.cons ⟨[' '], [], hblank, by simp, rfl⟩ (.cons ⟨[], [], by simp, by simp, rfl⟩ .nil))
  have longest : homeCity.Longest twoCities.vars 2 (.map [("City", .string "Genf")]) := by
    refine ⟨by decide, by decide, rfl, fun longer hlt hle => ?_⟩
    obtain rfl : longer = 3 := Nat.le_antisymm hle hlt
    rfl
  have accepted : Gate.checkExpression twoCities.security (String.ofList (trim "user.home.city".toList)) =
      .ok () := accepted_of_toBool (by decide +kernel)
  have accepted' : Gate.checkExpression twoCities.security
      (String.ofList (trim " user . home.city".toList)) = .ok () := accepted_of_toBool (by decide +kernel)
  obtain ⟨hwalk, -, -, hrespelled⟩ := longest_prefix_wins twoCities homeCity plain accepted (.inl (by decide)) {}
  have hcity := hwalk 2 _ longest
  exact ⟨hcity, (hrespelled _ padded accepted' (.inr rfl)).trans hcity⟩

end Resolver

end Stencil
