import Stencil.Proofs.Cutting
import Stencil.Proofs.Resolution.Agreement
import Stencil.Proofs.Resolution.Splitting
import Stencil.Reference.Parameter

/-!
Identifiers and dotted paths: which characters they consist of, that no scanner stops in them, and how
they are read.

Parameters that are one interpolation of a bound name and nothing else. Such a parameter stands for the value
of the name, whatever kind of value it is; all that the way through an expression does to it is to take one
layer of quotes from a string that has them.
-/

namespace Stencil

open Text

namespace Reference

theorem isFree_of_isIdentifierPart {c : Char} (h : isIdentifierPart c = true) :
    isFree c = true := by
  obtain ⟨hlow, hhigh⟩ := toNat_of_isIdentifierPart h
  refine isFree_iff.2 ⟨?_, ?_, ?_, ?_⟩
  · rintro rfl
    exact absurd hlow (by decide)
  · rintro rfl
    exact absurd hlow (by decide)
  · rintro rfl
    exact absurd h (by decide)
  · rintro rfl
    exact absurd h (by decide)

theorem isFree_of_isBlank {c : Char} (h : isBlank c = true) : isFree c = true := by
  refine isFree_iff.2 ⟨?_, ?_, ?_, ?_⟩
  all_goals
    rintro rfl
    exact absurd h (by decide)

theorem indexed?_eq_none {s : List Char} (free : ∀ c ∈ s, isFree c = true) : indexed? s = none := by
  unfold indexed?
  rw [opening?_eq_none free]
  rfl

end Reference

namespace Resolver

open Reference

/-- A character that may stand in a dotted path. -/
def isPathChar (c : Char) : Bool := isIdentifierPart c || c == '.' || isBlank c

theorem isPathChar_of_named {path : List Char}
    (named : isIdentifier path = true ∨ isPath path = true) :
    ∀ c ∈ path, isPathChar c = true := by
  intro c hc
  rcases named with name | dotted
  · simp [isPathChar, isIdentifierPart_of_isIdentifier name c hc]
  · by_cases hdot : c = '.'
    · simp [isPathChar, hdot]
    · obtain ⟨piece, hpiece, hin⟩ := mem_splitAt hc hdot
      have hsegments := (Bool.and_eq_true_iff.1 dotted).2
      have hname : isIdentifier (trim piece) = true :=
        List.all_eq_true.1 hsegments _ (List.mem_map_of_mem hpiece)
      cases hblank : isBlank c with
      | true => simp [isPathChar, hblank]
      | false => simp [isPathChar, isIdentifierPart_of_isIdentifier hname c (mem_trim hin hblank)]

theorem isFree_of_isPathChar {c : Char} (h : isPathChar c = true) : isFree c = true := by
  simp only [isPathChar, Bool.or_eq_true, beq_iff_eq] at h
  rcases h with (hpart | rfl) | hblank
  · exact isFree_of_isIdentifierPart hpart
  · rfl
  · exact isFree_of_isBlank hblank

section Segments

variable {pieces : List (List Char)} (nonempty : pieces ≠ [])
  (names : ∀ piece ∈ pieces, isIdentifier piece = true)

include nonempty names

theorem splitAt_names : splitAt '.' (joinWith '.' pieces) = pieces :=
  splitAt_joinWith nonempty fun piece hmem => not_mem_identifier (names piece hmem)

/-- Identifiers with points between are the segments of a path. -/
theorem pathSegments_joinWith : pathSegments (joinWith '.' pieces) = pieces := by
  rw [pathSegments, splitAt_names nonempty names]
  conv => rhs; rw [← List.map_id pieces]
  exact List.map_congr_left fun piece hmem => (IsSolid.of_identifier (names piece hmem)).trim_eq

/-- The gate counts the identifiers of a path and then looks for a blocked one. -/
theorem checkPropertyPath_joinWith (security : Security) :
    Gate.checkPropertyPath security (String.ofList (joinWith '.' pieces)) =
      if security.propertyDepth < pieces.length then
        .error (.limitExceeded .propertyDepth security.propertyDepth pieces.length)
      else
        match pieces.find? fun piece => security.blocks (String.ofList piece) with
        | some piece =>
            .error (.unsafePropertyPath (String.ofList (joinWith '.' pieces))
              (.blockedSegment (String.ofList piece)))
        | none => .ok () := by
  have hall : pieces.all isIdentifier = true := List.all_eq_true.2 names
  unfold Gate.checkPropertyPath
  rw [String.toList_ofList, splitAt_names nonempty names]
  dsimp only
  rw [hall]
  rfl

theorem checkPropertyPath_joinWith_eq_ok {security : Security} :
    Gate.checkPropertyPath security (String.ofList (joinWith '.' pieces)) = .ok () ↔
      pieces.length ≤ security.propertyDepth ∧
        ∀ piece ∈ pieces, security.blocks (String.ofList piece) = false := by
  rw [checkPropertyPath_joinWith nonempty names]
  split
  next hdeep =>
    constructor
    · exact fun h => nomatch h
    · exact fun h => absurd h.1 (Nat.not_le_of_lt hdeep)
  next hdepth =>
    split
    next piece hfind =>
      constructor
      · exact fun h => nomatch h
      · intro h
        have hblocked := List.find?_some hfind
        rw [h.2 piece (List.mem_of_find?_eq_some hfind)] at hblocked
        exact Bool.noConfusion hblocked
    next hfind =>
      constructor
      · intro _
        refine ⟨Nat.le_of_not_lt hdepth, fun piece hmem => ?_⟩
        exact (Bool.not_eq_true _).mp (List.find?_eq_none.1 hfind piece hmem)
      · exact fun _ => rfl

end Segments

/-- Two or more identifiers with points between are a path. -/
theorem isPath_joinWith {first second : List Char} {rest : List (List Char)}
    (names : ∀ piece ∈ first :: second :: rest, isIdentifier piece = true) :
    isPath (joinWith '.' (first :: second :: rest)) = true := by
  have hdot : (joinWith '.' (first :: second :: rest)).contains '.' = true := by
    simp [joinWith]
  rw [isPath, pathSegments_joinWith (List.cons_ne_nil _ _) names, hdot, List.all_eq_true.2 names]
  rfl

theorem pathSegments_ne_nil (path : List Char) : pathSegments path ≠ [] := fun hnil =>
  splitAt_ne_nil '.' path (List.map_eq_nil_iff.1 hnil)

theorem isIdentifier_of_mem_pathSegments {path : List Char} (h : isPath path = true) :
    ∀ segment ∈ pathSegments path, isIdentifier segment = true :=
  List.all_eq_true.1 (Bool.and_eq_true_iff.1 h).2

theorem dotted_blocked (r : Resolver) {path : List Char}
    (blocked : ∃ segment ∈ pathSegments path, r.security.blocks (String.ofList segment) = true) :
    dotted r path = pure none := by
  have hany : ((pathSegments path).any fun s => r.security.blocks (String.ofList s)) = true :=
    List.any_eq_true.2 blocked
  unfold dotted
  dsimp only
  rw [hany]
  rfl

/-- A path without blocked names passes the gate, and is looked up by its starts. -/
theorem dotted_open (r : Resolver) {path : List Char}
    (open_ : ∀ segment ∈ pathSegments path, r.security.blocks (String.ofList segment) = false) :
    dotted r path = (do
      liftExcept (Gate.checkPropertyPath r.security
        (String.ofList (joinWith '.' (pathSegments path))))
      match longestBound? r.vars (pathSegments path) (pathSegments path).length with
      | some (root, rest) => recalling (root.path r.host r.security (rest.map String.ofList))
      | none => return none) := by
  have hany : ((pathSegments path).any fun s => r.security.blocks (String.ofList s)) = false := by
    rw [← Bool.not_eq_true, List.any_eq_true]
    rintro ⟨segment, hmem, hblocked⟩
    exact Bool.noConfusion ((open_ segment hmem).symm.trans hblocked)
  unfold dotted
  dsimp only
  rw [hany]
  rfl

theorem mem_of_longestBound? {vars : Variables} {segments rest : List (List Char)} {root : Value}
    {length : Nat} (h : longestBound? vars segments length = some (root, rest)) :
    ∀ segment ∈ rest, segment ∈ segments := by
  induction length with
  | zero => cases h
  | succ length ih =>
      rw [longestBound?] at h
      split at h
      next =>
        cases h
        exact fun segment hmem => List.mem_of_mem_drop hmem
      next => exact ih h

/-- The reading of an identifier or a dotted path. The grammar has no say in it. -/
theorem resolveText_named (r : Resolver) {path : List Char} (named : isIdentifier path = true ∨ isPath path = true)
    (asksGrammar : Bool) :
    resolveText r path asksGrammar = (do
      note (.lookup (String.ofList path))
      match r.direct? path with
      | some value => return some value
      | none => if isPath path then dotted r path else return none) := by
  have hchars := isPathChar_of_named named
  have unindexed : indexed? path = none :=
    indexed?_eq_none fun c hc => isFree_of_isPathChar (hchars c hc)
  have whole : segments path = [path] :=
    split_of_not_mem fun hbar => absurd (hchars '|' hbar) (by decide)
  cases bound : r.direct? path with
  | some value => exact resolveText_bound asksGrammar unindexed bound
  | none =>
      cases hpath : isPath path with
      | true => exact resolveText_path asksGrammar unindexed bound whole hpath
      | false =>
          have hname : isIdentifier path = true :=
            named.resolve_right fun h => Bool.noConfusion (hpath.symm.trans h)
          exact resolveText_identifier asksGrammar unindexed bound whole hname hpath

/-- An accepted name that is bound gives its value without the quotes around it, whatever is remembered. -/
theorem outcome_resolve_name (r : Resolver) {name : List Char} {value : Value}
    (identifier : isIdentifier name = true) (open_ : r.security.blocks (String.ofList name) = false)
    (accepted : Gate.checkExpression r.security (String.ofList name) = .ok ())
    (bound : r.vars.get? (String.ofList name) = some value) (memory : Memory) :
    outcome (resolve r name) memory = (.ok (finished (some value)), { memory with
      trail := .lookup (String.ofList name) :: .expression (String.ofList name) :: memory.trail }) := by
  have unindexed : indexed? name = none := indexed?_eq_none fun c hc =>
    isFree_of_isIdentifierPart (isIdentifierPart_of_isIdentifier identifier c hc)
  have hdirect : r.direct? name = some value := by
    rw [direct?, open_, bound]
    rfl
  have hsolid := IsSolid.of_identifier identifier
  exact outcome_resolve_direct hsolid.trim_eq hsolid.nonempty accepted unindexed hdirect memory

end Resolver

open Markup

/-- The text of an interpolation of a name. -/
def interpolationText (name : String) : String := "\x7b\x7b " ++ name ++ " \x7d\x7d"

namespace Resolver

variable {name : List Char}

/-- The name in an interpolation is all of it that is an expression. -/
theorem soleInterpolation?_name (identifier : isIdentifier name = true) :
    soleInterpolation? ('{' :: '{' :: ' ' :: name ++ [' ', '}', '}']) = some name := by
  let inner : List Char := ' ' :: name ++ [' ']
  have hreverse : (' ' :: name ++ [' ', '}', '}']).reverse = '}' :: '}' :: inner.reverse := by
    simp [inner]
  have hbrace {c : Char} (hc : c = '{' ∨ c = '}') : c ∉ inner := by
    have hname : c ∉ name := fun hmem => by
      have hpart := isIdentifierPart_of_isIdentifier identifier c hmem
      rcases hc with rfl | rfl
      · exact absurd hpart (by decide)
      · exact absurd hpart (by decide)
    rcases hc with rfl | rfl
    · simpa [inner] using hname
    · simpa [inner] using hname
  have hoccurs {mark : List Char} {c : Char} (hmem : c ∈ mark) (hc : c ∉ inner) : occurs mark inner = false := by
    rw [← Bool.not_eq_true, occurs_iff (List.ne_nil_of_mem hmem)]
    exact fun hfound => hc (hfound.subset hmem)
  have htrim : trim inner = name := by
    have hblank : ∀ c ∈ [' '], isBlank c = true := List.forall_mem_singleton.2 (by decide)
    exact (trim_blanks_append hblank (name ++ [' '])).trans
      ((trim_append hblank name).trans (IsSolid.of_identifier identifier).trim_eq)
  have hprefix (c : Char) (rest : List Char) : [c, c].isPrefixOf? (c :: c :: rest) = some rest := by
    simp [List.isPrefixOf?]
  unfold soleInterpolation?
  rw [List.cons_append, List.cons_append, hprefix, Option.bind_eq_bind, Option.bind_some]
  dsimp only
  rw [hreverse, hprefix, Option.bind_some, List.reverse_reverse]
  rw [hoccurs (List.mem_cons_self ..) (hbrace (.inl rfl)),
    hoccurs (List.mem_cons_self ..) (hbrace (.inr rfl)), htrim]
  rfl

/-- Without a default a parameter stands for what is given. -/
theorem parameterValue_defaultless (r : Resolver) (target given : String) :
    r.parameterValue ⟨target, given, none⟩ = r.givenValue given := by
  unfold parameterValue
  simp only [ite_self, bind_pure]

theorem getD_finished (value : Value) : (finished (some value)).getD .null = value.unwrapQuoted := by
  unfold finished present
  rw [Option.map_some, Option.bind_some]
  cases value.unwrapQuoted with
  | null => rfl
  | _ => rfl

/-- A parameter that passes on a bound name has its value, without the quotes around it. -/
theorem answer_parameterValue_interpolation (r : Resolver) {name : String} {value : Value}
    (identifier : isIdentifier name.toList = true) (open_ : r.security.blocks name = false)
    (accepted : Gate.checkExpression r.security name = .ok ()) (bound : r.vars.get? name = some value)
    (target : String) (memory : Memory) :
    answer (r.parameterValue ⟨target, interpolationText name, none⟩) memory = .ok value.unwrapQuoted := by
  obtain ⟨text, rfl⟩ : ∃ text, name = String.ofList text := ⟨name.toList, String.ofList_toList.symm⟩
  rw [String.toList_ofList] at identifier
  let written : List Char := '{' :: '{' :: ' ' :: text ++ [' ', '}', '}']
  have hwritten : (interpolationText (String.ofList text)).toList = written := by
    simp [interpolationText, written]
  have htrim : trim written = written := by
    refine trim_eq_self (fun c hc => ?_) fun c hc => ?_
    · cases hc
      decide
    · have hlast : written.getLast? = some '}' := by
        change (('{' :: '{' :: ' ' :: text) ++ [' ', '}', '}']).getLast? = some '}'
        rw [List.getLast?_append]
        rfl
      cases hlast.symm.trans hc
      decide
  have hresolved := congrArg Prod.fst (outcome_resolve_name r identifier open_ accepted bound memory)
  rw [parameterValue_defaultless, ← getD_finished]
  unfold givenValue
  dsimp only
  rw [hwritten, htrim, soleInterpolation?_name identifier]
  exact answer_map hresolved fun found => found.getD .null

end Resolver

end Stencil
