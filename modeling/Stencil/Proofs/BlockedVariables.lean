import Stencil.Proofs.Folding
import Stencil.Proofs.Resolution.Path

/-!
Blocked names and variables. A store finds its variables by names folded to lower case, the lower case
of all scripts; the block list is compared by the case of basic letters. What lies between the two is
what an expression can tell about the variables that the block list is there to hide.
-/

namespace Stencil

open Text Reference Resolver

namespace Security

/-- Whether the store finds under a text what it finds under some blocked name. -/
def hides (security : Security) (text : List Char) : Prop :=
  ∃ blocked ∈ security.blockedNames, Variables.fold blocked = Variables.fold (String.ofList text)

/-- Stores that differ at most in what they hold under the keys of blocked names. -/
def AgreeOff (security : Security) (vars vars' : Variables) : Prop :=
  ∀ key, (∀ blocked ∈ security.blockedNames, Variables.fold blocked ≠ key) →
    (vars'.find? key).map Binding.value = (vars.find? key).map Binding.value

/-- Expressions get the same answers, whatever is bound under the keys of blocked names. -/
def NonInterference (security : Security) : Prop :=
  ∀ (host : Host) (own shared : FilterRegister) (vars vars' : Variables),
    security.AgreeOff vars vars' → ∀ (memory : Memory) (expression : List Char),
      answer (resolve ⟨security, host, own, shared, vars⟩ expression) memory =
        answer (resolve ⟨security, host, own, shared, vars'⟩ expression) memory

/-- Whether a resolution asks the store for a text: as a name that is not blocked, or as the start of
a dotted path that passes the gate. -/
def looksUp (security : Security) (text : List Char) : Prop :=
  indexed? text = none ∧ security.blocks (String.ofList text) = false ∨
    isPath text = true ∧ joinWith '.' (pathSegments text) = text ∧
      Gate.checkPropertyPath security (String.ofList text) = .ok ()

/-- Whether a text may be an expression by itself. -/
def admits (security : Security) (text : List Char) : Prop :=
  trim text = text ∧ text ≠ [] ∧ Gate.checkExpression security (String.ofList text) = .ok ()

variable {security : Security}

theorem AgreeOff.get?_eq {vars vars' : Variables} (agree : security.AgreeOff vars vars')
    {text : List Char} (shown : ¬ security.hides text) :
    vars'.get? (String.ofList text) = vars.get? (String.ofList text) := by
  refine agree _ fun blocked hmem hkey => ?_
  exact shown ⟨blocked, hmem, hkey⟩

/-- The start of a path that passes the gate is looked up. -/
theorem looksUp_take {segments : List (List Char)}
    (names : ∀ segment ∈ segments, isIdentifier segment = true)
    (accepted : segments.length ≤ security.propertyDepth ∧
      ∀ segment ∈ segments, security.blocks (String.ofList segment) = false)
    (nonempty : segments ≠ []) (length : Nat) :
    security.looksUp (joinWith '.' (segments.take (length + 1))) := by
  obtain ⟨depth, open_⟩ := accepted
  have hmem : ∀ segment ∈ segments.take (length + 1), segment ∈ segments :=
    fun segment h => List.mem_of_mem_take h
  have hnames : ∀ segment ∈ segments.take (length + 1), isIdentifier segment = true :=
    fun segment h => names segment (hmem segment h)
  have hlength : (segments.take (length + 1)).length ≤ security.propertyDepth := by
    rw [List.length_take]
    omega
  rcases htake : segments.take (length + 1) with _ | ⟨first, _ | ⟨second, rest⟩⟩
  · cases segments with
    | nil => exact absurd rfl nonempty
    | cons first rest => exact nomatch htake
  · have hfirst : first ∈ segments := hmem first (by rw [htake]; exact List.mem_cons_self ..)
    refine Or.inl ⟨?_, open_ first hfirst⟩
    exact indexed?_eq_none fun c hc =>
      isFree_of_isIdentifierPart (isIdentifierPart_of_isIdentifier (names first hfirst) c hc)
  · rw [htake] at hmem hnames hlength
    have hne : first :: second :: rest ≠ [] := List.cons_ne_nil _ _
    have hsegments := pathSegments_joinWith hne hnames
    refine Or.inr ⟨isPath_joinWith hnames, by rw [hsegments], ?_⟩
    refine (checkPropertyPath_joinWith_eq_ok hne hnames).2 ⟨hlength, fun segment h => ?_⟩
    exact open_ segment (hmem segment h)

theorem longestBound?_congr {vars vars' : Variables} {segments : List (List Char)}
    (h : ∀ length, vars'.get? (String.ofList (joinWith '.' (segments.take (length + 1)))) =
      vars.get? (String.ofList (joinWith '.' (segments.take (length + 1)))))
    (length : Nat) : longestBound? vars' segments length = longestBound? vars segments length := by
  induction length with
  | zero => rfl
  | succ length ih => rw [longestBound?, longestBound?, h length, ih]

/-- Where no hidden name is looked up, resolutions cannot tell stores that differ in them apart. -/
theorem agrees_of_agreeOff (unseen : ∀ text, security.hides text → ¬ security.looksUp text)
    {r : Resolver} (hsecurity : r.security = security) {vars : Variables}
    (agree : security.AgreeOff r.vars vars) : r.Agrees vars := by
  subst hsecurity
  refine ⟨fun text unindexed => ?_, fun text hpath => ?_⟩
  · -- a text that is not blocked is looked up as a name, so that it hides nothing
    unfold direct?
    change (if r.security.blocks (String.ofList text) = true then none
      else vars.get? (String.ofList text)) = _
    cases hblocks : r.security.blocks (String.ofList text) with
    | true => rfl
    | false => exact agree.get?_eq fun hidden => unseen text hidden (Or.inl ⟨unindexed, hblocks⟩)
  · have nonempty := pathSegments_ne_nil text
    have names := isIdentifier_of_mem_pathSegments hpath
    by_cases blocked :
        ∃ segment ∈ pathSegments text, r.security.blocks (String.ofList segment) = true
    · rw [dotted_blocked r blocked, dotted_blocked (r.withVars vars) blocked]
    · have open_ : ∀ segment ∈ pathSegments text,
          r.security.blocks (String.ofList segment) = false :=
        fun segment hmem => Bool.eq_false_iff.2 fun h => blocked ⟨segment, hmem, h⟩
      rw [dotted_open r open_, dotted_open (r.withVars vars) open_]
      dsimp only [withVars]
      cases hcheck : Gate.checkPropertyPath r.security
          (String.ofList (joinWith '.' (pathSegments text))) with
      | error fault => rfl
      | ok =>
          have accepted := (checkPropertyPath_joinWith_eq_ok nonempty names).1 hcheck
          rw [longestBound?_congr fun length => agree.get?_eq fun hidden =>
            unseen _ hidden (looksUp_take names accepted nonempty length)]

theorem nonInterference_of_unseen
    (unseen : ∀ text, security.hides text → ¬ security.looksUp text) :
    security.NonInterference := by
  intro host own shared vars vars' agree memory expression
  have hagrees : Agrees ⟨security, host, own, shared, vars⟩ vars' :=
    agrees_of_agreeOff unseen rfl agree
  exact (hagrees.alike_resolve expression).answer_eq memory

/-- A store with one variable. -/
def holding (text : List Char) (value : Value) : Variables :=
  ⟨[⟨Variables.fold (String.ofList text), String.ofList text, value⟩]⟩

theorem get?_holding (text : List Char) (value : Value) :
    (holding text value).get? (String.ofList text) = some value := by
  simp [holding, Variables.get?, Variables.find?]

theorem agreeOff_holding {text : List Char} (hidden : security.hides text) (value value' : Value) :
    security.AgreeOff (holding text value) (holding text value') := by
  obtain ⟨blocked, hmem, hfold⟩ := hidden
  intro key hkey
  have hne : (Variables.fold (String.ofList text) == key) = false := by
    rw [← hfold, beq_eq_false_iff_ne]
    exact hkey blocked hmem
  simp only [holding, Variables.find?, List.find?_cons, hne, List.find?_nil]

/-- What is looked up is found. -/
theorem answer_of_looksUp {text : List Char} (looked : security.looksUp text) {r : Resolver}
    (hsecurity : r.security = security) {value : Value} (notNull : value.isNull = false)
    (bound : r.vars.get? (String.ofList text) = some value) (memory : Memory) :
    answer (resolveText r text true) memory = .ok (some value) := by
  subst hsecurity
  rcases looked with ⟨unindexed, hblocks⟩ | ⟨hpath, hjoin, hcheck⟩
  · have hdirect : r.direct? text = some value := by
      rw [direct?, hblocks]
      exact bound
    rw [resolveText_bound true unindexed hdirect]
    rfl
  · rw [resolveText_named r (.inr hpath) true]
    -- the whole path is found as a name, unless that is blocked, and otherwise as its longest start
    cases hdirect : r.direct? text with
    | some other =>
        rw [direct?] at hdirect
        split at hdirect
        next => cases hdirect
        next =>
          cases hdirect.symm.trans bound
          rfl
    | none =>
        have nonempty := pathSegments_ne_nil text
        have names := isIdentifier_of_mem_pathSegments hpath
        rw [← hjoin] at hcheck
        have accepted := (checkPropertyPath_joinWith_eq_ok nonempty names).1 hcheck
        have hfound : longestBound? r.vars (pathSegments text) (pathSegments text).length =
            some (value, []) := by
          rcases hlength : (pathSegments text).length with _ | length
          · exact absurd (List.length_eq_zero_iff.1 hlength) nonempty
          · rw [longestBound?, ← hlength, List.take_length, hjoin, bound, List.drop_length]
        dsimp only
        rw [if_pos hpath, dotted_open r accepted.2, hcheck, hfound]
        dsimp only
        rw [List.map_nil, Value.path, notNull]
        rfl

/-- What a store holds under a blocked name can be told by a spelling of the name that is looked up:
the stores in which it stands for one text or another give different answers. -/
theorem not_nonInterference_of_looksUp {text : List Char} (hidden : security.hides text)
    (looked : security.looksUp text) (admitted : security.admits text) :
    ¬ security.NonInterference := by
  intro noninterference
  obtain ⟨trimmed, nonempty, accepted⟩ := admitted
  let host : Host := ⟨fun _ _ => none, fun _ _ => false, fun _ _ => none⟩
  have hanswer : ∀ letter : String,
      answer (resolve ⟨security, host, {}, {}, holding text (.string letter)⟩ text) {} =
        .ok (finished (some (.string letter))) := by
    intro letter
    have bound := get?_holding text (.string letter)
    have hresolve := alike_resolve ⟨security, host, {}, {}, holding text (.string letter)⟩ trimmed
      nonempty accepted
    have hfound := answer_of_looksUp (r := ⟨security, host, {}, {}, holding text (.string letter)⟩)
      looked rfl rfl bound {}
    rw [hresolve.answer_eq {}]
    exact answer_map hfound finished
  have hsame := noninterference host {} {} (holding text (.string "a")) (holding text (.string "b"))
    (agreeOff_holding hidden _ _) {} text
  rw [hanswer, hanswer] at hsame
  have hletters : Value.string "a" = Value.string "b" := Option.some.inj (Except.ok.inj hsame)
  exact absurd (Value.string.inj hletters) (by decide)

/-- A security keeps blocked variables from expressions if and only if it blocks every spelling that
the store takes for a blocked name. -/
theorem nonInterference_iff
    (admitted : ∀ text, security.hides text → security.looksUp text → security.admits text) :
    security.NonInterference ↔ ∀ text, security.hides text → ¬ security.looksUp text := by
  constructor
  · intro noninterference text hidden looked
    exact not_nonInterference_of_looksUp hidden looked (admitted text hidden looked) noninterference
  · exact nonInterference_of_unseen

/-- With the name k blocked, the sign of the kelvin is an expression that reads the variable k. -/
theorem kelvin_tells :
    (∀ text, hides { blockedNames := ["k"] } text → looksUp { blockedNames := ["k"] } text →
      admits { blockedNames := ["k"] } text) ∧
      ¬ NonInterference { blockedNames := ["k"] } := by
  have hspellings : ∀ text, hides { blockedNames := ["k"] } text →
      text = ['k'] ∨ text = ['K'] ∨ text = ['\u212a'] := by
    rintro text ⟨blocked, hmem, hfold⟩
    obtain rfl : blocked = "k" := List.mem_singleton.1 hmem
    have hk : lower "k".toList = ['k'] := by decide +kernel
    have hlower : lower "k".toList = lower (String.ofList text).toList :=
      String.ofList_injective hfold
    rw [hk, String.toList_ofList] at hlower
    exact eq_of_lower_eq_k hlower.symm
  have admitted : ∀ text, hides { blockedNames := ["k"] } text →
      looksUp { blockedNames := ["k"] } text → admits { blockedNames := ["k"] } text := by
    intro text hidden _
    rcases hspellings text hidden with rfl | rfl | rfl
    · exact ⟨by decide, by decide, accepted_of_toBool (by decide +kernel)⟩
    · exact ⟨by decide, by decide, accepted_of_toBool (by decide +kernel)⟩
    · exact ⟨by decide, by decide, accepted_of_toBool (by decide +kernel)⟩
  refine ⟨admitted, fun noninterference => ?_⟩
  have hidden : hides { blockedNames := ["k"] } ['\u212a'] :=
    ⟨"k", List.mem_cons_self .., by decide +kernel⟩
  have looked : looksUp { blockedNames := ["k"] } ['\u212a'] :=
    .inl ⟨by decide, by decide +kernel⟩
  exact (nonInterference_iff admitted).1 noninterference _ hidden looked

/-- The names that are blocked from the start do not keep their variables hidden: the kelvin sign in
place of the capital K reads the key. -/
theorem not_forall_nonInterference : ¬ ∀ security : Security, security.NonInterference := by
  intro hclaim
  have hidden : hides {} "api\u212aey".toList := ⟨"apiKey", by decide, by decide +kernel⟩
  have looked : looksUp {} "api\u212aey".toList := .inl ⟨by decide, by decide +kernel⟩
  have admitted : admits {} "api\u212aey".toList :=
    ⟨by decide, by decide, accepted_of_toBool (by decide +kernel)⟩
  exact not_nonInterference_of_looksUp hidden looked admitted (hclaim {})

end Security

end Stencil
