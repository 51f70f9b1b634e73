import Stencil.Proofs.Grammar.Consulted
import Stencil.Proofs.Resolution.Answer
import Stencil.Proofs.Resolution.Likeness

/-!
Invariants of resolutions. An invariant says what is known of what is remembered, and what is known of the
values that a resolution comes to. What it has to say is asked once of each thing that a resolver does by
itself: of the events that it notes, of members and elements, of variables and filters. From that every part
of a resolution keeps it, by one induction along the recursion.
-/

/-! What formulas make. Literals are scalars, and so is what every operator makes: a formula gives nothing that
holds other values unless a reference in it does. -/

namespace Stencil

namespace Value

/-- A value that holds no others. -/
def isScalar : Value → Bool
  | .list _ | .map _ | .object _ => false
  | _ => true

/-- Quotes come off a string alone. -/
theorem unwrapQuoted_cases (value : Value) :
    value.unwrapQuoted = value ∨ value.unwrapQuoted.isScalar = true := by
  unfold unwrapQuoted
  split
  · split
    · exact .inr rfl
    · exact .inl rfl
  · exact .inl rfl

end Value

namespace Formula

/-- A formula without literals that hold other values. -/
def isPlain : Formula → Bool
  | .literal value => value.isScalar
  | .reference _ => true
  | .negate operand => operand.isPlain
  | .not operand => operand.isPlain
  | .binary _ left right => left.isPlain && right.isPlain

/-- A token that is no literal, or one whose value holds no others. -/
def Token.isPlain : Token → Bool
  | .literal value => value.isScalar
  | _ => true

theorem isPlain_of_leaves {formula : Formula} (h : ∀ leaf ∈ formula.leaves, leaf.isPlain = true) :
    formula.isPlain = true := by
  induction formula with
  | literal value => exact h _ (List.mem_cons_self ..)
  | reference text => rfl
  | negate operand ih => exact ih h
  | not operand ih => exact ih h
  | binary operator left right ihl ihr =>
      rw [isPlain, ihl fun leaf hmem => h leaf (List.mem_append_left _ hmem),
        ihr fun leaf hmem => h leaf (List.mem_append_right _ hmem), Bool.and_self]

theorem isScalar_numberValue (text : List Char) : (numberValue text).isScalar = true := by
  unfold numberValue
  split
  · rfl
  · split
    · rfl
    · rfl

theorem isPlain_wordToken (word : List Char) : (wordToken word).isPlain = true := by
  unfold wordToken
  repeat' split
  all_goals rfl

theorem isPlain_of_token? {c : Char} {rest after : List Char} {token : Token}
    (h : token? c rest = some (token, after)) : token.isPlain = true := by
  unfold token? at h
  split at h
  · cases h
    exact isScalar_numberValue _
  · split at h
    · obtain ⟨rfl, -⟩ := Prod.mk.inj (Option.some.inj h)
      exact isPlain_wordToken _
    · split at h
      · unfold quoted? at h
        split at h
        · cases h
          rfl
        · cases h
      · have hsigns : ∀ token ∈ signs.map Prod.snd, token.isPlain = true := by decide
        obtain ⟨⟨sign, found⟩, hmem, hsign⟩ := List.exists_of_findSome?_eq_some h
        obtain ⟨behind, -, heq⟩ := Option.map_eq_some_iff.1 hsign
        cases heq
        exact hsigns _ (List.mem_map_of_mem hmem)

theorem isPlain_of_tokens? {s : List Char} {tokens : List Token} (h : tokens? s = some tokens) :
    ∀ token ∈ tokens, token.isPlain = true := by
  fun_induction tokens? s generalizing tokens with
  | case1 =>
      cases h
      exact fun _ hmem => absurd hmem List.not_mem_nil
  | case2 c rest hgap ih => exact ih h
  | case3 c rest hgap token after htoken ih =>
      obtain ⟨others, hothers, rfl⟩ := Option.map_eq_some_iff.1 h
      exact List.forall_mem_cons.2 ⟨isPlain_of_token? htoken, ih hothers⟩
  | case4 => cases h

theorem isScalar_definite (x : Float) : (definite x).isScalar = true := by
  unfold definite
  split
  · rfl
  · rfl

theorem isScalar_arithmetic (integer : Int → Int → Option Int) (float : Float → Float → Float)
    (left right : Value) : (arithmetic integer float left right).isScalar = true := by
  unfold arithmetic
  dsimp only
  split
  · rfl
  · split
    · exact isScalar_definite _
    · rfl

theorem isScalar_sum (left right : Value) : (sum left right).isScalar = true := by
  unfold sum
  split
  · rfl
  · rfl
  · exact isScalar_arithmetic ..

theorem isScalar_quotient (left right : Value) : (quotient left right).isScalar = true := by
  unfold quotient
  dsimp only
  split
  · rfl
  · split
    · rfl
    · split
      · rfl
      · rfl

/-- No operator makes a value that holds others. -/
theorem isScalar_apply (operator : Operator) (left right : Value) :
    (operator.apply left right).isScalar = true := by
  cases operator with
  | or | and | compare => rfl
  | add => exact isScalar_sum left right
  | subtract => exact isScalar_arithmetic (fun a b => some (a - b)) (· - ·) left right
  | multiply => exact isScalar_arithmetic (fun a b => some (a * b)) (· * ·) left right
  | divide => exact isScalar_quotient left right
  | remainder => exact isScalar_arithmetic intRemainder floatRemainder left right

theorem isScalar_negateValue (value : Value) : (negateValue value).isScalar = true := by
  unfold negateValue
  split
  · split
    · rfl
    · rfl
  · split
    · rfl
    · rfl

end Formula

end Stencil

namespace Stencil

open Text Reference

/-- What is known of the memory of resolutions, and what is known of values. -/
structure Memory.Invariant where
  holds : Memory → Prop
  value : Value → Prop := fun _ => True

namespace Resolver

variable {α β : Type}

/-- A program that keeps what is known of the memory, and answers as told if it answers. -/
def Keeps (known : Memory → Prop) (answers : α → Prop) (program : Resolving α) : Prop :=
  ∀ memory, known memory → known (outcome program memory).2 ∧
    ∀ answered, answer program memory = .ok answered → answers answered

section Programs

variable {known : Memory → Prop} {answers : α → Prop} {answers' : β → Prop}

theorem keeps_pure {value : α} (h : answers value) : Keeps known answers (pure value) := by
  refine fun memory hmemory => ⟨hmemory, fun answered heq => ?_⟩
  cases heq
  exact h

theorem Keeps.bind {program : Resolving α} {next : α → Resolving β} (h : Keeps known answers program)
    (hnext : ∀ answered, answers answered → Keeps known answers' (next answered)) :
    Keeps known answers' (program >>= next) := by
  intro memory hmemory
  obtain ⟨hafter, hanswer⟩ := h memory hmemory
  unfold answer at hanswer ⊢
  rw [outcome_bind]
  rcases hrun : outcome program memory with ⟨fault | answered, after⟩
  · rw [hrun] at hafter
    exact ⟨hafter, fun _ heq => nomatch heq⟩
  · rw [hrun] at hafter hanswer
    exact hnext answered (hanswer answered rfl) after hafter

theorem keeps_liftExcept (result : Except Fault α) :
    Keeps known (fun _ => True) (liftExcept result) := by
  cases result with
  | error fault => exact fun _ hmemory => ⟨hmemory, fun _ heq => nomatch heq⟩
  | ok value => exact keeps_pure trivial

end Programs

end Resolver

namespace Memory.Invariant

open Resolver

variable {inv : Memory.Invariant}

/-- An answer of which something is known, if there is one. -/
def IfAny (inv : Memory.Invariant) (answer : Option Value) : Prop := ∀ value ∈ answer, inv.value value

/-- What a resolver does by itself keeps an invariant. -/
structure Kept (inv : Memory.Invariant) (r : Resolver) : Prop where
  lookup : ∀ text, Keeps inv.holds (fun _ => True) (note (.lookup text))
  indexer : Keeps inv.holds (fun _ => True) (note .indexer)
  member : ∀ {value} name, inv.value value →
    Keeps inv.holds inv.IfAny (recalling (value.member r.host name))
  index : ∀ {value key}, inv.value value → inv.value key →
    Keeps inv.holds inv.IfAny (recalling (value.index r.host key))
  path : ∀ {value} segments, inv.value value →
    Keeps inv.holds inv.IfAny (recalling (value.path r.host r.security segments))
  bound : ∀ {name value}, r.vars.get? name = some value → inv.value value
  scalar : ∀ {value}, value.isScalar = true → inv.value value
  filter : ∀ name {value arguments}, inv.value value → (∀ argument ∈ arguments, inv.value argument) →
    inv.value (FilterRegister.apply r.ownFilters r.sharedFilters name value arguments)

theorem ifAny_none : inv.IfAny none := fun _ hmem => nomatch hmem

theorem ifAny_some {value : Value} (h : inv.value value) : inv.IfAny (some value) :=
  fun _ hmem => Option.some.inj hmem ▸ h

theorem ifAny_present {value : Value} (h : inv.value value) : inv.IfAny (present value) := by
  unfold present
  split
  · exact ifAny_none
  · exact ifAny_some h

theorem IfAny.getD {answer : Option Value} (h : inv.IfAny answer) {other : Value}
    (hother : inv.value other) : inv.value (answer.getD other) := by
  cases answer with
  | none => exact hother
  | some value => exact h value rfl

/-- What goes on behind an answer, if there is one. -/
theorem keeps_bind_ifAny {program : Resolving (Option Value)}
    {next : Option Value → Resolving (Option Value)} (h : Keeps inv.holds inv.IfAny program)
    (hnone : next none = pure none)
    (hsome : ∀ value, inv.value value → Keeps inv.holds inv.IfAny (next (some value))) :
    Keeps inv.holds inv.IfAny (program >>= next) := by
  refine h.bind fun answer hanswer => ?_
  cases answer with
  | none => exact hnone ▸ keeps_pure ifAny_none
  | some value => exact hsome value (hanswer value rfl)

namespace Kept

variable {r : Resolver} (kept : inv.Kept r)

include kept

theorem unwrapQuoted {value : Value} (h : inv.value value) : inv.value value.unwrapQuoted := by
  rcases value.unwrapQuoted_cases with hsame | hscalar
  · exact hsame.symm ▸ h
  · exact kept.scalar hscalar

theorem memberOf {value : Value} (h : inv.value value) (name : List Char) :
    Keeps inv.holds inv.IfAny (memberOf r value name) := by
  unfold Resolver.memberOf
  split
  · exact keeps_pure ifAny_none
  · exact kept.member _ h

theorem elementOf {value key : Value} (h : inv.value value) (hkey : inv.value key) :
    Keeps inv.holds inv.IfAny (elementOf r value key) :=
  kept.indexer.bind fun _ _ => kept.index h hkey

theorem longestBound? {segments rest : List (List Char)} {length : Nat} {root : Value}
    (h : longestBound? r.vars segments length = some (root, rest)) : inv.value root := by
  induction length with
  | zero => cases h
  | succ length ih =>
      rw [Resolver.longestBound?] at h
      split at h
      next found hfound =>
        cases h
        exact kept.bound hfound
      next => exact ih h

theorem dotted (text : List Char) : Keeps inv.holds inv.IfAny (dotted r text) := by
  unfold Resolver.dotted
  dsimp only
  split
  · exact keeps_pure ifAny_none
  · refine (keeps_liftExcept _).bind fun _ _ => ?_
    split
    next root rest hroot => exact kept.path _ (kept.longestBound? hroot)
    next => exact keeps_pure ifAny_none

theorem direct? (text : List Char) : inv.IfAny (r.direct? text) := by
  intro value hvalue
  unfold Resolver.direct? at hvalue
  split at hvalue
  · cases hvalue
  · exact kept.bound hvalue

theorem literal? {text : List Char} {value : Value} (h : literal? text = some value) :
    inv.value value := by
  unfold Resolver.literal? at h
  split at h
  · cases h
    exact kept.scalar rfl
  · obtain ⟨n, -, rfl⟩ := Option.map_eq_some_iff.1 h
    exact kept.scalar rfl

section Lookups

variable {lookup : String → Resolving (Option Value)}
  (hlookup : ∀ reference, Keeps inv.holds inv.IfAny (lookup reference))

include hlookup

theorem formula {formula : Formula} (plain : formula.isPlain = true) :
    Keeps inv.holds inv.value (formula.value lookup) := by
  induction formula with
  | literal value => exact keeps_pure (kept.scalar plain)
  | reference text =>
      exact (hlookup text).bind fun _ hfound => keeps_pure (hfound.getD (kept.scalar rfl))
  | negate operand ih =>
      exact (ih plain).bind fun _ _ => keeps_pure (kept.scalar (Formula.isScalar_negateValue _))
  | not operand ih => exact (ih plain).bind fun _ _ => keeps_pure (kept.scalar rfl)
  | binary operator left right ihl ihr =>
      rw [Formula.isPlain, Bool.and_eq_true] at plain
      exact (ihl plain.1).bind fun _ _ => (ihr plain.2).bind fun _ _ =>
        keeps_pure (kept.scalar (Formula.isScalar_apply ..))

omit kept in
theorem lookUpAll (references : List String) :
    Keeps inv.holds (fun _ => True) (Formula.lookUpAll lookup references) := by
  induction references with
  | nil => exact keeps_pure trivial
  | cons reference rest ih =>
      have hdiscard : Keeps inv.holds (fun _ => True) (discard (lookup reference)) :=
        (hlookup reference).bind fun _ _ => keeps_pure trivial
      exact hdiscard.bind fun _ _ => ih

theorem evaluate (text : List Char) : Keeps inv.holds inv.IfAny (Formula.evaluate lookup text) := by
  unfold Formula.evaluate
  split
  · exact keeps_pure ifAny_none
  next tokens htokens =>
    split
    next found hread =>
      have plain : found.isPlain = true := Formula.isPlain_of_leaves fun leaf hmem =>
        Formula.isPlain_of_tokens? htokens leaf (Formula.leaves_subset_of_read hread hmem)
      refine (kept.formula hlookup plain).bind fun value hvalue => keeps_pure ?_
      split
      · exact ifAny_none
      · exact ifAny_some hvalue
    next => exact (lookUpAll hlookup _).bind fun _ _ => keeps_pure ifAny_none

end Lookups

/-- The reading of a text that is no indexed target, given its parts. -/
theorem unindexed {text : List Char} (unindexed : indexed? text = none) {asksGrammar : Bool}
    (piped : ∀ head filter filters, segments text = head :: filter :: filters →
      Keeps inv.holds inv.IfAny (pipedValue r head (filter :: filters)))
    (reference : ¬ (isIdentifier text || !asksGrammar) = true → ∀ name,
      Keeps inv.holds inv.IfAny (lookUp r text name)) :
    Keeps inv.holds inv.IfAny (resolveText r text asksGrammar) := by
  rw [resolveText_unindexed r asksGrammar unindexed]
  refine (kept.lookup _).bind fun _ _ => ?_
  have hdirect := kept.direct? text
  cases hfound : r.direct? text with
  | some value => exact keeps_pure (hfound ▸ hdirect)
  | none =>
      dsimp only
      rcases segments_cases text with whole | ⟨head, filter, filters, hsegments⟩
      · rw [whole]
        dsimp only
        split
        next => exact kept.dotted text
        next =>
          split
          next => exact keeps_pure ifAny_none
          next asks => exact kept.evaluate (reference asks) text
      · rw [hsegments]
        exact piped head filter filters hsegments

/-- Every part of a resolution keeps an invariant: one case for each step of the recursion. -/
theorem parts :
    (∀ text asksGrammar, Keeps inv.holds inv.IfAny (resolveText r text asksGrammar)) ∧
    (∀ value segments, inv.value value → Keeps inv.holds inv.value (pipe r value segments)) ∧
    (∀ texts, Keeps inv.holds (fun values => ∀ value ∈ values, inv.value value)
      (argumentValues r texts)) ∧
    (∀ text, Keeps inv.holds inv.value (keyValue r text)) ∧
    (∀ value accessors, inv.value value → Keeps inv.holds inv.IfAny (walk r value accessors)) := by
  apply resolveText.mutual_induct
  -- a text
  · intro text asksGrammar target key rest head filters reference
    cases hindexed : indexed? text with
    | some found =>
        rw [resolveText_indexed r asksGrammar hindexed]
        refine (kept.lookup _).bind fun _ _ => ?_
        refine keeps_bind_ifAny (target found hindexed) rfl fun root hroot => ?_
        refine (key found hindexed).bind fun key hkey => ?_
        exact keeps_bind_ifAny (kept.elementOf hroot hkey) rfl (rest found hindexed)
    | none =>
        refine kept.unindexed hindexed ?_ ?_
        · intro first filter others piped
          refine (head first filter others piped).bind fun value hvalue => ?_
          refine (filters first filter others piped value ?_).bind fun _ hpiped =>
            keeps_pure (ifAny_present hpiped)
          exact kept.unwrapQuoted (hvalue.getD (kept.scalar rfl))
        · intro asks name
          unfold lookUp
          split
          next le => exact reference asks name le
          next => exact keeps_pure ifAny_none
  -- filters
  · intro value hvalue
    rw [pipe]
    exact keeps_pure hvalue
  · intro value segment rest unnamed ih hvalue
    rw [pipe, if_pos unnamed]
    exact ih hvalue
  · intro value segment rest named arguments ih hvalue
    rw [pipe, if_neg named]
    exact arguments.bind fun values hvalues => ih values (kept.filter _ hvalue hvalues)
  -- arguments
  · rw [argumentValues]
    exact keeps_pure fun _ hmem => absurd hmem List.not_mem_nil
  · intro text rest first others
    rw [argumentValues]
    exact first.bind fun value hvalue => others.bind fun values hvalues =>
      keeps_pure (List.forall_mem_cons.2 ⟨kept.unwrapQuoted hvalue, hvalues⟩)
  -- keys
  · intro text value literal
    rw [keyValue, literal]
    exact keeps_pure (kept.literal? literal)
  · intro text notLiteral ih
    rw [keyValue, notLiteral]
    exact ih.bind fun value hvalue => keeps_pure (hvalue.getD (kept.scalar rfl))
  -- accessors
  · intro value accessors null hvalue
    rw [walk.eq_def, if_pos null]
    exact keeps_pure ifAny_none
  · intro value notNull hvalue
    rw [walk, if_neg notNull]
    exact keeps_pure (ifAny_some hvalue)
  · intro value notNull rest ih hvalue
    rw [walk, if_neg notNull]
    exact keeps_bind_ifAny (kept.memberOf hvalue _) rfl ih
  · intro value notNull rest inside after closes key ih hvalue
    rw [walk_closed r closes, if_neg notNull]
    refine key.bind fun key hkey => ?_
    exact keeps_bind_ifAny (kept.elementOf hvalue hkey) rfl ih
  · intro value notNull rest unclosed hvalue
    rw [walk_unclosed r unclosed]
    exact keeps_pure ifAny_none
  · intro value accessors notNull notEmpty notMember notIndexer hvalue
    rw [walk, if_neg notNull]
    · exact keeps_pure ifAny_none
    · exact notEmpty
    · exact notMember
    · exact notIndexer

section Expressions

variable (hexpression : ∀ text, Keeps inv.holds (fun _ => True) (note (.expression text)))

include hexpression

theorem resolve (given : List Char) : Keeps inv.holds inv.IfAny (resolve r given) := by
  unfold Resolver.resolve
  refine (hexpression _).bind fun _ _ => ?_
  split
  · exact keeps_pure ifAny_none
  · refine (keeps_liftExcept _).bind fun _ _ => ?_
    refine (kept.parts.1 _ true).bind fun value hvalue => keeps_pure ?_
    cases value with
    | none => exact ifAny_none
    | some value => exact ifAny_present (kept.unwrapQuoted (hvalue value rfl))

theorem interpolateText (text : List Char) :
    Keeps inv.holds (fun _ => True) (interpolateText r text) := by
  induction text using interpolateText.induct with
  | case1 text unopened =>
      rw [interpolateText_of_unopened unopened]
      exact keeps_pure trivial
  | case2 text before after opened unclosed =>
      rw [interpolateText_of_unclosed opened unclosed]
      exact keeps_pure trivial
  | case3 text before after opened inner rest closed ih =>
      rw [interpolateText_of_closed opened closed]
      exact (kept.resolve hexpression inner).bind fun _ _ => ih.bind fun _ _ => keeps_pure trivial

theorem interpolate (text : String) : Keeps inv.holds (fun _ => True) (interpolate r text) :=
  (kept.interpolateText hexpression _).bind fun _ _ => keeps_pure trivial

theorem parameterValue (parameter : Markup.Parameter) :
    Keeps inv.holds inv.value (parameterValue r parameter) := by
  have hgiven : Keeps inv.holds inv.value (givenValue r parameter.value) := by
    unfold givenValue
    dsimp only
    split
    · exact keeps_pure (kept.scalar rfl)
    · split
      next inner _ =>
        exact (kept.resolve hexpression inner).bind fun _ hvalue =>
          keeps_pure (hvalue.getD (kept.scalar rfl))
      next =>
        split
        · exact (kept.interpolateText hexpression _).bind fun _ _ => keeps_pure (kept.scalar rfl)
        · split
          · exact (kept.resolve hexpression _).bind fun _ hvalue =>
              keeps_pure (hvalue.getD (kept.scalar rfl))
          · exact keeps_pure (kept.scalar rfl)
  unfold Resolver.parameterValue
  refine hgiven.bind fun value hvalue => ?_
  split
  · split
    next => exact keeps_pure hvalue
    next default _ =>
      exact (kept.interpolate hexpression default).bind fun _ _ => keeps_pure (kept.scalar rfl)
  · exact keeps_pure hvalue

end Expressions

end Kept

end Memory.Invariant

end Stencil
