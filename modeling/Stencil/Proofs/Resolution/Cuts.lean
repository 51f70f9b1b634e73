import Stencil.Proofs.Grammar.Consulted
import Stencil.Proofs.Resolution.Events
import Stencil.Proofs.Resolution.Answer

/-!
What a resolution leaves in the trail when it is known of its text only what every cut keeps. Texts are trimmed,
split at bars, colons and commas, taken from between brackets, and looked up as the references of a formula; no
other text is ever resolved on the way.
-/

namespace Stencil.Resolver

open Text Reference

/-- A property of the texts that are resolved, and one of the accessors that are walked, which are kept whatever is
cut out of them. -/
structure KeptByCuts (P Q : List Char → Prop) : Prop where
  trim : ∀ {text}, P text → P (trim text)
  segment : ∀ {text segment}, P text → segment ∈ segments text → P segment
  argument : ∀ {segment argument}, P segment → argument ∈ (filterCall segment).2 → P argument
  indexed : ∀ {text found}, P text → indexed? text = some found →
    P found.target ∧ P found.key ∧ Q found.rest
  reference : ∀ {text} {reference : String}, P text → reference ∈ Formula.consulted text → P reference.toList
  member : ∀ {rest}, Q ('.' :: rest) → Q (rest.dropWhile fun c => c != '.' && c != '[')
  index : ∀ {rest inside after}, Q ('[' :: rest) → closing? rest = some (inside, after) →
    P inside ∧ Q (trimStart after)

variable {α β : Type}

/-- A program whose new events are all of a kind, whether it answers or fails. -/
abbrev LeavesOnly (fine : Event → Prop) (program : Resolving α) : Prop :=
  Leaves (fun events => ∀ event ∈ events, fine event) program

variable {fine : Event → Prop}

theorem leavesOnly_pure (value : α) : LeavesOnly fine (pure value) :=
  leaves_pure (fun _ hmem => absurd hmem List.not_mem_nil) value

theorem LeavesOnly.bind {program : Resolving α} {next : α → Resolving β} (h : LeavesOnly fine program)
    (hnext : ∀ value, LeavesOnly fine (next value)) : LeavesOnly fine (program >>= next) :=
  Leaves.bind (fun hlater hearlier event hmem => (List.mem_append.1 hmem).elim (hlater event) (hearlier event))
    h hnext

/-- What goes on behind an answer, if there is one. -/
theorem LeavesOnly.bind_option {program : Resolving (Option α)} {next : Option α → Resolving (Option β)}
    (h : LeavesOnly fine program) (hnone : next none = pure none)
    (hsome : ∀ value, LeavesOnly fine (next (some value))) : LeavesOnly fine (program >>= next) := by
  refine h.bind fun answer => ?_
  cases answer with
  | none => exact hnone ▸ leavesOnly_pure none
  | some value => exact hsome value

theorem leavesOnly_note {event : Event} (h : fine event) : LeavesOnly fine (note event) := by
  refine fun memory => ⟨[event], rfl, fun other hmem => ?_⟩
  exact (List.mem_singleton.1 hmem).symm ▸ h

theorem leavesOnly_recalling (read : StateM Decisions α) : LeavesOnly fine (recalling read) :=
  fun _ => ⟨[], rfl, fun _ hmem => absurd hmem List.not_mem_nil⟩

theorem leavesOnly_liftExcept (result : Except Fault α) :
    LeavesOnly fine (liftExcept result : Resolving α) := by
  cases result with
  | error fault => exact fun _ => ⟨[], rfl, fun _ hmem => absurd hmem List.not_mem_nil⟩
  | ok value => exact leavesOnly_pure value

/-- Behind a check it is known that the check was passed. -/
theorem LeavesOnly.bind_liftExcept {result : Except Fault α} {next : α → Resolving β}
    (h : ∀ value, result = .ok value → LeavesOnly fine (next value)) :
    LeavesOnly fine (liftExcept result >>= next) := by
  cases result with
  | error fault => exact fun _ => ⟨[], rfl, fun _ hmem => absurd hmem List.not_mem_nil⟩
  | ok value => exact h value rfl

theorem leavesOnly_memberOf (r : Resolver) (value : Value) (name : List Char) :
    LeavesOnly fine (memberOf r value name) := by
  unfold memberOf
  split
  · exact leavesOnly_pure none
  · exact leavesOnly_recalling _

theorem leavesOnly_elementOf (h : fine .indexer) (r : Resolver) (value key : Value) :
    LeavesOnly fine (elementOf r value key) :=
  (leavesOnly_note h).bind fun _ => leavesOnly_recalling _

theorem leavesOnly_dotted (r : Resolver) (text : List Char) : LeavesOnly fine (dotted r text) := by
  unfold dotted
  dsimp only
  split
  · exact leavesOnly_pure none
  · refine (leavesOnly_liftExcept _).bind fun _ => ?_
    split
    · exact leavesOnly_recalling _
    · exact leavesOnly_pure none

section Lookups

variable {lookup : String → Resolving (Option Value)}

theorem leavesOnly_value {formula : Formula}
    (h : ∀ reference ∈ formula.references, LeavesOnly fine (lookup reference)) :
    LeavesOnly fine (formula.value lookup) := by
  induction formula with
  | literal value => exact leavesOnly_pure value
  | reference text => exact (h text (List.mem_singleton_self text)).bind fun _ => leavesOnly_pure _
  | negate operand ih => exact (ih h).bind fun _ => leavesOnly_pure _
  | not operand ih => exact (ih h).bind fun _ => leavesOnly_pure _
  | binary operator left right ihl ihr =>
      have hleft := ihl fun text hmem => h text (List.mem_append_left _ hmem)
      have hright := ihr fun text hmem => h text (List.mem_append_right _ hmem)
      exact hleft.bind fun _ => hright.bind fun _ => leavesOnly_pure _

theorem leavesOnly_lookUpAll {references : List String}
    (h : ∀ reference ∈ references, LeavesOnly fine (lookup reference)) :
    LeavesOnly fine (Formula.lookUpAll lookup references) := by
  induction references with
  | nil => exact leavesOnly_pure ()
  | cons reference rest ih =>
      have hfirst := h reference (List.mem_cons_self ..)
      have hrest := ih fun other hmem => h other (List.mem_cons_of_mem _ hmem)
      exact (hfirst.bind fun _ => leavesOnly_pure _).bind fun _ => hrest

/-- A formula is evaluated with no more than its references looked up. -/
theorem leavesOnly_evaluate {text : List Char}
    (h : ∀ reference ∈ Formula.consulted text, LeavesOnly fine (lookup reference)) :
    LeavesOnly fine (Formula.evaluate lookup text) := by
  unfold Formula.consulted at h
  unfold Formula.evaluate
  cases htokens : Formula.tokens? text with
  | none => exact leavesOnly_pure none
  | some tokens =>
      rw [htokens] at h
      dsimp only at h ⊢
      cases hread : Formula.read tokens with
      | ok found =>
          rw [hread] at h
          exact (leavesOnly_value h).bind fun _ => leavesOnly_pure _
      | error references =>
          rw [hread] at h
          exact (leavesOnly_lookUpAll h).bind fun _ => leavesOnly_pure _

end Lookups

variable (r : Resolver) {P Q : List Char → Prop} (cuts : KeptByCuts P Q)
  (hlookup : ∀ text, P text → fine (.lookup (String.ofList text)))

section Texts

variable {text : List Char} (htext : P text) {asksGrammar : Bool}

include hlookup htext

theorem leavesOnly_indexed (hindexer : ∀ accessors, Q accessors → fine .indexer) (cuts : KeptByCuts P Q)
    {found : Indexed} (hindexed : indexed? text = some found)
    (target : LeavesOnly fine (resolveText r found.target false)) (key : LeavesOnly fine (keyValue r found.key))
    (rest : ∀ value, LeavesOnly fine (walk r value found.rest)) :
    LeavesOnly fine (resolveText r text asksGrammar) := by
  have helement := hindexer found.rest (cuts.indexed htext hindexed).2.2
  rw [resolveText_indexed r asksGrammar hindexed]
  refine (leavesOnly_note (hlookup text htext)).bind fun _ => ?_
  refine target.bind_option rfl fun root => ?_
  refine key.bind fun key => ?_
  exact (leavesOnly_elementOf helement r root key).bind_option rfl rest

theorem leavesOnly_unindexed (unindexed : indexed? text = none)
    (piped : ∀ head filter filters, segments text = head :: filter :: filters →
      LeavesOnly fine (pipedValue r head (filter :: filters)))
    (reference : ¬ (isIdentifier text || !asksGrammar) = true → ∀ name ∈ Formula.consulted text,
      LeavesOnly fine (lookUp r text name)) :
    LeavesOnly fine (resolveText r text asksGrammar) := by
  rw [resolveText_unindexed r asksGrammar unindexed]
  refine (leavesOnly_note (hlookup text htext)).bind fun _ => ?_
  cases r.direct? text with
  | some value => exact leavesOnly_pure _
  | none =>
      dsimp only
      rcases segments_cases text with whole | ⟨head, filter, filters, hsegments⟩
      · rw [whole]
        dsimp only
        split
        next => exact leavesOnly_dotted r text
        next =>
          split
          next => exact leavesOnly_pure none
          next asks => exact leavesOnly_evaluate (reference asks)
      · rw [hsegments]
        exact piped head filter filters hsegments

end Texts

include cuts hlookup

variable (fine)

/-- Every part of a resolution looks up nothing but texts with a property that all cuts keep, and applies an
indexer only where there are accessors of theirs. -/
theorem leavesOnly_parts (hindexer : ∀ accessors, Q accessors → fine .indexer) :
    (∀ text asksGrammar, P text → LeavesOnly fine (resolveText r text asksGrammar)) ∧
    (∀ value segments, (∀ segment ∈ segments, P segment) → LeavesOnly fine (pipe r value segments)) ∧
    (∀ texts, (∀ text ∈ texts, P text) → LeavesOnly fine (argumentValues r texts)) ∧
    (∀ text, P text → LeavesOnly fine (keyValue r text)) ∧
    (∀ value accessors, Q accessors → LeavesOnly fine (walk r value accessors)) := by
  apply resolveText.mutual_induct
  -- a text
  · intro text asksGrammar target key rest head filters reference htext
    cases hindexed : indexed? text with
    | some found =>
        obtain ⟨htarget, hkey, hrest⟩ := cuts.indexed htext hindexed
        exact leavesOnly_indexed r hlookup htext hindexer cuts hindexed (target found hindexed htarget)
          (key found hindexed hkey) fun value => rest found hindexed value hrest
    | none =>
        refine leavesOnly_unindexed r hlookup htext hindexed ?_ ?_
        · intro first filter others hsegments
          have hpart : ∀ segment ∈ first :: filter :: others, P segment := by
            intro segment hmem
            rw [← hsegments] at hmem
            exact cuts.segment htext hmem
          have hfirst : P (trim first) := cuts.trim (hpart first (List.mem_cons_self ..))
          refine (head first filter others hsegments hfirst).bind fun value => ?_
          have hothers := filters first filter others hsegments value fun segment hmem =>
            hpart segment (List.mem_cons_of_mem _ hmem)
          exact hothers.bind fun _ => leavesOnly_pure _
        · intro asks name hconsulted
          unfold lookUp
          split
          next le => exact reference asks name le (cuts.reference htext hconsulted)
          next => exact leavesOnly_pure none
  -- filters
  · intro value hsegments
    rw [pipe]
    exact leavesOnly_pure value
  · intro value segment rest unnamed ih hsegments
    rw [pipe, if_pos unnamed]
    exact ih fun other hmem => hsegments other (List.mem_cons_of_mem _ hmem)
  · intro value segment rest named arguments ih hsegments
    rw [pipe, if_neg named]
    have hsegment := hsegments segment (List.mem_cons_self ..)
    refine (arguments fun text hmem => cuts.argument hsegment hmem).bind fun values => ?_
    exact ih values fun other hmem => hsegments other (List.mem_cons_of_mem _ hmem)
  -- arguments
  · intro htexts
    rw [argumentValues]
    exact leavesOnly_pure []
  · intro text rest first others htexts
    rw [argumentValues]
    have hrest := others fun other hmem => htexts other (List.mem_cons_of_mem _ hmem)
    exact (first (htexts text (List.mem_cons_self ..))).bind fun _ => hrest.bind fun _ => leavesOnly_pure _
  -- keys
  · intro text value literal htext
    rw [keyValue, literal]
    exact leavesOnly_pure value
  · intro text notLiteral ih htext
    rw [keyValue, notLiteral]
    exact (ih (cuts.trim htext)).bind fun _ => leavesOnly_pure _
  -- accessors
  · intro value accessors null haccessors
    rw [walk.eq_def, if_pos null]
    exact leavesOnly_pure none
  · intro value notNull haccessors
    rw [walk, if_neg notNull]
    exact leavesOnly_pure (some value)
  · intro value notNull rest ih haccessors
    rw [walk, if_neg notNull]
    exact (leavesOnly_memberOf r value _).bind_option rfl fun next => ih next (cuts.member haccessors)
  · intro value notNull rest inside after closes key ih haccessors
    obtain ⟨hinside, hafter⟩ := cuts.index haccessors closes
    rw [walk_closed r closes, if_neg notNull]
    refine (key hinside).bind fun key => ?_
    exact (leavesOnly_elementOf (hindexer _ haccessors) r value key).bind_option rfl fun next => ih next hafter
  · intro value notNull rest unclosed haccessors
    rw [walk_unclosed r unclosed]
    exact leavesOnly_pure none
  · intro value accessors notNull notEmpty notMember notIndexer haccessors
    rw [walk, if_neg notNull]
    · exact leavesOnly_pure none
    · exact notEmpty
    · exact notMember
    · exact notIndexer

end Stencil.Resolver
