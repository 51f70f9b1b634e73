import Stencil.Proofs.Bytewise.Nesting
import Stencil.Proofs.Bytewise.Resolving
import Stencil.Proofs.Bytewise.Templates

/-!
No text makes a reader of bytes slip. Templates, the tags in them, the segments and filters of an expression, its
indexers and accessors, the text between quotes and the interpolations of a text can all be read by bytes and offsets,
with a check at each step: the bytes that are looked at exist, slices begin and end between two characters and do not
end before they begin, no number falls below zero, and no loop goes on for ever. No check ever fails, and what is read
is what is read by characters.
-/

namespace Stencil.Bytewise

open Text

/-- The value at the end of members and indexers that follow a value. In a key stand no more calls inside one another
than in a text one character longer than the accessors. -/
def walk (r : Resolver) (value : Value) (accessors : List Char) : Reading (Option Value) :=
  walkBy r (answers r (2 * (accessors.length + 1))) value accessors

theorem walk_eq (r : Resolver) (value : Value) (accessors : List Char) :
    walk r value accessors = sure (Resolver.walk r value accessors) := by
  have hanswers (nested : Resolver.Call) (hwithin : nested.Within ⟨' ' :: accessors, false⟩) :
      answers r (2 * (accessors.length + 1)) nested = sure (Resolver.resolving r nested) :=
    answers_eq r hwithin.reach_lt
  exact walkBy_eq hanswers value (Nat.lt_succ_self _)

/-- Bytes are those of the text in UTF-8, and a slice is taken exactly when it does not end before it begins and both
its ends are places between two characters, or at the beginning or the end. Read in this way, a source gives its
tokens, the list of a tag its attributes and a text the nesting of its tags; an expression gives its segments, a
segment its filter and arguments, a text its first bracket outside quotes, any bracket that opens the one that closes
it, and an expression its target, key and accessors; accessors, expressions and texts with interpolations give their
values, and values the text between quotes. Nothing of this slips. -/
theorem reading_never_slips :
    (∀ s : List Char, (String.ofList s).toByteArray = (bytes s).toByteArray) ∧
    (∀ (s : List Char) (start stop : Nat), (∃ between, slice s start stop = .ok between) ↔
      start ≤ stop ∧ (String.Pos.Raw.mk start).IsValid (String.ofList s) ∧
        (String.Pos.Raw.mk stop).IsValid (String.ofList s)) ∧
    (∀ source : String, scan source = .ok (Markup.scan source)) ∧
    (∀ inner : List Char, attributesOf inner = .ok (Markup.attributesOf inner)) ∧
    (∀ s : List Char, nestingDepth s = .ok (Gate.nestingDepth s)) ∧
    (∀ expression : List Char, segments expression = .ok (Reference.segments expression)) ∧
    (∀ segment : List Char, filterCall segment = .ok (Reference.filterCall segment)) ∧
    (∀ s : List Char, openingAt? s = .ok ((Reference.opening? s).map fun parts => byteSize parts.1)) ∧
    (∀ before after : List Char, closingAt? (before ++ '[' :: after) (byteSize before) =
      .ok ((Reference.closing? after).map fun parts => byteSize before + 1 + byteSize parts.1)) ∧
    (∀ expression : List Char, indexed? expression = .ok (Reference.indexed? expression)) ∧
    (∀ (r : Resolver) (value : Value) (accessors : List Char),
      walk r value accessors = sure (Resolver.walk r value accessors)) ∧
    (∀ (r : Resolver) (expression : List Char), resolve r expression = sure (Resolver.resolve r expression)) ∧
    (∀ (r : Resolver) (text : List Char), interpolateText r text = sure (Resolver.interpolateText r text)) ∧
    ∀ value : Value, unwrapQuoted value = .ok value.unwrapQuoted :=
  ⟨toByteArray_ofList, fun _ _ _ => exists_slice_iff, scan_eq, attributesOf_eq, nestingDepth_eq, segments_eq,
    filterCall_eq, openingAt?_eq, closingAt?_eq, indexed?_eq, walk_eq, resolve_eq, interpolateText_eq,
    unwrapQuoted_eq⟩

end Stencil.Bytewise
