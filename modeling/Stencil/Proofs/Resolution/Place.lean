import Stencil.Proofs.Resolution.Chain

/-!
Places in a store, as they are written without blanks: a variable with members and indexers behind it,
where a key is an identifier, an integer or a text in quotes. How each scanner of expressions gets
through the text of a place.
-/

namespace Stencil

open Text

namespace Reference

/-- Digits after at most one minus sign. -/
def isInteger (text : List Char) : Bool :=
  match text with
  | '-' :: digits => !digits.isEmpty && digits.all isAsciiDigit
  | digits => !digits.isEmpty && digits.all isAsciiDigit

/-- A key between brackets. -/
inductive Key where
  | bare (text : List Char)
  | quoted (mark : Char) (inner : List Char)

namespace Key

def text : Key → List Char
  | .bare text => text
  | .quoted mark inner => mark :: (inner ++ [mark])

/-- Whether a key is an identifier, an integer, or a text in quotes without quotes and brackets. -/
def isWellFormed : Key → Bool
  | .bare text => isIdentifier text || isInteger text
  | .quoted mark inner => (mark == '"' || mark == '\'') && inner.all isFree

/-- Whether backslashes leave the closing mark of a quoted key alone. -/
def isClosed : Key → Bool
  | .bare _ => true
  | .quoted mark inner => isQuotable mark inner

end Key

/-- A member or an indexer behind a variable. -/
inductive Selector where
  | member (name : List Char)
  | index (key : Key)

namespace Selector

def access : Selector → Access
  | .member name => .member name
  | .index key => .index key.text []

/-- Whether the name of a member is an identifier, and a key is one. -/
def isWellFormed : Selector → Bool
  | .member name => isIdentifier name
  | .index key => key.isWellFormed

def isIndex : Selector → Bool
  | .member _ => false
  | .index _ => true

def isClosed : Selector → Bool
  | .member _ => true
  | .index key => key.isClosed

end Selector

/-- Selectors as they are written one after the other. -/
def selectorText (selectors : List Selector) : List Char :=
  accessText (selectors.map Selector.access)

/-- Whether nothing stands behind the first indexer. -/
def endsAtIndex : List Selector → Bool
  | [] => true
  | .member _ :: rest => endsAtIndex rest
  | .index _ :: rest => rest.isEmpty

/-- A variable with members and indexers behind it. -/
structure Place where
  name : List Char
  selectors : List Selector
  named : isIdentifier name = true
  wellFormed : selectors.all Selector.isWellFormed = true

def Place.text (place : Place) : List Char := place.name ++ selectorText place.selectors

def Place.isIndexed (place : Place) : Bool := place.selectors.any Selector.isIndex

def Place.endsAtIndex (place : Place) : Bool := Reference.endsAtIndex place.selectors

def Place.isClosed (place : Place) : Bool := place.selectors.all Selector.isClosed

theorem selectorText_cons (selector : Selector) (rest : List Selector) :
    selectorText (selector :: rest) = selector.access.text ++ selectorText rest := rfl

theorem isIdentifierPart_of_isAsciiDigit {c : Char} (h : isAsciiDigit c = true) :
    isIdentifierPart c = true := by
  simp only [isIdentifierPart, isAsciiAlphanumeric, h, Bool.or_true, Bool.true_or]

theorem digits_of_isInteger {text : List Char} (h : isInteger text = true) :
    ∀ c ∈ text, isAsciiDigit c = true ∨ c = '-' := by
  intro c hc
  unfold isInteger at h
  split at h
  next digits =>
    have hdigits := List.all_eq_true.1 (Bool.and_eq_true_iff.1 h).2
    rcases List.mem_cons.1 hc with rfl | hmem
    · exact Or.inr rfl
    · exact Or.inl (hdigits c hmem)
  next digits =>
    have hdigits := List.all_eq_true.1 (Bool.and_eq_true_iff.1 h).2
    exact Or.inl (hdigits c hc)

theorem chars_of_bare {text : List Char} (h : (Key.bare text).isWellFormed = true) :
    ∀ c ∈ text, isIdentifierPart c = true ∨ c = '-' := by
  intro c hc
  rcases Bool.or_eq_true_iff.1 h with hname | hinteger
  · exact Or.inl (isIdentifierPart_of_isIdentifier hname c hc)
  · exact (digits_of_isInteger hinteger c hc).imp isIdentifierPart_of_isAsciiDigit id

theorem isPlain_of_isIdentifierPart {c : Char} (h : isIdentifierPart c = true) :
    isPlain c = true := by
  have hfree := isFree_of_isIdentifierPart h
  have hopen : c ≠ '(' := by
    rintro rfl
    exact absurd h (by decide)
  have hclose : c ≠ ')' := by
    rintro rfl
    exact absurd h (by decide)
  simp [isPlain, hfree, hopen, hclose]

theorem isPlain_of_bare {text : List Char} (h : (Key.bare text).isWellFormed = true) :
    ∀ c ∈ text, isPlain c = true := by
  intro c hc
  rcases chars_of_bare h c hc with hpart | rfl
  · exact isPlain_of_isIdentifierPart hpart
  · rfl

theorem isFree_of_isPlain {c : Char} (h : isPlain c = true) : isFree c = true :=
  (Bool.and_eq_true_iff.1 (Bool.and_eq_true_iff.1 h).1).1

namespace Key

theorem quote_of_quoted {mark : Char} {inner : List Char}
    (h : (Key.quoted mark inner).isWellFormed = true) :
    (mark = '"' ∨ mark = '\'') ∧ ∀ c ∈ inner, isFree c = true := by
  obtain ⟨hmark, hinner⟩ := Bool.and_eq_true_iff.1 h
  refine ⟨?_, List.all_eq_true.1 hinner⟩
  simpa using hmark

/-- A key stands between brackets without closing them. -/
theorem isEnclosed_text {key : Key} (h : key.isWellFormed = true) : isEnclosed key.text = true := by
  cases key with
  | bare text => exact isEnclosed_of_free fun c hc => isFree_of_isPlain (isPlain_of_bare h c hc)
  | quoted mark inner =>
      obtain ⟨hmark, hinner⟩ := quote_of_quoted h
      refine isEnclosed_quoted hmark fun c hc => ?_
      rintro rfl
      have hfree := isFree_iff.1 (hinner c hc)
      rcases hmark with rfl | rfl
      · exact hfree.1 rfl
      · exact hfree.2.1 rfl

theorem ne_bracket {key : Key} (h : key.isWellFormed = true) : ∀ c ∈ key.text, c ≠ ']' := by
  cases key with
  | bare text =>
      exact fun c hc => (isFree_iff.1 (isFree_of_isPlain (isPlain_of_bare h c hc))).2.2.2
  | quoted mark inner =>
      obtain ⟨hmark, hinner⟩ := quote_of_quoted h
      have hne : mark ≠ ']' := by
        rcases hmark with rfl | rfl
        · decide
        · decide
      intro c hc
      rcases List.mem_cons.1 hc with rfl | hmem
      · exact hne
      · rcases List.mem_append.1 hmem with hin | hlast
        · exact (isFree_iff.1 (hinner c hin)).2.2.2
        · rw [List.mem_singleton.1 hlast]
          exact hne

/-- A scan gets through a closed key. -/
theorem scan_text {key : Key} (h : key.isWellFormed = true) (closed : key.isClosed = true)
    {sign : Char} (hsign : sign ≠ '"' ∧ sign ≠ '\'') :
    Nesting.passes sign ⟨none, false, 1⟩ key.text = true ∧
      Nesting.after ⟨none, false, 1⟩ key.text = ⟨none, false, 1⟩ := by
  cases key with
  | bare text =>
      have hplain := isPlain_of_bare h
      exact ⟨passes_plain hplain rfl (.inr rfl), after_plain hplain rfl⟩
  | quoted mark inner =>
      obtain ⟨hmark, -⟩ := quote_of_quoted h
      have hne : mark ≠ sign := by
        rcases hmark with rfl | rfl
        · exact hsign.1.symm
        · exact hsign.2.symm
      exact scan_quoted hmark hne closed 1

end Key

/-- Selectors without an indexer are free; otherwise the first indexer stands behind free text. -/
theorem selectorText_cases {selectors : List Selector}
    (wellFormed : selectors.all Selector.isWellFormed = true) :
    (selectors.any Selector.isIndex = false ∧ endsAtIndex selectors = true ∧
        ∀ c ∈ selectorText selectors, isFree c = true) ∨
      ∃ (front key : List Char) (rest : List Selector), selectorText selectors =
          front ++ accessText (.index key [] :: rest.map Selector.access) ∧
        (∀ c ∈ front, isFree c = true) ∧ isEnclosed key = true ∧
        selectors.any Selector.isIndex = true ∧ endsAtIndex selectors = rest.isEmpty := by
  -- members in front of an indexer only make the free text before it longer
  induction selectors with
  | nil => exact Or.inl ⟨rfl, rfl, fun c hc => absurd hc List.not_mem_nil⟩
  | cons selector rest ih =>
      obtain ⟨hselector, hrest⟩ := Bool.and_eq_true_iff.1 wellFormed
      cases selector with
      | index key =>
          exact Or.inr ⟨[], key.text, rest, rfl, fun c hc => absurd hc List.not_mem_nil,
            Key.isEnclosed_text hselector, rfl, rfl⟩
      | member name =>
          have hname : ∀ c ∈ '.' :: name, isFree c = true := by
            intro c hc
            rcases List.mem_cons.1 hc with rfl | hmem
            · rfl
            · exact isFree_of_isIdentifierPart (isIdentifierPart_of_isIdentifier hselector c hmem)
          rcases ih hrest with
            ⟨hnone, hend, hfree⟩ | ⟨front, key, more, htext, hfront, hkey, hany, hend⟩
          · refine Or.inl ⟨hnone, hend, fun c hc => ?_⟩
            rw [selectorText_cons] at hc
            rcases List.mem_append.1 hc with hmem | hmem
            · exact hname c hmem
            · exact hfree c hmem
          · refine Or.inr ⟨'.' :: name ++ front, key, more, ?_, ?_, hkey, hany, hend⟩
            · rw [selectorText_cons, htext, List.append_assoc]
              rfl
            · intro c hc
              rcases List.mem_append.1 hc with hmem | hmem
              · exact hname c hmem
              · exact hfront c hmem

theorem isSolid_selectorText {selectors : List Selector}
    (wellFormed : selectors.all Selector.isWellFormed = true) {front : List Char}
    (solid : IsSolid front) : IsSolid (front ++ selectorText selectors) := by
  induction selectors generalizing front with
  | nil =>
      rw [selectorText, List.map_nil, accessText, List.flatMap_nil, List.append_nil]
      exact solid
  | cons selector rest ih =>
      obtain ⟨hselector, hrest⟩ := Bool.and_eq_true_iff.1 wellFormed
      have hfront : IsSolid (front ++ selector.access.text) := by
        cases selector with
        | member name => exact solid.append (IsSolid.of_identifier hselector) ['.']
        | index key =>
            have hbracket : IsSolid [']'] := by
              refine IsSolid.of_all (List.cons_ne_nil _ _) fun c hc => ?_
              rw [List.mem_singleton.1 hc]
              rfl
            exact solid.append hbracket ('[' :: key.text)
      have hall := ih hrest hfront
      rw [List.append_assoc] at hall
      exact hall

/-- The signs that expressions are split at. -/
def isSeparator (mark : Char) : Prop := mark = '|' ∨ mark = ':' ∨ mark = ','

/-- Names, integers and points are sealed. -/
theorem isSealed_of_chars {mark : Char} (separator : isSeparator mark) {s : List Char}
    (chars : ∀ c ∈ s, isIdentifierPart c = true ∨ c = '-' ∨ c = '.') : isSealed mark s = true := by
  refine isSealed_plain (fun c hc => ?_) fun hmark => ?_
  · rcases chars c hc with hpart | rfl | rfl
    · exact isPlain_of_isIdentifierPart hpart
    · rfl
    · rfl
  · have hchar := chars mark hmark
    rcases separator with rfl | rfl | rfl
    · exact absurd hchar (by decide)
    · exact absurd hchar (by decide)
    · exact absurd hchar (by decide)

theorem isSealed_selectorText {selectors : List Selector}
    (wellFormed : selectors.all Selector.isWellFormed = true)
    (closed : selectors.all Selector.isClosed = true) {mark : Char} (separator : isSeparator mark) :
    isSealed mark (selectorText selectors) = true := by
  induction selectors with
  | nil => rfl
  | cons selector rest ih =>
      obtain ⟨hselector, hrest⟩ := Bool.and_eq_true_iff.1 wellFormed
      obtain ⟨hclosed, hrestClosed⟩ := Bool.and_eq_true_iff.1 closed
      refine isSealed_append ?_ (ih hrest hrestClosed)
      cases selector with
      | member name =>
          refine isSealed_of_chars separator fun c hc => ?_
          rcases List.mem_cons.1 hc with rfl | hmem
          · exact Or.inr (Or.inr rfl)
          · exact Or.inl (isIdentifierPart_of_isIdentifier hselector c hmem)
      | index key =>
          have hsign : mark ≠ '"' ∧ mark ≠ '\'' ∧ mark ≠ '[' := by
            rcases separator with rfl | rfl | rfl
            · decide
            · decide
            · decide
          exact isSealed_indexer hsign.2.2 (Key.scan_text hselector hclosed ⟨hsign.1, hsign.2.1⟩)

/-- Members behind an identifier are written as a path. -/
theorem exists_path {selectors : List Selector}
    (wellFormed : selectors.all Selector.isWellFormed = true)
    (unindexed : selectors.any Selector.isIndex = false) (name : List Char) :
    ∃ names : List (List Char), names.length = selectors.length ∧
      (∀ member ∈ names, isIdentifier member = true) ∧
      name ++ selectorText selectors = joinWith '.' (name :: names) := by
  induction selectors generalizing name with
  | nil => exact ⟨[], rfl, fun member h => absurd h List.not_mem_nil, List.append_nil name⟩
  | cons selector rest ih =>
      obtain ⟨hselector, hrest⟩ := Bool.and_eq_true_iff.1 wellFormed
      obtain ⟨hindex, hnone⟩ := Bool.or_eq_false_iff.1 unindexed
      cases selector with
      | index key => exact absurd hindex.symm Bool.false_ne_true
      | member member =>
          obtain ⟨names, hlength, hnames, htext⟩ := ih hrest hnone member
          refine ⟨member :: names, congrArg (· + 1) hlength, ?_, ?_⟩
          · intro other h
            rcases List.mem_cons.1 h with rfl | hmem
            · exact hselector
            · exact hnames other hmem
          · rw [joinWith, ← htext]
            · rfl
            · exact List.cons_ne_nil _ _

namespace Place

variable (place : Place)

theorem isSolid_text : IsSolid place.text :=
  isSolid_selectorText place.wellFormed (IsSolid.of_identifier place.named)

theorem isFree_name : ∀ c ∈ place.name, isFree c = true := fun c hc =>
  isFree_of_isIdentifierPart (isIdentifierPart_of_isIdentifier place.named c hc)

/-- A place without an indexer is free; otherwise its first indexer stands behind free text. -/
theorem text_cases :
    (place.isIndexed = false ∧ place.endsAtIndex = true ∧ ∀ c ∈ place.text, isFree c = true) ∨
      ∃ (front key : List Char) (rest : List Selector),
        place.text = front ++ accessText (.index key [] :: rest.map Selector.access) ∧
        (∀ c ∈ front, isFree c = true) ∧ (∃ c ∈ front, isBlank c = false) ∧
        isEnclosed key = true ∧ place.isIndexed = true ∧ place.endsAtIndex = rest.isEmpty := by
  have hname := place.isFree_name
  rcases selectorText_cases place.wellFormed with
    ⟨hnone, hend, hfree⟩ | ⟨front, key, rest, htext, hfront, hkey, hany, hend⟩
  · refine Or.inl ⟨hnone, hend, fun c hc => ?_⟩
    exact (List.mem_append.1 hc).elim (hname c) (hfree c)
  · refine Or.inr ⟨place.name ++ front, key, rest, ?_, ?_, ?_, hkey, hany, hend⟩
    · rw [text, htext, List.append_assoc]
    · exact fun c hc => (List.mem_append.1 hc).elim (hname c) (hfront c)
    · obtain ⟨c, hmem, hc⟩ := (IsSolid.of_identifier place.named).exists_mem
      exact ⟨c, List.mem_append_left _ hmem, hc⟩

/-- Behind free text, a place makes an indexed target of the whole if it has an indexer. -/
theorem indexed?_append_text {before : List Char} (free : ∀ c ∈ before, isFree c = true) :
    indexed? (before ++ place.text) = none ↔ place.isIndexed = false := by
  rcases place.text_cases with
    ⟨hnone, -, hfree⟩ | ⟨front, key, rest, htext, hfront, ⟨c, hmem, hc⟩, hkey, hany, -⟩
  · have hall : ∀ c ∈ before ++ place.text, isFree c = true :=
      fun c hc => (List.mem_append.1 hc).elim (free c) (hfree c)
    rw [indexed?_eq_none hall, hnone]
    exact ⟨fun _ => rfl, fun _ => rfl⟩
  · have hbefore : ∀ c ∈ before ++ front, isFree c = true :=
      fun c hc => (List.mem_append.1 hc).elim (free c) (hfront c)
    have htarget : trim (before ++ front) ≠ [] :=
      trim_ne_nil ⟨c, List.mem_append_right _ hmem, hc⟩
    have hwell : (Access.index key []).isWellFormed = true := Bool.and_eq_true_iff.2 ⟨hkey, rfl⟩
    rw [htext, ← List.append_assoc, indexed?_accessText hbefore rfl htarget hwell, hany]
    constructor
    · exact fun h => nomatch h
    · exact fun h => nomatch h

/-- In front of text that no accessor goes on with, a place with an indexer makes an indexed target of
the whole unless it ends there. -/
theorem indexed?_text_append (indexed : place.isIndexed = true) {behind : List Char}
    (stops : goesOn (trimStart behind) = false) :
    indexed? (place.text ++ behind) = none ↔ place.endsAtIndex = true := by
  rcases place.text_cases with
    ⟨hnone, -, -⟩ | ⟨front, key, rest, htext, hfront, hsolid, hkey, -, hend⟩
  · exact Bool.noConfusion (hnone.symm.trans indexed)
  · have hnonempty : (trim front).isEmpty = false :=
      List.isEmpty_eq_false_iff.2 (trim_ne_nil hsolid)
    have hwhole : place.text ++ behind = front ++ '[' :: (key ++ ']' ::
        (accessText (rest.map Selector.access) ++ behind)) := by
      rw [htext]
      simp [accessText_cons, Access.text]
    rw [hwhole, indexed?_enclosed hfront hkey, hnonempty, hend]
    cases rest with
    | nil =>
        rw [List.map_nil, accessText, List.flatMap_nil, List.nil_append, stops]
        exact ⟨fun _ => rfl, fun _ => rfl⟩
    | cons selector others =>
        rw [List.map_cons, goesOn_accessText_cons]
        exact iff_of_false (Option.some_ne_none _) Bool.false_ne_true

/-- A place without an indexer is a name or a path. -/
theorem named_text (unindexed : place.isIndexed = false) :
    isIdentifier place.text = true ∨ Resolver.isPath place.text = true := by
  obtain ⟨names, -, hnames, htext⟩ := exists_path place.wellFormed unindexed place.name
  have hall : ∀ piece ∈ place.name :: names, isIdentifier piece = true := by
    intro piece h
    rcases List.mem_cons.1 h with rfl | hmem
    · exact place.named
    · exact hnames piece hmem
  rw [text, htext]
  cases names with
  | nil => exact Or.inl place.named
  | cons member rest => exact Or.inr (Resolver.isPath_joinWith hall)

/-- The grammar has no say in the value of a place. -/
theorem resolveText_text (r : Resolver) :
    r.resolveText place.text true = r.resolveText place.text false := by
  cases hindexed : place.isIndexed with
  | true =>
      have claimed : indexed? place.text ≠ none := by
        intro hnone
        have unindexed := (place.indexed?_append_text fun _ h => absurd h List.not_mem_nil).1 hnone
        exact Bool.noConfusion (unindexed.symm.trans hindexed)
      exact r.resolveText_of_claimed (.inl claimed)
  | false =>
      have named := place.named_text hindexed
      rw [r.resolveText_named named true, r.resolveText_named named false]

theorem isSealed_text (closed : place.isClosed = true) {mark : Char}
    (separator : isSeparator mark) : isSealed mark place.text = true := by
  have hname : isSealed mark place.name = true :=
    isSealed_of_chars separator fun c hc => .inl (isIdentifierPart_of_isIdentifier place.named c hc)
  exact isSealed_append hname (isSealed_selectorText place.wellFormed closed separator)

end Place

end Reference

end Stencil
