import Mathlib.Data.List.Induction
import Mathlib.Data.List.TakeWhile
import Stencil.Gate.Template
import Stencil.Markup.Token
import Stencil.Proofs.Markup.Frames

/-!
What the gate takes for open elements, told apart into template tags and others. The gate reads all
tags of a text alike, those of the markup and those of the template. Here each tag it reads is marked
with whether the scanner reads a template tag at its place, and each open element with whether such a
tag opened it.

The gate and the tree builder side by side. Both go through the tags of a text with a stack of what is
open; the gate goes through more tags than the builder. As long as the tags are tidy, the open elements
that a template tag opened are the constructs of the builder, in the same order, apart from the layouts
that adopt what follows them: these the gate does not take for open.
-/

namespace Stencil.Gate

open Text Markup

/-- A tag that the gate reads, and whether the scanner reads a template tag there. -/
structure Sighting where
  tag : AnyTag
  own : Bool
deriving DecidableEq

/-- The tags that the gate reads in a text. -/
def sightings (s : List Char) : List Sighting :=
  match s with
  | [] => []
  | c :: rest =>
      if c = '<' then
        match _h : ['!', '-', '-'].isPrefixOf? rest with
        | some inside =>
            match _h' : cut? ['-', '-', '>'] inside with
            | some (_, after) => sightings after
            | none => []
        | none =>
            match _h' : anyTag? rest with
            | some (tag, after) => ⟨tag, (construct? (c :: rest)).isSome⟩ :: sightings after
            | none => sightings rest
      else sightings rest
termination_by s.length
decreasing_by
  · have h1 := congrArg List.length (eq_append_of_isPrefixOf? _h)
    have h2 := congrArg List.length (cut?_append _h')
    simp only [List.length_append, List.length_cons] at h1 h2 ⊢
    omega
  · have := anyTag?_length _h'
    simp only [List.length_cons]
    omega
  · simp
  · simp

/-- An element that the gate takes for open, and whether a template tag opened it. -/
structure Level where
  name : String
  own : Bool
deriving DecidableEq

/-- The open elements after a tag, innermost first. -/
def levelsAfter (opened : List Level) (seen : Sighting) : List Level :=
  if seen.tag.closing then
    match opened.dropWhile (·.name != seen.tag.name) with
    | _ :: outer => outer
    | [] => opened
  else if openAfter (opened.map Level.name) seen.tag = opened.map Level.name then opened
  else ⟨seen.tag.name, seen.own⟩ :: opened

namespace Sighting

/-- Whether a tag does to the open elements what the tree builder does to its constructs: only a template
tag closes what a template tag opened, it closes nothing else, and it closes itself if it has the name
of an element without content. -/
def isTidy (opened : List Level) (seen : Sighting) : Bool :=
  if seen.own then
    if seen.tag.closing then (opened.find? (·.name == seen.tag.name)).all Level.own
    else seen.tag.selfClosing || !voidElements.contains seen.tag.name
  else (levelsAfter opened seen).filter Level.own == opened.filter Level.own

end Sighting

/-- Whether all tags are tidy, each at the elements that are open before it. -/
def isTidy (opened : List Level) : List Sighting → Bool
  | [] => true
  | seen :: rest => seen.isTidy opened && isTidy (levelsAfter opened seen) rest

theorem isTidy_append (opened : List Level) (front back : List Sighting) :
    isTidy opened (front ++ back) =
      (isTidy opened front && isTidy (front.foldl levelsAfter opened) back) := by
  induction front generalizing opened with
  | nil => rfl
  | cons first rest ih =>
      rw [List.cons_append, isTidy, isTidy, ih, List.foldl_cons, Bool.and_assoc]

/-- Tags that are not the template's leave its open elements as they are. -/
theorem own_levels_passed {opened : List Level} {seen : List Sighting}
    (h : isTidy opened seen = true) (passed : ∀ other ∈ seen, other.own = false) :
    (seen.foldl levelsAfter opened).filter Level.own = opened.filter Level.own := by
  induction seen generalizing opened with
  | nil => rfl
  | cons first rest ih =>
      rw [isTidy, Bool.and_eq_true] at h
      obtain ⟨hfirst, hrest⟩ := h
      rw [List.forall_mem_cons] at passed
      rw [Sighting.isTidy, passed.1, if_neg Bool.false_ne_true, beq_iff_eq] at hfirst
      rw [List.foldl_cons, ih hrest passed.2, hfirst]

end Stencil.Gate

namespace Stencil.Markup

open Text Gate

/-- The name of a tag as the gate reads it. -/
def Tag.lowerName (tag : Tag) : String := String.ofList (asciiLower tag.name.toList)

/-- A tag token as the gate reads it. -/
def Token.anyTag? (token : Token) : Option AnyTag :=
  match token.kind with
  | .opening selfClosing tag _ _ => some ⟨false, tag.lowerName, selfClosing⟩
  | .closing tag _ => some ⟨true, tag.lowerName, false⟩
  | _ => none

theorem ofName?_lowerName (tag : Tag) : Tag.ofName? tag.lowerName.toList = some tag := by
  cases tag <;> decide +kernel

theorem lowerName_inj {first second : Tag} : first.lowerName = second.lowerName ↔ first = second := by
  constructor
  · intro h
    have hfirst := ofName?_lowerName first
    rw [h, ofName?_lowerName] at hfirst
    exact (Option.some.inj hfirst).symm
  · exact congrArg Tag.lowerName

/-- A parameter has the name of an element without content. -/
theorem voidElements_lowerName (tag : Tag) :
    voidElements.contains tag.lowerName = (tag == .param) := by
  cases tag <;> decide +kernel

theorem branchMarkers_lowerName (tag : Tag) :
    branchMarkers.contains tag.lowerName = tag.isBranch := by
  cases tag <;> decide +kernel

theorem siblingClosed_lowerName (tag : Tag) :
    siblingClosedElements.contains tag.lowerName = false := by
  cases tag <;> decide +kernel

/-- What the gate does at an opening template tag. -/
theorem openAfter_own (opened : List String) (tag : Tag) (selfClosing : Bool) :
    openAfter opened ⟨false, tag.lowerName, selfClosing⟩ =
      if selfClosing || tag == .param || tag.isBranch then opened else tag.lowerName :: opened := by
  unfold openAfter
  dsimp only
  rw [if_neg Bool.false_ne_true, voidElements_lowerName, branchMarkers_lowerName,
    siblingClosed_lowerName, Bool.false_and, if_neg Bool.false_ne_true]

/-- The open elements of the gate that template tags opened are the constructs that tags close. -/
def InStep (opened : List Level) (moulds : List Mould) : Prop :=
  (opened.filter Level.own).map Level.name = (moulds.filterMap Mould.tag?).map Tag.lowerName

/-- The constructs around one, given the names around its name. -/
theorem moulds_split {moulds : List Mould} {tag : Tag} {inner outer : List String}
    (h : (moulds.filterMap Mould.tag?).map Tag.lowerName = inner ++ tag.lowerName :: outer)
    (hinner : tag.lowerName ∉ inner) :
    ∃ before mould behind, moulds = before ++ mould :: behind ∧ mould.tag? = some tag ∧
      (∀ other ∈ before, other.tag? ≠ some tag) ∧
      (behind.filterMap Mould.tag?).map Tag.lowerName = outer := by
  obtain ⟨innerTags, rest, hsplit, hnames, hrest⟩ := List.map_eq_append_iff.1 h
  obtain ⟨tag', outerTags, rfl, hsame, rfl⟩ := List.map_eq_cons_iff.1 hrest
  obtain rfl := lowerName_inj.1 hsame
  obtain ⟨before, from', rfl, rfl, hfrom⟩ := List.filterMap_eq_append_iff.1 hsplit
  obtain ⟨between, mould, behind, rfl, hbetween, htag, rfl⟩ := List.filterMap_eq_cons_iff.1 hfrom
  refine ⟨before ++ between, mould, behind, (List.append_assoc ..).symm, htag, fun other hmem heq => ?_,
    rfl⟩
  rcases List.mem_append.1 hmem with hbefore | hmem
  · refine hinner ?_
    rw [← hnames]
    exact List.mem_map_of_mem (List.mem_filterMap.2 ⟨other, hbefore, heq⟩)
  · cases (hbetween other hmem).symm.trans heq

/-- Where no open element of the gate has the name of a tag, no construct of the tag is open. -/
theorem InStep.absent {opened : List Level} {moulds : List Mould} (h : InStep opened moulds) {tag : Tag}
    (habsent : ∀ level ∈ opened, level.name ≠ tag.lowerName) :
    ∀ mould ∈ moulds, mould.tag? ≠ some tag := by
  intro mould hmem heq
  have hname : tag.lowerName ∈ (opened.filter Level.own).map Level.name := by
    rw [h]
    exact List.mem_map_of_mem (List.mem_filterMap.2 ⟨mould, hmem, heq⟩)
  obtain ⟨level, hlevel, hname⟩ := List.mem_map.1 hname
  exact habsent level (List.mem_filter.1 hlevel).1 hname

/-- The innermost open element with the name of a tag, if a template tag opened it, is the innermost
construct of the tag. -/
theorem InStep.innermost {inner outer : List Level} {level : Level} {moulds : List Mould}
    (h : InStep (inner ++ level :: outer) moulds) {tag : Tag} (hown : level.own = true)
    (hname : level.name = tag.lowerName) (hinner : ∀ other ∈ inner, other.name ≠ tag.lowerName) :
    ∃ before mould behind, moulds = before ++ mould :: behind ∧ mould.tag? = some tag ∧
      (∀ other ∈ before, other.tag? ≠ some tag) ∧ InStep outer behind := by
  have hnames : (moulds.filterMap Mould.tag?).map Tag.lowerName =
      (inner.filter Level.own).map Level.name ++ tag.lowerName ::
        (outer.filter Level.own).map Level.name := by
    rw [← h, List.filter_append, List.filter_cons_of_pos hown, List.map_append, List.map_cons, hname]
  have hfirst : tag.lowerName ∉ (inner.filter Level.own).map Level.name := by
    intro hmem
    obtain ⟨other, hother, heq⟩ := List.mem_map.1 hmem
    exact hinner other (List.mem_filter.1 hother).1 heq
  obtain ⟨before, mould, behind, hmoulds, hmould, hbefore, hbehind⟩ := moulds_split hnames hfirst
  exact ⟨before, mould, behind, hmoulds, hmould, hbefore, hbehind.symm⟩

theorem InStep.close {opened : List Level} {stack : Stack} (h : InStep opened stack.moulds) {tag : Tag}
    {seen : Sighting} (htag : seen.tag = ⟨true, tag.lowerName, false⟩) (hown : seen.own = true)
    (tidy : seen.isTidy opened = true) (source : String) :
    InStep (levelsAfter opened seen) (stack.close tag source).moulds := by
  rw [Sighting.isTidy, hown, if_pos rfl, htag, if_pos rfl, List.find?_eq_head?_dropWhile_not] at tidy
  rw [levelsAfter, htag, if_pos rfl]
  dsimp only at tidy ⊢
  have hsplit := List.takeWhile_append_dropWhile (p := (·.name != tag.lowerName)) (l := opened)
  have hhead := List.head?_dropWhile_not (·.name != tag.lowerName) opened
  cases hdrop : opened.dropWhile (·.name != tag.lowerName) with
  | nil =>
      have habsent : ∀ level ∈ opened, level.name ≠ tag.lowerName := fun level hmem =>
        bne_iff_ne.1 (List.dropWhile_eq_nil_iff.1 hdrop level hmem)
      rw [Stack.moulds_close_of_absent (h.absent habsent)]
      exact h
  | cons level outer =>
      rw [hdrop] at hsplit hhead
      have hlevel : level.own = true := by
        change (opened.dropWhile (·.name != tag.lowerName)).head?.all Level.own = true at tidy
        rwa [hdrop] at tidy
      have hname : level.name = tag.lowerName := by simpa using hhead
      have hinner : ∀ other ∈ opened.takeWhile (·.name != tag.lowerName),
          other.name ≠ tag.lowerName := by
        intro other hmem
        have hother := List.mem_takeWhile_imp hmem
        rwa [bne_iff_ne] at hother
      rw [← hsplit] at h
      obtain ⟨before, mould, behind, hmoulds, hmould, hbefore, hbehind⟩ :=
        h.innermost hlevel hname hinner
      rw [Stack.moulds_close_of_split hmoulds hmould hbefore]
      exact hbehind

theorem InStep.openTag {opened : List Level} {stack : Stack} (h : InStep opened stack.moulds)
    (hroom : stack.depth < maxDepth) {tag : Tag} {selfClosing : Bool}
    {seen : Sighting} (htag : seen.tag = ⟨false, tag.lowerName, selfClosing⟩) (hown : seen.own = true)
    (tidy : seen.isTidy opened = true) (attributes : List Attribute) (source : String) :
    InStep (levelsAfter opened seen) (stack.openTag selfClosing tag attributes source).moulds := by
  rw [Sighting.isTidy, hown, if_pos rfl, htag, if_neg Bool.false_ne_true] at tidy
  dsimp only at tidy
  rw [voidElements_lowerName] at tidy
  have hlevels : levelsAfter opened seen =
      if selfClosing || tag == .param || tag.isBranch then opened
      else ⟨tag.lowerName, true⟩ :: opened := by
    rw [levelsAfter, htag, if_neg Bool.false_ne_true, openAfter_own, hown]
    cases selfClosing || tag == .param || tag.isBranch with
    | true => exact if_pos rfl
    | false => exact if_neg fun heq => List.cons_ne_self _ _ heq
  have opens := Stack.opens_openTag selfClosing tag attributes source stack
  generalize (stack.openTag selfClosing tag attributes source).moulds = moulds at opens
  rw [hlevels]
  cases opens with
  | nothing hnothing =>
      rcases hnothing with ⟨hclosed, -⟩ | hbranch | hdeep
      · rw [hclosed, Bool.true_or, Bool.true_or, if_pos rfl]
        exact h
      · rw [hbranch, Bool.or_true, if_pos rfl]
        exact h
      · omega
  | adopting hclosed =>
      rw [hclosed, Bool.true_or, Bool.true_or, if_pos rfl]
      exact h
  | construct isNested hopened hbranch =>
      rw [hopened, Bool.false_or, Bool.not_eq_true'] at tidy
      rw [hopened, hbranch, tidy, if_neg (by decide)]
      exact congrArg (tag.lowerName :: ·) h

/-- The gate and the scanner read the same template tags in a source, and the tags are tidy. -/
structure ReadAlike (source : String) : Prop where
  own : ((sightings source.toList).filter Sighting.own).map Sighting.tag =
    (scan source).filterMap Token.anyTag?
  tidy : isTidy [] (sightings source.toList) = true

/-- A template tag brings the gate to its own sighting of it, past the tags of others. -/
theorem InStep.read {opened : List Level} {stack : Stack} (h : InStep opened stack.moulds)
    (hroom : stack.depth < maxDepth) {token : Token} {passed : List Sighting} {seen : Sighting}
    (hpassed : ∀ other ∈ passed, other.own = false) (hown : seen.own = true)
    (htag : token.anyTag? = some seen.tag) (tidy : isTidy opened (passed ++ [seen]) = true) :
    InStep ((passed ++ [seen]).foldl levelsAfter opened) (stack.read token).moulds := by
  rw [isTidy_append, isTidy, isTidy, Bool.and_true, Bool.and_eq_true] at tidy
  have hbefore : InStep (passed.foldl levelsAfter opened) stack.moulds := by
    rw [InStep, own_levels_passed tidy.1 hpassed]
    exact h
  rw [List.foldl_append]
  obtain ⟨kind, offset, line⟩ := token
  cases kind with
  | text source => cases htag
  | interpolation expression => cases htag
  | opening selfClosing tag attributes source =>
      exact hbefore.openTag hroom (Option.some.inj htag).symm hown tidy.2 attributes source
  | closing tag source => exact hbefore.close (Option.some.inj htag).symm hown tidy.2 source

end Stencil.Markup
