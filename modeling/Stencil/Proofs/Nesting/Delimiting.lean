import Stencil.Proofs.Markup.Runs
import Stencil.Proofs.Nesting.Lockstep

/-!
Where the gate and the scanner find the same template tags. Both read a template tag in the same way,
up to its end. They differ in what they pass over: the scanner passes over interpolations and reads on
inside the tags of markup, the gate passes over the tags of markup and reads on inside
interpolations. So they find the same template tags where no `<` stands in either.
-/

namespace Stencil.Markup

open Text Gate

/-- No `<` stands where one of the two readers passes over what the other one reads: inside an
interpolation, or inside a tag that is none of the template's. -/
structure IsSeparate (s : List Char) : Prop where
  interpolations : ∀ rest body after, '{' :: '{' :: rest <:+ s →
    cut? ['}', '}'] rest = some (body, after) → '<' ∉ body
  tags : ∀ rest tag after inside, '<' :: rest <:+ s → construct? ('<' :: rest) = none →
    anyTag? rest = some (tag, after) → rest = inside ++ after → '<' ∉ inside

theorem IsSeparate.of_suffix {s suffix : List Char} (h : IsSeparate s) (hsuffix : suffix <:+ s) :
    IsSeparate suffix :=
  ⟨fun rest body after hrest => h.interpolations rest body after (hrest.trans hsuffix),
    fun rest tag after inside hrest => h.tags rest tag after inside (hrest.trans hsuffix)⟩

def Piece.anyTag? : Piece → Option AnyTag
  | .opening selfClosing tag _ _ => some ⟨false, tag.lowerName, selfClosing⟩
  | .closing tag _ => some ⟨true, tag.lowerName, false⟩
  | _ => none

theorem recognize?_eq {name : List Char} {next : Option Char} {tag : Tag}
    (h : recognize? name next = some tag) :
    name.head?.any isAsciiLetter = true ∧ String.ofList (asciiLower name) = tag.lowerName := by
  unfold recognize? at h
  split at h
  next hcond =>
    rw [Bool.and_eq_true] at hcond
    refine ⟨?_, ?_⟩
    · cases name with
      | nil => cases hcond.1
      | cons c rest =>
          have hcapital : 'A' ≤ c ∧ c ≤ 'Z' := by simpa using hcond.1
          simp [isAsciiLetter, hcapital.1, hcapital.2]
    · have hsame : asciiLower tag.name.toList = asciiLower name := by
        simpa [sameLetters] using List.find?_some h
      rw [Tag.lowerName, hsame]
  next => cases h

/-- Blanks up to the closing mark end a tag that does not close itself. -/
theorem tagBody?_blanks {blanks : List Char} (h : ∀ c ∈ blanks, isBlank c = true) (after : List Char) :
    tagBody? (blanks ++ '>' :: after) = some ⟨blanks, false, after⟩ := by
  have hfrom (passed : List Char) : tagBodyFrom? {} passed (blanks ++ '>' :: after) =
      some ⟨passed.reverse ++ blanks, false, after⟩ := by
    induction blanks generalizing passed with
    | nil => simp [tagBodyFrom?]
    | cons c rest ih =>
        rw [List.forall_mem_cons] at h
        have hne {d : Char} (hd : isBlank d = false) : c ≠ d := by
          rintro rfl
          cases hd.symm.trans h.1
        have hstep : ({} : TagScan).step c = {} := by
          have hslash : c ≠ '/' := hne (by decide)
          simp [TagScan.step, hne (by decide : isBlank '"' = false),
            hne (by decide : isBlank '\'' = false), hslash]
        rw [List.cons_append, tagBodyFrom?, if_neg fun hend => hne (by decide) hend.1, hstep, ih h.2]
        simp
  exact hfrom []

theorem namedTag?_eq {closing : Bool} {s : List Char} {tag : Tag} {body : TagBody}
    (hname : recognize? (s.takeWhile isAsciiAlphanumeric) (s.dropWhile isAsciiAlphanumeric).head? =
      some tag) (hbody : tagBody? (s.dropWhile isAsciiAlphanumeric) = some body) :
    namedTag? closing s = some (⟨closing, tag.lowerName, body.selfClosing⟩, body.rest) := by
  obtain ⟨hletter, hlower⟩ := recognize?_eq hname
  unfold namedTag?
  dsimp only
  rw [if_pos hletter, hbody, Option.map_some, hlower]

/-- The gate reads a template tag as the scanner does. -/
theorem anyTag?_of_construct? {rest after : List Char} {piece : Piece}
    (hcomment : ['!', '-', '-'].isPrefixOf? rest = none)
    (h : construct? ('<' :: rest) = some (piece, after)) :
    ∃ tag, piece.anyTag? = some tag ∧ anyTag? rest = some (tag, after) := by
  unfold construct? at h
  split at h
  next heq => cases heq
  next inside heq =>
    cases heq
    cases hcomment
  next inside heq =>
    cases heq
    simp only [closingTag?, Option.bind_eq_bind, Option.bind_eq_some_iff] at h
    obtain ⟨tag, hname, h⟩ := h
    split at h
    next behind hend =>
      cases h
      have hbody : tagBody? (inside.dropWhile isAsciiAlphanumeric) =
          some ⟨(inside.dropWhile isAsciiAlphanumeric).takeWhile isBlank, false, after⟩ := by
        have hsplit := List.takeWhile_append_dropWhile (p := isBlank)
          (l := inside.dropWhile isAsciiAlphanumeric)
        rw [trimStart] at hend
        rw [hend] at hsplit
        rw [← tagBody?_blanks (fun c hmem => List.mem_takeWhile_imp hmem) after, hsplit]
      exact ⟨_, rfl, namedTag?_eq hname hbody⟩
    next => cases h
  next inside _ hslash heq =>
    cases heq
    simp only [openingTag?, Option.bind_eq_bind, Option.bind_eq_some_iff] at h
    obtain ⟨tag, hname, body, hbody, heq⟩ := h
    cases heq
    refine ⟨_, rfl, ?_⟩
    rw [← namedTag?_eq hname hbody]
    unfold anyTag?
    split
    next => exact absurd rfl (hslash _)
    next => rfl
  next => cases h

/-- The template tags that the scanner finds in a text, as the gate reads them. -/
def tagsOf (s : List Char) : List AnyTag := (pieces s).filterMap Piece.anyTag?

theorem tagsOf_of_construct? {c : Char} {rest after : List Char} {piece : Piece}
    (h : construct? (c :: rest) = some (piece, after)) :
    tagsOf (c :: rest) = piece.anyTag?.toList ++ tagsOf after := by
  unfold tagsOf
  rw [pieces_of_construct? h]
  cases htag : piece.anyTag? with
  | none => rw [List.filterMap_cons_none htag]; rfl
  | some tag => rw [List.filterMap_cons_some htag]; rfl

theorem tagsOf_of_plain {c : Char} {rest : List Char} (h : construct? (c :: rest) = none) :
    tagsOf (c :: rest) = tagsOf (rest.dropWhile isPlain) := by
  unfold tagsOf
  rw [pieces_of_plain h]
  rfl

theorem interpolation_of_construct? {c : Char} {rest after : List Char} {piece : Piece} (hc : c ≠ '<')
    (h : construct? (c :: rest) = some (piece, after)) :
    ∃ inside body, c :: rest = '{' :: '{' :: inside ∧
      cut? ['}', '}'] inside = some (body, after) ∧ piece = .interpolation body := by
  unfold construct? at h
  split at h
  next inside heq =>
    simp only [interpolation?, Option.bind_eq_bind, Option.bind_eq_some_iff, Prod.exists] at h
    obtain ⟨body, behind, hcut, hpiece⟩ := h
    cases hpiece
    exact ⟨inside, body, heq, hcut, rfl⟩
  next heq =>
    cases heq
    exact absurd rfl hc
  next heq =>
    cases heq
    exact absurd rfl hc
  next heq =>
    cases heq
    exact absurd rfl hc
  next => cases h

/-- What stands from the next `<` on. -/
def fromTag (s : List Char) : List Char := s.dropWhile (· != '<')

theorem fromTag_append {front : List Char} (h : '<' ∉ front) (s : List Char) :
    fromTag (front ++ s) = fromTag s := by
  refine List.dropWhile_append_of_pos fun c hmem => bne_iff_ne.2 ?_
  rintro rfl
  exact h hmem

theorem fromTag_plain (rest : List Char) : fromTag (rest.dropWhile isPlain) = fromTag rest := by
  have hplain : '<' ∉ rest.takeWhile isPlain := by
    intro hmem
    cases List.mem_takeWhile_imp hmem
  rw [← fromTag_append hplain, List.takeWhile_append_dropWhile]

/-- Before the next `<` the scanner finds no template tag, and no interpolation reaches over it. -/
theorem tagsOf_fromTag {s : List Char} (h : IsSeparate s) : tagsOf (fromTag s) = tagsOf s := by
  induction s using pieces.induct with
  | case1 => rfl
  | case2 c rest piece after hconstruct ih =>
      by_cases hc : c = '<'
      · rw [fromTag, List.dropWhile_cons_of_neg (by simpa using hc)]
      · obtain ⟨inside, body, hs, hcut, rfl⟩ := interpolation_of_construct? hc hconstruct
        have hbody : '<' ∉ body := h.interpolations inside body after (hs ▸ List.suffix_refl _) hcut
        have hpassed : '<' ∉ '{' :: '{' :: (body ++ ['}', '}']) := by
          simpa using hbody
        have hsplit : c :: rest = '{' :: '{' :: (body ++ ['}', '}']) ++ after := by
          rw [hs, cut?_append hcut]
          rfl
        have hafter : IsSeparate after := h.of_suffix (hsplit ▸ List.suffix_append ..)
        rw [tagsOf_of_construct? hconstruct, hsplit, fromTag_append hpassed, ih hafter]
        rfl
  | case3 c rest hconstruct ih =>
      by_cases hc : c = '<'
      · rw [fromTag, List.dropWhile_cons_of_neg (by simpa using hc)]
      · rw [tagsOf_of_plain hconstruct, ← ih (h.of_suffix ?_), fromTag_plain, fromTag, fromTag,
          List.dropWhile_cons_of_pos (by simpa using hc)]
        exact (List.dropWhile_suffix _).trans (List.suffix_cons ..)

theorem suffix_of_namedTag? {closing : Bool} {s after : List Char} {tag : AnyTag}
    (h : namedTag? closing s = some (tag, after)) : after <:+ s := by
  unfold namedTag? at h
  dsimp only at h
  split at h
  · obtain ⟨body, hbody, heq⟩ := Option.map_eq_some_iff.1 h
    cases heq
    refine List.IsSuffix.trans ?_ (List.dropWhile_suffix isAsciiAlphanumeric)
    rw [tagBody?_append hbody, List.append_cons]
    exact List.suffix_append ..
  · cases h

theorem suffix_of_anyTag? {rest after : List Char} {tag : AnyTag}
    (h : anyTag? rest = some (tag, after)) : after <:+ rest := by
  unfold anyTag? at h
  split at h
  · exact (suffix_of_namedTag? h).trans (List.suffix_cons ..)
  · exact suffix_of_namedTag? h

theorem tagsOf_passed {rest : List Char} (h : IsSeparate ('<' :: rest))
    (hconstruct : construct? ('<' :: rest) = none) : tagsOf ('<' :: rest) = tagsOf (fromTag rest) := by
  have hplain : rest.dropWhile isPlain <:+ '<' :: rest :=
    (List.dropWhile_suffix _).trans (List.suffix_cons ..)
  rw [tagsOf_of_plain hconstruct, ← tagsOf_fromTag (h.of_suffix hplain), fromTag_plain]

/-- The gate marks as the template's just the tags that the scanner finds. -/
theorem own_sightings {s : List Char} (h : IsSeparate s) :
    ((sightings s).filter Sighting.own).map Sighting.tag = tagsOf s := by
  fun_induction sightings s with
  | case1 =>
      rw [tagsOf, pieces]
      rfl
  | case2 rest inside hcomment body after hend ih =>
      obtain rfl := eq_append_of_isPrefixOf? hcomment
      have hconstruct : construct? ('<' :: (['!', '-', '-'] ++ inside)) =
          some (.text ("<!--".toList ++ body ++ "-->".toList), after) := by
        change some (comment inside) = _
        rw [comment, hend]
      have hafter : after <:+ '<' :: (['!', '-', '-'] ++ inside) := by
        rw [← construct?_append hconstruct]
        exact List.suffix_append ..
      rw [tagsOf_of_construct? hconstruct, ih (h.of_suffix hafter)]
      rfl
  | case3 rest inside hcomment hend =>
      obtain rfl := eq_append_of_isPrefixOf? hcomment
      have hconstruct : construct? ('<' :: (['!', '-', '-'] ++ inside)) =
          some (.text ("<!--".toList ++ inside), []) := by
        change some (comment inside) = _
        rw [comment, hend]
      rw [tagsOf_of_construct? hconstruct, tagsOf, pieces]
      rfl
  | case4 rest hcomment tag after htag ih =>
      have hsuffix := suffix_of_anyTag? htag
      have hafter := h.of_suffix (hsuffix.trans (List.suffix_cons ..))
      cases hconstruct : construct? ('<' :: rest) with
      | some result =>
          obtain ⟨piece, behind⟩ := result
          obtain ⟨same, hpiece, hsame⟩ := anyTag?_of_construct? hcomment hconstruct
          cases htag.symm.trans hsame
          rw [tagsOf_of_construct? hconstruct, hpiece, ← ih hafter]
          rfl
      | none =>
          -- a tag of markup, which the scanner reads as plain text up to the next `<`
          obtain ⟨inside, rfl⟩ := hsuffix
          have hinside : '<' ∉ inside :=
            h.tags _ tag after inside (List.suffix_refl _) hconstruct htag rfl
          rw [tagsOf_passed h hconstruct, fromTag_append hinside, tagsOf_fromTag hafter, ← ih hafter]
          rfl
  | case5 rest hcomment htag ih =>
      have hrest := h.of_suffix (List.suffix_cons ..)
      have hconstruct : construct? ('<' :: rest) = none := by
        cases hconstruct : construct? ('<' :: rest) with
        | none => rfl
        | some result =>
            obtain ⟨tag, -, hsome⟩ := anyTag?_of_construct? hcomment hconstruct
            cases htag.symm.trans hsome
      rw [tagsOf_passed h hconstruct, tagsOf_fromTag hrest, ih hrest]
  | case6 c rest hc ih =>
      have hrest := h.of_suffix (List.suffix_cons ..)
      have hpassed : '<' ∉ [c] := by simpa using Ne.symm hc
      rw [ih hrest, ← tagsOf_fromTag h, ← tagsOf_fromTag hrest]
      exact congrArg tagsOf (fromTag_append hpassed rest).symm

theorem anyTag?_of_kind {token : Token} {piece : Piece} (h : token.kind = piece.kind) :
    token.anyTag? = piece.anyTag? := by
  unfold Token.anyTag?
  rw [h]
  cases piece <;> rfl

theorem filterMap_anyTag?_locate (offset line : Nat) (ps : List Piece) :
    (locate offset line ps).filterMap Token.anyTag? = ps.filterMap Piece.anyTag? := by
  induction ps generalizing offset line with
  | nil => rfl
  | cons piece rest ih =>
      rw [locate, List.filterMap_cons, List.filterMap_cons, ih, anyTag?_of_kind rfl]

theorem filterMap_anyTag?_mergePieces (ps : List Piece) :
    (mergePieces ps).filterMap Piece.anyTag? = ps.filterMap Piece.anyTag? := by
  induction ps with
  | nil => rfl
  | cons piece rest ih =>
      change (consPiece piece (mergePieces rest)).filterMap Piece.anyTag? = _
      rw [List.filterMap_cons, ← ih]
      rcases consPiece_cases piece (mergePieces rest) with
        ⟨first, second, others, rfl, hrest, heq⟩ | ⟨heq, -⟩
      · rw [heq, hrest]
        rfl
      · rw [heq, List.filterMap_cons]

/-- A source that keeps interpolations and the tags of markup free of `<` is read alike if its tags are
tidy. -/
theorem IsSeparate.readAlike {source : String} (h : IsSeparate source.toList)
    (tidy : isTidy [] (sightings source.toList) = true) : ReadAlike source := by
  refine ⟨?_, tidy⟩
  rw [own_sightings h, scan, filterMap_anyTag?_locate, filterMap_anyTag?_mergePieces]
  rfl

end Stencil.Markup
