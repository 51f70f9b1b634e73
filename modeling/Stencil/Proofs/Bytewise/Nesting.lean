import Stencil.Proofs.Bytewise.Tags

/-!
The nesting of the tags of a text, read by bytes. The search jumps from one angle bracket to the next, behind comments
and behind tags; it never looks at a byte behind the end, and the names it cuts out are those that the reading by
characters gives.
-/

namespace Stencil.Bytewise

open Text Markup Gate

/-- Where a search for tags stands, with the elements open there and the greatest number of them so far. -/
structure NestingSearch where
  cursor : Nat := 0
  nesting : List String × Nat := ([], 0)

/-- What the search does at the name of a tag, which may be none. -/
def nameTurn (s : List Char) (start : Nat) (closing : Bool) (nesting : List String × Nat) :
    Except Slip NestingSearch := do
  let nameStart := start + 1 + closing.toNat
  let named ← bytesFrom (bytes s) nameStart
  let nameLength := (named.takeWhile (holds isAsciiAlphanumeric)).length
  if nameLength = 0 then return ⟨start + 1, nesting⟩
  else
    let first ← byteAt (bytes s) nameStart
    if !holds isAsciiLetter first then return ⟨start + 1, nesting⟩
    else
      match ← tagEnd? (bytes s) (nameStart + nameLength) with
      | none => return ⟨start + 1, nesting⟩
      | some (close, selfClosing) =>
          let name ← slice s nameStart (nameStart + nameLength)
          return ⟨close + 1, nest nesting ⟨closing, String.ofList (asciiLower name), selfClosing⟩⟩

/-- What the search does at an angle bracket. -/
def bracketTurn (s : List Char) (start : Nat) (nesting : List String × Nat) : Except Slip NestingSearch := do
  let there ← bytesFrom (bytes s) start
  if (bytes ['<', '!', '-', '-']).isPrefixOf there then
    let inside ← bytesFrom (bytes s) (start + 4)
    match find? (bytes ['-', '-', '>']) inside with
    | some close => return ⟨start + close + 7, nesting⟩
    | none => return ⟨(bytes s).length, nesting⟩
  else
    let closing := (bytes s)[start + 1]? == some '/'.toUInt8
    nameTurn s start closing nesting

/-- A turn of the search looks for the next angle bracket. -/
def nestingTurn (s : List Char) (state : NestingSearch) : Except Slip (NestingSearch ⊕ Nat) := do
  let ahead ← bytesFrom (bytes s) state.cursor
  match find? (bytes ['<']) ahead with
  | none => return .inr state.nesting.2
  | some found =>
      let next ← bracketTurn s (state.cursor + found) state.nesting
      return .inl next

/-- The deepest nesting of the tags of a text. -/
def nestingDepth (s : List Char) : Except Slip Nat := turns (nestingTurn s) (byteSize s + 1) {}

/-! ### The tags of a text from one angle bracket to the next -/

theorem anyTags_append {front : List Char} (h : '<' ∉ front) (rest : List Char) :
    anyTags (front ++ rest) = anyTags rest := by
  induction front with
  | nil => rfl
  | cons c front ih =>
      obtain ⟨hc, hfront⟩ := not_or.1 (List.mem_cons.not.1 h)
      rw [List.cons_append, anyTags, if_neg (Ne.symm hc), ih hfront]

theorem anyTags_none {s : List Char} (h : '<' ∉ s) : anyTags s = [] := by
  have hall := anyTags_append h []
  rwa [List.append_nil, anyTags.eq_def []] at hall

theorem anyTags_comment (inside : List Char) :
    anyTags ('<' :: '!' :: '-' :: '-' :: inside) =
      match cut? ['-', '-', '>'] inside with
      | some (_, after) => anyTags after
      | none => [] := by
  rw [anyTags, if_pos rfl]
  split
  next found hfound =>
    obtain rfl : inside = found := Option.some.inj hfound
    split
    next hcut => rw [hcut]
    next hcut => rw [hcut]
  next hfound => cases hfound

theorem anyTags_tag {rest : List Char} (h : ¬ ['!', '-', '-'] <+: rest) :
    anyTags ('<' :: rest) =
      match anyTag? rest with
      | some (tag, after) => tag :: anyTags after
      | none => anyTags rest := by
  rw [anyTags, if_pos rfl]
  split
  next found hfound => exact absurd ⟨found, (eq_append_of_isPrefixOf? hfound).symm⟩ h
  next =>
    split
    next htag => rw [htag]
    next htag => rw [htag]

theorem notMem_of_cut? {mark : Char} {s : List Char} (h : cut? [mark] s = none) : mark ∉ s := by
  intro hmem
  have hoccurs : occurs [mark] s = true := (occurs_iff (List.cons_ne_nil _ _)).2 ((List.singleton_infix_iff ..).2 hmem)
  rw [occurs, h] at hoccurs
  cases hoccurs

/-- A text that can be cut at a character shows it first there. -/
theorem notMem_of_cut?_eq_some {mark : Char} {s before after : List Char} (h : cut? [mark] s = some (before, after)) :
    s = before ++ mark :: after ∧ mark ∉ before := by
  have hne : [mark] ≠ [] := List.cons_ne_nil _ _
  obtain ⟨hsplit, hfirst⟩ := (cut?_eq_some_iff hne).1 h
  exact ⟨hsplit, fun hmem => hfirst.absent hne ((List.singleton_infix_iff ..).2 hmem)⟩

/-! ### The search -/

/-- What a search for tags leads to. -/
def NestingSearch.Leads (s : List Char) (state : NestingSearch) (answer : Nat) : Prop :=
  ∃ rest, StandsAt s state.cursor rest ∧ answer = ((anyTags rest).foldl nest state.nesting).2

/-- Behind the angle bracket of a tag, or of what is none, the search goes on with the tags that follow. -/
theorem nameTurn_eq {s rest named : List Char} {start : Nat} {closing : Bool} (nesting : List String × Nat)
    (h : StandsAt s start ('<' :: rest)) (hnamed : StandsAt s (start + 1 + closing.toNat) named)
    (hless : byteSize named ≤ byteSize rest) :
    ∃ next after, nameTurn s start closing nesting = .ok next ∧ StandsAt s next.cursor after ∧
      byteSize after ≤ byteSize rest ∧
      (namedTag? closing named = none ∧ after = rest ∧ next.nesting = nesting ∨
        ∃ tag, namedTag? closing named = some (tag, after) ∧ next.nesting = nest nesting tag) := by
  have hmissed : StandsAt s (start + 1) rest := h.pass ['<']
  have hsplit := List.takeWhile_append_dropWhile (p := isAsciiAlphanumeric) (l := named)
  rw [nameTurn, hnamed.bytesFrom_eq, ok_bind, takeWhile_bytes (fun c => basic_of_isAsciiAlphanumeric), length_bytes]
  dsimp only
  cases hname : named.takeWhile isAsciiAlphanumeric with
  | nil =>
      refine ⟨⟨start + 1, nesting⟩, rest, rfl, hmissed, Nat.le_refl _, .inl ⟨?_, rfl, rfl⟩⟩
      simp [namedTag?, hname]
  | cons c more =>
      rw [hname] at hsplit
      have hsome : byteSize (c :: more) ≠ 0 := Nat.pos_iff_ne_zero.1 (byteSize_pos (List.cons_ne_nil _ _))
      have hc : isAsciiAlphanumeric c = true := by
        have hmem : c ∈ named.takeWhile isAsciiAlphanumeric := by
          rw [hname]
          exact List.mem_cons_self ..
        exact List.mem_takeWhile_imp hmem
      have hbasic := basic_of_isAsciiAlphanumeric hc
      have hfirst : byteAt (bytes s) (start + 1 + closing.toNat) = .ok c.toUInt8 := by
        have hdrop := hnamed.drop_eq
        rw [← hsplit, List.cons_append, bytes_cons_basic hbasic] at hdrop
        exact (byteAt_of_drop hdrop).2.1
      rw [if_neg hsome, hfirst, ok_bind, holds_toUInt8 isAsciiLetter hbasic]
      by_cases hletter : isAsciiLetter c = true
      · have hbehind : StandsAt s (start + 1 + closing.toNat + byteSize (c :: more))
            (named.dropWhile isAsciiAlphanumeric) := by
          rw [← hsplit] at hnamed
          exact hnamed.pass _
        have hcut : slice s (start + 1 + closing.toNat) (start + 1 + closing.toNat + byteSize (c :: more)) =
            .ok (c :: more) := by
          rw [← hsplit] at hnamed
          exact hnamed.slice_eq
        rw [hletter, tagEnd?_eq hbehind, ok_bind]
        cases hbody : tagBody? (named.dropWhile isAsciiAlphanumeric) with
        | none =>
            refine ⟨⟨start + 1, nesting⟩, rest, rfl, hmissed, Nat.le_refl _, .inl ⟨?_, rfl, rfl⟩⟩
            simp [namedTag?, hname, hletter, hbody]
        | some body =>
            have hinner := tagBody?_append hbody
            have hafter : StandsAt s (start + 1 + closing.toNat + byteSize (c :: more) + byteSize body.inner + 1)
                body.rest := by
              rw [hinner] at hbehind
              exact (hbehind.pass _).pass ['>']
            let tag : AnyTag := ⟨closing, String.ofList (asciiLower (c :: more)), body.selfClosing⟩
            refine ⟨⟨_, nest nesting tag⟩, body.rest, ?_, hafter, ?_, .inr ⟨tag, ?_, rfl⟩⟩
            · dsimp only [Option.map_some]
              rw [hcut]
              rfl
            · have hsize := congrArg byteSize hsplit
              have hend : byteSize body.rest < byteSize ('>' :: body.rest) :=
                Nat.lt_add_of_pos_left (Char.utf8Size_pos _)
              rw [hinner, byteSize_append, byteSize_append] at hsize
              omega
            · simp [namedTag?, hname, hletter, hbody, tag]
      · refine ⟨⟨start + 1, nesting⟩, rest, ?_, hmissed, Nat.le_refl _, .inl ⟨?_, rfl, rfl⟩⟩
        · simp [hletter]
        · simp [namedTag?, hname, hletter]

/-- Whether the search finds the tags of a text when it comes to the angle bracket at its front: it goes on behind the
bracket, and what is nested there is nested with what it has found. -/
def Passes (s : List Char) (start : Nat) (nesting : List String × Nat) (ahead : List Char) : Prop :=
  ∃ next later, bracketTurn s start nesting = .ok next ∧ StandsAt s next.cursor later ∧
    byteSize later < byteSize ahead ∧ (anyTags ahead).foldl nest nesting = (anyTags later).foldl nest next.nesting

section Passes

variable {s after : List Char} {start : Nat} (nesting : List String × Nat)

/-- A comment is passed to its end, and to the end of the text if it has none. -/
theorem passes_comment {inside : List Char} (h : StandsAt s start ('<' :: '!' :: '-' :: '-' :: inside)) :
    Passes s start nesting ('<' :: '!' :: '-' :: '-' :: inside) := by
  have hmark : (bytes ['<', '!', '-', '-']).isPrefixOf (bytes ('<' :: '!' :: '-' :: '-' :: inside)) = true := by
    rw [List.isPrefixOf_iff_prefix, bytes_prefix_iff (by simp)]
    exact ⟨inside, rfl⟩
  have hinside : StandsAt s (start + 4) inside := h.pass ['<', '!', '-', '-']
  have hend := find?_bytes ['-', '-', '>'] (List.cons_ne_nil _ _) (by simp) inside
  unfold Passes
  rw [bracketTurn, h.bytesFrom_eq, ok_bind, if_pos hmark, hinside.bytesFrom_eq, ok_bind, hend, anyTags_comment]
  cases hclose : cut? ['-', '-', '>'] inside with
  | none =>
      have hnothing : StandsAt s (bytes s).length [] := ⟨s, (List.append_nil s).symm, (length_bytes s).symm⟩
      refine ⟨⟨(bytes s).length, nesting⟩, [], rfl, hnothing, byteSize_pos (List.cons_ne_nil _ _), ?_⟩
      rw [anyTags.eq_def []]
  | some parts =>
      obtain ⟨body, later⟩ := parts
      obtain rfl := cut?_append hclose
      have hlater : StandsAt s (start + byteSize body + 7) later := by
        rw [List.append_assoc] at hinside
        have hpassed := (hinside.pass _).pass ['-', '-', '>']
        rwa [Nat.add_right_comm _ 4] at hpassed
      refine ⟨⟨start + byteSize body + 7, nesting⟩, later, rfl, hlater, ?_, rfl⟩
      have hpos := Char.utf8Size_pos '<'
      simp only [byteSize_append, byteSize_cons]
      omega

/-- Behind the bracket, and behind a slash, stands what may be the name of a tag. -/
theorem exists_named (h : StandsAt s (start + 1) after) :
    ∃ named, StandsAt s (start + 1 + (after.head? == some '/').toNat) named ∧ byteSize named ≤ byteSize after ∧
      anyTag? after = namedTag? (after.head? == some '/') named := by
  cases after with
  | nil => exact ⟨[], h, Nat.le_refl _, rfl⟩
  | cons c rest =>
      by_cases hc : c = '/'
      · subst hc
        exact ⟨rest, h.pass ['/'], Nat.le_add_left .., rfl⟩
      · have hhead : ((c :: rest).head? == some '/') = false := by simpa using hc
        rw [hhead]
        refine ⟨c :: rest, h, Nat.le_refl _, ?_⟩
        unfold anyTag?
        split
        next heq => exact absurd (List.cons.inj heq).1 hc
        next => rfl

theorem passes_tag (h : StandsAt s start ('<' :: after)) (nocomment : ¬ ['!', '-', '-'] <+: after) :
    Passes s start nesting ('<' :: after) := by
  have hmark : ¬ (bytes ['<', '!', '-', '-']).isPrefixOf (bytes ('<' :: after)) = true := by
    rw [List.isPrefixOf_iff_prefix, bytes_prefix_iff (by simp), List.cons_prefix_cons]
    exact fun hprefix => nocomment hprefix.2
  have hbehind : StandsAt s (start + 1) after := h.pass ['<']
  have hslash : ((bytes s)[start + 1]? == some '/'.toUInt8) = (after.head? == some '/') := by
    have hget := hbehind.getElem?_eq 0
    rw [Nat.add_zero, ← List.head?_eq_getElem?] at hget
    rw [hget, Bool.eq_iff_iff, beq_iff_eq, beq_iff_eq, head?_bytes (by decide)]
  have hangle : byteSize after < byteSize ('<' :: after) := Nat.lt_add_of_pos_left (Char.utf8Size_pos _)
  obtain ⟨named, hnamed, hless, htag⟩ := exists_named hbehind
  obtain ⟨next, later, hnext, hlater, hshort, hmeans⟩ := nameTurn_eq nesting h hnamed hless
  unfold Passes
  rw [bracketTurn, h.bytesFrom_eq, ok_bind, if_neg hmark, hslash, anyTags_tag nocomment, htag]
  refine ⟨next, later, hnext, hlater, Nat.lt_of_le_of_lt hshort hangle, ?_⟩
  rcases hmeans with ⟨hnone, rfl, hsame⟩ | ⟨tag, hsome, hsame⟩
  · rw [hnone, hsame]
  · rw [hsome, hsame]
    rfl

end Passes

/-- A turn that is not the last leads to what its beginning leads to, from a later offset on. -/
theorem NestingSearch.Leads.turn {s : List Char} {state : NestingSearch} {answer : Nat}
    (leads : state.Leads s answer) :
    nestingTurn s state = .ok (.inr answer) ∨
      ∃ next, nestingTurn s state = .ok (.inl next) ∧
        byteSize s - next.cursor < byteSize s - state.cursor ∧ next.Leads s answer := by
  obtain ⟨rest, hrest, rfl⟩ := leads
  have hfind := find?_bytes ['<'] (List.cons_ne_nil _ _) (by simp) rest
  rw [nestingTurn, hrest.bytesFrom_eq, ok_bind, hfind]
  cases hcut : cut? ['<'] rest with
  | none =>
      refine .inl ?_
      rw [anyTags_none (notMem_of_cut? hcut)]
      rfl
  | some parts =>
      obtain ⟨front, after⟩ := parts
      obtain ⟨rfl, hfront⟩ := notMem_of_cut?_eq_some hcut
      have hthere := hrest.pass _
      have hpasses : Passes s (state.cursor + byteSize front) state.nesting ('<' :: after) := by
        by_cases hcomment : ['!', '-', '-'] <+: after
        · obtain ⟨inside, rfl⟩ := hcomment
          exact passes_comment state.nesting hthere
        · exact passes_tag state.nesting hthere hcomment
      obtain ⟨next, later, hnext, hlater, hless, heq⟩ := hpasses
      refine .inr ⟨next, ?_, ?_, later, hlater, ?_⟩
      · dsimp only [Option.map_some]
        rw [hnext]
        rfl
      · have hbegin := hrest.size_eq
        have hend := hlater.size_eq
        rw [byteSize_append] at hbegin
        omega
      · rw [anyTags_append hfront, heq]

/-- The search for tags by bytes never slips, and finds the nesting that is found by characters. -/
theorem nestingDepth_eq (s : List Char) : nestingDepth s = .ok (Gate.nestingDepth s) := by
  have hleads : NestingSearch.Leads s {} (Gate.nestingDepth s) := ⟨s, .start s, rfl⟩
  exact turns_eq (fun state => byteSize s - state.cursor) NestingSearch.Leads.turn hleads (Nat.lt_succ_self _)

end Stencil.Bytewise
