import Stencil.Proofs.Grammar.Seams
import Stencil.Proofs.Resolution.Cuts

/-!
Cuts through an expression do not cut through its words. Trimming, the marks between segments and arguments, the
brackets of indexers and the seams between tokens all leave a part that begins where no word goes on. A number can
end right before a name, but no operand stands behind an operand in what is read.
-/

namespace Stencil

open Text Reference

namespace Reference

/-- A part of a text that does not begin inside of a word. -/
def IsCut (text part : List Char) : Prop :=
  ∃ front back, text = front ++ (part ++ back) ∧
    ((∀ c ∈ front.getLast?, isWord c = false) ∨ ∀ c ∈ part.head?, isWord c = false)

theorem isCut_left (front back : List Char) : IsCut (front ++ back) front :=
  ⟨[], back, rfl, Or.inl fun _ hc => nomatch hc⟩

theorem isCut_self (text : List Char) : IsCut text text :=
  ⟨[], [], (List.append_nil _).symm, Or.inl fun _ hc => nomatch hc⟩

/-- What follows a character that belongs to no word. -/
theorem isCut_behind {mark : Char} (hmark : isWord mark = false) (front rest : List Char) :
    IsCut (front ++ mark :: rest) rest := by
  refine ⟨front ++ [mark], [], by simp, Or.inl fun c hc => ?_⟩
  rw [List.getLast?_concat] at hc
  cases hc
  exact hmark

theorem isCut_suffix {text rest : List Char} (hsuffix : rest <:+ text)
    (hhead : ∀ c ∈ rest.head?, isWord c = false) : IsCut text rest := by
  obtain ⟨front, rfl⟩ := hsuffix
  exact ⟨front, [], by simp, Or.inr hhead⟩

theorem IsCut.trans {text middle part : List Char} (h : IsCut text middle) (h' : IsCut middle part) :
    IsCut text part := by
  obtain ⟨front, back, rfl, hfront⟩ := h
  obtain ⟨front', back', rfl, hfront'⟩ := h'
  refine ⟨front ++ front', back' ++ back, by simp, ?_⟩
  rcases hfront' with hbehind | hhead
  · cases front' with
    | nil =>
        rw [List.append_nil]
        rcases hfront with hbehind | hhead
        · exact Or.inl hbehind
        · cases part with
          | nil => exact Or.inr fun c hc => nomatch hc
          | cons first rest => exact Or.inr hhead
    | cons first rest =>
        rw [List.getLast?_append_of_ne_nil _ (List.cons_ne_nil _ _)]
        exact Or.inl hbehind
  · exact Or.inr hhead

theorem isCut_trimStart (s : List Char) : IsCut s (trimStart s) := by
  have hsplit := List.takeWhile_append_dropWhile (p := isBlank) (l := s)
  refine ⟨s.takeWhile isBlank, [], by rw [List.append_nil]; exact hsplit.symm, Or.inl fun c hc => ?_⟩
  exact not_isWord_of_isBlank (List.mem_takeWhile_imp (List.mem_of_getLast? hc))

theorem isCut_trimEnd (s : List Char) : IsCut s (trimEnd s) := by
  have hsplit := congrArg List.reverse (List.takeWhile_append_dropWhile (p := isBlank) (l := s.reverse))
  rw [List.reverse_append, List.reverse_reverse] at hsplit
  have hcut := isCut_left (s.reverse.dropWhile isBlank).reverse (s.reverse.takeWhile isBlank).reverse
  rw [hsplit] at hcut
  exact hcut

theorem isCut_trim (s : List Char) : IsCut s (trim s) := (isCut_trimStart s).trans (isCut_trimEnd _)

/-- The pieces between marks that belong to no word. -/
theorem isCut_of_mem_joinWith {mark : Char} (hmark : isWord mark = false) {pieces : List (List Char)}
    {piece : List Char} (hmem : piece ∈ pieces) : IsCut (joinWith mark pieces) piece := by
  induction pieces with
  | nil => exact absurd hmem List.not_mem_nil
  | cons first others ih =>
      cases others with
      | nil =>
          rw [List.mem_singleton.1 hmem]
          exact isCut_self first
      | cons second others =>
          rw [joinWith_cons (List.cons_ne_nil second others)]
          rcases List.mem_cons.1 hmem with rfl | hlater
          · exact isCut_left piece _
          · exact (isCut_behind hmark first _).trans (ih hlater)

theorem isCut_of_mem_split {mark : Char} (hmark : isWord mark = false) {single : Bool} {s piece : List Char}
    (hmem : piece ∈ split mark single s) : IsCut s piece := by
  have hcut := isCut_of_mem_joinWith hmark hmem
  rw [joinWith_split] at hcut
  exact hcut

/-- The arguments of a filter stand behind a colon or a comma. -/
theorem isCut_of_mem_filterCall {segment argument : List Char} (hmem : argument ∈ (filterCall segment).2) :
    IsCut segment argument := by
  unfold filterCall at hmem
  dsimp only at hmem
  split at hmem
  next name second others hsplit =>
    obtain ⟨hargument, -⟩ := List.mem_filter.1 hmem
    obtain ⟨piece, hpiece, rfl⟩ := List.mem_map.1 hargument
    have hsegment : trim segment = name ++ ':' :: joinWith ':' (second :: others) := by
      have hjoin := joinWith_split ':' false (trim segment)
      rw [hsplit, joinWith_cons (List.cons_ne_nil _ _)] at hjoin
      exact hjoin.symm
    have hdrop : (trim segment).drop (name.length + 1) = joinWith ':' (second :: others) := by
      rw [hsegment, List.drop_append]
      simp
    have hbehind : IsCut (trim segment) (joinWith ':' (second :: others)) := by
      rw [hsegment]
      exact isCut_behind (by decide) name _
    rw [hdrop] at hpiece
    have hpieceCut : IsCut (joinWith ':' (second :: others)) piece := isCut_of_mem_split (by decide) hpiece
    exact ((isCut_trim segment).trans hbehind).trans (hpieceCut.trans (isCut_trim piece))
  next => exact absurd hmem List.not_mem_nil
  next => exact absurd hmem List.not_mem_nil

theorem isCut_of_closing? {rest inside after : List Char} (h : closing? rest = some (inside, after)) :
    IsCut rest inside ∧ IsCut rest (trimStart after) := by
  rw [closing?_append h]
  exact ⟨isCut_left inside _, (isCut_behind (by decide) inside after).trans (isCut_trimStart after)⟩

/-- Target, key and accessors of an indexed text stand at its front or behind a bracket. -/
theorem isCut_of_indexed? {text : List Char} {found : Indexed} (h : indexed? text = some found) :
    IsCut text found.target ∧ IsCut text found.key ∧ IsCut text found.rest := by
  unfold indexed? at h
  obtain ⟨⟨before, after⟩, hopening, h⟩ := Option.bind_eq_some_iff.1 h
  obtain ⟨⟨key, behind⟩, hclosing, h⟩ := Option.bind_eq_some_iff.1 h
  dsimp only at h
  split at h
  next => cases h
  next =>
    cases h
    obtain rfl := opening?_append hopening
    obtain ⟨hkey, hrest⟩ := isCut_of_closing? hclosing
    have hafter : IsCut (before ++ '[' :: after) after := isCut_behind (by decide) before after
    exact ⟨(isCut_left before _).trans (isCut_trim before), hafter.trans hkey, hafter.trans hrest⟩

end Reference

namespace Formula

theorem source_of_reference {source after : List Char} {text : String}
    (h : Spells source after (.reference text)) :
    text.toList = source ∧ ∀ c ∈ source.head?, isIdentifierStart c = true := by
  generalize htoken : Token.reference text = token at h
  cases h with
  | number value begins ends => cases htoken
  | word begins ends text => exact ⟨reference_of_wordToken htoken.symm, begins⟩
  | quoted value hmark begins ends => cases htoken
  | sign hmem =>
      have hsigns : ∀ token ∈ signs.map Prod.snd, token.reference? = none := by decide
      have hnone := hsigns token (List.mem_map_of_mem hmem)
      rw [← htoken] at hnone
      cases hnone

/-- Among the tokens of a text up to one, no two operands stand next to one another, the last is a reference: no
word goes on into it. -/
theorem before_reference {s : List Char} {ps front back : List Placed} (hps : placed? s = some ps) {p : Placed}
    (hsplit : front ++ p :: back <+: ps)
    (hparted : ((front ++ p :: back).map Placed.token).IsChain Parted) {text : String}
    (hreference : p.token = .reference text) : ∀ d ∈ p.before.getLast?, isWord d = false := by
  have hp : p ∈ ps := hsplit.subset (List.mem_append_right _ (List.mem_cons_self ..))
  have hspells := ((placedFrom?_spec hps).1 p hp).spells
  rw [hreference] at hspells
  obtain ⟨-, hname⟩ := source_of_reference hspells
  rcases before_name hps hsplit hname with hbehind | ⟨⟨q, value, hlast, hvalue⟩, -⟩
  · exact hbehind
  · -- a number is an operand, and so is the reference behind it
    rw [List.isChain_map] at hparted
    have hjoint : Parted q.token p.token := (List.isChain_append.1 hparted).2.2 q hlast p rfl
    rw [hvalue, hreference] at hjoint
    rcases hjoint with hjoint | hjoint
    · cases hjoint
    · cases hjoint

/-- The references that are looked up for an expression are cut out of it between its words. -/
theorem isCut_of_mem_consulted {s : List Char} {text : String} (h : text ∈ consulted s) :
    IsCut s text.toList := by
  cases htokens : tokens? s with
  | none =>
      unfold consulted at h
      rw [htokens] at h
      exact absurd h List.not_mem_nil
  | some tokens =>
      obtain ⟨used, hused, hparted, hconsulted⟩ := consulted_eq htokens
      obtain ⟨ps, hps, hmap⟩ := Option.map_eq_some_iff.1 ((map_placed? s).trans htokens)
      have htaken : used = (ps.take used.length).map Placed.token := by
        rw [List.map_take, hmap]
        exact List.prefix_iff_eq_take.1 hused
      rw [hconsulted] at h
      obtain ⟨token, htoken, hreference⟩ := List.mem_filterMap.1 h
      rw [htaken] at htoken hparted
      obtain ⟨p, hp, rfl⟩ := List.mem_map.1 htoken
      have hspelled : p.token = .reference text := by
        cases hkind : p.token with
        | reference text' =>
            rw [hkind] at hreference
            cases hreference
            rfl
        | _ =>
            rw [hkind] at hreference
            cases hreference
      obtain ⟨front, back, hsplit⟩ := List.append_of_mem hp
      have hprefix : front ++ p :: back <+: ps := hsplit ▸ List.take_prefix _ ps
      rw [hsplit] at hparted
      have hstand := (placedFrom?_spec hps).1 p (List.mem_of_mem_take hp)
      have hspells := hstand.spells
      rw [hspelled] at hspells
      rw [(source_of_reference hspells).1]
      exact ⟨p.before, p.after, hstand.split, Or.inl (before_reference hps hprefix hparted hspelled)⟩

end Formula

namespace Resolver

/-- Whatever a resolution cuts out of a text begins where no word goes on. -/
theorem keptByCuts_isCut (text : List Char) : KeptByCuts (IsCut text) (IsCut text) where
  trim h := h.trans (isCut_trim _)
  segment h hmem := h.trans (isCut_of_mem_split (by decide) hmem)
  argument h hmem := h.trans (isCut_of_mem_filterCall hmem)
  indexed h hindexed :=
    have hparts := isCut_of_indexed? hindexed
    ⟨h.trans hparts.1, h.trans hparts.2.1, h.trans hparts.2.2⟩
  reference h hmem := h.trans (Formula.isCut_of_mem_consulted hmem)
  member {rest} h := by
    refine h.trans (isCut_suffix ((List.dropWhile_suffix _).trans (List.suffix_cons _ _)) fun c hc => ?_)
    have hstops := List.head?_dropWhile_not (fun c => c != '.' && c != '[') rest
    rw [hc] at hstops
    rcases Bool.and_eq_false_iff.1 hstops with hpoint | hbracket
    · rw [bne_eq_false_iff_eq.1 hpoint]
      decide
    · rw [bne_eq_false_iff_eq.1 hbracket]
      decide
  index h hclosing :=
    have hparts := isCut_of_closing? hclosing
    have hbehind := h.trans (isCut_behind (by decide) [] _)
    ⟨hbehind.trans hparts.1, hbehind.trans hparts.2⟩

end Resolver

end Stencil
