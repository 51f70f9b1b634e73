import Mathlib.Data.List.Chain
import Stencil.Proofs.EncodedOutput

/-!
Escapes can be undone, and what is escaped does not end what it stands in. From the entities of a text the text
can be read back, and a diagnostic is closed at its end and nowhere before. A text that is escaped for a script
can stand in a string literal with either quote: reading the literal gives the text back, no quote in it ends
it, and it has no closing tag.
-/

namespace Stencil

open Text

namespace Gate

section Markup

/-- The special characters of markup with their entities. -/
def entities : List (Char × List Char) :=
  [('&', "&amp;".toList), ('<', "&lt;".toList), ('>', "&gt;".toList), ('"', "&quot;".toList),
    ('\'', "&#39;".toList)]

/-- The character of the entity that a text begins with, and the text behind the entity. -/
def entityAt? (s : List Char) : Option (Char × List Char) :=
  entities.findSome? fun (c, entity) => (entity.isPrefixOf? s).map (c, ·)

theorem length_lt_of_entityAt? {s after : List Char} {c : Char} (h : entityAt? s = some (c, after)) :
    after.length < s.length := by
  obtain ⟨⟨d, entity⟩, hmem, hentity⟩ := List.exists_of_findSome?_eq_some h
  obtain ⟨rest, hrest, heq⟩ := Option.map_eq_some_iff.1 hentity
  cases heq
  have hpos : 0 < entity.length := (by decide : ∀ entry ∈ entities, 0 < entry.2.length) _ hmem
  rw [eq_append_of_isPrefixOf? hrest, List.length_append]
  omega

/-- The text with its entities read. What is no entity stays as it is. -/
def unescapeHtml (s : List Char) : List Char :=
  match s with
  | [] => []
  | c :: rest =>
      match _h : entityAt? (c :: rest) with
      | some (d, after) => d :: unescapeHtml after
      | none => c :: unescapeHtml rest
termination_by s.length
decreasing_by
  · exact length_lt_of_entityAt? _h
  · exact Nat.lt_succ_self _

theorem mem_entities {c : Char} {entity : List Char} (h : entity? c = some entity) :
    (c, entity) ∈ entities := by
  unfold entity? at h
  split at h
  all_goals cases h
  all_goals decide

/-- In an entity only the first character is an ampersand. -/
theorem entity_eq_cons {entry : Char × List Char} (hmem : entry ∈ entities) :
    ∃ name, entry.2 = '&' :: name ∧ '&' ∉ name := by
  refine ⟨entry.2.tail, ?_⟩
  exact (by decide : ∀ entry ∈ entities, entry.2 = '&' :: entry.2.tail ∧ '&' ∉ entry.2.tail) entry hmem

theorem entityAt?_append {c : Char} {entity : List Char} (hmem : (c, entity) ∈ entities)
    (s : List Char) : entityAt? (entity ++ s) = some (c, s) := by
  simp only [entities, List.mem_cons, Prod.mk.injEq, List.not_mem_nil, or_false] at hmem
  rcases hmem with ⟨rfl, rfl⟩ | ⟨rfl, rfl⟩ | ⟨rfl, rfl⟩ | ⟨rfl, rfl⟩ | ⟨rfl, rfl⟩
  all_goals rfl

theorem entityAt?_cons_of_ne {c : Char} (hc : c ≠ '&') (s : List Char) : entityAt? (c :: s) = none := by
  refine List.findSome?_eq_none_iff.2 fun ⟨d, entity⟩ hmem => ?_
  obtain ⟨name, rfl, -⟩ := entity_eq_cons hmem
  change Option.map _ (if '&' == c then name.isPrefixOf? s else none) = none
  rw [beq_eq_false_iff_ne.2 hc.symm]
  rfl

theorem unescapeHtml_entity {c : Char} {entity : List Char} (hmem : (c, entity) ∈ entities) (s : List Char) :
    unescapeHtml (entity ++ s) = c :: unescapeHtml s := by
  have hread := entityAt?_append hmem s
  obtain ⟨name, rfl, -⟩ := entity_eq_cons hmem
  rw [List.cons_append] at hread ⊢
  rw [unescapeHtml]
  split
  next d after hsome =>
    obtain ⟨rfl, rfl⟩ := Prod.mk.inj (Option.some.inj (hread.symm.trans hsome))
    rfl
  next hnone => rw [hread] at hnone; cases hnone

theorem unescapeHtml_plain {c : Char} (hc : c ≠ '&') (s : List Char) :
    unescapeHtml (c :: s) = c :: unescapeHtml s := by
  rw [unescapeHtml]
  split
  next d after hsome => rw [entityAt?_cons_of_ne hc] at hsome; cases hsome
  next => rfl

theorem escapeHtml_cons (c : Char) (s : List Char) : escapeHtml (c :: s) = (entity? c).getD [c] ++ escapeHtml s :=
  List.flatMap_cons ..

/-- The text is read back from its entities. -/
theorem unescapeHtml_escapeHtml (s : List Char) : unescapeHtml (escapeHtml s) = s := by
  induction s with
  | nil => rw [escapeHtml, List.flatMap_nil, unescapeHtml]
  | cons c rest ih =>
      rw [escapeHtml_cons]
      cases hentity : entity? c with
      | some entity => rw [Option.getD_some, unescapeHtml_entity (mem_entities hentity), ih]
      | none =>
          have hc : c ≠ '&' := by
            rintro rfl
            cases hentity
          rw [Option.getD_none, List.singleton_append, unescapeHtml_plain hc, ih]

/-- Each ampersand of an escaped text begins an entity. -/
theorem entity_of_ampersand {s before after : List Char} (h : escapeHtml s = before ++ '&' :: after) :
    ∃ entry ∈ entities, entry.2 <+: '&' :: after := by
  induction s generalizing before with
  | nil => exact absurd h.symm (List.append_ne_nil_of_right_ne_nil _ (List.cons_ne_nil _ _))
  | cons c rest ih =>
      rw [escapeHtml_cons] at h
      rcases List.append_eq_append_iff.1 h with ⟨front, -, hrest⟩ | ⟨behind, hpiece, hafter⟩
      · exact ih hrest
      · cases behind with
        | nil =>
            have hplace : escapeHtml rest = [] ++ '&' :: after := hafter.symm
            exact ih hplace
        | cons d behind =>
            -- the ampersand stands in what the first character became
            rw [List.cons_append] at hafter
            obtain ⟨rfl, rfl⟩ := List.cons.inj hafter
            cases hentity : entity? c with
            | some entity =>
                have hmem := mem_entities hentity
                obtain ⟨name, rfl, hname⟩ := entity_eq_cons hmem
                rw [hentity, Option.getD_some] at hpiece
                refine ⟨_, hmem, ?_⟩
                rcases List.cons_eq_append_iff.1 hpiece with ⟨-, hbehind⟩ | ⟨front, -, rfl⟩
                · exact ⟨escapeHtml rest, congrArg (· ++ escapeHtml rest) hbehind.symm⟩
                · exact absurd (List.mem_append_right _ (List.mem_cons_self ..)) hname
            | none =>
                rw [hentity, Option.getD_none] at hpiece
                obtain rfl : '&' = c := List.mem_singleton.1
                  (hpiece ▸ List.mem_append_right _ (List.mem_cons_self ..))
                cases hentity

end Markup

section Script

/-- The character that a backslash and another character stand for in a string literal of a script: six letters
stand for controls, and most characters for themselves. Escapes by a code are not read, nor are those of line
ends, which stand for nothing. -/
def unescaped? : Char → Option Char
  | 'b' => some '\x08'
  | 't' => some '\t'
  | 'n' => some '\n'
  | 'v' => some '\x0b'
  | 'f' => some '\x0c'
  | 'r' => some '\r'
  | 'u' | 'x' | '\n' | '\r' | '\u2028' | '\u2029' => none
  | c => if c.isDigit then none else some c

/-- The characters that stand in a string literal by no other means than an escape. -/
def needsEscape (c : Char) : Bool := c == '\\' || c == '"' || c == '\'' || c == '\n' || c == '\r'

/-- The text that a string literal of a script stands for, given between its quotes, whichever these are. -/
def literalText? : List Char → Option (List Char)
  | [] => some []
  | '\\' :: c :: rest => do return (← unescaped? c) :: (← literalText? rest)
  | c :: rest => if needsEscape c then none else (literalText? rest).map (c :: ·)

theorem literalText?_escape {c d : Char} (h : unescaped? d = some c) (rest : List Char) :
    literalText? ('\\' :: d :: rest) = (literalText? rest).map (c :: ·) := by
  rw [literalText?, h]
  cases literalText? rest <;> rfl

theorem literalText?_plain {c : Char} (h : needsEscape c = false) (rest : List Char) :
    literalText? (c :: rest) = (literalText? rest).map (c :: ·) := by
  have hc : c ≠ '\\' := by
    rintro rfl
    cases h
  rw [literalText?, h]
  · rfl
  · exact fun d after heq => absurd heq hc

/-- How a character in front of a text is escaped for a script. -/
inductive Escapes (c : Char) (rest : List Char) : Prop where
  /-- By a backslash in front of the character or of the letter for it. -/
  | marked {d : Char} (means : unescaped? d = some c) (written : d ≠ '<')
      (eq : escapeScript (c :: rest) = '\\' :: d :: escapeScript rest)
  /-- By a backslash behind it, which parts a `<` from a slash. -/
  | parted (mark : c = '<') (slash : rest.head? = some '/')
      (eq : escapeScript (c :: rest) = c :: '\\' :: escapeScript rest)
  | plain (plain : needsEscape c = false) (open_ : c = '<' → rest.head? ≠ some '/')
      (eq : escapeScript (c :: rest) = c :: escapeScript rest)

theorem escapes (c : Char) (rest : List Char) : Escapes c rest := by
  have hequation := escapeScript.eq_def (c :: rest)
  dsimp only at hequation
  split at hequation
  case h_1 => exact .marked (d := '\\') rfl (by decide) hequation
  case h_2 => exact .marked (d := '\'') rfl (by decide) hequation
  case h_3 => exact .marked (d := '"') rfl (by decide) hequation
  case h_4 => exact .marked (d := 'n') rfl (by decide) hequation
  case h_5 => exact .marked (d := 'r') rfl (by decide) hequation
  case h_6 =>
    split at hequation
    next hslash => exact .parted rfl hslash hequation
    next hslash => exact .plain rfl (fun _ => hslash) hequation
  case h_7 hbackslash hsingle hdouble hline hreturn hmark =>
    refine .plain ?_ (fun heq => absurd heq hmark) hequation
    simp only [needsEscape, Bool.or_eq_false_iff, beq_eq_false_iff_ne]
    exact ⟨⟨⟨⟨hbackslash, hdouble⟩, hsingle⟩, hline⟩, hreturn⟩

theorem head?_escapeScript {s : List Char} (h : (escapeScript s).head? = some '/') : s.head? = some '/' := by
  cases s with
  | nil => cases h
  | cons c rest =>
      cases escapes c rest with
      | marked means written eq => rw [eq] at h; exact absurd (Option.some.inj h) (by decide)
      | parted mark slash eq => rw [eq] at h; exact h
      | plain plain open_ eq => rw [eq] at h; exact h

/-- The text is read back from the string literal. -/
theorem literalText?_escapeScript (s : List Char) : literalText? (escapeScript s) = some s := by
  induction s with
  | nil => rfl
  | cons c rest ih =>
      cases escapes c rest with
      | marked means written eq => rw [eq, literalText?_escape means, ih, Option.map_some]
      | parted mark slash eq =>
          subst mark
          obtain ⟨more, rfl⟩ := List.head?_eq_some_iff.1 slash
          -- the backslash makes an escape of the slash, which stands for itself either way
          have hslash : escapeScript ('/' :: more) = '/' :: escapeScript more := rfl
          rw [hslash, literalText?_plain rfl] at ih
          rw [eq, hslash, literalText?_plain rfl, literalText?_escape (c := '/') rfl, ih, Option.map_some]
      | plain plain open_ eq => rw [eq, literalText?_plain plain, ih, Option.map_some]

/-- No slash comes next to a `<`. -/
theorem isChain_escapeScript (s : List Char) :
    (escapeScript s).IsChain fun c d => c = '<' → d ≠ '/' := by
  induction s with
  | nil => exact .nil
  | cons c rest ih =>
      cases escapes c rest with
      | marked means written eq =>
          rw [eq]
          have hrest := ih.cons fun d _ hd => absurd hd written
          exact hrest.cons fun d _ hd => absurd hd (by decide)
      | parted mark slash eq =>
          rw [eq]
          have hrest := ih.cons (x := '\\') fun d _ hd => absurd hd (by decide)
          refine hrest.cons fun d hd _ => ?_
          rw [← Option.some.inj hd]
          decide
      | plain plain open_ eq =>
          rw [eq]
          refine ih.cons fun d hd hmark heq => open_ hmark (head?_escapeScript ?_)
          rw [← heq]
          exact hd

theorem not_closing_escapeScript (s : List Char) : ¬ "</".toList <:+: escapeScript s := by
  intro hinfix
  have hpair : ['<', '/'].IsChain fun c d => c = '<' → d ≠ '/' :=
    List.IsChain.infix (isChain_escapeScript s) hinfix
  exact List.isChain_pair.1 hpair rfl rfl

/-- The number of backslashes at the end of a text. -/
def backslashesAtEnd (s : List Char) : Nat := (s.reverse.takeWhile (· == '\\')).length

/-- Whether what comes next is escaped does not depend on text in front that leaves nothing escaped. -/
theorem backslashesAtEnd_append {front : List Char} (h : backslashesAtEnd front % 2 = 0) (s : List Char) :
    backslashesAtEnd (front ++ s) % 2 = backslashesAtEnd s % 2 := by
  unfold backslashesAtEnd at h ⊢
  rw [List.reverse_append, List.takeWhile_append]
  split
  next hall => rw [List.length_append, Nat.add_mod, h, hall, Nat.add_zero, Nat.mod_mod]
  next => rfl

/-- In a string literal, what needs an escape and is no backslash has one, and the escape stands for something. -/
theorem escaped_of_literalText? {literal s : List Char} (h : literalText? literal = some s)
    {before after : List Char} {c : Char} (hplace : literal = before ++ c :: after)
    (needs : needsEscape c = true) (hc : c ≠ '\\') :
    backslashesAtEnd before % 2 = 1 ∧ (unescaped? c).isSome = true := by
  fun_induction literalText? literal generalizing before s with
  | case1 => exact absurd hplace.symm (List.append_ne_nil_of_right_ne_nil _ (List.cons_ne_nil _ _))
  | case2 d rest ih =>
      obtain ⟨meaning, hmeaning, hrest⟩ := Option.bind_eq_some_iff.1 h
      obtain ⟨behind, hbehind, -⟩ := Option.bind_eq_some_iff.1 hrest
      rcases List.cons_eq_append_iff.1 hplace with ⟨rfl, hhead⟩ | ⟨front, rfl, hfront⟩
      · exact absurd (List.cons.inj hhead).1 hc
      rcases List.cons_eq_append_iff.1 hfront with ⟨rfl, hhead⟩ | ⟨inner, rfl, hinner⟩
      · obtain ⟨rfl, -⟩ := List.cons.inj hhead
        exact ⟨rfl, Option.isSome_of_mem hmeaning⟩
      · have heven : backslashesAtEnd ['\\', d] % 2 = 0 := by
          unfold backslashesAtEnd
          by_cases hd : d = '\\'
          · rw [hd]; rfl
          · simp [hd]
        obtain ⟨hodd, hsome⟩ := ih hbehind hinner
        exact ⟨(backslashesAtEnd_append heven inner).trans hodd, hsome⟩
  | case3 d rest hd hneeds => cases h
  | case4 d rest hd hneeds ih =>
      obtain ⟨behind, hbehind, -⟩ := Option.map_eq_some_iff.1 h
      rcases List.cons_eq_append_iff.1 hplace with ⟨rfl, hhead⟩ | ⟨inner, rfl, hinner⟩
      · rw [(List.cons.inj hhead).1] at needs
        exact absurd needs hneeds
      · have heven : backslashesAtEnd [d] % 2 = 0 := by
          unfold backslashesAtEnd
          have hslash : d ≠ '\\' := by
            rintro rfl
            exact hneeds rfl
          simp [hslash]
        obtain ⟨hodd, hsome⟩ := ih hbehind hinner
        exact ⟨(backslashesAtEnd_append heven inner).trans hodd, hsome⟩

/-- Lines do not end in a string literal. -/
theorem not_mem_of_literalText? {literal s : List Char} (h : literalText? literal = some s) {c : Char}
    (needs : needsEscape c = true) (hc : unescaped? c = none) : c ∉ literal := by
  intro hmem
  obtain ⟨before, after, hplace⟩ := List.append_of_mem hmem
  have hmark : c ≠ '\\' := by
    rintro rfl
    cases hc
  have hsome := (escaped_of_literalText? h hplace needs hmark).2
  rw [hc] at hsome
  cases hsome

end Script

/-- Values that are escaped for strings in scripts, and which are written as they are otherwise. -/
def forScripts : Encoding := { htmlEncode := false, stripTags := false, scriptEncode := true }

theorem toList_encodeOutput_forScripts (text : String) :
    (encodeOutput forScripts text).toList = escapeScript text.toList := by
  rw [encodeOutput, String.toList_ofList]
  rfl

end Gate

namespace Render

/-- The mark that ends a comment. -/
def commentEnd : List Char := "-->".toList

/-- A diagnostic has one `>`, which is its last character. -/
theorem diagnostic_eq_append (message : String) : ∃ front,
    (diagnostic message).toList = front ++ ['>'] ∧ '>' ∉ front := by
  refine ⟨diagnosticOpening ++ (Gate.escapeHtml message.toList ++ " --".toList), ?_, ?_⟩
  · rw [toList_diagnostic, List.append_assoc, List.append_assoc]
    rfl
  · rw [List.mem_append, List.mem_append, not_or, not_or]
    refine ⟨by decide, fun hmem => ?_, by decide⟩
    exact absurd (Gate.not_isDelimiter_escapeHtml '>' hmem) (by decide)

theorem commentEnd_suffix_diagnostic (message : String) : commentEnd <:+ (diagnostic message).toList := by
  refine ⟨diagnosticOpening ++ (Gate.escapeHtml message.toList ++ [' ']), ?_⟩
  rw [toList_diagnostic, List.append_assoc, List.append_assoc]
  rfl

/-- A diagnostic ends its comment at its end and nowhere before. -/
theorem eq_nil_of_diagnostic {message : String} {before after : List Char}
    (h : (diagnostic message).toList = before ++ commentEnd ++ after) : after = [] := by
  obtain ⟨front, hfront, hmem⟩ := diagnostic_eq_append message
  rcases List.eq_nil_or_concat after with rfl | ⟨behind, last, rfl⟩
  · rfl
  · have heq : front ++ ['>'] = (before ++ commentEnd ++ behind) ++ [last] := by
      rw [← hfront, h, List.concat_eq_append, ← List.append_assoc]
    obtain ⟨rfl, -⟩ := List.append_inj' heq rfl
    exact absurd (List.mem_append_left _ (List.mem_append_right _ (by decide))) hmem

/-- Escapes can be undone, and what is escaped ends nothing, whatever the text is. As markup it has no mark of
tags and no quote, and an ampersand only where an entity begins, from which it is read back; so the comment of a
diagnostic ends at its end and nowhere before. In a string of a script it has no end of a line, no closing tag,
and no quote but behind an odd number of backslashes, and is read back by the rules for such strings. -/
theorem escapes_undone (text : String) :
    (∀ c ∈ Gate.escapeHtml text.toList, c ≠ '<' ∧ c ≠ '>' ∧ c ≠ '"' ∧ c ≠ '\'') ∧
    (∀ before after, Gate.escapeHtml text.toList = before ++ '&' :: after →
      ∃ entry ∈ Gate.entities, entry.2 <+: '&' :: after) ∧
    Gate.unescapeHtml (Gate.escapeHtml text.toList) = text.toList ∧
    (commentEnd <:+ (diagnostic text).toList ∧
      ∀ before after, (diagnostic text).toList = before ++ commentEnd ++ after → after = []) ∧
    let literal := (Gate.encodeOutput Gate.forScripts text).toList
    '\n' ∉ literal ∧ '\r' ∉ literal ∧ ¬ "</".toList <:+: literal ∧
    (∀ before quote after, literal = before ++ quote :: after → quote = '"' ∨ quote = '\'' →
      Gate.backslashesAtEnd before % 2 = 1) ∧
    Gate.literalText? literal = some text.toList := by
  refine ⟨fun c hmem => ?_, fun before after => Gate.entity_of_ampersand, Gate.unescapeHtml_escapeHtml _,
    ⟨commentEnd_suffix_diagnostic text, fun before after => eq_nil_of_diagnostic⟩, ?_⟩
  · have hdelimiter := Gate.not_isDelimiter_escapeHtml c hmem
    simp only [Gate.isDelimiter, Bool.or_eq_false_iff, beq_eq_false_iff_ne] at hdelimiter
    exact ⟨hdelimiter.1.1.1, hdelimiter.1.1.2, hdelimiter.1.2, hdelimiter.2⟩
  · intro literal
    have hread : Gate.literalText? literal = some text.toList := by
      rw [show literal = _ from Gate.toList_encodeOutput_forScripts text]
      exact Gate.literalText?_escapeScript text.toList
    refine ⟨Gate.not_mem_of_literalText? hread rfl rfl, Gate.not_mem_of_literalText? hread rfl rfl, ?_, ?_, hread⟩
    · rw [show literal = _ from Gate.toList_encodeOutput_forScripts text]
      exact Gate.not_closing_escapeScript text.toList
    · rintro before quote after hplace (rfl | rfl)
      · exact (Gate.escaped_of_literalText? hread hplace rfl (by decide)).1
      · exact (Gate.escaped_of_literalText? hread hplace rfl (by decide)).1

/-- A text that tries to end the string and the script around it. -/
example : (Gate.encodeOutput Gate.forScripts "\\\"</script>").toList = "\\\\\\\"<\\/script>".toList := by decide

end Render

end Stencil
