import Stencil.Markup.Token
import Stencil.Proofs.Cutting
import Stencil.Proofs.Resolution.Scanning

/-!
How attributes are written. Each stands behind blanks, as a name alone or with a value that is quoted or bare,
and the styles may be mixed in one tag; the canonical style is a space and the value in double quotes. The
scanner finds the end of a tag with written attributes, whatever follows it, and reads the attributes as they
were.
-/

namespace Stencil.Markup

open Text

/-- Whether a value stands for itself between double quotes. -/
def isQuotable (value : String) : Bool := value.toList.all fun c => c != '"' && c != '\\'

/-- Whether a name can stand before the value of an attribute. -/
def isAttributeName (name : String) : Bool :=
  !name.toList.isEmpty && name.toList.all fun c => isNamePart c && c != '>'

/-- Whether an attribute can be written, with its value in double quotes. -/
def Attribute.isWritable (a : Attribute) : Bool := isAttributeName a.name && isQuotable a.value

/-- An attribute as it is written, behind a space. -/
def Attribute.written (a : Attribute) : List Char :=
  ' ' :: (a.name.toList ++ '=' :: '"' :: (a.value.toList ++ ['"']))

/-- What stands between the name of a tag and its closing mark. -/
def writtenInner (selfClosing : Bool) (attributes : List Attribute) : List Char :=
  attributes.flatMap Attribute.written ++ if selfClosing then ['/'] else []

/-- Blanks between the parts of a tag. -/
structure Blanks where
  chars : List Char
  blank : chars.all isAsciiBlank = true

/-- No blanks. -/
def Blanks.none : Blanks := ⟨[], rfl⟩

/-- A mark on both sides of a quoted value. -/
inductive QuoteMark where
  | double
  | single

def QuoteMark.char : QuoteMark → Char
  | .double => '"'
  | .single => '\''

/-- Whether a value stands for itself between two of these marks. -/
def QuoteMark.holds (mark : QuoteMark) (value : String) : Bool :=
  value.toList.all fun c => c != mark.char && c != '\\'

/-- Whether a value stands for itself without quotes. -/
def isBareValue (value : String) : Bool :=
  !value.toList.isEmpty && value.toList.getLast? != some '/' &&
    value.toList.all fun c => !isBlank c && c != '"' && c != '\'' && c != '>'

/-- What follows the name of an attribute: nothing, or an equals sign and a value, with blanks before and after
the sign. -/
inductive StyledValue where
  | missing
  | quoted (before after : Blanks) (mark : QuoteMark) (value : String) (held : mark.holds value = true)
  | bare (before after : Blanks) (value : String) (bare : isBareValue value = true)

def StyledValue.written : StyledValue → List Char
  | .missing => []
  | .quoted before after mark value _ =>
      before.chars ++ '=' :: (after.chars ++ mark.char :: (value.toList ++ [mark.char]))
  | .bare before after value _ => before.chars ++ '=' :: (after.chars ++ value.toList)

/-- The value that is meant. A missing one is empty. -/
def StyledValue.value : StyledValue → String
  | .missing => ""
  | .quoted _ _ _ value _ => value
  | .bare _ _ value _ => value

/-- An attribute in one of the styles, with the blanks before it. -/
structure StyledAttribute where
  gap : Blanks
  apart : gap.chars ≠ []
  name : String
  named : isAttributeName name = true
  value : StyledValue

namespace StyledAttribute

def written (a : StyledAttribute) : List Char := a.gap.chars ++ (a.name.toList ++ a.value.written)

/-- The attribute that is meant. -/
def meant (a : StyledAttribute) : Attribute := ⟨a.name, a.value.value⟩

end StyledAttribute

/-- What stands between the name of a tag and its closing mark, in any style. -/
def styledInner (selfClosing : Bool) (attributes : List StyledAttribute) (trailing : Blanks) : List Char :=
  attributes.flatMap StyledAttribute.written ++ (trailing.chars ++ if selfClosing then ['/'] else [])

theorem Blanks.isAsciiBlank_of_mem (blanks : Blanks) : ∀ c ∈ blanks.chars, isAsciiBlank c = true :=
  List.all_eq_true.1 blanks.blank

theorem QuoteMark.holds_iff {mark : QuoteMark} {value : String} :
    mark.holds value = true ↔ ∀ c ∈ value.toList, c ≠ '\\' ∧ c ≠ mark.char := by
  simp only [holds, List.all_eq_true, Bool.and_eq_true, bne_iff_ne, and_comm]

theorem isAttributeName_iff {name : String} :
    isAttributeName name = true ↔
      name.toList ≠ [] ∧ ∀ c ∈ name.toList, isNamePart c = true ∧ c ≠ '>' := by
  simp [isAttributeName, List.all_eq_true]

theorem isBareValue_iff {value : String} :
    isBareValue value = true ↔ value.toList ≠ [] ∧ value.toList.getLast? ≠ some '/' ∧
      ∀ c ∈ value.toList, isBlank c = false ∧ c ≠ '"' ∧ c ≠ '\'' ∧ c ≠ '>' := by
  simp [isBareValue, List.all_eq_true, and_assoc]

/-- A character of an attribute's name is none of the marks that the scanner minds. -/
theorem ne_of_isNamePart {c : Char} (h : isNamePart c = true) :
    isSeparator c = false ∧ c ≠ '/' ∧ c ≠ '=' ∧ c ≠ '"' ∧ c ≠ '\'' := by
  simp only [isNamePart, Bool.not_eq_true', Bool.or_eq_false_iff, beq_eq_false_iff_ne] at h
  obtain ⟨⟨⟨hseparator, hequals⟩, hdouble⟩, hsingle⟩ := h
  refine ⟨hseparator, ?_, hequals, hdouble, hsingle⟩
  rintro rfl
  cases hseparator

theorem isBlank_of_isAsciiBlank {c : Char} (h : isAsciiBlank c = true) : isBlank c = true := by
  simp only [isAsciiBlank, Bool.or_eq_true, beq_iff_eq] at h
  obtain ((((rfl | rfl) | rfl) | rfl) | rfl) := h <;> decide

theorem isAsciiBlank_of_not_isBlank {c : Char} (h : isBlank c = false) : isAsciiBlank c = false :=
  Bool.eq_false_iff.2 fun hblank => Bool.eq_false_iff.1 h (isBlank_of_isAsciiBlank hblank)

namespace TagScan

/-- Outside quotes, with a slash or something else as the last character that is no blank. -/
def outside (slash : Bool) : TagScan := ⟨none, false, slash⟩

/-- A scan that goes through a text without an end of the tag, and what it has seen then. -/
def Leads (scan : TagScan) (s : List Char) (next : TagScan) : Prop :=
  ∀ passed rest, tagBodyFrom? scan passed (s ++ rest) = tagBodyFrom? next (s.reverse ++ passed) rest

variable {scan middle next : TagScan} {s t : List Char} {slash : Bool}

theorem leads_nil (scan : TagScan) : scan.Leads [] scan := fun _ _ => rfl

theorem Leads.append (h : scan.Leads s middle) (h' : middle.Leads t next) : scan.Leads (s ++ t) next := by
  intro passed rest
  rw [List.append_assoc, h, h', List.reverse_append, List.append_assoc]

theorem Leads.cons {c : Char} (h : ¬ (c = '>' ∧ scan.quote = none)) (h' : (scan.step c).Leads s next) :
    scan.Leads (c :: s) next := by
  intro passed rest
  rw [List.cons_append, tagBodyFrom?, if_neg h, h', List.reverse_cons, List.append_assoc,
    List.singleton_append]

theorem leads_blanks (blanks : Blanks) (slash : Bool) :
    (outside slash).Leads blanks.chars (outside slash) := by
  have hs := blanks.isAsciiBlank_of_mem
  generalize blanks.chars = s at hs
  induction s with
  | nil => exact leads_nil _
  | cons c rest ih =>
      obtain ⟨hc, hrest⟩ := List.forall_mem_cons.1 hs
      have hstep : (outside slash).step c = outside slash := by
        simp only [isAsciiBlank, Bool.or_eq_true, beq_iff_eq] at hc
        obtain ((((rfl | rfl) | rfl) | rfl) | rfl) := hc <;> rfl
      refine Leads.cons (fun h => absurd hc (h.1 ▸ by decide)) ?_
      rw [hstep]
      exact ih hrest

/-- A word without quotes and slash at its end, such as a name or a bare value. -/
theorem leads_word (hne : s ≠ []) (hlast : s.getLast? ≠ some '/')
    (h : ∀ c ∈ s, isAsciiBlank c = false ∧ c ≠ '"' ∧ c ≠ '\'' ∧ c ≠ '>') (slash : Bool) :
    (outside slash).Leads s (outside false) := by
  induction s generalizing slash with
  | nil => exact absurd rfl hne
  | cons c rest ih =>
      obtain ⟨⟨hblank, hdouble, hsingle, hend⟩, hrest⟩ := List.forall_mem_cons.1 h
      have hstep : (outside slash).step c = outside (c == '/') := by
        simp [step, outside, hblank, hdouble, hsingle]
      refine Leads.cons (fun hc => hend hc.1) ?_
      rw [hstep]
      cases rest with
      | nil =>
          have hc : (c == '/') = false := beq_false_of_ne fun hc => hlast (congrArg some hc)
          rw [hc]
          exact leads_nil _
      | cons d others => exact ih (List.cons_ne_nil _ _) (by rwa [List.getLast?_cons_cons] at hlast) hrest _

theorem leads_quoted (mark : QuoteMark) (h : ∀ c ∈ s, c ≠ '\\' ∧ c ≠ mark.char) (slash : Bool) :
    (outside slash).Leads (mark.char :: (s ++ [mark.char])) (outside false) := by
  have hinside (slash : Bool) : (TagScan.mk (some mark.char) false slash).Leads (s ++ [mark.char])
      (outside false) := by
    induction s generalizing slash with
    | nil =>
        refine Leads.cons (fun hc => Option.some_ne_none _ hc.2) ?_
        cases mark <;> exact leads_nil _
    | cons c rest ih =>
        obtain ⟨⟨hbackslash, hmark⟩, hrest⟩ := List.forall_mem_cons.1 h
        refine Leads.cons (fun hc => Option.some_ne_none _ hc.2) ?_
        have hstep : (TagScan.mk (some mark.char) false slash).step c =
            ⟨some mark.char, false, if isAsciiBlank c then slash else c == '/'⟩ := by
          simp [step, hbackslash, hmark]
        rw [hstep]
        exact ih hrest _
  refine Leads.cons (fun hc => absurd hc.1 (by cases mark <;> decide)) ?_
  have hopen : (outside slash).step mark.char = ⟨some mark.char, false, false⟩ := by
    cases mark <;> rfl
  rw [hopen]
  exact hinside false

theorem leads_equals {s : List Char} (h : (outside false).Leads s next) (slash : Bool) :
    (outside slash).Leads ('=' :: s) next :=
  Leads.cons (fun hc => absurd hc.1 (by decide)) h

/-- The end of a tag is none inside an attribute, and no slash stands before it there. -/
theorem leads_attribute (a : StyledAttribute) (slash : Bool) :
    (outside slash).Leads a.written (outside false) := by
  obtain ⟨gap, -, name, named, value⟩ := a
  obtain ⟨hname, hparts⟩ := isAttributeName_iff.1 named
  have hword : (outside slash).Leads name.toList (outside false) := by
    refine leads_word hname (fun hlast => ?_) (fun c hmem => ?_) slash
    · exact (ne_of_isNamePart (hparts _ (List.mem_of_getLast? hlast)).1).2.1 rfl
    · obtain ⟨hseparator, -, -, hdouble, hsingle⟩ := ne_of_isNamePart (hparts c hmem).1
      exact ⟨(Bool.or_eq_false_iff.1 hseparator).1, hdouble, hsingle, (hparts c hmem).2⟩
  refine (leads_blanks gap slash).append (hword.append ?_)
  cases value with
  | missing => exact leads_nil _
  | quoted before after mark value held =>
      have hvalue := leads_quoted mark (QuoteMark.holds_iff.1 held) false
      exact (leads_blanks before false).append
        (leads_equals ((leads_blanks after false).append hvalue) false)
  | bare before after value bare =>
      obtain ⟨hne, hlast, hchars⟩ := isBareValue_iff.1 bare
      have hvalue := leads_word hne hlast (fun c hmem =>
        ⟨isAsciiBlank_of_not_isBlank (hchars c hmem).1, (hchars c hmem).2⟩) false
      exact (leads_blanks before false).append
        (leads_equals ((leads_blanks after false).append hvalue) false)

theorem leads_styledInner (selfClosing : Bool) (attributes : List StyledAttribute) (trailing : Blanks) :
    (outside false).Leads (styledInner selfClosing attributes trailing) (outside selfClosing) := by
  have hattributes : (outside false).Leads (attributes.flatMap StyledAttribute.written) (outside false) := by
    induction attributes with
    | nil => exact leads_nil _
    | cons a others ih => exact (leads_attribute a false).append ih
  refine hattributes.append ((leads_blanks trailing false).append ?_)
  cases selfClosing with
  | true => exact Leads.cons (fun hc => absurd hc.1 (by decide)) (leads_nil _)
  | false => exact leads_nil _

end TagScan

variable {selfClosing : Bool} {attributes : List StyledAttribute} {trailing : Blanks}

/-- A tag with attributes in any style ends where it is meant to end. -/
theorem tagBody?_styled (selfClosing : Bool) (attributes : List StyledAttribute) (trailing : Blanks)
    (after : List Char) :
    tagBody? (styledInner selfClosing attributes trailing ++ '>' :: after) =
      some ⟨styledInner selfClosing attributes trailing, selfClosing, after⟩ := by
  have hend : tagBodyFrom? (.outside selfClosing)
      ((styledInner selfClosing attributes trailing).reverse ++ []) ('>' :: after) =
        some ⟨styledInner selfClosing attributes trailing, selfClosing, after⟩ := by
    rw [tagBodyFrom?, if_pos ⟨rfl, rfl⟩, List.append_nil, List.reverse_reverse]
    rfl
  exact (TagScan.leads_styledInner selfClosing attributes trailing [] _).trans hend

/-- What can follow an attribute: a blank, the end of the list, or the slash that closes the tag. -/
def Follows (rest : List Char) : Prop := rest = ['/'] ∨ ∀ c ∈ rest.head?, isAsciiBlank c = true

theorem follows_styledInner (selfClosing : Bool) (attributes : List StyledAttribute) (trailing : Blanks) :
    Follows (styledInner selfClosing attributes trailing) := by
  have hblank {blanks : Blanks} {rest : List Char} (hne : blanks.chars ≠ []) :
      Follows (blanks.chars ++ rest) := by
    have hall := blanks.isAsciiBlank_of_mem
    cases hchars : blanks.chars with
    | nil => exact absurd hchars hne
    | cons c more =>
        rw [hchars] at hall
        refine .inr ?_
        rintro c ⟨⟩
        exact hall c (List.mem_cons_self ..)
  cases attributes with
  | cons a others =>
      have hcons : styledInner selfClosing (a :: others) trailing =
          a.gap.chars ++ (a.name.toList ++ a.value.written ++ styledInner selfClosing others trailing) := by
        simp [styledInner, StyledAttribute.written]
      rw [hcons]
      exact hblank a.apart
  | nil =>
      by_cases htrailing : trailing.chars = []
      · rw [styledInner, htrailing]
        cases selfClosing with
        | true => exact .inl rfl
        | false => exact .inr fun c hc => nomatch hc
      · exact hblank htrailing

theorem Follows.head {rest : List Char} (h : Follows rest) : ∀ c ∈ rest.head?, isSeparator c = true := by
  rcases h with rfl | h
  · rintro c ⟨⟩
    rfl
  · exact fun c hc => Bool.or_eq_true_iff.2 (.inl (h c hc))

theorem attributesFrom_separator {c : Char} (h : isSeparator c = true) (pending : Option (List Char))
    (awaiting : Bool) (rest : List Char) :
    attributesFrom pending awaiting (c :: rest) = attributesFrom pending awaiting rest := by
  rw [attributesFrom.eq_def]
  exact if_pos h

theorem attributesFrom_separators {gap : List Char} (h : ∀ c ∈ gap, isSeparator c = true)
    (pending : Option (List Char)) (awaiting : Bool) (rest : List Char) :
    attributesFrom pending awaiting (gap ++ rest) = attributesFrom pending awaiting rest := by
  induction gap with
  | nil => rfl
  | cons c more ih =>
      obtain ⟨hc, hmore⟩ := List.forall_mem_cons.1 h
      rw [List.cons_append, attributesFrom_separator hc, ih hmore]

theorem Blanks.separators (blanks : Blanks) : ∀ c ∈ blanks.chars, isSeparator c = true :=
  fun c hmem => Bool.or_eq_true_iff.2 (.inl (blanks.isAsciiBlank_of_mem c hmem))

theorem attributesFrom_name (pending : Option (List Char)) {name : String} (h : isAttributeName name = true)
    {rest : List Char} (hrest : ∀ c ∈ rest.head?, isNamePart c = false) :
    attributesFrom pending false (name.toList ++ rest) =
      (pending.map bareAttribute).toList ++ attributesFrom (some name.toList) false rest := by
  obtain ⟨hne, hparts⟩ := isAttributeName_iff.1 h
  cases hname : name.toList with
  | nil => exact absurd hname hne
  | cons c others =>
      rw [hname] at hparts
      obtain ⟨hc, hothers⟩ := List.forall_mem_cons.1 hparts
      obtain ⟨hseparator, -, hequals, hdouble, hsingle⟩ := ne_of_isNamePart hc.1
      obtain ⟨htake, hdrop⟩ := span_append (fun d hd => (hothers d hd).1) hrest
      rw [List.cons_append, attributesFrom.eq_def]
      dsimp only
      rw [if_neg (Bool.not_eq_true _ ▸ hseparator), if_neg hequals,
        if_neg fun hquote => hquote.elim hdouble hsingle, htake, hdrop]

theorem attributesFrom_quoted (name : List Char) (after : Blanks) (mark : QuoteMark) {value : List Char}
    (h : ∀ c ∈ value, c ≠ '\\' ∧ c ≠ mark.char) (rest : List Char) :
    attributesFrom (some name) false
        ('=' :: (after.chars ++ mark.char :: (value ++ mark.char :: rest))) =
      ⟨String.ofList name, String.ofList value⟩ :: attributesFrom none false rest := by
  have hmark : mark.char = '"' ∨ mark.char = '\'' := by
    cases mark with
    | double => exact .inl rfl
    | single => exact .inr rfl
  have hstart : (trimStart (after.chars ++ mark.char :: (value ++ mark.char :: rest))).head? =
      some mark.char := by
    rw [trimStart_append fun c hc => isBlank_of_isAsciiBlank (after.isAsciiBlank_of_mem c hc),
      trimStart_cons (by cases mark <;> decide)]
    rfl
  have hclose : quotedText mark.char [] (value ++ mark.char :: rest) = .ok (value, rest) :=
    quotedText_plain h (by cases mark <;> decide) [] rest
  have hplain : quotedValue mark.char value = value := by
    have hnone : value.contains '\\' = false := by
      rw [← Bool.not_eq_true, List.contains_iff_mem]
      exact fun hmem => (h _ hmem).1 rfl
    rw [quotedValue, hnone]
    rfl
  rw [attributesFrom, if_neg (by decide), if_pos rfl]
  dsimp only
  rw [hstart, if_pos (hmark.imp (congrArg some) (congrArg some)),
    attributesFrom_separators after.separators, attributesFrom,
    if_neg (by cases mark <;> decide), if_neg (by cases mark <;> decide), if_pos hmark]
  split
  next hfail => cases hclose.symm.trans hfail
  next text after hread =>
    cases hclose.symm.trans hread
    dsimp only
    rw [hplain]

theorem bareValue_of_getLast? {text : List Char} (h : text.getLast? ≠ some '/') : bareValue text = text := by
  unfold bareValue
  split
  next before heq =>
    refine absurd ?_ h
    rw [← List.head?_reverse, heq]
    rfl
  next => rfl

theorem attributesFrom_bare (name : List Char) (after : Blanks) {value : String}
    (h : isBareValue value = true) {rest : List Char} (hrest : Follows rest) :
    attributesFrom (some name) false ('=' :: (after.chars ++ (value.toList ++ rest))) =
      ⟨String.ofList name, value⟩ :: attributesFrom none false rest := by
  obtain ⟨hne, hlast, hchars⟩ := isBareValue_iff.1 h
  have hstart : trimStart (after.chars ++ (value.toList ++ rest)) = value.toList ++ rest ∧
      ¬ ((value.toList ++ rest).head? = some '"' ∨ (value.toList ++ rest).head? = some '\'') := by
    rw [trimStart_append fun c hc => isBlank_of_isAsciiBlank (after.isAsciiBlank_of_mem c hc)]
    cases hvalue : value.toList with
    | nil => exact absurd hvalue hne
    | cons c others =>
        obtain ⟨hblank, hdouble, hsingle, -⟩ := hchars c (hvalue ▸ List.mem_cons_self ..)
        exact ⟨trimStart_cons hblank _, fun hhead => hhead.elim (fun hc => hdouble (Option.some.inj hc))
          fun hc => hsingle (Option.some.inj hc)⟩
  have hrun : ∀ c ∈ value.toList, (!isAsciiBlank c) = true := by
    intro c hmem
    rw [isAsciiBlank_of_not_isBlank (hchars c hmem).1]
    rfl
  rw [attributesFrom, if_neg (by decide), if_pos rfl]
  dsimp only
  rw [hstart.1, if_neg hstart.2]
  rcases hrest with rfl | hblank
  -- the slash that closes the tag stands directly behind the value, which takes it and loses it again
  · have hall : ∀ c ∈ value.toList ++ ['/'], (!isAsciiBlank c) = true :=
      List.forall_mem_append.2 ⟨hrun, List.forall_mem_singleton.2 rfl⟩
    have hslash : bareValue (value.toList ++ ['/']) = value.toList := by
      simp [bareValue]
    rw [List.takeWhile_eq_self_iff.2 hall, List.dropWhile_eq_nil_iff.2 hall, hslash, String.ofList_toList,
      attributesFrom_separator rfl]
  · obtain ⟨htake, hdrop⟩ := span_append (p := (!isAsciiBlank ·)) hrun
      fun c hc => by rw [hblank c hc]; rfl
    rw [htake, hdrop, bareValue_of_getLast? hlast, String.ofList_toList]

/-- The attributes of a tag are those that were written, behind the name that waited for a value. -/
theorem attributesFrom_styled (selfClosing : Bool) (attributes : List StyledAttribute) (trailing : Blanks)
    (pending : Option (List Char)) :
    attributesFrom pending false (styledInner selfClosing attributes trailing) =
      (pending.map bareAttribute).toList ++ attributes.map StyledAttribute.meant := by
  induction attributes generalizing pending with
  | nil =>
      have hend : ∀ c ∈ if selfClosing then ['/'] else [], isSeparator c = true := by
        cases selfClosing with
        | true => exact List.forall_mem_singleton.2 rfl
        | false => exact fun c hmem => absurd hmem List.not_mem_nil
      rw [styledInner, List.flatMap_nil, List.nil_append, attributesFrom_separators trailing.separators,
        ← List.append_nil (if selfClosing then ['/'] else []), attributesFrom_separators hend,
        attributesFrom.eq_def, List.map_nil, List.append_nil]
  | cons a others ih =>
      obtain ⟨gap, apart, name, named, value⟩ := a
      have hfollows := follows_styledInner selfClosing others trailing
      have hnamePart {c : Char} (h : isSeparator c = true) : isNamePart c = false := by
        simp [isNamePart, h]
      have hsplit : styledInner selfClosing (⟨gap, apart, name, named, value⟩ :: others) trailing =
          gap.chars ++ (name.toList ++ (value.written ++ styledInner selfClosing others trailing)) := by
        simp [styledInner, StyledAttribute.written]
      have hstop {before : Blanks} {rest : List Char} :
          ∀ c ∈ (before.chars ++ '=' :: rest).head?, isNamePart c = false := by
        have hall := before.separators
        cases hchars : before.chars with
        | nil =>
            rintro c ⟨⟩
            rfl
        | cons c more =>
            rw [hchars] at hall
            rintro c ⟨⟩
            exact hnamePart (hall c (List.mem_cons_self ..))
      rw [hsplit, attributesFrom_separators gap.separators]
      cases value with
      | missing =>
          rw [StyledValue.written, List.nil_append,
            attributesFrom_name pending named fun c hc => hnamePart (hfollows.head c hc), ih,
            Option.map_some, Option.toList_some, bareAttribute, String.ofList_toList]
          rfl
      | quoted before after mark value held =>
          simp only [StyledValue.written, List.append_assoc, List.cons_append, List.nil_append]
          rw [attributesFrom_name pending named hstop, attributesFrom_separators before.separators,
            attributesFrom_quoted _ _ _ (QuoteMark.holds_iff.1 held), ih, String.ofList_toList, String.ofList_toList]
          rfl
      | bare before after value bare =>
          simp only [StyledValue.written, List.append_assoc, List.cons_append]
          rw [attributesFrom_name pending named hstop, attributesFrom_separators before.separators,
            attributesFrom_bare _ _ bare hfollows, ih, String.ofList_toList]
          rfl

section Canonical

variable {attributes : List Attribute}

/-- The canonical style is one of the styles. -/
theorem exists_styled (h : ∀ a ∈ attributes, a.isWritable = true) :
    ∃ styled : List StyledAttribute, styled.map StyledAttribute.meant = attributes ∧
      ∀ selfClosing, styledInner selfClosing styled .none = writtenInner selfClosing attributes := by
  induction attributes with
  | nil => exact ⟨[], rfl, fun _ => rfl⟩
  | cons a others ih =>
      obtain ⟨ha, hothers⟩ := List.forall_mem_cons.1 h
      obtain ⟨styled, hstyled, hinner⟩ := ih hothers
      obtain ⟨named, hvalue⟩ := Bool.and_eq_true_iff.1 ha
      refine ⟨⟨⟨[' '], rfl⟩, List.cons_ne_nil _ _, a.name, named,
        .quoted .none .none .double a.value hvalue⟩ :: styled, ?_, fun selfClosing => ?_⟩
      · rw [List.map_cons, hstyled]
        rfl
      · rw [styledInner, List.flatMap_cons, List.append_assoc]
        change _ ++ styledInner selfClosing styled .none = _
        rw [hinner]
        simp [writtenInner, Attribute.written, StyledAttribute.written, StyledValue.written, Blanks.none,
          QuoteMark.char]

/-- A written tag ends where it is meant to end. -/
theorem tagBody?_written (h : ∀ a ∈ attributes, a.isWritable = true) (selfClosing : Bool)
    (after : List Char) : tagBody? (writtenInner selfClosing attributes ++ '>' :: after) =
      some ⟨writtenInner selfClosing attributes, selfClosing, after⟩ := by
  obtain ⟨styled, -, hinner⟩ := exists_styled h
  rw [← hinner]
  exact tagBody?_styled selfClosing styled .none after

theorem attributesOf_written (h : ∀ a ∈ attributes, a.isWritable = true) (selfClosing : Bool) :
    attributesOf (writtenInner selfClosing attributes) = attributes := by
  obtain ⟨styled, hstyled, hinner⟩ := exists_styled h
  rw [attributesOf, ← hinner, attributesFrom_styled, hstyled]
  rfl

theorem head_writtenInner (h : ∀ a ∈ attributes, a.isWritable = true) (selfClosing : Bool) :
    ∀ c ∈ (writtenInner selfClosing attributes).head?, isSeparator c = true := by
  obtain ⟨styled, -, hinner⟩ := exists_styled h
  rw [← hinner]
  exact (follows_styledInner selfClosing styled .none).head

end Canonical

/-- Whether a character ends the name of a tag. -/
def EndsName (c : Char) : Prop :=
  isAsciiAlphanumeric c = false ∧ (c == '>' || c == '/' || isAsciiBlank c) = true

/-- Whether a word spells a tag. Letters may be of either case, but the first one is a capital. -/
def Tag.isSpelledBy (tag : Tag) (word : List Char) : Bool :=
  (word.head?.any fun c => 'A' ≤ c ∧ c ≤ 'Z') && word.all isAsciiAlphanumeric && Tag.ofName? word == some tag

theorem Tag.isSpelledBy_name (tag : Tag) : tag.isSpelledBy tag.name.toList = true := by
  cases tag <;> decide

/-- The name of a tag is read up to what follows it, and known. -/
theorem name_read {tag : Tag} {word : List Char} (h : tag.isSpelledBy word = true) {next : Char}
    (hnext : EndsName next) (rest : List Char) :
    (word ++ next :: rest).takeWhile isAsciiAlphanumeric = word ∧
      (word ++ next :: rest).dropWhile isAsciiAlphanumeric = next :: rest ∧
      recognize? word (some next) = some tag := by
  simp only [Tag.isSpelledBy, Bool.and_eq_true, List.all_eq_true, beq_iff_eq] at h
  obtain ⟨⟨hcapital, hletters⟩, hfound⟩ := h
  have hstop : ∀ c ∈ (next :: rest).head?, isAsciiAlphanumeric c = false := by
    rintro c ⟨⟩
    exact hnext.1
  obtain ⟨htake, hdrop⟩ := span_append hletters hstop
  refine ⟨htake, hdrop, ?_⟩
  rw [recognize?, hcapital, Option.any_some, hnext.2, Bool.and_self, if_pos rfl, hfound]

/-- What follows the name of a tag ends it. -/
theorem exists_next {inner : List Char} (h : ∀ c ∈ inner.head?, isSeparator c = true) (after : List Char) :
    ∃ next rest, inner ++ '>' :: after = next :: rest ∧ EndsName next := by
  cases inner with
  | nil => exact ⟨'>', after, rfl, by decide, by decide⟩
  | cons c more =>
      have hc : isSeparator c = true := h c rfl
      refine ⟨c, _, rfl, ?_⟩
      simp only [isSeparator, isAsciiBlank, Bool.or_eq_true, beq_iff_eq] at hc
      obtain ((((((rfl | rfl) | rfl) | rfl) | rfl) | rfl)) := hc <;> exact ⟨by decide, by decide⟩

end Stencil.Markup
