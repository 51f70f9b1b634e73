import Stencil.Proofs.Acceptance
import Stencil.Proofs.Matching

/-!
Event handlers in the source of a template. The gate looks for a handler behind a `<` with no `>` in between, and a
tag ends at the first `>` outside quotes. So a handler in a tag is seen unless a quoted value before it holds a `>`
with no `<` behind that, and nothing but this hides it. A template with no script is rejected for a handler exactly
if one is seen, be it in a tag or not.
-/

namespace Stencil.Gate

open Text Markup

/-- Whether an attribute's name is that of a handler: "on" and letters, in any case. -/
def isEventName : List Char → Bool
  | o :: n :: letter :: letters => sameFold 'o' o && sameFold 'n' n && (letter :: letters).all isFoldedLetter
  | _ => false

/-- An event handler up to the mark before its value. -/
structure Handler where
  blank : Char
  name : List Char
  blanks : List Char
  separated : isBlank blank = true
  named : isEventName name = true
  spaced : ∀ c ∈ blanks, isBlank c = true

def Handler.text (handler : Handler) : List Char := handler.blank :: (handler.name ++ handler.blanks ++ ['='])

/-- Whether a `<` stands in a text with no `>` behind it. -/
def Opens (s : List Char) : Prop := ∃ before run, s = before ++ '<' :: run ∧ '>' ∉ run

theorem isEventName_iff {name : List Char} :
    isEventName name = true ↔ ∃ o n first letters, name = o :: n :: first :: letters ∧ sameFold 'o' o = true ∧
      sameFold 'n' n = true ∧ isFoldedLetter first = true ∧ ∀ c ∈ letters, isFoldedLetter c = true := by
  constructor
  · intro h
    unfold isEventName at h
    split at h
    next o n first letters =>
      simp only [Bool.and_eq_true, List.all_cons, List.all_eq_true] at h
      exact ⟨o, n, first, letters, rfl, h.1.1, h.1.2, h.2.1, h.2.2⟩
    next => cases h
  · rintro ⟨o, n, first, letters, rfl, ho, hn, hfirst, hletters⟩
    simp only [isEventName, Bool.and_eq_true, List.all_cons, List.all_eq_true]
    exact ⟨⟨ho, hn⟩, hfirst, hletters⟩

/-- The search for handlers has a match where a handler stands behind a `<` with no `>` in between. -/
theorem matches_handler_iff {before : Option Char} {s : List Char} {way : Way} (hway : way ∈ handlerPattern) :
    (∃ after, Way.Matches before way s after) ↔
      ∃ run, ∃ handler : Handler, ∃ after, s = '<' :: (run ++ (handler.text ++ after)) ∧ '>' ∉ run := by
  obtain rfl := List.mem_singleton.1 hway
  have hword : Way.word "on" = [.one (sameFold 'o'), .one (sameFold 'n')] := rfl
  simp only [hword, Way.oneOrMore, List.cons_append, List.nil_append, Way.matches_one_iff,
    Way.matches_run_iff, Way.matches_nil_iff]
  constructor
  · rintro ⟨after, c, _, rfl, hc, run, _, rfl, hrun, blank, _, rfl, hblank, o, _, rfl, ho, n, _, rfl, hn,
      first, _, rfl, hfirst, letters, _, rfl, hletters, blanks, _, rfl, hblanks, mark, rest, rfl, hmark, rfl⟩
    have hnamed := isEventName_iff.2 ⟨o, n, first, letters, rfl, ho, hn, hfirst, hletters⟩
    refine ⟨run, ⟨blank, o :: n :: first :: letters, blanks, hblank, hnamed, hblanks⟩, rest, ?_, ?_⟩
    · obtain rfl := eq_of_beq hc
      obtain rfl := eq_of_beq hmark
      simp [Handler.text]
    · intro hclose
      simpa using hrun '>' hclose
  · rintro ⟨run, ⟨blank, name, blanks, hblank, hnamed, hblanks⟩, after, rfl, hrun⟩
    obtain ⟨o, n, first, letters, rfl, ho, hn, hfirst, hletters⟩ := isEventName_iff.1 hnamed
    have hopen : ∀ c ∈ run, (c != '>') = true := by
      intro c hc
      exact bne_iff_ne.2 fun heq => hrun (heq ▸ hc)
    refine ⟨after, '<', _, rfl, rfl, run, _, rfl, hopen, blank, _, rfl, hblank, o, _, rfl, ho, n, _, rfl, hn,
      first, _, rfl, hfirst, letters, blanks ++ '=' :: after, ?_, hletters, blanks, _, rfl, hblanks,
      '=', _, rfl, rfl, rfl⟩
    simp

/-- The search finds a handler exactly if one stands anywhere behind an open angle bracket. -/
theorem find?_handler_iff {s : List Char} :
    (handlerPattern.find? s).isSome = true ↔
      ∃ front, ∃ handler : Handler, ∃ behind, s = front ++ (handler.text ++ behind) ∧ Opens front := by
  constructor
  · intro h
    obtain ⟨front, behind, way, after, rfl, hway, hmatches⟩ := Pattern.find?_sound h
    obtain ⟨run, handler, rest, rfl, hrun⟩ := (matches_handler_iff hway).1 ⟨after, hmatches⟩
    refine ⟨front ++ '<' :: run, handler, rest, ?_, front, run, rfl, hrun⟩
    simp
  · rintro ⟨front, handler, behind, rfl, before, run, rfl, hrun⟩
    by_contra hnone
    rw [Option.not_isSome_iff_eq_none] at hnone
    have hway := List.mem_singleton_self (handlerPattern.head (List.cons_ne_nil _ _))
    have hsplit : before ++ '<' :: run ++ (handler.text ++ behind) =
        before ++ '<' :: (run ++ (handler.text ++ behind)) := by simp
    obtain ⟨after, hmatches⟩ := (@matches_handler_iff before.getLast? _ _ hway).2
      ⟨run, handler, behind, rfl, hrun⟩
    exact Pattern.find?_complete hnone hsplit hway after hmatches

/-- A tag in a text, delimited as it is scanned: its end is the first `>` outside quotes behind its name. -/
structure TagIn (source : List Char) where
  before : List Char
  closing : Bool
  name : List Char
  ending : List Char
  body : TagBody
  named : name ≠ [] ∧ ∀ c ∈ name, isAsciiAlphanumeric c = true
  ended : tagBody? ending = some body
  written : source = before ++ '<' :: ((if closing then ['/'] else []) ++ name ++ ending)

/-- A handler in the body of a tag, outside its quoted values. -/
structure HandlerIn (body : TagBody) where
  front : List Char
  handler : Handler
  behind : List Char
  written : body.inner = front ++ (handler.text ++ behind)
  outside : (front.foldl TagScan.step {}).quote = none

/-- A handler in a tag is seen if the part of the tag before it has no `>`, or a `<` behind the last one. -/
theorem exists_seen {source : List Char} (tag : TagIn source) (place : HandlerIn tag.body)
    (h : '>' ∉ place.front ∨ Opens place.front) :
    ∃ front, ∃ handler : Handler, ∃ behind, source = front ++ (handler.text ++ behind) ∧ Opens front := by
  have hending : tag.ending = tag.body.inner ++ '>' :: tag.body.rest := tagBody?_append tag.ended
  have hname : '>' ∉ (if tag.closing then ['/'] else []) ++ tag.name := by
    intro hmem
    rcases List.mem_append.1 hmem with hslash | hname
    · split at hslash
      · exact absurd hslash (by decide)
      · exact absurd hslash List.not_mem_nil
    · exact absurd (tag.named.2 '>' hname) (by decide)
  refine ⟨tag.before ++ '<' :: ((if tag.closing then ['/'] else []) ++ tag.name ++ place.front),
    place.handler, place.behind ++ '>' :: tag.body.rest, ?_, ?_⟩
  · refine tag.written.trans ?_
    rw [hending, place.written]
    simp
  · rcases h with hplain | ⟨before, run, hfront, hrun⟩
    · refine ⟨tag.before, _, rfl, fun hmem => ?_⟩
      rcases List.mem_append.1 hmem with hin | hin
      · exact hname hin
      · exact hplain hin
    · refine ⟨tag.before ++ '<' :: ((if tag.closing then ['/'] else []) ++ tag.name ++ before), run, ?_, hrun⟩
      rw [hfront]
      simp

theorem rejected_iff {security : Security} {source : String} :
    (∃ fault, checkTemplate security source = .error fault) ↔ checkTemplate security source ≠ .ok () := by
  cases checkTemplate security source with
  | error fault => simp
  | ok value => simp

/-- Where inline scripts are not allowed a template is rejected if a tag in it, even one in a comment, has a
handler that no `>` in a quoted value before it hides. And a template that keeps the limits and has no script is
rejected exactly if a handler stands behind a `<` with no `>` in between. -/
theorem handlers_rejected {security : Security} (source : String)
    (forbidden : security.allowInlineScripts = false) :
    (∀ (tag : TagIn source.toList) (place : HandlerIn tag.body), '>' ∉ place.front ∨ Opens place.front →
      ∃ fault, checkTemplate security source = .error fault) ∧
    (source.utf8ByteSize ≤ security.limits.templateSize →
      countOpenings source.toList ≤ security.limits.interpolations →
      nestingDepth source.toList ≤ security.limits.nestingDepth →
      scriptPattern.find? source.toList = none →
      ((∃ fault, checkTemplate security source = .error fault) ↔
        ∃ front, ∃ handler : Handler, ∃ behind,
          source.toList = front ++ (handler.text ++ behind) ∧ Opens front)) := by
  constructor
  · intro tag place hseen
    apply rejected_iff.2
    intro accepted
    have hfound := find?_handler_iff.2 (exists_seen tag place hseen)
    rcases (accepted_iff.1 accepted).2.2.2 with hallowed | hnone
    · rw [forbidden] at hallowed
      cases hallowed
    · rw [inlineScript?, Option.or_eq_none_iff] at hnone
      rw [hnone.2] at hfound
      cases hfound
  · intro hsize hopenings hdepth hscript
    rw [rejected_iff, Ne, accepted_iff, ← find?_handler_iff, inlineScript?, hscript, Option.none_or,
      forbidden]
    cases handlerPattern.find? source.toList with
    | none => simp [hsize, hopenings, hdepth]
    | some found => simp

/-- The quoted value before the handler holds no angle bracket. -/
def plainImage : TagIn "<img alt='a' OnError = x>".toList where
  before := []
  closing := false
  name := "img".toList
  ending := " alt='a' OnError = x>".toList
  body := ⟨" alt='a' OnError = x".toList, false, []⟩
  named := ⟨by decide, List.all_eq_true.1 rfl⟩
  ended := by decide +kernel
  written := rfl

def plainHandler : HandlerIn plainImage.body where
  front := " alt='a'".toList
  handler := ⟨' ', "OnError".toList, [' '], by decide, by decide, List.all_eq_true.1 rfl⟩
  behind := " x".toList
  written := rfl
  outside := rfl

theorem handlers_rejected_plain :
    ∃ fault, checkTemplate {} "<img alt='a' OnError = x>" = .error fault := by
  apply (handlers_rejected "<img alt='a' OnError = x>" rfl).1 plainImage plainHandler
  left
  decide

/-- Whether a place behind a text is in no comment: every comment that begins in the text ends in it. -/
def OutsideComments (s : List Char) : Prop :=
  ∀ front inside, s = front ++ ("<!--".toList ++ inside) → "-->".toList <:+: inside

/-- The quoted value before the handler holds a closing angle bracket. -/
def hidingImage : TagIn "<img alt='a>b' onerror='x'>".toList where
  before := []
  closing := false
  name := "img".toList
  ending := " alt='a>b' onerror='x'>".toList
  body := ⟨" alt='a>b' onerror='x'".toList, false, []⟩
  named := ⟨by decide, List.all_eq_true.1 rfl⟩
  ended := by decide +kernel
  written := rfl

def hiddenHandler : HandlerIn hidingImage.body where
  front := " alt='a>b'".toList
  handler := ⟨' ', "onerror".toList, [], by decide, by decide, List.all_eq_true.1 rfl⟩
  behind := "'x'".toList
  written := rfl
  outside := rfl

/-- A `>` in a quoted value hides the handler behind it. -/
theorem not_handlers_rejected :
    ¬ ∀ (security : Security) (source : String) (tag : TagIn source.toList) (_ : HandlerIn tag.body),
      security.allowInlineScripts = false → OutsideComments tag.before →
        ∃ fault, checkTemplate security source = .error fault := by
  intro hclaim
  have houtside : OutsideComments hidingImage.before := by
    intro front inside hnil
    simp [hidingImage] at hnil
  have accepted : checkTemplate {} "<img alt='a>b' onerror='x'>" = .ok () := accepted_iff.2 (by decide +kernel)
  obtain ⟨fault, hrejected⟩ := hclaim {} _ hidingImage hiddenHandler rfl houtside
  rw [accepted] at hrejected
  cases hrejected

end Stencil.Gate
