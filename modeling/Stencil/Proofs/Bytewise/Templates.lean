import Stencil.Proofs.Bytewise.Tags

/-!
Templates scanned by bytes. A lexer says what the next stretch of the source opens; what opens an interpolation, a
comment or a tag is followed to its end by bytes, and everything else is kept as a range of plain text that grows until
a token is cut out behind it. Every offset that is cut at is one between two characters, and the tokens are those of
the scan by characters.
-/

namespace Stencil.Bytewise

open Text Markup

/-- What a stretch of the source opens. -/
inductive RawKind where
  | interpolation
  | comment
  | tag
  | text

/-- The stretch of the source that a tag's name begins, or its angle bracket alone. -/
def rawTag (front name : List Char) : RawKind × List Char :=
  if name.head?.any isAsciiLetter then (.tag, front ++ name.takeWhile isAsciiAlphanumeric) else (.text, ['<'])

/-- The first stretch of a text. -/
def rawToken? : List Char → Option (RawKind × List Char)
  | [] => none
  | '{' :: '{' :: _ => some (.interpolation, ['{', '{'])
  | '<' :: '!' :: '-' :: '-' :: _ => some (.comment, ['<', '!', '-', '-'])
  | '<' :: '/' :: rest => some (rawTag ['<', '/'] rest)
  | '<' :: rest => some (rawTag ['<'] rest)
  | '{' :: _ => some (.text, ['{'])
  | c :: rest => some (.text, c :: rest.takeWhile isPlain)

/-- Where a scan stands: the offset of what has not been read, the range of plain text that no token holds yet, the
offset up to which lines have been counted, the line there, and the tokens so far. -/
structure Scanner where
  position : Nat := 0
  pending : Option (Nat × Nat) := none
  counted : Nat := 0
  line : Nat := 1
  tokens : List Token := []

/-- Counts the lines up to an offset. -/
def Scanner.lineAt (s : List Char) (scanner : Scanner) (offset : Nat) : Except Slip Scanner :=
  if scanner.counted < offset then do
    let passed ← bytesBetween (bytes s) scanner.counted offset
    return { scanner with counted := offset, line := scanner.line + passed.count '\n'.toUInt8 }
  else return scanner

/-- Keeps a range as plain text. -/
def Scanner.pushText (scanner : Scanner) (start stop : Nat) : Scanner :=
  match scanner.pending with
  | some (first, _) => { scanner with pending := some (first, stop) }
  | none => { scanner with pending := some (start, stop) }

/-- Makes a token of the range of plain text. -/
def Scanner.flushText (s : List Char) (scanner : Scanner) : Except Slip Scanner :=
  match scanner.pending with
  | none => return scanner
  | some (start, stop) => do
      let scanner ← Scanner.lineAt s { scanner with pending := none } start
      let source ← slice s start stop
      let token : Token := ⟨.text (String.ofList source), start, scanner.line⟩
      return { scanner with tokens := scanner.tokens ++ [token] }

/-- Adds a token behind the range of plain text. -/
def Scanner.pushToken (s : List Char) (scanner : Scanner) (kind : TokenKind) (offset : Nat) : Except Slip Scanner := do
  let scanner ← scanner.flushText s
  let scanner ← scanner.lineAt s offset
  return { scanner with tokens := scanner.tokens ++ [⟨kind, offset, scanner.line⟩] }

/-- Goes on at an offset, if it stands behind what has been read. -/
def Scanner.consumeUntil (scanner : Scanner) (stop : Nat) : Scanner :=
  { scanner with position := max scanner.position stop }

/-- What the scan does at the braces of an interpolation. -/
def Scanner.interpolation (s : List Char) (scanner : Scanner) (start opened : Nat) : Except Slip Scanner := do
  let rest ← bytesFrom (bytes s) opened
  match find? (bytes ['}', '}']) rest with
  | none => return scanner.pushText start opened
  | some found =>
      let body ← slice s opened (opened + found)
      let scanner ← scanner.pushToken s (.interpolation (String.ofList (trim body))) start
      return scanner.consumeUntil (opened + found + 2)

/-- What the scan does at the opening of a comment. -/
def Scanner.comment (s : List Char) (scanner : Scanner) (start opened : Nat) : Except Slip Scanner := do
  let rest ← bytesFrom (bytes s) opened
  let stop := match find? (bytes ['-', '-', '>']) rest with
    | some found => opened + found + 3
    | none => (bytes s).length
  return (scanner.pushText start stop).consumeUntil stop

/-- The template tag of a name that a byte follows. -/
def recognize? (name : List Char) (next : Option UInt8) : Option Tag :=
  if name.head?.any (fun c => 'A' ≤ c ∧ c ≤ 'Z') &&
      next.any (fun byte => byte == '>'.toUInt8 || byte == '/'.toUInt8 || holds isAsciiBlank byte) then
    Tag.ofName? name
  else none

/-- What the scan does at the name of a template tag that closes. -/
def Scanner.closingTag (s : List Char) (scanner : Scanner) (tag : Tag) (start named : Nat) : Except Slip Scanner := do
  let rest ← sliceFrom s named
  let blanks ← minus (byteSize rest) (byteSize (trimStart rest))
  let behind ← sliceFrom rest blanks
  if behind.head? = some '>' then
    let stop := named + blanks + 1
    let source ← slice s start stop
    let scanner ← scanner.pushToken s (.closing tag (String.ofList source)) start
    return scanner.consumeUntil stop
  else return scanner.pushText start named

/-- What the scan does at the name of a template tag that opens. -/
def Scanner.openingTag (s : List Char) (scanner : Scanner) (tag : Tag) (start named : Nat) : Except Slip Scanner := do
  match ← tagEnd? (bytes s) named with
  | none => return scanner.pushText start named
  | some (close, selfClosing) =>
      let inner ← slice s named close
      let attributes ← attributesOf inner
      let source ← slice s start (close + 1)
      let scanner ← scanner.pushToken s (.opening selfClosing tag attributes (String.ofList source)) start
      return scanner.consumeUntil (close + 1)

/-- What the scan does at the name of a tag. -/
def Scanner.tag (s : List Char) (scanner : Scanner) (start named : Nat) : Except Slip Scanner := do
  let front ← slice s start named
  let closing := ['<', '/'].isPrefixOf front
  let name ← if closing then sliceFrom front 2 else sliceFrom front 1
  match recognize? name (bytes s)[named]? with
  | none => return scanner.pushText start named
  | some tag => if closing then scanner.closingTag s tag start named else scanner.openingTag s tag start named

/-- What the scan does at a stretch of the source that it has just passed. -/
def Scanner.follow (s : List Char) (scanner : Scanner) (kind : RawKind) (start : Nat) : Except Slip Scanner :=
  match kind with
  | .interpolation => scanner.interpolation s start scanner.position
  | .comment => scanner.comment s start scanner.position
  | .tag => scanner.tag s start scanner.position
  | .text => return scanner.pushText start scanner.position

/-- A turn of the scan takes what the next stretch of the source opens. -/
def scanTurn (s : List Char) (scanner : Scanner) : Except Slip (Scanner ⊕ List Token) := do
  let rest ← sliceFrom s scanner.position
  match rawToken? rest with
  | none =>
      let scanner ← scanner.flushText s
      return .inr scanner.tokens
  | some (kind, taken) =>
      let passed := { scanner with position := scanner.position + byteSize taken }
      let next ← passed.follow s kind scanner.position
      return .inl next

/-- The tokens of template text. -/
def scan (source : String) : Except Slip (List Token) :=
  turns (scanTurn source.toList) (byteSize source.toList + 1) {}

/-! ### Plain text joins what follows -/

theorem consPiece_consPiece (first second : List Char) (ps : List Piece) :
    consPiece (.text first) (consPiece (.text second) ps) = consPiece (.text (first ++ second)) ps := by
  rcases consPiece_cases (.text second) ps with ⟨_, third, others, heq, rfl, hjoined⟩ | ⟨hkept, hhead⟩
  · cases heq
    rw [hjoined]
    simp [consPiece]
  · rw [hkept]
    rcases consPiece_cases (.text (first ++ second)) ps with ⟨_, third, others, -, rfl, -⟩ | ⟨hkept', -⟩
    · cases hhead (.text third) rfl
    · rw [hkept']
      rfl

/-- Whether the pieces of a text are those of its end with the front as plain text before them. -/
def Joins (front rest : List Char) : Prop :=
  mergePieces (pieces (front ++ rest)) = consPiece (.text front) (mergePieces (pieces rest))

theorem Joins.append {first second rest : List Char} (hfirst : Joins first (second ++ rest))
    (hsecond : Joins second rest) : Joins (first ++ second) rest := by
  unfold Joins at *
  rw [List.append_assoc, hfirst, hsecond, consPiece_consPiece]

/-- A character at which nothing begins joins what follows. -/
theorem joins_char {c : Char} {rest : List Char} (h : construct? (c :: rest) = none) : Joins [c] rest := by
  unfold Joins
  rw [List.singleton_append, pieces_of_plain h]
  change consPiece _ (mergePieces _) = _
  cases rest with
  | nil => rfl
  | cons d others =>
      by_cases hd : isPlain d = true
      · rw [pieces_of_plain (construct?_plain hd others), List.takeWhile_cons_of_pos hd, List.dropWhile_cons_of_pos hd]
        exact (consPiece_consPiece [c] (d :: others.takeWhile isPlain) _).symm
      · rw [List.takeWhile_cons_of_neg hd, List.dropWhile_cons_of_neg hd]

/-- So does a run of characters that can only be plain text. -/
theorem joins_plain {c : Char} {run : List Char} {rest : List Char} (hfirst : construct? (c :: (run ++ rest)) = none)
    (hrun : ∀ d ∈ run, isPlain d = true) : Joins (c :: run) rest := by
  induction run generalizing c with
  | nil => exact joins_char hfirst
  | cons d run ih =>
      obtain ⟨hd, hothers⟩ := List.forall_mem_cons.1 hrun
      change Joins ([c] ++ d :: run) rest
      exact (joins_char hfirst).append (ih (construct?_plain hd (run ++ rest)) hothers)

theorem joins_of_construct? {s text after : List Char} (h : construct? s = some (.text text, after)) :
    Joins text after := by
  have hsplit : text ++ after = s := construct?_append h
  unfold Joins
  rw [hsplit]
  cases s with
  | nil => cases h
  | cons c rest =>
      rw [pieces_of_construct? h]
      rfl

/-- Pieces with plain text before them, which may be none. -/
def withText (plain : List Char) (ps : List Piece) : List Piece := if plain = [] then ps else consPiece (.text plain) ps

theorem Joins.withText {plain more rest : List Char} (h : Joins more rest) (hmore : more ≠ []) :
    withText plain (mergePieces (pieces (more ++ rest))) = withText (plain ++ more) (mergePieces (pieces rest)) := by
  have hsome : plain ++ more ≠ [] := List.append_ne_nil_of_right_ne_nil plain hmore
  rw [h]
  unfold Bytewise.withText
  rw [if_neg hsome]
  split
  next hplain => rw [hplain, List.nil_append]
  next => exact consPiece_consPiece plain more _

/-- The token of plain text, which may be none. -/
def textTokens (front plain : List Char) : List Token :=
  if plain = [] then [] else [⟨.text (String.ofList plain), byteSize front, 1 + front.count '\n'⟩]

/-- The tokens of pieces that stand behind a text. -/
def tokensBehind (front : List Char) (ps : List Piece) : List Token :=
  locate (byteSize front) (1 + front.count '\n') ps

theorem tokensBehind_cons (front : List Char) (piece : Piece) (ps : List Piece) :
    tokensBehind front (piece :: ps) =
      ⟨piece.kind, byteSize front, 1 + front.count '\n'⟩ :: tokensBehind (front ++ piece.source) ps := by
  rw [tokensBehind, locate, tokensBehind, byteSize_append, List.count_append, ← Nat.add_assoc]

/-- Plain text is a token of its own where no plain text follows. -/
theorem tokensBehind_withText {front plain : List Char} {ps : List Piece}
    (h : ∀ piece ∈ ps.head?, piece.isText = false) :
    tokensBehind front (withText plain ps) = textTokens front plain ++ tokensBehind (front ++ plain) ps := by
  unfold withText textTokens
  split
  next hplain => rw [hplain, List.append_nil, List.nil_append]
  next =>
    have hkept : consPiece (.text plain) ps = .text plain :: ps := by
      rcases consPiece_cases (.text plain) ps with ⟨_, second, others, -, rfl, -⟩ | ⟨hkept, -⟩
      · cases h (.text second) rfl
      · exact hkept
    rw [hkept, tokensBehind_cons]
    rfl

/-- A range of plain text, which may be none. -/
def pendingText (front plain : List Char) : Option (Nat × Nat) :=
  if plain = [] then none else some (byteSize front, byteSize (front ++ plain))

/-- A scanner that stands behind plain text, with the lines counted up to the text before it or less far. -/
structure Scanner.At (s : List Char) (scanner : Scanner) (front plain rest : List Char) : Prop where
  text : s = front ++ (plain ++ rest)
  pending : scanner.pending = pendingText front plain
  counted : ∃ before between, front = before ++ between ∧ scanner.counted = byteSize before ∧
    scanner.line = 1 + before.count '\n'

theorem count_bytes (s : List Char) : (bytes s).count '\n'.toUInt8 = s.count '\n' := by
  induction s with
  | nil => rfl
  | cons c rest ih =>
      by_cases hc : c.toNat < 128
      · rw [bytes_cons_basic hc, List.count_cons, List.count_cons, ih]
        simp [toUInt8_inj hc]
      · have hhigh := Nat.le_of_not_lt hc
        have hne := ne_of_high (d := '\n') hhigh (by decide)
        have hnone : (String.utf8EncodeChar c).count '\n'.toUInt8 = 0 :=
          List.count_eq_zero_of_not_mem fun hmem =>
            ne_toUInt8 (c := '\n') (le_of_mem_utf8EncodeChar hhigh _ hmem) (by decide) rfl
        rw [bytes_cons, List.count_append, hnone, Nat.zero_add, ih, List.count_cons_of_ne hne]

/-- The lines up to a later place are those up to the earlier one and those between. -/
theorem Scanner.lineAt_eq {s before between behind : List Char} (scanner : Scanner)
    (text : s = before ++ (between ++ behind)) (counted : scanner.counted = byteSize before)
    (line : scanner.line = 1 + before.count '\n') :
    scanner.lineAt s (byteSize (before ++ between)) =
      .ok { scanner with
        counted := byteSize (before ++ between), line := 1 + (before ++ between).count '\n' } := by
  obtain ⟨position, pending, counted', line', tokens⟩ := scanner
  dsimp only at counted line
  subst counted line
  unfold Scanner.lineAt
  dsimp only
  split
  next hlt =>
    have hbetween : bytesBetween (bytes s) (byteSize before) (byteSize (before ++ between)) = .ok (bytes between) := by
      have hle : byteSize (before ++ between) ≤ (bytes s).length := by
        rw [length_bytes, text, ← List.append_assoc, byteSize_append (before ++ between)]
        exact Nat.le_add_right ..
      rw [bytesBetween, if_pos ⟨Nat.le_of_lt hlt, hle⟩, text, bytes_append, bytes_append, ← length_bytes before,
        List.drop_left, length_bytes, byteSize_append, Nat.add_sub_cancel_left, ← length_bytes between, List.take_left]
    rw [hbetween, ok_bind, count_bytes, List.count_append, ← Nat.add_assoc]
    rfl
  next hge =>
    have hnone : between = [] := by
      by_contra hne
      have hpos := byteSize_pos hne
      rw [byteSize_append] at hge
      omega
    subst hnone
    rw [List.append_nil]
    rfl

section Scanner

variable {s front plain rest : List Char} {scanner : Scanner} (h : scanner.At s front plain rest)

include h

theorem Scanner.At.stands : StandsAt s (byteSize (front ++ plain)) rest :=
  ⟨front ++ plain, by rw [h.text, List.append_assoc], rfl⟩

/-- Behind what a scanner has just passed stands the rest. -/
theorem Scanner.At.behind (taken : List Char) {after : List Char} (hrest : rest = taken ++ after)
    (hposition : scanner.position = byteSize (front ++ plain) + byteSize taken) :
    StandsAt s scanner.position after := by
  have hstands := h.stands
  rw [hrest] at hstands
  rw [hposition]
  exact hstands.pass taken

/-- The source of the first piece behind the plain text can be cut out. -/
theorem Scanner.At.slice_source {piece : Piece} {after : List Char} (hpiece : construct? rest = some (piece, after)) :
    slice s (byteSize (front ++ plain)) (byteSize (front ++ plain) + byteSize piece.source) = .ok piece.source := by
  have hstands := h.stands
  rw [← construct?_append hpiece] at hstands
  exact hstands.slice_eq

/-- Flushing makes a token of the plain text. -/
theorem Scanner.flushText_eq :
    ∃ flushed, scanner.flushText s = .ok flushed ∧ flushed.At s (front ++ plain) [] rest ∧
      flushed.position = scanner.position ∧ flushed.tokens = scanner.tokens ++ textTokens front plain := by
  obtain ⟨before, between, rfl, hcounted, hline⟩ := h.counted
  unfold Scanner.flushText
  rw [h.pending, pendingText]
  by_cases hplain : plain = []
  · subst hplain
    rw [if_pos rfl, textTokens, if_pos rfl]
    refine ⟨scanner, rfl, ⟨?_, h.pending, before, between, ?_, hcounted, hline⟩, rfl, (List.append_nil _).symm⟩
    · rw [List.append_nil]
      exact h.text
    · rw [List.append_nil]
  · have htext : s = before ++ (between ++ (plain ++ rest)) := by rw [h.text, List.append_assoc]
    have hlines := Scanner.lineAt_eq { scanner with pending := none } htext hcounted hline
    have hcut := slice_append (before ++ between) plain rest
    rw [← h.text, ← byteSize_append] at hcut
    rw [if_neg hplain, textTokens, if_neg hplain]
    dsimp only
    rw [hlines, ok_bind, hcut]
    refine ⟨_, rfl, ⟨?_, rfl, before ++ between, plain, rfl, rfl, rfl⟩, rfl, rfl⟩
    rw [List.nil_append, List.append_assoc]
    exact h.text

/-- A token behind plain text is counted on its line. -/
theorem Scanner.pushToken_eq (kind : TokenKind) :
    ∃ pushed, scanner.pushToken s kind (byteSize (front ++ plain)) = .ok pushed ∧
      pushed.position = scanner.position ∧ pushed.pending = none ∧
      pushed.counted = byteSize (front ++ plain) ∧ pushed.line = 1 + (front ++ plain).count '\n' ∧
      pushed.tokens = scanner.tokens ++ textTokens front plain ++
        [⟨kind, byteSize (front ++ plain), 1 + (front ++ plain).count '\n'⟩] := by
  obtain ⟨flushed, hflushed, hat, hposition, htokens⟩ := Scanner.flushText_eq h
  obtain ⟨before, between, hsplit, hcounted, hline⟩ := hat.counted
  have htext : s = before ++ (between ++ rest) := by
    rw [hat.text, hsplit, List.nil_append, List.append_assoc]
  have hlines := Scanner.lineAt_eq flushed htext hcounted hline
  rw [← hsplit] at hlines
  rw [Scanner.pushToken, hflushed, ok_bind, hlines]
  refine ⟨_, rfl, hposition, hat.pending, rfl, rfl, ?_⟩
  dsimp only
  rw [htokens]

/-- Plain text grows by what follows it. -/
theorem Scanner.At.pushText {more behind : List Char} (hmore : more ≠ []) (hrest : rest = more ++ behind) :
    (scanner.pushText (byteSize (front ++ plain)) (byteSize (front ++ (plain ++ more)))).At s front (plain ++ more)
      behind := by
  have hsome : plain ++ more ≠ [] := List.append_ne_nil_of_right_ne_nil plain hmore
  have htext : s = front ++ ((plain ++ more) ++ behind) := by rw [h.text, hrest, List.append_assoc]
  unfold Scanner.pushText
  rw [h.pending, pendingText]
  by_cases hplain : plain = []
  · subst hplain
    rw [if_pos rfl]
    refine ⟨htext, ?_, h.counted⟩
    rw [pendingText, if_neg hsome, List.append_nil]
  · rw [if_neg hplain]
    refine ⟨htext, ?_, h.counted⟩
    rw [pendingText, if_neg hsome]

end Scanner

/-- What a scan leads to. -/
def Scanner.Leads (s : List Char) (scanner : Scanner) (answer : List Token) : Prop :=
  ∃ front plain rest, scanner.At s front plain rest ∧ scanner.position = byteSize (front ++ plain) ∧
    answer = scanner.tokens ++ tokensBehind front (withText plain (mergePieces (pieces rest)))

/-- A scan that has taken something of a text leads to what the text leads to. -/
def Scanner.Follows (s front plain rest : List Char) (tokens : List Token) (next : Scanner) : Prop :=
  byteSize (front ++ plain) < next.position ∧
    next.Leads s (tokens ++ tokensBehind front (withText plain (mergePieces (pieces rest))))

section Follows

variable {s front plain rest : List Char} {scanner : Scanner} (h : scanner.At s front plain rest)

include h

/-- What joins the text behind it is kept as plain text. -/
theorem follows_text {more behind : List Char} (hrest : rest = more ++ behind) (hmore : more ≠ [])
    (joins : Joins more behind) {stop : Nat} (hstop : stop = byteSize (front ++ plain) + byteSize more)
    (hposition : scanner.position ≤ stop) :
    Scanner.Follows s front plain rest scanner.tokens
      ((scanner.pushText (byteSize (front ++ plain)) stop).consumeUntil stop) := by
  have hsize : stop = byteSize (front ++ (plain ++ more)) := by
    rw [hstop, ← List.append_assoc, byteSize_append (front ++ plain)]
  have hat := h.pushText hmore hrest
  rw [← hsize] at hat
  have hkept : (scanner.pushText (byteSize (front ++ plain)) stop).position = scanner.position ∧
      (scanner.pushText (byteSize (front ++ plain)) stop).tokens = scanner.tokens := by
    unfold Scanner.pushText
    split
    · exact ⟨rfl, rfl⟩
    · exact ⟨rfl, rfl⟩
  have hthere : ((scanner.pushText (byteSize (front ++ plain)) stop).consumeUntil stop).position = stop := by
    rw [Scanner.consumeUntil, hkept.1]
    exact Nat.max_eq_right hposition
  have hpos := byteSize_pos hmore
  refine ⟨by omega, front, plain ++ more, behind, ⟨hat.text, hat.pending, hat.counted⟩, hthere.trans hsize, ?_⟩
  rw [hrest, joins.withText hmore]
  exact congrArg (· ++ _) hkept.2.symm

/-- What is no plain text is a token of its own. -/
theorem follows_piece {piece : Piece} {behind : List Char} (hpiece : construct? rest = some (piece, behind))
    (hkind : piece.isText = false) :
    ∃ pushed, scanner.pushToken s piece.kind (byteSize (front ++ plain)) = .ok pushed ∧
      ∀ stop, stop = byteSize (front ++ plain) + byteSize piece.source → scanner.position ≤ stop →
        Scanner.Follows s front plain rest scanner.tokens (pushed.consumeUntil stop) := by
  obtain ⟨pushed, hpushed, hposition, hpending, hcounted, hline, htokens⟩ := Scanner.pushToken_eq h piece.kind
  have hsplit : piece.source ++ behind = rest := construct?_append hpiece
  have hsome : piece.source ≠ [] := (construct?_isWhole hpiece).1
  have hpos := byteSize_pos hsome
  refine ⟨pushed, hpushed, fun stop hstop hle => ?_⟩
  have hthere : (pushed.consumeUntil stop).position = stop := by
    rw [Scanner.consumeUntil, hposition]
    exact Nat.max_eq_right hle
  have hat : (pushed.consumeUntil stop).At s (front ++ plain ++ piece.source) [] behind := by
    refine ⟨?_, hpending, front ++ plain, piece.source, rfl, hcounted, hline⟩
    rw [h.text, ← hsplit]
    simp
  refine ⟨by omega, front ++ plain ++ piece.source, [], behind, hat, ?_, ?_⟩
  · rw [hthere, hstop, List.append_nil, byteSize_append (front ++ plain)]
  · have hpieces : pieces rest = piece :: pieces behind := by
      cases rest with
      | nil => cases hpiece
      | cons c others => exact pieces_of_construct? hpiece
    have hmerged : mergePieces (piece :: pieces behind) = piece :: mergePieces (pieces behind) := by
      change consPiece piece (mergePieces (pieces behind)) = _
      cases piece with
      | text source => cases hkind
      | _ => rfl
    have hhead : ∀ first ∈ (piece :: mergePieces (pieces behind)).head?, first.isText = false := by
      intro first hfirst
      obtain rfl := Option.some.inj hfirst
      exact hkind
    rw [hpieces, hmerged, tokensBehind_withText hhead, tokensBehind_cons]
    change _ = pushed.tokens ++ tokensBehind _ (mergePieces (pieces behind))
    rw [htokens]
    simp

/-- So is what has been read already. -/
theorem follows_read (more : List Char) {behind : List Char} (hrest : rest = more ++ behind) (hmore : more ≠ [])
    (joins : Joins more behind) (hposition : scanner.position = byteSize (front ++ plain) + byteSize more) :
    Scanner.Follows s front plain rest scanner.tokens
      (scanner.pushText (byteSize (front ++ plain)) scanner.position) := by
  have hfollows := follows_text h hrest hmore joins hposition (Nat.le_refl _)
  have hstays : (scanner.pushText (byteSize (front ++ plain)) scanner.position).consumeUntil scanner.position =
      scanner.pushText (byteSize (front ++ plain)) scanner.position := by
    unfold Scanner.pushText Scanner.consumeUntil
    split
    · rw [Nat.max_self]
    · rw [Nat.max_self]
  rwa [hstays] at hfollows

omit h in
/-- A brace begins nothing but an interpolation. -/
theorem construct?_brace {tail : List Char} (h : ∀ inner, tail = '{' :: inner → interpolation? inner = none) :
    construct? ('{' :: tail) = none := by
  unfold construct?
  split
  next inner heq => exact h inner (List.cons.inj heq).2
  next heq => cases heq
  next heq => cases heq
  next heq => cases heq
  next => rfl

/-- The braces of an interpolation. Without closing braces behind them they are plain text, and so would be any that
stand behind the first. -/
theorem interpolation_eq {body : List Char} (hrest : rest = '{' :: '{' :: body)
    (hposition : scanner.position = byteSize (front ++ plain) + 2) :
    ∃ next, scanner.interpolation s (byteSize (front ++ plain)) scanner.position = .ok next ∧
      Scanner.Follows s front plain rest scanner.tokens next := by
  have hbody : StandsAt s scanner.position body := h.behind ['{', '{'] hrest hposition
  have hfind := find?_bytes ['}', '}'] (List.cons_ne_nil _ _) (by simp) body
  rw [Scanner.interpolation, hbody.bytesFrom_eq, ok_bind, hfind]
  cases hcut : cut? ['}', '}'] body with
  | none =>
      refine ⟨_, rfl, follows_read h ['{', '{'] hrest (List.cons_ne_nil _ _) ?_ hposition⟩
      have hfirst : construct? ('{' :: '{' :: body) = none := by
        change interpolation? body = none
        rw [interpolation?, hcut]
        rfl
      have hsecond : construct? ('{' :: body) = none := by
        refine construct?_brace fun inner heq => ?_
        subst heq
        rw [interpolation?, cut?_eq_none_of_suffix (List.cons_ne_nil _ _) hcut (List.suffix_cons ..)]
        rfl
      change Joins (['{'] ++ ['{']) body
      exact (joins_char hfirst).append (joins_char hsecond)
  | some parts =>
      obtain ⟨inner, behind⟩ := parts
      have hsplit := cut?_append hcut
      have hpiece : construct? rest = some (.interpolation inner, behind) := by
        rw [hrest]
        change interpolation? body = _
        rw [interpolation?, hcut]
        rfl
      obtain ⟨pushed, hpushed, hfollows⟩ := follows_piece h hpiece rfl
      have hinner : slice s scanner.position (scanner.position + byteSize inner) = .ok inner := by
        rw [hsplit, List.append_assoc] at hbody
        exact hbody.slice_eq
      refine ⟨pushed.consumeUntil (scanner.position + byteSize inner + 2), ?_, hfollows _ ?_ (by omega)⟩
      · dsimp only [Option.map_some]
        change Scanner.pushToken s scanner (.interpolation (String.ofList (trim inner))) _ = _ at hpushed
        rw [hinner, ok_bind, hpushed]
        rfl
      · have hsource : byteSize (Piece.interpolation inner).source = 2 + (byteSize inner + 2) := by
          change byteSize (['{', '{'] ++ (inner ++ ['}', '}'])) = _
          rw [byteSize_append, byteSize_append]
          rfl
        omega

/-- The opening of a comment, which takes all the rest if it never ends. -/
theorem comment_eq {body : List Char} (hrest : rest = '<' :: '!' :: '-' :: '-' :: body)
    (hposition : scanner.position = byteSize (front ++ plain) + 4) :
    ∃ next, scanner.comment s (byteSize (front ++ plain)) scanner.position = .ok next ∧
      Scanner.Follows s front plain rest scanner.tokens next := by
  have hbody : StandsAt s scanner.position body := h.behind ['<', '!', '-', '-'] hrest hposition
  have hfind := find?_bytes ['-', '-', '>'] (List.cons_ne_nil _ _) (by simp) body
  have hpiece : construct? rest = some (comment body) := by
    rw [hrest]
    rfl
  rw [Scanner.comment, hbody.bytesFrom_eq, ok_bind, hfind]
  refine ⟨_, rfl, ?_⟩
  cases hcut : cut? ['-', '-', '>'] body with
  | none =>
      have hwhole : comment body = (.text rest, []) := by
        rw [comment, hcut, hrest]
        rfl
      have hsize := hbody.size_eq
      have hall : byteSize rest = 4 + byteSize body := by
        rw [hrest]
        exact byteSize_append ['<', '!', '-', '-'] body
      rw [hwhole] at hpiece
      refine follows_text h (List.append_nil rest).symm ?_ (joins_of_construct? hpiece) ?_ ?_
      · rw [hrest]
        exact List.cons_ne_nil _ _
      · dsimp only [Option.map_none]
        rw [length_bytes]
        omega
      · dsimp only [Option.map_none]
        rw [length_bytes]
        omega
  | some parts =>
      obtain ⟨inner, behind⟩ := parts
      have hsplit := cut?_append hcut
      have hwhole : comment body = (.text ("<!--".toList ++ inner ++ "-->".toList), behind) := by
        rw [comment, hcut]
      have hsource : byteSize ("<!--".toList ++ inner ++ "-->".toList) = 4 + byteSize inner + 3 := by
        rw [byteSize_append, byteSize_append]
        rfl
      rw [hwhole] at hpiece
      refine follows_text h (construct?_append hpiece).symm ?_ (joins_of_construct? hpiece) ?_ ?_
      · exact List.append_ne_nil_of_right_ne_nil _ (List.cons_ne_nil _ _)
      · change scanner.position + byteSize inner + 3 =
          byteSize (front ++ plain) + byteSize ("<!--".toList ++ inner ++ "-->".toList)
        rw [hsource]
        omega
      · change scanner.position ≤ scanner.position + byteSize inner + 3
        omega

omit h in
/-- A template tag is recognized by the byte behind its name as it is by the character. -/
theorem recognize?_eq (name behind : List Char) :
    recognize? name (bytes behind)[0]? = Markup.recognize? name behind.head? := by
  have hnext : ((bytes behind)[0]?.any fun byte =>
        byte == '>'.toUInt8 || byte == '/'.toUInt8 || holds isAsciiBlank byte) =
      behind.head?.any fun c => c == '>' || c == '/' || isAsciiBlank c := by
    cases behind with
    | nil => rfl
    | cons c rest =>
        by_cases hc : c.toNat < 128
        · rw [bytes_cons_basic hc]
          have hend := toUInt8_inj hc (d := '>') (by decide)
          have hslash := toUInt8_inj hc (d := '/') (by decide)
          rw [Bool.eq_iff_iff]
          simp [hend, hslash, holds_toUInt8 isAsciiBlank hc]
        · have hhigh := Nat.le_of_not_lt hc
          obtain ⟨first, more, hbytes, -, hfirst, -⟩ := bytes_cons_high hhigh rest
          have hblank : isAsciiBlank c = false := Bool.eq_false_iff.2 fun h => hc (basic_of_isAsciiBlank h)
          have hend := beq_eq_false_iff_ne.2 (ne_of_high (d := '>') hhigh (by decide))
          have hslash := beq_eq_false_iff_ne.2 (ne_of_high (d := '/') hhigh (by decide))
          have hend' := beq_eq_false_iff_ne.2 (ne_toUInt8 (c := '>') hfirst (by decide))
          have hslash' := beq_eq_false_iff_ne.2 (ne_toUInt8 (c := '/') hfirst (by decide))
          rw [hbytes]
          simp [hend, hslash, hend', hslash', hblank, holds_high isAsciiBlank hfirst]
  rw [recognize?, Markup.recognize?, hnext]

/-- The name of a closing tag, which ends where an angle bracket follows behind blanks. -/
theorem closingTag_eq {tail name behind : List Char} (hrest : rest = '<' :: '/' :: tail)
    (hname : tail.takeWhile isAsciiAlphanumeric = name) (hbehind : tail.dropWhile isAsciiAlphanumeric = behind)
    {tag : Tag} (htag : Markup.recognize? name behind.head? = some tag)
    (hposition : scanner.position = byteSize (front ++ plain) + byteSize ('<' :: '/' :: name))
    (joins : construct? rest = none → Joins ('<' :: '/' :: name) behind) :
    ∃ next, scanner.closingTag s tag (byteSize (front ++ plain)) scanner.position = .ok next ∧
      Scanner.Follows s front plain rest scanner.tokens next := by
  have hconstruct : construct? rest = closingTag? tail := by
    rw [hrest]
    rfl
  have hsplit : rest = ('<' :: '/' :: name) ++ behind := by
    rw [hrest, ← hname, ← hbehind, List.cons_append, List.cons_append, List.takeWhile_append_dropWhile]
  have hnamed : StandsAt s scanner.position behind := h.behind _ hsplit hposition
  have hend : sliceFrom behind (byteSize (behind.takeWhile isBlank)) = .ok (trimStart behind) :=
    sliceFrom_takeWhile isBlank behind
  rw [Scanner.closingTag, hnamed.sliceFrom_eq, ok_bind, minus_trimStart, ok_bind, hend, ok_bind]
  by_cases hclose : (trimStart behind).head? = some '>'
  · obtain ⟨after, hafter⟩ := List.head?_eq_some_iff.1 hclose
    let source := '<' :: '/' :: name ++ (behind.takeWhile isBlank ++ ['>'])
    have hpiece : construct? rest = some (.closing tag source, after) := by
      rw [hconstruct, closingTag?, hname, hbehind, htag]
      dsimp only [Option.bind_eq_bind, Option.bind_some]
      rw [hafter]
      rfl
    obtain ⟨pushed, hpushed, hfollows⟩ := follows_piece h hpiece rfl
    have hsource : byteSize source = byteSize ('<' :: '/' :: name) + byteSize (behind.takeWhile isBlank) + 1 := by
      change byteSize (('<' :: '/' :: name) ++ (behind.takeWhile isBlank ++ ['>'])) = _
      rw [byteSize_append, byteSize_append, ← Nat.add_assoc]
      rfl
    have hstop : scanner.position + byteSize (behind.takeWhile isBlank) + 1 =
        byteSize (front ++ plain) + byteSize source := by omega
    have hcut : slice s (byteSize (front ++ plain)) (byteSize (front ++ plain) + byteSize source) = .ok source :=
      h.slice_source hpiece
    refine ⟨pushed.consumeUntil (byteSize (front ++ plain) + byteSize source), ?_, hfollows _ rfl (by omega)⟩
    rw [if_pos hclose, hstop]
    dsimp only
    rw [hcut, ok_bind]
    change Scanner.pushToken s scanner (.closing tag (String.ofList source)) _ = _ at hpushed
    rw [hpushed]
    rfl
  · have hnone : construct? rest = none := by
      rw [hconstruct, closingTag?, hname, hbehind, htag]
      dsimp only [Option.bind_eq_bind, Option.bind_some]
      split
      next heq =>
        rw [heq] at hclose
        exact absurd rfl hclose
      next => rfl
    rw [if_neg hclose]
    exact ⟨_, rfl, follows_read h _ hsplit (List.cons_ne_nil _ _) (joins hnone) hposition⟩

/-- The name of an opening tag, which ends at an angle bracket outside quotes. -/
theorem openingTag_eq {tail name behind : List Char} (hrest : rest = '<' :: tail)
    (hconstruct : construct? rest = openingTag? tail)
    (hname : tail.takeWhile isAsciiAlphanumeric = name) (hbehind : tail.dropWhile isAsciiAlphanumeric = behind)
    {tag : Tag} (htag : Markup.recognize? name behind.head? = some tag)
    (hposition : scanner.position = byteSize (front ++ plain) + byteSize ('<' :: name))
    (joins : construct? rest = none → Joins ('<' :: name) behind) :
    ∃ next, scanner.openingTag s tag (byteSize (front ++ plain)) scanner.position = .ok next ∧
      Scanner.Follows s front plain rest scanner.tokens next := by
  have hsplit : rest = ('<' :: name) ++ behind := by
    rw [hrest, ← hname, ← hbehind, List.cons_append, List.takeWhile_append_dropWhile]
  have hnamed : StandsAt s scanner.position behind := h.behind _ hsplit hposition
  rw [Scanner.openingTag, tagEnd?_eq hnamed, ok_bind]
  cases hbody : tagBody? behind with
  | none =>
      have hnone : construct? rest = none := by
        rw [hconstruct, openingTag?, hname, hbehind, htag, hbody]
        rfl
      exact ⟨_, rfl, follows_read h _ hsplit (List.cons_ne_nil _ _) (joins hnone) hposition⟩
  | some body =>
      have hinner := tagBody?_append hbody
      let source := '<' :: name ++ (body.inner ++ ['>'])
      have hpiece : construct? rest =
          some (.opening body.selfClosing tag (Markup.attributesOf body.inner) source, body.rest) := by
        rw [hconstruct, openingTag?, hname, hbehind, htag, hbody]
        rfl
      obtain ⟨pushed, hpushed, hfollows⟩ := follows_piece h hpiece rfl
      have hsource : byteSize source = byteSize ('<' :: name) + byteSize body.inner + 1 := by
        change byteSize (('<' :: name) ++ (body.inner ++ ['>'])) = _
        rw [byteSize_append, byteSize_append, ← Nat.add_assoc]
        rfl
      have hstop : scanner.position + byteSize body.inner + 1 = byteSize (front ++ plain) + byteSize source := by omega
      have hcut : slice s (byteSize (front ++ plain)) (byteSize (front ++ plain) + byteSize source) = .ok source :=
        h.slice_source hpiece
      have hbetween : slice s scanner.position (scanner.position + byteSize body.inner) = .ok body.inner := by
        rw [hinner] at hnamed
        exact hnamed.slice_eq
      refine ⟨pushed.consumeUntil (byteSize (front ++ plain) + byteSize source), ?_, hfollows _ rfl (by omega)⟩
      dsimp only [Option.map_some]
      rw [hbetween, ok_bind, attributesOf_eq, ok_bind, hstop, hcut, ok_bind]
      change Scanner.pushToken s scanner (.opening body.selfClosing tag _ (String.ofList source)) _ = _ at hpushed
      rw [hpushed]
      rfl

omit h in
/-- Where neither a comment nor a closing tag begins, an angle bracket may begin an opening tag. -/
theorem construct?_angle {tail : List Char} (hcomment : ∀ body, tail = '!' :: '-' :: '-' :: body → False)
    (hslash : ∀ named, tail = '/' :: named → False) : construct? ('<' :: tail) = openingTag? tail := by
  unfold construct?
  split
  next heq => cases heq
  next heq => exact absurd (List.cons.inj heq).2 (hcomment _)
  next heq => exact absurd (List.cons.inj heq).2 (hslash _)
  next heq =>
    cases heq
    rfl
  next hother => exact absurd rfl (hother _)

omit h in
/-- Letters and digits can only be plain text. -/
theorem isPlain_of_isAsciiAlphanumeric {c : Char} (h : isAsciiAlphanumeric c = true) : isPlain c = true := by
  have hne (d : Char) (hd : isAsciiAlphanumeric d = false) : c ≠ d := by
    rintro rfl
    rw [h] at hd
    cases hd
  simp [isPlain, hne '{' (by decide), hne '<' (by decide)]

/-- The name of a tag that begins with a letter. -/
theorem tag_eq {mark tail name behind : List Char} (hmark : mark = ['<'] ∨ mark = ['<', '/'])
    (hrest : rest = mark ++ tail) (hletter : tail.head?.any isAsciiLetter = true)
    (hname : tail.takeWhile isAsciiAlphanumeric = name) (hbehind : tail.dropWhile isAsciiAlphanumeric = behind)
    (hposition : scanner.position = byteSize (front ++ plain) + byteSize (mark ++ name)) :
    ∃ next, scanner.tag s (byteSize (front ++ plain)) scanner.position = .ok next ∧
      Scanner.Follows s front plain rest scanner.tokens next := by
  obtain ⟨c, others, rfl⟩ : ∃ c others, tail = c :: others := by
    cases tail with
    | nil => cases hletter
    | cons c others => exact ⟨c, others, rfl⟩
  have hc : isAsciiLetter c = true := hletter
  have hsplit : rest = (mark ++ name) ++ behind := by
    rw [hrest, ← hname, ← hbehind, List.append_assoc, List.takeWhile_append_dropWhile]
  have hstands := h.stands
  rw [hsplit] at hstands
  have hnext : (bytes s)[scanner.position]? = (bytes behind)[0]? := by
    rw [hposition]
    exact (hstands.pass _).getElem?_eq 0
  have hplain : ∀ d ∈ name, isPlain d = true := by
    intro d hd
    rw [← hname] at hd
    exact isPlain_of_isAsciiAlphanumeric (List.mem_takeWhile_imp hd)
  rw [Scanner.tag, hposition, hstands.slice_eq, ok_bind, ← hposition, hnext]
  have hletters : isAsciiAlphanumeric c = true := by rw [isAsciiAlphanumeric, hc, Bool.true_or]
  have hslash : c ≠ '/' := by
    rintro rfl
    cases hc
  rcases hmark with rfl | rfl
  · have hconstruct : construct? rest = openingTag? (c :: others) := by
      rw [hrest]
      refine construct?_angle (fun body heq => ?_) fun named heq => hslash (List.cons.inj heq).1
      cases heq
      cases hc
    have hjoins (hnone : construct? rest = none) : Joins ('<' :: name) behind := by
      rw [hsplit] at hnone
      exact joins_plain hnone hplain
    have hopening : ['<', '/'].isPrefixOf (['<'] ++ name) = false := by
      rw [← hname, List.takeWhile_cons_of_pos hletters]
      simpa [List.isPrefixOf] using hslash.symm
    have hcut : sliceFrom (['<'] ++ name) 1 = .ok name := sliceFrom_append ['<'] name
    rw [hopening, if_neg Bool.false_ne_true, hcut, ok_bind]
    dsimp only
    rw [recognize?_eq]
    cases htag : Markup.recognize? name behind.head? with
    | none =>
        have hnone : construct? rest = none := by
          rw [hconstruct, openingTag?, hname, hbehind, htag]
          rfl
        exact ⟨_, rfl, follows_read h _ hsplit (List.cons_ne_nil _ _) (hjoins hnone) hposition⟩
    | some tag => exact openingTag_eq h hrest hconstruct hname hbehind htag hposition hjoins
  · have hjoins (hnone : construct? rest = none) : Joins ('<' :: '/' :: name) behind := by
      rw [hsplit] at hnone
      exact joins_plain hnone (List.forall_mem_cons.2 ⟨rfl, hplain⟩)
    have hclosing : ['<', '/'].isPrefixOf (['<', '/'] ++ name) = true := rfl
    have hcut : sliceFrom (['<', '/'] ++ name) 2 = .ok name := sliceFrom_append ['<', '/'] name
    rw [hclosing, if_pos rfl, hcut, ok_bind]
    dsimp only
    rw [recognize?_eq]
    cases htag : Markup.recognize? name behind.head? with
    | none =>
        have hnone : construct? rest = none := by
          rw [hrest]
          change closingTag? (c :: others) = none
          rw [closingTag?, hname, hbehind, htag]
          rfl
        exact ⟨_, rfl, follows_read h _ hsplit (List.cons_ne_nil _ _) (hjoins hnone) hposition⟩
    | some tag => exact closingTag_eq h hrest hname hbehind htag hposition hjoins

omit h in
/-- No template tag begins without a letter. -/
theorem recognize?_unlettered {tail : List Char} (hletter : ¬ tail.head?.any isAsciiLetter = true)
    (next : Option Char) : Markup.recognize? (tail.takeWhile isAsciiAlphanumeric) next = none := by
  have hname : (tail.takeWhile isAsciiAlphanumeric).head?.any (fun c => decide ('A' ≤ c ∧ c ≤ 'Z')) = false := by
    cases tail with
    | nil => rfl
    | cons c others =>
        rw [List.takeWhile_cons]
        split
        · have hcapital : ¬ ('A' ≤ c ∧ c ≤ 'Z') := by
            intro hcapital
            refine hletter ?_
            simp [isAsciiLetter, hcapital]
          simpa using hcapital
        · rfl
  rw [Markup.recognize?, hname, Bool.false_and]
  rfl

/-- Whatever the first stretch of a text opens, the scan goes on behind it. -/
theorem follow_eq {kind : RawKind} {taken : List Char} (hraw : rawToken? rest = some (kind, taken))
    (hposition : scanner.position = byteSize (front ++ plain) + byteSize taken) :
    ∃ next, scanner.follow s kind (byteSize (front ++ plain)) = .ok next ∧
      Scanner.Follows s front plain rest scanner.tokens next := by
  unfold rawToken? at hraw
  split at hraw
  next => cases hraw
  next body =>
    cases hraw
    exact interpolation_eq h rfl hposition
  next body =>
    cases hraw
    exact comment_eq h rfl hposition
  next tail =>
    unfold rawTag at hraw
    split at hraw
    next hletter =>
      cases hraw
      exact tag_eq h (.inr rfl) rfl hletter rfl rfl hposition
    next hletter =>
      cases hraw
      have hnone : construct? ('<' :: '/' :: tail) = none := by
        change closingTag? tail = none
        rw [closingTag?, recognize?_unlettered hletter]
        rfl
      exact ⟨_, rfl, follows_read h ['<'] rfl (List.cons_ne_nil _ _) (joins_char hnone) hposition⟩
  next tail hcomment hslash =>
    unfold rawTag at hraw
    split at hraw
    next hletter =>
      cases hraw
      exact tag_eq h (.inl rfl) rfl hletter rfl rfl hposition
    next hletter =>
      cases hraw
      have hnone : construct? ('<' :: tail) = none := by
        rw [construct?_angle hcomment hslash, openingTag?, recognize?_unlettered hletter]
        rfl
      exact ⟨_, rfl, follows_read h ['<'] rfl (List.cons_ne_nil _ _) (joins_char hnone) hposition⟩
  next tail hopen =>
    cases hraw
    have hnone : construct? ('{' :: tail) = none := construct?_brace fun inner heq => absurd heq (hopen inner)
    exact ⟨_, rfl, follows_read h ['{'] rfl (List.cons_ne_nil _ _) (joins_char hnone) hposition⟩
  next c tail _ _ _ hangle hbrace =>
    cases hraw
    have hplain : isPlain c = true := by
      rw [isPlain, Bool.and_eq_true, bne_iff_ne, bne_iff_ne]
      exact ⟨hbrace, hangle⟩
    have hsplit : c :: tail = (c :: tail.takeWhile isPlain) ++ tail.dropWhile isPlain :=
      congrArg (c :: ·) List.takeWhile_append_dropWhile.symm
    have hjoins : Joins (c :: tail.takeWhile isPlain) (tail.dropWhile isPlain) :=
      joins_plain (construct?_plain hplain _) fun d hd => List.mem_takeWhile_imp hd
    exact ⟨_, rfl, follows_read h _ hsplit (List.cons_ne_nil _ _) hjoins hposition⟩

end Follows

/-- Each turn that is not the last leads to what its beginning leads to, from a later offset on. -/
theorem Scanner.Leads.turn {s : List Char} {scanner : Scanner} {answer : List Token} (leads : scanner.Leads s answer) :
    scanTurn s scanner = .ok (.inr answer) ∨
      ∃ next, scanTurn s scanner = .ok (.inl next) ∧
        byteSize s - next.position < byteSize s - scanner.position ∧ next.Leads s answer := by
  obtain ⟨front, plain, rest, hat, hposition, rfl⟩ := leads
  rw [scanTurn, hposition, hat.stands.sliceFrom_eq, ok_bind]
  cases hraw : rawToken? rest with
  | none =>
      have hnil : rest = [] := by
        unfold rawToken? at hraw
        split at hraw
        · rfl
        all_goals cases hraw
      subst hnil
      obtain ⟨flushed, hflushed, -, -, htokens⟩ := Scanner.flushText_eq hat
      refine .inl ?_
      have hpieces : mergePieces (pieces []) = [] := by
        rw [pieces]
        rfl
      have hnothing : ∀ piece ∈ ([] : List Piece).head?, piece.isText = false := by simp
      rw [hpieces, tokensBehind_withText hnothing]
      dsimp only
      rw [hflushed, ok_bind, htokens]
      simp [tokensBehind, locate]
  | some parts =>
      obtain ⟨kind, taken⟩ := parts
      let moved := { scanner with position := byteSize (front ++ plain) + byteSize taken }
      have hmoved : moved.At s front plain rest := ⟨hat.text, hat.pending, hat.counted⟩
      obtain ⟨next, hnext, hlater, hleads⟩ := follow_eq hmoved hraw rfl
      have hsize := hat.stands.size_eq
      have hpos : rest ≠ [] := by
        rintro rfl
        cases hraw
      have hsome := byteSize_pos hpos
      refine .inr ⟨next, ?_, by omega, hleads⟩
      dsimp only
      rw [hnext]
      rfl

/-- Scanning by bytes never slips, and gives the tokens of the scan by characters. -/
theorem scan_eq (source : String) : scan source = .ok (Markup.scan source) := by
  have hat : Scanner.At source.toList {} [] [] source.toList := ⟨rfl, rfl, [], [], rfl, rfl, rfl⟩
  have hleads : Scanner.Leads source.toList {} (Markup.scan source) := ⟨[], [], source.toList, hat, rfl, rfl⟩
  exact turns_eq (fun scanner => byteSize source.toList - scanner.position) Scanner.Leads.turn hleads
    (Nat.lt_succ_self _)

end Stencil.Bytewise
