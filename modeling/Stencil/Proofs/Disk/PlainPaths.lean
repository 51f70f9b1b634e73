import Stencil.Gate.FilePath
import Stencil.Proofs.Cutting
import Stencil.Proofs.Disk.Locations

/-!
Paths without flaws. A flaw is a mark in the text of a path, and no mark but a doubled character stands across
a slash or a point that it does not hold. So a relative path put below another one has the flaws of both, and what
is put behind a path adds a flaw only if it doubles a character.
-/

namespace Stencil

namespace Text

variable {mark a b : List Char} {c d : Char}

theorem mem_of_prefix_cons (hmark : mark ≠ []) (h : mark <+: c :: b) : c ∈ mark := by
  cases mark with
  | nil => exact absurd rfl hmark
  | cons first rest =>
      obtain ⟨rfl, -⟩ := List.cons_prefix_cons.1 h
      exact List.mem_cons_self ..

/-- A mark stands nowhere across a character that it does not hold. -/
theorem infix_append_cons_iff (hmark : mark ≠ []) (h : c ∉ mark) :
    mark <:+: a ++ c :: b ↔ mark <:+: a ∨ mark <:+: b := by
  constructor
  · intro hinfix
    rcases List.infix_append_iff_ne_nil.1 hinfix with hleft | hright | ⟨front, back, -, hback, rfl, -, hprefix⟩
    · exact .inl hleft
    · rcases List.infix_cons_iff.1 hright with hhere | hlater
      · exact absurd (mem_of_prefix_cons hmark hhere) h
      · exact .inr hlater
    · exact absurd (List.mem_append_right front (mem_of_prefix_cons hback hprefix)) h
  · rintro (hleft | hright)
    · exact hleft.trans (List.prefix_append ..).isInfix
    · exact hright.trans ((List.suffix_cons ..).trans (List.suffix_append ..)).isInfix

theorem singleton_suffix_iff : [c] <:+ a ↔ a.getLast? = some c := by
  rw [List.getLast?_eq_some_iff]
  exact exists_congr fun front => eq_comm

theorem singleton_prefix_iff : [c] <+: a ↔ a.head? = some c := by
  rw [List.head?_eq_some_iff]
  exact exists_congr fun behind => eq_comm

/-- Where two of one character stand in a text, they stand on one side of a given place or the character there
is one of them. -/
theorem pair_infix_iff : [d, d] <:+: a ++ c :: b ↔
    [d, d] <:+: a ∨ [d, d] <:+: b ∨ c = d ∧ (a.getLast? = some c ∨ b.head? = some c) := by
  constructor
  · intro hinfix
    rcases List.infix_append_iff_ne_nil.1 hinfix with
      hleft | hright | ⟨front, back, hfront, hback, heq, hsuffix, hprefix⟩
    · exact .inl hleft
    · rcases List.infix_cons_iff.1 hright with hhere | hlater
      · obtain ⟨rfl, hrest⟩ := List.cons_prefix_cons.1 hhere
        exact .inr (.inr ⟨rfl, .inr (singleton_prefix_iff.1 hrest)⟩)
      · exact .inr (.inl hlater)
    · have hlength := congrArg List.length heq
      have hfront' := List.length_pos_iff.2 hfront
      have hback' := List.length_pos_iff.2 hback
      rw [List.length_append] at hlength
      obtain ⟨first, rfl⟩ := List.length_eq_one_iff.1 (show front.length = 1 by simp at hlength; omega)
      obtain ⟨rfl, rfl⟩ : d = first ∧ [d] = back := by simpa using heq
      obtain ⟨rfl, -⟩ := List.cons_prefix_cons.1 hprefix
      exact .inr (.inr ⟨rfl, .inl (singleton_suffix_iff.1 hsuffix)⟩)
  · rintro (hleft | hright | ⟨rfl, hlast | hhead⟩)
    · exact hleft.trans (List.prefix_append ..).isInfix
    · exact hright.trans ((List.suffix_cons ..).trans (List.suffix_append ..)).isInfix
    · obtain ⟨front, rfl⟩ := List.getLast?_eq_some_iff.1 hlast
      exact ⟨front, b, by simp⟩
    · obtain ⟨behind, rfl⟩ := List.head?_eq_some_iff.1 hhead
      exact ⟨a, behind, by simp⟩

/-- The first piece of a text is at its front, and the others stand in it. -/
theorem splitAt_infix (c : Char) (s : List Char) :
    ∃ first pieces, splitAt c s = first :: pieces ∧ first <+: s ∧ ∀ piece ∈ pieces, piece <:+: s := by
  induction s with
  | nil => exact ⟨[], [], rfl, List.prefix_refl _, fun piece hmem => absurd hmem List.not_mem_nil⟩
  | cons d rest ih =>
      obtain ⟨first, pieces, hsplit, hfirst, hpieces⟩ := ih
      have hlater {piece : List Char} (h : piece <:+: rest) : piece <:+: d :: rest :=
        h.trans (List.suffix_cons ..).isInfix
      rw [splitAt, hsplit]
      split
      · refine ⟨[], first :: pieces, rfl, List.nil_prefix, List.forall_mem_cons.2 ⟨?_, ?_⟩⟩
        · exact hlater hfirst.isInfix
        · exact fun piece hmem => hlater (hpieces piece hmem)
      · refine ⟨d :: first, pieces, rfl, List.cons_prefix_cons.2 ⟨rfl, hfirst⟩, ?_⟩
        exact fun piece hmem => hlater (hpieces piece hmem)

theorem infix_of_mem_splitAt {s piece : List Char} (h : piece ∈ splitAt c s) : piece <:+: s := by
  obtain ⟨first, pieces, hsplit, hfirst, hpieces⟩ := splitAt_infix c s
  rw [hsplit] at h
  rcases List.mem_cons.1 h with rfl | hmem
  · exact hfirst.isInfix
  · exact hpieces piece hmem

/-- What stands behind the last of a character, or the whole text. -/
theorem exists_lastPiece (c : Char) (s : List Char) :
    ∃ front piece, c ∉ piece ∧ (s = piece ∨ s = front ++ c :: piece) := by
  induction s with
  | nil => exact ⟨[], [], List.not_mem_nil, .inl rfl⟩
  | cons d rest ih =>
      obtain ⟨front, piece, hpiece, rfl | rfl⟩ := ih
      · by_cases hd : d = c
        · exact ⟨[], rest, hpiece, .inr (by rw [hd]; rfl)⟩
        · refine ⟨[], d :: rest, fun hmem => ?_, .inl rfl⟩
          rcases List.mem_cons.1 hmem with rfl | hrest
          · exact hd rfl
          · exact hpiece hrest
      · exact ⟨d :: front, piece, hpiece, .inr rfl⟩

/-- One lower case of the sigma for both. -/
def unfinal (c : Char) : Char := if c = 'ς' then 'σ' else c

/-- The lower case of a text with one form of the sigma, character by character. -/
def folded (s : List Char) : List Char :=
  s.flatMap fun c => (if c = 'Σ' then ['σ'] else lowerChar c).map unfinal

theorem map_unfinal_lowerAfter (before s : List Char) : (lowerAfter before s).map unfinal = folded s := by
  induction s generalizing before with
  | nil => rfl
  | cons c rest ih =>
      have hsigma : unfinal (lowerSigma before rest) = 'σ' := by
        unfold lowerSigma
        split <;> rfl
      rw [lowerAfter, folded, List.flatMap_cons]
      by_cases hc : c = 'Σ'
      · rw [if_pos hc, if_pos hc, List.map_cons, hsigma, ih]
        rfl
      · rw [if_neg hc, if_neg hc, List.map_append, ih]
        rfl

/-- A mark without a sigma shows in the lower case of a text as in its folded form. -/
theorem infix_lower_iff {s : List Char} (h : 'σ' ∉ mark ∧ 'ς' ∉ mark) :
    mark <:+: lower s ↔ mark <:+: folded s := by
  have hself {t : List Char} (ht : 'ς' ∉ t) : t.map unfinal = t := by
    refine (List.map_congr_left fun c hc => ?_).trans (List.map_id t)
    refine if_neg fun heq => ?_
    rw [heq] at hc
    exact ht hc
  rw [← map_unfinal_lowerAfter [] s, List.infix_map_iff]
  constructor
  · intro hinfix
    exact ⟨mark, hinfix, (hself h.2).symm⟩
  · rintro ⟨found, hfound, heq⟩
    have hplain : 'ς' ∉ found := by
      intro hfinal
      apply h.1
      rw [heq]
      exact List.mem_map_of_mem hfinal
    rw [heq, hself hplain]
    exact hfound

theorem infix_lower_append_cons_iff (hmark : mark ≠ []) (hsigma : 'σ' ∉ mark ∧ 'ς' ∉ mark) (hc : c ∉ mark)
    (hfolded : folded [c] = [c]) :
    mark <:+: lower (a ++ c :: b) ↔ mark <:+: lower a ∨ mark <:+: lower b := by
  have hsplit : folded (a ++ c :: b) = folded a ++ c :: folded b := by
    have happend : folded (a ++ c :: b) = folded a ++ (folded [c] ++ folded b) := by simp [folded]
    rw [happend, hfolded]
    rfl
  rw [infix_lower_iff hsigma, infix_lower_iff hsigma, infix_lower_iff hsigma, hsplit,
    infix_append_cons_iff hmark hc]

end Text

namespace Gate

open Text

/-- A text of a path that shows no flaw. -/
structure IsPlain (path : List Char) : Prop where
  single : ∀ c ∈ ['.', '/', '\\'], ¬ [c, c] <:+: path
  noTilde : '~' ∉ path
  noMark : ∀ mark ∈ encodedMarks, ¬ mark.toList <:+: lower path

theorem hiddenFlaw?_eq_none_iff {path : List Char} : hiddenFlaw? path = none ↔ IsPlain path := by
  have hpair (c : Char) : occurs [c, c] path = true ↔ [c, c] <:+: path := occurs_iff (List.cons_ne_nil _ _)
  have hencoded : (encodedMarks.any fun mark => occurs mark.toList (lower path)) = false ↔
      ∀ mark ∈ encodedMarks, ¬ mark.toList <:+: lower path := by
    have hmarks : ∀ mark ∈ encodedMarks, mark.toList ≠ [] := by decide
    rw [List.any_eq_false]
    refine forall₂_congr fun mark hmem => ?_
    rw [occurs_iff (hmarks mark hmem)]
  constructor
  · intro h
    unfold hiddenFlaw? at h
    dsimp only at h
    split at h
    · cases h
    next hparent =>
      split at h
      · cases h
      next htilde =>
        split at h
        · cases h
        next hmark =>
          split at h
          · cases h
          next hdouble =>
            rw [Bool.or_eq_true, not_or] at hdouble
            refine ⟨?_, by simpa using htilde, hencoded.1 (by simpa using hmark)⟩
            simp only [List.forall_mem_cons, ← hpair]
            exact ⟨hparent, hdouble.1, hdouble.2, fun c hc => absurd hc List.not_mem_nil⟩
  · rintro ⟨hsingle, hnoTilde, hnoMark⟩
    simp only [List.forall_mem_cons, ← hpair] at hsingle
    obtain ⟨hparent, hslashes, hbackslashes, -⟩ := hsingle
    have hcontains : ¬ path.contains '~' = true := by simpa using hnoTilde
    have hdouble : ¬ (occurs ['/', '/'] path || occurs ['\\', '\\'] path) = true := by
      rw [Bool.or_eq_true, not_or]
      exact ⟨hslashes, hbackslashes⟩
    unfold hiddenFlaw?
    dsimp only
    rw [if_neg hparent, if_neg hcontains, hencoded.2 hnoMark, if_neg Bool.false_ne_true, if_neg hdouble]

/-- A slash or a point between two texts adds a flaw only where it is doubled. -/
theorem isPlain_append_cons_iff {a b : List Char} {c : Char} (hc : c = '/' ∨ c = '.') :
    IsPlain (a ++ c :: b) ↔ IsPlain a ∧ IsPlain b ∧ a.getLast? ≠ some c ∧ b.head? ≠ some c := by
  have hencoded : ∀ mark ∈ encodedMarks,
      (mark.toList <:+: lower (a ++ c :: b) ↔ mark.toList <:+: lower a ∨ mark.toList <:+: lower b) := by
    intro mark hmem
    have hmarks : ∀ mark ∈ encodedMarks, mark.toList ≠ [] ∧ ('σ' ∉ mark.toList ∧ 'ς' ∉ mark.toList) ∧
        '/' ∉ mark.toList ∧ '.' ∉ mark.toList := by decide
    obtain ⟨hne, hsigma, hslash, hpoint⟩ := hmarks mark hmem
    rcases hc with rfl | rfl
    · exact infix_lower_append_cons_iff hne hsigma hslash (by decide +kernel)
    · exact infix_lower_append_cons_iff hne hsigma hpoint (by decide +kernel)
  have htilde : '~' ∈ a ++ c :: b ↔ '~' ∈ a ∨ '~' ∈ b := by
    have hne : '~' ≠ c := by rcases hc with rfl | rfl <;> decide
    simp [hne]
  have hdoubled : c ∈ ['.', '/', '\\'] := by rcases hc with rfl | rfl <;> decide
  constructor
  · rintro ⟨hsingle, hnoTilde, hnoMark⟩
    simp only [pair_infix_iff, not_or] at hsingle
    rw [htilde, not_or] at hnoTilde
    have hmarks : ∀ mark ∈ encodedMarks, ¬ mark.toList <:+: lower a ∧ ¬ mark.toList <:+: lower b := by
      intro mark hmem
      rw [← not_or, ← hencoded mark hmem]
      exact hnoMark mark hmem
    have hedge := (hsingle c hdoubled).2.2
    refine ⟨⟨fun d hd => (hsingle d hd).1, hnoTilde.1, fun mark hmem => (hmarks mark hmem).1⟩,
      ⟨fun d hd => (hsingle d hd).2.1, hnoTilde.2, fun mark hmem => (hmarks mark hmem).2⟩, ?_, ?_⟩
    · intro hlast
      exact hedge ⟨rfl, .inl hlast⟩
    · intro hhead
      exact hedge ⟨rfl, .inr hhead⟩
  · rintro ⟨ha, hb, hlast, hhead⟩
    constructor
    · intro d hd hpair
      rcases pair_infix_iff.1 hpair with hleft | hright | ⟨rfl, hedge | hedge⟩
      · exact ha.single d hd hleft
      · exact hb.single d hd hright
      · exact hlast hedge
      · exact hhead hedge
    · rw [htilde]
      rintro (hleft | hright)
      · exact ha.noTilde hleft
      · exact hb.noTilde hright
    · intro mark hmem
      rw [hencoded mark hmem]
      rintro (hleft | hright)
      · exact ha.noMark mark hmem hleft
      · exact hb.noMark mark hmem hright

end Gate

namespace Disk

open Text Gate

variable {base path ending : String}

theorem head?_ne_slash (h : isAbsolute path = false) : path.toList.head? ≠ some '/' := by
  intro hhead
  rw [isAbsolute, hhead] at h
  cases h

/-- Below the empty path a relative path stands for itself, and below any other one it stands behind one slash. -/
theorem join_relative (base : String) (h : isAbsolute path = false) :
    base = "" ∧ join base path = path ∨
      ∃ front, (join base path).toList = front ++ '/' :: path.toList ∧
        (base.toList = front ++ ['/'] ∨ base.toList = front ∧ front ≠ [] ∧ front.getLast? ≠ some '/') := by
  unfold join
  rw [h]
  simp only [Bool.false_eq_true, if_false]
  split
  next hnone =>
    left
    have hempty : base = "" := String.toList_eq_nil_iff.1 (List.getLast?_eq_none_iff.1 hnone)
    rw [hempty]
    exact ⟨rfl, String.empty_append⟩
  next hslash =>
    right
    obtain ⟨front, hfront⟩ := List.getLast?_eq_some_iff.1 hslash
    refine ⟨front, ?_, .inl hfront⟩
    rw [String.toList_append, hfront, List.append_assoc]
    rfl
  next hnone hslash =>
    right
    refine ⟨base.toList, ?_, .inr ⟨rfl, fun hnil => hnone (by rw [hnil]; rfl), hslash⟩⟩
    rw [String.toList_append, String.toList_append, List.append_assoc]
    rfl

/-- A relative path below another one has no flaw exactly if both have none. -/
theorem isPlain_join (h : isAbsolute path = false) :
    IsPlain (join base path).toList ↔ IsPlain base.toList ∧ IsPlain path.toList := by
  have hhead := head?_ne_slash h
  have hnil : IsPlain [] := hiddenFlaw?_eq_none_iff.1 (by decide +kernel)
  rcases join_relative base h with ⟨rfl, heq⟩ | ⟨front, heq, hbase | ⟨hbase, -, hlast⟩⟩
  · rw [heq]
    exact ⟨fun hplain => ⟨hnil, hplain⟩, fun hplain => hplain.2⟩
  · rw [heq, hbase, isPlain_append_cons_iff (.inl rfl), isPlain_append_cons_iff (.inl rfl)]
    have hempty : ([] : List Char).head? ≠ some '/' := by decide
    tauto
  · rw [heq, hbase, isPlain_append_cons_iff (.inl rfl)]
    tauto

theorem names_append_slash (path : String) {whole : String} {front : List Char}
    (h : whole.toList = front ++ '/' :: path.toList) : names whole = names (String.ofList front) ++ names path := by
  unfold names
  rw [h, splitAt_append, List.map_append, List.filter_append, String.toList_ofList]

theorem names_join (h : isAbsolute path = false) : names (join base path) = names base ++ names path := by
  rcases join_relative base h with ⟨rfl, heq⟩ | ⟨front, heq, hbase | ⟨hbase, -, -⟩⟩
  · rw [heq]
    rfl
  · have hempty : names "" = [] := rfl
    rw [names_append_slash path heq, names_append_slash "" hbase, hempty, List.append_nil]
  · rw [names_append_slash path heq, ← hbase, String.ofList_toList]

theorem isAbsolute_join (h : isAbsolute path = false) : isAbsolute (join base path) = isAbsolute base := by
  rcases join_relative base h with ⟨rfl, heq⟩ | ⟨front, heq, hbase | ⟨hbase, hne, -⟩⟩
  · rw [heq, h]
    rfl
  · unfold isAbsolute
    rw [heq, hbase]
    cases front <;> rfl
  · unfold isAbsolute
    rw [heq, hbase]
    cases front with
    | nil => exact absurd rfl hne
    | cons first rest => rfl

theorem join_append (h : isAbsolute path = false) (h' : isAbsolute (path ++ ending) = false) :
    join base path ++ ending = join base (path ++ ending) := by
  unfold join
  rw [h, h']
  simp only [Bool.false_eq_true, if_false]
  split <;> simp [String.append_assoc]

/-- A path without flaws has no name that leads upwards. -/
theorem up_not_mem_names (h : IsPlain path.toList) : ".." ∉ names path := by
  intro hmem
  obtain ⟨piece, hpiece, heq⟩ := List.mem_map.1 (List.mem_filter.1 hmem).1
  obtain rfl : piece = ['.', '.'] := String.ofList_injective heq
  exact h.single '.' (by decide) (infix_of_mem_splitAt hpiece)

/-- The extension of a path is that of its last name. -/
theorem extension?_eq {front piece : List Char}
    (h : path.toList = piece ∨ path.toList = front ++ '/' :: piece) (hslash : '/' ∉ piece)
    (hlong : 2 < piece.length) : extension? path = (extensionOf? piece).map String.ofList := by
  have hlast : (splitAt '/' path.toList).getLast? = some piece := by
    rcases h with heq | heq
    · rw [heq, splitAt_of_not_mem hslash]
      rfl
    · rw [heq, splitAt_append, splitAt_of_not_mem hslash]
      exact List.getLast?_concat
  have hother (text : String) (hshort : text.toList.length ≤ 2) : String.ofList piece ≠ text := by
    rintro rfl
    rw [String.toList_ofList] at hshort
    omega
  have hname : fileName? path = some (String.ofList piece) := by
    apply fileName?_eq_some_iff.2
    exact ⟨getLast?_names hlast (hother "" (by decide)) (hother "." (by decide)), hother ".." (by decide)⟩
  rw [extension?, hname, Option.bind_some, String.toList_ofList]

/-- Whether a path leaves its last name open: it is empty or ends in a slash. -/
def endsOpen (path : String) : Bool := path.toList.getLast?.all (· == '/')

/-- The ending for templates is an extension unless it is a name of its own. -/
theorem extension?_html : extension? (path ++ ".html") = if endsOpen path then none else some "html" := by
  obtain ⟨front, piece, hslash, hpath⟩ := exists_lastPiece '/' path.toList
  have hlast : ∀ c ∈ piece.getLast?, c ≠ '/' := by
    rintro c hc rfl
    exact hslash (List.mem_of_getLast? hc)
  have hopen : endsOpen path = piece.isEmpty := by
    have hpiece : path.toList.getLast? = piece.getLast? ∨
        path.toList.getLast? = piece.getLast?.or (some '/') := by
      rcases hpath with heq | heq
      · rw [heq]
        exact .inl rfl
      · right
        rw [heq, List.getLast?_append, List.getLast?_cons]
        cases piece.getLast? <;> rfl
    unfold endsOpen
    cases hend : piece.getLast? with
    | none =>
        rw [hend] at hpiece
        rw [List.getLast?_eq_none_iff.1 hend]
        rcases hpiece with heq | heq <;> rw [heq] <;> rfl
    | some c =>
        have hc : c ≠ '/' := hlast c hend
        have hne : piece ≠ [] := fun hnil => by rw [hnil] at hend; cases hend
        rw [hend] at hpiece
        rw [List.isEmpty_eq_false_iff.2 hne]
        rcases hpiece with heq | heq <;> rw [heq] <;> simpa using hc
  have hextension : extensionOf? (piece ++ ".html".toList) = if piece.isEmpty then none else some "html".toList := by
    have hending : (piece ++ ".html".toList).reverse.takeWhile (· != '.') = ['l', 'm', 't', 'h'] := by
      rw [List.reverse_append]
      rfl
    unfold extensionOf?
    rw [hending]
    cases piece with
    | nil => rfl
    | cons first rest => simp
  have hwhole : (path ++ ".html").toList = piece ++ ".html".toList ∨
      (path ++ ".html").toList = front ++ '/' :: (piece ++ ".html".toList) := by
    rw [String.toList_append]
    rcases hpath with heq | heq
    · left
      rw [heq]
    · right
      rw [heq, List.append_assoc]
      rfl
  have hslash' : '/' ∉ piece ++ ".html".toList := by
    intro hmem
    rcases List.mem_append.1 hmem with hin | hin
    · exact hslash hin
    · exact absurd hin (by decide)
  rw [extension?_eq hwhole hslash' (by simp), hextension, hopen]
  cases piece.isEmpty <;> rfl

theorem extension?_default : extension? (join path "default.html") = some "html" := by
  have hslash : '/' ∉ "default.html".toList := by decide
  rcases join_relative path (show isAbsolute "default.html" = false by decide) with ⟨-, heq⟩ | ⟨front, heq, -⟩
  · rw [heq]
    decide +kernel
  · rw [extension?_eq (.inr heq) hslash (by decide)]
    decide +kernel

theorem getLast?_join (h : isAbsolute path = false) :
    endsOpen (join base path) = endsOpen path ∧
      ((join base path).toList.getLast? = some '.' ↔ path.toList.getLast? = some '.') := by
  rcases join_relative base h with ⟨-, heq⟩ | ⟨front, heq, -⟩
  · rw [heq]
    exact ⟨rfl, Iff.rfl⟩
  · unfold endsOpen
    rw [heq, List.getLast?_append, List.getLast?_cons]
    cases path.toList.getLast? <;> simp

end Disk

end Stencil
