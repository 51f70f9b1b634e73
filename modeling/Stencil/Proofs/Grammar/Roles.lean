import Stencil.Proofs.Grammar.Seams

/-!
What each character of a condition is part of, as the grammar reads it from left to right: a literal, a comparison,
quotes that never close, or anything else. Where no token begins, a character is passed over. An index is read on
its own. An equals sign that is no part of a literal or a comparison has no other one behind it, and right before it
only the end of a comparison can look like the start of one.
-/

namespace Stencil

open Text Reference

namespace Formula

/-- What a character is part of. -/
inductive Role where
  | literal
  | comparison
  /-- Quotes that never close. -/
  | unfinished
  | other
deriving DecidableEq

/-- The role of the characters of a token. -/
def Token.role : Token → Role
  | .literal _ => .literal
  | .compare _ => .comparison
  | _ => .other

/-- Characters that are part of the same. -/
def marked (role : Role) (s : List Char) : List (Char × Role) := s.map fun c => (c, role)

/-- The roles in a word; those in the brackets of an indexer are found by `index`. -/
def wordRoles (index : List Char → List (Char × Role)) (s : List Char) : List (Char × Role) :=
  match s with
  | [] => []
  | c :: rest =>
      if c = '[' then
        (c, .other) :: (index (rest.takeWhile (· != ']')) ++ wordRoles index (rest.dropWhile (· != ']')))
      else (c, .other) :: wordRoles index rest
termination_by s.length
decreasing_by
  · exact Nat.lt_succ_of_le (List.dropWhile_suffix _).length_le
  · exact Nat.lt_succ_self _

/-- The roles in a token. -/
def tokenRoles (index : List Char → List (Char × Role)) (source : List Char) (token : Token) :
    List (Char × Role) :=
  if token.role = .other then wordRoles index source else marked token.role source

/-- What follows quotes, closed or not. -/
def behindQuotes (mark : Char) (rest : List Char) : List Char :=
  match quotedText mark [] rest with
  | .ok (_, after) => after
  | .error after => after

theorem behindQuotes_length (mark : Char) (rest : List Char) : (behindQuotes mark rest).length ≤ rest.length := by
  unfold behindQuotes
  split
  next hquoted => exact Nat.le_of_lt (quotedText_length.1 _ _ hquoted)
  next hquoted => exact quotedText_length.2 _ hquoted

/-- The roles in a text; those in the brackets of an indexer are found by `index`. -/
def rolesWith (index : List Char → List (Char × Role)) (s : List Char) : List (Char × Role) :=
  match s with
  | [] => []
  | c :: rest =>
      match _h : token? c rest with
      | some (token, after) => tokenRoles index (cutOff (c :: rest) after) token ++ rolesWith index after
      | none =>
          if c = '"' ∨ c = '\'' then
            marked .unfinished (cutOff (c :: rest) (behindQuotes c rest)) ++ rolesWith index (behindQuotes c rest)
          else (c, .other) :: rolesWith index rest
termination_by s.length
decreasing_by
  · exact Nat.lt_succ_of_le (token?_length _h)
  · exact Nat.lt_succ_of_le (behindQuotes_length c rest)
  · exact Nat.lt_succ_self _

/-- The roles in a condition. An index holds no closing bracket, so that a reference in it has no index of its
own. -/
def roles (s : List Char) : List (Char × Role) := rolesWith (rolesWith (marked .unfinished)) s

/-- The characters that a comparison can begin with. -/
def beginsComparison (c : Char) : Bool := c == '=' || c == '!' || c == '<' || c == '>'

/-- How characters that stand next to one another are kept apart. -/
structure Apart (m n : Char × Role) : Prop where
  before : n = ('=', .other) → beginsComparison m.1 = true → m = ('=', .comparison)
  behind : m = ('=', .other) → n.1 ≠ '='

theorem apart_of_ne {n : Char × Role} (h : n.1 ≠ '=') (m : Char × Role) : Apart m n :=
  ⟨fun heq => absurd (congrArg Prod.fst heq) h, fun _ => h⟩

theorem apart_of_role {m n : Char × Role} (hm : m.2 ≠ .other) (hn : n.2 ≠ .other) : Apart m n :=
  ⟨fun heq => absurd (congrArg Prod.snd heq) hn, fun heq => absurd (congrArg Prod.snd heq) hm⟩

theorem apart_of_plain {m : Char × Role} (h : beginsComparison m.1 = false) (n : Char × Role) : Apart m n := by
  constructor
  · intro _ hm
    rw [h] at hm
    cases hm
  · intro hm
    rw [hm] at h
    cases h

/-- What the end of a token may be where a text follows it. -/
def Joins (after : List Char) (m : Char × Role) : Prop :=
  after.head? = some '=' → beginsComparison m.1 = true → m = ('=', .comparison)

theorem Joins.apart {after : List Char} {m n : Char × Role} (h : Joins after m) (hn : after.head? = some n.1) :
    Apart m n := by
  constructor
  · intro heq hm
    exact h (hn.trans (congrArg (fun n => some n.1) heq)) hm
  · intro hm heq
    have hjoin := h (hn.trans (congrArg some heq)) (by rw [hm]; rfl)
    rw [hm] at hjoin
    cases hjoin

/-- Whether a reading of roles keeps a text, and keeps its characters apart. -/
structure Keeps (read : List Char → List (Char × Role)) (s : List Char) : Prop where
  text : (read s).map Prod.fst = s
  chain : (read s).IsChain Apart

theorem map_fst_marked (role : Role) (s : List Char) : (marked role s).map Prod.fst = s := by
  unfold marked
  rw [List.map_map]
  exact List.map_id _

theorem isChain_marked {role : Role} (h : role ≠ .other) (s : List Char) : (marked role s).IsChain Apart := by
  refine (List.isChain_map _).2 (List.Pairwise.isChain (List.pairwise_of_forall fun c d => ?_))
  exact apart_of_role h h

theorem isChain_marked_of_not_mem (role : Role) {s : List Char} (h : '=' ∉ s) : (marked role s).IsChain Apart := by
  refine (List.isChain_map _).2 (List.Pairwise.isChain (List.pairwise_iff_forall_sublist.2 fun {c d} hpair => ?_))
  exact apart_of_ne (fun hd : d = '=' => h (hd ▸ hpair.subset (by simp))) _

theorem keeps_marked {role : Role} (h : role ≠ .other) (s : List Char) : Keeps (marked role) s :=
  ⟨map_fst_marked role s, isChain_marked h s⟩

theorem isChain_append_of_ne {front back : List (Char × Role)} (hfront : front.IsChain Apart)
    (hback : back.IsChain Apart) (hhead : ∀ n ∈ back.head?, n.1 ≠ '=') : (front ++ back).IsChain Apart :=
  List.isChain_append.2 ⟨hfront, hback, fun m _ n hn => apart_of_ne (hhead n hn) m⟩

/-- A part that a text may follow, and the roles in that text. -/
theorem isChain_append_of_joins {front : List (Char × Role)} {read : List Char → List (Char × Role)}
    {after : List Char} (hfront : front.IsChain Apart) (hjoins : ∀ m ∈ front.getLast?, Joins after m)
    (hafter : Keeps read after) : (front ++ read after).IsChain Apart := by
  refine List.isChain_append.2 ⟨hfront, hafter.chain, fun m hm n hn => (hjoins m hm).apart ?_⟩
  have hhead := congrArg List.head? hafter.text
  rw [List.head?_map, hn] at hhead
  exact hhead.symm

/-- Quotes that never close are left at the end of the text or of a line. -/
theorem quotedText_unfinished {mark : Char} {passed s after : List Char}
    (h : quotedText mark passed s = .error after) :
    (∃ inner, s = inner ++ after) ∧ after.head? ≠ some '=' := by
  fun_induction quotedText mark passed s with
  | case1 =>
      cases h
      exact ⟨⟨[], rfl⟩, by simp⟩
  | case2 =>
      cases h
      exact ⟨⟨['\\'], rfl⟩, by simp⟩
  | case3 passed behind =>
      cases h
      exact ⟨⟨['\\'], rfl⟩, by simp⟩
  | case4 passed c behind hc ih =>
      obtain ⟨⟨inner, rfl⟩, hhead⟩ := ih h
      exact ⟨⟨'\\' :: c :: inner, rfl⟩, hhead⟩
  | case5 => cases h
  | case6 passed c behind hbackslash hmark ih =>
      obtain ⟨⟨inner, rfl⟩, hhead⟩ := ih h
      exact ⟨⟨c :: inner, rfl⟩, hhead⟩

theorem behindQuotes_split {mark : Char} {rest : List Char} (hmark : mark = '"' ∨ mark = '\'')
    (hnone : token? mark rest = none) :
    (∃ inner, rest = inner ++ behindQuotes mark rest) ∧ (behindQuotes mark rest).head? ≠ some '=' := by
  have hquoted : quoted? mark rest = none := by
    rcases hmark with rfl | rfl
    · exact hnone
    · exact hnone
  unfold quoted? at hquoted
  unfold behindQuotes
  cases hread : quotedText mark [] rest with
  | ok found =>
      rw [hread] at hquoted
      cases hquoted
  | error after => exact quotedText_unfinished hread

theorem beginsComparison_elim {P : Char → Prop} {c : Char} (h : beginsComparison c = true) (hequal : P '=')
    (hnot : P '!') (hless : P '<') (hgreater : P '>') : P c := by
  simp only [beginsComparison, Bool.or_eq_true, beq_iff_eq] at h
  rcases h with ((rfl | rfl) | rfl) | rfl
  · exact hequal
  · exact hnot
  · exact hless
  · exact hgreater

/-- Where a comparison begins with an equals sign behind, it is taken. -/
theorem token?_comparison {c : Char} (h : beginsComparison c = true) (rest : List Char) :
    ∃ comparison, token? c ('=' :: rest) = some (.compare comparison, rest) :=
  beginsComparison_elim (P := fun c => ∃ comparison, token? c ('=' :: rest) = some (.compare comparison, rest)) h
    ⟨.equal, rfl⟩ ⟨.notEqual, rfl⟩ ⟨.lessEqual, rfl⟩ ⟨.greaterEqual, rfl⟩

section Words

variable {index : List Char → List (Char × Role)} (hindex : ∀ key, Keeps index key)

theorem not_mem_name {name : List Char} (hname : isIdentifier name = true) : '=' ∉ name ∧ '[' ∉ name := by
  have hparts := isIdentifierPart_of_isIdentifier hname
  exact ⟨fun hmem => absurd (hparts _ hmem) (by decide), fun hmem => absurd (hparts _ hmem) (by decide)⟩

theorem wordRoles_append {name : List Char} (h : '[' ∉ name) (rest : List Char) :
    wordRoles index (name ++ rest) = marked .other name ++ wordRoles index rest := by
  induction name with
  | nil => rfl
  | cons c name ih =>
      obtain ⟨hc, hname⟩ := List.forall_mem_cons.1 fun d hd (heq : d = '[') => h (heq ▸ hd)
      rw [List.cons_append, wordRoles, if_neg hc, ih fun hmem => hname _ hmem rfl]
      rfl

theorem wordRoles_plain (index : List Char → List (Char × Role)) {s : List Char} (h : '[' ∉ s) :
    wordRoles index s = marked .other s := by
  have happend : wordRoles index (s ++ []) = marked .other s ++ wordRoles index [] := wordRoles_append h []
  rw [List.append_nil, wordRoles, List.append_nil] at happend
  exact happend

theorem wordRoles_index {key : List Char} (h : ∀ c ∈ key, (c != ']') = true) (rest : List Char) :
    wordRoles index ('[' :: (key ++ ']' :: rest)) =
      ('[', .other) :: (index key ++ (']', .other) :: wordRoles index rest) := by
  have htake : (key ++ ']' :: rest).takeWhile (· != ']') = key := by
    rw [List.takeWhile_append_of_pos h]
    simp
  have hdrop : (key ++ ']' :: rest).dropWhile (· != ']') = ']' :: rest := by
    rw [List.dropWhile_append_of_pos h]
    simp
  rw [wordRoles, if_pos rfl, htake, hdrop, wordRoles, if_neg (by decide)]

include hindex

theorem map_fst_wordRoles (s : List Char) : (wordRoles index s).map Prod.fst = s := by
  fun_induction wordRoles index s with
  | case1 => rfl
  | case2 rest ih =>
      rw [List.map_cons, List.map_append, (hindex _).text, ih, List.takeWhile_append_dropWhile]
  | case3 c rest hc ih => rw [List.map_cons, ih]

theorem head_wordRoles (accesses : List Access) :
    ∀ n ∈ (wordRoles index (accessText accesses)).head?, n.1 ≠ '=' := by
  intro n hn heq
  have hhead := congrArg List.head? (map_fst_wordRoles hindex (accessText accesses))
  rw [List.head?_map, hn, Option.map_some, heq] at hhead
  rcases accesses with _ | ⟨_ | _, _⟩
  · cases hhead
  · cases hhead
  · cases hhead

theorem isChain_accessText {accesses : List Access} (htaken : accesses.all isTaken = true) :
    (wordRoles index (accessText accesses)).IsChain Apart := by
  induction accesses with
  | nil =>
      rw [accessText, List.flatMap_nil, wordRoles]
      exact List.isChain_nil
  | cons access accesses ih =>
      obtain ⟨haccess, hothers⟩ := Bool.and_eq_true_iff.1 htaken
      have hrest := ih hothers
      have hhead := head_wordRoles hindex accesses
      rw [accessText_cons]
      cases access with
      | member name =>
          obtain ⟨hequals, hbracket⟩ := not_mem_name haccess
          have hmember : '=' ∉ '.' :: name := List.not_mem_cons_of_ne_of_not_mem (by decide) hequals
          rw [Access.text, wordRoles_append (List.not_mem_cons_of_ne_of_not_mem (by decide) hbracket)]
          exact isChain_append_of_ne (isChain_marked_of_not_mem .other hmember) hrest hhead
      | index key gap =>
          obtain ⟨hkey, hgap⟩ := Bool.and_eq_true_iff.1 haccess
          have hbehind : ((']', Role.other) :: wordRoles index (accessText accesses)).IsChain Apart :=
            List.isChain_cons.2 ⟨fun n _ => apart_of_plain rfl n, hrest⟩
          have hinside := isChain_append_of_ne (hindex key).chain hbehind fun n hn => by
            cases hn
            decide
          rw [List.isEmpty_iff.1 hgap, Access.text, List.cons_append, List.append_assoc, List.singleton_append,
            wordRoles_index (List.all_eq_true.1 hkey)]
          exact List.isChain_cons.2 ⟨fun n _ => apart_of_plain rfl n, hinside⟩

/-- No equals sign stands in a word outside its brackets. -/
theorem isChain_wordRoles {source : List Char} (h : IsWordText source) : (wordRoles index source).IsChain Apart := by
  obtain ⟨name, accesses, hname, htaken, rfl⟩ := h
  obtain ⟨hequals, hbracket⟩ := not_mem_name hname
  rw [wordRoles_append hbracket]
  exact isChain_append_of_ne (isChain_marked_of_not_mem .other hequals) (isChain_accessText hindex htaken)
    (head_wordRoles hindex accesses)

theorem map_fst_tokenRoles (source : List Char) (token : Token) :
    (tokenRoles index source token).map Prod.fst = source := by
  unfold tokenRoles
  split
  · exact map_fst_wordRoles hindex source
  · exact map_fst_marked _ source

theorem isChain_tokenRoles {source after : List Char} {token : Token} (h : Spells source after token) :
    (tokenRoles index source token).IsChain Apart := by
  by_cases hrole : token.role = .other
  · rw [tokenRoles, if_pos hrole]
    cases h with
    | number value begins ends => cases hrole
    | word begins ends text => exact isChain_wordRoles hindex text
    | quoted text hmark begins ends => cases hrole
    | sign hmem =>
        have hsigns : ∀ entry ∈ signs, entry.2.role = .other → '=' ∉ entry.1 ∧ '[' ∉ entry.1 := by decide
        obtain ⟨hequals, hbracket⟩ := hsigns _ hmem hrole
        rw [wordRoles_plain index hbracket]
        exact isChain_marked_of_not_mem .other hequals
  · rw [tokenRoles, if_neg hrole]
    exact isChain_marked hrole source

/-- A token that ends like the beginning of a comparison is a comparison, if an equals sign follows. -/
theorem joins_tokenRoles {c : Char} {rest source after : List Char} {token : Token}
    (htoken : token? c rest = some (token, after)) (hsource : c :: rest = source ++ after)
    (h : Spells source after token) : ∀ m ∈ (tokenRoles index source token).getLast?, Joins after m := by
  intro m hm hafter hcomparison
  have hlast : source.getLast? = some m.1 := by
    have hfst := congrArg List.getLast? (map_fst_tokenRoles hindex source token)
    rw [List.getLast?_map, hm] at hfst
    exact hfst.symm
  cases h with
  | number value begins ends =>
      have hdigit := ends m.1 hlast
      rw [beginsComparison_elim (P := fun c => isAsciiDigit c = false) hcomparison rfl rfl rfl rfl] at hdigit
      cases hdigit
  | word begins ends text =>
      rcases ends with hbracket | ⟨-, front, name, rfl, hidentifier, -⟩
      · rw [← Option.some.inj (hbracket.symm.trans hlast)] at hcomparison
        cases hcomparison
      · have hmem : m.1 ∈ name := by
          have hne : name ≠ [] := by
            rintro rfl
            cases hidentifier
          rw [List.getLast?_append_of_ne_nil _ hne] at hlast
          exact List.mem_of_getLast? hlast
        have hpart := isIdentifierPart_of_isIdentifier hidentifier _ hmem
        rw [beginsComparison_elim (P := fun c => isIdentifierPart c = false) hcomparison rfl rfl rfl rfl] at hpart
        cases hpart
  | quoted text hmark begins ends =>
      rw [← Option.some.inj (ends.symm.trans hlast)] at hcomparison
      rcases hmark with rfl | rfl
      · cases hcomparison
      · cases hcomparison
  | sign hmem =>
      have hsigns : ∀ entry ∈ signs, entry.1.getLast?.any beginsComparison = true →
          entry.1.getLast? = some '=' ∧ entry.2.role = .comparison ∨ entry.1.length = 1 := by decide
      have hends : source.getLast?.any beginsComparison = true := by rw [hlast, Option.any_some, hcomparison]
      rcases hsigns _ hmem hends with ⟨hequal, hrole⟩ | hlength
      · have hmarked := List.mem_of_getLast? hm
        rw [tokenRoles, hrole, if_neg (by decide)] at hmarked
        obtain ⟨d, -, rfl⟩ := List.mem_map.1 hmarked
        exact Prod.ext (Option.some.inj (hlast.symm.trans hequal)) rfl
      · -- the longer sign would have been taken
        obtain ⟨more, rfl⟩ := List.head?_eq_some_iff.1 hafter
        obtain ⟨d, hone⟩ := List.length_eq_one_iff.1 hlength
        obtain rfl : source = [d] := hone
        obtain rfl : d = m.1 := Option.some.inj hlast
        obtain ⟨rfl, rfl⟩ := List.cons.inj hsource
        obtain ⟨comparison, hfound⟩ := token?_comparison hcomparison more
        have hcut := congrArg Prod.snd (Option.some.inj (htoken.symm.trans hfound))
        exact absurd hcut (List.cons_ne_self _ _)

theorem map_fst_rolesWith (s : List Char) : (rolesWith index s).map Prod.fst = s := by
  fun_induction rolesWith index s with
  | case1 => rfl
  | case2 c rest token after htoken ih =>
      obtain ⟨source, hsource, -, -⟩ := token?_split htoken
      rw [List.map_append, ih, hsource, cutOff_append, map_fst_tokenRoles hindex]
  | case3 c rest htoken hmark ih =>
      obtain ⟨⟨inner, hinner⟩, -⟩ := behindQuotes_split hmark htoken
      have hsource : c :: rest = (c :: inner) ++ behindQuotes c rest := congrArg (c :: ·) hinner
      rw [List.map_append, ih, map_fst_marked, hsource, cutOff_append]
  | case4 c rest htoken hmark ih => rw [List.map_cons, ih]

theorem isChain_rolesWith (s : List Char) : (rolesWith index s).IsChain Apart := by
  fun_induction rolesWith index s with
  | case1 => exact List.isChain_nil
  | case2 c rest token after htoken ih =>
      obtain ⟨source, hsource, -, hspells⟩ := token?_split htoken
      rw [hsource, cutOff_append]
      exact isChain_append_of_joins (isChain_tokenRoles hindex hspells)
        (joins_tokenRoles hindex htoken hsource hspells) ⟨map_fst_rolesWith hindex after, ih⟩
  | case3 c rest htoken hmark ih =>
      obtain ⟨-, hhead⟩ := behindQuotes_split hmark htoken
      exact isChain_append_of_joins (isChain_marked (by decide) _) (fun m _ hafter => absurd hafter hhead)
        ⟨map_fst_rolesWith hindex _, ih⟩
  | case4 c rest htoken hmark ih =>
      refine isChain_append_of_joins (List.isChain_singleton (c, Role.other)) (fun m hm hafter hcomparison => ?_)
        ⟨map_fst_rolesWith hindex rest, ih⟩
      cases hm
      obtain ⟨more, rfl⟩ := List.head?_eq_some_iff.1 hafter
      obtain ⟨comparison, hfound⟩ := token?_comparison hcomparison more
      cases htoken.symm.trans hfound

theorem keeps_rolesWith (s : List Char) : Keeps (rolesWith index) s :=
  ⟨map_fst_rolesWith hindex s, isChain_rolesWith hindex s⟩

end Words

theorem rolesWith_token {index : List Char → List (Char × Role)} {c : Char} {rest source after : List Char}
    {token : Token} (htoken : token? c rest = some (token, after)) (hsource : c :: rest = source ++ after)
    (hbracket : '[' ∉ source) :
    rolesWith index (c :: rest) = marked token.role source ++ rolesWith index after := by
  have hread : tokenRoles index source token = marked token.role source := by
    unfold tokenRoles
    split
    next hrole => rw [wordRoles_plain index hbracket, hrole]
    next => rfl
  rw [rolesWith]
  split
  next found behind heq =>
    cases htoken.symm.trans heq
    rw [hsource, cutOff_append, hread]
  next heq => cases htoken.symm.trans heq

theorem rolesWith_other {index : List Char → List (Char × Role)} {c : Char} {rest : List Char}
    (hnone : token? c rest = none) (hmark : ¬ (c = '"' ∨ c = '\'')) :
    rolesWith index (c :: rest) = (c, .other) :: rolesWith index rest := by
  rw [rolesWith]
  split
  next heq => cases hnone.symm.trans heq
  next => exact if_neg hmark

/-- The roles are those of all characters, and what stands next to one another is kept apart. -/
theorem keeps_roles (s : List Char) : Keeps roles s :=
  keeps_rolesWith (fun key => keeps_rolesWith (keeps_marked (by decide)) key) s

end Formula

end Stencil
