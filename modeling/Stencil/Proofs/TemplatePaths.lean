import Stencil.Proofs.Disk.Confinement
import Stencil.Proofs.Disk.PlainPaths
import Stencil.Proofs.Disk.Trees

/-!
Which file a path of a template leads to. The paths that are tried lead below the directory that templates are
looked for in, so that on a tree the gate looks at their texts alone. A template is found at the first of them
that it lies at unless the gate refuses an earlier one, and what it refuses shows in the path that was given.
-/

namespace Stencil

open Disk

namespace Disk

variable {disk : Disk} {base path ending : String}

theorem isAbsolute_append (h : isAbsolute path = false) (hending : isAbsolute ending = false) :
    isAbsolute (path ++ ending) = false := by
  unfold isAbsolute at h hending ⊢
  rw [String.toList_append]
  cases hpath : path.toList with
  | nil => exact hending
  | cons first rest =>
      rw [hpath] at h
      exact h

/-- The ending for templates is a name of its own behind the names of a directory. -/
theorem names_append_html (h : endsInDirectory path = true) :
    ∃ name, name ≠ ".." ∧ names (path ++ ".html") = names path ++ [name] := by
  have hsplit {front ending : List Char} (hpath : path.toList = front ++ '/' :: ending) :
      names (path ++ ".html") = names (String.ofList front) ++ names (String.ofList (ending ++ ".html".toList)) ∧
        names path = names (String.ofList front) ++ names (String.ofList ending) := by
    constructor
    · apply names_append_slash
      rw [String.toList_append, hpath, List.append_assoc, List.cons_append]
      exact congrArg (front ++ '/' :: ·) String.toList_ofList.symm
    · apply names_append_slash
      rw [hpath, String.toList_ofList]
  unfold endsInDirectory at h
  split at h
  next before hbefore =>
    obtain ⟨hwhole, hpath⟩ := @hsplit before.reverse [] (by simpa using congrArg List.reverse hbefore)
    exact ⟨".html", by decide, by rw [hwhole, hpath, List.append_assoc]; rfl⟩
  next before hbefore =>
    obtain ⟨hwhole, hpath⟩ := @hsplit before.reverse ['.'] (by simpa using congrArg List.reverse hbefore)
    exact ⟨"..html", by decide, by rw [hwhole, hpath, List.append_assoc]; rfl⟩
  next hpoint =>
    obtain rfl : path = "." := String.toList_injective (by simpa using congrArg List.reverse hpoint)
    exact ⟨"..html", by decide, by decide +kernel⟩
  next => cases h

theorem endsInDirectory_eq_false {before : List Char} {c : Char} (h : path.toList = before ++ [c])
    (hc : c ≠ '/' ∧ c ≠ '.') : endsInDirectory path = false := by
  unfold endsInDirectory
  rw [h, List.reverse_append, List.reverse_singleton, List.singleton_append]
  split <;> simp_all

theorem append_html_ne : path ++ ".html" ≠ path := by
  intro heq
  have hlength := congrArg String.length heq
  rw [String.length_append] at hlength
  have hending : ".html".length = 5 := by decide
  omega

theorem join_default_ne : join path "default.html" ≠ path := by
  intro heq
  have hlength := congrArg (fun path => (names path).length) heq
  have hname : (names "default.html").length = 1 := by decide +kernel
  rw [names_join (by decide), List.length_append] at hlength
  omega

/-- One path leads below another: it starts from where that one does and with its names. -/
structure Below (base path : String) : Prop where
  start : isAbsolute path = isAbsolute base
  names : ∃ more, names path = names base ++ more

theorem below_join (h : isAbsolute path = false) : Below base (join base path) :=
  ⟨isAbsolute_join h, Disk.names path, names_join h⟩

theorem Below.trans {inner : String} (h : Below base path) (h' : Below path inner) : Below base inner := by
  obtain ⟨more, hmore⟩ := h.names
  obtain ⟨further, hfurther⟩ := h'.names
  exact ⟨h'.start.trans h.start, more ++ further, by rw [hfurther, hmore, List.append_assoc]⟩

end Disk

namespace Gate

variable {security : Security} {disk : Disk} {base path : String} {location : Location}

theorem checkFilePath_eq_ok_iff : checkFilePath security disk path = .ok location ↔
    IsPlain path.toList ∧ allowsExtension security ((extension? path).getD "") = true ∧
      disk.location? path = some location ∧ isBelowRoot security disk location = true := by
  constructor
  · intro h
    refine ⟨hiddenFlaw?_eq_none_iff.1 ?_, of_checkFilePath h⟩
    unfold checkFilePath at h
    split at h
    · cases h
    next hnone => exact hnone
  · rintro ⟨hplain, hallowed, hlocation, hbelow⟩
    obtain ⟨root, hroot, -⟩ := List.any_eq_true.1 hbelow
    have hroots : security.allowedRoots.isEmpty = false :=
      List.isEmpty_eq_false_iff.2 (List.ne_nil_of_mem hroot)
    unfold checkFilePath
    rw [hiddenFlaw?_eq_none_iff.2 hplain, hallowed, hroots, hlocation, Option.filter_some, if_pos hbelow]
    rfl

/-- What the gate asks of the text of a path. -/
structure Passes (security : Security) (path : String) : Prop where
  plain : IsPlain path.toList
  allowed : allowsExtension security ((extension? path).getD "") = true

/-- Below a directory below an allowed root the gate looks at the text of a path alone. -/
theorem checkFilePath_below_iff (tree : disk.IsTree)
    (hroot : (disk.location? base).any (isBelowRoot security disk) = true) (hbelow : Below base path) :
    checkFilePath security disk path = .ok location ↔
      Passes security path ∧ location = disk.origin path ++ names path := by
  rw [checkFilePath_eq_ok_iff]
  constructor
  · rintro ⟨hplain, hallowed, hlocation, -⟩
    rw [tree.location?_eq (up_not_mem_names hplain)] at hlocation
    exact ⟨⟨hplain, hallowed⟩, (Option.some.inj hlocation).symm⟩
  · rintro ⟨⟨hplain, hallowed⟩, rfl⟩
    have hup := up_not_mem_names hplain
    refine ⟨hplain, hallowed, tree.location?_eq hup, ?_⟩
    obtain ⟨more, hmore⟩ := hbelow.names
    rw [hmore, List.mem_append, not_or] at hup
    rw [tree.location?_eq hup.1, Option.any_some] at hroot
    have horigin : disk.origin path = disk.origin base := by
      unfold origin
      rw [hbelow.start]
    have hprefix : disk.origin base ++ names base <+: disk.origin path ++ names path := by
      rw [horigin, hmore, ← List.append_assoc]
      exact List.prefix_append ..
    obtain ⟨root, hmem, hleads⟩ := List.any_eq_true.1 hroot
    obtain ⟨above, habove, hstands⟩ := (Option.any_eq_true _ _).1 hleads
    apply List.any_eq_true.2
    refine ⟨root, hmem, (Option.any_eq_true _ _).2 ⟨above, habove, ?_⟩⟩
    exact List.isPrefixOf_iff_prefix.2 ((List.isPrefixOf_iff_prefix.1 hstands).trans hprefix)

end Gate

namespace Template

open Gate

variable {security : Security} {settings : Settings} {disk : Disk} {base path candidate : String}
  {location : Location} {isPage : Bool}

/-- The directory that pages or components are looked for in. -/
def baseOf (places : Places) (isPage : Bool) : String := if isPage then places.pages else places.components

/-- Whether a template lies at a path: a file with an allowed extension. -/
def isTemplate (security : Security) (disk : Disk) (path : String) : Bool :=
  allowsExtension security ((extension? path).getD "") && (disk.fileAt? path).isSome

theorem mem_candidates (h : candidate ∈ candidates base path) : candidate = join base path ∨
    candidate = join base path ++ ".html" ∨ candidate = join (join base path) "default.html" := by
  rcases List.mem_append.1 h with hgiven | hadded
  · split at hgiven
    · exact .inl (List.mem_singleton.1 hgiven)
    · cases hgiven
  · right
    simpa using hadded

theorem below_of_mem_candidates (h : isAbsolute path = false) (hmem : candidate ∈ candidates base path) :
    Below base candidate := by
  have hending := isAbsolute_append h (show isAbsolute ".html" = false by decide)
  rcases mem_candidates hmem with rfl | rfl | rfl
  · exact below_join h
  · rw [join_append h hending]
    exact below_join hending
  · exact (below_join h).trans (below_join (by decide))

/-- A search comes to a path that a file is at if all paths before it pass the gate and lead to none. -/
theorem firstFile?_append_iff {earlier later : List String}
    (hmissing : ∀ path ∈ earlier, ∀ found, checkFilePath security disk path = .ok found →
      (disk.file? found).isSome = false)
    (hfile : ∀ found, checkFilePath security disk candidate = .ok found → (disk.file? found).isSome = true) :
    firstFile? security disk (earlier ++ candidate :: later) = .ok (some location) ↔
      (∀ path ∈ earlier, ∃ found, checkFilePath security disk path = .ok found) ∧
        checkFilePath security disk candidate = .ok location := by
  induction earlier with
  | nil =>
      rw [List.nil_append, firstFile?]
      rcases hcheck : checkFilePath security disk candidate with fault | found
      · constructor
        · intro h
          cases h
        · rintro ⟨-, h⟩
          cases h
      · change (if (disk.file? found).isSome = true then Except.ok (some found) else _) = _ ↔ _
        rw [if_pos (hfile found hcheck)]
        simp
  | cons path earlier ih =>
      rw [List.forall_mem_cons] at hmissing
      rw [List.cons_append, firstFile?, List.forall_mem_cons]
      rcases hcheck : checkFilePath security disk path with fault | found
      · constructor
        · intro h
          cases h
        · rintro ⟨⟨⟨_, h⟩, -⟩, -⟩
          cases h
      · change (if (disk.file? found).isSome = true then Except.ok (some found) else _) = _ ↔ _
        rw [hmissing.1 found hcheck, if_neg Bool.false_ne_true, ih hmissing.2]
        simp

/-- A file is found exactly if the search comes to it. -/
theorem locate_eq_ok_iff : locate settings disk path isPage = .ok location ↔
    firstFile? settings.security disk (candidates (baseOf settings.places isPage) path) = .ok (some location) := by
  unfold locate baseOf
  dsimp only
  rcases firstFile? settings.security disk _ with fault | found
  · constructor
    · intro h
      cases h
    · intro h
      cases h
  · cases found with
    | none =>
        constructor
        · intro h
          cases h
        · intro h
          cases h
    | some found =>
        constructor
        · intro h
          cases h
          rfl
        · intro h
          cases h
          rfl

/-- Of the paths that are tried, the one that is given alone can ask for a directory. -/
theorem eq_join_of_endsInDirectory (hmem : candidate ∈ candidates base path)
    (h : endsInDirectory candidate = true) : candidate = join base path := by
  have hending {whole : String} (hwhole : ∃ before, whole.toList = before ++ ['l']) :
      endsInDirectory whole = false := by
    obtain ⟨before, hbefore⟩ := hwhole
    exact endsInDirectory_eq_false hbefore (by decide)
  rcases mem_candidates hmem with heq | heq | heq
  · exact heq
  · have hlast : ∃ before, candidate.toList = before ++ ['l'] := by
      refine ⟨(join base path).toList ++ ".htm".toList, ?_⟩
      rw [heq, String.toList_append, List.append_assoc]
      rfl
    rw [hending hlast] at h
    cases h
  · have hlast : ∃ before, candidate.toList = before ++ ['l'] := by
      obtain ⟨before, hbefore⟩ := toList_join (join base path) "default.html"
      refine ⟨before ++ "default.htm".toList, ?_⟩
      rw [heq, hbefore, List.append_assoc]
      rfl
    rw [hending hlast] at h
    cases h

/-- If the path that is given asks for a directory, the others lead into it. -/
theorem names_of_endsInDirectory (h : endsInDirectory (join base path) = true)
    (hmem : candidate ∈ candidates base path) (hne : candidate ≠ join base path) :
    ∃ name, name ≠ ".." ∧ names candidate = names (join base path) ++ [name] := by
  rcases mem_candidates hmem with rfl | rfl | rfl
  · exact absurd rfl hne
  · exact names_append_html h
  · exact ⟨"default.html", by decide, names_join (by decide)⟩

/-- No file is at the location of a path before the first one that a template lies at: there is one only if the
path asks for a directory, and then the other paths lead into it. -/
theorem missing_of_not_isTemplate (tree : disk.IsTree) (h : isAbsolute path = false) {other : String}
    (hmem : candidate ∈ candidates base path) (hother : other ∈ candidates base path)
    (hcandidate : isTemplate security disk candidate = true) (hnot : isTemplate security disk other = false)
    (hpasses : Passes security other) :
    (disk.file? (disk.origin other ++ names other)).isSome = false := by
  have hup := up_not_mem_names hpasses.plain
  by_contra hpresent
  rw [Bool.not_eq_false] at hpresent
  have hdirectory : endsInDirectory other = true := by
    rw [isTemplate, hpasses.allowed, Bool.true_and] at hnot
    by_contra hopen
    rw [(tree.fileAt?_isSome_iff hup).2 ⟨hpresent, Bool.eq_false_iff.2 hopen⟩] at hnot
    cases hnot
  obtain rfl := eq_join_of_endsInDirectory hother hdirectory
  have hne : candidate ≠ join base path := by
    rintro rfl
    rw [hcandidate] at hnot
    cases hnot
  obtain ⟨name, hname, hnames⟩ := names_of_endsInDirectory hdirectory hmem hne
  have hinside : ".." ∉ names candidate := by
    rw [hnames, List.mem_append, List.mem_singleton, not_or]
    exact ⟨hup, hname.symm⟩
  have horigin : disk.origin candidate = disk.origin (join base path) := by
    unfold origin
    rw [(below_of_mem_candidates h hmem).start, isAbsolute_join h]
  obtain ⟨-, hfile⟩ := existing?_of_fileAt? hinside (Bool.and_eq_true_iff.1 hcandidate).2
  rw [horigin, hnames, ← List.append_assoc] at hfile
  have habove := tree.above _ name (by rw [isTaken, hfile, Bool.or_true])
  rw [tree.apart _ hpresent] at habove
  cases habove

/-- The first template is found exactly if all paths up to its own pass the gate. -/
theorem locate_iff_passes (tree : disk.IsTree) (hrelative : isAbsolute path = false)
    (hroot : (disk.location? (baseOf settings.places isPage)).any (isBelowRoot settings.security disk) = true)
    {earlier later : List String}
    (hsplit : candidates (baseOf settings.places isPage) path = earlier ++ candidate :: later)
    (hcandidate : isTemplate settings.security disk candidate = true)
    (hearlier : ∀ other ∈ earlier, isTemplate settings.security disk other = false) :
    (∃ location, disk.existing? candidate = some location ∧ locate settings disk path isPage = .ok location) ↔
      (∀ other ∈ earlier, Passes settings.security other) ∧ Passes settings.security candidate := by
  have hmem : ∀ other ∈ earlier ++ [candidate], other ∈ candidates (baseOf settings.places isPage) path := by
    intro other hother
    rw [hsplit, List.append_cons]
    exact List.mem_append_left _ hother
  rw [List.forall_mem_append, List.forall_mem_singleton] at hmem
  have hcheck {other : String} (hother : other ∈ candidates (baseOf settings.places isPage) path)
      {found : Location} : checkFilePath settings.security disk other = .ok found ↔
        Passes settings.security other ∧ found = disk.origin other ++ names other :=
    checkFilePath_below_iff tree hroot (below_of_mem_candidates hrelative hother)
  have hexisting (hpasses : Passes settings.security candidate) :=
    existing?_of_fileAt? (up_not_mem_names hpasses.plain) (Bool.and_eq_true_iff.1 hcandidate).2
  have hsearch {location : Location} : locate settings disk path isPage = .ok location ↔
      (∀ other ∈ earlier, ∃ found, checkFilePath settings.security disk other = .ok found) ∧
        checkFilePath settings.security disk candidate = .ok location := by
    rw [locate_eq_ok_iff, hsplit]
    apply firstFile?_append_iff
    · intro other hother found hfound
      obtain ⟨hpasses, rfl⟩ := (hcheck (hmem.1 other hother)).1 hfound
      exact missing_of_not_isTemplate tree hrelative hmem.2 (hmem.1 other hother) hcandidate
        (hearlier other hother) hpasses
    · intro found hfound
      obtain ⟨hpasses, rfl⟩ := (hcheck hmem.2).1 hfound
      exact (hexisting hpasses).2
  have hbefore : (∀ other ∈ earlier, ∃ found, checkFilePath settings.security disk other = .ok found) ↔
      ∀ other ∈ earlier, Passes settings.security other := by
    refine forall₂_congr fun other hother => ?_
    simp only [hcheck (hmem.1 other hother), exists_and_left, exists_eq, and_true]
  constructor
  · rintro ⟨location, -, hlocate⟩
    obtain ⟨hothers, hhere⟩ := hsearch.1 hlocate
    exact ⟨hbefore.1 hothers, ((hcheck hmem.2).1 hhere).1⟩
  · rintro ⟨hothers, hhere⟩
    refine ⟨_, (hexisting hhere).1, hsearch.2 ⟨hbefore.2 hothers, (hcheck hmem.2).2 ⟨hhere, rfl⟩⟩⟩

/-- What lets a search go on behind a path as it is given: an extension that it has is allowed, it ends in no point,
and no extension is needed where the ending for templates would be a name of its own. -/
structure GoesOn (security : Security) (base path : String) : Prop where
  given : ∀ extension, extension? (join base path) = some extension → allowsExtension security extension = true
  unpointed : path.toList.getLast? ≠ some '.'
  named : endsOpen path = true → allowsExtension security "" = true

/-- The paths that are tried before a directory is looked into pass the gate exactly if the search goes on. -/
theorem passes_iff_goesOn (hrelative : isAbsolute path = false) (hplain : IsPlain path.toList)
    (hending : endsOpen path = false → allowsExtension security "html" = true) :
    ((extension? (join base path)).isSome = true → Passes security (join base path)) ∧
        Passes security (join base path ++ ".html") ↔
      IsPlain base.toList ∧ GoesOn security base path := by
  have hbase : IsPlain (join base path).toList ↔ IsPlain base.toList := by
    rw [isPlain_join hrelative]
    exact and_iff_left hplain
  have htext : IsPlain (join base path ++ ".html").toList ↔
      IsPlain base.toList ∧ path.toList.getLast? ≠ some '.' := by
    have hhtml : IsPlain ['h', 't', 'm', 'l'] := hiddenFlaw?_eq_none_iff.1 (by decide +kernel)
    have hsplit : (join base path ++ ".html").toList = (join base path).toList ++ '.' :: ['h', 't', 'm', 'l'] := by
      rw [String.toList_append]
      rfl
    rw [hsplit, isPlain_append_cons_iff (.inr rfl), hbase, Ne, (getLast?_join hrelative).2]
    have hhead : ['h', 't', 'm', 'l'].head? ≠ some '.' := by decide
    tauto
  have hextension : extension? (join base path ++ ".html") = if endsOpen path then none else some "html" := by
    rw [extension?_html, (getLast?_join hrelative).1]
  constructor
  · rintro ⟨hgiven, hhtml⟩
    obtain ⟨hplain, hpoint⟩ := htext.1 hhtml.plain
    refine ⟨hplain, fun extension hsome => ?_, hpoint, fun hopen => ?_⟩
    · have hallowed := (hgiven (by rw [hsome]; rfl)).allowed
      rw [hsome] at hallowed
      exact hallowed
    · have hallowed := hhtml.allowed
      rw [hextension, hopen] at hallowed
      exact hallowed
  · rintro ⟨hplain, hgiven, hpoint, hnamed⟩
    refine ⟨fun hsome => ⟨hbase.2 hplain, ?_⟩, htext.2 ⟨hplain, hpoint⟩, ?_⟩
    · obtain ⟨extension, hextension⟩ := Option.isSome_iff_exists.1 hsome
      rw [hextension]
      exact hgiven extension hextension
    · rw [hextension]
      cases hopen : endsOpen path with
      | true => exact hnamed hopen
      | false => exact hending hopen

/-- What the paths before one of them are. -/
theorem forall_earlier_iff (P : String → Prop) {earlier later : List String}
    (h : candidates base path = earlier ++ candidate :: later) :
    earlier = [] ∧ (extension? (join base path)).isSome = true ∧ candidate = join base path ∨
      candidate = join base path ++ ".html" ∧
        ((∀ other ∈ earlier, P other) ↔ ((extension? (join base path)).isSome = true → P (join base path))) ∨
      candidate = join (join base path) "default.html" ∧
        ((∀ other ∈ earlier, P other) ↔ ((extension? (join base path)).isSome = true → P (join base path)) ∧
          P (join base path ++ ".html")) := by
  unfold candidates at h
  dsimp only at h
  cases hextension : (extension? (join base path)).isSome with
  | true =>
      rw [hextension, if_pos rfl] at h
      match earlier with
      | [] =>
          obtain ⟨rfl, -⟩ := List.cons.inj h
          exact .inl ⟨rfl, rfl, rfl⟩
      | [first] =>
          obtain ⟨rfl, hrest⟩ := List.cons.inj h
          obtain ⟨rfl, -⟩ := List.cons.inj hrest
          exact .inr (.inl ⟨rfl, by simp⟩)
      | [first, second] =>
          obtain ⟨rfl, hrest⟩ := List.cons.inj h
          obtain ⟨rfl, hlast⟩ := List.cons.inj hrest
          obtain ⟨rfl, -⟩ := List.cons.inj hlast
          exact .inr (.inr ⟨rfl, by simp⟩)
      | first :: second :: third :: more => simp at h
  | false =>
      rw [hextension, if_neg Bool.false_ne_true, List.nil_append] at h
      match earlier with
      | [] =>
          obtain ⟨rfl, -⟩ := List.cons.inj h
          exact .inr (.inl ⟨rfl, by simp⟩)
      | [first] =>
          obtain ⟨rfl, hrest⟩ := List.cons.inj h
          obtain ⟨rfl, -⟩ := List.cons.inj hrest
          exact .inr (.inr ⟨rfl, by simp⟩)
      | first :: second :: more => simp at h

/-- Where a template lies at one of the paths that are tried, the file of the first such path is found exactly if
the directory they lead below hides nothing and either the template lies at the path as it is given or the
search goes on behind that path. -/
theorem locate_first_iff (tree : disk.IsTree)
    (hroot : (disk.location? (baseOf settings.places isPage)).any (isBelowRoot settings.security disk) = true)
    (hrelative : isAbsolute path = false) (hflaw : hiddenFlaw? path.toList = none)
    (hfirst : (candidates (baseOf settings.places isPage) path).find? (isTemplate settings.security disk) =
      some candidate) :
    (∃ location, disk.existing? candidate = some location ∧ locate settings disk path isPage = .ok location) ↔
      hiddenFlaw? (baseOf settings.places isPage).toList = none ∧
        (candidate = join (baseOf settings.places isPage) path ∨
          GoesOn settings.security (baseOf settings.places isPage) path) := by
  obtain ⟨hcandidate, earlier, later, hsplit, hothers⟩ := List.find?_eq_some_iff_append.1 hfirst
  have hplain := hiddenFlaw?_eq_none_iff.1 hflaw
  have hallowed := (Bool.and_eq_true_iff.1 hcandidate).1
  have hjoined : IsPlain (join (baseOf settings.places isPage) path).toList ↔
      IsPlain (baseOf settings.places isPage).toList := by
    rw [isPlain_join hrelative]
    exact and_iff_left hplain
  rw [locate_iff_passes tree hrelative hroot hsplit hcandidate (by simpa using hothers), hiddenFlaw?_eq_none_iff]
  rcases forall_earlier_iff (Passes settings.security) hsplit with
    ⟨rfl, -, rfl⟩ | ⟨rfl, hearlier⟩ | ⟨rfl, hearlier⟩
  · constructor
    · rintro ⟨-, hhere⟩
      exact ⟨hjoined.1 hhere.plain, .inl rfl⟩
    · rintro ⟨hbase, -⟩
      exact ⟨fun other hother => absurd hother List.not_mem_nil, hjoined.2 hbase, hallowed⟩
  · have hending : endsOpen path = false → allowsExtension settings.security "html" = true := by
      intro hclosed
      rw [extension?_html, (getLast?_join hrelative).1, hclosed] at hallowed
      exact hallowed
    rw [hearlier, passes_iff_goesOn hrelative hplain hending, or_iff_right append_html_ne]
  · rw [extension?_default] at hallowed
    rw [hearlier, passes_iff_goesOn hrelative hplain fun _ => hallowed, or_iff_right join_default_ne]
    apply and_iff_left_of_imp
    rintro ⟨hbase, -⟩
    have hdefault : IsPlain "default.html".toList := hiddenFlaw?_eq_none_iff.1 (by decide +kernel)
    exact ⟨(isPlain_join (by decide)).2 ⟨hjoined.2 hbase, hdefault⟩, by rw [extension?_default]; exact hallowed⟩

/-- A directory with a default template in it, and no page of its name. -/
theorem locate_first_directory :
    let settings := ({} : Settings).withTemplateRoot "/t"
    let disk : Disk := {
      files := [(["t", "blog", "default.html"], ⟨some "posts", 1⟩)]
      directories := [["t"], ["t", "blog"]] }
    ∃ location, disk.existing? "/t/blog/default.html" = some location ∧
      locate settings disk "blog" true = .ok location := by
  intro settings disk
  have hroot : (disk.location? (baseOf settings.places true)).any (isBelowRoot settings.security disk) = true := by
    decide +kernel
  have hfirst : (candidates (baseOf settings.places true) "blog").find? (isTemplate settings.security disk) =
      some "/t/blog/default.html" := by
    decide +kernel
  have hgoes : GoesOn settings.security (baseOf settings.places true) "blog" := by
    have hextension : extension? (join (baseOf settings.places true) "blog") = none := by decide +kernel
    refine ⟨fun extension hsome => ?_, by decide, fun hopen => absurd hopen (by decide)⟩
    rw [hextension] at hsome
    cases hsome
  have hplain : hiddenFlaw? (baseOf settings.places true).toList = none := by decide +kernel
  exact (locate_first_iff (by decide) hroot (by decide) (by decide +kernel) hfirst).2 ⟨hplain, .inr hgoes⟩

/-- A point in the last name of a path makes an extension of what follows it, and the gate refuses the path as it is
given before the file behind the ending for templates is looked for. -/
theorem not_locate_first :
    ¬ ∀ (settings : Settings) (disk : Disk) (isPage : Bool) (path candidate : String), disk.IsTree →
      (disk.location? (baseOf settings.places isPage)).any (isBelowRoot settings.security disk) = true →
      isAbsolute path = false → hiddenFlaw? path.toList = none →
      (candidates (baseOf settings.places isPage) path).find? (isTemplate settings.security disk) = some candidate →
      ∃ location, disk.existing? candidate = some location ∧ locate settings disk path isPage = .ok location := by
  intro hclaim
  let settings := ({} : Settings).withTemplateRoot "/t"
  let disk : Disk := { files := [(["t", "v1.2.html"], ⟨some "notes", 1⟩)], directories := [["t"]] }
  have refused : locate settings disk "v1.2" true = .error (.unsafeFilePath "/t/v1.2" .extension) := by
    decide +kernel
  obtain ⟨location, -, hfound⟩ := hclaim settings disk true "v1.2" "/t/v1.2.html" (by decide)
    (by decide +kernel) (by decide) (by decide +kernel) (by decide +kernel)
  rw [refused] at hfound
  cases hfound

end Template

end Stencil
