import Mathlib.Data.List.Induction
import Mathlib.Data.List.Nodup
import Stencil.Proofs.Folding
import Stencil.Proofs.Rendering.Likeness

/-!
What a store of variables holds under a key, after each of the steps that make stores. Two stores match when
they hold the same values under the same keys; the spelling of names may differ where names are folded to
their keys. Stores made alike from matching ones match again, and expressions cannot tell them apart. The
one step that looks at the spelling is the removal of technical names, and these are bound anew at once.
-/

namespace Stencil

/-- Two bindings are alike: key and value are the same, and so is the name unless both names are folded to
the key. -/
structure Binding.Alike (binding other : Binding) : Prop where
  key : binding.key = other.key
  value : binding.value = other.value
  name : binding.name = other.name ∨
    Variables.fold binding.name = binding.key ∧ Variables.fold other.name = other.key

theorem Binding.alike_refl (binding : Binding) : binding.Alike binding := ⟨rfl, rfl, Or.inl rfl⟩

theorem Binding.Alike.symm {binding other : Binding} (h : binding.Alike other) : other.Alike binding :=
  ⟨h.key.symm, h.value.symm, h.name.imp Eq.symm And.symm⟩

theorem Binding.Alike.trans {first second third : Binding} (h : first.Alike second)
    (h' : second.Alike third) : first.Alike third where
  key := h.key.trans h'.key
  value := h.value.trans h'.value
  name := by
    rcases h.name with hname | ⟨hfirst, hsecond⟩
    · rw [hname, h.key]
      exact h'.name
    · rcases h'.name with hname | ⟨-, hthird⟩
      · exact Or.inr ⟨hfirst, by rw [← hname, hsecond, h'.key]⟩
      · exact Or.inr ⟨hfirst, hthird⟩

namespace Variables

/-- No key is bound twice. -/
def Distinct (vars : Variables) : Prop := (vars.bindings.map Binding.key).Nodup

/-- The binding that counts among those put into a store one after another. -/
def latest? (key : String) (bindings : List Binding) : Option Binding :=
  bindings.reverse.find? (·.key == key)

section Lookup

variable {vars : Variables}

theorem find?_bind (vars : Variables) (binding : Binding) (key : String) :
    (vars.bind binding).find? key = if binding.key == key then some binding else vars.find? key := by
  obtain ⟨bindings⟩ := vars
  unfold find? bind
  dsimp only
  induction bindings with
  | nil =>
      rw [put, List.find?_cons, List.find?_nil]
      cases binding.key == key with
      | true => rfl
      | false => rfl
  | cons b rest ih =>
      rw [put]
      split
      next hsame =>
        rw [List.find?_cons, List.find?_cons, eq_of_beq hsame]
        cases binding.key == key with
        | true => rfl
        | false => rfl
      next hdiffer =>
        rw [List.find?_cons, List.find?_cons, ih]
        cases hb : b.key == key with
        | false => rfl
        | true =>
            have hne : (binding.key == key) = false := by
              rw [beq_eq_false_iff_ne]
              rintro rfl
              exact hdiffer hb
            rw [hne]
            rfl

theorem find?_insert (vars : Variables) (name : String) (value : Value) (key : String) :
    (vars.insert name value).find? key =
      if fold name == key then some ⟨fold name, name, value⟩ else vars.find? key :=
  find?_bind vars _ key

theorem find?_erase (vars : Variables) (name key : String) :
    (vars.erase name).find? key = if fold name == key then none else vars.find? key := by
  unfold find? erase
  dsimp only
  rw [List.find?_filter]
  split
  next hsame =>
    refine List.find?_eq_none.2 fun b _ => ?_
    rw [eq_of_beq hsame]
    simp
  next hother =>
    refine congrArg (List.find? · vars.bindings) (funext fun b => ?_)
    by_cases hkey : b.key = key
    · have hkept : key ≠ fold name := fun h => hother (beq_of_eq h.symm)
      simp [hkey, hkept]
    · simp [hkey]

theorem get?_insert (vars : Variables) (name other : String) (value : Value) :
    (vars.insert name value).get? other =
      if fold name == fold other then some value else vars.get? other := by
  unfold get?
  rw [find?_insert]
  split
  · rfl
  · rfl

theorem get?_erase (vars : Variables) (name other : String) :
    (vars.erase name).get? other = if fold name == fold other then none else vars.get? other := by
  unfold get?
  rw [find?_erase]
  split
  · rfl
  · rfl

theorem get?_restore (vars : Variables) (name other : String) (before : Option Value) :
    (vars.restore name before).get? other =
      if fold name == fold other then before else vars.get? other := by
  cases before with
  | some value => exact get?_insert vars name other value
  | none => exact get?_erase vars name other

theorem find?_extend (vars more : Variables) (key : String) :
    (vars.extend more).find? key = (latest? key more.bindings).or (vars.find? key) := by
  obtain ⟨bindings⟩ := more
  unfold extend latest?
  dsimp only
  induction bindings generalizing vars with
  | nil => rfl
  | cons b rest ih =>
      rw [List.foldl_cons, ih, find?_bind, List.reverse_cons, List.find?_append, Option.or_assoc,
        List.find?_singleton]
      cases b.key == key with
      | true => rfl
      | false => rfl

theorem distinct_bind (h : vars.Distinct) (binding : Binding) : (vars.bind binding).Distinct := by
  obtain ⟨bindings⟩ := vars
  have hkeys (bindings : List Binding) (key : String)
      (hkey : key ∈ (put binding bindings).map Binding.key) :
      key = binding.key ∨ key ∈ bindings.map Binding.key := by
    induction bindings with
    | nil => exact Or.inl (List.mem_singleton.1 hkey)
    | cons b rest ih =>
        rw [put] at hkey
        split at hkey
        next => exact (List.mem_cons.1 hkey).imp_right (List.mem_cons_of_mem _)
        next =>
          rcases List.mem_cons.1 hkey with rfl | hkey
          · exact Or.inr (List.mem_cons_self ..)
          · exact (ih hkey).imp_right (List.mem_cons_of_mem _)
  unfold Distinct bind at *
  dsimp only at *
  induction bindings with
  | nil => exact List.nodup_singleton binding.key
  | cons b rest ih =>
      rw [List.map_cons, List.nodup_cons] at h
      rw [put]
      split
      next hsame =>
        rw [List.map_cons, List.nodup_cons, ← eq_of_beq hsame]
        exact h
      next hdiffer =>
        rw [List.map_cons, List.nodup_cons]
        refine ⟨fun hmem => ?_, ih h.2⟩
        rcases hkeys rest _ hmem with hkey | hkey
        · exact hdiffer (beq_of_eq hkey)
        · exact h.1 hkey

theorem distinct_insert (h : vars.Distinct) (name : String) (value : Value) :
    (vars.insert name value).Distinct :=
  distinct_bind h _

theorem distinct_erase (h : vars.Distinct) (name : String) : (vars.erase name).Distinct :=
  h.sublist (List.filter_sublist.map _)

theorem distinct_restore (h : vars.Distinct) (name : String) (before : Option Value) :
    (vars.restore name before).Distinct := by
  cases before with
  | some value => exact distinct_insert h name value
  | none => exact distinct_erase h name

theorem distinct_extend (h : vars.Distinct) (more : Variables) : (vars.extend more).Distinct := by
  obtain ⟨bindings⟩ := more
  unfold extend
  dsimp only
  induction bindings generalizing vars with
  | nil => exact h
  | cons b rest ih => exact ih (distinct_bind h b)

theorem distinct_layered (layers : List Variables) : (layered layers).Distinct := by
  have hfold {vars : Variables} (h : vars.Distinct) : (layers.foldl extend vars).Distinct := by
    induction layers generalizing vars with
    | nil => exact h
    | cons layer rest ih => exact ih (distinct_extend h layer)
  exact hfold List.nodup_nil

theorem distinct_filter (h : vars.Distinct) (keep : String → Value → Bool) :
    (vars.filter keep).Distinct :=
  h.sublist (List.filter_sublist.map _)

/-- In a store without double keys a binding is found exactly if it is there. -/
theorem find?_eq_some_iff (h : vars.Distinct) {key : String} {binding : Binding} :
    vars.find? key = some binding ↔ binding ∈ vars.bindings ∧ binding.key = key := by
  obtain ⟨bindings⟩ := vars
  unfold Distinct at h
  unfold find?
  dsimp only at *
  induction bindings with
  | nil => simp
  | cons b rest ih =>
      rw [List.map_cons, List.nodup_cons] at h
      rw [List.find?_cons, List.mem_cons]
      cases hb : b.key == key with
      | true =>
          have hkey := eq_of_beq hb
          constructor
          · intro heq
            obtain rfl := Option.some.inj heq
            exact ⟨Or.inl rfl, hkey⟩
          · rintro ⟨rfl | hmem, hbinding⟩
            · rfl
            · have hmap : b.key ∈ rest.map Binding.key :=
                (hkey.trans hbinding.symm) ▸ List.mem_map_of_mem hmem
              exact absurd hmap h.1
      | false =>
          rw [ih h.2]
          constructor
          · exact fun hmem => ⟨Or.inr hmem.1, hmem.2⟩
          · rintro ⟨rfl | hmem, hbinding⟩
            · rw [hbinding, beq_self_eq_true] at hb
              cases hb
            · exact ⟨hmem, hbinding⟩

theorem latest?_eq_find? (h : vars.Distinct) (key : String) :
    latest? key vars.bindings = vars.find? key := by
  have hreverse : Distinct ⟨vars.bindings.reverse⟩ := by
    unfold Distinct at h ⊢
    rw [List.map_reverse]
    exact List.nodup_reverse.2 h
  apply Option.ext
  intro binding
  change find? key ⟨vars.bindings.reverse⟩ = some binding ↔ _
  rw [find?_eq_some_iff hreverse, find?_eq_some_iff h, List.mem_reverse]

theorem find?_filter (h : vars.Distinct) (keep : String → Value → Bool) (key : String) :
    (vars.filter keep).find? key = (vars.find? key).filter fun b => keep b.name b.value := by
  apply Option.ext
  intro binding
  rw [find?_eq_some_iff (distinct_filter h keep), Option.filter_eq_some_iff, find?_eq_some_iff h]
  unfold filter
  rw [List.mem_filter]
  exact and_right_comm

end Lookup

/-- Every binding of a store has a property. -/
def Every (P : Binding → Prop) (vars : Variables) : Prop := ∀ binding ∈ vars.bindings, P binding

/-- Every name is folded to its key, as it is wherever a variable is bound by its name. -/
def Folded (vars : Variables) : Prop := ∀ binding ∈ vars.bindings, binding.key = fold binding.name

instance (vars : Variables) : Decidable vars.Folded :=
  inferInstanceAs (Decidable (∀ binding ∈ vars.bindings, binding.key = fold binding.name))

section Every

variable {P : Binding → Prop} {vars : Variables}

theorem every_empty : Every P {} := fun _ hmem => absurd hmem List.not_mem_nil

theorem every_bind (h : vars.Every P) {binding : Binding} (hnew : P binding) :
    (vars.bind binding).Every P := by
  obtain ⟨bindings⟩ := vars
  unfold Every bind at *
  dsimp only at *
  induction bindings with
  | nil => exact List.forall_mem_singleton.2 hnew
  | cons first rest ih =>
      obtain ⟨hfirst, hrest⟩ := List.forall_mem_cons.1 h
      rw [put]
      split
      · exact List.forall_mem_cons.2 ⟨hnew, hrest⟩
      · exact List.forall_mem_cons.2 ⟨hfirst, ih hrest⟩

theorem every_insert (h : vars.Every P) {name : String} {value : Value}
    (hnew : P ⟨fold name, name, value⟩) : (vars.insert name value).Every P :=
  every_bind h hnew

theorem every_erase (h : vars.Every P) (name : String) : (vars.erase name).Every P :=
  fun binding hmem => h binding (List.mem_filter.1 hmem).1

theorem every_filter (h : vars.Every P) (keep : String → Value → Bool) :
    (vars.filter keep).Every P :=
  fun binding hmem => h binding (List.mem_filter.1 hmem).1

theorem every_changedSince (h : vars.Every P) (before : Variables) :
    (vars.changedSince before).Every P :=
  fun binding hmem => h binding (List.mem_filter.1 hmem).1

theorem every_restore (h : vars.Every P) {name : String} {before : Option Value}
    (hnew : ∀ value ∈ before, P ⟨fold name, name, value⟩) : (vars.restore name before).Every P := by
  cases before with
  | some value => exact every_insert h (hnew value rfl)
  | none => exact every_erase h name

theorem every_extend (h : vars.Every P) {more : Variables} (hmore : more.Every P) :
    (vars.extend more).Every P := by
  obtain ⟨bindings⟩ := more
  unfold extend
  unfold Every at hmore
  dsimp only at *
  induction bindings generalizing vars with
  | nil => exact h
  | cons first rest ih =>
      obtain ⟨hfirst, hrest⟩ := List.forall_mem_cons.1 hmore
      exact ih (every_bind h hfirst) hrest

theorem every_layered {layers : List Variables} (h : ∀ layer ∈ layers, layer.Every P) :
    (layered layers).Every P := by
  have hfold {vars : Variables} (hvars : vars.Every P) : (layers.foldl extend vars).Every P := by
    induction layers generalizing vars with
    | nil => exact hvars
    | cons layer rest ih =>
        obtain ⟨hlayer, hrest⟩ := List.forall_mem_cons.1 h
        exact ih hrest (every_extend hvars hlayer)
  exact hfold every_empty

theorem every_ofList {entries : List (String × Value)}
    (h : ∀ entry ∈ entries, P ⟨fold entry.1, entry.1, entry.2⟩) : (ofList entries).Every P := by
  have hfold {vars : Variables} (hvars : vars.Every P) :
      Every P (entries.foldl (fun vars entry => vars.insert entry.1 entry.2) vars) := by
    induction entries generalizing vars with
    | nil => exact hvars
    | cons entry rest ih =>
        obtain ⟨hentry, hrest⟩ := List.forall_mem_cons.1 h
        exact ih hrest (every_insert hvars hentry)
  exact hfold every_empty

theorem Every.value (h : vars.Every P) {name : String} {value : Value}
    (hfound : vars.get? name = some value) : ∃ binding, P binding ∧ binding.value = value := by
  obtain ⟨binding, hbinding, hvalue⟩ := Option.map_eq_some_iff.1 hfound
  exact ⟨binding, h binding (List.mem_of_find?_eq_some hbinding), hvalue⟩

end Every

/-- Two stores hold the same values under the same keys, and their names differ in the spelling alone. -/
structure Matches (vars other : Variables) : Prop where
  distinct : vars.Distinct
  distinct' : other.Distinct
  find? : ∀ key, Option.Rel Binding.Alike (vars.find? key) (other.find? key)

section Matching

variable {vars other : Variables}

theorem rel_or {binding binding' : Option Binding} (more : Option Binding)
    (h : more = none → Option.Rel Binding.Alike binding binding') :
    Option.Rel Binding.Alike (more.or binding) (more.or binding') := by
  cases more with
  | none => exact h rfl
  | some latest => exact .some latest.alike_refl

theorem Matches.insert (h : vars.Matches other) (name : String) (value : Value) :
    (vars.insert name value).Matches (other.insert name value) where
  distinct := distinct_insert h.distinct name value
  distinct' := distinct_insert h.distinct' name value
  find? := fun key => by
    rw [find?_insert, find?_insert]
    split
    · exact .some (Binding.alike_refl _)
    · exact h.find? key

theorem Matches.extend (h : vars.Matches other) (more : Variables) :
    (vars.extend more).Matches (other.extend more) where
  distinct := distinct_extend h.distinct more
  distinct' := distinct_extend h.distinct' more
  find? := fun key => by
    rw [find?_extend, find?_extend]
    exact rel_or _ fun _ => h.find? key

theorem Matches.get?_eq (h : vars.Matches other) (name : String) : vars.get? name = other.get? name := by
  have hrel := h.find? (fold name)
  unfold get?
  generalize vars.find? (fold name) = found at hrel
  generalize other.find? (fold name) = found' at hrel
  cases hrel with
  | none => rfl
  | some halike => exact congrArg some halike.value

/-- Folded stores match if every binding of one has a counterpart with its value in the other. -/
theorem matches_of_counterparts (distinct : vars.Distinct) (distinct' : other.Distinct)
    (folded : vars.Folded) (folded' : other.Folded)
    (h : ∀ b ∈ vars.bindings, ∃ b', other.find? b.key = some b' ∧ b'.value = b.value)
    (h' : ∀ b ∈ other.bindings, ∃ b', vars.find? b.key = some b' ∧ b'.value = b.value) :
    vars.Matches other where
  distinct := distinct
  distinct' := distinct'
  find? := fun key => by
    cases hfound : vars.find? key with
    | some b =>
        obtain ⟨hb, rfl⟩ := (find?_eq_some_iff distinct).1 hfound
        obtain ⟨b', hfound', hvalue⟩ := h b hb
        obtain ⟨hb', hkey⟩ := (find?_eq_some_iff distinct').1 hfound'
        rw [hfound']
        exact .some ⟨hkey.symm, hvalue.symm, Or.inr ⟨(folded b hb).symm, (folded' b' hb').symm⟩⟩
    | none =>
        cases hfound' : other.find? key with
        | none => exact .none
        | some b' =>
            obtain ⟨hb', rfl⟩ := (find?_eq_some_iff distinct').1 hfound'
            obtain ⟨b, hb, -⟩ := h' b' hb'
            rw [hfound] at hb
            cases hb

/-- Folded stores in which every name has the same value match. -/
theorem matches_of_get? (distinct : vars.Distinct) (distinct' : other.Distinct) (folded : vars.Folded)
    (folded' : other.Folded) (h : ∀ name, vars.get? name = other.get? name) : vars.Matches other := by
  have hcounterpart {vars other : Variables} (distinct : vars.Distinct) (folded : vars.Folded)
      (h : ∀ name, vars.get? name = other.get? name) (b : Binding) (hb : b ∈ vars.bindings) :
      ∃ b', other.find? b.key = some b' ∧ b'.value = b.value := by
    have hget := h b.name
    unfold get? at hget
    rw [← folded b hb, (find?_eq_some_iff distinct).2 ⟨hb, rfl⟩] at hget
    exact Option.map_eq_some_iff.1 hget.symm
  exact matches_of_counterparts distinct distinct' folded folded' (hcounterpart distinct folded h)
    (hcounterpart distinct' folded' fun name => (h name).symm)

theorem matches_refl (distinct : vars.Distinct) : vars.Matches vars where
  distinct := distinct
  distinct' := distinct
  find? := fun key => by
    cases vars.find? key with
    | none => exact .none
    | some binding => exact .some binding.alike_refl

theorem Matches.symm (h : vars.Matches other) : other.Matches vars where
  distinct := h.distinct'
  distinct' := h.distinct
  find? := fun key => by
    have hrel := h.find? key
    generalize vars.find? key = found at hrel
    generalize other.find? key = found' at hrel
    cases hrel with
    | none => exact .none
    | some halike => exact .some halike.symm

theorem Matches.trans {third : Variables} (h : vars.Matches other) (h' : other.Matches third) :
    vars.Matches third where
  distinct := h.distinct
  distinct' := h'.distinct'
  find? := fun key => by
    have hrel := h.find? key
    have hrel' := h'.find? key
    generalize vars.find? key = found at hrel
    generalize other.find? key = found' at hrel hrel'
    generalize third.find? key = found'' at hrel'
    cases hrel with
    | none =>
        cases hrel' with
        | none => exact .none
    | some halike =>
        cases hrel' with
        | some halike' => exact .some (halike.trans halike')

/-- What a store matches matches itself. -/
theorem Matches.right (h : vars.Matches other) : other.Matches other := matches_refl h.distinct'

theorem Matches.erase (h : vars.Matches other) (name : String) :
    (vars.erase name).Matches (other.erase name) where
  distinct := distinct_erase h.distinct name
  distinct' := distinct_erase h.distinct' name
  find? := fun key => by
    rw [find?_erase, find?_erase]
    split
    · exact .none
    · exact h.find? key

theorem Matches.restore (h : vars.Matches other) (name : String) (value : Option Value) :
    (vars.restore name value).Matches (other.restore name value) := by
  cases value with
  | some value => exact h.insert name value
  | none => exact h.erase name

theorem ofList_concat (entries : List (String × Value)) (entry : String × Value) :
    ofList (entries ++ [entry]) = (ofList entries).insert entry.1 entry.2 := by
  unfold ofList
  rw [List.foldl_append]
  rfl

theorem find?_ofList_ne_none {entries : List (String × Value)} {name : String} {value : Value}
    (h : (name, value) ∈ entries) : (ofList entries).find? (fold name) ≠ none := by
  induction entries using List.reverseRecOn with
  | nil => exact absurd h List.not_mem_nil
  | append_singleton entries entry ih =>
      rw [ofList_concat, find?_insert]
      split
      next => exact Option.some_ne_none _
      next hother =>
        refine ih ((List.mem_append.1 h).resolve_right fun hlast => hother ?_)
        rw [← List.mem_singleton.1 hlast]
        exact beq_self_eq_true _

theorem distinct_ofList (entries : List (String × Value)) : (ofList entries).Distinct := by
  induction entries using List.reverseRecOn with
  | nil => exact List.nodup_nil
  | append_singleton entries entry ih =>
      rw [ofList_concat]
      exact distinct_insert ih entry.1 entry.2

/-- The variables that tell a component about itself. -/
def technical (descriptor : Descriptor) : Variables :=
  ofList [
    ("_ComponentName", Render.optionalText descriptor.name),
    ("_ComponentOldName", Render.optionalText descriptor.oldName),
    ("_ComponentPath", .string descriptor.path)]

/-- The technical names are bound whatever is spelled like one. -/
theorem technical_bound (descriptor : Descriptor) {name : String}
    (h : Render.technicalNames.any (Text.sameName · name) = true) :
    latest? (fold name) (technical descriptor).bindings ≠ none := by
  obtain ⟨own, hown, hsame⟩ := List.any_eq_true.1 h
  have hfold : fold own = fold name := Text.lowercase_eq_of_sameName hsame
  unfold technical
  rw [← hfold, latest?_eq_find? (distinct_ofList _)]
  unfold Render.technicalNames at hown
  rcases List.mem_cons.1 hown with rfl | hown
  · exact find?_ofList_ne_none (List.mem_cons_self ..)
  · rcases List.mem_cons.1 hown with rfl | hown
    · exact find?_ofList_ne_none (List.mem_cons_of_mem _ (List.mem_cons_self ..))
    · obtain rfl := List.mem_singleton.1 hown
      exact find?_ofList_ne_none (List.mem_cons_of_mem _ (List.mem_cons_of_mem _ (List.mem_cons_self ..)))

theorem Matches.component (h : vars.Matches other) (changed : Variables) (descriptor : Descriptor)
    (values : List (String × Value)) :
    (Render.componentVariables vars changed descriptor values).Matches
      (Render.componentVariables other changed descriptor values) where
  distinct := distinct_layered _
  distinct' := distinct_layered _
  find? := fun key => by
    let keep (name : String) (_ : Value) : Bool :=
      !Render.technicalNames.any (Text.sameName · name)
    change Option.Rel _
      ((((({} : Variables).extend (vars.filter keep)).extend (technical descriptor)).extend changed).extend
        (ofList values) |>.find? key)
      ((((({} : Variables).extend (other.filter keep)).extend (technical descriptor)).extend changed).extend
        (ofList values) |>.find? key)
    rw [find?_extend, find?_extend, find?_extend, find?_extend, find?_extend, find?_extend, find?_extend,
      find?_extend, latest?_eq_find? (distinct_filter h.distinct keep),
      latest?_eq_find? (distinct_filter h.distinct' keep), find?_filter h.distinct,
      find?_filter h.distinct']
    refine rel_or _ fun _ => rel_or _ fun _ => rel_or _ fun hunbound => ?_
    have hrel := h.find? key
    generalize hfound : vars.find? key = found at hrel
    generalize hfound' : other.find? key = found' at hrel
    cases hrel with
    | none => exact .none
    | @some binding binding' halike =>
        have hkey := ((find?_eq_some_iff h.distinct).1 hfound).2
        have hkey' := ((find?_eq_some_iff h.distinct').1 hfound').2
        -- a name that is taken out has a technical key, and that is bound
        have hkept : keep binding.name binding.value = keep binding'.name binding'.value := by
          rcases halike.name with hname | ⟨hfold, hfold'⟩
          · change keep binding.name .null = keep binding'.name .null
            rw [hname]
          · have hkeeps (b : Binding) (hb : fold b.name = key) : keep b.name b.value = true := by
              by_contra hdrop
              refine absurd hunbound (hb ▸ technical_bound descriptor ?_)
              rw [Bool.not_eq_true, Bool.not_eq_false'] at hdrop
              exact hdrop
            rw [hkeeps binding (hfold.trans hkey), hkeeps binding' (hfold'.trans hkey')]
        rw [Option.filter_some, Option.filter_some, hkept]
        split
        · exact rel_or none fun _ => .some halike
        · exact .none

end Matching

end Variables

end Stencil
