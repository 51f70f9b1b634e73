import Stencil.Proofs.Resolution.Invariants
import Stencil.Proofs.Stores

/-!
Objects of one type have the same fields. What a host program promises of its objects is a promise about
everything that a resolution can reach: values inside objects, computed members, elements, and what filters
give. A resolution of such values gives such values again, and whatever it decides about a member name is
what the fields of the type decide.
-/

namespace Stencil

/-- A value whose objects have the fields of their types, and so have all objects inside it. -/
inductive Value.Typed (fieldsOf : String → List String) : Value → Prop where
  | null : Typed fieldsOf .null
  | bool (value : Bool) : Typed fieldsOf (.bool value)
  | int (value : Int64) : Typed fieldsOf (.int value)
  | float (value : Floating) : Typed fieldsOf (.float value)
  | string (value : String) : Typed fieldsOf (.string value)
  | list {items : List Value} (inside : ∀ item ∈ items, Typed fieldsOf item) :
      Typed fieldsOf (.list items)
  | map {entries : List (String × Value)} (inside : ∀ entry ∈ entries, Typed fieldsOf entry.2) :
      Typed fieldsOf (.map entries)
  | object {object : Object Value} (names : object.fields.map Prod.fst = fieldsOf object.type)
      (fields : ∀ field ∈ object.fields, Typed fieldsOf field.2)
      (elements : ∀ elements ∈ object.elements, ∀ element ∈ elements, Typed fieldsOf element) :
      Typed fieldsOf (.object object)

variable {fieldsOf : String → List String}

/-- What the host program supplies beyond stored fields is typed as well. -/
structure Host.Typed (fieldsOf : String → List String) (host : Host) : Prop where
  computed : ∀ {object name value}, Value.Typed fieldsOf (.object object) →
    host.computed object name = some value → value.Typed fieldsOf
  index : ∀ {object key value}, Value.Typed fieldsOf (.object object) → key.Typed fieldsOf →
    host.index object key = some value → value.Typed fieldsOf

/-- Filters make typed values of typed values. -/
def FilterRegister.Typed (fieldsOf : String → List String) (register : FilterRegister) : Prop :=
  ∀ entry ∈ register.filters, ∀ value arguments, value.Typed fieldsOf →
    (∀ argument ∈ arguments, argument.Typed fieldsOf) → (entry.2 value arguments).Typed fieldsOf

/-- All values of a store are typed. -/
abbrev Variables.Typed (fieldsOf : String → List String) (vars : Variables) : Prop :=
  vars.Every fun binding => binding.value.Typed fieldsOf

/-- Every decision is the one that the fields and the indexers of the type make. -/
structure Decisions.Typed (fieldsOf : String → List String) (host : Host) (decisions : Decisions) :
    Prop where
  accessors : ∀ key accessor, decisions.accessors.lookup key = some accessor →
    accessor = Accessor.of (fieldsOf key.1) key.2
  indexers : ∀ key supported, decisions.indexers.lookup key = some supported →
    supported = host.supportsIndex key.1 key.2

namespace Value

variable {value : Value}

theorem typed_of_isScalar (h : value.isScalar = true) : value.Typed fieldsOf := by
  cases value with
  | null => exact .null
  | bool b => exact .bool b
  | int n => exact .int n
  | float x => exact .float x
  | string s => exact .string s
  | _ => cases h

theorem Typed.elements (h : value.Typed fieldsOf) {elements : List Value}
    (helements : value.elements? = some elements) : ∀ element ∈ elements, element.Typed fieldsOf := by
  cases h with
  | list inside =>
      cases helements
      exact inside
  | map inside =>
      cases helements
      intro element hmem
      obtain ⟨⟨key, inner⟩, hentry, rfl⟩ := List.mem_map.1 hmem
      refine .map fun entry hmem => ?_
      rcases List.mem_cons.1 hmem with rfl | hmem
      · exact .string key
      · rw [List.mem_singleton.1 hmem]
        exact inside (key, inner) hentry
  | object names fields elements' => exact elements' elements helements
  | _ => cases helements

theorem typed_valueAt? {entries : List (String × Value)}
    (h : ∀ entry ∈ entries, entry.2.Typed fieldsOf) {key : String} {found : Value}
    (hfound : valueAt? entries key = some found) : found.Typed fieldsOf := by
  unfold valueAt? at hfound
  rcases Option.or_eq_some_iff.1 hfound with hlookup | ⟨-, hother⟩
  · obtain ⟨before, after, rfl, -⟩ := List.lookup_eq_some_iff.1 hlookup
    exact h (key, found) (List.mem_append_right _ (List.mem_cons_self ..))
  · obtain ⟨entry, hentry, rfl⟩ := Option.map_eq_some_iff.1 hother
    exact h entry (List.mem_of_find?_eq_some hentry)

end Value

theorem FilterRegister.Typed.get? {register : FilterRegister} (typed : register.Typed fieldsOf)
    {name : String} {filter : Filter} (hfilter : register.get? name = some filter) {value : Value}
    {arguments : List Value} (h : value.Typed fieldsOf)
    (harguments : ∀ argument ∈ arguments, argument.Typed fieldsOf) :
    (filter value arguments).Typed fieldsOf := by
  obtain ⟨before, after, hfilters, -⟩ := List.lookup_eq_some_iff.1 hfilter
  exact typed (_, filter) (hfilters ▸ List.mem_append_right _ (List.mem_cons_self ..)) value arguments h
    harguments

/-- The filters that every register starts from make nothing new of objects. -/
theorem FilterRegister.typed_builtin : FilterRegister.builtin.Typed fieldsOf := by
  intro entry hentry value arguments hvalue harguments
  simp only [builtin, List.mem_cons, List.not_mem_nil, or_false] at hentry
  rcases hentry with rfl | rfl | rfl | rfl | rfl
  · exact .string _
  · exact .string _
  · unfold trim
    cases value with
    | string s => exact .string _
    | _ => exact hvalue
  · unfold length
    cases value with
    | string s => exact .int _
    | null => exact .int 0
    | _ =>
        dsimp only
        split
        · exact .int _
        · exact .null
  · unfold default
    dsimp only
    split
    · cases arguments with
      | nil => exact .null
      | cons argument rest => exact harguments argument (List.mem_cons_self ..)
    · exact hvalue

section Readings

variable {α β : Type} {host : Host}

/-- A reading of decisions that keeps them typed and answers as told. -/
def Decisions.Keeps (fieldsOf : String → List String) (host : Host) (answers : α → Prop)
    (read : StateM Decisions α) : Prop :=
  ∀ decisions, Decisions.Typed fieldsOf host decisions →
    Decisions.Typed fieldsOf host (read decisions).2 ∧ answers (read decisions).1

/-- An answer that is typed if there is one. -/
def TypedIfAny (fieldsOf : String → List String) (answer : Option Value) : Prop :=
  ∀ value ∈ answer, value.Typed fieldsOf

theorem typedIfAny_none : TypedIfAny fieldsOf none := fun _ hmem => nomatch hmem

theorem typedIfAny_some {value : Value} (h : value.Typed fieldsOf) :
    TypedIfAny fieldsOf (some value) := fun _ hmem => Option.some.inj hmem ▸ h

theorem Decisions.keeps_pure {answers : α → Prop} {answer : α} (h : answers answer) :
    Decisions.Keeps fieldsOf host answers (pure answer) :=
  fun _ typed => ⟨typed, h⟩

theorem Decisions.Keeps.bind {answers : α → Prop} {answers' : β → Prop} {read : StateM Decisions α}
    {next : α → StateM Decisions β} (h : Decisions.Keeps fieldsOf host answers read)
    (hnext : ∀ answer, answers answer → Decisions.Keeps fieldsOf host answers' (next answer)) :
    Decisions.Keeps fieldsOf host answers' (read >>= next) := by
  intro decisions typed
  obtain ⟨hafter, hanswer⟩ := h decisions typed
  exact hnext (read decisions).1 hanswer (read decisions).2 hafter

/-- What is remembered under a key is what would be decided there. -/
theorem remember_typed {κ : Type} [BEq κ] [LawfulBEq κ] (decide : κ → α) (key : κ) {build : α}
    {known : List (κ × α)} (hbuild : build = decide key)
    (hknown : ∀ key answer, known.lookup key = some answer → answer = decide key) :
    (remember key build known).1 = decide key ∧
      ∀ other answer, (remember key build known).2.lookup other = some answer →
        answer = decide other := by
  unfold remember
  cases hlookup : known.lookup key with
  | some answer => exact ⟨hknown key answer hlookup, hknown⟩
  | none =>
      refine ⟨hbuild, fun other answer hanswer => ?_⟩
      rw [List.lookup_cons] at hanswer
      split at hanswer
      next hsame =>
        rw [eq_of_beq hsame, ← hbuild]
        exact (Option.some.inj hanswer).symm
      next => exact hknown other answer hanswer

/-- What a name means on a type is remembered as the fields of an object of the type decide it. -/
theorem Decisions.Typed.remember_accessor {decisions : Decisions} (typed : decisions.Typed fieldsOf host)
    {object : Object Value} (h : Value.Typed fieldsOf (.object object)) (name : String) :
    let remembered :=
      remember (object.type, name) (Accessor.of (object.fields.map Prod.fst) name) decisions.accessors
    remembered.1 = Accessor.of (object.fields.map Prod.fst) name ∧
      Decisions.Typed fieldsOf host { decisions with accessors := remembered.2 } := by
  have hnames : object.fields.map Prod.fst = fieldsOf object.type := by
    cases h with
    | object names fields elements => exact names
  have hremembered := remember_typed (fun key : String × String => Accessor.of (fieldsOf key.1) key.2)
    (object.type, name) (congrArg (Accessor.of · name) hnames) typed.accessors
  rw [← hnames] at hremembered
  exact ⟨hremembered.1, hremembered.2, typed.indexers⟩

theorem Decisions.Typed.remember_indexer {decisions : Decisions} (typed : decisions.Typed fieldsOf host)
    (type : String) (kind : ValueKind) :
    let remembered := remember (type, kind) (host.supportsIndex type kind) decisions.indexers
    remembered.1 = host.supportsIndex type kind ∧
      Decisions.Typed fieldsOf host { decisions with indexers := remembered.2 } := by
  have hremembered := remember_typed (fun key : String × ValueKind => host.supportsIndex key.1 key.2)
    (type, kind) rfl typed.indexers
  exact ⟨hremembered.1, typed.accessors, hremembered.2⟩

variable (hosted : host.Typed fieldsOf)

include hosted

theorem Value.Typed.read {object : Object Value} (h : Value.Typed fieldsOf (.object object))
    (name : String) (accessor : Accessor) :
    TypedIfAny fieldsOf (accessor.read host object name) := by
  intro value hvalue
  cases accessor with
  | field position =>
      obtain ⟨field, hfield, rfl⟩ := Option.map_eq_some_iff.1 hvalue
      cases h with
      | object names fields elements => exact fields field (List.mem_of_getElem? hfield)
  | computed => exact hosted.computed h hvalue

theorem keeps_objectMember {object : Object Value} (h : Value.Typed fieldsOf (.object object))
    (name : String) :
    Decisions.Keeps fieldsOf host (TypedIfAny fieldsOf) (objectMember host object name) :=
  fun _ typed => ⟨(typed.remember_accessor h name).2, h.read hosted name _⟩

theorem keeps_objectIndex {object : Object Value} (h : Value.Typed fieldsOf (.object object))
    {key : Value} (hkey : key.Typed fieldsOf) :
    Decisions.Keeps fieldsOf host (TypedIfAny fieldsOf) (objectIndex host object key) := by
  intro decisions typed
  refine ⟨(typed.remember_indexer object.type key.kind).2, ?_⟩
  unfold objectIndex
  dsimp only
  split
  · exact fun value hvalue => hosted.index h hkey hvalue
  · exact typedIfAny_none

theorem keeps_member {value : Value} (h : value.Typed fieldsOf) (name : String) :
    Decisions.Keeps fieldsOf host (TypedIfAny fieldsOf) (value.member host name) := by
  have hcount (n : Nat) : TypedIfAny fieldsOf (if Value.isCountName name then some (Value.ofNat n) else none) := by
    split
    · exact typedIfAny_some (.int _)
    · exact typedIfAny_none
  cases value with
  | map entries =>
      refine Decisions.keeps_pure fun found hfound => ?_
      rcases Option.or_eq_some_iff.1 hfound with hentry | ⟨-, hlength⟩
      · cases h with
        | map inside => exact Value.typed_valueAt? inside hentry
      · exact hcount _ found hlength
  | list items => exact Decisions.keeps_pure (hcount _)
  | string s => exact Decisions.keeps_pure (hcount _)
  | object object => exact keeps_objectMember hosted h name
  | _ => exact Decisions.keeps_pure typedIfAny_none

theorem keeps_index {value key : Value} (h : value.Typed fieldsOf) (hkey : key.Typed fieldsOf) :
    Decisions.Keeps fieldsOf host (TypedIfAny fieldsOf) (value.index host key) := by
  cases value with
  | list items =>
      refine Decisions.keeps_pure fun found hfound => ?_
      obtain ⟨number, -, hnumber⟩ := Option.bind_eq_some_iff.1 hfound
      obtain ⟨position, -, hitem⟩ := Option.bind_eq_some_iff.1 hnumber
      cases h with
      | list inside => exact inside found (List.mem_of_getElem? hitem)
  | map entries =>
      cases h with
      | map inside =>
          exact Decisions.keeps_pure fun found hfound => Value.typed_valueAt? inside hfound
  | object object => exact keeps_objectIndex hosted h hkey
  | _ => exact Decisions.keeps_pure typedIfAny_none

theorem keeps_path (security : Security) {value : Value} (h : value.Typed fieldsOf)
    (segments : List String) :
    Decisions.Keeps fieldsOf host (TypedIfAny fieldsOf) (value.path host security segments) := by
  induction segments generalizing value with
  | nil =>
      rw [Value.path]
      split
      · exact Decisions.keeps_pure typedIfAny_none
      · exact Decisions.keeps_pure (typedIfAny_some h)
  | cons segment rest ih =>
      rw [Value.path]
      split
      · exact Decisions.keeps_pure typedIfAny_none
      · refine (keeps_member hosted h segment).bind fun found hfound => ?_
        cases found with
        | none => exact Decisions.keeps_pure typedIfAny_none
        | some next => exact ih (hfound next rfl)

end Readings

namespace Resolver

open Text Reference

/-- All that a resolver resolves against is typed. -/
structure Typed (fieldsOf : String → List String) (r : Resolver) : Prop where
  host : r.host.Typed fieldsOf
  ownFilters : r.ownFilters.Typed fieldsOf
  sharedFilters : r.sharedFilters.Typed fieldsOf
  vars : r.vars.Typed fieldsOf

/-- What is known of a memory is that its decisions are typed. -/
def typing (fieldsOf : String → List String) (host : Host) : Memory.Invariant where
  holds memory := memory.decisions.Typed fieldsOf host
  value := Value.Typed fieldsOf

theorem keeps_note {host : Host} (event : Event) :
    Keeps (typing fieldsOf host).holds (fun _ => True) (note event) :=
  fun _ typed => ⟨typed, fun _ _ => trivial⟩

theorem keeps_recalling {α : Type} {host : Host} {answers : α → Prop} {read : StateM Decisions α}
    (h : Decisions.Keeps fieldsOf host answers read) :
    Keeps (typing fieldsOf host).holds answers (recalling read) := by
  intro memory typed
  obtain ⟨hafter, hanswer⟩ := h memory.decisions typed
  refine ⟨hafter, fun value heq => ?_⟩
  cases heq
  exact hanswer

variable {r : Resolver} (typed : r.Typed fieldsOf)

include typed

theorem Typed.get? {name : String} {value : Value} (h : r.vars.get? name = some value) :
    value.Typed fieldsOf := by
  obtain ⟨binding, hbinding, rfl⟩ := typed.vars.value h
  exact hbinding

theorem typed_apply (name : String) {value : Value} {arguments : List Value}
    (h : value.Typed fieldsOf) (harguments : ∀ argument ∈ arguments, argument.Typed fieldsOf) :
    (FilterRegister.apply r.ownFilters r.sharedFilters name value arguments).Typed fieldsOf := by
  unfold FilterRegister.apply
  split
  next filter hfilter =>
    rcases Option.or_eq_some_iff.1 hfilter with hown | ⟨-, hshared⟩
    · exact typed.ownFilters.get? hown h harguments
    · exact typed.sharedFilters.get? hshared h harguments
  next => exact h

theorem kept_typing : (typing fieldsOf r.host).Kept r where
  lookup _ := keeps_note _
  indexer := keeps_note _
  member name h := keeps_recalling (keeps_member typed.host h name)
  index h hkey := keeps_recalling (keeps_index typed.host h hkey)
  path segments h := keeps_recalling (keeps_path typed.host r.security h segments)
  bound := typed.get?
  scalar := Value.typed_of_isScalar
  filter name := typed_apply typed name

/-- An expression has a typed value, if it has one. -/
theorem keeps_resolve (expression : List Char) :
    Keeps (typing fieldsOf r.host).holds (TypedIfAny fieldsOf) (resolve r expression) :=
  (kept_typing typed).resolve (fun _ => keeps_note _) expression

theorem keeps_interpolate (text : String) :
    Keeps (typing fieldsOf r.host).holds (fun _ => True) (interpolate r text) :=
  (kept_typing typed).interpolate (fun _ => keeps_note _) text

theorem keeps_parameterValue (parameter : Markup.Parameter) :
    Keeps (typing fieldsOf r.host).holds (Value.Typed fieldsOf) (parameterValue r parameter) :=
  (kept_typing typed).parameterValue (fun _ => keeps_note _) parameter

end Resolver

end Stencil
