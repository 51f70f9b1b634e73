import Stencil.Proofs.Resolution.HostTypes

/-!
What is remembered of host types cannot be seen. However often members, elements and paths of values are asked
for, in whatever order and with whatever spellings, and whenever all decisions are forgotten in between, each
answer is the one that the object itself gives, if the objects of a type have the same fields. A decision holds
for one spelling of a name on one type, or for one kind of key on one type, and no more than this goes into it.
-/

namespace Stencil

/-- The stored field that a name means: the one of that spelling, or else the first that differs in the case of
basic letters only. -/
def Object.field? (object : Object Value) (name : String) : Option Value :=
  ((object.fields.find? (·.1 == name)).or (object.fields.find? (Text.sameName ·.1 name))).map Prod.snd

namespace Value

/-- A member of a value, with nothing remembered. What no stored field of an object is named, the host program
computes. -/
def memberAfresh (host : Host) (target : Value) (name : String) : Option Value :=
  match target with
  | .map entries =>
      (valueAt? entries name).or (if isCountName name then some (ofNat entries.length) else none)
  | .list items => if isCountName name then some (ofNat items.length) else none
  | .string s => if isCountName name then some (ofNat s.length) else none
  | .object o => (o.field? name).or (host.computed o name)
  | _ => none

/-- The element of a value at a key, with nothing remembered. An object is asked only for kinds of keys that
its type has an indexer for. -/
def indexAfresh (host : Host) (target key : Value) : Option Value :=
  match target with
  | .list items => do items[← position? (← key.number?).number]?
  | .map entries => valueAt? entries key.display
  | .object o => if host.supportsIndex o.type key.kind then host.index o key else none
  | _ => none

/-- The value at the end of a path of members, with nothing remembered. -/
def pathAfresh (host : Host) (security : Security) : Value → List String → Option Value
  | target, [] => if target.isNull then none else some target
  | target, segment :: rest =>
      if security.blocks segment || target.isNull then none
      else do pathAfresh host security (← target.memberAfresh host segment) rest

end Value

/-- What is asked of values, and the order to forget all decisions. -/
inductive Inquiry where
  | member (target : Value) (name : String)
  | index (target key : Value)
  | path (security : Security) (target : Value) (segments : List String)
  | forget

namespace Inquiry

/-- The answer to an inquiry, with what is remembered. -/
def answer (host : Host) : Inquiry → StateM Decisions (Option Value)
  | .member target name => target.member host name
  | .index target key => target.index host key
  | .path security target segments => target.path host security segments
  | .forget => do
      set ({} : Decisions)
      return none

/-- The answer to an inquiry, with nothing remembered. -/
def afresh (host : Host) : Inquiry → Option Value
  | .member target name => target.memberAfresh host name
  | .index target key => target.indexAfresh host key
  | .path security target segments => target.pathAfresh host security segments
  | .forget => none

/-- An inquiry about a value whose objects have the fields of their types. -/
def Typed (fieldsOf : String → List String) : Inquiry → Prop
  | .member target _ | .index target _ | .path _ target _ => target.Typed fieldsOf
  | .forget => True

end Inquiry

section Fields

theorem find?_of_findIdx? (matching : String → Bool) (fields : List (String × Value)) :
    ((fields.map Prod.fst).findIdx? matching).bind (fields[·]?) = fields.find? (matching ·.1) := by
  rw [List.findIdx?_map, List.find?_eq_bind_findIdx?_getElem?]
  rfl

theorem exists_of_findIdx? {matching : String → Bool} {fields : List (String × Value)} {position : Nat}
    (h : (fields.map Prod.fst).findIdx? matching = some position) :
    ∃ field, fields[position]? = some field := by
  obtain ⟨hlt, -⟩ := List.findIdx?_eq_some_iff_getElem.1 h
  rw [List.length_map] at hlt
  exact ⟨fields[position], List.getElem?_eq_getElem hlt⟩

/-- The accessor of a name reads the stored field that the name means, or else the computed member. -/
theorem Host.objectMember_eq (host : Host) (object : Object Value) (name : String) :
    host.objectMember object name = (object.field? name).or (host.computed object name) := by
  unfold Host.objectMember Accessor.of Object.field?
  rw [← find?_of_findIdx? (· == name), ← find?_of_findIdx? (Text.sameName · name)]
  cases hexact : (object.fields.map Prod.fst).findIdx? (· == name) with
  | some position =>
      obtain ⟨field, hfield⟩ := exists_of_findIdx? hexact
      simp only [Option.some_or, Option.bind_some, Accessor.read, hfield, Option.map_some]
  | none =>
      cases hother : (object.fields.map Prod.fst).findIdx? (Text.sameName · name) with
      | some position =>
          obtain ⟨field, hfield⟩ := exists_of_findIdx? hother
          simp only [Option.none_or, Option.bind_none, Option.bind_some, Accessor.read, hfield, Option.map_some,
            Option.some_or]
      | none => rfl

end Fields

variable {fieldsOf : String → List String} {host : Host}

theorem Decisions.typed_empty : Decisions.Typed fieldsOf host {} where
  accessors _ _ h := nomatch h
  indexers _ _ h := nomatch h

theorem Decisions.Keeps.and {α : Type} {first second : α → Prop} {read : StateM Decisions α}
    (h : Decisions.Keeps fieldsOf host first read) (h' : Decisions.Keeps fieldsOf host second read) :
    Decisions.Keeps fieldsOf host (fun answer => first answer ∧ second answer) read :=
  fun decisions typed => ⟨(h decisions typed).1, (h decisions typed).2, (h' decisions typed).2⟩

/-- A reading answers as if nothing were remembered, and what it decides is what the types decide. -/
abbrev Decisions.Answers (fieldsOf : String → List String) (host : Host) {α : Type} (afresh : α)
    (read : StateM Decisions α) : Prop :=
  Decisions.Keeps fieldsOf host (· = afresh) read

theorem answers_objectMember {object : Object Value} (h : Value.Typed fieldsOf (.object object))
    (name : String) :
    Decisions.Answers fieldsOf host ((object.field? name).or (host.computed object name))
      (objectMember host object name) := by
  intro decisions typed
  obtain ⟨hremembered, hafter⟩ := typed.remember_accessor h name
  refine ⟨hafter, ?_⟩
  calc (objectMember host object name decisions).1
      = (remember (object.type, name) (Accessor.of (object.fields.map Prod.fst) name)
          decisions.accessors).1.read host object name := rfl
    _ = host.objectMember object name := by rw [hremembered]; rfl
    _ = _ := host.objectMember_eq object name

theorem answers_objectIndex (object : Object Value) (key : Value) :
    Decisions.Answers fieldsOf host (host.objectIndex object key) (objectIndex host object key) := by
  intro decisions typed
  obtain ⟨hremembered, hafter⟩ := typed.remember_indexer object.type key.kind
  refine ⟨hafter, ?_⟩
  calc (objectIndex host object key decisions).1
      = if (remember (object.type, key.kind) (host.supportsIndex object.type key.kind)
          decisions.indexers).1 then host.index object key else none := rfl
    _ = host.objectIndex object key := by rw [hremembered]; rfl

theorem answers_member {value : Value} (h : value.Typed fieldsOf) (name : String) :
    Decisions.Answers fieldsOf host (value.memberAfresh host name) (value.member host name) := by
  cases value with
  | object object => exact answers_objectMember h name
  | _ => exact Decisions.keeps_pure rfl

theorem answers_index (value key : Value) :
    Decisions.Answers fieldsOf host (value.indexAfresh host key) (value.index host key) := by
  cases value with
  | object object => exact answers_objectIndex object key
  | _ => exact Decisions.keeps_pure rfl

theorem answers_path (hosted : host.Typed fieldsOf) (security : Security) {value : Value}
    (h : value.Typed fieldsOf) (segments : List String) :
    Decisions.Answers fieldsOf host (value.pathAfresh host security segments)
      (value.path host security segments) := by
  induction segments generalizing value with
  | nil => exact Decisions.keeps_pure rfl
  | cons segment rest ih =>
      rw [Value.path, Value.pathAfresh]
      split
      · exact Decisions.keeps_pure rfl
      · refine ((answers_member h segment).and (keeps_member hosted h segment)).bind ?_
        rintro found ⟨rfl, hfound⟩
        cases hnext : value.memberAfresh host segment with
        | none => exact Decisions.keeps_pure rfl
        | some next => exact ih (hfound next hnext)

theorem answers_inquiry (hosted : host.Typed fieldsOf) {inquiry : Inquiry} (typed : inquiry.Typed fieldsOf) :
    Decisions.Answers fieldsOf host (inquiry.afresh host) (inquiry.answer host) := by
  cases inquiry with
  | member target name => exact answers_member typed name
  | index target key => exact answers_index target key
  | path security target segments => exact answers_path hosted security typed segments
  | forget => exact fun decisions _ => ⟨Decisions.typed_empty, rfl⟩

theorem answers_inquiries (hosted : host.Typed fieldsOf) {inquiries : List Inquiry}
    (typed : ∀ inquiry ∈ inquiries, inquiry.Typed fieldsOf) :
    Decisions.Answers fieldsOf host (inquiries.map (Inquiry.afresh host))
      (inquiries.mapM (Inquiry.answer host)) := by
  induction inquiries with
  | nil => exact Decisions.keeps_pure rfl
  | cons inquiry rest ih =>
      obtain ⟨hinquiry, hrest⟩ := List.forall_mem_cons.1 typed
      rw [List.mapM_cons, List.map_cons]
      refine (answers_inquiry hosted hinquiry).bind fun answer hanswer => ?_
      refine (ih hrest).bind fun answers hanswers => ?_
      rw [hanswer, hanswers]
      exact Decisions.keeps_pure rfl

/-- Whatever is asked of values, in any order, each answer is the one that is given with nothing remembered, if
the objects of a type have the same fields. -/
theorem decisions_invisible (hosted : host.Typed fieldsOf) {inquiries : List Inquiry}
    (typed : ∀ inquiry ∈ inquiries, inquiry.Typed fieldsOf) :
    ((inquiries.mapM (Inquiry.answer host)).run {}).1 = inquiries.map (Inquiry.afresh host) :=
  (answers_inquiries hosted typed {} Decisions.typed_empty).2

/-- An account has a field `visits` besides `Visits`, a computed greeting, and an indexer for integers. -/
def account (identity : Nat) (name : String) (visits : Int64) : Object Value where
  identity := identity
  type := "account"
  fields := [("Name", .string name), ("Visits", .int visits), ("visits", .int (-visits))]
  elements := none
  text := name
  inspected := name

def accountHost : Host where
  computed := fun _ name => if Text.sameName name "greeting" then some (.string "Hello") else none
  supportsIndex := fun _ kind => kind == .int
  index := fun _ key => some key

def accountFields : String → List String := fun _ => ["Name", "Visits", "visits"]

theorem typed_account (identity : Nat) (name : String) (visits : Int64) :
    Value.Typed accountFields (.object (account identity name visits)) := by
  refine .object rfl (fun field hmem => ?_) fun _ hnone => nomatch hnone
  simp only [account, List.mem_cons, List.not_mem_nil, or_false] at hmem
  rcases hmem with rfl | rfl | rfl
  · exact .string name
  · exact .int visits
  · exact .int (-visits)

theorem typed_accountHost : accountHost.Typed accountFields where
  computed {object name value} _ h := by
    unfold accountHost at h
    dsimp only at h
    split at h
    · exact Option.some.inj h ▸ .string "Hello"
    · cases h
  index _ hkey h := Option.some.inj h ▸ hkey

/-- Spellings of one name mean different fields, also after what was decided is forgotten. -/
theorem decisions_invisible_accounts :
    let ada : Value := .object (account 1 "Ada" 3)
    let bob : Value := .object (account 2 "Bob" 5)
    let inquiries : List Inquiry := [.member ada "VISITS", .member bob "visits", .member bob "VISITS", .forget,
      .member ada "visits", .path {} ada ["Greeting", "length"], .index ada (.int 1), .index bob (.string "1")]
    accountHost.Typed accountFields ∧ (∀ inquiry ∈ inquiries, inquiry.Typed accountFields) ∧
      ((inquiries.mapM (Inquiry.answer accountHost)).run {}).1 =
        [some (.int 3), some (.int (-5)), some (.int 5), none, some (.int (-3)), some (.int 5), some (.int 1),
          none] := by
  intro ada bob inquiries
  have typed : ∀ inquiry ∈ inquiries, inquiry.Typed accountFields := by
    have hada : ada.Typed accountFields := typed_account ..
    have hbob : bob.Typed accountFields := typed_account ..
    simp only [inquiries, List.forall_mem_cons]
    exact ⟨hada, hbob, hbob, trivial, hada, hada, hada, hbob, fun _ hmem => absurd hmem List.not_mem_nil⟩
  exact ⟨typed_accountHost, typed, decisions_invisible typed_accountHost typed⟩

end Stencil
