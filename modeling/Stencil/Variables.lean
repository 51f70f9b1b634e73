import Stencil.Digest.Sha256
import Stencil.Value.Equality

/-!
Stores of variables. Names that agree in lower case are one name; the spelling used last is kept.
Layers of stores are put together so that later layers count before earlier ones. A fingerprint
tells stores with different bindings apart, whatever order or spelling they were bound in.
-/

namespace Stencil

/-- A bound variable: its name in lower case, the name as spelled, and its value. -/
structure Binding where
  key : String
  name : String
  value : Value

/-- A store of variables. -/
structure Variables where
  bindings : List Binding := []

namespace Variables

/-- The name under which a variable is found. -/
def fold (name : String) : String := Text.lowercase name

/-- The binding under a folded name. -/
def find? (key : String) (vars : Variables) : Option Binding :=
  List.find? (·.key == key) vars.bindings

/-- The value of a variable. -/
def get? (vars : Variables) (name : String) : Option Value :=
  (vars.find? (fold name)).map Binding.value

/-- Whether a variable is bound. -/
def contains (vars : Variables) (name : String) : Bool := (vars.find? (fold name)).isSome

/-- The bindings with one put in the place of the one with its key, or at the end. -/
def put (binding : Binding) : List Binding → List Binding
  | [] => [binding]
  | b :: rest => if b.key == binding.key then binding :: rest else b :: put binding rest

/-- The store with a binding in it. -/
def bind (vars : Variables) (binding : Binding) : Variables := ⟨put binding vars.bindings⟩

/-- The store with a variable bound. -/
def insert (vars : Variables) (name : String) (value : Value) : Variables :=
  vars.bind ⟨fold name, name, value⟩

/-- The store without a variable. -/
def erase (vars : Variables) (name : String) : Variables :=
  ⟨vars.bindings.filter (·.key != fold name)⟩

/-- The store with a variable back at an earlier value, or gone if it had none. -/
def restore (vars : Variables) (name : String) : Option Value → Variables
  | some value => vars.insert name value
  | none => vars.erase name

/-- The number of variables. -/
def size (vars : Variables) : Nat := vars.bindings.length

/-- The store with only the variables that pass, given their spelled names and values. -/
def filter (keep : String → Value → Bool) (vars : Variables) : Variables :=
  ⟨vars.bindings.filter fun b => keep b.name b.value⟩

/-- The store with all bindings of another, which count before its own. -/
def extend (vars other : Variables) : Variables := other.bindings.foldl bind vars

/-- One store of several layers; later layers count before earlier ones. -/
def layered (layers : List Variables) : Variables := layers.foldl extend {}

/-- The store of names and values, bound in order. -/
def ofList (entries : List (String × Value)) : Variables :=
  entries.foldl (fun vars (name, value) => vars.insert name value) {}

/-- The bindings that `before` does not have with an equal value. -/
def changedSince (vars before : Variables) : Variables :=
  ⟨vars.bindings.filter fun b => !(before.find? b.key).any fun old => old.value == b.value⟩

/-- Whether two stores hold the same names in the same spelling with equal values. -/
def same (vars other : Variables) : Bool :=
  vars.size == other.size &&
    vars.bindings.all fun b =>
      (other.find? b.key).any fun o => b.name == o.name && b.value == o.value

/-- The folded names and values in the order of the names. -/
def sorted (vars : Variables) : List (String × Value) :=
  (vars.bindings.mergeSort fun a b => a.key ≤ b.key).map fun b => (b.key, b.value)

/-- The digest of the folded names and values, as JSON text in the order of the names. -/
def fingerprint (vars : Variables) : String :=
  Digest.sha256Hex (Value.map vars.sorted).json

end Variables

end Stencil
