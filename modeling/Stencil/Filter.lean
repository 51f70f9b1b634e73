import Stencil.Value.Inspect

/-!
Filters: named functions on a value and arguments. A register of filters ignores the case of names.
An engine looks in its own register first and then in the shared one; a name in neither leaves the
value as it is.
-/

namespace Stencil

/-- A filter takes the value before the bar and its arguments. -/
abbrev Filter := Value → List Value → Value

/-- Filters by their names in lower case. -/
structure FilterRegister where
  filters : List (String × Filter) := []

namespace FilterRegister

/-- The filter of a name. -/
def get? (register : FilterRegister) (name : String) : Option Filter :=
  register.filters.lookup (Text.lowercase name)

/-- The register with a filter, in place of one of the same name. -/
def insert (register : FilterRegister) (name : String) (filter : Filter) : FilterRegister :=
  let key := Text.lowercase name
  ⟨(key, filter) :: register.filters.filter (·.1 != key)⟩

/-- The register without the filter of a name. -/
def erase (register : FilterRegister) (name : String) : FilterRegister :=
  ⟨register.filters.filter (·.1 != Text.lowercase name)⟩

/-- The names in order. -/
def names (register : FilterRegister) : List String := (register.filters.map Prod.fst).mergeSort

/-- The value in capitals. -/
def upper : Filter := fun value _ => .string (Text.uppercase value.display)

/-- The value in small letters. -/
def lower : Filter := fun value _ => .string (Text.lowercase value.display)

/-- A string without blanks at its ends. -/
def trim : Filter := fun value _ =>
  match value with
  | .string s => .string (Text.trimmed s)
  | other => other

/-- The number of characters, items, entries or elements; none for null, and null where nothing can
be counted. -/
def length : Filter := fun value _ =>
  match value with
  | .string s => .ofNat s.length
  | .null => .int 0
  | other =>
      match other.elements? with
      | some items => .ofNat items.length
      | none => .null

/-- The first argument in place of null or an empty string. -/
def default : Filter := fun value arguments =>
  if value.isEmptyText then arguments.headD .null else value

/-- The filters that every register of an engine starts from. -/
def builtin : FilterRegister :=
  ⟨[("upper", upper), ("lower", lower), ("trim", trim), ("length", length), ("default", default)]⟩

/-- The value after the filter of a name, from the first register that has one. -/
def apply (own shared : FilterRegister) (name : String) (value : Value) (arguments : List Value) :
    Value :=
  match (own.get? name).or (shared.get? name) with
  | some filter => filter value arguments
  | none => value

/-- The text that shows a register to a developer. -/
def inspect (register : FilterRegister) : String :=
  let names := register.names.map fun name => (Value.string name).inspect
  "FilterRegistry \x7b filters: [" ++ ", ".intercalate names ++ "] \x7d"

end FilterRegister

end Stencil
