/-!
Documents of settings: values, and tables that are filled statement by statement. How a table came
to be decides what may still be added to it.
-/

namespace Stencil.Toml

/-- How a table came to be: as part of a longer header, by its own header, as part of a dotted key, or
as a value. -/
inductive Form where
  | implied
  | headed
  | dotted
  | inline
deriving Repr, DecidableEq

/-- A value. The values of numbers with a fraction and of times are of no use to settings. -/
inductive Value where
  | text (value : String)
  | integer (value : Int)
  | real
  /-- A number that is out of range or has no digits: a mistake only where it is asked for. -/
  | unreadable
  | boolean (value : Bool)
  | time
  | array (items : List Value)
  /-- Tables under one repeated header, the latest first. -/
  | tables (elements : List (List (String × Value)))
  | table (form : Form) (entries : List (String × Value))

mutual

/-- Whether a value holds no unreadable number. -/
def Value.isReadable : Value → Bool
  | .unreadable => false
  | .array items => allReadable items
  | .tables elements => elementsReadable elements
  | .table _ entries => entriesReadable entries
  | _ => true

/-- Whether all values of a list are readable. -/
def allReadable : List Value → Bool
  | [] => true
  | value :: rest => value.isReadable && allReadable rest

/-- Whether all values of some entries are readable. -/
def entriesReadable : List (String × Value) → Bool
  | [] => true
  | (_, value) :: rest => value.isReadable && entriesReadable rest

/-- Whether all values of some tables are readable. -/
def elementsReadable : List (List (String × Value)) → Bool
  | [] => true
  | entries :: rest => entriesReadable entries && elementsReadable rest

end

/-- The entries of a table in the order in which they were made. -/
abbrev Entries := List (String × Value)

/-- The entries with another value under a key that is there. -/
def replace (key : String) (value : Value) (entries : Entries) : Entries :=
  entries.map fun entry => if entry.1 == key then (key, value) else entry

/-- Changes the table at the end of a path. Tables that are missing on the way are made in the form
`missing`, tables on the way must be of a form that may be passed, and of tables under a repeated
header the latest is meant. -/
def changeAt (missing : Form) (mayPass : Form → Bool) (change : Form → Entries → Option Entries) :
    List String → Form → Entries → Option Entries
  | [], form, entries => change form entries
  | key :: path, _, entries =>
      match entries.lookup key with
      | none => do
          let inner ← changeAt missing mayPass change path missing []
          return entries ++ [(key, .table missing inner)]
      | some (.table form inner) =>
          if mayPass form then do
            let inner ← changeAt missing mayPass change path form inner
            return replace key (.table form inner) entries
          else none
      | some (.tables (latest :: earlier)) => do
          let latest ← changeAt missing mayPass change path .headed latest
          return replace key (.tables (latest :: earlier)) entries
      | some _ => none

/-- Whether a header may lead through a table. -/
def headerPasses (form : Form) : Bool := form != .inline

/-- Whether a dotted key may lead through a table. -/
def keyPasses (form : Form) : Bool := form == .implied || form == .dotted

/-- The document with a table that has a header of its own. -/
def openTable (path : List String) (key : String) : Entries → Option Entries :=
  changeAt .implied headerPasses (fun _ entries =>
    match entries.lookup key with
    | none => some (entries ++ [(key, .table .headed [])])
    | some (.table .implied inner) => some (replace key (.table .headed inner) entries)
    | some _ => none) path .headed

/-- The document with one more table under a repeated header. -/
def openElement (path : List String) (key : String) : Entries → Option Entries :=
  changeAt .implied headerPasses (fun _ entries =>
    match entries.lookup key with
    | none => some (entries ++ [(key, .tables [[]])])
    | some (.tables elements) => some (replace key (.tables ([] :: elements)) entries)
    | some _ => none) path .headed

/-- The table with a value under a new key, perhaps a dotted one. -/
def addValue (path : List String) (key : String) (value : Value) (form : Form) :
    Entries → Option Entries :=
  changeAt .dotted keyPasses (fun form entries =>
    if !path.isEmpty && form != .dotted then none
    else if (entries.lookup key).isSome then none
    else some (entries ++ [(key, value)])) path form

end Stencil.Toml
