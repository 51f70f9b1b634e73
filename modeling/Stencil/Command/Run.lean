import Stencil.Command.Help
import Stencil.Engine
import Stencil.Json.Read
import Stencil.Settings.Read

/-!
Runs of the program. A task reads from a disk and ends with an output or with a failure; nothing is put
out before a failure.
-/

namespace Stencil.Command

open Disk

/-- Why a task fails. -/
inductive Failure where
  | fault (cause : Fault)
  /-- A file or a directory that the arguments name cannot be read. -/
  | unreadable (path : String) (cause : FileFault)
  /-- A file with data holds no object. -/
  | noObject (path : String)
deriving Repr, DecidableEq

/-- The wording of a failure. -/
def Failure.message : Failure → String
  | .fault cause => cause.message
  | .unreadable path cause => path ++ ": " ++ cause.reason
  | .noObject path => path ++ " must contain a JSON object"

/-- The code under which a failure is reported, if it has one. -/
def Failure.code? : Failure → Option String
  | .fault cause => some cause.code
  | _ => none

/-- How the program ends. -/
inductive Ending where
  | done (output : String)
  | failed (failure : Failure)
  /-- There was no task. -/
  | idle
  /-- The arguments made no request. -/
  | refused
deriving Repr, DecidableEq

namespace Ending

/-- The code that the program exits with. -/
def exitCode : Ending → Nat
  | .done _ => 0
  | .failed _ | .refused => 2
  | .idle => 1

/-- What the program puts out. -/
def output : Ending → String
  | .done output => output
  | _ => ""

/-- The code of the failure that the program reports. -/
def diagnostic? : Ending → Option String
  | .failed failure => failure.code?
  | _ => none

/-- What the program says in place of an output. -/
def complaint : Ending → String
  | .done _ => ""
  | .failed failure =>
      match failure.code? with
      | some code => code ++ "\n\n  " ++ failure.message ++ "\n"
      | none => "error: " ++ failure.message ++ "\n"
  | .idle => "No subcommand specified. Run `tessera --help` for usage.\n"
  | .refused => "error: invalid arguments\n\nFor more information, try '--help'.\n"

end Ending

/-- What is reported of a template that was accepted. -/
structure Findings where
  file : String
  size : Nat
  components : List String
  sections : List String
deriving Repr, DecidableEq

namespace Findings

/-- The lines of a list under its title. -/
def listed (colour : Bool) (title : String) (items : List String) : List String :=
  if items.isEmpty then [title ++ ": none"]
  else
    let title := title ++ ":"
    (if colour then "\x1b[1m" ++ title ++ "\x1b[0m" else title) :: items.map ("  " ++ ·)

/-- The findings for a reader. -/
def text (colour : Bool) (findings : Findings) : String :=
  let verdict := if colour then "\x1b[32mvalid:\x1b[39m " else "valid: "
  let lines := (verdict ++ findings.file) :: listed colour "Components" findings.components ++
    listed colour "Sections" findings.sections
  "\n".intercalate lines ++ "\n"

/-- A text as JSON. -/
def quoted (text : String) : String := String.ofList (Json.quote text)

/-- A list of texts as JSON, for the member of an object. -/
def array (items : List String) : String :=
  if items.isEmpty then "[]"
  else "[\n" ++ ",\n".intercalate (items.map fun item => "    " ++ quoted item) ++ "\n  ]"

/-- The findings as JSON. -/
def json (findings : Findings) : String :=
  let members := [
    ("bytes", toString findings.size),
    ("components", array findings.components),
    ("file", quoted findings.file),
    ("sections", array findings.sections),
    ("valid", "true")]
  let lines := members.map fun (name, value) => "  " ++ quoted name ++ ": " ++ value
  "\x7b\n" ++ ",\n".intercalate lines ++ "\n\x7d\n"

end Findings

/-- A step of a task. -/
abbrev Step := Except Failure

/-- A step that only a fault can stop. -/
def ofFault {α : Type} : Except Fault α → Step α := Except.mapError .fault

/-- The text of a file. -/
def readText (disk : Disk) (path : String) : Step String := do
  let some file := disk.fileAt? path | throw (.unreadable path .missing)
  let some text := file.text | throw (.unreadable path .invalidText)
  return text

/-- The root of the templates: the one that is given, or else the directory of the file. -/
def templateRoot (disk : Disk) (file : String) (root : Option String) : Step String :=
  let root := root.getD (Disk.parent file)
  match disk.existing? root with
  | some location => .ok location.path
  | none => .error (.unreadable root .missing)

/-- The variables of a task: the entries of the data, then the bindings. -/
def givenVariables (disk : Disk) (data : Option String) (bindings : List (String × String)) :
    Step Variables := do
  let entries ← match data with
    | none => pure []
    | some path =>
        match Json.read? (← readText disk path) with
        | some (.map entries) => pure entries
        | _ => throw (.noObject path)
  return Variables.ofList (entries ++ bindings.map fun (name, text) => (name, .string text))

/-- The path that a file is rendered under: where it lies, if it is there. -/
def target (disk : Disk) (file : String) : String :=
  match (disk.existing? file).filter fun location => (disk.file? location).isSome with
  | some location => location.path
  | none => file

/-- Values of the program hold no objects. -/
def noObjects : Host := ⟨fun _ _ => none, fun _ _ => false, fun _ _ => none⟩

/-- Work of a new engine with settings. -/
def work {α : Type} (settings : Settings) (job : Working α) : Step α :=
  ofFault (job ⟨Engine.ofSettings settings, {}, []⟩).1

/-- The output of a file. -/
def renderedFile (disk : Disk) (file : String) (root data : Option String)
    (bindings : List (String × String)) (isPage : Bool) : Step String := do
  let settings ← ofFault (Settings.ofDirectory disk (← templateRoot disk file root))
  let vars ← givenVariables disk data bindings
  work settings (Engine.renderFile ⟨noObjects, disk, 0⟩ (target disk file) vars isPage)

/-- What is found in a file, if it is accepted. -/
def findings (disk : Disk) (file : String) (root : Option String) : Step Findings := do
  let settings ← ofFault (Settings.load disk (← templateRoot disk file root))
  let source ← readText disk file
  let prepared ← work (settings.getD {}) (Engine.prepare source)
  return ⟨file, source.utf8ByteSize, prepared.tree.componentRefs, prepared.tree.sectionNames⟩

/-- The output of a task. -/
def Task.output (disk : Disk) (colour : Bool) : Task → Step String
  | .render file root data bindings isPage => renderedFile disk file root data bindings isPage
  | .check file root .text => return (← findings disk file root).text colour
  | .check file root .json => return (← findings disk file root).json

/-- What the program tells as its version. -/
def versionText : String := "tessera_cli 0.3.0\n"

/-- How a request ends, on a disk and with or without colours. -/
def Request.ending (disk : Disk) (colour : Bool) : Request → Ending
  | .help topic long => .done (topic.text long)
  | .version => .done versionText
  | .mistake => .refused
  | .work none _ => .idle
  | .work (some task) mayColour =>
      match task.output disk (colour && mayColour) with
      | .ok output => .done output
      | .error failure => .failed failure

/-- A run of the program with arguments. -/
def run (disk : Disk) (colour : Bool) (arguments : List String) : Ending :=
  (Request.ofArguments arguments).ending disk colour

/-- The directories that the arguments of a task lead to. -/
def Task.directories : Task → List String
  | .render file root data _ _ => Disk.parent file :: root.toList ++ data.toList.map Disk.parent
  | .check file root _ => Disk.parent file :: root.toList

/-- The directories that the settings of a task lead to, on a disk that holds its root. -/
def Task.places (disk : Disk) (task : Task) : List String :=
  let (file, root) := match task with
    | .render file root _ _ _ => (file, root)
    | .check file root _ => (file, root)
  let settings := do ofFault (Settings.ofDirectory disk (← templateRoot disk file root))
  match settings with
  | .ok settings => [settings.places.pages, settings.places.components]
  | .error _ => []

end Stencil.Command
