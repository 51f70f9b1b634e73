import Stencil.Text.Basic

/-!
Requests to the program, read from its arguments. Options stand anywhere behind the command they
belong to; what stands behind two dashes alone is no option. The first thing that is wrong or asks for
help ends the reading.
-/

namespace Stencil.Command

/-- How the result of a check is reported. -/
inductive Format where
  | text
  | json
deriving Repr, DecidableEq

/-- What the program does with a template. -/
inductive Task where
  | render (file : String) (root data : Option String) (bindings : List (String × String))
      (isPage : Bool)
  | check (file : String) (root : Option String) (format : Format)
deriving Repr, DecidableEq

/-- What help is about. -/
inductive Topic where
  | program
  | render
  | check
  | help
deriving Repr, DecidableEq

/-- A request to the program. -/
inductive Request where
  /-- A task, if any, and whether the output may be coloured. -/
  | work (task : Option Task) (mayColour : Bool)
  | help (topic : Topic) (long : Bool)
  | version
  /-- Arguments that make no request. -/
  | mistake
deriving Repr, DecidableEq

/-- What is wrong with the binding of a variable. -/
inductive BindingFlaw where
  | noEqualsSign (text : String)
  | noName
deriving Repr, DecidableEq

/-- The wording of a flaw of a binding. -/
def BindingFlaw.message : BindingFlaw → String
  | .noEqualsSign text => "expected NAME=VALUE, got `" ++ text ++ "`"
  | .noName => "variable name must not be empty"

/-- The name and the value of a binding: what stands before and after the first equals sign. Blanks
around the name do not count. -/
def binding (text : String) : Except BindingFlaw (String × String) :=
  match Text.cut? ['='] text.toList with
  | none => .error (.noEqualsSign text)
  | some (before, after) =>
      let name := Text.trim before
      if name.isEmpty then .error .noName
      else .ok (String.ofList name, String.ofList after)

/-- Why reading of arguments ends early. -/
inductive Stop where
  | help (long : Bool)
  | version
  | mistake
deriving Repr, DecidableEq

/-- An option with a value. -/
structure ValueOption where
  name : String
  /-- Whether the option may be given more than once. -/
  repeats : Bool
  accepts : String → Bool

/-- The options of a command. -/
structure Options where
  flags : List String
  values : List ValueOption
  /-- Whether the command tells the version of the program. -/
  tellsVersion : Bool

/-- What was read of the arguments of a command. -/
structure Taken where
  flags : List String := []
  /-- The names and values of options, the latest first. -/
  values : List (String × String) := []
  operands : List String := []

/-- Takes a flag; none may be given twice. -/
def Taken.flag (taken : Taken) (name : String) : Except Stop Taken :=
  if taken.flags.contains name then .error .mistake
  else .ok { taken with flags := name :: taken.flags }

/-- Takes the value of an option. -/
def Taken.value (taken : Taken) (option : ValueOption) (value : String) : Except Stop Taken :=
  if !option.accepts value || (!option.repeats && (taken.values.lookup option.name).isSome) then
    .error .mistake
  else .ok { taken with values := (option.name, value) :: taken.values }

/-- Takes what is no option. A command has one operand, a path that is not empty. -/
def Taken.operand (taken : Taken) (text : String) : Except Stop Taken :=
  if text.isEmpty || !taken.operands.isEmpty then .error .mistake
  else .ok { taken with operands := [text] }

/-- Takes a group of one-letter options. -/
def takeLetters (options : Options) (taken : Taken) : List Char → Except Stop Taken
  | [] => .ok taken
  | 'v' :: rest => do takeLetters options (← taken.flag "verbose") rest
  | 'h' :: _ => .error (.help false)
  | 'V' :: _ => .error (if options.tellsVersion then .version else .mistake)
  | _ :: _ => .error .mistake

/-- Takes an option by its name, with the value written behind an equals sign. The option is given
back when its value is still to come. -/
def takeNamed (options : Options) (taken : Taken) (name : String) (value : Option String) :
    Except Stop (Taken × Option ValueOption) :=
  match options.values.find? (·.name == name) with
  | some option =>
      match value with
      | some value => do return (← taken.value option value, none)
      | none => .ok (taken, some option)
  | none =>
      if value.isSome then .error .mistake
      else if name = "help" then .error (.help true)
      else if name = "version" ∧ options.tellsVersion = true then .error .version
      else if options.flags.contains name then do return (← taken.flag name, none)
      else .error .mistake

/-- An argument that may be an option. -/
inductive Shape where
  | named (name : String) (value : Option String)
  | letters (letters : List Char)
  | endOfOptions
  | operand

/-- The shape of an argument. -/
def shape (argument : String) : Shape :=
  match argument.toList with
  | ['-', '-'] => .endOfOptions
  | '-' :: '-' :: rest =>
      match Text.cut? ['='] rest with
      | some (name, value) => .named (String.ofList name) (some (String.ofList value))
      | none => .named (String.ofList rest) none
  | '-' :: c :: rest => .letters (c :: rest)
  | _ => .operand

/-- Reads the arguments of a command; `awaiting` is the option whose value comes next. -/
def readArguments (options : Options) (awaiting : Option ValueOption) (taken : Taken) :
    List String → Except Stop Taken
  | [] => if awaiting.isSome then .error .mistake else .ok taken
  | argument :: rest =>
      match awaiting, shape argument with
      | some option, .operand => do readArguments options none (← taken.value option argument) rest
      | some _, _ => .error .mistake
      | none, .operand => do readArguments options none (← taken.operand argument) rest
      | none, .endOfOptions => rest.foldlM Taken.operand taken
      | none, .letters letters => do
          readArguments options none (← takeLetters options taken letters) rest
      | none, .named name value => do
          let (taken, awaiting) ← takeNamed options taken name value
          readArguments options awaiting taken rest

/-- Options that every command has. -/
def commonFlags : List String := ["verbose", "no-color"]

/-- An option with a path. -/
def pathOption (name : String) : ValueOption := ⟨name, false, (!·.isEmpty)⟩

/-- The options of the program itself. -/
def programOptions : Options := ⟨commonFlags, [], true⟩

/-- The options of rendering. -/
def renderOptions : Options :=
  ⟨"page" :: commonFlags,
    [pathOption "root", pathOption "data", ⟨"var", true, fun text => (binding text).toBool⟩], false⟩

/-- The options of checking. -/
def checkOptions : Options :=
  ⟨commonFlags,
    [pathOption "root", ⟨"format", false, fun text => text == "text" || text == "json"⟩], false⟩

/-- The request behind a stop. -/
def Stop.request (topic : Topic) : Stop → Request
  | .help long => .help topic long
  | .version => .version
  | .mistake => .mistake

/-- The bindings of an option that was given any number of times, in order. -/
def Taken.bindings (taken : Taken) : List (String × String) :=
  taken.values.reverse.filterMap fun (name, text) =>
    if name == "var" then (binding text).toOption else none

/-- The task of rendering. -/
def renderTask? (taken : Taken) : Option Task := do
  let file ← taken.operands.head?
  return .render file (taken.values.lookup "root") (taken.values.lookup "data") taken.bindings
    (taken.flags.contains "page")

/-- The task of checking. -/
def checkTask? (taken : Taken) : Option Task := do
  let file ← taken.operands.head?
  let format := if taken.values.lookup "format" = some "json" then .json else .text
  return .check file (taken.values.lookup "root") format

/-- The request for a command, after the flags that stand before it. -/
def commandRequest (topic : Topic) (options : Options) (task? : Taken → Option Task)
    (before : Taken) (arguments : List String) : Request :=
  match readArguments options none {} arguments with
  | .error stop => stop.request topic
  | .ok taken =>
      match task? taken with
      | none => .mistake
      | some task =>
          .work (some task) (!(before.flags ++ taken.flags).contains "no-color")

/-- The request for help on a command. -/
def helpRequest : List String → Request
  | [] => .help .program true
  | ["render"] => .help .render true
  | ["check"] => .help .check true
  | ["help"] => .help .help true
  | _ => .mistake

/-- The request that arguments make, after the flags taken so far. -/
def requestAfter (taken : Taken) : List String → Request
  | [] => .work none (!taken.flags.contains "no-color")
  | argument :: rest =>
      match shape argument with
      | .operand =>
          if argument = "render" then commandRequest .render renderOptions renderTask? taken rest
          else if argument = "check" then commandRequest .check checkOptions checkTask? taken rest
          else if argument = "help" then helpRequest rest
          else .mistake
      | .endOfOptions =>
          if rest.isEmpty then .work none (!taken.flags.contains "no-color") else .mistake
      | .letters letters =>
          match takeLetters programOptions taken letters with
          | .ok taken => requestAfter taken rest
          | .error stop => stop.request .program
      | .named name value =>
          match takeNamed programOptions taken name value with
          | .ok (taken, _) => requestAfter taken rest
          | .error stop => stop.request .program

/-- The request that the arguments of the program make. -/
def Request.ofArguments (arguments : List String) : Request := requestAfter {} arguments

end Stencil.Command
