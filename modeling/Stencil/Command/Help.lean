import Stencil.Command.Request

/-!
Help pages. A short page says each thing on one line, in two columns; a long page says more about the
command, and what an option means stands below the option.
-/

namespace Stencil.Command

/-- An operand or an option on a help page. -/
structure HelpEntry where
  label : String
  meaning : String
  /-- The values that may be given, with their meanings. -/
  choices : List (String × String) := []
  default : Option String := none

/-- A help page. -/
structure HelpPage where
  summary : String
  /-- What a long page says in place of the summary. -/
  account : String
  usage : String
  commands : List (String × String) := []
  operands : List HelpEntry := []
  options : List HelpEntry := []

namespace HelpEntry

/-- The remark on the value that holds when none is given. -/
def defaultNote (entry : HelpEntry) : List String :=
  entry.default.toList.map fun value => "[default: " ++ value ++ "]"

/-- The remark on the values that may be given. -/
def choicesNote (entry : HelpEntry) : List String :=
  if entry.choices.isEmpty then []
  else ["[possible values: " ++ ", ".intercalate (entry.choices.map Prod.fst) ++ "]"]

/-- The meaning on one line. -/
def line (entry : HelpEntry) : String :=
  " ".intercalate (entry.meaning :: (entry.defaultNote ++ entry.choicesNote))

/-- The space before everything that stands below an option. -/
def margin : String := "          "

/-- The lines of an entry on a long page. -/
def lines (entry : HelpEntry) : List String :=
  let choices := entry.choices.map fun (value, meaning) => margin ++ "- " ++ value ++ ": " ++ meaning
  ["  " ++ entry.label, margin ++ entry.meaning] ++
    (if choices.isEmpty then [] else ["", margin ++ "Possible values:"] ++ choices) ++
    entry.defaultNote.flatMap fun note => [margin, margin ++ note]

end HelpEntry

/-- Lines in two columns. -/
def columns (rows : List (String × String)) : List String :=
  let width := (rows.map fun (label, _) => label.length).max?.getD 0
  rows.map fun (label, text) => "  " ++ label.pushn ' ' (width + 2 - label.length) ++ text

/-- A part of a help page under a title, after a blank line. -/
def titled (title : String) (lines : List String) : List String :=
  if lines.isEmpty then [] else ["", title ++ ":"] ++ lines

/-- The lines of entries. On a long page blank lines separate them. -/
def entryLines (long : Bool) (entries : List HelpEntry) : List String :=
  if long then ((entries.map HelpEntry.lines).intersperse [""]).flatten
  else columns (entries.map fun entry => (entry.label, entry.line))

/-- The text of a help page. -/
def HelpPage.text (page : HelpPage) (long : Bool) : String :=
  let lines := [if long then page.account else page.summary, "", "Usage: " ++ page.usage] ++
    titled "Commands" (columns page.commands) ++
    titled "Arguments" (entryLines long page.operands) ++
    titled "Options" (entryLines long page.options)
  "\n".intercalate lines ++ "\n"

/-- The option for more output. -/
def verboseEntry : HelpEntry :=
  { label := "-v, --verbose"
    meaning := "Enable debug logging. `RUST_LOG` takes precedence when set" }

/-- The option against colours. -/
def noColourEntry : HelpEntry :=
  { label := "    --no-color", meaning := "Disable colored output" }

/-- The option for help. -/
def helpEntry (long : Bool) : HelpEntry :=
  { label := "-h, --help"
    meaning :=
      if long then "Print help (see a summary with '-h')"
      else "Print help (see more with '--help')" }

/-- What rendering does. -/
def renderSummary : String := "Render a template file and print the output"

/-- What checking does. -/
def checkSummary : String := "Validate and parse a template without rendering it"

/-- What help does. -/
def helpSummary : String := "Print this message or the help of the given subcommand(s)"

/-- The page on the program. -/
def programPage (long : Bool) : HelpPage where
  summary := "Render and validate tessera HTML templates."
  account :=
    "tessera renders HTML templates built from PascalCase control tags, " ++
    "`\x7b\x7b expression \x7d\x7d` interpolations and reusable components. " ++
    "Every template is treated as untrusted input and validated before it is rendered.\n\n" ++
    "Quick start:\n" ++
    "  tessera render page.html --var Name=Ada   Render a template\n" ++
    "  tessera check page.html                    Validate a template"
  usage := "tessera [OPTIONS] [COMMAND]"
  commands := [("render", renderSummary), ("check", checkSummary), ("help", helpSummary)]
  options := [
    verboseEntry,
    noColourEntry,
    helpEntry long,
    { label := "-V, --version", meaning := "Print version" }]

/-- The page on rendering. -/
def renderPage (long : Bool) : HelpPage where
  summary := renderSummary
  account :=
    renderSummary ++ ".\n\n" ++
    "Components and layouts are loaded from the template root, which is configured by a " ++
    "`tessera.toml` found there. Without a config file the root itself holds pages and components."
  usage := "tessera render [OPTIONS] <FILE>"
  operands := [
    { label := "<FILE>"
      meaning :=
        "The template to render. An existing file is used as given; otherwise the path is " ++
        "resolved inside the pages or components directory" }]
  options := [
    { label := "    --root <ROOT>"
      meaning := "Template root directory. Defaults to the directory containing the template" },
    { label := "    --data <DATA>"
      meaning := "JSON file whose top-level object supplies the variables" },
    verboseEntry,
    { label := "    --var <NAME=VALUE>"
      meaning := "Bind a string variable. May be repeated; overrides `--data`" },
    noColourEntry,
    { label := "    --page"
      meaning :=
        "Resolve a relative path against the pages directory instead of the components directory" },
    helpEntry long]

/-- The page on checking. -/
def checkPage (long : Bool) : HelpPage where
  summary := checkSummary
  account :=
    checkSummary ++ ".\n\n" ++
    "Runs the same security checks as rendering and lists the components the template references " ++
    "and the sections it declares. Exits with a non-zero status code when the template is rejected."
  usage := "tessera check [OPTIONS] <FILE>"
  operands := [{ label := "<FILE>", meaning := "The template file to check" }]
  options := [
    { label := "    --root <ROOT>"
      meaning :=
        "Directory holding the `tessera.toml` whose security settings apply. " ++
        "Defaults to the directory containing the template" },
    { label := "    --format <FORMAT>"
      meaning :=
        "Output format for check results. Use `text` for human-readable output or `json` for " ++
        "programmatic consumption"
      choices := [
        ("text", "Human-readable text output with colors and formatting"),
        ("json", "JSON output for programmatic consumption")]
      default := some "text" },
    verboseEntry,
    noColourEntry,
    helpEntry long]

/-- The page on help itself. It has nothing to say at length. -/
def helpHelpPage : HelpPage where
  summary := helpSummary
  account := helpSummary
  usage := "tessera help [COMMAND]..."
  operands := [{ label := "[COMMAND]...", meaning := "Print help for the subcommand(s)" }]

/-- The help on a topic. -/
def Topic.text (topic : Topic) (long : Bool) : String :=
  match topic with
  | .program => (programPage long).text long
  | .render => (renderPage long).text long
  | .check => (checkPage long).text long
  | .help => helpHelpPage.text false

end Stencil.Command
