import Stencil.Disk.Basic
import Stencil.Fault
import Stencil.Settings
import Stencil.Toml.Reader

/-!
Settings from a document. A setting that the document leaves out keeps its default, and keys that are
no settings do not count. A section may also be an array of its settings in their order.
-/

namespace Stencil.Settings

open Toml

/-- A section of settings: what it has for the setting of a name. -/
abbrev Section := String → Option Toml.Value

/-- The section that a value is, for settings of some names in their order. What else a table holds
must be readable, but nothing looks at what else an array holds. A time is a section without
settings. -/
def section? (names : List String) : Toml.Value → Option Section
  | .table _ entries =>
      if entriesReadable (entries.filter fun (name, _) => !names.contains name) then
        some fun name => entries.lookup name
      else none
  | .array items => some fun name => items[names.idxOf name]?
  | .tables elements =>
      some fun name => elements.reverse[names.idxOf name]?.map (Toml.Value.table .headed)
  | .time => some fun _ => none
  | _ => none

/-- A setting, or its default if the section leaves it out. -/
def Section.get {α : Type} (part : Section) (name : String) (read : Toml.Value → Option α)
    (default : α) : Option α :=
  match part name with
  | none => some default
  | some value => read value

/-- A count, in the range of unsigned 64 bits. -/
def count? : Toml.Value → Option Nat
  | .integer n => if 0 ≤ n ∧ n < (Nat.pow 2 64 : Nat) then some n.toNat else none
  | _ => none

/-- A choice. -/
def choice? : Toml.Value → Option Bool
  | .boolean b => some b
  | _ => none

/-- A text. -/
def text? : Toml.Value → Option String
  | .text s => some s
  | _ => none

/-- A list of texts. -/
def texts? : Toml.Value → Option (List String)
  | .array items => items.mapM text?
  | _ => none

/-- The names of the settings of the encoding. -/
def encodingNames : List String := ["html_encode", "strip_tags", "script_encode"]

/-- Settings of the encoding. -/
def encoding? (value : Toml.Value) : Option Encoding := do
  let part ← section? encodingNames value
  let default : Encoding := {}
  return {
    htmlEncode := ← part.get "html_encode" choice? default.htmlEncode
    stripTags := ← part.get "strip_tags" choice? default.stripTags
    scriptEncode := ← part.get "script_encode" choice? default.scriptEncode }

/-- The names of the settings of the limits. -/
def limitNames : List String := [
  "max_template_size", "max_interpolations", "max_nesting_depth", "max_loop_iterations",
  "max_recursion_depth", "max_include_depth"]

/-- Settings of the limits. -/
def limits? (value : Toml.Value) : Option Limits := do
  let part ← section? limitNames value
  let default : Limits := {}
  return {
    templateSize := ← part.get "max_template_size" count? default.templateSize
    interpolations := ← part.get "max_interpolations" count? default.interpolations
    nestingDepth := ← part.get "max_nesting_depth" count? default.nestingDepth
    loopIterations := ← part.get "max_loop_iterations" count? default.loopIterations
    recursionDepth := ← part.get "max_recursion_depth" count? default.recursionDepth
    includeDepth := ← part.get "max_include_depth" count? default.includeDepth }

/-- The names of the settings of the gate. -/
def securityNames : List String := [
  "max_expression_length", "allowed_functions", "allow_indexers", "blocked_property_names",
  "max_property_depth", "allowed_roots", "allowed_extensions", "encoding", "allow_inline_scripts",
  "limits"]

/-- Settings of the gate. -/
def security? (value : Toml.Value) : Option Security := do
  let part ← section? securityNames value
  let default : Security := {}
  return {
    expressionLength := ← part.get "max_expression_length" count? default.expressionLength
    allowedFunctions := ← part.get "allowed_functions" texts? default.allowedFunctions
    allowIndexers := ← part.get "allow_indexers" choice? default.allowIndexers
    blockedNames := ← part.get "blocked_property_names" texts? default.blockedNames
    propertyDepth := ← part.get "max_property_depth" count? default.propertyDepth
    allowedRoots := ← part.get "allowed_roots" texts? default.allowedRoots
    allowedExtensions := ← part.get "allowed_extensions" texts? default.allowedExtensions
    encoding := ← part.get "encoding" encoding? default.encoding
    allowInlineScripts := ← part.get "allow_inline_scripts" choice? default.allowInlineScripts
    limits := ← part.get "limits" limits? default.limits }

/-- The names of the settings of the places of templates. -/
def placeNames : List String := ["pages_dir", "components_dir"]

/-- Settings of the places of templates. -/
def places? (value : Toml.Value) : Option Places := do
  let part ← section? placeNames value
  let default : Places := {}
  return {
    pages := ← part.get "pages_dir" text? default.pages
    components := ← part.get "components_dir" text? default.components }

/-- The names of the settings of the caches. -/
def cacheNames : List String := ["max_templates", "max_outputs", "literal_key_threshold"]

/-- Settings of the caches. -/
def cacheSizes? (value : Toml.Value) : Option CacheSizes := do
  let part ← section? cacheNames value
  let default : CacheSizes := {}
  return {
    templates := ← part.get "max_templates" count? default.templates
    outputs := ← part.get "max_outputs" count? default.outputs
    literalKey := ← part.get "literal_key_threshold" count? default.literalKey }

/-- The names of the sections. -/
def sectionNames : List String := ["paths", "security", "cache"]

/-- The settings of a document. -/
def ofEntries? (entries : Entries) : Option Settings := do
  let part ← section? sectionNames (.table .headed entries)
  return {
    places := ← part.get "paths" places? {}
    security := ← part.get "security" security? {}
    cache := ← part.get "cache" cacheSizes? {} }

/-- The settings that a document writes. -/
def read (document : String) : Except Fault Settings :=
  match (read? document).bind ofEntries? with
  | some settings => .ok settings
  | none => .error .malformedSettings

/-- The names of settings files, in the order in which they are looked for. -/
def fileNames : List String := ["tessera.toml", ".tessera.toml", ".config/tessera.toml"]

/-- The settings with relative directories below another directory. -/
def below (root : String) (settings : Settings) : Settings :=
  let security := settings.security
  { settings with
    places := ⟨Disk.join root settings.places.pages, Disk.join root settings.places.components⟩
    security := { security with allowedRoots := security.allowedRoots.map (Disk.join root) } }

/-- The settings of the first settings file in a directory, if there is one. -/
def load (disk : Disk) (root : String) : Except Fault (Option Settings) := do
  match fileNames.findSome? fun name => disk.fileAt? (Disk.join root name) with
  | none => return none
  | some file =>
      match file.text with
      | none => throw (.file .invalidText)
      | some document => return some ((← read document).below root)

/-- The settings of a directory: those of its settings file, or else the defaults with the directory
as the place of all templates. -/
def ofDirectory (disk : Disk) (root : String) : Except Fault Settings := do
  return (← load disk root).getD (({} : Settings).withTemplateRoot root)

end Stencil.Settings
