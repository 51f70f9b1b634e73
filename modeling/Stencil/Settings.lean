import Stencil.Disk.Path
import Stencil.Text.Case

/-!
Settings of an engine: where templates lie, what the gate lets through, how much a render may use,
and how much the caches hold.
-/

namespace Stencil

/-- How interpolated values are encoded. -/
structure Encoding where
  /-- Whether the five special characters of markup become entities. -/
  htmlEncode : Bool := true
  /-- Whether everything that looks like a tag is removed first. -/
  stripTags : Bool := false
  /-- Whether the text is made fit for a string inside a script. -/
  scriptEncode : Bool := false
deriving Repr, DecidableEq

/-- How much one template or one render may use. -/
structure Limits where
  /-- The size of a template in bytes. -/
  templateSize : Nat := 1024 * 1024
  /-- The opening braces of interpolations in a template. -/
  interpolations : Nat := 10000
  /-- The nesting of tags in a template. -/
  nestingDepth : Nat := 100
  /-- The iterations of loops that are open at once. -/
  loopIterations : Nat := 10000
  /-- The calls of fragments that are open at once. -/
  recursionDepth : Nat := 50
  /-- The components and layouts that are open at once. -/
  includeDepth : Nat := 10
deriving Repr, DecidableEq

/-- The names that nothing resolves, whoever owns them. -/
def defaultBlockedNames : List String := [
  "password", "passwordHash", "passwordSalt", "securityStamp", "connectionString", "apiKey",
  "secret", "secretKey", "privateKey", "accessToken", "refreshToken", "creditCardNumber"]

/-- What the gate lets through. -/
structure Security where
  /-- The longest expression in bytes. -/
  expressionLength : Nat := 1000
  /-- Names that may stand before a parenthesis. -/
  allowedFunctions : List String := []
  allowIndexers : Bool := true
  blockedNames : List String := defaultBlockedNames
  /-- The segments of a dotted path. -/
  propertyDepth : Nat := 10
  /-- Directories that template files lie below; without any no file is read. -/
  allowedRoots : List String := []
  allowedExtensions : List String := ["html", "htm"]
  encoding : Encoding := {}
  allowInlineScripts : Bool := false
  limits : Limits := {}
deriving Repr, DecidableEq

/-- Whether a name is blocked, whatever the case of its letters. -/
def Security.blocks (security : Security) (name : String) : Bool :=
  security.blockedNames.any (Text.sameName · name)

/-- Where templates are looked for. -/
structure Places where
  pages : String := "."
  components : String := "."
deriving Repr, DecidableEq

/-- How much the caches hold. -/
structure CacheSizes where
  templates : Nat := 1000
  outputs : Nat := 1000
  /-- Templates up to this many bytes are keyed by their text, longer ones by a digest. -/
  literalKey : Nat := 256
deriving Repr, DecidableEq

/-- All settings of an engine. -/
structure Settings where
  places : Places := {}
  security : Security := {}
  cache : CacheSizes := {}
deriving Repr, DecidableEq

/-- The settings with one directory for pages and components, below which files may be read. -/
def Settings.withTemplateRoot (settings : Settings) (root : String) : Settings :=
  let security := settings.security
  let roots :=
    if security.allowedRoots.any (Disk.samePath root) then security.allowedRoots
    else security.allowedRoots ++ [root]
  { settings with places := ⟨root, root⟩, security := { security with allowedRoots := roots } }

end Stencil
