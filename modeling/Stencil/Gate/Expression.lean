import Stencil.Fault
import Stencil.Settings
import Stencil.Text.Basic
import Stencil.Text.Pattern

/-!
The gate for expressions, conditions and property paths. Every text that an expression is read from
passes here first. Checks run in a fixed order and the first flaw is the answer.
-/

namespace Stencil.Gate

open Text

/-- Fragments that never belong into an expression: names of host interfaces and marks of
injection. -/
def deniedFragments : List String := [
  "system.", "process.", "file.", "directory.", "reflection.", "assembly.", "activator.",
  "gettype(", "typeof(", "environment.", "socket", "httpclient", "webclient", "sqlconnection",
  "sqlcommand", "dbcontext", "eval(", "exec(", "<script", "javascript:", "vbscript:", "cmd.exe",
  "powershell", "/bin/sh", "$(", "`"]

/-- Words that may stand before a parenthesis without being a call. -/
def operatorWords : List String := ["and", "or", "not"]

/-- Texts that look like a database query. -/
def queryPattern : Pattern :=
  let ways : List Way := [
    Way.word "select" ++ Way.blanks ++ Way.oneOrMore (· != '\n') ++ Way.blanks ++ Way.word "from",
    Way.word "insert" ++ Way.blanks ++ Way.word "into",
    Way.word "delete" ++ Way.blanks ++ Way.word "from",
    Way.word "drop" ++ Way.blanks ++ Way.word "table",
    Way.word "update" ++ Way.blanks ++ Way.oneOrMore isWord ++ Way.blanks ++ Way.word "set",
    Way.word "union" ++ Way.blanks ++ Way.word "all" ++ Way.blanks ++ Way.word "select",
    Way.word "union" ++ Way.blanks ++ Way.word "select"]
  ways.map fun way => .bound :: way ++ [.bound]

/-- Names of host types. -/
def typeWords : List String := [
  "system", "process", "file", "directory", "environment", "assembly", "activator", "appdomain",
  "marshal", "registry", "console", "runtime", "reflection"]

/-- The name of a host type before a point. -/
def typePattern : Pattern :=
  typeWords.map fun word => .bound :: Way.word word ++ [.run isBlank, .one (· == '.')]

/-- Whether a fragment occurs in a text that follows `before`. A fragment that starts with a letter
counts only where no letter, digit or underscore comes before it. -/
def fragmentOccurs (fragment : List Char) (before : Option Char) : List Char → Bool
  | [] => false
  | c :: rest =>
      (fragment.isPrefixOf (c :: rest) &&
          (!fragment.head?.any isAsciiLetter || !before.any fun p => isAlphanumeric p || p == '_')) ||
        fragmentOccurs fragment (some c) rest

/-- The first denied fragment of a text, whatever the case of its letters. -/
def deniedFragment? (expression : List Char) : Option String :=
  let lowered := lower expression
  deniedFragments.find? fun fragment => fragmentOccurs fragment.toList none lowered

/-- The text with everything inside quotes made blank, from a state of quotes on. -/
def blankQuotedFrom (quote : Option Char) : List Char → List Char
  | [] => []
  | c :: rest =>
      match quote with
      | some mark =>
          if c = mark then c :: blankQuotedFrom none rest else ' ' :: blankQuotedFrom (some mark) rest
      | none => c :: blankQuotedFrom (if c = '"' ∨ c = '\'' then some c else none) rest

/-- The text with everything inside quotes made blank. -/
def blankQuoted (s : List Char) : List Char := blankQuotedFrom none s

/-- The identifier that ends where a parenthesis opens, blanks aside. What comes before the
parenthesis is given backwards. -/
def nameBefore (before : List Char) : List Char :=
  ((before.dropWhile isBlank).takeWhile isIdentifierPart).reverse.dropWhile isAsciiDigit

/-- The names before the parentheses of a text that follows `before`. -/
def namesBeforeParens (before : List Char) : List Char → List (List Char)
  | [] => []
  | c :: rest =>
      let later := namesBeforeParens (c :: before) rest
      if c = '(' then nameBefore before :: later else later

/-- Whether a name may stand before a parenthesis. -/
def mayCall (security : Security) (name : List Char) : Bool :=
  name.isEmpty || (operatorWords ++ security.allowedFunctions).any fun allowed =>
    sameLetters allowed.toList name

/-- The first call in a text that is not allowed. -/
def call? (security : Security) (unquoted : List Char) : Option (List Char) :=
  (namesBeforeParens [] unquoted).find? (!mayCall security ·)

/-- The flaw of an expression of allowed length. -/
def expressionFlaw? (security : Security) (expression : List Char) : Option ExpressionFlaw :=
  let unquoted := blankQuoted expression
  if expression.contains '\x00' then some .nulCharacter
  else (deniedFragment? expression).map .deniedFragment
    |>.or ((queryPattern.find? expression).map fun text => .query (String.ofList text))
    |>.or ((typePattern.find? expression).map fun text => .typeReference (String.ofList text))
    |>.or ((call? security unquoted).map fun name => .call (String.ofList name))
    |>.or (if !security.allowIndexers && unquoted.contains '[' then some .indexer else none)

/-- Checks an expression before it is resolved. -/
def checkExpression (security : Security) (expression : String) : Except Fault Unit :=
  if security.expressionLength < expression.utf8ByteSize then
    .error (.limitExceeded .expressionLength security.expressionLength expression.utf8ByteSize)
  else
    match expressionFlaw? security expression.toList with
    | some flaw => .error (.unsafeExpression expression flaw)
    | none => .ok ()

/-- Whether a text that follows `before` holds an equals sign that is no part of a comparison. -/
def assigns (before : Option Char) : List Char → Bool
  | [] => false
  | c :: rest =>
      (c == '=' && !(before.any (fun p => p == '=' || p == '!' || p == '<' || p == '>') ||
          rest.head? == some '=')) ||
        assigns (some c) rest

/-- Checks a condition: as an expression, and for an assignment outside quotes. -/
def checkCondition (security : Security) (condition : String) : Except Fault Unit :=
  match checkExpression security condition with
  | .error (.unsafeExpression _ flaw) => .error (.unsafeCondition condition flaw)
  | .error other => .error other
  | .ok () =>
      if assigns none (blankQuoted condition.toList) then
        .error (.unsafeCondition condition .assignment)
      else .ok ()

/-- Checks a dotted property path: identifiers, not too many, none of them blocked. -/
def checkPropertyPath (security : Security) (path : String) : Except Fault Unit :=
  let segments := splitAt '.' path.toList
  if !segments.all isIdentifier then .error (.unsafePropertyPath path .malformed)
  else if security.propertyDepth < segments.length then
    .error (.limitExceeded .propertyDepth security.propertyDepth segments.length)
  else
    match segments.find? fun segment => security.blocks (String.ofList segment) with
    | some segment =>
        .error (.unsafePropertyPath path (.blockedSegment (String.ofList segment)))
    | none => .ok ()

end Stencil.Gate
