/-!
The ways in which an operation fails. A fault holds its cause; its wording is in `Fault.message`
alone.
-/

namespace Stencil

/-- The limits that a settings file names. -/
inductive LimitName where
  | expressionLength
  | propertyDepth
  | templateSize
  | interpolations
  | nestingDepth
  | loopIterations
  | recursionDepth
deriving Repr, DecidableEq

/-- The name of a limit as settings spell it. -/
def LimitName.text : LimitName → String
  | .expressionLength => "max_expression_length"
  | .propertyDepth => "max_property_depth"
  | .templateSize => "max_template_size"
  | .interpolations => "max_interpolations"
  | .nestingDepth => "max_nesting_depth"
  | .loopIterations => "max_loop_iterations"
  | .recursionDepth => "max_recursion_depth"

/-- Why an expression or a condition is unsafe. The texts are those found in it. -/
inductive ExpressionFlaw where
  | nulCharacter
  | deniedFragment (fragment : String)
  | query (text : String)
  | typeReference (text : String)
  | call (name : String)
  | indexer
  /-- Only conditions have this flaw. -/
  | assignment
deriving Repr, DecidableEq

/-- Why a property path is unsafe. -/
inductive PathFlaw where
  | malformed
  | blockedSegment (segment : String)
  | blockedGlobal
  | blockedVariable
deriving Repr, DecidableEq

/-- Why a file path is unsafe. -/
inductive FileFlaw where
  | parentReference
  | tilde
  | encodedSeparator
  | doubledSeparator
  | extension
  | noRoots
  | outsideRoots
deriving Repr, DecidableEq

/-- What goes wrong with a file. -/
inductive FileFault where
  | invalidText
  | missing
deriving Repr, DecidableEq

/-- A failed operation. -/
inductive Fault where
  | file (cause : FileFault)
  | unsafeExpression (expression : String) (flaw : ExpressionFlaw)
  | unsafeCondition (condition : String) (flaw : ExpressionFlaw)
  | unsafePropertyPath (path : String) (flaw : PathFlaw)
  | unsafeFilePath (path : String) (flaw : FileFlaw)
  /-- A template with an inline script. -/
  | unsafeTemplate (fragment : String)
  | limitExceeded (limit : LimitName) (configured actual : Nat)
  | templateNotFound (path : String)
  | malformedSettings
deriving Repr, DecidableEq

/-- The wording of a flaw of an expression. -/
def ExpressionFlaw.reason : ExpressionFlaw → String
  | .nulCharacter => "contains a NUL character"
  | .deniedFragment fragment => "contains the denied fragment `" ++ fragment ++ "`"
  | .query text => "looks like SQL: `" ++ text ++ "`"
  | .typeReference text => "references the type `" ++ text ++ "`"
  | .call name => "calls the function `" ++ name ++ "`, which is not allowed"
  | .indexer => "indexers are disabled"
  | .assignment => "contains an assignment `=`"

/-- The wording of a flaw of a property path. -/
def PathFlaw.reason : PathFlaw → String
  | .malformed => "must be identifiers separated by `.`"
  | .blockedSegment segment => "`" ++ segment ++ "` is a blocked property name"
  | .blockedGlobal => "blocked property names cannot be bound as globals"
  | .blockedVariable => "blocked property names cannot be bound as variables"

/-- The wording of a flaw of a file path. -/
def FileFlaw.reason : FileFlaw → String
  | .parentReference => "contains a parent directory reference"
  | .tilde => "contains `~`"
  | .encodedSeparator => "contains an encoded path separator"
  | .doubledSeparator => "contains a doubled separator"
  | .extension => "the file extension is not allowed"
  | .noRoots => "no allowed roots are configured"
  | .outsideRoots => "resolves outside every allowed root"

/-- The wording of a file's fault. -/
def FileFault.reason : FileFault → String
  | .invalidText => "stream did not contain valid UTF-8"
  | .missing => "No such file or directory (os error 2)"

/-- The message of a fault. -/
def Fault.message : Fault → String
  | .file cause => cause.reason
  | .unsafeExpression expression flaw =>
      "unsafe expression `" ++ expression ++ "`: " ++ flaw.reason
  | .unsafeCondition condition flaw => "unsafe condition `" ++ condition ++ "`: " ++ flaw.reason
  | .unsafePropertyPath path flaw => "unsafe property path `" ++ path ++ "`: " ++ flaw.reason
  | .unsafeFilePath path flaw => "unsafe file path `" ++ path ++ "`: " ++ flaw.reason
  | .unsafeTemplate fragment =>
      "template rejected near `" ++ fragment ++ "`: inline scripts are not allowed"
  | .limitExceeded limit configured actual =>
      "limit `" ++ limit.text ++ "` exceeded: configured " ++ toString configured ++ ", got " ++
        toString actual
  | .templateNotFound path => "template not found: `" ++ path ++ "`"
  | .malformedSettings => "failed to parse config file"

/-- Whether the fault is raised by the gate. -/
def Fault.isSecurityViolation : Fault → Bool
  | .unsafeExpression _ _ | .unsafeCondition _ _ | .unsafePropertyPath _ _ | .unsafeFilePath _ _
  | .unsafeTemplate _ => true
  | _ => false

/-- Whether a limit is exceeded. -/
def Fault.isLimitViolation : Fault → Bool
  | .limitExceeded _ _ _ => true
  | _ => false

/-- The code under which the command line reports a fault. -/
def Fault.code : Fault → String
  | .file _ => "tessera::io_error"
  | .unsafeExpression _ _ => "tessera::unsafe_expression"
  | .unsafeCondition _ _ => "tessera::unsafe_condition"
  | .unsafePropertyPath _ _ => "tessera::unsafe_property_path"
  | .unsafeFilePath _ _ => "tessera::unsafe_file_path"
  | .unsafeTemplate _ => "tessera::unsafe_template"
  | .limitExceeded _ _ _ => "tessera::limit_exceeded"
  | .templateNotFound _ => "tessera::template_not_found"
  | .malformedSettings => "tessera::config_parse"

end Stencil
