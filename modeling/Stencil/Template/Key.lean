import Stencil.Digest.Sha256

/-!
Keys of templates. A short template is its own key; a long one is known by its digest.
-/

namespace Stencil.Template

/-- The key of a template. -/
inductive Key where
  | literal (source : String)
  | digest (hex : String)
deriving Repr, DecidableEq

/-- The key of a template, given the size in bytes up to which templates are their own keys. -/
def Key.of (source : String) (threshold : Nat) : Key :=
  if source.utf8ByteSize ≤ threshold then .literal source else .digest (Digest.sha256Hex source)

/-- The text of a key. -/
def Key.text : Key → String
  | .literal source => "literal:" ++ source
  | .digest hex => "sha256:" ++ hex

end Stencil.Template
