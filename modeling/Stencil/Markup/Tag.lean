import Stencil.Text.Case

/-!
The vocabulary of template tags. A tag is told from the markup element of the same name by its
first letter, which is a capital.
-/

namespace Stencil.Markup

/-- A template tag. -/
inductive Tag where
  | element
  | data
  | nav
  | block
  | ifTag
  | elseIf
  | elseTag
  | forEach
  | includeTag
  | param
  | slot
  | layout
  | sectionTag
  | renderSection
  | renderBody
  | define
  | render
deriving Repr, DecidableEq

/-- Every tag, in the order of the vocabulary. -/
def Tag.all : List Tag := [
  .element, .data, .nav, .block, .ifTag, .elseIf, .elseTag, .forEach, .includeTag, .param, .slot,
  .layout, .sectionTag, .renderSection, .renderBody, .define, .render]

/-- The name of a tag as templates spell it. -/
def Tag.name : Tag → String
  | .element => "Element"
  | .data => "Data"
  | .nav => "Nav"
  | .block => "Block"
  | .ifTag => "If"
  | .elseIf => "ElseIf"
  | .elseTag => "Else"
  | .forEach => "ForEach"
  | .includeTag => "Include"
  | .param => "Param"
  | .slot => "Slot"
  | .layout => "Layout"
  | .sectionTag => "Section"
  | .renderSection => "RenderSection"
  | .renderBody => "RenderBody"
  | .define => "Define"
  | .render => "Render"

/-- The tag of a name, whatever the case of its letters. -/
def Tag.ofName? (name : List Char) : Option Tag :=
  Tag.all.find? fun tag => Text.sameLetters tag.name.toList name

/-- The containers render their children, or a component when they name one. -/
def Tag.isContainer : Tag → Bool
  | .element | .data | .nav | .block => true
  | _ => false

end Stencil.Markup
