import TabletopDice.Text.Quoted
/-!
# Value — what can stand at a place of a template

A value is a text, a whole number, nothing at all or a list without entries; a place without a name may also stand for
all values together. Every value has a text, and a text between quotes.
-/
namespace TabletopDice
namespace Template

/-- **A value for a place.** -/
inductive Value
  | text (s : String)
  | number (n : Int)
  | nothing
  | noEntries
  /-- All values together; what is in them is not shown. -/
  | everything
  deriving DecidableEq, Repr

namespace Value

/-- The kind of a value, as messages name it. -/
def kind : Value → String
  | text _ => "str"
  | number _ => "int"
  | nothing => "NoneType"
  | noEntries => "tuple"
  | everything => "dict"

/-- **The text of a value.** -/
def shown : Value → String
  | text s => s
  | number n => toString n
  | nothing => "None"
  | noEntries => "()"
  | everything => "\x7b...\x7d"

/-- The text of a value, between quotes if it is a text. -/
def quoted : Value → String
  | text s => Text.quoted s
  | value => value.shown

/-- The text of a value in ASCII, between quotes if it is a text. -/
def quotedAscii : Value → String
  | text s => Text.quotedAscii s
  | value => value.shown

end Value
end Template
end TabletopDice
