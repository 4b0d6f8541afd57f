import TabletopDice.Template
/-!
# Layout — how an entry of the log becomes a line

A layout is a template whose places are filled from the entry. A text is a layout if it has a well-written place; the
empty text stands for the message alone.
-/
namespace TabletopDice
namespace Log

/-- **A layout.** -/
structure Layout where
  template : Template
  deriving DecidableEq, Repr

namespace Layout

/-- **The layout that a text writes.** -/
def ofText? (text : String) : Option Layout :=
  if text.isEmpty then some ⟨.ofText "%(message)s"⟩
  else if Template.hasPlace text.toList then some ⟨.ofText text⟩
  else none

/-- The message for a text that is no layout. -/
def invalidMessage (text : String) : String := "Invalid format '" ++ text ++ "' for '%' style"

/-- **The usual layout**: time, level, logger and message. -/
def usual : Layout := ⟨.ofText "%(asctime)s - %(levelname)s - %(name)s - %(message)s"⟩

end Layout
end Log
end TabletopDice
