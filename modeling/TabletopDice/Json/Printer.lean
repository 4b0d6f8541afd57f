import TabletopDice.Fault
import TabletopDice.Json
/-!
# Printer — JSON as text

The text is all ASCII: every other character, and every control, is an escape of its UTF-16 units. Members and items
stand on lines of their own, two spaces further in than what holds them; an empty array or object is one pair of
brackets. A value that holds a whole number too long to be written is not printed.
-/
namespace TabletopDice
namespace Json

/-- The escape of one UTF-16 unit. -/
def escapeUnit (unit : Nat) : List Char := '\\' :: 'u' :: Text.hexPadded 4 unit

/-- A character inside a text. -/
def escapeChar (c : Char) : List Char :=
  if c = '"' || c = '\\' then ['\\', c]
  else if c = '\n' then ['\\', 'n']
  else if c = '\r' then ['\\', 'r']
  else if c = '\t' then ['\\', 't']
  else if c = '\x08' then ['\\', 'b']
  else if c = '\x0c' then ['\\', 'f']
  else if 0x20 ≤ c.toNat && c.toNat < 0x7F then [c]
  else if c.toNat < 0x10000 then escapeUnit c.toNat
  else
    let above := c.toNat - 0x10000
    escapeUnit (0xD800 + above / 0x400) ++ escapeUnit (0xDC00 + above % 0x400)

/-- **A text between double quotes.** -/
def printText (s : String) : String := String.ofList ('"' :: (s.toList.flatMap escapeChar ++ ['"']))

/-- A number as text; a decimal with its exponent. -/
def printNumber : Number → Piece
  | .whole n => n
  | .decimal negative digits exponent =>
    (if negative then "-" else "") ++ toString digits ++ "e" ++ toString exponent
  | .notFinite => "NaN"

/-- A new line, so many levels in. -/
def newLine (depth : Nat) : Piece := String.ofList ('\n' :: List.replicate (2 * depth) ' ')

mutual

/-- **A value in words**, the lines inside it one level further in than `depth`. -/
def wordingAt (depth : Nat) : Json → Wording
  | .null => ["null"]
  | .bool b => [if b then "true" else "false"]
  | .number n => [printNumber n]
  | .text s => [printText s]
  | .array [] => ["[]"]
  | .array (item :: items) => List.flatten [
      ["[", newLine (depth + 1)], wordingAt (depth + 1) item, wordingItems (depth + 1) items, [newLine depth, "]"]]
  | .object [] => ["\x7b\x7d"]
  | .object ((name, value) :: members) => List.flatten [
      ["\x7b", newLine (depth + 1), printText name, ": "], wordingAt (depth + 1) value,
      wordingMembers (depth + 1) members, [newLine depth, "\x7d"]]

/-- The items after the first. -/
def wordingItems (depth : Nat) : List Json → Wording
  | [] => []
  | item :: items => List.flatten [[",", newLine depth], wordingAt depth item, wordingItems depth items]

/-- The members after the first. -/
def wordingMembers (depth : Nat) : List (String × Json) → Wording
  | [] => []
  | (name, value) :: members => List.flatten [
      [",", newLine depth, printText name, ": "], wordingAt depth value, wordingMembers depth members]

end

/-- **A value as text** on indented lines, if all of its numbers can be written. -/
def print (json : Json) : Except Fault String := (wordingAt 0 json).write

end Json
end TabletopDice
