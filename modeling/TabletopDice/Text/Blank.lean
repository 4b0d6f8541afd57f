import TabletopDice.Text.Ranges
/-!
# Blank — the characters that separate tokens and count as nothing in an empty text

White space is the Unicode property of that name, the four information separators U+001C to U+001F included.
-/
namespace TabletopDice
namespace Text

/-- The intervals of white space. -/
def blankRanges : List (Nat × Nat) := [
  (0x9, 0xD), (0x1C, 0x20), (0x85, 0x85), (0xA0, 0xA0), (0x1680, 0x1680), (0x2000, 0x200A), (0x2028, 0x2029),
  (0x202F, 0x202F), (0x205F, 0x205F), (0x3000, 0x3000)]

/-- **White space**, in the sense of the Unicode property and the four information separators. -/
def isBlank (c : Char) : Bool := inRanges blankRanges c.toNat

/-- The text without the white space at either end. -/
def trimBlank (cs : List Char) : List Char :=
  ((cs.dropWhile isBlank).reverse.dropWhile isBlank).reverse

end Text
end TabletopDice
