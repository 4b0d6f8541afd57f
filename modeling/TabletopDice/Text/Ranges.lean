/-!
# Ranges — character classes as sorted tables of code points

A class of characters is a list of closed intervals of code points in ascending order, none touching the next.
Membership walks the list and stops at the first interval that ends at or after the code point, so a letter of
the Latin alphabet is settled by the first few rows of the longest table.
-/
namespace TabletopDice
namespace Text

/-- **The code point lies in one of the intervals** of an ascending table. -/
def inRanges : List (Nat × Nat) → Nat → Bool
  | [], _ => false
  | (low, high) :: rest, code => if code ≤ high then low ≤ code else inRanges rest code

end Text
end TabletopDice
