/-!
# Hexadecimal — digits to the base sixteen

Digits are written in small letters and read in either case.
-/
namespace TabletopDice
namespace Text

/-- The number in hexadecimal small digits, with zeros in front up to the width. -/
def hexPadded (width : Nat) (n : Nat) : List Char :=
  let digits := Nat.toDigits 16 n
  List.replicate (width - digits.length) '0' ++ digits

/-- **The value of a hexadecimal digit.** -/
def hexValue? (c : Char) : Option Nat :=
  if '0' ≤ c && c ≤ '9' then some (c.toNat - 0x30)
  else if 'a' ≤ c && c ≤ 'f' then some (c.toNat - 0x57)
  else if 'A' ≤ c && c ≤ 'F' then some (c.toNat - 0x37)
  else none

end Text
end TabletopDice
