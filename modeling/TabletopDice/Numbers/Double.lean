import TabletopDice.Numbers.Rounding
/-!
# Double — whole numbers in double precision

A number counts with the value that it has in double precision: the nearest number of 53 binary digits, of two
nearest the one whose last digit is even. Beyond the largest such number it is infinite; very close to zero it is zero.
-/
namespace TabletopDice
namespace Double

open Numbers (roundHalfEven)

/-- The whole number that a quotient of at least one is in double precision. -/
def wholeAboveOne? (numerator denominator : Nat) : Option Nat :=
  let scale := Nat.log2 (numerator / denominator)
  if 52 ≤ scale then
    let step := Nat.pow 2 (scale - 52)
    let value := roundHalfEven numerator (denominator * step) * step
    if value < Nat.pow 2 1024 then some value else none
  else
    let parts := Nat.pow 2 (52 - scale)
    let count := roundHalfEven (numerator * parts) denominator
    if count % parts = 0 then some (count / parts) else none

/-- The whole number that a quotient below one is in double precision. -/
def wholeBelowOne? (numerator denominator : Nat) : Option Nat :=
  if numerator * Nat.pow 2 1075 ≤ denominator then some 0
  else if denominator * (Nat.pow 2 54 - 1) ≤ numerator * Nat.pow 2 54 then some 1
  else none

/-- **The whole number that a quotient is** in double precision, if it is one. -/
def wholeQuotient? (numerator denominator : Nat) : Option Nat :=
  if numerator < denominator then wholeBelowOne? numerator denominator else wholeAboveOne? numerator denominator

/-- **A whole number in double precision**, unless it is infinite. -/
def ofNat? (n : Nat) : Option Nat := wholeQuotient? n 1

end Double
end TabletopDice
