import TabletopDice.Json
import TabletopDice.Numbers.Double
/-!
# Integral — the numbers that are whole

A decimal counts with the value that it has in double precision, and is whole if that value is.
-/
namespace TabletopDice
namespace Number

/-- The place of the first digit before the point; sizes beyond 400 places do not have to be computed. -/
def leadingPlace (digits : Nat) (exponent : Int) : Int := ((Nat.toDigits 10 digits).length : Int) + exponent

/-- **The whole number that a decimal is** in double precision. -/
def wholeDecimal? (digits : Nat) (exponent : Int) : Option Nat :=
  if digits = 0 || leadingPlace digits exponent < -400 then some 0
  else if 400 < leadingPlace digits exponent then none
  else if 0 ≤ exponent then Double.wholeQuotient? (digits * Nat.pow 10 exponent.toNat) 1
  else Double.wholeQuotient? digits (Nat.pow 10 (-exponent).toNat)

/-- **The integer that a number is**, if it is whole. -/
def integer? : Number → Option Int
  | .whole n => some n
  | .decimal negative digits exponent =>
    (wholeDecimal? digits exponent).map fun n => if negative then -(n : Int) else n
  | .notFinite => none

end Number

namespace Json

/-- **The integer that a value is**; truth values are no numbers. -/
def integer? : Json → Option Int
  | .number n => n.integer?
  | _ => none

/-- A whole number. -/
def isInteger (json : Json) : Bool := json.integer?.isSome

/-- A truth value. -/
def isBool : Json → Bool
  | .bool _ => true
  | _ => false

/-- A text. -/
def isText : Json → Bool
  | .text _ => true
  | _ => false

/-- Nothing. -/
def isNull : Json → Bool
  | .null => true
  | _ => false

/-- One of these words. -/
def isOneOf (words : List String) : Json → Bool
  | .text s => words.contains s
  | _ => false

end Json
end TabletopDice
