/-!
# Rounding — quotients as whole numbers

A quotient is rounded to the nearest whole number; halfway between two of them, to the even one.
-/
namespace TabletopDice
namespace Numbers

/-- **A quotient rounded to the nearest whole number**, a half to the even one. -/
def roundHalfEven (numerator denominator : Nat) : Nat :=
  let quotient := numerator / denominator
  let twice := 2 * (numerator % denominator)
  if twice < denominator || (twice = denominator && quotient % 2 = 0) then quotient else quotient + 1

end Numbers
end TabletopDice
