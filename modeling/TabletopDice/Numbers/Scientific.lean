import TabletopDice.Numbers.Rounding
/-!
# Scientific — natural numbers with a point or an exponent

A number is written with so many places after the point, or with so many digits and a power of ten, or the shorter
way of the two for so many digits. What has to be dropped is rounded, a half to the even neighbour. The point may be
kept where no digit follows it.
-/
namespace TabletopDice
namespace Numbers

/-- The digits of a number, with zeros in front up to that many. -/
def digitsPadded (count n : Nat) : List Char :=
  let digits := Nat.toDigits 10 n
  List.replicate (count - digits.length) '0' ++ digits

/-- **The first digits of a number**, so many of them, as a number, and the power of ten of the first. -/
def leading (count n : Nat) : Nat × Nat :=
  let length := (Nat.toDigits 10 n).length
  if length ≤ count then (n * Nat.pow 10 (count - length), length - 1)
  else
    let rounded := roundHalfEven n (Nat.pow 10 (length - count))
    if rounded = Nat.pow 10 count then (Nat.pow 10 (count - 1), length) else (rounded, length - 1)

/-- Digits after the point; the point alone only if it is kept. -/
def afterPoint (keepPoint : Bool) (digits : List Char) : List Char :=
  if digits.isEmpty && !keepPoint then [] else '.' :: digits

/-- Digits without the zeros at their end. -/
def withoutZeros (digits : List Char) : List Char := (digits.reverse.dropWhile fun c => c = '0').reverse

/-- An exponent, with its mark and at least two digits. -/
def exponentText (mark : Char) (exponent : Nat) : List Char := mark :: '+' :: digitsPadded 2 exponent

/-- **A number with so many places after the point.** -/
def fixed (keepPoint : Bool) (places n : Nat) : List Char :=
  Nat.toDigits 10 n ++ afterPoint keepPoint (List.replicate places '0')

/-- **A number with one digit before the point, so many after it, and an exponent.** -/
def scientific (mark : Char) (keepPoint : Bool) (places n : Nat) : List Char :=
  let (first, exponent) := leading (places + 1) n
  let digits := digitsPadded (places + 1) first
  digits.take 1 ++ afterPoint keepPoint (digits.drop 1) ++ exponentText mark exponent

/-- **A number with at most so many digits**: with an exponent only if they do not reach the point. Zeros after the
point are left out unless the point is kept. -/
def general (mark : Char) (keepPoint : Bool) (count n : Nat) : List Char :=
  let count := max 1 count
  let (first, exponent) := leading count n
  let shown (digits : List Char) : List Char := if keepPoint then digits else withoutZeros digits
  if exponent < count then
    Nat.toDigits 10 n ++ afterPoint keepPoint (shown (List.replicate (count - 1 - exponent) '0'))
  else
    let digits := digitsPadded count first
    digits.take 1 ++ afterPoint keepPoint (shown (digits.drop 1)) ++ exponentText mark exponent

end Numbers
end TabletopDice
