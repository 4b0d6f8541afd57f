import TabletopDice.Fault
/-!
# Arithmetic — the operators of the language on whole numbers

Division rounds toward zero, and the remainder has the sign of the dividend. No result of an operator between two
operands may have more than `maxResultDigits` digits; changing the sign is always allowed. The messages of arithmetic
hold no operands, so they can always be written.
-/
namespace TabletopDice
namespace Arithmetic

/-- The quotient of the magnitudes, negative if just one of the operands is. -/
def truncatedQuotient (left right : Int) : Int :=
  let quotient : Int := ((left.natAbs / right.natAbs : Nat) : Int)
  if decide (0 ≤ left) = decide (0 ≤ right) then quotient else -quotient

/-- **Division, rounded toward zero.** -/
def divide (left right : Int) : Except RuleError Int :=
  if right = 0 then .error .divisionByZero else .ok (truncatedQuotient left right)

/-- **The remainder of that division.** -/
def remainder (left right : Int) : Except RuleError Int :=
  if right = 0 then .error .remainderByZero else .ok (left - right * truncatedQuotient left right)

/-- The number, unless it has too many digits. -/
def withinDigits (n : Int) : Except RuleError Int :=
  if Nat.pow 10 maxResultDigits ≤ n.natAbs then .error .tooManyDigits else .ok n

/-- The result of an operator before its digits are counted. -/
def unlimited : BinaryOperator → Int → Int → Except RuleError Int
  | .add, left, right => .ok (left + right)
  | .subtract, left, right => .ok (left - right)
  | .multiply, left, right => .ok (left * right)
  | .divide, left, right => divide left right
  | .remainder, left, right => remainder left right

/-- **The result of an operator.** -/
def apply (operator : BinaryOperator) (left right : Int) : Except RuleError Int :=
  unlimited operator left right >>= withinDigits

/-- The symbol under which a result keeps a change of sign. -/
def negation : String := "neg"

/-- The operators between two operands. -/
def operators : List BinaryOperator := [.add, .subtract, .multiply, .divide, .remainder]

/-- **The result of the operator with that symbol**, which a change of sign also has. -/
def applySymbol (symbol : String) (operands : List Int) : Except Fault Int :=
  if symbol = negation then match operands with
    | [] => .error .noOperand
    | operand :: _ => .ok (-operand)
  else match operands with
    | [left, right] => match operators.find? fun operator => operator.symbol == symbol with
      | none => .error (.rule (.unknownOperator symbol))
      | some operator => (apply operator left right).mapError .rule
    | _ => .error (.operandCount operands.length)

end Arithmetic
end TabletopDice
