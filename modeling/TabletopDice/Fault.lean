import TabletopDice.Command.Spelling
import TabletopDice.SyntaxError
import TabletopDice.Text.Wording
/-!
# Fault — why an evaluation does not end in a result

A *rule error* is the player's: the text is no command, or the command asks for something that the rules or the
limits do not allow. Every rule error has a code, which programs read, and a message, which people read. The other
faults are not the player's: the source of randomness fails, an operation meets a result that it is not made for, or
a message holds a number that is too long to be written. A rule error whose own message is such a one is that fault.
-/
namespace TabletopDice

/-- The codes of errors, as programs read them. -/
inductive ErrorCode
  | syntaxError | invalidDie | unsupportedSuffix | divisionByZero | limitExceeded | evaluationError
  | invalidInput | unexpectedError
  deriving DecidableEq, Repr

namespace ErrorCode

/-- The text of a code. -/
def text : ErrorCode → String
  | syntaxError => "syntax_error"
  | invalidDie => "invalid_die"
  | unsupportedSuffix => "unsupported_suffix"
  | divisionByZero => "division_by_zero"
  | limitExceeded => "limit_exceeded"
  | evaluationError => "evaluation_error"
  | invalidInput => "invalid_input"
  | unexpectedError => "unexpected_error"

/-- All codes. -/
def all : List ErrorCode :=
  [syntaxError, invalidDie, unsupportedSuffix, divisionByZero, limitExceeded, evaluationError, invalidInput,
    unexpectedError]

/-- **The code with that text.** -/
def ofText? (text : String) : Option ErrorCode := all.find? fun code => code.text == text

/-- The message for a text that is no code, or for no text at all. -/
def unknownMessage : Option String → String
  | some text => Text.quoted text ++ " is not a valid ErrorCode"
  | none => "None is not a valid ErrorCode"

end ErrorCode

/-- The most digits that the result of arithmetic may have. -/
def maxResultDigits : Nat := 100

/-- What a command may not ask for. -/
inductive RuleError
  /-- The text is no command. -/
  | unreadable (error : SyntaxError)
  /-- A die has fewer than one side. -/
  | invalidDie (sides : Int)
  /-- A suffix has no result of its own. -/
  | unsupportedSuffix (suffix : Suffix)
  | divisionByZero
  | remainderByZero
  | tooManyDice (limit count : Int)
  | tooManySides (limit sides : Int)
  | tooManyRepeats (limit count : Int)
  | tooManyDigits
  | noDice (count : Int)
  | noRepeats (count : Int)
  | keepsNone (count : Int)
  | crossedBounds (minimum maximum : Int)
  | raiseInterval (interval : Int)
  | unknownOperator (symbol : String)
  deriving DecidableEq, Repr

namespace RuleError

/-- **The code of a rule error.** -/
def code : RuleError → ErrorCode
  | unreadable _ => .syntaxError
  | invalidDie _ => .invalidDie
  | unsupportedSuffix _ => .unsupportedSuffix
  | divisionByZero | remainderByZero => .divisionByZero
  | tooManyDice .. | tooManySides .. | tooManyRepeats .. | tooManyDigits => .limitExceeded
  | noDice _ | noRepeats _ | keepsNone _ | crossedBounds .. | raiseInterval _ | unknownOperator _ => .evaluationError

/-- The name of a suffix in messages. -/
def suffixName : Suffix → String
  | .keep _ => "KeepSuffix"
  | .target _ => "TargetNumberSuffix"
  | .success _ => "SuccessSuffix"

/-- **The message of a rule error**, before it is written. -/
def wording : RuleError → Wording
  | unreadable error => [error.message]
  | invalidDie sides => ["Die must have at least 1 side, got ", sides]
  | unsupportedSuffix suffix => ["No evaluation rule for ", suffixName suffix]
  | divisionByZero => ["Division by zero"]
  | remainderByZero => ["Modulo by zero"]
  | tooManyDice limit count => ["Cannot roll more than ", limit, " dice at once, got ", count]
  | tooManySides limit sides => ["Dice cannot have more than ", limit, " sides, got ", sides]
  | tooManyRepeats limit count => ["Cannot repeat a roll more than ", limit, " times, got ", count]
  | tooManyDigits => ["Arithmetic result has more than ", toString maxResultDigits, " digits"]
  | noDice count => ["Dice count must be at least 1, got ", count]
  | noRepeats count => ["Repeat count must be at least 1, got ", count]
  | keepsNone count => ["Must keep at least 1 die, got ", count]
  | crossedBounds minimum maximum => ["Lower bound ", minimum, " is greater than upper bound ", maximum]
  | raiseInterval interval => ["Raise interval must be at least 1, got ", interval]
  | unknownOperator symbol => ["Unknown operator: ", symbol]

/-- **The message of a rule error.** -/
def message (error : RuleError) : String := error.wording.text

/-- The place in the text, for an error of the grammar. -/
def position? : RuleError → Option Nat
  | unreadable error => some error.position
  | _ => none

end RuleError

/-- Everything that keeps an operation from its result. -/
inductive Fault
  | rule (error : RuleError)
  /-- The source of randomness gives no number. -/
  | sourceFailed
  /-- A result of that kind takes no modifier. -/
  | takesNoModifier (kind : String)
  /-- A bare number has no structure to compute its value from. -/
  | noStructure
  /-- A change of sign has nothing to change. -/
  | noOperand
  /-- An operator between two operands has another number of them. -/
  | operandCount (count : Nat)
  /-- There is no item at that place. -/
  | noItem
  /-- A target number stands without the interval of its raises. -/
  | noInterval
  /-- A die has no rolls. -/
  | emptyDie
  /-- A message holds a number that is too long to be written. -/
  | unwritable
  deriving DecidableEq, Repr

namespace Fault

/-- **The fault of a rule error**, which is one only once its message is written. -/
def ofRule (error : RuleError) : Fault := if error.wording.Writable then .rule error else .unwritable

/-- **The message of a fault.** -/
def message : Fault → String
  | rule error => error.message
  | sourceFailed => "random source failed"
  | takesNoModifier kind => kind ++ " results do not take modifiers"
  | noStructure => ""
  | noOperand => "list index out of range"
  | operandCount count =>
    if count < 2 then "not enough values to unpack (expected 2, got " ++ toString count ++ ")"
    else "too many values to unpack (expected 2)"
  | noItem => "tuple index out of range"
  | noInterval => "'<' not supported between instances of 'NoneType' and 'int'"
  | emptyDie => "A die needs at least one roll"
  | unwritable =>
    "Exceeds the limit (" ++ toString Text.maxStatedDigits ++ " digits) for integer string conversion; " ++
      "use sys.set_int_max_str_digits() to increase the limit"

end Fault

/-- **A message as it is written**, if it can be. -/
def Wording.write (wording : Wording) : Except Fault String :=
  if wording.Writable then .ok wording.text else .error .unwritable

end TabletopDice
