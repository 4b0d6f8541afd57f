import TabletopDice.Token
/-!
# SyntaxError — why a text is no command, and where

A syntax error is a place in the text and a cause. The message is made from both in one place.
-/
namespace TabletopDice

/-- The most digits that a numeral may have. -/
def maxDigits : Nat := 15

/-- The deepest nesting of an expression: every expression, operator of a chain, sign and bound is one level. -/
def maxNesting : Nat := 50

/-- What the grammar allows at a place. -/
inductive Expectation
  | sign (symbol : Symbol)
  | dieSides
  | successThreshold
  | failureThreshold
  | traitSides
  | wildSides
  | extraSides
  | targetNumber
  | raiseInterval
  | operand
  | expression
  deriving DecidableEq, Repr

/-- The words for what is allowed. -/
def Expectation.words : Expectation → String
  | sign symbol => String.ofList ['\x27', symbol.char, '\x27']
  | dieSides => "die sides after 'd'"
  | successThreshold => "success threshold after 's'"
  | failureThreshold => "failure threshold after 'f'"
  | traitSides => "trait die sides after 's'"
  | wildSides => "wild die sides after 'w'"
  | extraSides => "die sides after 'e'"
  | targetNumber => "target number after 't'"
  | raiseInterval => "raise interval after 'r'"
  | operand => "a number, roll, variable or '('"
  | expression => "an expression"

/-- The causes of a syntax error. -/
inductive SyntaxFault
  /-- What came in is not a text. -/
  | notText
  /-- The text holds nothing but white space. -/
  | blank
  /-- No token starts with the character. -/
  | strayCharacter (c : Char)
  /-- A numeral has more than `maxDigits` digits. -/
  | longNumber
  /-- The expression is nested more than `maxNesting` levels deep. -/
  | tooDeep
  /-- Something else stands where the grammar wants one thing. -/
  | expected (what : Expectation) (found : Option Lexeme)
  /-- The command is complete, but the text goes on. -/
  | trailing (found : Option Lexeme)
  deriving DecidableEq, Repr

/-- The words for a cause. -/
def SyntaxFault.reason : SyntaxFault → String
  | notText => "Notation must be a string"
  | blank => "Notation cannot be empty"
  | strayCharacter c => "Unexpected character " ++ Text.quoted (String.ofList [c])
  | longNumber => "Number is longer than " ++ toString maxDigits ++ " digits"
  | tooDeep => "Expression is nested more than " ++ toString maxNesting ++ " levels deep"
  | expected what found => "Expected " ++ what.words ++ ", found " ++ Lexeme.shown found
  | trailing found => "Unexpected " ++ Lexeme.shown found

/-- A place in the text, in characters, and what is wrong there. -/
structure SyntaxError where
  position : Nat
  fault : SyntaxFault
  deriving DecidableEq, Repr

/-- **The message of a syntax error**: the place, then the cause. -/
def SyntaxError.message (error : SyntaxError) : String :=
  "Syntax error at position " ++ toString error.position ++ ": " ++ error.fault.reason

end TabletopDice
