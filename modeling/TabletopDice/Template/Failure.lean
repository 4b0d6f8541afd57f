import TabletopDice.Text.Quoted
/-!
# Failure — why a template cannot be filled

Either the template is not well written, or it asks for a value that there is not, or for one in a form that the value
does not have.
-/
namespace TabletopDice
namespace Template

/-- **Why a template cannot be filled.** -/
inductive Failure
  /-- A name in parentheses does not end. -/
  | openName
  /-- The template ends inside a place. -/
  | unfinished
  /-- A width or a precision is too large to be read. -/
  | hugeWidth
  | hugePrecision
  /-- No form has that letter, which stands at that index. -/
  | unknownLetter (letter : Char) (index : Nat)
  | unknownField (name : String)
  /-- A place without a name comes after the value has been used. -/
  | noValue
  /-- A width or a precision has to be taken from a value that is no number, or no small one. -/
  | sizeNotNumber
  | widthOutOfRange
  | precisionOutOfRange
  /-- A number in the form of that letter has to be made from a value of another kind. -/
  | notNumber (letter : Char) (kind : String)
  | notWhole (letter : Char) (kind : String)
  | notReal (kind : String)
  | notCharacter
  /-- No character has that number. -/
  | noSuchCharacter
  /-- A number is infinite in double precision. -/
  | beyondDouble
  /-- A precision is too large for digits. -/
  | largePrecision
  /-- There is no room for the text. -/
  | noRoom
  deriving DecidableEq, Repr

/-- A letter as the message shows it: a question mark stands for one that is not plain. -/
def Failure.plainLetter (letter : Char) : Char :=
  if 31 ≤ letter.toNat && letter.toNat ≤ 126 then letter else '?'

/-- **The message of a failure.** -/
def Failure.message : Failure → String
  | openName => "incomplete format key"
  | unfinished => "incomplete format"
  | hugeWidth => "width too big"
  | hugePrecision => "precision too big"
  | unknownLetter letter index =>
    "unsupported format character '" ++ String.singleton (plainLetter letter) ++ "' (0x" ++
      String.ofList (Text.hexPadded 1 letter.toNat) ++ ") at index " ++ toString index
  | unknownField name => "Formatting field not found in record: " ++ Text.quoted name
  | noValue => "not enough arguments for format string"
  | sizeNotNumber => "* wants int"
  | widthOutOfRange => "Python int too large to convert to C ssize_t"
  | precisionOutOfRange => "Python int too large to convert to C int"
  | notNumber letter kind =>
    "%" ++ String.singleton letter ++ " format: a real number is required, not " ++ kind
  | notWhole letter kind =>
    "%" ++ String.singleton letter ++ " format: an integer is required, not " ++ kind
  | notReal kind => "must be real number, not " ++ kind
  | notCharacter => "%c requires int or char"
  | noSuchCharacter => "%c arg not in range(0x110000)"
  | beyondDouble => "int too large to convert to float"
  | largePrecision => "precision too large"
  | noRoom => ""

end Template
end TabletopDice
