import TabletopDice.Text.Blank
/-!
# Numeral — decimal digits of every script, and the numbers they write

A decimal digit of any script has its usual value; ten digits of a script follow each other from its zero. A numeral
in an expression is a run of digits, which may mix scripts. A number in a setting may also have white space around
it, one sign, and single low lines between digits, but not too many digits.
-/
namespace TabletopDice
namespace Text

/-- The zeros of all scripts in ascending order; the digits one to nine follow each of them. -/
def zeros : List Nat := [
  0x30, 0x660, 0x6F0, 0x7C0, 0x966, 0x9E6, 0xA66, 0xAE6, 0xB66, 0xBE6, 0xC66, 0xCE6, 0xD66, 0xDE6, 0xE50,
  0xED0, 0xF20, 0x1040, 0x1090, 0x17E0, 0x1810, 0x1946, 0x19D0, 0x1A80, 0x1A90, 0x1B50, 0x1BB0, 0x1C40, 0x1C50,
  0xA620, 0xA8D0, 0xA900, 0xA9D0, 0xA9F0, 0xAA50, 0xABF0, 0xFF10, 0x104A0, 0x10D30, 0x11066, 0x110F0, 0x11136,
  0x111D0, 0x112F0, 0x11450, 0x114D0, 0x11650, 0x116C0, 0x11730, 0x118E0, 0x11950, 0x11C50, 0x11D50, 0x11DA0,
  0x16A60, 0x16AC0, 0x16B50, 0x1D7CE, 0x1D7D8, 0x1D7E2, 0x1D7EC, 0x1D7F6, 0x1E140, 0x1E2F0, 0x1E950, 0x1FBF0]

/-- The value of the digit with that code point, by the last zero at or before it. -/
def digitValueFrom : List Nat → Nat → Option Nat
  | [], _ => none
  | start :: rest, code =>
    if code < start then none
    else if code < start + 10 then some (code - start)
    else digitValueFrom rest code

/-- **The value of a decimal digit** of any script. -/
def digitValue? (c : Char) : Option Nat := digitValueFrom zeros c.toNat

/-- **A decimal digit** of any script. -/
def isDigit (c : Char) : Bool := (digitValue? c).isSome

/-- **The number that a numeral writes**, leading zeros allowed. -/
def numeralValue (digits : List Char) : Nat :=
  digits.foldl (fun n c => 10 * n + (digitValue? c).getD 0) 0

/-- White space that may surround a number: all of it but the four information separators. -/
def isNumberPadding (c : Char) : Bool := isBlank c && !(0x1C ≤ c.toNat && c.toNat ≤ 0x1F)

/-- The digits of a numeral without the low lines between them: none if there is no digit, or if a low line does not
stand between two. -/
def digitsOf? (afterDigit : Bool) : List Char → Option (List Char)
  | [] => if afterDigit then some [] else none
  | c :: rest =>
    if c = '_' then if afterDigit then digitsOf? false rest else none
    else (digitsOf? true rest).map (c :: ·)

/-- The most digits of a number that a text may state. -/
def maxStatedDigits : Nat := 4300

/-- Why a text states no number. -/
inductive NumeralFault
  /-- The text is something else. -/
  | notNumber
  /-- So many digits are too many. -/
  | tooLong (count : Nat)
  deriving DecidableEq, Repr

/-- The natural number at the head of a text, nothing following it. Too many digits count as such even if something
else follows them. -/
def readNat (cs : List Char) : Except NumeralFault Nat :=
  let inNumeral (c : Char) : Bool := isDigit c || c == '_'
  match digitsOf? false (cs.takeWhile inNumeral) with
  | none => .error .notNumber
  | some digits =>
    if maxStatedDigits < digits.length then .error (.tooLong digits.length)
    else if (cs.dropWhile inNumeral).isEmpty then .ok (numeralValue digits)
    else .error .notNumber

/-- **The whole number that a text states**: padding, at most one sign, digits with single low lines between them. -/
def readInt (text : String) : Except NumeralFault Int :=
  let body := ((text.toList.dropWhile isNumberPadding).reverse.dropWhile isNumberPadding).reverse
  match body with
  | '-' :: rest => (readNat rest).map fun n => -(n : Int)
  | '+' :: rest => (readNat rest).map fun n => (n : Int)
  | rest => (readNat rest).map fun n => (n : Int)

/-- The whole number that a text states, if it states one. -/
def readInt? (text : String) : Option Int := (readInt text).toOption

end Text
end TabletopDice
