import TabletopDice.Numbers.Double
import TabletopDice.Numbers.Scientific
import TabletopDice.Template
import TabletopDice.Template.Failure
import TabletopDice.Template.Value
/-!
# Filling — a template with its values

Places are filled from left to right, and the first that cannot be filled is the failure of the whole. A place with a
name takes the value of that name; one without takes the value of the last name if nothing has taken it, and all values
together before the first name.
-/
namespace TabletopDice
namespace Template

/-! ## Texts in their places -/

/-- Blanks that fill a place of that width. -/
def blanks (width : Option Nat) (length : Nat) : List Char := List.replicate (width.getD 0 - length) ' '

/-- **A text in a place of at least that width.** -/
def placed (flags : Flags) (width : Option Nat) (cs : List Char) : List Char :=
  if flags.left then cs ++ blanks width cs.length else blanks width cs.length ++ cs

/-- The sign of a number, which a number that is not negative has only if a flag asks for it. -/
def signOf (flags : Flags) (negative : Bool) : List Char :=
  if negative then ['-'] else if flags.plus then ['+'] else if flags.blank then [' '] else []

/-- **A number in a place of at least that width**: its sign and the mark of its base, then zeros if a flag asks for
them, then its digits. -/
def placedNumber (flags : Flags) (width : Option Nat) (negative : Bool) (mark digits : List Char) : List Char :=
  let sign := signOf flags negative ++ mark
  if flags.zero && !flags.left then
    sign ++ List.replicate (width.getD 0 - (sign.length + digits.length)) '0' ++ digits
  else placed flags width (sign ++ digits)

/-! ## Forms -/

/-- The precision from which digits are refused. -/
def tooPrecise : Nat := maxPrecision - 2

/-- A whole number in some base, with at least as many digits as the precision says. -/
def wholeForm (flags : Flags) (width precision : Option Nat) (base : Nat) (mark : List Char) (n : Int) :
    Except Failure (List Char) :=
  if tooPrecise ≤ precision.getD 0 then .error .largePrecision
  else
    let digits := Nat.toDigits base n.natAbs
    .ok (placedNumber flags width (n < 0) (if flags.alternate then mark else [])
      (List.replicate (precision.getD 0 - digits.length) '0' ++ digits))

/-- The places after the point if the precision is not said. -/
def usualPlaces : Nat := 6

/-- A whole number in double precision, in the form that `write` gives its size. -/
def realForm (flags : Flags) (width precision : Option Nat) (write : Bool → Nat → Nat → List Char) (n : Int) :
    Except Failure (List Char) :=
  match Double.ofNat? n.natAbs with
  | none => .error .beyondDouble
  | some size =>
    .ok (placedNumber flags width (n < 0) [] (write flags.alternate (precision.getD usualPlaces) size))

/-- A character, given as a text of it alone or by its number. -/
def character : Value → Except Failure Char
  | .text s => match s.toList with
    | [c] => .ok c
    | _ => .error .notCharacter
  | .number n => if 0 ≤ n && n < 0x110000 then .ok (Char.ofNat n.toNat) else .error .noSuchCharacter
  | _ => .error .notCharacter

/-- The number that a value is, or the failure if it is none. -/
def numberOr (failure : Failure) : Value → Except Failure Int
  | .number n => .ok n
  | _ => .error failure

/-- **A value in the form of a letter**, which stands at that index. -/
def form (flags : Flags) (width precision : Option Nat) (letter : Char) (index : Nat) (value : Value) :
    Except Failure (List Char) :=
  let textForm (text : String) : Except Failure (List Char) :=
    .ok (placed flags width (match precision with
      | some count => text.toList.take count
      | none => text.toList))
  let decimal := numberOr (.notNumber letter value.kind) value >>= wholeForm flags width precision 10 []
  let inBase (base : Nat) (mark : List Char) :=
    numberOr (.notWhole letter value.kind) value >>= wholeForm flags width precision base mark
  let real (write : Bool → Nat → Nat → List Char) :=
    numberOr (.notReal value.kind) value >>= realForm flags width precision write
  match letter with
  | 's' => textForm value.shown
  | 'r' => textForm value.quoted
  | 'a' => textForm value.quotedAscii
  | 'd' | 'i' | 'u' => decimal
  | 'o' => inBase 8 ['0', 'o']
  | 'x' => inBase 16 ['0', 'x']
  | 'X' => (inBase 16 ['0', 'X']).map fun cs => cs.map Char.toUpper
  | 'e' | 'E' => real (Numbers.scientific letter)
  | 'f' | 'F' => real Numbers.fixed
  | 'g' => real (Numbers.general 'e')
  | 'G' => real (Numbers.general 'E')
  | 'c' => (character value).map fun c => placed flags width [c]
  | _ => .error (.unknownLetter letter index)

/-! ## Pieces -/

/-- The width from which there is no room. -/
def tooWide : Nat := Nat.pow 2 40

/-- What bounds a size, and the failures of one that is beyond the bound as written or as a value. -/
structure Bound where
  limit : Nat
  written : Failure
  asValue : Failure

/-- The bound of widths. -/
def widthBound : Bound := ⟨maxWidth, .hugeWidth, .widthOutOfRange⟩

/-- The bound of precisions. -/
def precisionBound : Bound := ⟨maxPrecision, .hugePrecision, .precisionOutOfRange⟩

/-- A width or a precision, and the value that is left after it. -/
def takeSize (bound : Bound) (value : Option Value) : Option Size → Except Failure (Option Nat × Option Value)
  | none => .ok (none, value)
  | some (.given n) => .ok (some n, value)
  | some .huge => .error bound.written
  | some .fromValue => match value with
    | none => .error .noValue
    | some (.number n) =>
      if -(bound.limit : Int) - 1 ≤ n && n ≤ bound.limit then .ok (some n.natAbs, none) else .error bound.asValue
    | some _ => .error .sizeNotNumber

/-- The value of a place: that of its name, or the one that is left. -/
def valueFor (field : String → Option Value) (left : Option Value) : Option String → Except Failure (Option Value)
  | none => .ok left
  | some name => match field name with
    | some value => .ok (some value)
    | none => .error (.unknownField name)

/-- **A place filled**, with the value that is left from the place before it. -/
def fillPlace (field : String → Option Value) (left : Option Value) (place : Place) : Except Failure (List Char) := do
  let value ← valueFor field left place.name
  let (width, value) ← takeSize widthBound value place.width
  let (precision, value) ← takeSize precisionBound value place.precision
  match place.letter, value with
  | none, _ => .error .unfinished
  | some _, none => .error .noValue
  | some (letter, index), some value =>
    if tooWide ≤ width.getD 0 then form place.flags none precision letter index value >>= fun _ => .error .noRoom
    else form place.flags width precision letter index value

/-- Pieces filled, with the value that is left from the place before them. A place that is filled leaves no value. -/
def fillPieces (field : String → Option Value) (left : Option Value) : List Piece → Except Failure (List Char)
  | [] => .ok []
  | .char c :: rest => do
    let others ← fillPieces field left rest
    .ok (c :: others)
  | .place place :: rest => do
    let first ← fillPlace field left place
    let others ← fillPieces field none rest
    .ok (first ++ others)
  | .openName :: _ => .error .openName

/-- **A template filled** with the values of fields. -/
def fill (template : Template) (field : String → Option Value) : Except Failure String :=
  (fillPieces field (some .everything) template.pieces).map String.ofList

end Template
end TabletopDice
