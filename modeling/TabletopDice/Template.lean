import TabletopDice.Text.Letter
import TabletopDice.Text.Numeral
import TabletopDice.Text.Word
/-!
# Template — text with places for values

A place is written as a percent sign, the name of its value in parentheses, flags, a width, a point and a precision,
and the letter of its form; everything but the letter may be left out. A star stands for a width or a precision that is
a value itself. Two percent signs are one. A template is read as far as it can be: what is wrong with it is found when
it is filled.
-/
namespace TabletopDice

namespace Template

/-- The flags of a place. -/
structure Flags where
  left : Bool
  plus : Bool
  blank : Bool
  alternate : Bool
  zero : Bool
  deriving DecidableEq, Repr

/-- A width or a precision. -/
inductive Size
  | given (n : Nat)
  | fromValue
  /-- A number beyond what can be read. -/
  | huge
  deriving DecidableEq, Repr

/-- **A place for a value**; its letter has an index in the template, and is missing if the template ends before. -/
structure Place where
  name : Option String
  flags : Flags
  width : Option Size
  precision : Option Size
  letter : Option (Char × Nat)
  deriving DecidableEq, Repr

/-- A piece of a template. -/
inductive Piece
  | char (c : Char)
  | place (place : Place)
  /-- A name that does not end, and with it the rest of the template. -/
  | openName
  deriving DecidableEq, Repr

end Template

/-- **A template**: its pieces in order. -/
structure Template where
  pieces : List Template.Piece
  deriving DecidableEq, Repr

namespace Template

/-! ## Reading -/

/-- The number of characters before the parenthesis that closes a name, with so many opened inside it. -/
def nameLength? : Nat → List Char → Option Nat
  | _, [] => none
  | depth, c :: rest =>
    if c = ')' then match depth with
      | 0 => some 0
      | depth + 1 => (nameLength? depth rest).map (· + 1)
    else (nameLength? (if c = '(' then depth + 1 else depth) rest).map (· + 1)

/-- The name at the head of a text, and the number of characters of it and its parentheses: none if it does not end. -/
def readName? : List Char → Option (Option String × Nat)
  | '(' :: rest => (nameLength? 0 rest).map fun length => (some (String.ofList (rest.take length)), length + 2)
  | _ => some (none, 0)

/-- A character that is a flag. -/
def isFlag (c : Char) : Bool := c = '-' || c = '+' || c = ' ' || c = '#' || c = '0'

/-- The flags among characters. -/
def Flags.ofChars (cs : List Char) : Flags :=
  ⟨cs.contains '-', cs.contains '+', cs.contains ' ', cs.contains '#', cs.contains '0'⟩

/-- The largest width. -/
def maxWidth : Nat := 9223372036854775807

/-- The largest precision. -/
def maxPrecision : Nat := 2147483647

/-- A width or a precision at the head of a text, and the number of its characters. -/
def readSize (limit : Nat) (cs : List Char) : Option Size × Nat :=
  match cs with
  | '*' :: _ => (some .fromValue, 1)
  | cs => match cs.takeWhile Char.isDigit with
    | [] => (none, 0)
    | digits =>
      let n := Text.numeralValue digits
      (some (if n ≤ limit then .given n else .huge), digits.length)

/-- A precision with its point; without digits it is zero. -/
def readPrecision : List Char → Option Size × Nat
  | '.' :: rest =>
    let (size, length) := readSize maxPrecision rest
    (some (size.getD (.given 0)), length + 1)
  | _ => (none, 0)

/-- The number of characters before the letter that say nothing. -/
def sizeMarkLength (cs : List Char) : Nat :=
  if cs.head?.any fun c => c = 'h' || c = 'l' || c = 'L' then 1 else 0

/-- **The place after a percent sign**, which stands before `index`, and the number of its characters: none if its name
does not end. -/
def readPlace? (index : Nat) (cs : List Char) : Option (Place × Nat) := do
  let (name, nameLength) ← readName? cs
  let flags := (cs.drop nameLength).takeWhile isFlag
  let flagsEnd := nameLength + flags.length
  let (width, widthLength) := readSize maxWidth (cs.drop flagsEnd)
  let widthEnd := flagsEnd + widthLength
  let (precision, precisionLength) := readPrecision (cs.drop widthEnd)
  let precisionEnd := widthEnd + precisionLength
  let letterStart := precisionEnd + sizeMarkLength (cs.drop precisionEnd)
  let letter := (cs.drop letterStart).head?.map fun c => (c, index + letterStart)
  some (⟨name, .ofChars flags, width, precision, letter⟩, letterStart + 1)

/-- The pieces of a text that starts at `index`. -/
def readFrom (index : Nat) : List Char → List Piece
  | [] => []
  | '%' :: '%' :: rest => .char '%' :: readFrom (index + 2) rest
  | '%' :: rest => match readPlace? (index + 1) rest with
    | none => [.openName]
    | some (place, length) => .place place :: readFrom (index + 1 + length) (rest.drop length)
  | c :: rest => .char c :: readFrom (index + 1) rest
  termination_by cs => cs.length

/-- **The template that a text writes.** -/
def ofText (text : String) : Template := ⟨readFrom 0 text.toList⟩

/-! ## Well-written places -/

/-- The letters that a place may have, in either case. -/
def letters : List Char := ['d', 'i', 'o', 'u', 'x', 'e', 'f', 'g', 'c', 'r', 's', 'a']

/-- What follows a width, which may be a star or digits of any script. -/
def afterSize (cs : List Char) : List Char :=
  match cs with
  | '*' :: rest => rest
  | cs => cs.dropWhile Text.isDigit

/-- What follows a precision, which has to be there if there is a point. -/
def afterPrecision : List Char → List Char
  | '.' :: rest => if (afterSize rest).length < rest.length then afterSize rest else '.' :: rest
  | cs => cs

/-- A text starts with a place that has a name of word characters and a known letter. -/
def startsWithPlace : List Char → Bool
  | '%' :: '(' :: rest =>
    match rest.takeWhile Text.isWordChar, rest.dropWhile Text.isWordChar with
    | _ :: _, ')' :: more =>
      (afterPrecision (afterSize (more.dropWhile isFlag))).head?.any fun c =>
        c = '%' || (Text.baseLetter? c).any letters.contains
    | _, _ => false
  | _ => false

/-- **A text has a well-written place somewhere.** -/
def hasPlace : List Char → Bool
  | [] => false
  | c :: rest => startsWithPlace (c :: rest) || hasPlace rest

end Template
end TabletopDice
