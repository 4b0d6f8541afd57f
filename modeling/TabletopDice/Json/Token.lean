import TabletopDice.Json
import TabletopDice.Text.Hexadecimal
/-!
# Token — the pieces of a JSON text

White space is dropped. Brackets, braces, commas and colons stand for themselves; a text stands between double
quotes; every other run of letters, digits, signs and points is one number or one of the words for a value.
-/
namespace TabletopDice
namespace Json

/-- A piece of a JSON text. -/
inductive Token
  | arrayStart | arrayEnd | objectStart | objectEnd | comma | colon
  | text (s : String)
  /-- A value without parts that is no text. -/
  | scalar (value : Json)

namespace Token

open Text (hexValue?)

/-- The digits of a whole number that can still be read. -/
def maxWholeDigits : Nat := 4300

/-! ## Texts -/

/-- The value of four hexadecimal digits. -/
def unitOf? (a b c d : Char) : Option Nat := do
  pure ((← hexValue? a) * 0x1000 + (← hexValue? b) * 0x100 + (← hexValue? c) * 0x10 + (← hexValue? d))

/-- The character that a single letter after the backslash stands for. -/
def escaped? (c : Char) : Option Char :=
  if c = '"' || c = '\\' || c = '/' then some c
  else if c = 'b' then some '\x08'
  else if c = 'f' then some '\x0c'
  else if c = 'n' then some '\n'
  else if c = 'r' then some '\r'
  else if c = 't' then some '\t'
  else none

/-- **The units of a text after its opening quote**, and what follows its closing quote. A unit is the code point of a
character as it stands, or the number of an escape. -/
def readUnits : List Char → Option (List Nat × List Char)
  | [] => none
  | '"' :: rest => some ([], rest)
  | '\\' :: 'u' :: a :: b :: c :: d :: rest => match unitOf? a b c d, readUnits rest with
    | some unit, some (units, after) => some (unit :: units, after)
    | _, _ => none
  | '\\' :: c :: rest => match escaped? c, readUnits rest with
    | some c, some (units, after) => some (c.toNat :: units, after)
    | _, _ => none
  | c :: rest => match readUnits rest with
    | some (units, after) => if c.toNat < 0x20 || c = '\\' then none else some (c.toNat :: units, after)
    | none => none

theorem length_readUnits {cs rest : List Char} {units : List Nat} (h : readUnits cs = some (units, rest)) :
    rest.length < cs.length := by
  fun_induction readUnits cs generalizing units rest with
  | case1 => simp at h
  | case2 => simp at h; simp [h]
  | case3 _ _ _ _ _ _ _ _ _ _ ih => cases h; have := ih ‹_›; simp only [List.length_cons]; omega
  | case4 => simp at h
  | case5 _ _ _ _ _ _ _ _ ih => cases h; have := ih ‹_›; simp only [List.length_cons]; omega
  | case6 => simp at h
  | case7 => simp at h
  | case8 _ _ _ _ _ _ _ _ _ ih => cases h; have := ih ‹_›; simp only [List.length_cons]; omega
  | case9 => simp at h

/-- **The characters of units**: a high surrogate and a low one after it are one character. A surrogate on its own is
no character, and a text of this library cannot hold one: it is read as the replacement character. In a text to be
rolled no token starts with either, so the text is refused at the same place, and only the character that the message
quotes is another. -/
def charsOfUnits : List Nat → List Char
  | [] => []
  | [unit] => [charOfUnit unit]
  | high :: low :: rest =>
    if 0xD800 ≤ high && high < 0xDC00 && 0xDC00 ≤ low && low < 0xE000 then
      Char.ofNat (0x10000 + (high - 0xD800) * 0x400 + (low - 0xDC00)) :: charsOfUnits rest
    else charOfUnit high :: charsOfUnits (low :: rest)
where
  /-- The character of a unit on its own. -/
  charOfUnit (unit : Nat) : Char := if 0xD800 ≤ unit && unit < 0xE000 then '\ufffd' else Char.ofNat unit

/-! ## Numbers and words -/

/-- A digit from zero to nine. -/
def isDecimal (c : Char) : Bool := '0' ≤ c && c ≤ '9'

/-- The number that digits write. -/
def decimalValue (digits : List Char) : Nat := digits.foldl (fun n c => 10 * n + (c.toNat - 0x30)) 0

/-- A run of digits that is not empty, and what follows it. -/
def digitRun? (cs : List Char) : Option (List Char × List Char) :=
  match cs.takeWhile isDecimal with
  | [] => none
  | digits => some (digits, cs.dropWhile isDecimal)

/-- The exponent that ends a number. -/
def exponent? : List Char → Option Int
  | [] => some 0
  | mark :: rest =>
    if mark = 'e' || mark = 'E' then
      let (negative, rest) := match rest with
        | '-' :: rest => (true, rest)
        | '+' :: rest => (false, rest)
        | rest => (false, rest)
      match digitRun? rest with
      | some (digits, []) =>
        some (if negative then -(decimalValue digits : Int) else decimalValue digits)
      | _ => none
    else none

/-- **The number that a run writes** after its sign: digits without a leading zero, then a point with digits, then an
exponent, of which the last two may be missing. -/
def unsigned? (negative : Bool) (cs : List Char) : Option Number := do
  let (digits, rest) ← digitRun? cs
  if digits.head? == some '0' && digits.length ≠ 1 then none
  match rest with
  | [] =>
    if digits.length ≤ maxWholeDigits then
      some (.whole (if negative then -(decimalValue digits : Int) else decimalValue digits))
    else none
  | '.' :: rest =>
    let (places, rest) ← digitRun? rest
    let exponent ← exponent? rest
    some (.decimal negative (decimalValue (digits ++ places)) (exponent - places.length))
  | rest =>
    let exponent ← exponent? rest
    some (.decimal negative (decimalValue digits) exponent)

/-- **The value that a run writes**: one of the words, or a number. -/
def scalar? (run : List Char) : Option Json :=
  match String.ofList run with
  | "null" => some .null
  | "true" => some (.bool true)
  | "false" => some (.bool false)
  | "NaN" | "Infinity" | "-Infinity" => some (.number .notFinite)
  | _ => match run with
    | '-' :: rest => (unsigned? true rest).map .number
    | run => (unsigned? false run).map .number

/-! ## The tokens of a text -/

/-- White space of JSON. -/
def isSpace (c : Char) : Bool := c = ' ' || c = '\t' || c = '\n' || c = '\r'

/-- A character of numbers and words. -/
def isScalarChar (c : Char) : Bool := c.isAlphanum || c = '+' || c = '-' || c = '.'

/-- The token that a single character is. -/
def mark? (c : Char) : Option Token :=
  if c = '[' then some .arrayStart
  else if c = ']' then some .arrayEnd
  else if c = '\x7b' then some .objectStart
  else if c = '\x7d' then some .objectEnd
  else if c = ',' then some .comma
  else if c = ':' then some .colon
  else none

/-- **The tokens of a JSON text**, from left to right. -/
def scan : List Char → Option (List Token)
  | [] => some []
  | c :: rest =>
    if isSpace c then scan rest
    else if c = '"' then
      match _h : readUnits rest with
      | none => none
      | some (units, after) => (scan after).map (.text (String.ofList (charsOfUnits units)) :: ·)
    else match mark? c with
      | some token => (scan rest).map (token :: ·)
      | none => match scalar? (c :: rest.takeWhile isScalarChar) with
        | some value => (scan (rest.dropWhile isScalarChar)).map (.scalar value :: ·)
        | none => none
  termination_by cs => cs.length
  decreasing_by
    · simp
    · have := length_readUnits ‹_›; simp only [List.length_cons]; omega
    · simp
    · have := (List.dropWhile_sublist (l := rest) isScalarChar).length_le; simp only [List.length_cons]; omega

end Token
end Json
end TabletopDice
