import TabletopDice.Text.Hexadecimal
/-!
# Escape — texts that write bytes with percent signs

A percent sign with two hexadecimal digits is a byte, and every other character stands for its own bytes. The bytes
are read as UTF-8. A byte that is no part of a character stays as it is written, in capital digits.
-/
namespace TabletopDice
namespace Http
namespace Escape

/-- The byte that two hexadecimal digits write. -/
def byte? (high low : Char) : Option UInt8 :=
  match Text.hexValue? high, Text.hexValue? low with
  | some high, some low => some (UInt8.ofNat (16 * high + low))
  | _, _ => none

/-- The bytes of a text whose escapes are bytes. -/
def bytesOf : List Char → List UInt8
  | [] => []
  | '%' :: high :: low :: rest => match byte? high low with
    | some byte => byte :: bytesOf rest
    | none => (String.singleton '%').toUTF8.toList ++ bytesOf (high :: low :: rest)
  | c :: rest => (String.singleton c).toUTF8.toList ++ bytesOf rest

/-- A byte with its percent sign. -/
def written (byte : UInt8) : List Char := '%' :: (Text.hexPadded 2 byte.toNat).map Char.toUpper

/-- The character that bytes begin with. -/
def leading? (bytes : List UInt8) : Option Char := ByteArray.utf8DecodeChar? ⟨(bytes.take 4).toArray⟩ 0

/-- **The characters of bytes**, with a byte written out where no character begins. -/
def charsOf : List UInt8 → List Char
  | [] => []
  | byte :: rest => match leading? (byte :: rest) with
    | some c => c :: charsOf (rest.drop (c.utf8Size - 1))
    | none => written byte ++ charsOf rest
  termination_by bytes => bytes.length
  decreasing_by
    · simp only [List.length_drop, List.length_cons]; omega
    · simp

/-- **The text that an escaped text stands for.** -/
def read (text : String) : String := String.ofList (charsOf (bytesOf text.toList))

end Escape
end Http
end TabletopDice
