/-!
# ByteOrderMark — a character that only says how a text is encoded

A text that is read from bytes may begin with the mark U+FEFF. It is no part of the text; anywhere else, and a second
time, it is a character like any other.
-/
namespace TabletopDice
namespace Text

/-- **A text without the byte order mark** at its head. -/
def withoutByteOrderMark : List Char → List Char
  | '\ufeff' :: rest => rest
  | cs => cs

end Text
end TabletopDice
