import TabletopDice.Text.Hexadecimal
import TabletopDice.Text.Printable
/-!
# Quoted — a text shown between quotes on one line

The quote is the apostrophe, unless the text has an apostrophe and no double quote. The backslash, the quote in use,
tab, line feed and carriage return are escaped by a backslash; every other character that is not printable is
written by its code point, in two, four or eight hexadecimal digits. In an ASCII text so is every character beyond it.
-/
namespace TabletopDice
namespace Text

/-- A character by its code point. -/
def codeEscape (c : Char) : List Char :=
  if c.toNat < 0x100 then '\\' :: 'x' :: hexPadded 2 c.toNat
  else if c.toNat < 0x10000 then '\\' :: 'u' :: hexPadded 4 c.toNat
  else '\\' :: 'U' :: hexPadded 8 c.toNat

/-- A character as it stands between quotes of that kind. -/
def quoteChar (quote : Char) (c : Char) : List Char :=
  if c = quote || c = '\\' then ['\\', c]
  else if c = '\t' then ['\\', 't']
  else if c = '\n' then ['\\', 'n']
  else if c = '\r' then ['\\', 'r']
  else if isPrintable c then [c]
  else codeEscape c

/-- The quote for a text: the apostrophe, or the double quote if that saves escaping. -/
def quoteFor (cs : List Char) : Char :=
  if cs.contains '\x27' && !cs.contains '"' then '"' else '\x27'

/-- **The text between quotes**, every character that could not be shown escaped. -/
def quoted (text : String) : String :=
  let quote := quoteFor text.toList
  String.ofList (quote :: (text.toList.flatMap (quoteChar quote) ++ [quote]))

/-- **The text between quotes, in ASCII.** -/
def quotedAscii (text : String) : String :=
  String.ofList ((quoted text).toList.flatMap fun c => if c.toNat < 0x80 then [c] else codeEscape c)

end Text
end TabletopDice
