import TabletopDice.Text.Blank
import TabletopDice.Text.ByteOrderMark
/-!
# Assignment — the entries of a settings file

An entry is a name, an equals sign and a value on a line; a word may stand before the name. A name may stand between
apostrophes, and a value between quotes of either kind, where it may go on over several lines and hold escapes. A value
without quotes ends before white space and a number sign, or at the end of the line. A name may also stand alone. A line
that has none of these forms is skipped, and reading goes on with the next.
-/
namespace TabletopDice

/-- **An entry of a settings file**: a name, and the value assigned to it if there is one. -/
structure Assignment where
  name : String
  value : Option String
  deriving DecidableEq, Repr

namespace Assignment

open Text (isBlank)

/-- White space within a line. -/
def isInline (c : Char) : Bool := isBlank c && c != '\n' && c != '\r'

/-- The text with every end of a line written as a line feed. -/
def withLineFeeds : List Char → List Char
  | [] => []
  | '\r' :: '\n' :: rest => '\n' :: withLineFeeds rest
  | '\r' :: rest => '\n' :: withLineFeeds rest
  | c :: rest => c :: withLineFeeds rest

/-- What follows the line at the head of a text. -/
def nextLine (cs : List Char) : List Char := (cs.dropWhile fun c => c != '\n').drop 1

/-! ## Names -/

/-- The text without the word that may stand before a name. -/
def withoutExport (cs : List Char) : List Char :=
  let word := ['e', 'x', 'p', 'o', 'r', 't']
  if word.isPrefixOf cs && (cs.drop word.length).head?.any isInline then (cs.drop word.length).dropWhile isInline
  else cs

/-- A character of a name without apostrophes. -/
def isNameChar (c : Char) : Bool := !(isBlank c || c == '=' || c == '#')

/-- **The name at the head of a text**, and what follows it. -/
def readName? : List Char → Option (String × List Char)
  | '\x27' :: rest => match rest.takeWhile fun c => c != '\x27', rest.dropWhile fun c => c != '\x27' with
    | [], _ => none
    | _, [] => none
    | name, _ :: after => some (String.ofList name, after)
  | cs => match cs.takeWhile isNameChar with
    | [] => none
    | name => some (String.ofList name, cs.dropWhile isNameChar)

/-! ## Values -/

/-- The text before the quote that ends it, and what follows the quote. A quote after a backslash ends a text only if
none without one follows, and of those the last. -/
def untilQuote? (quote : Char) : List Char → Option (List Char × List Char)
  | [] => none
  | '\\' :: c :: rest =>
    if c = quote then match untilQuote? quote rest with
      | some (value, after) => some ('\\' :: c :: value, after)
      | none => some (['\\'], rest)
    else match untilQuote? quote (c :: rest) with
      | some (value, after) => some ('\\' :: value, after)
      | none => none
  | c :: rest =>
    if c = quote then some ([], rest)
    else match untilQuote? quote rest with
      | some (value, after) => some (c :: value, after)
      | none => none

/-- The character that a letter after a backslash stands for between quotes of that kind. -/
def escaped? (quote : Char) (c : Char) : Option Char :=
  if c = '\\' || c = '\x27' then some c
  else if quote = '\x27' then none
  else if c = '"' then some c
  else if c = 'a' then some '\x07'
  else if c = 'b' then some '\x08'
  else if c = 'f' then some '\x0c'
  else if c = 'n' then some '\n'
  else if c = 'r' then some '\r'
  else if c = 't' then some '\t'
  else if c = 'v' then some '\x0b'
  else none

/-- The text between quotes of that kind with its escapes resolved. -/
def unescape (quote : Char) : List Char → List Char
  | [] => []
  | '\\' :: c :: rest => match escaped? quote c with
    | some character => character :: unescape quote rest
    | none => '\\' :: unescape quote (c :: rest)
  | c :: rest => c :: unescape quote rest

/-- The text before white space and a number sign. -/
def beforeRemark : List Char → List Char
  | [] => []
  | c :: rest => if isBlank c && (rest.dropWhile isBlank).head? == some '#' then [] else c :: beforeRemark rest

/-- The text without the white space at its end. -/
def trimEnd (cs : List Char) : List Char := (cs.reverse.dropWhile isBlank).reverse

/-- A value without quotes, `afterBlank` telling whether white space stands before it. -/
def bareValue (afterBlank : Bool) (line : List Char) : String :=
  if afterBlank && line.head? == some '#' then "" else String.ofList (trimEnd (beforeRemark line))

/-- **The value after an equals sign**, and what follows it; otherwise what follows the point where it fails. -/
def readValue (cs : List Char) : Except (List Char) (String × List Char) :=
  let start := cs.dropWhile isInline
  match start with
  | '"' :: rest => match untilQuote? '"' rest with
    | some (value, after) => .ok (String.ofList (unescape '"' value), after)
    | none => .error start
  | '\x27' :: rest => match untilQuote? '\x27' rest with
    | some (value, after) => .ok (String.ofList (unescape '\x27' value), after)
    | none => .error start
  | _ => .ok (bareValue (start.length < cs.length) (start.takeWhile fun c => c != '\n'),
      start.dropWhile fun c => c != '\n')

/-! ## Entries -/

/-- What has been read of a text: an entry, if there is one, and what follows it. -/
structure Step where
  entry : Option Assignment
  rest : List Char

/-- An entry that is complete, if nothing but a remark follows it on its line. -/
def finish (entry : Assignment) (after : List Char) : Step :=
  match after.dropWhile isInline with
  | [] => ⟨some entry, []⟩
  | '#' :: rest => ⟨some entry, nextLine rest⟩
  | '\n' :: rest => ⟨some entry, rest⟩
  | _ => ⟨none, nextLine after⟩

/-- **The entry at the head of a text.** -/
def readEntry (cs : List Char) : Step :=
  let body := withoutExport (cs.dropWhile isBlank)
  if body.head? == some '#' then ⟨none, nextLine body⟩
  else match readName? body with
    | none => ⟨none, nextLine body⟩
    | some (name, after) => match after.dropWhile isInline with
      | '=' :: rest => match readValue rest with
        | .ok (value, after) => finish ⟨name, some value⟩ after
        | .error at' => ⟨none, nextLine at'⟩
      | rest => finish ⟨name, none⟩ rest

/-- The entries of a text whose lines end in line feeds. -/
def readAll (cs : List Char) : List Assignment :=
  let step := readEntry cs
  if _h : step.rest.length < cs.length then step.entry.toList ++ readAll step.rest else step.entry.toList
  termination_by cs.length

/-- **The entries of a settings file**, in order; a byte order mark before them is skipped. -/
def ofText (text : String) : List Assignment := readAll (withLineFeeds (Text.withoutByteOrderMark text.toList))

end Assignment
end TabletopDice
