import TabletopDice.Text.Quoted
/-!
# Token — the words of the dice language

A token is a lexeme and the place where it starts, counted in characters. Keywords are letters and short words that
the language reads without regard to case; a word that a keyword's letters match only through a foreign letter, and
that does not become the keyword in lower case, is a *lookalike*: it is a token, and no rule of the grammar takes it.
A text ends where its tokens end, so there is no token for the end.
-/
namespace TabletopDice

/-- The keywords, each named by its spelling. -/
inductive Keyword
  | adv | dis | iron | kl | d | s | f | k | t | r | w | e | x
  deriving DecidableEq, Repr

namespace Keyword

/-- The spelling in small letters. -/
def spelling : Keyword → List Char
  | adv => ['a', 'd', 'v']
  | dis => ['d', 'i', 's']
  | iron => ['i', 'r', 'o', 'n']
  | kl => ['k', 'l']
  | d => ['d']
  | s => ['s']
  | f => ['f']
  | k => ['k']
  | t => ['t']
  | r => ['r']
  | w => ['w']
  | e => ['e']
  | x => ['x']

/-- All keywords; a longer one stands before a shorter one with the same first letter. -/
def all : List Keyword := [adv, dis, iron, kl, d, s, f, k, t, r, w, e, x]

/-- **The keyword with that spelling.** -/
def ofSpelling? (word : List Char) : Option Keyword := all.find? fun keyword => keyword.spelling == word

end Keyword

/-- The signs of the language. -/
inductive Symbol
  | plus | minus | times | slash | percent | openParen | closeParen | openBracket | closeBracket
  | colon | semicolon | bang | question
  deriving DecidableEq, Repr

namespace Symbol

/-- The sign as written. -/
def char : Symbol → Char
  | plus => '+'
  | minus => '-'
  | times => '*'
  | slash => '/'
  | percent => '%'
  | openParen => '('
  | closeParen => ')'
  | openBracket => '['
  | closeBracket => ']'
  | colon => ':'
  | semicolon => ';'
  | bang => '!'
  | question => '?'

/-- All signs. -/
def all : List Symbol :=
  [plus, minus, times, slash, percent, openParen, closeParen, openBracket, closeBracket, colon, semicolon, bang, question]

/-- **The sign that a character writes.** -/
def ofChar? (c : Char) : Option Symbol := all.find? fun symbol => symbol.char == c

end Symbol

/-- What a token says. -/
inductive Lexeme
  /-- A numeral, in the digits as typed. -/
  | number (digits : List Char)
  /-- Two numerals joined by two hyphens: a range of numbers. -/
  | span (low high : List Char)
  /-- A variable, without its sigil. -/
  | var (name : String)
  /-- A flag, without its sigil. -/
  | flag (name : String)
  /-- The assignment sign. -/
  | becomes
  /-- A keyword. -/
  | keyword (word : Keyword)
  /-- A word that matches a keyword but is none in lower case. -/
  | lookalike (text : String)
  /-- A sign. -/
  | symbol (sign : Symbol)
  deriving DecidableEq, Repr

/-- **The text of a lexeme**: digits as typed, words in lower case, names without their sigil. -/
def Lexeme.text : Lexeme → String
  | number digits => String.ofList digits
  | span low high => String.ofList (low ++ '-' :: '-' :: high)
  | var name => name
  | flag name => name
  | becomes => ":="
  | keyword word => String.ofList word.spelling
  | lookalike text => text
  | symbol sign => String.ofList [sign.char]

/-- A lexeme and the number of characters before it. -/
structure Token where
  lexeme : Lexeme
  position : Nat
  deriving DecidableEq, Repr

/-- **How a message shows what was found**: the quoted text of the lexeme, or the end of the input. -/
def Lexeme.shown : Option Lexeme → String
  | some lexeme => Text.quoted lexeme.text
  | none => "end of input"

end TabletopDice
