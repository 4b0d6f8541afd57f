import TabletopDice.SyntaxError
import TabletopDice.Text.Letter
import TabletopDice.Text.Numeral
import TabletopDice.Text.Word
/-!
# Lexer — the tokens of a text

The text is cut from left to right into pieces: runs of white space, which are dropped, and lexemes. The first
character of a piece decides its kind. Only one decision looks back: two numerals joined by two hyphens are a range
of numbers unless a letter stands right before them, because after a letter the first numeral belongs to a suffix and
the hyphens to a subtraction (`2d6--3`).
-/
namespace TabletopDice
namespace Token

open Text

/-- A piece of text: what it says, if it is not white space, and the number of its characters after the first. -/
structure Piece where
  lexeme : Option Lexeme
  extra : Nat

/-- The words that a letter may start, longest first where two share a letter. -/
def longWords : List (List Char) :=
  [Keyword.spelling .adv, Keyword.spelling .dis, Keyword.spelling .iron, Keyword.spelling .kl]

/-- The letters that are keywords on their own. -/
def singleLetters : List Char := ['d', 's', 'f', 'k', 't', 'r', 'w', 'e', 'x']

/-- The length of the word that the text begins with. -/
def wordLength? (cs : List Char) : Option Nat :=
  match longWords.find? (startsWithWord · cs) with
  | some word => some word.length
  | none =>
    if singleLetters.any fun letter => startsWithWord [letter] cs then some 1 else none

/-- **The lexeme of a word**: the keyword that it is in lower case, or a lookalike. -/
def wordLexeme (word : List Char) : Lexeme :=
  let lower := word.flatMap lowerLetter
  match Keyword.ofSpelling? lower with
  | some keyword => .keyword keyword
  | none => .lookalike (String.ofList lower)

/-- The second numeral of a range, if two hyphens and a digit follow the first. -/
def spanEnd? : List Char → Option (List Char)
  | '-' :: '-' :: rest => match rest.takeWhile isDigit with
    | [] => none
    | high => some high
  | _ => none

/-- **A numeral, or a range of numbers**; a numeral longer than `maxDigits` is refused. -/
def numberPiece (afterLetter : Bool) (c : Char) (rest : List Char) : Except SyntaxFault Piece :=
  let more := rest.takeWhile isDigit
  let single : Except SyntaxFault Piece :=
    if more.length + 1 ≤ maxDigits then .ok ⟨some (.number (c :: more)), more.length⟩ else .error .longNumber
  if afterLetter then single
  else match spanEnd? (rest.dropWhile isDigit) with
    | none => single
    | some high =>
      if more.length + 1 ≤ maxDigits && high.length ≤ maxDigits then
        .ok ⟨some (.span (c :: more) high), more.length + 2 + high.length⟩
      else .error .longNumber

/-- **A character that starts a name**: a form of a Latin letter or the low line. -/
def isNameStart (c : Char) : Bool := isLetter c || c == '_'

/-- A character that continues the name of a flag. -/
def isFlagChar (c : Char) : Bool := isWordChar c || c == '-'

/-- The name after a sigil: a start, then characters that continue it. -/
def nameAfterSigil? (continues : Char → Bool) : List Char → Option (List Char)
  | [] => none
  | c :: rest => if isNameStart c then some (c :: rest.takeWhile continues) else none

/-- **The first piece of a text** that starts with `c` and goes on with `rest`, `afterLetter` telling whether a letter
stands right before it. -/
def firstPiece (afterLetter : Bool) (c : Char) (rest : List Char) : Except SyntaxFault Piece :=
  if isBlank c then .ok ⟨none, (rest.takeWhile isBlank).length⟩
  else if isDigit c then numberPiece afterLetter c rest
  else if c = '@' then match nameAfterSigil? isWordChar rest with
    | some name => .ok ⟨some (.var (String.ofList name)), name.length⟩
    | none => .error (.strayCharacter c)
  else if c = '#' then match nameAfterSigil? isFlagChar rest with
    | some name => .ok ⟨some (.flag (String.ofList name)), name.length⟩
    | none => .error (.strayCharacter c)
  else if c = ':' && rest.head? == some '=' then .ok ⟨some .becomes, 1⟩
  else match wordLength? (c :: rest) with
    | some length => .ok ⟨some (wordLexeme ((c :: rest).take length)), length - 1⟩
    | none => match Symbol.ofChar? c with
      | some symbol => .ok ⟨some (.symbol symbol), 0⟩
      | none => .error (.strayCharacter c)

/-- Whether a letter stands right before the text that follows a piece. -/
def endsInLetter (c : Char) (extra : List Char) : Bool := isLetter (extra.getLastD c)

/-- **The tokens of a text** that starts at `position`: pieces from left to right, white space dropped. -/
def scanFrom (afterLetter : Bool) (position : Nat) : List Char → Except SyntaxError (List Token)
  | [] => .ok []
  | c :: rest =>
    match firstPiece afterLetter c rest with
    | .error fault => .error ⟨position, fault⟩
    | .ok piece =>
      match scanFrom (endsInLetter c (rest.take piece.extra)) (position + 1 + piece.extra) (rest.drop piece.extra) with
      | .error error => .error error
      | .ok tokens => match piece.lexeme with
        | none => .ok tokens
        | some lexeme => .ok (⟨lexeme, position⟩ :: tokens)
  termination_by cs => cs.length
  decreasing_by simp only [List.length_cons, List.length_drop]; omega

/-- **The tokens of a text.** -/
def scan (text : List Char) : Except SyntaxError (List Token) := scanFrom false 0 text

end Token
end TabletopDice
