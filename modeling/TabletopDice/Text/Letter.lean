/-!
# Letter — letters of keywords, whatever their case

Keywords are read without regard to case. Four characters outside the Latin alphabet differ from one of its letters
only in case, and count as that letter when a keyword is recognised: the Kelvin sign (k), the long s (s), and the
dotted capital and dotless small i (i). Lower-casing maps only the Kelvin sign to a Latin letter: the long s and the
dotless i stay, and the dotted capital i becomes an i with a combining dot.
-/
namespace TabletopDice
namespace Text

/-- **The Latin small letter that a character is a form of**, if it is one. -/
def baseLetter? (c : Char) : Option Char :=
  if c.isLower then some c
  else if c.isUpper then some c.toLower
  else if c = '\u212A' then some 'k'
  else if c = '\u017F' then some 's'
  else if c = '\u0130' || c = '\u0131' then some 'i'
  else none

/-- **A form of a Latin letter.** -/
def isLetter (c : Char) : Bool := (baseLetter? c).isSome

/-- **The lower case of a form of a Latin letter.** -/
def lowerLetter (c : Char) : List Char :=
  if c = '\u212A' then ['k']
  else if c = '\u0130' then ['i', '\u0307']
  else [c.toLower]

/-- **The text begins with the word**, in letters of any form. -/
def startsWithWord : List Char → List Char → Bool
  | [], _ => true
  | _ :: _, [] => false
  | p :: word, c :: text => baseLetter? c == some p && startsWithWord word text

end Text
end TabletopDice
