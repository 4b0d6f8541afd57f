import TabletopDice.Text.Letter
import TabletopDice.Text.Numeral
/-!
# SuffixOrder — the suffixes of a single roll in the order of the grammar

Players write suffixes in any order (`s8+2t4`); the grammar wants them in one. A text that is one roll, perhaps with
a repeat count before it, followed by nothing but suffixes of different kinds, becomes

    [Nx] base [!] [keep] [tN] [rM] [+N or -N]

with the letters of the suffixes small and everything before them as typed. Every other text stays as it is.
-/
namespace TabletopDice
namespace SuffixOrder

open Text

/-- The kinds of suffixes. -/
inductive Kind
  | keep | target | interval | modifier
  deriving DecidableEq, Repr

/-- A suffix at the head of a text: its kind, its text in small letters, and the number of its characters after the
first. -/
structure Found where
  kind : Kind
  text : List Char
  extra : Nat

/-- The words of the keep suffix, in the order in which they are tried. -/
def keepWords : List (List Char) := [['k', 'l'], ['k'], ['a', 'd', 'v'], ['d', 'i', 's']]

/-- A letter or sign that needs digits after it. -/
def withDigits? (kind : Kind) (c : Char) (rest : List Char) : Option Found :=
  match rest.takeWhile isDigit with
  | [] => none
  | digits => some ⟨kind, c :: digits, digits.length⟩

/-- **The suffix at the head of a text.** -/
def suffix? (c : Char) (rest : List Char) : Option Found :=
  match keepWords.find? (startsWithWord · (c :: rest)) with
  | some word =>
    let digits := (rest.drop (word.length - 1)).takeWhile isDigit
    some ⟨.keep, ((c :: rest).take word.length).flatMap lowerLetter ++ digits, word.length - 1 + digits.length⟩
  | none =>
    if baseLetter? c == some 't' then withDigits? .target 't' rest
    else if baseLetter? c == some 'r' then withDigits? .interval 'r' rest
    else if c = '+' || c = '-' then withDigits? .modifier c rest
    else none

/-- The suffixes found so far, at most one of each kind. -/
structure Parts where
  keep : Option (List Char)
  target : Option (List Char)
  interval : Option (List Char)
  modifier : Option (List Char)
  deriving DecidableEq, Repr

namespace Parts

/-- No suffixes. -/
def empty : Parts := ⟨none, none, none, none⟩

/-- The suffix of a kind. -/
def get? (parts : Parts) : Kind → Option (List Char)
  | .keep => parts.keep
  | .target => parts.target
  | .interval => parts.interval
  | .modifier => parts.modifier

/-- The parts with the suffix of a kind. -/
def set (parts : Parts) (text : List Char) : Kind → Parts
  | .keep => { parts with keep := some text }
  | .target => { parts with target := some text }
  | .interval => { parts with interval := some text }
  | .modifier => { parts with modifier := some text }

/-- **The suffixes in the order of the grammar.** -/
def inOrder (parts : Parts) : List Char :=
  parts.keep.getD [] ++ parts.target.getD [] ++ parts.interval.getD [] ++ parts.modifier.getD []

end Parts

/-- **The suffixes that make up a text**, added to those found before; none if something else stands in it, if a kind
comes twice, or if a keep suffix stands where none is allowed. -/
def splitFrom (allowKeep : Bool) (parts : Parts) : List Char → Option Parts
  | [] => some parts
  | c :: rest => match suffix? c rest with
    | none => none
    | some found =>
      if (parts.get? found.kind).isSome || (found.kind = .keep && !allowKeep) then none
      else splitFrom allowKeep (parts.set found.text found.kind) (rest.drop found.extra)
  termination_by cs => cs.length
  decreasing_by simp only [List.length_cons, List.length_drop]; omega

/-- A text cut in two: a base, and what follows it. -/
structure Cut where
  base : List Char
  after : List Char

/-- The letter that matches, and what follows it, after any number of digits. -/
def digitsThen? (isLetter : Char → Bool) (cs : List Char) : Option Cut :=
  match cs.dropWhile isDigit with
  | c :: rest => if isLetter c then some ⟨cs.takeWhile isDigit ++ [c], rest⟩ else none
  | [] => none

/-- At least one digit at the head of what follows, added to the base. -/
def thenDigits? (cut : Cut) : Option Cut :=
  match cut.after.takeWhile isDigit with
  | [] => none
  | digits => some ⟨cut.base ++ digits, cut.after.dropWhile isDigit⟩

/-- **A repeat count and its letter**, which are nothing if they are not there. -/
def cutRepeat (cs : List Char) : Cut :=
  match cs.takeWhile isDigit with
  | [] => ⟨[], cs⟩
  | _ => (digitsThen? (fun c => c == 'x' || c == 'X') cs).getD ⟨[], cs⟩

/-- The base of a generic roll: a count, the letter, the sides or the percent sign, and the mark of acing. -/
def cutGeneric? (cs : List Char) : Option Cut := do
  let cut ← digitsThen? (fun c => c == 'd' || c == 'D') cs
  let sided ← match cut.after with
    | '%' :: rest => some ⟨cut.base ++ ['%'], rest⟩
    | _ => thenDigits? cut
  match sided.after with
  | '!' :: rest => some ⟨sided.base ++ ['!'], rest⟩
  | _ => some sided

/-- The base of a trait roll: a count, the letter, the sides, and perhaps a wild die. -/
def cutSavage? (cs : List Char) : Option Cut := do
  let cut ← digitsThen? (fun c => c == 's' || c == 'S') cs
  let sided ← thenDigits? cut
  match sided.after with
  | c :: rest =>
    if c == 'w' || c == 'W' then some ((thenDigits? ⟨sided.base ++ [c], rest⟩).getD sided) else some sided
  | [] => some sided

/-- The base of a roll of an extra: a count, the letter and the sides. -/
def cutExtras? (cs : List Char) : Option Cut := do
  let cut ← digitsThen? (fun c => c == 'e' || c == 'E') cs
  thenDigits? cut

/-- **The base of a roll**, with whether it may have a keep suffix. -/
def cutBase? (cs : List Char) : Option (Cut × Bool) :=
  match cutGeneric? cs with
  | some cut => some (cut, true)
  | none => match cutSavage? cs with
    | some cut => some (cut, false)
    | none => (cutExtras? cs).map fun cut => (cut, false)

/-- **A text with its suffixes in order**, if it is a single roll followed by suffixes. -/
def reorder? (cs : List Char) : Option (List Char) := do
  let repeated := cutRepeat cs
  let (cut, allowKeep) ← cutBase? repeated.after
  let parts ← splitFrom allowKeep .empty cut.after
  some (repeated.base ++ cut.base ++ parts.inOrder)

/-- **The text with its suffixes in the order of the grammar**, or unchanged if it is not a single roll with nothing
but suffixes after it. -/
def normalize (text : String) : String :=
  match reorder? text.toList with
  | some cs => String.ofList cs
  | none => text

end SuffixOrder
end TabletopDice
