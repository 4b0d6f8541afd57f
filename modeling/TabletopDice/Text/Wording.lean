import TabletopDice.Text.Numeral
/-!
# Wording — a message before it is written

A message is words with numbers between them. A number is written in decimal digits, but not in more of them than a
text may state: a message that holds a longer number is not written at all.
-/
namespace TabletopDice

/-- A number whose magnitude is below this has at most `maxStatedDigits` digits. It is large, so only the kernel
computes it. -/
@[irreducible] def Text.writtenBelow : Nat := Nat.pow 10 maxStatedDigits

/-- A piece of a message: words as they are, or a number in its digits. -/
inductive Piece
  | words (text : String)
  | number (n : Int)
  deriving DecidableEq, Repr

instance : Coe String Piece := ⟨.words⟩

instance : Coe Int Piece := ⟨.number⟩

namespace Piece

/-- The text of a piece, however long its number is. -/
def text : Piece → String
  | words text => text
  | number n => toString n

/-- **A piece that can be written**: its number, if it is one, has at most `Text.maxStatedDigits` digits. -/
def Writable : Piece → Prop
  | words _ => True
  | number n => n.natAbs < Text.writtenBelow

instance : DecidablePred Writable
  | words _ => inferInstanceAs (Decidable True)
  | number n => inferInstanceAs (Decidable (n.natAbs < Text.writtenBelow))

end Piece

/-- **A message before it is written.** -/
abbrev Wording := List Piece

namespace Wording

/-- **The text of a message**, however long its numbers are. -/
def text : Wording → String
  | [] => ""
  | piece :: rest => piece.text ++ text rest

/-- **A message that can be written**: each of its numbers is short enough. -/
def Writable (wording : Wording) : Prop := ∀ piece ∈ wording, piece.Writable

instance : DecidablePred Writable := fun wording => inferInstanceAs (Decidable (∀ piece ∈ wording, piece.Writable))

/-- Messages with a separator between them. -/
def separated (separator : String) (wordings : List Wording) : Wording :=
  List.intercalate [.words separator] wordings

end Wording
end TabletopDice
