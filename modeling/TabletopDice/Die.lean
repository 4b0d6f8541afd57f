import TabletopDice.Fault
import TabletopDice.Numbers
/-!
# Die — one die with its explosions

A die that shows its highest face may be rolled again, and the new value is added. A die is the non-empty list of its
rolls, each marked if another follows because of it. The marks are kept as they are given; a die built from its rolls
marks all of them but the last.
-/
namespace TabletopDice

/-- One roll of a die, and whether it was rolled again. -/
structure Link where
  value : Int
  exploded : Bool
  deriving DecidableEq, Repr

/-- **A die**: its first roll, and the rolls after it. -/
structure Die where
  first : Link
  followers : List Link
  deriving DecidableEq, Repr

namespace Die

/-- A die rolled once. -/
def single (value : Int) : Die := ⟨⟨value, false⟩, []⟩

/-- All rolls with their marks. -/
def links (die : Die) : List Link := die.first :: die.followers

/-- **A die built from its rolls**, all marked but the last. -/
def ofRolls (first : Int) : List Int → Die
  | [] => single first
  | second :: rest => ⟨⟨first, true⟩, (ofRolls second rest).links⟩

/-- A die built from a list of rolls, which has to have one. -/
def ofRolls? : List Int → Except Fault Die
  | [] => .error .emptyDie
  | first :: rest => .ok (ofRolls first rest)

/-- The values of all rolls. -/
def rolls (die : Die) : List Int := die.links.map Link.value

/-- **The sum of all rolls.** -/
def total (die : Die) : Int := Numbers.total die.rolls

/-- The number of rolls after the first. -/
def explosions (die : Die) : Nat := die.followers.length

/-- **A die in words**: its value, or its rolls and their sum. -/
def wording (die : Die) : Wording :=
  match die.followers with
  | [] => [die.first.value]
  | _ => List.flatten [["["], Wording.separated "+" (die.rolls.map fun roll => [.number roll]), ["]=", die.total]]

/-- Dice in words, in brackets. -/
def wordingAll (dice : List Die) : Wording := List.flatten [["["], Wording.separated ", " (dice.map wording), ["]"]]

end Die
end TabletopDice
