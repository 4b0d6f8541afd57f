import TabletopDice.Table
/-!
# Roller — dice and ranges drawn from the source

A die is a draw from one to its number of sides. An acing die that shows its highest face is rolled again and added,
as often as the budget of explosions allows; a die with one side never explodes.
-/
namespace TabletopDice
namespace Roller

variable {σ : Type} [RandomSource σ]

/-- The budget of explosions if none is said. -/
def defaultBudget : Int := 100

/-- **A die**; it needs at least one side. -/
def die (sides : Int) : Play σ Int :=
  if sides < 1 then Play.refuse (.invalidDie sides) else Play.draw 1 sides

/-- Whether a roll of a die explodes. -/
def explodes (sides roll : Int) : Bool := decide (1 < sides) && roll == sides

/-- The rolls after a roll of an acing die, at most so many. -/
def followers (sides : Int) : Nat → Int → Play σ (List Int)
  | 0, _ => pure []
  | budget + 1, roll =>
    if explodes sides roll then do
      let next ← Play.draw 1 sides
      let rest ← followers sides budget next
      pure (next :: rest)
    else pure []

/-- **An acing die**, rolled again after its highest face within the budget. -/
def acing (budget sides : Int) : Play σ Die := do
  let first ← die sides
  let rest ← followers sides budget.toNat first
  if explodes sides (rest.getLastD first) then Play.report (.budgetReached sides budget)
  pure (Die.ofRolls first rest)

/-- **A number between two bounds**, given in either order. -/
def range (a b : Int) : Play σ Int := Play.draw (min a b) (max a b)

/-- **The item of a table that a roll picks**, the first for a roll of one. A roll below one counts back from the last
item, and there may be no item for it. -/
def pick (items : List Int) (roll : Int) : Except Fault Int :=
  let place := if roll < 1 then roll - 1 + items.length else roll - 1
  match if place < 0 then none else items[place.toNat]? with
  | some item => .ok item
  | none => .error .noItem

/-- The faces of a Fudge die for the rolls of a six-sided die. -/
def fudgeFaces : List Int := [-1, -1, 0, 0, 1, 1]

/-- **A Fudge die.** -/
def fudge : Play σ Int := do
  let roll ← die 6
  Play.ofExcept (pick fudgeFaces roll)

/-- **Plain dice of one size.** -/
def dice (count sides : Int) : Play σ (List Int) := Play.times (die sides) count.toNat

end Roller
end TabletopDice
