import TabletopDice.Arithmetic
import TabletopDice.Die
import TabletopDice.Judgement
/-!
# Outcome — what an evaluation ends in

An outcome is a value with the structure that it comes from. A *throw* is dice rolled under one rule; its value is
what the rule makes of the dice, plus a modifier, and the outcomes that the modifier came from are kept beside it. The
other outcomes hold outcomes: repetitions, arithmetic, bounds and sequences. A flag holds only its name.

An outcome can compute its value again from its structure alone, and the outcomes that an evaluation ends in agree
with that value; the type does not ask for it.
-/
namespace TabletopDice

/-- Which die of a wild throw counts. -/
inductive UsedDie
  | trait | wild
  deriving DecidableEq, Repr

/-- Dice of one size, the ones kept and the ones dropped, and a judgement if there is a target number. -/
structure GenericThrow where
  spelling : String
  sides : Int
  acing : Bool
  dice : List Die
  kept : List Die
  dropped : List Die
  keep : Option KeepRule
  target : Option Int
  interval : Option Int
  judgement : Option Judgement
  deriving DecidableEq, Repr

/-- A trait die and a wild die, of which the higher counts. -/
structure WildThrow where
  spelling : String
  trait : Die
  wild : Die
  used : UsedDie
  judgement : Judgement
  target : Int
  interval : Int
  deriving DecidableEq, Repr

/-- Dice counted against a success threshold. -/
structure CountThrow where
  spelling : String
  dice : List Die
  threshold : Int
  failures : Int
  failure : Option Int
  deriving DecidableEq, Repr

/-- Plain six-sided dice and an acing wild die. -/
structure WegThrow where
  dice : List Int
  wild : Die
  deriving DecidableEq, Repr

/-- An action die against two challenge dice. -/
structure ActionThrow where
  action : Int
  firstChallenge : Int
  secondChallenge : Int
  deriving DecidableEq, Repr

/-- Dice rolled under one rule. -/
inductive Throw
  | generic (throw : GenericThrow)
  | wild (throw : WildThrow)
  | count (throw : CountThrow)
  | weg (throw : WegThrow)
  | action (throw : ActionThrow)
  deriving DecidableEq, Repr

/-- The number of dice whose total reaches the threshold. -/
def CountThrow.successes (throw : CountThrow) : Int :=
  ((throw.dice.countP fun die => decide (throw.threshold ≤ die.total) : Nat) : Int)

/-- The trait die with a modifier. -/
def WildThrow.traitTotal (throw : WildThrow) (modifier : Int) : Int := throw.trait.total + modifier

/-- The wild die with a modifier. -/
def WildThrow.wildTotal (throw : WildThrow) (modifier : Int) : Int := throw.wild.total + modifier

/-- The sum of the totals of dice. -/
def totalOf (dice : List Die) : Int := Numbers.total (dice.map Die.total)

/-- **What the rule of a throw makes of its dice.** -/
def Throw.total : Throw → Int
  | generic throw => totalOf throw.kept
  | wild throw => max throw.trait.total throw.wild.total
  | count throw => throw.successes
  | weg throw => Numbers.total throw.dice + throw.wild.total
  | action throw => throw.action

/-- **The throw with its judgement made again** for another value. -/
def Throw.rejudge (value : Int) : Throw → Except Fault Throw
  | generic throw => match throw.target, throw.interval with
    | none, _ => .ok (.generic throw)
    | some _, none => .error .noInterval
    | some target, some interval => match Judgement.judge value target interval with
      | .error error => .error (.ofRule error)
      | .ok judgement => .ok (.generic { throw with judgement := some judgement })
  | wild throw => match Judgement.judge value throw.target throw.interval with
    | .error error => .error (.ofRule error)
    | .ok judgement => .ok (.wild { throw with judgement })
  | throw => .ok throw

/-- **The outcome of an evaluation.** -/
inductive Outcome
  /-- A number without a rule behind it. -/
  | bare (value : Int)
  /-- A throw with its modifier, and the outcomes that the modifier came from. -/
  | thrown (value : Int) (throw : Throw) (modifier : Int) (sources : List Outcome)
  /-- Repetitions. -/
  | multiple (value : Int) (rolls : List Outcome)
  /-- A number, with a label or as the result of an operator. -/
  | simple (value : Int) (label : String) (operator : Option String) (operands : List Outcome)
  /-- An outcome moved between bounds. -/
  | bounded (value : Int) (inner : Outcome) (minimum maximum : Option Int)
  | flag (value : Int) (name : String)
  /-- The outcomes of several statements. -/
  | sequence (value : Int) (results : List Outcome)

namespace Outcome

/-- The value of an outcome. -/
def value : Outcome → Int
  | bare value => value
  | thrown value .. => value
  | multiple value _ => value
  | simple value .. => value
  | bounded value .. => value
  | flag value _ => value
  | sequence value _ => value

/-- The sum of the values of outcomes. -/
def sumOf (outcomes : List Outcome) : Int := Numbers.total (outcomes.map value)

/-- The kind of a throw. -/
def throwKind : Throw → String
  | .generic _ => "generic"
  | .wild _ => "savage_wild"
  | .count _ => "success_fail"
  | .weg _ => "weg_d6"
  | .action _ => "ironsworn"

/-- **The kind of an outcome**, as programs read it. -/
def kind : Outcome → String
  | bare _ => "result"
  | thrown _ throw _ _ => throwKind throw
  | multiple .. => "multiple"
  | simple .. => "simple"
  | bounded .. => "bounded"
  | flag .. => "flag"
  | sequence .. => "sequence"

/-- The number moved up to the minimum and down to the maximum. -/
def clamp (minimum maximum : Option Int) (n : Int) : Int :=
  let raised := match minimum with
    | some low => if n < low then low else n
    | none => n
  match maximum with
  | some high => if high < raised then high else raised
  | none => raised

/-- **The value computed from the structure alone.** -/
def recompute : Outcome → Except Fault Int
  | bare _ => .error .noStructure
  | thrown _ throw modifier _ => .ok (throw.total + modifier)
  | multiple _ rolls => .ok (sumOf rolls)
  | simple value _ none _ => .ok value
  | simple _ _ (some operator) operands => Arithmetic.applySymbol operator (operands.map value)
  | bounded _ inner minimum maximum => .ok (clamp minimum maximum inner.value)
  | flag .. => .ok 0
  | sequence _ results => match results.getLast? with
    | some last => .ok last.value
    | none => .error .noItem

/-- **An outcome that takes modifiers**: throws, and repetitions for each of their rolls. -/
def acceptsModifier : Outcome → Bool
  | thrown .. | multiple .. => true
  | _ => false

/-- The outcome of a sum, for an outcome that takes no modifier. -/
def plus (outcome : Outcome) (delta : Int) : Except Fault Outcome := do
  let operator := if 0 ≤ delta then BinaryOperator.add else BinaryOperator.subtract
  let size : Int := (delta.natAbs : Int)
  let label ← Wording.write [outcome.value, " ", operator.symbol, " ", size]
  .ok (simple (outcome.value + delta) label (some operator.symbol) [outcome, simple size "" none []])

mutual

/-- **An outcome with a number added**, which stays of its kind if it takes modifiers and becomes a sum otherwise. The
source of the number is kept where there is a place for it. -/
def addTo (delta : Int) (source : Option Outcome) : Outcome → Except Fault Outcome
  | thrown value throw modifier sources => do
    let throw ← throw.rejudge (value + delta)
    .ok (thrown (value + delta) throw (modifier + delta) (sources ++ source.toList))
  | multiple _ rolls => do
    let rolls ← addToAll delta source rolls
    .ok (multiple (sumOf rolls) rolls)
  | outcome => outcome.plus delta

/-- Every outcome of a list with a number added. -/
def addToAll (delta : Int) (source : Option Outcome) : List Outcome → Except Fault (List Outcome)
  | [] => .ok []
  | roll :: rolls => do
    let roll ← addTo delta source roll
    let rolls ← addToAll delta source rolls
    .ok (roll :: rolls)

end

/-- **An outcome with a modifier added**, if it takes modifiers. -/
def addModifier (delta : Int) (source : Option Outcome) (outcome : Outcome) : Except Fault Outcome :=
  if outcome.acceptsModifier then addTo delta source outcome else .error (.takesNoModifier outcome.kind)

end Outcome
end TabletopDice
