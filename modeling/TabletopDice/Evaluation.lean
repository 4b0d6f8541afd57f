import TabletopDice.Roller
/-!
# Evaluation — from a command to its outcome

Statements and operands are evaluated from left to right. A roll first counts its dice, then checks their sides, then
rolls, and reads the dice last. A repetition evaluates its expressions anew each time. A sum whose left operand takes
modifiers adds the right operand to it and keeps the right operand, unless it is a plain number, as a source.
-/
namespace TabletopDice

/-- What a command may ask for: dice in one roll, sides of a die, repetitions, and explosions of a die. -/
structure Limits where
  maxDice : Int
  maxSides : Int
  maxRepeat : Int
  maxChain : Int
  deriving DecidableEq, Repr

namespace Evaluation

variable {σ : Type}

/-! ## Limits -/

/-- **The number of dice**: at least one, at most what the limits allow. -/
def diceCount (limits : Limits) (count : Option Nat) (default : Nat) : Except RuleError Nat :=
  let count := count.getD default
  if count < 1 then .error (.noDice count)
  else if limits.maxDice < count then .error (.tooManyDice limits.maxDice count)
  else .ok count

/-- The number of sides, at most what the limits allow; that it is at least one is for the roller to say. -/
def dieSides (limits : Limits) (sides : Nat) : Except RuleError Int :=
  if limits.maxSides < sides then .error (.tooManySides limits.maxSides sides) else .ok sides

/-- **The number of repetitions**: at least one, at most what the limits allow. -/
def repeatCount (limits : Limits) (count : Nat) : Except RuleError Nat :=
  if count < 1 then .error (.noRepeats count)
  else if limits.maxRepeat < count then .error (.tooManyRepeats limits.maxRepeat count)
  else .ok count

/-- The target number and the interval of a suffix, each with its default. -/
def targetNumber : Option TargetSuffix → Int × Int
  | none => (Judgement.defaultTarget, Judgement.defaultInterval)
  | some suffix =>
    ((suffix.target.map Int.ofNat).getD Judgement.defaultTarget,
      (suffix.interval.map Int.ofNat).getD Judgement.defaultInterval)

/-! ## Rolls -/

section Rolls

variable [RandomSource σ]

/-- Dice of one size, plain or acing. -/
def rollDice (limits : Limits) (acing : Bool) (sides : Int) (count : Nat) : Play σ (List Die) :=
  if acing then Play.times (Roller.acing limits.maxChain sides) count
  else Play.times (Die.single <$> Roller.die sides) count

/-- The dice in the order in which a rule keeps them; dice with equal totals stay in the order rolled. -/
def ordered (rule : KeepRule) (dice : List Die) : List Die :=
  dice.mergeSort fun a b => if rule.keepsHighest then decide (b.total ≤ a.total) else decide (a.total ≤ b.total)

/-- **The dice kept and the dice dropped.** -/
def select (dice : List Die) : Option KeepSuffix → Except RuleError (List Die × List Die)
  | none => .ok (dice, [])
  | some suffix =>
    let count := suffix.count.getD 1
    if count < 1 then .error (.keepsNone count)
    else .ok ((ordered suffix.rule dice).take count, (ordered suffix.rule dice).drop count)

/-- The target number, the interval and the judgement of a value, if there is a target suffix. -/
def judged (value : Int) : Option TargetSuffix → Except RuleError (Option Int × Option Int × Option Judgement)
  | none => .ok (none, none, none)
  | some suffix => do
    let (target, interval) := targetNumber (some suffix)
    let judgement ← Judgement.judge value target interval
    .ok (some target, some interval, some judgement)

/-- A throw that has just been made. -/
def fresh (throw : Throw) : Outcome := .thrown throw.total throw 0 []

/-- Dice read against a success threshold. -/
def countedThrow (spelling : String) (dice : List Die) (suffix : SuccessSuffix) : Throw :=
  .count {
    spelling, dice
    threshold := suffix.threshold
    failures := match suffix.failure with
      | none => 0
      | some failure => ((dice.countP fun die => decide (die.total ≤ (failure : Int)) : Nat) : Int)
    failure := suffix.failure.map Int.ofNat }

/-- Dice summed, perhaps only some of them, perhaps against a target number. -/
def summedThrow (spelling : String) (sides : Int) (acing : Bool) (dice : List Die) (keep : Option KeepSuffix)
    (target : Option TargetSuffix) : Except RuleError Throw := do
  let (kept, dropped) ← select dice keep
  let (target, interval, judgement) ← judged (totalOf kept) target
  .ok (.generic {
    spelling, sides, acing, dice, kept, dropped, target, interval, judgement
    keep := keep.map KeepSuffix.rule })

/-- **A generic roll.** -/
def rollGeneric (limits : Limits) (roll : GenericRoll) : Play σ Outcome := do
  let count ← Play.ofRule (diceCount limits roll.count 1)
  let sides ← Play.ofRule (dieSides limits roll.faces.count)
  let dice ← rollDice limits roll.acing sides count
  match roll.reading with
  | .successes suffix => pure (fresh (countedThrow roll.spelling dice suffix))
  | .total keep target => do
    let throw ← Play.ofRule (summedThrow roll.spelling sides roll.acing dice keep target)
    pure (fresh throw)

/-- One outcome as it is, several as repetitions. -/
def together : List Outcome → Outcome
  | [outcome] => outcome
  | outcomes => .multiple (Outcome.sumOf outcomes) outcomes

/-- The sides of the wild die if they are not said. -/
def defaultWildSides : Nat := 6

/-- A trait die and a wild die; a tie goes to the trait die. -/
def rollWild (limits : Limits) (spelling : String) (traitSides wildSides target interval : Int) : Play σ Outcome := do
  let trait ← Roller.acing limits.maxChain traitSides
  let wild ← Roller.acing limits.maxChain wildSides
  let used := if wild.total ≤ trait.total then UsedDie.trait else UsedDie.wild
  let judgement ← Play.ofRule (Judgement.judge (max trait.total wild.total) target interval)
  pure (fresh (.wild { spelling, trait, wild, used, judgement, target, interval }))

/-- **A trait roll**, once or several times. -/
def rollSavage (limits : Limits) (roll : SavageRoll) : Play σ Outcome := do
  let count ← Play.ofRule (diceCount limits roll.count 1)
  let traitSides ← Play.ofRule (dieSides limits roll.traitSides)
  let wildSides ← Play.ofRule (dieSides limits (roll.wildSides.getD defaultWildSides))
  let (target, interval) := targetNumber roll.target
  together <$> Play.times (rollWild limits roll.spelling traitSides wildSides target interval) count

/-- One acing die, perhaps against a target number. -/
def rollExtra (limits : Limits) (spelling : String) (sides : Int) (target : Option TargetSuffix) :
    Play σ Outcome := do
  let die ← Roller.acing limits.maxChain sides
  let throw ← Play.ofRule (summedThrow spelling sides true [die] none target)
  pure (fresh throw)

/-- **A roll of an extra**, once or several times. -/
def rollExtras (limits : Limits) (roll : ExtrasRoll) : Play σ Outcome := do
  let count ← Play.ofRule (diceCount limits roll.count 1)
  let sides ← Play.ofRule (dieSides limits roll.sides)
  together <$> Play.times (rollExtra limits roll.spelling sides roll.target) count

/-- Plain dice summed, under a name. -/
def plainThrow (spelling : String) (sides : Int) (values : List Int) : Throw :=
  let dice := values.map Die.single
  .generic {
    spelling, sides, dice
    acing := false
    kept := dice
    dropped := []
    keep := none
    target := none
    interval := none
    judgement := none }

/-- The number of Fudge dice if it is not said. -/
def defaultFudgeDice : Nat := 4

/-- **Fudge dice**, which have three kinds of faces. -/
def rollFudge (limits : Limits) (count : Option Nat) : Play σ Outcome := do
  let dice ← Play.ofRule (diceCount limits count defaultFudgeDice)
  let values ← Play.times Roller.fudge dice
  pure (fresh (plainThrow (optionalDigits count ++ "dF") 3 values))

/-- The sizes of dice for the rolls of a six-sided die. -/
def carcosaSizes : List Int := [4, 6, 8, 10, 12, 20]

/-- **Dice whose size is rolled first.** -/
def rollCarcosa (limits : Limits) (count : Option Nat) : Play σ Outcome := do
  let dice ← Play.ofRule (diceCount limits count 1)
  let size ← Roller.die 6
  let sides ← Play.ofExcept (Roller.pick carcosaSizes size)
  let values ← Play.times (Roller.die sides) dice
  pure (fresh (plainThrow (optionalDigits count ++ "d?(d" ++ toString sides ++ ")") sides values))

/-- **Plain six-sided dice with an acing wild die** as the last of them. -/
def rollWeg (limits : Limits) (count : Nat) : Play σ Outcome := do
  let count ← Play.ofRule (diceCount limits (some count) 1)
  let dice ← Play.times (Roller.die 6) (count - 1)
  let wild ← Roller.acing limits.maxChain 6
  pure (fresh (.weg { dice, wild }))

/-- A number from a range, labelled with its bounds. -/
def rollSpan (low high : Nat) : Play σ Outcome := do
  let value ← Roller.range low high
  pure (.simple value (toString low ++ "--" ++ toString high) none [])

/-- **The outcome of a roll term.** -/
def roll (limits : Limits) : Roll → Play σ Outcome
  | .generic roll => rollGeneric limits roll
  | .savage roll => rollSavage limits roll
  | .extras roll => rollExtras limits roll
  | .fudge count => rollFudge limits count
  | .carcosa count => rollCarcosa limits count
  | .weg count => rollWeg limits count
  | .span low high => rollSpan low high

end Rolls

/-! ## Expressions -/

/-- The value of a variable, zero if it has none. -/
def lookUp (name : String) : Play σ Outcome := do
  let table ← get
  match table.memory.get? name with
  | some value => pure (.simple value ("@" ++ name) none [])
  | none => do
    Play.report (.unbound name)
    pure (.simple 0 ("@" ++ name) none [])

/-- Gives a variable a value. -/
def assign (name : String) (value : Int) : Play σ Unit :=
  modify fun table => { table with memory := table.memory.set name value }

/-- An outcome with its sign changed. -/
def negated (operand : Outcome) : Except Fault Outcome := do
  let label ← Wording.write ["-", operand.value]
  .ok (.simple (-operand.value) label (some Arithmetic.negation) [operand])

/-- The number that an operator adds to its left operand, if it adds one. -/
def delta? (operator : BinaryOperator) (right : Outcome) : Option Int :=
  match operator with
  | .add => some right.value
  | .subtract => some (-right.value)
  | _ => none

/-- The outcome of an operator that does not add to its left operand. -/
def combined (operator : BinaryOperator) (left right : Outcome) : Except Fault Outcome := do
  let value ← (Arithmetic.apply operator left.value right.value).mapError .rule
  let label ← Wording.write [left.value, " ", operator.symbol, " ", right.value]
  .ok (.simple value label (some operator.symbol) [left, right])

/-- **The outcome of an operator between two outcomes**; `source` is the right one if it has to be kept. -/
def operate (operator : BinaryOperator) (left right : Outcome) (source : Option Outcome) : Except Fault Outcome :=
  match delta? operator right with
  | some delta =>
    if left.acceptsModifier then left.addModifier delta source else combined operator left right
  | none => combined operator left right

/-- A right operand as a source: kept unless it is a number as written. -/
def sourceOf (expression : Expr) (outcome : Outcome) : Option Outcome :=
  match expression with
  | .literal .. => none
  | _ => some outcome

/-- **An outcome moved between bounds**, which may not cross. -/
def restrict (inner : Outcome) (minimum maximum : Option Int) : Except RuleError Outcome :=
  let raised := match minimum with
    | some low => max inner.value low
    | none => inner.value
  let lowered := match maximum with
    | some high => min raised high
    | none => raised
  match minimum, maximum with
  | some low, some high =>
    if high < low then .error (.crossedBounds low high) else .ok (.bounded lowered inner minimum maximum)
  | _, _ => .ok (.bounded lowered inner minimum maximum)

/-- **The outcome of an expression.** -/
def evaluate [RandomSource σ] (limits : Limits) : Expr → Play σ Outcome
  | .literal value _ => pure (.simple value "" none [])
  | .var name _ => lookUp name
  | .roll term _ => roll limits term
  | .signed .plus operand _ => evaluate limits operand
  | .signed .minus operand _ => do
    let operand ← evaluate limits operand
    Play.ofExcept (negated operand)
  | .binary operator left right _ => do
    let leftOutcome ← evaluate limits left
    let rightOutcome ← evaluate limits right
    Play.ofExcept (operate operator leftOutcome rightOutcome (sourceOf right rightOutcome))
  | .unbounded operand _ => do
    let inner ← evaluate limits operand
    Play.ofRule (restrict inner none none)
  | .atLeast operand minimum _ => do
    let inner ← evaluate limits operand
    let low ← evaluate limits minimum
    Play.ofRule (restrict inner (some low.value) none)
  | .atMost operand maximum _ => do
    let inner ← evaluate limits operand
    let high ← evaluate limits maximum
    Play.ofRule (restrict inner none (some high.value))
  | .between operand minimum maximum _ => do
    let inner ← evaluate limits operand
    let low ← evaluate limits minimum
    let high ← evaluate limits maximum
    Play.ofRule (restrict inner (some low.value) (some high.value))
  | .assign name value _ => do
    let outcome ← evaluate limits value
    assign name outcome.value
    pure outcome

/-! ## Statements -/

section Statements

variable [RandomSource σ]

/-- The outcomes of expressions, from left to right. -/
def evaluateAll (limits : Limits) : List Expr → Play σ (List Outcome)
  | [] => pure []
  | expression :: rest => do
    let first ← evaluate limits expression
    let others ← evaluateAll limits rest
    pure (first :: others)

/-- Repetitions of outcomes. -/
def repeated (rolls : List Outcome) : Outcome := .multiple (Outcome.sumOf rolls) rolls

/-- The signed value of a modifier; none is zero. -/
def modifierValue (limits : Limits) : Option (Sign × Expr) → Play σ Int
  | none => pure 0
  | some (.plus, expression) => do
    let outcome ← evaluate limits expression
    pure outcome.value
  | some (.minus, expression) => do
    let outcome ← evaluate limits expression
    pure (-outcome.value)

/-- **An Ironsworn action roll**: the modifier first, then the action die and two challenge dice. -/
def rollIronsworn (limits : Limits) (modifier : Option (Sign × Expr)) : Play σ Outcome := do
  let modifier ← modifierValue limits modifier
  let action ← Roller.die 6
  let firstChallenge ← Roller.die 10
  let secondChallenge ← Roller.die 10
  pure (.thrown (action + modifier) (.action { action, firstChallenge, secondChallenge }) modifier [])

/-- **The outcome of a statement.** -/
def evaluateStatement (limits : Limits) : Statement → Play σ Outcome
  | .once expression _ => evaluate limits expression
  | .times count expression _ => do
    let count ← Play.ofRule (repeatCount limits count)
    let rolls ← Play.times (evaluate limits expression) count
    pure (repeated rolls)
  | .batch count expressions _ => do
    let count ← Play.ofRule (repeatCount limits count)
    let rounds ← Play.times (repeated <$> evaluateAll limits expressions) count
    pure (repeated rounds)
  | .ironsworn modifier _ => rollIronsworn limits modifier
  | .flag name _ => pure (.flag 0 name)

/-- The outcomes of statements in order, each reported before it is evaluated. -/
def evaluateStatements (limits : Limits) : List Statement → Play σ (List Outcome)
  | [] => pure []
  | statement :: rest => do
    Play.report (.evaluating statement)
    let first ← evaluateStatement limits statement
    let others ← evaluateStatements limits rest
    pure (first :: others)

/-- The outcome of several statements, whose value is that of the last. -/
def inSequence (first : Outcome) (others : List Outcome) : Outcome :=
  match others.getLast? with
  | none => first
  | some last => .sequence last.value (first :: others)

/-- **The outcome of a command.** -/
def evaluateCommand (limits : Limits) (command : Command) : Play σ Outcome := do
  Play.report (.evaluating command.first)
  let first ← evaluateStatement limits command.first
  let others ← evaluateStatements limits command.others
  pure (inSequence first others)

end Statements

/-- A suffix alone has no outcome. -/
def evaluateSuffix (suffix : Suffix) : Except RuleError Outcome := .error (.unsupportedSuffix suffix)

end Evaluation
end TabletopDice
