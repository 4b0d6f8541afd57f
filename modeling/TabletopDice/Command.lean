/-!
# Command — what a dice expression says

A command is a sequence of statements. A statement rolls an expression once, several times, or in rounds with others,
makes an Ironsworn action roll, or sets a flag. Expressions are numbers, variables, roll terms, arithmetic, bounds and
assignments. Every node but the roll terms keeps the place where it stands in the text; a roll term's place is kept by
the expression that holds it.
-/
namespace TabletopDice

/-- Which dice a keep suffix keeps. -/
inductive KeepRule
  | highest | lowest | advantage | disadvantage
  deriving DecidableEq, Repr

/-- The rule keeps the highest totals; the others keep the lowest. -/
def KeepRule.keepsHighest : KeepRule → Bool
  | highest | advantage => true
  | lowest | disadvantage => false

/-- The letters of a keep rule. -/
def KeepRule.letters : KeepRule → String
  | highest => "k"
  | lowest => "kl"
  | advantage => "adv"
  | disadvantage => "dis"

/-- How many dice to keep; one if not said. -/
structure KeepSuffix where
  rule : KeepRule
  count : Option Nat
  deriving DecidableEq, Repr

/-- A target number and the interval of raises; each has a default if not said. -/
structure TargetSuffix where
  target : Option Nat
  interval : Option Nat
  deriving DecidableEq, Repr

/-- The total from which a die is a success, and the total up to which it is a failure, if failures count. -/
structure SuccessSuffix where
  threshold : Nat
  failure : Option Nat
  deriving DecidableEq, Repr

/-- A suffix of a roll. -/
inductive Suffix
  | keep (suffix : KeepSuffix)
  | target (suffix : TargetSuffix)
  | success (suffix : SuccessSuffix)
  deriving DecidableEq, Repr

/-- The sides of a generic die: a number, or the percent sign for a hundred. -/
inductive Faces
  | sides (count : Nat)
  | percent
  deriving DecidableEq, Repr

/-- The number of sides. -/
def Faces.count : Faces → Nat
  | sides count => count
  | percent => 100

/-- How the dice of a generic roll are read: summed, perhaps only some of them and perhaps against a target number, or
counted against a threshold. -/
inductive Reading
  | total (keep : Option KeepSuffix) (target : Option TargetSuffix)
  | successes (suffix : SuccessSuffix)
  deriving DecidableEq, Repr

/-- Dice of one size, plain or acing, and how they are read. -/
structure GenericRoll where
  count : Option Nat
  faces : Faces
  acing : Bool
  reading : Reading
  deriving DecidableEq, Repr

/-- A trait die with a wild die, rolled once or several times. -/
structure SavageRoll where
  count : Option Nat
  traitSides : Nat
  wildSides : Option Nat
  target : Option TargetSuffix
  deriving DecidableEq, Repr

/-- An acing die without a wild die, rolled once or several times. -/
structure ExtrasRoll where
  count : Option Nat
  sides : Nat
  target : Option TargetSuffix
  deriving DecidableEq, Repr

/-- A term that rolls dice or draws from a range. -/
inductive Roll
  | generic (roll : GenericRoll)
  | savage (roll : SavageRoll)
  | extras (roll : ExtrasRoll)
  /-- Fudge dice; four if the count is not said. -/
  | fudge (count : Option Nat)
  /-- Dice whose size is rolled first. -/
  | carcosa (count : Option Nat)
  /-- Plain six-sided dice, the last of them an acing wild die. -/
  | weg (count : Nat)
  /-- A number between two bounds, both included. -/
  | span (low high : Nat)
  deriving DecidableEq, Repr

/-- The operators between two operands. -/
inductive BinaryOperator
  | add | subtract | multiply | divide | remainder
  deriving DecidableEq, Repr

/-- The symbol of an operator. -/
def BinaryOperator.symbol : BinaryOperator → String
  | add => "+"
  | subtract => "-"
  | multiply => "*"
  | divide => "/"
  | remainder => "%"

/-- A sign before an operand. -/
inductive Sign
  | plus | minus
  deriving DecidableEq, Repr

/-- The symbol of a sign. -/
def Sign.symbol : Sign → String
  | plus => "+"
  | minus => "-"

/-- An expression. -/
inductive Expr
  | literal (value : Nat) (position : Nat)
  | var (name : String) (position : Nat)
  | roll (term : Roll) (position : Nat)
  | signed (sign : Sign) (operand : Expr) (position : Nat)
  | binary (operator : BinaryOperator) (left right : Expr) (position : Nat)
  /-- The operand between bounds that are both left open. -/
  | unbounded (operand : Expr) (position : Nat)
  /-- The operand, moved up to the minimum. -/
  | atLeast (operand minimum : Expr) (position : Nat)
  /-- The operand, moved down to the maximum. -/
  | atMost (operand maximum : Expr) (position : Nat)
  /-- The operand, moved up to the minimum and down to the maximum. -/
  | between (operand minimum maximum : Expr) (position : Nat)
  /-- The value of the expression, also given to the variable. -/
  | assign (name : String) (value : Expr) (position : Nat)
  deriving DecidableEq, Repr

/-- **The operand between two bounds**, either of which may be left open. -/
def Expr.bounded (operand : Expr) (minimum maximum : Option Expr) (position : Nat) : Expr :=
  match minimum, maximum with
  | none, none => unbounded operand position
  | some low, none => atLeast operand low position
  | none, some high => atMost operand high position
  | some low, some high => between operand low high position

/-- A statement. -/
inductive Statement
  | once (expression : Expr) (position : Nat)
  | times (count : Nat) (expression : Expr) (position : Nat)
  /-- Rounds of several expressions. -/
  | batch (count : Nat) (expressions : List Expr) (position : Nat)
  | ironsworn (modifier : Option (Sign × Expr)) (position : Nat)
  | flag (name : String) (position : Nat)
  deriving DecidableEq, Repr

/-- The place of a statement. -/
def Statement.position : Statement → Nat
  | once _ position => position
  | times _ _ position => position
  | batch _ _ position => position
  | ironsworn _ position => position
  | flag _ position => position

/-- The expressions of a statement. -/
def Statement.trees : Statement → List Expr
  | once expression _ => [expression]
  | times _ expression _ => [expression]
  | batch _ expressions _ => expressions
  | ironsworn none _ => []
  | ironsworn (some (_, modifier)) _ => [modifier]
  | flag .. => []

/-- **A command**: one statement and any number of others after it. -/
structure Command where
  first : Statement
  others : List Statement
  deriving DecidableEq, Repr

/-- All statements, in order. -/
def Command.statements (command : Command) : List Statement := command.first :: command.others

/-- All expressions, in order. -/
def Command.trees (command : Command) : List Expr := command.statements.flatMap Statement.trees

end TabletopDice
