import TabletopDice.Outcome
/-!
# Event — what an evaluation reports while it runs

Each event has a level, the name of the part that reports it, and a message. The message is written when the event
happens, whether or not the log keeps it.
-/
namespace TabletopDice

/-- The levels of log rows, from the least to the most severe. -/
inductive Level
  | debug | info | warning | error | critical
  deriving DecidableEq, Repr

namespace Level

/-- The name of a level. -/
def name : Level → String
  | debug => "DEBUG"
  | info => "INFO"
  | warning => "WARNING"
  | error => "ERROR"
  | critical => "CRITICAL"

/-- The severity of a level as a number. -/
def severity : Level → Nat
  | debug => 10
  | info => 20
  | warning => 30
  | error => 40
  | critical => 50

end Level

/-- **A row of the log.** -/
structure LogRow where
  level : Level
  logger : String
  message : String
  deriving DecidableEq, Repr

/-- What an evaluation reports. -/
inductive Event
  /-- A statement is about to be evaluated. -/
  | evaluating (statement : Statement)
  /-- A variable without a value counts as zero. -/
  | unbound (name : String)
  /-- A die still shows its highest face, but may not be rolled again. The sides are stated in a command and the budget
  in the settings: neither states a number that is too long to be written. -/
  | budgetReached (sides budget : Int)
  /-- The suffixes of a text have been put in order. -/
  | normalized (before after : String)
  /-- A text has its result. -/
  | finished (expression : String) (kind : String) (value : Int)
  /-- A text has no result. -/
  | failed (expression : String) (message : String)

namespace Event

/-- The name of a statement's rule. -/
def statementName : Statement → String
  | .once .. => "RollOnce"
  | .times .. => "RollTimes"
  | .batch .. => "RollBatch"
  | .ironsworn .. => "IronswornRoll"
  | .flag .. => "FlagStatement"

/-- The message of an event, before it is written. -/
def wording : Event → Wording
  | evaluating statement => ["Evaluating ", statementName statement, " at position ", toString statement.position]
  | unbound name => ["Variable @", name, " is not bound, using 0"]
  | budgetReached sides budget => ["d", toString sides, " hit the explosion budget of ", toString budget]
  | normalized before after => ["Normalized ", Text.quoted before, " to ", Text.quoted after]
  | finished expression kind value => [Text.quoted expression, " -> ", kind, " ", value]
  | failed expression message => ["Roll failed for ", Text.quoted expression, ": ", message]

/-- The part that reports an event. -/
def logger : Event → String
  | evaluating _ | unbound _ => "r2dice.dice.evaluator"
  | budgetReached .. => "r2dice.dice.roller"
  | normalized .. | finished .. | failed .. => "r2dice.dice.engine"

/-- Failures are warnings; everything else is for tracing. -/
def level : Event → Level
  | failed .. => .warning
  | _ => .debug

/-- **The message of an event**, if it can be written. -/
def message (event : Event) : Except Fault String := event.wording.write

end Event
end TabletopDice
