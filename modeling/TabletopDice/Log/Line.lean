import TabletopDice.Event
import TabletopDice.Log.Layout
import TabletopDice.Template.Filling
/-!
# Line — an entry of the log as text

An entry has any number as its severity; the numbers of the levels have names. On a terminal the name of the level is
coloured, and the colour is always reset after it.
-/
namespace TabletopDice
namespace Log

/-- **An entry of the log.** -/
structure Entry where
  severity : Int
  logger : String
  message : String
  deriving DecidableEq, Repr

/-- The entry of a row. -/
def Entry.ofRow (row : LogRow) : Entry := ⟨row.level.severity, row.logger, row.message⟩

/-- All levels. -/
def levels : List Level := [.debug, .info, .warning, .error, .critical]

/-- The level of that severity. -/
def level? (severity : Int) : Option Level := levels.find? fun level => (level.severity : Int) == severity

/-- **The name of a severity.** -/
def severityName (severity : Int) : String :=
  match level? severity with
  | some level => level.name
  | none => if severity = 0 then "NOTSET" else "Level " ++ toString severity

/-- The control sequence that sets attributes of a terminal. -/
def escape (code : Nat) : String := "\x1b[" ++ toString code ++ "m"

/-- **The colour of a level**: cyan, green, yellow, red, and bright red on white. -/
def colour : Level → String
  | .debug => escape 36
  | .info => escape 32
  | .warning => escape 33
  | .error => escape 31
  | .critical => escape 31 ++ escape 47 ++ escape 1

/-- The name of a severity in its colour; the colour ends after it. -/
def colouredName (severity : Int) : String :=
  ((level? severity).map colour).getD "" ++ severityName severity ++ escape 0

/-- The name of an entry's severity, in its colour or plain. -/
def levelText (coloured : Bool) (entry : Entry) : String :=
  if coloured then colouredName entry.severity else severityName entry.severity

/-- **The value of a field of a line.** An entry has no parts, no fault and no stack to show, and comes from the only
process and thread. -/
def fieldValue? (coloured : Bool) (time : String) (entry : Entry) (name : String) : Option Template.Value :=
  match name with
  | "asctime" => some (.text time)
  | "levelname" => some (.text (levelText coloured entry))
  | "levelno" => some (.number entry.severity)
  | "name" => some (.text entry.logger)
  | "message" | "msg" => some (.text entry.message)
  | "args" => some .noEntries
  | "exc_info" | "exc_text" | "stack_info" => some .nothing
  | "processName" => some (.text "MainProcess")
  | "threadName" => some (.text "MainThread")
  | _ => none

/-- **The line of an entry** at a time. -/
def line (layout : Layout) (coloured : Bool) (time : String) (entry : Entry) : Except Template.Failure String :=
  layout.template.fill (fieldValue? coloured time entry)

end Log
end TabletopDice
