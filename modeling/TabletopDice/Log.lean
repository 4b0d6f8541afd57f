import TabletopDice.Log.Line
import TabletopDice.Log.Place
import TabletopDice.Text.UpperCase
/-!
# Log — which entries are kept, and where they go

A log has a threshold: entries below it are dropped, and so are those without a positive severity. The others go to the
console, and to a file if there is one; the file has no colours. An entry that does not fit the layout leaves no line.
-/
namespace TabletopDice

/-- **A log.** -/
structure Log where
  threshold : Nat
  layout : Log.Layout
  coloured : Bool
  /-- The path of the file, if there is one. -/
  path : Option String
  deriving DecidableEq, Repr

namespace Log

/-- The names of thresholds. -/
def thresholds : List (String × Nat) :=
  [("NOTSET", 0), ("WARN", 30), ("FATAL", 50)] ++ levels.map fun level => (level.name, level.severity)

/-- **The threshold of a name**, in any case. -/
def threshold? (name : String) : Option Nat := thresholds.lookup (Text.upperCase name)

/-- The message for a name that is no threshold. -/
def unknownMessage (name : String) : String := "Unknown log level: " ++ name

/-- Why there is no log. -/
inductive Fault
  | unknownLevel (name : String)
  /-- The file cannot be written. -/
  | noPlace (fault : PlaceFault)
  deriving DecidableEq, Repr

/-- **The message of such a fault.** -/
def Fault.message : Fault → String
  | unknownLevel name => unknownMessage name
  | noPlace fault => fault.message

/-- **The log with the usual layout**, in colours, for the name of a threshold and the path of a file. The name is
looked at before the path. -/
def usual (disk : Disk) (name : String) (path : Option String) : Except Fault Log :=
  match threshold? name, path with
  | none, _ => .error (.unknownLevel name)
  | some threshold, none => .ok ⟨threshold, .usual, true, none⟩
  | some threshold, some path => match disk.place path with
    | .error fault => .error (.noPlace fault)
    | .ok path => .ok ⟨threshold, .usual, true, some path⟩

/-- The number of places where entries go. -/
def placeCount (log : Log) : Nat := if log.path.isSome then 2 else 1

/-- The entries that the log keeps. -/
def kept (log : Log) (entries : List Entry) : List Entry :=
  entries.filter fun entry => 0 < entry.severity && (log.threshold : Int) ≤ entry.severity

/-- The entry with its logger by name: the logger without a name is the root of all others. -/
def named (entry : Entry) : Entry := if entry.logger.isEmpty then { entry with logger := "root" } else entry

/-- Each kept entry on a line. -/
def lines (log : Log) (coloured : Bool) (time : String) (entries : List Entry) : String :=
  String.join ((log.kept entries).filterMap fun entry =>
    ((line log.layout coloured time (named entry)).map (· ++ "\n")).toOption)

/-- **What goes to the console.** -/
def console (log : Log) (time : String) (entries : List Entry) : String := log.lines log.coloured time entries

/-- **What goes to the file**, if there is one. -/
def file? (log : Log) (time : String) (entries : List Entry) : Option String :=
  if log.path.isSome then some (log.lines false time entries) else none

end Log
end TabletopDice
