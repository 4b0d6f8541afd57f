import TabletopDice.CommandLine.Invocation
import TabletopDice.Engine.Json
import TabletopDice.Json.Printer
import TabletopDice.Log
import TabletopDice.Settings.Loading
/-!
# Session — what a run of a program writes, and how it ends

A run reads its settings and remarks on them before there is a log, so the remarks that matter go to the error output
as they are. Then the log is set up, the task is done, and its result goes to the output after the lines of the log.
-/
namespace TabletopDice
namespace CommandLine

variable {σ : Type} [RandomSource σ]

/-- Where a server listens. -/
structure Address where
  host : String
  port : Int
  debug : Bool
  deriving DecidableEq, Repr

/-- How a run ends. -/
inductive Ending
  | exit (code : Nat)
  /-- There are no settings. -/
  | unreadable (error : SettingsFault)
  /-- There is no log. -/
  | noLog (fault : Log.Fault)
  | faulted (fault : Fault)
  deriving DecidableEq, Repr

/-- **What a run does**: its output, its error output, the file of the log with its path, where it serves, and its
end. -/
structure Session where
  stdout : String := ""
  stderr : String := ""
  logFile : Option (String × String) := none
  address : Option Address := none
  ending : Ending
  deriving DecidableEq, Repr

/-! ## Help -/

/-- How the program with commands is used. -/
def mainUsage : String :=
  "usage: r2dice [-h] [--log-level LEVEL] COMMAND\n\n" ++
    "  roll [-h] [--seed SEED] [--json] [--no-normalize] EXPRESSION   evaluate a dice expression\n" ++
    "  normalize [-h] EXPRESSION                                      put the suffixes of a roll in order\n" ++
    "  serve [-h] [--host HOST] [--port PORT] [--debug]               run the JSON API server\n"

/-- How the server program is used. -/
def serverUsage : String := "usage: server [-h] [--host HOST] [--port PORT] [--debug]\n"

/-- The run that shows help. -/
def helpSession (usage : String) : Session := { stdout := usage, ending := .exit 0 }

/-- The run that is asked in a way that it does not understand. -/
def misuseSession (usage : String) : Session := { stderr := usage, ending := .exit 2 }

/-! ## Settings and log -/

/-- The rows that matter, as they are. -/
def bareLines (rows : List LogRow) : String :=
  String.join ((rows.filter fun row => Level.warning.severity ≤ row.level.severity).map fun row => row.message ++ "\n")

/-- Settings that are ready, and the remarks on them. -/
structure Ready where
  settings : Settings
  remarks : String

/-- **The settings of a run.** -/
def ready (environment : Environment) (file : Option SettingsFile) : Except SettingsFault Ready :=
  let loaded := Settings.load environment file
  loaded.settings.map fun settings => ⟨settings.checked, bareLines (loaded.rows ++ settings.remarks)⟩

/-- The path of the log's file, if there is one. -/
def logPath? (settings : Settings) : Option String := settings.logFile.filter fun path => !path.isEmpty

/-- The log of a run. -/
def openLog (disk : Log.Disk) (settings : Settings) (level : String) : Except Log.Fault Log :=
  Log.usual disk level (logPath? settings)

/-- A run that has written rows to its log so far. -/
def logged (ready : Ready) (log : Log) (time : String) (rows : List LogRow) : Session :=
  let entries := rows.map Log.Entry.ofRow
  { stdout := log.console time entries
    stderr := ready.remarks
    logFile := match log.path, log.file? time entries with
      | some path, some text => some (path, text)
      | _, _ => none
    ending := .exit 0 }

/-- A run that has written one more text to its output. -/
def Session.print (session : Session) (text : String) : Session := { session with stdout := session.stdout ++ text }

/-- A run that writes texts one after another, up to the first that cannot be written. -/
def Session.printAll (session : Session) : List (Except Fault String) → Session
  | [] => session
  | .ok text :: rest => (session.print text).printAll rest
  | .error fault :: _ => { session with ending := .faulted fault }

/-- A run that ends with an error message. -/
def Session.failWith (session : Session) (message : String) : Session :=
  { session with stderr := session.stderr ++ "✗ Error: " ++ message ++ "\n", ending := .exit 1 }

/-! ## Tasks -/

/-- A text with each of its lines indented. -/
def indentedLines (text : String) : String := String.join ((text.splitOn "\n").map fun line => "  " ++ line ++ "\n")

/-- A rolled text for people: its value, what was read if that is something else, and the outcome in words. -/
def rolledTexts (rolled : Engine.Rolled) : List (Except Fault String) := [
  Wording.write ["✓ ", rolled.expression, " = ", rolled.outcome.value, "\n"],
  .ok (if rolled.normalized = rolled.expression then "" else "  Normalized: " ++ rolled.normalized ++ "\n"),
  rolled.outcome.describe.map indentedLines]

/-- A rolled text for programs. -/
def rolledJson (rolled : Engine.Rolled) : Except Fault String := do
  let json ← rolled.toJson
  let text ← json.print
  .ok (text ++ "\n")

/-- **A run that rolls.** -/
def rollSession (ready : Ready) (log : Log) (time : String) (arguments : RollArguments) (table : Table σ) :
    Session × Table σ :=
  let normalize := if arguments.asTyped then some false else none
  match Engine.roll ready.settings arguments.seed normalize arguments.expression table with
  | .ok report table =>
    let session := logged ready log time table.log.toList
    match report with
    | .ok rolled =>
      (session.printAll (if arguments.asJson then [rolledJson rolled] else rolledTexts rolled), table)
    | .fail message _ _ => (session.failWith message, table)
  | .error fault table =>
    ({ logged ready log time table.log.toList with ending := .faulted fault }, table)

/-- What a server says when it starts. -/
def banner (address : Address) : String :=
  let server := "http://" ++ address.host ++ ":" ++ toString address.port
  "\n  r2dice Web API\n\n  Server URL:  " ++ server ++ "\n  Try:         curl -X POST " ++ server ++
    "/api/roll -H 'Content-Type: application/json' -d '\x7b\"expression\": \"4d6k3\"\x7d'\n\n" ++
    "  Press Ctrl+C to stop\n\n"

/-- **A run that serves**, up to where it listens. -/
def serveSession (disk : Log.Disk) (ready : Ready) (level time : String) (address : Address) : Session :=
  match openLog disk ready.settings level with
  | .error fault => { stderr := ready.remarks, ending := .noLog fault }
  | .ok log =>
    let row : LogRow := ⟨.info, "r2dice.web.server", "Dice API ready (" ++ ready.settings.summary ++ ")"⟩
    { (logged ready log time [row]).print (banner address) with address := some address }

/-- A text unless it is missing or empty. -/
def nonEmpty? (text : Option String) : Option String := text.filter fun text => !text.isEmpty

/-- Where the command to serve listens: an empty host and the port zero count as not said. -/
def addressOf (settings : Settings) (arguments : ServeArguments) : Address :=
  ⟨(nonEmpty? arguments.host).getD settings.host, (arguments.port.filter (· != 0)).getD settings.port,
    arguments.debug || settings.debug⟩

/-- A run with a log of that level, or the message that there is no such level. -/
def withLog (disk : Log.Disk) (ready : Ready) (level : String) (table : Table σ)
    (proceed : Log → Session × Table σ) : Session × Table σ :=
  let session (ending : Ending) : Session := { stderr := ready.remarks, ending }
  match openLog disk ready.settings level with
  | .ok log => proceed log
  | .error (.unknownLevel level) => ((session (.exit 1)).failWith (Log.unknownMessage level), table)
  | .error fault => (session (.noLog fault), table)

/-- **A run that does a task**, with the level of the log if one is said. -/
def taskSession (disk : Log.Disk) (ready : Ready) (time : String) (level : Option String) (table : Table σ) :
    Task → Session × Table σ
  | .roll arguments =>
    withLog disk ready ((nonEmpty? level).getD ready.settings.logLevel) table fun log =>
      rollSession ready log time arguments table
  | .normalize expression =>
    withLog disk ready ((nonEmpty? level).getD ready.settings.logLevel) table fun log =>
      ((logged ready log time []).print (SuffixOrder.normalize expression ++ "\n"), table)
  | .serve arguments =>
    (serveSession disk ready (((nonEmpty? level).map Text.upperCase).getD ready.settings.logLevel) time
      (addressOf ready.settings arguments), table)

/-! ## Programs -/

/-- **A run of the program with commands.** Arguments are read before settings. -/
def run (time : String) (disk : Log.Disk) (environment : Environment) (file : Option SettingsFile)
    (arguments : List String) (table : Table σ) : Session × Table σ :=
  match Invocation.parse arguments with
  | .help => (helpSession mainUsage, table)
  | .misuse => (misuseSession mainUsage, table)
  | .done invocation _ => match invocation.task with
    | none => ({ helpSession mainUsage with ending := .exit 1 }, table)
    | some task => match ready environment file with
      | .error error => ({ ending := .unreadable error }, table)
      | .ok ready => taskSession disk ready time invocation.logLevel table task

/-- **A run of the server program.** Settings are read before arguments, and fill in what is not said. -/
def runServer (time : String) (disk : Log.Disk) (environment : Environment) (file : Option SettingsFile)
    (arguments : List String) : Session :=
  match ready environment file with
  | .error error => { ending := .unreadable error }
  | .ok ready =>
    match ServeArguments.parse arguments with
    | .help => { helpSession serverUsage with stderr := ready.remarks }
    | .misuse => misuseSession (ready.remarks ++ serverUsage)
    | .done arguments _ =>
      serveSession disk ready ready.settings.logLevel time
        ⟨arguments.host.getD ready.settings.host, arguments.port.getD ready.settings.port,
          arguments.debug || ready.settings.debug⟩

end CommandLine
end TabletopDice
