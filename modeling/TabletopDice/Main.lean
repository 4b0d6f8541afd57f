import TabletopDice.CommandLine.Session
import TabletopDice.Random.Continuing
/-!
# Main — the program with commands

The outermost layer: it asks the system for arguments, variables, the settings file, the time and a number to start
the dice from, and writes what the run says. Where the run serves, a listener passes requests to the service.
-/
namespace TabletopDice
namespace CommandLine

/-- The variables of the system that settings are read from. -/
def readEnvironment : IO Environment := do
  let found ← Settings.variableNames.filterMapM fun name => do
    return (← IO.getEnv name).map fun value => (name, value)
  return ⟨found⟩

/-- The settings file in the working directory, if there is one. -/
def readSettingsFile : IO (Option SettingsFile) := do
  let path := (← IO.currentDir) / ".env"
  if ← path.pathExists then return some ⟨path.toString, ← IO.FS.readFile path⟩ else return none

/-- What a run has to know of the disk to write the file of its log. -/
def readDisk (environment : Environment) (file : Option SettingsFile) : IO Log.Disk := do
  let current := (← IO.currentDir).toString
  let disk : Log.Disk := ⟨current, fun _ => false⟩
  let names := disk.way (((Settings.load environment file).settings.toOption.bind logPath?).getD "")
  let paths := (List.range (names.length + 1)).map fun n => Log.Disk.pathOf (names.take n)
  let directories ← paths.filterM fun (path : String) => do return ← ((← IO.currentDir) / path).isDir
  return { disk with isDirectory := fun path => directories.contains path }

/-- Writes what a run says, and gives the code that it ends with. -/
def writeSession (session : Session) : IO UInt32 := do
  (← IO.getStdout).putStr session.stdout
  (← IO.getStderr).putStr session.stderr
  if let some (path, text) := session.logFile then
    IO.FS.withFile path .append fun file => file.putStr text
  match session.ending with
  | .exit code => return UInt32.ofNat code
  | .unreadable error => throw (IO.userError error.message)
  | .noLog fault => throw (IO.userError fault.message)
  | .faulted fault => throw (IO.userError fault.message)

/-- One run for its arguments, from a state of the dice that nobody knows. The time is in milliseconds. -/
def runProgram (arguments : List String) : IO UInt32 := do
  let state ← IO.rand 0 (Scripted.modulus - 1)
  let time := toString (← IO.monoMsNow)
  let table : Table Continuing := .new (.startingAt state)
  let environment ← readEnvironment
  let file ← readSettingsFile
  let (session, _) := run time (← readDisk environment file) environment file arguments table
  writeSession session

end CommandLine
end TabletopDice

/-- **The program.** -/
def main (arguments : List String) : IO UInt32 := TabletopDice.CommandLine.runProgram arguments
