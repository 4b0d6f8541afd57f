import TabletopDice.CommandLine.Grammar
/-!
# Invocation — what the two programs are asked to do

One program has a command for each thing it does: roll, normalize and serve. The other only serves, and fills in what
is not said from the settings.
-/
namespace TabletopDice
namespace CommandLine

/-- A switch that shows help. -/
def helpSwitch {α : Type} : Switch α := ⟨["-h", "--help"], .help⟩

/-! ## The commands -/

/-- What is asked of a roll. -/
structure RollArguments where
  expression : String := ""
  seed : Option Int := none
  asJson : Bool := false
  asTyped : Bool := false
  deriving DecidableEq, Repr

/-- What is asked of a server; a part that is not said is `none`. -/
structure ServeArguments where
  host : Option String := none
  port : Option Int := none
  debug : Bool := false
  deriving DecidableEq, Repr

/-- **A command.** -/
inductive Task
  | roll (arguments : RollArguments)
  | normalize (expression : String)
  | serve (arguments : ServeArguments)
  deriving DecidableEq, Repr

/-- **What the program is asked to do**: the level of the log, and a command if there is one. -/
structure Invocation where
  logLevel : Option String := none
  task : Option Task := none
  deriving DecidableEq, Repr

/-! ## Their grammars -/

/-- The arguments of a roll. -/
def rollGrammar : Grammar RollArguments where
  switches := [
    helpSwitch,
    ⟨["--seed"], .take fun text arguments => (Text.readInt? text).map fun seed => { arguments with seed := some seed }⟩,
    ⟨["--json"], .set fun arguments => { arguments with asJson := true }⟩,
    ⟨["--no-normalize"], .set fun arguments => { arguments with asTyped := true }⟩]
  operand := .one fun expression arguments => { arguments with expression }

/-- The argument of normalizing. -/
def normalizeGrammar : Grammar String := ⟨[helpSwitch], .one fun expression _ => expression⟩

/-- The arguments of a server. -/
def serveGrammar : Grammar ServeArguments where
  switches := [
    helpSwitch,
    ⟨["--host"], .take fun host arguments => some { arguments with host := some host }⟩,
    ⟨["--port"], .take fun text arguments => (Text.readInt? text).map fun port => { arguments with port := some port }⟩,
    ⟨["--debug"], .set fun arguments => { arguments with debug := true }⟩]
  operand := .nothing

/-- A command's arguments put into the invocation. -/
def Parsed.asTask {α : Type} (task : α → Task) (invocation : Invocation) : Parsed α → Parsed Invocation
  | .done arguments leftOver => .done { invocation with task := some (task arguments) } leftOver
  | .help => .help
  | .misuse => .misuse

/-- The arguments after the name of a command. -/
def parseTask (name : String) (arguments : List String) (invocation : Invocation) : Parsed Invocation :=
  match name with
  | "roll" => (rollGrammar.parse {} arguments).asTask .roll invocation
  | "normalize" => (normalizeGrammar.parse "" arguments).asTask .normalize invocation
  | "serve" => (serveGrammar.parse {} arguments).asTask .serve invocation
  | _ => .misuse

/-- The arguments of the program with commands. -/
def mainGrammar : Grammar Invocation where
  switches := [
    helpSwitch,
    ⟨["--log-level"], .take fun level invocation => some { invocation with logLevel := some level }⟩]
  operand := .word parseTask

/-- **What the program with commands is asked to do.** -/
def Invocation.parse (arguments : List String) : Parsed Invocation := (mainGrammar.parse {} arguments).complete

/-- **What the server program is asked to do.** -/
def ServeArguments.parse (arguments : List String) : Parsed ServeArguments :=
  (serveGrammar.parse {} arguments).complete

end CommandLine
end TabletopDice
