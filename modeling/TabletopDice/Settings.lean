import TabletopDice.Evaluation
/-!
# Settings — what can be set from outside

The limits of commands, whether suffixes are put in order first, the seed of every roll if there is one, where the
server listens, and what is logged where.
-/
namespace TabletopDice

/-- **The settings of the program.** -/
structure Settings where
  maxDice : Int := 100
  maxSides : Int := 1000
  maxRepeat : Int := 100
  maxChain : Int := 100
  seed : Option Int := none
  normalize : Bool := true
  host : String := "127.0.0.1"
  port : Int := 5000
  debug : Bool := false
  logLevel : String := "INFO"
  logFile : Option String := none
  deriving DecidableEq, Repr

namespace Settings

/-- **The limits of commands.** -/
def limits (settings : Settings) : Limits :=
  ⟨settings.maxDice, settings.maxSides, settings.maxRepeat, settings.maxChain⟩

/-- A truth value in words. -/
def truthText (b : Bool) : String := if b then "True" else "False"

/-- **The settings in one line**, without seed and log. -/
def summary (settings : Settings) : String :=
  "Config(max_dice=" ++ toString settings.maxDice ++ ", max_sides=" ++ toString settings.maxSides ++
    ", max_repeat=" ++ toString settings.maxRepeat ++ ", max_chain_length=" ++ toString settings.maxChain ++
    ", host=" ++ settings.host ++ ", port=" ++ toString settings.port ++ ", debug=" ++ truthText settings.debug ++ ")"

end Settings
end TabletopDice
