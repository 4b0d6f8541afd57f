import TabletopDice.Event
import TabletopDice.Settings
import TabletopDice.Settings.Environment
import TabletopDice.Text.Numeral
import TabletopDice.Text.UpperCase
/-!
# Loading — settings from the environment, and what is wrong with them

Every setting has a variable and a value that it has without. A number that cannot be read is an error; a number that
makes no sense is reported when the settings are checked, which also replaces an unknown log level.
-/
namespace TabletopDice

/-- A settings file. -/
structure SettingsFile where
  path : String
  text : String

/-- **Why there are no settings.** -/
inductive SettingsFault
  /-- A variable holds a text where a number is wanted. -/
  | notNumber (text : String)
  /-- A variable holds a number of so many digits. -/
  | longNumber (digits : Nat)
  /-- The settings file assigns what no variable can hold. -/
  | environment (fault : EnvironmentFault)
  deriving DecidableEq, Repr

/-- The most characters of a text in a message, with its quotes. -/
def shownCharacters : Nat := 200

/-- **The message of a fault of the settings.** -/
def SettingsFault.message : SettingsFault → String
  | notNumber text =>
    "invalid literal for int() with base 10: " ++ String.ofList ((Text.quoted text).toList.take shownCharacters)
  | longNumber digits =>
    let limit := toString Text.maxStatedDigits
    "Exceeds the limit (" ++ limit ++ " digits) for integer string conversion: value has " ++ toString digits ++
      " digits; use sys.set_int_max_str_digits() to increase the limit"
  | environment fault => fault.message

namespace Settings

/-- The part that reports on settings. -/
def logger : String := "r2dice.core.config"

/-- The words for yes, in any case. -/
def yesWords : List String := ["true", "1", "yes"]

/-- A text says yes. -/
def saysYes (text : String) : Bool := yesWords.contains text.toLower

/-- The number that a text states. -/
def number (text : String) : Except SettingsFault Int :=
  match Text.readInt text with
  | .ok n => .ok n
  | .error .notNumber => .error (.notNumber text)
  | .error (.tooLong digits) => .error (.longNumber digits)

/-- The variables that settings are read from. -/
def variableNames : List String :=
  ["R2_MAX_DICE", "R2_MAX_SIDES", "R2_MAX_REPEAT", "R2_MAX_CHAIN_LENGTH", "R2_SEED", "R2_NORMALIZE", "HOST", "PORT",
    "DEBUG", "LOG_LEVEL", "LOG_FILE"]

/-- **The settings of an environment.** -/
def ofEnvironment (environment : Environment) : Except SettingsFault Settings := do
  let text (name default : String) : String := (environment.get? name).getD default
  let maxDice ← number (text "R2_MAX_DICE" "100")
  let maxSides ← number (text "R2_MAX_SIDES" "1000")
  let maxRepeat ← number (text "R2_MAX_REPEAT" "100")
  let maxChain ← number (text "R2_MAX_CHAIN_LENGTH" "100")
  let seedText := text "R2_SEED" ""
  let seed ← if seedText.isEmpty then pure none else some <$> number seedText
  let port ← number (text "PORT" "5000")
  pure {
    maxDice, maxSides, maxRepeat, maxChain, seed, port
    normalize := saysYes (text "R2_NORMALIZE" "True")
    host := text "HOST" "127.0.0.1"
    debug := saysYes (text "DEBUG" "False")
    logLevel := Text.upperCase (text "LOG_LEVEL" "INFO")
    logFile := environment.get? "LOG_FILE" }

/-- What loading leaves: the environment with what the file adds, the report on the file unless the file cannot be
taken, and the settings. -/
structure Loaded where
  environment : Environment
  rows : List LogRow
  settings : Except SettingsFault Settings

/-- **The settings of an environment and a settings file**, if there is one. -/
def load (environment : Environment) : Option SettingsFile → Loaded
  | none =>
    ⟨environment, [⟨.debug, logger, "No .env file found, using environment variables and defaults"⟩],
      ofEnvironment environment⟩
  | some file => match environment.load file.text with
    | .error fault => ⟨environment, [], .error (.environment fault)⟩
    | .ok environment =>
      ⟨environment, [⟨.info, logger, "Loaded configuration from " ++ file.path⟩], ofEnvironment environment⟩

/-! ## Checking -/

/-- The levels that the log may have. -/
def knownLevels : List String := [Level.debug, .info, .warning, .error, .critical].map Level.name

/-- The limits that must be at least one, with their names. -/
def counts (settings : Settings) : List (String × Int) :=
  [("max_dice", settings.maxDice), ("max_sides", settings.maxSides), ("max_repeat", settings.maxRepeat)]

/-- **The settings make sense.** -/
def isValid (settings : Settings) : Bool :=
  (settings.counts.all fun count => 1 ≤ count.2) && 0 ≤ settings.maxChain

/-- What is wrong or worth knowing, in order. -/
def remarks (settings : Settings) : List LogRow :=
  ((settings.counts.filter fun count => count.2 < 1).map fun (name, value) =>
      (⟨.error, logger, "Invalid " ++ name ++ ": " ++ toString value ++ ". Must be at least 1"⟩ : LogRow)) ++
    (if settings.maxChain < 0 then
      [⟨.error, logger, "Invalid max_chain_length: " ++ toString settings.maxChain ++ ". Must not be negative"⟩]
    else []) ++
    (match settings.seed with
      | some seed =>
        [⟨.warning, logger, "R2_SEED is set (" ++ toString seed ++ "); every evaluation will repeat the same dice"⟩]
      | none => []) ++
    (if knownLevels.contains settings.logLevel then []
    else [⟨.warning, logger, "Unknown LOG_LEVEL " ++ settings.logLevel ++ ", falling back to INFO"⟩])

/-- **The settings after the check**: an unknown log level is replaced. -/
def checked (settings : Settings) : Settings :=
  if knownLevels.contains settings.logLevel then settings else { settings with logLevel := Level.info.name }

end Settings
end TabletopDice
