import TabletopDice.Command.Parser
import TabletopDice.Report
import TabletopDice.Settings
import TabletopDice.SuffixOrder
/-!
# Engine — from a text to its outcome

The text of a single roll first has its suffixes put in order, if that is wanted; then it is read, and evaluated at a
table whose source starts afresh from the seed and which has no variables. The engine keeps nothing between two texts.
What breaks a rule is a fault of `evaluate` and a report of `roll`; any other fault is a fault of both.
-/
namespace TabletopDice
namespace Engine

variable {σ : Type} [RandomSource σ]

/-- How dice are rolled: the seed of the source, and the budget of explosions. -/
structure Setup where
  seed : Option Int
  budget : Int
  deriving DecidableEq, Repr

/-- **The setup for a seed**, the configured one if none is given. -/
def setup (settings : Settings) (seed : Option Int) : Setup := ⟨seed.orElse fun _ => settings.seed, settings.maxChain⟩

/-- **The outcome of a text that is read as it is.** -/
def evaluateText (settings : Settings) (setup : Setup) (text : String) : Play σ Outcome := do
  let command ← Play.ofRule ((Command.parse text).mapError .unreadable)
  Play.reseed setup.seed
  Play.forget
  let outcome ← Evaluation.evaluateCommand { settings.limits with maxChain := setup.budget } command
  Play.report (.finished text outcome.kind outcome.value)
  pure outcome

/-- **The outcome of a text**, its suffixes put in order first if that is wanted. -/
def evaluate (settings : Settings) (setup : Setup) (normalize : Option Bool) (expression : String) : Play σ Outcome := do
  if normalize.getD settings.normalize then
    let normalized := SuffixOrder.normalize expression
    if normalized ≠ expression then Play.report (.normalized expression normalized)
    evaluateText settings setup normalized
  else evaluateText settings setup expression

/-- A text, what was read for it, and its outcome. -/
structure Rolled where
  expression : String
  normalized : String
  outcome : Outcome

/-- **The report on a text.** The suffixes are put in order here, so the text that is evaluated is left as it is. -/
def roll (settings : Settings) (seed : Option Int) (normalize : Option Bool) (expression : String) :
    Play σ (Report Rolled) := fun table =>
  let normalized := if normalize.getD settings.normalize then SuffixOrder.normalize expression else expression
  match evaluate settings (setup settings seed) (some false) normalized table with
  | .ok outcome table => .ok (.ok ⟨expression, normalized, outcome⟩) table
  | .error (.rule error) table =>
    (do Play.report (.failed expression error.message)
        pure (.ofRule error) : Play σ (Report Rolled)) table
  | .error fault table => .error fault table

/-! ## Entries that may be no text -/

/-- The outcome of an entry, which is no text if it is `none`. -/
def evaluateEntry (settings : Settings) (setup : Setup) (normalize : Option Bool) : Option String → Play σ Outcome
  | some expression => evaluate settings setup normalize expression
  | none => Play.refuse (.unreadable ⟨0, .notText⟩)

/-- The report on an entry, which is no text if it is `none`. -/
def rollEntry (settings : Settings) (seed : Option Int) (normalize : Option Bool) :
    Option String → Play σ (Report Rolled)
  | some expression => roll settings seed normalize expression
  | none => pure (.ofRule (.unreadable ⟨0, .notText⟩))

end Engine
end TabletopDice
