import TabletopDice.Engine
import TabletopDice.Outcome.Json
/-!
# Json — a rolled text as data

What was sent, what was read for it, and the outcome.
-/
namespace TabletopDice
namespace Engine

/-- The members of a rolled text as data. -/
def Rolled.members (rolled : Rolled) : Except Fault (List (String × Json)) := do
  let result ← rolled.outcome.toJson
  .ok [("expression", .text rolled.expression), ("normalized", .text rolled.normalized), ("result", result)]

/-- **A rolled text as data.** -/
def Rolled.toJson (rolled : Rolled) : Except Fault Json := do
  let members ← rolled.members
  .ok (.object members)

end Engine
end TabletopDice
