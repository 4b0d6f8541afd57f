import TabletopDice.Fault
/-!
# Judgement — a total measured against a target number

A total succeeds if it reaches the target number, and gains one raise for every full interval above it.
-/
namespace TabletopDice

/-- Whether a total succeeds, its raises, and how far it is above the target number. -/
structure Judgement where
  success : Bool
  raises : Int
  margin : Int
  deriving DecidableEq, Repr

namespace Judgement

/-- The target number if none is said. -/
def defaultTarget : Int := 4

/-- The interval of raises if none is said. -/
def defaultInterval : Int := 4

/-- **The judgement of a total**; the interval of raises has to be positive. -/
def judge (total target interval : Int) : Except RuleError Judgement :=
  if interval < 1 then .error (.raiseInterval interval)
  else
    let margin := total - target
    if 0 ≤ margin then .ok ⟨true, margin / interval, margin⟩ else .ok ⟨false, 0, margin⟩

/-- **A judgement in words.** -/
def wording (judgement : Judgement) : Wording :=
  if !judgement.success then ["Failed by ", (judgement.margin.natAbs : Int)]
  else if 0 < judgement.raises then
    ["Success with ", judgement.raises, " raise", if 1 < judgement.raises then "s" else ""]
  else ["Success"]

end Judgement
end TabletopDice
