import TabletopDice.Json.Integral
/-!
# RollRequest — what a caller sends to have a command rolled

A request is an object with the text of a command, a seed and the wish to put suffixes in order. Only the text must be
there, and there is nothing else.
-/
namespace TabletopDice

/-- **A request for a roll.** -/
structure RollRequest where
  expression : String
  seed : Option Int
  normalize : Option Bool
  deriving DecidableEq, Repr

namespace RollRequest

/-- The names of a request's members. -/
def names : List String := ["expression", "seed", "normalize"]

/-- The most characters of a command in a request. -/
def maxLength : Nat := 1000

/-- The text of a command: not empty, and not too long. -/
def expressionOf? : Option Json → Option String
  | some (.text s) => if 1 ≤ s.length && s.length ≤ maxLength then some s else none
  | _ => none

/-- A seed, which may be missing but not be anything else than a whole number. -/
def seedOf? : Option Json → Option (Option Int)
  | none => some none
  | some json => json.integer?.map some

/-- A wish, which may be missing but not be anything else than a truth value. -/
def wishOf? : Option Json → Option (Option Bool)
  | none => some none
  | some (.bool b) => some (some b)
  | some _ => none

/-- **The request that a value is**, if it has the form of one. -/
def ofJson? : Json → Option RollRequest
  | .object members => do
    if members.any fun member => !names.contains member.1 then none
    let expression ← expressionOf? (Json.lookup? "expression" members)
    let seed ← seedOf? (Json.lookup? "seed" members)
    let normalize ← wishOf? (Json.lookup? "normalize" members)
    pure ⟨expression, seed, normalize⟩
  | _ => none

end RollRequest
end TabletopDice
