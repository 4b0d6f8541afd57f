import TabletopDice.Random
/-!
# Scripted — a source that follows a script and then a linear congruence

The entries of the script are used up first, one a draw, whatever the seed; an entry may be a failure. After that a
64-bit state goes through a linear congruence, and its upper half is the number. A number outside the bounds of the
draw is folded into them, so the source is always in range.
-/
namespace TabletopDice

/-- What is left of the script, and the state of the congruence. -/
structure Scripted where
  script : List (Option Int)
  state : Nat
  deriving Repr

namespace Scripted

/-- The states of the congruence are the numbers below this one. -/
def modulus : Nat := Nat.pow 2 64

/-- The state after a state. -/
def nextState (state : Nat) : Nat := (state * 6364136223846793005 + 1442695040888963407) % modulus

/-- The state that a seed starts from. -/
def seedState : Option Int → Nat
  | none => 0
  | some seed => (seed % (modulus : Int)).toNat

/-- **A number folded into the bounds.** -/
def fold (low high n : Int) : Int := low + (n - low) % (high - low + 1)

/-- A draw: the next entry of the script, or the next number of the congruence. -/
def draw (low high : Int) (source : Scripted) : Option Int × Scripted :=
  match source.script with
  | some n :: rest => (some (fold low high n), { source with script := rest })
  | none :: rest => (none, { source with script := rest })
  | [] =>
    let state := nextState source.state
    (some (fold low high (low + (state >>> 33 : Nat))), { source with state })

instance : RandomSource Scripted where
  draw := draw
  reseed seed source := { source with state := seedState seed }

end Scripted
end TabletopDice
