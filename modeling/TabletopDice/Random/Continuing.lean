import TabletopDice.Random.Scripted
/-!
# Continuing — a source that goes on where it is

Without a seed the congruence goes on from its state, so that a run which starts from a state nobody knows rolls dice
that nobody knows; with a seed it starts afresh, and the same seed gives the same dice.
-/
namespace TabletopDice

/-- **A source that only a seed starts afresh.** -/
structure Continuing where
  source : Scripted
  deriving Repr

namespace Continuing

/-- The source that starts from a number. -/
def startingAt (state : Nat) : Continuing := ⟨⟨[], state % Scripted.modulus⟩⟩

instance : RandomSource Continuing where
  draw low high continuing :=
    let (value, source) := Scripted.draw low high continuing.source
    (value, ⟨source⟩)
  reseed
    | none, continuing => continuing
    | some seed, continuing => ⟨{ continuing.source with state := Scripted.seedState (some seed) }⟩

end Continuing
end TabletopDice
