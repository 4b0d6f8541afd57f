/-!
# Random — where the numbers come from

A source of randomness answers every draw with a number, and may fail. Nothing else is asked of it here: that the
number lies between the bounds is a property of the source.
-/
namespace TabletopDice

/-- **A source of randomness** with states `σ`: a draw between two bounds, which gives no number if the source fails,
and a fresh start from a seed, or from no seed. -/
class RandomSource (σ : Type) where
  draw : Int → Int → σ → Option Int × σ
  reseed : Option Int → σ → σ

end TabletopDice
