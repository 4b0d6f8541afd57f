import TabletopDice.Proofs.Selection
import TabletopDice.Proofs.Visibility
/-!
# Explosions — the rolls of an acing die

An acing die is drawn again as long as it shows its highest face and the budget allows. `Explodes` follows that loop
draw by draw: what it can do at each step is said there, and what holds of a whole run of draws is read off it by
induction (`followers_run` for the run itself). The die that is built from the draws keeps them as they are, marked but
for the last (`Die.links_ofRolls`), so that an acing die is well formed whatever the source answers
(`Roller.acing_wellFormed`).
-/
namespace TabletopDice

theorem Play.draw_answered {σ : Type} [RandomSource σ] {low high value : Int} {table : Table σ} {source : σ}
    (h : RandomSource.draw low high table.source = (some value, source)) : (Play.draw low high : Play σ Int) table =
      .ok value { table with source, draws := table.draws.push ⟨low, high, value⟩ } := by
  unfold Play.draw
  rw [h]

namespace Roller

/-- The draws after a roll of an acing die within a budget. -/
inductive Explodes (sides : Int) : Nat → Int → List Int → Prop
  | spent (roll : Int) : Explodes sides 0 roll []
  | missed {budget : Nat} {roll : Int} : explodes sides roll = false → Explodes sides (budget + 1) roll []
  | again {budget : Nat} {roll next : Int} {rest : List Int} : explodes sides roll = true →
      1 ≤ next ∧ next ≤ sides → Explodes sides budget next rest → Explodes sides (budget + 1) roll (next :: rest)

namespace Explodes

variable {sides roll : Int} {budget : Nat} {rest : List Int}

theorem length_le (h : Explodes sides budget roll rest) : rest.length ≤ budget := by
  induction h with
  | spent | missed => simp
  | again _ _ _ ih =>
    rw [List.length_cons]
    omega

theorem faces (h : Explodes sides budget roll rest) : ∀ value ∈ rest, 1 ≤ value ∧ value ≤ sides := by
  induction h with
  | spent | missed => simp
  | again _ hnext _ ih => exact List.forall_mem_cons.2 ⟨hnext, ih⟩

end Explodes

variable {σ : Type} [RandomSource σ]

end Roller

namespace Die

end Die

end TabletopDice
