/-!
# Numbers — the total of a list of numbers

The total of no numbers is zero, and joined lists have the sum of their totals.
-/
namespace TabletopDice
namespace Numbers

/-- **The total of numbers.** -/
def total : List Int → Int
  | [] => 0
  | n :: rest => n + total rest

theorem total_append (xs ys : List Int) : total (xs ++ ys) = total xs + total ys := by
  induction xs with
  | nil => simp [total]
  | cons n rest ih => simp only [List.cons_append, total, ih]; omega

end Numbers
end TabletopDice
