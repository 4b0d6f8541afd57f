import TabletopDice.Proofs.Changes
import TabletopDice.Proofs.Explosions
import TabletopDice.Proofs.Sums
/-!
# Growth — a number may outgrow what can be written

The result of an operator has few digits, but a modifier that is added to a throw may make its value as long as it
likes. A command that gives a variable the sum of a throw and twice the variable, over and over, makes it grow by powers
of two (`times_doubling`), and the value of its outcome with it.
-/
namespace TabletopDice

open Outcome Evaluation

/-- A die with one side, which shows one. -/
def GenericRoll.one : GenericRoll := ⟨none, .sides 1, false, .total none none⟩

/-- One more than twice a variable: `d1+@x+@x` after ten other characters. -/
def Expr.twice : Expr := .binary .add (.binary .add (.roll (.generic .one) 10) (.var "x" 13) 12) (.var "x" 16) 15

/-- **One more than twice a variable, given to the variable.** -/
def Expr.doubling : Expr := .assign "x" .twice 6

/-- The value of the variable that is doubled, zero if it has none. -/
def Variables.doubled (memory : Variables) : Int := (memory.get? "x").getD 0

theorem Outcome.Raised.value_thrown {delta value modifier : Int} {throw : Throw} {sources before : List Outcome}
    {after : Outcome} (h : Raised delta sources (.thrown value throw modifier before) after) :
    after.value = value + delta := by
  rcases h with ⟨⟨⟩⟩
  rfl

/-- The numbers that can be written have less than 15000 binary digits. -/
theorem Text.writtenBelow_lt {count : Nat} (h : 15000 ≤ count) : writtenBelow < 2 ^ count := by
  have hdigits : maxStatedDigits = 43 * 100 := rfl
  have hpower : ∀ n, 0 < n → 150 * n ≤ count → Nat.pow 10 (43 * n) < 2 ^ count := by
    intro n hn hle
    calc 10 ^ (43 * n) = (10 ^ 43) ^ n := Nat.pow_mul ..
      _ < (2 ^ 150) ^ n := Nat.pow_lt_pow_left (by decide) hn.ne'
      _ = 2 ^ (150 * n) := (Nat.pow_mul ..).symm
      _ ≤ 2 ^ count := Nat.pow_le_pow_right (by decide) hle
  unfold writtenBelow
  rw [hdigits]
  exact hpower 100 (by decide) h

namespace Evaluation

variable {σ : Type} {limits : Limits}

/-- **A variable is looked up**, and found or taken for zero. -/
theorem lookUp_value (name : String) (table : Table σ) : ∃ outcome after, lookUp name table = .ok outcome after ∧
    outcome.value = (table.memory.get? name).getD 0 ∧ after.memory = table.memory := by
  have hget : (get : Play σ (Table σ)) table = .ok table table := rfl
  unfold lookUp
  rw [Play.bind_eq hget]
  cases table.memory.get? name with
  | some value => exact ⟨_, _, rfl, rfl, rfl⟩
  | none =>
    dsimp only
    rw [Play.bind_eq (Play.report_writable (Event.writable_unbound name) table)]
    exact ⟨_, _, rfl, rfl, rfl⟩

variable [RandomSource σ]

/-- **An operator between two operands that have outcomes.** -/
theorem evaluate_binary {operator : BinaryOperator} {left right : Expr} {position : Nat} {first second outcome : Outcome}
    {table middle after : Table σ} (hleft : evaluate limits left table = .ok first middle)
    (hright : evaluate limits right middle = .ok second after)
    (hoperate : operate operator first second (sourceOf right second) = .ok outcome) :
    evaluate limits (.binary operator left right position) table = .ok outcome after := by
  rw [evaluate, Play.bind_eq hleft, Play.bind_eq hright, hoperate]
  rfl

variable (hanswers : RandomSource.Answers σ)

include hanswers

/-- A die with one side shows one. -/
theorem roll_one (hdice : 1 ≤ limits.maxDice) (hsides : 1 ≤ limits.maxSides) (table : Table σ) :
    ∃ throw after, roll limits (.generic .one) table = .ok (fresh throw) after ∧ throw.total = 1 ∧
      Raised 0 [] (fresh throw) (fresh throw) ∧ after.memory = table.memory := by
  obtain ⟨value, source, hdraw, hlow, hhigh⟩ := hanswers 1 1 table.source (Int.le_refl 1)
  obtain rfl : value = 1 := by omega
  have hdie : Roller.die 1 table = .ok 1 { table with source, draws := table.draws.push ⟨1, 1, 1⟩ } := by
    rw [Roller.die, if_neg (by decide), Play.draw_answered hdraw]
  have hcount : diceCount limits none 1 = .ok 1 := by
    rw [diceCount, Option.getD_none, if_neg (by decide), if_neg (by simpa using hdice)]
  have hsize : dieSides limits 1 = .ok 1 := by
    rw [dieSides, if_neg (by simpa using hsides)]
    rfl
  have hrolled : (Die.single <$> Roller.die 1 : Play σ Die) table =
      .ok (.single 1) { table with source, draws := table.draws.push ⟨1, 1, 1⟩ } := by
    change EStateM.map _ _ table = _
    rw [EStateM.map, hdie]
  have hdice : rollDice limits false 1 1 table =
      .ok [.single 1] { table with source, draws := table.draws.push ⟨1, 1, 1⟩ } := by
    rw [rollDice, if_neg Bool.false_ne_true, Play.times, Play.bind_eq hrolled]
    rfl
  have hrun : roll limits (.generic .one) table = .ok
      (fresh (.generic ⟨GenericRoll.one.spelling, 1, false, [.single 1], [.single 1], [], none, none, none, none⟩))
      { table with source, draws := table.draws.push ⟨1, 1, 1⟩ } := by
    have hcounted : (Play.ofRule (diceCount limits GenericRoll.one.count 1) : Play σ Nat) table = .ok 1 table := by
      rw [GenericRoll.one, hcount]
      rfl
    have hsized : (Play.ofRule (dieSides limits GenericRoll.one.faces.count) : Play σ Int) table = .ok 1 table := by
      rw [GenericRoll.one, Faces.count, hsize]
      rfl
    rw [roll, rollGeneric, Play.bind_eq hcounted, Play.bind_eq hsized]
    exact Play.bind_eq hdice _
  exact ⟨_, _, hrun, rfl, .thrown (.of_judgedFor (.untargeted rfl)), rfl⟩

/-- **One step of the growth**: the variable is one more than twice what it was, and so is the outcome. -/
theorem evaluate_doubling (hdice : 1 ≤ limits.maxDice) (hsides : 1 ≤ limits.maxSides) (table : Table σ) :
    ∃ outcome after, evaluate limits Expr.doubling table = .ok outcome after ∧
      outcome.value = 2 * table.memory.doubled + 1 ∧ after.memory.doubled = 2 * table.memory.doubled + 1 := by
  obtain ⟨throw, first, hroll, hone, hraised, hmemory⟩ := roll_one hanswers hdice hsides table
  obtain ⟨once, second, hlook, honce, hmemory'⟩ := lookUp_value "x" first
  obtain ⟨twice, third, hagain, htwice, hmemory''⟩ := lookUp_value "x" second
  obtain ⟨sum, hsum, hraised'⟩ := operate_raised hraised ⟨.plus, .var "x" 13, 12⟩ once
  obtain ⟨outcome, houtcome, hraised''⟩ := operate_raised hraised' ⟨.plus, .var "x" 16, 15⟩ twice
  have hvalue : outcome.value = 2 * table.memory.doubled + 1 := by
    have htotal : outcome.value = throw.total + (0 + once.value + twice.value) := hraised''.value_thrown
    rw [hone, honce, htwice, hmemory', hmemory, ← Variables.doubled] at htotal
    omega
  refine ⟨outcome, { third with memory := third.memory.set "x" outcome.value }, ?_, hvalue, ?_⟩
  · have hfirst : evaluate limits (.binary .add (.roll (.generic .one) 10) (.var "x" 13) 12) table = .ok sum second :=
      evaluate_binary hroll hlook hsum
    have hsecond : evaluate limits .twice table = .ok outcome third := evaluate_binary hfirst hagain houtcome
    rw [Expr.doubling, evaluate, Play.bind_eq hsecond]
    rfl
  · rw [Variables.doubled, Variables.get?_set, if_pos rfl, Option.getD_some, hvalue]

/-- **The growth**: in so many steps the variable, with one added, doubles as often; and the outcomes are together at
least as much as it grows. -/
theorem times_doubling (hdice : 1 ≤ limits.maxDice) (hsides : 1 ≤ limits.maxSides) : ∀ (count : Nat) (table : Table σ),
    0 ≤ table.memory.doubled → ∃ outcomes after, Play.times (evaluate limits Expr.doubling) count table = .ok outcomes after ∧
      after.memory.doubled + 1 = ((2 ^ count : Nat) : Int) * (table.memory.doubled + 1) ∧
      after.memory.doubled ≤ table.memory.doubled + sumOf outcomes
  | 0, table, _ => ⟨[], table, rfl, by simp, Int.le_add_of_nonneg_right (Int.le_refl 0)⟩
  | count + 1, table, hnonneg => by
    obtain ⟨first, middle, hfirst, hvalue, hmemory⟩ := evaluate_doubling hanswers hdice hsides table
    obtain ⟨others, after, hothers, hgrown, hle⟩ := times_doubling hdice hsides count middle (by omega)
    refine ⟨first :: others, after, ?_, ?_, ?_⟩
    · rw [Play.times, Play.bind_eq hfirst, Play.bind_eq hothers]
      rfl
    · have htwice : middle.memory.doubled + 1 = 2 * (table.memory.doubled + 1) := by omega
      rw [hgrown, htwice, Nat.pow_succ, Int.natCast_mul, Int.mul_assoc]
      rfl
    · have hcons : sumOf (first :: others) = first.value + sumOf others := rfl
      omega

/-- **The growth of an outcome**: after so many steps its value is too long to be written. -/
theorem evaluateCommand_doubling (hdice : 1 ≤ limits.maxDice) (hsides : 1 ≤ limits.maxSides) {count : Nat}
    (hmany : 15000 ≤ count) (hmost : (count : Int) ≤ limits.maxRepeat) (table : Table σ) (hzero : table.memory.doubled = 0) :
    ∃ outcome after, evaluateCommand limits ⟨.times count .doubling 0, []⟩ table = .ok outcome after ∧
      ¬ Piece.Writable outcome.value := by
  obtain ⟨middle, hreport, hmemory⟩ : ∃ middle, Play.report (.evaluating (.times count .doubling 0)) table =
    .ok () middle ∧ middle.memory = table.memory := ⟨_, Play.report_writable (Event.writable_evaluating _) table, rfl⟩
  rw [← hmemory] at hzero
  obtain ⟨outcomes, after, hrun, hgrown, hle⟩ := times_doubling hanswers hdice hsides count middle hzero.ge
  have hcount : (Play.ofRule (repeatCount limits count) : Play σ Nat) middle = .ok count middle := by
    rw [repeatCount, if_neg (by omega), if_neg (by omega)]
    rfl
  have hstatement : evaluateStatement limits (.times count .doubling 0) middle = .ok (repeated outcomes) after := by
    rw [evaluateStatement, Play.bind_eq hcount, Play.bind_eq hrun]
    rfl
  refine ⟨repeated outcomes, after, ?_, ?_⟩
  · rw [evaluateCommand, Play.bind_eq hreport, Play.bind_eq hstatement]
    rfl
  · have hvalue : (repeated outcomes).value = sumOf outcomes := rfl
    have hlong : (Text.writtenBelow : Int) < ((2 ^ count : Nat) : Int) := Int.ofNat_lt.2 (Text.writtenBelow_lt hmany)
    rw [hzero] at hgrown hle
    rw [Piece.writable_number, hvalue]
    omega

end Evaluation
end TabletopDice
