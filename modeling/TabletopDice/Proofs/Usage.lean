import TabletopDice.Proofs.Agreement
import TabletopDice.Proofs.Changes
import TabletopDice.Proofs.Respelling
/-!
# Usage — what an evaluation reads, assigns and draws

Every part of an evaluation is made of the steps of `Play.Uses`: a roll term reads and assigns no variable and draws no
more numbers than the limits allow one roll (`uses_roll`), an expression uses its variables and the draws of its roll
terms (`uses_evaluate`), and a command uses in each round what its expressions and its action rolls use
(`uses_evaluateCommand`).
-/
namespace TabletopDice

namespace Play

variable {σ α β : Type} [RandomSource σ] {reads writes : String → Prop} {m n : Nat}

theorem Uses.map {play : Play σ α} (f : α → β) (h : Uses reads writes n play) : Uses reads writes n (f <$> play) := by
  rw [map_eq_pure_bind]
  exact h.bind fun a => .value _

/-- **A play made several times** uses as many times the draws. -/
theorem Uses.times {play : Play σ α} (h : Uses reads writes n play) : ∀ count,
    Uses reads writes (count * n) (times play count)
  | 0 => by
    rw [Nat.zero_mul]
    exact .value _
  | count + 1 => by
    refine (h.bind fun _ => (h.times count).bind fun _ => .value _).more ?_
    rw [Nat.succ_mul, Nat.add_comm]
    exact Nat.le_refl _

theorem uses_ofExcept (result : Except Fault α) : Uses reads writes 0 (ofExcept result : Play σ α) := by
  cases result with
  | ok a => exact .value a
  | error fault => exact .fault fault

theorem uses_ofRule (result : Except RuleError α) : Uses reads writes 0 (ofRule result : Play σ α) := by
  cases result with
  | ok a => exact .value a
  | error error => exact .fault _

/-- A check that refuses draws nothing, and what follows may count on it. -/
theorem uses_ofRule_bind {result : Except RuleError α} {next : α → Play σ β}
    (h : ∀ a, result = .ok a → Uses reads writes n (next a)) : Uses reads writes n (ofRule result >>= next) := by
  cases result with
  | ok a => exact h a rfl
  | error error => exact (Uses.fault _).more (Nat.zero_le n)

end Play

/-! ## Rolls -/

/-- **The most numbers that one roll term draws** within the limits: two acing dice for each die that may be rolled, and
three beside them. -/
def Limits.drawsPerRoll (limits : Limits) : Nat := 3 + 2 * limits.maxDice.toNat * (1 + limits.maxChain.toNat)

section Rolls

open Play

variable {σ : Type} [RandomSource σ] {reads writes : String → Prop}

namespace Roller

theorem uses_die (sides : Int) : Uses reads writes 1 (die sides : Play σ Int) := by
  unfold die
  split
  · exact (Uses.fault _).more (Nat.zero_le 1)
  · exact .drawn (by omega)

theorem uses_followers (sides : Int) : ∀ (budget : Nat) (roll : Int),
    Uses reads writes budget (followers sides budget roll : Play σ (List Int))
  | 0, roll => .value _
  | budget + 1, roll => by
    rw [followers]
    split
    · rename_i hexplodes
      have hsides : 1 < sides := by
        rw [explodes, Bool.and_eq_true, decide_eq_true_eq] at hexplodes
        exact hexplodes.1
      have hdraw : Uses reads writes 1 (draw 1 sides : Play σ Int) := .drawn (by omega)
      exact (hdraw.bind fun next => (uses_followers sides budget next).bind fun _ => .value _).more (by omega)
    · exact (Uses.value _).more (Nat.zero_le _)

/-- **An acing die** draws once, and once more for each explosion of its budget. -/
theorem uses_acing (budget sides : Int) : Uses reads writes (1 + budget.toNat) (acing budget sides : Play σ Die) := by
  refine (uses_die sides).bind fun first => ?_
  refine (((uses_followers sides _ first).bind (n := 0) fun rest => ?_)).more (Nat.le_refl _)
  dsimp only
  split
  · exact (Uses.reported _).bind fun _ => .value _
  · exact .value _

end Roller

namespace Evaluation

open Roller

variable {limits : Limits}

theorem diceCount_le {count : Option Nat} {default dice : Nat} (h : diceCount limits count default = .ok dice) :
    (dice : Int) ≤ limits.maxDice := by
  unfold diceCount at h
  dsimp only at h
  split at h
  · cases h
  split at h
  · cases h
  · cases h
    omega

/-- As many acing dice as may be rolled, twice, are within the draws of a roll. -/
theorem drawsPerRoll_le {count : Nat} (h : (count : Int) ≤ limits.maxDice) :
    3 + 2 * (count * (1 + limits.maxChain.toNat)) ≤ limits.drawsPerRoll := by
  have hcount : count ≤ limits.maxDice.toNat := by omega
  rw [Limits.drawsPerRoll, Nat.mul_assoc]
  exact Nat.add_le_add_left (Nat.mul_le_mul_left 2 (Nat.mul_le_mul_right _ hcount)) 3

/-- Plain dice draw no more than acing dice. -/
theorem plain_le (limits : Limits) (count : Nat) : count * 1 ≤ count * (1 + limits.maxChain.toNat) :=
  Nat.mul_le_mul_left count (Nat.le_add_right 1 _)

theorem uses_rollDice (acing : Bool) (sides : Int) (count : Nat) :
    Uses reads writes (count * (1 + limits.maxChain.toNat)) (rollDice limits acing sides count : Play σ (List Die)) := by
  unfold rollDice
  split
  · exact (uses_acing limits.maxChain sides).times count
  · exact (((uses_die sides).map _).times count).more (plain_le limits count)

theorem uses_rollGeneric (roll : GenericRoll) :
    Uses reads writes limits.drawsPerRoll (rollGeneric limits roll : Play σ Outcome) := by
  refine uses_ofRule_bind fun count hcount => uses_ofRule_bind fun sides _ => ?_
  have hle := drawsPerRoll_le (diceCount_le hcount)
  refine ((uses_rollDice roll.acing sides count).bind (n := 0) fun dice => ?_).more (by omega)
  split
  · exact .value _
  · exact uses_ofRule_bind fun _ _ => .value _

theorem uses_rollWild (spelling : String) (traitSides wildSides target interval : Int) :
    Uses reads writes (2 * (1 + limits.maxChain.toNat))
      (rollWild limits spelling traitSides wildSides target interval : Play σ Outcome) := by
  refine ((uses_acing _ traitSides).bind fun trait => (uses_acing _ wildSides).bind (n := 0) fun wild => ?_).more ?_
  · exact uses_ofRule_bind fun _ _ => .value _
  · omega

theorem uses_rollExtra (spelling : String) (sides : Int) (target : Option TargetSuffix) :
    Uses reads writes (1 + limits.maxChain.toNat) (rollExtra limits spelling sides target : Play σ Outcome) :=
  (uses_acing _ sides).bind fun _ => uses_ofRule_bind fun _ _ => .value _

/-- **A roll term reads and assigns no variable**, and draws no more than the limits allow one roll. -/
theorem uses_roll (term : Roll) : Uses reads writes limits.drawsPerRoll (roll limits term : Play σ Outcome) := by
  cases term with
  | generic roll => exact uses_rollGeneric roll
  | savage roll =>
    refine uses_ofRule_bind fun count hcount => uses_ofRule_bind fun trait _ => uses_ofRule_bind fun wild _ => ?_
    have hle := drawsPerRoll_le (diceCount_le hcount)
    refine (((uses_rollWild roll.spelling trait wild _ _).times count).map together).more ?_
    rw [Nat.mul_left_comm]
    omega
  | extras roll =>
    refine uses_ofRule_bind fun count hcount => uses_ofRule_bind fun sides _ => ?_
    have hle := drawsPerRoll_le (diceCount_le hcount)
    exact (((uses_rollExtra roll.spelling sides roll.target).times count).map together).more (by omega)
  | fudge count =>
    refine uses_ofRule_bind fun dice hdice => ?_
    have hle := drawsPerRoll_le (diceCount_le hdice)
    have hface : Uses reads writes 1 (fudge : Play σ Int) := (uses_die 6).bind fun _ => uses_ofExcept _
    have hplain := plain_le limits dice
    exact ((hface.times dice).bind fun _ => .value _).more (by omega)
  | carcosa count =>
    refine uses_ofRule_bind fun dice hdice => ?_
    have hle := drawsPerRoll_le (diceCount_le hdice)
    have hplain := plain_le limits dice
    refine ((uses_die 6).bind fun size => (uses_ofExcept (Roller.pick carcosaSizes size)).bind fun sides =>
      ((uses_die sides).times dice).bind fun _ => .value _).more ?_
    omega
  | weg count =>
    refine uses_ofRule_bind fun dice hdice => ?_
    have hle := drawsPerRoll_le (diceCount_le hdice)
    have hplain := plain_le limits (dice - 1)
    refine (((uses_die 6).times (dice - 1)).bind fun _ => (uses_acing _ 6).bind fun _ => .value _).more ?_
    -- the wild die is the last of the dice
    obtain ⟨others, rfl⟩ : ∃ others, dice = others + 1 := ⟨dice - 1, by have := (diceCount_ok hdice).2; omega⟩
    rw [Nat.add_mul others 1, Nat.one_mul] at hle
    rw [Nat.add_sub_cancel] at hplain ⊢
    omega
  | span low high =>
    have hdraw : Uses reads writes 1 (range low high : Play σ Int) := .drawn (by omega)
    refine (hdraw.bind fun _ => .value _).more ?_
    rw [Limits.drawsPerRoll]
    omega

end Evaluation

end Rolls

/-! ## Expressions -/

/-- **The variables that an expression assigns.** -/
def Expr.targets : Expr → List String
  | literal .. | var .. | roll .. => []
  | signed _ operand _ => operand.targets
  | binary _ left right _ => left.targets ++ right.targets
  | unbounded operand _ => operand.targets
  | atLeast operand minimum _ => operand.targets ++ minimum.targets
  | atMost operand maximum _ => operand.targets ++ maximum.targets
  | between operand minimum maximum _ => operand.targets ++ (minimum.targets ++ maximum.targets)
  | assign name value _ => name :: value.targets

/-- **Expressions that read and assign only such variables.** -/
structure Confined (reads writes : String → Prop) (expressions : List Expr) : Prop where
  reads : ∀ expression ∈ expressions, ∀ name ∈ expression.reads, reads name
  targets : ∀ expression ∈ expressions, ∀ name ∈ expression.targets, writes name

theorem Confined.sub {reads writes : String → Prop} {expressions others : List Expr}
    (h : Confined reads writes expressions) (hsub : ∀ e ∈ others, e ∈ expressions) : Confined reads writes others :=
  ⟨fun e he => h.reads e (hsub e he), fun e he => h.targets e (hsub e he)⟩

namespace Evaluation

open Play

variable {σ : Type} [RandomSource σ] {reads writes : String → Prop} (limits : Limits)

/-- **An expression uses the variables that it reads and assigns**, and the draws of its roll terms. -/
theorem uses_evaluate : ∀ expression : Expr, (∀ name ∈ expression.reads, reads name) →
    (∀ name ∈ expression.targets, writes name) →
      Uses reads writes (expression.rolls.length * limits.drawsPerRoll) (evaluate limits expression : Play σ Outcome)
  | .literal value position, hr, hw => (Uses.value _).more (Nat.zero_le _)
  | .var name position, hr, hw => (Uses.looked (hr name List.mem_cons_self)).more (Nat.zero_le _)
  | .roll term position, hr, hw => (uses_roll term).more (Nat.le_of_eq (Nat.one_mul _).symm)
  | .signed .plus operand position, hr, hw => uses_evaluate operand hr hw
  | .signed .minus operand position, hr, hw => (uses_evaluate operand hr hw).bind fun _ => uses_ofExcept _
  | .binary operator left right position, hr, hw => by
    obtain ⟨hrl, hrr⟩ := List.forall_mem_append.1 hr
    obtain ⟨hwl, hwr⟩ := List.forall_mem_append.1 hw
    rw [Expr.rolls, List.length_append, Nat.add_mul]
    exact (uses_evaluate left hrl hwl).bind fun _ => (uses_evaluate right hrr hwr).bind fun _ => uses_ofExcept _
  | .unbounded operand position, hr, hw => (uses_evaluate operand hr hw).bind fun _ => uses_ofRule _
  | .atLeast operand bound position, hr, hw => by
    obtain ⟨hro, hrb⟩ := List.forall_mem_append.1 hr
    obtain ⟨hwo, hwb⟩ := List.forall_mem_append.1 hw
    rw [Expr.rolls, List.length_append, Nat.add_mul]
    exact (uses_evaluate operand hro hwo).bind fun _ => (uses_evaluate bound hrb hwb).bind fun _ => uses_ofRule _
  | .atMost operand bound position, hr, hw => by
    obtain ⟨hro, hrb⟩ := List.forall_mem_append.1 hr
    obtain ⟨hwo, hwb⟩ := List.forall_mem_append.1 hw
    rw [Expr.rolls, List.length_append, Nat.add_mul]
    exact (uses_evaluate operand hro hwo).bind fun _ => (uses_evaluate bound hrb hwb).bind fun _ => uses_ofRule _
  | .between operand low high position, hr, hw => by
    obtain ⟨hro, hrb⟩ := List.forall_mem_append.1 hr
    obtain ⟨hwo, hwb⟩ := List.forall_mem_append.1 hw
    obtain ⟨hrl, hrh⟩ := List.forall_mem_append.1 hrb
    obtain ⟨hwl, hwh⟩ := List.forall_mem_append.1 hwb
    rw [Expr.rolls, List.length_append, List.length_append, Nat.add_mul, Nat.add_mul]
    exact (uses_evaluate operand hro hwo).bind fun _ => (uses_evaluate low hrl hwl).bind fun _ =>
      (uses_evaluate high hrh hwh).bind fun _ => uses_ofRule _
  | .assign name value position, hr, hw => by
    obtain ⟨hname, hvalue⟩ := List.forall_mem_cons.1 hw
    exact (uses_evaluate value hr hvalue).bind fun outcome => (Uses.assigned outcome.value hname).bind fun _ => .value _

/-! ## Statements and commands -/

theorem uses_evaluateAll : ∀ expressions : List Expr, Confined reads writes expressions →
    Uses reads writes ((expressions.flatMap Expr.rolls).length * limits.drawsPerRoll)
      (evaluateAll limits expressions : Play σ (List Outcome))
  | [], h => (Uses.value _).more (Nat.zero_le _)
  | expression :: rest, h => by
    have hfirst := uses_evaluate (σ := σ) limits expression (h.reads expression List.mem_cons_self)
      (h.targets expression List.mem_cons_self)
    have hrest := uses_evaluateAll rest (h.sub fun e he => List.mem_cons_of_mem _ he)
    rw [List.flatMap_cons, List.length_append, Nat.add_mul]
    exact hfirst.bind fun _ => hrest.bind fun _ => .value _

theorem uses_modifierValue (modifier : Option (Sign × Expr)) (position : Nat)
    (h : Confined reads writes (Statement.ironsworn modifier position).trees) :
    Uses reads writes (((Statement.ironsworn modifier position).trees.flatMap Expr.rolls).length * limits.drawsPerRoll)
      (modifierValue limits modifier : Play σ Int) := by
  match modifier, h with
  | none, h => exact (Uses.value _).more (Nat.zero_le _)
  | some (sign, operand), h =>
    have hoperand := uses_evaluate (σ := σ) limits operand (h.reads operand List.mem_cons_self)
      (h.targets operand List.mem_cons_self)
    have htrees : (Statement.ironsworn (some (sign, operand)) position).trees.flatMap Expr.rolls = operand.rolls :=
      List.append_nil _
    rw [htrees]
    cases sign <;> exact hoperand.bind fun _ => .value _

end Evaluation

/-- **The number of roll terms of a statement**: those of its expressions, and one more for an action roll. -/
def Statement.rollTerms (statement : Statement) : Nat :=
  (statement.trees.flatMap Expr.rolls).length + match statement with
    | ironsworn .. => 1
    | _ => 0

@[simp] theorem Statement.rollTerms_once (expression : Expr) (position : Nat) :
    (once expression position).rollTerms = expression.rolls.length := by
  simp [rollTerms, trees]

@[simp] theorem Statement.rollTerms_times (count : Nat) (expression : Expr) (position : Nat) :
    (times count expression position).rollTerms = expression.rolls.length := by
  simp [rollTerms, trees]

/-- The number of roll terms of statements. -/
def rollTermsOf : List Statement → Nat
  | [] => 0
  | statement :: rest => statement.rollTerms + rollTermsOf rest

/-- **The number of roll terms of a command.** -/
def Command.rollTerms (command : Command) : Nat := rollTermsOf command.statements

/-- **The most rounds of a statement** within the limits; a statement that repeats nothing has one. -/
def Limits.rounds (limits : Limits) : Nat := max 1 limits.maxRepeat.toNat

namespace Evaluation

open Play

variable {σ : Type} [RandomSource σ] {reads writes : String → Prop} (limits : Limits)

theorem repeatCount_ok {limits : Limits} {count rounds : Nat} (h : repeatCount limits count = .ok rounds) :
    rounds = count ∧ rounds ≤ limits.rounds := by
  unfold repeatCount at h
  split at h
  · cases h
  split at h
  · cases h
  · cases h
    rw [Limits.rounds]
    omega

theorem uses_evaluateStatement (statement : Statement) (h : Confined reads writes statement.trees) :
    Uses reads writes (limits.rounds * (statement.rollTerms * limits.drawsPerRoll))
      (evaluateStatement limits statement : Play σ Outcome) := by
  have hround : ∀ n, n ≤ limits.rounds * n := fun n => Nat.le_mul_of_pos_left n (by rw [Limits.rounds]; omega)
  cases statement with
  | once expression position =>
    refine (uses_evaluate limits expression (h.reads expression List.mem_cons_self)
      (h.targets expression List.mem_cons_self)).more ?_
    rw [Statement.rollTerms_once]
    exact hround _
  | times count expression position =>
    have hroll := uses_evaluate (σ := σ) limits expression (h.reads expression List.mem_cons_self)
      (h.targets expression List.mem_cons_self)
    refine uses_ofRule_bind fun rounds hrounds => ((hroll.times rounds).bind fun _ => .value _).more ?_
    rw [Statement.rollTerms_times]
    exact Nat.mul_le_mul_right _ (repeatCount_ok hrounds).2
  | batch count expressions position =>
    have hround := (uses_evaluateAll (σ := σ) limits expressions h).map repeated
    refine uses_ofRule_bind fun rounds hrounds => ((hround.times rounds).bind fun _ => .value _).more ?_
    exact Nat.mul_le_mul_right _ (repeatCount_ok hrounds).2
  | ironsworn modifier position =>
    have hthree : 3 ≤ limits.drawsPerRoll := Nat.le_add_right 3 _
    refine ((uses_modifierValue limits modifier position h).bind fun _ => (Roller.uses_die 6).bind fun _ =>
      (Roller.uses_die 10).bind fun _ => (Roller.uses_die 10).bind fun _ => .value _).more ?_
    refine Nat.le_trans ?_ (hround _)
    rw [Statement.rollTerms, Nat.add_mul, Nat.one_mul]
    omega
  | flag name position => exact (Uses.value _).more (Nat.zero_le _)

theorem uses_evaluateStatements : ∀ statements : List Statement,
    Confined reads writes (statements.flatMap Statement.trees) →
      Uses reads writes (limits.rounds * (rollTermsOf statements * limits.drawsPerRoll))
        (evaluateStatements limits statements : Play σ (List Outcome))
  | [], h => (Uses.value _).more (Nat.zero_le _)
  | statement :: rest, h => by
    rw [List.flatMap_cons] at h
    have hfirst := uses_evaluateStatement (σ := σ) limits statement
      (h.sub fun e he => List.mem_append_left _ he)
    have hrest := uses_evaluateStatements rest (h.sub fun e he => List.mem_append_right _ he)
    refine ((Uses.reported _).bind fun _ => hfirst.bind fun _ => hrest.bind fun _ => .value _).more ?_
    rw [rollTermsOf, Nat.add_mul, Nat.mul_add]
    omega

/-- **A command uses the variables that it reads and assigns**, and in each round no more draws than its roll terms
may make. -/
theorem uses_evaluateCommand (command : Command) (h : Confined reads writes command.trees) :
    Uses reads writes (limits.rounds * (command.rollTerms * limits.drawsPerRoll))
      (evaluateCommand limits command : Play σ Outcome) := by
  rw [Command.trees, Command.statements, List.flatMap_cons] at h
  have hfirst := uses_evaluateStatement (σ := σ) limits command.first
    (h.sub fun e he => List.mem_append_left _ he)
  have hothers := uses_evaluateStatements (σ := σ) limits command.others
    (h.sub fun e he => List.mem_append_right _ he)
  refine ((Uses.reported _).bind fun _ => hfirst.bind fun _ => hothers.bind fun _ => .value _).more ?_
  rw [Command.rollTerms, Command.statements, rollTermsOf, Nat.add_mul, Nat.mul_add]
  omega

end Evaluation
end TabletopDice
