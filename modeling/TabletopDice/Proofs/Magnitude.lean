import TabletopDice.Proofs.Numerals
/-!
# Magnitude — which values the limit on digits bounds

The limit on the digits of a result is checked where an operator combines two operands, and nowhere else. A command of
numbers, ranges, variables, operators and bounds therefore keeps every value and every variable below the limit, if the
variables were below it before (`evaluateStatements_contained`). A modifier that is added to dice, and a sum of
repetitions, pass it unchecked: in general the values are small exactly when those of throws, repetitions, bounded
outcomes and variables are (`Reported.small`).
-/
namespace TabletopDice

open Outcome Evaluation

/-- **A number with no more digits than the result of arithmetic may have.** -/
def Small (n : Int) : Prop := n.natAbs < Nat.pow 10 maxResultDigits

instance (n : Int) : Decidable (Small n) := inferInstanceAs (Decidable (_ < _))

theorem small_zero : Small 0 := by decide

theorem Small.neg {n : Int} (h : Small n) : Small (-n) := by
  unfold Small at h ⊢
  omega

theorem Small.between {low high n : Int} (hl : Small low) (hh : Small high) (hmin : min low high ≤ n)
    (hmax : n ≤ max low high) : Small n := by
  unfold Small at hl hh ⊢
  omega

theorem Small.of_natAbs_le {m n : Int} (h : Small n) (hle : m.natAbs ≤ n.natAbs) : Small m := Nat.lt_of_le_of_lt hle h

theorem small_written {n : Nat} (h : n < Nat.pow 10 maxDigits) : Small n := by
  have hle : Nat.pow 10 maxDigits ≤ Nat.pow 10 maxResultDigits := by decide
  unfold Small
  omega

theorem Arithmetic.withinDigits_small {n : Int} (h : Small n) : withinDigits n = .ok n := if_neg (Nat.not_le_of_lt h)

theorem Arithmetic.withinDigits_long {n : Int} (h : ¬ Small n) : withinDigits n = .error .tooManyDigits :=
  if_pos (Nat.le_of_not_lt h)

theorem Arithmetic.apply_small {operator : BinaryOperator} {left right n : Int}
    (h : apply operator left right = .ok n) : Small n := by
  unfold apply at h
  cases hu : unlimited operator left right with
  | error error => rw [hu] at h; cases h
  | ok m =>
    rw [hu] at h
    change withinDigits m = .ok n at h
    unfold withinDigits at h
    split at h
    · cases h
    · rename_i hlt
      cases h
      exact Nat.lt_of_not_le hlt

theorem Small.ite {p : Prop} [Decidable p] {a b : Int} (ha : Small a) (hb : Small b) : Small (if p then a else b) := by
  split
  · exact ha
  · exact hb

theorem small_clamp {minimum maximum : Option Int} {n : Int} (hn : Small n) (hmin : ∀ low ∈ minimum, Small low)
    (hmax : ∀ high ∈ maximum, Small high) : Small (clamp minimum maximum n) := by
  unfold clamp
  cases minimum with
  | none =>
    cases maximum with
    | none => exact hn
    | some high => exact (hmax high rfl).ite hn
  | some low =>
    cases maximum with
    | none => exact (hmin low rfl).ite hn
    | some high => exact (hmax high rfl).ite ((hmin low rfl).ite hn)

/-! ## The outcomes whose digits nothing counts -/

/-- **The outcomes whose value is not checked**: sums on dice, sums of repetitions, values between bounds, and values
read from variables. -/
inductive Unchecked : Outcome → Prop
  | thrown (value : Int) (throw : Throw) (modifier : Int) (sources : List Outcome) :
      Unchecked (.thrown value throw modifier sources)
  | multiple (value : Int) (rolls : List Outcome) : Unchecked (.multiple value rolls)
  | bounded (value : Int) (inner : Outcome) (minimum maximum : Option Int) :
      Unchecked (.bounded value inner minimum maximum)
  | var (value : Int) (name : String) : Unchecked (.simple value ("@" ++ name) none [])

theorem Formed.small {written : Nat → Prop} {outcome : Outcome} (h : Formed written outcome)
    (hw : ∀ n, written n → Small n) (hparts : ∀ part ∈ outcome.parts, Unchecked part → Small part.value) :
    Small outcome.value := by
  induction h with
  | number hn => exact hw _ hn
  | var name value => exact hparts _ (self_mem_parts _) (.var value name)
  | span hl hh hmin hmax => exact (hw _ hl).between (hw _ hh) hmin hmax
  | fresh throw => exact hparts _ (self_mem_parts _) (.thrown _ _ _ _)
  | volley throws => exact hparts _ (self_mem_parts _) (.multiple _ _)
  | negated _ hn ih =>
    obtain ⟨label, rfl⟩ := negated_ok hn
    exact (ih fun part hp => hparts part (mem_parts.2 (.inr ⟨_, List.mem_singleton.2 rfl, hp⟩))).neg
  | combined _ _ hc =>
    obtain ⟨n, label, ha, rfl⟩ := combined_ok hc
    exact Arithmetic.apply_small ha
  | modified _ _ hm =>
    rcases addModifier_ok hm with ⟨_, _, _, _, rfl, h⟩ | ⟨_, _, added, _, _, rfl⟩
    · obtain ⟨judged, _, rfl⟩ := addTo_thrown_ok h
      exact hparts _ (self_mem_parts _) (.thrown _ _ _ _)
    · exact hparts _ (self_mem_parts _) (.multiple _ _)
  | restricted _ hr =>
    rw [restrict_ok hr] at hparts ⊢
    exact hparts _ (self_mem_parts _) (.bounded _ _ _ _)

/-- **An outcome is small if the unchecked ones in it are.** -/
theorem Reported.small {written : Nat → Prop} {outcome : Outcome} (h : Reported written outcome)
    (hw : ∀ n, written n → Small n) (hparts : ∀ part ∈ outcome.parts, Unchecked part → Small part.value) :
    Small outcome.value := by
  induction h with
  | expression hf => exact hf.small hw hparts
  | repeated => exact hparts _ (self_mem_parts _) (.multiple _ _)
  | ironsworn throw modifier => exact hparts _ (self_mem_parts _) (.thrown _ _ _ _)
  | flag => exact small_zero
  | @sequence first others _ _ ihf iho =>
    unfold inSequence at hparts ⊢
    cases hl : others.getLast? with
    | none =>
      rw [hl] at hparts
      exact ihf hparts
    | some last =>
      rw [hl] at hparts
      have hlast : last ∈ others := List.mem_of_getLast? hl
      exact iho last hlast fun part hp =>
        hparts part (mem_parts.2 (.inr ⟨last, List.mem_cons_of_mem _ hlast, hp⟩))

/-- **The result of an operator between two operands is small**, whatever its operands are. -/
theorem Reported.operator_small {written : Nat → Prop} {outcome : Outcome} (h : Reported written outcome) :
    ∀ {value : Int} {label operator : String} {operands : List Outcome},
      outcome = .simple value label (some operator) operands → operator ≠ Arithmetic.negation → Small value := by
  induction h with
  | expression hf =>
    intro value label operator operands heq hne
    cases hf with
    | number | var | span | fresh | volley => cases heq
    | negated _ hn =>
      obtain ⟨label, ho⟩ := negated_ok hn
      rw [heq] at ho
      cases ho
      exact absurd rfl hne
    | combined _ _ hc =>
      obtain ⟨n, label, ha, hn⟩ := combined_ok hc
      rw [heq] at hn
      cases hn
      exact Arithmetic.apply_small ha
    | modified _ _ hm =>
      rcases addModifier_ok hm with ⟨_, _, _, _, rfl, h⟩ | ⟨_, _, added, _, _, rfl⟩
      · obtain ⟨judged, _, rfl⟩ := addTo_thrown_ok h
        cases heq
      · cases heq
    | restricted _ hr =>
      rw [restrict_ok hr] at heq
      cases heq
  | repeated | ironsworn | flag => intro _ _ _ _ heq; cases heq
  | @sequence first others _ _ ihf _ =>
    intro value label operator operands heq
    unfold inSequence at heq
    cases hl : others.getLast? with
    | none =>
      rw [hl] at heq
      exact ihf heq
    | some last =>
      rw [hl] at heq
      cases heq

/-! ## Commands without dice -/

/-- Numbers, ranges and variables, with signs, operators, bounds and assignments: all but dice. -/
def Expr.isArithmetic : Expr → Bool
  | .literal _ _ | .var _ _ | .roll (.span _ _) _ => true
  | .roll _ _ => false
  | .signed _ operand _ | .unbounded operand _ | .assign _ operand _ => operand.isArithmetic
  | .binary _ left right _ => left.isArithmetic && right.isArithmetic
  | .atLeast operand bound _ | .atMost operand bound _ => operand.isArithmetic && bound.isArithmetic
  | .between operand minimum maximum _ =>
    operand.isArithmetic && (minimum.isArithmetic && maximum.isArithmetic)

/-- No dice and no repetitions. -/
def Statement.isArithmetic : Statement → Bool
  | .once expression _ => expression.isArithmetic
  | .flag _ _ => true
  | _ => false

/-- **A command without dice and repetitions.** -/
def Command.isArithmetic (command : Command) : Bool := command.statements.all Statement.isArithmetic

/-- All variables are small. -/
def Variables.Small (memory : Variables) : Prop := ∀ name n, memory.get? name = some n → TabletopDice.Small n

theorem Variables.lookup_filter {name other : String} (hne : other ≠ name) : ∀ (bindings : List (String × Int)),
    (bindings.filter fun binding => binding.1 != name).lookup other = bindings.lookup other
  | [] => rfl
  | (key, value) :: rest => by
    have ih := lookup_filter hne rest
    by_cases hkey : key = name
    · subst hkey
      have hfalse : (other == key) = false := beq_false_of_ne hne
      rw [List.filter_cons_of_neg (by simp), ih, List.lookup_cons, hfalse]
    · rw [List.filter_cons_of_pos (by simpa using hkey), List.lookup_cons, List.lookup_cons, ih]

/-- **A variable that is given a small value** leaves all variables small. -/
theorem Variables.Small.set {memory : Variables} (h : memory.Small) (name : String) {value : Int}
    (hvalue : TabletopDice.Small value) : (memory.set name value).Small := by
  intro other n hn
  unfold Variables.get? Variables.set at hn
  dsimp only at hn
  rw [List.lookup_cons] at hn
  by_cases hne : other = name
  · subst hne
    rw [beq_self_eq_true] at hn
    cases hn
    exact hvalue
  · rw [beq_false_of_ne hne, Variables.lookup_filter hne] at hn
    exact h other n hn

/-- An outcome that no modifier can be added to, small in all its parts. -/
def Contained (outcome : Outcome) : Prop :=
  outcome.acceptsModifier = false ∧ ∀ part ∈ outcome.parts, Small part.value

theorem contained_simple {value : Int} {operands : List Outcome} (label : String) (operator : Option String)
    (hvalue : Small value) (hoperands : ∀ operand ∈ operands, Contained operand) :
    Contained (.simple value label operator operands) := by
  refine ⟨rfl, fun part hp => ?_⟩
  rcases mem_parts.1 hp with rfl | ⟨operand, ho, hp⟩
  · exact hvalue
  · exact (hoperands operand ho).2 part hp

theorem contained_leaf {value : Int} (label : String) (hvalue : Small value) :
    Contained (.simple value label none []) :=
  contained_simple label none hvalue fun _ ho => absurd ho List.not_mem_nil

theorem Contained.small {outcome : Outcome} (h : Contained outcome) : Small outcome.value := h.2 _ (self_mem_parts _)

/-- The value of an outcome as a bound. -/
theorem Contained.some {outcome : Outcome} (h : Contained outcome) : ∀ n ∈ Option.some outcome.value, Small n := by
  rintro _ ⟨⟩
  exact h.small

theorem Contained.restrict {minimum maximum : Option Int} {inner outcome : Outcome} (h : Contained inner)
    (hmin : ∀ low ∈ minimum, Small low) (hmax : ∀ high ∈ maximum, Small high)
    (hr : restrict inner minimum maximum = .ok outcome) : Contained outcome := by
  rw [restrict_ok hr]
  refine ⟨rfl, fun part hp => ?_⟩
  rcases mem_parts.1 hp with rfl | ⟨inside, hi, hp⟩
  · exact small_clamp h.small hmin hmax
  · rw [List.mem_singleton.1 hi] at hp
    exact h.2 part hp

theorem Contained.negated {operand outcome : Outcome} (h : Contained operand)
    (hn : Evaluation.negated operand = .ok outcome) : Contained outcome := by
  obtain ⟨label, rfl⟩ := negated_ok hn
  refine contained_simple _ _ h.small.neg fun inside hi => ?_
  rw [List.mem_singleton.1 hi]
  exact h

/-- **An operator on outcomes that take no modifier** counts the digits of its result. -/
theorem Contained.operate {operator : BinaryOperator} {left right outcome : Outcome} {source : Option Outcome}
    (hl : Contained left) (hr : Contained right) (h : operate operator left right source = .ok outcome) :
    Contained outcome := by
  have hcombined : combined operator left right = .ok outcome := by
    unfold Evaluation.operate at h
    rw [hl.1] at h
    split at h <;> exact h
  obtain ⟨n, label, ha, rfl⟩ := combined_ok hcombined
  refine contained_simple _ _ (Arithmetic.apply_small ha) fun operand ho => ?_
  rcases List.mem_cons.1 ho with rfl | ho
  · exact hl
  · rw [List.mem_singleton.1 ho]
    exact hr

/-- **A play that keeps values and variables small**: with small variables it ends in an outcome that is contained, and
with small variables again. -/
def KeepsSmall {σ : Type} (play : Play σ Outcome) : Prop :=
  ∀ (table after : Table σ) (outcome : Outcome), table.memory.Small → play table = .ok outcome after →
    Contained outcome ∧ after.memory.Small

section

variable {σ : Type} {limits : Limits} {table after : Table σ}

theorem KeepsSmall.bind {play : Play σ Outcome} {next : Outcome → Play σ Outcome} (h : KeepsSmall play)
    (hnext : ∀ outcome, Contained outcome → KeepsSmall (next outcome)) : KeepsSmall (play >>= next) := by
  intro table after outcome hmemory hplay
  obtain ⟨first, _, hfirst, hrest⟩ := Play.bind_ok hplay
  obtain ⟨hcontained, hmemory⟩ := h _ _ _ hmemory hfirst
  exact hnext first hcontained _ _ _ hmemory hrest

theorem keepsSmall_ofExcept {result : Except Fault Outcome} (h : ∀ outcome, result = .ok outcome → Contained outcome) :
    KeepsSmall (Play.ofExcept result : Play σ Outcome) := by
  intro table after outcome hmemory hplay
  obtain ⟨hresult, rfl⟩ := Play.ofExcept_ok hplay
  exact ⟨h outcome hresult, hmemory⟩

theorem keepsSmall_ofRule {result : Except RuleError Outcome}
    (h : ∀ outcome, result = .ok outcome → Contained outcome) : KeepsSmall (Play.ofRule result : Play σ Outcome) := by
  intro table after outcome hmemory hplay
  obtain ⟨hresult, rfl⟩ := Play.ofRule_ok hplay
  exact ⟨h outcome hresult, hmemory⟩

theorem keepsSmall_pure {outcome : Outcome} (h : Contained outcome) : KeepsSmall (pure outcome : Play σ Outcome) :=
  fun _ _ _ hmemory hplay => by
    obtain ⟨rfl, rfl⟩ := Play.pure_ok hplay
    exact ⟨h, hmemory⟩

theorem keepsSmall_lookUp (name : String) : KeepsSmall (lookUp name : Play σ Outcome) := by
  intro table after outcome hmemory h
  unfold lookUp at h
  obtain ⟨seen, middle, hseen, h₁⟩ := Play.bind_ok h
  cases hseen
  cases hm : table.memory.get? name with
  | some value =>
    rw [hm] at h₁
    obtain ⟨rfl, rfl⟩ := Play.pure_ok h₁
    exact ⟨contained_leaf _ (hmemory name value hm), hmemory⟩
  | none =>
    rw [hm] at h₁
    obtain ⟨_, middle, hreport, h₂⟩ := Play.bind_ok h₁
    obtain ⟨rfl, rfl⟩ := Play.pure_ok h₂
    rw [Play.report_memory hreport]
    exact ⟨contained_leaf _ small_zero, hmemory⟩

/-- A variable that is given a small value. -/
theorem keepsSmall_assign (name : String) {outcome : Outcome} (h : Contained outcome) :
    KeepsSmall (do assign name outcome.value; pure outcome : Play σ Outcome) := by
  intro table after found hmemory hplay
  obtain ⟨_, last, hassign, hpure⟩ := Play.bind_ok hplay
  obtain ⟨rfl, rfl⟩ := Play.pure_ok hpure
  cases hassign
  exact ⟨h, hmemory.set name h.small⟩

variable [RandomSource σ]

theorem keepsSmall_rollSpan (hfair : RandomSource.InRange σ) {low high : Nat} (hl : Small low) (hh : Small high) :
    KeepsSmall (rollSpan low high : Play σ Outcome) := by
  intro table after outcome hmemory h
  obtain ⟨value, middle, hvalue, h₁⟩ := Play.bind_ok h
  obtain ⟨next, hdraw, rfl⟩ := Play.draw_ok hvalue
  obtain ⟨hmin, hmax⟩ := hfair _ _ _ _ _ (by omega) hdraw
  obtain ⟨rfl, rfl⟩ := Play.pure_ok h₁
  exact ⟨contained_leaf _ (hl.between hh hmin hmax), hmemory⟩

/-- **Arithmetic keeps every value and every variable small.** -/
theorem evaluate_keepsSmall (hfair : RandomSource.InRange σ) : ∀ (expression : Expr),
    expression.isArithmetic = true → (∀ n ∈ expression.numbers, Small n) →
      KeepsSmall (evaluate limits expression : Play σ Outcome)
  | .literal value _, _, hw => keepsSmall_pure (contained_leaf _ (hw value List.mem_cons_self))
  | .var name _, _, _ => keepsSmall_lookUp name
  | .roll (.span low high) _, _, hw =>
    keepsSmall_rollSpan hfair (hw low List.mem_cons_self) (hw high (List.mem_cons_of_mem _ List.mem_cons_self))
  | .signed .plus operand _, harith, hw => evaluate_keepsSmall hfair operand harith hw
  | .signed .minus operand _, harith, hw =>
    (evaluate_keepsSmall hfair operand harith hw).bind fun _ ho => keepsSmall_ofExcept fun _ hn => ho.negated hn
  | .binary operator left right _, harith, hw => by
    rw [Expr.isArithmetic, Bool.and_eq_true] at harith
    have hleft := evaluate_keepsSmall hfair left harith.1 fun n hn => hw n (List.mem_append_left _ hn)
    have hright := evaluate_keepsSmall hfair right harith.2 fun n hn => hw n (List.mem_append_right _ hn)
    exact hleft.bind fun _ hl => hright.bind fun _ hr => keepsSmall_ofExcept fun _ ho => hl.operate hr ho
  | .unbounded operand _, harith, hw =>
    (evaluate_keepsSmall hfair operand harith hw).bind fun _ hi =>
      keepsSmall_ofRule fun _ hr => hi.restrict (by simp) (by simp) hr
  | .atLeast operand minimum _, harith, hw => by
    rw [Expr.isArithmetic, Bool.and_eq_true] at harith
    have hoperand := evaluate_keepsSmall hfair operand harith.1 fun n hn => hw n (List.mem_append_left _ hn)
    have hminimum := evaluate_keepsSmall hfair minimum harith.2 fun n hn => hw n (List.mem_append_right _ hn)
    exact hoperand.bind fun _ hi => hminimum.bind fun _ hl => keepsSmall_ofRule fun _ hr =>
      hi.restrict hl.some (by simp) hr
  | .atMost operand maximum _, harith, hw => by
    rw [Expr.isArithmetic, Bool.and_eq_true] at harith
    have hoperand := evaluate_keepsSmall hfair operand harith.1 fun n hn => hw n (List.mem_append_left _ hn)
    have hmaximum := evaluate_keepsSmall hfair maximum harith.2 fun n hn => hw n (List.mem_append_right _ hn)
    exact hoperand.bind fun _ hi => hmaximum.bind fun _ hh => keepsSmall_ofRule fun _ hr =>
      hi.restrict (by simp) hh.some hr
  | .between operand minimum maximum _, harith, hw => by
    rw [Expr.isArithmetic, Bool.and_eq_true, Bool.and_eq_true] at harith
    have hoperand := evaluate_keepsSmall hfair operand harith.1 fun n hn => hw n (List.mem_append_left _ hn)
    have hminimum := evaluate_keepsSmall hfair minimum harith.2.1 fun n hn =>
      hw n (List.mem_append_right _ (List.mem_append_left _ hn))
    have hmaximum := evaluate_keepsSmall hfair maximum harith.2.2 fun n hn =>
      hw n (List.mem_append_right _ (List.mem_append_right _ hn))
    exact hoperand.bind fun _ hi => hminimum.bind fun _ hl => hmaximum.bind fun _ hh => keepsSmall_ofRule fun _ hr =>
      hi.restrict hl.some hh.some hr
  | .assign name value _, harith, hw =>
    (evaluate_keepsSmall hfair value harith hw).bind fun _ ho => keepsSmall_assign name ho

theorem evaluateStatement_contained (hfair : RandomSource.InRange σ) {statement : Statement} {outcome : Outcome}
    (harith : statement.isArithmetic = true) (hw : ∀ e ∈ statement.trees, ∀ n ∈ e.numbers, Small n)
    (hmemory : table.memory.Small) (h : evaluateStatement limits statement table = .ok outcome after) :
    (∀ part ∈ outcome.parts, Small part.value) ∧ after.memory.Small := by
  cases statement with
  | once expression position =>
    obtain ⟨hcontained, hmemory⟩ := evaluate_keepsSmall hfair expression harith (hw expression List.mem_cons_self)
      _ _ _ hmemory h
    exact ⟨hcontained.2, hmemory⟩
  | flag name position =>
    obtain ⟨rfl, rfl⟩ := Play.pure_ok h
    refine ⟨fun part hp => ?_, hmemory⟩
    rw [eq_of_mem_parts rfl hp]
    exact small_zero
  | times | batch | ironsworn => cases harith

/-- **Statements hand their variables on**, all small. -/
theorem evaluateStatements_contained (hfair : RandomSource.InRange σ) : ∀ (statements : List Statement)
    {table after : Table σ} {outcomes : List Outcome}, statements.all Statement.isArithmetic = true →
      (∀ e ∈ statements.flatMap Statement.trees, ∀ n ∈ e.numbers, Small n) → table.memory.Small →
      evaluateStatements limits statements table = .ok outcomes after →
      (∀ outcome ∈ outcomes, ∀ part ∈ outcome.parts, Small part.value) ∧ after.memory.Small
  | [], table, after, outcomes, _, _, hmemory, h => by
    obtain ⟨rfl, rfl⟩ := Play.pure_ok h
    exact ⟨fun _ ho => absurd ho List.not_mem_nil, hmemory⟩
  | statement :: rest, table, after, outcomes, harith, hw, hmemory, h => by
    rw [evaluateStatements] at h
    obtain ⟨_, _, hreport, h₁⟩ := Play.bind_ok h
    obtain ⟨first, _, hfirst, h₂⟩ := Play.bind_ok h₁
    obtain ⟨others, _, hothers, h₃⟩ := Play.bind_ok h₂
    obtain ⟨rfl, rfl⟩ := Play.pure_ok h₃
    rw [← Play.report_memory hreport] at hmemory
    rw [List.all_cons, Bool.and_eq_true] at harith
    rw [List.flatMap_cons] at hw
    obtain ⟨hparts, hmemory⟩ := evaluateStatement_contained hfair harith.1
      (fun e he => hw e (List.mem_append_left _ he)) hmemory hfirst
    obtain ⟨hall, hmemory⟩ := evaluateStatements_contained hfair rest harith.2
      (fun e he => hw e (List.mem_append_right _ he)) hmemory hothers
    refine ⟨fun outcome ho => ?_, hmemory⟩
    rcases List.mem_cons.1 ho with rfl | ho
    · exact hparts
    · exact hall outcome ho

theorem evaluateCommand_contained (hfair : RandomSource.InRange σ) {command : Command} {outcome : Outcome}
    (harith : command.isArithmetic = true) (hw : ∀ e ∈ command.trees, ∀ n ∈ e.numbers, Small n)
    (hmemory : table.memory.Small) (h : evaluateCommand limits command table = .ok outcome after) :
    (∀ part ∈ outcome.parts, Small part.value) ∧ after.memory.Small := by
  obtain ⟨first, others, hall, rfl⟩ := evaluateCommand_ok h
  obtain ⟨hparts, hmemory⟩ := evaluateStatements_contained hfair command.statements harith hw hmemory hall
  refine ⟨fun part hp => ?_, hmemory⟩
  unfold inSequence at hp
  cases hl : others.getLast? with
  | none =>
    rw [hl] at hp
    exact hparts first List.mem_cons_self part hp
  | some last =>
    rw [hl] at hp
    rcases mem_parts.1 hp with rfl | ⟨result, hr, hp⟩
    · exact hparts last (List.mem_cons_of_mem _ (List.mem_of_getLast? hl)) last (self_mem_parts last)
    · exact hparts result hr part hp

end

/-! ## What a command may exceed -/

/-- All values in an outcome, and all variables, are small. -/
def AllSmall {σ : Type} (outcome : Outcome) (table : Table σ) : Prop :=
  (∀ part ∈ outcome.parts, Small part.value) ∧ table.memory.Small

/-- **The values of a command and the limit on digits.** Results of operators between two operands are always small.
All values and variables are small exactly when those of throws, repetitions, bounded outcomes and variables are, and
they always are if the command rolls no dice and repeats nothing. -/
theorem Evaluation.all_small_iff {σ : Type} [RandomSource σ] (hfair : RandomSource.InRange σ) (limits : Limits)
    (text : String) (command : Command) (hparse : Command.parse text = .ok command) (table after : Table σ)
    (hstart : table.memory.Small) (outcome : Outcome) (h : evaluateCommand limits command table = .ok outcome after) :
    (∀ value label operator operands, .simple value label (some operator) operands ∈ outcome.parts →
      operator ≠ Arithmetic.negation → Small value) ∧
    (AllSmall outcome after ↔ (∀ part ∈ outcome.parts, Unchecked part → Small part.value) ∧ after.memory.Small) ∧
    (command.isArithmetic = true → AllSmall outcome after) := by
  have hw : ∀ e ∈ command.trees, ∀ n ∈ e.numbers, Small n :=
    fun e he n hn => small_written (Command.numbers_lt_of_parse hparse e he n hn)
  have hreported := evaluateCommand_reported hfair hw h
  refine ⟨?_, ⟨?_, ?_⟩, ?_⟩
  · intro value label operator operands hp hne
    exact (hreported.parts _ hp).operator_small rfl hne
  · exact fun hall => ⟨fun part hp _ => hall.1 part hp, hall.2⟩
  · rintro ⟨hunchecked, hmemory⟩
    refine ⟨fun part hp => ?_, hmemory⟩
    exact (hreported.parts part hp).small (fun _ hn => hn) fun inside hi => hunchecked inside (mem_parts_trans hi hp)
  · exact fun harith => evaluateCommand_contained hfair harith hw hstart h

theorem Variables.small_empty : Variables.empty.Small := fun _ _ h => nomatch h

/-- A product with a number from a range, given to a variable and read again. -/
theorem Evaluation.all_small_product : ∃ command outcome after, Command.parse "(@y:=7*(2--5))-3+@y" = .ok command ∧
    evaluateCommand ⟨100, 1000, 100, 100⟩ command (Table.new ⟨[], 7⟩ : Table Scripted) = .ok outcome after ∧
    AllSmall outcome after := by
  obtain ⟨command, hparse, htest⟩ : ∃ command, Command.parse "(@y:=7*(2--5))-3+@y" = .ok command ∧
      (command.isArithmetic && Play.endsWith (evaluateCommand ⟨100, 1000, 100, 100⟩ command)
        (Table.new ⟨[], 7⟩ : Table Scripted) fun _ => true) = true :=
    Command.ok_of_parses _ (by decide +kernel)
  rw [Bool.and_eq_true] at htest
  obtain ⟨outcome, after, hrun, _⟩ := Play.ok_of_endsWith _ htest.2
  exact ⟨command, outcome, after, hparse, hrun,
    (all_small_iff Scripted.inRange _ _ command hparse _ after Variables.small_empty outcome hrun).2.2 htest.1⟩

/-- A sum of three operands, each small: two of them are refused together, but not after a die. -/
theorem Evaluation.dice_sum_too_long : ¬ ∀ (limits : Limits) (text : String) (command : Command),
    Command.parse text = .ok command → ∀ (table after : Table Scripted), table.memory.Small →
    ∀ outcome, evaluateCommand limits command table = .ok outcome after → AllSmall outcome after := by
  intro hall
  obtain ⟨command, hparse, htest⟩ : ∃ command,
      Command.parse "d1+(@y:=(@x:=100000000000000)*@x*@x*@x*@x*@x*@x*50)+@y" = .ok command ∧
      Play.endsWith (evaluateCommand ⟨100, 1000, 100, 100⟩ command) (Table.new ⟨[], 7⟩ : Table Scripted)
        (fun outcome => !decide (Small outcome.value)) = true :=
    Command.ok_of_parses _ (by decide +kernel)
  obtain ⟨outcome, after, hrun, hlong⟩ := Play.ok_of_endsWith _ htest
  have hsmall := (hall _ _ command hparse _ after Variables.small_empty outcome hrun).1 outcome (self_mem_parts outcome)
  rw [decide_eq_true hsmall] at hlong
  cases hlong

end TabletopDice
