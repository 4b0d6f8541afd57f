import TabletopDice.Proofs.Formation
/-!
# Recomputation — the structure of an outcome gives its value again

A rule of evaluation finds the value of the outcome that it forms in its own way, and `recompute` finds it from the
structure alone. The two agree on every part of every outcome of a command, and `recompute` never fails there: an
operator whose result was short enough once is short enough again, and repetitions that take a modifier are
repetitions of throws.
-/
namespace TabletopDice

open Outcome Evaluation

theorem Throw.rejudge_total {value : Int} {throw judged : Throw} (h : throw.rejudge value = .ok judged) :
    judged.total = throw.total := by
  rcases Throw.rejudge_ok h with rfl | ⟨_, _, _, _, rfl, -, rfl⟩ | ⟨_, _, rfl, -, rfl⟩ <;> rfl

theorem Arithmetic.applySymbol_symbol (operator : BinaryOperator) (left right : Int) :
    applySymbol operator.symbol [left, right] = (apply operator left right).mapError .rule := by
  cases operator <;> rfl

theorem Formed.recompute {written : Nat → Prop} {outcome : Outcome} (h : Formed written outcome) :
    outcome.recompute = .ok outcome.value := by
  induction h with
  | number | var | span | volley => rfl
  | negated _ hn =>
    obtain ⟨label, rfl⟩ := negated_ok hn
    rfl
  | fresh throw =>
    change Except.ok (throw.total + 0) = .ok throw.total
    rw [Int.add_zero]
  | @combined operator left right outcome hl hr hc =>
    obtain ⟨n, label, ha, rfl⟩ := combined_ok hc
    change Arithmetic.applySymbol operator.symbol [left.value, right.value] = .ok n
    rw [Arithmetic.applySymbol_symbol, ha]
    rfl
  | restricted hi hr => rw [restrict_ok hr]; rfl
  | modified hl hs hm ih =>
    rcases addModifier_ok hm with ⟨value, throw, modifier, sources, rfl, h⟩ | ⟨_, _, added, rfl, _, rfl⟩
    · obtain ⟨judged, hj, rfl⟩ := addTo_thrown_ok h
      have hvalue : throw.total + modifier = value := Except.ok.inj ih
      change Except.ok (judged.total + _) = Except.ok _
      rw [Throw.rejudge_total hj, ← hvalue, ← Int.add_assoc]
      rfl
    · rfl

theorem Reported.recompute {written : Nat → Prop} {outcome : Outcome} (h : Reported written outcome) :
    outcome.recompute = .ok outcome.value := by
  induction h with
  | expression hf => exact hf.recompute
  | repeated | ironsworn | flag => rfl
  | @sequence first others hf ho ih =>
    unfold inSequence
    cases hl : others.getLast? with
    | none => exact ih
    | some last =>
      simp only [Outcome.recompute, List.getLast?_cons, hl]
      rfl

/-- **Every part of the outcome of a command recomputes to its value**, whatever the limits, the variables and the
source. -/
theorem Evaluation.every_part_recomputes {σ : Type} [RandomSource σ] (hfair : RandomSource.InRange σ) (limits : Limits)
    (command : Command) (table after : Table σ) (outcome : Outcome)
    (h : evaluateCommand limits command table = .ok outcome after) :
    ∀ part ∈ outcome.parts, part.recompute = .ok part.value := by
  have hreported : Reported (fun _ => True) outcome := evaluateCommand_reported hfair (fun _ _ _ _ => trivial) h
  exact fun part hp => (hreported.parts part hp).recompute

/-- Trait rolls to which a roll is added, then rounds of a negated variable and a bounded number. -/
theorem Evaluation.every_part_recomputes_rounds : ∃ (outcome : Outcome) (after : Table Scripted),
    evaluateCommand ⟨100, 1000, 100, 100⟩
      ⟨.once (.binary .add (.roll (.savage ⟨some 3, 8, none, none⟩) 0)
        (.roll (.generic ⟨some 1, .sides 4, false, .total none none⟩) 4) 3) 0,
        [.batch 2 [.signed .minus (.var "x" 15) 14, .between (.literal 7 18) (.literal 1 20) (.literal 3 22) 19] 10]⟩
      (Table.new ⟨[], 7⟩) = .ok outcome after ∧
    ∀ part ∈ outcome.parts, part.recompute = .ok part.value := by
  exact Play.exists_of_endsWith (fun _ => true) (by decide +kernel) fun outcome after hrun _ =>
    every_part_recomputes Scripted.inRange _ _ _ after outcome hrun

end TabletopDice
