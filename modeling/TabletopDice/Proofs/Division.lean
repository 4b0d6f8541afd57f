import TabletopDice.Proofs.Magnitude
import TabletopDice.Proofs.Recomputation
/-!
# Division — the quotient and the remainder of two numbers

A divisor goes into a dividend so many times and leaves a rest. If the rest is to be smaller than the divisor and to
have the sign of the dividend, just one quotient and one rest are possible, and those are what division and remainder
give. Neither is larger than the dividend, whatever the divisor is. So an operator that divides a number of no more
digits than a result may have never fails for the digits of its own result, and fails for a divisor of zero only
(`division_unique`).
-/
namespace TabletopDice
namespace Arithmetic

/-- **A dividend divided**: the divisor goes into it that many times and leaves a rest, which is smaller than the
divisor and has the sign of the dividend. -/
structure Divided (dividend divisor quotient rest : Int) : Prop where
  recombines : dividend = divisor * quotient + rest
  smaller : rest.natAbs < divisor.natAbs
  signed : rest = 0 ∨ rest.sign = dividend.sign

section

variable {dividend divisor quotient rest : Int}

/-! ## Existence -/

/-- Negating the quotient of the magnitudes for operands on two sides of zero is rounding toward zero. Zero counts as
positive, which changes nothing: its quotient is zero. -/
theorem truncatedQuotient_eq_tdiv : ∀ dividend divisor : Int,
    truncatedQuotient dividend divisor = dividend.tdiv divisor
  | .ofNat _, .ofNat _ | .ofNat _, .negSucc _ | .negSucc _, .ofNat _ | .negSucc _, .negSucc _ => rfl

theorem divide_eq (hdivisor : divisor ≠ 0) : divide dividend divisor = .ok (dividend.tdiv divisor) := by
  unfold divide
  rw [if_neg hdivisor, truncatedQuotient_eq_tdiv]

theorem remainder_eq (hdivisor : divisor ≠ 0) : remainder dividend divisor = .ok (dividend.tmod divisor) := by
  unfold remainder
  rw [if_neg hdivisor, truncatedQuotient_eq_tdiv, Int.tmod_def]

theorem divide_zero (dividend : Int) : divide dividend 0 = .error .divisionByZero := if_pos rfl

theorem remainder_zero (dividend : Int) : remainder dividend 0 = .error .remainderByZero := if_pos rfl

theorem divided_tdiv_tmod (hdivisor : divisor ≠ 0) :
    Divided dividend divisor (dividend.tdiv divisor) (dividend.tmod divisor) where
  recombines := (Int.mul_tdiv_add_tmod dividend divisor).symm
  smaller := by
    rw [Int.natAbs_tmod]
    exact Nat.mod_lt _ (Int.natAbs_pos.2 hdivisor)
  signed := by
    by_cases hdvd : divisor ∣ dividend
    · exact .inl (Int.tmod_eq_zero_of_dvd hdvd)
    · right
      rw [Int.sign_tmod, if_neg hdvd]

/-! ## Uniqueness -/

theorem Divided.divisor_ne_zero (h : Divided dividend divisor quotient rest) : divisor ≠ 0 :=
  Int.natAbs_pos.1 (Nat.zero_lt_of_lt h.smaller)

theorem Divided.rest_nonneg (h : Divided dividend divisor quotient rest) (hdividend : 0 ≤ dividend) : 0 ≤ rest := by
  rcases h.signed with hzero | hsign
  · exact Int.le_of_eq hzero.symm
  · rwa [← Int.sign_nonneg_iff, hsign, Int.sign_nonneg_iff]

theorem Divided.rest_nonpos (h : Divided dividend divisor quotient rest) (hdividend : dividend ≤ 0) : rest ≤ 0 := by
  rcases h.signed with hzero | hsign
  · exact Int.le_of_eq hzero
  · rwa [← Int.sign_nonpos_iff, hsign, Int.sign_nonpos_iff]

/-- **A dividend is divided in no other way** than by rounding toward zero. -/
theorem Divided.eq_tdiv_tmod (h : Divided dividend divisor quotient rest) :
    dividend.tdiv divisor = quotient ∧ dividend.tmod divisor = rest := by
  have hsmaller := h.smaller
  have hsum : rest + divisor * quotient = dividend := by rw [Int.add_comm, ← h.recombines]
  -- the rest is on the same side of zero as the dividend, and on each side the bounds leave one multiple
  rcases Int.le_total 0 dividend with hdividend | hdividend
  · have hrest := h.rest_nonneg hdividend
    exact (Int.tdiv_tmod_unique hdividend h.divisor_ne_zero).2 ⟨hsum, hrest, by omega⟩
  · have hrest := h.rest_nonpos hdividend
    exact (Int.tdiv_tmod_unique' hdividend h.divisor_ne_zero).2 ⟨hsum, by omega, hrest⟩

theorem divided_iff (hdivisor : divisor ≠ 0) :
    Divided dividend divisor quotient rest ↔ quotient = dividend.tdiv divisor ∧ rest = dividend.tmod divisor := by
  constructor
  · intro h
    obtain ⟨hquotient, hrest⟩ := h.eq_tdiv_tmod
    exact ⟨hquotient.symm, hrest.symm⟩
  · rintro ⟨rfl, rfl⟩
    exact divided_tdiv_tmod hdivisor

/-! ## The digits of the results -/

theorem small_tdiv (h : Small dividend) (divisor : Int) : Small (dividend.tdiv divisor) :=
  h.of_natAbs_le (Int.natAbs_tdiv_le_natAbs dividend divisor)

theorem small_tmod (h : Small dividend) (divisor : Int) : Small (dividend.tmod divisor) := by
  refine h.of_natAbs_le ?_
  rw [Int.natAbs_tmod]
  exact Nat.mod_le _ _

end

section

variable {operator : BinaryOperator} {left right : Int}

/-- An operator gives its result if that is small. -/
theorem applySymbol_of_small {n : Int} (h : unlimited operator left right = .ok n) (hsmall : Small n) :
    applySymbol operator.symbol [left, right] = .ok n := by
  rw [applySymbol_symbol, apply, h]
  change (withinDigits n).mapError Fault.rule = .ok n
  rw [withinDigits_small hsmall]
  rfl

/-- An operator without a result fails before any digits are counted. -/
theorem applySymbol_of_error {error : RuleError} (h : unlimited operator left right = .error error) :
    applySymbol operator.symbol [left, right] = .error (.rule error) := by
  rw [applySymbol_symbol, apply, h]
  rfl

end

section

variable {dividend divisor : Int}

theorem applySymbol_divide (hdivisor : divisor ≠ 0) (h : Small dividend) :
    applySymbol BinaryOperator.divide.symbol [dividend, divisor] = .ok (dividend.tdiv divisor) :=
  applySymbol_of_small (divide_eq hdivisor) (small_tdiv h divisor)

theorem applySymbol_remainder (hdivisor : divisor ≠ 0) (h : Small dividend) :
    applySymbol BinaryOperator.remainder.symbol [dividend, divisor] = .ok (dividend.tmod divisor) :=
  applySymbol_of_small (remainder_eq hdivisor) (small_tmod h divisor)

theorem applySymbol_divide_zero (dividend : Int) :
    applySymbol BinaryOperator.divide.symbol [dividend, 0] = .error (.rule .divisionByZero) :=
  applySymbol_of_error (divide_zero dividend)

theorem applySymbol_remainder_zero (dividend : Int) :
    applySymbol BinaryOperator.remainder.symbol [dividend, 0] = .error (.rule .remainderByZero) :=
  applySymbol_of_error (remainder_zero dividend)

end

/-- **Division and remainder give the one quotient and the one rest** that a dividend and a divisor other than zero
have; as operators they do so for every dividend that is small. Then they are never refused for the digits of their
result. A divisor of zero they refuse for every dividend. -/
theorem division_unique (dividend divisor : Int) :
    (divisor ≠ 0 → ∃ quotient rest,
      divide dividend divisor = .ok quotient ∧ remainder dividend divisor = .ok rest ∧
      (∀ q r, Divided dividend divisor q r ↔ q = quotient ∧ r = rest) ∧
      (Small dividend → applySymbol BinaryOperator.divide.symbol [dividend, divisor] = .ok quotient ∧
        applySymbol BinaryOperator.remainder.symbol [dividend, divisor] = .ok rest)) ∧
    (divisor = 0 →
      divide dividend divisor = .error .divisionByZero ∧ remainder dividend divisor = .error .remainderByZero ∧
      applySymbol BinaryOperator.divide.symbol [dividend, divisor] = .error (.rule .divisionByZero) ∧
      applySymbol BinaryOperator.remainder.symbol [dividend, divisor] = .error (.rule .remainderByZero)) ∧
    (Small dividend →
      applySymbol BinaryOperator.divide.symbol [dividend, divisor] ≠ .error (.rule .tooManyDigits) ∧
      applySymbol BinaryOperator.remainder.symbol [dividend, divisor] ≠ .error (.rule .tooManyDigits)) := by
  refine ⟨fun hdivisor => ?_, ?_, fun hsmall => ?_⟩
  · exact ⟨_, _, divide_eq hdivisor, remainder_eq hdivisor, fun _ _ => divided_iff hdivisor,
      fun hsmall => ⟨applySymbol_divide hdivisor hsmall, applySymbol_remainder hdivisor hsmall⟩⟩
  · rintro rfl
    exact ⟨divide_zero dividend, remainder_zero dividend, applySymbol_divide_zero dividend,
      applySymbol_remainder_zero dividend⟩
  · by_cases hdivisor : divisor = 0
    · rw [hdivisor, applySymbol_divide_zero, applySymbol_remainder_zero]
      exact ⟨nofun, nofun⟩
    · rw [applySymbol_divide hdivisor hsmall, applySymbol_remainder hdivisor hsmall]
      exact ⟨nofun, nofun⟩

/-- A negative dividend: rounding toward zero leaves a negative rest. -/
theorem division_unique_negative :
    (2 : Int) ≠ 0 ∧ Small (-7) ∧ divide (-7) 2 = .ok (-3) ∧ remainder (-7) 2 = .ok (-1) ∧
      (∀ q r, Divided (-7) 2 q r ↔ q = -3 ∧ r = -1) ∧
      applySymbol BinaryOperator.divide.symbol [-7, 2] = .ok (-3) ∧
      applySymbol BinaryOperator.remainder.symbol [-7, 2] = .ok (-1) ∧
      applySymbol BinaryOperator.divide.symbol [-7, 0] = .error (.rule .divisionByZero) ∧
      applySymbol BinaryOperator.remainder.symbol [-7, 0] = .error (.rule .remainderByZero) := by
  have hdivisor : (2 : Int) ≠ 0 := by decide
  have hsmall : Small (-7) := by decide
  obtain ⟨quotient, rest, hquotient, hrest, hunique, hoperators⟩ := (division_unique (-7) 2).1 hdivisor
  obtain ⟨-, -, hdivide, hremainder⟩ := (division_unique (-7) 0).2.1 rfl
  cases hquotient
  cases hrest
  obtain ⟨hshort, hshortRest⟩ := hoperators hsmall
  exact ⟨hdivisor, hsmall, rfl, rfl, hunique, hshort, hshortRest, hdivide, hremainder⟩

end Arithmetic
end TabletopDice
