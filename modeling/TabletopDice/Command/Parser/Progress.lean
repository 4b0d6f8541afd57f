import TabletopDice.Command.Parser.Expression
/-!
# Progress — a rule that succeeds has taken tokens

Every rule of expressions leaves fewer tokens than it was given, or, for the parts that may be missing, no more. The
statements of a command and the expressions of a batch can therefore be read one after another until the tokens end.
-/
namespace TabletopDice
namespace Command

/-- **Success leaves fewer than `n` tokens.** -/
def Leaves {α : Type} (n : Nat) (parsed : Except Stop (α × List Token)) : Prop :=
  ∀ a rest, parsed = .ok (a, rest) → rest.length < n

theorem Leaves.mono {α : Type} {m n : Nat} {parsed : Except Stop (α × List Token)} (h : Leaves m parsed)
    (hmn : m ≤ n) : Leaves n parsed := fun a rest e => Nat.lt_of_lt_of_le (h a rest e) hmn

theorem leaves_error {α : Type} (n : Nat) (stop : Stop) : Leaves (α := α) n (.error stop) :=
  fun _ _ e => nomatch e

theorem leaves_ok {α : Type} {n : Nat} {a : α} {rest : List Token} (h : rest.length < n) :
    Leaves n (.ok (a, rest)) := by
  intro b r e
  cases e
  exact h

theorem Leaves.bind {α β : Type} {m n : Nat} {parsed : Except Stop (α × List Token)}
    {next : α × List Token → Except Stop (β × List Token)} (h : Leaves m parsed)
    (hnext : ∀ a rest, rest.length < m → Leaves n (next (a, rest))) : Leaves n (parsed >>= next) := by
  cases parsed with
  | error stop => exact leaves_error n stop
  | ok read => exact hnext read.1 read.2 (h read.1 read.2 rfl)

theorem leaves_number (what : Expectation) (tokens : List Token) : Leaves tokens.length (number what tokens) := by
  unfold number
  split
  · exact leaves_ok (by simp)
  · exact leaves_error _ _

theorem length_sign {symbol : Symbol} {tokens rest : List Token} (h : sign symbol tokens = .ok rest) :
    rest.length < tokens.length := by
  unfold sign at h
  split at h
  · split at h
    · cases h; simp
    · cases h
  · cases h

theorem leaves_sign_bind {β : Type} {symbol : Symbol} {tokens : List Token} {n : Nat}
    {next : List Token → Except Stop (β × List Token)}
    (hnext : ∀ rest, rest.length < tokens.length → Leaves n (next rest)) :
    Leaves n (sign symbol tokens >>= next) := by
  cases h : sign symbol tokens with
  | error stop => exact leaves_error n stop
  | ok rest => exact hnext rest (length_sign h)

theorem leaves_targetSuffix (tokens : List Token) : Leaves (tokens.length + 1) (targetSuffix tokens) := by
  unfold targetSuffix
  split
  · refine (leaves_number _ _).bind fun target rest h => ?_
    dsimp only
    split
    · refine (leaves_number _ _).bind fun interval rest h' => leaves_ok ?_
      simp at *; omega
    · exact leaves_ok (by simp at *; omega)
  · refine (leaves_number _ _).bind fun target rest h => leaves_ok ?_
    simp at *; omega
  · exact leaves_ok (by simp)

theorem length_optionalNumber (tokens : List Token) : (optionalNumber tokens).2.length ≤ tokens.length := by
  unfold optionalNumber
  split <;> simp

theorem leaves_reading (tokens : List Token) : Leaves (tokens.length + 1) (reading tokens) := by
  unfold reading
  split
  · refine Leaves.bind ?_ fun suffix rest h => leaves_ok h
    unfold successSuffix
    refine (leaves_number _ _).bind fun threshold rest h => ?_
    dsimp only
    split
    · refine (leaves_number _ _).bind fun failure rest h' => leaves_ok ?_
      simp at *; omega
    · exact leaves_ok (by simp at *; omega)
  · split
    · refine ((leaves_targetSuffix _).mono ?_).bind fun target rest h => leaves_ok h
      exact Nat.succ_le_succ (Nat.le_succ_of_le (length_optionalNumber _))
    · exact (leaves_targetSuffix _).bind fun target rest h => leaves_ok h
  · exact (leaves_targetSuffix _).bind fun target rest h => leaves_ok h

theorem length_acingMark (tokens : List Token) : (acingMark tokens).2.length ≤ tokens.length := by
  unfold acingMark
  split <;> simp

theorem leaves_genericRoll (count : Option Nat) (faces : Faces) (tokens : List Token) :
    Leaves (tokens.length + 1) (genericRoll count faces tokens) := by
  unfold genericRoll
  exact ((leaves_reading _).mono (Nat.succ_le_succ (length_acingMark tokens))).bind fun read rest h => leaves_ok h

theorem leaves_diceRoll (count : Option Nat) (tokens : List Token) :
    Leaves (tokens.length + 1) (diceRoll count tokens) := by
  unfold diceRoll
  split
  · exact leaves_ok (by simp only [List.length_cons]; omega)
  · exact leaves_ok (by simp only [List.length_cons]; omega)
  · exact (leaves_genericRoll _ _ _).mono (by simp)
  · exact (leaves_number _ _).bind fun sides rest h => (leaves_genericRoll _ _ _).mono (by omega)

theorem leaves_wildSides (tokens : List Token) : Leaves (tokens.length + 1) (wildSides tokens) := by
  unfold wildSides
  split
  · exact (leaves_number _ _).bind fun sides rest h => leaves_ok (by simp only [List.length_cons]; omega)
  · exact leaves_ok (by simp)

theorem leaves_savageRoll (count : Option Nat) (tokens : List Token) :
    Leaves (tokens.length + 1) (savageRoll count tokens) := by
  unfold savageRoll
  exact (leaves_number _ _).bind fun trait rest h => (leaves_wildSides _).bind fun wild rest h' =>
    (leaves_targetSuffix _).bind fun target rest h'' => leaves_ok (by omega)

theorem leaves_extrasRoll (count : Option Nat) (tokens : List Token) :
    Leaves (tokens.length + 1) (extrasRoll count tokens) := by
  unfold extrasRoll
  exact (leaves_number _ _).bind fun sides rest h => (leaves_targetSuffix _).bind fun target rest h' =>
    leaves_ok (by omega)

theorem leaves_atPosition {n : Nat} (position : Nat) {parsed : Except Stop (Roll × List Token)}
    (h : Leaves n parsed) : Leaves n (atPosition position parsed) := by
  unfold atPosition
  exact h.bind fun term rest hr => leaves_ok hr

/-! ## Expressions -/

/-- A step of a chain takes no tokens, or an operator and what its operand takes. -/
theorem leaves_chainStep {operator? : Symbol → Option BinaryOperator}
    {operand : Nat → List Token → Except Stop (Expr × List Token)}
    {chain : Nat → Expr → List Token → Except Stop (Expr × List Token)} {levels : Nat}
    (hoperand : ∀ below < levels, ∀ tokens, Leaves tokens.length (operand below tokens))
    (hchain : ∀ below < levels, ∀ left tokens, Leaves (tokens.length + 1) (chain below left tokens)) (left : Expr)
    (tokens : List Token) : Leaves (tokens.length + 1) (chainStep operator? operand chain levels left tokens) := by
  obtain ⟨symbol, position, rest, operator, rfl, hoperator⟩ | hend := symbol_cases operator? tokens
  · cases levels with
    | zero =>
      rw [chainStep_tooDeep hoperator]
      exact leaves_error _ _
    | succ levels =>
      rw [chainStep_operator hoperator]
      refine (hoperand levels (Nat.lt_succ_self _) rest).bind fun right after h => ?_
      exact (hchain levels (Nat.lt_succ_self _) _ after).mono (by simp only [List.length_cons]; omega)
  · rw [chainStep_end levels left hend]
    exact leaves_ok (Nat.lt_succ_self _)

/-- A first operand and a chain after it take what the operand takes at least. -/
theorem Leaves.chain {n : Nat} {first : Except Stop (Expr × List Token)}
    {next : Expr → List Token → Except Stop (Expr × List Token)} (h : Leaves n first)
    (hnext : ∀ left rest, Leaves (rest.length + 1) (next left rest)) :
    Leaves n (first >>= fun read => next read.1 read.2) :=
  h.bind fun left rest hlt => (hnext left rest).mono hlt

mutual

/-- **An expression takes at least one token.** -/
theorem leaves_expr (levels : Nat) (tokens : List Token) : Leaves tokens.length (expr levels tokens) := by
  cases levels with
  | zero =>
    rw [expr]
    exact leaves_error _ _
  | succ levels =>
    rw [expr.eq_def]
    dsimp only
    split
    · exact (leaves_expr levels _).bind fun value rest h => leaves_ok (by simp only [List.length_cons]; omega)
    · exact leaves_additive levels tokens
  termination_by 7 * levels

theorem leaves_additive (levels : Nat) (tokens : List Token) : Leaves tokens.length (additive levels tokens) := by
  rw [additive]
  exact (leaves_multiplicative levels tokens).chain (leaves_additiveChain levels)
  termination_by 7 * levels + 5

theorem leaves_additiveChain (levels : Nat) (left : Expr) (tokens : List Token) :
    Leaves (tokens.length + 1) (additiveChain levels left tokens) := by
  rw [additiveChain_eq]
  exact leaves_chainStep (fun below _ => leaves_multiplicative below) (fun below _ => leaves_additiveChain below) _ _
  termination_by 7 * levels

theorem leaves_multiplicative (levels : Nat) (tokens : List Token) :
    Leaves tokens.length (multiplicative levels tokens) := by
  rw [multiplicative]
  exact (leaves_unary levels tokens).chain (leaves_multiplicativeChain levels)
  termination_by 7 * levels + 4

theorem leaves_multiplicativeChain (levels : Nat) (left : Expr) (tokens : List Token) :
    Leaves (tokens.length + 1) (multiplicativeChain levels left tokens) := by
  rw [multiplicativeChain_eq]
  exact leaves_chainStep (fun below _ => leaves_unary below) (fun below _ => leaves_multiplicativeChain below) _ _
  termination_by 7 * levels

/-- An operand with its signs and bounds takes at least one token. -/
theorem leaves_unary (levels : Nat) (tokens : List Token) : Leaves tokens.length (unary levels tokens) := by
  rw [unary.eq_def]
  split
  · split
    · cases levels with
      | zero => exact leaves_error _ _
      | succ levels =>
        exact (leaves_unary levels _).bind fun operand rest h => leaves_ok (by simp only [List.length_cons]; omega)
    · exact leaves_withBounds levels _
  · exact leaves_withBounds levels tokens
  termination_by 7 * levels + 3

theorem leaves_withBounds (levels : Nat) (tokens : List Token) : Leaves tokens.length (withBounds levels tokens) := by
  rw [withBounds]
  exact (leaves_primary levels tokens).chain (leaves_boundsChain levels)
  termination_by 7 * levels + 2

theorem leaves_boundsChain (levels : Nat) (operand : Expr) (tokens : List Token) :
    Leaves (tokens.length + 1) (boundsChain levels operand tokens) := by
  rw [boundsChain.eq_def]
  split
  · cases levels with
    | zero => exact leaves_error _ _
    | succ levels =>
      exact (leaves_openBound levels .colon _).bind fun minimum rest h₁ => leaves_sign_bind fun rest h₂ =>
        (leaves_openBound levels .closeBracket rest).bind fun maximum rest h₃ => leaves_sign_bind fun rest h₄ =>
          (leaves_boundsChain levels _ rest).mono (by simp only [List.length_cons]; omega)
  · exact leaves_ok (Nat.lt_succ_self _)
  termination_by 7 * levels

theorem leaves_openBound (levels : Nat) (closing : Symbol) (tokens : List Token) :
    Leaves (tokens.length + 1) (openBound levels closing tokens) := by
  rw [openBound.eq_def]
  split
  · split
    · exact leaves_ok (Nat.lt_succ_self _)
    · exact (leaves_expr levels _).bind fun bound rest h => leaves_ok (Nat.lt_succ_of_lt h)
  · exact (leaves_expr levels tokens).bind fun bound rest h => leaves_ok (Nat.lt_succ_of_lt h)
  termination_by 7 * levels + 1

theorem leaves_primary (levels : Nat) (tokens : List Token) : Leaves tokens.length (primary levels tokens) := by
  rw [primary.eq_def]
  split
  · exact leaves_ok (Nat.lt_succ_self _)
  · exact leaves_ok (Nat.lt_succ_self _)
  · exact (leaves_expr levels _).bind fun inner rest h₁ => leaves_sign_bind fun rest h₂ =>
      leaves_ok (by simp only [List.length_cons]; omega)
  · -- a number is a count if the letter of a roll comes next
    split
    · exact leaves_atPosition _ ((leaves_diceRoll _ _).mono (by simp))
    · exact leaves_atPosition _ ((leaves_savageRoll _ _).mono (by simp))
    · exact leaves_atPosition _ ((leaves_extrasRoll _ _).mono (by simp))
    · exact leaves_ok (by simp only [List.length_cons]; omega)
    · exact leaves_ok (Nat.lt_succ_self _)
  · exact leaves_atPosition _ (leaves_diceRoll _ _)
  · exact leaves_atPosition _ (leaves_savageRoll _ _)
  · exact leaves_atPosition _ (leaves_extrasRoll _ _)
  · exact leaves_error _ _
  termination_by 7 * levels + 1

end

end Command
end TabletopDice
