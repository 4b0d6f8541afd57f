import TabletopDice.Command
import TabletopDice.Token.Lexer
/-!
# Expression — from tokens to an expression

    expr           := VAR ':=' expr | additive
    additive       := multiplicative (('+'|'-') multiplicative)*
    multiplicative := unary (('*'|'/'|'%') unary)*
    unary          := ('-'|'+') unary | bounds
    bounds         := primary ('[' expr? ':' expr? ']')*
    primary        := INT | INT '--' INT | VAR | '(' expr ')' | roll

Every rule takes the tokens that are left and returns what it has read and the tokens after it, or stops at a token.
The rules of expressions also take the number of nesting levels that are left: an expression, an operator of a chain,
a sign and a bound each use one up for what stands inside or to the right of them, and none may be used when none is
left. That number, and for one number the order of the rules, is what makes the rules end.
-/
namespace TabletopDice
namespace Command

/-- Why a rule stops. -/
inductive Complaint
  | tooDeep
  | expected (what : Expectation)
  | trailing
  deriving DecidableEq, Repr

/-- A stop: the reason, and the tokens from the offending one on. -/
structure Stop where
  complaint : Complaint
  rest : List Token
  deriving DecidableEq, Repr

/-- The rule stops here because it wants something else. -/
def wants {α : Type} (what : Expectation) (rest : List Token) : Except Stop (α × List Token) :=
  .error ⟨.expected what, rest⟩

/-- A numeral that has to be there. -/
def number (what : Expectation) : List Token → Except Stop (Nat × List Token)
  | ⟨.number digits, _⟩ :: rest => .ok (Text.numeralValue digits, rest)
  | rest => wants what rest

/-- A sign that has to be there. -/
def sign (symbol : Symbol) : List Token → Except Stop (List Token)
  | ⟨.symbol found, position⟩ :: rest =>
    if found = symbol then .ok rest else .error ⟨.expected (.sign symbol), ⟨.symbol found, position⟩ :: rest⟩
  | rest => .error ⟨.expected (.sign symbol), rest⟩

/-! ## Rolls -/

/-- A target number, a raise interval, or both, if there are any. -/
def targetSuffix : List Token → Except Stop (Option TargetSuffix × List Token)
  | ⟨.keyword .t, _⟩ :: rest => do
    let (target, rest) ← number .targetNumber rest
    match rest with
    | ⟨.keyword .r, _⟩ :: rest => do
      let (interval, rest) ← number .raiseInterval rest
      .ok (some ⟨some target, some interval⟩, rest)
    | rest => .ok (some ⟨some target, none⟩, rest)
  | ⟨.keyword .r, _⟩ :: rest => do
    let (interval, rest) ← number .raiseInterval rest
    .ok (some ⟨none, some interval⟩, rest)
  | rest => .ok (none, rest)

/-- The keep rule of a keyword. -/
def keepRule? : Keyword → Option KeepRule
  | .k => some .highest
  | .kl => some .lowest
  | .adv => some .advantage
  | .dis => some .disadvantage
  | _ => none

/-- A numeral, if there is one. -/
def optionalNumber : List Token → Option Nat × List Token
  | ⟨.number digits, _⟩ :: rest => (some (Text.numeralValue digits), rest)
  | rest => (none, rest)

/-- A success threshold, and the failure threshold if there is one. -/
def successSuffix (rest : List Token) : Except Stop (SuccessSuffix × List Token) := do
  let (threshold, rest) ← number .successThreshold rest
  match rest with
  | ⟨.keyword .f, _⟩ :: rest => do
    let (failure, rest) ← number .failureThreshold rest
    .ok (⟨threshold, some failure⟩, rest)
  | rest => .ok (⟨threshold, none⟩, rest)

/-- How the dice of a generic roll are read. -/
def reading : List Token → Except Stop (Reading × List Token)
  | ⟨.keyword .s, _⟩ :: rest => do
    let (suffix, rest) ← successSuffix rest
    .ok (.successes suffix, rest)
  | ⟨.keyword word, position⟩ :: rest => match keepRule? word with
    | some rule => do
      let (target, after) ← targetSuffix (optionalNumber rest).2
      .ok (.total (some ⟨rule, (optionalNumber rest).1⟩) target, after)
    | none => do
      let (target, rest) ← targetSuffix (⟨.keyword word, position⟩ :: rest)
      .ok (.total none target, rest)
  | rest => do
    let (target, rest) ← targetSuffix rest
    .ok (.total none target, rest)

/-- The exclamation mark of an acing roll, if it is there. -/
def acingMark : List Token → Bool × List Token
  | ⟨.symbol .bang, _⟩ :: rest => (true, rest)
  | rest => (false, rest)

/-- A generic roll after its sides. -/
def genericRoll (count : Option Nat) (faces : Faces) (rest : List Token) : Except Stop (Roll × List Token) := do
  let (read, after) ← reading (acingMark rest).2
  .ok (.generic ⟨count, faces, (acingMark rest).1, read⟩, after)

/-- A roll after the letter `d`. -/
def diceRoll (count : Option Nat) : List Token → Except Stop (Roll × List Token)
  | ⟨.keyword .f, _⟩ :: rest => .ok (.fudge count, rest)
  | ⟨.symbol .question, _⟩ :: rest => .ok (.carcosa count, rest)
  | ⟨.symbol .percent, _⟩ :: rest => genericRoll count .percent rest
  | rest => do
    let (sides, rest) ← number .dieSides rest
    genericRoll count (.sides sides) rest

/-- The sides of the wild die, if they are said. -/
def wildSides : List Token → Except Stop (Option Nat × List Token)
  | ⟨.keyword .w, _⟩ :: rest => do
    let (sides, rest) ← number .wildSides rest
    .ok (some sides, rest)
  | rest => .ok (none, rest)

/-- A trait roll after the letter `s`. -/
def savageRoll (count : Option Nat) (rest : List Token) : Except Stop (Roll × List Token) := do
  let (trait, rest) ← number .traitSides rest
  let (wild, rest) ← wildSides rest
  let (target, rest) ← targetSuffix rest
  .ok (.savage ⟨count, trait, wild, target⟩, rest)

/-- A roll of an extra after the letter `e`. -/
def extrasRoll (count : Option Nat) (rest : List Token) : Except Stop (Roll × List Token) := do
  let (sides, rest) ← number .extraSides rest
  let (target, rest) ← targetSuffix rest
  .ok (.extras ⟨count, sides, target⟩, rest)

/-! ## Expressions -/

/-- A roll as an expression that stands at a place. -/
def atPosition (position : Nat) (parsed : Except Stop (Roll × List Token)) : Except Stop (Expr × List Token) := do
  let (term, rest) ← parsed
  .ok (.roll term position, rest)

/-- The operator of a sum, if the sign is one. -/
def additiveOperator? : Symbol → Option BinaryOperator
  | .plus => some .add
  | .minus => some .subtract
  | _ => none

/-- The operator of a product, if the sign is one. -/
def multiplicativeOperator? : Symbol → Option BinaryOperator
  | .times => some .multiply
  | .slash => some .divide
  | .percent => some .remainder
  | _ => none

/-- The sign before an operand, if the symbol is one. -/
def sign? : Symbol → Option Sign
  | .plus => some .plus
  | .minus => some .minus
  | _ => none

mutual

/-- An expression: an assignment or a sum, one level down. -/
def expr (levels : Nat) (tokens : List Token) : Except Stop (Expr × List Token) :=
  match levels with
  | 0 => .error ⟨.tooDeep, tokens⟩
  | levels + 1 =>
    match tokens with
    | ⟨.var name, position⟩ :: ⟨.becomes, _⟩ :: rest => do
      let (value, rest) ← expr levels rest
      .ok (.assign name value position, rest)
    | rest => additive levels rest
  termination_by 7 * levels

/-- A sum. -/
def additive (levels : Nat) (tokens : List Token) : Except Stop (Expr × List Token) := do
  let (left, rest) ← multiplicative levels tokens
  additiveChain levels left rest
  termination_by 7 * levels + 5

/-- The operators of a sum and their right operands, each one level below the one before. -/
def additiveChain (levels : Nat) (left : Expr) (tokens : List Token) : Except Stop (Expr × List Token) :=
  match tokens with
  | ⟨.symbol symbol, position⟩ :: rest => match additiveOperator? symbol with
    | some operator => match levels with
      | 0 => .error ⟨.tooDeep, ⟨.symbol symbol, position⟩ :: rest⟩
      | levels + 1 => do
        let (right, rest) ← multiplicative levels rest
        additiveChain levels (.binary operator left right position) rest
    | none => .ok (left, ⟨.symbol symbol, position⟩ :: rest)
  | rest => .ok (left, rest)
  termination_by 7 * levels

/-- A product. -/
def multiplicative (levels : Nat) (tokens : List Token) : Except Stop (Expr × List Token) := do
  let (left, rest) ← unary levels tokens
  multiplicativeChain levels left rest
  termination_by 7 * levels + 4

/-- The operators of a product and their right operands, each one level below the one before. -/
def multiplicativeChain (levels : Nat) (left : Expr) (tokens : List Token) : Except Stop (Expr × List Token) :=
  match tokens with
  | ⟨.symbol symbol, position⟩ :: rest => match multiplicativeOperator? symbol with
    | some operator => match levels with
      | 0 => .error ⟨.tooDeep, ⟨.symbol symbol, position⟩ :: rest⟩
      | levels + 1 => do
        let (right, rest) ← unary levels rest
        multiplicativeChain levels (.binary operator left right position) rest
    | none => .ok (left, ⟨.symbol symbol, position⟩ :: rest)
  | rest => .ok (left, rest)
  termination_by 7 * levels

/-- An operand with any number of signs before it, each one level. -/
def unary (levels : Nat) (tokens : List Token) : Except Stop (Expr × List Token) :=
  match tokens with
  | ⟨.symbol symbol, position⟩ :: rest => match sign? symbol with
    | some sign => match levels with
      | 0 => .error ⟨.tooDeep, ⟨.symbol symbol, position⟩ :: rest⟩
      | levels + 1 => do
        let (operand, rest) ← unary levels rest
        .ok (.signed sign operand position, rest)
    | none => withBounds levels (⟨.symbol symbol, position⟩ :: rest)
  | rest => withBounds levels rest
  termination_by 7 * levels + 3

/-- An operand with any number of bounds after it. -/
def withBounds (levels : Nat) (tokens : List Token) : Except Stop (Expr × List Token) := do
  let (operand, rest) ← primary levels tokens
  boundsChain levels operand rest
  termination_by 7 * levels + 2

/-- The bounds after an operand, each one level below the one before. -/
def boundsChain (levels : Nat) (operand : Expr) (tokens : List Token) : Except Stop (Expr × List Token) :=
  match tokens with
  | ⟨.symbol .openBracket, position⟩ :: rest => match levels with
    | 0 => .error ⟨.tooDeep, ⟨.symbol .openBracket, position⟩ :: rest⟩
    | levels + 1 => do
      let (minimum, rest) ← openBound levels .colon rest
      let rest ← sign .colon rest
      let (maximum, rest) ← openBound levels .closeBracket rest
      let rest ← sign .closeBracket rest
      boundsChain levels (.bounded operand minimum maximum position) rest
  | rest => .ok (operand, rest)
  termination_by 7 * levels

/-- A bound, or none if the sign that ends it comes at once. -/
def openBound (levels : Nat) (closing : Symbol) (tokens : List Token) : Except Stop (Option Expr × List Token) :=
  match tokens with
  | ⟨.symbol symbol, position⟩ :: rest =>
    if symbol = closing then .ok (none, ⟨.symbol symbol, position⟩ :: rest)
    else do
      let (bound, rest) ← expr levels (⟨.symbol symbol, position⟩ :: rest)
      .ok (some bound, rest)
  | rest => do
    let (bound, rest) ← expr levels rest
    .ok (some bound, rest)
  termination_by 7 * levels + 1

/-- A number, a variable, an expression in parentheses or a roll. -/
def primary (levels : Nat) (tokens : List Token) : Except Stop (Expr × List Token) :=
  match tokens with
  | ⟨.span low high, position⟩ :: rest =>
    .ok (.roll (.span (Text.numeralValue low) (Text.numeralValue high)) position, rest)
  | ⟨.var name, position⟩ :: rest => .ok (.var name position, rest)
  | ⟨.symbol .openParen, _⟩ :: rest => do
    let (inner, rest) ← expr levels rest
    let rest ← sign .closeParen rest
    .ok (inner, rest)
  | ⟨.number digits, position⟩ :: rest =>
    let count := Text.numeralValue digits
    match rest with
    | ⟨.keyword .d, _⟩ :: rest => atPosition position (diceRoll (some count) rest)
    | ⟨.keyword .s, _⟩ :: rest => atPosition position (savageRoll (some count) rest)
    | ⟨.keyword .e, _⟩ :: rest => atPosition position (extrasRoll (some count) rest)
    | ⟨.keyword .w, _⟩ :: rest => .ok (.roll (.weg count) position, rest)
    | rest => .ok (.literal count position, rest)
  | ⟨.keyword .d, position⟩ :: rest => atPosition position (diceRoll none rest)
  | ⟨.keyword .s, position⟩ :: rest => atPosition position (savageRoll none rest)
  | ⟨.keyword .e, position⟩ :: rest => atPosition position (extrasRoll none rest)
  | rest => wants .operand rest
  termination_by 7 * levels + 1

end

/-! ## Chains of operators -/

/-- **One step of a chain of operators**: the next operator and its right operand, one level down, and the rest of the
chain; or the end of the chain. -/
def chainStep (operator? : Symbol → Option BinaryOperator)
    (operand : Nat → List Token → Except Stop (Expr × List Token))
    (chain : Nat → Expr → List Token → Except Stop (Expr × List Token)) (levels : Nat) (left : Expr)
    (tokens : List Token) : Except Stop (Expr × List Token) :=
  match tokens with
  | ⟨.symbol symbol, position⟩ :: rest => match operator? symbol with
    | some operator => match levels with
      | 0 => .error ⟨.tooDeep, ⟨.symbol symbol, position⟩ :: rest⟩
      | levels + 1 => do
        let (right, rest) ← operand levels rest
        chain levels (.binary operator left right position) rest
    | none => .ok (left, ⟨.symbol symbol, position⟩ :: rest)
  | rest => .ok (left, rest)

theorem additiveChain_eq (levels : Nat) (left : Expr) (tokens : List Token) :
    additiveChain levels left tokens =
      chainStep additiveOperator? multiplicative additiveChain levels left tokens :=
  additiveChain.eq_def levels left tokens

theorem multiplicativeChain_eq (levels : Nat) (left : Expr) (tokens : List Token) :
    multiplicativeChain levels left tokens =
      chainStep multiplicativeOperator? unary multiplicativeChain levels left tokens :=
  multiplicativeChain.eq_def levels left tokens

/-- **A rule that hangs on a symbol**: the tokens begin with one that has a meaning, or they do not. -/
theorem symbol_cases {α : Type} (meaning? : Symbol → Option α) (tokens : List Token) :
    (∃ symbol position rest a, tokens = ⟨.symbol symbol, position⟩ :: rest ∧ meaning? symbol = some a) ∨
    (∀ symbol position rest, tokens = ⟨.symbol symbol, position⟩ :: rest → meaning? symbol = none) := by
  by_cases h : ∃ symbol position rest a, tokens = ⟨.symbol symbol, position⟩ :: rest ∧ meaning? symbol = some a
  · exact .inl h
  · refine .inr fun symbol position rest htokens => Option.eq_none_iff_forall_ne_some.2 fun a ha => ?_
    exact h ⟨symbol, position, rest, a, htokens, ha⟩

section

variable {operator? : Symbol → Option BinaryOperator} {operand : Nat → List Token → Except Stop (Expr × List Token)}
  {chain : Nat → Expr → List Token → Except Stop (Expr × List Token)} {symbol : Symbol} {operator : BinaryOperator}

/-- A chain that may not nest deeper stops at its next operator. -/
theorem chainStep_tooDeep (hoperator : operator? symbol = some operator) (left : Expr) (position : Nat)
    (rest : List Token) : chainStep operator? operand chain 0 left (⟨.symbol symbol, position⟩ :: rest) =
      .error ⟨.tooDeep, ⟨.symbol symbol, position⟩ :: rest⟩ := by
  simp only [chainStep, hoperator]

/-- A chain goes on with its next operator, one level down. -/
theorem chainStep_operator (hoperator : operator? symbol = some operator) (levels : Nat) (left : Expr) (position : Nat)
    (rest : List Token) : chainStep operator? operand chain (levels + 1) left (⟨.symbol symbol, position⟩ :: rest) =
      operand levels rest >>= fun read => chain levels (.binary operator left read.1 position) read.2 := by
  simp only [chainStep, hoperator]

/-- A chain ends at tokens that do not begin with one of its operators. -/
theorem chainStep_end {tokens : List Token} (levels : Nat) (left : Expr)
    (h : ∀ symbol position rest, tokens = ⟨.symbol symbol, position⟩ :: rest → operator? symbol = none) :
    chainStep operator? operand chain levels left tokens = .ok (left, tokens) := by
  unfold chainStep
  split
  · simp only [h _ _ _ rfl]
  · rfl

end

end Command
end TabletopDice
