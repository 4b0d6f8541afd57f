import TabletopDice.Command.Parser.Progress
/-!
# Parser — from a text to a command

    command        := statement (';' statement)*
    statement      := INT 'x' ('[' expr (';' expr)* ']' | expr)
                    | 'iron' (('+'|'-') unary)? | FLAG | expr

A count before the letter `x` repeats an expression or, in brackets, several of them in turn. The modifier of an
Ironsworn roll is an operand with its signs and bounds, not a sum.
-/
namespace TabletopDice
namespace Command

/-- Expressions with semicolons between them. -/
def expressions (tokens : List Token) : Except Stop (List Expr × List Token) :=
  match _h : expr maxNesting tokens with
  | .error stop => .error stop
  | .ok (first, ⟨.symbol .semicolon, _⟩ :: rest) => do
    let (others, after) ← expressions rest
    .ok (first :: others, after)
  | .ok (first, rest) => .ok ([first], rest)
  termination_by tokens.length
  decreasing_by exact Nat.lt_of_succ_lt (leaves_expr _ _ _ _ _h)

/-- What follows a count and the letter `x`. -/
def repetition (count : Nat) (position : Nat) : List Token → Except Stop (Statement × List Token)
  | ⟨.symbol .openBracket, _⟩ :: rest => do
    let (batch, rest) ← expressions rest
    let rest ← sign .closeBracket rest
    .ok (.batch count batch position, rest)
  | rest => do
    let (repeated, rest) ← expr maxNesting rest
    .ok (.times count repeated position, rest)

/-- The signed modifier of an Ironsworn roll, if there is one. -/
def ironswornModifier : List Token → Except Stop (Option (Sign × Expr) × List Token)
  | ⟨.symbol symbol, position⟩ :: rest => match sign? symbol with
    | some sign => do
      let (modifier, rest) ← unary maxNesting rest
      .ok (some (sign, modifier), rest)
    | none => .ok (none, ⟨.symbol symbol, position⟩ :: rest)
  | rest => .ok (none, rest)

/-- **A statement.** -/
def statement : List Token → Except Stop (Statement × List Token)
  | ⟨.number digits, position⟩ :: ⟨.keyword .x, _⟩ :: rest =>
    repetition (Text.numeralValue digits) position rest
  | ⟨.keyword .iron, position⟩ :: rest => do
    let (modifier, rest) ← ironswornModifier rest
    .ok (.ironsworn modifier position, rest)
  | ⟨.flag name, position⟩ :: rest => .ok (.flag name position, rest)
  | [] => wants .expression []
  | token :: rest => do
    let (rolled, after) ← expr maxNesting (token :: rest)
    .ok (.once rolled token.position, after)

/-! ## Progress -/

theorem leaves_expressions (tokens : List Token) : Leaves tokens.length (expressions tokens) := by
  fun_induction expressions tokens with
  | case1 => exact leaves_error _ _
  | case2 tokens first _ rest h ih =>
    have hlt := leaves_expr _ _ _ _ h
    exact ih.bind fun others after h' => leaves_ok (by simp at hlt; omega)
  | case3 tokens first rest _ h => exact leaves_ok (leaves_expr _ _ _ _ h)

theorem leaves_repetition (count position : Nat) (tokens : List Token) :
    Leaves tokens.length (repetition count position tokens) := by
  unfold repetition
  split
  · exact (leaves_expressions _).bind fun batch rest h => leaves_sign_bind fun rest h' =>
      leaves_ok (by simp only [List.length_cons]; omega)
  · exact (leaves_expr _ _).bind fun repeated rest h => leaves_ok h

theorem leaves_ironswornModifier (tokens : List Token) :
    Leaves (tokens.length + 1) (ironswornModifier tokens) := by
  unfold ironswornModifier
  split
  · split
    · exact (leaves_unary _ _).bind fun modifier rest h => leaves_ok (by simp only [List.length_cons]; omega)
    · exact leaves_ok (by simp)
  · exact leaves_ok (by simp)

/-- **A statement takes at least one token.** -/
theorem leaves_statement (tokens : List Token) : Leaves tokens.length (statement tokens) := by
  unfold statement
  split
  · exact (leaves_repetition _ _ _).mono (by simp only [List.length_cons]; omega)
  · exact (leaves_ironswornModifier _).bind fun modifier rest h => leaves_ok (by simp only [List.length_cons]; omega)
  · exact leaves_ok (by simp)
  · exact leaves_error _ _
  · exact (leaves_expr _ _).bind fun rolled after h => leaves_ok h

/-! ## Commands -/

/-- Statements with semicolons between them. -/
def command (tokens : List Token) : Except Stop (Command × List Token) :=
  match _h : statement tokens with
  | .error stop => .error stop
  | .ok (first, ⟨.symbol .semicolon, _⟩ :: rest) => do
    let (others, after) ← command rest
    .ok (⟨first, others.statements⟩, after)
  | .ok (first, rest) => .ok (⟨first, []⟩, rest)
  termination_by tokens.length
  decreasing_by exact Nat.lt_of_succ_lt (leaves_statement _ _ _ _h)

/-- The syntax error of a stop, in a text of so many characters. -/
def Stop.toError (textLength : Nat) (stop : Stop) : SyntaxError :=
  let found := stop.rest.head?
  let position := (found.map Token.position).getD textLength
  let lexeme := found.map Token.lexeme
  match stop.complaint with
  | .tooDeep => ⟨position, .tooDeep⟩
  | .expected what => ⟨position, .expected what lexeme⟩
  | .trailing => ⟨position, .trailing lexeme⟩

/-- **The command that a list of tokens says**, all of them taken. -/
def ofTokens (tokens : List Token) : Except Stop Command := do
  let (read, rest) ← command tokens
  match rest with
  | [] => .ok read
  | rest => .error ⟨.trailing, rest⟩

/-- **The command that a text says.** -/
def parse (text : String) : Except SyntaxError Command :=
  let characters := text.toList
  if characters.all Text.isBlank then .error ⟨0, .blank⟩
  else match Token.scan characters with
    | .error error => .error error
    | .ok tokens => (ofTokens tokens).mapError (Stop.toError characters.length)

/-- The command that an entry says, which is no text if it is `none`. -/
def parseEntry : Option String → Except SyntaxError Command
  | some text => parse text
  | none => .error ⟨0, .notText⟩

/-- **Whether an entry is a command.** -/
def isValid (entry : Option String) : Bool := (parseEntry entry).isOk

end Command
end TabletopDice
