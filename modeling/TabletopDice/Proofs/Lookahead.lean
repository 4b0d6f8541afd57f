import TabletopDice.Proofs.Grammar.Completeness
/-!
# Lookahead — a rule looks no further than one token

What a rule of the parser does depends on the tokens that it takes and on the next one, at which it stops or which it
leaves (`Local`). Two rules look at two tokens before they take one: an expression, whose first variable may be given a
value, and a statement, whose first number may be a count. Where they look that far, the first token is taken in any
case, so that the second is the next one at most (`local_expr`, `local_statement`).
-/
namespace TabletopDice
namespace Command

/-! ## Local rules -/

/-- **The end of a rule**: a value or a complaint, with the tokens from there on. -/
def ending {α : Type} (result : Except Complaint α) (rest : List Token) : Except Stop (α × List Token) :=
  match result with
  | .ok a => .ok (a, rest)
  | .error complaint => .error ⟨complaint, rest⟩

/-- **A rule is local at tokens**: it takes some of them, `n` at least, and ends in the same way on all tokens that begin
with those it takes and the next one. -/
def Local {α : Type} (n : Nat) (rule : List Token → Except Stop (α × List Token)) (tokens : List Token) : Prop :=
  ∃ taken rest result, tokens = taken ++ rest ∧ n ≤ taken.length ∧
    ∀ others, others.head? = rest.head? → rule (taken ++ others) = ending result others

variable {α β : Type} {m n : Nat} {rule other : List Token → Except Stop (α × List Token)} {tokens others : List Token}

theorem Local.mono (h : Local n rule tokens) (hle : m ≤ n) : Local m rule tokens := by
  obtain ⟨taken, rest, result, heq, hn, hrule⟩ := h
  exact ⟨taken, rest, result, heq, Nat.le_trans hle hn, hrule⟩

theorem Local.loose (h : Local n rule tokens) : Local 0 rule tokens := h.mono (Nat.zero_le n)

/-- A rule that takes nothing. -/
theorem local_end (result : Except Complaint α)
    (h : ∀ others, others.head? = tokens.head? → rule others = ending result others) : Local 0 rule tokens :=
  ⟨[], tokens, result, rfl, Nat.zero_le _, h⟩

theorem local_ok (a : α) (tokens : List Token) : Local 0 (fun tokens => .ok (a, tokens)) tokens :=
  local_end (.ok a) fun _ _ => rfl

theorem take_append_head {taken rest : List Token} (hn : n ≤ taken.length) (hhead : others.head? = rest.head?) :
    (taken ++ others).take (n + 1) = (taken ++ rest).take (n + 1) := by
  rw [List.take_append, List.take_append]
  congr 1
  obtain h | h : n + 1 - taken.length = 0 ∨ n + 1 - taken.length = 1 := by omega
  · rw [h, List.take_zero, List.take_zero]
  · rw [h, List.take_one, List.take_one, hhead]

/-- **A rule that goes on as another** on all tokens that begin with those that the other surely looks at. -/
theorem Local.congr (h : Local n rule tokens)
    (heq : ∀ others, others.take (n + 1) = tokens.take (n + 1) → other others = rule others) : Local n other tokens := by
  obtain ⟨taken, rest, result, rfl, hn, hrule⟩ := h
  refine ⟨taken, rest, result, rfl, hn, fun others hhead => ?_⟩
  rw [heq _ (take_append_head hn hhead), hrule others hhead]

/-- **A rule that takes one token and goes on as another**, which may hang on the token after it. -/
theorem Local.cons {token : Token} (h : Local n rule tokens)
    (heq : ∀ others, others.head? = tokens.head? → other (token :: others) = rule others) :
    Local 1 other (token :: tokens) := by
  obtain ⟨taken, rest, result, rfl, hn, hrule⟩ := h
  refine ⟨token :: taken, rest, result, rfl, Nat.succ_le_succ (Nat.zero_le _), fun others hhead => ?_⟩
  have hsame : (taken ++ others).head? = (taken ++ rest).head? := by
    rw [List.head?_append, List.head?_append, hhead]
  rw [List.cons_append, heq _ hsame, hrule others hhead]

/-- **One rule after another.** The second may rely on the first having left the tokens to it. -/
theorem Local.next {next : α × List Token → Except Stop (β × List Token)} (h : Local n rule tokens)
    (hnext : ∀ a rest, rule tokens = .ok (a, rest) → Local 0 (fun tokens => next (a, tokens)) rest) :
    Local n (fun tokens => rule tokens >>= next) tokens := by
  obtain ⟨taken, rest, result, rfl, hn, hrule⟩ := h
  cases result with
  | error complaint =>
    refine ⟨taken, rest, .error complaint, rfl, hn, fun others hhead => ?_⟩
    dsimp only
    rw [hrule others hhead]
    rfl
  | ok a =>
    obtain ⟨more, rest, result, rfl, -, hafter⟩ := hnext a rest (hrule rest rfl)
    refine ⟨taken ++ more, rest, result, by rw [List.append_assoc], ?_, fun others hhead => ?_⟩
    · rw [List.length_append]
      omega
    · have hsame : (more ++ others).head? = (more ++ rest).head? := by
        rw [List.head?_append, List.head?_append, hhead]
      dsimp only
      rw [List.append_assoc, hrule _ hsame]
      exact hafter others hhead

/-- One rule after another, whatever tokens the first leaves. -/
theorem Local.bind {next : α → List Token → Except Stop (β × List Token)} (h : Local n rule tokens)
    (hnext : ∀ a rest, Local 0 (next a) rest) :
    Local n (fun tokens => rule tokens >>= fun read => next read.1 read.2) tokens :=
  h.next fun a rest _ => hnext a rest

theorem head?_of_take (h : others.take (n + 1) = tokens.take (n + 1)) : others.head? = tokens.head? := by
  have hhead := congrArg List.head? h
  rwa [List.head?_take, List.head?_take, if_neg (Nat.succ_ne_zero n)] at hhead

/-- A token that some tokens do not begin with, others with the same head do not begin with either. -/
theorem not_cons_of_head? {token : Token} (hhead : others.head? = tokens.head?)
    (h : ∀ rest, tokens = token :: rest → False) (rest : List Token) : others = token :: rest → False := by
  rintro rfl
  cases tokens with
  | nil => cases hhead
  | cons found more =>
    cases hhead
    exact h more rfl

theorem cons_of_head? {token : Token} {rest : List Token} (hhead : others.head? = (token :: rest).head?) :
    ∃ more, others = token :: more := by
  cases others with
  | nil => cases hhead
  | cons found more =>
    cases hhead
    exact ⟨more, rfl⟩

/-- A rule that takes nothing because of the token that it is at. -/
theorem local_at {token : Token} (result : Except Complaint α)
    (h : ∀ others, rule (token :: others) = ending result (token :: others)) : Local 0 rule (token :: tokens) := by
  refine local_end result fun others hhead => ?_
  obtain ⟨more, rfl⟩ := cons_of_head? hhead
  exact h more

/-! ## Numerals and signs -/

theorem local_number (what : Expectation) (tokens : List Token) : Local 0 (number what) tokens := by
  refine number.fun_cases (fun tokens => Local 0 (number what) tokens) (fun digits p rest => ?_)
    (fun tokens hne => ?_) tokens
  · exact ((local_ok (Text.numeralValue digits) rest).cons fun _ _ => rfl).loose
  · refine local_end (.error (.expected what)) fun others hhead => ?_
    rw [number]
    · rfl
    · exact fun digits p => not_cons_of_head? hhead (hne digits p)

/-- A rule that goes on after a sign that has to be there. -/
theorem local_sign_bind (symbol : Symbol) {next : List Token → Except Stop (α × List Token)}
    (hnext : ∀ rest, Local 0 next rest) (tokens : List Token) :
    Local 0 (fun tokens => sign symbol tokens >>= next) tokens := by
  refine sign.fun_cases symbol (fun tokens => Local 0 (fun tokens => sign symbol tokens >>= next) tokens)
    (fun p rest => ?_) (fun found p rest hne => ?_) (fun tokens hne => ?_) tokens
  · refine ((hnext rest).cons fun others _ => ?_).loose
    rw [sign, if_pos rfl]
    rfl
  · refine local_at (.error (.expected (.sign symbol))) fun others => ?_
    rw [sign, if_neg hne]
    rfl
  · refine local_end (.error (.expected (.sign symbol))) fun others hhead => ?_
    rw [sign]
    · rfl
    · exact fun found p => not_cons_of_head? hhead (hne found p)

/-- **A rule that goes on by one sign or letter**, if that is the next token, and in another way if not. -/
theorem local_choice {taken missing : List Token → Except Stop (α × List Token)} (lexeme : Lexeme)
    (htaken : ∀ tokens, Local 0 taken tokens) (hmissing : ∀ tokens, Local 0 missing tokens)
    (hopens : ∀ p rest, rule (⟨lexeme, p⟩ :: rest) = taken rest)
    (hothers : ∀ tokens, (∀ p rest, tokens = ⟨lexeme, p⟩ :: rest → False) → rule tokens = missing tokens)
    (tokens : List Token) : Local 0 rule tokens := by
  by_cases h : ∃ p rest, tokens = ⟨lexeme, p⟩ :: rest
  · obtain ⟨p, rest, rfl⟩ := h
    exact ((htaken rest).cons fun others _ => hopens p others).loose
  · refine (hmissing tokens).congr fun others htake => hothers others fun p => ?_
    exact not_cons_of_head? (head?_of_take htake) fun rest heq => h ⟨p, rest, heq⟩

/-! ## Rolls -/

theorem local_targetSuffix (tokens : List Token) : Local 0 targetSuffix tokens := by
  refine targetSuffix.fun_cases (fun tokens => Local 0 targetSuffix tokens) (fun p rest => ?_) (fun p rest => ?_)
    (fun tokens ht hr => ?_) tokens
  · refine (((local_number .targetNumber rest).next fun target rest _ => ?_).cons fun _ _ => rfl).loose
    refine local_choice (.keyword .r) (fun rest => (local_number .raiseInterval rest).bind fun interval rest =>
      local_ok (some (TargetSuffix.mk (some target) (some interval))) rest)
      (local_ok (some (TargetSuffix.mk (some target) none))) (fun _ _ => rfl) (fun tokens hne => ?_) rest
    dsimp only
    split
    · exact absurd rfl (hne _ _)
    · rfl
  · exact (((local_number .raiseInterval rest).bind fun interval rest =>
      local_ok (some (TargetSuffix.mk none (some interval))) rest).cons fun _ _ => rfl).loose
  · refine local_end (.ok none) fun others hhead => ?_
    rw [targetSuffix]
    · rfl
    · exact fun p => not_cons_of_head? hhead (ht p)
    · exact fun p => not_cons_of_head? hhead (hr p)

theorem local_successSuffix (tokens : List Token) : Local 0 successSuffix tokens := by
  refine (local_number .successThreshold tokens).next fun threshold rest _ => ?_
  refine local_choice (.keyword .f) (fun rest => (local_number .failureThreshold rest).bind fun failure rest =>
    local_ok (SuccessSuffix.mk threshold (some failure)) rest) (local_ok (SuccessSuffix.mk threshold none))
    (fun _ _ => rfl) (fun tokens hne => ?_) rest
  dsimp only
  split
  · exact absurd rfl (hne _ _)
  · rfl

theorem local_optionalNumber (tokens : List Token) :
    Local 0 (fun tokens => .ok (optionalNumber tokens)) tokens := by
  refine optionalNumber.fun_cases (fun tokens => Local 0 (fun tokens => .ok (optionalNumber tokens)) tokens)
    (fun digits p rest => ?_) (fun tokens hne => ?_) tokens
  · exact ((local_ok (some (Text.numeralValue digits)) rest).cons fun _ _ => rfl).loose
  · refine local_end (.ok none) fun others hhead => ?_
    rw [optionalNumber]
    · rfl
    · exact fun digits p => not_cons_of_head? hhead (hne digits p)

theorem local_acingMark (tokens : List Token) : Local 0 (fun tokens => .ok (acingMark tokens)) tokens := by
  refine local_choice (.symbol .bang) (local_ok true) (local_ok false) (fun _ _ => rfl) (fun tokens hne => ?_) tokens
  rw [acingMark]
  exact hne

theorem local_reading (tokens : List Token) : Local 0 reading tokens := by
  refine reading.fun_cases (fun tokens => Local 0 reading tokens) (fun p rest => ?_)
    (fun word p rest hne rule hrule => ?_) (fun word p rest hne hrule => ?_) (fun tokens hs hne => ?_) tokens
  · exact (((local_successSuffix rest).bind fun suffix rest =>
      local_ok (Reading.successes suffix) rest).cons fun _ _ => rfl).loose
  · have hkept := (local_optionalNumber rest).bind fun count rest =>
      (local_targetSuffix rest).bind fun target rest => local_ok (Reading.total (some ⟨rule, count⟩) target) rest
    refine (hkept.cons fun others _ => ?_).loose
    rw [reading]
    · simp only [hrule]
      rfl
    · exact hne
  · refine ((local_targetSuffix _).bind fun target rest => local_ok (Reading.total none target) rest).congr ?_
    intro others htake
    obtain ⟨more, rfl⟩ := cons_of_head? (head?_of_take htake)
    rw [reading]
    · simp only [hrule]
    · exact hne
  · refine ((local_targetSuffix _).bind fun target rest => local_ok (Reading.total none target) rest).congr ?_
    intro others htake
    rw [reading]
    · exact fun p => not_cons_of_head? (head?_of_take htake) (hs p)
    · exact fun word p => not_cons_of_head? (head?_of_take htake) (hne word p)

theorem local_genericRoll (count : Option Nat) (faces : Faces) (tokens : List Token) :
    Local 0 (genericRoll count faces) tokens :=
  ((local_acingMark tokens).bind fun acing rest => (local_reading rest).bind fun read rest =>
    local_ok (Roll.generic ⟨count, faces, acing, read⟩) rest).congr fun _ _ => rfl

theorem local_diceRoll (count : Option Nat) (tokens : List Token) : Local 0 (diceRoll count) tokens := by
  refine diceRoll.fun_cases (fun tokens => Local 0 (diceRoll count) tokens) (fun p rest => ?_) (fun p rest => ?_)
    (fun p rest => ?_) (fun tokens hf hq hp => ?_) tokens
  · exact ((local_ok (Roll.fudge count) rest).cons fun _ _ => rfl).loose
  · exact ((local_ok (Roll.carcosa count) rest).cons fun _ _ => rfl).loose
  · exact ((local_genericRoll count .percent rest).cons fun _ _ => rfl).loose
  · refine ((local_number .dieSides tokens).bind fun sides rest =>
      local_genericRoll count (.sides sides) rest).congr fun others htake => ?_
    rw [diceRoll]
    · exact fun p => not_cons_of_head? (head?_of_take htake) (hf p)
    · exact fun p => not_cons_of_head? (head?_of_take htake) (hq p)
    · exact fun p => not_cons_of_head? (head?_of_take htake) (hp p)

theorem local_wildSides (tokens : List Token) : Local 0 wildSides tokens := by
  refine local_choice (.keyword .w) (fun rest => (local_number .wildSides rest).bind fun sides rest =>
    local_ok (some sides) rest) (local_ok none) (fun _ _ => rfl) (fun tokens hne => ?_) tokens
  rw [wildSides]
  exact hne

theorem local_savageRoll (count : Option Nat) (tokens : List Token) : Local 0 (savageRoll count) tokens :=
  ((local_number .traitSides tokens).bind fun trait rest => (local_wildSides rest).bind fun wild rest =>
    (local_targetSuffix rest).bind fun target rest =>
      local_ok (Roll.savage ⟨count, trait, wild, target⟩) rest).congr fun _ _ => rfl

theorem local_extrasRoll (count : Option Nat) (tokens : List Token) : Local 0 (extrasRoll count) tokens :=
  ((local_number .extraSides tokens).bind fun sides rest => (local_targetSuffix rest).bind fun target rest =>
    local_ok (Roll.extras ⟨count, sides, target⟩) rest).congr fun _ _ => rfl

/-- A roll after its letter, as an expression. -/
theorem Local.roll {term : List Token → Except Stop (Roll × List Token)} (h : Local n term tokens) {token : Token}
    (position : Nat) {rule : List Token → Except Stop (Expr × List Token)}
    (heq : ∀ others, rule (token :: others) = atPosition position (term others)) : Local 1 rule (token :: tokens) :=
  (h.bind fun term rest => local_ok (Expr.roll term position) rest).cons fun others _ => heq others

/-! ## Expressions -/

/-- **The tokens that an operand surely takes**: the first one, if it is a variable or a number. -/
def lead : List Token → Nat
  | ⟨.var _, _⟩ :: _ => 1
  | ⟨.number _, _⟩ :: _ => 1
  | _ => 0

theorem lead_eq_zero (hvar : ∀ name p rest, tokens = ⟨.var name, p⟩ :: rest → False)
    (hnumber : ∀ digits p rest, tokens = ⟨.number digits, p⟩ :: rest → False) : lead tokens = 0 := by
  unfold lead
  split
  · exact absurd rfl (hvar _ _ _)
  · exact absurd rfl (hnumber _ _ _)
  · rfl

/-- Tokens that begin like a sum, as far as a sum looks, do not give a variable a value. -/
theorem not_assignment (htake : others.take (lead tokens + 1) = tokens.take (lead tokens + 1))
    (h : ∀ name p q rest, tokens = ⟨.var name, p⟩ :: ⟨.becomes, q⟩ :: rest → False) (name : String) (p q : Nat)
    (rest : List Token) : others = ⟨.var name, p⟩ :: ⟨.becomes, q⟩ :: rest → False := by
  rintro rfl
  obtain ⟨more, rfl⟩ := cons_of_head? (head?_of_take htake).symm
  obtain ⟨more, rfl⟩ := cons_of_head? (head?_of_take (n := 0) (List.cons.inj htake).2.symm)
  exact h name p q more rfl

/-- Tokens with the same head as some that do not begin with a symbol of a meaning do not either. -/
theorem none_of_head? {γ : Type} {meaning? : Symbol → Option γ}
    (hnone : ∀ symbol p rest, tokens = ⟨.symbol symbol, p⟩ :: rest → meaning? symbol = none)
    (hhead : others.head? = tokens.head?) (symbol : Symbol) (p : Nat) (rest : List Token)
    (heq : others = ⟨.symbol symbol, p⟩ :: rest) : meaning? symbol = none := by
  subst heq
  obtain ⟨more, rfl⟩ := cons_of_head? hhead.symm
  exact hnone symbol p more rfl

/-- A step of a chain is local if its operands and the rest of the chain are. -/
theorem local_chainStep {operator? : Symbol → Option BinaryOperator}
    {operand : Nat → List Token → Except Stop (Expr × List Token)}
    {chain : Nat → Expr → List Token → Except Stop (Expr × List Token)} {levels : Nat}
    (hoperand : ∀ below < levels, ∀ tokens, Local 0 (operand below) tokens)
    (hchain : ∀ below < levels, ∀ left tokens, Local 0 (chain below left) tokens) (left : Expr) (tokens : List Token) :
    Local 0 (chainStep operator? operand chain levels left) tokens := by
  obtain ⟨symbol, p, rest, operator, rfl, hoperator⟩ | hend := symbol_cases operator? tokens
  · cases levels with
    | zero => exact local_at (.error .tooDeep) fun others => chainStep_tooDeep hoperator left p others
    | succ levels =>
      have hlt := Nat.lt_succ_self levels
      refine (((hoperand levels hlt rest).bind fun right => hchain levels hlt (.binary operator left right p)).cons
        fun others _ => ?_).loose
      exact chainStep_operator hoperator levels left p others
  · exact local_end (.ok left) fun others hhead => chainStep_end levels left (none_of_head? hend hhead)

/-! ### One rule after another

The rules of expressions are local, and an operand that begins with a variable or a number takes it. The rules call one
another as the parser's do, so the theorems do, too. -/

mutual

theorem local_expr (levels : Nat) (tokens : List Token) : Local (min levels (lead tokens)) (expr levels) tokens := by
  cases levels with
  | zero => exact (local_end (.error .tooDeep) fun others _ => by rw [expr]; rfl).mono (Nat.min_le_left _ _)
  | succ levels =>
    by_cases h : ∃ name p q rest, tokens = ⟨.var name, p⟩ :: ⟨.becomes, q⟩ :: rest
    · obtain ⟨name, p, q, rest, rfl⟩ := h
      have hvalue : Local 1 (fun tokens => expr (levels + 1) (⟨.var name, p⟩ :: tokens)) (⟨.becomes, q⟩ :: rest) :=
        ((local_expr levels rest).loose.bind fun value rest => local_ok (Expr.assign name value p) rest).cons
          fun others _ => by rw [expr]
      exact (hvalue.cons fun _ _ => rfl).mono (Nat.min_le_right _ _)
    · -- the second token counts only behind a variable, which the sum takes, so that it is the next one at most
      refine ((local_additive levels tokens).congr fun others htake => ?_).mono (Nat.min_le_right _ _)
      rw [expr]
      exact not_assignment htake fun name p q rest heq => h ⟨name, p, q, rest, heq⟩
  termination_by 7 * levels

theorem local_additive (levels : Nat) (tokens : List Token) : Local (lead tokens) (additive levels) tokens :=
  ((local_multiplicative levels tokens).bind (local_additiveChain levels)).congr fun others _ => by rw [additive]
  termination_by 7 * levels + 5

theorem local_additiveChain (levels : Nat) (left : Expr) (tokens : List Token) :
    Local 0 (additiveChain levels left) tokens :=
  (local_chainStep (fun below _ tokens => (local_multiplicative below tokens).loose)
    (fun below _ => local_additiveChain below) left tokens).congr fun others _ => additiveChain_eq levels left others
  termination_by 7 * levels

theorem local_multiplicative (levels : Nat) (tokens : List Token) :
    Local (lead tokens) (multiplicative levels) tokens :=
  ((local_unary levels tokens).bind (local_multiplicativeChain levels)).congr fun others _ => by rw [multiplicative]
  termination_by 7 * levels + 4

theorem local_multiplicativeChain (levels : Nat) (left : Expr) (tokens : List Token) :
    Local 0 (multiplicativeChain levels left) tokens :=
  (local_chainStep (fun below _ tokens => (local_unary below tokens).loose)
    (fun below _ => local_multiplicativeChain below) left tokens).congr
      fun others _ => multiplicativeChain_eq levels left others
  termination_by 7 * levels

theorem local_unary (levels : Nat) (tokens : List Token) : Local (lead tokens) (unary levels) tokens := by
  obtain ⟨symbol, p, rest, sign, rfl, hsign⟩ | hunsigned := symbol_cases sign? tokens
  · cases levels with
    | zero =>
      refine local_at (.error .tooDeep) fun others => ?_
      rw [unary]
      simp only [hsign]
      rfl
    | succ levels =>
      refine (((local_unary levels rest).loose.bind fun operand rest =>
        local_ok (Expr.signed sign operand p) rest).cons fun others _ => ?_).loose
      rw [unary]
      simp only [hsign]
  · refine (local_withBounds levels tokens).congr fun others htake => ?_
    exact unary_withBounds levels (none_of_head? hunsigned (head?_of_take htake))
  termination_by 7 * levels + 3

theorem local_withBounds (levels : Nat) (tokens : List Token) : Local (lead tokens) (withBounds levels) tokens :=
  ((local_primary levels tokens).bind (local_boundsChain levels)).congr fun others _ => by rw [withBounds]
  termination_by 7 * levels + 2

theorem local_boundsChain (levels : Nat) (operand : Expr) (tokens : List Token) :
    Local 0 (boundsChain levels operand) tokens := by
  by_cases h : ∃ p rest, tokens = ⟨.symbol .openBracket, p⟩ :: rest
  · obtain ⟨p, rest, rfl⟩ := h
    cases levels with
    | zero =>
      refine local_at (.error .tooDeep) fun others => ?_
      rw [boundsChain]
      rfl
    | succ levels =>
      have hhigh : ∀ minimum rest, Local 0 (fun tokens => openBound levels .closeBracket tokens >>= fun read =>
          sign .closeBracket read.2 >>= boundsChain levels (.bounded operand minimum read.1 p)) rest :=
        fun minimum rest => (local_openBound levels .closeBracket rest).bind fun maximum =>
          local_sign_bind .closeBracket (local_boundsChain levels (.bounded operand minimum maximum p))
      refine (((local_openBound levels .colon rest).bind fun minimum =>
        local_sign_bind .colon (hhigh minimum)).cons fun others _ => ?_).loose
      rw [boundsChain]
  · refine local_end (.ok operand) fun others hhead => ?_
    rw [boundsChain]
    · rfl
    · exact fun p => not_cons_of_head? hhead fun rest heq => h ⟨p, rest, heq⟩
  termination_by 7 * levels

theorem local_openBound (levels : Nat) (closing : Symbol) (tokens : List Token) :
    Local 0 (openBound levels closing) tokens := by
  by_cases h : ∃ p rest, tokens = ⟨.symbol closing, p⟩ :: rest
  · obtain ⟨p, rest, rfl⟩ := h
    refine local_at (.ok none) fun others => ?_
    rw [openBound, if_pos rfl]
    rfl
  · refine ((local_expr levels tokens).loose.bind fun bound => local_ok (some bound)).congr fun others htake => ?_
    exact openBound_expr levels fun p => not_cons_of_head? (head?_of_take htake) fun rest heq => h ⟨p, rest, heq⟩
  termination_by 7 * levels + 1

theorem local_primary (levels : Nat) (tokens : List Token) : Local (lead tokens) (primary levels) tokens := by
  fun_cases primary levels tokens with
  | case1 low high p rest =>
    have hspan := local_ok (Expr.roll (.span (Text.numeralValue low) (Text.numeralValue high)) p) rest
    exact (hspan.cons fun others _ => by rw [primary]).loose
  | case2 name p rest => exact (local_ok (Expr.var name p) rest).cons fun others _ => by rw [primary]
  | case3 p rest =>
    refine (((local_expr levels rest).loose.bind fun inner =>
      local_sign_bind .closeParen (local_ok inner)).cons fun others _ => ?_).loose
    rw [primary]
  -- a number, and the letter of a roll that makes it a count
  | case4 digits p _ q rest =>
    refine ((local_diceRoll (some (Text.numeralValue digits)) rest).roll p fun others => ?_).cons fun _ _ => rfl
    rw [primary]
  | case5 digits p _ q rest =>
    refine ((local_savageRoll (some (Text.numeralValue digits)) rest).roll p fun others => ?_).cons fun _ _ => rfl
    rw [primary]
  | case6 digits p _ q rest =>
    refine ((local_extrasRoll (some (Text.numeralValue digits)) rest).roll p fun others => ?_).cons fun _ _ => rfl
    rw [primary]
  | case7 digits p _ q rest =>
    have hweg := local_ok (Expr.roll (.weg (Text.numeralValue digits)) p) rest
    exact (hweg.cons fun others _ => by rw [primary]).cons fun _ _ => rfl
  | case8 digits p _ rest hd hs he hw =>
    refine (local_end (.ok (Expr.literal (Text.numeralValue digits) p)) fun _ _ => rfl).cons fun others hhead => ?_
    rw [primary]
    · rfl
    · exact fun q => not_cons_of_head? hhead (hd q)
    · exact fun q => not_cons_of_head? hhead (hs q)
    · exact fun q => not_cons_of_head? hhead (he q)
    · exact fun q => not_cons_of_head? hhead (hw q)
  -- a roll without a count
  | case9 p rest => exact ((local_diceRoll none rest).roll p fun others => by rw [primary]).loose
  | case10 p rest => exact ((local_savageRoll none rest).roll p fun others => by rw [primary]).loose
  | case11 p rest => exact ((local_extrasRoll none rest).roll p fun others => by rw [primary]).loose
  -- nothing that an operand begins with
  | case12 tokens hspan hvar hparen hnumber hd hs he =>
    rw [lead_eq_zero hvar hnumber]
    refine local_end (.error (.expected .operand)) fun others hhead => ?_
    rw [primary]
    · rfl
    · exact fun low high p => not_cons_of_head? hhead (hspan low high p)
    · exact fun name p => not_cons_of_head? hhead (hvar name p)
    · exact fun p => not_cons_of_head? hhead (hparen p)
    · exact fun digits p => not_cons_of_head? hhead (hnumber digits p)
    · exact fun p => not_cons_of_head? hhead (hd p)
    · exact fun p => not_cons_of_head? hhead (hs p)
    · exact fun p => not_cons_of_head? hhead (he p)
  termination_by 7 * levels + 1

end

/-! ## Statements and commands -/

/-- **Items with semicolons between them** are local if the items are. -/
theorem local_separated {item : List Token → Except Stop (α × List Token)}
    {list : List Token → Except Stop (β × List Token)} (one : α → β) (more : α → β → β)
    (hitem : ∀ tokens, Local 0 item tokens) (hleaves : ∀ tokens, Leaves tokens.length (item tokens))
    (hlist : ∀ tokens, list tokens = item tokens >>= afterItem one more list) (tokens : List Token) :
    Local 0 list tokens := by
  induction hlength : tokens.length using Nat.strongRecOn generalizing tokens with
  | ind length ih =>
    refine ((hitem tokens).next fun first rest hfirst => ?_).congr fun others _ => hlist others
    have hshorter := hleaves tokens first rest hfirst
    by_cases h : ∃ p others, rest = ⟨.symbol .semicolon, p⟩ :: others
    · obtain ⟨p, others, rfl⟩ := h
      rw [List.length_cons] at hshorter
      have hothers := ih others.length (by omega) others rfl
      exact ((hothers.bind fun last rest => local_ok (more first last) rest).cons fun _ _ => rfl).loose
    · refine local_end (.ok (one first)) fun others hhead => ?_
      rw [afterItem]
      · rfl
      · exact fun p => not_cons_of_head? hhead fun rest heq => h ⟨p, rest, heq⟩

theorem local_expressions (tokens : List Token) : Local 0 expressions tokens :=
  local_separated (fun first => [first]) List.cons (fun tokens => (local_expr maxNesting tokens).loose)
    (leaves_expr maxNesting) expressions_eq tokens

theorem local_repetition (count p : Nat) (tokens : List Token) : Local 0 (repetition count p) tokens := by
  refine local_choice (.symbol .openBracket) (fun rest => (local_expressions rest).bind fun batch rest =>
    local_sign_bind .closeBracket (local_ok (Statement.batch count batch p)) rest)
    (fun tokens => (local_expr maxNesting tokens).loose.bind fun repeated rest =>
      local_ok (Statement.times count repeated p) rest) (fun _ _ => rfl) (fun tokens hne => ?_) tokens
  rw [repetition]
  exact hne

theorem local_ironswornModifier (tokens : List Token) : Local 0 ironswornModifier tokens := by
  refine ironswornModifier.fun_cases (fun tokens => Local 0 ironswornModifier tokens)
    (fun symbol p rest sign hsign => ?_) (fun symbol p rest hsign => ?_) (fun tokens hne => ?_) tokens
  · refine (((local_unary maxNesting rest).bind fun modifier rest =>
      local_ok (some (sign, modifier)) rest).cons fun others _ => ?_).loose
    rw [ironswornModifier]; simp only [hsign]
  · refine local_at (.ok none) fun others => ?_
    rw [ironswornModifier]; simp only [hsign]; rfl
  · refine local_end (.ok none) fun others hhead => ?_
    rw [ironswornModifier]
    · rfl
    · exact fun symbol p => not_cons_of_head? hhead (hne symbol p)

/-- **A statement is local**: a number at its head is taken, as a count or by an expression. -/
theorem local_statement (tokens : List Token) : Local 0 statement tokens := by
  refine statement.fun_cases (fun tokens => Local 0 statement tokens) (fun digits p q rest => ?_) (fun p rest => ?_)
    (fun name p rest => ?_) ?_ (fun token rest hx hiron hflag => ?_) tokens
  · exact (((local_repetition (Text.numeralValue digits) p rest).cons fun _ _ => rfl).cons fun _ _ => rfl).loose
  · exact (((local_ironswornModifier rest).bind fun modifier rest =>
      local_ok (Statement.ironsworn modifier p) rest).cons fun _ _ => rfl).loose
  · exact ((local_ok (Statement.flag name p) rest).cons fun _ _ => rfl).loose
  · refine local_end (.error (.expected .expression)) fun others hhead => ?_
    rw [List.head?_eq_none_iff.1 hhead]
    rfl
  · refine Local.loose (((local_expr maxNesting (token :: rest)).bind fun rolled after =>
      local_ok (Statement.once rolled token.position) after).congr fun others htake => ?_)
    obtain ⟨more, rfl⟩ := cons_of_head? (head?_of_take htake)
    rw [statement]
    · rintro digits p q others rfl rfl
      obtain ⟨more, rfl⟩ := cons_of_head? (head?_of_take (n := 0) (List.cons.inj htake).2.symm)
      exact hx digits p q more rfl rfl
    · exact hiron
    · exact hflag

theorem local_command (tokens : List Token) : Local 0 command tokens :=
  local_separated (fun first => ⟨first, []⟩) (fun first command => ⟨first, command.statements⟩) local_statement
    leaves_statement command_eq tokens

end Command
end TabletopDice
