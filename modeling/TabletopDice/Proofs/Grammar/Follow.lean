import TabletopDice.Proofs.Grammar
/-!
# Follow — the tokens at the two ends of a phrase

One token tells a phrase from what comes after it: an expression starts with one of a few lexemes, and after an
expression, a sum, a product or an operand stands the end or one of a few signs. These sets of signs grow from the
looser to the tighter rules.
-/
namespace TabletopDice
namespace Grammar

/-- **What may stand after a phrase**: the end of the tokens, or a sign that is allowed there. -/
inductive Follow (allowed : Symbol → Bool) : List Token → Prop
  | nothing : Follow allowed []
  | sign {s : Symbol} {p : Nat} {ts : List Token} : allowed s = true → Follow allowed (⟨.symbol s, p⟩ :: ts)

theorem Follow.mono {small large : Symbol → Bool} {ts : List Token} (h : Follow small ts)
    (hle : ∀ s, small s = true → large s = true) : Follow large ts := by
  cases h with
  | nothing => exact .nothing
  | sign hs => exact .sign (hle _ hs)

/-- A sign that is not allowed does not stand there. -/
theorem Follow.not_sign {allowed : Symbol → Bool} {ts : List Token} (h : Follow allowed ts) {s : Symbol}
    (hs : allowed s = false) (p : Nat) (rest : List Token) (heq : ts = ⟨.symbol s, p⟩ :: rest) : False := by
  subst heq
  cases h with
  | sign hallowed => exact Bool.noConfusion (hs.symm.trans hallowed)

/-- **The lexeme that tokens start with**, if there are any, is one of those that are allowed. -/
def Starts (allowed : Lexeme → Bool) (ts : List Token) : Prop := ∀ t ∈ ts.head?, allowed t.lexeme = true

/-- Tokens do not start with a lexeme that is not allowed. -/
theorem Starts.not_cons {allowed : Lexeme → Bool} {ts : List Token} (h : Starts allowed ts) {lexeme : Lexeme}
    (hlexeme : allowed lexeme = false) (p : Nat) (rest : List Token) (heq : ts = ⟨lexeme, p⟩ :: rest) : False :=
  Bool.noConfusion (hlexeme.symm.trans (h ⟨lexeme, p⟩ (heq ▸ rfl)))

def anySign (_ : Symbol) : Bool := true

def afterExpr : Symbol → Bool
  | .closeParen | .closeBracket | .colon | .semicolon => true
  | _ => false

def afterTerm : Symbol → Bool
  | .plus | .minus => true
  | s => afterExpr s

def afterFactor : Symbol → Bool
  | .times | .slash | .percent => true
  | s => afterTerm s

def afterPrimary : Symbol → Bool
  | .openBracket => true
  | s => afterFactor s

theorem Follow.any {allowed : Symbol → Bool} {ts : List Token} (h : Follow allowed ts) : Follow anySign ts :=
  h.mono fun _ _ => rfl

theorem Follow.term {ts : List Token} (h : Follow afterExpr ts) : Follow afterTerm ts :=
  h.mono fun s hs => by cases s <;> first | rfl | cases hs

theorem Follow.factor {ts : List Token} (h : Follow afterTerm ts) : Follow afterFactor ts :=
  h.mono fun s hs => by cases s <;> first | rfl | cases hs

theorem Follow.primary {ts : List Token} (h : Follow afterFactor ts) : Follow afterPrimary ts :=
  h.mono fun s hs => by cases s <;> first | rfl | cases hs

/-- The lexemes that start an expression. -/
def startsExpr : Lexeme → Bool
  | .number _ | .span _ _ | .var _ => true
  | .keyword .d | .keyword .s | .keyword .e => true
  | .symbol .plus | .symbol .minus | .symbol .openParen => true
  | _ => false

/-- The tokens start as an expression does, and not with a count of repetitions. -/
def opensExpr : List Token → Bool
  | ⟨.number _, _⟩ :: ⟨.keyword .x, _⟩ :: _ => false
  | t :: _ => startsExpr t.lexeme
  | [] => false

/-- The tokens start with an assignment. -/
def opensAssignment : List Token → Bool
  | ⟨.var _, _⟩ :: rest => (rest.head?.map Token.lexeme) == some .becomes
  | _ => false

/-- The tokens start with a sign before an operand. -/
def opensSigned : List Token → Bool
  | ⟨.symbol .plus, _⟩ :: _ | ⟨.symbol .minus, _⟩ :: _ => true
  | _ => false

theorem opensExpr_number {digits : List Char} {p : Nat} {rest : List Token} (h : Follow anySign rest) :
    opensExpr (⟨.number digits, p⟩ :: rest) = true := by
  cases h <;> rfl

theorem RollPhrase.opens {ts rest : List Token} {term : Roll} (h : RollPhrase ts term) :
    opensExpr (ts ++ rest) = true ∧ opensAssignment (ts ++ rest) = false ∧ opensSigned (ts ++ rest) = false := by
  cases h with
  | generic p hc | fudge p q hc | carcosa p q hc =>
    cases hc with
    | missing => exact ⟨rfl, rfl, rfl⟩
    | present hn => cases hn; exact ⟨rfl, rfl, rfl⟩
  | savage hc ht | extras hc ht =>
    cases ht
    cases hc with
    | missing => exact ⟨rfl, rfl, rfl⟩
    | present hn => cases hn; exact ⟨rfl, rfl, rfl⟩
  | weg p hn => cases hn; exact ⟨rfl, rfl, rfl⟩
  | span low high p => exact ⟨rfl, rfl, rfl⟩

/-- **The first tokens of an expression tell it from every other statement**, whatever sign follows it. -/
theorem Derives.opens {rule : Rule} {ts : List Token} {e : Expr} {n : Nat} (h : Derives rule ts e n) :
    ∀ {rest : List Token}, Follow anySign rest → opensExpr (ts ++ rest) = true := by
  induction h with
  | assignment | parentheses => exact fun _ => rfl
  | var => intro rest h; cases h <;> rfl
  | signed p hs => cases hs <;> exact fun _ => rfl
  | sum _ ih | oneTerm _ ih | oneFactor _ ih | unsigned _ ih | noBounds _ ih => exact ih
  | moreTerms p _ _ _ ih | moreFactors p _ _ _ ih | unbounded p _ _ _ ih | atLeast p _ _ _ _ ih
  | atMost p _ _ _ _ ih | between p _ _ _ _ _ ih =>
    intro rest _
    rw [List.append_assoc]
    exact ih (.sign rfl)
  | literal => exact opensExpr_number
  | roll hr => exact fun _ => hr.opens.1

theorem Derives.opens_of_eq {rule : Rule} {ts rest us : List Token} {e : Expr} {n : Nat} (h : Derives rule ts e n)
    (hrest : Follow anySign rest) (heq : us = ts ++ rest) : opensExpr us = true := by
  rw [heq]
  exact h.opens hrest

theorem Derives.not_nil {rule : Rule} {e : Expr} {n : Nat} (h : Derives rule [] e n) : False :=
  Bool.noConfusion (h.opens .nothing)

/-- **Only an expression is an assignment**; no other rule derives tokens that start like one. -/
theorem Derives.not_opensAssignment {rule : Rule} {ts : List Token} {e : Expr} {n : Nat} (h : Derives rule ts e n) :
    ∀ {rest : List Token}, rule ≠ .expr → Follow anySign rest → opensAssignment (ts ++ rest) = false := by
  induction h with
  | assignment | sum => exact fun hne _ => absurd rfl hne
  | parentheses => exact fun _ _ => rfl
  | var | literal => intro rest _ h; cases h <;> rfl
  | signed => exact fun _ _ => rfl
  | oneTerm _ ih | oneFactor _ ih | unsigned _ ih | noBounds _ ih => exact fun _ => ih (by simp)
  | moreTerms p _ _ _ ih | moreFactors p _ _ _ ih | unbounded p _ _ _ ih | atLeast p _ _ _ _ ih
  | atMost p _ _ _ _ ih | between p _ _ _ _ _ ih =>
    intro rest _ _
    rw [List.append_assoc]
    exact ih (by simp) (.sign rfl)
  | roll hr => exact fun _ _ => hr.opens.2.1

theorem Derives.primary_not_opensSigned {ts : List Token} {e : Expr} {n : Nat} (h : Derives .primary ts e n)
    (rest : List Token) : opensSigned (ts ++ rest) = false := by
  cases h with
  | literal | var | parentheses => rfl
  | roll hr => exact hr.opens.2.2

/-- **Only an operand with signs starts with a sign**, one with bounds does not. -/
theorem Derives.bounds_not_opensSigned {ts : List Token} {e : Expr} {n : Nat} : ∀ {k : Nat},
    Derives (.bounds k) ts e n → ∀ rest, opensSigned (ts ++ rest) = false
  | 0, .noBounds h, rest => h.primary_not_opensSigned rest
  | _ + 1, .unbounded p q r h, rest => by rw [List.append_assoc]; exact h.bounds_not_opensSigned _
  | _ + 1, .atLeast p q r h hlow, rest => by rw [List.append_assoc]; exact h.bounds_not_opensSigned _
  | _ + 1, .atMost p q r h hhigh, rest => by rw [List.append_assoc]; exact h.bounds_not_opensSigned _
  | _ + 1, .between p q r h hlow hhigh, rest => by rw [List.append_assoc]; exact h.bounds_not_opensSigned _

end Grammar
end TabletopDice
