import TabletopDice.Command
import TabletopDice.SyntaxError
import TabletopDice.Text.Numeral
/-!
# Grammar — the language as rules for lists of tokens

    command        := statement (';' statement)*
    statement      := INT 'x' ('[' expr (';' expr)* ']' | expr) | 'iron' (('+'|'-') unary)? | FLAG | expr
    expr           := VAR ':=' expr | additive
    additive       := multiplicative (('+'|'-') multiplicative)*
    multiplicative := unary (('*'|'/'|'%') unary)*
    unary          := ('-'|'+') unary | bounds
    bounds         := primary ('[' expr? ':' expr? ']')*
    primary        := INT | VAR | '(' expr ')' | INT '--' INT | rolls

A rule says which list of tokens derives which tree, at whatever places the tokens stand, and measures the nesting of
the derivation. An expression costs one level more than its content. The `i`-th operator of a chain costs `i` levels
and its right operand stands below them, while the leftmost operand stands at the level of the chain; so do the bounds
after a primary. A sign costs one level, parentheses none but that of the expression inside.

Chains are read from their left end: a chain with one operator more extends a chain. The measure of a chain carries
the number of its operators.
-/
namespace TabletopDice
namespace Grammar

/-! ## Rolls -/

inductive Numeral : List Token → Nat → Prop
  | mk (digits : List Char) (p : Nat) : Numeral [⟨.number digits, p⟩] (Text.numeralValue digits)

/-- A letter and a numeral after it. -/
inductive Lettered (letter : Keyword) : List Token → Nat → Prop
  | mk (digits : List Char) (p q : Nat) :
      Lettered letter [⟨.keyword letter, p⟩, ⟨.number digits, q⟩] (Text.numeralValue digits)

/-- A phrase that may be missing. -/
inductive Optional {α : Type} (phrase : List Token → α → Prop) : List Token → Option α → Prop
  | missing : Optional phrase [] none
  | present {ts : List Token} {a : α} : phrase ts a → Optional phrase ts (some a)

inductive TargetPhrase : List Token → TargetSuffix → Prop
  | target {ts : List Token} {n : Nat} : Lettered .t ts n → TargetPhrase ts ⟨some n, none⟩
  | interval {ts : List Token} {n : Nat} : Lettered .r ts n → TargetPhrase ts ⟨none, some n⟩
  | both {ts us : List Token} {n m : Nat} : Lettered .t ts n → Lettered .r us m →
      TargetPhrase (ts ++ us) ⟨some n, some m⟩

/-- The keyword of a keep rule. -/
def keepWord : KeepRule → Keyword
  | .highest => .k
  | .lowest => .kl
  | .advantage => .adv
  | .disadvantage => .dis

inductive KeepPhrase : List Token → KeepSuffix → Prop
  | mk {ts : List Token} {count : Option Nat} (rule : KeepRule) (p : Nat) : Optional Numeral ts count →
      KeepPhrase (⟨.keyword (keepWord rule), p⟩ :: ts) ⟨rule, count⟩

inductive SuccessPhrase : List Token → SuccessSuffix → Prop
  | mk {ts us : List Token} {n : Nat} {m : Option Nat} : Lettered .s ts n → Optional (Lettered .f) us m →
      SuccessPhrase (ts ++ us) ⟨n, m⟩

/-- The suffixes of a generic roll, which may all be missing. -/
inductive ReadingPhrase : List Token → Reading → Prop
  | keep {ts us : List Token} {keep : KeepSuffix} {target : Option TargetSuffix} : KeepPhrase ts keep →
      Optional TargetPhrase us target → ReadingPhrase (ts ++ us) (.total (some keep) target)
  | success {ts : List Token} {suffix : SuccessSuffix} : SuccessPhrase ts suffix → ReadingPhrase ts (.successes suffix)
  | target {ts : List Token} {target : Option TargetSuffix} : Optional TargetPhrase ts target →
      ReadingPhrase ts (.total none target)

inductive FacesPhrase : List Token → Faces → Prop
  | sides {ts : List Token} {n : Nat} : Numeral ts n → FacesPhrase ts (.sides n)
  | percent (p : Nat) : FacesPhrase [⟨.symbol .percent, p⟩] .percent

inductive AcingMark : List Token → Bool → Prop
  | missing : AcingMark [] false
  | present (p : Nat) : AcingMark [⟨.symbol .bang, p⟩] true

/-- **The roll terms.** -/
inductive RollPhrase : List Token → Roll → Prop
  | generic {cs fs bs rs : List Token} {count : Option Nat} {faces : Faces} {acing : Bool} {reading : Reading}
      (p : Nat) : Optional Numeral cs count → FacesPhrase fs faces → AcingMark bs acing → ReadingPhrase rs reading →
      RollPhrase (cs ++ ⟨.keyword .d, p⟩ :: (fs ++ (bs ++ rs))) (.generic ⟨count, faces, acing, reading⟩)
  | fudge {cs : List Token} {count : Option Nat} (p q : Nat) : Optional Numeral cs count →
      RollPhrase (cs ++ [⟨.keyword .d, p⟩, ⟨.keyword .f, q⟩]) (.fudge count)
  | carcosa {cs : List Token} {count : Option Nat} (p q : Nat) : Optional Numeral cs count →
      RollPhrase (cs ++ [⟨.keyword .d, p⟩, ⟨.symbol .question, q⟩]) (.carcosa count)
  | savage {cs ts ws us : List Token} {count wild : Option Nat} {trait : Nat} {target : Option TargetSuffix} :
      Optional Numeral cs count → Lettered .s ts trait → Optional (Lettered .w) ws wild →
      Optional TargetPhrase us target → RollPhrase (cs ++ (ts ++ (ws ++ us))) (.savage ⟨count, trait, wild, target⟩)
  | extras {cs ts us : List Token} {count : Option Nat} {sides : Nat} {target : Option TargetSuffix} :
      Optional Numeral cs count → Lettered .e ts sides → Optional TargetPhrase us target →
      RollPhrase (cs ++ (ts ++ us)) (.extras ⟨count, sides, target⟩)
  | weg {cs : List Token} {count : Nat} (p : Nat) : Numeral cs count →
      RollPhrase (cs ++ [⟨.keyword .w, p⟩]) (.weg count)
  | span (low high : List Char) (p : Nat) :
      RollPhrase [⟨.span low high, p⟩] (.span (Text.numeralValue low) (Text.numeralValue high))

/-! ## Expressions -/

/-- The signs between the operands of a sum. -/
inductive SumSign : Symbol → BinaryOperator → Prop
  | plus : SumSign .plus .add
  | minus : SumSign .minus .subtract

/-- The signs between the operands of a product. -/
inductive ProductSign : Symbol → BinaryOperator → Prop
  | times : ProductSign .times .multiply
  | slash : ProductSign .slash .divide
  | percent : ProductSign .percent .remainder

/-- The signs before an operand. -/
inductive PrefixSign : Symbol → Sign → Prop
  | plus : PrefixSign .plus .plus
  | minus : PrefixSign .minus .minus

/-- The rules for expressions; a chain carries the number of its operators or bounds. -/
inductive Rule
  | expr
  | additive (operators : Nat)
  | multiplicative (operators : Nat)
  | unary
  | bounds (count : Nat)
  | primary

/-- **The tokens that derive an expression by a rule**, and the nesting of the derivation. -/
inductive Derives : Rule → List Token → Expr → Nat → Prop
  | assignment {ts : List Token} {e : Expr} {n : Nat} (name : String) (p q : Nat) : Derives .expr ts e n →
      Derives .expr (⟨.var name, p⟩ :: ⟨.becomes, q⟩ :: ts) (.assign name e p) (n + 1)
  | sum {ts : List Token} {e : Expr} {k n : Nat} : Derives (.additive k) ts e n → Derives .expr ts e (n + 1)
  | oneTerm {ts : List Token} {e : Expr} {k n : Nat} : Derives (.multiplicative k) ts e n →
      Derives (.additive 0) ts e n
  | moreTerms {ts us : List Token} {l r : Expr} {k j m n : Nat} {s : Symbol} {op : BinaryOperator} (p : Nat) :
      Derives (.additive k) ts l m → SumSign s op → Derives (.multiplicative j) us r n →
      Derives (.additive (k + 1)) (ts ++ ⟨.symbol s, p⟩ :: us) (.binary op l r p) (max m (k + 1 + n))
  | oneFactor {ts : List Token} {e : Expr} {n : Nat} : Derives .unary ts e n → Derives (.multiplicative 0) ts e n
  | moreFactors {ts us : List Token} {l r : Expr} {k m n : Nat} {s : Symbol} {op : BinaryOperator} (p : Nat) :
      Derives (.multiplicative k) ts l m → ProductSign s op → Derives .unary us r n →
      Derives (.multiplicative (k + 1)) (ts ++ ⟨.symbol s, p⟩ :: us) (.binary op l r p) (max m (k + 1 + n))
  | signed {ts : List Token} {e : Expr} {n : Nat} {s : Symbol} {sign : Sign} (p : Nat) : PrefixSign s sign →
      Derives .unary ts e n → Derives .unary (⟨.symbol s, p⟩ :: ts) (.signed sign e p) (n + 1)
  | unsigned {ts : List Token} {e : Expr} {k n : Nat} : Derives (.bounds k) ts e n → Derives .unary ts e n
  | noBounds {ts : List Token} {e : Expr} {n : Nat} : Derives .primary ts e n → Derives (.bounds 0) ts e n
  | unbounded {ts : List Token} {e : Expr} {k m : Nat} (p q r : Nat) : Derives (.bounds k) ts e m →
      Derives (.bounds (k + 1)) (ts ++ [⟨.symbol .openBracket, p⟩, ⟨.symbol .colon, q⟩, ⟨.symbol .closeBracket, r⟩])
        (.unbounded e p) (max m (k + 1))
  | atLeast {ts us : List Token} {e low : Expr} {k m n : Nat} (p q r : Nat) : Derives (.bounds k) ts e m →
      Derives .expr us low n →
      Derives (.bounds (k + 1))
        (ts ++ ⟨.symbol .openBracket, p⟩ :: (us ++ [⟨.symbol .colon, q⟩, ⟨.symbol .closeBracket, r⟩]))
        (.atLeast e low p) (max m (k + 1 + n))
  | atMost {ts us : List Token} {e high : Expr} {k m n : Nat} (p q r : Nat) : Derives (.bounds k) ts e m →
      Derives .expr us high n →
      Derives (.bounds (k + 1))
        (ts ++ ⟨.symbol .openBracket, p⟩ :: ⟨.symbol .colon, q⟩ :: (us ++ [⟨.symbol .closeBracket, r⟩]))
        (.atMost e high p) (max m (k + 1 + n))
  | between {ts us vs : List Token} {e low high : Expr} {k m n o : Nat} (p q r : Nat) : Derives (.bounds k) ts e m →
      Derives .expr us low n → Derives .expr vs high o →
      Derives (.bounds (k + 1))
        (ts ++ ⟨.symbol .openBracket, p⟩ :: (us ++ ⟨.symbol .colon, q⟩ :: (vs ++ [⟨.symbol .closeBracket, r⟩])))
        (.between e low high p) (max m (k + 1 + max n o))
  | literal (digits : List Char) (p : Nat) :
      Derives .primary [⟨.number digits, p⟩] (.literal (Text.numeralValue digits) p) 0
  | var (name : String) (p : Nat) : Derives .primary [⟨.var name, p⟩] (.var name p) 0
  | parentheses {ts : List Token} {e : Expr} {n : Nat} (p q : Nat) : Derives .expr ts e n →
      Derives .primary (⟨.symbol .openParen, p⟩ :: (ts ++ [⟨.symbol .closeParen, q⟩])) e n
  | roll {t : Token} {ts : List Token} {term : Roll} : RollPhrase (t :: ts) term →
      Derives .primary (t :: ts) (.roll term t.position) 0

/-! ## Statements and commands -/

/-- Expressions with semicolons between them; their nesting is that of the deepest. -/
inductive DerivesAll : List Token → List Expr → Nat → Prop
  | one {ts : List Token} {e : Expr} {n : Nat} : Derives .expr ts e n → DerivesAll ts [e] n
  | more {ts us : List Token} {e : Expr} {es : List Expr} {m n : Nat} (p : Nat) : Derives .expr ts e m →
      DerivesAll us es n → DerivesAll (ts ++ ⟨.symbol .semicolon, p⟩ :: us) (e :: es) (max m n)

/-- **The tokens that derive a statement**, and the nesting of its expressions. -/
inductive DerivesStatement : List Token → Statement → Nat → Prop
  | times {ts : List Token} {e : Expr} {n : Nat} (digits : List Char) (p q : Nat) : Derives .expr ts e n →
      DerivesStatement (⟨.number digits, p⟩ :: ⟨.keyword .x, q⟩ :: ts) (.times (Text.numeralValue digits) e p) n
  | batch {ts : List Token} {es : List Expr} {n : Nat} (digits : List Char) (p q r s : Nat) : DerivesAll ts es n →
      DerivesStatement
        (⟨.number digits, p⟩ :: ⟨.keyword .x, q⟩ :: ⟨.symbol .openBracket, r⟩ :: (ts ++ [⟨.symbol .closeBracket, s⟩]))
        (.batch (Text.numeralValue digits) es p) n
  | ironsworn (p : Nat) : DerivesStatement [⟨.keyword .iron, p⟩] (.ironsworn none p) 0
  | modified {ts : List Token} {e : Expr} {n : Nat} {s : Symbol} {sign : Sign} (p q : Nat) : PrefixSign s sign →
      Derives .unary ts e n →
      DerivesStatement (⟨.keyword .iron, p⟩ :: ⟨.symbol s, q⟩ :: ts) (.ironsworn (some (sign, e)) p) n
  | flag (name : String) (p : Nat) : DerivesStatement [⟨.flag name, p⟩] (.flag name p) 0
  | once {t : Token} {ts : List Token} {e : Expr} {n : Nat} : Derives .expr (t :: ts) e n →
      DerivesStatement (t :: ts) (.once e t.position) n

/-- **The tokens that derive a command**, and the nesting of its statements. -/
inductive DerivesCommand : List Token → Command → Nat → Prop
  | one {ts : List Token} {s : Statement} {n : Nat} : DerivesStatement ts s n → DerivesCommand ts ⟨s, []⟩ n
  | more {ts us : List Token} {s : Statement} {command : Command} {m n : Nat} (p : Nat) : DerivesStatement ts s m →
      DerivesCommand us command n →
      DerivesCommand (ts ++ ⟨.symbol .semicolon, p⟩ :: us) ⟨s, command.statements⟩ (max m n)

/-! ## Trees -/

/-- A tree that derives, as an expression or as an operand, from some of the tokens within a number of levels. -/
def DerivesFrom (tokens : List Token) (n : Nat) (e : Expr) : Prop :=
  ∃ rule ts m, (rule = .expr ∨ rule = .unary) ∧ Derives rule ts e m ∧ m ≤ n ∧ ∀ t ∈ ts, t ∈ tokens

theorem DerivesFrom.mono {small large : List Token} {m n : Nat} {e : Expr} (h : DerivesFrom small m e) (hle : m ≤ n)
    (hsub : ∀ t ∈ small, t ∈ large) : DerivesFrom large n e := by
  obtain ⟨rule, ts, o, hrule, hts, ho, hmem⟩ := h
  exact ⟨rule, ts, o, hrule, hts, Nat.le_trans ho hle, fun t ht => hsub t (hmem t ht)⟩

theorem Derives.derivesFrom {ts : List Token} {e : Expr} {n : Nat} (h : Derives .expr ts e n) : DerivesFrom ts n e :=
  ⟨.expr, ts, n, .inl rfl, h, Nat.le_refl n, fun _ ht => ht⟩

theorem DerivesAll.trees {ts : List Token} {es : List Expr} {n : Nat} (h : DerivesAll ts es n) :
    ∀ e ∈ es, DerivesFrom ts n e := by
  induction h with
  | one h =>
    intro e he
    rw [List.mem_singleton.1 he]
    exact h.derivesFrom
  | more p h _ ih =>
    intro e he
    rcases List.mem_cons.1 he with rfl | he
    · exact h.derivesFrom.mono (by omega) fun t ht => List.mem_append_left _ ht
    · exact (ih e he).mono (by omega) fun t ht => List.mem_append_right _ (List.mem_cons_of_mem _ ht)

theorem DerivesStatement.trees {ts : List Token} {s : Statement} {n : Nat} (h : DerivesStatement ts s n) :
    ∀ e ∈ s.trees, DerivesFrom ts n e := by
  cases h with
  | ironsworn | flag => exact fun e he => absurd he List.not_mem_nil
  | times digits p q h =>
    intro e he
    rw [List.mem_singleton.1 he]
    exact h.derivesFrom.mono (Nat.le_refl n) fun t ht => List.mem_cons_of_mem _ (List.mem_cons_of_mem _ ht)
  | batch digits p q r c h =>
    intro e he
    refine (h.trees e he).mono (Nat.le_refl n) fun t ht => ?_
    simp [ht]
  | @modified ts e n s sign p q hs h =>
    intro e he
    rw [List.mem_singleton.1 he]
    exact ⟨.unary, ts, n, .inr rfl, h, Nat.le_refl n, fun t ht => List.mem_cons_of_mem _ (List.mem_cons_of_mem _ ht)⟩
  | once h =>
    intro e he
    rw [List.mem_singleton.1 he]
    exact h.derivesFrom

/-- **Every expression of a command derives from tokens of the command**, within its nesting. -/
theorem DerivesCommand.trees {ts : List Token} {c : Command} {n : Nat} (h : DerivesCommand ts c n) :
    ∀ e ∈ c.trees, DerivesFrom ts n e := by
  induction h with
  | one h =>
    intro e he
    rw [Command.trees, Command.statements, List.flatMap_cons, List.flatMap_nil, List.append_nil] at he
    exact h.trees e he
  | more p h _ ih =>
    intro e he
    rw [Command.trees, Command.statements, List.flatMap_cons] at he
    rcases List.mem_append.1 he with he | he
    · exact (h.trees e he).mono (by omega) fun t ht => List.mem_append_left _ ht
    · exact (ih e he).mono (by omega) fun t ht => List.mem_append_right _ (List.mem_cons_of_mem _ ht)

end Grammar
end TabletopDice
