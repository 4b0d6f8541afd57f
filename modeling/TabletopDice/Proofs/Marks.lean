import TabletopDice.Proofs.Places
import TabletopDice.Token
/-!
# Marks — what a tree keeps of its tokens

A tree does not keep its parentheses, the places of its tokens and the digits of its numerals, and keeps everything
else in order. Whatever tokens a command derives from, they are the same but for that (`DerivesCommand.marks`), so two
texts that are the same command at other places have the same marks.
-/
namespace TabletopDice

/-- What a lexeme says to a tree: a numeral its value, a name itself. -/
inductive Mark
  | number (value : Nat)
  | span (low high : Nat)
  | var (name : String)
  | flag (name : String)
  | becomes
  | keyword (word : Keyword)
  | lookalike (text : String)
  | symbol (sign : Symbol)
  deriving DecidableEq, Repr

/-- **The mark of a lexeme**; parentheses have none. -/
def Lexeme.mark? : Lexeme → Option Mark
  | number digits => some (.number (Text.numeralValue digits))
  | span low high => some (.span (Text.numeralValue low) (Text.numeralValue high))
  | var name => some (.var name)
  | flag name => some (.flag name)
  | becomes => some .becomes
  | keyword word => some (.keyword word)
  | lookalike text => some (.lookalike text)
  | symbol .openParen | symbol .closeParen => none
  | symbol sign => some (.symbol sign)

/-- **The marks of tokens.** -/
def marksOf (tokens : List Token) : List Mark := tokens.filterMap fun token => token.lexeme.mark?

/-! ## The marks of a tree -/

/-- A number that may be missing. -/
def numberMarks : Option Nat → List Mark
  | none => []
  | some n => [.number n]

/-- A letter and a number, which may both be missing. -/
def letteredMarks (letter : Keyword) : Option Nat → List Mark
  | none => []
  | some n => [.keyword letter, .number n]

def TargetSuffix.marks (suffix : TargetSuffix) : List Mark :=
  letteredMarks .t suffix.target ++ letteredMarks .r suffix.interval

/-- A target suffix that may be missing. -/
def targetMarks : Option TargetSuffix → List Mark
  | none => []
  | some suffix => suffix.marks

def KeepSuffix.marks (suffix : KeepSuffix) : List Mark :=
  .keyword (Grammar.keepWord suffix.rule) :: numberMarks suffix.count

def SuccessSuffix.marks (suffix : SuccessSuffix) : List Mark :=
  letteredMarks .s (some suffix.threshold) ++ letteredMarks .f suffix.failure

def Reading.marks : Reading → List Mark
  | total none target => targetMarks target
  | total (some keep) target => keep.marks ++ targetMarks target
  | successes suffix => suffix.marks

def Faces.marks : Faces → List Mark
  | sides count => [.number count]
  | percent => [.symbol .percent]

/-- The mark of an acing roll. -/
def acingMarks (acing : Bool) : List Mark := if acing then [.symbol .bang] else []

/-- **The marks of a roll term.** -/
def Roll.marks : Roll → List Mark
  | generic roll =>
    numberMarks roll.count ++ .keyword .d :: (roll.faces.marks ++ (acingMarks roll.acing ++ roll.reading.marks))
  | savage roll =>
    numberMarks roll.count ++ (letteredMarks .s (some roll.traitSides) ++
      (letteredMarks .w roll.wildSides ++ targetMarks roll.target))
  | extras roll => numberMarks roll.count ++ (letteredMarks .e (some roll.sides) ++ targetMarks roll.target)
  | fudge count => numberMarks count ++ [.keyword .d, .keyword .f]
  | carcosa count => numberMarks count ++ [.keyword .d, .symbol .question]
  | weg count => [.number count, .keyword .w]
  | span low high => [.span low high]

/-- The sign that writes an operator. -/
def BinaryOperator.sign : BinaryOperator → Symbol
  | add => .plus
  | subtract => .minus
  | multiply => .times
  | divide => .slash
  | remainder => .percent

/-- The sign that writes a sign. -/
def Sign.sign : Sign → TabletopDice.Symbol
  | plus => .plus
  | minus => .minus

/-- **The marks of an expression.** -/
def Expr.marks : Expr → List Mark
  | literal value _ => [.number value]
  | var name _ => [.var name]
  | roll term _ => term.marks
  | signed sign operand _ => .symbol sign.sign :: operand.marks
  | binary operator left right _ => left.marks ++ .symbol operator.sign :: right.marks
  | unbounded operand _ => operand.marks ++ [.symbol .openBracket, .symbol .colon, .symbol .closeBracket]
  | atLeast operand minimum _ =>
    operand.marks ++ .symbol .openBracket :: (minimum.marks ++ [.symbol .colon, .symbol .closeBracket])
  | atMost operand maximum _ =>
    operand.marks ++ .symbol .openBracket :: .symbol .colon :: (maximum.marks ++ [.symbol .closeBracket])
  | between operand minimum maximum _ =>
    operand.marks ++ .symbol .openBracket :: (minimum.marks ++ .symbol .colon :: (maximum.marks ++
      [.symbol .closeBracket]))
  | assign name value _ => .var name :: .becomes :: value.marks

/-- Marks with semicolons between them. -/
def joinedMarks (marks : List (List Mark)) : List Mark := [Mark.symbol .semicolon].intercalate marks

/-- **The marks of a statement.** -/
def Statement.marks : Statement → List Mark
  | once expression _ => expression.marks
  | times count expression _ => .number count :: .keyword .x :: expression.marks
  | batch count expressions _ =>
    .number count :: .keyword .x :: .symbol .openBracket :: (joinedMarks (expressions.map Expr.marks) ++
      [.symbol .closeBracket])
  | ironsworn none _ => [.keyword .iron]
  | ironsworn (some (sign, modifier)) _ => .keyword .iron :: .symbol sign.sign :: modifier.marks
  | flag name _ => [.flag name]

/-- **The marks of a command.** -/
def Command.marks (command : Command) : List Mark := joinedMarks (command.statements.map Statement.marks)

/-! ## A tree has the marks of its tokens -/

@[simp] theorem marksOf_nil : marksOf [] = [] := rfl

@[simp] theorem marksOf_append (ts us : List Token) : marksOf (ts ++ us) = marksOf ts ++ marksOf us :=
  List.filterMap_append

@[simp] theorem marksOf_cons (t : Token) (ts : List Token) : marksOf (t :: ts) = t.lexeme.mark?.toList ++ marksOf ts := by
  cases h : t.lexeme.mark? <;> simp [marksOf, h]

theorem joinedMarks_singleton (marks : List Mark) : joinedMarks [marks] = marks := by simp [joinedMarks]

theorem joinedMarks_cons (marks : List Mark) {others : List (List Mark)} (h : others ≠ []) :
    joinedMarks (marks :: others) = marks ++ .symbol .semicolon :: joinedMarks others := by
  obtain ⟨next, rest, rfl⟩ := List.exists_cons_of_ne_nil h
  simp [joinedMarks, List.intercalate_cons_cons]

namespace Grammar

variable {ts : List Token} {n : Nat}

theorem Numeral.marks (h : Numeral ts n) : marksOf ts = [.number n] := by
  cases h
  rfl

theorem Lettered.marks {letter : Keyword} (h : Lettered letter ts n) : marksOf ts = letteredMarks letter (some n) := by
  cases h
  rfl

theorem Optional.marks {α : Type} {phrase : List Token → α → Prop} {marks : Option α → List Mark} {found : Option α}
    (hphrase : ∀ {ts : List Token} {a : α}, phrase ts a → marksOf ts = marks (some a)) (hnone : marks none = [])
    (h : Optional phrase ts found) : marksOf ts = marks found := by
  cases h with
  | missing => rw [hnone, marksOf_nil]
  | present h => exact hphrase h

theorem TargetPhrase.marks {target : TargetSuffix} (h : TargetPhrase ts target) : marksOf ts = target.marks := by
  cases h with
  | target h => rw [h.marks, TargetSuffix.marks, letteredMarks, letteredMarks, List.append_nil]
  | interval h => rw [h.marks, TargetSuffix.marks, letteredMarks, letteredMarks, List.nil_append]
  | both h h' => rw [marksOf_append, h.marks, h'.marks, TargetSuffix.marks]

theorem optionalNumeral_marks {count : Option Nat} (h : Optional Numeral ts count) : marksOf ts = numberMarks count :=
  h.marks Numeral.marks rfl

theorem optionalLettered_marks {letter : Keyword} {count : Option Nat} (h : Optional (Lettered letter) ts count) :
    marksOf ts = letteredMarks letter count :=
  h.marks Lettered.marks rfl

theorem optionalTarget_marks {target : Option TargetSuffix} (h : Optional TargetPhrase ts target) :
    marksOf ts = targetMarks target :=
  h.marks TargetPhrase.marks rfl

theorem KeepPhrase.marks {keep : KeepSuffix} (h : KeepPhrase ts keep) : marksOf ts = keep.marks := by
  obtain ⟨rule, p, hcount⟩ := h
  rw [marksOf_cons, optionalNumeral_marks hcount]
  rfl

theorem ReadingPhrase.marks {reading : Reading} (h : ReadingPhrase ts reading) : marksOf ts = reading.marks := by
  cases h with
  | keep h h' => rw [marksOf_append, h.marks, optionalTarget_marks h', Reading.marks]
  | success h =>
    obtain ⟨h, h'⟩ := h
    rw [marksOf_append, h.marks, optionalLettered_marks h', Reading.marks, SuccessSuffix.marks]
  | target h => rw [optionalTarget_marks h, Reading.marks]

theorem FacesPhrase.marks {faces : Faces} (h : FacesPhrase ts faces) : marksOf ts = faces.marks := by
  cases h with
  | sides h => exact h.marks
  | percent p => rfl

theorem AcingMark.marks {acing : Bool} (h : AcingMark ts acing) : marksOf ts = acingMarks acing := by
  cases h <;> rfl

/-- **A roll term has the marks of its tokens.** -/
theorem RollPhrase.marks {term : Roll} (h : RollPhrase ts term) : marksOf ts = term.marks := by
  cases h with
  | generic p hc hf hb hr => simp [optionalNumeral_marks hc, hf.marks, hb.marks, hr.marks, Roll.marks, Lexeme.mark?]
  | fudge p q hc => simp [optionalNumeral_marks hc, Roll.marks, Lexeme.mark?]
  | carcosa p q hc => simp [optionalNumeral_marks hc, Roll.marks, Lexeme.mark?]
  | savage hc ht hw hu =>
    simp [optionalNumeral_marks hc, ht.marks, optionalLettered_marks hw, optionalTarget_marks hu, Roll.marks]
  | extras hc ht hu => simp [optionalNumeral_marks hc, ht.marks, optionalTarget_marks hu, Roll.marks]
  | weg p hc => simp [hc.marks, Roll.marks, Lexeme.mark?]
  | span low high p => rfl

theorem SumSign.mark {s : Symbol} {operator : BinaryOperator} (h : SumSign s operator) :
    Lexeme.mark? (.symbol s) = some (.symbol operator.sign) := by
  cases h <;> rfl

theorem ProductSign.mark {s : Symbol} {operator : BinaryOperator} (h : ProductSign s operator) :
    Lexeme.mark? (.symbol s) = some (.symbol operator.sign) := by
  cases h <;> rfl

theorem PrefixSign.mark {s : Symbol} {sign : Sign} (h : PrefixSign s sign) :
    Lexeme.mark? (.symbol s) = some (.symbol sign.sign) := by
  cases h <;> rfl

/-- **An expression has the marks of its tokens**: parentheses have none, and every other token says something. -/
theorem Derives.marks {rule : Rule} {e : Expr} (h : Derives rule ts e n) : marksOf ts = e.marks := by
  induction h with
  | assignment name p q _ ih => simp [ih, Expr.marks, Lexeme.mark?]
  | sum _ ih | oneTerm _ ih | oneFactor _ ih | unsigned _ ih | noBounds _ ih => exact ih
  | moreTerms p _ hs _ ih ih' => simp [ih, ih', hs.mark, Expr.marks]
  | moreFactors p _ hs _ ih ih' => simp [ih, ih', hs.mark, Expr.marks]
  | signed p hs _ ih => simp [ih, hs.mark, Expr.marks]
  | unbounded p q r _ ih => simp [ih, Expr.marks, Lexeme.mark?]
  | atLeast p q r _ _ ih ih' => simp [ih, ih', Expr.marks, Lexeme.mark?]
  | atMost p q r _ _ ih ih' => simp [ih, ih', Expr.marks, Lexeme.mark?]
  | between p q r _ _ _ ih ih' ih'' => simp [ih, ih', ih'', Expr.marks, Lexeme.mark?]
  | literal digits p => rfl
  | var name p => rfl
  | parentheses p q _ ih => simp [ih, Lexeme.mark?]
  | roll h => exact h.marks

theorem DerivesAll.marks {es : List Expr} (h : DerivesAll ts es n) : marksOf ts = joinedMarks (es.map Expr.marks) := by
  induction h with
  | one h => rw [h.marks, List.map_singleton, joinedMarks_singleton]
  | @more ts us e es m n p h hmore ih =>
    have hne : es.map Expr.marks ≠ [] := by cases hmore <;> simp
    rw [List.map_cons, joinedMarks_cons _ hne, marksOf_append, marksOf_cons, h.marks, ih]
    rfl

theorem DerivesStatement.marks {s : Statement} (h : DerivesStatement ts s n) : marksOf ts = s.marks := by
  cases h with
  | times digits p q h => simp [h.marks, Statement.marks, Lexeme.mark?]
  | batch digits p q r c h => simp [h.marks, Statement.marks, Lexeme.mark?]
  | ironsworn p => rfl
  | modified p q hs h =>
    rw [marksOf_cons, marksOf_cons, h.marks, hs.mark]
    rfl
  | flag name p => rfl
  | once h => exact h.marks

/-- **A command has the marks of its tokens.** -/
theorem DerivesCommand.marks {c : Command} (h : DerivesCommand ts c n) : marksOf ts = c.marks := by
  induction h with
  | one h => rw [h.marks, Command.marks, Command.statements, List.map_singleton, joinedMarks_singleton]
  | more p h _ ih =>
    have hne : ∀ command : Command, command.statements.map Statement.marks ≠ [] := fun command => by
      simp [Command.statements]
    rw [Command.marks, Command.statements, List.map_cons, joinedMarks_cons _ (hne _), marksOf_append, marksOf_cons,
      h.marks, ih]
    rfl

end Grammar

/-! ## Marks have no places -/

variable (f : Nat → Nat)

theorem Expr.marks_moved (expression : Expr) : (expression.moved f).marks = expression.marks := by
  induction expression <;> simp_all [Expr.moved, Expr.marks]

theorem Statement.marks_moved (statement : Statement) : (statement.moved f).marks = statement.marks := by
  cases statement with
  | ironsworn modifier position => cases modifier <;> simp [Statement.moved, Statement.marks, Expr.marks_moved]
  | _ => simp [Statement.moved, Statement.marks, Expr.marks_moved, Function.comp_def]

theorem Command.marks_moved (command : Command) : (command.moved f).marks = command.marks := by
  simp [Command.marks, Statement.marks_moved, Function.comp_def]

/-- **Tokens of the same command at other places have the same marks.** -/
theorem marksOf_eq_of_unplaced {ts us : List Token} {c d : Command} {m n : Nat} (h : Grammar.DerivesCommand ts c m)
    (h' : Grammar.DerivesCommand us d n) (heq : c.unplaced = d.unplaced) : marksOf ts = marksOf us := by
  have hmarks : c.marks = d.marks := by
    rw [← c.marks_moved fun _ => 0, ← d.marks_moved fun _ => 0]
    exact congrArg Command.marks heq
  rw [h.marks, h'.marks, hmarks]

end TabletopDice
