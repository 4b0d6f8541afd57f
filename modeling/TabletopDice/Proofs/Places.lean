import TabletopDice.Evaluation
import TabletopDice.Proofs.Grammar
/-!
# Places — commands that stand elsewhere in a text

A token moves by its place only, and a tree by the places of its nodes. The grammar does not look at places, so moved
tokens derive the moved tree (`DerivesCommand.moved`). An evaluation does not look at them either, so a statement
without its places is evaluated like the statement (`evaluateStatement_unplaced`).
-/
namespace TabletopDice

/-! ## Moving -/

/-- A token at another place. -/
def Token.moved (f : Nat → Nat) (token : Token) : Token := { token with position := f token.position }

/-- **An expression at other places.** -/
def Expr.moved (f : Nat → Nat) : Expr → Expr
  | literal value position => literal value (f position)
  | var name position => var name (f position)
  | roll term position => roll term (f position)
  | signed sign operand position => signed sign (operand.moved f) (f position)
  | binary operator left right position => binary operator (left.moved f) (right.moved f) (f position)
  | unbounded operand position => unbounded (operand.moved f) (f position)
  | atLeast operand minimum position => atLeast (operand.moved f) (minimum.moved f) (f position)
  | atMost operand maximum position => atMost (operand.moved f) (maximum.moved f) (f position)
  | between operand minimum maximum position =>
    between (operand.moved f) (minimum.moved f) (maximum.moved f) (f position)
  | assign name value position => assign name (value.moved f) (f position)

/-- **A statement at other places.** -/
def Statement.moved (f : Nat → Nat) : Statement → Statement
  | once expression position => once (expression.moved f) (f position)
  | times count expression position => times count (expression.moved f) (f position)
  | batch count expressions position => batch count (expressions.map (Expr.moved f)) (f position)
  | ironsworn modifier position => ironsworn (modifier.map fun (sign, operand) => (sign, operand.moved f)) (f position)
  | flag name position => flag name (f position)

/-- **A command at other places.** -/
def Command.moved (f : Nat → Nat) (command : Command) : Command :=
  ⟨command.first.moved f, command.others.map (Statement.moved f)⟩

/-- An expression without its places. -/
def Expr.unplaced (expression : Expr) : Expr := expression.moved fun _ => 0

/-- A statement without its places. -/
def Statement.unplaced (statement : Statement) : Statement := statement.moved fun _ => 0

/-- A command without its places. -/
def Command.unplaced (command : Command) : Command := command.moved fun _ => 0

variable (f g : Nat → Nat)

theorem Expr.moved_moved (expression : Expr) : (expression.moved f).moved g = expression.moved (g ∘ f) := by
  induction expression <;> simp_all [Expr.moved]

@[simp] theorem Expr.unplaced_moved (expression : Expr) : (expression.moved f).unplaced = expression.unplaced :=
  Expr.moved_moved f _ expression

theorem Statement.moved_moved (statement : Statement) : (statement.moved f).moved g = statement.moved (g ∘ f) := by
  cases statement with
  | ironsworn modifier position => cases modifier <;> simp [Statement.moved, Expr.moved_moved]
  | _ => simp [Statement.moved, Expr.moved_moved]

@[simp] theorem Statement.unplaced_moved (statement : Statement) : (statement.moved f).unplaced = statement.unplaced :=
  Statement.moved_moved f _ statement

@[simp] theorem Command.statements_moved (command : Command) :
    (command.moved f).statements = command.statements.map (Statement.moved f) := rfl

/-! ## The grammar does not look at places -/

namespace Grammar

variable {f} {ts us : List Token} {n : Nat}

theorem Numeral.moved (h : Numeral ts n) : Numeral (ts.map (Token.moved f)) n := by
  obtain ⟨digits, p⟩ := h
  exact .mk digits (f p)

theorem Lettered.moved {letter : Keyword} (h : Lettered letter ts n) : Lettered letter (ts.map (Token.moved f)) n := by
  obtain ⟨digits, p, q⟩ := h
  exact .mk digits (f p) (f q)

theorem Optional.moved {α : Type} {phrase : List Token → α → Prop} {found : Option α}
    (hphrase : ∀ {ts : List Token} {a : α}, phrase ts a → phrase (ts.map (Token.moved f)) a)
    (h : Optional phrase ts found) : Optional phrase (ts.map (Token.moved f)) found := by
  cases h with
  | missing => exact .missing
  | present h => exact .present (hphrase h)

theorem TargetPhrase.moved {target : TargetSuffix} (h : TargetPhrase ts target) :
    TargetPhrase (ts.map (Token.moved f)) target := by
  cases h with
  | target h => exact .target h.moved
  | interval h => exact .interval h.moved
  | both h h' =>
    rw [List.map_append]
    exact .both h.moved h'.moved

theorem ReadingPhrase.moved {reading : Reading} (h : ReadingPhrase ts reading) :
    ReadingPhrase (ts.map (Token.moved f)) reading := by
  cases h with
  | keep h h' =>
    obtain ⟨rule, p, hcount⟩ := h
    rw [List.map_append, List.map_cons]
    exact .keep (.mk rule (f p) (hcount.moved Numeral.moved)) (h'.moved TargetPhrase.moved)
  | success h =>
    obtain ⟨h, h'⟩ := h
    rw [List.map_append]
    exact .success (.mk h.moved (h'.moved Lettered.moved))
  | target h => exact .target (h.moved TargetPhrase.moved)

theorem FacesPhrase.moved {faces : Faces} (h : FacesPhrase ts faces) : FacesPhrase (ts.map (Token.moved f)) faces := by
  cases h with
  | sides h => exact .sides h.moved
  | percent p => exact .percent (f p)

theorem AcingMark.moved {acing : Bool} (h : AcingMark ts acing) : AcingMark (ts.map (Token.moved f)) acing := by
  cases h with
  | missing => exact .missing
  | present p => exact .present (f p)

theorem RollPhrase.moved {term : Roll} (h : RollPhrase ts term) : RollPhrase (ts.map (Token.moved f)) term := by
  cases h with
  | generic p hc hf hb hr =>
    simp only [List.map_append, List.map_cons]
    exact .generic (f p) (hc.moved Numeral.moved) hf.moved hb.moved hr.moved
  | fudge p q hc =>
    rw [List.map_append]
    exact .fudge (f p) (f q) (hc.moved Numeral.moved)
  | carcosa p q hc =>
    rw [List.map_append]
    exact .carcosa (f p) (f q) (hc.moved Numeral.moved)
  | savage hc ht hw hu =>
    simp only [List.map_append]
    exact .savage (hc.moved Numeral.moved) ht.moved (hw.moved Lettered.moved) (hu.moved TargetPhrase.moved)
  | extras hc ht hu =>
    simp only [List.map_append]
    exact .extras (hc.moved Numeral.moved) ht.moved (hu.moved TargetPhrase.moved)
  | weg p hc =>
    rw [List.map_append]
    exact .weg (f p) hc.moved
  | span low high p => exact .span low high (f p)

/-- **Moved tokens derive the moved expression.** -/
theorem Derives.moved {rule : Rule} {e : Expr} (h : Derives rule ts e n) :
    Derives rule (ts.map (Token.moved f)) (e.moved f) n := by
  induction h with
  | assignment name p q _ ih => exact .assignment name (f p) (f q) ih
  | sum _ ih => exact .sum ih
  | oneTerm _ ih => exact .oneTerm ih
  | moreTerms p _ hs _ ih ih' =>
    rw [List.map_append]
    exact .moreTerms (f p) ih hs ih'
  | oneFactor _ ih => exact .oneFactor ih
  | moreFactors p _ hs _ ih ih' =>
    rw [List.map_append]
    exact .moreFactors (f p) ih hs ih'
  | signed p hs _ ih => exact .signed (f p) hs ih
  | unsigned _ ih => exact .unsigned ih
  | noBounds _ ih => exact .noBounds ih
  | unbounded p q r _ ih =>
    rw [List.map_append]
    exact .unbounded (f p) (f q) (f r) ih
  | atLeast p q r _ _ ih ih' =>
    simp only [List.map_append, List.map_cons]
    exact .atLeast (f p) (f q) (f r) ih ih'
  | atMost p q r _ _ ih ih' =>
    simp only [List.map_append, List.map_cons]
    exact .atMost (f p) (f q) (f r) ih ih'
  | between p q r _ _ _ ih ih' ih'' =>
    simp only [List.map_append, List.map_cons]
    exact .between (f p) (f q) (f r) ih ih' ih''
  | literal digits p => exact .literal digits (f p)
  | var name p => exact .var name (f p)
  | parentheses p q _ ih =>
    rw [List.map_cons, List.map_append]
    exact .parentheses (f p) (f q) ih
  | roll h => exact .roll h.moved

theorem DerivesAll.moved {es : List Expr} (h : DerivesAll ts es n) :
    DerivesAll (ts.map (Token.moved f)) (es.map (Expr.moved f)) n := by
  induction h with
  | one h => exact .one h.moved
  | more p h _ ih =>
    rw [List.map_append]
    exact .more (f p) h.moved ih

theorem DerivesStatement.moved {s : Statement} (h : DerivesStatement ts s n) :
    DerivesStatement (ts.map (Token.moved f)) (s.moved f) n := by
  cases h with
  | times digits p q h => exact .times digits (f p) (f q) h.moved
  | batch digits p q r c h =>
    simp only [List.map_append, List.map_cons]
    exact .batch digits (f p) (f q) (f r) (f c) h.moved
  | ironsworn p => exact .ironsworn (f p)
  | modified p q hs h => exact .modified (f p) (f q) hs h.moved
  | flag name p => exact .flag name (f p)
  | @once t ts e n h => exact .once (t := t.moved f) h.moved

/-- **Moved tokens derive the moved command.** -/
theorem DerivesCommand.moved {c : Command} (h : DerivesCommand ts c n) :
    DerivesCommand (ts.map (Token.moved f)) (c.moved f) n := by
  induction h with
  | one h => exact .one h.moved
  | more p h _ ih =>
    rw [List.map_append]
    exact .more (f p) h.moved ih

end Grammar

/-! ## An evaluation does not look at places -/

namespace Evaluation

variable {σ : Type}

theorem sourceOf_moved (expression : Expr) : sourceOf (expression.moved f) = sourceOf expression := by
  cases expression <;> rfl

variable [RandomSource σ] (limits : Limits)

theorem evaluate_moved (expression : Expr) :
    (evaluate limits (expression.moved f) : Play σ Outcome) = evaluate limits expression := by
  induction expression with
  | literal | var | roll => rfl
  | signed sign operand position ih => cases sign <;> simp only [Expr.moved, evaluate, ih]
  | binary operator left right position ihl ihr => simp only [Expr.moved, evaluate, ihl, ihr, sourceOf_moved]
  | unbounded operand position ih => simp only [Expr.moved, evaluate, ih]
  | atLeast operand bound position ih ihb => simp only [Expr.moved, evaluate, ih, ihb]
  | atMost operand bound position ih ihb => simp only [Expr.moved, evaluate, ih, ihb]
  | between operand low high position ih ihl ihh => simp only [Expr.moved, evaluate, ih, ihl, ihh]
  | assign name value position ih => simp only [Expr.moved, evaluate, ih]

theorem evaluateAll_moved (expressions : List Expr) :
    (evaluateAll limits (expressions.map (Expr.moved f)) : Play σ (List Outcome)) = evaluateAll limits expressions := by
  induction expressions with
  | nil => rfl
  | cons expression rest ih => simp only [List.map_cons, evaluateAll, evaluate_moved, ih]

theorem modifierValue_moved (modifier : Option (Sign × Expr)) :
    (modifierValue limits (modifier.map fun (sign, operand) => (sign, operand.moved f)) : Play σ Int) =
      modifierValue limits modifier := by
  match modifier with
  | none => rfl
  | some (.plus, operand) => simp only [Option.map_some, modifierValue, evaluate_moved]
  | some (.minus, operand) => simp only [Option.map_some, modifierValue, evaluate_moved]

theorem evaluateStatement_moved (statement : Statement) :
    (evaluateStatement limits (statement.moved f) : Play σ Outcome) = evaluateStatement limits statement := by
  cases statement with
  | once expression position => exact evaluate_moved f limits expression
  | times count expression position => simp only [Statement.moved, evaluateStatement, evaluate_moved]
  | batch count expressions position => simp only [Statement.moved, evaluateStatement, evaluateAll_moved]
  | ironsworn modifier position =>
    simp only [Statement.moved, evaluateStatement, rollIronsworn, modifierValue_moved]
  | flag name position => rfl

/-- **A statement is evaluated like the statement without its places.** -/
theorem evaluateStatement_unplaced (statement : Statement) :
    (evaluateStatement limits statement.unplaced : Play σ Outcome) = evaluateStatement limits statement :=
  evaluateStatement_moved _ limits statement

end Evaluation

end TabletopDice
