import TabletopDice.Proofs.Joining
/-!
# Unrolling — repetitions as statements one after another

An expression repeated so many times is evaluated like a command of so many statements, each with the expression, and a
batch like as many rounds of its expressions (`repetition_unrolls`). Every repetition finds the variables and the source
as the one before leaves them, so the results are the same in the same order, the source, the draws and the variables
are left the same, and a fault comes at the same point.
-/
namespace TabletopDice

open Play

/-! ## Repeated plays -/

namespace Play

variable {σ α β γ : Type} {R : Table σ → Table σ → Prop}

theorem Alike.mono {V W : α → β → Prop} {p : Play σ α} {q : Play σ β} (h : Alike R V p q)
    (hvalues : ∀ a b, V a b → W a b) : Alike R W p q := by
  intro t u htu
  have hends := h t u htu
  generalize p t = left, q u = right at hends ⊢
  cases hends with
  | ok hab htu' => exact .ok (hvalues _ _ hab) htu'
  | error fault htu' => exact .error fault htu'

/-- The value of one play may be read through a function. -/
theorem alike_map {V : β → γ → Prop} {f : α → β} {p : Play σ α} {q : Play σ γ} :
    Alike R V (f <$> p) q ↔ Alike R (fun a c => V (f a) c) p q := by
  constructor
  · intro h t u htu
    have hends := h t u htu
    change Agree R V (EStateM.map f p t) (q u) at hends
    unfold EStateM.map at hends
    generalize p t = left, q u = right at hends ⊢
    cases left with
    | ok a after => cases hends with | ok hab htu' => exact .ok hab htu'
    | error fault after => cases hends with | error _ htu' => exact .error fault htu'
  · intro h t u htu
    have hends := h t u htu
    change Agree R V (EStateM.map f p t) (q u)
    unfold EStateM.map
    generalize p t = left, q u = right at hends ⊢
    cases hends with
    | ok hab htu' => exact .ok hab htu'
    | error fault htu' => exact .error fault htu'

theorem times_map (f : α → β) (play : Play σ α) : ∀ count, times (f <$> play) count = List.map f <$> times play count
  | 0 => by simp [times]
  | count + 1 => by simp [times, times_map f play count]

/-- **A report that only one of two plays makes** leaves both in the same state of play, if its message can be
written. -/
theorem Alike.unreported {V : α → β → Prop} {p : Play σ α} {q : Play σ β} {event : Event}
    (hwritable : event.wording.Writable) (h : Alike Table.SameState V p q) :
    Alike Table.SameState V p (report event >>= fun _ => q) := by
  intro t u htu
  rw [bind_eq (report_writable hwritable u)]
  exact h t _ ⟨htu.source, htu.draws, htu.memory⟩

end Play

namespace Evaluation

variable {σ : Type} [RandomSource σ] (limits : Limits)

theorem repeatCount_eq {limits : Limits} {count : Nat} (hone : 1 ≤ count) (hmost : (count : Int) ≤ limits.maxRepeat) :
    repeatCount limits count = .ok count := by
  rw [repeatCount, if_neg (Nat.not_lt.2 hone), if_neg (Int.not_lt.2 hmost)]

/-! ## Rounds -/

/-- **Expressions one after another** go like the statements that have them. -/
theorem evaluateAll_unrolls (place : Nat) : ∀ expressions : List Expr,
    Alike Table.SameState (fun round results => round = results ∧ round.length = expressions.length)
      (evaluateAll limits expressions : Play σ (List Outcome))
      (evaluateStatements limits (expressions.map (Statement.once · place)))
  | [] => alike_pure ⟨rfl, rfl⟩
  | expression :: rest => by
    rw [List.map_cons, evaluateAll, evaluateStatements]
    have hfirst : Alike Table.SameState Eq (evaluate limits expression : Play σ Outcome) _ :=
      evaluate_alike limits Table.SameState.kept expression fun _ _ => trivial
    refine Alike.unreported (Event.writable_evaluating _) (hfirst.next fun first => (evaluateAll_unrolls place rest).bind ?_)
    rintro others results ⟨rfl, hlength⟩
    exact alike_pure ⟨rfl, congrArg (· + 1) hlength⟩

/-- **Rounds of expressions** go like the statements of all rounds. -/
theorem rounds_unroll (expressions : List Expr) (place : Nat) : ∀ count,
    Alike Table.SameState
      (fun rounds results => rounds.flatten = results ∧ rounds.length = count ∧
        ∀ round ∈ rounds, round.length = expressions.length)
      (times (evaluateAll limits expressions) count : Play σ (List (List Outcome)))
      (evaluateStatements limits (List.replicate count (expressions.map (Statement.once · place))).flatten)
  | 0 => alike_pure ⟨rfl, rfl, fun _ h => absurd h List.not_mem_nil⟩
  | count + 1 => by
    rw [List.replicate_succ, List.flatten_cons, evaluateStatements_append, times]
    refine (evaluateAll_unrolls limits place expressions).bind ?_
    rintro round results ⟨rfl, hround⟩
    refine (rounds_unroll expressions place count).bind ?_
    rintro rounds results ⟨rfl, hcount, hrounds⟩
    exact alike_pure ⟨rfl, congrArg (· + 1) hcount, List.forall_mem_cons.2 ⟨hround, hrounds⟩⟩

/-- **One expression over and over** goes like the statements that have it. -/
theorem times_unrolls (expression : Expr) (place count : Nat) :
    Alike Table.SameState (fun outcomes results => outcomes = results ∧ outcomes.length = count)
      (times (evaluate limits expression) count : Play σ (List Outcome))
      (evaluateStatements limits (List.replicate count (Statement.once expression place))) := by
  have hsingle : (evaluateAll limits [expression] : Play σ (List Outcome)) =
      (fun outcome => [outcome]) <$> evaluate limits expression := by simp [evaluateAll]
  have hrounds := rounds_unroll (σ := σ) limits [expression] place count
  rw [hsingle, times_map, alike_map, List.map_singleton, List.flatten_replicate_singleton] at hrounds
  refine hrounds.mono ?_
  rintro outcomes results ⟨rfl, hcount, -⟩
  exact ⟨(List.flatMap_singleton' outcomes).symm, by rwa [List.length_map] at hcount⟩

/-! ## Repetitions -/

theorem sumOf_rounds (rounds : List (List Outcome)) :
    Outcome.sumOf (rounds.map repeated) = Outcome.sumOf rounds.flatten := by
  unfold Outcome.sumOf
  induction rounds with
  | nil => rfl
  | cons round rest ih =>
    rw [List.flatten_cons, List.map_append, Numbers.total_append, ← ih]
    rfl

variable {limits}

theorem evaluateStatement_times {count : Nat} (hcount : repeatCount limits count = .ok count) (expression : Expr)
    (place : Nat) : (evaluateStatement limits (.times count expression place) : Play σ Outcome) =
      repeated <$> times (evaluate limits expression) count := by
  rw [evaluateStatement, hcount, map_eq_pure_bind]
  rfl

theorem evaluateStatement_batch {count : Nat} (hcount : repeatCount limits count = .ok count)
    (expressions : List Expr) (place : Nat) :
    (evaluateStatement limits (.batch count expressions place) : Play σ Outcome) =
      (fun rounds => repeated (rounds.map repeated)) <$> times (evaluateAll limits expressions) count := by
  rw [evaluateStatement, hcount]
  change (times (repeated <$> evaluateAll limits expressions) count >>= fun rounds => pure (repeated rounds)) = _
  rw [times_map]
  simp

/-- A play that goes like statements goes like the command that has them, whatever their places. -/
theorem alike_command {p : Play σ Outcome} {V : Outcome → List Outcome → Prop} {statements : List Statement}
    {command : Command} (hsame : statements.map Statement.unplaced = command.statements.map Statement.unplaced)
    (h : Alike Table.SameState V p (evaluateStatements limits statements)) (table : Table σ) :
    Agree Table.SameState (fun outcome sequence => V outcome sequence.results) (p table)
      (evaluateCommand limits command table) := by
  have hplay := h table table ⟨rfl, rfl, rfl⟩
  have hmoved := evaluateStatements_alike limits Table.SameState.kept hsame (fun _ _ _ _ => trivial) table table
    ⟨rfl, rfl, rfl⟩
  have hcommand := evaluateCommand_alike limits command table table rfl
  have hstatements := hmoved.trans (T := Table.SameState) (X := fun results outcome => results = outcome.results)
    (fun _ _ _ h h' => by subst h'; exact h) (fun _ _ _ h h' => h.trans h'.1) hcommand
  refine hplay.trans (fun t u v h h' => ?_) (fun _ _ _ h h' => by subst h'; exact h) hstatements
  exact ⟨h.source.trans h'.source, h.draws.trans h'.draws, h.memory.trans h'.memory⟩

/-- **Repetition is unrolling.** A repeated expression agrees with any command of so many statements that have it, and
a batch with any command of so many rounds of its expressions: the outcome keeps the results of the statements in order,
in a batch one group for each round, and its value is their sum; the source, the draws and the variables are left the
same. If one of them stops at a fault, the other stops at the same fault in the same state. -/
theorem repetition_unrolls {count : Nat} (hone : 1 ≤ count) (hmost : (count : Int) ≤ limits.maxRepeat)
    (table : Table σ) :
    (∀ (expression : Expr) (place : Nat) (command : Command),
      (List.replicate count (Statement.once expression place)).map Statement.unplaced =
        command.statements.map Statement.unplaced →
      Play.Agree Table.SameState
        (fun outcome sequence => outcome = repeated sequence.results ∧ sequence.results.length = count ∧
          outcome.value = Outcome.sumOf sequence.results)
        (evaluateStatement limits (.times count expression place) table) (evaluateCommand limits command table)) ∧
    ∀ (expressions : List Expr) (place : Nat) (command : Command),
      (List.replicate count (expressions.map (Statement.once · place))).flatten.map Statement.unplaced =
        command.statements.map Statement.unplaced →
      Play.Agree Table.SameState
        (fun outcome sequence => (∃ rounds : List (List Outcome), outcome = repeated (rounds.map repeated) ∧
            rounds.flatten = sequence.results ∧ rounds.length = count ∧
            ∀ round ∈ rounds, round.length = expressions.length) ∧
          outcome.value = Outcome.sumOf sequence.results)
        (evaluateStatement limits (.batch count expressions place) table) (evaluateCommand limits command table) := by
  have hcount := repeatCount_eq hone hmost
  refine ⟨fun expression place command hsame => ?_, fun expressions place command hsame => ?_⟩
  · rw [evaluateStatement_times hcount]
    refine alike_command hsame (V := fun outcome results => outcome = repeated results ∧ results.length = count ∧
      outcome.value = Outcome.sumOf results) (alike_map.2 ((times_unrolls limits expression place count).mono ?_)) table
    rintro outcomes results ⟨rfl, hlength⟩
    exact ⟨rfl, hlength, rfl⟩
  · rw [evaluateStatement_batch hcount]
    refine alike_command hsame (V := fun outcome results => (∃ rounds : List (List Outcome),
      outcome = repeated (rounds.map repeated) ∧ rounds.flatten = results ∧ rounds.length = count ∧
      ∀ round ∈ rounds, round.length = expressions.length) ∧ outcome.value = Outcome.sumOf results)
      (alike_map.2 ((rounds_unroll limits expressions place count).mono ?_)) table
    rintro rounds results ⟨rfl, hlength, hrounds⟩
    exact ⟨⟨rounds, rfl, rfl, hlength, hrounds⟩, sumOf_rounds rounds⟩

/-- Two rounds of an assignment and of a division, and the four statements. -/
theorem repetition_unrolls_rounds :
    ∃ expressions place sequence,
      Command.parse "2x[@a := @a+d6; 6/@b]" = .ok ⟨.batch 2 expressions place, []⟩ ∧
      Command.parse "@a := @a+d6; 6/@b; @a := @a+d6; 6/@b" = .ok sequence ∧ 1 ≤ 2 ∧ (2 : Int) ≤ 10 ∧
      ∀ {σ : Type} [RandomSource σ] (table : Table σ),
        Play.Agree Table.SameState
          (fun outcome other => (∃ rounds : List (List Outcome), outcome = repeated (rounds.map repeated) ∧
              rounds.flatten = other.results ∧ rounds.length = 2 ∧
              ∀ round ∈ rounds, round.length = expressions.length) ∧
            outcome.value = Outcome.sumOf other.results)
          (evaluateStatement ⟨100, 100, 10, 100⟩ (.batch 2 expressions place) table)
          (evaluateCommand ⟨100, 100, 10, 100⟩ sequence table) := by
  let expressions : List Expr :=
    [.assign "a" (.binary .add (.var "a" 9) (.roll (.generic ⟨none, .sides 6, false, .total none none⟩) 12) 11) 3,
      .binary .divide (.literal 6 16) (.var "b" 18) 17]
  have hbatch : Command.parses "2x[@a := @a+d6; 6/@b]"
      (fun command => decide (command = ⟨.batch 2 expressions 0, []⟩)) = true := by decide +kernel
  have hrounds : Command.parses "@a := @a+d6; 6/@b; @a := @a+d6; 6/@b" (fun sequence =>
      decide ((List.replicate 2 (expressions.map (Statement.once · 0))).flatten.map Statement.unplaced =
        sequence.statements.map Statement.unplaced)) = true := by decide +kernel
  obtain ⟨command, hbatch, hcommand⟩ := Command.ok_of_parses _ hbatch
  obtain ⟨sequence, hsequence, hsame⟩ := Command.ok_of_parses _ hrounds
  rw [of_decide_eq_true hcommand] at hbatch
  refine ⟨expressions, 0, sequence, hbatch, hsequence, by decide, by decide, fun table => ?_⟩
  exact (repetition_unrolls (by decide) (by decide) table).2 expressions 0 sequence (of_decide_eq_true hsame)

end Evaluation
end TabletopDice
