import Mathlib.Data.List.Forall2
import TabletopDice.Proofs.Agreement
import TabletopDice.Proofs.Formation
import TabletopDice.Proofs.Lexing
/-!
# Joining — commands with semicolons between them

A text made of commands with semicolons between them is the command of all their statements
(`parse_intercalate`). It is evaluated as the commands are evaluated one after another at one table: the results of
the statements are the same in the same order, and the draws and the variables are the same too, also when a statement
stops at a fault (`joined_evaluates`).
-/
namespace TabletopDice

/-! ## The joined command -/

/-- The statements of a command, then those of another. -/
def Command.followedBy (command other : Command) : Command := ⟨command.first, command.others ++ other.statements⟩

theorem Command.statements_followedBy (command other : Command) :
    (command.followedBy other).statements = command.statements ++ other.statements := rfl

theorem Grammar.DerivesCommand.followedBy {ts us : List Token} {c d : Command} {m n : Nat} (p : Nat)
    (h : DerivesCommand ts c m) (h' : DerivesCommand us d n) :
    DerivesCommand (ts ++ ⟨.symbol .semicolon, p⟩ :: us) (c.followedBy d) (max m n) := by
  induction h with
  | one h => exact .more p h h'
  | more q h _ ih =>
    rw [List.append_assoc, List.cons_append, Nat.max_assoc]
    exact .more q h ih

namespace Command

open Grammar

/-- **Two commands with a semicolon between them**: the second stands further on. -/
theorem parse_followedBy {text other : String} {c d : Command} (h : parse text = .ok c) (h' : parse other = .ok d) :
    parse (text ++ ";" ++ other) = .ok (c.followedBy (d.moved (· + (text.toList.length + 1)))) := by
  obtain ⟨ts, m, hts, hm, hc⟩ := derives_of_parse h
  obtain ⟨us, n, hus, hn, hd⟩ := derives_of_parse h'
  have hscan := Token.scanFrom_semicolon hus text.toList hts
  rw [Nat.zero_add] at hscan
  refine parse_of_derives ?_ (hc.followedBy text.toList.length hd.moved) (Nat.max_le.2 ⟨hm, hn⟩)
  rw [String.toList_append, String.toList_append, List.append_assoc]
  exact hscan

/-- **Commands with semicolons between them** are the command of all their statements, up to places. -/
theorem parse_intercalate {texts : List String} {commands : List Command} (hne : texts ≠ [])
    (h : List.Forall₂ (fun text command => parse text = .ok command) texts commands) :
    ∃ joined, parse (";".intercalate texts) = .ok joined ∧
      joined.statements.map Statement.unplaced = (commands.flatMap statements).map Statement.unplaced := by
  induction h with
  | nil => exact absurd rfl hne
  | @cons text command texts commands hfirst hrest ih =>
    by_cases hlast : texts = []
    · subst hlast
      cases hrest
      exact ⟨command, by rw [String.intercalate_singleton, hfirst], by simp⟩
    · obtain ⟨joined, hjoined, hsame⟩ := ih hlast
      refine ⟨command.followedBy (joined.moved (· + (text.toList.length + 1))), ?_, ?_⟩
      · rw [String.intercalate_cons_of_ne_nil hlast]
        exact parse_followedBy hfirst hjoined
      · rw [statements_followedBy, statements_moved, List.flatMap_cons, List.map_append, List.map_append, ← hsame,
          List.map_map]
        congr 2
        funext statement
        exact Statement.unplaced_moved _ statement

end Command

/-! ## The results of statements -/

/-- **The results of the statements** whose outcome it is. -/
def Outcome.results : Outcome → List Outcome
  | .sequence _ results => results
  | outcome => [outcome]

/-- An outcome that is the result of one statement. -/
def Outcome.Single (outcome : Outcome) : Prop := outcome.results = [outcome]

namespace Evaluation

theorem single_keptByExpressions : KeptByExpressions (fun _ => True) (fun _ _ _ => True) Outcome.Single where
  number _ := rfl
  var _ _ := rfl
  span _ _ _ := rfl
  fresh _ := rfl
  volley _ := rfl
  negated _ h := by
    obtain ⟨label, rfl⟩ := negated_ok h
    rfl
  combined _ _ h := by
    obtain ⟨value, label, -, rfl⟩ := combined_ok h
    rfl
  modified _ _ h := by
    obtain ⟨value, throw, modifier, sources, rfl, h⟩ | ⟨value, rolls, added, rfl, -, rfl⟩ := Outcome.addModifier_ok h
    · obtain ⟨judged, -, rfl⟩ := Outcome.addTo_thrown_ok h
      rfl
    · rfl
  restricted _ h := by
    rw [restrict_ok h]
    rfl

theorem single_keptByStatements : KeptByStatements Outcome.Single Outcome.Single where
  expression h := h
  repeated _ := rfl
  ironsworn _ _ := rfl
  flag _ := rfl

variable {σ : Type} [RandomSource σ] (limits : Limits)

/-- **The result of one statement is no sequence.** -/
theorem evaluateStatement_single {statement : Statement} {table after : Table σ} {outcome : Outcome}
    (h : evaluateStatement limits statement table = .ok outcome after) : outcome.Single :=
  evaluateStatement_kept single_keptByExpressions single_keptByStatements (fun _ _ _ _ _ _ _ => trivial)
    (fun _ _ _ _ => trivial) h

theorem results_inSequence {first : Outcome} {others : List Outcome} (h : first.Single) :
    (inSequence first others).results = first :: others := by
  unfold inSequence
  cases hlast : others.getLast? with
  | none =>
    rw [List.getLast?_eq_none_iff.1 hlast]
    exact h
  | some last => rfl

theorem value_inSequence (first : Outcome) (others : List Outcome) :
    ((first :: others).getLast?.map Outcome.value) = some (inSequence first others).value := by
  unfold inSequence
  rw [List.getLast?_cons]
  cases hlast : others.getLast? <;> rfl

/-! ## One after another -/

/-- **Commands evaluated one after another** at one table. -/
def evaluateEach (limits : Limits) : List Command → Play σ (List Outcome)
  | [] => pure []
  | command :: rest => do
    let first ← evaluateCommand limits command
    let others ← evaluateEach limits rest
    pure (first :: others)

theorem evaluateStatements_append (statements others : List Statement) :
    (evaluateStatements limits (statements ++ others) : Play σ (List Outcome)) = (do
      let first ← evaluateStatements limits statements
      let second ← evaluateStatements limits others
      pure (first ++ second)) := by
  induction statements with
  | nil => simp [evaluateStatements]
  | cons statement rest ih => simp [evaluateStatements, ih]

open Play

/-- **The statements of a command go like the command**, whose outcome keeps their results. -/
theorem evaluateCommand_alike (command : Command) :
    Alike Eq (fun results outcome => results = outcome.results ∧ results.getLast?.map Outcome.value = some outcome.value)
      (evaluateStatements limits command.statements : Play σ (List Outcome)) (evaluateCommand limits command) := by
  have hreport : Alike Eq (fun a b => a = b ∧ True) (report (.evaluating command.first) : Play σ Unit) (report _) :=
    alike_self fun _ => trivial
  have hfirst : Alike Eq (fun a b => a = b ∧ a.Single) (evaluateStatement limits command.first : Play σ Outcome) _ :=
    alike_self (evaluateStatement_single limits)
  have hothers : Alike Eq (fun a b => a = b ∧ True) (evaluateStatements limits command.others : Play σ (List Outcome)) _ :=
    alike_self fun _ => trivial
  unfold evaluateCommand
  rw [Command.statements, evaluateStatements]
  refine hreport.bind fun _ _ _ => hfirst.bind fun first _ h => hothers.bind fun others _ h' => ?_
  obtain ⟨rfl, hsingle⟩ := h
  obtain ⟨rfl, -⟩ := h'
  exact alike_pure ⟨(results_inSequence hsingle).symm, value_inSequence first others⟩

theorem getLast?_map_cons {α : Type} (f : α → Int) {a : α} {as bs cs : List α} (ha : as.getLast?.map f = some (f a))
    (h : bs.getLast?.map f = cs.getLast?.map f) : (as ++ bs).getLast?.map f = (a :: cs).getLast?.map f := by
  rw [List.getLast?_append, List.getLast?_cons]
  cases hb : bs.getLast? with
  | none =>
    rw [hb] at h
    cases hc : cs.getLast? with
    | none => simpa [Option.or] using ha
    | some c => rw [hc] at h; cases h
  | some b =>
    rw [hb] at h
    cases hc : cs.getLast? with
    | none => rw [hc] at h; cases h
    | some c => rw [hc] at h; simpa [Option.or] using h

/-- **The statements of commands go like the commands one after another.** -/
theorem evaluateEach_alike : ∀ commands : List Command,
    Alike Eq (fun results outcomes => results = outcomes.flatMap Outcome.results ∧
        results.getLast?.map Outcome.value = outcomes.getLast?.map Outcome.value)
      (evaluateStatements limits (commands.flatMap Command.statements) : Play σ (List Outcome))
      (evaluateEach limits commands)
  | [] => alike_pure ⟨rfl, rfl⟩
  | command :: rest => by
    rw [List.flatMap_cons, evaluateStatements_append, evaluateEach]
    refine (evaluateCommand_alike limits command).bind fun results outcome h => ?_
    refine (evaluateEach_alike rest).bind fun others outcomes h' => alike_pure ⟨?_, getLast?_map_cons _ h.2 h'.2⟩
    rw [List.flatMap_cons, h.1, h'.1]

end Evaluation

/-! ## Joined commands -/

/-- **Two tables in the same state of play**: what has been reported may differ. -/
structure Table.SameState {σ : Type} (t u : Table σ) : Prop where
  source : t.source = u.source
  draws : t.draws = u.draws
  memory : t.memory = u.memory

theorem Table.SameState.kept {σ : Type} : KeptByVariables (fun _ => True) (Table.SameState (σ := σ)) where
  source h := h.source
  drawn next draw h := ⟨rfl, congrArg (·.push draw) h.draws, h.memory⟩
  failed next h := ⟨rfl, h.draws, h.memory⟩
  reported row row' h := ⟨h.source, h.draws, h.memory⟩
  read _ h := by rw [h.memory]
  assigned name value h := ⟨h.source, h.draws, congrArg (·.set name value) h.memory⟩

namespace Evaluation

/-- **A text of commands with semicolons between them is evaluated as the commands are, one after another** at one
table: its outcome has the results of all their statements in order and the value of the last command, and the source,
the draws and the variables are left the same. If one of the commands stops at a fault, the text stops at the same
fault in the same state. -/
theorem joined_evaluates {texts : List String} {commands : List Command} (hne : texts ≠ [])
    (hparse : List.Forall₂ (fun text command => Command.parse text = .ok command) texts commands) :
    ∃ joined, Command.parse (";".intercalate texts) = .ok joined ∧
      ∀ {σ : Type} [RandomSource σ] (limits : Limits) (table : Table σ),
        Play.Agree Table.SameState
          (fun outcome outcomes => outcome.results = outcomes.flatMap Outcome.results ∧
            some outcome.value = outcomes.getLast?.map Outcome.value)
          (evaluateCommand limits joined table) (evaluateEach limits commands table) := by
  obtain ⟨joined, hjoined, hsame⟩ := Command.parse_intercalate hne hparse
  refine ⟨joined, hjoined, fun {σ} _ limits table => ?_⟩
  have hcommand := (evaluateCommand_alike limits joined).symm table table rfl
  have hmoved := evaluateStatements_alike limits Table.SameState.kept hsame (fun _ _ _ _ => trivial) table table
    ⟨rfl, rfl, rfl⟩
  have heach := evaluateEach_alike limits commands table table rfl
  have hstatements := hmoved.trans (T := Table.SameState) (X := fun results outcomes =>
    results = outcomes.flatMap Outcome.results ∧
      results.getLast?.map Outcome.value = outcomes.getLast?.map Outcome.value)
    (fun _ _ _ h h' => by subst h'; exact h) (fun _ _ _ h h' => by subst h; exact h') heach
  refine hcommand.trans (fun _ _ _ h h' => by subst h; exact h') (fun outcome results outcomes h h' => ?_) hstatements
  exact ⟨h.1 ▸ h'.1, h.2 ▸ h'.2⟩

theorem joined_evaluates_assignment :
    ∃ first second, Command.parse "@x:=d6" = .ok first ∧ Command.parse "@x*2;d0" = .ok second ∧
      ∃ joined, Command.parse (";".intercalate ["@x:=d6", "@x*2;d0"]) = .ok joined ∧
        ∀ {σ : Type} [RandomSource σ] (limits : Limits) (table : Table σ),
          Play.Agree Table.SameState
            (fun outcome outcomes => outcome.results = outcomes.flatMap Outcome.results ∧
              some outcome.value = outcomes.getLast?.map Outcome.value)
            (evaluateCommand limits joined table) (evaluateEach limits [first, second] table) := by
  have hdie : Command.parses "@x:=d6" (fun _ => true) = true := by decide +kernel
  have hrest : Command.parses "@x*2;d0" (fun _ => true) = true := by decide +kernel
  obtain ⟨first, hfirst, -⟩ := Command.ok_of_parses _ hdie
  obtain ⟨second, hsecond, -⟩ := Command.ok_of_parses _ hrest
  exact ⟨first, second, hfirst, hsecond, joined_evaluates (List.cons_ne_nil _ _) (.cons hfirst (.cons hsecond .nil))⟩

end Evaluation

end TabletopDice
