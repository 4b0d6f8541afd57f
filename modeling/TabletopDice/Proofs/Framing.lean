import TabletopDice.Proofs.Usage
/-!
# Framing — an evaluation sees and touches its own variables only

The variables that a command reads decide how it is evaluated, whatever other variables there are: from the same source
it ends in the same result, or in the same fault, after the same draws, and gives the same values to the same variables.
The variables that it does not assign keep their values, also when it stops at a fault (`evaluateCommand_framed`).
-/
namespace TabletopDice

/-- **The variables that a command reads.** -/
def Command.reads (command : Command) : List String := command.trees.flatMap Expr.reads

/-- **The variables that a command assigns.** -/
def Command.targets (command : Command) : List String := command.trees.flatMap Expr.targets

/-- A command is confined to its own variables. -/
theorem Command.confined (command : Command) :
    Confined (· ∈ command.reads) (· ∈ command.targets) command.trees where
  reads e he _ hname := List.mem_flatMap.2 ⟨e, he, hname⟩
  targets e he _ hname := List.mem_flatMap.2 ⟨e, he, hname⟩

namespace Evaluation

variable {σ : Type} [RandomSource σ]

/-- **Variables are framed.** A run of a command is one result and one change of the table, the same from every table
with the same source and the same values of the variables that the command reads. The change gives values to variables
that the command assigns and to no others; after it those that were read or given a value are the same at all these
tables, and a variable that the command does not assign has the value that it had.

As the change is the same whatever the other variables are, no variable that the run assigns is missing in it. -/
theorem evaluateCommand_framed (limits : Limits) (command : Command) (table : Table σ) :
    ∃ (result : Except Fault Outcome) (change : Change σ),
      (∀ binding ∈ change.written, binding.1 ∈ command.targets) ∧
      ∀ other, Table.SameFor (· ∈ command.reads) table other →
        evaluateCommand limits command other = Play.ended result (change.on other) ∧
        (∀ name, name ∈ command.reads ∨ name ∈ change.written.map Prod.fst →
          (change.on other).memory.get? name = (change.on table).memory.get? name) ∧
        ∀ name, name ∉ command.targets → (change.on other).memory.get? name = other.memory.get? name := by
  have huses := uses_evaluateCommand (σ := σ) limits command command.confined
  obtain ⟨result, change, hwithin, hrun⟩ := huses.run table
  refine ⟨result, change, hwithin.written, fun other hsame => ⟨hrun other hsame, ?_, ?_⟩⟩
  · rintro name (hread | hwritten)
    · exact (hsame.on change).memory name hread
    · exact Variables.get?_write_of_mem hwritten _ _
  · intro name hname
    refine Variables.get?_write_of_notMem (fun binding hb heq => ?_) other.memory
    exact hname (heq ▸ hwithin.written binding hb)

/-- Two tables that differ in a variable that is assigned and in one that is not mentioned; the run stops at a fault. -/
theorem evaluateCommand_framed_stopped :
    ∃ command, Command.parse "@x := d6 + @y; 2x[@y; 1/0]" = .ok command ∧
      ∃ table other : Table Scripted, table.memory = ⟨[("y", 3)]⟩ ∧ other.memory = ⟨[("x", 9), ("w", 1), ("y", 3)]⟩ ∧
        Table.SameFor (· ∈ command.reads) table other ∧
        ∃ (result : Except Fault Outcome) (change : Change Scripted),
          evaluateCommand ⟨100, 1000, 100, 100⟩ command table = Play.ended result (change.on table) ∧
          evaluateCommand ⟨100, 1000, 100, 100⟩ command other = Play.ended result (change.on other) ∧
          (change.on other).memory.get? "y" = (change.on table).memory.get? "y" ∧
          (change.on other).memory.get? "w" = some 1 := by
  have hparses : Command.parses "@x := d6 + @y; 2x[@y; 1/0]"
      (fun command => decide (command.reads = ["y", "y"] ∧ command.targets = ["x"])) = true := by decide +kernel
  obtain ⟨command, hparse, htest⟩ := Command.ok_of_parses _ hparses
  obtain ⟨hreads, htargets⟩ := of_decide_eq_true htest
  let table : Table Scripted := { Table.new ⟨[], 7⟩ with memory := ⟨[("y", 3)]⟩ }
  let other : Table Scripted := { table with memory := ⟨[("x", 9), ("w", 1), ("y", 3)]⟩ }
  have hsame : Table.SameFor (· ∈ command.reads) table other := by
    refine ⟨rfl, fun name hname => ?_⟩
    obtain rfl : name = "y" := by simpa [hreads] using hname
    decide
  obtain ⟨result, change, -, hruns⟩ := evaluateCommand_framed ⟨100, 1000, 100, 100⟩ command table
  obtain ⟨hother, hread, hkept⟩ := hruns other hsame
  refine ⟨command, hparse, table, other, rfl, rfl, hsame, result, change, (hruns table table.sameFor_self).1, hother,
    ?_, ?_⟩
  · exact hread "y" (.inl (by simp [hreads]))
  · exact hkept "w" (by simp [htargets])

end Evaluation
end TabletopDice
