import TabletopDice.Proofs.Faults
import TabletopDice.Proofs.Framing
/-!
# Budget — the limits bound the draws

However a run ends, the limits bound the numbers that it draws by the number of the command's roll terms, and each
number is drawn between bounds in order. A roll term that asks for no dice, or for more than are allowed, is refused
before anything is drawn (`evaluateCommand_bounded`). The limits may be any whole numbers; one below zero counts as
zero, and a command that may repeat nothing still evaluates its other statements once.
-/
namespace TabletopDice

open Evaluation

/-- **The number of dice that a roll term asks for**, said or by default; a range asks for none. -/
def Roll.dice? : Roll → Option Nat
  | generic roll => some (roll.count.getD 1)
  | savage roll => some (roll.count.getD 1)
  | extras roll => some (roll.count.getD 1)
  | fudge count => some (count.getD defaultFudgeDice)
  | carcosa count => some (count.getD 1)
  | weg count => some count
  | span .. => none

namespace Evaluation

variable {σ : Type} [RandomSource σ]

theorem diceCount_error {limits : Limits} {count : Option Nat} {default : Nat}
    (h : count.getD default < 1 ∨ limits.maxDice < count.getD default) :
    ∃ error, diceCount limits count default = .error error := by
  by_cases hnone : count.getD default < 1
  · exact ⟨_, if_pos hnone⟩
  · exact ⟨_, (if_neg hnone).trans (if_pos (h.resolve_left hnone))⟩

/-- **A roll term that asks for too few or too many dice** is refused at once: the table stays as it is. -/
theorem roll_refused {limits : Limits} {term : Roll} {count : Nat} (h : term.dice? = some count)
    (hcount : count < 1 ∨ limits.maxDice < count) :
    ∃ error, ∀ table : Table σ, roll limits term table = .error (.ofRule error) table := by
  have hstop : ∀ (asked : Option Nat) (default : Nat) (next : Nat → Play σ Outcome), asked.getD default = count →
      ∃ error, ∀ table, (Play.ofRule (diceCount limits asked default) >>= next) table =
        .error (.ofRule error) table := by
    rintro asked default next rfl
    obtain ⟨error, herror⟩ := diceCount_error hcount
    exact ⟨error, fun table => by rw [herror]; rfl⟩
  cases term with
  | generic roll | savage roll | extras roll => exact hstop roll.count _ _ (Option.some.inj h)
  | fudge asked | carcosa asked => exact hstop asked _ _ (Option.some.inj h)
  | weg asked => exact hstop (some asked) _ _ (Option.some.inj h)
  | span low high => cases h

/-- **The limits bound the work.** From a source that answers every draw between bounds in order, a command ends in a
value or in a fault of play. However it ends, it has made no more draws than the limits allow its roll terms, each between
bounds in order. A roll term that asks for fewer dice than one, or for more than the limits allow, draws nothing. -/
theorem evaluateCommand_bounded (hanswers : RandomSource.Answers σ) (limits : Limits) (command : Command)
    (table : Table σ) :
    Play.Ends table (evaluateCommand limits command table) ∧
    (∃ (result : Except Fault Outcome) (change : Change σ),
      evaluateCommand limits command table = Play.ended result (change.on table) ∧
      change.drawn.size ≤ max 1 limits.maxRepeat.toNat * command.rollTerms *
        (3 + 2 * limits.maxDice.toNat * (1 + limits.maxChain.toNat)) ∧
      ∀ draw ∈ change.drawn, draw.low ≤ draw.high) ∧
    ∀ (term : Roll) (count : Nat), term.dice? = some count → (count < 1 ∨ limits.maxDice < count) →
      ∃ error, ∀ before : Table σ, roll limits term before = .error (.ofRule error) before := by
  have huses := uses_evaluateCommand (σ := σ) limits command command.confined
  obtain ⟨result, change, hwithin, hrun⟩ := huses.run table
  refine ⟨safe_evaluateCommand hanswers limits command table, ?_, fun term count => roll_refused⟩
  refine ⟨result, change, hrun table table.sameFor_self, ?_, hwithin.ordered⟩
  rw [Nat.mul_assoc]
  exact hwithin.drawn

/-- Rounds of exploding dice and an action roll whose modifier rolls, then dice that may not be rolled. -/
theorem evaluateCommand_bounded_rounds :
    RandomSource.Answers Scripted.Unfailing ∧
    ∃ command, Command.parse "2x[3d6!; 2s8]; iron+d4; 9d6" = .ok command ∧ command.rollTerms = 5 ∧
      ∃ (result : Except Fault Outcome) (change : Change Scripted.Unfailing),
        evaluateCommand ⟨3, 100, 2, 4⟩ command (Table.new ⟨⟨[some 6, some 6, some 1], 7⟩, by decide⟩) =
          Play.ended result (change.on (Table.new ⟨⟨[some 6, some 6, some 1], 7⟩, by decide⟩)) ∧
        change.drawn.size ≤ 330 ∧ ∀ draw ∈ change.drawn, draw.low ≤ draw.high := by
  have hparses : Command.parses "2x[3d6!; 2s8]; iron+d4; 9d6" (fun command => command.rollTerms == 5) = true := by
    decide +kernel
  obtain ⟨command, hparse, hterms⟩ := Command.ok_of_parses _ hparses
  have hfive : command.rollTerms = 5 := eq_of_beq hterms
  obtain ⟨-, ⟨result, change, hrun, hdrawn, hordered⟩, -⟩ := evaluateCommand_bounded Scripted.Unfailing.answers
    ⟨3, 100, 2, 4⟩ command (Table.new ⟨⟨[some 6, some 6, some 1], 7⟩, by decide⟩)
  rw [hfive] at hdrawn
  exact ⟨Scripted.Unfailing.answers, command, hparse, hfive, result, change, hrun, hdrawn, hordered⟩

end Evaluation
end TabletopDice
