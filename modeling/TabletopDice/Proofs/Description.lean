import TabletopDice.Outcome.Json
import TabletopDice.Proofs.Failure
import TabletopDice.Proofs.Parts
/-!
# Description — which outcomes are data

An outcome has data that says everything, however long the numbers in it are (`data`). It is that data just if each of
its parts can be described; otherwise one of them holds a number that is too long, and there is no data at all
(`toJson_ok`, `toJson_error`).
-/
namespace TabletopDice
namespace Outcome

/-- **An outcome that can be described**, and each of its parts too. -/
def Describable (outcome : Outcome) : Prop := ∀ part ∈ outcome.parts, part.wording.Writable

/-- An outcome as data around what it holds, however long the numbers in its description are. -/
def wordedAround (inside : Json) (outcome : Outcome) : Json := outcome.dataAround inside outcome.wording.text

mutual

/-- **The data of an outcome**, however long the numbers in its descriptions are. -/
def data : Outcome → Json
  | bare value => (bare value).wordedAround .null
  | thrown value throw modifier sources => (thrown value throw modifier sources).wordedAround (.array (dataAll sources))
  | multiple value rolls => (multiple value rolls).wordedAround (.array (dataAll rolls))
  | simple value label operator operands =>
    (simple value label operator operands).wordedAround (.array (dataAll operands))
  | bounded value inner minimum maximum => (bounded value inner minimum maximum).wordedAround (data inner)
  | flag value name => (flag value name).wordedAround .null
  | sequence value results => (sequence value results).wordedAround (.array (dataAll results))

/-- The data of outcomes. -/
def dataAll : List Outcome → List Json
  | [] => []
  | outcome :: outcomes => data outcome :: dataAll outcomes

end

theorem dataAll_eq_map (outcomes : List Outcome) : dataAll outcomes = outcomes.map data := by
  induction outcomes with
  | nil => rfl
  | cons outcome outcomes ih => rw [dataAll, ih, List.map_cons]

/-! ## Data and descriptions -/

theorem describable_iff {outcome : Outcome} :
    outcome.Describable ↔ outcome.wording.Writable ∧ ∀ inside ∈ outcome.held, inside.Describable := forall_mem_parts

/-- What an outcome holds, as it stands in the data of the outcome. -/
def around (outcome : Outcome) (inside : List Json) : Json :=
  match outcome with
  | bare _ | flag .. => .null
  | bounded .. => inside.headD .null
  | _ => .array inside

theorem data_eq (outcome : Outcome) : outcome.data = outcome.wordedAround (outcome.around (dataAll outcome.held)) := by
  cases outcome <;> rfl

/-- **Every outcome is made data in one way**: first what it holds, then its description, then the data around both. -/
theorem toJson_eq (outcome : Outcome) :
    outcome.toJson = toJsonAll outcome.held >>= fun inside => outcome.describedAround (outcome.around inside) := by
  cases outcome with
  | bounded value inner minimum maximum =>
    rw [toJson, held, toJsonAll, toJsonAll]
    cases inner.toJson <;> rfl
  | _ => rfl

theorem describedAround_writable {outcome : Outcome} (h : outcome.wording.Writable) (inside : Json) :
    outcome.describedAround inside = .ok (outcome.wordedAround inside) := by
  rw [describedAround, describe, Wording.write_eq h]
  rfl

theorem describedAround_unwritable {outcome : Outcome} (h : ¬ outcome.wording.Writable) (inside : Json) :
    outcome.describedAround inside = .error .unwritable := by
  rw [describedAround, describe, Wording.write_error.2 ⟨h, rfl⟩]
  rfl

/-- Outcomes are their data if each of them is, and none of them is data if one is not. -/
theorem toJsonAll_cases : ∀ {outcomes : List Outcome}, (∀ outcome ∈ outcomes,
    outcome.Describable ∧ outcome.toJson = .ok outcome.data ∨
      ¬ outcome.Describable ∧ outcome.toJson = .error .unwritable) →
    (∀ outcome ∈ outcomes, outcome.Describable) ∧ toJsonAll outcomes = .ok (dataAll outcomes) ∨
      (¬ ∀ outcome ∈ outcomes, outcome.Describable) ∧ toJsonAll outcomes = .error .unwritable
  | [], _ => .inl ⟨List.forall_mem_nil _, rfl⟩
  | outcome :: outcomes, h => by
    rw [List.forall_mem_cons, toJsonAll, dataAll]
    obtain ⟨hfirst, hothers⟩ := List.forall_mem_cons.1 h
    obtain ⟨hd, hj⟩ | ⟨hd, hj⟩ := hfirst
    · rw [hj]
      obtain ⟨hds, hjs⟩ | ⟨hds, hjs⟩ := toJsonAll_cases hothers
      · exact .inl ⟨⟨hd, hds⟩, by rw [hjs]; rfl⟩
      · exact .inr ⟨fun hall => hds hall.2, by rw [hjs]; rfl⟩
    · exact .inr ⟨fun hall => hd hall.1, by rw [hj]; rfl⟩

/-- **An outcome is its data, or no data because it cannot be described.** -/
theorem toJson_cases (outcome : Outcome) :
    outcome.Describable ∧ outcome.toJson = .ok outcome.data ∨
      ¬ outcome.Describable ∧ outcome.toJson = .error .unwritable := by
  have hheld := toJsonAll_cases fun inside hin =>
    have : sizeOf inside < sizeOf outcome := sizeOf_held hin
    toJson_cases inside
  rw [describable_iff, toJson_eq, data_eq]
  obtain ⟨hds, hjs⟩ | ⟨hds, hjs⟩ := hheld
  · rw [hjs]
    by_cases hself : outcome.wording.Writable
    · exact .inl ⟨⟨hself, hds⟩, describedAround_writable hself _⟩
    · exact .inr ⟨fun h => hself h.1, describedAround_unwritable hself _⟩
  · exact .inr ⟨fun h => hds h.2, by rw [hjs]; rfl⟩
  termination_by sizeOf outcome

/-- **An outcome is data just if it can be described**, and then it is its data. -/
theorem toJson_ok {outcome : Outcome} {json : Json} :
    outcome.toJson = .ok json ↔ outcome.Describable ∧ json = outcome.data := by
  obtain ⟨hd, hj⟩ | ⟨hd, hj⟩ := toJson_cases outcome
  · rw [hj]
    exact ⟨fun e => ⟨hd, (Except.ok.inj e).symm⟩, fun ⟨_, e⟩ => e ▸ rfl⟩
  · rw [hj]
    exact ⟨nofun, fun ⟨h, _⟩ => absurd h hd⟩

/-- **An outcome that is no data** cannot be described, and that is the fault. -/
theorem toJson_error {outcome : Outcome} {fault : Fault} :
    outcome.toJson = .error fault ↔ ¬ outcome.Describable ∧ fault = .unwritable := by
  obtain ⟨hd, hj⟩ | ⟨hd, hj⟩ := toJson_cases outcome
  · rw [hj]
    exact ⟨nofun, fun ⟨h, _⟩ => absurd hd h⟩
  · rw [hj]
    exact ⟨fun e => ⟨hd, (Except.error.inj e).symm⟩, fun ⟨_, e⟩ => e ▸ rfl⟩

end Outcome
end TabletopDice
