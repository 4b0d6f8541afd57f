import TabletopDice.Outcome
/-!
# Parts — the outcomes inside an outcome

An outcome holds the outcomes that it was made from: the sources of its modifier, its repetitions, its operands, what
it bounds, the results of its statements. Its parts are itself and the parts of those.
-/
namespace TabletopDice
namespace Outcome

/-- The outcomes that an outcome holds. -/
def held : Outcome → List Outcome
  | bare _ => []
  | thrown _ _ _ sources => sources
  | multiple _ rolls => rolls
  | simple _ _ _ operands => operands
  | bounded _ inner _ _ => [inner]
  | flag _ _ => []
  | sequence _ results => results

mutual

/-- **The parts of an outcome**: itself, and the parts of every outcome that it holds. -/
def parts : Outcome → List Outcome
  | bare value => [bare value]
  | thrown value throw modifier sources => thrown value throw modifier sources :: partsOfAll sources
  | multiple value rolls => multiple value rolls :: partsOfAll rolls
  | simple value label operator operands => simple value label operator operands :: partsOfAll operands
  | bounded value inner minimum maximum => bounded value inner minimum maximum :: parts inner
  | flag value name => [flag value name]
  | sequence value results => sequence value results :: partsOfAll results

/-- The parts of the outcomes of a list. -/
def partsOfAll : List Outcome → List Outcome
  | [] => []
  | outcome :: rest => parts outcome ++ partsOfAll rest

end

theorem mem_partsOfAll {part : Outcome} : ∀ {outcomes : List Outcome},
    part ∈ partsOfAll outcomes ↔ ∃ outcome ∈ outcomes, part ∈ outcome.parts
  | [] => by simp [partsOfAll]
  | outcome :: rest => by
    have hrest := @mem_partsOfAll part rest
    rw [partsOfAll, List.mem_append, hrest]
    simp

theorem parts_eq (outcome : Outcome) : outcome.parts = outcome :: partsOfAll outcome.held := by
  cases outcome <;> simp [parts, held, partsOfAll]

/-- **A part is the outcome itself or a part of an outcome that it holds.** -/
theorem mem_parts {part outcome : Outcome} :
    part ∈ outcome.parts ↔ part = outcome ∨ ∃ inside ∈ outcome.held, part ∈ inside.parts := by
  rw [parts_eq, List.mem_cons, mem_partsOfAll]

theorem self_mem_parts (outcome : Outcome) : outcome ∈ outcome.parts := mem_parts.2 (.inl rfl)

theorem eq_of_mem_parts {part outcome : Outcome} (h : outcome.held = []) (hp : part ∈ outcome.parts) :
    part = outcome := by
  rcases mem_parts.1 hp with e | ⟨inside, hi, -⟩
  · exact e
  · rw [h] at hi
    cases hi

theorem sizeOf_held {outcome inside : Outcome} (h : inside ∈ outcome.held) : sizeOf inside < sizeOf outcome := by
  cases outcome with
  | bare | flag => cases h
  | bounded value inner minimum maximum =>
    rw [List.mem_singleton.1 h, bounded.sizeOf_spec]
    omega
  | thrown | multiple | simple | sequence =>
    have hlt := List.sizeOf_lt_of_mem h
    simp only [held, thrown.sizeOf_spec, multiple.sizeOf_spec, simple.sizeOf_spec, sequence.sizeOf_spec] at hlt ⊢
    omega

/-- What holds of every part holds of the outcome and of the parts of what it holds. -/
theorem forall_mem_parts {P : Outcome → Prop} {outcome : Outcome} :
    (∀ part ∈ outcome.parts, P part) ↔ P outcome ∧ ∀ inside ∈ outcome.held, ∀ part ∈ inside.parts, P part := by
  constructor
  · intro h
    exact ⟨h outcome (self_mem_parts outcome), fun inside hi part hp => h part (mem_parts.2 (.inr ⟨inside, hi, hp⟩))⟩
  · rintro ⟨hself, hheld⟩ part hp
    rcases mem_parts.1 hp with rfl | ⟨inside, hi, hp⟩
    · exact hself
    · exact hheld inside hi part hp

/-- **A part of a part is a part.** -/
theorem mem_parts_trans {part inside outcome : Outcome} (hp : part ∈ inside.parts) (hi : inside ∈ outcome.parts) :
    part ∈ outcome.parts := by
  rcases mem_parts.1 hi with rfl | ⟨next, hn, hi⟩
  · exact hp
  · exact mem_parts.2 (.inr ⟨next, hn, mem_parts_trans hp hi⟩)
  termination_by sizeOf outcome
  decreasing_by exact sizeOf_held hn

end Outcome
end TabletopDice
