import Mathlib.Data.List.Forall2
import TabletopDice.Proofs.Formation
/-!
# Leaves — the outcomes that a number is added to

A number that is added to repetitions goes through them, and through repetitions of repetitions, to the outcomes that
are none: the leaves. A leaf that is a throw is judged again; any other becomes a sum, whose label states its value and
the number. So a number is added wherever every throw can be judged again, unless the label of some leaf is too long to
be written (`addTo_settled`).
-/
namespace TabletopDice
namespace Outcome

mutual

/-- **The leaves of an outcome**: those of each of its rolls if it is repetitions, and else the outcome itself. -/
def leaves : Outcome → List Outcome
  | multiple _ rolls => leavesOfAll rolls
  | outcome => [outcome]

/-- The leaves of the outcomes of a list. -/
def leavesOfAll : List Outcome → List Outcome
  | [] => []
  | outcome :: rest => leaves outcome ++ leavesOfAll rest

end

theorem mem_leavesOfAll {leaf : Outcome} : ∀ {outcomes : List Outcome},
    leaf ∈ leavesOfAll outcomes ↔ ∃ outcome ∈ outcomes, leaf ∈ outcome.leaves
  | [] => by simp [leavesOfAll]
  | outcome :: rest => by
    rw [leavesOfAll, List.mem_append, mem_leavesOfAll]
    simp

theorem leaves_multiple (value : Int) (rolls : List Outcome) : (multiple value rolls).leaves = leavesOfAll rolls := by
  rw [leaves]

theorem leaves_thrown (value : Int) (throw : Throw) (modifier : Int) (sources : List Outcome) :
    (thrown value throw modifier sources).leaves = [thrown value throw modifier sources] := by
  rw [leaves]
  nofun

theorem leaves_plain {outcome : Outcome} (h : outcome.acceptsModifier = false) : outcome.leaves = [outcome] := by
  cases outcome with
  | thrown | multiple => cases h
  | bare | simple | bounded | flag | sequence => rw [leaves]; simp

/-- **A leaf is a part.** -/
theorem mem_parts_of_mem_leaves {leaf : Outcome} : ∀ {outcome : Outcome}, leaf ∈ outcome.leaves → leaf ∈ outcome.parts
  | multiple value rolls, h => by
    rw [leaves_multiple] at h
    obtain ⟨roll, hr, hleaf⟩ := mem_leavesOfAll.1 h
    have hlt : sizeOf roll < sizeOf (multiple value rolls) := sizeOf_held hr
    exact mem_parts.2 (.inr ⟨roll, hr, mem_parts_of_mem_leaves hleaf⟩)
  | thrown value throw modifier sources, h => by
    rw [leaves_thrown] at h
    exact List.mem_singleton.1 h ▸ self_mem_parts _
  | bare _, h | simple .., h | bounded .., h | flag .., h | sequence .., h => by
    rw [leaves_plain rfl] at h
    exact List.mem_singleton.1 h ▸ self_mem_parts _
  termination_by outcome => sizeOf outcome

/-! ## A number added to every outcome of a list -/

theorem addTo_multiple (delta : Int) (source : Option Outcome) (value : Int) (rolls : List Outcome) :
    addTo delta source (multiple value rolls) =
      (addToAll delta source rolls).map fun added => multiple (sumOf added) added := by
  rw [addTo]
  cases addToAll delta source rolls <;> rfl

theorem addTo_plain {outcome : Outcome} (h : outcome.acceptsModifier = false) (delta : Int) (source : Option Outcome) :
    addTo delta source outcome = outcome.plus delta := by
  cases outcome with
  | thrown | multiple => cases h
  | bare | simple | bounded | flag | sequence => rw [addTo] <;> simp

/-- **A list with a number added** has each of its outcomes with the number added. -/
theorem addToAll_iff {delta : Int} {source : Option Outcome} : ∀ {rolls added : List Outcome},
    addToAll delta source rolls = .ok added ↔
      List.Forall₂ (fun roll after => addTo delta source roll = .ok after) rolls added
  | [], added => by
    rw [addToAll, List.forall₂_nil_left_iff, Except.ok.injEq, eq_comm]
  | roll :: rolls, added => by
    have hrest := @addToAll_iff delta source rolls
    rw [addToAll, List.forall₂_cons_left_iff]
    cases hroll : addTo delta source roll with
    | error fault => simp [bind, Except.bind]
    | ok first =>
      cases hrolls : addToAll delta source rolls with
      | error fault => simp [bind, Except.bind, ← hrest, hrolls]
      | ok others => simp [bind, Except.bind, ← hrest, hrolls, eq_comm (a := added)]

/-- **Repetitions with a number added** are those of the rolls with the number added. -/
theorem addTo_multiple_ok {delta value : Int} {source : Option Outcome} {rolls : List Outcome} {outcome : Outcome}
    (h : addTo delta source (multiple value rolls) = .ok outcome) :
    ∃ added, List.Forall₂ (fun roll after => addTo delta source roll = .ok after) rolls added ∧
      outcome = multiple (sumOf added) added := by
  rw [addTo_multiple] at h
  cases hall : addToAll delta source rolls with
  | error fault => rw [hall] at h; cases h
  | ok added =>
    rw [hall] at h
    cases h
    exact ⟨added, addToAll_iff.1 hall, rfl⟩

/-! ## Where a number can be added -/

/-- The label of the sum that a leaf becomes, if it becomes one, can be written. -/
def Labels (delta : Int) (leaf : Outcome) : Prop :=
  leaf.acceptsModifier = false → Wording.Writable [leaf.value, delta]

/-- A leaf that is a throw can be judged again with a number added. -/
def Rejudges (delta : Int) : Outcome → Prop
  | thrown value throw _ _ => ∃ judged, throw.rejudge (value + delta) = .ok judged
  | _ => True

theorem plus_labels {outcome : Outcome} (h : outcome.acceptsModifier = false) (delta : Int) :
    (∃ sum, outcome.plus delta = .ok sum) ∧ outcome.Labels delta ∨
      outcome.plus delta = .error .unwritable ∧ ¬ outcome.Labels delta := by
  obtain ⟨hsum, hwritable⟩ | ⟨hlong, hnot⟩ := plus_cases outcome delta
  · exact .inl ⟨hsum, fun _ => hwritable⟩
  · exact .inr ⟨hlong, fun hlabels => hnot (hlabels h)⟩

section Settled

variable {delta : Int} (source : Option Outcome)

/-- A list has the number added to each of its outcomes, or some leaf keeps it from that. -/
theorem addToAll_settled : ∀ {rolls : List Outcome},
    (∀ roll ∈ rolls, (∃ added, addTo delta source roll = .ok added) ∧ (∀ leaf ∈ roll.leaves, leaf.Labels delta) ∨
      addTo delta source roll = .error .unwritable ∧ ∃ leaf ∈ roll.leaves, ¬ leaf.Labels delta) →
    (∃ all, addToAll delta source rolls = .ok all) ∧ (∀ leaf ∈ leavesOfAll rolls, leaf.Labels delta) ∨
      addToAll delta source rolls = .error .unwritable ∧ ∃ leaf ∈ leavesOfAll rolls, ¬ leaf.Labels delta
  | [], _ => .inl ⟨⟨[], by rw [addToAll]⟩, List.forall_mem_nil _⟩
  | roll :: rolls, h => by
    obtain ⟨hfirst, hothers⟩ := List.forall_mem_cons.1 h
    rw [addToAll, leavesOfAll]
    obtain ⟨⟨first, hadd⟩, hlabels⟩ | ⟨hlong, leaf, hl, hnot⟩ := hfirst
    · rw [hadd]
      obtain ⟨⟨others, hall⟩, hrest⟩ | ⟨hlong, leaf, hl, hnot⟩ := addToAll_settled hothers
      · exact .inl ⟨⟨first :: others, by rw [hall]; rfl⟩, List.forall_mem_append.2 ⟨hlabels, hrest⟩⟩
      · exact .inr ⟨by rw [hlong]; rfl, leaf, List.mem_append_right _ hl, hnot⟩
    · exact .inr ⟨by rw [hlong]; rfl, leaf, List.mem_append_left _ hl, hnot⟩

/-- **A number is added to an outcome** whose throws can be judged again, unless the label of some leaf is too long to
be written. -/
theorem addTo_settled : ∀ {outcome : Outcome}, (∀ leaf ∈ outcome.leaves, leaf.Rejudges delta) →
    (∃ added, addTo delta source outcome = .ok added) ∧ (∀ leaf ∈ outcome.leaves, leaf.Labels delta) ∨
      addTo delta source outcome = .error .unwritable ∧ ∃ leaf ∈ outcome.leaves, ¬ leaf.Labels delta
  | thrown value throw modifier sources, h => by
    rw [leaves_thrown] at h ⊢
    obtain ⟨judged, hjudged⟩ := List.forall_mem_singleton.1 h
    refine .inl ⟨⟨thrown (value + delta) judged (modifier + delta) (sources ++ source.toList), ?_⟩,
      List.forall_mem_singleton.2 nofun⟩
    rw [addTo, hjudged]
    rfl
  | multiple value rolls, h => by
    rw [leaves_multiple] at h ⊢
    -- the number is added to each of the rolls
    have hrolls : ∀ roll ∈ rolls, (∃ added, addTo delta source roll = .ok added) ∧
        (∀ leaf ∈ roll.leaves, leaf.Labels delta) ∨
          addTo delta source roll = .error .unwritable ∧ ∃ leaf ∈ roll.leaves, ¬ leaf.Labels delta := by
      intro roll hr
      have hlt : sizeOf roll < sizeOf (multiple value rolls) := sizeOf_held hr
      exact addTo_settled fun leaf hl => h leaf (mem_leavesOfAll.2 ⟨roll, hr, hl⟩)
    rw [addTo_multiple]
    obtain ⟨⟨added, hadded⟩, hlabels⟩ | ⟨hlong, hleaf⟩ := addToAll_settled source hrolls
    · exact .inl ⟨⟨multiple (sumOf added) added, by rw [hadded]; rfl⟩, hlabels⟩
    · exact .inr ⟨by rw [hlong]; rfl, hleaf⟩
  | bare _, _ | simple .., _ | bounded .., _ | flag .., _ | sequence .., _ => by
    rw [addTo_plain rfl, leaves_plain rfl]
    exact (plus_labels rfl delta).imp (And.imp_right List.forall_mem_singleton.2)
      (And.imp_right fun hnot => ⟨_, List.mem_singleton_self _, hnot⟩)
  termination_by outcome => sizeOf outcome

end Settled

end Outcome
end TabletopDice
