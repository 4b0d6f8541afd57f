import TabletopDice.Proofs.Magnitude
import TabletopDice.Proofs.Modifiers
import TabletopDice.Proofs.Recomputation
/-!
# Consistency — what an outcome says stays true when a number is added

An outcome is consistent if its value is what its structure gives and, for a throw, its judgement is that of its value.
A number can be added to whatever is made of consistent outcomes, as long as the labels of sums can be written. Throws
and repetitions stay consistent. Any other leaf becomes a sum, which gives its value again as long as that has not too
many digits; if it has, the sum is formed all the same, and only computing it again fails (`addTo_consistent`,
`long_sum_not_recomputed`).
-/
namespace TabletopDice

namespace Outcome

/-! ## Consistent outcomes -/

/-- The judgement of an outcome that is a throw with a target number is that of its value. -/
def Judged : Outcome → Prop
  | thrown value throw _ _ => throw.Judged value
  | _ => True

/-- **An outcome that is consistent**: its structure gives its value, and its judgement is that of its value. -/
structure Consistent (outcome : Outcome) : Prop where
  recomputes : outcome.recompute = .ok outcome.value
  judged : outcome.Judged

/-- **Every part of an outcome is consistent.** -/
def AllConsistent (outcome : Outcome) : Prop := ∀ part ∈ outcome.parts, part.Consistent

/-- At worst the value of an outcome has too many digits for its structure to give it. -/
structure Sound (outcome : Outcome) : Prop where
  judged : outcome.Judged
  recomputes : outcome.recompute = .ok outcome.value ∨ outcome.recompute = .error (.rule .tooManyDigits)

/-- A leaf to which a number can be added without a sum of too many digits. -/
def Fits (delta : Int) (leaf : Outcome) : Prop := leaf.acceptsModifier = false → Small (leaf.value + delta)

theorem allConsistent_iff {outcome : Outcome} :
    outcome.AllConsistent ↔ outcome.Consistent ∧ ∀ inside ∈ outcome.held, inside.AllConsistent := forall_mem_parts

theorem Consistent.sound {outcome : Outcome} (h : outcome.Consistent) : outcome.Sound := ⟨h.judged, .inl h.recomputes⟩

theorem allConsistent_number (value : Int) : (simple value "" none []).AllConsistent :=
  allConsistent_iff.2 ⟨⟨rfl, trivial⟩, List.forall_mem_nil _⟩

/-! ## Sums -/

/-- A sum is computed again by the operator that it is written with, which adds the same number. -/
theorem recompute_plus {outcome sum : Outcome} {delta : Int} (h : outcome.plus delta = .ok sum) :
    sum.recompute = (Arithmetic.withinDigits (outcome.value + delta)).mapError .rule := by
  obtain ⟨label, -, rfl⟩ := plus_ok h
  by_cases hdelta : 0 ≤ delta
  · have hsize : outcome.value + (delta.natAbs : Int) = outcome.value + delta := by omega
    rw [← hsize, if_pos hdelta]
    exact Arithmetic.applySymbol_symbol .add outcome.value delta.natAbs
  · have hsize : outcome.value - (delta.natAbs : Int) = outcome.value + delta := by omega
    rw [← hsize, if_neg hdelta]
    exact Arithmetic.applySymbol_symbol .subtract outcome.value delta.natAbs

/-! ## Adding a number -/

/-- A number can be added to every throw of an outcome of consistent parts. -/
theorem AllConsistent.rejudges {outcome : Outcome} (h : outcome.AllConsistent) (delta : Int) :
    ∀ leaf ∈ outcome.leaves, leaf.Rejudges delta := by
  intro leaf hl
  have hjudged := (h leaf (mem_parts_of_mem_leaves hl)).judged
  cases leaf with
  | thrown value throw modifier sources =>
    obtain ⟨judged, hrejudge, -⟩ := (Throw.Judged.judgedFor hjudged).rejudge (value + delta)
    exact ⟨judged, hrejudge⟩
  | bare | multiple | simple | bounded | flag | sequence => trivial

/-- What is made of an outcome by adding a number is sound, and consistent if the number fits every leaf. -/
structure Grown (delta : Int) (before after : Outcome) : Prop where
  sound : ∀ part ∈ after.parts, part.Sound
  consistent : after.AllConsistent ↔ ∀ leaf ∈ before.leaves, leaf.Fits delta

section Grown

variable {delta : Int} {source : Option Outcome}

theorem grown_plus {outcome sum : Outcome} (h : outcome.AllConsistent) (haccepts : outcome.acceptsModifier = false)
    (hsum : outcome.plus delta = .ok sum) : Grown delta outcome sum := by
  have hrecompute := recompute_plus hsum
  obtain ⟨label, -, rfl⟩ := plus_ok hsum
  have hheld : ∀ inside ∈ [outcome, simple (delta.natAbs : Int) "" none []], inside.AllConsistent :=
    List.forall_mem_cons.2 ⟨h, List.forall_mem_singleton.2 (allConsistent_number _)⟩
  have hinside : ∀ inside ∈ [outcome, simple (delta.natAbs : Int) "" none []], ∀ part ∈ inside.parts, part.Sound :=
    fun inside hi part hp => (hheld inside hi part hp).sound
  have hleaf : (∀ leaf ∈ outcome.leaves, leaf.Fits delta) ↔ Small (outcome.value + delta) := by
    rw [leaves_plain haccepts, List.forall_mem_singleton]
    exact ⟨fun hfits => hfits haccepts, fun hsmall _ => hsmall⟩
  by_cases hfits : Small (outcome.value + delta)
  · rw [Arithmetic.withinDigits_small hfits] at hrecompute
    have hself := Consistent.mk hrecompute trivial
    exact ⟨forall_mem_parts.2 ⟨hself.sound, hinside⟩,
      iff_of_true (allConsistent_iff.2 ⟨hself, hheld⟩) (hleaf.2 hfits)⟩
  · rw [Arithmetic.withinDigits_long hfits] at hrecompute
    refine ⟨forall_mem_parts.2 ⟨⟨trivial, .inr hrecompute⟩, hinside⟩, iff_of_false (fun hall => ?_) (mt hleaf.1 hfits)⟩
    have hself := (allConsistent_iff.1 hall).1.recomputes
    rw [hrecompute] at hself
    cases hself

theorem grown_thrown {value modifier : Int} {throw : Throw} {sources : List Outcome} {after : Outcome}
    (h : (thrown value throw modifier sources).AllConsistent) (hsource : ∀ o ∈ source, o.AllConsistent)
    (hadd : addTo delta source (thrown value throw modifier sources) = .ok after) :
    Grown delta (thrown value throw modifier sources) after := by
  obtain ⟨⟨hvalue, hjudged⟩, hsources⟩ := allConsistent_iff.1 h
  obtain ⟨judged, hrejudge, hfor⟩ := (Throw.Judged.judgedFor hjudged).rejudge (value + delta)
  obtain ⟨again, hagain, rfl⟩ := addTo_thrown_ok hadd
  cases hrejudge.symm.trans hagain
  have hsum : throw.total + modifier = value := Except.ok.inj hvalue
  have hself : (thrown (value + delta) judged (modifier + delta) (sources ++ source.toList)).Consistent := by
    refine ⟨?_, hfor.judged⟩
    rw [recompute, Throw.rejudge_total hrejudge, ← Int.add_assoc, hsum]
    rfl
  have hheld : ∀ inside ∈ sources ++ source.toList, inside.AllConsistent := fun inside hi =>
    (List.mem_append.1 hi).elim (hsources inside) fun hi => hsource inside (Option.mem_toList.1 hi)
  have hall := allConsistent_iff.2 ⟨hself, hheld⟩
  refine ⟨fun part hp => (hall part hp).sound, iff_of_true hall ?_⟩
  rw [leaves_thrown]
  exact List.forall_mem_singleton.2 fun hnone => Bool.noConfusion hnone

/-- Repetitions grow with each of their rolls. -/
theorem grown_multiple {value : Int} {rolls added : List Outcome} (h : List.Forall₂ (Grown delta) rolls added) :
    Grown delta (multiple value rolls) (multiple (sumOf added) added) := by
  obtain ⟨hsound, hconsistent⟩ : (∀ after ∈ added, ∀ part ∈ after.parts, part.Sound) ∧
      ((∀ after ∈ added, after.AllConsistent) ↔ ∀ roll ∈ rolls, ∀ leaf ∈ roll.leaves, leaf.Fits delta) := by
    induction h with
    | nil => simp
    | cons hfirst _ ih =>
      refine ⟨List.forall_mem_cons.2 ⟨hfirst.sound, ih.1⟩, ?_⟩
      rw [List.forall_mem_cons, List.forall_mem_cons, hfirst.consistent, ih.2]
  have hself : (multiple (sumOf added) added).Consistent := ⟨rfl, trivial⟩
  refine ⟨forall_mem_parts.2 ⟨hself.sound, hsound⟩, ?_⟩
  rw [leaves_multiple, allConsistent_iff, and_iff_right hself]
  refine hconsistent.trans ⟨fun hall leaf hl => ?_, fun hall roll hr leaf hl => ?_⟩
  · obtain ⟨roll, hr, hl⟩ := mem_leavesOfAll.1 hl
    exact hall roll hr leaf hl
  · exact hall leaf (mem_leavesOfAll.2 ⟨roll, hr, hl⟩)

theorem AllConsistent.grown (hsource : ∀ o ∈ source, o.AllConsistent) : ∀ {outcome after : Outcome},
    outcome.AllConsistent → addTo delta source outcome = .ok after → Grown delta outcome after
  | thrown .., _, h, hadd => grown_thrown h hsource hadd
  | multiple value rolls, _, h, hadd => by
    obtain ⟨added, hall, rfl⟩ := addTo_multiple_ok hadd
    have hrolls : ∀ roll ∈ rolls, ∀ after, addTo delta source roll = .ok after → Grown delta roll after := by
      intro roll hr after hroll
      have hlt : sizeOf roll < sizeOf (multiple value rolls) := sizeOf_held hr
      exact AllConsistent.grown hsource ((allConsistent_iff.1 h).2 roll hr) hroll
    exact grown_multiple (((List.forall₂_and_left rolls added).2 ⟨hrolls, hall⟩).imp fun _ after hroll =>
      hroll.1 after hroll.2)
  | bare _, _, h, hadd | simple .., _, h, hadd | bounded .., _, h, hadd | flag .., _, h, hadd
  | sequence .., _, h, hadd => by
    rw [addTo_plain rfl] at hadd
    exact grown_plus h rfl hadd
  termination_by outcome => sizeOf outcome

end Grown

/-- **A number can be added to an outcome of consistent parts**, unless the label of some leaf is too long to be written.
Every part of what comes out is judged for its value and gives its value again, or has too many digits for that. All of
them are consistent if and only if no leaf that takes no modifier has too many digits with the number added. -/
theorem addTo_consistent {outcome : Outcome} (h : outcome.AllConsistent) {source : Option Outcome}
    (hsource : ∀ o ∈ source, o.AllConsistent) (delta : Int) :
    (∃ added, addTo delta source outcome = .ok added ∧ (∀ leaf ∈ outcome.leaves, leaf.Labels delta) ∧
        (∀ part ∈ added.parts, part.Judged ∧
          (part.recompute = .ok part.value ∨ part.recompute = .error (.rule .tooManyDigits))) ∧
        (added.AllConsistent ↔ ∀ leaf ∈ outcome.leaves, leaf.acceptsModifier = false →
          Small (leaf.value + delta))) ∨
      addTo delta source outcome = .error .unwritable ∧ ∃ leaf ∈ outcome.leaves, ¬ leaf.Labels delta := by
  obtain ⟨⟨added, hadded⟩, hlabels⟩ | hlong := addTo_settled source (h.rejudges delta)
  · have hgrown := h.grown hsource hadded
    exact .inl ⟨added, hadded, hlabels, fun part hp => ⟨(hgrown.sound part hp).judged, (hgrown.sound part hp).recomputes⟩,
      hgrown.consistent⟩
  · exact .inr hlong

theorem allConsistent_multiple {rolls : List Outcome} (h : ∀ roll ∈ rolls, roll.AllConsistent) :
    (multiple (sumOf rolls) rolls).AllConsistent := allConsistent_iff.2 ⟨⟨rfl, trivial⟩, h⟩

/-- Judged dice and a bounded number, lowered by what other dice came to. -/
theorem addTo_consistent_mixed : ∃ outcome source added : Outcome, outcome.AllConsistent ∧ source.AllConsistent ∧
    addTo (-9) (some source) outcome = .ok added ∧ added.AllConsistent ∧ added.value = -6 := by
  let dice : Outcome := .thrown 8 (.generic ⟨"2d6", 6, false, [.single 3, .single 5], [.single 3, .single 5], [], none,
    some 4, some 4, some ⟨true, 1, 4⟩⟩) 0 []
  let number : Outcome := .bounded 4 (.simple 9 "" none []) none (some 4)
  let source : Outcome := .thrown 9 (.weg ⟨[3, 4], .single 2⟩) 0 []
  have hdice : dice.AllConsistent := allConsistent_iff.2 ⟨⟨rfl, fun target htarget => by
    cases htarget
    exact ⟨4, _, rfl, rfl, rfl⟩⟩, List.forall_mem_nil _⟩
  have hnumber : number.AllConsistent :=
    allConsistent_iff.2 ⟨⟨rfl, trivial⟩, List.forall_mem_singleton.2 (allConsistent_number 9)⟩
  have hsource : source.AllConsistent := allConsistent_iff.2 ⟨⟨rfl, trivial⟩, List.forall_mem_nil _⟩
  have hsources : ∀ o ∈ some source, o.AllConsistent := fun _ ho => Option.some.inj ho ▸ hsource
  have houtcome : (multiple 12 [dice, number]).AllConsistent :=
    allConsistent_multiple (List.forall_mem_cons.2 ⟨hdice, List.forall_mem_singleton.2 hnumber⟩)
  have hfits : ∀ leaf ∈ (multiple 12 [dice, number]).leaves, leaf.acceptsModifier = false → Small (leaf.value + -9) :=
    List.forall_mem_cons.2 ⟨nofun, List.forall_mem_singleton.2 fun _ => by decide⟩
  have hlabels : ∀ leaf ∈ (multiple 12 [dice, number]).leaves, leaf.Labels (-9) :=
    List.forall_mem_cons.2 ⟨nofun, List.forall_mem_singleton.2 fun _ => by decide +kernel⟩
  obtain ⟨added, hadded, -, -, hconsistent⟩ | ⟨-, leaf, hl, hnot⟩ := addTo_consistent houtcome hsources (-9)
  · refine ⟨_, source, added, houtcome, hsource, hadded, hconsistent.2 hfits, ?_⟩
    obtain ⟨rolls, hrolls, rfl⟩ := addTo_multiple_ok hadded
    obtain ⟨first, _, hfirst, hrest, rfl⟩ := List.forall₂_cons_left_iff.1 hrolls
    obtain ⟨second, _, hsecond, hnil, rfl⟩ := List.forall₂_cons_left_iff.1 hrest
    cases List.forall₂_nil_left_iff.1 hnil
    obtain ⟨judged, -, rfl⟩ := addTo_thrown_ok hfirst
    rw [addTo_plain rfl] at hsecond
    obtain ⟨label, -, rfl⟩ := plus_ok hsecond
    rfl
  · exact absurd (hlabels leaf hl) hnot

/-- A number of too many digits can be added to a number, and the sum is no more what its structure gives. -/
theorem long_sum_not_recomputed : ¬ ∀ (outcome : Outcome) (delta : Int), outcome.AllConsistent →
    (∃ error, addTo delta none outcome = .error (.rule error)) ∨
      ∃ added, addTo delta none outcome = .ok added ∧ added.AllConsistent := by
  intro hall
  have houtcome : (multiple 5 [simple 5 "" none []]).AllConsistent :=
    allConsistent_multiple (List.forall_mem_singleton.2 (allConsistent_number 5))
  have hsource : ∀ o ∈ (none : Option Outcome), o.AllConsistent := nofun
  have hlabels : ∀ leaf ∈ (multiple 5 [simple 5 "" none []]).leaves, leaf.Labels (Nat.pow 10 maxResultDigits : Nat) :=
    List.forall_mem_singleton.2 fun _ => by decide +kernel
  obtain ⟨⟨after, hafter⟩, -⟩ | ⟨-, leaf, hl, hnot⟩ :=
    addTo_settled none (houtcome.rejudges (Nat.pow 10 maxResultDigits : Nat))
  · have hgrown := houtcome.grown hsource hafter
    rcases hall _ _ houtcome with ⟨error, herror⟩ | ⟨added, hadded, hconsistent⟩
    · rw [hafter] at herror
      cases herror
    · cases hafter.symm.trans hadded
      exact absurd (hgrown.consistent.1 hconsistent _ List.mem_cons_self rfl) (by decide)
  · exact absurd (hlabels leaf hl) hnot

end Outcome
end TabletopDice
