import TabletopDice.Proofs.Sums
/-!
# Modifiers — a number added to an outcome is added to each of its leaves

A modifier goes through repetitions, and repetitions of repetitions, to the outcomes that are none: the leaves. Where
every leaf is a throw whose judgement is that of its value, adding numbers is an action of the whole numbers on
outcomes: adding zero changes nothing, adding one number after another is adding their sum, and the value grows by the
number once for every leaf (`addModifier_additive`).
-/
namespace TabletopDice

/-! ## Judgements that fit -/

/-- **The judgement of a throw is that of a value**, if the throw has a target number. Its interval of raises is
positive then, as there is no judgement otherwise. -/
def Throw.Judged (value : Int) : Throw → Prop
  | generic throw => ∀ target ∈ throw.target, ∃ interval judgement, throw.interval = some interval ∧
      throw.judgement = some judgement ∧ Judgement.judge value target interval = .ok judgement
  | wild throw => Judgement.judge value throw.target throw.interval = .ok throw.judgement
  | count _ | weg _ | action _ => True

theorem Throw.JudgedFor.judged {value : Int} {throw judged : Throw} (h : throw.JudgedFor value judged) :
    judged.Judged value := by
  cases h with
  | untargeted htarget =>
    intro target hsome
    rw [htarget] at hsome
    cases hsome
  | generic htarget hinterval hjudge =>
    intro target hsome
    cases htarget.symm.trans hsome
    exact ⟨_, _, hinterval, rfl, hjudge⟩
  | wild hjudge => exact hjudge
  | count | weg | action => trivial

/-- A throw whose judgement is that of a value stays as it is when it is judged for that value. -/
theorem Throw.Judged.judgedFor {value : Int} {throw : Throw} (h : throw.Judged value) :
    throw.JudgedFor value throw := by
  cases throw with
  | generic throw =>
    cases htarget : throw.target with
    | none => exact .untargeted htarget
    | some target =>
      obtain ⟨interval, judgement, hinterval, hjudgement, hjudge⟩ := h target htarget
      have hagain : ({ throw with judgement := some judgement } : GenericThrow) = throw := by rw [← hjudgement]
      have hfor := Throw.JudgedFor.generic htarget hinterval hjudge
      rwa [hagain] at hfor
  | wild throw => exact Throw.JudgedFor.wild h
  | count | weg | action => constructor

theorem Throw.JudgedFor.rejudge_eq {value : Int} {throw judged : Throw} (h : throw.JudgedFor value judged) :
    throw.rejudge value = .ok judged := by
  cases h with
  | untargeted htarget => simp only [Throw.rejudge, htarget]
  | generic htarget hinterval hjudge => simp only [Throw.rejudge, htarget, hinterval, hjudge]
  | wild hjudge => simp only [Throw.rejudge, hjudge]
  | count | weg | action => rfl

namespace Outcome

/-! ## Adding numbers one after another -/

theorem exists_forall₂ {α β : Type} {R : α → β → Prop} : ∀ {as : List α}, (∀ a ∈ as, ∃ b, R a b) →
    ∃ bs, List.Forall₂ R as bs
  | [], _ => ⟨[], .nil⟩
  | a :: as, h => by
    obtain ⟨b, hb⟩ := h a List.mem_cons_self
    obtain ⟨bs, hbs⟩ := exists_forall₂ fun c hc => h c (List.mem_cons_of_mem _ hc)
    exact ⟨b :: bs, .cons hb hbs⟩

/-- **Throws judged for their value, and repetitions of such** whose value is the sum of theirs. -/
inductive Adjustable : Outcome → Prop
  | thrown {value modifier : Int} {throw : Throw} {sources : List Outcome} : throw.Judged value →
      Adjustable (.thrown value throw modifier sources)
  | multiple {rolls : List Outcome} : (∀ roll ∈ rolls, Adjustable roll) → Adjustable (.multiple (sumOf rolls) rolls)

/-- What a number added makes of an outcome: the value grows by it for every leaf, and more that is added later may as
well have been added with it. -/
structure Shifted (delta : Int) (before after : Outcome) : Prop where
  added : addTo delta none before = .ok after
  adjustable : Adjustable after
  leaves : after.leaves.length = before.leaves.length
  value : after.value = before.value + delta * before.leaves.length
  more (next : Int) : addTo next none after = addTo (delta + next) none before

/-- Repetitions are shifted if each of them is. -/
theorem Shifted.all {delta : Int} {rolls added : List Outcome} (h : List.Forall₂ (Shifted delta) rolls added) :
    (leavesOfAll added).length = (leavesOfAll rolls).length ∧
      sumOf added = sumOf rolls + delta * (leavesOfAll rolls).length ∧
      ∀ next, addToAll next none added = addToAll (delta + next) none rolls := by
  induction h with
  | nil => exact ⟨rfl, by simp [sumOf, leavesOfAll], fun next => by rw [addToAll, addToAll]⟩
  | @cons roll after rolls added hroll _ ih =>
    obtain ⟨hleaves, hsum, hmore⟩ := ih
    refine ⟨?_, ?_, fun next => ?_⟩
    · rw [leavesOfAll, leavesOfAll, List.length_append, List.length_append, hroll.leaves, hleaves]
    · have hcons : ∀ (o : Outcome) (os : List Outcome), sumOf (o :: os) = o.value + sumOf os := fun _ _ => rfl
      rw [hcons, hcons, hroll.value, hsum, leavesOfAll, List.length_append, Int.natCast_add, Int.mul_add]
      omega
    · rw [addToAll, addToAll, hroll.more, hmore]

theorem Adjustable.shifted {outcome : Outcome} (h : Adjustable outcome) (delta : Int) :
    ∃ after, Shifted delta outcome after := by
  induction h with
  | @thrown value modifier throw sources hjudged =>
    obtain ⟨judged, hrejudge, hfor⟩ := hjudged.judgedFor.rejudge (value + delta)
    refine ⟨.thrown (value + delta) judged (modifier + delta) (sources ++ []), ?_, .thrown hfor.judged, ?_, ?_, ?_⟩
    · rw [addTo, hrejudge]
      rfl
    · rw [leaves_thrown, leaves_thrown]
      rfl
    · rw [leaves_thrown]
      exact congrArg (value + ·) (Int.mul_one delta).symm
    · intro next
      -- judging again for another value forgets the judgement between
      obtain ⟨again, hagain, hnext⟩ := hfor.rejudge (value + delta + next)
      rw [addTo, addTo, hagain, ← Int.add_assoc, hnext.rejudge_eq, ← Int.add_assoc]
      simp only [List.append_nil, Option.toList_none]
  | @multiple rolls _ ih =>
    obtain ⟨added, hall⟩ := exists_forall₂ ih
    obtain ⟨hleaves, hsum, hmore⟩ := Shifted.all hall
    have hadded := addToAll_iff.2 (hall.imp fun _ _ h => h.added)
    have hadjustable : ∀ after ∈ added, Adjustable after := by
      intro after hafter
      obtain ⟨i, hi, rfl⟩ := List.mem_iff_getElem.1 hafter
      exact (hall.get (by rw [hall.length_eq]; exact hi) hi).adjustable
    refine ⟨.multiple (sumOf added) added, ?_, .multiple hadjustable, ?_, ?_, fun next => ?_⟩
    · rw [addTo_multiple, hadded]
      rfl
    · rw [leaves_multiple, leaves_multiple, hleaves]
    · rw [leaves_multiple]
      exact hsum
    · rw [addTo_multiple, addTo_multiple, hmore]

theorem Adjustable.addTo_zero {outcome : Outcome} (h : Adjustable outcome) : addTo 0 none outcome = .ok outcome := by
  induction h with
  | @thrown value modifier throw sources hjudged =>
    rw [addTo, Int.add_zero, hjudged.judgedFor.rejudge_eq, Int.add_zero, Option.toList_none, List.append_nil]
    rfl
  | @multiple rolls _ ih =>
    rw [addTo_multiple, addToAll_iff.2 (List.forall₂_same.2 ih)]
    rfl

theorem Adjustable.addModifier {outcome : Outcome} (h : Adjustable outcome) (delta : Int) :
    outcome.addModifier delta none = addTo delta none outcome := by
  cases h <;> rfl

/-- **Adding modifiers is an action of the whole numbers** on throws judged for their value and on repetitions of such:
adding zero changes nothing, adding one number after another is adding their sum. The value grows by the number once for
every leaf. -/
theorem addModifier_additive {outcome : Outcome} (h : Adjustable outcome) (a b : Int) :
    outcome.addModifier 0 none = .ok outcome ∧ ∃ added, outcome.addModifier a none = .ok added ∧ Adjustable added ∧
      added.value = outcome.value + a * outcome.leaves.length ∧
      added.addModifier b none = outcome.addModifier (a + b) none := by
  obtain ⟨added, hshifted⟩ := h.shifted a
  refine ⟨by rw [h.addModifier, h.addTo_zero], added, by rw [h.addModifier, hshifted.added], hshifted.adjustable,
    hshifted.value, ?_⟩
  rw [hshifted.adjustable.addModifier, h.addModifier, hshifted.more]

/-- Judged dice beside a repetition of a trait roll and of plain dice, first lowered and then raised. -/
theorem addModifier_additive_nested : ∃ outcome : Outcome, Adjustable outcome ∧ outcome.value = 24 ∧
    outcome.leaves.length = 3 ∧ outcome.addModifier 0 none = .ok outcome ∧
    ∃ added, outcome.addModifier (-6) none = .ok added ∧ added.value = 6 ∧
      added.addModifier 10 none = outcome.addModifier 4 none := by
  let dice : Outcome := .thrown 8 (.generic ⟨"2d6", 6, false, [.single 3, .single 5], [.single 3, .single 5], [], none,
    some 4, some 4, some ⟨true, 1, 4⟩⟩) 0 []
  let trait : Outcome := .thrown 7 (.wild ⟨"s6", .ofRolls 6 [2], .single 3, .trait, ⟨true, 0, 3⟩, 4, 4⟩) (-1) []
  let plain : Outcome := .thrown 9 (.weg ⟨[3, 4], .single 2⟩) 0 [dice]
  have hdice : Adjustable dice := .thrown fun target htarget => by
    cases htarget
    exact ⟨4, _, rfl, rfl, rfl⟩
  have htrait : Adjustable trait := .thrown rfl
  have hplain : Adjustable plain := .thrown trivial
  have hinner : Adjustable (.multiple 16 [trait, plain]) :=
    .multiple (List.forall_mem_cons.2 ⟨htrait, List.forall_mem_singleton.2 hplain⟩)
  have houtcome : Adjustable (.multiple 24 [dice, .multiple 16 [trait, plain]]) :=
    .multiple (List.forall_mem_cons.2 ⟨hdice, List.forall_mem_singleton.2 hinner⟩)
  obtain ⟨hzero, added, hadded, -, hvalue, hmore⟩ := addModifier_additive houtcome (-6) 10
  exact ⟨_, houtcome, rfl, rfl, hzero, added, hadded, hvalue, hmore⟩

end Outcome
end TabletopDice
