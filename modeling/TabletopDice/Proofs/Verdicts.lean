import TabletopDice.Proofs.Leaves
/-!
# Verdicts — what is said of a throw follows from its value

A throw says more than its value: the judgement against a target number, which of two dice counts, how many dice
failed. `Throw.Follows` is what each of these has to be for a value and a modifier. A throw just made has them so
(`Rolled.follows`), and a modifier that is added judges again (`Throw.Follows.rejudge`), so every part of an outcome
that evaluation returns has them so, after any chain of modifiers (`returned_follows`).
-/
namespace TabletopDice

open Outcome Evaluation

/-! ## What has to follow -/

/-- **A judgement of a value against a target number**, with a raise for every full interval above it. -/
structure Judgement.Follows (judgement : Judgement) (value target interval : Int) : Prop where
  interval_pos : 1 ≤ interval
  margin : judgement.margin = value - target
  success : judgement.success = true ↔ target ≤ value
  raises (count : Nat) :
    judgement.success = true ∧ (count : Int) ≤ judgement.raises ↔ target + count * interval ≤ value

/-- Dice of one size have a target number, an interval and a judgement, or none of them. -/
def GenericThrow.Follows (throw : GenericThrow) (value : Int) : Prop :=
  (throw.target = none ∧ throw.interval = none ∧ throw.judgement = none) ∨
  ∃ target interval judgement, throw.target = some target ∧ throw.interval = some interval ∧
    throw.judgement = some judgement ∧ judgement.Follows value target interval

/-- Of a trait die and a wild die the higher counts, and the trait die if they tie. -/
structure WildThrow.Follows (throw : WildThrow) (value modifier : Int) : Prop where
  judgement : throw.judgement.Follows value throw.target throw.interval
  value : value = max (throw.traitTotal modifier) (throw.wildTotal modifier)
  used : throw.used = .trait ↔ throw.wildTotal modifier ≤ throw.traitTotal modifier

/-- The value without the modifier counts the dice that reach the threshold. -/
structure CountThrow.Follows (throw : CountThrow) (value modifier : Int) : Prop where
  value : value - modifier = (throw.dice.countP fun die => throw.threshold ≤ die.total : Nat)
  failures : throw.failures = match throw.failure with
    | none => 0
    | some failure => ((throw.dice.countP fun die => die.total ≤ failure : Nat) : Int)

/-- **What is said of a throw follows** from its value and its modifier. -/
def Throw.Follows (value modifier : Int) : Throw → Prop
  | generic throw => throw.Follows value
  | wild throw => throw.Follows value modifier
  | count throw => throw.Follows value modifier
  | weg _ | action _ => True

namespace Outcome

/-- What is said of an outcome besides its value follows. -/
def Follows : Outcome → Prop
  | thrown value throw modifier _ => throw.Follows value modifier
  | _ => True

/-- What is said of each part of an outcome follows. -/
def AllFollow (outcome : Outcome) : Prop := ∀ part ∈ outcome.parts, part.Follows

/-- **The outcomes that evaluation returns**, and those made of them by adding modifiers. -/
inductive Returned (σ : Type) [RandomSource σ] : Outcome → Prop
  | evaluated {limits : Limits} {command : Command} {table after : Table σ} {outcome : Outcome} :
      evaluateCommand limits command table = .ok outcome after → Returned σ outcome
  | modified {delta : Int} {source : Option Outcome} {outcome added : Outcome} : Returned σ outcome →
      (∀ o ∈ source, Returned σ o) → addTo delta source outcome = .ok added → Returned σ added

end Outcome

/-! ## Judgements -/

theorem Judgement.judge_follows {value target interval : Int} {judgement : Judgement}
    (h : judge value target interval = .ok judgement) : judgement.Follows value target interval := by
  unfold judge at h
  split at h
  · cases h
  · rename_i hinterval
    have hpos : 0 < interval := by omega
    simp only at h
    split at h
    · rename_i hmargin
      cases h
      refine ⟨hpos, rfl, by simp only [true_iff]; omega, fun count => ?_⟩
      have hfull : (count : Int) ≤ (value - target) / interval ↔ count * interval ≤ value - target :=
        Int.le_ediv_iff_mul_le hpos
      simp only [true_and, hfull]
      omega
    · rename_i hmargin
      cases h
      refine ⟨hpos, rfl, by simp only [Bool.false_eq_true, false_iff]; omega, fun count => ?_⟩
      have hcount : 0 ≤ (count : Int) * interval := Int.mul_nonneg (Int.natCast_nonneg count) (by omega)
      simp only [Bool.false_eq_true, false_and, false_iff]
      omega

theorem Judgement.exists_judge {interval : Int} (h : 1 ≤ interval) (value target : Int) :
    ∃ judgement, judge value target interval = .ok judgement := by
  unfold judge
  rw [if_neg (by omega)]
  by_cases hmargin : 0 ≤ value - target
  · exact ⟨_, if_pos hmargin⟩
  · exact ⟨_, if_neg hmargin⟩

/-! ## Throws -/

theorem Rolled.follows {throw : Throw} (h : Rolled throw) : throw.Follows throw.total 0 := by
  cases h with
  | summed h =>
    obtain ⟨_, _, _, _, _, -, hjudged, rfl⟩ := summedThrow_ok h
    rcases judged_ok hjudged with hnone | ⟨_, _, _, htarget, hinterval, hjudgement, hjudge⟩
    · exact .inl hnone
    · exact .inr ⟨_, _, _, htarget, hinterval, hjudgement, Judgement.judge_follows hjudge⟩
  | counted spelling dice suffix =>
    refine ⟨Int.sub_zero _, ?_⟩
    cases hfailure : suffix.failure with
    | none => simp
    | some failure => simp
  | @wild spelling trait wild target interval judgement hjudge =>
    refine ⟨Judgement.judge_follows hjudge, ?_, ?_⟩
    · simp only [Throw.total, WildThrow.traitTotal, WildThrow.wildTotal, Int.add_zero]
    · simp only [WildThrow.traitTotal, WildThrow.wildTotal, Int.add_zero]
      by_cases hle : wild.total ≤ trait.total
      · simp [hle]
      · simp [hle]
  | plain => exact .inl ⟨rfl, rfl, rfl⟩
  | weg => trivial

/-- **Adding a modifier judges a throw again**, so that what is said of it still follows. -/
theorem Throw.Follows.rejudge {value modifier : Int} {throw : Throw} (h : throw.Follows value modifier) (delta : Int) :
    ∃ judged, throw.rejudge (value + delta) = .ok judged ∧ judged.Follows (value + delta) (modifier + delta) := by
  cases throw with
  | generic throw =>
    rcases h with ⟨htarget, hinterval, hjudgement⟩ | ⟨target, interval, judgement, htarget, hinterval, -, hfollows⟩
    · refine ⟨.generic throw, ?_, .inl ⟨htarget, hinterval, hjudgement⟩⟩
      simp only [Throw.rejudge, htarget]
    · obtain ⟨again, hagain⟩ := Judgement.exists_judge hfollows.interval_pos (value + delta) target
      refine ⟨.generic { throw with judgement := some again }, ?_, ?_⟩
      · simp only [Throw.rejudge, htarget, hinterval, hagain]
      · exact .inr ⟨target, interval, again, htarget, hinterval, rfl, Judgement.judge_follows hagain⟩
  | wild throw =>
    obtain ⟨again, hagain⟩ := Judgement.exists_judge h.judgement.interval_pos (value + delta) throw.target
    refine ⟨.wild { throw with judgement := again }, by simp only [Throw.rejudge, hagain], ?_⟩
    have hvalue := h.value
    have hused := h.used
    refine ⟨Judgement.judge_follows hagain, ?_, ?_⟩
    · simp only [WildThrow.traitTotal, WildThrow.wildTotal] at hvalue ⊢
      omega
    · simp only [WildThrow.traitTotal, WildThrow.wildTotal] at hused ⊢
      rw [hused]
      omega
  | count throw =>
    have hvalue := h.value
    refine ⟨.count throw, rfl, ?_, h.failures⟩
    omega
  | weg | action => exact ⟨_, rfl, trivial⟩

/-! ## Outcomes -/

namespace Outcome

theorem allFollow_iff {outcome : Outcome} :
    outcome.AllFollow ↔ outcome.Follows ∧ ∀ inside ∈ outcome.held, inside.AllFollow := forall_mem_parts

theorem allFollow_simple {value : Int} {label : String} {operator : Option String} {operands : List Outcome} :
    (simple value label operator operands).AllFollow ↔ ∀ operand ∈ operands, operand.AllFollow :=
  allFollow_iff.trans (iff_of_eq (true_and _))

theorem allFollow_multiple {value : Int} {rolls : List Outcome} :
    (multiple value rolls).AllFollow ↔ ∀ roll ∈ rolls, roll.AllFollow := allFollow_iff.trans (iff_of_eq (true_and _))

theorem AllFollow.plus {outcome sum : Outcome} (h : outcome.AllFollow) {delta : Int}
    (hsum : outcome.plus delta = .ok sum) : sum.AllFollow := by
  obtain ⟨label, -, rfl⟩ := plus_ok hsum
  have hsize : (simple (delta.natAbs : Int) "" none []).AllFollow := allFollow_simple.2 (List.forall_mem_nil _)
  exact allFollow_simple.2 (List.forall_mem_cons.2 ⟨h, List.forall_mem_cons.2 ⟨hsize, List.forall_mem_nil _⟩⟩)

/-- A number can be added to every throw of an outcome of which everything follows. -/
theorem AllFollow.rejudges {outcome : Outcome} (h : outcome.AllFollow) (delta : Int) :
    ∀ leaf ∈ outcome.leaves, leaf.Rejudges delta := by
  intro leaf hl
  have hfollows := h leaf (mem_parts_of_mem_leaves hl)
  cases leaf with
  | thrown value throw modifier sources =>
    obtain ⟨judged, hjudged, -⟩ := Throw.Follows.rejudge hfollows delta
    exact ⟨judged, hjudged⟩
  | bare | multiple | simple | bounded | flag | sequence => trivial

/-- **A modifier added** to an outcome of which everything follows leaves one of which everything follows. -/
theorem AllFollow.addTo {delta : Int} {source : Option Outcome} (hsource : ∀ o ∈ source, o.AllFollow) :
    ∀ {outcome added : Outcome}, outcome.AllFollow → addTo delta source outcome = .ok added → added.AllFollow
  | thrown value throw modifier sources, _, h, hadd => by
    obtain ⟨hthrow, hsources⟩ := allFollow_iff.1 h
    obtain ⟨judged, hjudged, hfollows⟩ := Throw.Follows.rejudge hthrow delta
    obtain ⟨again, hagain, rfl⟩ := addTo_thrown_ok hadd
    cases hjudged.symm.trans hagain
    refine allFollow_iff.2 ⟨hfollows, fun inside hi => ?_⟩
    rcases List.mem_append.1 hi with hi | hi
    · exact hsources inside hi
    · exact hsource inside (Option.mem_toList.1 hi)
  | multiple value rolls, _, h, hadd => by
    obtain ⟨added, hall, rfl⟩ := addTo_multiple_ok hadd
    refine allFollow_multiple.2 fun after ha => ?_
    obtain ⟨roll, hr, hroll⟩ := addToAll_ok (addToAll_iff.2 hall) after ha
    have hlt : sizeOf roll < sizeOf (multiple value rolls) := sizeOf_held hr
    exact AllFollow.addTo hsource (allFollow_multiple.1 h roll hr) hroll
  | bare _, _, h, hadd | simple .., _, h, hadd | bounded .., _, h, hadd | flag .., _, h, hadd
  | sequence .., _, h, hadd => by
    rw [addTo_plain rfl] at hadd
    exact h.plus hadd
  termination_by outcome => sizeOf outcome

theorem AllFollow.keptByExpressions : KeptByExpressions (fun _ => True) (fun _ _ _ => True) AllFollow where
  number _ := allFollow_simple.2 (List.forall_mem_nil _)
  var _ _ := allFollow_simple.2 (List.forall_mem_nil _)
  span _ _ _ := allFollow_simple.2 (List.forall_mem_nil _)
  fresh hrolled := allFollow_iff.2 ⟨hrolled.follows, List.forall_mem_nil _⟩
  volley hrolled := allFollow_multiple.2 <| List.forall_mem_map.2 fun throw hthrow =>
    allFollow_iff.2 ⟨(hrolled throw hthrow).follows, List.forall_mem_nil _⟩
  negated ho hn := by
    obtain ⟨label, rfl⟩ := negated_ok hn
    exact allFollow_simple.2 (by simpa using ho)
  combined hl hr hc := by
    obtain ⟨value, label, -, rfl⟩ := combined_ok hc
    exact allFollow_simple.2 (List.forall_mem_cons.2 ⟨hl, by simpa using hr⟩)
  modified := by
    intro delta source left outcome hl hs hm
    unfold addModifier at hm
    split at hm
    · exact hl.addTo hs hm
    · cases hm
  restricted hi hr := by
    rw [restrict_ok hr]
    exact allFollow_iff.2 ⟨trivial, List.forall_mem_singleton.2 hi⟩

theorem AllFollow.evaluate {σ : Type} [RandomSource σ] {limits : Limits} {expression : Expr} {table after : Table σ}
    {outcome : Outcome} (h : evaluate limits expression table = .ok outcome after) : outcome.AllFollow :=
  evaluate_kept AllFollow.keptByExpressions (fun _ _ _ _ _ _ _ => trivial) expression (fun _ _ => trivial) h

theorem AllFollow.keptByStatements : KeptByStatements AllFollow AllFollow where
  expression h := h
  repeated hrolls := allFollow_multiple.2 hrolls
  ironsworn _ _ := allFollow_iff.2 ⟨trivial, List.forall_mem_nil _⟩
  flag _ := allFollow_iff.2 ⟨trivial, List.forall_mem_nil _⟩

/-- **What is said of every part of an outcome that a command returns follows.** -/
theorem AllFollow.evaluateCommand {σ : Type} [RandomSource σ] {limits : Limits} {command : Command}
    {table after : Table σ} {outcome : Outcome} (h : evaluateCommand limits command table = .ok outcome after) :
    outcome.AllFollow :=
  evaluateCommand_kept AllFollow.keptByExpressions AllFollow.keptByStatements (fun _ _ _ _ _ _ _ => trivial)
    (inSequence_kept fun hall => allFollow_iff.2 ⟨trivial, hall⟩) (fun _ _ _ _ => trivial) h

/-- **What is said of every part of a returned outcome follows from its value**, after any chain of modifiers, and one
more modifier can always be added, unless some leaf becomes a sum whose label is too long to be written. -/
theorem returned_follows {σ : Type} [RandomSource σ] {outcome : Outcome} (h : Returned σ outcome) :
    (∀ part ∈ outcome.parts, part.Follows) ∧
    ∀ (delta : Int) (source : Option Outcome), (∀ o ∈ source, Returned σ o) →
      (∃ added, addTo delta source outcome = .ok added ∧ Returned σ added) ∧
          (∀ leaf ∈ outcome.leaves, leaf.Labels delta) ∨
        addTo delta source outcome = .error .unwritable ∧ ∃ leaf ∈ outcome.leaves, ¬ leaf.Labels delta := by
  have hfollow : outcome.AllFollow := by
    induction h with
    | evaluated hrun => exact AllFollow.evaluateCommand hrun
    | modified _ _ hadd ih ihsource => exact ih.addTo ihsource hadd
  refine ⟨hfollow, fun delta source hsource => ?_⟩
  exact (addTo_settled source (hfollow.rejudges delta)).imp_left
    (And.imp_left fun ⟨added, hadded⟩ => ⟨added, hadded, .modified h hsource hadded⟩)

/-- Rounds of trait rolls less judged dice and of counted dice with a number, and what they return added to each of
them. -/
theorem returned_follows_rounds : ∃ (outcome : Outcome) (after : Table Scripted),
    Evaluation.evaluateCommand ⟨100, 1000, 100, 100⟩
      ⟨.batch 2 [.binary .subtract (.roll (.savage ⟨some 2, 8, none, some ⟨some 6, some 2⟩⟩) 3)
          (.roll (.generic ⟨some 4, .sides 6, true, .total none (some ⟨some 9, none⟩)⟩) 11) 10,
        .binary .add (.roll (.generic ⟨some 3, .sides 6, false, .successes ⟨5, some 1⟩⟩) 18) (.literal 2 26) 25] 0, []⟩
      (Table.new ⟨[some 8, some 1, some 8], 7⟩) = .ok outcome after ∧
    ∃ added, addTo (-3) (some outcome) outcome = .ok added ∧ ∀ part ∈ added.parts, part.Follows := by
  refine Play.exists_of_endsWith (fun outcome => outcome.leaves.all acceptsModifier) (by decide +kernel)
    fun outcome after hrun hthrows => ?_
  have hreturned : Returned Scripted outcome := .evaluated hrun
  have hsource : ∀ o ∈ some outcome, Returned Scripted o := fun _ ho => Option.some.inj ho ▸ hreturned
  have hlabels : ∀ leaf ∈ outcome.leaves, leaf.Labels (-3) := by
    intro leaf hl hplain
    rw [List.all_eq_true.1 hthrows leaf hl] at hplain
    cases hplain
  obtain ⟨⟨added, hadded, hagain⟩, -⟩ | ⟨-, leaf, hl, hnot⟩ :=
    (returned_follows hreturned).2 (-3) (some outcome) hsource
  · exact ⟨added, hadded, (returned_follows hagain).1⟩
  · exact absurd (hlabels leaf hl) hnot

end Outcome

end TabletopDice
