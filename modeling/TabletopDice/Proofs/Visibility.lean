import Mathlib.Algebra.Order.Group.Multiset
import TabletopDice.Proofs.Formation
import TabletopDice.Proofs.Grammar.Soundness
/-!
# Visibility — the numbers drawn are found in the outcome

An outcome records the rolls of its dice and the numbers from ranges, its own and those of the outcomes that it holds.
`Play.Draws` says of a play what stands between its result and the numbers that it adds to the draws of the table; the
rules below put it together along the play. What an expression draws is recorded in its outcome: an operator that adds
to its left operand keeps the right one as a source, and repetitions keep it in every roll. An action roll keeps only
the value of its modifier, so what the modifier draws is recorded nowhere (`draws_recorded`).
-/
namespace TabletopDice

open Outcome

/-! ## What an outcome records -/

/-- **The numbers that a throw records**: every roll of its dice. -/
def Throw.recorded : Throw → Multiset Int
  | generic throw => (throw.dice.flatMap Die.rolls : List Int)
  | wild throw => (throw.trait.rolls : Multiset Int) + (throw.wild.rolls : List Int)
  | count throw => (throw.dice.flatMap Die.rolls : List Int)
  | weg throw => (throw.dice : Multiset Int) + (throw.wild.rolls : List Int)
  | action throw => {throw.action, throw.firstChallenge, throw.secondChallenge}

/-- The label of a number from a range: two numerals with two dashes between them. -/
def isSpanLabel (label : String) : Bool :=
  let low := label.toList.takeWhile Char.isDigit
  match label.toList.dropWhile Char.isDigit with
  | '-' :: '-' :: high => !low.isEmpty && !high.isEmpty && high.all Char.isDigit
  | _ => false

namespace Outcome

mutual

/-- **The numbers that an outcome records**, its own and those of its sources, rolls, operands and results. What bounds
hold is not looked into. -/
def recorded : Outcome → Multiset Int
  | bare _ | bounded .. | flag .. => 0
  | thrown _ throw _ sources => throw.recorded + recordedAll sources
  | multiple _ rolls => recordedAll rolls
  | simple value label none operands => (if isSpanLabel label then {value} else 0) + recordedAll operands
  | simple _ _ (some _) operands => recordedAll operands
  | sequence _ results => recordedAll results

/-- The numbers that outcomes record. -/
def recordedAll : List Outcome → Multiset Int
  | [] => 0
  | outcome :: outcomes => recorded outcome + recordedAll outcomes

end

@[simp] theorem recordedAll_nil : recordedAll [] = 0 := rfl

@[simp] theorem recordedAll_cons (outcome : Outcome) (outcomes : List Outcome) :
    recordedAll (outcome :: outcomes) = outcome.recorded + recordedAll outcomes := rfl

theorem recordedAll_append : ∀ outcomes others : List Outcome,
    recordedAll (outcomes ++ others) = recordedAll outcomes + recordedAll others
  | [], others => by simp
  | outcome :: outcomes, others => by
    rw [List.cons_append, recordedAll_cons, recordedAll_cons, recordedAll_append outcomes others, add_assoc]

@[simp] theorem recorded_fresh (throw : Throw) : (Evaluation.fresh throw).recorded = throw.recorded := by
  simp [Evaluation.fresh, recorded]

@[simp] theorem recorded_repeated (rolls : List Outcome) : (Evaluation.repeated rolls).recorded = recordedAll rolls := by
  rw [Evaluation.repeated, recorded]

theorem recorded_together : ∀ outcomes : List Outcome, (Evaluation.together outcomes).recorded = recordedAll outcomes
  | [] | _ :: _ :: _ => by rw [Evaluation.together, recorded]; simp
  | [outcome] => by simp [Evaluation.together]

theorem recorded_inSequence (first : Outcome) (others : List Outcome) :
    (Evaluation.inSequence first others).recorded = recordedAll (first :: others) := by
  unfold Evaluation.inSequence
  cases h : others.getLast? with
  | none => simp [List.getLast?_eq_none_iff.1 h]
  | some last => rfl

end Outcome

theorem isSpanLabel_range (low high : Nat) : isSpanLabel (toString low ++ "--" ++ toString high) = true := by
  have hdigit : ∀ n, ∀ c ∈ Nat.toDigits 10 n, c.isDigit = true := fun n c hc =>
    Nat.isDigit_of_mem_toDigits (by decide) (by decide) hc
  have hlist : (toString low ++ "--" ++ toString high).toList =
      Nat.toDigits 10 low ++ '-' :: '-' :: Nat.toDigits 10 high := by
    simp
  have hlow : (Nat.toDigits 10 low ++ '-' :: '-' :: Nat.toDigits 10 high).takeWhile Char.isDigit =
      Nat.toDigits 10 low := by
    rw [List.takeWhile_append_of_pos (hdigit low), List.takeWhile_cons_of_neg (by decide), List.append_nil]
  have hhigh : (Nat.toDigits 10 low ++ '-' :: '-' :: Nat.toDigits 10 high).dropWhile Char.isDigit =
      '-' :: '-' :: Nat.toDigits 10 high := by
    rw [List.dropWhile_append_of_pos (hdigit low), List.dropWhile_cons_of_neg (by decide)]
  simp only [isSpanLabel, hlist, hlow, hhigh]
  simpa [Nat.toDigits_ne_nil] using hdigit high

/-! ## What a play draws -/

/-- The numbers of draws, in whatever order. -/
def numbersOf (draws : List Draw) : Multiset Int := (draws.map Draw.value : List Int)

namespace Play

variable {σ α β : Type} {R S : α → Multiset Int → Prop}

/-- **What a play draws**: if it ends in a value, it has only added to the draws of the table, and the value stands in
that relation to the numbers added. -/
def Draws (play : Play σ α) (R : α → Multiset Int → Prop) : Prop :=
  ∀ (table : Table σ) (a : α) (after : Table σ), play table = .ok a after →
    ∃ drawn, after.draws.toList = table.draws.toList ++ drawn ∧ R a (numbersOf drawn)

theorem draws_of_kept {play : Play σ α}
    (hkept : ∀ (table : Table σ) (a : α) (after : Table σ), play table = .ok a after →
      after.draws = table.draws ∧ R a 0) : Draws play R := by
  intro table a after h
  obtain ⟨hdraws, ha⟩ := hkept table a after h
  exact ⟨[], by rw [hdraws, List.append_nil], ha⟩

theorem draws_pure {a : α} (h : R a 0) : Draws (pure a : Play σ α) R :=
  draws_of_kept fun table b after hplay => by
    obtain ⟨rfl, rfl⟩ := pure_ok hplay
    exact ⟨rfl, h⟩

theorem draws_ofExcept {result : Except Fault α} (h : ∀ a, result = .ok a → R a 0) :
    Draws (ofExcept result : Play σ α) R :=
  draws_of_kept fun table a after hplay => by
    obtain ⟨hresult, rfl⟩ := ofExcept_ok hplay
    exact ⟨rfl, h a hresult⟩

theorem draws_ofRule {result : Except RuleError α} (h : ∀ a, result = .ok a → R a 0) :
    Draws (ofRule result : Play σ α) R := by
  rw [ofRule_eq]
  exact draws_ofExcept fun a ha => h a (Failure.mapError_ok ha)

theorem draws_report (event : Event) : Draws (report event : Play σ Unit) fun _ m => m = 0 :=
  draws_of_kept fun table a after hplay => by
    obtain ⟨-, rfl⟩ := report_ok hplay
    exact ⟨rfl, rfl⟩

theorem Draws.mono {play : Play σ α} (h : Draws play R) (himp : ∀ a m, R a m → S a m) : Draws play S := by
  intro table a after hplay
  obtain ⟨drawn, hdraws, ha⟩ := h table a after hplay
  exact ⟨drawn, hdraws, himp a _ ha⟩

/-- What is known of the results alone may be used as well. -/
theorem Draws.and_ok {play : Play σ α} {P : α → Prop} (h : Draws play R)
    (hP : ∀ (table : Table σ) (a : α) (after : Table σ), play table = .ok a after → P a) :
    Draws play fun a m => P a ∧ R a m := by
  intro table a after hplay
  obtain ⟨drawn, hdraws, ha⟩ := h table a after hplay
  exact ⟨drawn, hdraws, hP table a after hplay, ha⟩

/-- **A sequence draws what its plays draw**, the first before the second. -/
theorem Draws.bind {play : Play σ α} {next : α → Play σ β} {T : β → Multiset Int → Prop} (h : Draws play R)
    (hnext : ∀ a m, R a m → Draws (next a) fun b n => T b (m + n)) : Draws (play >>= next) T := by
  intro table b after hplay
  obtain ⟨a, middle, hfirst, hsecond⟩ := bind_ok hplay
  obtain ⟨drawn, hdraws, ha⟩ := h table a middle hfirst
  obtain ⟨more, hmore, hb⟩ := hnext a _ ha middle b after hsecond
  refine ⟨drawn ++ more, by rw [hmore, hdraws, List.append_assoc], ?_⟩
  rw [numbersOf, List.map_append, ← Multiset.coe_add]
  exact hb

/-- A check before a play draws nothing. -/
theorem draws_ofRule_bind {result : Except RuleError α} {next : α → Play σ β} {T : β → Multiset Int → Prop}
    (h : ∀ a, result = .ok a → Draws (next a) T) : Draws (ofRule result >>= next) T := by
  have hcheck : Draws (ofRule result : Play σ α) fun a m => result = .ok a ∧ m = 0 :=
    draws_ofRule fun a ha => ⟨ha, rfl⟩
  refine hcheck.bind fun a m ha => (h a ha.1).mono fun b n hb => ?_
  rw [ha.2, zero_add]
  exact hb

/-- A sequence taken apart: what its second play draws comes last. -/
theorem draws_last {play : Play σ α} {next : α → Play σ β} {T : β → Multiset Int → Prop} {table after : Table σ} {b : β}
    (h : (play >>= next) table = .ok b after) (hnext : ∀ a, Draws (next a) T) :
    ∃ a middle own, play table = .ok a middle ∧ after.draws.toList = middle.draws.toList ++ own ∧
      T b (numbersOf own) := by
  obtain ⟨a, middle, hfirst, hsecond⟩ := bind_ok h
  obtain ⟨own, hdraws, hb⟩ := hnext a middle b after hsecond
  exact ⟨a, middle, own, hfirst, hdraws, hb⟩

theorem Draws.bind_none {play : Play σ α} {next : α → Play σ β} (h : Draws play fun _ m => m = 0)
    (hnext : ∀ a, Draws (next a) fun _ n => n = 0) : Draws (play >>= next) fun _ n => n = 0 :=
  h.bind fun a m hm => (hnext a).mono fun b n hn => by rw [hm, hn, add_zero]

theorem Draws.map {play : Play σ α} {f : α → β} {T : β → Multiset Int → Prop}
    (h : Draws play fun a m => T (f a) m) : Draws (f <$> play) T := by
  intro table b after hplay
  obtain ⟨a, hfirst, rfl⟩ := map_ok hplay
  exact h table a after hfirst

/-- **A repeated play draws what its rounds draw.** -/
theorem Draws.times {play : Play σ α} {T : List α → Multiset Int → Prop} (h : Draws play R) (hnil : T [] 0)
    (hcons : ∀ a m values n, R a m → T values n → T (a :: values) (m + n)) :
    ∀ count, Draws (times play count) T
  | 0 => draws_pure hnil
  | count + 1 => by
    refine h.bind fun a m ha => (Draws.times h hnil hcons count).bind fun values n hvalues => draws_pure ?_
    rw [add_zero]
    exact hcons a m values n ha hvalues

theorem draws_draw [RandomSource σ] (low high : Int) : Draws (draw low high : Play σ Int) fun n m => m = {n} := by
  intro table n after h
  unfold draw at h
  cases hd : RandomSource.draw low high table.source with
  | mk answer next =>
    rw [hd] at h
    cases answer with
    | none => cases h
    | some number =>
      cases h
      exact ⟨[⟨low, high, n⟩], by simp, rfl⟩

end Play

/-! ## Dice -/

open Play

theorem Die.rolls_ofRolls : ∀ (first : Int) (rest : List Int), (Die.ofRolls first rest).rolls = first :: rest
  | first, [] => rfl
  | first, second :: rest => by
    have hrest := Die.rolls_ofRolls second rest
    rw [Die.ofRolls]
    exact congrArg (first :: ·) hrest

section Rolls

variable {σ : Type} [RandomSource σ]

namespace Roller

theorem draws_die (sides : Int) : Draws (die sides : Play σ Int) fun n m => m = {n} := by
  unfold die
  split
  · intro table n after h
    cases h
  · exact draws_draw 1 sides

theorem draws_followers (sides : Int) : ∀ (budget : Nat) (roll : Int),
    Draws (followers sides budget roll : Play σ (List Int)) fun rolls m => m = rolls
  | 0, roll => draws_pure rfl
  | budget + 1, roll => by
    rw [followers]
    split
    · refine (draws_draw 1 sides).bind fun next m hnext => (draws_followers sides budget next).bind fun rest n hrest => ?_
      refine draws_pure ?_
      rw [hnext, hrest, add_zero]
      rfl
    · exact draws_pure rfl

/-- **An acing die keeps all its rolls.** -/
theorem draws_acing (budget sides : Int) : Draws (acing budget sides : Play σ Die) fun die m => m = die.rolls := by
  refine (draws_die sides).bind fun first m hfirst => (draws_followers sides _ first).bind fun rest n hrest => ?_
  have hrolls : m + n = ((Die.ofRolls first rest).rolls : List Int) := by
    rw [hfirst, hrest, Die.rolls_ofRolls]
    rfl
  dsimp only
  split
  · refine (draws_report _).bind fun _ k hk => draws_pure ?_
    rw [hk, add_zero, add_zero, hrolls]
  · exact draws_pure (by rw [add_zero, hrolls])

end Roller

namespace Evaluation

open Roller

variable {limits : Limits}

theorem draws_dice (acing : Bool) (sides : Int) (count : Nat) :
    Draws (rollDice limits acing sides count : Play σ (List Die)) fun dice m =>
      m = (dice.flatMap Die.rolls : List Int) := by
  have hall : ∀ {die : Play σ Die}, Draws die (fun die m => m = die.rolls) →
      Draws (Play.times die count) fun dice m => m = (dice.flatMap Die.rolls : List Int) := fun hdie =>
    hdie.times rfl (fun die m dice n hm hn => by rw [hm, hn, List.flatMap_cons, ← Multiset.coe_add]) count
  unfold rollDice
  split
  · exact hall (draws_acing limits.maxChain sides)
  · exact hall ((draws_die sides).mono fun n m hm => hm).map

theorem draws_plainDice (sides : Int) (count : Nat) :
    Draws (Play.times (die sides) count : Play σ (List Int)) fun values m => m = values :=
  (draws_die sides).times rfl (fun n m values k hm hk => by rw [hm, hk]; rfl) count

theorem summedThrow_recorded {spelling : String} {sides : Int} {acing : Bool} {dice : List Die}
    {keep : Option KeepSuffix} {target : Option TargetSuffix} {throw : Throw}
    (h : summedThrow spelling sides acing dice keep target = .ok throw) :
    throw.recorded = (dice.flatMap Die.rolls : List Int) := by
  obtain ⟨_, _, _, _, _, -, -, rfl⟩ := summedThrow_ok h
  rfl

/-- A throw just made that records what was drawn for it. -/
def FreshlyRecorded (outcome : Outcome) (m : Multiset Int) : Prop :=
  ∃ throw : Throw, m = throw.recorded ∧ outcome = fresh throw

theorem draws_generic (roll : GenericRoll) : Draws (rollGeneric limits roll : Play σ Outcome) FreshlyRecorded := by
  refine draws_ofRule_bind fun count _ => draws_ofRule_bind fun sides _ => ?_
  refine (draws_dice roll.acing sides count).bind fun dice m hdice => ?_
  split
  · exact draws_pure ⟨_, by rw [add_zero, hdice]; rfl, rfl⟩
  · refine draws_ofRule_bind fun throw hthrow => draws_pure ⟨throw, ?_, rfl⟩
    rw [add_zero, hdice, summedThrow_recorded hthrow]

theorem draws_wild (spelling : String) (traitSides wildSides target interval : Int) :
    Draws (rollWild limits spelling traitSides wildSides target interval : Play σ Outcome) FreshlyRecorded := by
  refine (draws_acing _ traitSides).bind fun trait m htrait => (draws_acing _ wildSides).bind fun wild n hwild => ?_
  refine draws_ofRule_bind fun judgement _ => draws_pure ⟨_, ?_, rfl⟩
  rw [add_zero, htrait, hwild]
  rfl

theorem draws_extra (spelling : String) (sides : Int) (target : Option TargetSuffix) :
    Draws (rollExtra limits spelling sides target : Play σ Outcome) FreshlyRecorded := by
  refine (draws_acing _ sides).bind fun die m hdie => draws_ofRule_bind fun throw hthrow => draws_pure ⟨throw, ?_, rfl⟩
  rw [add_zero, hdie, summedThrow_recorded hthrow]
  simp

theorem draws_weg (count : Nat) : Draws (rollWeg limits count : Play σ Outcome) FreshlyRecorded := by
  refine draws_ofRule_bind fun dice _ => (draws_plainDice 6 _).bind fun values m hvalues => ?_
  refine (draws_acing _ 6).bind fun wild n hwild => draws_pure ⟨_, ?_, rfl⟩
  rw [add_zero, hvalues, hwild]
  rfl

/-! ## Outcomes that take sources -/

/-- **An outcome that keeps the source of a modifier**: repetitions do if there is one at all and all are throws. -/
def KeepsSources : Outcome → Prop
  | multiple _ rolls => rolls ≠ [] ∧ ∀ roll ∈ rolls, ∃ value throw modifier sources,
      roll = thrown value throw modifier sources
  | _ => True

/-- What was drawn is recorded, and what will be added is kept. -/
def Visible (outcome : Outcome) (m : Multiset Int) : Prop := m ≤ outcome.recorded ∧ KeepsSources outcome

theorem visible_fresh {outcome : Outcome} {m : Multiset Int} (h : FreshlyRecorded outcome m) : Visible outcome m := by
  obtain ⟨throw, hm, rfl⟩ := h
  exact ⟨by rw [hm, recorded_fresh], trivial⟩

omit [RandomSource σ] in
/-- **Repeated throws are visible together.** -/
theorem draws_together {play : Play σ Outcome} (h : Draws play FreshlyRecorded) {count : Nat} (hcount : 0 < count) :
    Draws (together <$> Play.times play count) Visible := by
  have hall : Draws (Play.times play count) fun outcomes m =>
      outcomes.length = count ∧ m = recordedAll outcomes ∧ ∀ outcome ∈ outcomes, ∃ throw, outcome = fresh throw :=
    (h.times ⟨rfl, fun _ ho => nomatch ho⟩ (fun outcome m outcomes n ho hos => by
      obtain ⟨throw, hm, rfl⟩ := ho
      refine ⟨by rw [hm, hos.1, recordedAll_cons, recorded_fresh], ?_⟩
      exact List.forall_mem_cons.2 ⟨⟨throw, rfl⟩, hos.2⟩) count).and_ok fun _ _ _ => length_times
  refine Draws.map (hall.mono fun outcomes m ho => ?_)
  obtain ⟨hlength, hm, hthrows⟩ := ho
  refine ⟨by rw [hm, recorded_together], ?_⟩
  match outcomes, hlength, hthrows with
  | [], hlength, _ => exact absurd hlength.symm (by simpa using hcount.ne')
  | [outcome], _, hthrows =>
    obtain ⟨throw, rfl⟩ := hthrows outcome List.mem_cons_self
    trivial
  | first :: second :: rest, _, hthrows =>
    refine ⟨List.cons_ne_nil _ _, fun roll hroll => ?_⟩
    obtain ⟨throw, rfl⟩ := hthrows roll hroll
    exact ⟨_, _, _, _, rfl⟩

end Evaluation
end Rolls

/-! ## Expressions -/

/-- A roll term but Fudge and Carcosa dice, whose draws are no numbers of the outcome. -/
def Roll.isPlain : Roll → Bool
  | fudge _ | carcosa _ => false
  | _ => true

/-- An expression without bounds and with plain roll terms only. -/
def Expr.isPlain : Expr → Bool
  | literal .. | var .. => true
  | roll term _ => term.isPlain
  | signed _ operand _ | assign _ operand _ => operand.isPlain
  | binary _ left right _ => left.isPlain && right.isPlain
  | unbounded .. | atLeast .. | atMost .. | between .. => false

/-- An expression without roll terms. -/
def Expr.isRollFree : Expr → Bool
  | literal .. | var .. => true
  | roll .. => false
  | signed _ operand _ | assign _ operand _ | unbounded operand _ => operand.isRollFree
  | binary _ left right _ | atLeast left right _ | atMost left right _ => left.isRollFree && right.isRollFree
  | between operand minimum maximum _ => operand.isRollFree && (minimum.isRollFree && maximum.isRollFree)

namespace Evaluation

section

variable {delta : Int} {source : Option Outcome}

theorem rejudge_recorded {value : Int} {throw judged : Throw} (h : throw.rejudge value = .ok judged) :
    judged.recorded = throw.recorded := by
  rcases Throw.rejudge_ok h with rfl | ⟨_, _, _, _, rfl, -, rfl⟩ | ⟨_, _, rfl, -, rfl⟩ <;> rfl

theorem addTo_thrown_recorded {value modifier : Int} {throw : Throw} {sources : List Outcome} {outcome : Outcome}
    (h : addTo delta source (thrown value throw modifier sources) = .ok outcome) :
    outcome.recorded = (thrown value throw modifier sources).recorded + recordedAll source.toList := by
  obtain ⟨judged, hjudged, rfl⟩ := addTo_thrown_ok h
  rw [recorded, recorded, rejudge_recorded hjudged, recordedAll_append, add_assoc]

/-- Every roll keeps the source, so several keep it several times. -/
theorem addToAll_recorded : ∀ {rolls added : List Outcome}, addToAll delta source rolls = .ok added →
    (∀ roll ∈ rolls, ∃ value throw modifier sources, roll = thrown value throw modifier sources) →
      recordedAll added = recordedAll rolls + rolls.length • recordedAll source.toList ∧ added.length = rolls.length
  | [], added, h, _ => by
    rw [addToAll] at h
    cases h
    simp
  | roll :: rolls, added, h, hthrown => by
    rw [addToAll] at h
    cases hr : addTo delta source roll with
    | error fault => rw [hr] at h; cases h
    | ok first =>
      cases hs : addToAll delta source rolls with
      | error fault => rw [hr, hs] at h; cases h
      | ok others =>
        rw [hr, hs] at h
        cases h
        obtain ⟨value, throw, modifier, sources, rfl⟩ := hthrown roll List.mem_cons_self
        obtain ⟨hothers, hlength⟩ := addToAll_recorded hs fun r hr => hthrown r (List.mem_cons_of_mem _ hr)
        refine ⟨?_, by rw [List.length_cons, List.length_cons, hlength]⟩
        rw [recordedAll_cons, recordedAll_cons, addTo_thrown_recorded hr, hothers, List.length_cons, succ_nsmul]
        ac_rfl

/-- **A modifier added keeps what was recorded**, and its source beside it. -/
theorem addModifier_recorded {left outcome : Outcome} (hleft : KeepsSources left)
    (h : left.addModifier delta source = .ok outcome) :
    left.recorded + recordedAll source.toList ≤ outcome.recorded ∧ KeepsSources outcome := by
  rcases addModifier_ok h with ⟨_, _, _, _, rfl, hadd⟩ | ⟨_, rolls, added, rfl, hadd, rfl⟩
  · obtain ⟨_, _, rfl⟩ := addTo_thrown_ok hadd
    exact ⟨(addTo_thrown_recorded hadd).ge, trivial⟩
  · obtain ⟨hne, hthrown⟩ := hleft
    obtain ⟨hrecorded, hlength⟩ := addToAll_recorded hadd hthrown
    obtain ⟨others, hcount⟩ := Nat.exists_eq_succ_of_ne_zero (List.length_pos_iff.2 hne).ne'
    refine ⟨?_, List.ne_nil_of_length_pos (by omega), fun after ha => ?_⟩
    · rw [recorded_repeated, recorded, hrecorded, hcount, succ_nsmul, ← add_assoc]
      rw [add_assoc, add_comm (_ • _)]
      exact add_le_add_right (Multiset.le_add_right _ _) _
    · obtain ⟨roll, hr, hroll⟩ := addToAll_ok hadd after ha
      obtain ⟨_, _, _, _, rfl⟩ := hthrown roll hr
      obtain ⟨_, _, rfl⟩ := addTo_thrown_ok hroll
      exact ⟨_, _, _, _, rfl⟩

end

theorem operate_visible {operator : BinaryOperator} {left right outcome : Outcome} {source : Option Outcome}
    {m n : Multiset Int} (hleft : Visible left m) (hright : n ≤ right.recorded)
    (hsource : n ≤ recordedAll source.toList) (h : operate operator left right source = .ok outcome) :
    Visible outcome (m + n) := by
  have hcombined : combined operator left right = .ok outcome → Visible outcome (m + n) := by
    intro h
    obtain ⟨_, label, -, rfl⟩ := combined_ok h
    refine ⟨?_, trivial⟩
    simpa [recorded] using add_le_add hleft.1 hright
  unfold operate at h
  cases hd : delta? operator right with
  | none => rw [hd] at h; exact hcombined h
  | some delta =>
    rw [hd] at h
    simp only at h
    split at h
    · obtain ⟨hrecorded, hkeeps⟩ := addModifier_recorded hleft.2 h
      exact ⟨le_trans (add_le_add hleft.1 hsource) hrecorded, hkeeps⟩
    · exact hcombined h

section

variable {σ : Type} {limits : Limits}

/-- Reading a variable draws nothing. -/
theorem draws_lookUp (name : String) :
    Draws (lookUp name : Play σ Outcome) fun outcome m => m = 0 ∧ KeepsSources outcome := by
  refine draws_of_kept fun table outcome after h => ?_
  unfold lookUp at h
  obtain ⟨seen, middle, hget, h⟩ := bind_ok h
  cases hget
  cases hm : table.memory.get? name with
  | some value =>
    rw [hm] at h
    obtain ⟨rfl, rfl⟩ := pure_ok h
    exact ⟨rfl, rfl, trivial⟩
  | none =>
    rw [hm] at h
    obtain ⟨_, last, hreport, h⟩ := bind_ok h
    obtain ⟨-, rfl⟩ := report_ok hreport
    obtain ⟨rfl, rfl⟩ := pure_ok h
    exact ⟨rfl, rfl, trivial⟩

theorem draws_assign (name : String) (value : Int) : Draws (assign name value : Play σ Unit) fun _ m => m = 0 :=
  draws_of_kept fun table a after h => by
    cases h
    exact ⟨rfl, rfl⟩

variable [RandomSource σ]

/-- **What a roll term draws is recorded.** -/
theorem draws_roll : ∀ {term : Roll}, term.isPlain = true → Draws (roll limits term : Play σ Outcome) Visible
  | .generic roll, _ => (draws_generic roll).mono fun _ _ => visible_fresh
  | .savage roll, _ =>
    draws_ofRule_bind fun _ hcount => draws_ofRule_bind fun _ _ => draws_ofRule_bind fun _ _ =>
      draws_together (draws_wild _ _ _ _ _) (diceCount_ok hcount).2
  | .extras roll, _ =>
    draws_ofRule_bind fun _ hcount => draws_ofRule_bind fun _ _ =>
      draws_together (draws_extra _ _ _) (diceCount_ok hcount).2
  | .weg count, _ => (draws_weg count).mono fun _ _ => visible_fresh
  | .span low high, _ => by
    refine (draws_draw _ _).bind fun value m hm => draws_pure ⟨?_, trivial⟩
    rw [hm, recorded, if_pos (isSpanLabel_range low high)]
    simp

/-- **What a plain expression draws is recorded in its outcome.** -/
theorem draws_evaluate : ∀ {expression : Expr}, expression.isPlain = true →
    Draws (evaluate limits expression : Play σ Outcome) Visible
  | .literal value position, _ => draws_pure ⟨Multiset.zero_le _, trivial⟩
  | .var name position, _ => (draws_lookUp name).mono fun outcome m h => ⟨by rw [h.1]; exact Multiset.zero_le _, h.2⟩
  | .roll term position, h => draws_roll h
  | .signed .plus operand position, h => by
    rw [evaluate]
    exact draws_evaluate (by simpa [Expr.isPlain] using h)
  | .signed .minus operand position, h => by
    have hoperand : Draws (evaluate limits operand : Play σ Outcome) Visible :=
      draws_evaluate (by simpa [Expr.isPlain] using h)
    rw [evaluate]
    refine hoperand.bind fun inner m hinner => draws_ofExcept fun outcome hout => ?_
    obtain ⟨label, rfl⟩ := negated_ok hout
    exact ⟨by simpa [recorded] using hinner.1, trivial⟩
  | .binary operator left right position, h => by
    rw [Expr.isPlain, Bool.and_eq_true] at h
    have hright : Draws (evaluate limits right : Play σ Outcome) fun outcome n =>
        n ≤ outcome.recorded ∧ n ≤ recordedAll (sourceOf right outcome).toList := by
      cases right with
      | literal value position => exact draws_pure ⟨Multiset.zero_le _, Multiset.zero_le _⟩
      | _ => exact (draws_evaluate h.2).mono fun outcome n hn => ⟨hn.1, by simpa [sourceOf] using hn.1⟩
    rw [evaluate]
    refine (draws_evaluate h.1).bind fun leftOutcome m hm => hright.bind fun rightOutcome n hn => ?_
    refine draws_ofExcept fun outcome hout => ?_
    rw [add_zero]
    exact operate_visible hm hn.1 hn.2 hout
  | .assign name value position, h => by
    have hvalue : Draws (evaluate limits value : Play σ Outcome) Visible :=
      draws_evaluate (by simpa [Expr.isPlain] using h)
    rw [evaluate]
    refine hvalue.bind fun outcome m hout => (draws_assign name _).bind fun _ n hn => draws_pure ?_
    rw [hn, add_zero, add_zero]
    exact hout

/-- **An expression without roll terms draws nothing.** -/
theorem draws_rollFree : ∀ {expression : Expr}, expression.isRollFree = true →
    Draws (evaluate limits expression : Play σ Outcome) fun _ m => m = 0
  | .literal value position, _ => draws_pure rfl
  | .var name position, _ => (draws_lookUp name).mono fun _ _ h => h.1
  | .signed .plus operand position, h => by
    rw [evaluate]
    exact draws_rollFree (by simpa [Expr.isRollFree] using h)
  | .signed .minus operand position, h => by
    rw [evaluate]
    exact Draws.bind_none (draws_rollFree (by simpa [Expr.isRollFree] using h)) fun _ => draws_ofExcept fun _ _ => rfl
  | .binary operator left right position, h => by
    rw [Expr.isRollFree, Bool.and_eq_true] at h
    rw [evaluate]
    exact Draws.bind_none (draws_rollFree h.1) fun _ => Draws.bind_none (draws_rollFree h.2) fun _ =>
      draws_ofExcept fun _ _ => rfl
  | .unbounded operand position, h => by
    rw [evaluate]
    exact Draws.bind_none (draws_rollFree (by simpa [Expr.isRollFree] using h)) fun _ => draws_ofRule fun _ _ => rfl
  | .atLeast operand bound position, h | .atMost operand bound position, h => by
    rw [Expr.isRollFree, Bool.and_eq_true] at h
    rw [evaluate]
    exact Draws.bind_none (draws_rollFree h.1) fun _ => Draws.bind_none (draws_rollFree h.2) fun _ =>
      draws_ofRule fun _ _ => rfl
  | .between operand minimum maximum position, h => by
    rw [Expr.isRollFree, Bool.and_eq_true, Bool.and_eq_true] at h
    rw [evaluate]
    exact Draws.bind_none (draws_rollFree h.1) fun _ => Draws.bind_none (draws_rollFree h.2.1) fun _ =>
      Draws.bind_none (draws_rollFree h.2.2) fun _ => draws_ofRule fun _ _ => rfl
  | .assign name value position, h => by
    rw [evaluate]
    exact Draws.bind_none (draws_rollFree (by simpa [Expr.isRollFree] using h)) fun _ =>
      Draws.bind_none (draws_assign name _) fun _ => draws_pure rfl

end

end Evaluation

/-! ## Statements and commands -/

/-- **A statement without bounds, Fudge and Carcosa dice.** -/
def Statement.isPlain (statement : Statement) : Bool := statement.trees.all Expr.isPlain

/-- A statement but an action roll whose modifier has roll terms. -/
def Statement.hasFixedModifier : Statement → Bool
  | ironsworn (some (_, modifier)) _ => modifier.isRollFree
  | _ => true

/-- **A command without bounds, Fudge and Carcosa dice.** -/
def Command.isPlain (command : Command) : Bool := command.statements.all Statement.isPlain

/-- A command whose action rolls have modifiers without roll terms. -/
def Command.hasFixedModifiers (command : Command) : Bool := command.statements.all Statement.hasFixedModifier

namespace Evaluation

variable {σ : Type} [RandomSource σ] {limits : Limits}

theorem draws_evaluateAll : ∀ {expressions : List Expr}, expressions.all Expr.isPlain = true →
    Draws (evaluateAll limits expressions : Play σ (List Outcome)) fun outcomes m => m ≤ recordedAll outcomes
  | [], _ => draws_pure (Multiset.zero_le _)
  | expression :: rest, h => by
    rw [List.all_cons, Bool.and_eq_true] at h
    refine (draws_evaluate h.1).bind fun first m hfirst => (draws_evaluateAll h.2).bind fun others n hothers => ?_
    refine draws_pure ?_
    rw [add_zero, recordedAll_cons]
    exact add_le_add hfirst.1 hothers

omit [RandomSource σ] in
/-- Rounds that record what they draw record it together. -/
theorem draws_rounds {play : Play σ Outcome} (h : Draws play fun outcome m => m ≤ outcome.recorded) (count : Nat) :
    Draws (Play.times play count) fun outcomes m => m ≤ recordedAll outcomes :=
  h.times (Multiset.zero_le _) (fun _ _ _ _ hm hn => add_le_add hm hn) count

/-- **The three dice of an action roll are recorded**, and no others: they follow what the modifier draws. -/
theorem rollIronsworn_ok {modifier : Option (Sign × Expr)} {table after : Table σ} {outcome : Outcome}
    (h : rollIronsworn limits modifier table = .ok outcome after) :
    ∃ value middle own, modifierValue limits modifier table = .ok value middle ∧
      after.draws.toList = middle.draws.toList ++ own ∧ numbersOf own = outcome.recorded := by
  refine draws_last (T := fun outcome m => m = outcome.recorded) h fun value => (Roller.draws_die 6).bind fun action m hm => ?_
  refine (Roller.draws_die 10).bind fun first n hn => (Roller.draws_die 10).bind fun second k hk => draws_pure ?_
  rw [hm, hn, hk, add_zero]
  rfl

theorem draws_ironsworn {modifier : Option (Sign × Expr)}
    (h : Draws (modifierValue limits modifier : Play σ Int) fun _ m => m = 0) :
    Draws (rollIronsworn limits modifier : Play σ Outcome) fun outcome m => m ≤ outcome.recorded := by
  intro table outcome after hrun
  obtain ⟨value, middle, own, hmodifier, hdraws, hown⟩ := rollIronsworn_ok hrun
  obtain ⟨lost, hlost, hnone⟩ := h table value middle hmodifier
  have hempty : lost = [] := by simpa [numbersOf] using hnone
  exact ⟨own, by rw [hdraws, hlost, hempty, List.append_nil], hown.le⟩

theorem draws_modifierValue {modifier : Option (Sign × Expr)} {R : Multiset Int → Prop} (hnone : R 0)
    (h : ∀ sign expression, modifier = some (sign, expression) →
      Draws (evaluate limits expression : Play σ Outcome) fun _ m => R m) :
    Draws (modifierValue limits modifier : Play σ Int) fun _ m => R m := by
  match modifier, h with
  | none, _ => exact draws_pure hnone
  | some (.plus, expression), h | some (.minus, expression), h =>
    exact (h _ expression rfl).bind fun _ m hm => draws_pure (by rw [add_zero]; exact hm)

theorem draws_evaluateStatement {statement : Statement} (h : statement.isPlain = true)
    (hfixed : statement.hasFixedModifier = true) :
    Draws (evaluateStatement limits statement : Play σ Outcome) fun outcome m => m ≤ outcome.recorded := by
  cases statement with
  | once expression position =>
    have hplain : expression.isPlain = true := by simpa [Statement.isPlain, Statement.trees] using h
    exact (draws_evaluate hplain).mono fun _ _ hm => hm.1
  | times count expression position =>
    have hplain : expression.isPlain = true := by simpa [Statement.isPlain, Statement.trees] using h
    refine draws_ofRule_bind fun count _ => ?_
    refine (draws_rounds ((draws_evaluate hplain).mono fun _ _ hm => hm.1) count).bind fun rolls m hm => draws_pure ?_
    rw [add_zero, recorded_repeated]
    exact hm
  | batch count expressions position =>
    have hround : Draws (repeated <$> evaluateAll limits expressions : Play σ Outcome) fun outcome m =>
        m ≤ outcome.recorded :=
      Draws.map ((draws_evaluateAll h).mono fun outcomes m hm => by rw [recorded_repeated]; exact hm)
    refine draws_ofRule_bind fun count _ => ?_
    refine (draws_rounds hround count).bind fun rolls m hm => draws_pure ?_
    rw [add_zero, recorded_repeated]
    exact hm
  | ironsworn modifier position =>
    refine draws_ironsworn (draws_modifierValue rfl fun sign expression hsome => ?_)
    subst hsome
    exact draws_rollFree hfixed
  | flag name position => exact draws_pure (Multiset.zero_le _)

theorem draws_evaluateStatements : ∀ {statements : List Statement}, statements.all Statement.isPlain = true →
    statements.all Statement.hasFixedModifier = true →
    Draws (evaluateStatements limits statements : Play σ (List Outcome)) fun outcomes m => m ≤ recordedAll outcomes
  | [], _, _ => draws_pure (Multiset.zero_le _)
  | statement :: rest, h, hfixed => by
    rw [List.all_cons, Bool.and_eq_true] at h hfixed
    refine (draws_report _).bind fun _ k hk => (draws_evaluateStatement h.1 hfixed.1).bind fun first m hfirst => ?_
    refine (draws_evaluateStatements h.2 hfixed.2).bind fun others n hothers => draws_pure ?_
    rw [hk, add_zero, zero_add, recordedAll_cons]
    exact add_le_add hfirst hothers

/-- **All that was drawn between two tables is recorded** in an outcome. -/
def ShowsDraws (table after : Table σ) (outcome : Outcome) : Prop :=
  ∃ drawn, after.draws.toList = table.draws.toList ++ drawn ∧ numbersOf drawn ≤ outcome.recorded

/-- **No number drawn is lost**, if no modifier of an action roll has roll terms. Of an action roll the last three
draws are recorded and what its modifier drew before them is lost, so all is recorded only if the modifier drew
nothing. -/
theorem draws_recorded (limits : Limits) :
    (∀ (command : Command) (table after : Table σ) (outcome : Outcome), command.isPlain = true →
      command.hasFixedModifiers = true → evaluateCommand limits command table = .ok outcome after →
        ShowsDraws table after outcome) ∧
    ∀ (modifier : Option (Sign × Expr)) (position : Nat) (table after : Table σ) (outcome : Outcome),
      (Statement.ironsworn modifier position).isPlain = true →
      evaluateStatement limits (.ironsworn modifier position) table = .ok outcome after →
        ∃ value middle lost own, modifierValue limits modifier table = .ok value middle ∧
          middle.draws.toList = table.draws.toList ++ lost ∧ after.draws.toList = middle.draws.toList ++ own ∧
          numbersOf own = outcome.recorded ∧ (ShowsDraws table after outcome ↔ lost = []) := by
  refine ⟨fun command table after outcome hplain hfixed hrun => ?_, ?_⟩
  · obtain ⟨first, others, hall, rfl⟩ := evaluateCommand_ok hrun
    obtain ⟨drawn, hdraws, hle⟩ := draws_evaluateStatements hplain hfixed table _ after hall
    exact ⟨drawn, hdraws, by rw [recorded_inSequence]; exact hle⟩
  · intro modifier position table after outcome hplain hrun
    obtain ⟨value, middle, own, hmodifier, hdraws, hown⟩ := rollIronsworn_ok hrun
    have hprefix : Draws (modifierValue limits modifier : Play σ Int) fun _ _ => True :=
      draws_modifierValue trivial fun sign expression hsome => by
        subst hsome
        have hexpression : expression.isPlain = true := by simpa [Statement.isPlain, Statement.trees] using hplain
        exact (draws_evaluate hexpression).mono fun _ _ _ => trivial
    obtain ⟨lost, hlost, -⟩ := hprefix table value middle hmodifier
    refine ⟨value, middle, lost, own, hmodifier, hlost, hdraws, hown, fun hshown => ?_, fun hnone => ?_⟩
    · obtain ⟨drawn, hdrawn, hle⟩ := hshown
      have heq : drawn = lost ++ own := by
        rw [hdraws, hlost, List.append_assoc] at hdrawn
        exact (List.append_cancel_left hdrawn).symm
      have hlength : (lost ++ own).length ≤ own.length := by
        have hcard := Multiset.card_le_card hle
        rw [heq, ← hown] at hcard
        simpa [numbersOf] using hcard
      rw [List.length_append] at hlength
      exact List.length_eq_zero_iff.1 (by omega)
    · refine ⟨own, ?_, hown.le⟩
      rw [hdraws, hlost, hnone, List.append_nil]

/-- A command with dice added to repeated rolls and numbers to action rolls, and an action roll with a die added. -/
theorem draws_recorded_sum : (∃ command outcome after,
      Command.parse "2s8+2d4;iron+1;iron-@x" = .ok command ∧
      evaluateCommand ⟨100, 1000, 100, 100⟩ command (Table.new ⟨[], 7⟩ : Table Scripted) = .ok outcome after ∧
      ShowsDraws (Table.new ⟨[], 7⟩ : Table Scripted) after outcome) ∧
    let modifier := some (Sign.plus, Expr.roll (.generic ⟨some 1, .sides 6, false, .total none none⟩) 5)
    ∃ outcome after value middle lost own,
      evaluateStatement ⟨100, 1000, 100, 100⟩ (.ironsworn modifier 0) (Table.new ⟨[], 7⟩ : Table Scripted) =
        .ok outcome after ∧
      modifierValue ⟨100, 1000, 100, 100⟩ modifier (Table.new ⟨[], 7⟩ : Table Scripted) = .ok value middle ∧
      middle.draws.toList = lost ∧ after.draws.toList = lost ++ own ∧ numbersOf own = outcome.recorded ∧
      (ShowsDraws (Table.new ⟨[], 7⟩ : Table Scripted) after outcome ↔ lost = []) := by
  refine ⟨?_, ?_⟩
  · obtain ⟨command, hparse, htest⟩ : ∃ command, Command.parse "2s8+2d4;iron+1;iron-@x" = .ok command ∧
        (command.isPlain && (command.hasFixedModifiers && Play.endsWith (evaluateCommand ⟨100, 1000, 100, 100⟩ command)
          (Table.new ⟨[], 7⟩ : Table Scripted) fun _ => true)) = true :=
      Command.ok_of_parses _ (by decide +kernel)
    rw [Bool.and_eq_true, Bool.and_eq_true] at htest
    obtain ⟨outcome, after, hrun, -⟩ := Play.ok_of_endsWith _ htest.2.2
    exact ⟨command, outcome, after, hparse, hrun, (draws_recorded _).1 command _ after outcome htest.1 htest.2.1 hrun⟩
  · intro modifier
    obtain ⟨outcome, after, hrun, -⟩ := Play.ok_of_endsWith (fun _ => true)
      (show Play.endsWith (evaluateStatement ⟨100, 1000, 100, 100⟩ (.ironsworn modifier 0))
        (Table.new ⟨[], 7⟩ : Table Scripted) (fun _ => true) = true by decide +kernel)
    obtain ⟨value, middle, lost, own, hmodifier, hlost, hdraws, hown, hiff⟩ :=
      (draws_recorded ⟨100, 1000, 100, 100⟩).2 modifier 0 _ after outcome (by decide) hrun
    exact ⟨outcome, after, value, middle, lost, own, hrun, hmodifier, hlost, by rw [hdraws, hlost]; rfl, hown, hiff⟩

/-- The die in the modifier of an action roll shows a five, which stands nowhere in the outcome. -/
theorem action_modifier_lost : ¬ ∀ (limits : Limits) (text : String) (command : Command),
    Command.parse text = .ok command → command.isPlain = true → ∀ (table after : Table Scripted) (outcome : Outcome),
      evaluateCommand limits command table = .ok outcome after → ShowsDraws table after outcome := by
  intro hall
  let table : Table Scripted := Table.new ⟨[some 5, some 3, some 2, some 9], 0⟩
  obtain ⟨command, hparse, htest⟩ : ∃ command, Command.parse "iron+1d6" = .ok command ∧
      (command.isPlain && match evaluateCommand ⟨100, 1000, 100, 100⟩ command table with
        | .ok outcome after => !decide (numbersOf after.draws.toList ≤ outcome.recorded)
        | .error .. => false) = true :=
    Command.ok_of_parses _ (by decide +kernel)
  rw [Bool.and_eq_true] at htest
  obtain ⟨hplain, hlost⟩ := htest
  split at hlost
  · rename_i outcome after hrun
    obtain ⟨drawn, hdrawn, hle⟩ := hall _ _ command hparse hplain table after outcome hrun
    have hdraws : after.draws.toList = drawn := hdrawn
    rw [hdraws, decide_eq_true hle] at hlost
    cases hlost
  · cases hlost

end Evaluation
end TabletopDice
