import TabletopDice.Evaluation
import TabletopDice.Proofs.Parts
import TabletopDice.Proofs.Play
/-!
# Formation — how an evaluation puts its outcomes together

An evaluation ends in an outcome that some rule has formed from outcomes formed before. The rules for expressions are
`Formed`, the rules for statements and commands `Reported`; every part of an outcome is one of these again
(`Reported.parts`). What a rule of evaluation can do is said here once: a property that the rules keep is a property of
the outcomes of all expressions (`evaluate_kept`) and of all statements (`evaluateStatements_kept`).
-/
namespace TabletopDice

open Outcome Evaluation

/-- The bounds that a roll term writes out. -/
def Roll.numbers : Roll → List Nat
  | span low high => [low, high]
  | _ => []

/-- **The numbers that an expression writes out** as literals and as bounds of ranges. -/
def Expr.numbers : Expr → List Nat
  | literal value _ => [value]
  | var .. => []
  | roll term _ => term.numbers
  | signed _ operand _ => operand.numbers
  | binary _ left right _ => left.numbers ++ right.numbers
  | unbounded operand _ => operand.numbers
  | atLeast operand minimum _ => operand.numbers ++ minimum.numbers
  | atMost operand maximum _ => operand.numbers ++ maximum.numbers
  | between operand minimum maximum _ => operand.numbers ++ (minimum.numbers ++ maximum.numbers)
  | assign _ value _ => value.numbers

/-- **The outcomes that expressions form** from written numbers. -/
inductive Formed (written : Nat → Prop) : Outcome → Prop
  | number {value : Nat} : written value → Formed written (.simple value "" none [])
  | var (name : String) (value : Int) : Formed written (.simple value ("@" ++ name) none [])
  | span {low high : Nat} {value : Int} : written low → written high → min (low : Int) high ≤ value →
      value ≤ max (low : Int) high → Formed written (.simple value (toString low ++ "--" ++ toString high) none [])
  | fresh (throw : Throw) : Formed written (fresh throw)
  | volley (throws : List Throw) : Formed written (repeated (throws.map Evaluation.fresh))
  | negated {operand outcome : Outcome} : Formed written operand → negated operand = .ok outcome →
      Formed written outcome
  | combined {operator : BinaryOperator} {left right outcome : Outcome} : Formed written left → Formed written right →
      combined operator left right = .ok outcome → Formed written outcome
  | modified {delta : Int} {source : Option Outcome} {left outcome : Outcome} : Formed written left →
      (∀ o ∈ source, Formed written o) → left.addModifier delta source = .ok outcome → Formed written outcome
  | restricted {minimum maximum : Option Int} {inner outcome : Outcome} : Formed written inner →
      restrict inner minimum maximum = .ok outcome → Formed written outcome

/-- **The outcomes that statements and commands form.** -/
inductive Reported (written : Nat → Prop) : Outcome → Prop
  | expression {outcome : Outcome} : Formed written outcome → Reported written outcome
  | repeated {rolls : List Outcome} : (∀ roll ∈ rolls, Reported written roll) → Reported written (repeated rolls)
  | ironsworn (throw : ActionThrow) (modifier : Int) :
      Reported written (.thrown (throw.action + modifier) (.action throw) modifier [])
  | flag (name : String) : Reported written (.flag 0 name)
  | sequence {first : Outcome} {others : List Outcome} : Reported written first →
      (∀ outcome ∈ others, Reported written outcome) → Reported written (inSequence first others)

/-! ## What the operations on outcomes do -/

/-- A change of sign keeps its operand. -/
theorem Evaluation.negated_ok {operand outcome : Outcome} (h : negated operand = .ok outcome) :
    ∃ label, outcome = .simple (-operand.value) label (some Arithmetic.negation) [operand] := by
  unfold negated at h
  obtain ⟨label, -, h⟩ := Failure.bind_ok h
  exact ⟨label, (Except.ok.inj h).symm⟩

/-- An operator that does not add to its left operand keeps both. -/
theorem Evaluation.combined_ok {operator : BinaryOperator} {left right outcome : Outcome}
    (h : combined operator left right = .ok outcome) :
    ∃ value label, Arithmetic.apply operator left.value right.value = .ok value ∧
      outcome = .simple value label (some operator.symbol) [left, right] := by
  unfold combined at h
  obtain ⟨value, hvalue, h⟩ := Failure.bind_ok h
  obtain ⟨label, -, h⟩ := Failure.bind_ok h
  exact ⟨value, label, Failure.mapError_ok hvalue, (Except.ok.inj h).symm⟩

/-- **Bounds move a value as `clamp` does**, and keep the outcome that they bound. -/
theorem Evaluation.restrict_ok {minimum maximum : Option Int} {inner outcome : Outcome}
    (h : restrict inner minimum maximum = .ok outcome) :
    outcome = .bounded (clamp minimum maximum inner.value) inner minimum maximum := by
  unfold restrict at h
  cases minimum with
  | none =>
    cases maximum with
    | none => cases h; rfl
    | some high =>
      cases h
      simp only [clamp]
      congr 1
      omega
  | some low =>
    cases maximum with
    | none =>
      cases h
      simp only [clamp]
      congr 1
      omega
    | some high =>
      simp only at h
      split at h
      · cases h
      · cases h
        simp only [clamp]
        congr 1
        omega

/-- **A number of dice that passes** is the one said or the default, and at least one. -/
theorem Evaluation.diceCount_ok {limits : Limits} {count : Option Nat} {default dice : Nat}
    (h : diceCount limits count default = .ok dice) : dice = count.getD default ∧ 1 ≤ dice := by
  unfold diceCount at h
  simp only at h
  split at h
  · cases h
  · split at h
    · cases h
    · cases h
      omega

/-- A value has no judgement without a target suffix; with one, it is judged against the numbers of the suffix. -/
theorem Evaluation.judged_ok {value : Int} {suffix : Option TargetSuffix} {target interval : Option Int}
    {judgement : Option Judgement} (h : judged value suffix = .ok (target, interval, judgement)) :
    (target = none ∧ interval = none ∧ judgement = none) ∨
    ∃ number step made, target = some number ∧ interval = some step ∧ judgement = some made ∧
      Judgement.judge value number step = .ok made := by
  cases suffix with
  | none =>
    cases h
    exact .inl ⟨rfl, rfl, rfl⟩
  | some suffix =>
    cases hj : Judgement.judge value (targetNumber (some suffix)).1 (targetNumber (some suffix)).2 with
    | error error =>
      simp only [judged, hj, bind, Except.bind] at h
      cases h
    | ok made =>
      simp only [judged, hj, bind, Except.bind] at h
      cases h
      exact .inr ⟨_, _, _, rfl, rfl, rfl, hj⟩

/-- **Summed dice** are a generic throw of the dice, with what is kept of them and the judgement of its total. -/
theorem Evaluation.summedThrow_ok {spelling : String} {sides : Int} {acing : Bool} {dice : List Die}
    {keep : Option KeepSuffix} {suffix : Option TargetSuffix} {throw : Throw}
    (h : summedThrow spelling sides acing dice keep suffix = .ok throw) :
    ∃ kept dropped target interval judgement, select dice keep = .ok (kept, dropped) ∧
      judged (totalOf kept) suffix = .ok (target, interval, judgement) ∧
      throw = .generic { spelling, sides, acing, dice, kept, dropped, target, interval, judgement
                         keep := keep.map KeepSuffix.rule } := by
  unfold summedThrow at h
  cases hs : select dice keep with
  | error error => rw [hs] at h; cases h
  | ok selected =>
    cases hj : judged (totalOf selected.1) suffix with
    | error error => simp [hs, hj, bind, Except.bind] at h
    | ok verdict =>
      simp only [hs, hj, bind, Except.bind, Except.ok.injEq] at h
      exact ⟨_, _, _, _, _, rfl, hj, h.symm⟩

/-- **A throw judged again** is the throw itself, or the throw with another judgement. -/
theorem Throw.rejudge_ok {value : Int} {throw judged : Throw} (h : throw.rejudge value = .ok judged) :
    judged = throw ∨
    (∃ (dice : GenericThrow) (target interval : Int) (judgement : Judgement), throw = .generic dice ∧
      Judgement.judge value target interval = .ok judgement ∧
      judged = .generic { dice with judgement := some judgement }) ∨
    ∃ (dice : WildThrow) (judgement : Judgement), throw = .wild dice ∧
      Judgement.judge value dice.target dice.interval = .ok judgement ∧ judged = .wild { dice with judgement } := by
  cases throw with
  | generic throw =>
    simp only [Throw.rejudge] at h
    split at h
    · cases h
      exact .inl rfl
    · cases h
    · split at h
      · cases h
      · rename_i hjudge
        cases h
        exact .inr (.inl ⟨_, _, _, _, rfl, hjudge, rfl⟩)
  | wild throw =>
    simp only [Throw.rejudge] at h
    split at h
    · cases h
    · rename_i hjudge
      cases h
      exact .inr (.inr ⟨_, _, rfl, hjudge, rfl⟩)
  | _ =>
    cases h
    exact .inl rfl

/-- A sum keeps its operands. -/
theorem Outcome.plus_ok {outcome sum : Outcome} {delta : Int} (h : outcome.plus delta = .ok sum) :
    ∃ label, Wording.Writable [outcome.value, (delta.natAbs : Int)] ∧
      sum = simple (outcome.value + delta) label
        (some (if 0 ≤ delta then BinaryOperator.add else BinaryOperator.subtract).symbol)
        [outcome, simple (delta.natAbs : Int) "" none []] := by
  unfold plus at h
  obtain ⟨label, hlabel, h⟩ := Failure.bind_ok h
  refine ⟨label, ?_, (Except.ok.inj h).symm⟩
  have hwritable := (Wording.write_ok.1 hlabel).1
  simpa using hwritable

/-- A sum is there, or its label cannot be written. -/
theorem Outcome.plus_cases (outcome : Outcome) (delta : Int) :
    (∃ sum, outcome.plus delta = .ok sum) ∧ Wording.Writable [outcome.value, delta] ∨
      outcome.plus delta = .error .unwritable ∧ ¬ Wording.Writable [outcome.value, delta] := by
  -- the label states the size of the number, after its sign
  have hlabel : ∀ symbol : String, Wording.Writable [outcome.value, " ", symbol, " ", (delta.natAbs : Int)] ↔
      Wording.Writable [outcome.value, delta] := fun symbol => by
    simp only [Wording.writable_cons, Wording.writable_nil, Piece.writable_words, Piece.writable_number,
      Int.natAbs_natCast, true_and]
  unfold plus
  dsimp only
  cases hwrite : Wording.write _ with
  | ok label => exact .inl ⟨⟨_, rfl⟩, (hlabel _).1 (Wording.write_ok.1 hwrite).1⟩
  | error fault =>
    obtain ⟨hnot, rfl⟩ := Wording.write_error.1 hwrite
    exact .inr ⟨rfl, mt (hlabel _).2 hnot⟩

theorem Outcome.addTo_thrown_ok {delta value modifier : Int} {source : Option Outcome} {throw : Throw}
    {sources : List Outcome} {outcome : Outcome}
    (h : addTo delta source (thrown value throw modifier sources) = .ok outcome) :
    ∃ judged, throw.rejudge (value + delta) = .ok judged ∧
      outcome = thrown (value + delta) judged (modifier + delta) (sources ++ source.toList) := by
  rw [addTo] at h
  cases hj : throw.rejudge (value + delta) with
  | error fault => rw [hj] at h; cases h
  | ok judged => rw [hj] at h; cases h; exact ⟨judged, rfl, rfl⟩

theorem Outcome.addToAll_ok {delta : Int} {source : Option Outcome} : ∀ {rolls added : List Outcome},
    addToAll delta source rolls = .ok added → ∀ after ∈ added, ∃ roll ∈ rolls, addTo delta source roll = .ok after
  | [], added, h => by
    rw [addToAll] at h
    cases h
    intro after ha
    cases ha
  | roll :: rolls, added, h => by
    rw [addToAll] at h
    cases hr : addTo delta source roll with
    | error fault => rw [hr] at h; cases h
    | ok first =>
      cases hs : addToAll delta source rolls with
      | error fault => rw [hr, hs] at h; cases h
      | ok others =>
        rw [hr, hs] at h
        cases h
        intro after ha
        rcases List.mem_cons.1 ha with rfl | ha
        · exact ⟨roll, List.mem_cons_self, hr⟩
        · obtain ⟨other, ho, hadd⟩ := addToAll_ok hs after ha
          exact ⟨other, List.mem_cons_of_mem _ ho, hadd⟩

/-- **A modifier is added to a throw, or to every roll of repetitions.** -/
theorem Outcome.addModifier_ok {delta : Int} {source : Option Outcome} {left outcome : Outcome}
    (h : left.addModifier delta source = .ok outcome) :
    (∃ value throw modifier sources, left = thrown value throw modifier sources ∧
      addTo delta source left = .ok outcome) ∨
    (∃ value rolls added, left = multiple value rolls ∧ addToAll delta source rolls = .ok added ∧
      outcome = repeated added) := by
  cases left with
  | thrown value throw modifier sources =>
    simp only [addModifier, acceptsModifier, if_true] at h
    exact .inl ⟨value, throw, modifier, sources, rfl, h⟩
  | multiple value rolls =>
    simp only [addModifier, acceptsModifier, if_true] at h
    rw [addTo] at h
    cases hs : addToAll delta source rolls with
    | error fault => rw [hs] at h; cases h
    | ok added => rw [hs] at h; cases h; exact .inr ⟨value, rolls, added, rfl, hs, rfl⟩
  | _ => cases h

/-- A die shows one of its faces. -/
theorem Roller.die_mem_bounds {σ : Type} [RandomSource σ] {table after : Table σ} (hfair : RandomSource.InRange σ)
    {sides value : Int}
    (h : Roller.die sides table = .ok value after) : 1 ≤ value ∧ value ≤ sides := by
  unfold Roller.die at h
  split at h
  · cases h
  · obtain ⟨next, hdraw, -⟩ := Play.draw_ok h
    exact hfair 1 sides value _ next (by omega) hdraw

/-! ## The parts of what is formed -/

namespace Formed

variable {written : Nat → Prop}

/-- **Repetitions inside an expression are repetitions of throws**, for which adding never falls back to a sum. -/
theorem rolls_thrown {outcome : Outcome} (h : Formed written outcome) : ∀ {value : Int} {rolls : List Outcome},
    outcome = .multiple value rolls → ∀ roll ∈ rolls, ∃ value throw modifier sources,
      roll = .thrown value throw modifier sources := by
  induction h with
  | number | var | span | fresh => intro value rolls e; cases e
  | negated _ hn =>
    intro value rolls e
    obtain ⟨label, ho⟩ := negated_ok hn
    rw [e] at ho
    cases ho
  | volley throws =>
    intro value rolls e
    cases e
    intro roll hr
    obtain ⟨throw, -, rfl⟩ := List.mem_map.1 hr
    exact ⟨_, _, _, _, rfl⟩
  | combined _ _ hc =>
    intro value rolls e
    obtain ⟨n, label, -, hn⟩ := combined_ok hc
    rw [e] at hn
    cases hn
  | restricted _ hr =>
    intro value rolls e
    rw [e] at hr
    cases restrict_ok hr
  | modified _ _ hm ih _ =>
    intro value rolls e
    rcases addModifier_ok hm with ⟨_, _, _, _, rfl, h⟩ | ⟨_, before, added, rfl, hs, ho⟩
    · obtain ⟨judged, -, ho⟩ := addTo_thrown_ok h
      rw [e] at ho
      cases ho
    · rw [e] at ho
      cases ho
      intro after ha
      obtain ⟨roll, hr, hadd⟩ := addToAll_ok hs after ha
      obtain ⟨n, throw, modifier, sources, rfl⟩ := ih rfl roll hr
      obtain ⟨judged, -, rfl⟩ := addTo_thrown_ok hadd
      exact ⟨_, _, _, _, rfl⟩

/-- The parts of a throw with a modifier added are that throw, its old sources and the new one. -/
theorem parts_modified_throw {delta value modifier : Int} {source : Option Outcome} {throw : Throw}
    {sources : List Outcome} {outcome : Outcome}
    (hl : ∀ part ∈ (thrown value throw modifier sources).parts, Formed written part)
    (hs : ∀ o ∈ source, ∀ part ∈ o.parts, Formed written part)
    (h : addTo delta source (thrown value throw modifier sources) = .ok outcome) :
    ∀ part ∈ outcome.parts, Formed written part := by
  intro part hp
  obtain ⟨judged, -, ho⟩ := addTo_thrown_ok h
  rcases mem_parts.1 hp with rfl | ⟨inside, hi, hp⟩
  · exact modified (hl _ (self_mem_parts _)) (fun o hm => hs o hm o (self_mem_parts o)) h
  · rw [ho] at hi
    rcases List.mem_append.1 hi with hi | hi
    · exact hl part (mem_parts.2 (.inr ⟨inside, hi, hp⟩))
    · exact hs inside (Option.mem_toList.1 hi) part hp

/-- **Every part of an outcome that expressions form is formed by expressions.** -/
theorem parts {outcome : Outcome} (h : Formed written outcome) : ∀ part ∈ outcome.parts, Formed written part := by
  induction h with
  | number hw => intro part hp; rw [eq_of_mem_parts rfl hp]; exact number hw
  | var name value => intro part hp; rw [eq_of_mem_parts rfl hp]; exact var name value
  | span hl hh hmin hmax => intro part hp; rw [eq_of_mem_parts rfl hp]; exact span hl hh hmin hmax
  | fresh throw => intro part hp; rw [eq_of_mem_parts rfl hp]; exact fresh throw
  | volley throws =>
    intro part hp
    rcases mem_parts.1 hp with rfl | ⟨roll, hi, hp⟩
    · exact volley throws
    · obtain ⟨throw, -, rfl⟩ := List.mem_map.1 hi
      rw [eq_of_mem_parts rfl hp]
      exact fresh throw
  | negated ho hn ih =>
    intro part hp
    obtain ⟨label, rfl⟩ := negated_ok hn
    rcases mem_parts.1 hp with rfl | ⟨inside, hi, hp⟩
    · exact negated ho hn
    · cases List.mem_singleton.1 hi
      exact ih part hp
  | combined hl hr hc ihl ihr =>
    intro part hp
    obtain ⟨n, label, -, rfl⟩ := combined_ok hc
    rcases mem_parts.1 hp with rfl | ⟨inside, hi, hin⟩
    · exact combined hl hr hc
    · rcases List.mem_cons.1 hi with rfl | hi
      · exact ihl part hin
      · cases List.mem_singleton.1 hi
        exact ihr part hin
  | restricted hi hr ih =>
    intro part hp
    have ho := restrict_ok hr
    rcases mem_parts.1 hp with rfl | ⟨inside, hin, hp⟩
    · exact restricted hi hr
    · rw [ho] at hin
      cases List.mem_singleton.1 hin
      exact ih part hp
  | modified hl hs hm ihl ihs =>
    intro part hp
    rcases addModifier_ok hm with ⟨_, _, _, _, rfl, h⟩ | ⟨_, before, added, rfl, hadd, rfl⟩
    · exact parts_modified_throw ihl ihs h part hp
    · rcases mem_parts.1 hp with rfl | ⟨inside, hi, hp⟩
      · exact modified hl hs hm
      · obtain ⟨roll, hr, hadd⟩ := addToAll_ok hadd inside hi
        obtain ⟨n, throw, modifier, sources, rfl⟩ := rolls_thrown hl rfl roll hr
        have hroll : ∀ p ∈ (thrown n throw modifier sources).parts, Formed written p :=
          fun p hp => ihl p (mem_parts.2 (.inr ⟨_, hr, hp⟩))
        exact parts_modified_throw hroll ihs hadd part hp

end Formed

/-- **Every part of an outcome that a command forms is formed by a rule.** -/
theorem Reported.parts {written : Nat → Prop} {outcome : Outcome} (h : Reported written outcome) :
    ∀ part ∈ outcome.parts, Reported written part := by
  induction h with
  | expression hf => exact fun part hp => expression (hf.parts part hp)
  | repeated hrolls ih =>
    intro part hp
    rcases mem_parts.1 hp with rfl | ⟨roll, hr, hp⟩
    · exact repeated hrolls
    · exact ih roll hr part hp
  | ironsworn throw modifier => intro part hp; rw [eq_of_mem_parts rfl hp]; exact ironsworn throw modifier
  | flag name => intro part hp; rw [eq_of_mem_parts rfl hp]; exact flag name
  | @sequence first others hf ho ihf iho =>
    intro part hp
    have hself : Reported written (inSequence first others) := sequence hf ho
    unfold inSequence at hp hself
    cases hl : others.getLast? with
    | none => rw [hl] at hp; exact ihf part hp
    | some last =>
      rw [hl] at hp hself
      rcases mem_parts.1 hp with rfl | ⟨result, hr, hin⟩
      · exact hself
      · rcases List.mem_cons.1 hr with rfl | hr
        · exact ihf part hin
        · exact iho result hr part hin

/-! ## What the rules keep -/

/-- **The throws that roll terms make**, before any modifier. -/
inductive Rolled : Throw → Prop
  | summed {spelling : String} {sides : Int} {acing : Bool} {dice : List Die} {keep : Option KeepSuffix}
      {target : Option TargetSuffix} {throw : Throw} :
      summedThrow spelling sides acing dice keep target = .ok throw → Rolled throw
  | counted (spelling : String) (dice : List Die) (suffix : SuccessSuffix) : Rolled (countedThrow spelling dice suffix)
  | wild {spelling : String} {trait wild : Die} {target interval : Int} {judgement : Judgement} :
      Judgement.judge (max trait.total wild.total) target interval = .ok judgement →
      Rolled (.wild {
        spelling, trait, wild, judgement, target, interval
        used := if wild.total ≤ trait.total then .trait else .wild })
  | plain (spelling : String) (sides : Int) (values : List Int) : Rolled (plainThrow spelling sides values)
  | weg (dice : List Int) (wild : Die) : Rolled (.weg { dice, wild })

/-- **A property of outcomes that the rules for expressions keep**, given what is known of the numbers that are written
out and of the numbers that are drawn between two bounds. -/
structure KeptByExpressions (written : Nat → Prop) (drawn : Int → Int → Int → Prop) (P : Outcome → Prop) : Prop where
  number {value : Nat} : written value → P (.simple value "" none [])
  var (name : String) (value : Int) : P (.simple value ("@" ++ name) none [])
  span {low high : Nat} {value : Int} : written low → written high → drawn (min (low : Int) high) (max (low : Int) high)
    value → P (.simple value (toString low ++ "--" ++ toString high) none [])
  fresh {throw : Throw} : Rolled throw → P (fresh throw)
  volley {throws : List Throw} : (∀ throw ∈ throws, Rolled throw) → P (repeated (throws.map Evaluation.fresh))
  negated {operand outcome : Outcome} : P operand → negated operand = .ok outcome → P outcome
  combined {operator : BinaryOperator} {left right outcome : Outcome} : P left → P right →
    combined operator left right = .ok outcome → P outcome
  modified {delta : Int} {source : Option Outcome} {left outcome : Outcome} : P left → (∀ o ∈ source, P o) →
    left.addModifier delta source = .ok outcome → P outcome
  restricted {minimum maximum : Option Int} {inner outcome : Outcome} : P inner →
    restrict inner minimum maximum = .ok outcome → P outcome

/-- **A property of outcomes that the rules for statements keep**, if expressions have outcomes with another one. -/
structure KeptByStatements (ofExpression P : Outcome → Prop) : Prop where
  expression {outcome : Outcome} : ofExpression outcome → P outcome
  repeated {rolls : List Outcome} : (∀ roll ∈ rolls, P roll) → P (repeated rolls)
  ironsworn (throw : ActionThrow) (modifier : Int) : P (.thrown (throw.action + modifier) (.action throw) modifier [])
  flag (name : String) : P (.flag 0 name)

theorem Formed.kept (written : Nat → Prop) :
    KeptByExpressions written (fun low high value => low ≤ value ∧ value ≤ high) (Formed written) where
  number := .number
  var := .var
  span hl hh hdrawn := .span hl hh hdrawn.1 hdrawn.2
  fresh _ := .fresh _
  volley _ := .volley _
  negated := .negated
  combined := .combined
  modified := .modified
  restricted := .restricted

theorem Reported.kept (written : Nat → Prop) : KeptByStatements (Formed written) (Reported written) where
  expression := .expression
  repeated := .repeated
  ironsworn := .ironsworn
  flag := .flag

/-! ## Rolls -/

namespace Evaluation

section Rolls

variable {σ : Type} [RandomSource σ] {limits : Limits} {table after : Table σ}

theorem rollGeneric_fresh {roll : GenericRoll} {outcome : Outcome}
    (h : rollGeneric limits roll table = .ok outcome after) : ∃ throw, Rolled throw ∧ outcome = fresh throw := by
  unfold rollGeneric at h
  obtain ⟨count, _, -, h⟩ := Play.bind_ok h
  obtain ⟨sides, _, -, h⟩ := Play.bind_ok h
  obtain ⟨dice, _, -, h⟩ := Play.bind_ok h
  cases hr : roll.reading with
  | successes suffix =>
    rw [hr] at h
    exact ⟨_, .counted _ _ _, (Play.pure_ok h).1⟩
  | total keep target =>
    rw [hr] at h
    obtain ⟨throw, _, hthrow, h⟩ := Play.bind_ok h
    exact ⟨throw, .summed (Play.ofRule_ok hthrow).1, (Play.pure_ok h).1⟩

theorem rollWild_fresh {spelling : String} {traitSides wildSides target interval : Int} {outcome : Outcome}
    (h : rollWild limits spelling traitSides wildSides target interval table = .ok outcome after) :
    ∃ throw, Rolled throw ∧ outcome = fresh throw := by
  unfold rollWild at h
  obtain ⟨trait, _, -, h⟩ := Play.bind_ok h
  obtain ⟨wild, _, -, h⟩ := Play.bind_ok h
  obtain ⟨judgement, _, hjudge, h⟩ := Play.bind_ok h
  exact ⟨_, .wild (Play.ofRule_ok hjudge).1, (Play.pure_ok h).1⟩

theorem rollExtra_fresh {spelling : String} {sides : Int} {target : Option TargetSuffix} {outcome : Outcome}
    (h : rollExtra limits spelling sides target table = .ok outcome after) :
    ∃ throw, Rolled throw ∧ outcome = fresh throw := by
  unfold rollExtra at h
  obtain ⟨die, _, -, h⟩ := Play.bind_ok h
  obtain ⟨throw, _, hthrow, h⟩ := Play.bind_ok h
  exact ⟨throw, .summed (Play.ofRule_ok hthrow).1, (Play.pure_ok h).1⟩

variable {written : Nat → Prop} {drawn : Int → Int → Int → Prop} {P : Outcome → Prop}

/-- **Fresh throws together** are one throw or repetitions of throws. -/
theorem together_kept (hkept : KeptByExpressions written drawn P) {outcomes : List Outcome}
    (h : ∀ outcome ∈ outcomes, ∃ throw, Rolled throw ∧ outcome = fresh throw) : P (together outcomes) := by
  have hthrows : ∃ throws : List Throw, (∀ throw ∈ throws, Rolled throw) ∧ outcomes = throws.map fresh := by
    induction outcomes with
    | nil => exact ⟨[], fun _ ht => absurd ht List.not_mem_nil, rfl⟩
    | cons outcome rest ih =>
      obtain ⟨throw, hrolled, rfl⟩ := h outcome List.mem_cons_self
      obtain ⟨throws, hall, rfl⟩ := ih fun o ho => h o (List.mem_cons_of_mem _ ho)
      exact ⟨throw :: throws, List.forall_mem_cons.2 ⟨hrolled, hall⟩, rfl⟩
  obtain ⟨throws, hall, rfl⟩ := hthrows
  match throws, hall with
  | [], hall => exact hkept.volley hall
  | [throw], hall => exact hkept.fresh (hall throw List.mem_cons_self)
  | _ :: _ :: _, hall => exact hkept.volley hall

/-- **A roll term forms its outcome by a rule.** -/
theorem roll_kept (hkept : KeptByExpressions written drawn P) (hgives : RandomSource.Gives σ drawn) {term : Roll}
    {outcome : Outcome} (hw : ∀ n ∈ term.numbers, written n) (h : roll limits term table = .ok outcome after) :
    P outcome := by
  cases term with
  | generic roll =>
    obtain ⟨throw, hrolled, rfl⟩ := rollGeneric_fresh h
    exact hkept.fresh hrolled
  | savage roll =>
    obtain ⟨count, _, -, h⟩ := Play.bind_ok h
    obtain ⟨traitSides, _, -, h⟩ := Play.bind_ok h
    obtain ⟨wildSides, _, -, h⟩ := Play.bind_ok h
    obtain ⟨rolls, hrolls, rfl⟩ := Play.map_ok h
    refine together_kept hkept fun o ho => ?_
    obtain ⟨before, middle, ho⟩ := Play.times_ok hrolls o ho
    exact rollWild_fresh ho
  | extras roll =>
    obtain ⟨count, _, -, h⟩ := Play.bind_ok h
    obtain ⟨sides, _, -, h⟩ := Play.bind_ok h
    obtain ⟨rolls, hrolls, rfl⟩ := Play.map_ok h
    refine together_kept hkept fun o ho => ?_
    obtain ⟨before, middle, ho⟩ := Play.times_ok hrolls o ho
    exact rollExtra_fresh ho
  | fudge count =>
    obtain ⟨dice, _, -, h⟩ := Play.bind_ok h
    obtain ⟨values, _, -, h⟩ := Play.bind_ok h
    rw [(Play.pure_ok h).1]
    exact hkept.fresh (.plain _ _ _)
  | carcosa count =>
    obtain ⟨dice, _, -, h⟩ := Play.bind_ok h
    obtain ⟨size, _, -, h⟩ := Play.bind_ok h
    obtain ⟨sides, _, -, h⟩ := Play.bind_ok h
    obtain ⟨values, _, -, h⟩ := Play.bind_ok h
    rw [(Play.pure_ok h).1]
    exact hkept.fresh (.plain _ _ _)
  | weg count =>
    obtain ⟨number, _, -, h⟩ := Play.bind_ok h
    obtain ⟨dice, _, -, h⟩ := Play.bind_ok h
    obtain ⟨wild, _, -, h⟩ := Play.bind_ok h
    rw [(Play.pure_ok h).1]
    exact hkept.fresh (.weg _ _)
  | span low high =>
    obtain ⟨value, middle, hvalue, h⟩ := Play.bind_ok h
    obtain ⟨next, hdraw, -⟩ := Play.draw_ok hvalue
    rw [(Play.pure_ok h).1]
    exact hkept.span (hw low (by simp [Roll.numbers])) (hw high (by simp [Roll.numbers]))
      (hgives _ _ _ _ _ (by omega) hdraw)

end Rolls

/-! ## Expressions, statements and commands -/

section Commands

variable {σ : Type} [RandomSource σ] {limits : Limits} {table after : Table σ}
variable {written : Nat → Prop} {drawn : Int → Int → Int → Prop} {P Q : Outcome → Prop}

omit [RandomSource σ] in
theorem lookUp_kept (hkept : KeptByExpressions written drawn P) {name : String} {outcome : Outcome}
    (h : lookUp name table = .ok outcome after) : P outcome := by
  unfold lookUp at h
  obtain ⟨seen, _, -, h⟩ := Play.bind_ok h
  cases hm : seen.memory.get? name with
  | some value =>
    rw [hm] at h
    rw [(Play.pure_ok h).1]
    exact hkept.var name value
  | none =>
    rw [hm] at h
    obtain ⟨_, _, -, h⟩ := Play.bind_ok h
    rw [(Play.pure_ok h).1]
    exact hkept.var name 0

theorem sourceOf_kept {expression : Expr} {outcome : Outcome} (h : P outcome) :
    ∀ o ∈ sourceOf expression outcome, P o := by
  intro o ho
  cases expression <;> cases ho <;> exact h

/-- **An operator forms its outcome by a rule.** -/
theorem operate_kept (hkept : KeptByExpressions written drawn P) {operator : BinaryOperator}
    {left right outcome : Outcome} {source : Option Outcome} (hl : P left) (hr : P right) (hs : ∀ o ∈ source, P o)
    (h : operate operator left right source = .ok outcome) : P outcome := by
  unfold operate at h
  cases hd : delta? operator right with
  | none => rw [hd] at h; exact hkept.combined hl hr h
  | some delta =>
    rw [hd] at h
    simp only at h
    split at h
    · exact hkept.modified hl hs h
    · exact hkept.combined hl hr h

/-- **An expression forms its outcome by the rules**, so the outcome has every property that the rules keep. -/
theorem evaluate_kept (hkept : KeptByExpressions written drawn P) (hgives : RandomSource.Gives σ drawn) :
    ∀ (expression : Expr) {table after : Table σ} {outcome : Outcome}, (∀ n ∈ expression.numbers, written n) →
      evaluate limits expression table = .ok outcome after → P outcome
  | .literal value position, table, after, outcome, hw, h => by
    rw [evaluate] at h
    rw [(Play.pure_ok h).1]
    exact hkept.number (hw value (by simp [Expr.numbers]))
  | .var name position, table, after, outcome, hw, h => by
    rw [evaluate] at h
    exact lookUp_kept hkept h
  | .roll term position, table, after, outcome, hw, h => by
    rw [evaluate] at h
    exact roll_kept hkept hgives hw h
  | .signed .plus operand position, table, after, outcome, hw, h => by
    rw [evaluate] at h
    exact evaluate_kept hkept hgives operand hw h
  | .signed .minus operand position, table, after, outcome, hw, h => by
    rw [evaluate] at h
    obtain ⟨inner, _, hinner, h⟩ := Play.bind_ok h
    exact hkept.negated (evaluate_kept hkept hgives operand hw hinner) (Play.ofExcept_ok h).1
  | .binary operator left right position, table, after, outcome, hw, h => by
    rw [evaluate] at h
    obtain ⟨leftOutcome, _, hleft, h⟩ := Play.bind_ok h
    obtain ⟨rightOutcome, _, hright, h⟩ := Play.bind_ok h
    obtain ⟨h, -⟩ := Play.ofExcept_ok h
    have hl := evaluate_kept hkept hgives left (fun n hn => hw n (List.mem_append_left _ hn)) hleft
    have hr := evaluate_kept hkept hgives right (fun n hn => hw n (List.mem_append_right _ hn)) hright
    exact operate_kept hkept hl hr (sourceOf_kept hr) h
  | .unbounded operand position, table, after, outcome, hw, h => by
    rw [evaluate] at h
    obtain ⟨inner, _, hinner, h⟩ := Play.bind_ok h
    exact hkept.restricted (evaluate_kept hkept hgives operand hw hinner) (Play.ofRule_ok h).1
  | .atLeast operand minimum position, table, after, outcome, hw, h => by
    rw [evaluate] at h
    obtain ⟨inner, _, hinner, h⟩ := Play.bind_ok h
    obtain ⟨low, _, -, h⟩ := Play.bind_ok h
    have hi := evaluate_kept hkept hgives operand (fun n hn => hw n (List.mem_append_left _ hn)) hinner
    exact hkept.restricted hi (Play.ofRule_ok h).1
  | .atMost operand maximum position, table, after, outcome, hw, h => by
    rw [evaluate] at h
    obtain ⟨inner, _, hinner, h⟩ := Play.bind_ok h
    obtain ⟨high, _, -, h⟩ := Play.bind_ok h
    have hi := evaluate_kept hkept hgives operand (fun n hn => hw n (List.mem_append_left _ hn)) hinner
    exact hkept.restricted hi (Play.ofRule_ok h).1
  | .between operand minimum maximum position, table, after, outcome, hw, h => by
    rw [evaluate] at h
    obtain ⟨inner, _, hinner, h⟩ := Play.bind_ok h
    obtain ⟨low, _, -, h⟩ := Play.bind_ok h
    obtain ⟨high, _, -, h⟩ := Play.bind_ok h
    have hi := evaluate_kept hkept hgives operand (fun n hn => hw n (List.mem_append_left _ hn)) hinner
    exact hkept.restricted hi (Play.ofRule_ok h).1
  | .assign name value position, table, after, outcome, hw, h => by
    rw [evaluate] at h
    obtain ⟨inner, _, hinner, h⟩ := Play.bind_ok h
    obtain ⟨_, _, -, h⟩ := Play.bind_ok h
    rw [(Play.pure_ok h).1]
    exact evaluate_kept hkept hgives value hw hinner

theorem evaluateAll_kept (hkept : KeptByExpressions written drawn P) (hgives : RandomSource.Gives σ drawn) :
    ∀ (expressions : List Expr) {table after : Table σ} {outcomes : List Outcome},
      (∀ e ∈ expressions, ∀ n ∈ e.numbers, written n) →
      evaluateAll limits expressions table = .ok outcomes after → ∀ outcome ∈ outcomes, P outcome
  | [], table, after, outcomes, hw, h => by
    rw [evaluateAll] at h
    rw [(Play.pure_ok h).1]
    intro outcome ho
    cases ho
  | expression :: rest, table, after, outcomes, hw, h => by
    rw [evaluateAll] at h
    obtain ⟨first, _, hfirst, h⟩ := Play.bind_ok h
    obtain ⟨others, _, hothers, h⟩ := Play.bind_ok h
    rw [(Play.pure_ok h).1]
    intro outcome ho
    rcases List.mem_cons.1 ho with rfl | ho
    · exact evaluate_kept hkept hgives expression (hw expression List.mem_cons_self) hfirst
    · exact evaluateAll_kept hkept hgives rest (fun e he => hw e (List.mem_cons_of_mem _ he)) hothers outcome ho

/-- **A statement has its outcome by the rules.** -/
theorem evaluateStatement_kept (hexpr : KeptByExpressions written drawn P) (hkept : KeptByStatements P Q)
    (hgives : RandomSource.Gives σ drawn) {statement : Statement} {outcome : Outcome}
    (hw : ∀ e ∈ statement.trees, ∀ n ∈ e.numbers, written n)
    (h : evaluateStatement limits statement table = .ok outcome after) : Q outcome := by
  cases statement with
  | once expression position =>
    exact hkept.expression (evaluate_kept hexpr hgives expression (hw expression List.mem_cons_self) h)
  | times count expression position =>
    obtain ⟨number, _, -, h⟩ := Play.bind_ok h
    obtain ⟨rolls, _, hrolls, h⟩ := Play.bind_ok h
    rw [(Play.pure_ok h).1]
    refine hkept.repeated fun roll hr => ?_
    obtain ⟨before, middle, hroll⟩ := Play.times_ok hrolls roll hr
    exact hkept.expression (evaluate_kept hexpr hgives expression (hw expression List.mem_cons_self) hroll)
  | batch count expressions position =>
    obtain ⟨number, _, -, h⟩ := Play.bind_ok h
    obtain ⟨rounds, _, hrounds, h⟩ := Play.bind_ok h
    rw [(Play.pure_ok h).1]
    refine hkept.repeated fun round hr => ?_
    obtain ⟨before, middle, hround⟩ := Play.times_ok hrounds round hr
    obtain ⟨rolls, hrolls, rfl⟩ := Play.map_ok hround
    exact hkept.repeated fun roll hroll =>
      hkept.expression (evaluateAll_kept hexpr hgives expressions hw hrolls roll hroll)
  | ironsworn modifier position =>
    obtain ⟨n, _, -, h⟩ := Play.bind_ok h
    obtain ⟨action, _, -, h⟩ := Play.bind_ok h
    obtain ⟨first, _, -, h⟩ := Play.bind_ok h
    obtain ⟨second, _, -, h⟩ := Play.bind_ok h
    rw [(Play.pure_ok h).1]
    exact hkept.ironsworn ⟨action, first, second⟩ n
  | flag name position =>
    rw [(Play.pure_ok h).1]
    exact hkept.flag name

theorem evaluateStatements_kept (hexpr : KeptByExpressions written drawn P) (hkept : KeptByStatements P Q)
    (hgives : RandomSource.Gives σ drawn) : ∀ (statements : List Statement) {table after : Table σ}
    {outcomes : List Outcome}, (∀ e ∈ statements.flatMap Statement.trees, ∀ n ∈ e.numbers, written n) →
      evaluateStatements limits statements table = .ok outcomes after → ∀ outcome ∈ outcomes, Q outcome
  | [], table, after, outcomes, hw, h => by
    rw [evaluateStatements] at h
    rw [(Play.pure_ok h).1]
    intro outcome ho
    cases ho
  | statement :: rest, table, after, outcomes, hw, h => by
    rw [evaluateStatements] at h
    obtain ⟨_, _, -, h⟩ := Play.bind_ok h
    obtain ⟨first, _, hfirst, h⟩ := Play.bind_ok h
    obtain ⟨others, _, hothers, h⟩ := Play.bind_ok h
    rw [(Play.pure_ok h).1]
    rw [List.flatMap_cons] at hw
    intro outcome ho
    rcases List.mem_cons.1 ho with rfl | ho
    · exact evaluateStatement_kept hexpr hkept hgives (fun e he => hw e (List.mem_append_left _ he)) hfirst
    · exact evaluateStatements_kept hexpr hkept hgives rest (fun e he => hw e (List.mem_append_right _ he)) hothers
        outcome ho

/-- **A command is evaluated as its statements are**, and their outcomes are put in sequence. -/
theorem evaluateCommand_ok {command : Command} {outcome : Outcome}
    (h : evaluateCommand limits command table = .ok outcome after) :
    ∃ first others, evaluateStatements limits command.statements table = .ok (first :: others) after ∧
      outcome = inSequence first others := by
  unfold evaluateCommand at h
  obtain ⟨_, _, hreport, h₁⟩ := Play.bind_ok h
  obtain ⟨first, _, hfirst, h₂⟩ := Play.bind_ok h₁
  obtain ⟨others, _, hothers, h₃⟩ := Play.bind_ok h₂
  obtain ⟨rfl, rfl⟩ := Play.pure_ok h₃
  refine ⟨first, others, ?_, rfl⟩
  rw [Command.statements, evaluateStatements, Play.bind_eq hreport, Play.bind_eq hfirst, Play.bind_eq hothers]
  rfl

/-- **A command has its outcome by the rules**, if they may be put in sequence. -/
theorem evaluateCommand_kept (hexpr : KeptByExpressions written drawn P) (hkept : KeptByStatements P Q)
    (hgives : RandomSource.Gives σ drawn)
    (hsequence : ∀ {first others}, Q first → (∀ o ∈ others, Q o) → Q (inSequence first others)) {command : Command}
    {outcome : Outcome} (hw : ∀ e ∈ command.trees, ∀ n ∈ e.numbers, written n)
    (h : evaluateCommand limits command table = .ok outcome after) : Q outcome := by
  obtain ⟨first, others, hall, rfl⟩ := evaluateCommand_ok h
  have houtcomes := evaluateStatements_kept hexpr hkept hgives command.statements hw hall
  exact hsequence (houtcomes first List.mem_cons_self) fun o ho => houtcomes o (List.mem_cons_of_mem _ ho)

/-- A sequence of one outcome is that outcome. -/
theorem inSequence_kept (hsequence : ∀ {value outcomes}, (∀ o ∈ outcomes, Q o) → Q (.sequence value outcomes))
    {first : Outcome} {others : List Outcome} (hfirst : Q first) (hothers : ∀ o ∈ others, Q o) :
    Q (inSequence first others) := by
  unfold inSequence
  split
  · exact hfirst
  · exact hsequence (List.forall_mem_cons.2 ⟨hfirst, hothers⟩)

/-- **A command reports its outcome by the rules.** -/
theorem evaluateCommand_reported (hfair : RandomSource.InRange σ) {command : Command} {outcome : Outcome}
    (hw : ∀ e ∈ command.trees, ∀ n ∈ e.numbers, written n)
    (h : evaluateCommand limits command table = .ok outcome after) : Reported written outcome :=
  evaluateCommand_kept (Formed.kept written) (Reported.kept written) hfair .sequence hw h

end Commands

end Evaluation

end TabletopDice
