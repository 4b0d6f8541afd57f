import TabletopDice.Proofs.SingleRoll
import TabletopDice.Proofs.Verdicts
/-!
# Sums — a chain of sums keeps the dice of its first operand

A sum nests to the left: its first operand is combined with the second, their outcome with the third, and so on
(`Expr.sum`, `Grammar.Derives.summands`). Each of these steps adds a number to the outcome so far, if that takes
modifiers (`Raised.addModifier`). So the steps together add the signed total of the operands after the first
(`evaluate_sum`): the outcome is that of the first operand with one modifier and a judgement of the last value, and
beside it stand, in order, the outcomes of the operands that are no numbers as written (`sum_keeps_dice`).
-/
namespace TabletopDice

open Outcome Evaluation

/-! ## Sums -/

/-- An operand of a sum after the first, with its sign and the place of the sign. -/
structure Addend where
  sign : Sign
  operand : Expr
  position : Nat

/-- **The tree of a sum.** -/
def Expr.sum (first : Expr) (addends : List Addend) : Expr :=
  addends.foldl (fun left addend => .binary addend.sign.operator left addend.operand addend.position) first

theorem Expr.sum_cons (first : Expr) (addend : Addend) (addends : List Addend) : Expr.sum first (addend :: addends) =
    Expr.sum (.binary addend.sign.operator first addend.operand addend.position) addends := rfl

theorem Expr.sum_concat (first : Expr) (addends : List Addend) (addend : Addend) :
    Expr.sum first (addends ++ [addend]) =
      .binary addend.sign.operator (Expr.sum first addends) addend.operand addend.position := by
  unfold Expr.sum
  rw [List.foldl_append]
  rfl

def Expr.isLiteral : Expr → Bool
  | literal .. => true
  | _ => false

def Sign.apply : Sign → Int → Int
  | plus, n => n
  | minus, n => -n

/-- What operands with these outcomes add. -/
def totalAdded (addends : List Addend) (outcomes : List Outcome) : Int :=
  Numbers.total (List.zipWith (fun addend outcome => addend.sign.apply outcome.value) addends outcomes)

/-- The outcomes of the operands that are no numbers as written. -/
def keptSources (addends : List Addend) (outcomes : List Outcome) : List Outcome :=
  ((addends.zip outcomes).filter fun pair => !pair.1.operand.isLiteral).map Prod.snd

theorem totalAdded_cons (addend : Addend) (addends : List Addend) (outcome : Outcome) (outcomes : List Outcome) :
    totalAdded (addend :: addends) (outcome :: outcomes) =
      addend.sign.apply outcome.value + totalAdded addends outcomes := rfl

theorem keptSources_cons (addend : Addend) (addends : List Addend) (outcome : Outcome) (outcomes : List Outcome) :
    keptSources (addend :: addends) (outcome :: outcomes) =
      (sourceOf addend.operand outcome).toList ++ keptSources addends outcomes := by
  unfold keptSources
  rw [List.zip_cons_cons]
  cases hliteral : addend.operand.isLiteral with
  | true =>
    have hsource : sourceOf addend.operand outcome = none := by
      cases he : addend.operand <;> rw [he] at hliteral <;> first | rfl | cases hliteral
    rw [List.filter_cons_of_neg (by simp [hliteral]), hsource]
    rfl
  | false =>
    have hsource : sourceOf addend.operand outcome = some outcome := by
      cases he : addend.operand <;> rw [he] at hliteral <;> first | rfl | cases hliteral
    rw [List.filter_cons_of_pos (by simp [hliteral]), hsource]
    rfl

namespace Grammar

/-- The tokens of the operands of a sum, with the signs between them. -/
inductive Summands : List Token → Expr → List Addend → Prop
  | first {ts : List Token} {e : Expr} {k n : Nat} : Derives (.multiplicative k) ts e n → Summands ts e []
  | next {ts us : List Token} {e r : Expr} {addends : List Addend} {k n : Nat} (sign : Sign) (p : Nat) :
      Summands ts e addends → Derives (.multiplicative k) us r n →
      Summands (ts ++ ⟨.symbol sign.mark, p⟩ :: us) e (addends ++ [⟨sign, r, p⟩])

/-- **A sum is read into the tree that nests to the left.** -/
theorem Derives.summands {ts : List Token} {e : Expr} : ∀ {k n : Nat}, Derives (.additive k) ts e n →
    ∃ first addends, Summands ts first addends ∧ addends.length = k ∧ e = Expr.sum first addends
  | _, _, .oneTerm h => ⟨e, [], .first h, rfl, rfl⟩
  | _, _, .moreTerms p hl hs hr => by
    obtain ⟨first, addends, hts, hlength, rfl⟩ := hl.summands
    cases hs with
    | plus => exact ⟨first, _, .next .plus p hts hr, by simp [hlength], (Expr.sum_concat first addends ⟨.plus, _, p⟩).symm⟩
    | minus => exact ⟨first, _, .next .minus p hts hr, by simp [hlength], (Expr.sum_concat first addends ⟨.minus, _, p⟩).symm⟩

end Grammar

/-! ## One modifier added after another -/

/-- **A throw judged for a value**, if it has a target number; nothing else of it changes. -/
inductive Throw.JudgedFor (value : Int) : Throw → Throw → Prop
  | untargeted {throw : GenericThrow} : throw.target = none → JudgedFor value (.generic throw) (.generic throw)
  | generic {throw : GenericThrow} {target interval : Int} {judgement : Judgement} : throw.target = some target →
      throw.interval = some interval → Judgement.judge value target interval = .ok judgement →
      JudgedFor value (.generic throw) (.generic { throw with judgement := some judgement })
  | wild {throw : WildThrow} {judgement : Judgement} :
      Judgement.judge value throw.target throw.interval = .ok judgement →
      JudgedFor value (.wild throw) (.wild { throw with judgement })
  | count (throw : CountThrow) : JudgedFor value (.count throw) (.count throw)
  | weg (throw : WegThrow) : JudgedFor value (.weg throw) (.weg throw)
  | action (throw : ActionThrow) : JudgedFor value (.action throw) (.action throw)

namespace Outcome

/-- **A throw with a number added** to its value and modifier, and with more sources. -/
inductive RaisedThrow (delta : Int) (sources : List Outcome) : Outcome → Outcome → Prop
  | mk {value modifier : Int} {throw judged : Throw} {before : List Outcome} : throw.JudgedFor (value + delta) judged →
      RaisedThrow delta sources (.thrown value throw modifier before)
        (.thrown (value + delta) judged (modifier + delta) (before ++ sources))

/-- **An outcome with a number added**: a throw, or repetitions of throws, of which each has the number added and whose
value is the sum of theirs. -/
inductive Raised (delta : Int) (sources : List Outcome) : Outcome → Outcome → Prop
  | thrown {before after : Outcome} : RaisedThrow delta sources before after → Raised delta sources before after
  | multiple {value : Int} {rolls raised : List Outcome} : List.Forall₂ (RaisedThrow delta sources) rolls raised →
      Raised delta sources (.multiple value rolls) (.multiple (sumOf raised) raised)

end Outcome

theorem Throw.JudgedFor.self {value : Int} {throw judged : Throw} (h : throw.JudgedFor value judged) :
    judged.JudgedFor value judged := by
  cases h with
  | untargeted htarget => exact .untargeted htarget
  | @generic throw target interval judgement htarget hinterval hjudge =>
    let again : GenericThrow := { throw with judgement := some judgement }
    have hagain : Throw.JudgedFor value (.generic again) (.generic again) := .generic htarget hinterval hjudge
    exact hagain
  | @wild throw judgement hjudge =>
    let again : WildThrow := { throw with judgement }
    have hagain : Throw.JudgedFor value (.wild again) (.wild again) := .wild hjudge
    exact hagain
  | count | weg | action => constructor

/-- A judgement can be made again for any value, as its interval is positive. -/
theorem Throw.JudgedFor.rejudge {value : Int} {throw judged : Throw} (h : throw.JudgedFor value judged) (next : Int) :
    ∃ again, judged.rejudge next = .ok again ∧ throw.JudgedFor next again := by
  cases h with
  | untargeted htarget => exact ⟨_, by simp only [Throw.rejudge, htarget], .untargeted htarget⟩
  | @generic throw target interval judgement htarget hinterval hjudge =>
    have hpos := (Judgement.judge_follows hjudge).interval_pos
    obtain ⟨again, hagain⟩ := Judgement.exists_judge hpos next target
    refine ⟨_, ?_, .generic htarget hinterval hagain⟩
    simp only [Throw.rejudge, htarget, hinterval, hagain]
  | @wild throw judgement hjudge =>
    have hpos := (Judgement.judge_follows hjudge).interval_pos
    obtain ⟨again, hagain⟩ := Judgement.exists_judge hpos next throw.target
    exact ⟨_, by simp only [Throw.rejudge, hagain], .wild hagain⟩
  | count | weg | action => exact ⟨_, rfl, by constructor⟩

namespace Outcome

variable {delta : Int} {sources : List Outcome} {before after : Outcome}

theorem RaisedThrow.of_judgedFor {value modifier : Int} {throw : Throw} {before : List Outcome}
    (h : throw.JudgedFor value throw) :
    RaisedThrow 0 [] (.thrown value throw modifier before) (.thrown value throw modifier before) := by
  have hjudged : throw.JudgedFor (value + 0) throw := by rwa [Int.add_zero]
  have hraised : RaisedThrow 0 [] _ (.thrown (value + 0) throw (modifier + 0) (before ++ [])) := .mk hjudged
  rwa [Int.add_zero, Int.add_zero, List.append_nil] at hraised

theorem RaisedThrow.self (h : RaisedThrow delta sources before after) : RaisedThrow 0 [] after after := by
  cases h with
  | mk hjudged => exact .of_judgedFor hjudged.self

theorem RaisedThrow.addTo (h : RaisedThrow delta sources before after) (more : Int) (source : Option Outcome) :
    ∃ added, addTo more source after = .ok added ∧ RaisedThrow (delta + more) (sources ++ source.toList) before added := by
  cases h with
  | @mk value modifier throw judged sources' hjudged =>
    obtain ⟨again, hagain, hfor⟩ := hjudged.rejudge (value + delta + more)
    refine ⟨.thrown (value + delta + more) again (modifier + delta + more) (sources' ++ sources ++ source.toList), ?_, ?_⟩
    · rw [Outcome.addTo, hagain]
      rfl
    · rw [Int.add_assoc] at hfor
      rw [Int.add_assoc, Int.add_assoc, List.append_assoc]
      exact .mk hfor

theorem addToAll_raised {rolls raised : List Outcome} (h : List.Forall₂ (RaisedThrow delta sources) rolls raised)
    (more : Int) (source : Option Outcome) : ∃ added, addToAll more source raised = .ok added ∧
      List.Forall₂ (RaisedThrow (delta + more) (sources ++ source.toList)) rolls added := by
  induction h with
  | nil => exact ⟨[], by rw [addToAll], .nil⟩
  | cons hroll _ ih =>
    obtain ⟨first, hfirst, hraised⟩ := hroll.addTo more source
    obtain ⟨others, hothers, hall⟩ := ih
    refine ⟨first :: others, ?_, .cons hraised hall⟩
    rw [addToAll, hfirst, hothers]
    rfl

theorem Raised.accepts (h : Raised delta sources before after) : after.acceptsModifier = true := by
  rcases h with ⟨⟨⟩⟩ | _
  · rfl
  · rfl

/-- **A modifier added after others is added to what they add.** -/
theorem Raised.addModifier (h : Raised delta sources before after) (more : Int) (source : Option Outcome) :
    ∃ added, after.addModifier more source = .ok added ∧
      Raised (delta + more) (sources ++ source.toList) before added := by
  have haccepts := h.accepts
  unfold Outcome.addModifier
  rw [haccepts, if_pos rfl]
  cases h with
  | thrown h =>
    obtain ⟨added, hadded, hraised⟩ := h.addTo more source
    exact ⟨added, hadded, .thrown hraised⟩
  | @multiple value rolls raised h =>
    obtain ⟨added, hadded, hall⟩ := addToAll_raised h more source
    refine ⟨.multiple (sumOf added) added, ?_, .multiple hall⟩
    rw [Outcome.addTo, hadded]
    rfl

/-! ## Outcomes of expressions -/

/-- If an outcome takes modifiers, nothing has to be added to it for its judgement to fit. -/
def Steady (outcome : Outcome) : Prop := outcome.acceptsModifier = true → Raised 0 [] outcome outcome

theorem Raised.self (h : Raised delta sources before after) : Raised 0 [] after after := by
  cases h with
  | thrown h => exact .thrown h.self
  | @multiple value rolls raised h =>
    refine .multiple ?_
    induction h with
    | nil => exact .nil
    | cons hroll _ ih => exact .cons hroll.self ih

end Outcome

theorem Rolled.judgedFor {throw : Throw} (h : Rolled throw) : throw.JudgedFor throw.total throw := by
  cases h with
  | summed h =>
    obtain ⟨_, _, _, _, _, -, hjudged, rfl⟩ := summedThrow_ok h
    rcases judged_ok hjudged with ⟨rfl, rfl, rfl⟩ | ⟨_, _, _, rfl, rfl, rfl, hjudge⟩
    · exact .untargeted rfl
    · exact Throw.JudgedFor.generic rfl rfl hjudge
  | counted | weg => constructor
  | wild hjudge => exact Throw.JudgedFor.wild hjudge
  | plain => exact .untargeted rfl

namespace Outcome

theorem Steady.keptByExpressions : KeptByExpressions (fun _ => True) (fun _ _ _ => True) Steady where
  number _ := nofun
  var _ _ := nofun
  span _ _ _ := nofun
  fresh hrolled := fun _ => .thrown (.of_judgedFor hrolled.judgedFor)
  volley := by
    intro throws hrolled _
    refine .multiple (List.forall₂_same.2 fun roll hroll => ?_)
    obtain ⟨throw, hthrow, rfl⟩ := List.mem_map.1 hroll
    exact .of_judgedFor (hrolled throw hthrow).judgedFor
  negated _ hnegated := by
    obtain ⟨label, rfl⟩ := negated_ok hnegated
    nofun
  combined _ _ hcombined := by
    obtain ⟨value, label, -, rfl⟩ := combined_ok hcombined
    nofun
  modified := by
    intro delta source left outcome hleft _ hmodified _
    have haccepts : left.acceptsModifier = true := by
      by_contra hno
      unfold addModifier at hmodified
      rw [if_neg hno] at hmodified
      cases hmodified
    obtain ⟨added, hadded, hraised⟩ := (hleft haccepts).addModifier delta source
    rw [hadded] at hmodified
    cases hmodified
    exact hraised.self
  restricted _ hrestricted := by
    rw [restrict_ok hrestricted]
    nofun

end Outcome

/-! ## The run of a sum -/

namespace Evaluation

variable {σ : Type} [RandomSource σ] {limits : Limits}

theorem Steady.evaluate {expression : Expr} {table after : Table σ} {outcome : Outcome}
    (h : evaluate limits expression table = .ok outcome after) : outcome.Steady :=
  evaluate_kept Steady.keptByExpressions (fun _ _ _ _ _ _ _ => trivial) expression (fun _ _ => trivial) h

theorem operate_raised {delta : Int} {sources : List Outcome} {base left : Outcome} (h : Raised delta sources base left)
    (addend : Addend) (right : Outcome) : ∃ outcome,
      operate addend.sign.operator left right (sourceOf addend.operand right) = .ok outcome ∧
      Raised (delta + addend.sign.apply right.value) (sources ++ (sourceOf addend.operand right).toList) base outcome := by
  obtain ⟨outcome, hadded, hraised⟩ :=
    h.addModifier (addend.sign.apply right.value) (sourceOf addend.operand right)
  refine ⟨outcome, ?_, hraised⟩
  have hdelta : delta? addend.sign.operator right = some (addend.sign.apply right.value) := by
    cases addend.sign <;> rfl
  unfold operate
  rw [hdelta]
  simp only [h.accepts, if_true]
  exact hadded

theorem evaluate_sum_error {fault : Fault} {table after : Table σ} : ∀ (addends : List Addend) {first : Expr},
    evaluate limits first table = .error fault after → evaluate limits (Expr.sum first addends) table = .error fault after
  | [], _, h => h
  | addend :: rest, first, h => by
    rw [Expr.sum_cons]
    apply evaluate_sum_error rest
    rw [evaluate, Play.bind_error h]

/-- **The operands are evaluated one after another**, each added to the outcome so far; if one of them fails, the sum
fails there. The induction is on the operands after the first, for every tree that has an outcome raised so far. -/
theorem evaluate_sum {base : Outcome} : ∀ (addends : List Addend) {first : Expr} {table middle : Table σ}
    {left : Outcome} {delta : Int} {sources : List Outcome}, evaluate limits first table = .ok left middle →
    Raised delta sources base left →
    (∀ outcomes after, evaluateAll limits (addends.map Addend.operand) middle = .ok outcomes after →
      ∃ outcome, evaluate limits (Expr.sum first addends) table = .ok outcome after ∧
        Raised (delta + totalAdded addends outcomes) (sources ++ keptSources addends outcomes) base outcome) ∧
    ∀ fault after, evaluateAll limits (addends.map Addend.operand) middle = .error fault after →
      evaluate limits (Expr.sum first addends) table = .error fault after
  | [], first, table, middle, left, delta, sources, hfirst, hraised => by
    refine ⟨fun outcomes after h => ?_, fun fault after h => ?_⟩
    · obtain ⟨rfl, rfl⟩ := Play.pure_ok h
      refine ⟨left, hfirst, ?_⟩
      simpa [totalAdded, keptSources, Numbers.total] using hraised
    · cases h
  | addend :: rest, first, table, middle, left, delta, sources, hfirst, hraised => by
    rw [List.map_cons, evaluateAll, Expr.sum_cons]
    cases hright : evaluate limits addend.operand middle with
    | error fault stopped =>
      have htree : evaluate limits (.binary addend.sign.operator first addend.operand addend.position) table =
          .error fault stopped := by
        rw [evaluate, Play.bind_eq hfirst]
        exact Play.bind_error hright _
      refine ⟨fun outcomes after h => ?_, fun fault after h => ?_⟩
      · rw [Play.bind_error hright] at h
        cases h
      · rw [Play.bind_error hright] at h
        cases h
        exact evaluate_sum_error rest htree
    | ok right next =>
      obtain ⟨outcome, hoperate, hnext⟩ := operate_raised hraised addend right
      have htree : evaluate limits (.binary addend.sign.operator first addend.operand addend.position) table =
          .ok outcome next := by
        rw [evaluate, Play.bind_eq hfirst, Play.bind_eq hright, hoperate]
        rfl
      obtain ⟨hok, herror⟩ := evaluate_sum rest htree hnext
      rw [Play.bind_eq hright]
      refine ⟨fun outcomes after h => ?_, fun fault after h => ?_⟩
      · obtain ⟨others, last, hothers, h⟩ := Play.bind_ok h
        obtain ⟨rfl, rfl⟩ := Play.pure_ok h
        obtain ⟨sum, hsum, hall⟩ := hok others _ hothers
        refine ⟨sum, hsum, ?_⟩
        rw [totalAdded_cons, keptSources_cons, ← Int.add_assoc, ← List.append_assoc]
        exact hall
      · refine herror fault after ?_
        cases hothers : evaluateAll limits (rest.map Addend.operand) next with
        | ok others last => rw [Play.bind_eq hothers] at h; cases h
        | error other last => rw [Play.bind_error hothers] at h; cases h; rfl

/-- **A sum keeps the dice of its first operand.** A sum is read into the tree that nests to the left. If its first
operand has an outcome that takes modifiers, the others are evaluated once each, from left to right, and the sum has
that outcome with their signed total added, a judgement for the value that comes of it, and as further sources the
outcomes of those operands that are no numbers as written; repetitions have all this in each of their rolls. If an
operand fails, the sum fails at the same place. -/
theorem sum_keeps_dice :
    (∀ {k n : Nat} {ts : List Token} {e : Expr}, Grammar.Derives (.additive k) ts e n →
      ∃ first addends, Grammar.Summands ts first addends ∧ addends.length = k ∧ e = Expr.sum first addends) ∧
    ∀ {σ : Type} [RandomSource σ] (limits : Limits) (first : Expr) (addends : List Addend) (table middle : Table σ)
      (base : Outcome), evaluate limits first table = .ok base middle → base.acceptsModifier = true →
      (∀ outcomes after, evaluateAll limits (addends.map Addend.operand) middle = .ok outcomes after →
        ∃ outcome, evaluate limits (Expr.sum first addends) table = .ok outcome after ∧
          Raised (totalAdded addends outcomes) (keptSources addends outcomes) base outcome) ∧
      ∀ fault after, evaluateAll limits (addends.map Addend.operand) middle = .error fault after →
        evaluate limits (Expr.sum first addends) table = .error fault after := by
  refine ⟨Grammar.Derives.summands, fun limits first addends table middle base hfirst haccepts => ?_⟩
  have hsteady : Raised 0 [] base base := Steady.evaluate hfirst haccepts
  have hrun := evaluate_sum addends hfirst hsteady
  simpa only [Int.zero_add, List.nil_append] using hrun

/-- Two trait rolls less a die and with a number added to each of them. -/
theorem sum_keeps_dice_volley : ∃ (base die outcome : Outcome) (middle after : Table Scripted),
    evaluate ⟨100, 1000, 100, 100⟩ (.roll (.savage ⟨some 2, 8, none, some ⟨some 6, none⟩⟩) 0)
      (Table.new ⟨[some 8, some 3, some 5, some 4, some 2, some 3], 7⟩) = .ok base middle ∧
    evaluateAll ⟨100, 1000, 100, 100⟩ [.roll (.generic ⟨some 1, .sides 4, false, .total none none⟩) 6, .literal 7 10]
      middle = .ok [die, .simple 7 "" none []] after ∧
    evaluate ⟨100, 1000, 100, 100⟩
      (.binary .add
        (.binary .subtract (.roll (.savage ⟨some 2, 8, none, some ⟨some 6, none⟩⟩) 0)
          (.roll (.generic ⟨some 1, .sides 4, false, .total none none⟩) 6) 5)
        (.literal 7 10) 9)
      (Table.new ⟨[some 8, some 3, some 5, some 4, some 2, some 3], 7⟩) = .ok outcome after ∧
    base.value = 15 ∧ die.value = 3 ∧ outcome.value = 23 ∧ Raised 4 [die] base outcome := by
  let limits : Limits := ⟨100, 1000, 100, 100⟩
  let first : Expr := .roll (.savage ⟨some 2, 8, none, some ⟨some 6, none⟩⟩) 0
  let addends : List Addend :=
    [⟨.minus, .roll (.generic ⟨some 1, .sides 4, false, .total none none⟩) 6, 5⟩, ⟨.plus, .literal 7 10, 9⟩]
  let table : Table Scripted := Table.new ⟨[some 8, some 3, some 5, some 4, some 2, some 3], 7⟩
  let operands : Play Scripted (Outcome × Outcome) := do
    let base ← evaluate limits first
    let die ← evaluate limits (.roll (.generic ⟨some 1, .sides 4, false, .total none none⟩) 6)
    pure (base, die)
  have hoperands : Play.endsWith operands table (fun found => found.1.acceptsModifier && found.1.value == 15 &&
      found.2.value == 3) = true := by decide +kernel
  have hvalue : Play.endsWith (evaluate limits (Expr.sum first addends)) table (fun found => found.value == 23) = true := by
    decide +kernel
  obtain ⟨⟨base, die⟩, after, hplay, htest⟩ := Play.ok_of_endsWith _ hoperands
  obtain ⟨base', middle, hbase, hplay⟩ := Play.bind_ok hplay
  obtain ⟨die', last, hdie, hplay⟩ := Play.bind_ok hplay
  obtain ⟨heq, rfl⟩ := Play.pure_ok hplay
  cases heq
  simp only [Bool.and_eq_true, beq_iff_eq] at htest
  obtain ⟨⟨haccepts, hfifteen⟩, hthree⟩ := htest
  have hothers : evaluateAll limits (addends.map Addend.operand) middle = .ok [die, .simple 7 "" none []] after := by
    change evaluateAll limits [.roll _ 6, .literal 7 10] middle = _
    rw [evaluateAll, Play.bind_eq hdie]
    rfl
  obtain ⟨outcome, hsum, hraised⟩ :=
    (sum_keeps_dice.2 limits first addends table middle base hbase haccepts).1 _ _ hothers
  have htotal : totalAdded addends [die, .simple 7 "" none []] = 4 := by
    change -die.value + (7 + 0) = 4
    rw [hthree]
    rfl
  rw [htotal] at hraised
  refine ⟨base, die, outcome, middle, after, hbase, hothers, hsum, hfifteen, hthree, ?_, hraised⟩
  unfold Play.endsWith at hvalue
  rw [hsum] at hvalue
  simpa using hvalue

end Evaluation

end TabletopDice
