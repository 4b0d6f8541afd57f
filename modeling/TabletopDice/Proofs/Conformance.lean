import TabletopDice.Proofs.Description
import TabletopDice.Proofs.Formation
import TabletopDice.Schema.Result
/-!
# Conformance — every outcome as data has the form of a result

The form of a result looks at the names of members only, and says the same of a name in every kind of outcome. An
outcome as data has that form if the outcomes that it holds have it and if its throw was judged with no fewer than zero
raises (`conforms_thrown` and its siblings). Judging never gives fewer, and adding a modifier judges again, so all
outcomes of a command have the form. Those that can be described are data, and the others are none
(`outcome_conforms`): a variable may have a value too long for a description (`long_variable_no_data`).
-/
namespace TabletopDice

open Outcome Evaluation Schema

/-! ## Dice and judgements -/

@[simp] theorem Json.isInteger_int (n : Int) : (Json.int n).isInteger = true := rfl

theorem isIntegers_list {values : List Int} (h : 1 ≤ values.length) :
    isIntegers 1 none (Json.list Json.int values) = true := by
  have hall : (values.map Json.int).all Json.isInteger = true := by simp
  have hlength : decide (1 ≤ (values.map Json.int).length) = true := by simpa using h
  simp only [isIntegers, Json.list, hall, hlength, Option.all_none, Bool.and_self]

theorem isDie_object {value total : Int} {exploded : Bool} {rolls chain : Json} (hrolls : isIntegers 1 none rolls = true)
    (hchain : (chain.isNull || isDie chain) = true) :
    isDie (.object [("value", .int value), ("exploded", .bool exploded), ("total", .int total), ("rolls", rolls),
      ("chain", chain)]) = true := by
  simp only [Bool.or_eq_true] at hchain
  simp [isDie, hasAll, areDieMembers, hrolls, hchain, Json.isBool]

/-- **A die as data is in form**, from each of its rolls on. -/
theorem isDie_linksToJson : ∀ (first : Link) (followers : List Link), isDie (Die.linksToJson first followers) = true
  | first, [] => by
    rw [Die.linksToJson]
    exact isDie_object (isIntegers_list (by simp)) rfl
  | first, next :: rest => by
    rw [Die.linksToJson]
    refine isDie_object (isIntegers_list (by simp)) ?_
    rw [isDie_linksToJson next rest, Bool.or_true]

@[simp] theorem isDie_toJson (die : Die) : isDie die.toJson = true := isDie_linksToJson _ _

@[simp] theorem isDice_list (dice : List Die) : isDice (Json.list Die.toJson dice) = true := by
  simp [isDice, Json.list]

@[simp] theorem isDice_integers (values : List Int) : isDice (Json.list Json.int values) = true := by
  simp [isDice, Json.list]

theorem isJudgement_toJson (judgement : Judgement) : isJudgement judgement.toJson = decide (0 ≤ judgement.raises) := by
  have hraises : (Json.int judgement.raises).integer?.any (fun n => 0 ≤ n) = decide (0 ≤ judgement.raises) := rfl
  simp [isJudgement, Judgement.toJson, hasAll, isJudgementMember, hraises, Json.isBool]

theorem Judgement.judge_raises {total target interval : Int} {judgement : Judgement}
    (h : judge total target interval = .ok judgement) : 0 ≤ judgement.raises := by
  unfold judge at h
  split at h
  · cases h
  · rename_i hinterval
    simp only at h
    split at h
    · rename_i hmargin
      cases h
      exact Int.ediv_nonneg hmargin (by omega)
    · cases h
      exact Int.le_refl 0

/-- The judgement of a throw, if it has one. -/
def Throw.judgement? : Throw → Option Judgement
  | generic throw => throw.judgement
  | wild throw => some throw.judgement
  | _ => none

/-- **A throw that does not count fewer raises than none.** -/
def Throw.Countable (throw : Throw) : Prop := ∀ judgement ∈ throw.judgement?, 0 ≤ judgement.raises

theorem Throw.Countable.rejudge {value : Int} {throw judged : Throw} (hthrow : throw.Countable)
    (h : throw.rejudge value = .ok judged) : judged.Countable := by
  rcases Throw.rejudge_ok h with rfl | ⟨_, _, _, _, rfl, hjudge, rfl⟩ | ⟨_, _, rfl, hjudge, rfl⟩
  · exact hthrow
  · rintro _ ⟨⟩
    exact Judgement.judge_raises hjudge
  · rintro _ ⟨⟩
    exact Judgement.judge_raises hjudge

theorem Rolled.countable {throw : Throw} (h : Rolled throw) : throw.Countable := by
  cases h with
  | wild hjudge =>
    rintro _ ⟨⟩
    exact Judgement.judge_raises hjudge
  | counted | plain | weg =>
    intro judgement hj
    cases hj
  | @summed spelling sides acing dice keep target _ h =>
    obtain ⟨_, _, _, _, _, -, hjudged, rfl⟩ := summedThrow_ok h
    rcases judged_ok hjudged with ⟨rfl, rfl, rfl⟩ | ⟨_, _, _, rfl, rfl, rfl, hjudge⟩
    · intro judgement hj
      cases hj
    · rintro _ ⟨⟩
      exact Judgement.judge_raises hjudge

/-! ## Outcomes -/

/-- **An outcome that is a result as data.** -/
def Outcome.Conforms (outcome : Outcome) : Prop := isResult outcome.data = true

theorem areResults_dataAll : ∀ {outcomes : List Outcome}, areResults (dataAll outcomes) = true ↔
    ∀ outcome ∈ outcomes, outcome.Conforms
  | [] => by simp [dataAll, areResults]
  | outcome :: outcomes => by
    rw [dataAll, areResults, Bool.and_eq_true, areResults_dataAll, List.forall_mem_cons]
    rfl

theorem isNull_or_isJudgement (judgement : Option Judgement) :
    ((Json.orNull Judgement.toJson judgement).isNull = true ∨
      isJudgement (Json.orNull Judgement.toJson judgement) = true) ↔ ∀ j ∈ judgement, 0 ≤ j.raises := by
  cases judgement with
  | none => simp [Json.orNull, Json.isNull]
  | some judgement =>
    have hobject : judgement.toJson.isNull = false := rfl
    simp [Json.orNull, hobject, isJudgement_toJson]

theorem isOneOf_keepText (keep : Option KeepRule) :
    (Json.text (keepText keep)).isOneOf ["none", "highest", "lowest", "advantage", "disadvantage"] = true := by
  rcases keep with _ | ⟨⟨⟩⟩ <;> rfl

theorem isOneOf_usedDie (used : UsedDie) : (Json.text used.text).isOneOf ["trait", "wild"] = true := by
  cases used <;> rfl

theorem isOneOf_achievement (achievement : Achievement) :
    (Json.text achievement.text).isOneOf ["strong_hit", "weak_hit", "miss"] = true := by
  cases achievement <;> rfl

theorem isOneOf_throwKind (throw : Throw) : (Json.text (throwKind throw)).isOneOf kinds = true := by
  cases throw <;> rfl

section

-- The members of an outcome are known by name, so its form comes down to that of its judgement and of what it holds.
attribute [local simp] hasAll areResultMembers resultLists isPlainMember isResultList Json.isText areResults_dataAll

theorem conforms_thrown (value modifier : Int) (throw : Throw) (sources : List Outcome) :
    (thrown value throw modifier sources).Conforms ↔ throw.Countable ∧ ∀ source ∈ sources, source.Conforms := by
  have hkind := isOneOf_throwKind throw
  change isResult (data _) = true ↔ _
  rw [data, wordedAround, dataAround, isResult]
  cases throw with
  | generic throw =>
    have hjudgement := isNull_or_isJudgement throw.judgement
    have hkeep := isOneOf_keepText throw.keep
    simp [throwMembers, hkind, hkeep, hjudgement, Throw.Countable, Throw.judgement?]
  | wild throw =>
    have hjudgement := isNull_or_isJudgement (some throw.judgement)
    have hused := isOneOf_usedDie throw.used
    rw [Json.orNull] at hjudgement
    simp [throwMembers, hkind, hused, hjudgement, Throw.Countable, Throw.judgement?]
  | count throw | weg throw => simp [throwMembers, hkind, Throw.Countable, Throw.judgement?]
  | action throw =>
    have hachievement := isOneOf_achievement (Achievement.ofHits (throw.hits value))
    simp [throwMembers, hkind, hachievement, isIntegers, Throw.Countable, Throw.judgement?]

theorem conforms_multiple (value : Int) (rolls : List Outcome) :
    (multiple value rolls).Conforms ↔ ∀ roll ∈ rolls, roll.Conforms := by
  have hkind : (Json.text "multiple").isOneOf kinds = true := rfl
  simp [Outcome.Conforms, data, wordedAround, dataAround, isResult, hkind]

theorem conforms_simple (value : Int) (label : String) (operator : Option String) (operands : List Outcome) :
    (simple value label operator operands).Conforms ↔ ∀ operand ∈ operands, operand.Conforms := by
  have hkind : (Json.text "simple").isOneOf kinds = true := rfl
  simp [Outcome.Conforms, data, wordedAround, dataAround, isResult, hkind]

theorem conforms_bounded (value : Int) (inner : Outcome) (minimum maximum : Option Int) :
    (bounded value inner minimum maximum).Conforms ↔ inner.Conforms := by
  have hkind : (Json.text "bounded").isOneOf kinds = true := rfl
  simp [Outcome.Conforms, data, wordedAround, dataAround, isResult, hkind]

theorem conforms_flag (value : Int) (name : String) : (flag value name).Conforms := by
  have hkind : (Json.text "flag").isOneOf kinds = true := rfl
  simp [Outcome.Conforms, data, wordedAround, dataAround, isResult, hkind]

theorem conforms_sequence (value : Int) (results : List Outcome) :
    (sequence value results).Conforms ↔ ∀ result ∈ results, result.Conforms := by
  have hkind : (Json.text "sequence").isOneOf kinds = true := rfl
  simp [Outcome.Conforms, data, wordedAround, dataAround, isResult, hkind]

end

/-! ## Commands -/

theorem Outcome.Conforms.plus {outcome sum : Outcome} (h : outcome.Conforms) {delta : Int}
    (hsum : outcome.plus delta = .ok sum) : sum.Conforms := by
  obtain ⟨label, -, rfl⟩ := plus_ok hsum
  have hsize : (simple (delta.natAbs : Int) "" none []).Conforms := (conforms_simple _ _ _ _).2 (by simp)
  refine (conforms_simple _ _ _ _).2 (List.forall_mem_cons.2 ⟨h, List.forall_mem_cons.2 ⟨hsize, ?_⟩⟩)
  exact List.forall_mem_nil _

/-- **Adding to an outcome keeps it in form**: a throw is judged again, and the source is one more outcome held. -/
theorem Outcome.Conforms.added {delta : Int} {source : Option Outcome} (hsource : ∀ o ∈ source, o.Conforms) :
    ∀ {outcome added : Outcome}, outcome.Conforms → addTo delta source outcome = .ok added → added.Conforms
  | thrown value throw modifier sources, added, h, hadd => by
    obtain ⟨judged, hjudged, rfl⟩ := addTo_thrown_ok hadd
    obtain ⟨hthrow, hsources⟩ := (conforms_thrown _ _ _ _).1 h
    refine (conforms_thrown _ _ _ _).2 ⟨hthrow.rejudge hjudged, fun o ho => ?_⟩
    rcases List.mem_append.1 ho with ho | ho
    · exact hsources o ho
    · exact hsource o (Option.mem_toList.1 ho)
  | multiple value rolls, added, h, hadd => by
    rw [addTo] at hadd
    cases hall : addToAll delta source rolls with
    | error fault => rw [hall] at hadd; cases hadd
    | ok all =>
      rw [hall] at hadd
      cases hadd
      refine (conforms_multiple _ _).2 fun after ha => ?_
      obtain ⟨roll, hr, hroll⟩ := addToAll_ok hall after ha
      have hlt : sizeOf roll < sizeOf (multiple value rolls) := sizeOf_held hr
      exact Conforms.added hsource ((conforms_multiple _ _).1 h roll hr) hroll
  | bare _, added, h, hadd | simple .., added, h, hadd | bounded .., added, h, hadd | flag .., added, h, hadd
  | sequence .., added, h, hadd => by
    rw [addTo] at hadd
    · exact h.plus hadd
    all_goals simp
  termination_by outcome => sizeOf outcome

theorem Outcome.Conforms.kept :
    KeptByExpressions (fun _ => True) (fun _ _ _ => True) Outcome.Conforms where
  number _ := (conforms_simple _ _ _ _).2 (by simp)
  var _ _ := (conforms_simple _ _ _ _).2 (by simp)
  span _ _ _ := (conforms_simple _ _ _ _).2 (by simp)
  fresh hrolled := (conforms_thrown _ _ _ _).2 ⟨hrolled.countable, by simp⟩
  volley hrolled := (conforms_multiple _ _).2 fun roll hr => by
    obtain ⟨throw, ht, rfl⟩ := List.mem_map.1 hr
    exact (conforms_thrown _ _ _ _).2 ⟨(hrolled throw ht).countable, by simp⟩
  negated ho hn := by
    obtain ⟨label, rfl⟩ := negated_ok hn
    exact (conforms_simple _ _ _ _).2 (by simpa using ho)
  combined hl hr hc := by
    obtain ⟨value, label, -, rfl⟩ := combined_ok hc
    exact (conforms_simple _ _ _ _).2 (by simp [hl, hr])
  modified := by
    intro delta source left outcome hl hs hm
    unfold addModifier at hm
    split at hm
    · exact hl.added hs hm
    · cases hm
  restricted hi hr := by
    rw [restrict_ok hr]
    exact (conforms_bounded _ _ _ _).2 hi

theorem Outcome.Conforms.keptByStatements : KeptByStatements Outcome.Conforms Outcome.Conforms where
  expression h := h
  repeated hrolls := (conforms_multiple _ _).2 hrolls
  ironsworn throw modifier := (conforms_thrown _ _ _ _).2 ⟨fun _ hj => (by cases hj), by simp⟩
  flag name := conforms_flag 0 name

/-- The outcome of a command has the form of a result, whether or not it can be described. -/
theorem Evaluation.evaluateCommand_conforms {σ : Type} [RandomSource σ] {limits : Limits} {command : Command}
    {table after : Table σ} {outcome : Outcome} (h : evaluateCommand limits command table = .ok outcome after) :
    outcome.Conforms :=
  evaluateCommand_kept Conforms.kept Conforms.keptByStatements (fun _ _ _ _ _ _ _ => trivial)
    (inSequence_kept fun hall => (conforms_sequence _ _).2 hall) (fun _ _ _ _ => trivial) h

/-- **An outcome of a command is a result as data just if it can be described**, whatever the limits, the variables and
the source. As data it is never anything else, and if it is no data, a number in a description is too long. -/
theorem Evaluation.outcome_conforms {σ : Type} [RandomSource σ] (limits : Limits) (command : Command)
    (table after : Table σ) (outcome : Outcome) (h : evaluateCommand limits command table = .ok outcome after) :
    ((∃ json, outcome.toJson = .ok json ∧ isResult json = true) ↔ outcome.Describable) ∧
      (∀ json, outcome.toJson = .ok json → isResult json = true) ∧
      ∀ fault, outcome.toJson = .error fault → fault = .unwritable := by
  have hconforms : isResult outcome.data = true := evaluateCommand_conforms h
  refine ⟨⟨fun ⟨json, hjson, _⟩ => (toJson_ok.1 hjson).1, fun hd => ⟨_, toJson_ok.2 ⟨hd, rfl⟩, hconforms⟩⟩,
    fun json hjson => ?_, fun fault hfault => (toJson_error.1 hfault).2⟩
  rw [(toJson_ok.1 hjson).2]
  exact hconforms

/-- Judged trait rolls with a roll added, a bounded batch, an action roll with a modifier, and a flag. -/
theorem Evaluation.outcome_conforms_statements : ∃ (outcome : Outcome) (after : Table Scripted),
    evaluateCommand ⟨100, 1000, 100, 100⟩
      ⟨.once (.binary .subtract (.roll (.savage ⟨some 2, 8, none, some ⟨some 6, none⟩⟩) 0)
        (.roll (.generic ⟨some 4, .sides 6, true, .total none (some ⟨some 9, none⟩)⟩) 7) 6) 0,
        [.batch 2 [.signed .minus (.var "x" 20) 19, .between (.roll (.weg 5) 23) (.literal 1 26) (.literal 9 28) 25] 15,
          .ironsworn (some (.plus, .literal 3 37)) 32, .flag "done" 39]⟩
      (Table.new ⟨[some 8, some 1, some 8], 7⟩) = .ok outcome after ∧
    ∃ json, outcome.toJson = .ok json ∧ isResult json = true := by
  refine Play.exists_of_endsWith (fun outcome => outcome.toJson.isOk) (by decide +kernel) fun outcome after hrun hjson => ?_
  cases hdata : outcome.toJson with
  | error fault => rw [hdata] at hjson; cases hjson
  | ok json => exact ⟨json, rfl, (outcome_conforms _ _ _ after outcome hrun).2.1 json hdata⟩

/-- A variable has a value with too many digits: the command that names it ends in an outcome, which is no data. -/
theorem Evaluation.long_variable_no_data : ∃ (outcome : Outcome) (after : Table Scripted),
    evaluateCommand ⟨100, 1000, 100, 100⟩ ⟨.once (.var "x" 0) 0, []⟩
      { Table.new ⟨[], 0⟩ with memory := ⟨[("x", (Text.writtenBelow : Int))]⟩ } = .ok outcome after ∧
    ¬ ∃ json, outcome.toJson = .ok json ∧ isResult json = true := by
  refine ⟨.simple Text.writtenBelow "@x" none [], _, rfl, ?_⟩
  rintro ⟨json, hjson, -⟩
  have hwritable := (toJson_ok.1 hjson).1 _ (self_mem_parts _)
  simp [wording, Piece.writable_number] at hwritable

end TabletopDice
