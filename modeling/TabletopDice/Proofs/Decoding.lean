import TabletopDice.Proofs.Data
import TabletopDice.Proofs.Description
/-!
# Decoding — an outcome is known from its data

The kind of an outcome says which members its data has, so the outcome can be read back member by member: first what
it holds, then its own parts around that. What the data adds is not read, as it follows from the rest. The label of a
simple outcome stands before its value in the description and is cut off there. Every outcome is read back from
whatever equals its data, consistent or not and described or not, so two outcomes with equal data are the same
(`toJson_lossless`).
-/
namespace TabletopDice

open Json

/-! ## Dice and judgements -/

/-- **A die read from its data**: its first roll, and the die in the chain behind it if there is one. -/
def Die.ofJson? (json : Json) : Option Die :=
  match _h : json.member? "chain" with
  | none => none
  | some chain => do
    let rest ← nullable? (fun _ => ofJson? chain) chain
    let value ← json.field? "value" int?
    let exploded ← json.field? "exploded" bool?
    some ⟨⟨value, exploded⟩, (rest.map links).getD []⟩
  termination_by sizeOf json
  decreasing_by exact Nat.lt_trans (by omega) (sizeOf_member? _h)

/-- A judgement read from its data. -/
def Judgement.ofJson? (json : Json) : Option Judgement := do
  let success ← json.field? "success" bool?
  let raises ← json.field? "raises" int?
  let margin ← json.field? "margin" int?
  some { success, raises, margin }

/-- Which die counts, read from its word. -/
def UsedDie.ofJson? : Json → Option UsedDie
  | .text "trait" => some .trait
  | .text "wild" => some .wild
  | _ => none

/-- A keep rule or none, read from its word. -/
def keepOfJson? : Json → Option (Option KeepRule)
  | .text "none" => some none
  | .text "highest" => some (some .highest)
  | .text "lowest" => some (some .lowest)
  | .text "advantage" => some (some .advantage)
  | .text "disadvantage" => some (some .disadvantage)
  | _ => none

theorem Die.ofJson?_eq (json : Json) : Die.ofJson? json = (do
    let rest ← json.field? "chain" (nullable? Die.ofJson?)
    let value ← json.field? "value" int?
    let exploded ← json.field? "exploded" bool?
    some ⟨⟨value, exploded⟩, (rest.map links).getD []⟩) := by
  rw [Die.ofJson?]
  split
  · rename_i hchain
    simp [field?, hchain]
  · rename_i chain hchain
    have hrest : nullable? (fun _ => Die.ofJson? chain) chain = nullable? Die.ofJson? chain := by cases chain <;> rfl
    simp only [field?, hchain, hrest, Option.bind_some]

theorem Die.ofJson?_null : Die.ofJson? .null = none := by
  rw [Die.ofJson?_eq]
  rfl

/-- The die from the second roll on, if there is one. -/
def Die.next? : List Link → Option Die
  | [] => none
  | second :: rest => some ⟨second, rest⟩

theorem Die.linksToJson_eq (first : Link) (followers : List Link) :
    Die.linksToJson first followers = .object [
      ("value", .int first.value),
      ("exploded", .bool first.exploded),
      ("total", .int (Numbers.total ((first :: followers).map Link.value))),
      ("rolls", Json.list Json.int ((first :: followers).map Link.value)),
      ("chain", orNull Die.toJson (Die.next? followers))] := by
  cases followers <;> rw [Die.linksToJson] <;> rfl

/-- **A die is read from its data**, whatever its links are. -/
theorem Die.reads_linksToJson : ∀ (first : Link) (followers : List Link),
    Reads Die.ofJson? (Die.linksToJson first followers) ⟨first, followers⟩
  | first, followers => by
    have hnext : ∀ die ∈ Die.next? followers, Reads Die.ofJson? die.toJson die := by
      cases followers with
      | nil => exact fun _ h => by cases h
      | cons second rest => exact fun _ h => by cases h; exact Die.reads_linksToJson second rest
    rw [Die.linksToJson_eq]
    intro json h
    have hvalue : json.field? "value" int? = some first.value := reads_field (by simp) (reads_int _) json h
    have hexploded : json.field? "exploded" bool? = some first.exploded := reads_field (by simp) (reads_bool _) json h
    have hchain : json.field? "chain" (nullable? Die.ofJson?) = some (Die.next? followers) :=
      reads_field (by simp) (reads_nullable Die.ofJson?_null hnext) json h
    rw [Die.ofJson?_eq, hchain, hvalue, hexploded]
    cases followers <;> rfl

theorem Die.reads_toJson (die : Die) : Reads Die.ofJson? die.toJson die := Die.reads_linksToJson die.first die.followers

theorem Judgement.reads_toJson (judgement : Judgement) : Reads Judgement.ofJson? judgement.toJson judgement := by
  intro json h
  have hsuccess : json.field? "success" bool? = some judgement.success := reads_field (by simp) (reads_bool _) json h
  have hraises : json.field? "raises" int? = some judgement.raises := reads_field (by simp) (reads_int _) json h
  have hmargin : json.field? "margin" int? = some judgement.margin := reads_field (by simp) (reads_int _) json h
  rw [Judgement.ofJson?, hsuccess, hraises, hmargin]
  rfl

theorem reads_usedDie (used : UsedDie) : Reads UsedDie.ofJson? (.text used.text) used := by
  intro json h
  cases json with
  | text word =>
    rw [equal, beq_iff_eq] at h
    subst h
    cases used <;> rfl
  | _ => simp [equal] at h

theorem reads_keepText (keep : Option KeepRule) : Reads keepOfJson? (.text (keepText keep)) keep := by
  intro json h
  cases json with
  | text word =>
    rw [equal, beq_iff_eq] at h
    subst h
    rcases keep with _ | ⟨⟨⟩⟩ <;> rfl
  | _ => simp [equal] at h

/-! ## Throws -/

theorem reads_dice (dice : List Die) : Reads (listOf? Die.ofJson?) (Json.list Die.toJson dice) dice :=
  reads_list fun die _ => die.reads_toJson

theorem reads_number (n : Option Int) : Reads (nullable? int?) (orNull Json.int n) n :=
  reads_nullable rfl fun n _ => reads_int n

theorem reads_judgement (judgement : Option Judgement) :
    Reads (nullable? Judgement.ofJson?) (orNull Judgement.toJson judgement) judgement :=
  reads_nullable rfl fun judgement _ => judgement.reads_toJson

open Outcome

section

variable (kind : Json) (value modifier : Int) (sources : Json) (description : String)

/-- The data of an outcome that is a throw. -/
def throwData (throw : Throw) : Json :=
  .object (("kind", kind) :: throwMembers value modifier sources description throw)

/-- A throw of dice of one size, read from its data. -/
def GenericThrow.ofJson? (json : Json) : Option GenericThrow := do
  let spelling ← json.field? "notation" text?
  let sides ← json.field? "sides" int?
  let acing ← json.field? "acing" bool?
  let dice ← json.field? "dice" (listOf? Die.ofJson?)
  let kept ← json.field? "kept_dice" (listOf? Die.ofJson?)
  let dropped ← json.field? "dropped_dice" (listOf? Die.ofJson?)
  let keep ← json.field? "keep_operation" keepOfJson?
  let target ← json.field? "target_number" (nullable? int?)
  let interval ← json.field? "raise_interval" (nullable? int?)
  let judgement ← json.field? "raises" (nullable? Judgement.ofJson?)
  some { spelling, sides, acing, dice, kept, dropped, keep, target, interval, judgement }

theorem GenericThrow.reads_data (throw : GenericThrow) :
    Reads GenericThrow.ofJson? (throwData kind value modifier sources description (.generic throw)) throw := by
  intro json h
  have hspelling : json.field? "notation" text? = some throw.spelling :=
    reads_field (by simp [throwMembers]) (reads_text _) json h
  have hsides : json.field? "sides" int? = some throw.sides :=
    reads_field (by simp [throwMembers]) (reads_int _) json h
  have hacing : json.field? "acing" bool? = some throw.acing :=
    reads_field (by simp [throwMembers]) (reads_bool _) json h
  have hdice : json.field? "dice" (listOf? Die.ofJson?) = some throw.dice :=
    reads_field (by simp [throwMembers]) (reads_dice _) json h
  have hkept : json.field? "kept_dice" (listOf? Die.ofJson?) = some throw.kept :=
    reads_field (by simp [throwMembers]) (reads_dice _) json h
  have hdropped : json.field? "dropped_dice" (listOf? Die.ofJson?) = some throw.dropped :=
    reads_field (by simp [throwMembers]) (reads_dice _) json h
  have hkeep : json.field? "keep_operation" keepOfJson? = some throw.keep :=
    reads_field (by simp [throwMembers]) (reads_keepText _) json h
  have htarget : json.field? "target_number" (nullable? int?) = some throw.target :=
    reads_field (by simp [throwMembers]) (reads_number _) json h
  have hinterval : json.field? "raise_interval" (nullable? int?) = some throw.interval :=
    reads_field (by simp [throwMembers]) (reads_number _) json h
  have hjudgement : json.field? "raises" (nullable? Judgement.ofJson?) = some throw.judgement :=
    reads_field (by simp [throwMembers]) (reads_judgement _) json h
  simp [GenericThrow.ofJson?, hspelling, hsides, hacing, hdice, hkept, hdropped, hkeep, htarget, hinterval, hjudgement]

/-- A trait die and a wild die, read from their data. -/
def WildThrow.ofJson? (json : Json) : Option WildThrow := do
  let spelling ← json.field? "notation" text?
  let trait ← json.field? "trait_die" Die.ofJson?
  let wild ← json.field? "wild_die" Die.ofJson?
  let used ← json.field? "used_die" UsedDie.ofJson?
  let judgement ← json.field? "raises" Judgement.ofJson?
  let target ← json.field? "target_number" int?
  let interval ← json.field? "raise_interval" int?
  some { spelling, trait, wild, used, judgement, target, interval }

theorem WildThrow.reads_data (throw : WildThrow) :
    Reads WildThrow.ofJson? (throwData kind value modifier sources description (.wild throw)) throw := by
  intro json h
  have hspelling : json.field? "notation" text? = some throw.spelling :=
    reads_field (by simp [throwMembers]) (reads_text _) json h
  have htrait : json.field? "trait_die" Die.ofJson? = some throw.trait :=
    reads_field (by simp [throwMembers]) throw.trait.reads_toJson json h
  have hwild : json.field? "wild_die" Die.ofJson? = some throw.wild :=
    reads_field (by simp [throwMembers]) throw.wild.reads_toJson json h
  have hused : json.field? "used_die" UsedDie.ofJson? = some throw.used :=
    reads_field (by simp [throwMembers]) (reads_usedDie _) json h
  have hjudgement : json.field? "raises" Judgement.ofJson? = some throw.judgement :=
    reads_field (by simp [throwMembers]) throw.judgement.reads_toJson json h
  have htarget : json.field? "target_number" int? = some throw.target :=
    reads_field (by simp [throwMembers]) (reads_int _) json h
  have hinterval : json.field? "raise_interval" int? = some throw.interval :=
    reads_field (by simp [throwMembers]) (reads_int _) json h
  simp [WildThrow.ofJson?, hspelling, htrait, hwild, hused, hjudgement, htarget, hinterval]

/-- Counted dice, read from their data. -/
def CountThrow.ofJson? (json : Json) : Option CountThrow := do
  let spelling ← json.field? "notation" text?
  let dice ← json.field? "dice" (listOf? Die.ofJson?)
  let threshold ← json.field? "success_target" int?
  let failures ← json.field? "failures" int?
  let failure ← json.field? "fail_target" (nullable? int?)
  some { spelling, dice, threshold, failures, failure }

theorem CountThrow.reads_data (throw : CountThrow) :
    Reads CountThrow.ofJson? (throwData kind value modifier sources description (.count throw)) throw := by
  intro json h
  have hspelling : json.field? "notation" text? = some throw.spelling :=
    reads_field (by simp [throwMembers]) (reads_text _) json h
  have hdice : json.field? "dice" (listOf? Die.ofJson?) = some throw.dice :=
    reads_field (by simp [throwMembers]) (reads_dice _) json h
  have hthreshold : json.field? "success_target" int? = some throw.threshold :=
    reads_field (by simp [throwMembers]) (reads_int _) json h
  have hfailures : json.field? "failures" int? = some throw.failures :=
    reads_field (by simp [throwMembers]) (reads_int _) json h
  have hfailure : json.field? "fail_target" (nullable? int?) = some throw.failure :=
    reads_field (by simp [throwMembers]) (reads_number _) json h
  simp [CountThrow.ofJson?, hspelling, hdice, hthreshold, hfailures, hfailure]

/-- Plain dice and a wild die, read from their data. -/
def WegThrow.ofJson? (json : Json) : Option WegThrow := do
  let dice ← json.field? "dice" (listOf? int?)
  let wild ← json.field? "wild_die" Die.ofJson?
  some { dice, wild }

theorem WegThrow.reads_data (throw : WegThrow) :
    Reads WegThrow.ofJson? (throwData kind value modifier sources description (.weg throw)) throw := by
  intro json h
  have hdice : json.field? "dice" (listOf? int?) = some throw.dice :=
    reads_field (by simp [throwMembers]) (reads_list fun n _ => reads_int n) json h
  have hwild : json.field? "wild_die" Die.ofJson? = some throw.wild :=
    reads_field (by simp [throwMembers]) throw.wild.reads_toJson json h
  simp [WegThrow.ofJson?, hdice, hwild]

/-- An action die and its two challenge dice, read from their data. -/
def ActionThrow.ofJson? (json : Json) : Option ActionThrow := do
  let action ← json.field? "action_die" int?
  let challenge ← json.field? "challenge_dice" (listOf? int?)
  match challenge with
  | [firstChallenge, secondChallenge] => some { action, firstChallenge, secondChallenge }
  | _ => none

theorem ActionThrow.reads_data (throw : ActionThrow) :
    Reads ActionThrow.ofJson? (throwData kind value modifier sources description (.action throw)) throw := by
  intro json h
  have haction : json.field? "action_die" int? = some throw.action :=
    reads_field (by simp [throwMembers]) (reads_int _) json h
  have hpair : Reads (listOf? int?) (.array [.int throw.firstChallenge, .int throw.secondChallenge])
      [throw.firstChallenge, throw.secondChallenge] := by
    rw [← List.map_nil, ← List.map_cons, ← List.map_cons]
    exact reads_list fun n _ => reads_int n
  have hchallenge : json.field? "challenge_dice" (listOf? int?) = some [throw.firstChallenge, throw.secondChallenge] :=
    reads_field (by simp [throwMembers]) hpair json h
  simp [ActionThrow.ofJson?, haction, hchallenge]

/-- **A throw of a kind, read from its data.** -/
def Throw.ofJson? (kind : String) (json : Json) : Option Throw :=
  match kind with
  | "generic" => (GenericThrow.ofJson? json).map .generic
  | "savage_wild" => (WildThrow.ofJson? json).map .wild
  | "success_fail" => (CountThrow.ofJson? json).map .count
  | "weg_d6" => (WegThrow.ofJson? json).map .weg
  | "ironsworn" => (ActionThrow.ofJson? json).map .action
  | _ => none

/-- **A throw is read from the members of its outcome.** -/
theorem Throw.reads_data (throw : Throw) :
    Reads (Throw.ofJson? (throwKind throw)) (throwData kind value modifier sources description throw) throw := by
  intro json h
  cases throw with
  | generic throw => simp [Throw.ofJson?, throwKind, throw.reads_data kind value modifier sources description json h]
  | wild throw => simp [Throw.ofJson?, throwKind, throw.reads_data kind value modifier sources description json h]
  | count throw => simp [Throw.ofJson?, throwKind, throw.reads_data kind value modifier sources description json h]
  | weg throw => simp [Throw.ofJson?, throwKind, throw.reads_data kind value modifier sources description json h]
  | action throw => simp [Throw.ofJson?, throwKind, throw.reads_data kind value modifier sources description json h]

end

/-! ## Labels -/

/-- **The label that stands before a value in a description**; none if the value stands alone. -/
def labelBefore (value : Int) (description : String) : String :=
  if description = toString value then ""
  else String.ofList (description.toList.take (description.length - (" = " ++ toString value).length))

theorem labelBefore_wording (value : Int) (label : String) (operator : Option String) (operands : List Outcome) :
    labelBefore value (simple value label operator operands).wording.text = label := by
  rw [Outcome.wording, labelBefore]
  by_cases hlabel : label = ""
  · simp [hlabel, Wording.text, Piece.text]
  · have htext : Wording.text [label, " = ", value] = label ++ " = " ++ toString value := by
      simp [Wording.text, Piece.text, String.append_assoc]
    have hne : label ++ " = " ++ toString value ≠ toString value := by
      intro heq
      have hlength := congrArg String.length heq
      simp only [String.length_append] at hlength
      have hpositive : label.length ≠ 0 := by simpa using hlabel
      omega
    rw [if_neg hlabel, htext, if_neg hne, String.append_assoc, String.length_append, Nat.add_sub_cancel, String.toList_append,
      ← String.length_toList, List.take_left, String.ofList_toList]

/-! ## Outcomes -/

/-- The data of what an outcome holds, by its kind. -/
def heldJson? (json : Json) : Option (List Json) := do
  let kind ← json.field? "kind" text?
  match kind with
  | "result" | "flag" => some []
  | "multiple" => json.field? "rolls" items?
  | "simple" => json.field? "operands" items?
  | "bounded" => (json.member? "inner").map fun inner => [inner]
  | "sequence" => json.field? "results" items?
  | _ => json.field? "modifier_sources" items?

/-- An outcome put together from its data and from what it holds. -/
def Outcome.ofHeld? (json : Json) (held : List Outcome) : Option Outcome := do
  let kind ← json.field? "kind" text?
  let value ← json.field? "value" int?
  match kind with
  | "result" => some (.bare value)
  | "multiple" => some (.multiple value held)
  | "simple" => do
    let description ← json.field? "description" text?
    let operator ← json.field? "operator" (nullable? text?)
    some (.simple value (labelBefore value description) operator held)
  | "bounded" => do
    let inner ← held.head?
    let minimum ← json.field? "minimum" (nullable? int?)
    let maximum ← json.field? "maximum" (nullable? int?)
    some (.bounded value inner minimum maximum)
  | "flag" => do
    let name ← json.field? "flag" text?
    some (.flag value name)
  | "sequence" => some (.sequence value held)
  | kind => do
    let throw ← Throw.ofJson? kind json
    let modifier ← json.field? "modifier" int?
    some (.thrown value throw modifier held)

theorem sizeOf_items? {name : String} {json : Json} {items : List Json} (h : json.field? name items? = some items) :
    ∀ item ∈ items, sizeOf item < sizeOf json := by
  intro item hitem
  obtain ⟨member, hmember, hitems⟩ := Option.bind_eq_some_iff.1 h
  have hmemberSize := sizeOf_member? hmember
  have hitemSize := List.sizeOf_lt_of_mem hitem
  cases member with
  | array found =>
    cases hitems
    rw [array.sizeOf_spec] at hmemberSize
    omega
  | _ => cases hitems

theorem sizeOf_heldJson? {json : Json} {items : List Json} (h : heldJson? json = some items) :
    ∀ item ∈ items, sizeOf item < sizeOf json := by
  obtain ⟨kind, -, h⟩ := Option.bind_eq_some_iff.1 h
  split at h
  · cases h
    simp
  · cases h
    simp
  · exact sizeOf_items? h
  · exact sizeOf_items? h
  · obtain ⟨inner, hinner, rfl⟩ := Option.map_eq_some_iff.1 h
    have hlt := sizeOf_member? hinner
    simp only [List.mem_singleton, forall_eq]
    omega
  · exact sizeOf_items? h
  · exact sizeOf_items? h

/-- **An outcome read from its data.** -/
def Outcome.ofJson? (json : Json) : Option Outcome :=
  match _h : heldJson? json with
  | none => none
  | some items => do
    let held ← items.attach.mapM fun item => ofJson? item.val
    ofHeld? json held
  termination_by sizeOf json
  decreasing_by exact sizeOf_heldJson? _h _ item.property

theorem Outcome.ofJson?_eq (json : Json) : ofJson? json = (do
    let items ← heldJson? json
    let held ← items.mapM ofJson?
    ofHeld? json held) := by
  rw [ofJson?]
  split
  · rename_i hnone
    rw [hnone]
    rfl
  · rename_i items hitems
    have hmap : (items.attach.mapM fun item => ofJson? item.val) = items.mapM ofJson? := by
      rw [List.mapM_subtype fun _ _ => rfl, List.unattach_attach]
    rw [hitems, hmap]
    rfl

section

variable {outcome : Outcome} {json : Json} (h : outcome.data.equal json = true)
include h

theorem kind_of_equal : json.field? "kind" text? = some outcome.kind := by
  cases outcome <;> rw [data, wordedAround, dataAround] at h <;> exact reads_field (by simp [kind]) (reads_text _) json h

theorem value_of_equal : json.field? "value" int? = some outcome.value := by
  cases outcome with
  | thrown value throw modifier sources =>
    rw [data, wordedAround, dataAround] at h
    cases throw <;> exact reads_field (by simp [throwMembers]) (reads_int value) json h
  | _ =>
    rw [data, wordedAround, dataAround] at h
    exact reads_field (by simp [Outcome.value]) (reads_int _) json h

/-- **What an outcome holds is found in its data.** -/
theorem heldJson?_of_equal :
    ∃ items, heldJson? json = some items ∧ equalItems (dataAll outcome.held) items = true := by
  have hkind := kind_of_equal h
  cases outcome with
  | bare | flag => exact ⟨[], by rw [heldJson?, hkind]; rfl, rfl⟩
  | thrown value throw modifier sources =>
    rw [data, wordedAround, dataAround] at h
    obtain ⟨items, hfound, hitems⟩ : ∃ items, json.field? "modifier_sources" items? = some items ∧
        equalItems (dataAll sources) items = true := by
      cases throw <;> exact field?_items (by simp [throwMembers]) h
    exact ⟨items, by rw [heldJson?, hkind]; cases throw <;> exact hfound, hitems⟩
  | multiple value rolls =>
    rw [data, wordedAround, dataAround] at h
    obtain ⟨items, hfound, hitems⟩ : ∃ items, json.field? "rolls" items? = some items ∧
        equalItems (dataAll rolls) items = true := field?_items (by simp) h
    exact ⟨items, by rw [heldJson?, hkind]; exact hfound, hitems⟩
  | simple value label operator operands =>
    rw [data, wordedAround, dataAround] at h
    obtain ⟨items, hfound, hitems⟩ : ∃ items, json.field? "operands" items? = some items ∧
        equalItems (dataAll operands) items = true := field?_items (by simp) h
    exact ⟨items, by rw [heldJson?, hkind]; exact hfound, hitems⟩
  | bounded value inner minimum maximum =>
    rw [data, wordedAround, dataAround] at h
    obtain ⟨members, rfl, hmembers⟩ := eq_object_of_equal h
    have hmem : ("inner", inner.data) ∈ [("kind", .text "bounded"), ("value", .int value), ("inner", inner.data),
        ("minimum", orNull Json.int minimum), ("maximum", orNull Json.int maximum),
        ("description", .text (bounded value inner minimum maximum).wording.text)] := by simp
    obtain ⟨found, hfound, hequal⟩ := lookup?_of_equalMembers hmem hmembers
    refine ⟨[found], ?_, by simpa [held, dataAll, equalItems] using hequal⟩
    rw [heldJson?, hkind]
    simp [kind, member?, hfound]
  | sequence value results =>
    rw [data, wordedAround, dataAround] at h
    obtain ⟨items, hfound, hitems⟩ : ∃ items, json.field? "results" items? = some items ∧
        equalItems (dataAll results) items = true := field?_items (by simp) h
    exact ⟨items, by rw [heldJson?, hkind]; exact hfound, hitems⟩

/-- **An outcome is put together again** from its data and what it holds. -/
theorem ofHeld?_of_equal : ofHeld? json outcome.held = some outcome := by
  have hkind := kind_of_equal h
  have hvalue := value_of_equal h
  cases outcome with
  | bare | multiple | sequence => simp [ofHeld?, hkind, hvalue, kind, held, Outcome.value]
  | thrown value throw modifier sources =>
    rw [data, wordedAround, dataAround] at h
    have hmodifier : json.field? "modifier" int? = some modifier := by
      cases throw <;> exact reads_field (by simp [throwMembers]) (reads_int _) json h
    have hthrow : Throw.ofJson? (throwKind throw) json = some throw := throw.reads_data _ _ _ _ _ json h
    cases throw <;> simp_all [ofHeld?, throwKind, held, kind, Outcome.value]
  | simple value label operator operands =>
    rw [data, wordedAround, dataAround] at h
    have hdescription : json.field? "description" text? = some (simple value label operator operands).wording.text :=
      reads_field (by simp) (reads_text _) json h
    have hoperator : json.field? "operator" (nullable? text?) = some operator :=
      reads_field (by simp) (reads_nullable rfl fun s _ => reads_text s) json h
    simp [ofHeld?, hkind, hvalue, hdescription, hoperator, labelBefore_wording, held, kind, Outcome.value]
  | bounded value inner minimum maximum =>
    rw [data, wordedAround, dataAround] at h
    have hminimum : json.field? "minimum" (nullable? int?) = some minimum := reads_field (by simp) (reads_number _) json h
    have hmaximum : json.field? "maximum" (nullable? int?) = some maximum := reads_field (by simp) (reads_number _) json h
    simp [ofHeld?, hkind, hvalue, hminimum, hmaximum, held, kind, Outcome.value]
  | flag value name =>
    rw [data, wordedAround, dataAround] at h
    have hname : json.field? "flag" text? = some name := reads_field (by simp) (reads_text _) json h
    simp [ofHeld?, hkind, hvalue, hname, kind, Outcome.value]

end

/-- **An outcome is read from whatever equals its data.** -/
theorem Outcome.reads_data (outcome : Outcome) : Reads ofJson? outcome.data outcome := by
  intro json h
  obtain ⟨items, hitems, hequal⟩ := heldJson?_of_equal h
  have hheld : items.mapM ofJson? = some outcome.held := by
    rw [dataAll_eq_map] at hequal
    exact mapM_of_equalItems (fun inside hin =>
      have : sizeOf inside < sizeOf outcome := sizeOf_held hin
      inside.reads_data) hequal
  rw [ofJson?_eq, hitems, Option.bind_eq_bind, Option.bind_some, hheld]
  exact ofHeld?_of_equal h
  termination_by sizeOf outcome

/-! ## No two outcomes have the same data -/

theorem equal_linksToJson_self : ∀ (first : Link) (followers : List Link),
    (Die.linksToJson first followers).equal (Die.linksToJson first followers) = true
  | first, followers => by
    have hnext : ∀ die ∈ Die.next? followers, die.toJson.equal die.toJson = true := by
      cases followers with
      | nil => exact fun _ h => by cases h
      | cons second rest => exact fun _ h => by cases h; exact equal_linksToJson_self second rest
    rw [Die.linksToJson_eq]
    exact equal_object_self (by simp) (by simp [equal_orNull_self hnext])

@[simp] theorem Die.equal_toJson_self (die : Die) : die.toJson.equal die.toJson = true :=
  equal_linksToJson_self die.first die.followers

@[simp] theorem Judgement.equal_toJson_self (judgement : Judgement) :
    judgement.toJson.equal judgement.toJson = true :=
  equal_object_self (by simp) (by simp)

theorem nodup_throwMembers (value modifier : Int) (sources : Json) (description : String) (throw : Throw) :
    (("kind" :: (throwMembers value modifier sources description throw).map Prod.fst)).Nodup := by
  cases throw <;> simp [throwMembers]

theorem equal_throwMembers_self {sources : Json} (hsources : sources.equal sources = true) (value modifier : Int)
    (description : String) (throw : Throw) : ∀ member ∈ throwMembers value modifier sources description throw, member.2.equal member.2 = true := by
  cases throw <;> simp [throwMembers, hsources, equal, equalItems]

/-- **The data of an outcome equals itself**: no name stands twice in an object of it. -/
theorem Outcome.equal_data_self (outcome : Outcome) : outcome.data.equal outcome.data = true := by
  have hheld : (Json.array (dataAll outcome.held)).equal (.array (dataAll outcome.held)) = true := by
    rw [dataAll_eq_map, Json.equal]
    exact equalItems_self (List.forall_mem_map.2 fun inside hin =>
      have : sizeOf inside < sizeOf outcome := sizeOf_held hin
      inside.equal_data_self)
  cases outcome with
  | thrown value throw modifier sources =>
    rw [data, wordedAround, dataAround]
    have hmembers := equal_throwMembers_self hheld value modifier (thrown value throw modifier sources).wording.text throw
    exact equal_object_self (nodup_throwMembers _ _ _ _ _) (List.forall_mem_cons.2 ⟨by simp, hmembers⟩)
  | bounded value inner minimum maximum =>
    have hinner : inner.data.equal inner.data = true := by
      simpa [held, dataAll, Json.equal, equalItems] using hheld
    rw [data, wordedAround, dataAround]
    exact equal_object_self (by simp) (by simp [hinner])
  | bare | flag =>
    rw [data, wordedAround, dataAround]
    exact equal_object_self (by simp) (by simp)
  | _ =>
    rw [data, wordedAround, dataAround]
    exact equal_object_self (by simp) (by simpa [held] using hheld)
  termination_by sizeOf outcome

/-- **Nothing of an outcome is lost in its data.** Whatever fields an outcome has, it is read from everything that
equals its data, so outcomes have equal data only if they are the same. That is so even of outcomes that cannot be
described; the others are their data. -/
theorem Outcome.toJson_lossless :
    (∀ (outcome : Outcome) (json : Json), outcome.toJson = .ok json ↔ outcome.Describable ∧ json = outcome.data) ∧
    (∀ (outcome : Outcome) (json : Json), outcome.data.equal json = true → ofJson? json = some outcome) ∧
      ∀ first second : Outcome, first.data.equal second.data = true ↔ first = second := by
  refine ⟨fun outcome json => toJson_ok, fun outcome json h => outcome.reads_data json h,
    fun first second => ⟨fun h => ?_, ?_⟩⟩
  · have hfirst : ofJson? second.data = some first := first.reads_data _ h
    have hsecond : ofJson? second.data = some second := second.reads_data _ second.equal_data_self
    rw [hfirst] at hsecond
    exact Option.some.inj hsecond
  · rintro rfl
    exact first.equal_data_self

/-- A labelled value inside bounds, read from its data with the members the other way round. -/
theorem Outcome.toJson_lossless_reversed :
    let outcome : Outcome := .bounded 3 (.simple 7 "x" none []) none (some 3)
    let reversed : Json := .object [
      ("description", .text "7 bounded [:3] = 3"), ("maximum", .int 3), ("minimum", .null),
      ("inner", .object [("operands", .array []), ("operator", .null), ("description", .text "x = 7"), ("value", .int 7),
        ("kind", .text "simple")]),
      ("value", .int 3), ("kind", .text "bounded")]
    (∃ json, outcome.toJson = .ok json ∧ json.equal reversed = true) ∧ ofJson? reversed = some outcome := by
  intro outcome reversed
  have hdescribable : outcome.Describable := by
    intro part hp
    simp only [outcome, parts, partsOfAll, List.mem_cons, List.not_mem_nil, or_false] at hp
    rcases hp with rfl | rfl <;> decide +kernel
  have hequal : outcome.data.equal reversed = true := by decide +kernel
  exact ⟨⟨_, (toJson_lossless.1 outcome _).2 ⟨hdescribable, rfl⟩, hequal⟩, toJson_lossless.2.1 outcome reversed hequal⟩

end TabletopDice
