import TabletopDice.CommandLine.Session
import TabletopDice.Http.Service
import TabletopDice.Proofs.Description
import TabletopDice.Proofs.Growth
import TabletopDice.Proofs.Normalization
/-!
# Entries — every way to have a text rolled says the same

A text can be evaluated, reported on, sent to the service or given to the program with commands. The report tells what
the evaluation ends in (`Engine.Tells`): the same outcome or the same message and code, at a table in the same state.
The service and the program pass a report on (`Http.Service.Relays`, `CommandLine.Prints`). If the source answers there
is nothing else to pass on but a number that is too long to be written: the service and the program fail at such a
number. `entries_agree` puts the three together.
-/
namespace TabletopDice

open Play

variable {σ : Type} [RandomSource σ]

/-- An error of the grammar is reported with its place. -/
theorem Report.ofRule_unreadable {α : Type} (error : SyntaxError) : (Report.ofRule (.unreadable error) : Report α) =
    .fail error.message (some "syntax_error") (some (.object [("position", .int error.position)])) := by
  rw [Report.ofRule, RuleError.message_unreadable]
  rfl

/-- Only an error of the grammar is reported with a place. -/
theorem Report.ofRule_refused {α : Type} {error : RuleError} (h : ∀ e, error ≠ .unreadable e) :
    (Report.ofRule error : Report α) = .fail error.message (some error.code.text) none := by
  cases error with
  | unreadable e => exact absurd rfl (h e)
  | _ => rfl

/-! ## Outcomes that can be stated -/

namespace Json

mutual

/-- How deep a value stands does not matter for whether its numbers can be written. -/
theorem writable_wordingAt (depth other : Nat) : ∀ json : Json,
    (wordingAt depth json).Writable ↔ (wordingAt other json).Writable
  | .null => .rfl
  | .bool _ => .rfl
  | .number _ => .rfl
  | .text _ => .rfl
  | .array [] => .rfl
  | .array (item :: items) => by
    have hitem := writable_wordingAt (depth + 1) (other + 1) item
    have hitems := writable_wordingItems (depth + 1) (other + 1) items
    simp [wordingAt, newLine, hitem, hitems]
  | .object [] => .rfl
  | .object ((name, value) :: members) => by
    have hvalue := writable_wordingAt (depth + 1) (other + 1) value
    have hmembers := writable_wordingMembers (depth + 1) (other + 1) members
    simp [wordingAt, newLine, hvalue, hmembers]

theorem writable_wordingItems (depth other : Nat) : ∀ items : List Json,
    (wordingItems depth items).Writable ↔ (wordingItems other items).Writable
  | [] => .rfl
  | item :: items => by
    have hitem := writable_wordingAt depth other item
    have hitems := writable_wordingItems depth other items
    simp [wordingItems, newLine, hitem, hitems]

theorem writable_wordingMembers (depth other : Nat) : ∀ members : List (String × Json),
    (wordingMembers depth members).Writable ↔ (wordingMembers other members).Writable
  | [] => .rfl
  | (name, value) :: members => by
    have hvalue := writable_wordingAt depth other value
    have hmembers := writable_wordingMembers depth other members
    simp [wordingMembers, newLine, hvalue, hmembers]

end

/-- **A value that can be printed**: its numbers are short enough. -/
def Printable (json : Json) : Prop := (wordingAt 0 json).Writable

@[simp] theorem printable_text (text : String) : (Json.text text).Printable := by simp [Printable, wordingAt]

@[simp] theorem printable_bool (b : Bool) : (Json.bool b).Printable := by cases b <;> simp [Printable, wordingAt]

/-- **An object can be printed** just if the value of each of its members can. -/
@[simp] theorem printable_object {members : List (String × Json)} :
    (Json.object members).Printable ↔ ∀ member ∈ members, member.2.Printable := by
  have hafter : ∀ members : List (String × Json),
      (wordingMembers 1 members).Writable ↔ ∀ member ∈ members, member.2.Printable := by
    intro members
    induction members with
    | nil => simp [wordingMembers]
    | cons member members ih =>
      obtain ⟨name, value⟩ := member
      simp [wordingMembers, newLine, ih, Printable, writable_wordingAt 1 0]
  cases members with
  | nil => simp [Printable, wordingAt]
  | cons member members =>
    obtain ⟨name, value⟩ := member
    simp [Printable, wordingAt, newLine, hafter, writable_wordingAt 1 0]

theorem print_eq {json : Json} (h : json.Printable) : json.print = .ok (wordingAt 0 json).text := Wording.write_eq h

theorem print_error {json : Json} (h : ¬ json.Printable) : json.print = .error .unwritable :=
  Wording.write_error.2 ⟨h, rfl⟩

end Json

/-- **An outcome that can be stated**: it is data, and the numbers in that can be written. -/
structure Outcome.Stateable (outcome : Outcome) : Prop where
  describable : outcome.Describable
  printable : outcome.data.Printable

namespace Engine

/-- The members of a rolled text as data. -/
def Rolled.stated (rolled : Rolled) : List (String × Json) :=
  [("expression", .text rolled.expression), ("normalized", .text rolled.normalized), ("result", rolled.outcome.data)]

/-- **A rolled text is printed** as an object, behind other members, just if its outcome can be stated; what would come
after the printing does not come if not. -/
theorem Rolled.print_cases (rolled : Rolled) {first : List (String × Json)}
    (hfirst : ∀ member ∈ first, member.2.Printable) :
    rolled.outcome.Stateable ∧ rolled.members = .ok rolled.stated ∧ (Json.object (first ++ rolled.stated)).Printable ∨
      ¬ rolled.outcome.Stateable ∧ ∀ {α : Type} (next : List (String × Json) → String → Except Fault α),
        (rolled.members >>= fun members => (Json.object (first ++ members)).print >>= next members) =
          .error .unwritable := by
  unfold members
  obtain ⟨hdescribable, hjson⟩ | ⟨hnot, hjson⟩ := rolled.outcome.toJson_cases
  · have hobject : (Json.object (first ++ rolled.stated)).Printable ↔ rolled.outcome.data.Printable := by
      rw [Json.printable_object, List.forall_mem_append, and_iff_right hfirst]
      simp [stated]
    rw [hjson]
    by_cases hprintable : rolled.outcome.data.Printable
    · exact .inl ⟨⟨hdescribable, hprintable⟩, rfl, hobject.2 hprintable⟩
    · refine .inr ⟨fun h => hprintable h.printable, fun next => ?_⟩
      have hprint := Json.print_error (mt hobject.1 hprintable)
      change (Json.object (first ++ rolled.stated)).print >>= next rolled.stated = _
      rw [hprint]
      rfl
  · rw [hjson]
    exact .inr ⟨fun h => hnot h.describable, fun _ => rfl⟩

/-- **What the report on an entry tells of its evaluation**, both at the same table: the outcome with the text that was
read for it, or the rule that was broken with its place in the text if it has one. Another fault is that of both. -/
inductive Tells (settings : Settings) (setup : Setup) (normalize : Option Bool) (table : Table σ) :
    Option String → EStateM.Result Fault (Table σ) Outcome → EStateM.Result Fault (Table σ) (Report Rolled) → Prop
  | rolled {expression : String} {command : Command} {outcome : Outcome} {after other : Table σ}
      {log : Array LogRow} :
      Command.parse (prepared settings normalize expression) = .ok command →
      evaluateText settings setup (prepared settings normalize expression) { table with log } = .ok outcome after →
      after.SameState other →
      Tells settings setup normalize table (some expression) (.ok outcome after)
        (.ok (.ok ⟨expression, prepared settings normalize expression, outcome⟩) other)
  | unreadable {entry : Option String} {error : SyntaxError} {after other : Table σ} : after.SameState other →
      Tells settings setup normalize table entry (.error (.rule (.unreadable error)) after)
        (.ok (.fail error.message (some "syntax_error") (some (.object [("position", .int error.position)]))) other)
  | refused {entry : Option String} {error : RuleError} {after other : Table σ} : (∀ e, error ≠ .unreadable e) →
      after.SameState other →
      Tells settings setup normalize table entry (.error (.rule error) after)
        (.ok (.fail error.message (some error.code.text) none) other)
  | faulted {entry : Option String} {fault : Fault} {after other : Table σ} : (∀ error, fault ≠ .rule error) →
      after.SameState other →
      Tells settings setup normalize table entry (.error fault after) (.error fault other)

theorem evaluateText_self (settings : Settings) (setup : Setup) (text : String) :
    Alike Table.SameState Eq (evaluateText settings setup text : Play σ Outcome)
      (evaluateText settings setup text) := by
  cases hparse : Command.parse text with
  | ok command => exact evaluateText_alike settings setup hparse hparse
  | error error =>
    intro t u htu
    rw [evaluateText_unreadable hparse, evaluateText_unreadable hparse]
    exact .error _ htu

theorem parse_of_evaluateText {settings : Settings} {setup : Setup} {text : String} {outcome : Outcome}
    {table after : Table σ} (h : evaluateText settings setup text table = .ok outcome after) :
    ∃ command, Command.parse text = .ok command := by
  cases hparse : Command.parse text with
  | ok command => exact ⟨command, rfl⟩
  | error error =>
    rw [evaluateText_unreadable hparse] at h
    cases h

/-- **Two paths to one text.** To have the suffixes of a text put in order while it is evaluated, and to put them in
order before and evaluate what comes out as it is, is the same but for the report on it. -/
theorem evaluate_prepared (settings : Settings) (setup : Setup) (wanted : Option Bool) (text : String)
    (table : Table σ) : Agree Table.SameState Eq (evaluate settings setup wanted text table)
      (evaluate settings setup (some false) (prepared settings wanted text) table) := by
  obtain ⟨log, hevaluate⟩ := evaluate_reported settings setup wanted text table
  rw [hevaluate]
  exact evaluateText_self settings setup _ _ _ ⟨rfl, rfl, rfl⟩

/-- **The report on an entry tells what its evaluation ends in.** -/
theorem rollEntry_tells (settings : Settings) (seed : Option Int) (normalize : Option Bool) (entry : Option String)
    (table : Table σ) : Tells settings (setup settings seed) normalize table entry
      (evaluateEntry settings (setup settings seed) normalize entry table)
      (rollEntry settings seed normalize entry table) := by
  cases entry with
  | none =>
    rw [evaluateEntry, refuse, Fault.ofRule_unreadable]
    exact .unreadable ⟨rfl, rfl, rfl⟩
  | some expression =>
    have hagree := evaluate_prepared settings (setup settings seed) normalize expression table
    obtain ⟨log, hevaluate⟩ := evaluate_reported settings (setup settings seed) normalize expression table
    have hread : (if normalize.getD settings.normalize then SuffixOrder.normalize expression else expression) =
      prepared settings normalize expression := rfl
    rw [evaluateEntry, rollEntry, roll, hread]
    generalize hfirst : evaluate settings (setup settings seed) normalize expression table = first at hagree ⊢
    generalize evaluate settings (setup settings seed) (some false) (prepared settings normalize expression) table =
      second at hagree ⊢
    cases hagree with
    | ok heq hstate =>
      rw [hevaluate] at hfirst
      obtain ⟨command, hparse⟩ := parse_of_evaluateText hfirst
      cases heq
      exact .rolled hparse hfirst hstate
    | error fault hstate =>
      cases fault with
      | rule error =>
        -- the report that the text has failed adds to the log only
        dsimp only
        rw [bind_eq (report_writable (Event.writable_failed _ _) _)]
        by_cases hgrammar : ∃ e, error = .unreadable e
        · obtain ⟨e, rfl⟩ := hgrammar
          rw [Report.ofRule_unreadable]
          exact .unreadable ⟨hstate.source, hstate.draws, hstate.memory⟩
        · have hrule : ∀ e, error ≠ .unreadable e := fun e he => hgrammar ⟨e, he⟩
          rw [Report.ofRule_refused hrule]
          exact .refused hrule ⟨hstate.source, hstate.draws, hstate.memory⟩
      | _ => exact .faulted (fun _ h => nomatch h) hstate

/-- **With a source that answers, a rule is broken or a number is too long to be written.** -/
theorem evaluate_fault (hanswers : RandomSource.Answers σ) {settings : Settings} {setup : Setup}
    {normalize : Option Bool} {expression : String} {fault : Fault} {table after : Table σ}
    (h : evaluate settings setup normalize expression table = .error fault after) :
    (∃ error, fault = .rule error) ∨ fault = .unwritable := by
  obtain ⟨log, hevaluate⟩ := evaluate_reported settings setup normalize expression table
  rw [hevaluate] at h
  cases hparse : Command.parse (prepared settings normalize expression) with
  | error error =>
    rw [evaluateText_unreadable hparse] at h
    cases h
    exact .inl ⟨_, rfl⟩
  | ok command =>
    have hends := safe_evaluateText hanswers settings setup hparse { table with log }
    rw [h] at hends
    cases hends with
    | failed _ hfault =>
      cases fault with
      | rule error => exact .inl ⟨error, rfl⟩
      | unwritable => exact .inr rfl
      | _ => exact absurd hfault id

/-- **A value that cannot be written ends the evaluation** of its text, when its outcome is reported. -/
theorem evaluateText_unwritten {settings : Settings} {setup : Setup} {text : String} {command : Command}
    {outcome : Outcome} {table after : Table σ} (hparse : Command.parse text = .ok command)
    (hrun : Evaluation.evaluateCommand { settings.limits with maxChain := setup.budget } command
      { table with source := RandomSource.reseed setup.seed table.source, memory := .empty } = .ok outcome after)
    (hlong : ¬ Piece.Writable outcome.value) : evaluateText settings setup text table = .error .unwritable after := by
  have hreport : ¬ (Event.finished text outcome.kind outcome.value).wording.Writable := by simpa [Event.wording] using hlong
  unfold evaluateText
  rw [hparse]
  exact (bind_eq hrun _).trans (bind_error (report_unwritable hreport after) _)

/-- **The value of an outcome that a text has can be written**, as the report on it has been. -/
theorem evaluate_writable {settings : Settings} {setup : Setup} {normalize : Option Bool} {expression : String}
    {outcome : Outcome} {table after : Table σ}
    (h : evaluate settings setup normalize expression table = .ok outcome after) : Piece.Writable outcome.value := by
  obtain ⟨log, hevaluate⟩ := evaluate_reported settings setup normalize expression table
  rw [hevaluate] at h
  unfold evaluateText at h
  obtain ⟨command, _, -, h⟩ := bind_ok h
  obtain ⟨_, _, -, h⟩ := bind_ok h
  obtain ⟨_, _, -, h⟩ := bind_ok h
  obtain ⟨found, _, -, h⟩ := bind_ok h
  obtain ⟨_, _, hreport, h⟩ := bind_ok h
  obtain ⟨rfl, -⟩ := pure_ok h
  simpa [Event.wording] using (report_ok hreport).1

end Engine

namespace Http
namespace Service

/-- The request for a roll that is read in a body, if there is one and it has the form of one. -/
def wanted? (request : Request) : Option RollRequest :=
  if isTooDeep request then none else (objectOf? request).bind RollRequest.ofJson?

/-- **How the service passes on what a text is evaluated to.** It fails at an outcome that cannot be stated, and at a
number on the way to an outcome that cannot be written. -/
inductive Relays (settings : Settings) (wanted : RollRequest) :
    EStateM.Result Fault (Table σ) Outcome → Response × Table σ → Prop
  | rolled {outcome : Outcome} {after other : Table σ} : after.SameState other → outcome.Stateable →
      Relays settings wanted (.ok outcome after) (⟨200, some (.object [
        ("success", .bool true),
        ("expression", .text wanted.expression),
        ("normalized", .text (Engine.prepared settings wanted.normalize wanted.expression)),
        ("result", outcome.data)])⟩, other)
  | unstated {outcome : Outcome} {after other : Table σ} : after.SameState other → ¬ outcome.Stateable →
      Relays settings wanted (.ok outcome after) (.bare 500, other)
  | unreadable {error : SyntaxError} {after other : Table σ} : after.SameState other →
      Relays settings wanted (.error (.rule (.unreadable error)) after) (⟨400, some (.object [
        ("success", .bool false),
        ("error", .text error.message),
        ("error_code", .text "syntax_error"),
        ("position", .int error.position)])⟩, other)
  | refused {error : RuleError} {after other : Table σ} : (∀ e, error ≠ .unreadable e) → after.SameState other →
      Relays settings wanted (.error (.rule error) after) (⟨400, some (.object [
        ("success", .bool false),
        ("error", .text error.message),
        ("error_code", .text error.code.text)])⟩, other)
  | unwritten {after other : Table σ} : after.SameState other →
      Relays settings wanted (.error .unwritable after) (⟨500, some (.object [
        ("success", .bool false),
        ("error", .text Fault.unwritable.message),
        ("error_code", .text "unexpected_error")])⟩, other)

/-- **A rolled text is answered with its data** if its outcome can be stated, and is a fault of the service if not. -/
theorem answer_rolled (rolled : Engine.Rolled) :
    rolled.outcome.Stateable ∧ answer (.ok rolled) = ⟨200, some (.object [
        ("success", .bool true),
        ("expression", .text rolled.expression),
        ("normalized", .text rolled.normalized),
        ("result", rolled.outcome.data)])⟩ ∨
      ¬ rolled.outcome.Stateable ∧ answer (.ok rolled) = .bare 500 := by
  have hsuccess : ∀ member ∈ [("success", Json.bool true)], member.2.Printable :=
    List.forall_mem_singleton.2 (Json.printable_bool true)
  obtain ⟨hstateable, hmembers, hprintable⟩ | ⟨hnot, hnone⟩ := rolled.print_cases hsuccess
  · have hjson : printable rolled = .ok (.object (("success", .bool true) :: rolled.stated)) := by
      rw [printable, hmembers]
      change (Json.object ([("success", .bool true)] ++ rolled.stated)).print >>= _ = _
      rw [Json.print_eq hprintable]
      rfl
    exact .inl ⟨hstateable, by rw [answer, hjson]; rfl⟩
  · have hjson : printable rolled = .error .unwritable :=
      hnone fun members _ => .ok (Json.object (("success", .bool true) :: members))
    exact .inr ⟨hnot, by rw [answer, hjson]⟩

theorem wanted?_eq_some {request : Request} {wanted : RollRequest} (h : wanted? request = some wanted) :
    ¬ isTooDeep request ∧ ∃ json, objectOf? request = some json ∧ RollRequest.ofJson? json = some wanted := by
  unfold wanted? at h
  split at h
  · cases h
  · rename_i hdeep
    exact ⟨hdeep, Option.bind_eq_some_iff.1 h⟩

/-- **A request for a roll is answered with what its text is evaluated to.** -/
theorem respond_relays (hanswers : RandomSource.Answers σ) (settings : Settings) {request : Request}
    {wanted : RollRequest} (hmethod : request.method = "POST") (hpath : request.target.path = "/api/roll")
    (h : wanted? request = some wanted) (table : Table σ) :
    Relays settings wanted
      (Engine.evaluate settings (Engine.setup settings wanted.seed) wanted.normalize wanted.expression table)
      (respond settings request table) := by
  have hroute : respond settings request table = roll settings request table := by
    have hcase : Text.upperCase "POST" = "POST" := by decide +kernel
    have hof : Route.of "POST" "/api/roll" = .resource .roll := by decide +kernel
    rw [respond, hmethod, hpath, hof, hcase]
    rfl
  have htells := Engine.rollEntry_tells settings wanted.seed wanted.normalize (some wanted.expression) table
  rw [Engine.evaluateEntry, Engine.rollEntry] at htells
  obtain ⟨hdeep, json, hobject, hform⟩ := wanted?_eq_some h
  rw [hroute, roll, if_neg hdeep, hobject]
  simp only [hform]
  generalize hevaluated : Engine.evaluate settings (Engine.setup settings wanted.seed) wanted.normalize
    wanted.expression table = evaluated at htells ⊢
  generalize Engine.roll settings wanted.seed wanted.normalize wanted.expression table = reported at htells ⊢
  cases htells with
  | @rolled _ _ outcome _ _ _ _ _ hstate =>
    obtain ⟨hstateable, hanswer⟩ | ⟨hnot, hanswer⟩ := answer_rolled ⟨wanted.expression,
      Engine.prepared settings wanted.normalize wanted.expression, outcome⟩
    · dsimp only
      rw [hanswer]
      exact .rolled hstate hstateable
    · dsimp only
      rw [hanswer]
      exact .unstated hstate hnot
  | unreadable hstate => exact .unreadable hstate
  | refused hrule hstate => exact .refused hrule hstate
  | faulted hfault hstate =>
    obtain ⟨error, rfl⟩ | rfl := Engine.evaluate_fault hanswers hevaluated
    · exact absurd rfl (hfault error)
    · exact .unwritten hstate

end Service
end Http

namespace CommandLine

/-- The wish of arguments to have suffixes put in order, which is left to the settings if the text is not as typed. -/
def RollArguments.normalize (arguments : RollArguments) : Option Bool := if arguments.asTyped then some false else none

/-- **How a run passes on what a text is evaluated to**: it prints the value, or the outcome as data, after the lines of
its log, or it ends in an error with the message after the remarks on its settings. After the value, and in place of the
data, it fails at an outcome that cannot be described or stated, and in place of both at a number on the way to an
outcome that cannot be written. -/
inductive Prints (ready : Ready) (arguments : RollArguments) :
    EStateM.Result Fault (Table σ) Outcome → Session × Table σ → Prop
  | rolled {outcome : Outcome} {after other : Table σ} {session : Session} {lines more : String} :
      after.SameState other → arguments.asJson = false → session.stderr = ready.remarks →
      session.ending = (if outcome.wording.Writable then .exit 0 else .faulted .unwritable) →
      session.stdout = lines ++ ("✓ " ++ arguments.expression ++ " = " ++ toString outcome.value ++ "\n" ++ more) →
      Prints ready arguments (.ok outcome after) (session, other)
  | rolledData {outcome : Outcome} {after other : Table σ} {session : Session} {lines : String} :
      after.SameState other → arguments.asJson = true → outcome.Stateable → session.ending = .exit 0 →
      session.stderr = ready.remarks →
      session.stdout = lines ++ ((Json.wordingAt 0 (.object [
        ("expression", .text arguments.expression),
        ("normalized", .text (Engine.prepared ready.settings arguments.normalize arguments.expression)),
        ("result", outcome.data)])).text ++ "\n") →
      Prints ready arguments (.ok outcome after) (session, other)
  | unstated {outcome : Outcome} {after other : Table σ} {session : Session} : after.SameState other →
      arguments.asJson = true → ¬ outcome.Stateable → session.ending = .faulted .unwritable →
      session.stderr = ready.remarks → Prints ready arguments (.ok outcome after) (session, other)
  | refused {error : RuleError} {after other : Table σ} {session : Session} : after.SameState other →
      session.ending = .exit 1 → session.stderr = ready.remarks ++ "✗ Error: " ++ error.message ++ "\n" →
      Prints ready arguments (.error (.rule error) after) (session, other)
  | unwritten {after other : Table σ} {session : Session} : after.SameState other →
      session.ending = .faulted .unwritable → session.stderr = ready.remarks →
      Prints ready arguments (.error .unwritable after) (session, other)

/-- **A rolled text is printed with its value**, and with its outcome in words if they can be written. -/
theorem printAll_rolledTexts (rolled : Engine.Rolled) (hvalue : Piece.Writable rolled.outcome.value)
    (session : Session) : ∃ more, session.printAll (rolledTexts rolled) =
      { session with
        stdout := session.stdout ++
          ("✓ " ++ rolled.expression ++ " = " ++ toString rolled.outcome.value ++ "\n" ++ more)
        ending := if rolled.outcome.wording.Writable then session.ending else .faulted .unwritable } := by
  have hline : Wording.write ["✓ ", rolled.expression, " = ", rolled.outcome.value, "\n"] =
      .ok ("✓ " ++ rolled.expression ++ " = " ++ toString rolled.outcome.value ++ "\n") := by
    rw [Wording.write_eq (by simpa using hvalue)]
    simp [Wording.text, Piece.text, String.append_assoc]
  by_cases hwords : rolled.outcome.wording.Writable
  · refine ⟨(if rolled.normalized = rolled.expression then "" else "  Normalized: " ++ rolled.normalized ++ "\n") ++
      indentedLines rolled.outcome.wording.text, ?_⟩
    rw [if_pos hwords, rolledTexts, hline, Outcome.describe, Wording.write_eq hwords]
    simp only [Except.map, Session.printAll, Session.print, String.append_assoc]
  · refine ⟨if rolled.normalized = rolled.expression then "" else "  Normalized: " ++ rolled.normalized ++ "\n", ?_⟩
    rw [if_neg hwords, rolledTexts, hline, Outcome.describe, Wording.write_error.2 ⟨hwords, rfl⟩]
    simp only [Except.map, Session.printAll, Session.print, String.append_assoc]

/-- **A rolled text is printed as data** if its outcome can be stated. -/
theorem rolledJson_cases (rolled : Engine.Rolled) :
    rolled.outcome.Stateable ∧ rolledJson rolled = .ok ((Json.wordingAt 0 (.object [
        ("expression", .text rolled.expression),
        ("normalized", .text rolled.normalized),
        ("result", rolled.outcome.data)])).text ++ "\n") ∨
      ¬ rolled.outcome.Stateable ∧ rolledJson rolled = .error .unwritable := by
  have hrolled : rolledJson rolled = rolled.members >>= fun members =>
      (Json.object ([] ++ members)).print >>= fun text => .ok (text ++ "\n") := by
    rw [rolledJson, Engine.Rolled.toJson]
    cases rolled.members <;> rfl
  obtain ⟨hstateable, hmembers, hprintable⟩ | ⟨hnot, hnone⟩ := rolled.print_cases (List.forall_mem_nil _)
  · refine .inl ⟨hstateable, ?_⟩
    rw [hrolled, hmembers]
    change (Json.object ([] ++ rolled.stated)).print >>= _ = _
    rw [Json.print_eq hprintable]
    rfl
  · exact .inr ⟨hnot, hrolled.trans (hnone _)⟩

/-- **A run that rolls prints what its text is evaluated to.** -/
theorem rollSession_prints (hanswers : RandomSource.Answers σ) (ready : Ready) (log : Log) (time : String)
    (arguments : RollArguments) (table : Table σ) :
    Prints ready arguments (Engine.evaluate ready.settings (Engine.setup ready.settings arguments.seed)
      arguments.normalize arguments.expression table) (rollSession ready log time arguments table) := by
  have htells := Engine.rollEntry_tells ready.settings arguments.seed arguments.normalize (some arguments.expression)
    table
  rw [Engine.evaluateEntry, Engine.rollEntry] at htells
  unfold rollSession
  dsimp only
  rw [← RollArguments.normalize]
  generalize hevaluated : Engine.evaluate ready.settings (Engine.setup ready.settings arguments.seed)
    arguments.normalize arguments.expression table = evaluated at htells ⊢
  generalize Engine.roll ready.settings arguments.seed arguments.normalize arguments.expression table = reported
    at htells ⊢
  cases htells with
  | @rolled _ _ outcome _ _ _ _ _ hstate =>
    let rolled : Engine.Rolled := ⟨arguments.expression,
      Engine.prepared ready.settings arguments.normalize arguments.expression, outcome⟩
    cases hjson : arguments.asJson with
    | true =>
      dsimp only
      rw [if_pos rfl]
      obtain ⟨hstateable, htext⟩ | ⟨hnot, htext⟩ := rolledJson_cases rolled
      · rw [htext]
        exact .rolledData hstate hjson hstateable rfl rfl rfl
      · rw [htext]
        exact .unstated hstate hjson hnot rfl rfl
    | false =>
      dsimp only
      rw [if_neg Bool.false_ne_true]
      obtain ⟨more, hprinted⟩ := printAll_rolledTexts rolled (Engine.evaluate_writable hevaluated)
        (logged ready log time _)
      rw [hprinted]
      exact .rolled hstate hjson rfl rfl rfl
  | unreadable hstate =>
    refine .refused hstate rfl ?_
    rw [RuleError.message_unreadable]
    rfl
  | refused _ hstate => exact .refused hstate rfl rfl
  | faulted hfault hstate =>
    obtain ⟨error, rfl⟩ | rfl := Engine.evaluate_fault hanswers hevaluated
    · exact absurd rfl (hfault error)
    · exact .unwritten hstate rfl rfl

theorem run_rolls {time : String} {disk : Log.Disk} {environment : Environment} {file : Option SettingsFile}
    {arguments : List String} {level : Option String} {roll : RollArguments} {leftOver : Bool} {ready : Ready}
    {log : Log} (hparse : Invocation.parse arguments = .done ⟨level, some (.roll roll)⟩ leftOver)
    (hready : CommandLine.ready environment file = .ok ready)
    (hlog : openLog disk ready.settings ((nonEmpty? level).getD ready.settings.logLevel) = .ok log) (table : Table σ) :
    run time disk environment file arguments table = rollSession ready log time roll table := by
  rw [run, hparse]
  dsimp only
  rw [hready]
  dsimp only
  rw [taskSession, withLog, hlog]

end CommandLine

/-- **All entries agree.** The report on an entry tells what its evaluation ends in, whatever the source. If the source
answers, so do the answer to a request that has the form of one and a run of the program that is asked for a roll. -/
theorem entries_agree (table : Table σ) :
    (∀ (settings : Settings) (seed : Option Int) (normalize : Option Bool) (entry : Option String),
      Engine.Tells settings (Engine.setup settings seed) normalize table entry
        (Engine.evaluateEntry settings (Engine.setup settings seed) normalize entry table)
        (Engine.rollEntry settings seed normalize entry table)) ∧
    (RandomSource.Answers σ → ∀ (settings : Settings) (request : Http.Request) (wanted : RollRequest),
      request.method = "POST" → request.target.path = "/api/roll" → Http.Service.wanted? request = some wanted →
      Http.Service.Relays settings wanted
        (Engine.evaluate settings (Engine.setup settings wanted.seed) wanted.normalize wanted.expression table)
        (Http.Service.respond settings request table)) ∧
    (RandomSource.Answers σ → ∀ (time : String) (disk : Log.Disk) (environment : Environment)
      (file : Option SettingsFile) (arguments : List String) (level : Option String)
      (roll : CommandLine.RollArguments) (leftOver : Bool) (ready : CommandLine.Ready) (log : Log),
      CommandLine.Invocation.parse arguments = .done ⟨level, some (.roll roll)⟩ leftOver →
      CommandLine.ready environment file = .ok ready →
      CommandLine.openLog disk ready.settings ((CommandLine.nonEmpty? level).getD ready.settings.logLevel) = .ok log →
      CommandLine.Prints ready roll
        (Engine.evaluate ready.settings (Engine.setup ready.settings roll.seed) roll.normalize roll.expression table)
        (CommandLine.run time disk environment file arguments table)) := by
  refine ⟨fun settings seed normalize entry => Engine.rollEntry_tells settings seed normalize entry table, ?_, ?_⟩
  · intro hanswers settings request wanted hmethod hpath hwanted
    exact Http.Service.respond_relays hanswers settings hmethod hpath hwanted table
  · intro hanswers time disk environment file arguments level roll leftOver ready log hparse hready hlog
    rw [CommandLine.run_rolls hparse hready hlog]
    exact CommandLine.rollSession_prints hanswers ready log time roll table

/-- One roll with a seed, asked for by a request and by arguments. -/
theorem entries_agree_seeded :
    ∃ (table : Table Scripted.Unfailing) (request : Http.Request) (ready : CommandLine.Ready) (log : Log),
      Http.Service.wanted? request = some ⟨"2d6+1", some 7, none⟩ ∧
      CommandLine.ready ⟨[]⟩ none = .ok ready ∧
      CommandLine.openLog ⟨"/", fun _ => false⟩ ready.settings ready.settings.logLevel = .ok log ∧
      Http.Service.Relays {} ⟨"2d6+1", some 7, none⟩
        (Engine.evaluate {} (Engine.setup {} (some 7)) none "2d6+1" table) (Http.Service.respond {} request table) ∧
      CommandLine.Prints ready ⟨"2d6+1", some 7, true, false⟩
        (Engine.evaluate ready.settings (Engine.setup ready.settings (some 7)) none "2d6+1" table)
        (CommandLine.run "0" ⟨"/", fun _ => false⟩ ⟨[]⟩ none ["roll", "2d6+1", "--seed", "7", "--json"] table) := by
  have hwanted : Http.Service.wanted? ⟨"POST", ⟨"/api/roll", []⟩, "application/json",
      "\x7b\"expression\": \"2d6+1\", \"seed\": 7\x7d"⟩ = some ⟨"2d6+1", some 7, none⟩ := by decide +kernel
  have hparse : CommandLine.Invocation.parse ["roll", "2d6+1", "--seed", "7", "--json"] =
      .done ⟨none, some (.roll ⟨"2d6+1", some 7, true, false⟩)⟩ false := by rfl
  have hsettings : (CommandLine.ready ⟨[]⟩ none).toOption.map CommandLine.Ready.settings = some {} := by decide +kernel
  cases hready : CommandLine.ready ⟨[]⟩ none with
  | error fault =>
    rw [hready] at hsettings
    cases hsettings
  | ok ready =>
    rw [hready] at hsettings
    have hdefault : ready.settings = {} := Option.some.inj hsettings
    have hlog : ∃ log, CommandLine.openLog ⟨"/", fun _ => false⟩ ready.settings ready.settings.logLevel = .ok log := by
      rw [hdefault]
      exact ⟨_, rfl⟩
    obtain ⟨log, hlog⟩ := hlog
    have hagree := entries_agree (Table.new (⟨⟨[some 3], 7⟩, by decide⟩ : Scripted.Unfailing))
    exact ⟨_, _, ready, log, hwanted, rfl, hlog, hagree.2.1 Scripted.Unfailing.answers {} _ _ rfl rfl hwanted,
      hagree.2.2 Scripted.Unfailing.answers "0" ⟨"/", fun _ => false⟩ ⟨[]⟩ none _ none _ false ready log hparse hready
        hlog⟩

/-- A request of the form of one is not answered: its text has an outcome of more than 4300 digits. -/
theorem long_value_unanswered : ¬ ∀ (settings : Settings) (request : Http.Request) (wanted : RollRequest)
    (table : Table Scripted.Unfailing), request.method = "POST" → request.target.path = "/api/roll" →
    Http.Service.wanted? request = some wanted →
    (Http.Service.respond settings request table).1.status = 200 ∨
      (Http.Service.respond settings request table).1.status = 400 := by
  intro hall
  let settings : Settings := { maxRepeat := 15000 }
  let request : Http.Request := ⟨"POST", ⟨"/api/roll", []⟩, "application/json",
    "\x7b\"expression\": \"15000x@x:=d1+@x+@x\"\x7d"⟩
  let table : Table Scripted.Unfailing := Table.new ⟨⟨[], 0⟩, by decide⟩
  have hwanted : Http.Service.wanted? request = some ⟨"15000x@x:=d1+@x+@x", none, none⟩ := by decide +kernel
  have hparse : Command.parse (Engine.prepared settings none "15000x@x:=d1+@x+@x") =
      .ok ⟨.times 15000 .doubling 0, []⟩ := by decide +kernel
  have hevaluated : ∃ after, Engine.evaluate settings (Engine.setup settings none) none "15000x@x:=d1+@x+@x" table =
      .error .unwritable after := by
    obtain ⟨log, hread⟩ := Engine.evaluate_reported settings (Engine.setup settings none) none "15000x@x:=d1+@x+@x" table
    have hmost : ((15000 : Nat) : Int) ≤ settings.limits.maxRepeat := by decide
    obtain ⟨outcome, after, hrun, hlong⟩ := Evaluation.evaluateCommand_doubling Scripted.Unfailing.answers
      (by decide) (by decide) (by decide) hmost { table with log } rfl
    exact ⟨after, hread.trans (Engine.evaluateText_unwritten hparse hrun hlong)⟩
  obtain ⟨after, hevaluated⟩ := hevaluated
  have hmethod : request.method = "POST" := rfl
  have hrelays := Http.Service.respond_relays Scripted.Unfailing.answers settings hmethod rfl hwanted table
  have hanswer := hall settings request _ table rfl rfl hwanted
  rw [hevaluated] at hrelays
  generalize Http.Service.respond settings request table = response at hrelays hanswer
  cases hrelays with
  | unwritten _ => exact hanswer.elim (fun hfine => by cases hfine) fun hrefused => by cases hrefused

end TabletopDice
