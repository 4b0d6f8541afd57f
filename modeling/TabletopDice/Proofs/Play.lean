import TabletopDice.Proofs.Failure
import TabletopDice.Random.Scripted
import TabletopDice.Table
/-!
# Play — what a play that ends in a value has done

A play that ends in a value is taken apart along the way it was put together: a sequence into its two plays, a
repetition into its rounds, a draw into the answer of the source.
-/
namespace TabletopDice

/-- **A source in range**: a number that it gives for bounds in order lies between them. -/
def RandomSource.InRange (σ : Type) [RandomSource σ] : Prop :=
  ∀ (low high value : Int) (source next : σ), low ≤ high →
    RandomSource.draw low high source = (some value, next) → low ≤ value ∧ value ≤ high

/-- What is known of the numbers that a source gives for bounds in order; of a source in range, that they lie between
them. -/
def RandomSource.Gives (σ : Type) [RandomSource σ] (drawn : Int → Int → Int → Prop) : Prop :=
  ∀ (low high value : Int) (source next : σ), low ≤ high →
    RandomSource.draw low high source = (some value, next) → drawn low high value

theorem Scripted.fold_mem {low high : Int} (h : low ≤ high) (n : Int) :
    low ≤ Scripted.fold low high n ∧ Scripted.fold low high n ≤ high := by
  have hlow := Int.emod_nonneg (n - low) (show high - low + 1 ≠ 0 by omega)
  have hhigh := Int.emod_lt_of_pos (n - low) (show 0 < high - low + 1 by omega)
  unfold Scripted.fold
  omega

theorem Scripted.inRange : RandomSource.InRange Scripted := by
  intro low high value source next hle h
  obtain ⟨script, state⟩ := source
  cases script with
  | nil =>
    obtain ⟨hvalue, -⟩ := Prod.mk.inj h
    cases hvalue
    exact Scripted.fold_mem hle _
  | cons entry rest =>
    cases entry with
    | none => cases (Prod.mk.inj h).1
    | some n =>
      obtain ⟨hvalue, -⟩ := Prod.mk.inj h
      cases hvalue
      exact Scripted.fold_mem hle n

/-- **A source that answers**: it gives a number between any two bounds in order. For other bounds it may fail. -/
def RandomSource.Answers (σ : Type) [RandomSource σ] : Prop :=
  ∀ (low high : Int) (source : σ), low ≤ high →
    ∃ value next, RandomSource.draw low high source = (some value, next) ∧ low ≤ value ∧ value ≤ high

theorem RandomSource.Answers.inRange {σ : Type} [RandomSource σ] (h : RandomSource.Answers σ) :
    RandomSource.InRange σ := by
  intro low high value source next hle hdraw
  obtain ⟨answer, after, hanswer, hbounds⟩ := h low high source hle
  cases hdraw.symm.trans hanswer
  exact hbounds

theorem Scripted.draw_answers {source : Scripted} (h : none ∉ source.script) {low high : Int} (hle : low ≤ high) :
    ∃ value, (Scripted.draw low high source).1 = some value ∧ low ≤ value ∧ value ≤ high := by
  obtain ⟨script, state⟩ := source
  match script, h with
  | [], _ => exact ⟨_, rfl, Scripted.fold_mem hle _⟩
  | some n :: rest, _ => exact ⟨_, rfl, Scripted.fold_mem hle n⟩
  | none :: rest, h => exact absurd List.mem_cons_self h

theorem Scripted.draw_script {source : Scripted} (h : none ∉ source.script) (low high : Int) :
    none ∉ (Scripted.draw low high source).2.script := by
  obtain ⟨script, state⟩ := source
  match script, h with
  | [], _ => exact List.not_mem_nil
  | some n :: rest, h => exact fun hmem => h (List.mem_cons_of_mem _ hmem)
  | none :: rest, h => exact absurd List.mem_cons_self h

/-- **A scripted source without failures.** -/
structure Scripted.Unfailing where
  source : Scripted
  unfailing : none ∉ source.script

instance : RandomSource Scripted.Unfailing where
  draw low high scripted :=
    ((Scripted.draw low high scripted.source).1,
      ⟨(Scripted.draw low high scripted.source).2, Scripted.draw_script scripted.unfailing low high⟩)
  reseed seed scripted := ⟨{ scripted.source with state := Scripted.seedState seed }, scripted.unfailing⟩

theorem Scripted.Unfailing.answers : RandomSource.Answers Scripted.Unfailing := by
  intro low high scripted hle
  obtain ⟨value, hvalue, hbounds⟩ := Scripted.draw_answers scripted.unfailing hle
  exact ⟨value, _, Prod.ext hvalue rfl, hbounds⟩

namespace Event

@[simp] theorem writable_evaluating (statement : Statement) : (evaluating statement).wording.Writable := by
  simp [wording]

@[simp] theorem writable_unbound (name : String) : (unbound name).wording.Writable := by simp [wording]

@[simp] theorem writable_normalized (before after : String) : (normalized before after).wording.Writable := by
  simp [wording]

@[simp] theorem writable_failed (expression message : String) : (failed expression message).wording.Writable := by
  simp [wording]

end Event

namespace Play

variable {σ α β : Type} {table after : Table σ}

theorem pure_ok {a b : α} (h : (pure a : Play σ α) table = .ok b after) : b = a ∧ after = table := by
  cases h
  exact ⟨rfl, rfl⟩

/-- **A sequence that ends in a value** has made its first play and then its second. -/
theorem bind_ok {play : Play σ α} {next : α → Play σ β} {b : β} (h : (play >>= next) table = .ok b after) :
    ∃ a middle, play table = .ok a middle ∧ next a middle = .ok b after := by
  change EStateM.bind play next table = .ok b after at h
  unfold EStateM.bind at h
  cases hp : play table with
  | ok a middle => rw [hp] at h; exact ⟨a, middle, rfl, h⟩
  | error fault middle => rw [hp] at h; cases h

theorem bind_eq {play : Play σ α} {a : α} {middle : Table σ} (h : play table = .ok a middle) (next : α → Play σ β) :
    (play >>= next) table = next a middle := by
  change EStateM.bind play next table = _
  unfold EStateM.bind
  rw [h]

theorem bind_error {play : Play σ α} {fault : Fault} (h : play table = .error fault after) (next : α → Play σ β) :
    (play >>= next) table = .error fault after := by
  change EStateM.bind play next table = _
  unfold EStateM.bind
  rw [h]

theorem map_ok {f : α → β} {play : Play σ α} {b : β} (h : (f <$> play) table = .ok b after) :
    ∃ a, play table = .ok a after ∧ f a = b := by
  change EStateM.map f play table = .ok b after at h
  unfold EStateM.map at h
  cases hp : play table with
  | ok a middle => rw [hp] at h; cases h; exact ⟨a, rfl, rfl⟩
  | error fault middle => rw [hp] at h; cases h

theorem ofExcept_ok {result : Except Fault α} {a : α} (h : (ofExcept result : Play σ α) table = .ok a after) :
    result = .ok a ∧ after = table := by
  cases result with
  | ok b => obtain ⟨rfl, rfl⟩ := pure_ok h; exact ⟨rfl, rfl⟩
  | error fault => cases h

theorem ofRule_eq (result : Except RuleError α) :
    (ofRule result : Play σ α) = ofExcept (result.mapError Fault.ofRule) := by
  cases result <;> rfl

theorem ofRule_ok {result : Except RuleError α} {a : α} (h : (ofRule result : Play σ α) table = .ok a after) :
    result = .ok a ∧ after = table := by
  rw [ofRule_eq] at h
  exact ⟨Failure.mapError_ok (ofExcept_ok h).1, (ofExcept_ok h).2⟩

/-- **A draw that gives a number** has it from the source, and notes it. -/
theorem draw_ok [RandomSource σ] {low high value : Int} (h : (draw low high : Play σ Int) table = .ok value after) :
    ∃ source, RandomSource.draw low high table.source = (some value, source) ∧
      after = { table with source, draws := table.draws.push ⟨low, high, value⟩ } := by
  unfold draw at h
  cases hd : RandomSource.draw low high table.source with
  | mk answer source =>
    rw [hd] at h
    cases answer with
    | none => cases h
    | some n => cases h; exact ⟨source, rfl, rfl⟩

/-- **A report whose message can be written** adds a row to the log. -/
theorem report_writable {event : Event} (h : event.wording.Writable) (table : Table σ) :
    report event table =
      .ok () { table with log := table.log.push ⟨event.level, event.logger, event.wording.text⟩ } := by
  rw [report, Event.message, Wording.write_eq h]
  rfl

/-- **A report whose message cannot be written** changes nothing. -/
theorem report_unwritable {event : Event} (h : ¬ event.wording.Writable) (table : Table σ) :
    report event table = .error .unwritable table := by
  rw [report, Event.message, Wording.write_error.2 ⟨h, rfl⟩]
  rfl

theorem report_ok {event : Event} {a : Unit} (h : (report event : Play σ Unit) table = .ok a after) :
    event.wording.Writable ∧
      after = { table with log := table.log.push ⟨event.level, event.logger, event.wording.text⟩ } := by
  by_cases hw : event.wording.Writable
  · rw [report_writable hw] at h
    cases h
    exact ⟨hw, rfl⟩
  · rw [report_unwritable hw] at h
    cases h

theorem report_memory {event : Event} {a : Unit} (h : (report event : Play σ Unit) table = .ok a after) :
    after.memory = table.memory := by
  rw [(report_ok h).2]

/-- The play ends in a value that passes a test, which can be found out for a given table. -/
def endsWith (play : Play σ α) (table : Table σ) (test : α → Bool) : Bool :=
  match play table with
  | .ok a _ => test a
  | .error _ _ => false

theorem ok_of_endsWith {play : Play σ α} (test : α → Bool) (h : endsWith play table test = true) :
    ∃ a after, play table = .ok a after ∧ test a = true := by
  unfold endsWith at h
  split at h
  · rename_i a after hplay
    exact ⟨a, after, hplay, h⟩
  · cases h

theorem exists_of_endsWith {play : Play σ α} {P : α → Prop} (test : α → Bool) (h : endsWith play table test = true)
    (hP : ∀ a after, play table = .ok a after → test a = true → P a) : ∃ a after, play table = .ok a after ∧ P a := by
  obtain ⟨a, after, hplay, htest⟩ := ok_of_endsWith test h
  exact ⟨a, after, hplay, hP a after hplay htest⟩

/-- **Every value of a repeated play** is one that the play ends in. -/
theorem times_ok {play : Play σ α} : ∀ {count : Nat} {table : Table σ} {values : List α},
    times play count table = .ok values after → ∀ a ∈ values, ∃ before middle, play before = .ok a middle
  | 0, _, _, h => by
    obtain ⟨rfl, -⟩ := pure_ok h
    intro a ha
    cases ha
  | count + 1, table, _, h => by
    obtain ⟨first, middle, hfirst, h⟩ := bind_ok h
    obtain ⟨others, last, hothers, h⟩ := bind_ok h
    obtain ⟨rfl, rfl⟩ := pure_ok h
    intro a ha
    rcases List.mem_cons.1 ha with rfl | ha
    · exact ⟨table, middle, hfirst⟩
    · exact times_ok hothers a ha

theorem length_times {play : Play σ α} : ∀ {count : Nat} {table after : Table σ} {values : List α},
    times play count table = .ok values after → values.length = count
  | 0, _, _, _, h => by
    obtain ⟨rfl, -⟩ := pure_ok h
    rfl
  | count + 1, _, _, _, h => by
    obtain ⟨first, _, -, h⟩ := bind_ok h
    obtain ⟨others, _, hothers, h⟩ := bind_ok h
    obtain ⟨rfl, -⟩ := pure_ok h
    rw [List.length_cons, length_times hothers]

end Play
end TabletopDice
