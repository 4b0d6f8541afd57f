import TabletopDice.Proofs.Magnitude
/-!
# Changes — what a run does to its table

A play is put together from few steps: it ends, reports, draws a number between bounds in order, looks a variable up
or gives one a value. `Play.Uses` says so of a play, together with the variables that it may read and assign and the
most numbers that it may draw. What this means for a run is said once (`Play.Uses.run`): from all tables with the same
source and the same values of the variables that may be read, the play ends in the same result and makes the same
change to the table.
-/
namespace TabletopDice

/-! ## Changes of the table -/

namespace Variables

theorem get?_set (memory : Variables) (name : String) (value : Int) (other : String) :
    (memory.set name value).get? other = if other = name then some value else memory.get? other := by
  unfold get? set
  rw [List.lookup_cons]
  by_cases h : other = name
  · rw [if_pos h, beq_iff_eq.2 h]
  · rw [if_neg h, beq_false_of_ne h]
    exact lookup_filter h memory.bindings

/-- The variables after values have been given to some of them, in order. -/
def write (memory : Variables) (written : List (String × Int)) : Variables :=
  written.foldl (fun memory binding => memory.set binding.1 binding.2) memory

/-- **A variable has the value that it was given last**, and its old one if it was given none. -/
theorem get?_write (name : String) : ∀ (written : List (String × Int)) (memory : Variables),
    (memory.write written).get? name = (written.reverse.lookup name).or (memory.get? name)
  | [], memory => rfl
  | (key, value) :: rest, memory => by
    have ih := get?_write name rest (memory.set key value)
    rw [get?_set] at ih
    rw [List.reverse_cons, List.lookup_append, Option.or_assoc, List.lookup_cons, List.lookup_nil]
    refine ih.trans (congrArg _ ?_)
    by_cases h : name = key
    · rw [if_pos h, beq_iff_eq.2 h]
      rfl
    · rw [if_neg h, beq_false_of_ne h]
      rfl

/-- A variable that was given no value keeps its own. -/
theorem get?_write_of_notMem {written : List (String × Int)} {name : String} (h : ∀ binding ∈ written, binding.1 ≠ name)
    (memory : Variables) : (memory.write written).get? name = memory.get? name := by
  have hnone : written.reverse.lookup name = none :=
    List.lookup_eq_none_iff.2 fun binding hb => by simpa using (h binding (List.mem_reverse.1 hb)).symm
  rw [get?_write, hnone, Option.none_or]

/-- **A variable that was given a value has it** whatever variables there were before. -/
theorem get?_write_of_mem {written : List (String × Int)} {name : String} (h : name ∈ written.map Prod.fst)
    (memory other : Variables) : (memory.write written).get? name = (other.write written).get? name := by
  rw [get?_write, get?_write]
  cases hlast : written.reverse.lookup name with
  | some value => rfl
  | none =>
    obtain ⟨binding, hb, rfl⟩ := List.mem_map.1 h
    have hne := List.lookup_eq_none_iff.1 hlast binding (List.mem_reverse.2 hb)
    exact absurd hne (by simp)

end Variables

/-- **What a run does to a table**: the source that it leaves, the draws that it makes, the values that it gives to
variables and the rows that it adds to the log, each in order. -/
structure Change (σ : Type) where
  source : σ
  drawn : Array Draw
  written : List (String × Int)
  reported : Array LogRow

namespace Change

variable {σ : Type}

/-- **A table after a change.** -/
def on (change : Change σ) (table : Table σ) : Table σ where
  source := change.source
  draws := table.draws ++ change.drawn
  memory := table.memory.write change.written
  log := table.log ++ change.reported

/-- A change that leaves the table as it is, but for the source. -/
def leaving (source : σ) : Change σ := ⟨source, #[], [], #[]⟩

/-- A change and then another. -/
def andThen (first second : Change σ) : Change σ :=
  ⟨second.source, first.drawn ++ second.drawn, first.written ++ second.written, first.reported ++ second.reported⟩

theorem on_leaving (table : Table σ) : (leaving table.source).on table = table := by
  simp [leaving, on, Variables.write]

theorem on_andThen (first second : Change σ) (table : Table σ) :
    (first.andThen second).on table = second.on (first.on table) := by
  simp [andThen, on, Variables.write, Array.append_assoc]

/-- **A change within bounds**: at most `n` draws, each between bounds in order, and values only for such variables. -/
structure Within (writes : String → Prop) (n : Nat) (change : Change σ) : Prop where
  drawn : change.drawn.size ≤ n
  ordered : ∀ draw ∈ change.drawn, draw.low ≤ draw.high
  written : ∀ binding ∈ change.written, writes binding.1

variable {writes : String → Prop} {m n : Nat}

theorem within_of_nothing {change : Change σ} (hdrawn : change.drawn = #[]) (hwritten : change.written = []) :
    change.Within writes 0 where
  drawn := by simp [hdrawn]
  ordered := by simp [hdrawn]
  written := by simp [hwritten]

theorem Within.more {change : Change σ} (h : change.Within writes m) (hle : m ≤ n) : change.Within writes n :=
  { h with drawn := Nat.le_trans h.drawn hle }

theorem Within.andThen {first second : Change σ} (h : first.Within writes m) (h' : second.Within writes n) :
    (first.andThen second).Within writes (m + n) where
  drawn := by
    rw [Change.andThen, Array.size_append]
    exact Nat.add_le_add h.drawn h'.drawn
  ordered draw hd := (Array.mem_append.1 hd).elim (h.ordered draw) (h'.ordered draw)
  written binding hb := (List.mem_append.1 hb).elim (h.written binding) (h'.written binding)

end Change

/-! ## Plays made of steps -/

/-- **Two tables look the same to a play**: they have the same source and the same values of the variables read. -/
structure Table.SameFor {σ : Type} (reads : String → Prop) (table other : Table σ) : Prop where
  source : other.source = table.source
  memory : ∀ name, reads name → other.memory.get? name = table.memory.get? name

namespace Table

variable {σ : Type} {reads : String → Prop}

theorem sameFor_self (table : Table σ) : Table.SameFor reads table table := ⟨rfl, fun _ _ => rfl⟩

theorem SameFor.on {table other : Table σ} (h : Table.SameFor reads table other) (change : Change σ) :
    Table.SameFor reads (change.on table) (change.on other) where
  source := rfl
  memory name hname := by
    have hsame := h.memory name hname
    simp only [Change.on, Variables.get?_write, hsame]

end Table

namespace Play

variable {σ α β : Type}

/-- The end of a run with a result, at a table. -/
def ended (result : Except Fault α) (table : Table σ) : EStateM.Result Fault (Table σ) α :=
  match result with
  | .ok a => .ok a table
  | .error fault => .error fault table

/-- **What a play uses.** It is made of steps of which at most `n` are draws; the draws are between bounds in order, and
only such variables are looked up or given a value. -/
inductive Uses [RandomSource σ] (reads writes : String → Prop) : Nat → {α : Type} → Play σ α → Prop
  | value {α : Type} (a : α) : Uses reads writes 0 (pure a : Play σ α)
  | fault {α : Type} (fault : Fault) : Uses reads writes 0 (throw fault : Play σ α)
  | reported (event : Event) : Uses reads writes 0 (report event)
  | drawn {low high : Int} : low ≤ high → Uses reads writes 1 (draw low high)
  | looked {name : String} : reads name → Uses reads writes 0 (Evaluation.lookUp name)
  | assigned {name : String} (value : Int) : writes name → Uses reads writes 0 (Evaluation.assign name value)
  | bind {α β : Type} {m n : Nat} {play : Play σ α} {next : α → Play σ β} : Uses reads writes m play →
      (∀ a, Uses reads writes n (next a)) → Uses reads writes (m + n) (play >>= next)
  | more {α : Type} {m n : Nat} {play : Play σ α} : Uses reads writes m play → m ≤ n → Uses reads writes n play

/-- **A run sees nothing of a table but its source and the variables that the play may read.** From all tables that are
the same in these it has the same result and makes the same change, within the bounds of the play. -/
def Sees (reads writes : String → Prop) (n : Nat) (play : Play σ α) : Prop :=
  ∀ table : Table σ, ∃ (result : Except Fault α) (change : Change σ), change.Within writes n ∧
    ∀ other, Table.SameFor reads table other → play other = ended result (change.on other)

section Steps

variable {reads writes : String → Prop} {m n : Nat}

/-- A play that changes no table that looks the same has the same result at each of them. -/
theorem sees_still {play : Play σ α}
    (h : ∀ table, ∃ result, ∀ other, Table.SameFor reads table other → play other = ended result other) :
    Sees reads writes 0 play := by
  intro table
  obtain ⟨result, hrun⟩ := h table
  refine ⟨result, .leaving table.source, Change.within_of_nothing rfl rfl, fun other hsame => ?_⟩
  rw [hrun other hsame, ← hsame.source, Change.on_leaving]

theorem sees_value (a : α) : Sees reads writes 0 (pure a : Play σ α) :=
  sees_still fun _ => ⟨.ok a, fun _ _ => rfl⟩

theorem sees_fault (fault : Fault) : Sees reads writes 0 (throw fault : Play σ α) :=
  sees_still fun _ => ⟨.error fault, fun _ _ => rfl⟩

theorem sees_report (event : Event) : Sees reads writes 0 (report event : Play σ Unit) := by
  by_cases hw : event.wording.Writable
  · intro table
    refine ⟨.ok (), ⟨table.source, #[], [], #[⟨event.level, event.logger, event.wording.text⟩]⟩,
      Change.within_of_nothing rfl rfl, fun other hsame => ?_⟩
    rw [report_writable hw]
    simp [ended, Change.on, Variables.write, ← hsame.source]
  · exact sees_still fun _ => ⟨.error .unwritable, fun other _ => report_unwritable hw other⟩

theorem sees_assign {name : String} (value : Int) (h : writes name) :
    Sees reads writes 0 (Evaluation.assign name value : Play σ Unit) := by
  intro table
  refine ⟨.ok (), ⟨table.source, #[], [(name, value)], #[]⟩, ⟨Nat.le_refl 0, by simp, by simpa using h⟩,
    fun other hsame => ?_⟩
  simp [ended, Change.on, Variables.write, ← hsame.source]
  rfl

theorem sees_draw [RandomSource σ] {low high : Int} (hle : low ≤ high) :
    Sees reads writes 1 (draw low high : Play σ Int) := by
  intro table
  cases hdraw : RandomSource.draw low high table.source with
  | mk answer next =>
    cases answer with
    | none =>
      refine ⟨.error .sourceFailed, .leaving next, (Change.within_of_nothing rfl rfl).more (Nat.zero_le 1),
        fun other hsame => ?_⟩
      rw [← hsame.source] at hdraw
      simp [draw, hdraw, ended, Change.on, Change.leaving, Variables.write]
    | some value =>
      refine ⟨.ok value, ⟨next, #[⟨low, high, value⟩], [], #[]⟩, ⟨Nat.le_refl 1, by simpa using hle, by simp⟩,
        fun other hsame => ?_⟩
      rw [← hsame.source] at hdraw
      simp [draw, hdraw, ended, Change.on, Variables.write]

/-- A play and then another. -/
theorem Sees.bind {play : Play σ α} {next : α → Play σ β} (h : Sees reads writes m play)
    (hnext : ∀ a, Sees reads writes n (next a)) : Sees reads writes (m + n) (play >>= next) := by
  intro table
  obtain ⟨result, first, hfirst, hrun⟩ := h table
  cases result with
  | error fault =>
    exact ⟨.error fault, first, hfirst.more (Nat.le_add_right _ _), fun other hsame => bind_error (hrun other hsame) _⟩
  | ok a =>
    obtain ⟨result, second, hsecond, hrest⟩ := hnext a (first.on table)
    refine ⟨result, first.andThen second, hfirst.andThen hsecond, fun other hsame => ?_⟩
    rw [bind_eq (hrun other hsame), hrest _ (hsame.on first), Change.on_andThen]

theorem Sees.more {play : Play σ α} (h : Sees reads writes m play) (hle : m ≤ n) :
    Sees reads writes n play := by
  intro table
  obtain ⟨result, change, hchange, hrun⟩ := h table
  exact ⟨result, change, hchange.more hle, hrun⟩

/-- Reading a variable that has a value reports nothing, and reading another one says that it is unbound. -/
theorem sees_lookUp {name : String} (h : reads name) :
    Sees reads writes 0 (Evaluation.lookUp name : Play σ Outcome) := by
  intro table
  have hget : ∀ other : Table σ, (get : Play σ (Table σ)) other = .ok other other := fun _ => rfl
  cases hvalue : table.memory.get? name with
  | some value =>
    have hfound : Sees reads writes 0 (pure (.simple value ("@" ++ name) none []) : Play σ Outcome) := sees_value _
    obtain ⟨result, change, hchange, hrun⟩ := hfound table
    refine ⟨result, change, hchange, fun other hsame => ?_⟩
    rw [← hrun other hsame, Evaluation.lookUp, bind_eq (hget other), hsame.memory name h, hvalue]
  | none =>
    have hreport : Sees reads writes 0 (report (.unbound name) : Play σ Unit) := sees_report _
    have hzero : Sees reads writes 0 (pure (.simple 0 ("@" ++ name) none []) : Play σ Outcome) := sees_value _
    obtain ⟨result, change, hchange, hrun⟩ := hreport.bind (fun _ => hzero) table
    refine ⟨result, change, hchange, fun other hsame => ?_⟩
    rw [← hrun other hsame, Evaluation.lookUp, bind_eq (hget other), hsame.memory name h, hvalue]

end Steps

/-- **A play made of steps sees no more than what it uses.** -/
theorem Uses.run [RandomSource σ] {reads writes : String → Prop} {n : Nat} {play : Play σ α}
    (h : Uses reads writes n play) : Sees reads writes n play := by
  induction h with
  | value a => exact sees_value a
  | fault fault => exact sees_fault fault
  | reported event => exact sees_report event
  | drawn hle => exact sees_draw hle
  | looked hname => exact sees_lookUp hname
  | assigned value hname => exact sees_assign value hname
  | bind _ _ ih ihnext => exact ih.bind ihnext
  | more _ hle ih => exact ih.more hle

end Play
end TabletopDice
