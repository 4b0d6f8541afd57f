import TabletopDice.Proofs.Places
import TabletopDice.Proofs.Play
/-!
# Agreement — two evaluations side by side

Two plays go alike if from related tables they end in related values, or in the same fault, at related tables. A roll
goes like itself from any two tables with the same source, as it looks at nothing else (`roll_alike`). An expression
goes like itself if the variables that it reads have the same values at both tables (`evaluate_alike`), and statements
that differ by their places go alike (`evaluateStatements_alike`).
-/
namespace TabletopDice

/-! ## Plays that go alike -/

namespace Play

variable {σ α β γ δ : Type} {R : Table σ → Table σ → Prop}

/-- **Two ends of plays agree**: related values or the same fault, at related tables. -/
inductive Agree (R : Table σ → Table σ → Prop) (V : α → β → Prop) :
    EStateM.Result Fault (Table σ) α → EStateM.Result Fault (Table σ) β → Prop
  | ok {a : α} {b : β} {t u : Table σ} : V a b → R t u → Agree R V (.ok a t) (.ok b u)
  | error {t u : Table σ} (fault : Fault) : R t u → Agree R V (.error fault t) (.error fault u)

/-- **Two plays go alike**: from related tables they end in agreement. -/
def Alike (R : Table σ → Table σ → Prop) (V : α → β → Prop) (p : Play σ α) (q : Play σ β) : Prop :=
  ∀ t u, R t u → Agree R V (p t) (q u)

theorem Agree.trans {S T : Table σ → Table σ → Prop} {V : α → β → Prop} {W : β → γ → Prop} {X : α → γ → Prop}
    {p : EStateM.Result Fault (Table σ) α} {q : EStateM.Result Fault (Table σ) β}
    {r : EStateM.Result Fault (Table σ) γ} (htables : ∀ t u v, R t u → S u v → T t v)
    (hvalues : ∀ a b c, V a b → W b c → X a c) (h : Agree R V p q) (h' : Agree S W q r) : Agree T X p r := by
  cases h with
  | ok hab htu => cases h' with
    | ok hbc huv => exact .ok (hvalues _ _ _ hab hbc) (htables _ _ _ htu huv)
  | error fault htu => cases h' with
    | error _ huv => exact .error fault (htables _ _ _ htu huv)

theorem Alike.symm {V : α → β → Prop} {p : Play σ α} {q : Play σ β} (h : Alike Eq V p q) :
    Alike Eq (fun b a => V a b) q p := by
  intro t u htu
  have hends := h u t htu.symm
  generalize p u = left, q t = right at hends
  cases hends with
  | ok hab heq => exact .ok hab heq.symm
  | error fault heq => exact .error fault heq.symm

/-- A play goes like itself from one table, and its values are as they always are. -/
theorem alike_self {P : α → Prop} {p : Play σ α} (h : ∀ {t u : Table σ} {a : α}, p t = .ok a u → P a) :
    Alike Eq (fun a b => a = b ∧ P a) p p := by
  intro t u htu
  subst htu
  cases hp : p t with
  | ok a after => exact .ok ⟨rfl, h hp⟩ rfl
  | error fault after => exact .error fault rfl

theorem alike_pure {V : α → β → Prop} {a : α} {b : β} (h : V a b) :
    Alike R V (pure a : Play σ α) (pure b : Play σ β) := fun _ _ htu => .ok h htu

theorem alike_refuse {V : α → β → Prop} (error : RuleError) :
    Alike R V (refuse error : Play σ α) (refuse error : Play σ β) := fun _ _ htu => .error (.ofRule error) htu

theorem Alike.bind {V : α → β → Prop} {W : γ → δ → Prop} {p : Play σ α} {q : Play σ β} {f : α → Play σ γ}
    {g : β → Play σ δ} (h : Alike R V p q) (hnext : ∀ a b, V a b → Alike R W (f a) (g b)) :
    Alike R W (p >>= f) (q >>= g) := by
  intro t u htu
  change Agree R W (EStateM.bind p f t) (EStateM.bind q g u)
  unfold EStateM.bind
  have hends := h t u htu
  generalize p t = left, q u = right at hends
  cases hends with
  | ok hab htu' => exact hnext _ _ hab _ _ htu'
  | error fault htu' => exact .error fault htu'

/-- The next plays are compared at one value, as the first plays end in the same. -/
theorem Alike.next {W : γ → δ → Prop} {p q : Play σ α} {f : α → Play σ γ} {g : α → Play σ δ} (h : Alike R Eq p q)
    (hnext : ∀ a, Alike R W (f a) (g a)) : Alike R W (p >>= f) (q >>= g) :=
  h.bind fun a b hab => by subst hab; exact hnext a

theorem Alike.map {p q : Play σ α} (h : Alike R Eq p q) (f : α → β) : Alike R Eq (f <$> p) (f <$> q) := by
  intro t u htu
  change Agree R Eq (EStateM.map f p t) (EStateM.map f q u)
  unfold EStateM.map
  have hends := h t u htu
  generalize p t = left, q u = right at hends
  cases hends with
  | ok hab htu' => exact .ok (congrArg f hab) htu'
  | error fault htu' => exact .error fault htu'

theorem alike_ofExcept (result : Except Fault α) : Alike R Eq (ofExcept result) (ofExcept result) := by
  cases result with
  | ok a => exact alike_pure rfl
  | error fault => exact fun _ _ htu => .error fault htu

theorem alike_ofRule (result : Except RuleError α) : Alike R Eq (ofRule result) (ofRule result) := by
  cases result with
  | ok a => exact alike_pure rfl
  | error error => exact alike_refuse error

theorem Alike.times {p q : Play σ α} (h : Alike R Eq p q) : ∀ count, Alike R Eq (times p count) (times q count)
  | 0 => alike_pure rfl
  | count + 1 => h.next fun _ => (h.times count).next fun _ => alike_pure rfl

end Play

/-! ## Rolls -/

/-- **A relation between tables that drawing and reporting keep**, whatever is reported. -/
structure KeptByRolls {σ : Type} (R : Table σ → Table σ → Prop) : Prop where
  source {t u : Table σ} : R t u → t.source = u.source
  drawn {t u : Table σ} (next : σ) (draw : Draw) : R t u →
    R { t with source := next, draws := t.draws.push draw } { u with source := next, draws := u.draws.push draw }
  failed {t u : Table σ} (next : σ) : R t u → R { t with source := next } { u with source := next }
  reported {t u : Table σ} (row row' : LogRow) : R t u →
    R { t with log := t.log.push row } { u with log := u.log.push row' }

section Rolls

open Play

variable {σ : Type} {R : Table σ → Table σ → Prop}

/-- **Reports go alike** if the messages of both can be written or neither. -/
theorem report_alike (hR : KeptByRolls R) {event event' : Event}
    (h : event.wording.Writable ↔ event'.wording.Writable) :
    Alike R Eq (report event : Play σ Unit) (report event') := by
  intro t u htu
  by_cases hw : event.wording.Writable
  · rw [report_writable hw, report_writable (h.1 hw)]
    exact .ok rfl (hR.reported _ _ htu)
  · rw [report_unwritable hw, report_unwritable fun hw' => hw (h.2 hw')]
    exact .error .unwritable htu

variable [RandomSource σ]

theorem draw_alike (hR : KeptByRolls R) (low high : Int) :
    Alike R Eq (draw low high : Play σ Int) (draw low high) := by
  intro t u htu
  unfold draw
  rw [hR.source htu]
  cases RandomSource.draw low high u.source with
  | mk answer next =>
    cases answer with
    | none => exact .error .sourceFailed (hR.failed next htu)
    | some value => exact .ok rfl (hR.drawn next ⟨low, high, value⟩ htu)

namespace Roller

theorem die_alike (hR : KeptByRolls R) (sides : Int) : Alike R Eq (die sides : Play σ Int) (die sides) := by
  unfold die
  split
  · exact alike_refuse _
  · exact draw_alike hR 1 sides

theorem followers_alike (hR : KeptByRolls R) (sides : Int) : ∀ (budget : Nat) (roll : Int),
    Alike R Eq (followers sides budget roll : Play σ (List Int)) (followers sides budget roll)
  | 0, roll => alike_pure rfl
  | budget + 1, roll => by
    unfold followers
    split
    · exact (draw_alike hR 1 sides).next fun next => (followers_alike hR sides budget next).next fun _ => alike_pure rfl
    · exact alike_pure rfl

theorem acing_alike (hR : KeptByRolls R) (budget sides : Int) :
    Alike R Eq (acing budget sides : Play σ Die) (acing budget sides) := by
  refine (die_alike hR sides).next fun first => (followers_alike hR sides _ first).next fun rest => ?_
  dsimp only
  split
  · exact (report_alike hR .rfl).next fun _ => alike_pure rfl
  · exact alike_pure rfl

end Roller

namespace Evaluation

open Roller

variable (limits : Limits)

theorem rollDice_alike (hR : KeptByRolls R) (acing : Bool) (sides : Int) (count : Nat) :
    Alike R Eq (rollDice limits acing sides count : Play σ (List Die)) (rollDice limits acing sides count) := by
  unfold rollDice
  split
  · exact (acing_alike hR _ _).times count
  · exact ((die_alike hR sides).map _).times count

theorem rollGeneric_alike (hR : KeptByRolls R) (roll : GenericRoll) :
    Alike R Eq (rollGeneric limits roll : Play σ Outcome) (rollGeneric limits roll) := by
  refine (alike_ofRule _).next fun count => (alike_ofRule _).next fun sides => ?_
  refine (rollDice_alike limits hR roll.acing sides count).next fun dice => ?_
  cases roll.reading with
  | successes suffix => exact alike_pure rfl
  | total keep target => exact (alike_ofRule _).next fun _ => alike_pure rfl

theorem rollWild_alike (hR : KeptByRolls R) (spelling : String) (traitSides wildSides target interval : Int) :
    Alike R Eq (rollWild limits spelling traitSides wildSides target interval : Play σ Outcome)
      (rollWild limits spelling traitSides wildSides target interval) :=
  (acing_alike hR _ _).next fun _ => (acing_alike hR _ _).next fun _ => (alike_ofRule _).next fun _ => alike_pure rfl

theorem rollExtra_alike (hR : KeptByRolls R) (spelling : String) (sides : Int) (target : Option TargetSuffix) :
    Alike R Eq (rollExtra limits spelling sides target : Play σ Outcome) (rollExtra limits spelling sides target) :=
  (acing_alike hR _ _).next fun _ => (alike_ofRule _).next fun _ => alike_pure rfl

/-- **A roll goes like itself** from tables that have the same source. -/
theorem roll_alike (hR : KeptByRolls R) (term : Roll) :
    Alike R Eq (roll limits term : Play σ Outcome) (roll limits term) := by
  cases term with
  | generic roll => exact rollGeneric_alike limits hR roll
  | savage roll =>
    refine (alike_ofRule _).next fun count => (alike_ofRule _).next fun trait => (alike_ofRule _).next fun wild => ?_
    exact ((rollWild_alike limits hR _ _ _ _ _).times count).map together
  | extras roll =>
    refine (alike_ofRule _).next fun count => (alike_ofRule _).next fun sides => ?_
    exact ((rollExtra_alike limits hR _ _ _).times count).map together
  | fudge count =>
    refine (alike_ofRule _).next fun dice => Alike.next (Alike.times ?_ dice) fun _ => alike_pure rfl
    exact (die_alike hR 6).next fun _ => alike_ofExcept _
  | carcosa count =>
    refine (alike_ofRule _).next fun dice => (die_alike hR 6).next fun size => (alike_ofExcept _).next fun sides => ?_
    exact ((die_alike hR _).times dice).next fun _ => alike_pure rfl
  | weg count =>
    refine (alike_ofRule _).next fun count => ((die_alike hR 6).times _).next fun dice => ?_
    exact (acing_alike hR _ _).next fun _ => alike_pure rfl
  | span low high => exact (draw_alike hR _ _).next fun _ => alike_pure rfl

end Evaluation

end Rolls

/-! ## Expressions -/

/-- **The variables that an expression reads.** -/
def Expr.reads : Expr → List String
  | literal .. | roll .. => []
  | var name _ => [name]
  | signed _ operand _ => operand.reads
  | binary _ left right _ => left.reads ++ right.reads
  | unbounded operand _ => operand.reads
  | atLeast operand minimum _ => operand.reads ++ minimum.reads
  | atMost operand maximum _ => operand.reads ++ maximum.reads
  | between operand minimum maximum _ => operand.reads ++ (minimum.reads ++ maximum.reads)
  | assign _ value _ => value.reads

/-- **A relation between tables that evaluation keeps**: some variables have the same values at both, and it lasts when
a variable is given the same value at both. -/
structure KeptByVariables {σ : Type} (known : String → Prop) (R : Table σ → Table σ → Prop) : Prop
    extends KeptByRolls R where
  read {t u : Table σ} {name : String} : known name → R t u → t.memory.get? name = u.memory.get? name
  assigned {t u : Table σ} (name : String) (value : Int) : R t u →
    R { t with memory := t.memory.set name value } { u with memory := u.memory.set name value }

namespace Evaluation

open Play

variable {σ : Type} {known : String → Prop} {R : Table σ → Table σ → Prop}

theorem lookUp_alike (hR : KeptByVariables known R) {name : String} (hname : known name) :
    Alike R Eq (lookUp name : Play σ Outcome) (lookUp name) := by
  have hget : Alike R (fun t u => t.memory.get? name = u.memory.get? name) (get : Play σ (Table σ)) get :=
    fun t u htu => .ok (hR.read hname htu) htu
  refine hget.bind fun t u htu => ?_
  rw [htu]
  cases u.memory.get? name with
  | some value => exact alike_pure rfl
  | none => exact (report_alike hR.toKeptByRolls .rfl).next fun _ => alike_pure rfl

theorem assign_alike (hR : KeptByVariables known R) (name : String) (value : Int) :
    Alike R Eq (assign name value : Play σ Unit) (assign name value) :=
  fun _ _ htu => .ok rfl (hR.assigned name value htu)

variable [RandomSource σ] (limits : Limits)

/-- **An expression goes like itself** from tables that give the variables it reads the same values. -/
theorem evaluate_alike (hR : KeptByVariables known R) (expression : Expr) (h : ∀ name ∈ expression.reads, known name) :
    Alike R Eq (evaluate limits expression : Play σ Outcome) (evaluate limits expression) := by
  induction expression with
  | literal value position => exact alike_pure rfl
  | var name position => exact lookUp_alike hR (h name List.mem_cons_self)
  | roll term position => exact roll_alike limits hR.toKeptByRolls term
  | signed sign operand position ih =>
    cases sign with
    | plus => exact ih h
    | minus => exact (ih h).next fun _ => alike_ofExcept _
  | binary operator left right position ihl ihr =>
    have hl := ihl fun name hn => h name (List.mem_append_left _ hn)
    have hr := ihr fun name hn => h name (List.mem_append_right _ hn)
    exact hl.next fun _ => hr.next fun _ => alike_ofExcept _
  | unbounded operand position ih => exact (ih h).next fun _ => alike_ofRule _
  | atLeast operand bound position ih ihb =>
    have ho := ih fun name hn => h name (List.mem_append_left _ hn)
    have hb := ihb fun name hn => h name (List.mem_append_right _ hn)
    exact ho.next fun _ => hb.next fun _ => alike_ofRule _
  | atMost operand bound position ih ihb =>
    have ho := ih fun name hn => h name (List.mem_append_left _ hn)
    have hb := ihb fun name hn => h name (List.mem_append_right _ hn)
    exact ho.next fun _ => hb.next fun _ => alike_ofRule _
  | between operand low high position ih ihl ihh =>
    have ho := ih fun name hn => h name (List.mem_append_left _ hn)
    have hl := ihl fun name hn => h name (List.mem_append_right _ (List.mem_append_left _ hn))
    have hh := ihh fun name hn => h name (List.mem_append_right _ (List.mem_append_right _ hn))
    exact ho.next fun _ => hl.next fun _ => hh.next fun _ => alike_ofRule _
  | assign name value position ih =>
    exact (ih h).next fun outcome => (assign_alike hR name outcome.value).next fun _ => alike_pure rfl

/-! ## Statements -/

theorem evaluateAll_alike (hR : KeptByVariables known R) : ∀ (expressions : List Expr),
    (∀ e ∈ expressions, ∀ name ∈ e.reads, known name) →
      Alike R Eq (evaluateAll limits expressions : Play σ (List Outcome)) (evaluateAll limits expressions)
  | [], h => alike_pure rfl
  | expression :: rest, h => by
    have hfirst := evaluate_alike limits hR expression (h expression List.mem_cons_self)
    have hrest := evaluateAll_alike hR rest fun e he => h e (List.mem_cons_of_mem _ he)
    exact hfirst.next fun _ => hrest.next fun _ => alike_pure rfl

theorem modifierValue_alike (hR : KeptByVariables known R) (modifier : Option (Sign × Expr))
    (h : ∀ m ∈ modifier, ∀ name ∈ m.2.reads, known name) :
    Alike R Eq (modifierValue limits modifier : Play σ Int) (modifierValue limits modifier) := by
  match modifier, h with
  | none, h => exact alike_pure rfl
  | some (.plus, operand), h => exact (evaluate_alike limits hR operand (h _ rfl)).next fun _ => alike_pure rfl
  | some (.minus, operand), h => exact (evaluate_alike limits hR operand (h _ rfl)).next fun _ => alike_pure rfl

theorem evaluateStatement_alike (hR : KeptByVariables known R) (statement : Statement)
    (h : ∀ e ∈ statement.trees, ∀ name ∈ e.reads, known name) :
    Alike R Eq (evaluateStatement limits statement : Play σ Outcome) (evaluateStatement limits statement) := by
  cases statement with
  | once expression position => exact evaluate_alike limits hR expression (h expression List.mem_cons_self)
  | times count expression position =>
    have he := evaluate_alike limits hR expression (h expression List.mem_cons_self)
    exact (alike_ofRule _).next fun count => (he.times count).next fun _ => alike_pure rfl
  | batch count expressions position =>
    have he := evaluateAll_alike limits hR expressions h
    exact (alike_ofRule _).next fun count => ((he.map repeated).times count).next fun _ => alike_pure rfl
  | ironsworn modifier position =>
    have hm : ∀ m ∈ modifier, ∀ name ∈ m.2.reads, known name := by
      intro m hm
      cases hm
      exact h m.2 List.mem_cons_self
    refine (modifierValue_alike limits hR modifier hm).next fun _ => ?_
    have hdie := fun sides => Roller.die_alike hR.toKeptByRolls sides
    exact (hdie 6).next fun _ => (hdie 10).next fun _ => (hdie 10).next fun _ => alike_pure rfl
  | flag name position => exact alike_pure rfl

/-- **Statements that differ by their places go alike.** -/
theorem evaluateStatements_alike (hR : KeptByVariables known R) : ∀ {statements others : List Statement},
    statements.map Statement.unplaced = others.map Statement.unplaced →
      (∀ e ∈ statements.flatMap Statement.trees, ∀ name ∈ e.reads, known name) →
      Alike R Eq (evaluateStatements limits statements : Play σ (List Outcome)) (evaluateStatements limits others)
  | [], [], _, h => alike_pure rfl
  | [], _ :: _, hsame, _ => by cases hsame
  | _ :: _, [], hsame, _ => by cases hsame
  | statement :: rest, other :: others, hsame, h => by
    obtain ⟨hfirst, hrest⟩ := List.cons.inj hsame
    rw [List.flatMap_cons] at h
    have hstatement := evaluateStatement_alike limits hR statement fun e he => h e (List.mem_append_left _ he)
    have hothers := evaluateStatements_alike hR hrest fun e he => h e (List.mem_append_right _ he)
    have hequal : (evaluateStatement limits statement : Play σ Outcome) = evaluateStatement limits other := by
      rw [← evaluateStatement_unplaced limits statement, hfirst, evaluateStatement_unplaced]
    rw [evaluateStatements, evaluateStatements, ← hequal]
    refine (report_alike hR.toKeptByRolls (by simp)).next fun _ => hstatement.next fun _ => hothers.next fun _ => ?_
    exact alike_pure rfl

/-- **A command goes like itself** if the variables that it reads have the same values. -/
theorem sameCommand_alike (hR : KeptByVariables known R) (command : Command)
    (h : ∀ e ∈ command.statements.flatMap Statement.trees, ∀ name ∈ e.reads, known name) :
    Alike R Eq (evaluateCommand limits command : Play σ Outcome) (evaluateCommand limits command) := by
  rw [Command.statements, List.flatMap_cons] at h
  have hfirst := evaluateStatement_alike limits hR command.first fun e he => h e (List.mem_append_left _ he)
  have hothers := evaluateStatements_alike limits hR (rfl : command.others.map Statement.unplaced = _) fun e he =>
    h e (List.mem_append_right _ he)
  refine (report_alike hR.toKeptByRolls (by simp)).next fun _ => hfirst.next fun _ => hothers.next fun _ => ?_
  exact alike_pure rfl

end Evaluation

end TabletopDice
