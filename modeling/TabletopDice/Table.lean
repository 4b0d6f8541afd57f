import TabletopDice.Event
import TabletopDice.Random
/-!
# Table — the state of play

At the table stand the source of randomness, the draws made so far, the variables and the log. A play is a step
that may change the table and ends in a value or a fault. The table is kept at a fault: what was drawn, assigned and
reported before it stays.
-/
namespace TabletopDice

/-- A draw: its bounds and its number. -/
structure Draw where
  low : Int
  high : Int
  value : Int
  deriving DecidableEq, Repr

/-- The values of variables. -/
structure Variables where
  bindings : List (String × Int)
  deriving DecidableEq, Repr

namespace Variables

/-- No variables. -/
def empty : Variables := ⟨[]⟩

/-- **The value of a variable**, if it has one. -/
def get? (memory : Variables) (name : String) : Option Int := memory.bindings.lookup name

/-- **The variables with one of them given a value.** -/
def set (memory : Variables) (name : String) (value : Int) : Variables :=
  ⟨(name, value) :: memory.bindings.filter fun binding => binding.1 != name⟩

/-- The variables in the order of their names. -/
def sorted (memory : Variables) : List (String × Int) :=
  memory.bindings.mergeSort fun a b => decide (a.1 ≤ b.1)

end Variables

/-- **The state of play.** -/
structure Table (σ : Type) where
  source : σ
  draws : Array Draw
  memory : Variables
  log : Array LogRow

namespace Table

/-- A table before the first draw. -/
def new {σ : Type} (source : σ) : Table σ := ⟨source, #[], .empty, #[]⟩

end Table

/-- **A play**: a step at the table that ends in a value or a fault. -/
abbrev Play (σ α : Type) := EStateM Fault (Table σ) α

namespace Play

variable {σ α : Type}

/-- A play that ends in a rule error. -/
def refuse (error : RuleError) : Play σ α := throw (.ofRule error)

/-- A play that changes nothing. -/
def ofExcept : Except Fault α → Play σ α
  | .ok a => pure a
  | .error fault => throw fault

/-- A play that changes nothing and may only break a rule. -/
def ofRule : Except RuleError α → Play σ α
  | .ok a => pure a
  | .error error => refuse error

/-- **Reports an event**: writes its message, and adds it to the log. -/
def report (event : Event) : Play σ Unit := do
  let message ← ofExcept event.message
  modify fun table => { table with log := table.log.push ⟨event.level, event.logger, message⟩ }

/-- **Draws a number** between two bounds. -/
def draw [RandomSource σ] (low high : Int) : Play σ Int := fun table =>
  match RandomSource.draw low high table.source with
  | (some value, source) => .ok value { table with source, draws := table.draws.push ⟨low, high, value⟩ }
  | (none, source) => .error .sourceFailed { table with source }

/-- Starts the source afresh from a seed, or from none. -/
def reseed [RandomSource σ] (seed : Option Int) : Play σ Unit :=
  modify fun table => { table with source := RandomSource.reseed seed table.source }

/-- Forgets every variable. -/
def forget : Play σ Unit := modify fun table => { table with memory := .empty }

/-- **The results of a play made so many times.** -/
def times (play : Play σ α) : Nat → Play σ (List α)
  | 0 => pure []
  | count + 1 => do
    let first ← play
    let others ← times play count
    pure (first :: others)

end Play
end TabletopDice
