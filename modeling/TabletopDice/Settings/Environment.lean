import TabletopDice.Settings.Assignment
import TabletopDice.Settings.Reference
/-!
# Environment — variables from outside, and files that add to them

A settings file assigns variables. What it assigns holds only where the environment has no variable of that name yet,
even an empty one; within one file the last entry of a name holds, and one without a value assigns nothing. A reference
in a value is to the environment, and where that has no such variable, to the entries before.
-/
namespace TabletopDice

/-- **The variables from outside.** -/
structure Environment where
  bindings : List (String × String)
  deriving DecidableEq, Repr

/-- Why a variable cannot be added to an environment. -/
inductive EnvironmentFault
  /-- A name holds an equals sign. -/
  | equalsInName
  /-- A name or a value holds the null character. -/
  | nullCharacter
  deriving DecidableEq, Repr

/-- The message of a variable that cannot be added. -/
def EnvironmentFault.message : EnvironmentFault → String
  | equalsInName => "illegal environment variable name"
  | nullCharacter => "embedded null byte"

namespace Environment

/-- The value of a variable. -/
def get? (environment : Environment) (name : String) : Option String := environment.bindings.lookup name

/-- **The environment with one variable more**, unless it has one of that name. -/
def addMissing (environment : Environment) (name value : String) : Except EnvironmentFault Environment :=
  if (environment.get? name).isSome then .ok environment
  else if name.toList.contains '\x00' || value.toList.contains '\x00' then .error .nullCharacter
  else if name.toList.contains '=' then .error .equalsInName
  else .ok ⟨(name, value) :: environment.bindings⟩

/-! ## Settings files -/

/-- What a file assigns so far, each name at the place where it first came. -/
abbrev Assigned := List (String × Option String)

/-- What is assigned with one entry more. -/
def Assigned.record (name : String) (value : Option String) : Assigned → Assigned
  | [] => [(name, value)]
  | (other, old) :: rest => if other = name then (name, value) :: rest else (other, old) :: record name value rest

/-- **The text that a reference stands for**: nothing for a name that has no value, and the text that stands in, if there
is one, for a name that is not known. -/
def referenced (environment : Environment) (assigned : Assigned) (reference : Reference) : String :=
  match environment.get? reference.name with
  | some value => value
  | none => match assigned.lookup reference.name with
    | some value => value.getD ""
    | none => reference.fallback.getD ""

/-- What is assigned after one entry, its references resolved. -/
def assign (environment : Environment) (assigned : Assigned) (entry : Assignment) : Assigned :=
  assigned.record entry.name (entry.value.map fun value =>
    String.ofList (Reference.resolveAll (environment.referenced assigned) value.toList))

/-- **The environment with what a settings file adds.** -/
def load (environment : Environment) (text : String) : Except EnvironmentFault Environment :=
  ((Assignment.ofText text).foldl environment.assign []).foldlM (fun environment (name, value) =>
    match value with
    | some value => environment.addMissing name value
    | none => .ok environment) environment

end Environment
end TabletopDice
