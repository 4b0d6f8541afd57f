import TabletopDice.Text.Numeral
/-!
# Grammar — how arguments are read

A grammar has switches and at most one operand. Arguments are labelled first: an argument that begins with a hyphen is a
switch, in full or by a beginning that only one switch has, unless it is a hyphen alone, a negative number, or holds a
blank; after two hyphens nothing is a switch. Then the arguments are taken from left to right. What a grammar fills in
is a record of type `α`.
-/
namespace TabletopDice
namespace CommandLine

/-- What reading arguments comes to. -/
inductive Parsed (α : Type)
  /-- Help is asked for. -/
  | help
  /-- The arguments do not fit the grammar. -/
  | misuse
  /-- The record, and whether arguments are left over. -/
  | done (record : α) (leftOver : Bool)

/-- What a switch does to the record. -/
inductive Action (α : Type)
  | help
  | set (update : α → α)
  /-- The switch takes a value; there is no record if the value is not acceptable. -/
  | take (update : String → α → Option α)

/-- A switch with its spellings. -/
structure Switch (α : Type) where
  spellings : List String
  action : Action α

/-- What stands without a hyphen. -/
inductive Operand (α : Type)
  | nothing
  /-- One argument, which must be there. -/
  | one (update : String → α → α)
  /-- A word that decides how all arguments after it are read; it may be missing. -/
  | word (proceed : String → List String → α → Parsed α)

/-- **A grammar of arguments.** -/
structure Grammar (α : Type) where
  switches : List (Switch α)
  operand : Operand α

/-! ## Labelling -/

/-- What follows the spelling of a switch in the same argument: nothing, or a text, after an equals sign or directly. -/
inductive Attached
  | nothing
  | equals (text : String)
  | direct (text : List Char)
  deriving DecidableEq, Repr

/-- What an argument is. -/
inductive Role (α : Type)
  | plain
  /-- The two hyphens after which everything is plain. -/
  | divider
  | known (switch : Switch α) (spelling : String) (attached : Attached)
  | unknown

/-- An argument and what it is. -/
structure Labelled (α : Type) where
  argument : String
  role : Role α

variable {α : Type}

/-- A line feed at the end does not count. -/
def withoutLineEnd (cs : List Char) : List Char := if cs.getLast? == some '\n' then cs.dropLast else cs

/-- **A negative number**: a hyphen, then digits, or digits after a point with or without digits before it. -/
def isNegativeNumber : List Char → Bool
  | '-' :: rest =>
    let body := withoutLineEnd rest
    match body.dropWhile Text.isDigit with
    | [] => !body.isEmpty
    | '.' :: places => !places.isEmpty && places.all Text.isDigit
    | _ => false
  | _ => false

/-- The text before the first equals sign, and the text after it. -/
def splitAtEquals (argument : String) : String × Option String :=
  let cs := argument.toList
  match cs.dropWhile (· != '=') with
  | [] => (argument, none)
  | _ :: value => (String.ofList (cs.takeWhile (· != '=')), some (String.ofList value))

/-- The spellings of all switches. -/
def spelled (switches : List (Switch α)) : List (Switch α × String) :=
  switches.flatMap fun switch => switch.spellings.map fun spelling => (switch, spelling)

/-- The switch with that spelling. -/
def switch? (switches : List (Switch α)) (spelling : String) : Option (Switch α) :=
  ((spelled switches).find? fun entry => entry.2 == spelling).map Prod.fst

/-- What is attached by an equals sign, if there is one. -/
def attachedBy : Option String → Attached
  | none => .nothing
  | some text => .equals text

/-- The switches of which an argument with two hyphens is a beginning, and those that an argument with one hyphen
begins with. -/
def candidates (switches : List (Switch α)) (argument : String) : List (Role α) :=
  match argument.toList with
  | '-' :: '-' :: _ =>
    let (start, value) := splitAtEquals argument
    ((spelled switches).filter fun entry => start.toList.isPrefixOf entry.2.toList).map fun entry =>
      .known entry.1 entry.2 (attachedBy value)
  | '-' :: letter :: rest =>
    ((spelled switches).filter fun entry => entry.2.toList == ['-', letter]).map fun entry =>
      .known entry.1 entry.2 (.direct rest)
  | _ => []

/-- **What an argument is**; nothing if it is the beginning of several switches. -/
def role? (switches : List (Switch α)) (argument : String) : Option (Role α) :=
  if argument.toList.head? != some '-' then some .plain
  else match switch? switches argument with
    | some switch => some (.known switch argument .nothing)
    | none =>
      if argument == "-" then some .plain
      else match splitAtEquals argument with
        | (spelling, some value) => match switch? switches spelling with
          | some switch => some (.known switch spelling (.equals value))
          | none => fromCandidates
        | (_, none) => fromCandidates
where
  /-- What an argument is that spells no switch in full. -/
  fromCandidates : Option (Role α) :=
    match candidates switches argument with
    | [role] => some role
    | _ :: _ :: _ => none
    | [] =>
      if isNegativeNumber argument.toList || argument.toList.contains ' ' then some .plain else some .unknown

/-- **All arguments and what they are**; nothing if one of them is the beginning of several switches. -/
def label? (switches : List (Switch α)) : List String → Option (List (Labelled α))
  | [] => some []
  | argument :: rest =>
    if argument == "--" then some (⟨argument, .divider⟩ :: rest.map fun plain => ⟨plain, .plain⟩)
    else match role? switches argument, label? switches rest with
      | some role, some labelled => some (⟨argument, role⟩ :: labelled)
      | _, _ => none

/-! ## Taking -/

/-- A switch of one letter has more letters after it, each of them a switch of its own. The first that is none ends the
reading; a hyphen or an equals sign is an error. -/
def helpLetters (letter : Char) : List Char → Bool
  | [] => true
  | c :: rest =>
    if c = '-' then false
    else if c = letter then (if rest.head? == some '=' then false else helpLetters letter rest)
    else true

/-- What a switch that has something attached does to the record. Only help has a spelling of one letter. -/
def takeAttached (switch : Switch α) (spelling : String) (attached : Attached) (record : α) : Parsed α :=
  match switch.action, attached with
  | .take update, .equals text => match update text record with
    | some record => .done record false
    | none => .misuse
  | .help, .direct text => if helpLetters (spelling.toList.getLastD '-') text then .help else .misuse
  | _, _ => .misuse

/-- How far the reading is: what has been filled in, whether the operand is still to come, and whether arguments are
left over. -/
structure Progress (α : Type) where
  record : α
  pending : Bool
  leftOver : Bool

/-- **The end of the reading**: an operand that must be there may not be missing. -/
def finish (operand : Operand α) (progress : Progress α) : Parsed α :=
  match operand with
  | .one _ => if progress.pending then .misuse else .done progress.record progress.leftOver
  | _ => .done progress.record progress.leftOver

/-- The result of reading the arguments after a word; what was left over before the word still is. -/
def withLeftOver (leftOver : Bool) : Parsed α → Parsed α
  | .done record more => .done record (leftOver || more)
  | other => other

/-- **Labelled arguments taken from left to right.** Two hyphens may stand before the operand or right after it. -/
def takeAll (operand : Operand α) (progress : Progress α) : List (Labelled α) → Parsed α
  | [] => finish operand progress
  | ⟨_, .unknown⟩ :: rest => takeAll operand { progress with leftOver := true } rest
  | ⟨_, .known switch _ .nothing⟩ :: rest => match switch.action, rest with
    | .help, _ => .help
    | .set update, rest => takeAll operand { progress with record := update progress.record } rest
    | .take update, ⟨value, .plain⟩ :: rest => match update value progress.record with
      | some record => takeAll operand { progress with record } rest
      | none => .misuse
    | .take _, _ => .misuse
  | ⟨_, .known switch spelling attached⟩ :: rest =>
    match takeAttached switch spelling attached progress.record with
    | .done record _ => takeAll operand { progress with record } rest
    | other => other
  | ⟨_, .divider⟩ :: rest => match operand, progress.pending, rest with
    | .one update, true, ⟨argument, _⟩ :: rest =>
      takeAll operand { progress with record := update argument progress.record, pending := false } rest
    | _, _, _ => .misuse
  | ⟨argument, .plain⟩ :: rest => match operand, progress.pending, rest with
    | .word proceed, true, rest =>
      withLeftOver progress.leftOver (proceed argument (rest.map Labelled.argument) progress.record)
    | .one update, true, ⟨_, .divider⟩ :: rest =>
      takeAll operand { progress with record := update argument progress.record, pending := false } rest
    | .one update, true, rest =>
      takeAll operand { progress with record := update argument progress.record, pending := false } rest
    | _, _, rest => takeAll operand { progress with leftOver := true } rest

/-- **What arguments come to**, starting from a record. -/
def Grammar.parse (grammar : Grammar α) (record : α) (arguments : List String) : Parsed α :=
  match label? grammar.switches arguments with
  | some labelled => takeAll grammar.operand ⟨record, true, false⟩ labelled
  | none => .misuse

/-- What arguments come to if nothing takes those that are left over. -/
def Parsed.complete : Parsed α → Parsed α
  | .done _ true => .misuse
  | other => other

end CommandLine
end TabletopDice
