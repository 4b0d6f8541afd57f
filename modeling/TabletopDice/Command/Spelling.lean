import TabletopDice.Command
/-!
# Spelling — a roll written back in the language

The spelling of a roll names its result. Letters are small, a percent die keeps its sign, and the parts stand in the
order of the grammar. Trait rolls and extras leave their count out: each of their repetitions has a result of its own.
A count of zero is also left out; no roll with that count has a result.
-/
namespace TabletopDice

/-- The digits of a number that may be left out. -/
def optionalDigits : Option Nat → String
  | none => ""
  | some n => toString n

/-- The keep rule, then the count. -/
def KeepSuffix.spelling (suffix : KeepSuffix) : String := suffix.rule.letters ++ optionalDigits suffix.count

/-- A letter and a number, or nothing. -/
def letterNumber (letter : String) : Option Nat → String
  | none => ""
  | some n => letter ++ toString n

/-- The target number, then the interval. -/
def TargetSuffix.spelling (suffix : TargetSuffix) : String :=
  letterNumber "t" suffix.target ++ letterNumber "r" suffix.interval

/-- The success threshold, then the failure threshold. -/
def SuccessSuffix.spelling (suffix : SuccessSuffix) : String :=
  "s" ++ toString suffix.threshold ++ letterNumber "f" suffix.failure

/-- **The spelling of a suffix.** -/
def Suffix.spelling : Suffix → String
  | keep suffix => suffix.spelling
  | target suffix => suffix.spelling
  | success suffix => suffix.spelling

/-- The spelling of a suffix that may be missing. -/
def optionalTarget : Option TargetSuffix → String
  | none => ""
  | some suffix => suffix.spelling

/-- The spelling of the sides. -/
def Faces.spelling : Faces → String
  | sides count => toString count
  | percent => "%"

/-- The spelling of the suffixes of a generic roll. -/
def Reading.spelling : Reading → String
  | total keep target => (match keep with | none => "" | some suffix => suffix.spelling) ++ optionalTarget target
  | successes suffix => suffix.spelling

/-- The spelling of a count; a count of zero is left out. -/
def countSpelling : Option Nat → String
  | none | some 0 => ""
  | some n => toString n

/-- **The spelling of a generic roll.** -/
def GenericRoll.spelling (roll : GenericRoll) : String :=
  countSpelling roll.count ++ "d" ++ roll.faces.spelling ++ (if roll.acing then "!" else "") ++ roll.reading.spelling

/-- **The spelling of a trait roll**, its count left out. -/
def SavageRoll.spelling (roll : SavageRoll) : String :=
  "s" ++ toString roll.traitSides ++ letterNumber "w" roll.wildSides ++ optionalTarget roll.target

/-- **The spelling of a roll of an extra**, its count left out. -/
def ExtrasRoll.spelling (roll : ExtrasRoll) : String :=
  "e" ++ toString roll.sides ++ optionalTarget roll.target

end TabletopDice
