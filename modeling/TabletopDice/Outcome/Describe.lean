import TabletopDice.Outcome
/-!
# Describe — an outcome in words

Throws show their dice, their modifier and their value; repetitions and sequences show every outcome on lines of its
own, numbered from one. An outcome has no description if one of the numbers in it is too long to be written.
-/
namespace TabletopDice

/-- A modifier after the dice; zero is left out. -/
def modifierWording (modifier : Int) : Wording :=
  if 0 < modifier then [" + ", modifier]
  else if modifier < 0 then [" - ", (modifier.natAbs : Int)]
  else []

/-- An optional number, or nothing. -/
def optionalWording : Option Int → Wording
  | some n => [n]
  | none => []

namespace ActionThrow

/-- The number of challenge dice that the value exceeds. -/
def hits (throw : ActionThrow) (value : Int) : Nat :=
  (if throw.firstChallenge < value then 1 else 0) + (if throw.secondChallenge < value then 1 else 0)

/-- Both challenge dice show the same. -/
def isMatch (throw : ActionThrow) : Bool := throw.firstChallenge == throw.secondChallenge

end ActionThrow

/-- What an action throw achieves, by the number of hits. -/
inductive Achievement
  | miss | weakHit | strongHit
  deriving DecidableEq, Repr

namespace Achievement

/-- Two hits are strong, one is weak. -/
def ofHits : Nat → Achievement
  | 2 => strongHit
  | 1 => weakHit
  | _ => miss

/-- The word that programs read. -/
def text : Achievement → String
  | strongHit => "strong_hit"
  | weakHit => "weak_hit"
  | miss => "miss"

/-- The words that people read. -/
def title : Achievement → String
  | strongHit => "Strong Hit"
  | weakHit => "Weak Hit"
  | miss => "Miss"

end Achievement

/-- A judgement after a value. -/
def Judgement.against (judgement : Judgement) (target : Wording) : Wording :=
  List.flatten [[" ("], judgement.wording, [" vs TN "], target, [")"]]

namespace Throw

/-- A target number in words. -/
def targetWording : Option Int → Wording
  | some target => [target]
  | none => ["None"]

/-- **A throw in words**, with its value and modifier. -/
def wording (value modifier : Int) : Throw → Wording
  | generic throw => List.flatten [
      [throw.spelling, ": "], Die.wordingAll throw.kept,
      if throw.dropped.isEmpty then [] else .words " dropped " :: Die.wordingAll throw.dropped,
      modifierWording modifier, [" = ", value],
      match throw.judgement with
        | some judgement => judgement.against (targetWording throw.target)
        | none => []]
  | wild throw => List.flatten [
      [throw.spelling, ": trait "], throw.trait.wording, [", wild "], throw.wild.wording, modifierWording modifier,
      [" = ", value], throw.judgement.against [throw.target]]
  | count throw => List.flatten [
      [throw.spelling, ": "], Die.wordingAll throw.dice, [" successes (>=", throw.threshold, "): ", throw.successes],
      match throw.failure with
        | some failure => [", failures (<=", failure, "): ", throw.failures]
        | none => [],
      modifierWording modifier, [" = ", value]]
  | weg throw => List.flatten [
      [toString (throw.dice.length + 1), "W: ["], Wording.separated ", " (throw.dice.map fun roll => [.number roll]),
      ["] wild "], throw.wild.wording, modifierWording modifier, [" = ", value]]
  | action throw => [
      "Action: ", value, " vs Challenge: ", throw.firstChallenge, ", ", throw.secondChallenge, " -> ",
      (Achievement.ofHits (throw.hits value)).title, if throw.isMatch then " (Match!)" else ""]

end Throw

namespace Outcome

mutual

/-- **An outcome in words**, before they are written. -/
def wording : Outcome → Wording
  | bare value => [value]
  | thrown value throw modifier _ => throw.wording value modifier
  | multiple value rolls => List.flatten [
      [toString rolls.length, "x rolls:\n"], Wording.separated "\n" (wordingRolls 1 rolls), ["\nTotal: ", value]]
  | simple value label _ _ => if label = "" then [value] else [label, " = ", value]
  | bounded value inner minimum maximum => List.flatten [
      [inner.value, " bounded ["], optionalWording minimum, [":"], optionalWording maximum, ["] = ", value]]
  | flag _ name => ["Flag: ", name]
  | sequence _ results => Wording.separated "\n" (wordingResults 1 results)

/-- The rolls of a repetition, numbered. -/
def wordingRolls (number : Nat) : List Outcome → List Wording
  | [] => []
  | roll :: rolls =>
    (.words "  Roll " :: .words (toString number) :: .words ": " :: wording roll) :: wordingRolls (number + 1) rolls

/-- The results of a sequence, numbered. -/
def wordingResults (number : Nat) : List Outcome → List Wording
  | [] => []
  | result :: results =>
    (.words "[" :: .words (toString number) :: .words "] " :: wording result) :: wordingResults (number + 1) results

end

/-- **An outcome in words**, if all of its numbers can be written. -/
def describe (outcome : Outcome) : Except Fault String := outcome.wording.write

end Outcome
end TabletopDice
