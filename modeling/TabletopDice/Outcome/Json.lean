import TabletopDice.Json
import TabletopDice.Outcome.Describe
/-!
# Json — an outcome as data

Every outcome is an object: its kind, its value, the parts of its structure, and its description. An action throw adds
what it achieves. The description of a simple outcome stands where its label would, which can be told from it, since
the value is known. What has no description is no data either, and neither is what holds it.
-/
namespace TabletopDice

/-- A roll of a die with the rolls after it as data; the total and the values are those from this roll on. -/
def Die.linksToJson (first : Link) (followers : List Link) : Json :=
  let values := (first :: followers).map Link.value
  .object [
    ("value", .int first.value),
    ("exploded", .bool first.exploded),
    ("total", .int (Numbers.total values)),
    ("rolls", Json.list Json.int values),
    ("chain", match followers with
      | [] => .null
      | next :: rest => linksToJson next rest)]

/-- **A die as data.** -/
def Die.toJson (die : Die) : Json := linksToJson die.first die.followers

/-- **A judgement as data.** -/
def Judgement.toJson (judgement : Judgement) : Json :=
  .object [
    ("success", .bool judgement.success),
    ("raises", .int judgement.raises),
    ("margin", .int judgement.margin)]

/-- The word for which die counts. -/
def UsedDie.text : UsedDie → String
  | trait => "trait"
  | wild => "wild"

/-- The word for a keep rule, or for none. -/
def keepText : Option KeepRule → String
  | none => "none"
  | some .highest => "highest"
  | some .lowest => "lowest"
  | some .advantage => "advantage"
  | some .disadvantage => "disadvantage"

namespace Outcome

/-- The members of a throw after its kind. -/
def throwMembers (value modifier : Int) (sources : Json) (description : String) (throw : Throw) :
    List (String × Json) :=
  match throw with
  | .generic throw => [
      ("value", .int value),
      ("notation", .text throw.spelling),
      ("sides", .int throw.sides),
      ("acing", .bool throw.acing),
      ("dice", Json.list Die.toJson throw.dice),
      ("kept_dice", Json.list Die.toJson throw.kept),
      ("dropped_dice", Json.list Die.toJson throw.dropped),
      ("keep_operation", .text (keepText throw.keep)),
      ("modifier", .int modifier),
      ("target_number", Json.orNull Json.int throw.target),
      ("raise_interval", Json.orNull Json.int throw.interval),
      ("raises", Json.orNull Judgement.toJson throw.judgement),
      ("modifier_sources", sources),
      ("description", .text description)]
  | .wild throw => [
      ("value", .int value),
      ("notation", .text throw.spelling),
      ("trait_die", throw.trait.toJson),
      ("wild_die", throw.wild.toJson),
      ("used_die", .text throw.used.text),
      ("raises", throw.judgement.toJson),
      ("modifier", .int modifier),
      ("target_number", .int throw.target),
      ("raise_interval", .int throw.interval),
      ("modifier_sources", sources),
      ("description", .text description)]
  | .count throw => [
      ("value", .int value),
      ("notation", .text throw.spelling),
      ("dice", Json.list Die.toJson throw.dice),
      ("success_target", .int throw.threshold),
      ("failures", .int throw.failures),
      ("fail_target", Json.orNull Json.int throw.failure),
      ("modifier", .int modifier),
      ("modifier_sources", sources),
      ("description", .text description)]
  | .weg throw => [
      ("value", .int value),
      ("dice", Json.list Json.int throw.dice),
      ("wild_die", throw.wild.toJson),
      ("modifier", .int modifier),
      ("modifier_sources", sources),
      ("description", .text description)]
  | .action throw =>
    let hits := throw.hits value
    [ ("value", .int value),
      ("action_die", .int throw.action),
      ("challenge_dice", .array [.int throw.firstChallenge, .int throw.secondChallenge]),
      ("modifier", .int modifier),
      ("modifier_sources", sources),
      ("description", .text description),
      ("hits", .int (hits : Int)),
      ("match", .bool throw.isMatch),
      ("outcome", .text (Achievement.ofHits hits).text)]

/-- An outcome as data, around what it holds as data and with its description. -/
def dataAround (inside : Json) (description : String) : Outcome → Json
  | bare value => .object [
      ("kind", .text "result"),
      ("value", .int value),
      ("description", .text description)]
  | thrown value throw modifier _ =>
    .object (("kind", .text (throwKind throw)) :: throwMembers value modifier inside description throw)
  | multiple value _ => .object [
      ("kind", .text "multiple"),
      ("value", .int value),
      ("rolls", inside),
      ("description", .text description)]
  | simple value _ operator _ => .object [
      ("kind", .text "simple"),
      ("value", .int value),
      ("description", .text description),
      ("operator", Json.orNull Json.text operator),
      ("operands", inside)]
  | bounded value _ minimum maximum => .object [
      ("kind", .text "bounded"),
      ("value", .int value),
      ("inner", inside),
      ("minimum", Json.orNull Json.int minimum),
      ("maximum", Json.orNull Json.int maximum),
      ("description", .text description)]
  | flag value name => .object [
      ("kind", .text "flag"),
      ("value", .int value),
      ("flag", .text name),
      ("description", .text description)]
  | sequence value _ => .object [
      ("kind", .text "sequence"),
      ("value", .int value),
      ("results", inside),
      ("description", .text description)]

/-- An outcome as data around what it holds, if it can be described. -/
def describedAround (inside : Json) (outcome : Outcome) : Except Fault Json := do
  let description ← outcome.describe
  .ok (outcome.dataAround inside description)

mutual

/-- **An outcome as data**, if it and every outcome inside it can be described. -/
def toJson : Outcome → Except Fault Json
  | bare value => (bare value).describedAround .null
  | thrown value throw modifier sources => do
    let inside ← toJsonAll sources
    (thrown value throw modifier sources).describedAround (.array inside)
  | multiple value rolls => do
    let inside ← toJsonAll rolls
    (multiple value rolls).describedAround (.array inside)
  | simple value label operator operands => do
    let inside ← toJsonAll operands
    (simple value label operator operands).describedAround (.array inside)
  | bounded value inner minimum maximum => do
    let inside ← toJson inner
    (bounded value inner minimum maximum).describedAround inside
  | flag value name => (flag value name).describedAround .null
  | sequence value results => do
    let inside ← toJsonAll results
    (sequence value results).describedAround (.array inside)

/-- Outcomes as data. -/
def toJsonAll : List Outcome → Except Fault (List Json)
  | [] => .ok []
  | outcome :: outcomes => do
    let first ← toJson outcome
    let others ← toJsonAll outcomes
    .ok (first :: others)

end

end Outcome
end TabletopDice
