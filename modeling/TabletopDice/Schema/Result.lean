import TabletopDice.Json.Integral
/-!
# Result — the form of a result as data

The form says which members every result must have, and what members of certain names are wherever they occur; other
members may be anything. It is the form of an object: a member's value is checked by the member's name, and results
inside a result have the same form.
-/
namespace TabletopDice
namespace Schema

/-- All these names are names of members. -/
def hasAll (names : List String) (members : List (String × Json)) : Bool :=
  names.all fun name => members.any fun member => member.1 == name

/-- The kinds of results. -/
def kinds : List String :=
  ["generic", "savage_wild", "success_fail", "multiple", "simple", "bounded", "weg_d6", "ironsworn", "flag", "sequence"]

/-- An array of whole numbers, with at least and at most so many. -/
def isIntegers (least : Nat) (most : Option Nat) : Json → Bool
  | .array items =>
    items.all Json.isInteger && least ≤ items.length && (most.all fun most => items.length ≤ most)
  | _ => false

/-! ## Dice -/

mutual

/-- **A die**: the roll, whether it exploded, and the rolls from it on, the next of them in the chain. -/
def isDie : Json → Bool
  | .object members => hasAll ["value", "exploded", "total", "rolls", "chain"] members && areDieMembers members
  | _ => false

/-- The members of a die. -/
def areDieMembers : List (String × Json) → Bool
  | [] => true
  | (name, value) :: members =>
    (if name = "value" || name = "total" then value.isInteger
      else if name = "exploded" then value.isBool
      else if name = "rolls" then isIntegers 1 none value
      else if name = "chain" then value.isNull || isDie value
      else true) && areDieMembers members

end

/-- An array of dice; a plain die may be its number alone. -/
def isDice : Json → Bool
  | .array items => items.all fun item => isDie item || item.isInteger
  | _ => false

/-! ## Judgements -/

/-- The members of a judgement. -/
def isJudgementMember : String × Json → Bool
  | (name, value) =>
    if name = "success" then value.isBool
    else if name = "raises" then value.integer?.any fun n => 0 ≤ n
    else if name = "margin" then value.isInteger
    else true

/-- **A judgement**: success, the raises, of which there cannot be fewer than none, and the margin. -/
def isJudgement : Json → Bool
  | .object members => hasAll ["success", "raises", "margin"] members && members.all isJudgementMember
  | _ => false

/-! ## Results -/

/-- A member of a result that holds no further results. -/
def isPlainMember (name : String) (value : Json) : Bool :=
  if name = "kind" then value.isOneOf kinds
  else if name = "value" || name = "modifier" then value.isInteger
  else if name = "description" then value.isText
  else if name = "dice" || name = "kept_dice" || name = "dropped_dice" then isDice value
  else if name = "trait_die" || name = "wild_die" then isDie value
  else if name = "used_die" then value.isOneOf ["trait", "wild"]
  else if name = "keep_operation" then value.isOneOf ["none", "highest", "lowest", "advantage", "disadvantage"]
  else if name = "raises" then value.isNull || isJudgement value
  else if name = "challenge_dice" then isIntegers 2 (some 2) value
  else if name = "outcome" then value.isOneOf ["strong_hit", "weak_hit", "miss"]
  else true

/-- The members that are arrays of results. -/
def resultLists : List String := ["modifier_sources", "rolls", "results", "operands"]

mutual

/-- **A result**: an object that has a kind, a value and a description, and all of whose members are in form. -/
def isResult : Json → Bool
  | .object members => hasAll ["kind", "value", "description"] members && areResultMembers members
  | _ => false

/-- The members of a result. -/
def areResultMembers : List (String × Json) → Bool
  | [] => true
  | (name, value) :: members =>
    (if resultLists.contains name then isResultList value
      else if name = "inner" then isResult value
      else isPlainMember name value) && areResultMembers members

/-- An array of results. -/
def isResultList : Json → Bool
  | .array items => areResults items
  | _ => false

/-- Values that are all results. -/
def areResults : List Json → Bool
  | [] => true
  | item :: items => isResult item && areResults items

end

end Schema
end TabletopDice
