/-!
# Json — values of the JSON data format

An object keeps its members in the order in which they were written. A number is a whole number, or a decimal as
written: its digits and the power of ten that scales them. Texts of the format also hold the infinities and an
undefined number, which are neither.
-/
namespace TabletopDice

/-- A number of JSON. -/
inductive Number
  | whole (n : Int)
  /-- The digits times ten to the power of the exponent, with a sign. -/
  | decimal (negative : Bool) (digits : Nat) (exponent : Int)
  /-- An infinity, or an undefined number. -/
  | notFinite
  deriving DecidableEq, Repr

/-- **A value of JSON.** -/
inductive Json
  | null
  | bool (b : Bool)
  | number (n : Number)
  | text (s : String)
  | array (items : List Json)
  | object (members : List (String × Json))

namespace Json

/-- A whole number. -/
def int (n : Int) : Json := .number (.whole n)

/-- A value, or nothing. -/
def orNull {α : Type} (encode : α → Json) : Option α → Json
  | some a => encode a
  | none => .null

/-- A list of values. -/
def list {α : Type} (encode : α → Json) (values : List α) : Json := .array (values.map encode)

/-- **The member with that name**; a later one hides an earlier one. -/
def lookup? (name : String) : List (String × Json) → Option Json
  | [] => none
  | (key, value) :: rest => match lookup? name rest with
    | some later => some later
    | none => if key = name then some value else none

end Json
end TabletopDice
