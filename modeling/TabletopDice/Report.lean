import TabletopDice.Fault
import TabletopDice.Json
/-!
# Report — success or failure as a value

A report is what an operation hands to a caller that does not want to deal with faults: the data of a success, or the
message of a failure with a code and details that programs read.
-/
namespace TabletopDice

/-- **A report.** A code may be any text; the codes of errors are texts too. -/
inductive Report (α : Type)
  | ok (data : α)
  | fail (message : String) (code : Option String) (details : Option Json)

namespace Report

variable {α : Type}

/-- The report is of a success. -/
def success : Report α → Bool
  | ok _ => true
  | fail .. => false

/-- **The report of a rule error**: its message, its code, and its place if it is an error of the grammar. -/
def ofRule (error : RuleError) : Report α :=
  fail error.message (some error.code.text)
    (error.position?.map fun position => .object [("position", .int (position : Int))])

end Report
end TabletopDice
