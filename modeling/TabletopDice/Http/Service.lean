import TabletopDice.Engine.Json
import TabletopDice.Http.Message
import TabletopDice.Http.Route
import TabletopDice.Json.Printer
import TabletopDice.Json.Reader
import TabletopDice.Schema.RollRequest
/-!
# Service — rolling dice for other programs

Three things can be asked for: a roll, the order of suffixes, and whether the service is up. A roll is asked for by a
JSON object in the body. What breaks a rule is answered with its message and code; the service goes on after any
fault. Each request starts from the table as the one before left it, but with a source of its own.
-/
namespace TabletopDice
namespace Http
namespace Service

variable {σ : Type} [RandomSource σ]

/-- The version that the service says it has. -/
def version : String := "0.1.0"

/-- The answer that something went wrong. -/
def refusal (status : Nat) (error : String) (code : Option String) (more : List (String × Json)) : Response :=
  ⟨status, some (.object (
    [("success", .bool false), ("error", .text error), ("error_code", Json.orNull Json.text code)] ++ more))⟩

/-- The answer that the request itself is wrong. -/
def badRequest (error : String) : Response := refusal 400 error (some ErrorCode.invalidInput.text) []

/-- The members that details add to an answer. -/
def detailMembers : Option Json → List (String × Json)
  | some (.object members) => members
  | _ => []

/-- The most brackets that may be open at once in a body. -/
def maxNesting : Nat := 975

/-- A body of JSON whose nesting is too deep for the service. -/
def isTooDeep (request : Request) : Bool := isJsonType request.contentType && maxNesting < Json.nesting request.body

/-- The object in the body, if the body is JSON and an object. -/
def objectOf? (request : Request) : Option Json :=
  if isJsonType request.contentType then
    match Json.read? request.body with
    | some (.object members) => some (.object members)
    | _ => none
  else none

/-- The data of a rolled text, which has to be printed. -/
def printable (rolled : Engine.Rolled) : Except Fault Json := do
  let members ← rolled.members
  let json := Json.object (("success", .bool true) :: members)
  let _ ← json.print
  .ok json

/-- The answer to a report; a rolled text that is no data, or is not printed, is a fault of the service. -/
def answer : Report Engine.Rolled → Response
  | .ok rolled => match printable rolled with
    | .ok json => ⟨200, some json⟩
    | .error _ => .bare 500
  | .fail message code details => refusal 400 message code (detailMembers details)

/-- **The answer to a request for a roll.** -/
def roll (settings : Settings) (request : Request) (table : Table σ) : Response × Table σ :=
  if isTooDeep request then (.bare 500, table) else
  match objectOf? request with
  | none => (badRequest "Request body must be a JSON object", table)
  | some json => match RollRequest.ofJson? json with
    | none => (badRequest "Invalid request", table)
    | some wanted => match Engine.roll settings wanted.seed wanted.normalize wanted.expression table with
      | .ok report table => (answer report, table)
      | .error fault table =>
        (refusal 500 fault.message (some ErrorCode.unexpectedError.text) [], table)

/-- **The answer to a request for the order of suffixes.** -/
def normalize (request : Request) : Response :=
  match request.target.parameters.lookup "expression" with
  | none | some "" => badRequest "Missing expression parameter"
  | some expression =>
    ⟨200, some (.object [
      ("success", .bool true),
      ("expression", .text expression),
      ("normalized", .text (SuffixOrder.normalize expression))])⟩

/-- The answer that the service is up. -/
def health : Response :=
  ⟨200, some (.object [("success", .bool true), ("status", .text "ok"), ("version", .text version)])⟩

/-- The answer of a resource that takes no dice; there are no files. -/
def got (request : Request) : Resource → Response
  | .normalize => normalize request
  | .health => health
  | _ => .bare 404

/-- **The answer to a request.** Every resource says what it can do when asked for its options, and is got without a
body when only its head is asked for. -/
def respond (settings : Settings) (request : Request) (table : Table σ) : Response × Table σ :=
  match Route.of request.method request.target.path with
  | .missing => (.bare 404, table)
  | .notAllowed => (.bare 405, table)
  | .moved => (.bare 308, table)
  | .resource resource => match Text.upperCase request.method, resource with
    | "OPTIONS", _ => (.bare 200, table)
    | "HEAD", resource => (.bare (got request resource).status, table)
    | _, .roll => roll settings request table
    | _, resource => (got request resource, table)

end Service
end Http
end TabletopDice
