import TabletopDice.Http.Target
import TabletopDice.Json
import TabletopDice.Text.Blank
/-!
# Message — requests and responses

A request asks for a target by a method, and its body is a text of some type. A response is a status with data or
without.
-/
namespace TabletopDice
namespace Http

/-- **A request.** -/
structure Request where
  method : String
  target : Target
  contentType : String
  body : String
  deriving DecidableEq, Repr

/-- **A response.** -/
structure Response where
  status : Nat
  body : Option Json

/-- The response of a status alone. -/
def Response.bare (status : Nat) : Response := ⟨status, none⟩

/-- **The type of a body is JSON**, whatever follows a semicolon. -/
def isJsonType (contentType : String) : Bool :=
  let type := (String.ofList (Text.trimBlank (splitAt ';' contentType.toList).1)).toLower
  type == "application/json" || (type.startsWith "application/" && type.endsWith "+json")

end Http
end TabletopDice
