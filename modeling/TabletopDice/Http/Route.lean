import TabletopDice.Http.Target
import TabletopDice.Text.UpperCase
/-!
# Route — where a method and a path lead

Every resource has a path, and allows some methods. The paths below `/static/` are set aside for files. A path in which
slashes stand twice leads to the resource at the path with single slashes only by way of a response that says so.
-/
namespace TabletopDice
namespace Http

/-- What can be asked for. -/
inductive Resource
  | roll | normalize | health
  /-- A file of the service. -/
  | file
  deriving DecidableEq, Repr

namespace Resource

/-- The methods that a resource allows. -/
def methods : Resource → List String
  | roll => ["POST", "OPTIONS"]
  | _ => ["GET", "HEAD", "OPTIONS"]

/-- Whether a text can name a file: it does not begin with a slash, and goes on to its end on one line. -/
def isFileName : List Char → Bool
  | [] => false
  | first :: rest => first != '/' && rest.all (· != '\n')

/-- **The resource at a path.** -/
def at? (path : String) : Option Resource :=
  match path with
  | "/api/roll" => some roll
  | "/api/normalize" => some normalize
  | "/api/health" => some health
  | path =>
    if path.startsWith "/static/" && isFileName (path.toList.drop "/static/".length) then some file else none

end Resource

/-- **Where a request leads.** -/
inductive Route
  | resource (resource : Resource)
  /-- The path has to be written with single slashes. -/
  | moved
  /-- The resource does not allow the method. -/
  | notAllowed
  | missing
  deriving DecidableEq, Repr

/-- A path with one slash for every two. -/
def halvedSlashes : List Char → List Char
  | '/' :: '/' :: rest => '/' :: halvedSlashes rest
  | c :: rest => c :: halvedSlashes rest
  | [] => []

/-- **The route of a method and a path**; methods are read in any case. -/
def Route.of (method path : String) : Route :=
  let allows (found : Resource) : Bool := found.methods.contains (Text.upperCase method)
  match Resource.at? path, Resource.at? (String.ofList (halvedSlashes path.toList)) with
  | some found, _ => if allows found then resource found else notAllowed
  | none, some found => if allows found then moved else notAllowed
  | none, none => missing

end Http
end TabletopDice
