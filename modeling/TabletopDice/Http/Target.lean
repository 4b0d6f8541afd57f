import TabletopDice.Http.Escape
/-!
# Target — the path and the parameters that a request names

A target may name an origin: a scheme before a colon, and a host after two slashes. Neither says what is asked for, and
both are dropped. A number sign ends the target, and a question mark ends its path; what follows the question mark are
parameters, parted by ampersands, in which a plus sign is a blank.
-/
namespace TabletopDice
namespace Http

/-- A text up to a character, and what follows the character. -/
def splitAt (mark : Char) (cs : List Char) : List Char × List Char :=
  (cs.takeWhile (· != mark), (cs.dropWhile (· != mark)).drop 1)

/-- **The parameters that a text writes**; one without an equals sign is empty. -/
def parametersOf (query : String) : List (String × String) :=
  ((query.splitOn "&").filter fun part => !part.isEmpty).map fun part =>
    let (name, value) := splitAt '=' (part.toList.map fun c => if c = '+' then ' ' else c)
    (Escape.read (String.ofList name), Escape.read (String.ofList value))

/-- **The target of a request.** -/
structure Target where
  path : String
  parameters : List (String × String)
  deriving DecidableEq, Repr

namespace Target

/-- A character of a scheme. -/
def isSchemeChar (c : Char) : Bool := c.isAlphanum || c = '+' || c = '-' || c = '.'

/-- What follows a scheme, if there is one. -/
def afterScheme (cs : List Char) : List Char :=
  match cs.head?, cs.dropWhile isSchemeChar with
  | some first, ':' :: rest => if first.isAlpha then rest else cs
  | _, _ => cs

/-- What follows a host, if there is one. -/
def afterHost : List Char → List Char
  | '/' :: '/' :: rest => rest.dropWhile fun c => c != '/' && c != '?' && c != '#'
  | cs => cs

/-- A character that counts as nothing before a target. -/
def isPadding (c : Char) : Bool := c.toNat ≤ 0x20

/-- A character that counts as nothing wherever it stands. -/
def isBreak (c : Char) : Bool := c = '\t' || c = '\r' || c = '\n'

/-- A target without an origin. -/
def withoutOrigin (cs : List Char) : List Char :=
  afterHost (afterScheme ((cs.dropWhile isPadding).filter fun c => !isBreak c))

/-- The path in its plain form: one slash, then the text without slashes before it. -/
def plainPath (cs : List Char) : String :=
  String.ofList ('/' :: (Escape.read (String.ofList cs)).toList.dropWhile (· == '/'))

/-- **The target that a text writes.** An origin may stand before it twice. -/
def read (text : String) : Target :=
  let (path, query) := splitAt '?' (splitAt '#' (withoutOrigin (withoutOrigin text.toList))).1
  ⟨plainPath path, parametersOf (String.ofList query)⟩

end Target
end Http
end TabletopDice
