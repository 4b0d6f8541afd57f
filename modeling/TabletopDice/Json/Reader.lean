import TabletopDice.Json.Token
import TabletopDice.Text.ByteOrderMark
/-!
# Reader — the value that a JSON text writes

The tokens are read one by one. What is open around the place of reading stands on a stack, the innermost first, and
a completed value goes into the innermost of it. Of two members of one name the later replaces the earlier.
-/
namespace TabletopDice
namespace Json

/-- An array or an object that is not closed yet; items and members stand in reverse. -/
inductive Open
  | array (items : List Json)
  /-- An object, the value of the member of that name being read. -/
  | object (members : List (String × Json)) (name : String)

/-- What may come next. -/
inductive Stage
  | value
  /-- An item, or the end of an array without items. -/
  | firstItem
  /-- The name of a member, or the end of an object without members. -/
  | firstName
  /-- The name of a further member. -/
  | nextName (members : List (String × Json))
  /-- The colon after a name. -/
  | colon (members : List (String × Json)) (name : String)
  /-- A value is complete. -/
  | complete (value : Json)

/-- The place of reading. -/
structure Reading where
  stage : Stage
  around : List Open

/-- The members with one more, which replaces one of its name. -/
def addMember (members : List (String × Json)) (name : String) (value : Json) : List (String × Json) :=
  (name, value) :: members.filter fun member => member.1 != name

namespace Reading

/-- A value begins with a token. -/
def startValue (around : List Open) : Token → Option Reading
  | .scalar value => some ⟨.complete value, around⟩
  | .text s => some ⟨.complete (.text s), around⟩
  | .arrayStart => some ⟨.firstItem, .array [] :: around⟩
  | .objectStart => some ⟨.firstName, around⟩
  | _ => none

/-- A token comes after a complete value. -/
def afterValue (value : Json) : List Open → Token → Option Reading
  | .array items :: around, .comma => some ⟨.value, .array (value :: items) :: around⟩
  | .array items :: around, .arrayEnd => some ⟨.complete (.array (value :: items).reverse), around⟩
  | .object members name :: around, .comma => some ⟨.nextName (addMember members name value), around⟩
  | .object members name :: around, .objectEnd =>
    some ⟨.complete (.object (addMember members name value).reverse), around⟩
  | _, _ => none

/-- **The place after one token**, if the token may stand there. -/
def step (reading : Reading) (token : Token) : Option Reading :=
  match reading.stage, token with
  | .value, token => startValue reading.around token
  | .firstItem, .arrayEnd => some ⟨.complete (.array []), reading.around.tail⟩
  | .firstItem, token => startValue reading.around token
  | .firstName, .objectEnd => some ⟨.complete (.object []), reading.around⟩
  | .firstName, .text name => some ⟨.colon [] name, reading.around⟩
  | .nextName members, .text name => some ⟨.colon members name, reading.around⟩
  | .colon members name, .colon => some ⟨.value, .object members name :: reading.around⟩
  | .complete value, token => afterValue value reading.around token
  | _, _ => none

/-- The value, if it is complete and nothing is open. -/
def result? : Reading → Option Json
  | ⟨.complete value, []⟩ => some value
  | _ => none

end Reading

/-- The value of tokens. -/
def ofTokens? (tokens : List Token) : Option Json := do
  let reading ← tokens.foldlM Reading.step ⟨.value, []⟩
  reading.result?

/-- The tokens of a JSON text; a byte order mark before it is skipped. -/
def tokens? (text : String) : Option (List Token) := Token.scan (Text.withoutByteOrderMark text.toList)

/-- **The value that a JSON text writes.** -/
def read? (text : String) : Option Json := do ofTokens? (← tokens? text)

/-- The number of brackets that are open after a token. -/
def depthAfter (depth : Nat) : Token → Nat
  | .arrayStart | .objectStart => depth + 1
  | .arrayEnd | .objectEnd => depth - 1
  | _ => depth

/-- **The most brackets that are open at once** in a JSON text. -/
def nesting (text : String) : Nat :=
  (((tokens? text).getD []).foldl (fun (depth, most) token =>
    (depthAfter depth token, max most (depthAfter depth token))) (0, 0)).2

end Json
end TabletopDice
