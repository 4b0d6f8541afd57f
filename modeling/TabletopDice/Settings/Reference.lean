/-!
# Reference — values that stand for those of other variables

A value may hold references to variables: a dollar sign and, in braces, a name, which a colon, a hyphen and a text may
follow that stands in where the variable is not known. Whatever does not have this form stays as it is.
-/
namespace TabletopDice

/-- **A reference to a variable**, with the text for a variable that is not known. -/
structure Reference where
  name : String
  fallback : Option String
  deriving DecidableEq, Repr

namespace Reference

/-- The text up to the closing brace and the number of characters up to and with it: none if there is no brace. -/
def upToBrace? (cs : List Char) : Option (List Char × Nat) :=
  let inside := cs.takeWhile fun c => c != '\x7d'
  if inside.length < cs.length then some (inside, inside.length + 1) else none

/-- **The reference after a dollar sign and the opening brace**, and the number of its characters. -/
def read? (cs : List Char) : Option (Reference × Nat) :=
  let name := cs.takeWhile fun c => c != '\x7d' && c != ':'
  match cs.drop name.length with
  | '\x7d' :: _ => some (⟨String.ofList name, none⟩, name.length + 1)
  | ':' :: '-' :: rest => (upToBrace? rest).map fun (fallback, length) =>
      (⟨String.ofList name, some (String.ofList fallback)⟩, name.length + 2 + length)
  | _ => none

/-- The text with its references resolved. -/
def resolveAll (value : Reference → String) : List Char → List Char
  | [] => []
  | '$' :: '\x7b' :: rest => match read? rest with
    | some (reference, length) => (value reference).toList ++ resolveAll value (rest.drop length)
    | none => '$' :: resolveAll value ('\x7b' :: rest)
  | c :: rest => c :: resolveAll value rest
  termination_by cs => cs.length
  decreasing_by
    all_goals simp only [List.length_cons, List.length_drop]; omega

end Reference
end TabletopDice
