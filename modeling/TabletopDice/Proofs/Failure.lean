import TabletopDice.Fault
/-!
# Failure — what is known of a result that may be missing

A result that is there has come from the results that it was made from (`bind_ok`). A message is missing just if one
of its numbers is too long to be written (`Wording.write_ok`, `Wording.write_error`), whichever words stand around
the numbers; a rule error is then another fault (`Fault.ofRule_eq`).
-/
namespace TabletopDice

namespace Failure

/-- **A sequence that ends in a result** has one of its first step, and its second makes the result from it. -/
theorem bind_ok {ε α β : Type} {first : Except ε α} {next : α → Except ε β} {b : β}
    (h : first >>= next = .ok b) : ∃ a, first = .ok a ∧ next a = .ok b := by
  cases first with
  | error error => cases h
  | ok a => exact ⟨a, rfl, h⟩

theorem mapError_ok {ε δ α : Type} {result : Except ε α} {f : ε → δ} {a : α} (h : result.mapError f = .ok a) :
    result = .ok a := by
  cases result with
  | error error => cases h
  | ok found => cases h; rfl

end Failure

/-! ## Messages -/

namespace Piece

@[simp] theorem writable_words (text : String) : (words text).Writable := trivial

theorem writable_number {n : Int} : (number n).Writable ↔ n.natAbs < Text.writtenBelow := .rfl

end Piece

namespace Wording

@[simp] theorem writable_nil : Writable [] := fun _ h => absurd h List.not_mem_nil

@[simp] theorem writable_cons {piece : Piece} {rest : Wording} :
    Writable (piece :: rest) ↔ piece.Writable ∧ Writable rest := List.forall_mem_cons

@[simp] theorem writable_append {first second : Wording} :
    Writable (first ++ second) ↔ Writable first ∧ Writable second := List.forall_mem_append

/-- **A message that is there** has only numbers that can be written, and its text. -/
theorem write_ok {wording : Wording} {text : String} :
    wording.write = .ok text ↔ wording.Writable ∧ text = wording.text := by
  unfold write
  split
  · rename_i h
    exact ⟨fun e => ⟨h, (Except.ok.inj e).symm⟩, fun ⟨_, e⟩ => e ▸ rfl⟩
  · rename_i h
    exact ⟨nofun, fun ⟨hw, _⟩ => absurd hw h⟩

/-- **A message that is missing** has a number that is too long to be written. -/
theorem write_error {wording : Wording} {fault : Fault} :
    wording.write = .error fault ↔ ¬ wording.Writable ∧ fault = .unwritable := by
  unfold write
  split
  · rename_i h
    exact ⟨nofun, fun ⟨hn, _⟩ => absurd h hn⟩
  · rename_i h
    exact ⟨fun e => ⟨h, (Except.error.inj e).symm⟩, fun ⟨_, e⟩ => e ▸ rfl⟩

theorem write_eq {wording : Wording} (h : wording.Writable) : wording.write = .ok wording.text := if_pos h

end Wording

@[simp] theorem RuleError.message_unreadable (error : SyntaxError) : (unreadable error).message = error.message := by
  simp [message, wording, Wording.text, Piece.text]

namespace Fault

theorem ofRule_writable {error : RuleError} (h : error.wording.Writable) : ofRule error = .rule error := if_pos h

/-- A rule error is itself, or a message that cannot be written. -/
theorem ofRule_eq (error : RuleError) : ofRule error = .rule error ∨ ofRule error = .unwritable := by
  unfold ofRule
  split
  · exact .inl rfl
  · exact .inr rfl

@[simp] theorem ofRule_unreadable (error : SyntaxError) : ofRule (.unreadable error) = .rule (.unreadable error) :=
  ofRule_writable (by simp [RuleError.wording])

end Fault
end TabletopDice
