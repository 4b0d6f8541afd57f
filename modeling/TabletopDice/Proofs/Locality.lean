import TabletopDice.Proofs.Lookahead
import TabletopDice.Proofs.Spacing
/-!
# Locality — where a text is refused, and why

A text is refused at its start if it is blank, at the first place at which no piece of text starts, or at one of its
tokens, the end counting as one (`refusal_local`). What the parser says of a token hangs on that token and on those
before it: whatever follows, it refuses all tokens that begin in the same way at the same place for the same reason.
-/
namespace TabletopDice

/-! ## Tokens as the parser sees them -/

namespace Token

variable {textLength otherLength i : Nat} {tokens others : List Token}

/-- **What stands at an index** and where: a token, or the end of a text of so many characters. -/
def seen (textLength : Nat) (tokens : List Token) (i : Nat) : Option Lexeme × Nat :=
  match tokens[i]? with
  | some token => (some token.lexeme, token.position)
  | none => (none, textLength)

theorem getElem?_of_seen (h : seen otherLength others i = seen textLength tokens i) : others[i]? = tokens[i]? := by
  unfold seen at h
  cases hother : others[i]? with
  | none =>
    cases htoken : tokens[i]? with
    | none => rfl
    | some token => rw [hother, htoken] at h; cases h
  | some other =>
    cases htoken : tokens[i]? with
    | none => rw [hother, htoken] at h; cases h
    | some token =>
      rw [hother, htoken] at h
      obtain ⟨hlexeme, hposition⟩ := Prod.mk.inj h
      cases other
      cases token
      cases Option.some.inj hlexeme
      cases hposition
      rfl

/-- **Tokens that look the same up to an index** begin with the same tokens. -/
theorem take_of_seen (h : ∀ j ≤ i, seen otherLength others j = seen textLength tokens j) :
    others.take i = tokens.take i := by
  refine List.ext_getElem? fun j => ?_
  rw [List.getElem?_take, List.getElem?_take]
  split
  · rename_i hlt
    exact getElem?_of_seen (h j (Nat.le_of_lt hlt))
  · rfl

theorem seen_le {cs : List Char} (hscan : scan cs = .ok tokens) (i : Nat) : (seen cs.length tokens i).2 ≤ cs.length := by
  unfold seen
  split
  · rename_i token htoken
    have hlt := (position_of_mem cs hscan token (List.mem_of_getElem? htoken)).2
    simp only
    omega
  · exact Nat.le_refl _

/-! ## Where the scanner stops -/

/-- **The places that the scanner comes to**: the text before and the text behind, one piece after another. -/
inductive Comes (text : List Char) : List Char → List Char → Prop
  | start : Comes text [] text
  | piece {before rest : List Char} {c : Char} {piece : Piece} : Comes text before (c :: rest) →
      firstPiece (endsAfter false before) c rest = .ok piece →
      Comes text (before ++ c :: rest.take piece.extra) (rest.drop piece.extra)

theorem Comes.eq_append {text before after : List Char} (h : Comes text before after) : text = before ++ after := by
  induction h with
  | start => rfl
  | piece _ _ ih => rw [ih, List.append_assoc, List.cons_append, List.take_append_drop]

/-- Behind a piece the scanner fails as it fails on what is left. -/
theorem scanFrom_error_behind {before rest : List Char} {c : Char} {piece : Piece} {error : SyntaxError}
    (hpiece : firstPiece (endsAfter false before) c rest = .ok piece) :
    scanFrom (endsAfter false before) before.length (c :: rest) = .error error ↔
      scanFrom (endsAfter false (before ++ c :: rest.take piece.extra)) (before ++ c :: rest.take piece.extra).length
        (rest.drop piece.extra) = .error error := by
  have hle := firstPiece_extra_le hpiece
  have hplace : before.length + 1 + piece.extra = (before ++ c :: rest.take piece.extra).length := by
    rw [List.length_append, List.length_cons, List.length_take]
    omega
  rw [scanFrom, hpiece]
  simp only
  rw [endsInLetter_eq (endsAfter false before), endsAfter_append, hplace]
  cases scanFrom (endsAfter false (before ++ c :: rest.take piece.extra)) (before ++ c :: rest.take piece.extra).length
    (rest.drop piece.extra) with
  | error inner => rfl
  | ok more => cases piece.lexeme <;> simp

theorem comes_of_scanFrom_error {text : List Char} {error : SyntaxError} : ∀ (after before : List Char),
    Comes text before after → scanFrom (endsAfter false before) before.length after = .error error →
      ∃ before c rest, Comes text before (c :: rest) ∧ error.position = before.length ∧
        firstPiece (endsAfter false before) c rest = .error error.fault
  | [], before, _, h => by
    rw [scanFrom_nil] at h
    cases h
  | c :: rest, before, hcomes, h => by
    cases hpiece : firstPiece (endsAfter false before) c rest with
    | error fault =>
      rw [scanFrom, hpiece] at h
      cases h
      exact ⟨before, c, rest, hcomes, rfl, hpiece⟩
    | ok piece => exact comes_of_scanFrom_error _ _ (hcomes.piece hpiece) ((scanFrom_error_behind hpiece).1 h)
  termination_by after => after.length
  decreasing_by simp only [List.length_cons, List.length_drop]; omega

theorem Comes.scan_error {text before after : List Char} {error : SyntaxError} (h : Comes text before after)
    (hafter : scanFrom (endsAfter false before) before.length after = .error error) : scan text = .error error := by
  induction h with
  | start => exact hafter
  | piece _ hpiece ih => exact ih ((scanFrom_error_behind hpiece).2 hafter)

/-- **The scanner fails at the place that it comes to and no piece starts at**, which there is at most one of. -/
theorem scan_error_iff {text : List Char} {error : SyntaxError} :
    scan text = .error error ↔ ∃ before c rest, Comes text before (c :: rest) ∧ error.position = before.length ∧
      firstPiece (endsAfter false before) c rest = .error error.fault := by
  constructor
  · exact comes_of_scanFrom_error text [] .start
  · rintro ⟨before, c, rest, hcomes, hplace, hpiece⟩
    refine hcomes.scan_error ?_
    rw [scanFrom, hpiece, ← hplace]

end Token

namespace Command

open Token

/-! ## Where the parser stops -/

/-- **A stop hangs on the tokens up to the one it is at**: on others that begin in the same way the parser stops at the
same one. -/
theorem ofTokens_stop {tokens : List Token} {stop : Stop} (h : ofTokens tokens = .error stop) :
    ∃ taken, tokens = taken ++ stop.rest ∧
      ∀ others, others.head? = stop.rest.head? → ofTokens (taken ++ others) = .error ⟨stop.complaint, others⟩ := by
  obtain ⟨taken, rest, result, rfl, -, hcommand⟩ := local_command tokens
  cases result with
  | error complaint =>
    have hstop : ∀ others, others.head? = rest.head? → ofTokens (taken ++ others) = .error ⟨complaint, others⟩ := by
      intro others hhead
      rw [ofTokens, hcommand others hhead]
      rfl
    rw [hstop rest rfl] at h
    cases h
    exact ⟨taken, rfl, hstop⟩
  | ok command =>
    cases rest with
    | nil =>
      rw [ofTokens, hcommand [] rfl] at h
      cases h
    | cons token rest =>
      have hstop : ∀ others, others.head? = (token :: rest).head? →
          ofTokens (taken ++ others) = .error ⟨.trailing, others⟩ := by
        intro others hhead
        obtain ⟨more, rfl⟩ := cons_of_head? hhead
        rw [ofTokens, hcommand (token :: more) rfl]
        rfl
      rw [hstop (token :: rest) rfl] at h
      cases h
      exact ⟨taken, rfl, hstop⟩

theorem position_toError (textLength : Nat) (complaint : Complaint) (tokens : List Token) (i : Nat) :
    (Stop.toError textLength ⟨complaint, tokens.drop i⟩).position = (seen textLength tokens i).2 := by
  unfold Stop.toError seen
  rw [List.head?_drop]
  cases tokens[i]? <;> cases complaint <;> rfl

theorem toError_of_seen {textLength otherLength i : Nat} {tokens others : List Token}
    (h : seen otherLength others i = seen textLength tokens i) (complaint : Complaint) :
    Stop.toError otherLength ⟨complaint, others.drop i⟩ = Stop.toError textLength ⟨complaint, tokens.drop i⟩ := by
  have hsame := getElem?_of_seen h
  unfold seen at h
  unfold Stop.toError
  rw [List.head?_drop, List.head?_drop, hsame]
  rw [hsame] at h
  cases htoken : tokens[i]? with
  | some token => rfl
  | none =>
    rw [htoken] at h
    cases h
    rfl

/-- **What is refused at a token** is refused there whatever follows. -/
theorem ofTokens_local {tokens : List Token} {stop : Stop} (h : ofTokens tokens = .error stop) :
    ∃ i ≤ tokens.length, stop.rest = tokens.drop i ∧
      ∀ textLength, (stop.toError textLength).position = (seen textLength tokens i).2 ∧
        ∀ (others : List Token) (otherLength : Nat),
          (∀ j ≤ i, seen otherLength others j = seen textLength tokens j) →
            (ofTokens others).mapError (Stop.toError otherLength) = .error (stop.toError textLength) := by
  obtain ⟨taken, htokens, hstop⟩ := ofTokens_stop h
  have htake : tokens.take taken.length = taken := by rw [htokens, List.take_left]
  have hrest : stop.rest = tokens.drop taken.length := by rw [htokens, List.drop_left]
  have hstopped : stop = ⟨stop.complaint, tokens.drop taken.length⟩ := by rw [← hrest]
  refine ⟨taken.length, ?_, hrest, fun textLength => ⟨?_, fun others otherLength hseen => ?_⟩⟩
  · rw [htokens, List.length_append]
    omega
  · rw [hstopped]
    exact position_toError textLength stop.complaint tokens taken.length
  · have hbegin : others.take taken.length = taken := (take_of_seen hseen).trans htake
    have hhead : (others.drop taken.length).head? = stop.rest.head? := by
      rw [hrest, List.head?_drop, List.head?_drop]
      exact getElem?_of_seen (hseen _ (Nat.le_refl _))
    have hwhole : others = taken ++ others.drop taken.length := by
      have happend := List.take_append_drop taken.length others
      rw [hbegin] at happend
      exact happend.symm
    have hother : ofTokens others = .error ⟨stop.complaint, others.drop taken.length⟩ := by
      rw [hwhole, List.drop_left]
      exact hstop _ hhead
    rw [hother, hstopped]
    exact congrArg Except.error (toError_of_seen (hseen _ (Nat.le_refl _)) stop.complaint)

/-- **Refusals are local and point into the text.** A text is refused at its start if it is blank, at the first place at
which no piece of text starts, or at one of its tokens, the end counting as one. Tokens that are refused at one of them
are refused at the same place for the same reason whatever stands behind that one. -/
theorem refusal_local :
    (∀ (text : String) (error : SyntaxError), parse text = .error error → error.position ≤ text.length ∧
      (text.toList.all Text.isBlank = true ∧ error = ⟨0, .blank⟩ ∨
      (∃ before c rest, Comes text.toList before (c :: rest) ∧ text.toList = before ++ c :: rest ∧
        error.position = before.length ∧ firstPiece (endsAfter false before) c rest = .error error.fault) ∨
      ∃ tokens i, scan text.toList = .ok tokens ∧ i ≤ tokens.length ∧
        error.position = (seen text.length tokens i).2)) ∧
    ∀ (tokens : List Token) (stop : Stop), ofTokens tokens = .error stop → ∃ i ≤ tokens.length,
      stop.rest = tokens.drop i ∧ ∀ textLength, (stop.toError textLength).position = (seen textLength tokens i).2 ∧
        ∀ (others : List Token) (otherLength : Nat),
          (∀ j ≤ i, seen otherLength others j = seen textLength tokens j) →
            (ofTokens others).mapError (Stop.toError otherLength) = .error (stop.toError textLength) := by
  refine ⟨fun text error h => ?_, fun tokens stop => ofTokens_local⟩
  unfold parse at h
  by_cases hblank : text.toList.all Text.isBlank = true
  · rw [if_pos hblank] at h
    cases h
    exact ⟨Nat.zero_le _, .inl ⟨hblank, rfl⟩⟩
  rw [if_neg hblank] at h
  cases hscan : scan text.toList with
  | error stray =>
    rw [hscan] at h
    cases h
    obtain ⟨before, c, rest, hcomes, hplace, hpiece⟩ := scan_error_iff.1 hscan
    have htext := hcomes.eq_append
    refine ⟨?_, .inr (.inl ⟨before, c, rest, hcomes, htext, hplace, hpiece⟩)⟩
    rw [hplace, ← String.length_toList, htext, List.length_append]
    omega
  | ok tokens =>
    rw [hscan] at h
    simp only at h
    cases hread : ofTokens tokens with
    | ok command => rw [hread] at h; cases h
    | error stop =>
      rw [hread] at h
      cases h
      obtain ⟨i, hi, -, hstop⟩ := ofTokens_local hread
      rw [String.length_toList, (hstop text.length).1]
      refine ⟨?_, .inr (.inr ⟨tokens, i, rfl, hi, rfl⟩)⟩
      rw [← String.length_toList]
      exact seen_le hscan i

/-- The result is an error and no other, which can be found out for a given one. -/
def failsWith {ε α : Type} [DecidableEq ε] (result : Except ε α) (error : ε) : Bool :=
  match result with
  | .error found => decide (found = error)
  | .ok _ => false

theorem error_of_failsWith {ε α : Type} [DecidableEq ε] {result : Except ε α} {error : ε}
    (h : failsWith result error = true) : result = .error error := by
  cases result with
  | ok a => cases h
  | error found => rw [of_decide_eq_true h]

/-- An operand is missing before a semicolon; then the tokens of that text, and what they begin with. -/
theorem refusal_local_operand :
    parse "2d6+;1" = .error ⟨4, .expected .operand (some (.symbol .semicolon))⟩ ∧ 4 ≤ "2d6+;1".length ∧
    ∃ (tokens : List Token) (stop : Stop), ofTokens tokens = .error stop ∧
      stop.toError 6 = ⟨4, .expected .operand (some (.symbol .semicolon))⟩ ∧
      ∃ i ≤ tokens.length, stop.rest = tokens.drop i ∧
        ∀ (others : List Token) (otherLength : Nat), (∀ j ≤ i, seen otherLength others j = seen 6 tokens j) →
          (ofTokens others).mapError (Stop.toError otherLength) = .error (stop.toError 6) := by
  have hrefused : parse "2d6+;1" = .error ⟨4, .expected .operand (some (.symbol .semicolon))⟩ :=
    error_of_failsWith (by decide +kernel)
  let tokens : List Token := [⟨.number ['2'], 0⟩, ⟨.keyword .d, 1⟩, ⟨.number ['6'], 2⟩, ⟨.symbol .plus, 3⟩,
    ⟨.symbol .semicolon, 4⟩, ⟨.number ['1'], 5⟩]
  have hstop : ofTokens tokens = .error ⟨.expected .operand, tokens.drop 4⟩ := error_of_failsWith (by decide +kernel)
  obtain ⟨i, hi, hrest, hlocal⟩ := refusal_local.2 tokens _ hstop
  exact ⟨hrefused, (refusal_local.1 _ _ hrefused).1, tokens, _, hstop, rfl, i, hi, hrest, (hlocal 6).2⟩

end Command
end TabletopDice
