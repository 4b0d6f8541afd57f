import TabletopDice.Proofs.Formation
import TabletopDice.Proofs.Grammar.Soundness
/-!
# Numerals — how large the numbers are that a text writes out

A numeral of so many digits is less than that power of ten, and a text has no numeral of more than `maxDigits` digits.
The numbers in the expressions of a command are therefore less than ten to the power `maxDigits`.
-/
namespace TabletopDice

namespace Text

theorem digitValueFrom_lt : ∀ {starts : List Nat} {code d : Nat}, digitValueFrom starts code = some d → d < 10
  | [], _, _, h => by cases h
  | start :: starts, code, d, h => by
    rw [digitValueFrom] at h
    split at h
    · cases h
    · split at h
      · cases h
        omega
      · exact digitValueFrom_lt h

theorem digitValue_lt (c : Char) : (digitValue? c).getD 0 < 10 := by
  cases h : digitValue? c with
  | none => decide
  | some d => exact digitValueFrom_lt h

/-- **A numeral of `k` digits is less than the `k`-th power of ten.** -/
theorem numeralValue_lt (digits : List Char) : numeralValue digits < Nat.pow 10 digits.length := by
  have hfold : ∀ (digits : List Char) (n k : Nat), n < Nat.pow 10 k →
      digits.foldl (fun n c => 10 * n + (digitValue? c).getD 0) n < Nat.pow 10 (k + digits.length) := by
    intro digits
    induction digits with
    | nil => exact fun n k h => h
    | cons c rest ih =>
      intro n k h
      have hc := digitValue_lt c
      have hpow : Nat.pow 10 (k + 1) = Nat.pow 10 k * 10 := rfl
      have hnext : 10 * n + (digitValue? c).getD 0 < Nat.pow 10 (k + 1) := by omega
      have hle := ih _ (k + 1) hnext
      rwa [Nat.add_assoc, Nat.add_comm 1] at hle
  have h := hfold digits 0 0 (by decide)
  rwa [Nat.zero_add] at h

end Text

/-- The numerals of a lexeme have at most `maxDigits` digits. -/
def Lexeme.Short : Lexeme → Prop
  | .number digits => digits.length ≤ maxDigits
  | .span low high => low.length ≤ maxDigits ∧ high.length ≤ maxDigits
  | _ => True

instance : (lexeme : Lexeme) → Decidable lexeme.Short
  | .number digits => inferInstanceAs (Decidable (digits.length ≤ maxDigits))
  | .span low high => inferInstanceAs (Decidable (low.length ≤ maxDigits ∧ high.length ≤ maxDigits))
  | .keyword _ | .lookalike _ | .var _ | .flag _ | .becomes | .symbol _ => inferInstanceAs (Decidable True)

namespace Token

/-- **A piece that begins with a digit** is the numeral of all digits, or a range from it to another; neither is too
long. -/
theorem numberPiece_ok {afterLetter : Bool} {c : Char} {rest : List Char} {piece : Piece}
    (h : numberPiece afterLetter c rest = .ok piece) :
    (piece = ⟨some (.number (c :: rest.takeWhile Text.isDigit)), (rest.takeWhile Text.isDigit).length⟩ ∧
      (rest.takeWhile Text.isDigit).length + 1 ≤ maxDigits) ∨
    ∃ high, spanEnd? (rest.dropWhile Text.isDigit) = some high ∧
      piece = ⟨some (.span (c :: rest.takeWhile Text.isDigit) high),
        (rest.takeWhile Text.isDigit).length + 2 + high.length⟩ ∧
      (rest.takeWhile Text.isDigit).length + 1 ≤ maxDigits ∧ high.length ≤ maxDigits := by
  have hsingle : ∀ {piece : Piece}, (if (rest.takeWhile Text.isDigit).length + 1 ≤ maxDigits then
      Except.ok ⟨some (.number (c :: rest.takeWhile Text.isDigit)), (rest.takeWhile Text.isDigit).length⟩
      else .error SyntaxFault.longNumber) = .ok piece →
      piece = ⟨some (.number (c :: rest.takeWhile Text.isDigit)), (rest.takeWhile Text.isDigit).length⟩ ∧
        (rest.takeWhile Text.isDigit).length + 1 ≤ maxDigits := by
    intro piece h
    split at h
    · rename_i hle
      cases h
      exact ⟨rfl, hle⟩
    · cases h
  unfold numberPiece at h
  dsimp only at h
  split at h
  · exact .inl (hsingle h)
  · split at h
    · exact .inl (hsingle h)
    · rename_i high hspan
      split at h
      · rename_i hle
        rw [Bool.and_eq_true, decide_eq_true_eq, decide_eq_true_eq] at hle
        cases h
        exact .inr ⟨high, hspan, rfl, hle⟩
      · cases h

theorem numberPiece_short {afterLetter : Bool} {c : Char} {rest : List Char} {piece : Piece}
    (h : numberPiece afterLetter c rest = .ok piece) : ∀ lexeme ∈ piece.lexeme, lexeme.Short := by
  rcases numberPiece_ok h with ⟨rfl, hle⟩ | ⟨high, -, rfl, hle⟩
  · rintro _ ⟨⟩
    exact hle
  · rintro _ ⟨⟩
    exact hle

theorem wordLexeme_short (word : List Char) : (wordLexeme word).Short := by
  unfold wordLexeme
  dsimp only
  split <;> trivial

theorem firstPiece_short {afterLetter : Bool} {c : Char} {rest : List Char} {piece : Piece}
    (h : firstPiece afterLetter c rest = .ok piece) : ∀ lexeme ∈ piece.lexeme, lexeme.Short := by
  unfold firstPiece at h
  repeat' split at h
  all_goals first
    | exact numberPiece_short h
    | cases h
  all_goals rintro _ ⟨⟩
  all_goals first
    | exact wordLexeme_short _
    | trivial

/-- **What holds of the lexeme of every piece holds of every token.** -/
theorem scanFrom_lexemes {P : Lexeme → Prop}
    (hpiece : ∀ {afterLetter : Bool} {c : Char} {rest : List Char} {piece : Piece},
      firstPiece afterLetter c rest = .ok piece → ∀ lexeme ∈ piece.lexeme, P lexeme)
    {afterLetter : Bool} {position : Nat} {text : List Char} {tokens : List Token}
    (h : scanFrom afterLetter position text = .ok tokens) : ∀ t ∈ tokens, P t.lexeme := by
  fun_induction scanFrom afterLetter position text generalizing tokens with
  | case1 => cases h; exact fun t ht => absurd ht List.not_mem_nil
  | case2 | case3 => cases h
  | case4 afterLetter position c rest piece hp others hothers hlexeme ih =>
    cases h
    exact ih hothers
  | case5 afterLetter position c rest piece hp others hothers lexeme hlexeme ih =>
    cases h
    intro t ht
    rcases List.mem_cons.1 ht with rfl | ht
    · exact hpiece hp lexeme hlexeme
    · exact ih hothers t ht

theorem scanFrom_short {afterLetter : Bool} {position : Nat} {text : List Char} {tokens : List Token}
    (h : scanFrom afterLetter position text = .ok tokens) : ∀ t ∈ tokens, t.lexeme.Short :=
  scanFrom_lexemes firstPiece_short h

end Token

namespace Grammar

theorem numeral_lt {digits : List Char} (h : digits.length ≤ maxDigits) :
    Text.numeralValue digits < Nat.pow 10 maxDigits :=
  Nat.lt_of_lt_of_le (Text.numeralValue_lt digits) (Nat.pow_le_pow_right (by decide) h)

theorem RollPhrase.numbers_lt {ts : List Token} {term : Roll} (h : RollPhrase ts term)
    (hshort : ∀ t ∈ ts, t.lexeme.Short) : ∀ n ∈ term.numbers, n < Nat.pow 10 maxDigits := by
  cases h with
  | span low high p =>
    have hspan := hshort _ List.mem_cons_self
    intro n hn
    rcases List.mem_cons.1 hn with rfl | hn
    · exact numeral_lt hspan.1
    · rw [List.mem_singleton.1 hn]
      exact numeral_lt hspan.2
  | _ => exact fun n hn => absurd hn List.not_mem_nil

theorem Derives.numbers_lt {rule : Rule} {ts : List Token} {e : Expr} {k : Nat} (h : Derives rule ts e k)
    (hshort : ∀ t ∈ ts, t.lexeme.Short) : ∀ n ∈ e.numbers, n < Nat.pow 10 maxDigits := by
  induction h with
  | sum _ ih | oneTerm _ ih | oneFactor _ ih | unsigned _ ih | noBounds _ ih => exact ih hshort
  | assignment name p q _ ih | signed p _ _ ih | parentheses p q _ ih | unbounded p q r _ ih =>
    exact ih fun t ht => hshort t (by simp [ht])
  | moreTerms p _ _ _ ihl ihr | moreFactors p _ _ _ ihl ihr | atLeast p q r _ _ ihl ihr | atMost p q r _ _ ihl ihr =>
    intro n hn
    rcases List.mem_append.1 hn with hn | hn
    · exact ihl (fun t ht => hshort t (by simp [ht])) n hn
    · exact ihr (fun t ht => hshort t (by simp [ht])) n hn
  | between p q r _ _ _ ih ihlow ihhigh =>
    intro n hn
    rcases List.mem_append.1 hn with hn | hn
    · exact ih (fun t ht => hshort t (by simp [ht])) n hn
    · rcases List.mem_append.1 hn with hn | hn
      · exact ihlow (fun t ht => hshort t (by simp [ht])) n hn
      · exact ihhigh (fun t ht => hshort t (by simp [ht])) n hn
  | literal digits p =>
    intro n hn
    rw [List.mem_singleton.1 hn]
    exact numeral_lt (hshort _ List.mem_cons_self)
  | var => exact fun n hn => absurd hn List.not_mem_nil
  | roll hr => exact hr.numbers_lt hshort

end Grammar

/-- **The numbers of a command have at most `maxDigits` digits.** -/
theorem Command.numbers_lt_of_parse {text : String} {command : Command} (h : parse text = .ok command) :
    ∀ e ∈ command.trees, ∀ n ∈ e.numbers, n < Nat.pow 10 maxDigits := by
  obtain ⟨tokens, k, hscan, _, hderives⟩ := derives_of_parse h
  intro e he
  obtain ⟨rule, ts, m, _, hts, _, hmem⟩ := hderives.trees e he
  exact hts.numbers_lt fun t ht => Token.scanFrom_short hscan t (hmem t ht)

end TabletopDice
