import TabletopDice.Token.Lexer
/-!
# Characters — digits, letters, white space and the characters of names

The kinds of characters that lexemes are made of: a digit is no letter, and white space is neither, nor does a name go
on with it.
-/
namespace TabletopDice
namespace Text

theorem toNat_of_isDigit {c : Char} (h : isDigit c = true) :
    (0x30 ≤ c.toNat ∧ c.toNat < 0x3A) ∨ 0x660 ≤ c.toNat := by
  refine Classical.byContradiction fun hout => ?_
  have hnone : digitValue? c = none := by
    unfold digitValue? zeros digitValueFrom digitValueFrom
    repeat' split
    all_goals first | rfl | omega
  rw [isDigit, hnone] at h
  cases h

theorem toNat_of_isLower {c : Char} (h : c.isLower = true) : 97 ≤ c.toNat ∧ c.toNat ≤ 122 := by
  unfold Char.isLower at h
  rw [Bool.and_eq_true, decide_eq_true_eq, decide_eq_true_eq] at h
  exact ⟨UInt32.le_iff_toNat_le.1 h.1, UInt32.le_iff_toNat_le.1 h.2⟩

theorem toNat_of_isUpper {c : Char} (h : c.isUpper = true) : 65 ≤ c.toNat ∧ c.toNat ≤ 90 := by
  unfold Char.isUpper at h
  rw [decide_eq_true_eq] at h
  exact ⟨UInt32.le_iff_toNat_le.1 h.1, UInt32.le_iff_toNat_le.1 h.2⟩

theorem toNat_of_baseLetter? {c p : Char} (h : baseLetter? c = some p) :
    (65 ≤ c.toNat ∧ c.toNat ≤ 90) ∨ (97 ≤ c.toNat ∧ c.toNat ≤ 122) ∨
      c.toNat = 0x212A ∨ c.toNat = 0x17F ∨ c.toNat = 0x130 ∨ c.toNat = 0x131 := by
  unfold baseLetter? at h
  split at h
  · exact .inr (.inl (toNat_of_isLower ‹_›))
  split at h
  · exact .inl (toNat_of_isUpper ‹_›)
  split at h
  · subst c
    decide
  split at h
  · subst c
    decide
  split at h
  · rename_i hi
    rw [Bool.or_eq_true, decide_eq_true_eq, decide_eq_true_eq] at hi
    obtain rfl | rfl := hi <;> decide
  · cases h

/-- The code points of white space. -/
def blankCodes : List Nat := blankRanges.flatMap fun range => List.range' range.1 (range.2 + 1 - range.1)

theorem mem_of_inRanges : ∀ {ranges : List (Nat × Nat)} {code : Nat}, inRanges ranges code = true →
    code ∈ ranges.flatMap fun range => List.range' range.1 (range.2 + 1 - range.1)
  | [], _, h => by cases h
  | (low, high) :: rest, code, h => by
    rw [inRanges] at h
    rw [List.flatMap_cons, List.mem_append]
    split at h
    · refine .inl (List.mem_range'_1.2 ?_)
      rw [decide_eq_true_eq] at h
      omega
    · exact .inr (mem_of_inRanges h)

theorem mem_blankCodes {c : Char} (h : isBlank c = true) : c.toNat ∈ blankCodes := mem_of_inRanges h

theorem isBlank_of_baseLetter? {c p : Char} (h : baseLetter? c = some p) : isBlank c = false := by
  refine Bool.eq_false_iff.2 fun hb => ?_
  have hnone : ∀ n ∈ blankCodes, ¬ ((65 ≤ n ∧ n ≤ 90) ∨ (97 ≤ n ∧ n ≤ 122) ∨ n = 0x212A ∨ n = 0x17F ∨ n = 0x130 ∨
      n = 0x131) := by decide
  exact hnone _ (mem_blankCodes hb) (toNat_of_baseLetter? h)

theorem isDigit_of_baseLetter? {c p : Char} (h : baseLetter? c = some p) : isDigit c = false := by
  refine Bool.eq_false_iff.2 fun hd => ?_
  have hletter := toNat_of_baseLetter? h
  have hdigit := toNat_of_isDigit hd
  have hkelvin : c.toNat = 0x212A := by omega
  unfold isDigit digitValue? at hd
  rw [hkelvin] at hd
  exact absurd hd (by decide)

theorem isBlank_of_isDigit {c : Char} (h : isDigit c = true) : isBlank c = false := by
  refine Bool.eq_false_iff.2 fun hb => ?_
  have hnone : ∀ n ∈ blankCodes, digitValueFrom zeros n = none := by decide
  rw [isDigit, digitValue?, hnone _ (mem_blankCodes hb)] at h
  cases h

theorem baseLetter?_of_isDigit {c : Char} (h : isDigit c = true) : baseLetter? c = none := by
  cases hb : baseLetter? c with
  | none => rfl
  | some p =>
    rw [isDigit_of_baseLetter? hb] at h
    cases h

theorem isWordChar_of_isBlank {c : Char} (h : isBlank c = true) : isWordChar c = false := by
  have hnone : ∀ n ∈ blankCodes, inRanges wordRanges n = false := by decide +kernel
  exact hnone _ (mem_blankCodes h)

theorem isLetter_of_isBlank {c : Char} (h : isBlank c = true) : isLetter c = false := by
  cases hb : baseLetter? c with
  | none => rw [isLetter, hb]; rfl
  | some p =>
    rw [isBlank_of_baseLetter? hb] at h
    cases h

theorem isDigit_of_isBlank {c : Char} (h : isBlank c = true) : isDigit c = false := by
  refine Bool.eq_false_iff.2 fun hd => ?_
  rw [isBlank_of_isDigit hd] at h
  cases h

end Text
end TabletopDice
