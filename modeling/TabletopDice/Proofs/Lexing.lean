import TabletopDice.Proofs.Characters
import TabletopDice.Proofs.Grammar.Completeness
import TabletopDice.Proofs.Places
/-!
# Lexing — the tokens of a text put together from texts

A character ends a lexeme if no lexeme goes on with it. The first piece of a text is then the same whatever follows
that character, so a text before it is scanned as if it stood alone (`scanFrom_append`). A text with a semicolon in it
has the tokens of the text before it, the semicolon, and the tokens of the text after it, further on
(`scanFrom_semicolon`).
-/
namespace TabletopDice
namespace Token

open Text

/-- **A character that no lexeme goes on with.** -/
structure EndsLexeme (s : Char) : Prop where
  digit : isDigit s = false
  wordChar : isWordChar s = false
  letter : baseLetter? s = none
  hyphen : s ≠ '-'
  equals : s ≠ '='

theorem endsLexeme_semicolon : EndsLexeme ';' where
  digit := by decide
  wordChar := by decide
  letter := by decide
  hyphen := by decide
  equals := by decide

theorem endsLexeme_of_isBlank {s : Char} (h : isBlank s = true) : EndsLexeme s where
  digit := isDigit_of_isBlank h
  wordChar := isWordChar_of_isBlank h
  letter := by simpa [isLetter] using isLetter_of_isBlank h
  hyphen := by rintro rfl; exact absurd h (by decide)
  equals := by rintro rfl; exact absurd h (by decide)

theorem takeWhile_append_cons {α : Type} {p : α → Bool} {a : α} (h : p a = false) (as tail : List α) :
    (as ++ a :: tail).takeWhile p = as.takeWhile p := by
  induction as with
  | nil => simp [h]
  | cons b as ih => by_cases hb : p b = true <;> simp [hb, ih]

theorem dropWhile_append_cons {α : Type} {p : α → Bool} {a : α} (h : p a = false) (as tail : List α) :
    (as ++ a :: tail).dropWhile p = as.dropWhile p ++ a :: tail := by
  induction as with
  | nil => simp [h]
  | cons b as ih => by_cases hb : p b = true <;> simp [hb, ih]

theorem length_takeWhile_le {α : Type} (p : α → Bool) (as : List α) : (as.takeWhile p).length ≤ as.length :=
  (List.takeWhile_sublist p).length_le

section Ends

variable {s : Char} (hs : EndsLexeme s) (tail : List Char)
include hs

theorem spanEnd?_append (cs : List Char) : spanEnd? (cs ++ s :: tail) = spanEnd? cs := by
  have hhyphen := hs.hyphen
  match cs with
  | [] => simp [spanEnd?, hhyphen]
  | [c] =>
    by_cases hc : c = '-'
    · subst hc
      simp [spanEnd?, hhyphen]
    · simp [spanEnd?, hc]
  | c :: d :: rest =>
    by_cases hc : c = '-' ∧ d = '-'
    · obtain ⟨rfl, rfl⟩ := hc
      simp only [List.cons_append, spanEnd?, takeWhile_append_cons hs.digit]
    · simp only [List.cons_append]
      unfold spanEnd?
      split <;> simp_all

theorem numberPiece_append (afterLetter : Bool) (c : Char) (rest : List Char) :
    numberPiece afterLetter c (rest ++ s :: tail) = numberPiece afterLetter c rest := by
  simp only [numberPiece, takeWhile_append_cons hs.digit, dropWhile_append_cons hs.digit, spanEnd?_append hs]

theorem nameAfterSigil?_append {continues : Char → Bool} (h : continues s = false) (cs : List Char) :
    nameAfterSigil? continues (cs ++ s :: tail) = nameAfterSigil? continues cs := by
  cases cs with
  | nil =>
    have hletter : isLetter s = false := by simp [isLetter, hs.letter]
    have hline : s ≠ '_' := fun h => by have := hs.wordChar; rw [h] at this; exact absurd this (by decide)
    simp [nameAfterSigil?, isNameStart, hletter, hline]
  | cons c rest => simp only [List.cons_append, nameAfterSigil?, takeWhile_append_cons h]

theorem startsWithWord_append (word cs : List Char) :
    startsWithWord word (cs ++ s :: tail) = startsWithWord word cs := by
  induction word generalizing cs with
  | nil => rfl
  | cons letter word ih =>
    cases cs with
    | nil => simp [startsWithWord, hs.letter]
    | cons c rest => simp only [List.cons_append, startsWithWord, ih]

theorem wordLength?_append (cs : List Char) : wordLength? (cs ++ s :: tail) = wordLength? cs := by
  simp only [wordLength?, startsWithWord_append hs]

omit hs in
theorem length_le_of_startsWithWord : ∀ {word cs : List Char}, startsWithWord word cs = true → word.length ≤ cs.length
  | [], cs, h => Nat.zero_le _
  | letter :: word, [], h => by cases h
  | letter :: word, c :: rest, h => by
    rw [startsWithWord, Bool.and_eq_true] at h
    exact Nat.succ_le_succ (length_le_of_startsWithWord h.2)

omit hs in
theorem wordLength?_le {cs : List Char} {length : Nat} (h : wordLength? cs = some length) : length ≤ cs.length := by
  unfold wordLength? at h
  split at h
  · rename_i word hfind
    cases h
    exact length_le_of_startsWithWord (List.find?_some (p := (startsWithWord · cs)) hfind)
  · split at h
    · rename_i hany
      cases h
      obtain ⟨letter, -, hletter⟩ := List.any_eq_true.1 hany
      exact length_le_of_startsWithWord hletter
    · cases h

omit hs in
theorem length_spanEnd?_le {cs high : List Char} (h : spanEnd? cs = some high) : 2 + high.length ≤ cs.length := by
  unfold spanEnd? at h
  split at h
  · rename_i rest
    have hle := length_takeWhile_le isDigit rest
    split at h
    · cases h
    · cases h
      simp only [List.length_cons]
      omega
  · cases h

omit hs in
theorem length_nameAfterSigil?_le {continues : Char → Bool} {cs name : List Char}
    (h : nameAfterSigil? continues cs = some name) : name.length ≤ cs.length := by
  cases cs with
  | nil => cases h
  | cons c rest =>
    rw [nameAfterSigil?] at h
    split at h
    · cases h
      exact Nat.succ_le_succ (length_takeWhile_le continues rest)
    · cases h

omit hs in
theorem prefix_of_nameAfterSigil? {continues : Char → Bool} {cs name : List Char}
    (h : nameAfterSigil? continues cs = some name) : name <+: cs := by
  cases cs with
  | nil => cases h
  | cons c rest =>
    rw [nameAfterSigil?] at h
    split at h
    · cases h
      exact List.cons_prefix_cons.2 ⟨rfl, List.takeWhile_prefix _⟩
    · cases h

omit hs in
theorem numberPiece_extra_le {afterLetter : Bool} {c : Char} {rest : List Char} {piece : Piece}
    (h : numberPiece afterLetter c rest = .ok piece) : piece.extra ≤ rest.length := by
  have hlen : (rest.takeWhile isDigit).length + (rest.dropWhile isDigit).length = rest.length := by
    rw [← List.length_append, List.takeWhile_append_dropWhile]
  unfold numberPiece at h
  dsimp only at h
  repeat' split at h
  all_goals cases h
  all_goals try have hhigh := length_spanEnd?_le ‹_›
  all_goals simp only; omega

omit hs in
/-- **A piece does not reach over the end** of the text. -/
theorem firstPiece_extra_le {afterLetter : Bool} {c : Char} {rest : List Char} {piece : Piece}
    (h : firstPiece afterLetter c rest = .ok piece) : piece.extra ≤ rest.length := by
  unfold firstPiece at h
  split at h
  · cases h
    exact length_takeWhile_le isBlank rest
  split at h
  · exact numberPiece_extra_le h
  split at h
  · split at h
    · cases h
      exact length_nameAfterSigil?_le ‹_›
    · cases h
  split at h
  · split at h
    · cases h
      exact length_nameAfterSigil?_le ‹_›
    · cases h
  split at h
  · rename_i hbecomes
    cases h
    cases rest with
    | nil => simp at hbecomes
    | cons d rest => exact Nat.succ_le_succ (Nat.zero_le _)
  split at h
  · cases h
    have := wordLength?_le ‹_›
    simp only [List.length_cons] at this
    simp only
    omega
  split at h
  · cases h
    exact Nat.zero_le _
  · cases h

/-- **The first piece of a text** is the same whatever follows a character that ends it, but for white space that goes
on with white space. -/
theorem firstPiece_append (afterLetter : Bool) {c : Char} (hc : isBlank c = true → isBlank s = false)
    (rest : List Char) : firstPiece afterLetter c (rest ++ s :: tail) = firstPiece afterLetter c rest := by
  have hflag : isFlagChar s = false := by simp [isFlagChar, hs.wordChar, hs.hyphen]
  have hhead : ((rest ++ s :: tail).head? == some '=') = (rest.head? == some '=') := by
    cases rest with
    | nil => simp [hs.equals]
    | cons d rest => rfl
  have hword := wordLength?_append hs tail (c :: rest)
  rw [List.cons_append] at hword
  cases hblank : isBlank c with
  | true => simp [firstPiece, hblank, takeWhile_append_cons (hc hblank)]
  | false =>
    unfold firstPiece
    rw [hblank, numberPiece_append hs, nameAfterSigil?_append hs tail hs.wordChar, nameAfterSigil?_append hs tail hflag,
      hhead, hword]
    cases hlength : wordLength? (c :: rest) with
    | none => rfl
    | some length =>
      have htake : (c :: (rest ++ s :: tail)).take length = (c :: rest).take length := by
        rw [← List.cons_append, List.take_append_of_le_length (wordLength?_le hlength)]
      simp only [htake]
      rfl

omit hs in
theorem firstPiece_semicolon (afterLetter : Bool) (rest : List Char) :
    firstPiece afterLetter ';' rest = .ok ⟨some (.symbol .semicolon), 0⟩ := by
  have hword : wordLength? (';' :: rest) = none := wordLength?_append endsLexeme_semicolon rest []
  have hblank : isBlank ';' = false := by decide
  simp [firstPiece, hblank, endsLexeme_semicolon.digit, hword]
  rfl

end Ends

/-! ## Scanning -/

/-- The token of a piece that stands at a place, if the piece is a lexeme. -/
def Piece.tokens (position : Nat) (piece : Piece) : List Token := piece.lexeme.toList.map (⟨·, position⟩)

theorem scanFrom_nil (afterLetter : Bool) (position : Nat) : scanFrom afterLetter position [] = .ok [] := by
  rw [scanFrom]

/-- **A text is scanned** by its first piece and by what is left after it. -/
theorem scanFrom_cons {afterLetter : Bool} {position : Nat} {c : Char} {rest : List Char} {tokens : List Token} :
    scanFrom afterLetter position (c :: rest) = .ok tokens ↔ ∃ piece more, firstPiece afterLetter c rest = .ok piece ∧
      scanFrom (endsInLetter c (rest.take piece.extra)) (position + 1 + piece.extra) (rest.drop piece.extra) = .ok more ∧
      tokens = piece.tokens position ++ more := by
  rw [scanFrom]
  cases hpiece : firstPiece afterLetter c rest with
  | error fault => simp
  | ok piece =>
    simp only [Except.ok.injEq, exists_eq_left', exists_and_left]
    cases hmore : scanFrom (endsInLetter c (rest.take piece.extra)) (position + 1 + piece.extra)
      (rest.drop piece.extra) with
    | error error => simp
    | ok more => cases hlexeme : piece.lexeme <;> simp [Piece.tokens, hlexeme, eq_comm]

/-- **A text that starts further on** has the same tokens further on. -/
theorem scanFrom_moved (further : Nat) : ∀ (cs : List Char) {afterLetter : Bool} {position : Nat} {tokens : List Token},
    scanFrom afterLetter position cs = .ok tokens →
      scanFrom afterLetter (position + further) cs = .ok (tokens.map (Token.moved (· + further)))
  | [], afterLetter, position, tokens, h => by
    rw [scanFrom_nil] at h
    cases h
    rw [scanFrom_nil]
    rfl
  | c :: rest, afterLetter, position, tokens, h => by
    obtain ⟨piece, more, hpiece, hmore, rfl⟩ := scanFrom_cons.1 h
    have ih := scanFrom_moved further (rest.drop piece.extra) hmore
    have hplace : position + 1 + piece.extra + further = position + further + 1 + piece.extra := by omega
    rw [hplace] at ih
    exact scanFrom_cons.2 ⟨piece, _, hpiece, ih, by simp [Piece.tokens, Token.moved, Function.comp_def]⟩
  termination_by cs => cs.length
  decreasing_by simp only [List.length_cons, List.length_drop]; omega

/-- Whether a letter stands right before what follows a text. -/
def endsAfter (afterLetter : Bool) (cs : List Char) : Bool := (cs.getLast?.map isLetter).getD afterLetter

theorem endsAfter_append (afterLetter : Bool) (as bs : List Char) :
    endsAfter (endsAfter afterLetter as) bs = endsAfter afterLetter (as ++ bs) := by
  rcases bs.eq_nil_or_concat with rfl | ⟨bs, b, rfl⟩
  · simp [endsAfter]
  · simp [endsAfter, ← List.append_assoc]

theorem endsInLetter_eq (afterLetter : Bool) (c : Char) (extra : List Char) :
    endsInLetter c extra = endsAfter afterLetter (c :: extra) := by
  rw [endsInLetter, endsAfter, List.getLast?_cons, List.getLastD_eq_getLast?]
  rfl

/-- A run of white space is dropped as a whole. -/
theorem scanFrom_run {c : Char} (hc : isBlank c = true) (afterLetter : Bool) (position : Nat) (rest : List Char) :
    scanFrom afterLetter position (c :: rest) =
      scanFrom false (position + 1 + (rest.takeWhile isBlank).length) (rest.dropWhile isBlank) := by
  have hpiece : firstPiece afterLetter c rest = .ok ⟨none, (rest.takeWhile isBlank).length⟩ := if_pos hc
  have hlast : endsInLetter c (rest.takeWhile isBlank) = false := by
    refine isLetter_of_isBlank ?_
    rw [List.getLastD_eq_getLast?]
    cases h : (rest.takeWhile isBlank).getLast? with
    | none => exact hc
    | some d => exact List.all_eq_true.1 List.all_takeWhile d (List.mem_of_getLast? h)
  have hrest := List.takeWhile_append_dropWhile (p := isBlank) (l := rest)
  have htake : rest.take (rest.takeWhile isBlank).length = rest.takeWhile isBlank := by
    have h := @List.take_left _ (rest.takeWhile isBlank) (rest.dropWhile isBlank)
    rwa [hrest] at h
  have hdrop : rest.drop (rest.takeWhile isBlank).length = rest.dropWhile isBlank := by
    have h := @List.drop_left _ (rest.takeWhile isBlank) (rest.dropWhile isBlank)
    rwa [hrest] at h
  rw [scanFrom, hpiece]
  simp only [htake, hdrop, hlast]
  cases scanFrom false (position + 1 + (rest.takeWhile isBlank).length) (rest.dropWhile isBlank) <;> rfl

/-- White space is dropped character by character. -/
theorem scanFrom_blank_cons {c : Char} (hc : isBlank c = true) (afterLetter : Bool) (position : Nat)
    (rest : List Char) : scanFrom afterLetter position (c :: rest) = scanFrom false (position + 1) rest := by
  rw [scanFrom_run hc]
  cases rest with
  | nil => rfl
  | cons d rest =>
    by_cases hd : isBlank d = true
    · rw [scanFrom_run hd, List.takeWhile_cons_of_pos hd, List.dropWhile_cons_of_pos hd, List.length_cons]
      congr 1
      omega
    · rw [List.takeWhile_cons_of_neg hd, List.dropWhile_cons_of_neg hd]
      rfl

/-- **A text before a character that ends lexemes** is scanned as if it stood alone. -/
theorem scanFrom_append {s : Char} (hs : EndsLexeme s) (tail : List Char) :
    ∀ (cs : List Char) {afterLetter : Bool} {position : Nat} {tokens : List Token},
      scanFrom afterLetter position cs = .ok tokens → ∀ {all : List Token},
      (scanFrom afterLetter position (cs ++ s :: tail) = .ok all ↔ ∃ more,
        scanFrom (endsAfter afterLetter cs) (position + cs.length) (s :: tail) = .ok more ∧ all = tokens ++ more)
  | [], afterLetter, position, tokens, h, all => by
    rw [scanFrom_nil] at h
    cases h
    simp [endsAfter]
  | c :: rest, afterLetter, position, tokens, h, all => by
    by_cases hc : isBlank c = true
    · rw [scanFrom_blank_cons hc] at h
      have hplace : position + 1 + rest.length = position + (c :: rest).length := by
        rw [List.length_cons]
        omega
      have hflag : endsAfter false rest = endsAfter afterLetter (c :: rest) := by
        rw [← isLetter_of_isBlank hc]
        exact endsAfter_append afterLetter [c] rest
      rw [List.cons_append, scanFrom_blank_cons hc, scanFrom_append hs tail rest h, hplace, hflag]
    · obtain ⟨piece, more, hpiece, hmore, rfl⟩ := scanFrom_cons.1 h
      have hle := firstPiece_extra_le hpiece
      have hplace : position + 1 + piece.extra + (rest.drop piece.extra).length = position + (c :: rest).length := by
        rw [List.length_drop, List.length_cons]
        omega
      have hflag : endsAfter (endsInLetter c (rest.take piece.extra)) (rest.drop piece.extra) =
          endsAfter afterLetter (c :: rest) := by
        rw [endsInLetter_eq afterLetter, endsAfter_append, List.cons_append, List.take_append_drop]
      have hfirst : firstPiece afterLetter c (rest ++ s :: tail) = .ok piece := by
        rw [firstPiece_append hs tail afterLetter (fun h => absurd h hc), hpiece]
      have ih := @scanFrom_append s hs tail (rest.drop piece.extra) _ _ _ hmore
      rw [hplace, hflag] at ih
      rw [List.cons_append, scanFrom_cons, hfirst]
      constructor
      · rintro ⟨found, others, hfound, hothers, rfl⟩
        cases hfound
        rw [List.take_append_of_le_length hle, List.drop_append_of_le_length hle] at hothers
        obtain ⟨last, hlast, rfl⟩ := ih.1 hothers
        exact ⟨last, hlast, (List.append_assoc ..).symm⟩
      · rintro ⟨last, hlast, rfl⟩
        refine ⟨piece, _, rfl, ?_, List.append_assoc ..⟩
        rw [List.take_append_of_le_length hle, List.drop_append_of_le_length hle]
        exact ih.2 ⟨last, hlast, rfl⟩
  termination_by cs => cs.length
  decreasing_by all_goals (simp only [List.length_cons, List.length_drop]; omega)

/-- **The tokens of two texts with a semicolon between them.** -/
theorem scanFrom_semicolon {after : List Char} {afterTokens : List Token} (hafter : scan after = .ok afterTokens)
    (cs : List Char) {afterLetter : Bool} {position : Nat} {tokens : List Token}
    (h : scanFrom afterLetter position cs = .ok tokens) :
    scanFrom afterLetter position (cs ++ ';' :: after) = .ok (tokens ++ ⟨.symbol .semicolon, position + cs.length⟩ ::
      afterTokens.map (Token.moved (· + (position + cs.length + 1)))) := by
  have hlater := scanFrom_moved (position + cs.length + 1) after hafter
  rw [Nat.zero_add] at hlater
  refine (scanFrom_append endsLexeme_semicolon after cs h).2 ⟨_, ?_, rfl⟩
  exact scanFrom_cons.2 ⟨_, _, firstPiece_semicolon _ after, hlater, rfl⟩

/-- **White space before a text** only says that no letter stands right before it. -/
theorem scanFrom_blanks : ∀ {blanks : List Char}, blanks ≠ [] → (∀ c ∈ blanks, isBlank c = true) →
    ∀ (afterLetter : Bool) (position : Nat) (rest : List Char),
      scanFrom afterLetter position (blanks ++ rest) = scanFrom false (position + blanks.length) rest
  | [c], _, hblank, afterLetter, position, rest => scanFrom_blank_cons (hblank c List.mem_cons_self) _ _ _
  | c :: d :: blanks, _, hblank, afterLetter, position, rest => by
    have hrest : ∀ b ∈ d :: blanks, isBlank b = true := fun b hb => hblank b (List.mem_cons_of_mem _ hb)
    rw [List.cons_append, scanFrom_blank_cons (hblank c List.mem_cons_self),
      scanFrom_blanks (List.cons_ne_nil _ _) hrest, List.length_cons (a := c)]
    congr 1
    omega

/-- Nothing but white space has no tokens. -/
theorem scanFrom_blank {cs : List Char} {afterLetter : Bool} {position : Nat} {tokens : List Token}
    (hblank : cs.all isBlank = true) (h : scanFrom afterLetter position cs = .ok tokens) : tokens = [] := by
  have hnil : scanFrom afterLetter position cs = .ok [] := by
    by_cases hne : cs = []
    · rw [hne, scanFrom_nil]
    · have hall := scanFrom_blanks hne (List.all_eq_true.1 hblank) afterLetter position []
      rw [List.append_nil] at hall
      rw [hall, scanFrom_nil]
  rw [h] at hnil
  exact Except.ok.inj hnil

end Token

namespace Command

open Grammar

/-- **A text whose tokens derive a command** within the nesting that is allowed is that command. -/
theorem parse_of_derives {text : String} {tokens : List Token} {c : Command} {n : Nat}
    (hscan : Token.scan text.toList = .ok tokens) (hderives : DerivesCommand tokens c n) (hn : n ≤ maxNesting) :
    parse text = .ok c := by
  have hread : ofTokens tokens = .ok c := (ofTokens_of_derives hderives).1 hn
  have hblank : text.toList.all Text.isBlank = false := by
    refine Bool.eq_false_iff.2 fun hall => ?_
    rw [Token.scanFrom_blank hall hscan, ofTokens, command_eq] at hread
    cases hread
  simp only [parse, hblank, hscan, hread]
  rfl

/-- **A text is a command** if and only if it has tokens and they are read as that command. -/
theorem parse_iff {text : String} {c : Command} :
    parse text = .ok c ↔ ∃ tokens, Token.scan text.toList = .ok tokens ∧ ofTokens tokens = .ok c := by
  constructor
  · intro h
    obtain ⟨tokens, n, hscan, hn, hderives⟩ := derives_of_parse h
    exact ⟨tokens, hscan, (ofTokens_of_derives hderives).1 hn⟩
  · rintro ⟨tokens, hscan, hread⟩
    obtain ⟨n, hn, hderives⟩ := derives_of_ofTokens hread
    exact parse_of_derives hscan hderives hn

end Command
end TabletopDice
