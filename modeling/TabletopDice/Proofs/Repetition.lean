import Mathlib.Data.List.Forall2
import TabletopDice.Proofs.Spacing
import TabletopDice.Proofs.Writing
/-!
# Repetition — an expression repeated as typed

A count and the letter x before an expression repeat it, as long as the expression does not start with a range: right
after the letter its numerals are a difference. In brackets the expressions of a batch are always read as they are
alone, with or without white space around them (`parse_repeated`).
-/
namespace TabletopDice
namespace Token

open Text Writing

/-! ## White space around a text -/

theorem opensSpan_of_head {cs : List Char} (h : ∀ c ∈ cs.head?, isDigit c = false) : opensSpan cs = false := by
  cases cs with
  | nil => rfl
  | cons c rest => rw [opensSpan_cons, h c rfl, Bool.false_and]

/-- A gap before a character that is no digit is dropped, also right after a letter. -/
theorem scanFrom_gap {gap : List Char} (hgap : ∀ c ∈ gap, isBlank c = true) {s : Char} (hs : isDigit s = false)
    (tail : List Char) (afterLetter : Bool) (position : Nat) :
    scanFrom afterLetter position (gap ++ s :: tail) = scanFrom false (position + gap.length) (s :: tail) := by
  by_cases hne : gap = []
  · subst hne
    exact scanFrom_afterLetter (opensSpan_of_head fun c hc => by cases hc; exact hs) afterLetter position
  · exact scanFrom_blanks hne hgap afterLetter position _

theorem head_gap {gap : List Char} (hgap : ∀ c ∈ gap, isBlank c = true) {s : Char}
    (hs : isDigit s = false ∧ s ≠ '-') (tail : List Char) :
    ∀ c ∈ (gap ++ s :: tail).head?, isDigit c = false ∧ c ≠ '-' := by
  intro c hc
  cases gap with
  | nil =>
    cases hc
    exact hs
  | cons b gap =>
    have hb : EndsLexeme b := endsLexeme_of_isBlank (hgap b List.mem_cons_self)
    cases hc
    exact ⟨hb.digit, hb.hyphen⟩

/-- **A text with a gap on either side**, before a character that ends lexemes, has the tokens that it has alone. -/
theorem scanFrom_padded {cs gap : List Char} {tokens : List Token} (hscan : scan cs = .ok tokens)
    (hgap : ∀ c ∈ gap, isBlank c = true) {s : Char} (hs : EndsLexeme s) (tail : List Char) (position : Nat)
    {more : List Token}
    (hmore : scanFrom false (position + gap.length + cs.length + gap.length) (s :: tail) = .ok more) :
    scanFrom false position (gap ++ (cs ++ (gap ++ s :: tail))) =
      .ok (tokens.map (Token.moved (· + (position + gap.length))) ++ more) := by
  have hmoved := scanFrom_moved (position + gap.length) cs hscan
  rw [Nat.zero_add] at hmoved
  have hbehind := scanFrom_gap hgap hs.digit tail (endsAfter false cs) (position + gap.length + cs.length)
  have hlead : scanFrom false position (gap ++ (cs ++ (gap ++ s :: tail))) =
      scanFrom false (position + gap.length) (cs ++ (gap ++ s :: tail)) := by
    by_cases hne : gap = []
    · subst hne
      rfl
    · exact scanFrom_blanks hne hgap false position _
  rw [hlead]
  cases gap with
  | nil => exact (scanFrom_append hs tail cs hmoved).2 ⟨more, hbehind.trans hmore, rfl⟩
  | cons b gap =>
    have hb : EndsLexeme b := endsLexeme_of_isBlank (hgap b List.mem_cons_self)
    exact (scanFrom_append hb _ cs hmoved).2 ⟨more, hbehind.trans hmore, rfl⟩

/-! ## Counts and signs -/

theorem scanFrom_sign {s : Symbol} (hs : s ≠ .colon) {afterLetter : Bool} {position : Nat} {rest : List Char}
    {more : List Token} (h : scanFrom false (position + 1) rest = .ok more) :
    scanFrom afterLetter position (s.char :: rest) = .ok (⟨.symbol s, position⟩ :: more) := by
  have hletter : endsInLetter s.char [] = false := by cases s <;> decide
  refine scanFrom_cons.2 ⟨_, more, firstPiece_sign s (fun hcolon => absurd hcolon hs) afterLetter, ?_, rfl⟩
  rw [List.take_zero, hletter]
  exact h

theorem firstPiece_x (afterLetter : Bool) (rest : List Char) :
    firstPiece afterLetter 'x' rest = .ok ⟨some (.keyword .x), 0⟩ := by
  have hlength : wordLength? ('x' :: rest) = some 1 := by
    have hx : baseLetter? 'x' = some 'x' := rfl
    simp [wordLength?, longWords, singleLetters, Keyword.spelling, startsWithWord, hx]
  rw [firstPiece_letter rfl hlength]
  rfl

theorem scanFrom_x {afterLetter : Bool} {position : Nat} {rest : List Char} {all : List Token} :
    scanFrom afterLetter position ('x' :: rest) = .ok all ↔ ∃ more, scanFrom true (position + 1) rest = .ok more ∧
      all = ⟨.keyword .x, position⟩ :: more := by
  rw [scanFrom_cons, firstPiece_x]
  constructor
  · rintro ⟨piece, more, hpiece, hmore, rfl⟩
    cases hpiece
    exact ⟨more, hmore, rfl⟩
  · rintro ⟨more, hmore, rfl⟩
    exact ⟨_, more, rfl, hmore, rfl⟩

/-- **A number** before anything that does not continue it. -/
theorem scanFrom_digits (n : Digits) (hshort : n.chars.length ≤ maxDigits) {rest : List Char}
    (hrest : ∀ c ∈ rest.head?, isDigit c = false ∧ c ≠ '-') {afterLetter : Bool} {position : Nat} {all : List Token} :
    scanFrom afterLetter position (n.chars ++ rest) = .ok all ↔ ∃ more,
      scanFrom (endsAfter afterLetter n.chars) (position + n.chars.length) rest = .ok more ∧
        all = ⟨.number n.chars, position⟩ :: more := by
  obtain ⟨digits, hdigits, hne⟩ := n
  obtain ⟨c, digits, rfl⟩ := List.exists_cons_of_ne_nil hne
  have hpiece := firstPiece_number hdigits (fun d hd => (hrest d hd).1) (spanEnd?_eq_none fun d hd => (hrest d hd).2)
    afterLetter
  rw [if_pos hshort] at hpiece
  have hplace : position + 1 + digits.length = position + (c :: digits).length := by
    rw [List.length_cons]
    omega
  have hbehind : scanFrom (endsInLetter c ((digits ++ rest).take digits.length)) (position + 1 + digits.length)
      ((digits ++ rest).drop digits.length) =
        scanFrom (endsAfter afterLetter (c :: digits)) (position + (c :: digits).length) rest := by
    rw [List.take_left, List.drop_left, endsInLetter_eq, hplace]
  rw [List.cons_append, scanFrom_cons, hpiece]
  constructor
  · rintro ⟨piece, more, hread, hmore, rfl⟩
    cases hread
    exact ⟨more, hbehind.symm.trans hmore, rfl⟩
  · rintro ⟨more, hmore, rfl⟩
    exact ⟨_, more, rfl, hbehind.trans hmore, rfl⟩

/-- **A count and the letter x** are the first two tokens, and what follows is scanned as behind a letter. -/
theorem scan_repeated (n : Digits) (hshort : n.chars.length ≤ maxDigits) {gap : List Char}
    (hgap : ∀ c ∈ gap, isBlank c = true) (cs : List Char) {all : List Token} :
    scan (n.chars ++ (gap ++ 'x' :: cs)) = .ok all ↔ ∃ more,
      scanFrom true (n.chars.length + gap.length + 1) cs = .ok more ∧
        all = ⟨.number n.chars, 0⟩ :: ⟨.keyword .x, n.chars.length + gap.length⟩ :: more := by
  rw [scan, scanFrom_digits n hshort (head_gap hgap (by decide) cs), scanFrom_gap hgap (by decide), Nat.zero_add]
  simp only [scanFrom_x]
  constructor
  · rintro ⟨-, ⟨more, hmore, rfl⟩, rfl⟩
    exact ⟨more, hmore, rfl⟩
  · rintro ⟨more, hmore, rfl⟩
    exact ⟨_, ⟨more, hmore, rfl⟩, rfl⟩

end Token

/-! ## Repetitions -/

namespace Command

open Grammar Token Text Writing

/-- **A text that is one expression** and nothing else. -/
def IsExpression (text : String) (e : Expr) : Prop := ∃ position, parse text = .ok ⟨.once e position, []⟩

theorem IsExpression.derives {text : String} {e : Expr} (h : IsExpression text e) :
    ∃ tokens n, Token.scan text.toList = .ok tokens ∧ n ≤ maxNesting ∧ Derives .expr tokens e n := by
  obtain ⟨position, h⟩ := h
  obtain ⟨tokens, n, hscan, hn, hderives⟩ := derives_of_parse h
  cases hderives with
  | one hstatement =>
    cases hstatement with
    | once hexpr => exact ⟨_, n, hscan, hn, hexpr⟩

theorem isExpression_of_parses {text : String} {e : Expr} {position : Nat}
    (h : parses text (fun c => c = ⟨.once e position, []⟩) = true) : IsExpression text e := by
  obtain ⟨c, hparse, hc⟩ := ok_of_parses _ h
  exact ⟨position, by rw [hparse, of_decide_eq_true hc]⟩

/-- **An expression repeated**: a count and the letter x right before it. -/
def repeatedText (n : Digits) (text : String) : String := String.ofList (n.chars ++ 'x' :: text.toList)

/-- **An expression repeated is read as typed** exactly if it does not start with a range: behind the letter the first
number of a range stands alone. -/
theorem parse_repeatedText {n : Digits} (hshort : n.chars.length ≤ maxDigits) {text : String} {e : Expr}
    (h : IsExpression text e) :
    (∃ placed position, parse (repeatedText n text) = .ok ⟨.times n.value placed position, []⟩ ∧
      placed.unplaced = e.unplaced) ↔ opensSpan text.toList = false := by
  obtain ⟨tokens, m, hscan, hm, hderives⟩ := h.derives
  have hrepeated : ∀ all, Token.scan (repeatedText n text).toList = .ok all ↔ ∃ more,
      scanFrom true (n.chars.length + 1) text.toList = .ok more ∧
        all = ⟨.number n.chars, 0⟩ :: ⟨.keyword .x, n.chars.length⟩ :: more := by
    intro all
    have hnone : ∀ c ∈ ([] : List Char), isBlank c = true := fun _ hc => nomatch hc
    rw [repeatedText, String.toList_ofList]
    exact scan_repeated n hshort hnone text.toList
  constructor
  · rintro ⟨placed, position, hparse, heq⟩
    by_contra hopens
    rw [Bool.not_eq_false] at hopens
    obtain ⟨all, k, hall, -, hderives'⟩ := derives_of_parse hparse
    obtain ⟨more, hmore, rfl⟩ := (hrepeated _).1 hall
    obtain ⟨digits, rest, rfl⟩ := scanFrom_number hopens hmore
    obtain ⟨low, high, others, rfl⟩ := scanFrom_span hopens hscan
    have hsame : Command.unplaced ⟨.times n.value placed position, []⟩ = Command.unplaced ⟨.times n.value e 0, []⟩ :=
      congrArg (fun tree => (⟨.times n.value tree 0, []⟩ : Command)) heq
    have hmarks := marksOf_eq_of_unplaced hderives' (.one (.times n.chars 0 0 hderives)) hsame
    have hthird := (List.cons.inj (List.cons.inj (List.cons.inj hmarks).2).2).1
    cases hthird
  · intro hfree
    have hmoved := scanFrom_moved (n.chars.length + 1) text.toList hscan
    rw [Nat.zero_add, ← scanFrom_afterLetter hfree true] at hmoved
    exact ⟨e.moved (· + (n.chars.length + 1)), 0,
      parse_of_derives ((hrepeated _).2 ⟨_, hmoved, rfl⟩) (.one (.times n.chars 0 n.chars.length hderives.moved)) hm,
      e.unplaced_moved _⟩

/-! ## Batches -/

/-- Texts with semicolons between them and a gap on either side of each. -/
def joinedTexts (gap : List Char) (texts : List String) : List Char :=
  [';'].intercalate (texts.map fun text => gap ++ (text.toList ++ gap))

/-- **A batch of texts**: a count, the letter x and the texts in brackets, with the same gap wherever one may stand. -/
def batchText (n : Digits) (gap : List Char) (texts : List String) : String :=
  String.ofList (n.chars ++ (gap ++ 'x' :: (gap ++ '[' :: (joinedTexts gap texts ++ [']']))))

theorem endsLexeme_closeBracket : EndsLexeme ']' where
  digit := by decide
  wordChar := by decide
  letter := by decide
  hyphen := by decide
  equals := by decide

/-- **The texts of a batch** derive their expressions, each at its place, and the bracket closes behind them. -/
theorem scan_joinedTexts {gap : List Char} (hgap : ∀ c ∈ gap, isBlank c = true) :
    ∀ {texts : List String} {es : List Expr}, texts ≠ [] → List.Forall₂ IsExpression texts es → ∀ position,
      ∃ tokens q placed n, scanFrom false position (joinedTexts gap texts ++ [']']) =
          .ok (tokens ++ [⟨.symbol .closeBracket, q⟩]) ∧
        DerivesAll tokens placed n ∧ n ≤ maxNesting ∧ placed.map Expr.unplaced = es.map Expr.unplaced
  | [text], [e], _, .cons he .nil, position => by
    obtain ⟨tokens, n, hscan, hn, hderives⟩ := he.derives
    have hclose : ∀ q, scanFrom false q [']'] = .ok [⟨.symbol .closeBracket, q⟩] := fun q =>
      scanFrom_sign (s := .closeBracket) (by decide) (scanFrom_nil _ _)
    have hpadded := scanFrom_padded hscan hgap endsLexeme_closeBracket [] position (hclose _)
    refine ⟨_, position + gap.length + text.toList.length + gap.length, _, n, ?_,
      .one (hderives.moved (f := (· + (position + gap.length)))), hn, by simp⟩
    rw [joinedTexts, List.map_singleton, List.intercalate_singleton, List.append_assoc, List.append_assoc]
    exact hpadded
  | text :: other :: texts, e :: f :: es, _, .cons he hrest, position => by
    obtain ⟨tokens, n, hscan, hn, hderives⟩ := he.derives
    obtain ⟨others, q, placed, m, hothers, hall, hm, hplaced⟩ := scan_joinedTexts hgap (List.cons_ne_nil _ _) hrest
      (position + gap.length + text.toList.length + gap.length + 1)
    have hpadded := scanFrom_padded hscan hgap endsLexeme_semicolon _ position
      (scanFrom_sign (s := .semicolon) (by decide) hothers)
    have hplaces : ((e.moved (· + (position + gap.length))) :: placed).map Expr.unplaced =
        (e :: f :: es).map Expr.unplaced := by
      rw [List.map_cons, hplaced, Expr.unplaced_moved, ← List.map_cons]
    refine ⟨_, q, _, max n m, ?_, .more (position + gap.length + text.toList.length + gap.length) hderives.moved hall,
      max_le hn hm, hplaces⟩
    simpa only [joinedTexts, List.map_cons, List.intercalate_cons_cons, List.append_assoc, List.cons_append,
      List.nil_append] using hpadded

/-- **A batch is read as its texts are alone**, also those that start with a range. -/
theorem parse_batchText {n : Digits} (hshort : n.chars.length ≤ maxDigits) {gap : List Char}
    (hgap : ∀ c ∈ gap, isBlank c = true) {texts : List String} {es : List Expr} (hne : texts ≠ [])
    (hall : List.Forall₂ IsExpression texts es) :
    ∃ placed position, parse (batchText n gap texts) = .ok ⟨.batch n.value placed position, []⟩ ∧
      placed.map Expr.unplaced = es.map Expr.unplaced := by
  obtain ⟨tokens, q, placed, m, hscan, hderives, hm, hplaced⟩ := scan_joinedTexts hgap hne hall
    (n.chars.length + gap.length + 1 + gap.length + 1)
  have hbehind : scanFrom true (n.chars.length + gap.length + 1) (gap ++ '[' :: (joinedTexts gap texts ++ [']'])) =
      .ok (⟨.symbol .openBracket, n.chars.length + gap.length + 1 + gap.length⟩ ::
        (tokens ++ [⟨.symbol .closeBracket, q⟩])) :=
    (scanFrom_gap hgap (by decide) _ true _).trans (scanFrom_sign (s := .openBracket) (by decide) hscan)
  have htext : Token.scan (batchText n gap texts).toList = .ok (⟨.number n.chars, 0⟩ ::
      ⟨.keyword .x, n.chars.length + gap.length⟩ ::
      ⟨.symbol .openBracket, n.chars.length + gap.length + 1 + gap.length⟩ ::
      (tokens ++ [⟨.symbol .closeBracket, q⟩])) := by
    rw [batchText, String.toList_ofList]
    exact (scan_repeated n hshort hgap _).2 ⟨_, hbehind, rfl⟩
  exact ⟨placed, 0, parse_of_derives htext (.one (.batch n.chars 0 _ _ q hderives)) hm, hplaced⟩

/-- **A repetition repeats what is typed**: an expression right behind the letter exactly if it does not start with a
range, and the expressions of a batch always. -/
theorem parse_repeated (n : Digits) (hshort : n.chars.length ≤ maxDigits) :
    (∀ text e, IsExpression text e →
      ((∃ placed position, parse (repeatedText n text) = .ok ⟨.times n.value placed position, []⟩ ∧
        placed.unplaced = e.unplaced) ↔ opensSpan text.toList = false)) ∧
    ∀ gap texts es, (∀ c ∈ gap, isBlank c = true) → texts ≠ [] → List.Forall₂ IsExpression texts es →
      ∃ placed position, parse (batchText n gap texts) = .ok ⟨.batch n.value placed position, []⟩ ∧
        placed.map Expr.unplaced = es.map Expr.unplaced :=
  ⟨fun _ _ h => parse_repeatedText hshort h, fun _ _ _ hgap hne hall => parse_batchText hshort hgap hne hall⟩

/-- A sum, and a range that is none right behind the letter but one in a batch. -/
theorem parse_repeated_three : ∃ sum range, IsExpression "2d6+1" sum ∧ IsExpression "1--6" range ∧
    (∃ placed position, parse "3x2d6+1" = .ok ⟨.times 3 placed position, []⟩ ∧ placed.unplaced = sum.unplaced) ∧
    (¬ ∃ placed position, parse "3x1--6" = .ok ⟨.times 3 placed position, []⟩ ∧ placed.unplaced = range.unplaced) ∧
    ∃ placed position, parse "3x[1--6;2d6+1]" = .ok ⟨.batch 3 placed position, []⟩ ∧
      placed.map Expr.unplaced = [range, sum].map Expr.unplaced := by
  have hsum : IsExpression "2d6+1" (.binary .add
      (.roll (.generic ⟨some 2, .sides 6, false, .total none none⟩) 0) (.literal 1 4) 3) :=
    @isExpression_of_parses _ _ 0 (by decide +kernel)
  have hrange : IsExpression "1--6" (.roll (.span 1 6) 0) :=
    @isExpression_of_parses _ _ 0 (by decide +kernel)
  have hrepeated := parse_repeated (Digits.one '3' (by decide)) (by decide)
  have hbatch := hrepeated.2 [] ["1--6", "2d6+1"] _ (fun _ hc => nomatch hc) (by decide) (.cons hrange (.cons hsum .nil))
  refine ⟨_, _, hsum, hrange, (hrepeated.1 _ _ hsum).2 (by decide), ?_, hbatch⟩
  exact fun hread => absurd ((hrepeated.1 _ _ hrange).1 hread) (by decide)

/-- A range right behind the letter is read as a difference. -/
theorem repeated_range_lost : ¬ ∀ (n : Digits) (text : String) (e : Expr), n.chars.length ≤ maxDigits →
    IsExpression text e → ∃ placed position,
      parse (repeatedText n text) = .ok ⟨.times n.value placed position, []⟩ ∧ placed.unplaced = e.unplaced := by
  intro hall
  have hrange : IsExpression "1--6" (.roll (.span 1 6) 0) :=
    @isExpression_of_parses _ _ 0 (by decide +kernel)
  have hread : parses "2x1--6" (fun c => c = ⟨.times 2 (.binary .subtract (.literal 1 2)
      (.signed .minus (.literal 6 5) 4) 3) 0, []⟩) = true := by decide +kernel
  obtain ⟨c, hparse, hc⟩ := ok_of_parses _ hread
  obtain ⟨placed, position, hplaced, heq⟩ := hall (Digits.one '2' (by decide)) "1--6" _ (by decide) hrange
  have htext : repeatedText (Digits.one '2' (by decide)) "1--6" = "2x1--6" := rfl
  rw [htext, hparse, of_decide_eq_true hc] at hplaced
  cases hplaced
  cases heq

end Command
end TabletopDice
