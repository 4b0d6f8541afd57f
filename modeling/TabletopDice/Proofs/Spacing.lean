import TabletopDice.Proofs.Lexing
import TabletopDice.Proofs.Marks
/-!
# Spacing — white space between lexemes

A text may be cut at every place where a lexeme starts or ends: what stands before the cut has the tokens before it,
because a lexeme is read from its own characters and from what does not follow them (`scanFrom_split`). White space put
at the cut keeps them and moves the others. Only one thing is lost with it, the letter right before a numeral: two
numerals joined by two hyphens become a range without it. Apart from there the command stays the same, and there it
never does (`parse_spaced`).
-/
namespace TabletopDice
namespace Token

open Text

/-! ## A piece of a text cut behind it -/

theorem takeWhile_of_append {α : Type} {p : α → Bool} {as bs : List α}
    (h : ((as ++ bs).takeWhile p).length ≤ as.length) : as.takeWhile p = (as ++ bs).takeWhile p := by
  rw [List.takeWhile_append] at h ⊢
  split at h
  · rename_i hall
    rw [if_pos hall]
    have hnil : bs.takeWhile p = [] := by
      rw [List.length_append] at h
      exact List.length_eq_zero_iff.1 (by omega)
    rw [hnil, List.append_nil]
    exact (List.takeWhile_prefix p).eq_of_length hall
  · rename_i hsome
    rw [if_neg hsome]

theorem dropWhile_of_append {α : Type} {p : α → Bool} {as bs : List α}
    (h : ((as ++ bs).takeWhile p).length ≤ as.length) : (as ++ bs).dropWhile p = as.dropWhile p ++ bs := by
  have hall := List.takeWhile_append_dropWhile (p := p) (l := as ++ bs)
  rw [← takeWhile_of_append h] at hall
  have has := List.takeWhile_append_dropWhile (p := p) (l := as)
  have heq : as.takeWhile p ++ (as ++ bs).dropWhile p = as.takeWhile p ++ (as.dropWhile p ++ bs) := by
    rw [hall, ← List.append_assoc, has]
  exact List.append_cancel_left heq

theorem startsWithWord_of_append : ∀ {word cs bs : List Char}, startsWithWord word (cs ++ bs) = true →
    word.length ≤ cs.length → startsWithWord word cs = true
  | [], cs, bs, _, _ => by cases cs <;> rfl
  | letter :: word, [], bs, _, hle => absurd hle (by simp)
  | letter :: word, c :: cs, bs, h, hle => by
    rw [List.cons_append, startsWithWord, Bool.and_eq_true] at h
    rw [startsWithWord, Bool.and_eq_true]
    exact ⟨h.1, startsWithWord_of_append h.2 (Nat.le_of_succ_le_succ hle)⟩

theorem startsWithWord_longer : ∀ {word cs : List Char} (bs : List Char), startsWithWord word cs = true →
    startsWithWord word (cs ++ bs) = true
  | [], cs, bs, _ => by cases cs <;> cases bs <;> rfl
  | letter :: word, c :: cs, bs, h => by
    rw [startsWithWord, Bool.and_eq_true] at h
    rw [List.cons_append, startsWithWord, Bool.and_eq_true]
    exact ⟨h.1, startsWithWord_longer bs h.2⟩

theorem not_startsWithWord_of_append {word cs bs : List Char} (h : ¬ startsWithWord word (cs ++ bs) = true) :
    ¬ startsWithWord word cs = true := fun hword => h (startsWithWord_longer bs hword)

theorem wordLength?_none_of_append {cs bs : List Char} (h : wordLength? (cs ++ bs) = none) :
    wordLength? cs = none := by
  unfold wordLength? at h ⊢
  split at h
  · cases h
  · rename_i hlong
    split at h
    · cases h
    · rename_i hsingle
      have hlong' : longWords.find? (startsWithWord · cs) = none :=
        List.find?_eq_none.2 fun word hword => not_startsWithWord_of_append (List.find?_eq_none.1 hlong word hword)
      have hsingle' : ¬ (singleLetters.any fun letter => startsWithWord [letter] cs) = true := by
        rw [List.any_eq_true] at hsingle ⊢
        rintro ⟨letter, hmem, hletter⟩
        exact hsingle ⟨letter, hmem, startsWithWord_longer bs hletter⟩
      rw [hlong', if_neg hsingle']

/-- A word that a text is cut behind is still the first that the text starts with. -/
theorem wordLength?_of_append {cs bs : List Char} {length : Nat} (h : wordLength? (cs ++ bs) = some length)
    (hle : length ≤ cs.length) : wordLength? cs = some length := by
  unfold wordLength? at h ⊢
  split at h
  · rename_i word hfind
    cases h
    obtain ⟨hword, before, after, hsplit, hbefore⟩ := List.find?_eq_some_iff_append.1 hfind
    have hcut : longWords.find? (startsWithWord · cs) = some word := by
      refine List.find?_eq_some_iff_append.2 ⟨startsWithWord_of_append hword hle, before, after, hsplit, fun w hw => ?_⟩
      have hother := hbefore w hw
      rw [Bool.not_eq_true'] at hother ⊢
      rw [← Bool.not_eq_true] at hother ⊢
      exact not_startsWithWord_of_append hother
    rw [hcut]
  · rename_i hlong
    split at h
    · rename_i hsingle
      cases h
      have hlong' : longWords.find? (startsWithWord · cs) = none :=
        List.find?_eq_none.2 fun word hword => not_startsWithWord_of_append (List.find?_eq_none.1 hlong word hword)
      obtain ⟨letter, hmem, hletter⟩ := List.any_eq_true.1 hsingle
      have hsingle' : (singleLetters.any fun letter => startsWithWord [letter] cs) = true :=
        List.any_eq_true.2 ⟨letter, hmem, startsWithWord_of_append hletter hle⟩
      rw [hlong', if_pos hsingle']
    · cases h

theorem spanEnd?_eq_some {cs high : List Char} :
    spanEnd? cs = some high ↔ ∃ rest, cs = '-' :: '-' :: rest ∧ rest.takeWhile isDigit = high ∧ high ≠ [] := by
  constructor
  · intro h
    unfold spanEnd? at h
    split at h
    · rename_i rest
      split at h
      · cases h
      · rename_i hdigits
        cases h
        exact ⟨rest, rfl, rfl, hdigits⟩
    · cases h
  · rintro ⟨rest, rfl, hhigh, hne⟩
    rw [spanEnd?]
    split
    · rename_i hnil
      exact absurd (hhigh.symm.trans hnil) hne
    · rw [hhigh]

theorem spanEnd?_eq_none {cs : List Char} (h : ∀ c ∈ cs.head?, c ≠ '-') : spanEnd? cs = none := by
  cases hspan : spanEnd? cs with
  | none => rfl
  | some high =>
    obtain ⟨rest, rfl, -⟩ := spanEnd?_eq_some.1 hspan
    exact absurd rfl (h '-' rfl)

theorem spanEnd?_of_append {cs bs high : List Char} (h : spanEnd? (cs ++ bs) = some high)
    (hle : 2 + high.length ≤ cs.length) : spanEnd? cs = some high := by
  obtain ⟨rest, hcs, hhigh, hne⟩ := spanEnd?_eq_some.1 h
  match cs, hcs, hle with
  | [], _, hle | [_], _, hle => exact absurd hle (by simp only [List.length_cons, List.length_nil]; omega)
  | c :: d :: cs, hcs, hle =>
    obtain ⟨rfl, rfl, rfl⟩ : c = '-' ∧ d = '-' ∧ cs ++ bs = rest := by simpa using hcs
    have hlength : ((cs ++ bs).takeWhile isDigit).length ≤ cs.length := by
      rw [hhigh]
      simp only [List.length_cons] at hle
      omega
    exact spanEnd?_eq_some.2 ⟨cs, rfl, by rw [takeWhile_of_append hlength, hhigh], hne⟩

theorem spanEnd?_none_of_append {cs bs : List Char} (h : spanEnd? (cs ++ bs) = none) : spanEnd? cs = none := by
  cases hspan : spanEnd? cs with
  | none => rfl
  | some high =>
    obtain ⟨rest, rfl, hhigh, hne⟩ := spanEnd?_eq_some.1 hspan
    have hlonger : ((rest ++ bs).takeWhile isDigit) ≠ [] := by
      rw [List.takeWhile_append]
      split
      · rename_i hall
        rw [hhigh] at hall
        exact List.append_ne_nil_of_left_ne_nil (fun hnil => hne (by simpa [hnil] using hhigh.symm)) _
      · rw [hhigh]
        exact hne
    have hsome : spanEnd? ('-' :: '-' :: rest ++ bs) = some ((rest ++ bs).takeWhile isDigit) :=
      spanEnd?_eq_some.2 ⟨rest ++ bs, rfl, rfl, hlonger⟩
    rw [h] at hsome
    cases hsome

theorem nameAfterSigil?_of_append {continues : Char → Bool} {cs bs name : List Char}
    (h : nameAfterSigil? continues (cs ++ bs) = some name) (hle : name.length ≤ cs.length) :
    nameAfterSigil? continues cs = some name := by
  cases cs with
  | nil =>
    obtain rfl := List.length_eq_zero_iff.1 (Nat.le_zero.1 hle)
    cases bs with
    | nil => exact h
    | cons c bs =>
      rw [List.nil_append, nameAfterSigil?] at h
      split at h <;> cases h
  | cons c cs =>
    rw [List.cons_append, nameAfterSigil?] at h
    rw [nameAfterSigil?]
    split at h
    · rename_i hstart
      cases h
      rw [if_pos hstart, takeWhile_of_append (Nat.le_of_succ_le_succ hle)]
    · cases h

theorem numberPiece_of_append {afterLetter : Bool} {c : Char} {rest bs : List Char} {piece : Piece}
    (h : numberPiece afterLetter c (rest ++ bs) = .ok piece) (hle : piece.extra ≤ rest.length) :
    numberPiece afterLetter c rest = .ok piece := by
  have hmore : ((rest ++ bs).takeWhile isDigit).length ≤ rest.length := by
    refine Nat.le_trans ?_ hle
    unfold numberPiece at h
    dsimp only at h
    repeat' split at h
    all_goals cases h
    all_goals simp only; omega
  unfold numberPiece at h ⊢
  dsimp only at h ⊢
  rw [dropWhile_of_append hmore] at h
  rw [takeWhile_of_append hmore]
  split at h
  · rename_i hletter
    rw [if_pos hletter]
    exact h
  rename_i hletter
  rw [if_neg hletter]
  split at h
  · rename_i hspan
    rw [spanEnd?_none_of_append hspan]
    exact h
  · rename_i high hspan
    split at h
    · rename_i hshort
      cases h
      have hdrop : 2 + high.length ≤ (rest.dropWhile isDigit).length := by
        have hrest := congrArg List.length (List.takeWhile_append_dropWhile (p := isDigit) (l := rest))
        rw [List.length_append, takeWhile_of_append hmore] at hrest
        simp only at hle
        omega
      rw [spanEnd?_of_append hspan hdrop]
      exact if_pos hshort
    · cases h

/-- **A piece is read from its own characters**: it is the same if the text is cut behind it. -/
theorem firstPiece_of_append {afterLetter : Bool} {c : Char} {rest bs : List Char} {piece : Piece}
    (h : firstPiece afterLetter c (rest ++ bs) = .ok piece) (hle : piece.extra ≤ rest.length) :
    firstPiece afterLetter c rest = .ok piece := by
  unfold firstPiece at h ⊢
  split at h
  · rename_i hblank
    cases h
    rw [if_pos hblank, takeWhile_of_append hle]
  rename_i hblank
  rw [if_neg hblank]
  split at h
  · rename_i hdigit
    rw [if_pos hdigit]
    exact numberPiece_of_append h hle
  rename_i hdigit
  rw [if_neg hdigit]
  split at h
  · rename_i hvar
    rw [if_pos hvar]
    split at h
    · rename_i name hname
      cases h
      rw [nameAfterSigil?_of_append hname hle]
    · cases h
  rename_i hvar
  rw [if_neg hvar]
  split at h
  · rename_i hflag
    rw [if_pos hflag]
    split at h
    · rename_i name hname
      cases h
      rw [nameAfterSigil?_of_append hname hle]
    · cases h
  rename_i hflag
  rw [if_neg hflag]
  split at h
  · rename_i hbecomes
    cases h
    cases rest with
    | nil => exact absurd hle (by simp)
    | cons d rest => exact if_pos hbecomes
  rename_i hbecomes
  have hbecomes' : ¬ (decide (c = ':') && rest.head? == some '=') = true := by
    cases rest with
    | nil => simp
    | cons d rest => exact hbecomes
  rw [if_neg hbecomes']
  rw [← List.cons_append] at h
  split at h
  · rename_i length hlength
    cases h
    have hshort : length ≤ (c :: rest).length := by
      simp only [List.length_cons] at hle ⊢
      omega
    rw [wordLength?_of_append hlength hshort]
    simp only [List.take_append_of_le_length hshort]
  · rename_i hlength
    rw [wordLength?_none_of_append hlength]
    exact h

/-! ## Cutting a text between lexemes -/

/-- **The places at which a lexeme of a text starts or ends**, and the end of the text. -/
def edges (afterLetter : Bool) (position : Nat) : List Char → List Nat
  | [] => [position]
  | c :: rest => match firstPiece afterLetter c rest with
    | .error _ => []
    | .ok piece =>
      (if piece.lexeme.isSome then [position, position + 1 + piece.extra] else []) ++
        edges (endsInLetter c (rest.take piece.extra)) (position + 1 + piece.extra) (rest.drop piece.extra)
  termination_by cs => cs.length
  decreasing_by simp only [List.length_cons, List.length_drop]; omega

/-- **Whatever is kept of the rest, the first piece is**, and its end is the place where the rest goes on. -/
theorem scanFrom_kept {afterLetter : Bool} {position : Nat} {c : Char} {rest kept others : List Char} {piece : Piece}
    {more : List Token} (hpiece : firstPiece afterLetter c rest = .ok piece)
    (hcut : rest.drop piece.extra = kept ++ others)
    (hmore : scanFrom (endsInLetter c (rest.take piece.extra)) (position + 1 + piece.extra) kept = .ok more) :
    scanFrom afterLetter position (c :: (rest.take piece.extra ++ kept)) = .ok (piece.tokens position ++ more) := by
  have hle := firstPiece_extra_le hpiece
  have hlength : (rest.take piece.extra).length = piece.extra := by
    rw [List.length_take]
    omega
  have hwhole : rest.take piece.extra ++ kept ++ others = rest := by
    rw [List.append_assoc, ← hcut, List.take_append_drop]
  have hpiece' : firstPiece afterLetter c (rest.take piece.extra ++ kept ++ others) = .ok piece := by
    rw [hwhole, hpiece]
  have hfirst := firstPiece_of_append hpiece' (by rw [List.length_append]; omega)
  refine scanFrom_cons.2 ⟨piece, more, hfirst, ?_, rfl⟩
  rw [List.take_append_of_le_length (by omega), List.drop_append_of_le_length (by omega),
    List.take_of_length_le (by omega), List.drop_of_length_le (by omega), List.nil_append]
  exact hmore

/-- **A text cut between lexemes** has the tokens of what stands before the cut and of what stands behind it. -/
theorem scanFrom_split : ∀ (cs : List Char) {afterLetter : Bool} {position edge : Nat} {tokens : List Token},
    scanFrom afterLetter position cs = .ok tokens → edge ∈ edges afterLetter position cs →
      ∃ before after first second, cs = before ++ after ∧ edge = position + before.length ∧
        scanFrom afterLetter position before = .ok first ∧
        scanFrom (endsAfter afterLetter before) edge after = .ok second ∧ tokens = first ++ second
  | [], afterLetter, position, edge, tokens, h, hedge => by
    rw [edges, List.mem_singleton] at hedge
    subst hedge
    exact ⟨[], [], [], tokens, rfl, rfl, scanFrom_nil _ _, h, rfl⟩
  | c :: rest, afterLetter, position, edge, tokens, h, hedge => by
    obtain ⟨piece, more, hpiece, hmore, rfl⟩ := scanFrom_cons.1 h
    have hle := firstPiece_extra_le hpiece
    have hflag := endsInLetter_eq afterLetter c (rest.take piece.extra)
    rw [edges, hpiece] at hedge
    simp only [List.mem_append] at hedge
    rcases hedge with hedge | hedge
    · split at hedge
      · rcases List.mem_cons.1 hedge with rfl | hedge
        · exact ⟨[], c :: rest, [], _, rfl, rfl, scanFrom_nil _ _, h, rfl⟩
        · obtain rfl := List.mem_singleton.1 hedge
          refine ⟨c :: rest.take piece.extra, rest.drop piece.extra, piece.tokens position, more, ?_, ?_, ?_, ?_, rfl⟩
          · rw [List.cons_append, List.take_append_drop]
          · rw [List.length_cons, List.length_take]
            omega
          · have hfirst := scanFrom_kept hpiece (List.nil_append _).symm (scanFrom_nil _ (position + 1 + piece.extra))
            rwa [List.append_nil, List.append_nil] at hfirst
          · rw [← hflag]
            exact hmore
      · cases hedge
    · obtain ⟨before, after, first, second, hcut, hplace, hbefore, hafter, rfl⟩ := scanFrom_split _ hmore hedge
      refine ⟨c :: (rest.take piece.extra ++ before), after, piece.tokens position ++ first, second, ?_, ?_, ?_, ?_, ?_⟩
      · rw [List.cons_append, List.append_assoc, ← hcut, List.take_append_drop]
      · rw [hplace, List.length_cons, List.length_append, List.length_take]
        omega
      · exact scanFrom_kept hpiece hcut hbefore
      · rw [hflag, endsAfter_append, List.cons_append] at hafter
        exact hafter
      · rw [List.append_assoc]
  termination_by cs => cs.length
  decreasing_by simp only [List.length_cons, List.length_drop]; omega

/-! ## A letter right before a text -/

/-- **A text that starts with two numerals joined by two hyphens**, which are a range where no letter stands before. -/
def opensSpan (cs : List Char) : Bool := !(cs.takeWhile isDigit).isEmpty && (spanEnd? (cs.dropWhile isDigit)).isSome

theorem opensSpan_cons {c : Char} {rest : List Char} :
    opensSpan (c :: rest) = (isDigit c && (spanEnd? (rest.dropWhile isDigit)).isSome) := by
  cases hc : isDigit c <;> simp [opensSpan, hc]

theorem firstPiece_afterLetter {c : Char} {rest : List Char} (h : opensSpan (c :: rest) = false) (afterLetter : Bool) :
    firstPiece afterLetter c rest = firstPiece false c rest := by
  have hnumber : isDigit c = true → numberPiece afterLetter c rest = numberPiece false c rest := by
    intro hdigit
    rw [opensSpan_cons, hdigit, Bool.true_and, Option.isSome_eq_false_iff, Option.isNone_iff_eq_none] at h
    simp only [numberPiece, h]
    cases afterLetter <;> rfl
  unfold firstPiece
  split
  · rfl
  · split
    · exact hnumber ‹_›
    · rfl

/-- **A letter right before a text** matters only if the text starts with a range. -/
theorem scanFrom_afterLetter {cs : List Char} (h : opensSpan cs = false) (afterLetter : Bool) (position : Nat) :
    scanFrom afterLetter position cs = scanFrom false position cs := by
  cases cs with
  | nil => rw [scanFrom_nil, scanFrom_nil]
  | cons c rest => rw [scanFrom, scanFrom, firstPiece_afterLetter h]

theorem firstPiece_digit {c : Char} (h : isDigit c = true) (afterLetter : Bool) (rest : List Char) :
    firstPiece afterLetter c rest = numberPiece afterLetter c rest := by
  rw [firstPiece, if_neg (by rw [isBlank_of_isDigit h]; exact Bool.false_ne_true), if_pos h]

/-- After a letter the first numeral stands alone. -/
theorem scanFrom_number {cs : List Char} {position : Nat} {tokens : List Token} (hopens : opensSpan cs = true)
    (h : scanFrom true position cs = .ok tokens) :
    ∃ digits more, tokens = ⟨.number digits, position⟩ :: more := by
  cases cs with
  | nil => cases hopens
  | cons c rest =>
    rw [opensSpan_cons, Bool.and_eq_true] at hopens
    obtain ⟨piece, more, hpiece, -, rfl⟩ := scanFrom_cons.1 h
    rw [firstPiece_digit hopens.1, numberPiece, if_pos rfl] at hpiece
    split at hpiece
    · cases hpiece
      exact ⟨_, _, rfl⟩
    · cases hpiece

/-- Where no letter stands before, both numerals are a range. -/
theorem scanFrom_span {cs : List Char} {position : Nat} {tokens : List Token} (hopens : opensSpan cs = true)
    (h : scanFrom false position cs = .ok tokens) :
    ∃ low high more, tokens = ⟨.span low high, position⟩ :: more := by
  cases cs with
  | nil => cases hopens
  | cons c rest =>
    rw [opensSpan_cons, Bool.and_eq_true] at hopens
    obtain ⟨piece, more, hpiece, -, rfl⟩ := scanFrom_cons.1 h
    obtain ⟨high, hhigh⟩ := Option.isSome_iff_exists.1 hopens.2
    rw [firstPiece_digit hopens.1, numberPiece, if_neg Bool.false_ne_true, hhigh] at hpiece
    dsimp only at hpiece
    split at hpiece
    · cases hpiece
      exact ⟨_, _, _, rfl⟩
    · cases hpiece

/-- The tokens of a scan stand inside the text. -/
theorem position_of_mem : ∀ (cs : List Char) {afterLetter : Bool} {position : Nat} {tokens : List Token},
    scanFrom afterLetter position cs = .ok tokens → ∀ t ∈ tokens, position ≤ t.position ∧ t.position < position + cs.length
  | [], afterLetter, position, tokens, h => by
    rw [scanFrom_nil] at h
    cases h
    exact fun _ ht => absurd ht List.not_mem_nil
  | c :: rest, afterLetter, position, tokens, h => by
    obtain ⟨piece, more, hpiece, hmore, rfl⟩ := scanFrom_cons.1 h
    have hle := firstPiece_extra_le hpiece
    intro t ht
    rw [List.length_cons]
    rcases List.mem_append.1 ht with ht | ht
    · obtain ⟨lexeme, -, rfl⟩ := List.mem_map.1 ht
      simp only
      omega
    · have hrest := position_of_mem _ hmore t ht
      rw [List.length_drop] at hrest
      omega
  termination_by cs => cs.length
  decreasing_by simp only [List.length_cons, List.length_drop]; omega

/-! ## White space put in -/

/-- A place after so many characters have been put in at an edge. -/
def pushed (edge width position : Nat) : Nat := if position < edge then position else position + width

/-- **White space put in between lexemes** is scanned as the text before it, and as the text behind it on its own. -/
theorem scanFrom_spaced {before after blanks : List Char} {afterLetter : Bool} {position : Nat} {first : List Token}
    (hfirst : scanFrom afterLetter position before = .ok first) (hne : blanks ≠ [])
    (hblank : ∀ c ∈ blanks, isBlank c = true) {all : List Token} :
    scanFrom afterLetter position (before ++ blanks ++ after) = .ok all ↔ ∃ more,
      scanFrom false (position + before.length + blanks.length) after = .ok more ∧ all = first ++ more := by
  obtain ⟨s, rest, rfl⟩ := List.exists_cons_of_ne_nil hne
  have hs : EndsLexeme s := endsLexeme_of_isBlank (hblank s List.mem_cons_self)
  rw [List.append_assoc, List.cons_append, scanFrom_append hs _ before hfirst, ← List.cons_append,
    scanFrom_blanks hne hblank]

end Token

namespace Command

open Grammar Token Text

/-- **A text with white space put in** at a place. -/
def spaced (text : String) (edge : Nat) (blanks : List Char) : String :=
  String.ofList (text.toList.take edge ++ blanks ++ text.toList.drop edge)

/-- A letter stands right before a place, and two numerals joined by two hyphens right behind it. -/
def isGlued (text : String) (edge : Nat) : Bool :=
  endsAfter false (text.toList.take edge) && opensSpan (text.toList.drop edge)

/-- **White space put in where a lexeme starts or ends** leaves the command as it is, but for the places behind it. Only
between a letter and two numerals joined by two hyphens it never does: the numerals become a range. -/
theorem parse_spaced {text : String} {c : Command} (h : parse text = .ok c) {edge : Nat}
    (hedge : edge ∈ edges false 0 text.toList) {blanks : List Char} (hne : blanks ≠ [])
    (hblank : ∀ b ∈ blanks, isBlank b = true) :
    (isGlued text edge = false → parse (spaced text edge blanks) = .ok (c.moved (pushed edge blanks.length))) ∧
      (isGlued text edge = true → ∀ d, parse (spaced text edge blanks) = .ok d → d.unplaced ≠ c.unplaced) := by
  obtain ⟨tokens, n, hscan, hn, hderives⟩ := derives_of_parse h
  obtain ⟨before, after, first, second, htext, hplace, hbefore, hafter, rfl⟩ := scanFrom_split _ hscan hedge
  rw [Nat.zero_add] at hplace
  have htake : text.toList.take edge = before := by rw [htext, hplace, List.take_left]
  have hdrop : text.toList.drop edge = after := by rw [htext, hplace, List.drop_left]
  have hspaced : ∀ all, Token.scan (spaced text edge blanks).toList = .ok all ↔ ∃ more,
      scanFrom false (edge + blanks.length) after = .ok more ∧ all = first ++ more := by
    intro all
    rw [spaced, String.toList_ofList, htake, hdrop, Token.scan, scanFrom_spaced hbefore hne hblank, Nat.zero_add, hplace]
  rw [isGlued, htake, hdrop]
  constructor
  · intro hfree
    have hsecond : scanFrom false edge after = .ok second := by
      cases hletter : endsAfter false before with
      | false => rwa [hletter] at hafter
      | true =>
        rw [hletter, Bool.true_and] at hfree
        rwa [hletter, scanFrom_afterLetter hfree] at hafter
    have hfirst : first.map (Token.moved (pushed edge blanks.length)) = first := by
      refine (List.map_congr_left fun t ht => ?_).trans (List.map_id first)
      have hlt := (position_of_mem _ hbefore t ht).2
      rw [Token.moved, pushed, if_pos (by omega)]
      rfl
    have hmoved : second.map (Token.moved (· + blanks.length)) = second.map (Token.moved (pushed edge blanks.length)) := by
      refine List.map_congr_left fun t ht => ?_
      have hle := (position_of_mem _ hsecond t ht).1
      rw [Token.moved, Token.moved, pushed, if_neg (by omega)]
    refine parse_of_derives ((hspaced _).2 ⟨_, scanFrom_moved blanks.length after hsecond, rfl⟩) ?_ hn
    rw [hmoved]
    have hall := hderives.moved (f := pushed edge blanks.length)
    rwa [List.map_append, hfirst] at hall
  · intro hglued d hd heq
    rw [Bool.and_eq_true] at hglued
    rw [hglued.1] at hafter
    obtain ⟨digits, more, rfl⟩ := scanFrom_number hglued.2 hafter
    obtain ⟨others, m, hothers, -, hderives'⟩ := derives_of_parse hd
    obtain ⟨rest, hrest, rfl⟩ := (hspaced _).1 hothers
    obtain ⟨low, high, rest, rfl⟩ := scanFrom_span hglued.2 hrest
    have hmarks := marksOf_eq_of_unplaced hderives' hderives heq
    rw [marksOf_append, marksOf_append] at hmarks
    have hhead := (List.cons.inj (List.append_cancel_left hmarks)).1
    cases hhead

/-- White space behind a numeral, and between a repetition and a range that it hid. -/
theorem parse_spaced_sum : (∃ c, parse "2d6+1--4" = .ok c ∧
      parse (spaced "2d6+1--4" 3 [' ', '\t']) = .ok (c.moved (pushed 3 2))) ∧
    ∃ c d, parse "2x1--6" = .ok c ∧ parse (spaced "2x1--6" 2 [' ']) = .ok d ∧ d.unplaced ≠ c.unplaced := by
  have hsum : parses "2d6+1--4" (fun _ => true) = true := by decide +kernel
  have hrepeat : parses "2x1--6" (fun _ => true) = true := by decide +kernel
  have hapart : parses (spaced "2x1--6" 2 [' ']) (fun _ => true) = true := by decide +kernel
  refine ⟨?_, ?_⟩
  · obtain ⟨c, hparse, -⟩ := ok_of_parses _ hsum
    have hspaced := parse_spaced hparse (show 3 ∈ edges false 0 "2d6+1--4".toList by decide +kernel)
      (show [' ', '\t'] ≠ [] by decide)
      (List.forall_mem_cons.2 ⟨by decide, List.forall_mem_singleton.2 (by decide)⟩)
    exact ⟨c, hparse, hspaced.1 (by decide +kernel)⟩
  · obtain ⟨c, hparse, -⟩ := ok_of_parses _ hrepeat
    obtain ⟨d, hd, -⟩ := ok_of_parses _ hapart
    have hspaced := parse_spaced hparse (show 2 ∈ edges false 0 "2x1--6".toList by decide +kernel)
      (show [' '] ≠ [] by decide) (List.forall_mem_singleton.2 (by decide))
    exact ⟨c, d, hparse, hd, hspaced.2 (by decide +kernel) d hd⟩

/-- Sides of a die with a range right behind the letter: with a space between them they are no sides any more. -/
theorem glued_range_split : ¬ ∀ (text : String) (c : Command), parse text = .ok c →
    ∀ edge ∈ edges false 0 text.toList, ∀ blanks : List Char, blanks ≠ [] → (∀ b ∈ blanks, isBlank b = true) →
      ∃ d, parse (spaced text edge blanks) = .ok d ∧ d.unplaced = c.unplaced := by
  intro hall
  have hglued : parses "2d6--3" (fun _ => true) = true := by decide +kernel
  have hnone : parses (spaced "2d6--3" 2 [' ']) (fun _ => true) = false := by decide +kernel
  obtain ⟨c, hparse, -⟩ := ok_of_parses _ hglued
  obtain ⟨d, hd, -⟩ := hall "2d6--3" c hparse 2 (by decide +kernel) [' '] (by decide)
    (List.forall_mem_singleton.2 (by decide))
  rw [parses, hd] at hnone
  cases hnone

end Command
end TabletopDice
