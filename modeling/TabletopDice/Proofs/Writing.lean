import Mathlib.Data.List.Chain
import Mathlib.Data.List.TakeWhile
import TabletopDice.Proofs.Lexing
import TabletopDice.Proofs.Numerals
/-!
# Writing — texts made of lexemes as typed

A number, a keyword in letters of any form, and a sign are lexemes that can be typed one after another, as long as no
two of them run together: two numbers, two minus signs, and a word before the word `iron`. A text made of such lexemes
has exactly their tokens, unless a number in it is too long (`scan_text`).
-/
namespace TabletopDice

namespace Writing

open Text Token

/-! ## Lexemes as typed -/

/-- **A number as typed**: digits of any script, at least one. -/
structure Digits where
  chars : List Char
  digits : ∀ c ∈ chars, isDigit c = true
  nonempty : chars ≠ []

/-- A number of one digit. -/
def Digits.one (c : Char) (h : isDigit c = true) : Digits where
  chars := [c]
  digits d hd := by rw [List.mem_singleton.1 hd, h]
  nonempty := List.cons_ne_nil c []

def Digits.value (n : Digits) : Nat := numeralValue n.chars

/-- **A keyword as typed**, in letters of any form. -/
structure Word where
  keyword : Keyword
  chars : List Char
  form : startsWithWord keyword.spelling chars = true
  fits : chars.length = keyword.spelling.length

/-- **A lexeme as typed.** -/
inductive Written
  | number (n : Digits)
  | word (w : Word)
  | sign (s : Symbol)

namespace Written

def chars : Written → List Char
  | number n => n.chars
  | word w => w.chars
  | sign s => [s.char]

/-- The lexeme that they are read as. -/
def lexeme : Written → Lexeme
  | number n => .number n.chars
  | word w => wordLexeme w.chars
  | sign s => .symbol s

/-- **Lexemes that do not run together** when one is typed right after the other. -/
def mayPrecede : Written → Written → Bool
  | number _, number _ => false
  | sign .minus, sign .minus => false
  | word _, word w => w.keyword != .iron
  | _, _ => true

end Written

def text (ws : List Written) : List Char := ws.flatMap Written.chars

/-- The tokens of lexemes typed one after another up to the place `finish`. -/
def tokens (finish : Nat) : List Written → List Token
  | [] => []
  | w :: ws => ⟨w.lexeme, finish - (text (w :: ws)).length⟩ :: tokens finish ws

@[simp] theorem text_nil : text [] = [] := rfl

@[simp] theorem text_cons (w : Written) (ws : List Written) : text (w :: ws) = w.chars ++ text ws := rfl

@[simp] theorem text_append (ws vs : List Written) : text (ws ++ vs) = text ws ++ text vs := List.flatMap_append ..

/-- **Lexemes of which no two run together.** -/
def Apart (ws : List Written) : Prop := ws.IsChain fun w v => w.mayPrecede v = true

theorem Apart.cons {w v : Written} {ws : List Written} (hw : w.mayPrecede v = true) (h : Apart (v :: ws)) :
    Apart (w :: v :: ws) := List.isChain_cons_cons.2 ⟨hw, h⟩

theorem Apart.mayPrecede {w v : Written} {ws : List Written} (h : Apart (w :: v :: ws)) : w.mayPrecede v = true :=
  (List.isChain_cons_cons.1 h).1

theorem Apart.tail {w : Written} {ws : List Written} (h : Apart (w :: ws)) : Apart ws := List.IsChain.tail h

/-! ## Reading a lexeme -/

theorem takeWhile_append_of_head {α : Type} {p : α → Bool} {as rest : List α} (has : ∀ a ∈ as, p a = true)
    (hrest : ∀ a ∈ rest.head?, p a = false) : (as ++ rest).takeWhile p = as := by
  cases rest with
  | nil => rw [List.append_nil, List.takeWhile_eq_self_iff.2 has]
  | cons a rest => rw [takeWhile_append_cons (hrest a rfl), List.takeWhile_eq_self_iff.2 has]

theorem dropWhile_append_of_head {α : Type} {p : α → Bool} {as rest : List α} (has : ∀ a ∈ as, p a = true)
    (hrest : ∀ a ∈ rest.head?, p a = false) : (as ++ rest).dropWhile p = rest := by
  have hcut := List.takeWhile_append_dropWhile (p := p) (l := as ++ rest)
  rw [takeWhile_append_of_head has hrest] at hcut
  exact List.append_cancel_left hcut

/-- A number is read as such before anything that is no digit and does not make it a range. -/
theorem firstPiece_number {c : Char} {more rest : List Char} (hdigits : ∀ d ∈ c :: more, isDigit d = true)
    (hrest : ∀ d ∈ rest.head?, isDigit d = false) (hspan : spanEnd? rest = none) (afterLetter : Bool) :
    firstPiece afterLetter c (more ++ rest) =
      if (c :: more).length ≤ maxDigits then .ok ⟨some (.number (c :: more)), more.length⟩ else .error .longNumber := by
  have hc := hdigits c List.mem_cons_self
  have hmore : ∀ d ∈ more, isDigit d = true := fun d hd => hdigits d (List.mem_cons_of_mem _ hd)
  simp only [firstPiece, isBlank_of_isDigit hc, hc, numberPiece, takeWhile_append_of_head hmore hrest,
    dropWhile_append_of_head hmore hrest, hspan, List.length_cons]
  cases afterLetter <;> simp

/-- A word is read by the letters of the first word that the text starts with. -/
theorem firstPiece_letter {c p : Char} {rest : List Char} {length : Nat} (hc : baseLetter? c = some p)
    (hlength : wordLength? (c :: rest) = some length) (afterLetter : Bool) :
    firstPiece afterLetter c rest = .ok ⟨some (wordLexeme ((c :: rest).take length)), length - 1⟩ := by
  have hne : ∀ s : Char, baseLetter? s = none → c ≠ s := fun s hs heq => by rw [heq, hs] at hc; cases hc
  simp [firstPiece, isBlank_of_baseLetter? hc, isDigit_of_baseLetter? hc, hne '@' (by decide), hne '#' (by decide),
    hne ':' (by decide), hlength]

theorem baseLetter?_sign (s : Symbol) : baseLetter? s.char = none := by cases s <;> decide

theorem firstPiece_sign (s : Symbol) {rest : List Char} (h : s = .colon → ∀ d ∈ rest.head?, d ≠ '=')
    (afterLetter : Bool) : firstPiece afterLetter s.char rest = .ok ⟨some (.symbol s), 0⟩ := by
  have hbecomes : (decide (s.char = ':') && rest.head? == some '=') = false := by
    by_cases hs : s = .colon
    · have hne := h hs
      cases rest with
      | nil => simp
      | cons d rest => simpa [hs] using fun _ => hne d rfl
    · have hchar : s.char ≠ ':' := by cases s <;> first | decide | exact absurd rfl hs
      simp [hchar]
  have hword : wordLength? (s.char :: rest) = none := by
    simp [wordLength?, longWords, singleLetters, Keyword.spelling, startsWithWord, baseLetter?_sign]
  unfold firstPiece
  rw [hbecomes, hword]
  cases s <;> rfl

theorem Keyword.spelling_isLower (keyword : Keyword) : ∀ p ∈ keyword.spelling, p.isLower = true := by
  have hall : keyword.spelling.all Char.isLower = true := by cases keyword <;> rfl
  exact List.all_eq_true.1 hall

theorem baseLetter?_small {p : Char} (h : p.isLower = true) : baseLetter? p = some p := if_pos h

/-- A letter of a word is a form of a letter of the keyword. -/
theorem mem_of_startsWithWord : ∀ {word chars : List Char}, startsWithWord word chars = true →
    chars.length = word.length → ∀ {c : Char}, c ∈ chars → ∃ p ∈ word, baseLetter? c = some p
  | [], [], _, _, _, hc => absurd hc List.not_mem_nil
  | p :: word, d :: chars, h, hlength, c, hc => by
    rw [startsWithWord, Bool.and_eq_true, beq_iff_eq] at h
    rcases List.mem_cons.1 hc with rfl | hc
    · exact ⟨p, List.mem_cons_self, h.1⟩
    · obtain ⟨q, hq, hbase⟩ := mem_of_startsWithWord h.2 (Nat.succ.inj hlength) hc
      exact ⟨q, List.mem_cons_of_mem _ hq, hbase⟩

/-- A text starts with the same words if the letters at its head are replaced by small ones. -/
theorem startsWithWord_letters : ∀ {word chars : List Char}, startsWithWord word chars = true →
    chars.length = word.length → (∀ p ∈ word, p.isLower = true) → ∀ other rest : List Char,
      startsWithWord other (chars ++ rest) = startsWithWord other (word ++ rest)
  | [], [], _, _, _, _, _ => rfl
  | _ :: _, _ :: _, _, _, _, [], _ => rfl
  | p :: word, c :: chars, h, hlength, hlow, q :: other, rest => by
    rw [startsWithWord, Bool.and_eq_true, beq_iff_eq] at h
    have hp := baseLetter?_small (hlow p List.mem_cons_self)
    have ih := startsWithWord_letters h.2 (Nat.succ.inj hlength) (fun d hd => hlow d (List.mem_cons_of_mem _ hd)) other rest
    rw [List.cons_append, List.cons_append, startsWithWord, startsWithWord, h.1, hp, ih]

theorem startsWithWord_word (w : Word) (other rest : List Char) :
    startsWithWord other (w.chars ++ rest) = startsWithWord other (w.keyword.spelling ++ rest) :=
  startsWithWord_letters w.form w.fits (Keyword.spelling_isLower w.keyword) other rest

/-- **The length of a word that the text starts with**, unless the next letter could make it a longer one. -/
theorem wordLength?_word (w : Word) {rest : List Char}
    (hrest : ∀ d ∈ rest.head?, baseLetter? d ≠ some 'l' ∧ baseLetter? d ≠ some 'i') :
    wordLength? (w.chars ++ rest) = some w.chars.length := by
  have hl : startsWithWord ['l'] rest = false := by
    cases rest with
    | nil => rfl
    | cons d rest => simpa [startsWithWord] using (hrest d rfl).1
  have hi : startsWithWord ['i', 's'] rest = false := by
    cases rest with
    | nil => rfl
    | cons d rest => simp [startsWithWord, (hrest d rfl).2]
  have hsmall : wordLength? (w.chars ++ rest) = wordLength? (w.keyword.spelling ++ rest) := by
    simp only [wordLength?, startsWithWord_word]
  rw [hsmall, w.fits]
  cases w.keyword with
  | k =>
    have hk : baseLetter? 'k' = some 'k' := rfl
    simp [wordLength?, longWords, singleLetters, Keyword.spelling, startsWithWord, hk, hl]
  | d =>
    have hd : baseLetter? 'd' = some 'd' := rfl
    simp [wordLength?, longWords, singleLetters, Keyword.spelling, startsWithWord, hd, hi]
  | _ => rfl

theorem Word.firstLetter (w : Word) : ∃ c more p, w.chars = c :: more ∧ baseLetter? c = some p ∧
    w.keyword.spelling.head? = some p := by
  obtain ⟨keyword, chars, form, fits⟩ := w
  cases chars with
  | nil => cases keyword <;> cases fits
  | cons c more =>
    cases hs : keyword.spelling with
    | nil => cases keyword <;> cases hs
    | cons p word =>
      rw [hs, startsWithWord, Bool.and_eq_true, beq_iff_eq] at form
      exact ⟨c, more, p, rfl, form.1, rfl⟩

/-! ## Reading lexemes -/

namespace Written

/-- A character that a lexeme of this kind starts with. -/
def opens (c : Char) : Written → Prop
  | number _ => isDigit c = true
  | word w => ∃ p, baseLetter? c = some p ∧ w.keyword.spelling.head? = some p
  | sign s => c = s.char

theorem chars_cons (w : Written) : ∃ c more, w.chars = c :: more ∧ w.opens c := by
  cases w with
  | number n =>
    obtain ⟨chars, digits, nonempty⟩ := n
    cases chars with
    | nil => exact absurd rfl nonempty
    | cons c more => exact ⟨c, more, rfl, digits c List.mem_cons_self⟩
  | word w =>
    obtain ⟨c, more, p, hchars, hc, hp⟩ := w.firstLetter
    exact ⟨c, more, hchars, p, hc, hp⟩
  | sign s => exact ⟨s.char, [], rfl, rfl⟩

end Written

theorem text_head {ws : List Written} {d : Char} (h : d ∈ (text ws).head?) : ∃ w vs, ws = w :: vs ∧ w.opens d := by
  cases ws with
  | nil => cases h
  | cons w vs =>
    obtain ⟨c, more, hchars, hopens⟩ := w.chars_cons
    rw [text_cons, hchars] at h
    cases h
    exact ⟨w, vs, rfl, hopens⟩

theorem isDigit_sign (s : Symbol) : isDigit s.char = false := by cases s <;> decide

/-- A character that is no digit and no letter starts only its own sign. -/
theorem Written.opens_sign {w : Written} {c : Char} (h : w.opens c) (hdigit : isDigit c = false)
    (hletter : baseLetter? c = none) : ∃ s, w = .sign s ∧ s.char = c := by
  cases w with
  | number n => exact Bool.noConfusion (hdigit.symm.trans h)
  | word w =>
    obtain ⟨p, hp, -⟩ := h
    cases hletter.symm.trans hp
  | sign s => exact ⟨s, rfl, h.symm⟩

theorem Written.opens_minus {w : Written} (h : w.opens '-') : w = .sign .minus := by
  obtain ⟨s, rfl, hs⟩ := Written.opens_sign h (by decide) (by decide)
  cases s <;> first | rfl | exact absurd hs (by decide)

/-- The lexemes before which a number may be typed do not make it a range. -/
theorem spanEnd?_text {ws : List Written} (h : Apart ws) :
    spanEnd? (text ws) = none := by
  have htwo : ∀ rest, text ws ≠ '-' :: '-' :: rest := by
    intro rest hrest
    obtain ⟨w, vs, rfl, hw⟩ := text_head (show '-' ∈ (text ws).head? by rw [hrest]; rfl)
    obtain rfl := Written.opens_minus hw
    have htail : text vs = '-' :: rest := List.tail_eq_of_cons_eq hrest
    obtain ⟨v, us, rfl, hv⟩ := text_head (show '-' ∈ (text vs).head? by rw [htail]; rfl)
    obtain rfl := Written.opens_minus hv
    exact absurd h.mayPrecede (by decide)
  unfold spanEnd?
  split
  · exact absurd ‹_› (htwo _)
  · rfl

namespace Written

variable {v : Written} {d : Char}

/-- After a number no digit is typed. -/
theorem opens_after_number {n : Digits} (h : v.opens d) (hmay : (number n).mayPrecede v = true) :
    isDigit d = false := by
  cases v with
  | number m => cases hmay
  | word v =>
    obtain ⟨p, hp, -⟩ := h
    exact isDigit_of_baseLetter? hp
  | sign s => exact h ▸ isDigit_sign s

/-- After a word no letter is typed that makes it a longer one. -/
theorem opens_after_word {w : Word} (h : v.opens d) (hmay : (word w).mayPrecede v = true) :
    baseLetter? d ≠ some 'l' ∧ baseLetter? d ≠ some 'i' := by
  cases v with
  | number m =>
    rw [baseLetter?_of_isDigit h]
    exact ⟨nofun, nofun⟩
  | word v =>
    obtain ⟨p, hp, hkeyword⟩ := h
    have hl : ∀ keyword : Keyword, keyword.spelling.head? ≠ some 'l' := by rintro ⟨⟩ <;> decide
    have hi : ∀ keyword : Keyword, keyword.spelling.head? = some 'i' → keyword = .iron := by rintro ⟨⟩ <;> decide
    rw [hp, ← hkeyword]
    refine ⟨hl v.keyword, fun hiron => ?_⟩
    rw [mayPrecede, hi v.keyword hiron] at hmay
    cases hmay
  | sign s =>
    rw [h, baseLetter?_sign]
    exact ⟨nofun, nofun⟩

/-- Nothing that is typed makes a sign the sign of assignment. -/
theorem opens_ne_equals (h : v.opens d) : d ≠ '=' := by
  rintro rfl
  obtain ⟨s, -, hs⟩ := opens_sign h (by decide) (by decide)
  cases s <;> exact absurd hs (by decide)

end Written

/-- **The first piece of a text of lexemes** is its first lexeme, if that is not too long a number. -/
theorem firstPiece_text {w : Written} {ws : List Written} (h : Apart (w :: ws))
    (afterLetter : Bool) : ∃ c more, w.chars = c :: more ∧
      (w.lexeme.Short → firstPiece afterLetter c (more ++ text ws) = .ok ⟨some w.lexeme, more.length⟩) ∧
      (¬ w.lexeme.Short → ∃ fault, firstPiece afterLetter c (more ++ text ws) = .error fault) := by
  have hnext : ∀ d ∈ (text ws).head?, ∃ v : Written, v.opens d ∧ w.mayPrecede v = true := by
    intro d hd
    obtain ⟨v, vs, rfl, hv⟩ := text_head hd
    exact ⟨v, hv, h.mayPrecede⟩
  obtain ⟨c, more, hchars, hopens⟩ := w.chars_cons
  refine ⟨c, more, hchars, ?_⟩
  cases w with
  | number n =>
    have hnumber : n.chars = c :: more := hchars
    have hdigits : ∀ d ∈ c :: more, isDigit d = true := hnumber ▸ n.digits
    have hhead : ∀ d ∈ (text ws).head?, isDigit d = false := fun d hd =>
      let ⟨_, hv, hmay⟩ := hnext d hd
      Written.opens_after_number hv hmay
    have hread := firstPiece_number hdigits hhead (spanEnd?_text h.tail) afterLetter
    rw [hread, Written.lexeme, Lexeme.Short, hnumber]
    exact ⟨fun hshort => if_pos hshort, fun hlong => ⟨.longNumber, if_neg hlong⟩⟩
  | word w =>
    have hhead : ∀ d ∈ (text ws).head?, baseLetter? d ≠ some 'l' ∧ baseLetter? d ≠ some 'i' := fun d hd =>
      let ⟨_, hv, hmay⟩ := hnext d hd
      Written.opens_after_word hv hmay
    obtain ⟨p, hp, -⟩ := hopens
    have hlength := wordLength?_word w hhead
    have hword : w.chars = c :: more := hchars
    rw [hword, List.cons_append] at hlength
    have hread := firstPiece_letter hp hlength afterLetter
    rw [← List.cons_append, List.take_left', List.length_cons, Nat.add_sub_cancel, ← hword] at hread
    · exact ⟨fun _ => hread, fun hlong => absurd (wordLexeme_short w.chars) hlong⟩
    · rfl
  | sign s =>
    have hhead : ∀ d ∈ (text ws).head?, d ≠ '=' := fun d hd =>
      let ⟨_, hv, _⟩ := hnext d hd
      Written.opens_ne_equals hv
    obtain ⟨rfl, rfl⟩ := List.cons.inj (show [s.char] = c :: more from hchars)
    exact ⟨fun _ => firstPiece_sign s (fun _ => hhead) afterLetter, fun hlong => absurd trivial hlong⟩

/-- **The tokens of a text of lexemes** are those of its lexemes, and a text with a number that is too long has none. -/
theorem scanFrom_text : ∀ (ws : List Written) (afterLetter : Bool) (position : Nat) {ts : List Token},
    Apart ws → (scanFrom afterLetter position (text ws) = .ok ts ↔
      (∀ w ∈ ws, w.lexeme.Short) ∧ ts = tokens (position + (text ws).length) ws)
  | [], afterLetter, position, ts, _ => by
    rw [text_nil, scanFrom_nil]
    simp [tokens, eq_comm]
  | w :: ws, afterLetter, position, ts, h => by
    obtain ⟨c, more, hchars, hshort, hlong⟩ := firstPiece_text h afterLetter
    have hfinish : position + 1 + more.length + (text ws).length = position + (text (w :: ws)).length := by
      rw [text_cons, hchars, List.length_append, List.length_cons]
      omega
    have hplace : position + (text (w :: ws)).length - (text (w :: ws)).length = position := by omega
    rw [tokens, hplace, ← hfinish, text_cons, hchars, List.cons_append, scanFrom_cons]
    by_cases hw : w.lexeme.Short
    · have hpiece := hshort hw
      constructor
      · rintro ⟨piece, others, hp, hothers, rfl⟩
        rw [hpiece] at hp
        cases hp
        rw [List.drop_left] at hothers
        obtain ⟨hall, rfl⟩ := (scanFrom_text ws _ _ h.tail).1 hothers
        exact ⟨List.forall_mem_cons.2 ⟨hw, hall⟩, rfl⟩
      · rintro ⟨hall, rfl⟩
        refine ⟨_, _, hpiece, ?_, rfl⟩
        rw [List.drop_left]
        exact (scanFrom_text ws _ _ h.tail).2 ⟨(List.forall_mem_cons.1 hall).2, rfl⟩
    · obtain ⟨fault, hfault⟩ := hlong hw
      constructor
      · rintro ⟨piece, others, hp, -⟩
        rw [hfault] at hp
        cases hp
      · rintro ⟨hall, -⟩
        exact absurd (hall w List.mem_cons_self) hw

/-- **The tokens of a text that is made of lexemes.** -/
theorem scan_text {ws : List Written} (h : Apart ws) {ts : List Token} :
    scan (text ws) = .ok ts ↔ (∀ w ∈ ws, w.lexeme.Short) ∧ ts = tokens (text ws).length ws := by
  rw [scan, scanFrom_text ws false 0 h, Nat.zero_add]

/-! ## Letters and words -/

theorem toLower_eq {c : Char} (h : c.isUpper = false) : c.toLower = c := by
  unfold Char.isUpper at h
  exact dif_neg (decide_eq_false_iff_not.1 h)

theorem isUpper_of_isLower {c : Char} (h : c.isLower = true) : c.isUpper = false := by
  refine Bool.eq_false_iff.2 fun hup => ?_
  have := toNat_of_isLower h
  have := toNat_of_isUpper hup
  omega

theorem isLower_toLower {c : Char} (h : c.isUpper = true) : c.toLower.isLower = true := by
  have hall : ∀ n ∈ List.range' 65 26, (Char.ofNat n).toLower.isLower = true := by decide
  have hrange := toNat_of_isUpper h
  have hmem := hall c.toNat (List.mem_range'_1.2 (by omega))
  rwa [Char.ofNat_toNat] at hmem

/-- A character that becomes a small letter is a form of that letter. -/
theorem baseLetter?_of_toLower {c p : Char} (hp : p.isLower = true) (h : c.toLower = p) : baseLetter? c = some p := by
  by_cases hlow : c.isLower = true
  · rw [toLower_eq (isUpper_of_isLower hlow)] at h
    rw [baseLetter?, if_pos hlow, h]
  · by_cases hup : c.isUpper = true
    · rw [baseLetter?, if_neg hlow, if_pos hup, h]
    · rw [toLower_eq (Bool.eq_false_iff.2 hup)] at h
      rw [h] at hlow
      exact absurd hp hlow

theorem lowerLetter_of_toLower {c p : Char} (hp : p.isLower = true) (h : c.toLower = p) : lowerLetter c = [p] := by
  have hne : ∀ s : Char, s.toLower.isLower = false → c ≠ s := by
    rintro s hs rfl
    rw [h, hp] at hs
    cases hs
  rw [lowerLetter, if_neg (hne _ (by decide)), if_neg (hne _ (by decide)), h]

theorem lowerLetter_of_isLower {c : Char} (h : c.isLower = true) : lowerLetter c = [c] :=
  lowerLetter_of_toLower h (toLower_eq (isUpper_of_isLower h))

theorem lowerLetter_of_baseLetter?_none {c : Char} (h : baseLetter? c = none) : lowerLetter c = [c] := by
  have hne : ∀ s : Char, (baseLetter? s).isSome = true → c ≠ s := by
    rintro s hs rfl
    rw [h] at hs
    cases hs
  have hup : c.isUpper = false := by
    refine Bool.eq_false_iff.2 fun hup => ?_
    have hlow : ¬ c.isLower = true := fun hlow => absurd hup (by rw [isUpper_of_isLower hlow]; exact Bool.noConfusion)
    rw [baseLetter?, if_neg hlow, if_pos hup] at h
    cases h
  rw [lowerLetter, if_neg (hne _ (by decide)), if_neg (hne _ (by decide)), toLower_eq hup]

/-- Only the letters k, s and i have foreign forms. -/
theorem toLower_of_baseLetter? {c p : Char} (hk : p ≠ 'k') (hs : p ≠ 's') (hi : p ≠ 'i') (h : baseLetter? c = some p) :
    c.toLower = p := by
  unfold baseLetter? at h
  split at h
  · rename_i hlow
    cases h
    exact toLower_eq (isUpper_of_isLower hlow)
  split at h
  · cases h
    rfl
  repeat' split at h
  all_goals cases h
  all_goals contradiction

/-- **A letter as typed**, small or capital. -/
structure Letter (keyword : Keyword) where
  char : Char
  form : [char.toLower] = keyword.spelling

theorem Letter.isLower {keyword : Keyword} (letter : Letter keyword) : letter.char.toLower.isLower = true :=
  Keyword.spelling_isLower keyword _ (letter.form ▸ List.mem_cons_self)

def Letter.word {keyword : Keyword} (letter : Letter keyword) : Word where
  keyword := keyword
  chars := [letter.char]
  form := by
    rw [← letter.form, startsWithWord, startsWithWord, baseLetter?_of_toLower letter.isLower rfl, Bool.and_true,
      beq_self_eq_true]
  fits := by rw [← letter.form]; rfl

/-- **A word that becomes its keyword in lower case.** -/
def Word.Plain (w : Word) : Prop := w.chars.flatMap lowerLetter = w.keyword.spelling

instance (w : Word) : Decidable w.Plain := inferInstanceAs (Decidable (_ = _))

/-- A word in small and capital letters is plain. -/
theorem Word.plain_of_toLower {w : Word} (h : w.chars.map Char.toLower = w.keyword.spelling) : w.Plain := by
  have hlower : ∀ c ∈ w.chars, lowerLetter c = [c.toLower] := fun c hc =>
    lowerLetter_of_toLower (Keyword.spelling_isLower w.keyword _ (h ▸ List.mem_map_of_mem hc)) rfl
  rw [Word.Plain, List.flatMap_congr hlower, ← h, List.map_eq_flatMap]

theorem Letter.plain {keyword : Keyword} (letter : Letter keyword) : letter.word.Plain :=
  Word.plain_of_toLower letter.form

theorem Keyword.ofSpelling?_spelling (keyword : Keyword) : Keyword.ofSpelling? keyword.spelling = some keyword := by
  cases keyword <;> decide

theorem Word.Plain.lexeme {w : Word} (h : w.Plain) : wordLexeme w.chars = .keyword w.keyword := by
  rw [wordLexeme, h, Keyword.ofSpelling?_spelling]

/-- The lower case of a form of a letter is the letter, unless it holds a character that is no small letter. -/
theorem lowerLetter_of_baseLetter? {c p : Char} (h : baseLetter? c = some p)
    (hlow : ∀ d ∈ lowerLetter c, d.isLower = true) : lowerLetter c = [p] := by
  by_cases hkelvin : c = '\u212A'
  · subst hkelvin
    cases h
    rfl
  by_cases hdotted : c = '\u0130'
  · subst hdotted
    exact absurd (hlow '\u0307' (by decide)) (by decide)
  have hlower : lowerLetter c = [c.toLower] := by rw [lowerLetter, if_neg hkelvin, if_neg hdotted]
  have hbase := baseLetter?_of_toLower (hlow c.toLower (by rw [hlower]; exact List.mem_cons_self)) rfl
  rw [h] at hbase
  cases hbase
  exact hlower

theorem flatMap_lowerLetter : ∀ {word chars : List Char}, startsWithWord word chars = true →
    chars.length = word.length → (∀ d ∈ chars.flatMap lowerLetter, d.isLower = true) → chars.flatMap lowerLetter = word
  | [], [], _, _, _ => rfl
  | p :: word, c :: chars, h, hlength, hlow => by
    rw [startsWithWord, Bool.and_eq_true, beq_iff_eq] at h
    rw [List.flatMap_cons] at hlow ⊢
    rw [lowerLetter_of_baseLetter? h.1 fun d hd => hlow d (List.mem_append_left _ hd),
      flatMap_lowerLetter h.2 (Nat.succ.inj hlength) fun d hd => hlow d (List.mem_append_right _ hd)]
    rfl

/-- **A word that does not become its keyword is a lookalike.** -/
theorem Word.lexeme_lookalike {w : Word} (h : ¬ w.Plain) : ∃ text, wordLexeme w.chars = .lookalike text := by
  rw [wordLexeme]
  cases hfind : Keyword.ofSpelling? (w.chars.flatMap lowerLetter) with
  | none => exact ⟨_, rfl⟩
  | some keyword =>
    have hspelling : keyword.spelling = w.chars.flatMap lowerLetter := by
      simpa using List.find?_some hfind
    refine absurd (flatMap_lowerLetter w.form w.fits fun d hd => ?_) h
    exact Keyword.spelling_isLower keyword d (hspelling ▸ hd)

def Letter.lowered {keyword : Keyword} (letter : Letter keyword) : Letter keyword where
  char := letter.char.toLower
  form := by rw [toLower_eq (isUpper_of_isLower letter.isLower), letter.form]

def Word.lowered (w : Word) : Word where
  keyword := w.keyword
  chars := w.keyword.spelling
  form := by cases w.keyword <;> decide
  fits := rfl

theorem Word.lowered_plain (w : Word) : w.lowered.Plain := by
  change w.keyword.spelling.flatMap lowerLetter = w.keyword.spelling
  cases w.keyword <;> decide

end Writing
end TabletopDice
