import TabletopDice.Command.Spelling
import TabletopDice.Proofs.SingleRoll.Settling
/-!
# Respelling — a roll term read back from its spelling

The spelling of a roll term of a command is a command with that one roll (`parse_spelling`), and putting its suffixes in
order leaves it as it is. Every phrase of the grammar has a spelling in small letters and in digits with no zeros before
them, and spellings typed one after another do not run together.
-/
namespace TabletopDice

open Text Token Writing

/-! ## Numbers and keywords in their own spelling -/

namespace Writing

theorem digitValue?_of_isDigit {c : Char} (h : c.isDigit = true) : digitValue? c = some (c.toNat - '0'.toNat) := by
  simp only [Char.isDigit, Bool.and_eq_true, decide_eq_true_eq, UInt32.le_iff_toNat_le] at h
  have hlow : 48 ≤ c.toNat := h.1
  have hhigh : c.toNat ≤ 57 := h.2
  rw [digitValue?, zeros, digitValueFrom, if_neg (by omega), if_pos (by omega)]
  rfl

/-- **A number in decimal digits.** -/
def Digits.ofNat (n : Nat) : Digits where
  chars := Nat.toDigits 10 n
  digits c hc := by
    rw [isDigit, digitValue?_of_isDigit (Nat.isDigit_of_mem_toDigits (by decide) (by decide) hc)]
    rfl
  nonempty := Nat.toDigits_ne_nil

theorem Digits.value_ofNat (n : Nat) : (Digits.ofNat n).value = n := by
  have hvalue : ∀ (digits : List Char) (start : Nat), (∀ c ∈ digits, c.isDigit = true) →
      digits.foldl (fun n c => 10 * n + (digitValue? c).getD 0) start = Nat.ofDigitChars 10 digits start := by
    intro digits
    induction digits with
    | nil => exact fun _ _ => rfl
    | cons c rest ih =>
      intro start h
      rw [List.foldl_cons, digitValue?_of_isDigit (h c List.mem_cons_self),
        ih _ fun d hd => h d (List.mem_cons_of_mem _ hd)]
      rfl
  have hdigits : ∀ c ∈ Nat.toDigits 10 n, c.isDigit = true := fun c hc =>
    Nat.isDigit_of_mem_toDigits (by decide) (by decide) hc
  rw [value, numeralValue, ofNat, hvalue _ 0 hdigits]
  exact Nat.ofDigitChars_ten_toDigits

theorem Digits.length_ofNat {n : Nat} (h : n < Nat.pow 10 maxDigits) : (Digits.ofNat n).chars.length ≤ maxDigits :=
  (Nat.length_toDigits_le_iff (by decide) (by decide)).2 h

/-- A keyword in small letters. -/
def Word.small (keyword : Keyword) : Word where
  keyword := keyword
  chars := keyword.spelling
  form := by cases keyword <;> decide
  fits := rfl

theorem lexeme_small (keyword : Keyword) : (Written.word (.small keyword)).lexeme = .keyword keyword :=
  (Word.small keyword).lowered_plain.lexeme

/-- **A lexeme in small letters**, and not too long. -/
structure Written.Spelt (w : Written) : Prop where
  short : w.lexeme.Short
  small : ∀ c ∈ w.chars, lowerLetter c = [c]

theorem spelt_word (keyword : Keyword) : (Written.word (.small keyword)).Spelt where
  short := wordLexeme_short _
  small c hc := lowerLetter_of_isLower (Keyword.spelling_isLower keyword c hc)

theorem spelt_number {n : Nat} (h : n < Nat.pow 10 maxDigits) : (Written.number (.ofNat n)).Spelt where
  short := Digits.length_ofNat h
  small c hc := lowerLetter_of_baseLetter?_none (baseLetter?_of_isDigit ((Digits.ofNat n).digits c hc))

theorem spelt_sign (s : Symbol) : (Written.sign s).Spelt where
  short := trivial
  small c hc := by
    rw [List.mem_singleton.1 hc]
    exact lowerLetter_of_baseLetter?_none (baseLetter?_sign s)

/-! ## Spellings typed one after another -/

theorem tokens_append (finish : Nat) (ws vs : List Written) :
    tokens finish (ws ++ vs) = tokens (finish - (text vs).length) ws ++ tokens finish vs := by
  induction ws with
  | nil => rfl
  | cons w ws ih =>
    have hplace : finish - (text (w :: (ws ++ vs))).length = finish - (text vs).length - (text (w :: ws)).length := by
      rw [← List.cons_append, text_append, List.length_append]
      omega
    rw [List.cons_append, tokens, ih, tokens, List.cons_append, hplace]

theorem tokens_small (finish : Nat) (keyword : Keyword) (rest : List Written) :
    ∃ p, tokens finish (.word (.small keyword) :: rest) = ⟨.keyword keyword, p⟩ :: tokens finish rest :=
  ⟨_, by rw [tokens, lexeme_small]⟩

/-- Lexemes that may be typed after any other. -/
def Free (ws : List Written) : Prop := ∀ w, Apart (w :: ws)

theorem Free.after {vs : List Written} (h : Free vs) : ∀ {ws : List Written}, ws ≠ [] → Apart ws → Apart (ws ++ vs)
  | [w], _, _ => h w
  | _ :: _ :: _, _, hws => .cons hws.mayPrecede (h.after (List.cons_ne_nil _ _) hws.tail)

theorem Free.append {ws vs : List Written} (h : Free ws) (h' : Free vs) : Free (ws ++ vs) := fun w =>
  h'.after (List.cons_ne_nil w ws) (h w)

/-- **Lexemes that spell a phrase**, in small letters. -/
structure Spells (phrase : List Token → Prop) (spelling : String) (ws : List Written) : Prop where
  text_eq : text ws = spelling.toList
  spelt : ∀ w ∈ ws, w.Spelt
  apart : Apart ws
  phrase_tokens : ∀ finish, phrase (tokens finish ws)

namespace Spells

variable {P Q R : List Token → Prop} {a b : String} {ws vs : List Written}

theorem mono (h : Spells P a ws) (hPQ : ∀ ts, P ts → Q ts) : Spells Q a ws :=
  { h with phrase_tokens := fun finish => hPQ _ (h.phrase_tokens finish) }

/-- **One spelling after another**, if it does not run together with what stands before it. -/
theorem append (h : Spells P a ws) (h' : Spells Q b vs) (hfree : Free vs) (hPQ : ∀ ts us, P ts → Q us → R (ts ++ us)) :
    Spells R (a ++ b) (ws ++ vs) where
  text_eq := by rw [text_append, h.text_eq, h'.text_eq, String.toList_append]
  spelt w hw := (List.mem_append.1 hw).elim (h.spelt w) (h'.spelt w)
  apart := by
    by_cases hws : ws = []
    · rw [hws, List.nil_append]
      exact h'.apart
    · exact hfree.after hws h.apart
  phrase_tokens finish := by
    rw [tokens_append]
    exact hPQ _ _ (h.phrase_tokens _) (h'.phrase_tokens finish)

end Spells

/-- The phrase has a spelling that may be typed after any other. -/
def Spellable (phrase : List Token → Prop) (spelling : String) : Prop := ∃ ws, Spells phrase spelling ws ∧ Free ws

namespace Spellable

variable {P Q R : List Token → Prop} {a b : String}

theorem nil (h : P []) : Spellable P "" :=
  ⟨[], ⟨rfl, fun _ hw => absurd hw List.not_mem_nil, List.isChain_nil, fun _ => h⟩, List.isChain_singleton⟩

theorem mono (h : Spellable P a) (hPQ : ∀ ts, P ts → Q ts) : Spellable Q a := by
  obtain ⟨ws, hws, hfree⟩ := h
  exact ⟨ws, hws.mono hPQ, hfree⟩

theorem append (h : Spellable P a) (h' : Spellable Q b) (hPQ : ∀ ts us, P ts → Q us → R (ts ++ us)) :
    Spellable R (a ++ b) := by
  obtain ⟨ws, hws, hfree⟩ := h
  obtain ⟨vs, hvs, hfree'⟩ := h'
  exact ⟨ws ++ vs, hws.append hvs hfree' hPQ, hfree.append hfree'⟩

end Spellable

end Writing

/-! ## The phrases of the grammar -/

namespace Grammar

/-- The number can be written with as many digits as a number may have. -/
def Writable (n : Nat) : Prop := n < Nat.pow 10 maxDigits

variable {ts : List Token}

theorem Numeral.writable {n : Nat} (h : Numeral ts n) (hshort : ∀ t ∈ ts, t.lexeme.Short) : Writable n := by
  cases h
  exact numeral_lt (hshort _ List.mem_cons_self)

theorem Lettered.writable {letter : Keyword} {n : Nat} (h : Lettered letter ts n) (hshort : ∀ t ∈ ts, t.lexeme.Short) :
    Writable n := by
  cases h
  exact numeral_lt (hshort _ (List.mem_cons_of_mem _ List.mem_cons_self))

theorem Optional.writable {phrase : List Token → Nat → Prop} {count : Option Nat} (h : Optional phrase ts count)
    (hphrase : ∀ {n}, phrase ts n → Writable n) : ∀ n ∈ count, Writable n := by
  cases h with
  | missing => exact fun _ hn => by cases hn
  | present h =>
    rintro _ ⟨⟩
    exact hphrase h

/-- **A count is spelled in digits**, if it is not left out. -/
theorem spells_count {count : Option Nat} (hcount : ∀ n ∈ count, Writable n) :
    Spells (Optional Numeral · count) (optionalDigits count) (count.map fun n => .number (.ofNat n)).toList := by
  cases count with
  | none => exact ⟨rfl, fun _ hw => absurd hw List.not_mem_nil, List.isChain_nil, fun _ => .missing⟩
  | some n =>
    refine ⟨?_, List.forall_mem_singleton.2 (spelt_number (hcount n rfl)), List.isChain_singleton _, fun finish => ?_⟩
    · rw [optionalDigits, show (toString n).toList = Nat.toDigits 10 n from String.toList_ofList ..]
      exact List.append_nil _
    · have hnumeral := Numeral.mk (Digits.ofNat n).chars (finish - (text [.number (.ofNat n)]).length)
      rw [show numeralValue (Digits.ofNat n).chars = n from Digits.value_ofNat n] at hnumeral
      exact .present hnumeral

/-- A word other than `iron` may be typed after anything. -/
theorem free_word {keyword : Keyword} (h : keyword ≠ .iron) {rest : List Written}
    (hrest : Apart (.word (.small keyword) :: rest)) : Free (.word (.small keyword) :: rest) := by
  have hword : (Word.small keyword).keyword ≠ .iron := h
  intro w
  refine .cons ?_ hrest
  cases w <;> simp [Written.mayPrecede, hword]

theorem free_bang : Free [.sign .bang] := by
  intro w
  refine .cons ?_ (List.isChain_singleton _)
  cases w with
  | sign t => cases t <;> rfl
  | _ => rfl

/-- **A keyword with a count after it.** -/
theorem spellable_word {keyword : Keyword} {name : String} (hname : name.toList = keyword.spelling)
    (hiron : keyword ≠ .iron) {count : Option Nat} (hcount : ∀ n ∈ count, Writable n) :
    Spellable (fun ts => ∃ p us, ts = ⟨.keyword keyword, p⟩ :: us ∧ Optional Numeral us count)
      (name ++ optionalDigits count) := by
  have hnumber := spells_count hcount
  have hapart : Apart (.word (.small keyword) :: (count.map fun n => Written.number (.ofNat n)).toList) := by
    cases count with
    | none => exact List.isChain_singleton _
    | some n => exact .cons rfl (List.isChain_singleton _)
  refine ⟨_, ⟨?_, ?_, hapart, fun finish => ?_⟩, free_word hiron hapart⟩
  · rw [text_cons, hnumber.text_eq, String.toList_append, hname]
    rfl
  · exact List.forall_mem_cons.2 ⟨spelt_word keyword, hnumber.spelt⟩
  · obtain ⟨p, htokens⟩ := tokens_small finish keyword (count.map fun n => Written.number (.ofNat n)).toList
    exact ⟨p, _, htokens, hnumber.phrase_tokens finish⟩

theorem spellable_lettered {letter : Keyword} {name : String} (hname : name.toList = letter.spelling)
    (hiron : letter ≠ .iron) {n : Nat} (hn : Writable n) : Spellable (Lettered letter · n) (name ++ toString n) := by
  have hcount : ∀ m ∈ some n, Writable m := by
    rintro _ ⟨⟩
    exact hn
  refine (spellable_word hname hiron hcount).mono ?_
  rintro _ ⟨p, us, rfl, hus⟩
  cases hus with
  | present hus =>
    cases hus with
    | mk digits q => exact .mk digits p q

theorem spellable_optionalLettered {letter : Keyword} {name : String} (hname : name.toList = letter.spelling)
    (hiron : letter ≠ .iron) {m : Option Nat} (hm : ∀ n ∈ m, Writable n) :
    Spellable (Optional (Lettered letter) · m) (letterNumber name m) := by
  cases m with
  | none => exact .nil .missing
  | some n => exact (spellable_lettered hname hiron (hm n rfl)).mono fun _ => .present

theorem TargetPhrase.spellable {suffix : TargetSuffix} (h : TargetPhrase ts suffix) (hshort : ∀ t ∈ ts, t.lexeme.Short) :
    Spellable (TargetPhrase · suffix) suffix.spelling := by
  have ht : ∀ {n}, Writable n → Spellable (Lettered .t · n) (letterNumber "t" (some n)) :=
    spellable_lettered rfl (by decide)
  have hr : ∀ {n}, Writable n → Spellable (Lettered .r · n) (letterNumber "r" (some n)) :=
    spellable_lettered rfl (by decide)
  have hnone : Spellable (· = []) "" := .nil rfl
  cases h with
  | target h =>
    refine (ht (h.writable hshort)).append hnone ?_
    rintro ts _ hts rfl
    rw [List.append_nil]
    exact .target hts
  | interval h =>
    refine hnone.append (hr (h.writable hshort)) ?_
    rintro _ us rfl hus
    exact .interval hus
  | both h h' =>
    have hfirst := h.writable fun t ht => hshort t (List.mem_append_left _ ht)
    have hsecond := h'.writable fun t ht => hshort t (List.mem_append_right _ ht)
    exact (ht hfirst).append (hr hsecond) fun _ _ => .both

theorem spellable_optionalTarget {target : Option TargetSuffix} (h : Optional TargetPhrase ts target)
    (hshort : ∀ t ∈ ts, t.lexeme.Short) : Spellable (Optional TargetPhrase · target) (optionalTarget target) := by
  cases h with
  | missing => exact .nil .missing
  | present h => exact (h.spellable hshort).mono fun _ => .present

theorem KeepPhrase.spellable {suffix : KeepSuffix} (h : KeepPhrase ts suffix) (hshort : ∀ t ∈ ts, t.lexeme.Short) :
    Spellable (KeepPhrase · suffix) suffix.spelling := by
  cases h with
  | @mk us count rule p hcount =>
    have hwritable := hcount.writable fun h => h.writable fun t ht => hshort t (List.mem_cons_of_mem _ ht)
    have hname : rule.letters.toList = (keepWord rule).spelling := by cases rule <;> rfl
    have hiron : keepWord rule ≠ .iron := by cases rule <;> decide
    refine (spellable_word hname hiron hwritable).mono ?_
    rintro _ ⟨q, vs, rfl, hvs⟩
    exact .mk rule q hvs

theorem SuccessPhrase.spellable {suffix : SuccessSuffix} (h : SuccessPhrase ts suffix)
    (hshort : ∀ t ∈ ts, t.lexeme.Short) : Spellable (SuccessPhrase · suffix) suffix.spelling := by
  cases h with
  | mk hn hm =>
    have hthreshold := hn.writable fun t ht => hshort t (List.mem_append_left _ ht)
    have hfailure := hm.writable fun h => h.writable fun t ht => hshort t (List.mem_append_right _ ht)
    have hs : Spellable (Lettered .s · _) ("s" ++ _) := spellable_lettered rfl (by decide) hthreshold
    have hf : Spellable (Optional (Lettered .f) · _) (letterNumber "f" _) :=
      spellable_optionalLettered rfl (by decide) hfailure
    exact hs.append hf fun _ _ => .mk

theorem ReadingPhrase.spellable {reading : Reading} (h : ReadingPhrase ts reading) (hshort : ∀ t ∈ ts, t.lexeme.Short) :
    Spellable (ReadingPhrase · reading) reading.spelling := by
  cases h with
  | keep hkeep htarget =>
    have hk := hkeep.spellable fun t ht => hshort t (List.mem_append_left _ ht)
    have ht := spellable_optionalTarget htarget fun t ht => hshort t (List.mem_append_right _ ht)
    exact hk.append ht fun _ _ => .keep
  | success h => exact (h.spellable hshort).mono fun _ => .success
  | target h =>
    have hnone : Spellable (· = []) "" := .nil rfl
    refine hnone.append (spellable_optionalTarget h hshort) ?_
    rintro _ us rfl hus
    exact .target hus

theorem FacesPhrase.spellable {faces : Faces} (h : FacesPhrase ts faces) (hshort : ∀ t ∈ ts, t.lexeme.Short) :
    Spellable (fun ts => ∃ p fs, ts = ⟨.keyword .d, p⟩ :: fs ∧ FacesPhrase fs faces) ("d" ++ faces.spelling) := by
  cases h with
  | @sides _ n h =>
    have hcount : ∀ m ∈ some n, Writable m := by
      rintro _ ⟨⟩
      exact h.writable hshort
    have hd : "d".toList = Keyword.spelling .d := rfl
    have hsides := spellable_word hd (by decide) hcount
    refine hsides.mono ?_
    rintro _ ⟨p, us, rfl, hus⟩
    cases hus with
    | present hus => exact ⟨p, us, rfl, .sides hus⟩
  | percent =>
    have hapart : Apart [.word (.small .d), .sign .percent] := .cons rfl (List.isChain_singleton _)
    refine ⟨_, ⟨rfl, ?_, hapart, fun finish => ?_⟩, free_word (by decide) hapart⟩
    · exact List.forall_mem_cons.2 ⟨spelt_word .d, List.forall_mem_singleton.2 (spelt_sign .percent)⟩
    · obtain ⟨p, htokens⟩ := tokens_small finish .d [.sign .percent]
      exact ⟨p, _, htokens, .percent _⟩

theorem spellable_acing (acing : Bool) : Spellable (AcingMark · acing) (if acing then "!" else "") := by
  cases acing with
  | false => exact .nil .missing
  | true =>
    have hspelt := List.forall_mem_singleton.2 (spelt_sign .bang)
    exact ⟨_, ⟨rfl, hspelt, List.isChain_singleton _, fun _ => .present _⟩, free_bang⟩

end Grammar

/-! ## Roll terms -/

/-- **A roll term that has a spelling**, the spelling, and what is read from it: the count of a trait roll or an extra is
left out. The spelling leaves out a count of zero as well, so a generic roll with that count is not among them. -/
inductive Roll.Spelled : Roll → String → Roll → Prop
  | generic {roll : GenericRoll} : roll.count ≠ some 0 → Spelled (.generic roll) roll.spelling (.generic roll)
  | savage (roll : SavageRoll) : Spelled (.savage roll) roll.spelling (.savage { roll with count := none })
  | extras (roll : ExtrasRoll) : Spelled (.extras roll) roll.spelling (.extras { roll with count := none })

namespace Grammar

theorem countSpelling_eq {count : Option Nat} (h : count ≠ some 0) : countSpelling count = optionalDigits count := by
  match count with
  | none => rfl
  | some 0 => exact absurd rfl h
  | some (_ + 1) => rfl

theorem RollPhrase.spells_generic {roll : GenericRoll} (h : RollPhrase ts (.generic roll))
    (hshort : ∀ t ∈ ts, t.lexeme.Short) (hcount : roll.count ≠ some 0) :
    ∃ ws, Spells (RollPhrase · (.generic roll)) roll.spelling ws := by
  cases h with
  | @generic cs fs bs rs count faces acing reading p hcs hfs hbs hrs =>
    have hnumber := spells_count (hcs.writable fun h => h.writable fun t ht => hshort t (by simp [ht]))
    have hfaces := hfs.spellable fun t ht => hshort t (by simp [ht])
    have hreading := hrs.spellable fun t ht => hshort t (by simp [ht])
    have hdice : Spellable (fun ts => ∃ p fs bs, ts = ⟨.keyword .d, p⟩ :: (fs ++ bs) ∧ FacesPhrase fs faces ∧
        AcingMark bs acing) ("d" ++ faces.spelling ++ if acing then "!" else "") := by
      refine hfaces.append (spellable_acing acing) ?_
      rintro _ bs ⟨p, fs, rfl, hfs⟩ hbs
      exact ⟨p, fs, bs, rfl, hfs, hbs⟩
    have huncounted : Spellable (fun ts => ∀ cs, Optional Numeral cs count →
        RollPhrase (cs ++ ts) (.generic ⟨count, faces, acing, reading⟩))
        ("d" ++ faces.spelling ++ (if acing then "!" else "") ++ reading.spelling) := by
      refine hdice.append hreading ?_
      rintro _ rs ⟨p, fs, bs, rfl, hfs, hbs⟩ hrs cs hcs
      rw [List.cons_append, List.append_assoc]
      exact .generic p hcs hfs hbs hrs
    have hspelling : GenericRoll.spelling ⟨count, faces, acing, reading⟩ = optionalDigits count ++
        ("d" ++ faces.spelling ++ (if acing then "!" else "") ++ reading.spelling) := by
      rw [GenericRoll.spelling, countSpelling_eq hcount]
      simp only [String.append_assoc]
    obtain ⟨ws, hws, hfree⟩ := huncounted
    rw [hspelling]
    exact ⟨_, hnumber.append hws hfree fun cs ts hcs hts => hts cs hcs⟩

theorem RollPhrase.spellable_savage {roll : SavageRoll} (h : RollPhrase ts (.savage roll))
    (hshort : ∀ t ∈ ts, t.lexeme.Short) :
    Spellable (RollPhrase · (.savage { roll with count := none })) roll.spelling := by
  cases h with
  | @savage cs ts vs us count wild trait target hcs hts hvs hus =>
    have htrait : Spellable (Lettered .s · trait) ("s" ++ toString trait) :=
      spellable_lettered rfl (by decide) (hts.writable fun t ht => hshort t (by simp [ht]))
    have hwild : Spellable (Optional (Lettered .w) · wild) (letterNumber "w" wild) :=
      spellable_optionalLettered rfl (by decide) (hvs.writable fun h => h.writable fun t ht => hshort t (by simp [ht]))
    have htarget := spellable_optionalTarget hus fun t ht => hshort t (by simp [ht])
    have hdice : Spellable (fun ts => ∀ us, Optional TargetPhrase us target →
        RollPhrase (ts ++ us) (.savage ⟨none, trait, wild, target⟩))
        ("s" ++ toString trait ++ letterNumber "w" wild) := by
      refine htrait.append hwild fun ts vs hts hvs us hus => ?_
      rw [List.append_assoc]
      exact .savage .missing hts hvs hus
    exact hdice.append htarget fun ts us hts hus => hts us hus

theorem RollPhrase.spellable_extras {roll : ExtrasRoll} (h : RollPhrase ts (.extras roll))
    (hshort : ∀ t ∈ ts, t.lexeme.Short) :
    Spellable (RollPhrase · (.extras { roll with count := none })) roll.spelling := by
  cases h with
  | @extras cs ts us count sides target hcs hts hus =>
    have hsides : Spellable (Lettered .e · sides) ("e" ++ toString sides) :=
      spellable_lettered rfl (by decide) (hts.writable fun t ht => hshort t (by simp [ht]))
    have htarget := spellable_optionalTarget hus fun t ht => hshort t (by simp [ht])
    exact hsides.append htarget fun ts us hts hus => .extras .missing hts hus

/-- **A roll term is spelled in lexemes that are read as it.** -/
theorem RollPhrase.exists_spells {roll read : Roll} {spelling : String} (h : RollPhrase ts roll)
    (hshort : ∀ t ∈ ts, t.lexeme.Short) (hspelled : roll.Spelled spelling read) :
    ∃ ws, Spells (RollPhrase · read) spelling ws := by
  cases hspelled with
  | generic hcount => exact h.spells_generic hshort hcount
  | savage =>
    obtain ⟨ws, hws, -⟩ := h.spellable_savage hshort
    exact ⟨ws, hws⟩
  | extras =>
    obtain ⟨ws, hws, -⟩ := h.spellable_extras hshort
    exact ⟨ws, hws⟩

end Grammar

/-! ## The roll terms of a command -/

/-- **The roll terms of an expression.** -/
def Expr.rolls : Expr → List Roll
  | literal .. | var .. => []
  | roll term _ => [term]
  | signed _ operand _ => operand.rolls
  | binary _ left right _ => left.rolls ++ right.rolls
  | unbounded operand _ => operand.rolls
  | atLeast operand minimum _ => operand.rolls ++ minimum.rolls
  | atMost operand maximum _ => operand.rolls ++ maximum.rolls
  | between operand minimum maximum _ => operand.rolls ++ (minimum.rolls ++ maximum.rolls)
  | assign _ value _ => value.rolls

/-- **The roll terms of a command**, in order. -/
def Command.rolls (command : Command) : List Roll := command.trees.flatMap Expr.rolls

namespace Grammar

/-- **A roll term of a tree derives from some of its tokens.** -/
theorem Derives.rolls {rule : Rule} {e : Expr} {k : Nat} (h : Derives rule ts e k) :
    ∀ roll ∈ e.rolls, ∃ us, RollPhrase us roll ∧ ∀ t ∈ us, t ∈ ts := by
  induction h with
  | sum _ ih | oneTerm _ ih | oneFactor _ ih | unsigned _ ih | noBounds _ ih => exact ih
  | literal | var => exact fun roll hroll => absurd hroll List.not_mem_nil
  | roll hroll =>
    intro roll hmem
    rw [List.mem_singleton.1 hmem]
    exact ⟨_, hroll, fun t ht => ht⟩
  | assignment name p q _ ih | signed p _ _ ih | parentheses p q _ ih | unbounded p q r _ ih =>
    intro roll hroll
    obtain ⟨us, hus, hmem⟩ := ih roll hroll
    exact ⟨us, hus, fun t ht => by simp [hmem t ht]⟩
  | moreTerms p _ _ _ ihl ihr | moreFactors p _ _ _ ihl ihr | atLeast p q r _ _ ihl ihr | atMost p q r _ _ ihl ihr =>
    intro roll hroll
    rcases List.mem_append.1 hroll with hroll | hroll
    · obtain ⟨us, hus, hmem⟩ := ihl roll hroll
      exact ⟨us, hus, fun t ht => by simp [hmem t ht]⟩
    · obtain ⟨us, hus, hmem⟩ := ihr roll hroll
      exact ⟨us, hus, fun t ht => by simp [hmem t ht]⟩
  | between p q r _ _ _ ih ihlow ihhigh =>
    intro roll hroll
    rcases List.mem_append.1 hroll with hroll | hroll
    · obtain ⟨us, hus, hmem⟩ := ih roll hroll
      exact ⟨us, hus, fun t ht => by simp [hmem t ht]⟩
    rcases List.mem_append.1 hroll with hroll | hroll
    · obtain ⟨us, hus, hmem⟩ := ihlow roll hroll
      exact ⟨us, hus, fun t ht => by simp [hmem t ht]⟩
    · obtain ⟨us, hus, hmem⟩ := ihhigh roll hroll
      exact ⟨us, hus, fun t ht => by simp [hmem t ht]⟩

end Grammar

namespace Command

open Grammar

/-- **A roll term of a command derives from tokens whose numbers are not too long.** -/
theorem rolls_of_parse {text : String} {c : Command} (h : parse text = .ok c) {roll : Roll} (hroll : roll ∈ c.rolls) :
    ∃ us, RollPhrase us roll ∧ ∀ t ∈ us, t.lexeme.Short := by
  obtain ⟨tokens, k, hscan, -, hderives⟩ := derives_of_parse h
  obtain ⟨e, he, hroll⟩ := List.mem_flatMap.1 hroll
  obtain ⟨rule, ts, m, -, hts, -, hsub⟩ := hderives.trees e he
  obtain ⟨us, hus, hmem⟩ := hts.rolls roll hroll
  exact ⟨us, hus, fun t ht => Token.scanFrom_short hscan t (hsub t (hmem t ht))⟩

/-- **What is spelled as a roll term is a command with that one roll.** -/
theorem parse_spells {spelling : String} {ws : List Written} {roll : Roll} (h : Spells (RollPhrase · roll) spelling ws) :
    parse spelling = .ok ⟨.once (.roll roll 0) 0, []⟩ := by
  have hscan : Token.scan spelling.toList = .ok (tokens (Writing.text ws).length ws) := by
    rw [← h.text_eq]
    exact (scan_text h.apart).2 ⟨fun w hw => (h.spelt w hw).short, rfl⟩
  have hphrase := h.phrase_tokens (Writing.text ws).length
  cases ws with
  | nil =>
    have hopens : opensExpr ([] ++ []) = true := hphrase.opens.1
    cases hopens
  | cons w ws =>
    rw [tokens, Nat.sub_self] at hscan hphrase
    have hprimary := Derives.roll hphrase
    have hexpr := Derives.sum (.oneTerm (.oneFactor (.unsigned (.noBounds hprimary))))
    exact parse_of_derives hscan (.one (.once hexpr)) (by decide)

end Command

namespace SuffixOrder

/-- A suffix typed in small letters is as it is put in order. -/
theorem small_of_small {affix : Affix} (h : ∀ c ∈ Writing.text affix.written, lowerLetter c = [c]) :
    affix.small = Writing.text affix.written := by
  have hletter : ∀ {keyword : Keyword} (letter : Letter keyword) {p : Char}, keyword.spelling = [p] →
      lowerLetter letter.char = [letter.char] → letter.char = p := by
    intro keyword letter p hp hsmall
    have hlower := lowerLetter_of_toLower letter.isLower rfl
    rw [toLower_letter letter hp, hsmall] at hlower
    exact (List.cons.inj hlower).1
  cases affix with
  | keep word count =>
    have hchars : ∀ c ∈ word.chars, lowerLetter c = [c] := fun c hc => h c (List.mem_append_left _ hc)
    have hword : word.chars.flatMap lowerLetter = word.chars := by
      rw [List.flatMap_congr hchars, List.flatMap_singleton']
    rw [Affix.small, hword]
    rfl
  | target letter number =>
    have hc := hletter letter rfl (h letter.char List.mem_cons_self)
    simp [Affix.small, Affix.written, Written.chars, Letter.word, hc]
  | interval letter number =>
    have hc := hletter letter rfl (h letter.char List.mem_cons_self)
    simp [Affix.small, Affix.written, Written.chars, Letter.word, hc]
  | modifier sign number => simp [Affix.small, Affix.written, Written.chars]

/-- **A command in small letters is in order.** -/
theorem normalize_of_small {text : String} {c : Command} (h : Command.parse text = .ok c)
    (hsmall : ∀ d ∈ text.toList, lowerLetter d = [d]) : normalize text = text := by
  refine (normalize_eq_self_iff text).2 fun roll htyped => ?_
  obtain rfl : text = String.ofList roll.typed := by rw [htyped, String.ofList_toList]
  obtain ⟨-, ⟨horder, -⟩, -⟩ := roll.parse_typed.1 h
  rw [horder, Writing.text, List.flatMap_assoc]
  refine List.flatMap_congr fun affix hmem => (small_of_small fun d hd => hsmall d ?_).symm
  rw [String.toList_ofList, SingleRoll.typed, SingleRoll.written, text_append]
  refine List.mem_append_right _ ?_
  rw [Writing.text, List.flatMap_assoc]
  exact List.mem_flatMap.2 ⟨affix, hmem, hd⟩

end SuffixOrder

/-! ## Main result -/

namespace Command

/-- **The spelling of a roll term of a command is a command with that one roll**, and it is in order. -/
theorem parse_spelling {text : String} {c : Command} (h : parse text = .ok c) {roll read : Roll} {spelling : String}
    (hroll : roll ∈ c.rolls) (hspelled : roll.Spelled spelling read) :
    SuffixOrder.normalize spelling = spelling ∧ parse spelling = .ok ⟨.once (.roll read 0) 0, []⟩ := by
  obtain ⟨us, hus, hshort⟩ := rolls_of_parse h hroll
  obtain ⟨ws, hws⟩ := hus.exists_spells hshort hspelled
  have hparse := parse_spells hws
  refine ⟨SuffixOrder.normalize_of_small hparse fun d hd => ?_, hparse⟩
  rw [← hws.text_eq] at hd
  obtain ⟨w, hw, hd⟩ := List.mem_flatMap.1 hd
  exact (hws.spelt w hw).small d hd

theorem parse_spelling_batch : ∃ c, parse "2x[@a := 03d%!KL2t5r3 + 2S8w6R4; (4D6s5F1)[e10:9]]" = .ok c ∧
    (.generic ⟨some 3, .percent, true, .total (some ⟨.lowest, some 2⟩) (some ⟨some 5, some 3⟩)⟩ ∈ c.rolls ∧
      SuffixOrder.normalize "3d%!kl2t5r3" = "3d%!kl2t5r3" ∧ parse "3d%!kl2t5r3" = .ok ⟨.once (.roll (.generic
        ⟨some 3, .percent, true, .total (some ⟨.lowest, some 2⟩) (some ⟨some 5, some 3⟩)⟩) 0) 0, []⟩) ∧
    (.generic ⟨some 4, .sides 6, false, .successes ⟨5, some 1⟩⟩ ∈ c.rolls ∧
      SuffixOrder.normalize "4d6s5f1" = "4d6s5f1" ∧ parse "4d6s5f1" =
        .ok ⟨.once (.roll (.generic ⟨some 4, .sides 6, false, .successes ⟨5, some 1⟩⟩) 0) 0, []⟩) ∧
    .savage ⟨some 2, 8, some 6, some ⟨none, some 4⟩⟩ ∈ c.rolls ∧
      SuffixOrder.normalize "s8w6r4" = "s8w6r4" ∧ parse "s8w6r4" =
        .ok ⟨.once (.roll (.savage ⟨none, 8, some 6, some ⟨none, some 4⟩⟩) 0) 0, []⟩ := by
  let kept : GenericRoll := ⟨some 3, .percent, true, .total (some ⟨.lowest, some 2⟩) (some ⟨some 5, some 3⟩)⟩
  let counted : GenericRoll := ⟨some 4, .sides 6, false, .successes ⟨5, some 1⟩⟩
  let trait : SavageRoll := ⟨some 2, 8, some 6, some ⟨none, some 4⟩⟩
  let rolls : List Roll := [.generic kept, .savage trait, .generic counted, .extras ⟨none, 10, none⟩]
  have hparses : parses "2x[@a := 03d%!KL2t5r3 + 2S8w6R4; (4D6s5F1)[e10:9]]" (fun c => c.rolls = rolls) = true := by
    decide +kernel
  obtain ⟨c, hparse, hrolls⟩ := ok_of_parses _ hparses
  have hmem : ∀ roll ∈ rolls, roll ∈ c.rolls := by
    rw [of_decide_eq_true hrolls]
    exact fun _ h => h
  have hkept : (Roll.generic kept).Spelled "3d%!kl2t5r3" (.generic kept) := .generic (by decide)
  have hcounted : (Roll.generic counted).Spelled "4d6s5f1" (.generic counted) := .generic (by decide)
  have htrait : (Roll.savage trait).Spelled "s8w6r4" (.savage { trait with count := none }) := by
    have hspelling : trait.spelling = "s8w6r4" := by decide
    rw [← hspelling]
    exact .savage trait
  have hfirst := hmem _ (.head _)
  have hsecond := hmem _ (.tail _ (.head _))
  have hthird := hmem _ (.tail _ (.tail _ (.head _)))
  exact ⟨c, hparse, ⟨hfirst, parse_spelling hparse hfirst hkept⟩, ⟨hthird, parse_spelling hparse hthird hcounted⟩,
    hsecond, parse_spelling hparse hsecond htrait⟩

end Command

end TabletopDice
