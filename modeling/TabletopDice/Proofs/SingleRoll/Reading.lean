import TabletopDice.Proofs.Grammar.Completeness
import TabletopDice.Proofs.SingleRoll
/-!
# Reading — the base and the suffixes of a single roll read by the grammar

The rules of the grammar take suffixes in one order: a keep suffix, a target number, a raise interval and a modifier,
each if it stands first in what is left (`takeFirst`). What stands elsewhere is left, and so is a keep suffix whose word
is a lookalike. A base and what is taken of the suffixes are one operand (`primary_base`).
-/
namespace TabletopDice

open Text Token Writing Command

/-! ## Taking suffixes -/

/-- What a keep suffix says, if its word is plain. -/
def Affix.plainKeep? : Affix → Option KeepSuffix
  | keep word count => if word.toWord.Plain then (keep word count).keep? else none
  | _ => none

/-- What the first suffix means, if it has a meaning of the kind that is asked for, and the suffixes after it. -/
def takeFirst {β : Type} (meaning : Affix → Option β) : List Affix → Option β × List Affix
  | [] => (none, [])
  | affix :: rest => match meaning affix with
    | some found => (some found, rest)
    | none => (none, affix :: rest)

namespace Affix

theorem plainKeep?_cases (affix : Affix) :
    (∃ word count, affix = keep word count ∧ word.toWord.Plain) ∨ affix.plainKeep? = none := by
  cases affix with
  | keep word count =>
    by_cases hplain : word.toWord.Plain
    · exact .inl ⟨word, count, rfl, hplain⟩
    · exact .inr (if_neg hplain)
  | target | interval | modifier => exact .inr rfl

/-- The lexeme that the text of a suffix starts with. -/
def opening : Affix → Lexeme
  | keep word _ => wordLexeme word.chars
  | target .. => .keyword .t
  | interval .. => .keyword .r
  | modifier sign _ => .symbol sign.mark

end Affix

namespace SingleRoll

/-- The tokens of suffixes up to the place `finish`. -/
def suffixTokens (finish : Nat) (suffixes : List Affix) : List Token := tokens finish (suffixes.flatMap Affix.written)

theorem keep_lexeme (word : KeepWord) :
    wordLexeme word.chars = .keyword (Grammar.keepWord word.rule) ∧ word.toWord.Plain ∨
      (∃ text, wordLexeme word.chars = .lookalike text) ∧ ¬ word.toWord.Plain := by
  by_cases h : word.toWord.Plain
  · exact .inl ⟨by rw [h.lexeme, word.keeps], h⟩
  · exact .inr ⟨Word.lexeme_lookalike h, h⟩

/-- The lexemes that suffixes start with. -/
def startsSuffix : Lexeme → Bool
  | .keyword .k | .keyword .kl | .keyword .adv | .keyword .dis | .keyword .t | .keyword .r => true
  | .lookalike _ => true
  | .symbol .plus | .symbol .minus => true
  | _ => false

/-- **A suffix is known by its first lexeme**: a letter t or r, a sign, or a word that is none of these. -/
structure Known (affix : Affix) : Prop where
  starts : startsSuffix affix.opening = true
  target : affix.target? = none → affix.opening ≠ .keyword .t
  interval : affix.interval? = none → affix.opening ≠ .keyword .r
  modifier : affix.modifier? = none → ∀ s, affix.opening ≠ .symbol s
  keep : affix.plainKeep? = none → ∀ rule, affix.opening ≠ .keyword (Grammar.keepWord rule)

theorem known : ∀ affix, Known affix
  | .target _ _ => ⟨rfl, nofun, fun _ => nofun, fun _ _ => nofun, fun _ rule => by cases rule <;> nofun⟩
  | .interval _ _ => ⟨rfl, fun _ => nofun, nofun, fun _ _ => nofun, fun _ rule => by cases rule <;> nofun⟩
  | .modifier sign _ => ⟨by cases sign <;> rfl, fun _ => nofun, fun _ => nofun, nofun, fun _ _ => nofun⟩
  | .keep word count => by
    obtain ⟨hword, hplain⟩ | ⟨⟨other, hother⟩, -⟩ := keep_lexeme word
    · have hopening : (Affix.keep word count).opening = .keyword (Grammar.keepWord word.rule) := hword
      have hsome : ((Affix.keep word count).plainKeep?).isSome := by simp [Affix.plainKeep?, hplain, Affix.keep?]
      constructor <;> rw [hopening]
      · cases word.rule <;> rfl
      · cases word.rule <;> simp [Grammar.keepWord]
      · cases word.rule <;> simp [Grammar.keepWord]
      · simp
      · exact fun hnone => by rw [hnone] at hsome; cases hsome
    · have hopening : (Affix.keep word count).opening = .lookalike other := hother
      constructor <;> rw [hopening]
      · rfl
      all_goals simp

variable (finish : Nat)

theorem lexeme_letter {keyword : Keyword} (letter : Letter keyword) :
    (Written.word letter.word).lexeme = .keyword keyword := letter.plain.lexeme

theorem suffixTokens_keep (word : KeepWord) (count : Option Digits) (rest : List Affix) : ∃ p q,
    suffixTokens finish (.keep word count :: rest) = ⟨wordLexeme word.chars, p⟩ ::
      ((count.map fun n => ⟨.number n.chars, q⟩).toList ++ suffixTokens finish rest) := by
  cases count with
  | none => exact ⟨_, 0, rfl⟩
  | some n => exact ⟨_, _, rfl⟩

theorem tokens_letter {keyword : Keyword} (letter : Letter keyword) (n : Digits) (ws : List Written) : ∃ p q,
    tokens finish (.word letter.word :: .number n :: ws) =
      ⟨.keyword keyword, p⟩ :: ⟨.number n.chars, q⟩ :: tokens finish ws := by
  have h : tokens finish (.word letter.word :: .number n :: ws) = ⟨(Written.word letter.word).lexeme, _⟩ ::
    ⟨.number n.chars, _⟩ :: tokens finish ws := rfl
  rw [lexeme_letter] at h
  exact ⟨_, _, h⟩

/-- The tokens of a suffix that is a letter and a number. -/
theorem suffixTokens_letter (affix : Affix) {keyword : Keyword} (letter : Letter keyword) (n : Digits)
    (rest : List Affix) (hwritten : affix.written = [.word letter.word, .number n]) : ∃ p q,
    suffixTokens finish (affix :: rest) =
      ⟨.keyword keyword, p⟩ :: ⟨.number n.chars, q⟩ :: suffixTokens finish rest := by
  rw [suffixTokens, List.flatMap_cons, hwritten]
  exact tokens_letter finish letter n (rest.flatMap Affix.written)

theorem suffixTokens_modifier (sign : Sign) (n : Digits) (rest : List Affix) :
    suffixTokens finish (.modifier sign n :: rest) =
      ⟨.symbol sign.mark, finish - (text ((Affix.modifier sign n :: rest).flatMap Affix.written)).length⟩ ::
      ⟨.number n.chars, finish - (text (.number n :: rest.flatMap Affix.written)).length⟩ ::
        suffixTokens finish rest := rfl

/-- Suffixes that a meaning is not asked of are left. -/
theorem takeFirst_none {β : Type} {meaning : Affix → Option β} {affix : Affix} (h : meaning affix = none)
    (rest : List Affix) : takeFirst meaning (affix :: rest) = (none, affix :: rest) := by
  rw [takeFirst, h]

theorem takeFirst_some {β : Type} {meaning : Affix → Option β} {affix : Affix} {found : β}
    (h : meaning affix = some found) (rest : List Affix) : takeFirst meaning (affix :: rest) = (some found, rest) := by
  rw [takeFirst, h]

/-! ## Reading suffixes -/

theorem suffixTokens_cons (affix : Affix) (rest : List Affix) : ∃ p ts,
    suffixTokens finish (affix :: rest) = ⟨affix.opening, p⟩ :: ts := by
  cases affix with
  | keep word count => exact ⟨_, _, rfl⟩
  | target letter n =>
    obtain ⟨p, q, h⟩ := suffixTokens_letter finish (.target letter n) letter n rest rfl
    exact ⟨p, _, h⟩
  | interval letter n =>
    obtain ⟨p, q, h⟩ := suffixTokens_letter finish (.interval letter n) letter n rest rfl
    exact ⟨p, _, h⟩
  | modifier sign n => exact ⟨_, _, rfl⟩

theorem starts_suffixTokens (suffixes : List Affix) : Grammar.Starts startsSuffix (suffixTokens finish suffixes) := by
  intro t ht
  cases suffixes with
  | nil => cases ht
  | cons affix rest =>
    obtain ⟨p, ts, h⟩ := suffixTokens_cons finish affix rest
    rw [h] at ht
    cases ht
    exact (known affix).starts

/-- Suffixes do not start with a lexeme that their first one does not start with. -/
theorem suffixTokens_not_cons {affix : Affix} {rest : List Affix} {lexeme : Lexeme} (h : affix.opening ≠ lexeme)
    (p : Nat) (ts : List Token) (heq : suffixTokens finish (affix :: rest) = ⟨lexeme, p⟩ :: ts) : False := by
  obtain ⟨q, us, hcons⟩ := suffixTokens_cons finish affix rest
  rw [hcons] at heq
  exact h (congrArg Token.lexeme (List.cons.inj heq).1)

/-- What follows a target number: a raise interval, if its letter is next. -/
def intervalAfter (target : Nat) : List Token → Except Stop (Option TargetSuffix × List Token)
  | ⟨.keyword .r, _⟩ :: rest => do
    let (interval, rest) ← number .raiseInterval rest
    .ok (some ⟨some target, some interval⟩, rest)
  | rest => .ok (some ⟨some target, none⟩, rest)

theorem targetSuffix_target (digits : List Char) (p q : Nat) (ts : List Token) :
    targetSuffix (⟨.keyword .t, p⟩ :: ⟨.number digits, q⟩ :: ts) = intervalAfter (numeralValue digits) ts := rfl

theorem intervalAfter_suffixes (target : Nat) (suffixes : List Affix) :
    intervalAfter target (suffixTokens finish suffixes) =
      .ok (TargetSuffix.of? (some target) (takeFirst Affix.interval? suffixes).1,
        suffixTokens finish (takeFirst Affix.interval? suffixes).2) := by
  cases suffixes with
  | nil => rfl
  | cons affix rest =>
    have hleft (hnone : affix.interval? = none) : intervalAfter target (suffixTokens finish (affix :: rest)) =
        .ok (TargetSuffix.of? (some target) none, suffixTokens finish (affix :: rest)) := by
      rw [intervalAfter]
      · rfl
      · exact suffixTokens_not_cons finish ((known affix).interval hnone)
    cases affix with
    | interval letter n =>
      obtain ⟨p, q, htokens⟩ := suffixTokens_letter finish (.interval letter n) letter n rest rfl
      rw [htokens]
      rfl
    | keep | target | modifier => exact hleft rfl

/-- **A target number and a raise interval are read** if they stand first and in this order. -/
theorem targetSuffix_suffixes (suffixes : List Affix) :
    targetSuffix (suffixTokens finish suffixes) =
      .ok (TargetSuffix.of? (takeFirst Affix.target? suffixes).1
        (takeFirst Affix.interval? (takeFirst Affix.target? suffixes).2).1,
        suffixTokens finish (takeFirst Affix.interval? (takeFirst Affix.target? suffixes).2).2) := by
  cases suffixes with
  | nil => rfl
  | cons affix rest =>
    have hleft (htarget : affix.target? = none) (hinterval : affix.interval? = none) :
        targetSuffix (suffixTokens finish (affix :: rest)) = .ok (none, suffixTokens finish (affix :: rest)) := by
      rw [targetSuffix]
      · exact suffixTokens_not_cons finish ((known affix).target htarget)
      · exact suffixTokens_not_cons finish ((known affix).interval hinterval)
    cases affix with
    | target letter n =>
      obtain ⟨p, q, htokens⟩ := suffixTokens_letter finish (.target letter n) letter n rest rfl
      rw [htokens, targetSuffix_target]
      exact intervalAfter_suffixes finish n.value rest
    | interval letter n =>
      obtain ⟨p, q, htokens⟩ := suffixTokens_letter finish (.interval letter n) letter n rest rfl
      rw [takeFirst_none rfl, htokens]
      rfl
    | keep | modifier => exact hleft rfl rfl

theorem optionalNumber_suffixes (count : Option Digits) (q : Nat) (suffixes : List Affix) :
    optionalNumber ((count.map fun n => ⟨.number n.chars, q⟩).toList ++ suffixTokens finish suffixes) =
      (count.map Digits.value, suffixTokens finish suffixes) := by
  cases count with
  | some n => rfl
  | none =>
    change optionalNumber (suffixTokens finish suffixes) = _
    rw [optionalNumber]
    · rfl
    · exact fun digits => (starts_suffixTokens finish suffixes).not_cons rfl

/-- **A keep suffix is read** if it stands first and its word is plain. -/
theorem reading_suffixes (suffixes : List Affix) :
    reading (suffixTokens finish suffixes) =
      targetSuffix (suffixTokens finish (takeFirst Affix.plainKeep? suffixes).2) >>= fun read =>
        .ok (.total (takeFirst Affix.plainKeep? suffixes).1 read.1, read.2) := by
  cases suffixes with
  | nil => rfl
  | cons affix rest =>
    obtain ⟨word, count, rfl, hplain⟩ | hnone := affix.plainKeep?_cases
    · obtain ⟨p, q, htokens⟩ := suffixTokens_keep finish word count rest
      have hsome : (Affix.keep word count).plainKeep? = some ⟨word.rule, count.map Digits.value⟩ := if_pos hplain
      rw [takeFirst_some hsome, htokens, hplain.lexeme, word.keeps, reading]
      · simp only [keepRule?_keepWord, optionalNumber_suffixes]
      · cases word.rule <;> simp [Grammar.keepWord]
    · rw [takeFirst_none hnone]
      unfold reading
      split
      · rename_i hhead
        exact ((starts_suffixTokens finish (affix :: rest)).not_cons rfl _ _ hhead).elim
      · rename_i word p ts _ hhead
        cases hrule : keepRule? word with
        | some rule =>
          have hword := congrArg Lexeme.keyword (keepRule?_eq hrule)
          exact (suffixTokens_not_cons finish (hword ▸ (known affix).keep hnone rule) p ts hhead).elim
        | none => rw [hhead]
      · rfl

/-! ## Reading the roll -/

/-- What is read of a target number and a raise interval, and the suffixes that are left. -/
def readTarget (suffixes : List Affix) : Option TargetSuffix × List Affix :=
  let target := takeFirst Affix.target? suffixes
  let interval := takeFirst Affix.interval? target.2
  (TargetSuffix.of? target.1 interval.1, interval.2)

/-- **The roll that is read** of a base with suffixes, and the suffixes that are left. -/
def readBase (suffixes : List Affix) : Base → Roll × List Affix
  | .generic count _ faces acing =>
    let keep := takeFirst Affix.plainKeep? suffixes
    (.generic {
      count := count.map Digits.value
      faces := faces.faces
      acing
      reading := .total keep.1 (readTarget keep.2).1 }, (readTarget keep.2).2)
  | .savage count _ trait wild =>
    (.savage {
      count := count.map Digits.value
      traitSides := trait.value
      wildSides := wild.map fun wild => wild.2.value
      target := (readTarget suffixes).1 }, (readTarget suffixes).2)
  | .extras count _ sides =>
    (.extras {
      count := count.map Digits.value
      sides := sides.value
      target := (readTarget suffixes).1 }, (readTarget suffixes).2)

theorem acingMark_suffixes (acing : Bool) (suffixes : List Affix) :
    acingMark (tokens finish ((if acing then [.sign .bang] else []) ++ suffixes.flatMap Affix.written)) =
      (acing, suffixTokens finish suffixes) := by
  cases acing with
  | true => rfl
  | false =>
    change acingMark (suffixTokens finish suffixes) = _
    rw [acingMark]
    exact (starts_suffixTokens finish suffixes).not_cons rfl

theorem diceRoll_suffixes (count : Option Nat) (faces : WrittenFaces) (acing : Bool) (suffixes : List Affix) :
    diceRoll count (tokens finish (faces.written :: ((if acing then [.sign .bang] else []) ++
        suffixes.flatMap Affix.written))) =
      .ok (.generic {
        count
        faces := faces.faces
        acing
        reading := .total (takeFirst Affix.plainKeep? suffixes).1 (readTarget (takeFirst Affix.plainKeep? suffixes).2).1 },
        suffixTokens finish (readTarget (takeFirst Affix.plainKeep? suffixes).2).2) := by
  have hgeneric : ∀ kind, genericRoll count kind (tokens finish ((if acing then [.sign .bang] else []) ++
      suffixes.flatMap Affix.written)) = .ok (.generic {
        count
        faces := kind
        acing
        reading := .total (takeFirst Affix.plainKeep? suffixes).1 (readTarget (takeFirst Affix.plainKeep? suffixes).2).1 },
        suffixTokens finish (readTarget (takeFirst Affix.plainKeep? suffixes).2).2) := by
    intro kind
    rw [genericRoll, acingMark_suffixes, reading_suffixes, targetSuffix_suffixes]
    rfl
  cases faces with
  | sides n => exact hgeneric (.sides n.value)
  | percent => exact hgeneric .percent

theorem wildSides_suffixes (wild : Option (Letter .w × Digits)) (suffixes : List Affix) :
    wildSides (tokens finish (Base.wildWritten wild ++ suffixes.flatMap Affix.written)) =
      .ok (wild.map fun wild => wild.2.value, suffixTokens finish suffixes) := by
  cases wild with
  | some wild =>
    have htokens : tokens finish (Base.wildWritten (some wild) ++ suffixes.flatMap Affix.written) =
        ⟨(Written.word wild.1.word).lexeme, _⟩ :: ⟨.number wild.2.chars, _⟩ :: suffixTokens finish suffixes := rfl
    rw [htokens, lexeme_letter]
    rfl
  | none =>
    change wildSides (suffixTokens finish suffixes) = _
    rw [wildSides]
    · rfl
    · exact (starts_suffixTokens finish suffixes).not_cons rfl

/-- A count and a letter lead to the rule of the letter. -/
theorem primary_count (levels : Nat) (count : Option Digits) {keyword : Keyword} (letter : Letter keyword)
    (hletter : keyword = .d ∨ keyword = .s ∨ keyword = .e) (rest : List Written) :
    primary levels (tokens finish ((count.map Written.number).toList ++ .word letter.word :: rest)) =
      atPosition (finish - (text ((count.map Written.number).toList ++ .word letter.word :: rest)).length)
        (rollAfter keyword (count.map Digits.value) (tokens finish rest)) := by
  cases count with
  | none =>
    have htokens : tokens finish (.word letter.word :: rest) = ⟨(Written.word letter.word).lexeme,
      finish - (text (.word letter.word :: rest)).length⟩ :: tokens finish rest := rfl
    rw [lexeme_letter] at htokens
    change primary levels (tokens finish (.word letter.word :: rest)) = _
    rw [htokens]
    obtain rfl | rfl | rfl := hletter <;> exact primary.eq_def _ _
  | some n =>
    have htokens : tokens finish (.number n :: .word letter.word :: rest) = ⟨.number n.chars,
      finish - (text (.number n :: .word letter.word :: rest)).length⟩ ::
      ⟨(Written.word letter.word).lexeme, finish - (text (.word letter.word :: rest)).length⟩ :: tokens finish rest := rfl
    rw [lexeme_letter] at htokens
    change primary levels (tokens finish (.number n :: .word letter.word :: rest)) = _
    rw [htokens]
    obtain rfl | rfl | rfl := hletter <;> exact primary.eq_def _ _

/-- **A base is read as an operand**, with the suffixes that are in order. -/
theorem primary_base (levels : Nat) (base : Base) (suffixes : List Affix) :
    primary levels (tokens finish (base.written ++ suffixes.flatMap Affix.written)) =
      .ok (.roll (readBase suffixes base).1 (finish - (text (base.written ++ suffixes.flatMap Affix.written)).length),
        suffixTokens finish (readBase suffixes base).2) := by
  cases base with
  | generic count letter faces acing =>
    simp only [Base.written, List.append_assoc, List.cons_append]
    rw [primary_count finish levels count letter (.inl rfl)]
    change atPosition _ (diceRoll _ _) = _
    rw [diceRoll_suffixes]
    rfl
  | savage count letter trait wild =>
    have hsavage : savageRoll (count.map Digits.value) (tokens finish (.number trait :: (Base.wildWritten wild ++
        suffixes.flatMap Affix.written))) = .ok ((readBase suffixes (.savage count letter trait wild)).1,
          suffixTokens finish (readTarget suffixes).2) := by
      change (wildSides (tokens finish (Base.wildWritten wild ++ suffixes.flatMap Affix.written)) >>= _) = _
      rw [wildSides_suffixes]
      change (targetSuffix (suffixTokens finish suffixes) >>= _) = _
      rw [targetSuffix_suffixes]
      rfl
    simp only [Base.written, List.append_assoc, List.cons_append]
    rw [primary_count finish levels count letter (.inr (.inl rfl))]
    change atPosition _ (savageRoll _ _) = _
    rw [hsavage]
    rfl
  | extras count letter sides =>
    have hextras : extrasRoll (count.map Digits.value) (tokens finish (.number sides :: suffixes.flatMap Affix.written)) =
        .ok ((readBase suffixes (.extras count letter sides)).1, suffixTokens finish (readTarget suffixes).2) := by
      change (targetSuffix (suffixTokens finish suffixes) >>= _) = _
      rw [targetSuffix_suffixes]
      rfl
    simp only [Base.written, List.append_assoc, List.cons_append, List.nil_append]
    rw [primary_count finish levels count letter (.inr (.inr rfl))]
    change atPosition _ (extrasRoll _ _) = _
    rw [hextras]
    rfl

/-! ## Reading the expression -/

theorem boundsChain_idle {ts : List Token} (h : Grammar.Starts startsSuffix ts) (levels : Nat) (e : Expr) :
    boundsChain levels e ts = .ok (e, ts) := by
  rw [boundsChain]
  exact h.not_cons rfl

theorem multiplicativeChain_idle {ts : List Token} (h : Grammar.Starts startsSuffix ts) (levels : Nat) (e : Expr) :
    multiplicativeChain levels e ts = .ok (e, ts) := by
  rw [multiplicativeChain_eq]
  refine chainStep_end levels e fun s p rest heq => ?_
  cases s <;> first | rfl | exact (h.not_cons rfl p rest heq).elim

/-- An operand before suffixes is a product. -/
theorem multiplicative_idle {levels : Nat} {ts us : List Token} {e : Expr} (hunsigned : Grammar.opensSigned ts = false)
    (h : primary levels ts = .ok (e, us)) (hidle : Grammar.Starts startsSuffix us) : multiplicative levels ts = .ok (e, us) := by
  rw [multiplicative, unary_unsigned hunsigned, withBounds, h]
  simp only [bind, Except.bind, boundsChain_idle hidle, multiplicativeChain_idle hidle]

theorem primary_number {ts : List Token} (h : Grammar.Starts startsSuffix ts) (levels : Nat) (digits : List Char) (p : Nat) :
    primary levels (⟨.number digits, p⟩ :: ts) = .ok (.literal (numeralValue digits) p, ts) := by
  rw [primary]
  all_goals exact h.not_cons rfl

/-- The expression with the modifier that stands first in the suffixes, if one does. -/
def withModifier (e : Expr) (suffixes : List Affix) : Expr :=
  match takeFirst Affix.modifier? suffixes with
  | (none, _) => e
  | (some (sign, n), rest) =>
    .binary sign.operator e
      (.literal n.value (finish - (text (.number n :: rest.flatMap Affix.written)).length))
      (finish - (text ((Affix.modifier sign n :: rest).flatMap Affix.written)).length)

theorem additiveChain_idle {suffixes : List Affix} (h : ∀ affix ∈ suffixes.head?, affix.modifier? = none)
    (levels : Nat) (e : Expr) :
    additiveChain levels e (suffixTokens finish suffixes) = .ok (e, suffixTokens finish suffixes) := by
  rw [additiveChain_eq]
  refine chainStep_end levels e fun s p ts heq => ?_
  cases suffixes with
  | nil => cases heq
  | cons affix rest => exact (suffixTokens_not_cons finish ((known affix).modifier (h affix rfl) s) p ts heq).elim

/-- **A modifier is read** if it stands first; as the suffixes are of different kinds, no second one follows it. -/
theorem additiveChain_suffixes {suffixes : List Affix} (hkinds : (suffixes.map Affix.kind).Nodup) (levels : Nat)
    (e : Expr) : additiveChain (levels + 1) e (suffixTokens finish suffixes) =
      .ok (withModifier finish e suffixes, suffixTokens finish (takeFirst Affix.modifier? suffixes).2) := by
  cases suffixes with
  | nil => exact additiveChain.eq_def _ _ _
  | cons affix rest =>
    have hleft (hnone : affix.modifier? = none) : additiveChain (levels + 1) e (suffixTokens finish (affix :: rest)) =
        .ok (e, suffixTokens finish (affix :: rest)) := by
      refine additiveChain_idle finish (fun first hfirst => ?_) (levels + 1) e
      cases hfirst
      exact hnone
    cases affix with
    | modifier sign n =>
      have hoperator : additiveOperator? sign.mark = some sign.operator := by cases sign <;> rfl
      have hrest : ∀ affix ∈ rest.head?, affix.modifier? = none := by
        intro affix haffix
        rw [List.map_cons, List.nodup_cons] at hkinds
        cases affix with
        | modifier s m => exact absurd (List.mem_map_of_mem (List.mem_of_mem_head? haffix)) hkinds.1
        | keep | target | interval => rfl
      have hliteral : ∀ p, multiplicative levels (⟨.number n.chars, p⟩ :: suffixTokens finish rest) =
          .ok (.literal n.value p, suffixTokens finish rest) := fun p =>
        multiplicative_idle rfl (primary_number (starts_suffixTokens finish rest) levels n.chars p)
          (starts_suffixTokens finish rest)
      rw [suffixTokens_modifier, additiveChain_eq, chainStep_operator hoperator, hliteral]
      exact additiveChain_idle finish hrest levels _
    | keep | target | interval => exact hleft rfl

theorem opens_base (base : Base) (rest : List Written) :
    Grammar.opensExpr (tokens finish (base.written ++ rest)) = true ∧
      Grammar.opensAssignment (tokens finish (base.written ++ rest)) = false ∧
      Grammar.opensSigned (tokens finish (base.written ++ rest)) = false := by
  have hopens : ∀ (count : Option Digits) {keyword : Keyword} (letter : Letter keyword) (others : List Written),
      keyword = .d ∨ keyword = .s ∨ keyword = .e →
      let ts := tokens finish ((count.map Written.number).toList ++ .word letter.word :: others)
      Grammar.opensExpr ts = true ∧ Grammar.opensAssignment ts = false ∧ Grammar.opensSigned ts = false := by
    intro count keyword letter others hkeyword
    have hlexeme := lexeme_letter letter
    cases count with
    | none =>
      simp only [Option.map_none, Option.toList_none, List.nil_append, tokens, hlexeme]
      obtain rfl | rfl | rfl := hkeyword <;> exact ⟨rfl, rfl, rfl⟩
    | some n =>
      simp only [Option.map_some, Option.toList_some, List.cons_append, List.nil_append, tokens, hlexeme]
      obtain rfl | rfl | rfl := hkeyword <;> exact ⟨rfl, rfl, rfl⟩
  cases base with
  | generic count letter faces acing =>
    simp only [Base.written, List.append_assoc, List.cons_append]
    exact hopens count letter _ (.inl rfl)
  | savage count letter trait wild =>
    simp only [Base.written, List.append_assoc, List.cons_append]
    exact hopens count letter _ (.inr (.inl rfl))
  | extras count letter sides =>
    simp only [Base.written, List.append_assoc, List.cons_append]
    exact hopens count letter _ (.inr (.inr rfl))

end SingleRoll

end TabletopDice
