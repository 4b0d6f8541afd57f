import TabletopDice.Proofs.Normalization
/-!
# Settling — a text put in order is in order

Small letters are read as the suffix they were typed for, and come first to last in the order of the grammar, so a
text that has been put in order stays as it is (`normalize_normalize`). The capital i with a dot is the one letter whose
small form is no letter: a word with it is no longer read after its letters have become small, and then the text is no
single roll any more, so it stays as it is too.
-/
namespace TabletopDice

open Text Writing

/-! ## Small letters -/

/-- **The small form of a letter is a form of the same letter**, but for the capital i with a dot. -/
theorem exists_lowerLetter {c p : Char} (h : baseLetter? c = some p) (hc : c ≠ '\u0130') :
    ∃ d, lowerLetter c = [d] ∧ baseLetter? d = some p ∧ d ≠ '\u0130' ∧ lowerLetter d = [d] := by
  have hsmall : ∀ {d : Char}, d.isLower = true → d ≠ '\u0130' ∧ lowerLetter d = [d] := by
    intro d hd
    refine ⟨?_, lowerLetter_of_isLower hd⟩
    rintro rfl
    exact absurd hd (by decide)
  by_cases hlow : c.isLower = true
  · exact ⟨c, (hsmall hlow).2, h, hsmall hlow⟩
  by_cases hup : c.isUpper = true
  · have hbase : baseLetter? c = some c.toLower := by rw [baseLetter?, if_neg hlow, if_pos hup]
    obtain rfl : c.toLower = p := Option.some.inj (hbase.symm.trans h)
    have hlower := isLower_toLower hup
    exact ⟨c.toLower, lowerLetter_of_toLower hlower rfl, baseLetter?_small hlower, hsmall hlower⟩
  -- what is left are the four foreign forms
  rw [baseLetter?, if_neg hlow, if_neg hup] at h
  split at h
  · subst c
    cases h
    exact ⟨'k', by decide⟩
  split at h
  · subst c
    cases h
    exact ⟨'\u017F', by decide⟩
  split at h
  · rename_i hi
    cases h
    rw [Bool.or_eq_true, decide_eq_true_eq, decide_eq_true_eq] at hi
    obtain rfl | rfl := hi
    · exact absurd rfl hc
    · exact ⟨'\u0131', by decide⟩
  · cases h

/-- **A word in small letters is the word**, and its letters stay as they are. -/
theorem startsWithWord_lowerLetter : ∀ {word chars : List Char}, startsWithWord word chars = true →
    chars.length = word.length → '\u0130' ∉ chars →
    startsWithWord word (chars.flatMap lowerLetter) = true ∧ (chars.flatMap lowerLetter).length = word.length ∧
      (chars.flatMap lowerLetter).flatMap lowerLetter = chars.flatMap lowerLetter
  | [], [], _, _, _ => ⟨rfl, rfl, rfl⟩
  | p :: word, c :: chars, h, hlength, hdot => by
    rw [startsWithWord, Bool.and_eq_true, beq_iff_eq] at h
    rw [List.mem_cons, not_or] at hdot
    obtain ⟨d, hlower, hbase, -, hfixed⟩ := exists_lowerLetter h.1 (Ne.symm hdot.1)
    obtain ⟨hstarts, hcount, hsame⟩ := startsWithWord_lowerLetter h.2 (Nat.succ.inj hlength) hdot.2
    rw [List.flatMap_cons, hlower, List.singleton_append]
    refine ⟨?_, by rw [List.length_cons, List.length_cons, hcount], by rw [List.flatMap_cons, hfixed, hsame]; rfl⟩
    rw [startsWithWord, hbase, beq_self_eq_true, Bool.true_and, hstarts]

namespace Affix

/-- **A suffix without a capital i with a dot.** -/
def Dotless : Affix → Prop
  | keep word _ => '\u0130' ∉ word.chars
  | _ => True

instance : (affix : Affix) → Decidable affix.Dotless
  | keep word _ => inferInstanceAs (Decidable ('\u0130' ∉ word.chars))
  | target .. | interval .. | modifier .. => inferInstanceAs (Decidable True)

end Affix

/-- A keep word without a dotted capital i, in small letters. -/
def KeepWord.settled (word : KeepWord) (h : '\u0130' ∉ word.chars) : KeepWord where
  keyword := word.keyword
  chars := word.chars.flatMap lowerLetter
  form := (startsWithWord_lowerLetter word.form word.fits h).1
  fits := (startsWithWord_lowerLetter word.form word.fits h).2.1
  rule := word.rule
  keeps := word.keeps

namespace Affix

/-- **A suffix as it is read after it has been put in order**, if it has no dotted capital i. -/
def settled : Affix → Affix
  | keep word count => if h : '\u0130' ∉ word.chars then .keep (word.settled h) count else .keep word count
  | affix => affix.lowered

@[simp] theorem kind_settled (affix : Affix) : affix.settled.kind = affix.kind := by
  cases affix with
  | keep word count =>
    rw [settled]
    split <;> rfl
  | _ => rfl

theorem written_settled {affix : Affix} (h : affix.Dotless) : text affix.settled.written = affix.small := by
  cases affix with
  | keep word count =>
    have hdot : '\u0130' ∉ word.chars := h
    rw [settled, dif_pos hdot]
    rfl
  | target letter number => exact lowered_small (show (Affix.target letter number).Plain from trivial)
  | interval letter number => exact lowered_small (show (Affix.interval letter number).Plain from trivial)
  | modifier sign number => exact lowered_small (show (Affix.modifier sign number).Plain from trivial)

theorem small_settled {affix : Affix} (h : affix.Dotless) : affix.settled.small = affix.small := by
  cases affix with
  | keep word count =>
    have hdot : '\u0130' ∉ word.chars := h
    have hsame := (startsWithWord_lowerLetter word.form word.fits hdot).2.2
    rw [settled, dif_pos hdot, small, small]
    exact congrArg (· ++ SuffixOrder.countText count) hsame
  | _ => rfl

/-- A dotted capital i stands in the word `dis` only, after its first letter. -/
theorem small_dotted {affix : Affix} (h : ¬ affix.Dotless) :
    affix.kind = .keep ∧ ∃ more, affix.small = 'd' :: 'i' :: '\u0307' :: more := by
  cases affix with
  | keep word count =>
    have hdot : '\u0130' ∈ word.chars := Decidable.not_not.1 h
    have hform := word.form
    have hfits := word.fits
    rw [word.keeps] at hform hfits
    have hi : 'i' ∈ (Grammar.keepWord word.rule).spelling := by
      obtain ⟨p, hmem, hp⟩ := mem_of_startsWithWord hform hfits hdot
      cases hp
      exact hmem
    have hrule : word.rule = .disadvantage := by
      revert hi
      cases word.rule <;> decide
    rw [hrule] at hform hfits
    obtain ⟨c, d, e, hchars⟩ := List.length_eq_three.1 hfits
    rw [hchars] at hform hdot
    simp only [Grammar.keepWord, Keyword.spelling, startsWithWord, Bool.and_eq_true, beq_iff_eq] at hform
    obtain ⟨hc, hd, he, -⟩ := hform
    have hne : ∀ {c p : Char}, baseLetter? c = some p → p ≠ 'i' → '\u0130' ≠ c := by
      rintro c p hp hpi rfl
      cases hp
      exact hpi rfl
    have hsecond : d = '\u0130' := by
      simp only [List.mem_cons, List.not_mem_nil, or_false] at hdot
      obtain hdot | hdot | hdot := hdot
      · exact absurd hdot (hne hc (by decide))
      · exact hdot.symm
      · exact absurd hdot (hne he (by decide))
    have hlower : lowerLetter c = ['d'] :=
      lowerLetter_of_toLower (by decide) (toLower_of_baseLetter? (by decide) (by decide) (by decide) hc)
    refine ⟨rfl, lowerLetter e ++ SuffixOrder.countText count, ?_⟩
    rw [small, hchars, hsecond]
    have hdotted : lowerLetter '\u0130' = ['i', '\u0307'] := by decide
    simp only [List.flatMap_cons, List.flatMap_nil, hlower, hdotted, List.append_nil]
    rfl
  | _ => exact absurd trivial h

end Affix

namespace SuffixOrder

/-! ## Putting a text in order twice -/

/-- No suffix starts with a small i whose dot stands apart from it. -/
theorem splitFrom_dotted (allowKeep : Bool) (parts : Parts) (more : List Char) :
    splitFrom allowKeep parts ('d' :: 'i' :: '\u0307' :: more) = none := by
  have hnone : suffix? 'd' ('i' :: '\u0307' :: more) = none := rfl
  rw [splitFrom, hnone]

end SuffixOrder

namespace SingleRoll

/-- **A single roll put in order**, with its suffixes as they are then read. -/
def settled (roll : SingleRoll) : SingleRoll where
  repeats := roll.repeats
  base := roll.base
  suffixes := (inOrder roll.suffixes).map Affix.settled
  distinct := by
    have hkinds := kinds_inOrder roll.suffixes
    rwa [List.map_map, show Affix.kind ∘ Affix.settled = Affix.kind from funext Affix.kind_settled]
  keeps affix hmem hkeep := by
    obtain ⟨typed, htyped, rfl⟩ := List.mem_map.1 hmem
    exact roll.keeps typed (mem_of_mem_inOrder htyped) (by rwa [Affix.kind_settled] at hkeep)

/-- **What a single roll is put in order as.** -/
def tidied (roll : SingleRoll) : List Char := text roll.head ++ (inOrder roll.suffixes).flatMap Affix.small

variable {roll : SingleRoll} (h : ∀ affix ∈ roll.suffixes, affix.Dotless)

include h

theorem typed_settled : roll.settled.typed = roll.tidied := by
  have hsuffixes : text (roll.settled.suffixes.flatMap Affix.written) = (inOrder roll.suffixes).flatMap Affix.small := by
    rw [text, List.flatMap_assoc, settled, List.flatMap_map]
    exact List.flatMap_congr fun affix hmem => Affix.written_settled (h affix (mem_of_mem_inOrder hmem))
  rw [typed, written, text_append, hsuffixes]
  rfl

theorem tidied_settled : roll.settled.tidied = roll.tidied := by
  have hsmall : (inOrder roll.settled.suffixes).flatMap Affix.small = (inOrder roll.suffixes).flatMap Affix.small := by
    rw [settled, inOrder_map Affix.kind_settled, inOrder_inOrder, List.flatMap_map]
    exact List.flatMap_congr fun affix hmem => Affix.small_settled (h affix (mem_of_mem_inOrder hmem))
  rw [tidied, hsmall]
  rfl

end SingleRoll

namespace SuffixOrder

/-- A single roll whose keep word has a dotted capital i is no single roll after its letters have become small. -/
theorem reorder?_dotted {roll : SingleRoll} {affix : Affix} (hmem : affix ∈ roll.suffixes) (h : ¬ affix.Dotless) :
    reorder? roll.tidied = none := by
  obtain ⟨hkind, more, hsmall⟩ := Affix.small_dotted h
  have hpick : pick .keep roll.suffixes = some affix := by
    rw [← hkind]
    exact pick_of_mem roll.distinct affix hmem
  obtain ⟨rest, hrest⟩ : ∃ rest, (inOrder roll.suffixes).flatMap Affix.small = 'd' :: 'i' :: '\u0307' :: rest := by
    rw [inOrder, hpick]
    simp only [Option.toList_some, List.append_assoc, List.flatMap_cons, hsmall, List.cons_append]
    exact ⟨_, rfl⟩
  have hafter : AfterBase ('d' :: 'i' :: '\u0307' :: rest) := by
    rintro c ⟨⟩
    decide
  rw [SingleRoll.tidied, hrest, SingleRoll.head, text_append, List.append_assoc, reorder?, cutRepeat_written,
    cutBase?_written roll.base hafter]
  simp only [Option.bind_eq_bind, Option.bind_some, splitFrom_dotted, Option.bind_none]

/-- **A single roll put in order stays as it is** if it is still one. -/
theorem reorder?_tidied (roll : SingleRoll) :
    reorder? roll.tidied = some roll.tidied ∨ reorder? roll.tidied = none := by
  by_cases h : ∀ affix ∈ roll.suffixes, affix.Dotless
  · left
    have hagain := reorder?_typed roll.settled
    rwa [SingleRoll.typed_settled h, ← SingleRoll.tidied, SingleRoll.tidied_settled h] at hagain
  · right
    simp only [not_forall] at h
    obtain ⟨affix, hmem, hdotted⟩ := h
    exact reorder?_dotted hmem hdotted

/-! ## Main result -/

/-- **A text in order**: as a single roll, its suffixes are in the order of the grammar and in small letters. A text
that is no single roll is in order as it is. -/
def InOrder (cs : List Char) : Prop := ∀ roll : SingleRoll, roll.typed = cs →
  text (roll.suffixes.flatMap Affix.written) = (inOrder roll.suffixes).flatMap Affix.small

theorem typed_eq_tidied (roll : SingleRoll) : roll.typed = roll.tidied ↔
    text (roll.suffixes.flatMap Affix.written) = (inOrder roll.suffixes).flatMap Affix.small := by
  rw [SingleRoll.typed, SingleRoll.written, text_append, SingleRoll.tidied, List.append_cancel_left_eq]

/-- However a text is taken as a single roll, it is put in order as the same text. -/
theorem tidied_of_typed {roll : SingleRoll} {cs out : List Char} (h : reorder? cs = some out) (htyped : roll.typed = cs) :
    roll.tidied = out := by
  rw [← htyped, reorder?_typed] at h
  exact Option.some.inj h

theorem normalize_eq_self_iff (text : String) : normalize text = text ↔ InOrder text.toList := by
  cases hreorder : reorder? text.toList with
  | none =>
    rw [normalize, hreorder]
    refine ⟨fun _ roll htyped => ?_, fun _ => rfl⟩
    rw [← htyped, reorder?_typed] at hreorder
    cases hreorder
  | some out =>
    have hnormal : normalize text = String.ofList out := by rw [normalize, hreorder]
    rw [hnormal]
    constructor
    · intro hsame roll htyped
      rw [← typed_eq_tidied, tidied_of_typed hreorder htyped, htyped, ← hsame, String.toList_ofList]
    · intro hinOrder
      obtain ⟨roll, htyped⟩ := exists_typed hreorder
      have hsame := (typed_eq_tidied roll).2 (hinOrder roll htyped.symm)
      rw [← tidied_of_typed hreorder htyped.symm, ← hsame, ← htyped, String.ofList_toList]

/-- **Putting a text in order twice is putting it in order once**, and the texts that stay as they are are those in
order. -/
theorem normalize_normalize (text : String) : normalize (normalize text) = normalize text ∧
    (normalize text = text ↔ InOrder text.toList) := by
  refine ⟨?_, normalize_eq_self_iff text⟩
  cases hreorder : reorder? text.toList with
  | none =>
    have hsame : normalize text = text := by rw [normalize, hreorder]
    rw [hsame, hsame]
  | some out =>
    have hnormal : normalize text = String.ofList out := by rw [normalize, hreorder]
    obtain ⟨roll, htyped⟩ := exists_typed hreorder
    have hagain := reorder?_tidied roll
    rw [tidied_of_typed hreorder htyped.symm] at hagain
    rw [hnormal, normalize, String.toList_ofList]
    obtain hagain | hagain := hagain <;> rw [hagain]

-- the Kelvin sign becomes a k, and a dotted capital i an i and a dot, which is no suffix
example : normalize "4d6t5\u212A3" = "4d6k3t5" ∧ normalize "4d6t5D\u0130S" = "4d6di\u0307st5" := by
  constructor <;> cbv

end SuffixOrder

end TabletopDice
