import TabletopDice.Proofs.SingleRoll.Cutting
/-!
# Splitting — the suffixes of a single roll found in its text

The text of suffixes of different kinds is split into them, whatever their order (`splitFrom_written`), and a text that
is split to the end is the text of such suffixes (`splitFrom_some`). So a text is put into order if and only if it is
that of a single roll, and every order of its suffixes ends in the same text (`reorder?_typed`, `exists_typed`).
-/
namespace TabletopDice

open Text Writing

/-- **A suffix as it is put into order**: its letters small, its digits as typed. -/
def Affix.small : Affix → List Char
  | keep word count => word.chars.flatMap lowerLetter ++ SuffixOrder.countText count
  | target _ number => 't' :: number.chars
  | interval _ number => 'r' :: number.chars
  | modifier sign number => sign.mark.char :: number.chars

theorem Affix.lowered_small {affix : Affix} (h : affix.Plain) : text affix.lowered.written = affix.small := by
  have hletter : ∀ {keyword : Keyword} (letter : Letter keyword) {p : Char}, keyword.spelling = [p] →
      letter.lowered.char = p := by
    intro keyword letter p hp
    exact SuffixOrder.toLower_letter letter hp
  cases affix with
  | keep word count =>
    have hword : word.lowered.chars = word.chars.flatMap lowerLetter := h.symm
    simp only [lowered, written, text_cons, Written.chars, hword, small]
    rfl
  | target letter number => simp [lowered, written, Written.chars, Letter.word, hletter letter rfl, small]
  | interval letter number => simp [lowered, written, Written.chars, Letter.word, hletter letter rfl, small]
  | modifier sign number => simp [lowered, written, Written.chars, small]

namespace SuffixOrder

/-! ## One suffix -/

/-- What may follow a suffix: no digit and no form of the letter l. -/
def AfterSuffix (rest : List Char) : Prop := ∀ c ∈ rest.head?, isDigit c = false ∧ baseLetter? c ≠ some 'l'

/-- The word of a keep suffix is found before its count and before what may follow a suffix. -/
theorem find?_keepWords (word : KeepWord) (count : Option Digits) {rest : List Char} (hrest : AfterSuffix rest) :
    keepWords.find? (startsWithWord · (word.chars ++ (countText count ++ rest))) =
      some (Grammar.keepWord word.rule).spelling := by
  have hl : startsWithWord ['l'] (countText count ++ rest) = false := by
    cases hhead : countText count ++ rest with
    | nil => rfl
    | cons c more =>
      have hc : baseLetter? c ≠ some 'l' := by
        cases count with
        | none =>
          have hrest' : rest = c :: more := hhead
          exact (hrest c (by rw [hrest']; rfl)).2
        | some n =>
          obtain ⟨d, others, hchars⟩ := List.exists_cons_of_ne_nil n.nonempty
          have hd : d = c := by
            simp only [countText, Option.map_some, Option.toList_some, text_cons, Written.chars, hchars,
              List.cons_append, List.cons.injEq] at hhead
            exact hhead.1
          intro hb
          have hdigit := n.digits d (hchars ▸ List.mem_cons_self)
          rw [hd, isDigit_of_baseLetter? hb] at hdigit
          cases hdigit
      simp [startsWithWord, hc]
  have hsmall : keepWords.find? (startsWithWord · (word.chars ++ (countText count ++ rest))) =
      keepWords.find? (startsWithWord · ((Grammar.keepWord word.rule).spelling ++ (countText count ++ rest))) := by
    simp only [startsWithWord_word word.toWord, word.keeps]
  rw [hsmall]
  cases word.rule with
  | highest =>
    have hk : baseLetter? 'k' = some 'k' := rfl
    simp [keepWords, Grammar.keepWord, Keyword.spelling, startsWithWord, hk, hl]
  | lowest | advantage | disadvantage => rfl

theorem withDigits?_number (kind : Kind) (c : Char) (n : Digits) {rest : List Char}
    (hrest : ∀ d ∈ rest.head?, isDigit d = false) :
    withDigits? kind c (n.chars ++ rest) = some ⟨kind, c :: n.chars, n.chars.length⟩ := by
  rw [withDigits?, takeWhile_append_of_head n.digits hrest]
  split
  · exact absurd ‹_› n.nonempty
  · rfl

/-- No keep word starts with another letter than k, a or d. -/
theorem find?_keepWords_none {c : Char} (hk : baseLetter? c ≠ some 'k') (ha : baseLetter? c ≠ some 'a')
    (hd : baseLetter? c ≠ some 'd') (rest : List Char) : keepWords.find? (startsWithWord · (c :: rest)) = none := by
  simp [keepWords, startsWithWord, hk, ha, hd]

/-- **A suffix is found at the head of its text**, before what may follow a suffix. -/
theorem suffix?_written (affix : Affix) {rest : List Char} (hrest : AfterSuffix rest) :
    ∃ c more, text affix.written = c :: more ∧
      suffix? c (more ++ rest) = some ⟨affix.kind, affix.small, more.length⟩ := by
  have hdigit : ∀ d ∈ rest.head?, isDigit d = false := fun d hd => (hrest d hd).1
  cases affix with
  | keep word count =>
    obtain ⟨c, others, p, hchars, -, -⟩ := word.firstLetter
    have hfind := find?_keepWords word count hrest
    have hlength : others.length = (Grammar.keepWord word.rule).spelling.length - 1 := by
      rw [← word.keeps, ← word.fits, hchars, List.length_cons, Nat.add_sub_cancel]
    have htext : text (Affix.keep word count).written = c :: (others ++ countText count) := by
      rw [Affix.written, text_cons, Written.chars, hchars]
      rfl
    refine ⟨c, _, htext, ?_⟩
    have htake : (c :: (others ++ (countText count ++ rest))).take (Grammar.keepWord word.rule).spelling.length =
        word.chars := by
      rw [← word.keeps, ← word.fits, hchars, ← List.cons_append, List.take_left]
    rw [hchars, List.cons_append] at hfind
    rw [suffix?, List.append_assoc, hfind]
    simp only [htake, ← hlength, List.drop_left, takeWhile_append_of_head isDigit_of_mem_countText hdigit]
    simp [Affix.kind, Affix.small]
  | target letter n =>
    have hc : baseLetter? letter.char = some 't' := baseLetter?_of_toLower (by decide) (toLower_letter letter rfl)
    refine ⟨letter.char, n.chars, by simp [Affix.written, Written.chars, Letter.word], ?_⟩
    rw [suffix?, find?_keepWords_none (by rw [hc]; decide) (by rw [hc]; decide) (by rw [hc]; decide)]
    simp only [hc, withDigits?_number _ _ n hdigit]
    rfl
  | interval letter n =>
    have hc : baseLetter? letter.char = some 'r' := baseLetter?_of_toLower (by decide) (toLower_letter letter rfl)
    refine ⟨letter.char, n.chars, by simp [Affix.written, Written.chars, Letter.word], ?_⟩
    rw [suffix?, find?_keepWords_none (by rw [hc]; decide) (by rw [hc]; decide) (by rw [hc]; decide)]
    simp only [hc, withDigits?_number _ _ n hdigit]
    rfl
  | modifier sign n =>
    have hc := baseLetter?_sign sign.mark
    refine ⟨sign.mark.char, n.chars, by simp [Affix.written, Written.chars], ?_⟩
    rw [suffix?, find?_keepWords_none (by rw [hc]; decide) (by rw [hc]; decide) (by rw [hc]; decide)]
    simp only [hc, withDigits?_number _ _ n hdigit]
    cases sign <;> rfl

theorem withDigits?_some {kind : Kind} {c : Char} {rest : List Char} {found : Found}
    (h : withDigits? kind c rest = some found) :
    ∃ n : Digits, found = ⟨kind, c :: n.chars, n.chars.length⟩ ∧ rest = n.chars ++ rest.drop n.chars.length := by
  rw [withDigits?] at h
  split at h
  · cases h
  · rename_i hne
    cases h
    obtain ⟨n, hn⟩ := exists_number hne
    refine ⟨n, by rw [hn], ?_⟩
    have hcut := List.takeWhile_append_dropWhile (p := isDigit) (l := rest)
    rw [hn] at hcut
    rw [← hcut, List.drop_left]

theorem length_startsWithWord {word cs : List Char} (h : startsWithWord word cs = true) :
    (cs.take word.length).length = word.length :=
  List.length_take_of_le (Token.length_le_of_startsWithWord h)

theorem startsWithWord_take : ∀ {word cs : List Char}, startsWithWord word cs = true →
    startsWithWord word (cs.take word.length) = true
  | [], _, _ => rfl
  | p :: word, c :: cs, h => by
    rw [startsWithWord, Bool.and_eq_true] at h
    rw [List.length_cons, List.take_succ_cons, startsWithWord, Bool.and_eq_true]
    exact ⟨h.1, startsWithWord_take h.2⟩

/-- A word that is found at the head of a text is a keep word. -/
theorem find?_keepWords_some {cs word : List Char} (h : keepWords.find? (startsWithWord · cs) = some word) :
    ∃ keep : KeepWord, keep.chars = cs.take word.length ∧ keep.chars.length = word.length := by
  have hstarts : startsWithWord word cs = true := List.find?_some (p := (startsWithWord · cs)) h
  have hmem : ∃ rule, (Grammar.keepWord rule).spelling = word := by
    have hword := List.mem_of_find?_eq_some h
    simp only [keepWords, List.mem_cons, List.not_mem_nil, or_false] at hword
    obtain rfl | rfl | rfl | rfl := hword
    · exact ⟨.lowest, rfl⟩
    · exact ⟨.highest, rfl⟩
    · exact ⟨.advantage, rfl⟩
    · exact ⟨.disadvantage, rfl⟩
  obtain ⟨rule, rfl⟩ := hmem
  refine ⟨⟨⟨_, _, startsWithWord_take hstarts, length_startsWithWord hstarts⟩, rule, rfl⟩, rfl, ?_⟩
  exact length_startsWithWord hstarts

/-- A keep word that is found and the digits after it are a keep suffix. -/
theorem keepSuffix_some {c : Char} {rest word : List Char}
    (h : keepWords.find? (startsWithWord · (c :: rest)) = some word) : ∃ keep count,
      c :: rest = text (Affix.keep keep count).written ++
        rest.drop (word.length - 1 + ((rest.drop (word.length - 1)).takeWhile isDigit).length) := by
  obtain ⟨keep, hchars, hlength⟩ := find?_keepWords_some h
  obtain ⟨count, hcount⟩ := exists_countText (rest.drop (word.length - 1))
  obtain ⟨d, others, p, hcons, -, -⟩ := keep.firstLetter
  have hpos : word.length = word.length - 1 + 1 := by
    rw [← hlength, hcons, List.length_cons, Nat.add_sub_cancel]
  have hword : c :: rest = keep.chars ++ rest.drop (word.length - 1) := by
    rw [hchars, hpos, List.take_succ_cons, Nat.add_sub_cancel, List.cons_append, List.take_append_drop]
  have hdigits : rest.drop (word.length - 1) =
      countText count ++ (rest.drop (word.length - 1)).drop (countText count).length := by
    have hcut := List.takeWhile_append_dropWhile (p := isDigit) (l := rest.drop (word.length - 1))
    rw [hcount] at hcut
    rw [← hcut, List.drop_left]
  refine ⟨keep, count, ?_⟩
  rw [hcount, ← List.drop_drop, hword, Affix.written, text_cons, List.append_assoc]
  exact congrArg (keep.chars ++ ·) hdigits

/-- **What is found at the head of a text is the text of a suffix.** -/
theorem suffix?_some {c : Char} {rest : List Char} {found : Found} (h : suffix? c rest = some found) :
    ∃ affix : Affix, affix.kind = found.kind ∧ c :: rest = text affix.written ++ rest.drop found.extra := by
  unfold suffix? at h
  split at h
  · rename_i word hword
    cases h
    obtain ⟨keep, count, htext⟩ := keepSuffix_some hword
    exact ⟨.keep keep count, rfl, htext⟩
  split at h
  · rename_i hc
    obtain ⟨n, rfl, hrest⟩ := withDigits?_some h
    have hlower := toLower_of_baseLetter? (by decide) (by decide) (by decide) (beq_iff_eq.1 hc)
    refine ⟨.target ⟨c, by rw [hlower]; rfl⟩ n, rfl, ?_⟩
    simpa [Affix.written, Written.chars, Letter.word] using hrest
  split at h
  · rename_i hc
    obtain ⟨n, rfl, hrest⟩ := withDigits?_some h
    have hlower := toLower_of_baseLetter? (by decide) (by decide) (by decide) (beq_iff_eq.1 hc)
    refine ⟨.interval ⟨c, by rw [hlower]; rfl⟩ n, rfl, ?_⟩
    simpa [Affix.written, Written.chars, Letter.word] using hrest
  split at h
  · rename_i hc
    obtain ⟨n, rfl, hrest⟩ := withDigits?_some h
    have hsign : ∃ sign : Sign, sign.mark.char = c := by
      rw [Bool.or_eq_true, decide_eq_true_eq, decide_eq_true_eq] at hc
      obtain rfl | rfl := hc
      · exact ⟨.plus, rfl⟩
      · exact ⟨.minus, rfl⟩
    obtain ⟨sign, rfl⟩ := hsign
    exact ⟨.modifier sign n, rfl, by simpa [Affix.written, Written.chars] using hrest⟩
  · cases h

/-! ## All suffixes -/

theorem text_suffixes_cons (affix : Affix) (rest : List Affix) :
    text ((affix :: rest).flatMap Affix.written) = text affix.written ++ text (rest.flatMap Affix.written) := by
  rw [List.flatMap_cons, text_append]

/-- What suffixes start with may follow a base and a suffix. -/
theorem suffixes_head (suffixes : List Affix) :
    AfterBase (text (suffixes.flatMap Affix.written)) ∧ AfterSuffix (text (suffixes.flatMap Affix.written)) := by
  have hhead : ∀ c ∈ (text (suffixes.flatMap Affix.written)).head?,
      (∃ p, baseLetter? c = some p ∧ p ≠ 'l' ∧ p ≠ 'w') ∨ c = '+' ∨ c = '-' := by
    intro c hc
    cases suffixes with
    | nil => cases hc
    | cons affix rest =>
      obtain ⟨w, ws, hws, hopens⟩ := text_head hc
      rw [List.flatMap_cons] at hws
      cases affix with
      | keep word count =>
        obtain ⟨rfl, -⟩ := List.cons.inj hws
        obtain ⟨p, hp, hspelling⟩ := hopens
        rw [word.keeps] at hspelling
        cases hr : word.rule <;> rw [hr] at hspelling <;> cases hspelling <;> exact .inl ⟨_, hp, by decide, by decide⟩
      | target letter n | interval letter n =>
        obtain ⟨rfl, -⟩ := List.cons.inj hws
        obtain ⟨p, hp, hspelling⟩ := hopens
        cases hspelling
        exact .inl ⟨_, hp, by decide, by decide⟩
      | modifier sign n =>
        obtain ⟨rfl, -⟩ := List.cons.inj hws
        cases sign
        · exact .inr (.inl hopens)
        · exact .inr (.inr hopens)
  constructor
  · intro c hc
    obtain ⟨p, hp, -, hw⟩ | rfl | rfl := hhead c hc
    · refine ⟨isDigit_of_baseLetter? hp, ?_, fun h => ?_⟩
      · rintro rfl
        exact absurd hp (by rw [show baseLetter? '!' = none by decide]; exact fun h => by cases h)
      · rw [baseLetter?_of_toLower (by decide) h] at hp
        exact hw (Option.some.inj hp).symm
    · decide
    · decide
  · intro c hc
    obtain ⟨p, hp, hl, -⟩ | rfl | rfl := hhead c hc
    · exact ⟨isDigit_of_baseLetter? hp, by rw [hp]; exact fun h => hl (Option.some.inj h)⟩
    · decide
    · decide

theorem get?_set (parts : Parts) (cs : List Char) (kind kind' : Kind) :
    (parts.set cs kind).get? kind' = if kind = kind' then some cs else parts.get? kind' := by
  cases kind <;> cases kind' <;> rfl

/-- The parts with suffixes added. -/
def addAll (parts : Parts) (suffixes : List Affix) : Parts :=
  suffixes.foldl (fun parts affix => parts.set affix.small affix.kind) parts

/-- **Suffixes of different kinds are split**, in whatever order they are typed. -/
theorem splitFrom_written (allowKeep : Bool) : ∀ (suffixes : List Affix) (parts : Parts),
    (suffixes.map Affix.kind).Nodup → (∀ affix ∈ suffixes, parts.get? affix.kind = none) →
    (∀ affix ∈ suffixes, affix.kind = .keep → allowKeep = true) →
    splitFrom allowKeep parts (text (suffixes.flatMap Affix.written)) = some (addAll parts suffixes)
  | [], parts, _, _, _ => by
    rw [List.flatMap_nil, text_nil, splitFrom]
    rfl
  | affix :: rest, parts, hkinds, hnew, hkeep => by
    rw [List.map_cons, List.nodup_cons] at hkinds
    obtain ⟨c, more, htext, hfound⟩ := suffix?_written affix (suffixes_head rest).2
    have hfresh : (parts.get? affix.kind).isSome = false := by rw [hnew affix List.mem_cons_self]; rfl
    have hallowed : (decide (affix.kind = .keep) && !allowKeep) = false := by
      by_cases hk : affix.kind = .keep
      · rw [hkeep affix List.mem_cons_self hk, Bool.not_true, Bool.and_false]
      · rw [decide_eq_false hk, Bool.false_and]
    -- the kinds of the suffixes that are left are still free, as they differ from the one just taken
    have hother : ∀ next ∈ rest, (parts.set affix.small affix.kind).get? next.kind = none := by
      intro next hnext
      have hne : affix.kind ≠ next.kind := fun h => hkinds.1 (h ▸ List.mem_map_of_mem hnext)
      rw [get?_set, if_neg hne, hnew next (List.mem_cons_of_mem _ hnext)]
    rw [text_suffixes_cons, htext, List.cons_append, splitFrom, hfound]
    simp only [hfresh, hallowed, Bool.or_self, Bool.false_eq_true, if_false, List.drop_left]
    exact splitFrom_written allowKeep rest _ hkinds.2 hother fun next hn => hkeep next (List.mem_cons_of_mem _ hn)

/-- **A text that is split to the end is the text of suffixes of different kinds.** -/
theorem splitFrom_some (allowKeep : Bool) (cs : List Char) (parts : Parts) {all : Parts}
    (h : splitFrom allowKeep parts cs = some all) : ∃ suffixes : List Affix,
      cs = text (suffixes.flatMap Affix.written) ∧ (suffixes.map Affix.kind).Nodup ∧
      (∀ affix ∈ suffixes, parts.get? affix.kind = none) ∧
      ∀ affix ∈ suffixes, affix.kind = .keep → allowKeep = true := by
  fun_induction splitFrom allowKeep parts cs with
  | case1 parts => exact ⟨[], rfl, List.nodup_nil, by simp, by simp⟩
  | case2 => cases h
  | case3 => cases h
  | case4 parts c rest found hfound hnew ih =>
    obtain ⟨suffixes, hrest, hkinds, hnone, hkeep⟩ := ih h
    obtain ⟨affix, hkind, htext⟩ := suffix?_some hfound
    rw [Bool.or_eq_true, not_or, Bool.not_eq_true, Bool.not_eq_true, Option.isSome_eq_false_iff] at hnew
    -- a kind that is free after this suffix is another kind, and was free before it
    have hnext : ∀ next ∈ suffixes, affix.kind ≠ next.kind ∧ parts.get? next.kind = none := by
      intro next hn
      have hget := hnone next hn
      rw [get?_set, ← hkind] at hget
      split at hget
      · cases hget
      · exact ⟨‹_›, hget⟩
    refine ⟨affix :: suffixes, ?_, ?_, ?_, ?_⟩
    · rw [text_suffixes_cons, ← hrest]
      exact htext
    · refine List.nodup_cons.2 ⟨fun hmem => ?_, hkinds⟩
      obtain ⟨next, hn, heq⟩ := List.mem_map.1 hmem
      exact (hnext next hn).1 heq.symm
    · refine List.forall_mem_cons.2 ⟨?_, fun next hn => (hnext next hn).2⟩
      rw [hkind]
      exact Option.isNone_iff_eq_none.1 hnew.1
    · refine List.forall_mem_cons.2 ⟨fun hk => ?_, hkeep⟩
      have hallowed := hnew.2
      rw [← hkind, hk] at hallowed
      simpa using hallowed

/-! ## The whole text -/

theorem get?_addAll (kind : Kind) : ∀ (suffixes : List Affix) (parts : Parts), (suffixes.map Affix.kind).Nodup →
    (addAll parts suffixes).get? kind = ((pick kind suffixes).map Affix.small).or (parts.get? kind)
  | [], parts, _ => rfl
  | affix :: rest, parts, h => by
    rw [List.map_cons, List.nodup_cons] at h
    have ih := get?_addAll kind rest (parts.set affix.small affix.kind) h.2
    rw [get?_set] at ih
    change (addAll (parts.set affix.small affix.kind) rest).get? kind = _
    rw [ih]
    by_cases hk : affix.kind = kind
    · subst hk
      have hnone : pick affix.kind rest = none := by
        refine List.find?_eq_none.2 fun next hn => ?_
        simp only [decide_eq_true_eq]
        exact fun heq => h.1 (heq ▸ List.mem_map_of_mem hn)
      rw [hnone, pick, List.find?_cons_of_pos (by simp)]
      simp
    · rw [if_neg hk, pick, pick, List.find?_cons_of_neg (by simpa using hk)]

theorem inOrder_addAll {suffixes : List Affix} (h : (suffixes.map Affix.kind).Nodup) :
    (addAll .empty suffixes).inOrder = (inOrder suffixes).flatMap Affix.small := by
  have hget : ∀ kind, (addAll .empty suffixes).get? kind = (pick kind suffixes).map Affix.small := by
    intro kind
    rw [get?_addAll kind suffixes .empty h]
    cases pick kind suffixes <;> cases kind <;> rfl
  have hkeep : (addAll .empty suffixes).keep = _ := hget .keep
  have htarget : (addAll .empty suffixes).target = _ := hget .target
  have hinterval : (addAll .empty suffixes).interval = _ := hget .interval
  have hmodifier : (addAll .empty suffixes).modifier = _ := hget .modifier
  have hpart : ∀ found : Option Affix, (found.map Affix.small).getD [] = found.toList.flatMap Affix.small := by
    intro found
    cases found <;> simp
  rw [Parts.inOrder, hkeep, htarget, hinterval, hmodifier]
  simp only [TabletopDice.inOrder, List.flatMap_append, hpart]

/-- **The text of a single roll is put into order**, whatever the order in which its suffixes are typed. -/
theorem reorder?_typed (roll : SingleRoll) :
    reorder? roll.typed = some (text roll.head ++ (inOrder roll.suffixes).flatMap Affix.small) := by
  have hbase := cutBase?_written roll.base (suffixes_head roll.suffixes).1
  have hsplit := splitFrom_written roll.base.takesKeep roll.suffixes .empty roll.distinct
    (fun affix _ => by cases affix.kind <;> rfl) roll.keeps
  rw [reorder?, SingleRoll.typed, SingleRoll.written, SingleRoll.head, text_append, text_append, List.append_assoc,
    cutRepeat_written]
  simp only [hbase, hsplit, Option.bind_eq_bind, Option.bind_some, inOrder_addAll roll.distinct]

/-- **A text that is put into order is the text of a single roll.** -/
theorem exists_typed {cs out : List Char} (h : reorder? cs = some out) : ∃ roll : SingleRoll, cs = roll.typed := by
  obtain ⟨repeats, hrepeat, hcs⟩ := cutRepeat_base cs
  rw [reorder?] at h
  obtain ⟨⟨cut, takesKeep⟩, hcut, h⟩ := Option.bind_eq_some_iff.1 h
  obtain ⟨parts, hsplit, -⟩ := Option.bind_eq_some_iff.1 h
  obtain ⟨base, htakes, hbase, hafter⟩ := cutBase?_some hcut
  obtain ⟨suffixes, hrest, hkinds, -, hkeep⟩ := splitFrom_some takesKeep cut.after .empty hsplit
  refine ⟨⟨repeats, base, suffixes, hkinds, fun affix hmem hk => htakes.trans (hkeep affix hmem hk)⟩, ?_⟩
  rw [hcs, hafter, hrepeat, hbase, hrest, SingleRoll.typed, SingleRoll.written, SingleRoll.head, text_append,
    text_append, List.append_assoc]

end SuffixOrder
end TabletopDice
