import TabletopDice.Proofs.SingleRoll
/-!
# Cutting — the parts of a single roll found in its text

The text of a single roll is cut into its repeat count, its base and its suffixes, and nothing else is: a text that is
cut to the end is the text of a single roll (`exists_typed`). Whatever the order in which the suffixes are typed, the
parts that are found are those of the roll, so the text is put into one order (`reorder?_typed`).
-/
namespace TabletopDice
namespace SuffixOrder

open Text Writing

/-! ## Letters and numbers -/

theorem toUpper_toLower {c : Char} (h : c.isUpper = true) : c.toLower.toUpper = c := by
  have hall : ∀ n ∈ List.range' 65 26, (Char.ofNat n).toLower.toUpper = Char.ofNat n := by decide
  have hrange := toNat_of_isUpper h
  have hmem : c.toNat ∈ List.range' 65 26 := List.mem_range'_1.2 (by omega)
  have hc := hall c.toNat hmem
  rwa [Char.ofNat_toNat] at hc

theorem toLower_toUpper {p : Char} (h : p.isLower = true) : p.toUpper.isUpper = true ∧ p.toUpper.toLower = p := by
  have hall : ∀ n ∈ List.range' 97 26, (Char.ofNat n).toUpper.isUpper = true ∧
      (Char.ofNat n).toUpper.toLower = Char.ofNat n := by decide
  have hrange := toNat_of_isLower h
  have hmem : p.toNat ∈ List.range' 97 26 := List.mem_range'_1.2 (by omega)
  have hp := hall p.toNat hmem
  rwa [Char.ofNat_toNat] at hp

/-- A small letter and its capital are the characters that become the small letter. -/
theorem letter_test {p q : Char} (hp : p.isLower = true) (hq : p.toUpper = q) :
    (fun c : Char => c == p || c == q) = fun c => c.toLower == p := by
  subst hq
  funext c
  rw [Bool.eq_iff_iff, Bool.or_eq_true, beq_iff_eq, beq_iff_eq, beq_iff_eq]
  by_cases hup : c.isUpper = true
  · constructor
    · rintro (rfl | rfl)
      · exact toLower_eq (isUpper_of_isLower hp)
      · exact (toLower_toUpper hp).2
    · rintro rfl
      exact .inr (toUpper_toLower hup).symm
  · rw [toLower_eq (Bool.eq_false_iff.2 hup)]
    refine ⟨?_, .inl⟩
    rintro (rfl | rfl)
    · rfl
    · exact absurd (toLower_toUpper hp).1 hup

/-- The text of a count that may be missing. -/
def countText (count : Option Digits) : List Char := text (count.map Written.number).toList

theorem isDigit_of_mem_countText {count : Option Digits} : ∀ c ∈ countText count, isDigit c = true := by
  cases count with
  | none => exact fun c hc => absurd hc List.not_mem_nil
  | some n =>
    intro c hc
    exact n.digits c (by simpa [countText, Written.chars] using hc)

theorem exists_countText (cs : List Char) : ∃ count, cs.takeWhile isDigit = countText count := by
  by_cases h : cs.takeWhile isDigit = []
  · exact ⟨none, h⟩
  · refine ⟨some ⟨_, fun c hc => List.mem_takeWhile_imp hc, h⟩, ?_⟩
    simp [countText, Written.chars]

theorem exists_number {cs : List Char} (h : cs.takeWhile isDigit ≠ []) : ∃ n : Digits, cs.takeWhile isDigit = n.chars :=
  ⟨⟨_, fun _ hc => List.mem_takeWhile_imp hc, h⟩, rfl⟩

/-! ## Digits and what follows them -/

/-- A count and a letter are cut off if the letter is the right one. -/
theorem digitsThen?_countText (isLetter : Char → Bool) (count : Option Digits) {c : Char} (rest : List Char)
    (hc : isDigit c = false) :
    digitsThen? isLetter (countText count ++ c :: rest) =
      if isLetter c then some ⟨countText count ++ [c], rest⟩ else none := by
  have hhead : ∀ d ∈ (c :: rest).head?, isDigit d = false := by
    rintro d ⟨⟩
    exact hc
  rw [digitsThen?, dropWhile_append_of_head isDigit_of_mem_countText hhead,
    takeWhile_append_of_head isDigit_of_mem_countText hhead]

theorem digitsThen?_some {isLetter : Char → Bool} {cs : List Char} {cut : Cut} (h : digitsThen? isLetter cs = some cut) :
    ∃ count c, isLetter c = true ∧ cut.base = countText count ++ [c] ∧ cs = countText count ++ c :: cut.after := by
  obtain ⟨count, hcount⟩ := exists_countText cs
  rw [digitsThen?] at h
  cases hdrop : cs.dropWhile isDigit with
  | nil => rw [hdrop] at h; cases h
  | cons c rest =>
    rw [hdrop] at h
    by_cases hc : isLetter c = true
    · simp only [hc, if_true, Option.some.injEq] at h
      subst h
      refine ⟨count, c, hc, by rw [hcount], ?_⟩
      rw [← hcount, ← hdrop, List.takeWhile_append_dropWhile]
    · simp only [hc, Bool.false_eq_true, if_false] at h
      cases h

theorem thenDigits?_number (base : List Char) (n : Digits) {rest : List Char}
    (hrest : ∀ c ∈ rest.head?, isDigit c = false) : thenDigits? ⟨base, n.chars ++ rest⟩ = some ⟨base ++ n.chars, rest⟩ := by
  rw [thenDigits?]
  simp only [takeWhile_append_of_head n.digits hrest, dropWhile_append_of_head n.digits hrest]
  split
  · exact absurd ‹_› n.nonempty
  · rfl

theorem thenDigits?_some {cut cut' : Cut} (h : thenDigits? cut = some cut') :
    ∃ n : Digits, cut'.base = cut.base ++ n.chars ∧ cut.after = n.chars ++ cut'.after := by
  rw [thenDigits?] at h
  split at h
  · cases h
  · rename_i hne
    cases h
    obtain ⟨n, hn⟩ := exists_number hne
    exact ⟨n, by rw [hn], by rw [← hn, List.takeWhile_append_dropWhile]⟩

/-! ## The base -/

theorem countText_cons (count : Option Digits) (c : Char) (rest : List Written) (w : Written) (hw : w.chars = [c]) :
    text ((count.map Written.number).toList ++ w :: rest) = countText count ++ c :: text rest := by
  rw [text_append, text_cons, hw]
  rfl

/-- What may follow a base: no digit, no exclamation mark and no letter of a wild die. -/
def AfterBase (rest : List Char) : Prop :=
  ∀ c ∈ rest.head?, isDigit c = false ∧ c ≠ '!' ∧ c.toLower ≠ 'w'

theorem isDigit_letter {keyword : Keyword} (letter : Letter keyword) : isDigit letter.char = false :=
  isDigit_of_baseLetter? (baseLetter?_of_toLower letter.isLower rfl)

theorem toLower_letter {keyword : Keyword} (letter : Letter keyword) {p : Char} (hp : keyword.spelling = [p]) :
    letter.char.toLower = p := (List.cons.inj (letter.form.trans hp)).1

/-- A text that starts with a count and a letter is cut there if the letter is the right one, and not otherwise. -/
theorem digitsThen?_letter (count : Option Digits) {keyword : Keyword} (letter : Letter keyword) {p q : Char}
    (hq : keyword.spelling = [q]) (rest : List Char) :
    digitsThen? (fun c => c.toLower == p) (countText count ++ letter.char :: rest) =
      if q = p then some ⟨countText count ++ [letter.char], rest⟩ else none := by
  rw [digitsThen?_countText _ _ _ (isDigit_letter letter), toLower_letter letter hq]
  by_cases h : q = p <;> simp [h]

/-- The faces of a generic die, added to the base. -/
def facesCut? (cut : Cut) : Option Cut :=
  match cut.after with
  | '%' :: rest => some ⟨cut.base ++ ['%'], rest⟩
  | _ => thenDigits? cut

/-- The mark of acing, added to the base if it is there. -/
def acingCut (cut : Cut) : Cut :=
  match cut.after with
  | '!' :: rest => ⟨cut.base ++ ['!'], rest⟩
  | _ => cut

/-- The wild die, added to the base if it is there. -/
def wildCut (cut : Cut) : Cut :=
  match cut.after with
  | c :: rest => if c.toLower == 'w' then (thenDigits? ⟨cut.base ++ [c], rest⟩).getD cut else cut
  | [] => cut

/-- The faces and the mark of acing of a generic roll, added to the base. -/
def genericCut? (cut : Cut) : Option Cut := (facesCut? cut).map acingCut

/-- The sides and the wild die of a trait roll, added to the base. -/
def savageCut? (cut : Cut) : Option Cut := (thenDigits? cut).map wildCut

/-- **A base is cut off after its count and its letter**, and then by what such a roll has after the letter. -/
def CutsAfter (p : Char) (next : Cut → Option Cut) (cutter : List Char → Option Cut) : Prop :=
  ∀ cs, cutter cs = (digitsThen? (fun c => c.toLower == p) cs).bind next

theorem cutsAfter_generic : CutsAfter 'd' genericCut? cutGeneric? := by
  intro cs
  rw [cutGeneric?, letter_test (by decide) (by decide)]
  cases digitsThen? (fun c => c.toLower == 'd') cs with
  | none => rfl
  | some cut =>
    have hfaces : ∀ next : Cut → Option Cut, (match cut.after with
        | '%' :: rest => (some ⟨cut.base ++ ['%'], rest⟩ : Option Cut).bind next
        | _ => (thenDigits? cut).bind next) = (facesCut? cut).bind next := by
      intro next
      unfold facesCut?
      split <;> rfl
    refine (hfaces _).trans ?_
    change _ = (facesCut? cut).map acingCut
    have hacing : ∀ sided : Cut, (match sided.after with
        | '!' :: rest => some ⟨sided.base ++ ['!'], rest⟩
        | _ => some sided) = some (acingCut sided) := by
      intro sided
      unfold acingCut
      split <;> rfl
    cases facesCut? cut with
    | none => rfl
    | some sided => exact hacing sided

theorem cutsAfter_savage : CutsAfter 's' savageCut? cutSavage? := by
  intro cs
  have hw : ∀ c : Char, (c == 'w' || c == 'W') = (c.toLower == 'w') :=
    congrFun (letter_test (by decide) (by decide))
  rw [cutSavage?, letter_test (by decide) (by decide)]
  cases (digitsThen? (fun c => c.toLower == 's') cs) with
  | none => rfl
  | some cut =>
    simp only [Option.bind_eq_bind, Option.bind_some, hw, savageCut?]
    cases thenDigits? cut with
    | none => rfl
    | some sided =>
      obtain ⟨base, after⟩ := sided
      cases after with
      | nil => rfl
      | cons c rest =>
        simp only [Option.bind_some, Option.map_some, wildCut]
        split <;> rfl

theorem cutsAfter_extras : CutsAfter 'e' thenDigits? cutExtras? := by
  intro cs
  rw [cutExtras?, letter_test (by decide) (by decide)]
  rfl

/-- A text that starts with a count and a letter has a base there if the letter is that of the roll. -/
theorem CutsAfter.letter {p : Char} {next : Cut → Option Cut} {cutter : List Char → Option Cut}
    (h : CutsAfter p next cutter) (count : Option Digits) {keyword : Keyword} (letter : Letter keyword) {q : Char}
    (hq : keyword.spelling = [q]) (after : List Char) :
    cutter (countText count ++ letter.char :: after) =
      if q = p then next ⟨countText count ++ [letter.char], after⟩ else none := by
  rw [h, digitsThen?_letter count letter hq]
  split <;> rfl

theorem letter_of_toLower {c p : Char} {keyword : Keyword} (h : (c.toLower == p) = true) (hp : keyword.spelling = [p]) :
    ∃ letter : Letter keyword, letter.char = c :=
  ⟨⟨c, by rw [beq_iff_eq.1 h, hp]⟩, rfl⟩

/-- A text with a base starts with a count and the letter of the roll. -/
theorem CutsAfter.exists_letter {p : Char} {next : Cut → Option Cut} {cutter : List Char → Option Cut}
    (h : CutsAfter p next cutter) (keyword : Keyword) (hp : keyword.spelling = [p]) {cs : List Char} {cut : Cut}
    (hcut : cutter cs = some cut) : ∃ (count : Option Digits) (letter : Letter keyword) (after : List Char),
      cs = countText count ++ letter.char :: after ∧ next ⟨countText count ++ [letter.char], after⟩ = some cut := by
  rw [h, Option.bind_eq_some_iff] at hcut
  obtain ⟨⟨base, after⟩, hcounted, hnext⟩ := hcut
  obtain ⟨count, c, hc, rfl, rfl⟩ := digitsThen?_some hcounted
  obtain ⟨letter, rfl⟩ := letter_of_toLower hc hp
  exact ⟨count, letter, after, rfl, hnext⟩

theorem facesCut?_written (base : List Char) (faces : WrittenFaces) {rest : List Char}
    (hrest : ∀ c ∈ rest.head?, isDigit c = false) :
    facesCut? ⟨base, faces.written.chars ++ rest⟩ = some ⟨base ++ faces.written.chars, rest⟩ := by
  cases faces with
  | percent => rfl
  | sides n =>
    have hdigits := thenDigits?_number base n hrest
    unfold facesCut?
    split
    · rename_i after hafter
      obtain ⟨c, more, hchars⟩ := List.exists_cons_of_ne_nil n.nonempty
      have hc : c = '%' := (List.cons.inj ((congrArg (· ++ rest) hchars).symm.trans hafter)).1
      exact absurd (n.digits c (hchars ▸ List.mem_cons_self)) (by rw [hc]; decide)
    · exact hdigits

theorem acingCut_written (base : List Char) (acing : Bool) {rest : List Char} (hrest : ∀ c ∈ rest.head?, c ≠ '!') :
    acingCut ⟨base, text (if acing then [.sign .bang] else []) ++ rest⟩ =
      ⟨base ++ text (if acing then [.sign .bang] else []), rest⟩ := by
  cases acing with
  | true => rfl
  | false =>
    unfold acingCut
    split
    · rename_i after hafter
      exact absurd rfl (hrest '!' (by rw [show rest = '!' :: after from hafter]; rfl))
    · simp

theorem wildText_head (wild : Option (Letter .w × Digits)) {rest : List Char}
    (hrest : ∀ c ∈ rest.head?, isDigit c = false) :
    ∀ c ∈ (text (Base.wildWritten wild) ++ rest).head?, isDigit c = false := by
  cases wild with
  | none => exact hrest
  | some wild =>
    rintro c ⟨⟩
    exact isDigit_letter wild.1

theorem wildCut_written (base : List Char) (wild : Option (Letter .w × Digits)) {rest : List Char}
    (hrest : AfterBase rest) :
    wildCut ⟨base, text (Base.wildWritten wild) ++ rest⟩ = ⟨base ++ text (Base.wildWritten wild), rest⟩ := by
  cases wild with
  | none =>
    cases rest with
    | nil => simp [wildCut, Base.wildWritten]
    | cons c rest => simp [wildCut, Base.wildWritten, (hrest c rfl).2.2]
  | some wild =>
    have hdigits := thenDigits?_number (base ++ [wild.1.char]) wild.2 fun c hc => (hrest c hc).1
    simp [wildCut, Base.wildWritten, Written.chars, Letter.word, toLower_letter wild.1 rfl, hdigits]

/-- **A base is cut off as typed**, before anything that may follow a base. -/
theorem cutBase?_written (base : Base) {rest : List Char} (hrest : AfterBase rest) :
    cutBase? (text base.written ++ rest) = some (⟨text base.written, rest⟩, base.takesKeep) := by
  have hdigit : ∀ c ∈ rest.head?, isDigit c = false := fun c hc => (hrest c hc).1
  cases base with
  | generic count letter faces acing =>
    have hacing := fun base => acingCut_written base acing fun c hc => (hrest c hc).2.1
    have hhead : ∀ c ∈ (text (if acing then [.sign .bang] else []) ++ rest).head?, isDigit c = false := by
      cases acing with
      | true => rintro c ⟨⟩; decide
      | false => exact hdigit
    rw [Base.written, countText_cons count letter.char _ (.word letter.word) rfl, List.append_assoc, List.cons_append,
      cutBase?, cutsAfter_generic.letter count letter rfl, if_pos rfl, genericCut?, text_cons, List.append_assoc,
      facesCut?_written _ faces hhead, Option.map_some, hacing]
    simp [Base.takesKeep]
  | savage count letter trait wild =>
    rw [Base.written, countText_cons count letter.char _ (.word letter.word) rfl, List.append_assoc, List.cons_append,
      cutBase?, cutsAfter_generic.letter count letter rfl, if_neg (by decide), cutsAfter_savage.letter count letter rfl,
      if_pos rfl, savageCut?, text_cons, List.append_assoc, Written.chars,
      thenDigits?_number _ trait (wildText_head wild hdigit), Option.map_some, wildCut_written _ wild hrest]
    simp [Base.takesKeep]
  | extras count letter sides =>
    rw [Base.written, countText_cons count letter.char _ (.word letter.word) rfl, List.append_assoc, List.cons_append,
      cutBase?, cutsAfter_generic.letter count letter rfl, if_neg (by decide), cutsAfter_savage.letter count letter rfl,
      if_neg (by decide), cutsAfter_extras.letter count letter rfl, if_pos rfl]
    simp only [text_cons, text_nil, List.append_nil, Written.chars]
    rw [thenDigits?_number _ sides hdigit]
    simp [Base.takesKeep]

theorem facesCut?_some {cut cut' : Cut} (h : facesCut? cut = some cut') : ∃ faces : WrittenFaces,
    cut'.base = cut.base ++ faces.written.chars ∧ cut.after = faces.written.chars ++ cut'.after := by
  unfold facesCut? at h
  split at h
  · rename_i rest hafter
    cases h
    exact ⟨.percent, rfl, hafter⟩
  · obtain ⟨n, hbase, hafter⟩ := thenDigits?_some h
    exact ⟨.sides n, hbase, hafter⟩

theorem acingCut_base (cut : Cut) : ∃ acing : Bool,
    (acingCut cut).base = cut.base ++ text (if acing then [.sign .bang] else []) ∧
      cut.after = text (if acing then [.sign .bang] else []) ++ (acingCut cut).after := by
  unfold acingCut
  split
  · rename_i rest hafter
    exact ⟨true, rfl, hafter⟩
  · exact ⟨false, (List.append_nil _).symm, rfl⟩

theorem wildCut_base (cut : Cut) : ∃ wild : Option (Letter .w × Digits),
    (wildCut cut).base = cut.base ++ text (Base.wildWritten wild) ∧
      cut.after = text (Base.wildWritten wild) ++ (wildCut cut).after := by
  have hnone : ∃ wild : Option (Letter .w × Digits), cut.base = cut.base ++ text (Base.wildWritten wild) ∧
      cut.after = text (Base.wildWritten wild) ++ cut.after := ⟨none, (List.append_nil _).symm, rfl⟩
  unfold wildCut
  split
  · rename_i c rest hafter
    split
    · rename_i hc
      cases hdigits : thenDigits? ⟨cut.base ++ [c], rest⟩ with
      | none => exact hnone
      | some cut' =>
        obtain ⟨n, hbase, hrest⟩ := thenDigits?_some hdigits
        have hform : [c.toLower] = Keyword.spelling .w := by rw [beq_iff_eq.1 hc]; rfl
        have htext : text (Base.wildWritten (some (⟨c, hform⟩, n))) = c :: n.chars := by
          simp [Base.wildWritten, Written.chars, Letter.word]
        refine ⟨some (⟨c, hform⟩, n), ?_, ?_⟩
        · rw [htext, Option.getD_some, hbase, List.append_assoc, List.singleton_append]
        · rw [htext, Option.getD_some, hafter, List.cons_append, ← hrest]
    · exact hnone
  · exact hnone

/-- **A base that is cut off is the text of a base.** -/
theorem cutBase?_some {cs : List Char} {cut : Cut} {takesKeep : Bool} (h : cutBase? cs = some (cut, takesKeep)) :
    ∃ base : Base, base.takesKeep = takesKeep ∧ cut.base = text base.written ∧ cs = cut.base ++ cut.after := by
  unfold cutBase? at h
  split at h
  · rename_i hgeneric
    cases h
    obtain ⟨count, letter, after, rfl, hnext⟩ := cutsAfter_generic.exists_letter .d rfl hgeneric
    obtain ⟨sided, hsided, rfl⟩ := Option.map_eq_some_iff.1 hnext
    obtain ⟨faces, hfbase, hfafter⟩ := facesCut?_some hsided
    obtain ⟨acing, habase, haafter⟩ := acingCut_base sided
    have hwritten : text (Base.generic count letter faces acing).written =
        countText count ++ letter.char :: (faces.written.chars ++ text (if acing then [.sign .bang] else [])) := by
      rw [Base.written, countText_cons count letter.char _ (.word letter.word) rfl, text_cons]
    refine ⟨.generic count letter faces acing, rfl, ?_, ?_⟩
    · rw [habase, hfbase, hwritten]
      simp only [List.append_assoc, List.cons_append, List.nil_append]
    · rw [habase, hfbase, show after = _ from hfafter, haafter]
      simp only [List.append_assoc, List.cons_append, List.nil_append]
  split at h
  · rename_i hsavage
    cases h
    obtain ⟨count, letter, after, rfl, hnext⟩ := cutsAfter_savage.exists_letter .s rfl hsavage
    obtain ⟨sided, hsided, rfl⟩ := Option.map_eq_some_iff.1 hnext
    obtain ⟨trait, htbase, htafter⟩ := thenDigits?_some hsided
    obtain ⟨wild, hwbase, hwafter⟩ := wildCut_base sided
    have hwritten : text (Base.savage count letter trait wild).written =
        countText count ++ letter.char :: (trait.chars ++ text (Base.wildWritten wild)) := by
      rw [Base.written, countText_cons count letter.char _ (.word letter.word) rfl, text_cons]
      rfl
    refine ⟨.savage count letter trait wild, rfl, ?_, ?_⟩
    · rw [hwbase, htbase, hwritten]
      simp only [List.append_assoc, List.cons_append, List.nil_append]
    · rw [hwbase, htbase, show after = _ from htafter, hwafter]
      simp only [List.append_assoc, List.cons_append, List.nil_append]
  · obtain ⟨sided, hsided, h⟩ := Option.map_eq_some_iff.1 h
    cases h
    obtain ⟨count, letter, after, rfl, hnext⟩ := cutsAfter_extras.exists_letter .e rfl hsided
    obtain ⟨sides, hsbase, hsafter⟩ := thenDigits?_some hnext
    have hwritten : text (Base.extras count letter sides).written = countText count ++ letter.char :: sides.chars := by
      rw [Base.written, countText_cons count letter.char _ (.word letter.word) rfl, text_cons, text_nil,
        List.append_nil]
      rfl
    refine ⟨.extras count letter sides, rfl, ?_, ?_⟩
    · rw [hsbase, hwritten, List.append_assoc, List.singleton_append]
    · rw [hsbase, show after = _ from hsafter]
      simp only [List.append_assoc, List.cons_append, List.nil_append]

/-! ## The repeat count -/

theorem cutRepeat_eq (cs : List Char) : cutRepeat cs = match cs.takeWhile isDigit with
    | [] => ⟨[], cs⟩
    | _ => (digitsThen? (fun c => c.toLower == 'x') cs).getD ⟨[], cs⟩ := by
  have htest : (fun c : Char => c == 'x' || c == 'X') = fun c => c.toLower == 'x' := letter_test (by decide) (by decide)
  rw [← htest]
  rfl

/-- A base starts with its count and its letter, which is not that of a repeat count. -/
theorem Base.text_eq (base : Base) : ∃ count c more, text base.written = countText count ++ c :: more ∧
    isDigit c = false ∧ c.toLower ≠ 'x' := by
  have hx : ∀ {p : Char} {keyword : Keyword} (letter : Letter keyword), keyword.spelling = [p] → p ≠ 'x' →
      isDigit letter.char = false ∧ letter.char.toLower ≠ 'x' := by
    intro p keyword letter hp hne
    exact ⟨isDigit_letter letter, by rw [toLower_letter letter hp]; exact hne⟩
  cases base with
  | generic count letter faces acing =>
    exact ⟨count, letter.char, _, countText_cons count _ _ _ rfl, hx letter rfl (by decide)⟩
  | savage count letter trait wild =>
    exact ⟨count, letter.char, _, countText_cons count _ _ _ rfl, hx letter rfl (by decide)⟩
  | extras count letter sides =>
    exact ⟨count, letter.char, _, countText_cons count _ _ _ rfl, hx letter rfl (by decide)⟩

/-- **A repeat count is cut off as typed**, before a base. -/
theorem cutRepeat_written (repeats : Option (Digits × Letter .x)) (base : Base) (rest : List Char) :
    cutRepeat (text (SingleRoll.repeatWritten repeats) ++ (text base.written ++ rest)) =
      ⟨text (SingleRoll.repeatWritten repeats), text base.written ++ rest⟩ := by
  cases repeats with
  | none =>
    obtain ⟨count, c, more, hbase, hdigit, hx⟩ := Base.text_eq base
    rw [SingleRoll.repeatWritten, text_nil, List.nil_append, cutRepeat_eq, hbase, List.append_assoc, List.cons_append,
      digitsThen?_countText _ _ _ hdigit, if_neg (by simpa using hx)]
    split <;> rfl
  | some repeats =>
    obtain ⟨n, letter⟩ := repeats
    have hcut : digitsThen? (fun c => c.toLower == 'x') _ = _ :=
      digitsThen?_letter (some n) letter rfl (text base.written ++ rest)
    have hcount : countText (some n) = n.chars := by simp [countText, Written.chars]
    have htake : (n.chars ++ letter.char :: (text base.written ++ rest)).takeWhile isDigit = n.chars := by
      refine takeWhile_append_of_head n.digits ?_
      rintro c ⟨⟩
      exact isDigit_letter letter
    have htyped : text (SingleRoll.repeatWritten (some (n, letter))) = n.chars ++ [letter.char] := by
      simp [SingleRoll.repeatWritten, Written.chars, Letter.word]
    rw [hcount, if_pos rfl] at hcut
    rw [htyped, List.append_assoc, List.singleton_append, cutRepeat_eq, htake, hcut]
    split
    · exact absurd ‹_› n.nonempty
    · rfl

/-- **A repeat count that is cut off is the text of one.** -/
theorem cutRepeat_base (cs : List Char) : ∃ repeats : Option (Digits × Letter .x),
    (cutRepeat cs).base = text (SingleRoll.repeatWritten repeats) ∧ cs = (cutRepeat cs).base ++ (cutRepeat cs).after := by
  rw [cutRepeat_eq]
  split
  · exact ⟨none, rfl, rfl⟩
  · rename_i htake
    cases hcut : digitsThen? (fun c => c.toLower == 'x') cs with
    | none => exact ⟨none, rfl, rfl⟩
    | some cut =>
      obtain ⟨count, c, hc, hbase, hcs⟩ := digitsThen?_some hcut
      obtain ⟨letter, rfl⟩ : ∃ letter : Letter .x, letter.char = c := letter_of_toLower hc rfl
      cases count with
      | none =>
        refine absurd ?_ htake
        rw [hcs]
        exact List.takeWhile_cons_of_neg (by rw [isDigit_letter letter]; exact Bool.noConfusion)
      | some n =>
        refine ⟨some (n, letter), ?_, ?_⟩
        · simp [hbase, countText, Written.chars, Letter.word, SingleRoll.repeatWritten]
        · simp [hbase, hcs]

end SuffixOrder
end TabletopDice
