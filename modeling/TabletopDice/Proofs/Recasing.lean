import TabletopDice.Proofs.SingleRoll.Splitting
/-!
# Recasing — texts that differ in the case of letters

The case of Latin letters counts in the names of variables and flags only. A text and one that differs from it in the
case of other letters have the same tokens or stop the scanner at the same place, and with their suffixes in order they
still differ in the case of letters only. So they are the same command, or they are refused at the same place, whether
or not their suffixes are put in order first (`parse_recased`).
-/
namespace TabletopDice

open Text Writing

/-! ## Characters in lower case -/

namespace Text

/-- **What no capital letter changes in lower case** no character changes. -/
theorem apply_toLower {α : Type} (kind : Char → α)
    (h : ∀ n ∈ List.range' 65 26, kind (Char.ofNat n).toLower = kind (Char.ofNat n)) (c : Char) :
    kind c.toLower = kind c := by
  by_cases hup : c.isUpper = true
  · have hrange := toNat_of_isUpper hup
    have hc := h c.toNat (List.mem_range'_1.2 (by omega))
    rwa [Char.ofNat_toNat] at hc
  · rw [toLower_eq (Bool.eq_false_iff.2 hup)]

@[simp] theorem toLower_toLower (c : Char) : c.toLower.toLower = c.toLower := apply_toLower _ (by decide) c

@[simp] theorem isBlank_toLower (c : Char) : isBlank c.toLower = isBlank c := apply_toLower _ (by decide) c

@[simp] theorem isDigit_toLower (c : Char) : isDigit c.toLower = isDigit c := apply_toLower _ (by decide) c

@[simp] theorem isWordChar_toLower (c : Char) : isWordChar c.toLower = isWordChar c := apply_toLower _ (by decide) c

@[simp] theorem baseLetter?_toLower (c : Char) : baseLetter? c.toLower = baseLetter? c := apply_toLower _ (by decide) c

@[simp] theorem lowerLetter_toLower (c : Char) : lowerLetter c.toLower = lowerLetter c := apply_toLower _ (by decide) c

/-- A character that is no letter is the lower case of itself only. -/
theorem toLower_eq_iff {c s : Char} (hs : s.isAlpha = false) : c.toLower = s ↔ c = s := by
  have hs : s.isUpper = false ∧ s.isLower = false := Bool.or_eq_false_iff.1 hs
  by_cases hup : c.isUpper = true
  · constructor
    · rintro rfl
      rw [isLower_toLower hup] at hs
      cases hs.2
    · rintro rfl
      rw [hup] at hs
      cases hs.1
  · rw [toLower_eq (Bool.eq_false_iff.2 hup)]

theorem toLower_of_isDigit {c : Char} (h : isDigit c = true) : c.toLower = c := by
  refine toLower_eq (Bool.eq_false_iff.2 fun hup => ?_)
  rw [isDigit_of_baseLetter? (baseLetter?_of_toLower (isLower_toLower hup) rfl)] at h
  cases h

section

variable {kind : Char → Bool} (hkind : ∀ c, kind c.toLower = kind c) (cs : List Char)

include hkind

theorem takeWhile_toLower : (cs.map Char.toLower).takeWhile kind = (cs.takeWhile kind).map Char.toLower := by
  rw [List.takeWhile_map, show kind ∘ Char.toLower = kind from funext hkind]

theorem dropWhile_toLower : (cs.map Char.toLower).dropWhile kind = (cs.dropWhile kind).map Char.toLower := by
  rw [List.dropWhile_map, show kind ∘ Char.toLower = kind from funext hkind]

end

theorem takeDigits_toLower (cs : List Char) : (cs.map Char.toLower).takeWhile isDigit = cs.takeWhile isDigit := by
  have hsame : ∀ c ∈ cs.takeWhile isDigit, c.toLower = c := fun c hc => toLower_of_isDigit (List.mem_takeWhile_imp hc)
  rw [takeWhile_toLower isDigit_toLower, List.map_congr_left hsame, List.map_id']

theorem startsWithWord_toLower : ∀ word cs : List Char,
    startsWithWord word (cs.map Char.toLower) = startsWithWord word cs
  | [], _ => rfl
  | _ :: _, [] => rfl
  | p :: word, c :: cs => by
    rw [List.map_cons, startsWithWord, startsWithWord, baseLetter?_toLower, startsWithWord_toLower word cs]

theorem flatMap_lowerLetter_toLower (cs : List Char) :
    (cs.map Char.toLower).flatMap lowerLetter = cs.flatMap lowerLetter := by
  rw [List.flatMap_map]
  exact List.flatMap_congr fun c _ => lowerLetter_toLower c

end Text

/-! ## Texts and their names -/

namespace Token

/-- The name behind the sigil that a text starts with. -/
def nameAt? : List Char → Option (List Char)
  | '@' :: rest => nameAfterSigil? isWordChar rest
  | '#' :: rest => nameAfterSigil? isFlagChar rest
  | _ => none

/-- **A place in a name**: the name of a variable or a flag starts before it and goes on at it. -/
def InName (text : List Char) (i : Nat) : Prop :=
  ∃ start, start < i ∧ ∃ name ∈ nameAt? (text.drop start), i ≤ start + name.length

instance (text : List Char) (i : Nat) : Decidable (InName text i) :=
  inferInstanceAs (Decidable (∃ start, start < i ∧ ∃ name ∈ nameAt? (text.drop start), i ≤ start + name.length))

/-- **A text and another** that differs from it in the case of Latin letters only, and in no name. -/
structure Recased (text other : List Char) : Prop where
  letters : other.map Char.toLower = text.map Char.toLower
  names : ∀ i, InName text i → other[i]? = text[i]?

theorem recased_iff {text other : List Char} : Recased text other ↔
    other.map Char.toLower = text.map Char.toLower ∧ ∀ i < text.length, InName text i → other[i]? = text[i]? := by
  constructor
  · exact fun h => ⟨h.letters, fun i _ => h.names i⟩
  · rintro ⟨hletters, hnames⟩
    refine ⟨hletters, fun i hname => ?_⟩
    by_cases hi : i < text.length
    · exact hnames i hi hname
    · have hlength := congrArg List.length hletters
      rw [List.length_map, List.length_map] at hlength
      rw [List.getElem?_eq_none (by omega), List.getElem?_eq_none (by omega)]

instance (text other : List Char) : Decidable (Recased text other) := decidable_of_iff' _ recased_iff

section Recased

variable {text other : List Char}

theorem Recased.length (h : Recased text other) : other.length = text.length := by
  have hlength := congrArg List.length h.letters
  rwa [List.length_map, List.length_map] at hlength

/-- What stands behind a place is recased as well. -/
theorem Recased.drop (h : Recased text other) (n : Nat) : Recased (text.drop n) (other.drop n) where
  letters := by rw [List.map_drop, List.map_drop, h.letters]
  names := by
    rintro i ⟨start, hlt, name, hname, hle⟩
    rw [List.drop_drop] at hname
    rw [List.getElem?_drop, List.getElem?_drop]
    exact h.names (n + i) ⟨n + start, by omega, name, hname, by omega⟩

/-- What a text says whatever the case of its letters, a recased one says as well. -/
theorem Recased.apply {α : Type} {f : List Char → α} (hf : ∀ cs, f (cs.map Char.toLower) = f cs)
    (h : Recased text other) : f other = f text := by
  rw [← hf other, h.letters, hf]

theorem nameAfterSigil?_toLower {continues : Char → Bool} (h : ∀ c, continues c.toLower = continues c)
    (cs : List Char) :
    nameAfterSigil? continues (cs.map Char.toLower) = (nameAfterSigil? continues cs).map (List.map Char.toLower) := by
  cases cs with
  | nil => rfl
  | cons c rest =>
    have hstart : isNameStart c.toLower = isNameStart c := apply_toLower _ (by decide) c
    rw [List.map_cons, nameAfterSigil?, nameAfterSigil?, hstart, takeWhile_toLower h]
    split <;> rfl

theorem nameAt?_toLower (cs : List Char) :
    nameAt? (cs.map Char.toLower) = (nameAt? cs).map (List.map Char.toLower) := by
  have hflag : ∀ c, isFlagChar c.toLower = isFlagChar c := apply_toLower _ (by decide)
  cases cs with
  | nil => rfl
  | cons c rest =>
    by_cases hvar : c = '@'
    · subst hvar
      exact nameAfterSigil?_toLower isWordChar_toLower rest
    by_cases hsigil : c = '#'
    · subst hsigil
      exact nameAfterSigil?_toLower hflag rest
    have hvar' : c.toLower ≠ '@' := mt (toLower_eq_iff rfl).1 hvar
    have hsigil' : c.toLower ≠ '#' := mt (toLower_eq_iff rfl).1 hsigil
    simp [nameAt?, hvar, hsigil, hvar', hsigil']

theorem prefix_of_nameAt? {cs name : List Char} (h : nameAt? cs = some name) : name <+: cs.tail := by
  unfold nameAt? at h
  split at h
  · exact prefix_of_nameAfterSigil? h
  · exact prefix_of_nameAfterSigil? h
  · cases h

/-- **A recased text starts with the same name**, if there is one. -/
theorem Recased.nameAt? (h : Recased text other) : nameAt? other = nameAt? text := by
  have hlower : (Token.nameAt? other).map (List.map Char.toLower) =
      (Token.nameAt? text).map (List.map Char.toLower) := by
    rw [← nameAt?_toLower, h.letters, nameAt?_toLower]
  cases htext : Token.nameAt? text with
  | none =>
    rw [htext] at hlower
    exact Option.map_eq_none_iff.1 hlower
  | some name =>
    rw [htext] at hlower
    obtain ⟨renamed, hother, hmap⟩ := Option.map_eq_some_iff.1 hlower
    have hlength : renamed.length = name.length := by
      rw [← List.length_map Char.toLower, hmap, List.length_map]
    -- the names are as long as each other, and their characters stand at places in the name
    rw [hother, Option.some.injEq, List.prefix_iff_eq_take.1 (prefix_of_nameAt? hother),
      List.prefix_iff_eq_take.1 (prefix_of_nameAt? htext), hlength]
    refine List.ext_getElem? fun i => ?_
    rw [List.getElem?_take, List.getElem?_take]
    split
    · rename_i hi
      rw [List.getElem?_tail, List.getElem?_tail]
      exact h.names (i + 1) ⟨0, Nat.succ_pos i, name, htext, by omega⟩
    · rfl

end Recased

/-! ## Tokens -/

theorem spanEnd?_toLower (cs : List Char) : spanEnd? (cs.map Char.toLower) = spanEnd? cs := by
  match cs with
  | [] => rfl
  | [c] => simp [spanEnd?]
  | c :: d :: rest =>
    by_cases hhyphens : c = '-' ∧ d = '-'
    · obtain ⟨rfl, rfl⟩ := hhyphens
      change spanEnd? ('-' :: '-' :: rest.map Char.toLower) = _
      rw [spanEnd?, spanEnd?, takeDigits_toLower]
    · have hhyphens' : ¬ (c.toLower = '-' ∧ d.toLower = '-') := by rwa [toLower_eq_iff rfl, toLower_eq_iff rfl]
      simp only [List.map_cons]
      unfold spanEnd?
      split <;> simp_all

theorem numberPiece_toLower (afterLetter : Bool) (c : Char) (rest : List Char) :
    numberPiece afterLetter c (rest.map Char.toLower) = numberPiece afterLetter c rest := by
  simp only [numberPiece, takeDigits_toLower, dropWhile_toLower isDigit_toLower, spanEnd?_toLower]

theorem wordLength?_toLower (cs : List Char) : wordLength? (cs.map Char.toLower) = wordLength? cs := by
  simp only [wordLength?, startsWithWord_toLower]

theorem wordLexeme_toLower (word : List Char) : wordLexeme (word.map Char.toLower) = wordLexeme word := by
  rw [wordLexeme, wordLexeme, flatMap_lowerLetter_toLower]

/-- Where no name starts, the first piece of a text hangs on no case. -/
theorem firstPiece_toLower (afterLetter : Bool) {c : Char} (hvar : c ≠ '@') (hflag : c ≠ '#') (rest : List Char) :
    (firstPiece afterLetter c.toLower (rest.map Char.toLower)).toOption = (firstPiece afterLetter c rest).toOption := by
  have hvar' : c.toLower ≠ '@' := mt (toLower_eq_iff rfl).1 hvar
  have hflag' : c.toLower ≠ '#' := mt (toLower_eq_iff rfl).1 hflag
  have hbecomes : (decide (c.toLower = ':') && (rest.map Char.toLower).head? == some '=') =
      (decide (c = ':') && rest.head? == some '=') := by
    rw [Bool.eq_iff_iff, Bool.and_eq_true, Bool.and_eq_true, decide_eq_true_eq, decide_eq_true_eq, beq_iff_eq,
      beq_iff_eq, toLower_eq_iff rfl]
    cases rest with
    | nil => rfl
    | cons d rest => simp [toLower_eq_iff (c := d) (s := '=') rfl]
  have hsymbol : Symbol.ofChar? c.toLower = Symbol.ofChar? c := apply_toLower _ (by decide) c
  have hlength := wordLength?_toLower (c :: rest)
  have hlexeme : ∀ length, wordLexeme ((c.toLower :: rest.map Char.toLower).take length) =
      wordLexeme ((c :: rest).take length) := by
    intro length
    rw [← List.map_cons, ← List.map_take, wordLexeme_toLower]
  rw [List.map_cons] at hlength
  unfold firstPiece
  rw [isBlank_toLower, isDigit_toLower, if_neg hvar, if_neg hvar', if_neg hflag, if_neg hflag', hbecomes, hlength,
    hsymbol, takeWhile_toLower isBlank_toLower, List.length_map, numberPiece_toLower]
  split
  · rfl
  split
  · rename_i hdigit
    rw [toLower_of_isDigit hdigit]
  split
  · rfl
  split
  · rw [hlexeme]
  · split <;> rfl

/-- **The first piece of a recased text** is the same, if there is one. -/
theorem firstPiece_recased {c d : Char} {rest others : List Char} (h : Recased (c :: rest) (d :: others))
    (afterLetter : Bool) : (firstPiece afterLetter d others).toOption = (firstPiece afterLetter c rest).toOption := by
  obtain ⟨hchar, hrest⟩ := List.cons.inj h.letters
  have hname := h.nameAt?
  by_cases hvar : c = '@'
  · subst hvar
    obtain rfl : d = '@' := (toLower_eq_iff rfl).1 hchar
    have hname : nameAfterSigil? isWordChar others = nameAfterSigil? isWordChar rest := hname
    simp only [firstPiece, hname]
    rfl
  by_cases hflag : c = '#'
  · subst hflag
    obtain rfl : d = '#' := (toLower_eq_iff rfl).1 hchar
    have hname : nameAfterSigil? isFlagChar others = nameAfterSigil? isFlagChar rest := hname
    simp only [firstPiece, hname]
    rfl
  have hvar' : d ≠ '@' := by rwa [Ne, ← toLower_eq_iff (s := '@') rfl, hchar, toLower_eq_iff rfl]
  have hflag' : d ≠ '#' := by rwa [Ne, ← toLower_eq_iff (s := '#') rfl, hchar, toLower_eq_iff rfl]
  rw [← firstPiece_toLower afterLetter hvar' hflag', hchar, hrest, firstPiece_toLower afterLetter hvar hflag]

theorem endsInLetter_toLower (c : Char) (extra : List Char) :
    endsInLetter c.toLower (extra.map Char.toLower) = endsInLetter c extra := by
  have hletter : ∀ d, isLetter d.toLower = isLetter d := fun d => by rw [isLetter, isLetter, baseLetter?_toLower]
  rw [endsInLetter, endsInLetter, List.getLastD_eq_getLast?, List.getLastD_eq_getLast?, List.getLast?_map]
  cases extra.getLast? <;> exact hletter _

/-- A text is scanned by its first piece, or stops the scanner at once. -/
theorem scanFrom_place (afterLetter : Bool) (position : Nat) (c : Char) (rest : List Char) :
    (scanFrom afterLetter position (c :: rest)).mapError SyntaxError.position =
      match (firstPiece afterLetter c rest).toOption with
      | none => .error position
      | some piece => ((scanFrom (endsInLetter c (rest.take piece.extra)) (position + 1 + piece.extra)
          (rest.drop piece.extra)).mapError SyntaxError.position).map (piece.tokens position ++ ·) := by
  rw [scanFrom]
  cases hpiece : firstPiece afterLetter c rest with
  | error fault => rfl
  | ok piece =>
    simp only [Except.toOption]
    cases scanFrom (endsInLetter c (rest.take piece.extra)) (position + 1 + piece.extra) (rest.drop piece.extra) with
    | error error => rfl
    | ok tokens => cases hlexeme : piece.lexeme <;> simp [Except.mapError, Except.map, Piece.tokens, hlexeme]

/-- **A recased text has the same tokens**, or it stops the scanner at the same place. -/
theorem scanFrom_recased : ∀ (text other : List Char), Recased text other → ∀ (afterLetter : Bool) (position : Nat),
    (scanFrom afterLetter position other).mapError SyntaxError.position =
      (scanFrom afterLetter position text).mapError SyntaxError.position
  | [], [], _, _, _ => rfl
  | [], d :: others, h, _, _ => absurd h.length (by simp)
  | c :: rest, [], h, _, _ => absurd h.length (by simp)
  | c :: rest, d :: others, h, afterLetter, position => by
    rw [scanFrom_place, scanFrom_place, firstPiece_recased h afterLetter]
    cases (firstPiece afterLetter c rest).toOption with
    | none => rfl
    | some piece =>
      obtain ⟨hchar, hrest⟩ := List.cons.inj h.letters
      have hends : endsInLetter d (others.take piece.extra) = endsInLetter c (rest.take piece.extra) := by
        rw [← endsInLetter_toLower, hchar, List.map_take, hrest, ← List.map_take, endsInLetter_toLower]
      have hbehind : Recased (rest.drop piece.extra) (others.drop piece.extra) := h.drop (piece.extra + 1)
      simp only [hends, scanFrom_recased _ _ hbehind]
  termination_by text => text.length
  decreasing_by simp only [List.length_cons, List.length_drop]; omega

end Token

namespace Command

open Token

theorem parse_place (text : String) : (parse text).mapError SyntaxError.position =
    if text.toList.all isBlank then .error 0
    else ((scan text.toList).mapError SyntaxError.position).bind fun tokens =>
      ((ofTokens tokens).mapError (Stop.toError text.toList.length)).mapError SyntaxError.position := by
  unfold parse
  dsimp only
  split
  · rfl
  · cases scan text.toList <;> rfl

/-- **A recased text is the same command**, or it is refused at the same place. -/
theorem parse_place_recased {text other : String} (h : Recased text.toList other.toList) :
    (parse other).mapError SyntaxError.position = (parse text).mapError SyntaxError.position := by
  have hblank : other.toList.all isBlank = text.toList.all isBlank := by
    refine h.apply (f := fun cs => cs.all isBlank) fun cs => ?_
    rw [List.all_map, show isBlank ∘ Char.toLower = isBlank from funext isBlank_toLower]
  rw [parse_place, parse_place, hblank, scan, scanFrom_recased _ _ h, h.length]
  rfl

end Command

/-! ## The order of suffixes -/

namespace SuffixOrder

/-- A cut of a text in lower case. -/
def Cut.lower (cut : Cut) : Cut := ⟨cut.base.map Char.toLower, cut.after.map Char.toLower⟩

theorem digitsThen?_toLower {isLetter : Char → Bool} (h : ∀ c, isLetter c.toLower = isLetter c) (cs : List Char) :
    digitsThen? isLetter (cs.map Char.toLower) = (digitsThen? isLetter cs).map Cut.lower := by
  rw [digitsThen?, digitsThen?, takeWhile_toLower isDigit_toLower, dropWhile_toLower isDigit_toLower]
  cases cs.dropWhile isDigit with
  | nil => rfl
  | cons c rest =>
    simp only [List.map_cons, h]
    split <;> simp [Cut.lower]

theorem thenDigits?_lower (cut : Cut) : thenDigits? cut.lower = (thenDigits? cut).map Cut.lower := by
  rw [thenDigits?, thenDigits?, Cut.lower]
  simp only [takeWhile_toLower isDigit_toLower, dropWhile_toLower isDigit_toLower]
  cases cut.after.takeWhile isDigit with
  | nil => rfl
  | cons c digits => simp [Cut.lower]

theorem cutRepeat_toLower (cs : List Char) : cutRepeat (cs.map Char.toLower) = (cutRepeat cs).lower := by
  have hletter : ∀ c : Char, (c.toLower == 'x' || c.toLower == 'X') = (c == 'x' || c == 'X') :=
    apply_toLower (fun c => c == 'x' || c == 'X') (by decide)
  rw [cutRepeat, cutRepeat, takeWhile_toLower isDigit_toLower, digitsThen?_toLower hletter]
  cases cs.takeWhile isDigit with
  | nil => rfl
  | cons c digits => cases digitsThen? (fun c => c == 'x' || c == 'X') cs <;> rfl

theorem facesCut?_lower (cut : Cut) : facesCut? cut.lower = (facesCut? cut).map Cut.lower := by
  have hdigits := thenDigits?_lower cut
  obtain ⟨base, after⟩ := cut
  cases after with
  | nil => exact hdigits
  | cons c rest =>
    by_cases hc : c = '%'
    · subst hc
      simp [facesCut?, Cut.lower]
    · have hc' : c.toLower ≠ '%' := mt (toLower_eq_iff rfl).1 hc
      simpa [facesCut?, Cut.lower, hc, hc'] using hdigits

theorem acingCut_lower (cut : Cut) : acingCut cut.lower = (acingCut cut).lower := by
  obtain ⟨base, after⟩ := cut
  cases after with
  | nil => rfl
  | cons c rest =>
    by_cases hc : c = '!'
    · subst hc
      simp [acingCut, Cut.lower]
    · have hc' : c.toLower ≠ '!' := mt (toLower_eq_iff rfl).1 hc
      simp [acingCut, Cut.lower, hc, hc']

theorem wildCut_lower (cut : Cut) : wildCut cut.lower = (wildCut cut).lower := by
  obtain ⟨base, after⟩ := cut
  cases after with
  | nil => rfl
  | cons c rest =>
    have hdigits := thenDigits?_lower ⟨base ++ [c], rest⟩
    simp only [Cut.lower, List.map_append, List.map_cons, List.map_nil] at hdigits
    simp only [wildCut, Cut.lower, List.map_cons, toLower_toLower, hdigits]
    split
    · cases thenDigits? ⟨base ++ [c], rest⟩ <;> rfl
    · rfl

theorem letterThen?_toLower (p : Char) (cs : List Char) :
    digitsThen? (fun c => c.toLower == p) (cs.map Char.toLower) =
      (digitsThen? (fun c => c.toLower == p) cs).map Cut.lower :=
  digitsThen?_toLower (fun c => by rw [toLower_toLower]) cs

/-- A base is cut off in any case as in small letters, if what comes after its letter is. -/
theorem CutsAfter.toLower {p : Char} {next : Cut → Option Cut} {cutter : List Char → Option Cut}
    (h : CutsAfter p next cutter) (hnext : ∀ cut : Cut, next cut.lower = (next cut).map Cut.lower) (cs : List Char) :
    cutter (cs.map Char.toLower) = (cutter cs).map Cut.lower := by
  rw [h, h, letterThen?_toLower]
  cases digitsThen? (fun c => c.toLower == p) cs with
  | none => rfl
  | some cut => exact hnext cut

theorem genericCut?_lower (cut : Cut) : genericCut? cut.lower = (genericCut? cut).map Cut.lower := by
  rw [genericCut?, genericCut?, facesCut?_lower]
  cases facesCut? cut with
  | none => rfl
  | some sided => exact congrArg some (acingCut_lower sided)

theorem savageCut?_lower (cut : Cut) : savageCut? cut.lower = (savageCut? cut).map Cut.lower := by
  rw [savageCut?, savageCut?, thenDigits?_lower]
  cases thenDigits? cut with
  | none => rfl
  | some sided => exact congrArg some (wildCut_lower sided)

theorem cutBase?_toLower (cs : List Char) :
    cutBase? (cs.map Char.toLower) = (cutBase? cs).map fun cut => (cut.1.lower, cut.2) := by
  rw [cutBase?, cutBase?, cutsAfter_generic.toLower genericCut?_lower, cutsAfter_savage.toLower savageCut?_lower,
    cutsAfter_extras.toLower thenDigits?_lower]
  cases cutGeneric? cs with
  | some cut => rfl
  | none =>
    cases cutSavage? cs with
    | some cut => rfl
    | none => cases cutExtras? cs <;> rfl

theorem withDigits?_toLower (kind : Kind) (c : Char) (rest : List Char) :
    withDigits? kind c (rest.map Char.toLower) = withDigits? kind c rest := by
  rw [withDigits?, withDigits?, takeDigits_toLower]

/-- **The suffix at the head of a text** hangs on no case. -/
theorem suffix?_toLower (c : Char) (rest : List Char) :
    suffix? c.toLower (rest.map Char.toLower) = suffix? c rest := by
  have hword : ∀ word, startsWithWord word (c.toLower :: rest.map Char.toLower) = startsWithWord word (c :: rest) :=
    fun word => startsWithWord_toLower word (c :: rest)
  have hlower : ∀ n, ((c.toLower :: rest.map Char.toLower).take n).flatMap lowerLetter =
      ((c :: rest).take n).flatMap lowerLetter := by
    intro n
    rw [← List.map_cons, ← List.map_take, flatMap_lowerLetter_toLower]
  have hdigits : ∀ n, ((rest.map Char.toLower).drop n).takeWhile isDigit = (rest.drop n).takeWhile isDigit := by
    intro n
    rw [← List.map_drop, takeDigits_toLower]
  have hmodifier : (if c.toLower = '+' || c.toLower = '-' then withDigits? .modifier c.toLower rest else none) =
      if c = '+' || c = '-' then withDigits? .modifier c rest else none := by
    simp only [toLower_eq_iff (s := '+') rfl, toLower_eq_iff (s := '-') rfl]
    split
    · rename_i hsign
      rw [Bool.or_eq_true, decide_eq_true_eq, decide_eq_true_eq] at hsign
      obtain rfl | rfl := hsign <;> rfl
    · rfl
  unfold suffix?
  simp only [hword, hlower, hdigits, baseLetter?_toLower, withDigits?_toLower, hmodifier]

theorem splitFrom_toLower (allowKeep : Bool) (parts : Parts) (cs : List Char) :
    splitFrom allowKeep parts (cs.map Char.toLower) = splitFrom allowKeep parts cs := by
  fun_induction splitFrom allowKeep parts cs with
  | case1 parts => rw [List.map_nil, splitFrom]
  | case2 parts c rest hfound => rw [List.map_cons, splitFrom, suffix?_toLower, hfound]
  | case3 parts c rest found hfound hrefused =>
    rw [List.map_cons, splitFrom, suffix?_toLower, hfound]
    exact if_pos hrefused
  | case4 parts c rest found hfound hnew ih =>
    rw [List.map_cons, splitFrom, suffix?_toLower, hfound]
    refine (if_neg hnew).trans ?_
    rw [← List.map_drop, ih]

/-- **Texts that differ in the case of letters only** differ in it only with their suffixes in order. -/
theorem reorder?_toLower (cs : List Char) :
    (reorder? (cs.map Char.toLower)).map (List.map Char.toLower) = (reorder? cs).map (List.map Char.toLower) := by
  have hbase : ∀ cs : List Char, (cs.map Char.toLower).map Char.toLower = cs.map Char.toLower := by
    intro cs
    rw [List.map_map, show Char.toLower ∘ Char.toLower = Char.toLower from funext toLower_toLower]
  -- the suffixes come out the same, and what stands before them comes out as typed
  unfold reorder?
  simp only [cutRepeat_toLower]
  simp only [Cut.lower, cutBase?_toLower]
  cases cutBase? (cutRepeat cs).after with
  | none => rfl
  | some cut =>
    simp only [Option.map_some, Option.bind_eq_bind, Option.bind_some, splitFrom_toLower]
    cases splitFrom cut.2 .empty cut.1.after with
    | none => rfl
    | some parts => simp only [Option.bind_some, Option.map_some, List.map_append, hbase]

/-! ## Texts without sigils -/

/-- **A text without sigils**, in which no name can start. -/
def NoSigil (cs : List Char) : Prop := ∀ c ∈ cs, c ≠ '@' ∧ c ≠ '#'

theorem NoSigil.append {cs ds : List Char} (hcs : NoSigil cs) (hds : NoSigil ds) : NoSigil (cs ++ ds) :=
  List.forall_mem_append.2 ⟨hcs, hds⟩

theorem NoSigil.not_inName {cs : List Char} (h : NoSigil cs) (i : Nat) : ¬ Token.InName cs i := by
  rintro ⟨start, -, name, hname, -⟩
  have hhead : ∀ c, (cs.drop start).head? = some c → c ≠ '@' ∧ c ≠ '#' := fun c hc =>
    h c (List.mem_of_mem_drop (List.mem_of_head? hc))
  unfold Token.nameAt? at hname
  split at hname
  · rename_i rest hrest
    exact (hhead '@' (by rw [hrest]; rfl)).1 rfl
  · rename_i rest hrest
    exact (hhead '#' (by rw [hrest]; rfl)).2 rfl
  · cases hname

theorem noSigil_of_isDigit {c : Char} (h : isDigit c = true) : c ≠ '@' ∧ c ≠ '#' := by
  constructor <;> (rintro rfl; exact absurd h (by decide))

/-- A form of a letter is no sigil. -/
theorem noSigil_of_baseLetter? {c p : Char} (h : baseLetter? c = some p) : c ≠ '@' ∧ c ≠ '#' := by
  constructor <;> (rintro rfl; exact absurd h (by rw [show baseLetter? _ = none by decide]; exact nofun))

theorem noSigil_written (w : Written) : NoSigil w.chars := by
  cases w with
  | number n => exact fun c hc => noSigil_of_isDigit (n.digits c hc)
  | word w =>
    intro c hc
    obtain ⟨p, -, hp⟩ := mem_of_startsWithWord w.form w.fits hc
    exact noSigil_of_baseLetter? hp
  | sign s => cases s <;> (intro c hc; cases List.mem_singleton.1 hc; decide)

theorem noSigil_text (ws : List Written) : NoSigil (text ws) := by
  intro c hc
  obtain ⟨w, -, hw⟩ := List.mem_flatMap.1 hc
  exact noSigil_written w c hw

/-- No character becomes a sigil in lower case. -/
theorem noSigil_lowerLetter {c : Char} (h : c ≠ '@' ∧ c ≠ '#') : NoSigil (lowerLetter c) := by
  unfold lowerLetter
  split
  · exact List.forall_mem_singleton.2 (by decide)
  split
  · exact List.forall_mem_cons.2 ⟨by decide, List.forall_mem_singleton.2 (by decide)⟩
  · intro d hd
    rw [List.mem_singleton.1 hd, Ne, Ne, toLower_eq_iff rfl, toLower_eq_iff rfl]
    exact h

theorem noSigil_small (affix : Affix) : NoSigil affix.small := by
  have hdigits : ∀ (n : Digits) {c : Char}, c ≠ '@' ∧ c ≠ '#' → NoSigil (c :: n.chars) := fun n _ hc =>
    List.forall_mem_cons.2 ⟨hc, noSigil_written (.number n)⟩
  cases affix with
  | keep word count =>
    refine NoSigil.append (fun c hc => ?_) (noSigil_text _)
    obtain ⟨d, hd, hc⟩ := List.mem_flatMap.1 hc
    exact noSigil_lowerLetter (noSigil_written (.word word.toWord) d hd) c hc
  | target letter n => exact hdigits n (by decide)
  | interval letter n => exact hdigits n (by decide)
  | modifier sign n => exact hdigits n (by cases sign <;> decide)

/-- **A text with its suffixes in order has no sigil.** -/
theorem noSigil_reorder? {cs out : List Char} (h : reorder? cs = some out) : NoSigil out := by
  obtain ⟨roll, rfl⟩ := exists_typed h
  rw [reorder?_typed] at h
  cases h
  refine (noSigil_text roll.head).append fun c hc => ?_
  obtain ⟨affix, -, hc⟩ := List.mem_flatMap.1 hc
  exact noSigil_small affix c hc

/-- **A recased text is recased with its suffixes in order.** -/
theorem normalize_recased {text other : String} (h : Token.Recased text.toList other.toList) :
    Token.Recased (normalize text).toList (normalize other).toList := by
  have hlower : (reorder? other.toList).map (List.map Char.toLower) =
      (reorder? text.toList).map (List.map Char.toLower) :=
    h.apply (f := fun cs => (reorder? cs).map (List.map Char.toLower)) reorder?_toLower
  unfold normalize
  cases htext : reorder? text.toList with
  | none =>
    rw [htext] at hlower
    rw [Option.map_eq_none_iff.1 hlower]
    exact h
  | some out =>
    rw [htext] at hlower
    obtain ⟨recased, hother, hmap⟩ := Option.map_eq_some_iff.1 hlower
    rw [hother, String.toList_ofList, String.toList_ofList]
    exact ⟨hmap, fun i hname => absurd hname ((noSigil_reorder? htext).not_inName i)⟩

end SuffixOrder

/-! ## Main result -/

namespace Command

open SuffixOrder

/-- **The case of letters outside names is of no matter**: of two texts that differ in nothing else, both are the same
command, or both are refused at the same place; and so are they with their suffixes in order. -/
theorem parse_recased {text other : String} (h : Token.Recased text.toList other.toList) :
    (parse other).mapError SyntaxError.position = (parse text).mapError SyntaxError.position ∧
      (parse (normalize other)).mapError SyntaxError.position =
        (parse (normalize text)).mapError SyntaxError.position :=
  ⟨parse_place_recased h, parse_place_recased (normalize_recased h)⟩

theorem parse_recased_capitals :
    -- a name in the text
    (Token.Recased "2s8T4+@Str".toList "2S8t4+@Str".toList ∧ (parse "2s8T4+@Str").isOk = true ∧
      (parse "2S8t4+@Str").mapError SyntaxError.position = (parse "2s8T4+@Str").mapError SyntaxError.position ∧
      (parse (normalize "2S8t4+@Str")).mapError SyntaxError.position =
        (parse (normalize "2s8T4+@Str")).mapError SyntaxError.position) ∧
    -- suffixes that are no command before they are put in order
    (Token.Recased "4D6t9K3".toList "4d6T9k3".toList ∧ (parse "4D6t9K3").isOk = false ∧
      (parse (normalize "4D6t9K3")).isOk = true ∧
      (parse "4d6T9k3").mapError SyntaxError.position = (parse "4D6t9K3").mapError SyntaxError.position ∧
      (parse (normalize "4d6T9k3")).mapError SyntaxError.position =
        (parse (normalize "4D6t9K3")).mapError SyntaxError.position) :=
  ⟨⟨by decide +kernel, by decide +kernel, parse_recased (by decide +kernel)⟩,
    by decide +kernel, by decide +kernel, by decide +kernel, parse_recased (by decide +kernel)⟩

end Command
end TabletopDice
