import TabletopDice.Proofs.SingleRoll.Reading
/-!
# Acceptance — the single rolls that the grammar accepts

The text of a single roll is a command if and only if its suffixes are in the order of the grammar, the words in them
are plain and its numbers are not too long, and then it says what the single roll says (`parse_typed`).
-/
namespace TabletopDice

open Text Token Writing Command

namespace SingleRoll

/-! ## Suffixes in order -/

theorem takeFirst_split {β : Type} (meaning : Affix → Option β) (suffixes : List Affix) : ∃ first : Option Affix,
    suffixes = first.toList ++ (takeFirst meaning suffixes).2 ∧ ∀ affix ∈ first, (meaning affix).isSome := by
  cases suffixes with
  | nil => exact ⟨none, rfl, fun _ h => by cases h⟩
  | cons affix rest =>
    cases hmeaning : meaning affix with
    | none =>
      rw [takeFirst_none hmeaning]
      exact ⟨none, rfl, fun _ h => by cases h⟩
    | some found =>
      rw [takeFirst_some hmeaning]
      refine ⟨some affix, rfl, fun _ h => ?_⟩
      cases h
      rw [hmeaning]
      rfl

/-- A suffix that has the meaning is taken, and the others are left. -/
theorem takeFirst_append {β : Type} {meaning : Affix → Option β} {first : Option Affix} {rest : List Affix}
    (hfirst : ∀ affix ∈ first, (meaning affix).isSome) (hrest : ∀ affix ∈ rest, ¬ (meaning affix).isSome) :
    takeFirst meaning (first.toList ++ rest) = (first.bind meaning, rest) := by
  cases first with
  | none =>
    cases rest with
    | nil => rfl
    | cons affix rest =>
      have hnone := hrest affix List.mem_cons_self
      exact takeFirst_none (Option.not_isSome_iff_eq_none.1 hnone) rest
  | some affix =>
    obtain ⟨found, hfound⟩ := Option.isSome_iff_exists.1 (hfirst affix rfl)
    rw [Option.bind_some, hfound]
    exact takeFirst_some hfound rest

theorem plainKeep?_isSome {affix : Affix} : (affix.plainKeep?).isSome ↔ affix.kind = .keep ∧ affix.Plain := by
  cases affix <;> simp [Affix.plainKeep?, Affix.kind, Affix.Plain, Affix.keep?]

theorem target?_isSome {affix : Affix} : (affix.target?).isSome ↔ affix.kind = .target := by
  cases affix <;> simp [Affix.target?, Affix.kind]

theorem interval?_isSome {affix : Affix} : (affix.interval?).isSome ↔ affix.kind = .interval := by
  cases affix <;> simp [Affix.interval?, Affix.kind]

theorem modifier?_isSome {affix : Affix} : (affix.modifier?).isSome ↔ affix.kind = .modifier := by
  cases affix <;> simp [Affix.modifier?, Affix.kind]

/-- At most one suffix of each kind, one kind after the other, are in order. -/
theorem inOrder_toList {keep target interval modifier : Option Affix} (hkeep : ∀ affix ∈ keep, affix.kind = .keep)
    (htarget : ∀ affix ∈ target, affix.kind = .target) (hinterval : ∀ affix ∈ interval, affix.kind = .interval)
    (hmodifier : ∀ affix ∈ modifier, affix.kind = .modifier) :
    let suffixes := keep.toList ++ (target.toList ++ (interval.toList ++ modifier.toList))
    inOrder suffixes = suffixes := by
  cases keep <;> cases target <;> cases interval <;> cases modifier <;> simp_all [inOrder, pick]

theorem readTarget_split (suffixes : List Affix) : ∃ target interval : Option Affix,
    suffixes = target.toList ++ (interval.toList ++ (readTarget suffixes).2) ∧
      (∀ affix ∈ target, affix.kind = .target) ∧ ∀ affix ∈ interval, affix.kind = .interval := by
  obtain ⟨target, htarget, hkind⟩ := takeFirst_split Affix.target? suffixes
  obtain ⟨interval, hinterval, hkind'⟩ := takeFirst_split Affix.interval? (takeFirst Affix.target? suffixes).2
  refine ⟨target, interval, ?_, fun a h => target?_isSome.1 (hkind a h), fun a h => interval?_isSome.1 (hkind' a h)⟩
  rw [readTarget, ← hinterval, ← htarget]

theorem readBase_split (base : Base) (suffixes : List Affix) : ∃ keep target interval : Option Affix,
    suffixes = keep.toList ++ (target.toList ++ (interval.toList ++ (readBase suffixes base).2)) ∧
      (∀ affix ∈ keep, affix.kind = .keep ∧ affix.Plain) ∧ (∀ affix ∈ target, affix.kind = .target) ∧
      ∀ affix ∈ interval, affix.kind = .interval := by
  cases base with
  | generic count letter faces acing =>
    obtain ⟨keep, hkeep, hplain⟩ := takeFirst_split Affix.plainKeep? suffixes
    obtain ⟨target, interval, hrest, hkinds⟩ := readTarget_split (takeFirst Affix.plainKeep? suffixes).2
    refine ⟨keep, target, interval, ?_, fun a h => plainKeep?_isSome.1 (hplain a h), hkinds⟩
    rw [readBase, ← hrest, ← hkeep]
  | savage | extras =>
    obtain ⟨target, interval, hrest, hkinds⟩ := readTarget_split suffixes
    exact ⟨none, target, interval, hrest, fun a h => (by cases h), hkinds⟩

theorem kind_of_mem_pick {kind : SuffixOrder.Kind} {suffixes : List Affix} :
    ∀ affix ∈ (pick kind suffixes).toList, affix.kind = kind :=
  fun _ h => (pick_kind (Option.mem_toList.1 h)).2

/-- Suffixes in order are read to the modifier. -/
theorem readTarget_inOrder (suffixes : List Affix) :
    readTarget ((pick .target suffixes).toList ++ ((pick .interval suffixes).toList ++
      (pick .modifier suffixes).toList)) = (targetOf suffixes, (pick .modifier suffixes).toList) := by
  have hinterval : takeFirst Affix.interval? ((pick .interval suffixes).toList ++ (pick .modifier suffixes).toList) =
      ((pick .interval suffixes).bind Affix.interval?, (pick .modifier suffixes).toList) := by
    refine takeFirst_append (fun affix h => interval?_isSome.2 (pick_kind h).2) fun affix h => ?_
    rw [interval?_isSome, kind_of_mem_pick affix h]
    decide
  have htarget : takeFirst Affix.target? ((pick .target suffixes).toList ++ ((pick .interval suffixes).toList ++
      (pick .modifier suffixes).toList)) = ((pick .target suffixes).bind Affix.target?,
        (pick .interval suffixes).toList ++ (pick .modifier suffixes).toList) := by
    refine takeFirst_append (fun affix h => target?_isSome.2 (pick_kind h).2) fun affix h => ?_
    rw [target?_isSome]
    rcases List.mem_append.1 h with h | h <;> rw [kind_of_mem_pick affix h] <;> decide
  rw [readTarget, htarget, hinterval]
  rfl

theorem plainKeep?_eq {affix : Affix} (h : affix.Plain) : affix.plainKeep? = affix.keep? := by
  cases affix with
  | keep word count => exact if_pos h
  | _ => rfl

/-- **Suffixes in order are read with the base**, up to the modifier. -/
theorem readBase_inOrder (roll : SingleRoll) (horder : inOrder roll.suffixes = roll.suffixes) (hplain : roll.Plain) :
    readBase roll.suffixes roll.base = (roll.base.term roll.suffixes, (pick .modifier roll.suffixes).toList) := by
  obtain ⟨repeats, base, suffixes, distinct, keeps⟩ := roll
  dsimp only at horder ⊢
  have hsuffixes : (pick .keep suffixes).toList ++ ((pick .target suffixes).toList ++
      ((pick .interval suffixes).toList ++ (pick .modifier suffixes).toList)) = suffixes := by
    rw [← List.append_assoc, ← List.append_assoc]
    exact horder
  have htarget := readTarget_inOrder suffixes
  cases base with
  | generic count letter faces acing =>
    have hkeep : takeFirst Affix.plainKeep? suffixes = ((pick .keep suffixes).bind Affix.keep?,
        (pick .target suffixes).toList ++ ((pick .interval suffixes).toList ++ (pick .modifier suffixes).toList)) := by
      have hpick : (pick .keep suffixes).bind Affix.plainKeep? = (pick .keep suffixes).bind Affix.keep? := by
        cases h : pick .keep suffixes with
        | none => rfl
        | some affix => exact plainKeep?_eq (hplain affix (pick_kind h).1)
      rw [← hpick]
      nth_rewrite 1 [← hsuffixes]
      refine takeFirst_append (fun affix h => plainKeep?_isSome.2 ⟨(pick_kind h).2, hplain affix (pick_kind h).1⟩)
        fun affix h => ?_
      rw [plainKeep?_isSome]
      rcases List.mem_append.1 h with h | h
      · simp [kind_of_mem_pick affix h]
      · rcases List.mem_append.1 h with h | h <;> simp [kind_of_mem_pick affix h]
    rw [readBase, hkeep, htarget]
    rfl
  | savage | extras =>
    have hnone : pick .keep suffixes = none := by
      cases h : pick .keep suffixes with
      | none => rfl
      | some affix => cases keeps affix (pick_kind h).1 (pick_kind h).2
    rw [hnone, Option.toList_none, List.nil_append] at hsuffixes
    rw [hsuffixes] at htarget
    rw [readBase, htarget]
    rfl

theorem takeFirst_modifier (suffixes : List Affix) : takeFirst Affix.modifier? (pick .modifier suffixes).toList =
    ((pick .modifier suffixes).bind Affix.modifier?, []) := by
  have htake : takeFirst Affix.modifier? ((pick .modifier suffixes).toList ++ []) =
      ((pick .modifier suffixes).bind Affix.modifier?, []) :=
    takeFirst_append (fun affix h => modifier?_isSome.2 (pick_kind h).2) fun affix h => by cases h
  rwa [List.append_nil] at htake

/-! ## Reading a single roll -/

variable (roll : SingleRoll)

/-- The suffixes that are left of a single roll after the modifier. -/
def unread : List Affix := (takeFirst Affix.modifier? (readBase roll.suffixes roll.base).2).2

/-- The expression that is read of a single roll whose text ends at the place `finish`. -/
def readExpression (finish : Nat) : Expr :=
  let read := readBase roll.suffixes roll.base
  withModifier finish (.roll read.1 (text (repeatWritten roll.repeats)).length) read.2

/-- **Nothing is left if and only if the suffixes are in order and plain.** -/
theorem unread_nil : roll.unread = [] ↔ inOrder roll.suffixes = roll.suffixes ∧ roll.Plain := by
  constructor
  · intro h
    obtain ⟨keep, target, interval, hsuffixes, hkeep, htarget, hinterval⟩ := readBase_split roll.base roll.suffixes
    obtain ⟨modifier, hmodifier, hkind⟩ := takeFirst_split Affix.modifier? (readBase roll.suffixes roll.base).2
    rw [← unread, h, List.append_nil] at hmodifier
    rw [hmodifier] at hsuffixes
    have horder := inOrder_toList (fun a ha => (hkeep a ha).1) htarget hinterval
      fun a ha => modifier?_isSome.1 (hkind a ha)
    refine ⟨by rw [hsuffixes]; exact horder, fun affix hmem => ?_⟩
    rw [hsuffixes] at hmem
    simp only [List.mem_append, Option.mem_toList] at hmem
    have hother : affix.kind ≠ .keep → affix.Plain := fun hne => by
      cases affix with
      | keep => exact absurd rfl hne
      | _ => trivial
    obtain hmem | hmem | hmem | hmem := hmem
    · exact (hkeep affix hmem).2
    · exact hother (by rw [htarget affix hmem]; decide)
    · exact hother (by rw [hinterval affix hmem]; decide)
    · exact hother (by rw [modifier?_isSome.1 (hkind affix hmem)]; decide)
  · rintro ⟨horder, hplain⟩
    rw [unread, readBase_inOrder roll horder hplain, takeFirst_modifier]

theorem readExpression_inOrder (horder : inOrder roll.suffixes = roll.suffixes) (hplain : roll.Plain) (finish : Nat) :
    roll.readExpression finish = roll.expression finish := by
  rw [readExpression, readBase_inOrder roll horder hplain, withModifier, takeFirst_modifier, expression]
  cases (pick .modifier roll.suffixes).bind Affix.modifier? with
  | none => rfl
  | some modifier =>
    simp [Written.chars, Affix.written, Nat.sub_sub]

/-- The lexemes of a single roll after the repeat count. -/
def rolled : List Written := roll.base.written ++ roll.suffixes.flatMap Affix.written

theorem written_eq : roll.written = repeatWritten roll.repeats ++ roll.rolled := List.append_assoc ..

theorem length_typed : roll.typed.length = (text (repeatWritten roll.repeats)).length + (text roll.rolled).length := by
  rw [typed, written_eq, text_append, List.length_append]

/-- **A single roll is read as an expression**, with the suffixes that are left after it. -/
theorem expr_rolled : expr maxNesting (tokens roll.typed.length roll.rolled) =
    .ok (roll.readExpression roll.typed.length, suffixTokens roll.typed.length roll.unread) := by
  obtain ⟨-, hassignment, hsigned⟩ := opens_base roll.typed.length roll.base (roll.suffixes.flatMap Affix.written)
  have hkinds : ((readBase roll.suffixes roll.base).2.map Affix.kind).Nodup := by
    obtain ⟨keep, target, interval, hsuffixes, -⟩ := readBase_split roll.base roll.suffixes
    refine List.Nodup.sublist (List.Sublist.map _ ?_) roll.distinct
    nth_rewrite 2 [hsuffixes]
    exact (List.sublist_append_right ..).trans <| (List.sublist_append_right ..).trans <| List.sublist_append_right ..
  have hplace : roll.typed.length - (text roll.rolled).length = (text (repeatWritten roll.repeats)).length := by
    rw [length_typed, Nat.add_sub_cancel]
  -- one level is used for the expression and one for the modifier
  obtain ⟨levels, hlevels⟩ : ∃ levels, maxNesting = levels + 2 := ⟨48, rfl⟩
  have hoperand := multiplicative_idle hsigned (primary_base roll.typed.length (levels + 1) roll.base roll.suffixes)
    (starts_suffixTokens _ _)
  rw [← rolled] at hassignment
  rw [← rolled, hplace] at hoperand
  rw [hlevels, expr_sum hassignment, additive, hoperand]
  exact additiveChain_suffixes roll.typed.length hkinds levels _

/-- **A single roll is read as a statement**, with the suffixes that are left after it. -/
theorem statement_written : Command.statement (tokens roll.typed.length roll.written) =
    .ok (repeated (roll.readExpression roll.typed.length) roll.repeats,
      suffixTokens roll.typed.length roll.unread) := by
  have hread := roll.expr_rolled
  have hopens := (opens_base roll.typed.length roll.base (roll.suffixes.flatMap Affix.written)).1
  rw [← rolled] at hopens
  have hlength := roll.length_typed
  rw [written_eq]
  cases hrepeats : roll.repeats with
  | none =>
    rw [hrepeats, repeatWritten, text_nil, List.length_nil, Nat.zero_add] at hlength
    rw [repeatWritten, List.nil_append]
    obtain ⟨w, ws, hrolled⟩ : ∃ w ws, roll.rolled = w :: ws := by
      cases h : roll.rolled with
      | nil =>
        rw [h] at hopens
        cases hopens
      | cons w ws => exact ⟨w, ws, rfl⟩
    have hhead : (tokens roll.typed.length roll.rolled).head? = some ⟨w.lexeme, 0⟩ := by
      rw [hlength, hrolled, tokens, Nat.sub_self]
      rfl
    exact (statement_once hopens (.of_eq hread) hhead).1 (Nat.zero_le _)
  | some repeats =>
    obtain ⟨count, letter⟩ := repeats
    have htokens : tokens roll.typed.length (repeatWritten (some (count, letter)) ++ roll.rolled) =
        ⟨.number count.chars, 0⟩ :: ⟨.keyword .x, roll.typed.length - (text (.word letter.word :: roll.rolled)).length⟩ ::
          tokens roll.typed.length roll.rolled := by
      have hplace : roll.typed.length - (text (repeatWritten (some (count, letter)) ++ roll.rolled)).length = 0 := by
        rw [← hrepeats, ← written_eq, ← typed, Nat.sub_self]
      rw [← lexeme_letter letter, ← hplace]
      rfl
    rw [htokens, Command.statement, repetition_expr hopens, hread]
    rfl

/-! ## Single rolls that are commands -/

theorem suffixTokens_eq_nil {finish : Nat} {suffixes : List Affix} (h : suffixTokens finish suffixes = []) :
    suffixes = [] := by
  cases suffixes with
  | nil => rfl
  | cons affix rest => cases affix <;> cases h

/-- **The tokens of a single roll are a command** if and only if its suffixes are in order and plain. -/
theorem ofTokens_written {c : Command} : ofTokens (tokens roll.typed.length roll.written) = .ok c ↔
    (inOrder roll.suffixes = roll.suffixes ∧ roll.Plain) ∧ c = ⟨roll.statement roll.typed.length, []⟩ := by
  rw [ofTokens, command_eq, statement_written]
  have hidle := starts_suffixTokens roll.typed.length roll.unread
  cases hleft : suffixTokens roll.typed.length roll.unread with
  | nil =>
    have hread := roll.unread_nil.1 (suffixTokens_eq_nil hleft)
    rw [readExpression_inOrder roll hread.1 hread.2]
    change Except.ok (⟨roll.statement roll.typed.length, []⟩ : Command) = .ok c ↔ _
    rw [Except.ok.injEq, eq_comm, and_iff_right hread]
  | cons t ts =>
    rw [hleft] at hidle
    have hleft' : roll.unread ≠ [] := by
      intro hnil
      rw [hnil] at hleft
      cases hleft
    refine ⟨fun h => ?_, fun h => absurd (roll.unread_nil.2 h.1) hleft'⟩
    obtain ⟨⟨read, rest⟩, hcommand, h⟩ := Failure.bind_ok h
    obtain ⟨⟨first, after⟩, hfirst, hcommand⟩ := Failure.bind_ok hcommand
    cases hfirst
    unfold afterItem at hcommand
    split at hcommand
    · rename_i hhead
      cases hhead
      cases hidle _ rfl
    · cases hcommand
      rename_i hhead
      cases hhead
      cases h

/-- **The text of a single roll is a command** if and only if its suffixes are in order and plain and its numbers are
not too long. -/
theorem parse_typed {c : Command} : parse (String.ofList roll.typed) = .ok c ↔
    roll.Short ∧ (inOrder roll.suffixes = roll.suffixes ∧ roll.Plain) ∧
      c = ⟨roll.statement roll.typed.length, []⟩ := by
  rw [parse_iff, String.toList_ofList, ← ofTokens_written]
  constructor
  · rintro ⟨ts, hscan, hread⟩
    obtain ⟨hshort, rfl⟩ := (scan_typed roll).1 hscan
    exact ⟨hshort, hread⟩
  · rintro ⟨hshort, hread⟩
    exact ⟨_, (scan_typed roll).2 ⟨hshort, rfl⟩, hread⟩

end SingleRoll

end TabletopDice
