import TabletopDice.Proofs.Faults
import TabletopDice.Proofs.Joining
import TabletopDice.Proofs.SingleRoll.Acceptance
import TabletopDice.Proofs.SingleRoll.Splitting
/-!
# Normalization — what putting the suffixes in order does to a text

A text whose suffixes are put in order is a single roll. If it was a command before, its suffixes were in order, and
only their letters become small: it says the same (`parse_normalize`). In whatever order the suffixes are typed, the
text becomes the same, and says what they say (`normalize_reordered`).
-/
namespace TabletopDice

open Text Token Writing

/-! ## Suffixes in order and in small letters -/

theorem mem_inOrder {kind : SuffixOrder.Kind} {suffixes : List Affix} {affix : Affix}
    (h : pick kind suffixes = some affix) : affix ∈ inOrder suffixes := by
  cases kind <;> simp [inOrder, h]

theorem pick_inOrder (kind : SuffixOrder.Kind) (suffixes : List Affix) :
    pick kind (inOrder suffixes) = pick kind suffixes := by
  cases hpick : pick kind suffixes with
  | some affix =>
    obtain ⟨-, rfl⟩ := pick_kind hpick
    exact pick_of_mem (kinds_inOrder suffixes) affix (mem_inOrder hpick)
  | none =>
    refine List.find?_eq_none.2 fun affix hmem => ?_
    exact List.find?_eq_none.1 hpick affix (mem_of_mem_inOrder hmem)

theorem inOrder_inOrder (suffixes : List Affix) : inOrder (inOrder suffixes) = inOrder suffixes := by
  rw [inOrder]
  simp only [pick_inOrder]
  rfl

section

variable {change : Affix → Affix} (hkind : ∀ affix, (change affix).kind = affix.kind)

include hkind

theorem pick_map (kind : SuffixOrder.Kind) (suffixes : List Affix) :
    pick kind (suffixes.map change) = (pick kind suffixes).map change := by
  have htest : (fun affix : Affix => decide (affix.kind = kind)) ∘ change = fun affix => decide (affix.kind = kind) :=
    funext fun affix => by rw [Function.comp_apply, hkind]
  rw [pick, List.find?_map, htest, pick]

/-- A change that keeps the kinds keeps the order. -/
theorem inOrder_map (suffixes : List Affix) : inOrder (suffixes.map change) = (inOrder suffixes).map change := by
  have hlist : ∀ found : Option Affix, (found.map change).toList = found.toList.map change := by
    rintro (_ | affix) <;> rfl
  simp only [inOrder, pick_map hkind, hlist, List.map_append]

end

namespace Affix

theorem lowered_plain (affix : Affix) : affix.lowered.Plain := by
  cases affix with
  | keep word count => exact word.toWord.lowered_plain
  | _ => trivial

theorem keep?_lowered (affix : Affix) : affix.lowered.keep? = affix.keep? := by cases affix <;> rfl

theorem target?_lowered (affix : Affix) : affix.lowered.target? = affix.target? := by cases affix <;> rfl

theorem interval?_lowered (affix : Affix) : affix.lowered.interval? = affix.interval? := by cases affix <;> rfl

theorem modifier?_lowered (affix : Affix) : affix.lowered.modifier? = affix.modifier? := by cases affix <;> rfl

/-- The small letters are as many. -/
theorem length_lowered (affix : Affix) : (text affix.lowered.written).length = (text affix.written).length := by
  cases affix with
  | keep word count =>
    have hword : word.lowered.chars.length = word.chars.length := word.fits.symm
    simp only [lowered, written, text_cons, List.length_append, Written.chars]
    rw [hword]
  | _ => rfl

theorem short_lowered {affix : Affix} (h : ∀ w ∈ affix.written, w.lexeme.Short) :
    ∀ w ∈ affix.lowered.written, w.lexeme.Short := by
  cases affix with
  | keep word count =>
    refine List.forall_mem_cons.2 ⟨wordLexeme_short _, ?_⟩
    exact (List.forall_mem_cons.1 h).2
  | target letter number | interval letter number =>
    refine List.forall_mem_cons.2 ⟨wordLexeme_short _, ?_⟩
    exact (List.forall_mem_cons.1 h).2
  | modifier sign number => exact h

end Affix

namespace SingleRoll

variable (roll : SingleRoll)

theorem pick_ordered (kind : SuffixOrder.Kind) :
    pick kind roll.ordered.suffixes = (pick kind roll.suffixes).map Affix.lowered := by
  rw [ordered, pick_map Affix.kind_lowered, pick_inOrder]

theorem inOrder_ordered : inOrder roll.ordered.suffixes = roll.ordered.suffixes := by
  rw [ordered, inOrder_map Affix.kind_lowered, inOrder_inOrder]

theorem ordered_plain : roll.ordered.Plain := by
  intro affix hmem
  obtain ⟨typed, -, rfl⟩ := List.mem_map.1 hmem
  exact typed.lowered_plain

theorem bind_ordered {β : Type} {meaning : Affix → Option β} (h : ∀ affix, meaning affix.lowered = meaning affix)
    (kind : SuffixOrder.Kind) : (pick kind roll.ordered.suffixes).bind meaning = (pick kind roll.suffixes).bind meaning := by
  rw [pick_ordered]
  cases pick kind roll.suffixes with
  | none => rfl
  | some affix => exact h affix

/-- **The single roll with its suffixes in order says the same.** -/
theorem statement_ordered (finish : Nat) : roll.ordered.statement finish = roll.statement finish := by
  have htarget : targetOf roll.ordered.suffixes = targetOf roll.suffixes := by
    rw [targetOf, roll.bind_ordered Affix.target?_lowered, roll.bind_ordered Affix.interval?_lowered, targetOf]
  have hterm : roll.base.term roll.ordered.suffixes = roll.base.term roll.suffixes := by
    cases roll.base <;> simp only [Base.term, htarget, roll.bind_ordered Affix.keep?_lowered]
  have hbase : roll.ordered.base = roll.base := rfl
  have hrepeats : roll.ordered.repeats = roll.repeats := rfl
  rw [statement, expression, hbase, hrepeats, hterm, roll.bind_ordered Affix.modifier?_lowered]
  rfl

theorem length_ordered (h : inOrder roll.suffixes = roll.suffixes) :
    roll.ordered.typed.length = roll.typed.length := by
  have hsuffixes : ∀ suffixes : List Affix, (text ((suffixes.map Affix.lowered).flatMap Affix.written)).length =
      (text (suffixes.flatMap Affix.written)).length := by
    intro suffixes
    induction suffixes with
    | nil => rfl
    | cons affix rest ih =>
      rw [List.map_cons, List.flatMap_cons, List.flatMap_cons, text_append, text_append, List.length_append,
        List.length_append, ih, affix.length_lowered]
  have hlength := hsuffixes roll.suffixes
  rw [typed, typed, written, written, text_append, text_append, List.length_append, List.length_append, ← hlength]
  simp only [ordered, h]
  rfl

theorem short_ordered (h : roll.Short) : roll.ordered.Short := by
  intro w hmem
  rcases List.mem_append.1 hmem with hmem | hmem
  · exact h w (List.mem_append_left _ hmem)
  · obtain ⟨affix, haffix, hw⟩ := List.mem_flatMap.1 hmem
    obtain ⟨typed, htyped, rfl⟩ := List.mem_map.1 haffix
    refine Affix.short_lowered (fun v hv => ?_) w hw
    exact h v (List.mem_append_right _ (List.mem_flatMap.2 ⟨typed, mem_of_mem_inOrder htyped, hv⟩))

/-- **A single roll with its suffixes in order is a command.** -/
theorem parse_ordered (h : roll.Short) : Command.parse (String.ofList roll.ordered.typed) =
    .ok ⟨roll.statement roll.ordered.typed.length, []⟩ := by
  rw [← statement_ordered]
  exact (parse_typed roll.ordered).2 ⟨roll.short_ordered h, ⟨roll.inOrder_ordered, roll.ordered_plain⟩, rfl⟩

end SingleRoll

namespace SuffixOrder

/-- **The suffixes of a single roll are put in order**, and their letters become small. -/
theorem normalize_typed (roll : SingleRoll) (hplain : roll.Plain) :
    normalize (String.ofList roll.typed) = String.ofList roll.ordered.typed := by
  have hsmall : ∀ suffixes : List Affix, (∀ affix ∈ suffixes, affix.Plain) →
      suffixes.flatMap Affix.small = text ((suffixes.map Affix.lowered).flatMap Affix.written) := by
    intro suffixes h
    rw [text, List.flatMap_assoc, List.flatMap_map]
    refine List.flatMap_congr fun affix hmem => ?_
    exact (Affix.lowered_small (h affix hmem)).symm
  have hordered : roll.ordered.typed = text roll.head ++ (inOrder roll.suffixes).flatMap Affix.small := by
    rw [hsmall _ fun affix hmem => hplain affix (mem_of_mem_inOrder hmem), ← text_append]
    rfl
  rw [normalize, String.toList_ofList, reorder?_typed, hordered]

end SuffixOrder

/-! ## Evaluation -/

namespace Engine

open Play

variable {σ : Type} [RandomSource σ]

/-- Two texts that are the same command go alike. -/
theorem evaluateText_alike (settings : Settings) (setup : Setup) {text text' : String} {c : Command}
    (h : Command.parse text = .ok c) (h' : Command.parse text' = .ok c) :
    Alike Table.SameState Eq (evaluateText settings setup text : Play σ Outcome)
      (evaluateText settings setup text') := by
  have hkept := Table.SameState.kept (σ := σ)
  have hreseed : Alike Table.SameState Eq (reseed setup.seed : Play σ Unit) (reseed setup.seed) := fun t u htu =>
    .ok rfl ⟨congrArg (RandomSource.reseed setup.seed) htu.source, htu.draws, htu.memory⟩
  have hforget : Alike Table.SameState Eq (forget : Play σ Unit) forget := fun t u htu =>
    .ok rfl ⟨htu.source, htu.draws, rfl⟩
  have hcommand := fun command => Evaluation.sameCommand_alike { settings.limits with maxChain := setup.budget } hkept
    command fun _ _ _ _ => trivial
  unfold evaluateText
  rw [h, h']
  refine (alike_ofRule _).next fun command => hreseed.next fun _ => hforget.next fun _ => ?_
  refine (hcommand command).next fun outcome => ?_
  -- the reports differ in the text only, not in what has to be written out
  have hreport : (Event.finished text outcome.kind outcome.value).wording.Writable ↔
      (Event.finished text' outcome.kind outcome.value).wording.Writable := by simp [Event.wording]
  exact (report_alike hkept.toKeptByRolls hreport).next fun _ => alike_pure rfl

/-- A text that is the same command whether or not its suffixes are put in order is evaluated alike. -/
theorem evaluate_agree (settings : Settings) (setup : Setup) {text : String} {c : Command}
    (h : ∀ wanted, Command.parse (prepared settings wanted text) = .ok c) (wanted wanted' : Option Bool)
    (table : Table σ) : Agree Table.SameState Eq (evaluate settings setup wanted text table)
      (evaluate settings setup wanted' text table) := by
  obtain ⟨log, hevaluate⟩ := evaluate_reported settings setup wanted text table
  obtain ⟨log', hevaluate'⟩ := evaluate_reported settings setup wanted' text table
  rw [hevaluate, hevaluate']
  exact evaluateText_alike settings setup (h wanted) (h wanted') _ _ ⟨rfl, rfl, rfl⟩

end Engine

/-! ## Main results -/

namespace SuffixOrder

/-- **Putting the suffixes in order changes no command**: a text that is a command is the same command with its suffixes
in order, and it is evaluated alike whether or not they are put in order first. -/
theorem parse_normalize {text : String} {c : Command} (h : Command.parse text = .ok c) :
    Command.parse (normalize text) = .ok c ∧
      ∀ {σ : Type} [RandomSource σ] (settings : Settings) (setup : Engine.Setup) (wanted wanted' : Option Bool)
        (table : Table σ), Play.Agree Table.SameState Eq (Engine.evaluate settings setup wanted text table)
          (Engine.evaluate settings setup wanted' text table) := by
  have hparse : Command.parse (normalize text) = .ok c := by
    cases hreorder : reorder? text.toList with
    | none => rwa [normalize, hreorder]
    | some out =>
      obtain ⟨roll, htyped⟩ := exists_typed hreorder
      obtain rfl : text = String.ofList roll.typed := by rw [← htyped, String.ofList_toList]
      -- the grammar has taken all suffixes, so they were in order, and their small letters are as many
      obtain ⟨hshort, ⟨horder, hplain⟩, rfl⟩ := roll.parse_typed.1 h
      rw [normalize_typed roll hplain, roll.parse_ordered hshort, roll.length_ordered horder]
  refine ⟨hparse, fun settings setup wanted wanted' table => ?_⟩
  have hprepared : ∀ choice, Command.parse (Engine.prepared settings choice text) = .ok c := by
    intro choice
    unfold Engine.prepared
    split
    · exact hparse
    · exact h
  exact Engine.evaluate_agree settings setup hprepared wanted wanted' table

theorem parse_normalize_capitals : ∃ c, Command.parse "3xs8w6T4R2+2" = .ok c ∧
    Command.parse (normalize "3xs8w6T4R2+2") = .ok c ∧
      ∀ {σ : Type} [RandomSource σ] (settings : Settings) (setup : Engine.Setup) (wanted wanted' : Option Bool)
        (table : Table σ), Play.Agree Table.SameState Eq (Engine.evaluate settings setup wanted "3xs8w6T4R2+2" table)
          (Engine.evaluate settings setup wanted' "3xs8w6T4R2+2" table) := by
  have hparses : Command.parses "3xs8w6T4R2+2" (fun _ => true) = true := by decide +kernel
  obtain ⟨c, hparse, -⟩ := Command.ok_of_parses _ hparses
  exact ⟨c, hparse, parse_normalize hparse⟩

/-- **The order in which suffixes are typed is of no matter**: in every order of its suffixes a single roll becomes the
same text, its base as typed and after it the suffixes in the order of the grammar and in small letters. If no number is
too long, that text is the one statement that the single roll says. -/
theorem normalize_reordered (roll : SingleRoll) (hplain : roll.Plain) {order : List Affix}
    (horder : order.Perm roll.suffixes) :
    normalize (String.ofList (roll.reordered horder).typed) = String.ofList roll.ordered.typed ∧
      (roll.Short → Command.parse (String.ofList roll.ordered.typed) =
        .ok ⟨roll.statement roll.ordered.typed.length, []⟩) := by
  have hsame : (roll.reordered horder).ordered = roll.ordered := by
    simp only [SingleRoll.ordered, SingleRoll.reordered, inOrder_perm horder roll.distinct]
  refine ⟨?_, roll.parse_ordered⟩
  rw [← hsame]
  exact normalize_typed _ fun affix hmem => hplain affix (horder.mem_iff.1 hmem)

theorem normalize_reordered_capitals : normalize "3X4D6!-2R4T9KL1" = "3X4D6!kl1t9r4-2" ∧
    Command.parse "3X4D6!kl1t9r4-2" = .ok ⟨.times 3 (.binary .subtract
      (.roll (.generic ⟨some 4, .sides 6, true, .total (some ⟨.lowest, some 1⟩) (some ⟨some 9, some 4⟩)⟩) 2)
      (.literal 2 14) 13) 0, []⟩ := by
  let roll : SingleRoll := {
    repeats := some (.one '3' rfl, ⟨'X', rfl⟩)
    base := .generic (some (.one '4' rfl)) ⟨'D', rfl⟩ (.sides (.one '6' rfl)) true
    suffixes := [
      .keep ⟨⟨.kl, ['K', 'L'], rfl, rfl⟩, .lowest, rfl⟩ (some (.one '1' rfl)),
      .target ⟨'T', rfl⟩ (.one '9' rfl),
      .interval ⟨'R', rfl⟩ (.one '4' rfl),
      .modifier .minus (.one '2' rfl)]
    distinct := by decide
    keeps := fun _ _ _ => rfl }
  have htyped : (roll.reordered (List.reverse_perm roll.suffixes)).typed = "3X4D6!-2R4T9KL1".toList := by decide
  have hordered : roll.ordered.typed = "3X4D6!kl1t9r4-2".toList := by decide
  have h := normalize_reordered roll (by decide) (List.reverse_perm roll.suffixes)
  rw [htyped, hordered] at h
  exact ⟨h.1, h.2 (by decide)⟩

end SuffixOrder

end TabletopDice
