import TabletopDice.Proofs.Grammar
import TabletopDice.Proofs.Writing
import TabletopDice.SuffixOrder
/-!
# SingleRoll — one roll as typed

A single roll is a repeat count, a base and suffixes, each part with the characters that were typed for it. The
suffixes are of different kinds, and only a generic base has a suffix that keeps dice, so every single roll is one that
the order of suffixes is about. What it says is a statement (`SingleRoll.statement`), whatever the order in which its
suffixes are typed.
-/
namespace TabletopDice

/-! ## Parts of a single roll -/

open Writing

/-- **A keep word as typed.** -/
structure KeepWord extends Word where
  rule : KeepRule
  keeps : keyword = Grammar.keepWord rule

def KeepWord.lowered (word : KeepWord) : KeepWord := { word.toWord.lowered with rule := word.rule, keeps := word.keeps }

def Sign.mark : Sign → Symbol
  | plus => .plus
  | minus => .minus

/-- The operator that a modifier with the sign stands for. -/
def Sign.operator : Sign → BinaryOperator
  | plus => .add
  | minus => .subtract

/-- **A suffix as typed**; a keep suffix need not have a number. -/
inductive Affix
  | keep (word : KeepWord) (count : Option Digits)
  | target (letter : Letter .t) (number : Digits)
  | interval (letter : Letter .r) (number : Digits)
  | modifier (sign : Sign) (number : Digits)

namespace Affix

def kind : Affix → SuffixOrder.Kind
  | keep .. => .keep
  | target .. => .target
  | interval .. => .interval
  | modifier .. => .modifier

def written : Affix → List Written
  | keep word count => .word word.toWord :: (count.map Written.number).toList
  | target letter number => [.word letter.word, .number number]
  | interval letter number => [.word letter.word, .number number]
  | modifier sign number => [.sign sign.mark, .number number]

/-- **A suffix whose word becomes its keyword in lower case.** -/
def Plain : Affix → Prop
  | keep word _ => word.toWord.Plain
  | _ => True

instance : (affix : Affix) → Decidable affix.Plain
  | keep word _ => inferInstanceAs (Decidable word.toWord.Plain)
  | target .. | interval .. | modifier .. => inferInstanceAs (Decidable True)

def lowered : Affix → Affix
  | keep word count => .keep word.lowered count
  | target letter number => .target letter.lowered number
  | interval letter number => .interval letter.lowered number
  | modifier sign number => .modifier sign number

def keep? : Affix → Option KeepSuffix
  | keep word count => some ⟨word.rule, count.map Digits.value⟩
  | _ => none

def target? : Affix → Option Nat
  | target _ number => some number.value
  | _ => none

def interval? : Affix → Option Nat
  | interval _ number => some number.value
  | _ => none

def modifier? : Affix → Option (Sign × Digits)
  | modifier sign number => some (sign, number)
  | _ => none

@[simp] theorem kind_lowered (affix : Affix) : affix.lowered.kind = affix.kind := by cases affix <;> rfl

end Affix

def pick (kind : SuffixOrder.Kind) (suffixes : List Affix) : Option Affix := suffixes.find? fun affix => affix.kind = kind

/-- **The suffixes in the order of the grammar.** -/
def inOrder (suffixes : List Affix) : List Affix :=
  (pick .keep suffixes).toList ++ (pick .target suffixes).toList ++ (pick .interval suffixes).toList ++
    (pick .modifier suffixes).toList

theorem pick_kind {kind : SuffixOrder.Kind} {suffixes : List Affix} {affix : Affix}
    (h : pick kind suffixes = some affix) : affix ∈ suffixes ∧ affix.kind = kind :=
  ⟨List.mem_of_find?_eq_some h, by simpa using List.find?_some h⟩

/-- Of suffixes of different kinds, each is the one of its kind. -/
theorem pick_of_mem : ∀ {suffixes : List Affix}, (suffixes.map Affix.kind).Nodup → ∀ affix ∈ suffixes,
    pick affix.kind suffixes = some affix
  | first :: rest, h, affix, hmem => by
    rw [List.map_cons, List.nodup_cons] at h
    rcases List.mem_cons.1 hmem with rfl | hmem
    · simp [pick]
    · have hne : first.kind ≠ affix.kind := fun heq => h.1 (heq ▸ List.mem_map_of_mem hmem)
      rw [pick, List.find?_cons_of_neg (by simpa using hne)]
      exact pick_of_mem h.2 affix hmem

/-- **The suffix of a kind is found in every order.** -/
theorem pick_perm {order suffixes : List Affix} (h : order.Perm suffixes) (hkinds : (suffixes.map Affix.kind).Nodup)
    (kind : SuffixOrder.Kind) : pick kind order = pick kind suffixes := by
  cases hpick : pick kind suffixes with
  | some affix =>
    obtain ⟨hmem, rfl⟩ := pick_kind hpick
    exact pick_of_mem ((h.map Affix.kind).nodup_iff.2 hkinds) affix (h.mem_iff.2 hmem)
  | none =>
    refine List.find?_eq_none.2 fun affix hmem => ?_
    exact List.find?_eq_none.1 hpick affix (h.mem_iff.1 hmem)

theorem inOrder_perm {order suffixes : List Affix} (h : order.Perm suffixes)
    (hkinds : (suffixes.map Affix.kind).Nodup) : inOrder order = inOrder suffixes := by
  simp only [inOrder, pick_perm h hkinds]

theorem mem_of_mem_inOrder {suffixes : List Affix} {affix : Affix} (h : affix ∈ inOrder suffixes) :
    affix ∈ suffixes := by
  simp only [inOrder, List.mem_append, Option.mem_toList] at h
  obtain ((h | h) | h) | h := h <;> exact (pick_kind h).1

theorem kinds_inOrder (suffixes : List Affix) : ((inOrder suffixes).map Affix.kind).Nodup := by
  have hone : ∀ kind, ((pick kind suffixes).toList.map Affix.kind).Sublist [kind] := by
    intro kind
    cases hpick : pick kind suffixes with
    | none => exact List.nil_sublist _
    | some affix => rw [← (pick_kind hpick).2]; exact List.Sublist.refl _
  have hall : ((inOrder suffixes).map Affix.kind).Sublist [.keep, .target, .interval, .modifier] := by
    simp only [inOrder, List.map_append]
    exact (((hone .keep).append (hone .target)).append (hone .interval)).append (hone .modifier)
  exact List.Nodup.sublist hall (by decide)

/-- A target number and a raise interval together, if there is one of them. -/
def TargetSuffix.of? : Option Nat → Option Nat → Option TargetSuffix
  | none, none => none
  | target, interval => some ⟨target, interval⟩

/-- What the suffixes say of a target number and a raise interval. -/
def targetOf (suffixes : List Affix) : Option TargetSuffix :=
  TargetSuffix.of? ((pick .target suffixes).bind Affix.target?) ((pick .interval suffixes).bind Affix.interval?)

inductive WrittenFaces
  | sides (number : Digits)
  | percent

/-- **The base of a single roll as typed.** -/
inductive Base
  | generic (count : Option Digits) (letter : Letter .d) (faces : WrittenFaces) (acing : Bool)
  | savage (count : Option Digits) (letter : Letter .s) (trait : Digits) (wild : Option (Letter .w × Digits))
  | extras (count : Option Digits) (letter : Letter .e) (sides : Digits)

namespace WrittenFaces

def written : WrittenFaces → Written
  | sides number => .number number
  | percent => .sign .percent

def faces : WrittenFaces → Faces
  | sides number => .sides number.value
  | percent => .percent

end WrittenFaces

namespace Base

/-- Only the base of a generic roll takes a keep suffix. -/
def takesKeep : Base → Bool
  | generic .. => true
  | _ => false

def wildWritten : Option (Letter .w × Digits) → List Written
  | none => []
  | some (letter, sides) => [.word letter.word, .number sides]

def written : Base → List Written
  | generic count letter faces acing =>
    (count.map Written.number).toList ++ .word letter.word :: faces.written :: (if acing then [.sign .bang] else [])
  | savage count letter trait wild =>
    (count.map Written.number).toList ++ .word letter.word :: .number trait :: wildWritten wild
  | extras count letter sides => (count.map Written.number).toList ++ .word letter.word :: [.number sides]

/-- **The roll of a base with suffixes.** -/
def term (suffixes : List Affix) : Base → Roll
  | generic count _ faces acing => .generic {
      count := count.map Digits.value
      faces := faces.faces
      acing
      reading := .total ((pick .keep suffixes).bind Affix.keep?) (targetOf suffixes) }
  | savage count _ trait wild => .savage {
      count := count.map Digits.value
      traitSides := trait.value
      wildSides := wild.map fun wild => wild.2.value
      target := targetOf suffixes }
  | extras count _ sides => .extras {
      count := count.map Digits.value
      sides := sides.value
      target := targetOf suffixes }

end Base

/-! ## Single rolls -/

/-- **A single roll as typed**: its suffixes are of different kinds, and a keep suffix is one of a generic roll. -/
structure SingleRoll where
  repeats : Option (Digits × Letter .x)
  base : Base
  suffixes : List Affix
  distinct : (suffixes.map Affix.kind).Nodup
  keeps : ∀ affix ∈ suffixes, affix.kind = .keep → base.takesKeep = true

namespace SingleRoll

def repeatWritten : Option (Digits × Letter .x) → List Written
  | none => []
  | some (count, letter) => [.number count, .word letter.word]

/-- The lexemes before the suffixes. -/
def head (roll : SingleRoll) : List Written := repeatWritten roll.repeats ++ roll.base.written

/-- **The lexemes of a single roll.** -/
def written (roll : SingleRoll) : List Written := roll.head ++ roll.suffixes.flatMap Affix.written

/-- **The text of a single roll.** -/
def typed (roll : SingleRoll) : List Char := text roll.written

/-- The single roll with its suffixes typed in another order. -/
def reordered (roll : SingleRoll) {order : List Affix} (h : order.Perm roll.suffixes) : SingleRoll where
  repeats := roll.repeats
  base := roll.base
  suffixes := order
  distinct := (h.map Affix.kind).nodup_iff.2 roll.distinct
  keeps affix hmem := roll.keeps affix (h.mem_iff.1 hmem)

/-- **The single roll with its suffixes in the order of the grammar and in small letters.** -/
def ordered (roll : SingleRoll) : SingleRoll where
  repeats := roll.repeats
  base := roll.base
  suffixes := (inOrder roll.suffixes).map Affix.lowered
  distinct := by
    have hkinds := kinds_inOrder roll.suffixes
    rwa [List.map_map, show Affix.kind ∘ Affix.lowered = Affix.kind from funext Affix.kind_lowered]
  keeps affix hmem hkeep := by
    obtain ⟨typed, htyped, rfl⟩ := List.mem_map.1 hmem
    exact roll.keeps typed (mem_of_mem_inOrder htyped) (by rwa [Affix.kind_lowered] at hkeep)

/-- The expression of a single roll whose text ends at the place `finish`: the roll, and the modifier if there is
one. -/
def expression (roll : SingleRoll) (finish : Nat) : Expr :=
  let term := Expr.roll (roll.base.term roll.suffixes) (text (repeatWritten roll.repeats)).length
  match (pick .modifier roll.suffixes).bind Affix.modifier? with
  | none => term
  | some (sign, number) =>
    .binary sign.operator term (.literal number.value (finish - number.chars.length)) (finish - number.chars.length - 1)

/-- An expression, repeated if there is a repeat count. -/
def repeated (e : Expr) : Option (Digits × Letter .x) → Statement
  | none => .once e 0
  | some (count, _) => .times count.value e 0

/-- **What a single roll says**, if its text ends at the place `finish`. -/
def statement (roll : SingleRoll) (finish : Nat) : Statement := repeated (roll.expression finish) roll.repeats

/-- All words of the suffixes become their keywords in lower case. -/
def Plain (roll : SingleRoll) : Prop := ∀ affix ∈ roll.suffixes, affix.Plain

/-- All numbers have at most `maxDigits` digits. -/
def Short (roll : SingleRoll) : Prop := ∀ written ∈ roll.written, written.lexeme.Short

instance (roll : SingleRoll) : Decidable roll.Plain := inferInstanceAs (Decidable (∀ affix ∈ roll.suffixes, affix.Plain))

instance (roll : SingleRoll) : Decidable roll.Short :=
  inferInstanceAs (Decidable (∀ written ∈ roll.written, written.lexeme.Short))

/-! ## The lexemes do not run together -/

/-- Suffixes may be typed after anything but a minus sign. -/
theorem apart_suffixes : ∀ (suffixes : List Affix) {w : Written}, w ≠ .sign .minus →
    Apart (w :: suffixes.flatMap Affix.written)
  | [], w, _ => List.isChain_singleton w
  | affix :: rest, w, hw => by
    have hword : ∀ v : Word, v.keyword ≠ .iron → w.mayPrecede (.word v) = true := by
      intro v hv
      cases w <;> simp [Written.mayPrecede, hv]
    have hsign : ∀ s : Symbol, w.mayPrecede (.sign s) = true := by
      intro s
      cases w with
      | sign t => cases t <;> first | rfl | exact absurd rfl hw
      | _ => rfl
    have hnumber : ∀ n : Digits, Apart (.number n :: rest.flatMap Affix.written) := fun n =>
      apart_suffixes rest fun h => by cases h
    rw [List.flatMap_cons]
    cases affix with
    | keep word count =>
      have hiron : word.keyword ≠ .iron := by
        rw [word.keeps]
        cases word.rule <;> decide
      refine .cons (hword _ hiron) ?_
      cases count with
      | none => exact apart_suffixes rest fun h => by cases h
      | some n => exact .cons rfl (hnumber n)
    | target letter n | interval letter n => exact .cons (hword _ Keyword.noConfusion) (.cons rfl (hnumber n))
    | modifier sign n => exact .cons (hsign _) (.cons (by cases sign <;> rfl) (hnumber n))

/-- The count of a base may be typed after a word. -/
theorem apart_count (count : Option Digits) (v : Word) {letter : Word} {rest : List Written}
    (hletter : letter.keyword ≠ .iron) (h : Apart (.word letter :: rest)) :
    Apart (.word v :: ((count.map Written.number).toList ++ .word letter :: rest)) := by
  cases count with
  | none => exact .cons (by simpa [Written.mayPrecede] using hletter) h
  | some n => exact .cons rfl (.cons rfl h)

/-- A base may be typed after a word, and anything after it that may be typed after all but a minus sign. -/
theorem apart_base (base : Base) (v : Word) {rest : List Written}
    (h : ∀ w : Written, w ≠ .sign .minus → Apart (w :: rest)) : Apart (.word v :: (base.written ++ rest)) := by
  have hnumber : ∀ n, Apart (.number n :: rest) := fun n => h _ fun h => by cases h
  have hbang : Apart (.sign .bang :: rest) := h _ fun h => by cases h
  cases base with
  | generic count letter faces acing =>
    rw [Base.written, List.append_assoc, List.cons_append, List.cons_append]
    refine apart_count count v Keyword.noConfusion (.cons (by cases faces <;> rfl) ?_)
    cases acing with
    | true => exact .cons (by cases faces <;> rfl) hbang
    | false => exact h _ fun h => by cases faces <;> cases h
  | savage count letter trait wild =>
    rw [Base.written, List.append_assoc]
    refine apart_count count v Keyword.noConfusion (.cons rfl ?_)
    cases wild with
    | none => exact hnumber trait
    | some wild => exact .cons rfl (.cons rfl (hnumber wild.2))
  | extras count letter sides =>
    rw [Base.written, List.append_assoc]
    exact apart_count count v Keyword.noConfusion (.cons rfl (hnumber sides))

theorem apart_written (roll : SingleRoll) : Apart roll.written := by
  have hbase := fun v : Word => apart_base roll.base v fun w hw => apart_suffixes roll.suffixes hw
  cases hrepeats : roll.repeats with
  | none =>
    rw [written, head, hrepeats]
    exact (hbase ⟨.x, ['x'], rfl, rfl⟩).tail
  | some repeats =>
    rw [written, head, hrepeats, List.append_assoc]
    exact .cons rfl (hbase repeats.2.word)

/-- **The tokens of the text of a single roll.** -/
theorem scan_typed (roll : SingleRoll) {ts : List Token} :
    Token.scan roll.typed = .ok ts ↔ roll.Short ∧ ts = tokens roll.typed.length roll.written :=
  scan_text roll.apart_written

end SingleRoll

end TabletopDice
