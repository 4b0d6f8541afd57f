import Mathlib.Data.List.TakeWhile
import TabletopDice.Engine
import TabletopDice.Proofs.Characters
import TabletopDice.Proofs.Numerals
import TabletopDice.Proofs.Recomputation
import TabletopDice.Proofs.Verdicts
/-!
# Faults — an evaluation fails through the player only

If the source answers every draw between bounds in order, a play of the engine ends in a value, in a rule error that
play can break, or at a number that is too long to be written (`Play.Safe`): no draw is asked for between bounds out of
order, no result is asked for a modifier that it does not take, and no numeral stands in a text that is none. The rules
below put this together along the play, one lemma for each of its parts; a syntax error comes before the first draw
(`evaluate_safe`).
-/
namespace TabletopDice

open Outcome Evaluation

/-- **The rule errors of play**, told by their codes. An operator is always known. -/
def RuleError.OfPlay (error : RuleError) : Prop :=
  error.code ∈ [ErrorCode.invalidDie, .divisionByZero, .limitExceeded, .evaluationError] ∧
  ∀ symbol, error ≠ .unknownOperator symbol

@[simp] theorem RuleError.ofPlay_iff (error : RuleError) : error.OfPlay ↔
    match error with
    | .unreadable _ | .unsupportedSuffix _ | .unknownOperator _ => False
    | _ => True := by
  cases error <;> simp [OfPlay, code]

/-- **The faults of play**: its rule errors, and a message that cannot be written. -/
def Fault.OfPlay : Fault → Prop
  | rule error => error.OfPlay
  | unwritable => True
  | _ => False

theorem Fault.ofRule_ofPlay {error : RuleError} (h : error.OfPlay) : (Fault.ofRule error).OfPlay := by
  rcases Fault.ofRule_eq error with heq | heq
  · rw [heq]
    exact h
  · rw [heq]
    trivial

/-- A result that is missing only because of a rule error of play. -/
def RefusedInPlay {α : Type} (result : Except RuleError α) : Prop := ∀ error, result = .error error → error.OfPlay

/-! ## Numerals -/

/-- The numerals of a lexeme. -/
def Lexeme.numerals : Lexeme → List (List Char)
  | .number digits => [digits]
  | .span low high => [low, high]
  | _ => []

/-- The numerals of a lexeme are made of digits. -/
def Lexeme.AllDigits (lexeme : Lexeme) : Prop :=
  ∀ digits ∈ lexeme.numerals, digits ≠ [] ∧ ∀ c ∈ digits, Text.isDigit c = true

namespace Token

open Text

theorem spanEnd?_digits {cs high : List Char} (h : spanEnd? cs = some high) :
    high ≠ [] ∧ ∀ c ∈ high, isDigit c = true := by
  unfold spanEnd? at h
  split at h
  · split at h
    · cases h
    · rename_i hnil
      cases h
      exact ⟨hnil, fun c hc => List.mem_takeWhile_imp hc⟩
  · cases h

theorem numberPiece_digits {afterLetter : Bool} {c : Char} {rest : List Char} {piece : Piece} (hc : isDigit c = true)
    (h : numberPiece afterLetter c rest = .ok piece) : ∀ lexeme ∈ piece.lexeme, lexeme.AllDigits := by
  have hfirst : c :: rest.takeWhile isDigit ≠ [] ∧ ∀ d ∈ c :: rest.takeWhile isDigit, isDigit d = true :=
    ⟨List.cons_ne_nil _ _, List.forall_mem_cons.2 ⟨hc, fun d hd => List.mem_takeWhile_imp hd⟩⟩
  rcases numberPiece_ok h with ⟨rfl, -⟩ | ⟨high, hspan, rfl, -⟩
  · rintro _ ⟨⟩
    exact List.forall_mem_singleton.2 hfirst
  · rintro _ ⟨⟩
    exact List.forall_mem_cons.2 ⟨hfirst, List.forall_mem_singleton.2 (spanEnd?_digits hspan)⟩

theorem wordLexeme_digits (word : List Char) : (wordLexeme word).AllDigits := by
  unfold wordLexeme
  dsimp only
  split <;> exact List.forall_mem_nil _

theorem firstPiece_digits {afterLetter : Bool} {c : Char} {rest : List Char} {piece : Piece}
    (h : firstPiece afterLetter c rest = .ok piece) : ∀ lexeme ∈ piece.lexeme, lexeme.AllDigits := by
  unfold firstPiece at h
  by_cases hdigit : isDigit c = true
  · rw [if_neg (by simp [isBlank_of_isDigit hdigit]), if_pos hdigit] at h
    exact numberPiece_digits hdigit h
  -- a piece that begins with no digit is a word or a symbol, which has no numerals
  · rw [if_neg hdigit] at h
    repeat' split at h
    all_goals cases h
    all_goals rintro _ ⟨⟩
    all_goals first
      | exact wordLexeme_digits _
      | exact List.forall_mem_nil _

end Token

namespace Text

theorem isNumberPadding_of_isDigit {c : Char} (h : isDigit c = true) : isNumberPadding c = false := by
  rw [isNumberPadding, isBlank_of_isDigit h, Bool.false_and]

theorem dropWhile_padding {digits : List Char} (h : ∀ c ∈ digits, isDigit c = true) :
    digits.dropWhile isNumberPadding = digits := by
  cases digits with
  | nil => rfl
  | cons c rest =>
    have hc := isNumberPadding_of_isDigit (h c List.mem_cons_self)
    exact List.dropWhile_cons_of_neg (by simp [hc])

theorem digitsOf?_digits : ∀ {digits : List Char} {afterDigit : Bool}, (∀ c ∈ digits, isDigit c = true) →
    (digits ≠ [] ∨ afterDigit = true) → digitsOf? afterDigit digits = some digits
  | [], afterDigit, _, hne => by
    rcases hne with hne | rfl
    · exact absurd rfl hne
    · rfl
  | c :: rest, afterDigit, h, _ => by
    obtain ⟨hc, hrest⟩ := List.forall_mem_cons.1 h
    have hunder : c ≠ '_' := by
      rintro rfl
      exact absurd hc (by decide)
    rw [digitsOf?, if_neg hunder, digitsOf?_digits hrest (.inr rfl), Option.map_some]

theorem readNat_digits {digits : List Char} (hne : digits ≠ []) (h : ∀ c ∈ digits, isDigit c = true)
    (hlength : digits.length ≤ maxStatedDigits) : readNat digits = .ok (numeralValue digits) := by
  have hall : ∀ c ∈ digits, (isDigit c || c == '_') = true := fun c hc => by rw [h c hc, Bool.true_or]
  unfold readNat
  simp only [List.takeWhile_eq_self_iff.2 hall, List.dropWhile_eq_nil_iff.2 hall, digitsOf?_digits h (.inl hne)]
  rw [if_neg (by omega)]
  rfl

/-- **A run of digits is a number** for the reader of whole numbers, the one that the run writes. -/
theorem readInt?_digits {digits : List Char} (hne : digits ≠ []) (h : ∀ c ∈ digits, isDigit c = true)
    (hlength : digits.length ≤ maxStatedDigits) :
    readInt? (String.ofList digits) = some (numeralValue digits : Int) := by
  have hreverse : ∀ c ∈ digits.reverse, isDigit c = true := fun c hc => h c (List.mem_reverse.1 hc)
  have hbody : ((digits.dropWhile isNumberPadding).reverse.dropWhile isNumberPadding).reverse = digits := by
    rw [dropWhile_padding h, dropWhile_padding hreverse, List.reverse_reverse]
  have hread := readNat_digits hne h hlength
  unfold readInt? readInt
  simp only [String.toList_ofList, hbody]
  split
  · exact absurd (h '-' List.mem_cons_self) (by decide)
  · exact absurd (h '+' List.mem_cons_self) (by decide)
  · rw [hread]
    rfl

end Text

/-- **Every numeral in a text is read as the number that it writes.** -/
theorem Token.scan_numerals {text : List Char} {tokens : List Token} (h : scan text = .ok tokens) :
    ∀ token ∈ tokens, ∀ digits ∈ token.lexeme.numerals,
      Text.readInt? (String.ofList digits) = some (Text.numeralValue digits : Int) := by
  intro token ht digits hd
  obtain ⟨hne, hdigits⟩ := scanFrom_lexemes firstPiece_digits h token ht digits hd
  have hshort : digits.length ≤ maxDigits := by
    have hlexeme := scanFrom_short h token ht
    cases hl : token.lexeme with
    | number all =>
      rw [hl] at hd hlexeme
      rw [List.mem_singleton.1 hd]
      exact hlexeme
    | span low high =>
      rw [hl] at hd hlexeme
      rcases List.mem_cons.1 hd with rfl | hd
      · exact hlexeme.1
      · rw [List.mem_singleton.1 hd]
        exact hlexeme.2
    | _ =>
      rw [hl] at hd
      cases hd
  exact Text.readInt?_digits hne hdigits (Nat.le_trans hshort (by decide))

/-! ## Safe plays -/

/-- The number drawn lies between the bounds. -/
def Draw.InBounds (draw : Draw) : Prop := draw.low ≤ draw.value ∧ draw.value ≤ draw.high

/-- A table has draws in bounds more than another. -/
def Table.DrawnInBounds {σ : Type} (table after : Table σ) : Prop :=
  ∃ drawn, after.draws.toList = table.draws.toList ++ drawn ∧ ∀ draw ∈ drawn, draw.InBounds

namespace Play

variable {σ α β : Type}

/-- **What a safe play ends in**: a value or a fault of play, after draws in bounds. -/
inductive Ends (table : Table σ) : EStateM.Result Fault (Table σ) α → Prop
  | value {a : α} {after : Table σ} : table.DrawnInBounds after → Ends table (.ok a after)
  | failed {fault : Fault} {after : Table σ} : table.DrawnInBounds after → fault.OfPlay →
      Ends table (.error fault after)

/-- **A safe play**, whatever the table. -/
def Safe (play : Play σ α) : Prop := ∀ table, Ends table (play table)

/-- A value that a play ends in at some table. -/
def Yields (play : Play σ α) (a : α) : Prop := ∃ table after, play table = .ok a after

theorem drawnInBounds_of_eq {table after : Table σ} (h : after.draws = table.draws) : table.DrawnInBounds after :=
  ⟨[], by rw [h, List.append_nil], List.forall_mem_nil _⟩

theorem drawnInBounds_trans {table middle after : Table σ} (hfirst : table.DrawnInBounds middle)
    (hsecond : middle.DrawnInBounds after) : table.DrawnInBounds after := by
  obtain ⟨drawn, hdraws, hin⟩ := hfirst
  obtain ⟨more, hmore, hmorein⟩ := hsecond
  refine ⟨drawn ++ more, by rw [hmore, hdraws, List.append_assoc], fun draw hd => ?_⟩
  rcases List.mem_append.1 hd with hd | hd
  · exact hin draw hd
  · exact hmorein draw hd

/-- Only the draws of the table before count. -/
theorem Ends.of_draws {table before : Table σ} {ending : EStateM.Result Fault (Table σ) α} (h : Ends before ending)
    (heq : before.draws = table.draws) : Ends table ending := by
  have hstart : table.DrawnInBounds before := drawnInBounds_of_eq heq
  cases h with
  | value hdrawn => exact .value (drawnInBounds_trans hstart hdrawn)
  | failed hdrawn hfault => exact .failed (drawnInBounds_trans hstart hdrawn) hfault

theorem safe_pure (a : α) : Safe (pure a : Play σ α) := fun _ => .value (drawnInBounds_of_eq rfl)

theorem safe_throw {fault : Fault} (h : fault.OfPlay) : Safe (throw fault : Play σ α) :=
  fun _ => .failed (drawnInBounds_of_eq rfl) h

theorem safe_refuse {error : RuleError} (h : error.OfPlay) : Safe (refuse error : Play σ α) :=
  safe_throw (Fault.ofRule_ofPlay h)

theorem safe_ofExcept {result : Except Fault α} (h : ∀ fault, result = .error fault → fault.OfPlay) :
    Safe (ofExcept result : Play σ α) := by
  cases result with
  | ok a => exact safe_pure a
  | error fault => exact safe_throw (h fault rfl)

theorem safe_ofRule {result : Except RuleError α} (h : RefusedInPlay result) : Safe (ofRule result : Play σ α) := by
  cases result with
  | ok a => exact safe_pure a
  | error error => exact safe_refuse (h error rfl)

theorem safe_get : Safe (get : Play σ (Table σ)) := fun _ => .value (drawnInBounds_of_eq rfl)

/-- A change of the table that leaves its draws alone is safe. -/
theorem safe_modify {f : Table σ → Table σ} (h : ∀ table, (f table).draws = table.draws) :
    Safe (modify f : Play σ Unit) := fun table => .value (drawnInBounds_of_eq (h table))

theorem safe_report (event : Event) : Safe (report event : Play σ Unit) := by
  intro table
  by_cases hw : event.wording.Writable
  · rw [report_writable hw]
    exact .value (drawnInBounds_of_eq rfl)
  · rw [report_unwritable hw]
    exact .failed (drawnInBounds_of_eq rfl) trivial

/-- **A draw between bounds in order is safe.** -/
theorem safe_draw [RandomSource σ] (hanswers : RandomSource.Answers σ) {low high : Int} (h : low ≤ high) :
    Safe (draw low high : Play σ Int) := by
  intro table
  obtain ⟨value, next, hdraw, hlow, hhigh⟩ := hanswers low high table.source h
  have hplay : draw low high table =
      .ok value { table with source := next, draws := table.draws.push ⟨low, high, value⟩ } := by rw [draw, hdraw]
  rw [hplay]
  exact .value ⟨[⟨low, high, value⟩], Array.toList_push, List.forall_mem_singleton.2 ⟨hlow, hhigh⟩⟩

/-- **A sequence of safe plays is safe**; the second may count on what the first yields. -/
theorem Safe.bind {play : Play σ α} {next : α → Play σ β} (h : Safe play)
    (hnext : ∀ a, Yields play a → Safe (next a)) : Safe (play >>= next) := by
  intro table
  have hplay := h table
  change Ends table (EStateM.bind play next table)
  unfold EStateM.bind
  cases hp : play table with
  | error fault middle =>
    rw [hp] at hplay
    cases hplay with
    | failed hdrawn hfault => exact .failed hdrawn hfault
  | ok a middle =>
    rw [hp] at hplay
    cases hplay with
    | value hdrawn =>
      have hsecond := hnext a ⟨table, middle, hp⟩ middle
      dsimp only
      cases hs : next a middle with
      | ok b after =>
        rw [hs] at hsecond
        cases hsecond with
        | value hmore => exact .value (drawnInBounds_trans hdrawn hmore)
      | error fault after =>
        rw [hs] at hsecond
        cases hsecond with
        | failed hmore hfault => exact .failed (drawnInBounds_trans hdrawn hmore) hfault

theorem Safe.next {play : Play σ α} {next : α → Play σ β} (h : Safe play) (hnext : ∀ a, Safe (next a)) :
    Safe (play >>= next) := h.bind fun a _ => hnext a

theorem Safe.map {play : Play σ α} (f : α → β) (h : Safe play) : Safe (f <$> play) := by
  rw [map_eq_pure_bind]
  exact h.next fun a => safe_pure _

/-- **A safe play is safe as often as one likes.** -/
theorem Safe.times {play : Play σ α} (h : Safe play) : ∀ count, Safe (times play count)
  | 0 => safe_pure _
  | count + 1 => h.next fun _ => (Safe.times h count).next fun _ => safe_pure _

end Play

/-! ## Results that may be refused -/

theorem refusedInPlay_ok {α : Type} (a : α) : RefusedInPlay (.ok a) := fun _ h => nomatch h

theorem refusedInPlay_error {α : Type} {error : RuleError} (h : error.OfPlay) :
    RefusedInPlay (.error error : Except RuleError α) := by
  rintro _ ⟨⟩
  exact h

theorem RefusedInPlay.bind {α β : Type} {result : Except RuleError α} {next : α → Except RuleError β}
    (h : RefusedInPlay result) (hnext : ∀ a, RefusedInPlay (next a)) : RefusedInPlay (result >>= next) := by
  cases result with
  | ok a => exact hnext a
  | error error => exact refusedInPlay_error (h error rfl)

/-- A check that refuses before anything else. -/
theorem RefusedInPlay.check {α : Type} {p : Prop} [Decidable p] {error : RuleError} {result : Except RuleError α}
    (herror : error.OfPlay) (h : RefusedInPlay result) : RefusedInPlay (if p then .error error else result) := by
  by_cases hp : p
  · rw [if_pos hp]
    exact refusedInPlay_error herror
  · rwa [if_neg hp]

namespace Evaluation

theorem refused_diceCount (limits : Limits) (count : Option Nat) (default : Nat) :
    RefusedInPlay (diceCount limits count default) :=
  .check (by simp) (.check (by simp) (refusedInPlay_ok _))

theorem refused_dieSides (limits : Limits) (sides : Nat) : RefusedInPlay (dieSides limits sides) :=
  .check (by simp) (refusedInPlay_ok _)

theorem refused_repeatCount (limits : Limits) (count : Nat) : RefusedInPlay (repeatCount limits count) :=
  .check (by simp) (.check (by simp) (refusedInPlay_ok _))

theorem refused_select (dice : List Die) (keep : Option KeepSuffix) : RefusedInPlay (select dice keep) := by
  cases keep with
  | none => exact refusedInPlay_ok _
  | some suffix => exact .check (by simp) (refusedInPlay_ok _)

theorem refused_judge (total target interval : Int) : RefusedInPlay (Judgement.judge total target interval) := by
  refine .check (by simp) ?_
  by_cases hmargin : 0 ≤ total - target
  · rw [if_pos hmargin]
    exact refusedInPlay_ok _
  · rw [if_neg hmargin]
    exact refusedInPlay_ok _

theorem refused_judged (value : Int) (target : Option TargetSuffix) : RefusedInPlay (judged value target) := by
  cases target with
  | none => exact refusedInPlay_ok _
  | some suffix => exact (refused_judge _ _ _).bind fun _ => refusedInPlay_ok _

theorem refused_summedThrow (spelling : String) (sides : Int) (acing : Bool) (dice : List Die)
    (keep : Option KeepSuffix) (target : Option TargetSuffix) :
    RefusedInPlay (summedThrow spelling sides acing dice keep target) :=
  (refused_select dice keep).bind fun _ => (refused_judged _ target).bind fun _ => refusedInPlay_ok _

theorem refused_restrict (inner : Outcome) (minimum maximum : Option Int) :
    RefusedInPlay (restrict inner minimum maximum) := by
  cases minimum with
  | none => exact refusedInPlay_ok _
  | some low =>
    cases maximum with
    | none => exact refusedInPlay_ok _
    | some high => exact .check (by simp) (refusedInPlay_ok _)

theorem refused_apply (operator : BinaryOperator) (left right : Int) :
    RefusedInPlay (Arithmetic.apply operator left right) := by
  have hunlimited : RefusedInPlay (Arithmetic.unlimited operator left right) := by
    cases operator with
    | add | subtract | multiply => exact refusedInPlay_ok _
    | divide | remainder => exact .check (by simp) (refusedInPlay_ok _)
  exact hunlimited.bind fun n => .check (by simp) (refusedInPlay_ok _)

theorem negated_ofPlay {operand : Outcome} {fault : Fault} (h : negated operand = .error fault) : fault.OfPlay := by
  unfold negated at h
  cases hlabel : Wording.write ["-", operand.value] with
  | ok label => rw [hlabel] at h; cases h
  | error long =>
    rw [hlabel] at h
    cases h
    rw [(Wording.write_error.1 hlabel).2]
    trivial

/-- An operator is refused, or its label cannot be written. -/
theorem combined_ofPlay {operator : BinaryOperator} {left right : Outcome} {fault : Fault}
    (h : combined operator left right = .error fault) : fault.OfPlay := by
  unfold combined at h
  cases happly : Arithmetic.apply operator left.value right.value with
  | error error =>
    rw [happly] at h
    cases h
    exact refused_apply _ _ _ error happly
  | ok value =>
    rw [happly] at h
    cases hlabel : Wording.write [left.value, " ", operator.symbol, " ", right.value] with
    | ok label => simp only [Except.mapError, hlabel] at h; cases h
    | error long =>
      simp only [Except.mapError, hlabel] at h
      cases h
      rw [(Wording.write_error.1 hlabel).2]
      trivial

end Evaluation

/-! ## Rolls -/

section Rolls

open Play

variable {σ : Type} [RandomSource σ] (hanswers : RandomSource.Answers σ)

include hanswers

namespace Roller

/-- **A die is refused or drawn between bounds in order.** -/
theorem safe_die (sides : Int) : Safe (die sides : Play σ Int) := by
  unfold die
  split
  · exact safe_refuse (by simp)
  · exact safe_draw hanswers (by omega)

omit hanswers in
theorem one_le_of_yields {sides value : Int} (h : Yields (die sides : Play σ Int) value) : 1 ≤ sides := by
  obtain ⟨table, after, hplay⟩ := h
  unfold die at hplay
  split at hplay
  · cases hplay
  · omega

theorem safe_followers {sides : Int} (hsides : 1 ≤ sides) : ∀ (budget : Nat) (roll : Int),
    Safe (followers sides budget roll : Play σ (List Int))
  | 0, roll => safe_pure _
  | budget + 1, roll => by
    rw [followers]
    split
    · exact (safe_draw hanswers hsides).next fun next =>
        (safe_followers hsides budget next).next fun _ => safe_pure _
    · exact safe_pure _

theorem safe_acing (budget sides : Int) : Safe (acing budget sides : Play σ Die) := by
  -- a die that shows a face has one, so its followers are drawn between bounds in order
  refine (safe_die hanswers sides).bind fun first hfirst => ?_
  refine (safe_followers hanswers (one_le_of_yields hfirst) _ first).next fun rest => ?_
  dsimp only
  split
  · exact (safe_report _).next fun _ => safe_pure _
  · exact safe_pure _

omit [RandomSource σ] hanswers in
/-- **A table has an item for every roll from one to its size.** -/
theorem pick_ok {items : List Int} {roll : Int} (hlow : 1 ≤ roll) (hhigh : roll ≤ items.length) :
    ∃ item ∈ items, pick items roll = .ok item := by
  have hplace : (roll - 1).toNat < items.length := by omega
  refine ⟨items[(roll - 1).toNat], List.getElem_mem hplace, ?_⟩
  have hfirst : ¬ roll < 1 := by omega
  have hnonneg : ¬ roll - 1 < 0 := by omega
  simp only [pick, if_neg hfirst, if_neg hnonneg, List.getElem?_eq_getElem hplace]

/-- What a die of as many faces as a table has items picks from it. -/
theorem safe_pick {items : List Int} {sides roll : Int} (h : Yields (die sides : Play σ Int) roll)
    (hsides : sides = items.length) : Safe (Play.ofExcept (pick items roll) : Play σ Int) := by
  obtain ⟨before, after, hplay⟩ := h
  obtain ⟨hlow, hhigh⟩ := die_mem_bounds hanswers.inRange hplay
  obtain ⟨item, -, hpick⟩ := pick_ok hlow (hsides ▸ hhigh)
  rw [hpick]
  exact safe_pure item

theorem safe_fudge : Safe (fudge : Play σ Int) :=
  (safe_die hanswers 6).bind fun _ hface => safe_pick hanswers hface rfl

end Roller

namespace Evaluation

variable (limits : Limits)

theorem safe_rollDice (acing : Bool) (sides : Int) (count : Nat) :
    Safe (rollDice limits acing sides count : Play σ (List Die)) := by
  unfold rollDice
  split
  · exact (Roller.safe_acing hanswers _ sides).times count
  · exact ((Roller.safe_die hanswers sides).map _).times count

theorem safe_rollGeneric (roll : GenericRoll) : Safe (rollGeneric limits roll : Play σ Outcome) := by
  refine (safe_ofRule (refused_diceCount _ _ _)).next fun count => ?_
  refine (safe_ofRule (refused_dieSides _ _)).next fun sides => ?_
  refine (safe_rollDice hanswers limits roll.acing sides count).next fun dice => ?_
  split
  · exact safe_pure _
  · exact (safe_ofRule (refused_summedThrow _ _ _ _ _ _)).next fun _ => safe_pure _

theorem safe_rollWild (spelling : String) (traitSides wildSides target interval : Int) :
    Safe (rollWild limits spelling traitSides wildSides target interval : Play σ Outcome) := by
  refine (Roller.safe_acing hanswers _ traitSides).next fun trait => ?_
  refine (Roller.safe_acing hanswers _ wildSides).next fun wild => ?_
  exact (safe_ofRule (refused_judge _ _ _)).next fun _ => safe_pure _

theorem safe_rollExtra (spelling : String) (sides : Int) (target : Option TargetSuffix) :
    Safe (rollExtra limits spelling sides target : Play σ Outcome) :=
  (Roller.safe_acing hanswers _ sides).next fun _ =>
    (safe_ofRule (refused_summedThrow _ _ _ _ _ _)).next fun _ => safe_pure _

/-- **A roll term is safe**: every number that it draws is that of a die with sides, or of a range. -/
theorem safe_roll (term : Roll) : Safe (roll limits term : Play σ Outcome) := by
  cases term with
  | generic roll => exact safe_rollGeneric hanswers limits roll
  | savage roll =>
    refine (safe_ofRule (refused_diceCount _ _ _)).next fun count => ?_
    refine (safe_ofRule (refused_dieSides _ _)).next fun traitSides => ?_
    refine (safe_ofRule (refused_dieSides _ _)).next fun wildSides => ?_
    exact ((safe_rollWild hanswers limits _ _ _ _ _).times count).map _
  | extras roll =>
    refine (safe_ofRule (refused_diceCount _ _ _)).next fun count => ?_
    refine (safe_ofRule (refused_dieSides _ _)).next fun sides => ?_
    exact ((safe_rollExtra hanswers limits _ _ _).times count).map _
  | fudge count =>
    refine (safe_ofRule (refused_diceCount _ _ _)).next fun dice => ?_
    exact ((Roller.safe_fudge hanswers).times dice).next fun _ => safe_pure _
  | carcosa count =>
    refine (safe_ofRule (refused_diceCount _ _ _)).next fun dice => ?_
    refine (Roller.safe_die hanswers 6).bind fun size hface => ?_
    refine (Roller.safe_pick hanswers hface rfl).next fun sides => ?_
    exact ((Roller.safe_die hanswers sides).times dice).next fun _ => safe_pure _
  | weg count =>
    refine (safe_ofRule (refused_diceCount _ _ _)).next fun number => ?_
    refine ((Roller.safe_die hanswers 6).times _).next fun dice => ?_
    exact (Roller.safe_acing hanswers _ 6).next fun _ => safe_pure _
  | span low high => exact (safe_draw hanswers (by omega)).next fun _ => safe_pure _

/-! ## Expressions, statements and commands -/

omit [RandomSource σ] hanswers in
theorem safe_lookUp (name : String) : Safe (lookUp name : Play σ Outcome) := by
  refine safe_get.next fun table => ?_
  split
  · exact safe_pure _
  · exact (safe_report _).next fun _ => safe_pure _

omit [RandomSource σ] hanswers in
theorem safe_assign (name : String) (value : Int) : Safe (assign name value : Play σ Unit) := safe_modify fun _ => rfl

omit [RandomSource σ] hanswers in
/-- **An operator is safe** between outcomes of which everything follows: the left one takes its modifier. -/
theorem safe_operate {operator : BinaryOperator} {left right : Outcome} {source : Option Outcome}
    (hleft : left.AllFollow) :
    Safe (Play.ofExcept (operate operator left right source) : Play σ Outcome) := by
  have hcombined : Safe (Play.ofExcept (combined operator left right) : Play σ Outcome) :=
    safe_ofExcept fun _ => combined_ofPlay
  unfold operate
  cases delta? operator right with
  | none => exact hcombined
  | some delta =>
    dsimp only
    split
    -- a modifier is judged again at the interval that was judged at first, which is positive
    · rename_i haccepts
      rw [addModifier, if_pos haccepts]
      refine safe_ofExcept fun fault hfault => ?_
      obtain ⟨⟨added, hadded⟩, -⟩ | ⟨hlong, -⟩ := addTo_settled source (hleft.rejudges _)
      · rw [hadded] at hfault
        cases hfault
      · rw [hlong] at hfault
        cases hfault
        trivial
    · exact hcombined

/-- **An expression is safe.** -/
theorem safe_evaluate : ∀ expression : Expr, Safe (evaluate limits expression : Play σ Outcome)
  | .literal value position => by
    rw [evaluate]
    exact safe_pure _
  | .var name position => by
    rw [evaluate]
    exact safe_lookUp name
  | .roll term position => by
    rw [evaluate]
    exact safe_roll hanswers limits term
  | .signed .plus operand position => by
    rw [evaluate]
    exact safe_evaluate operand
  | .signed .minus operand position => by
    rw [evaluate]
    exact (safe_evaluate operand).next fun _ => safe_ofExcept fun _ => negated_ofPlay
  | .binary operator left right position => by
    rw [evaluate]
    refine (safe_evaluate left).bind fun leftOutcome hleft => (safe_evaluate right).next fun rightOutcome => ?_
    obtain ⟨_, _, hleft⟩ := hleft
    exact safe_operate (AllFollow.evaluate hleft)
  | .unbounded operand position => by
    rw [evaluate]
    exact (safe_evaluate operand).next fun _ => safe_ofRule (refused_restrict _ _ _)
  | .atLeast operand minimum position => by
    rw [evaluate]
    exact (safe_evaluate operand).next fun _ => (safe_evaluate minimum).next fun _ =>
      safe_ofRule (refused_restrict _ _ _)
  | .atMost operand maximum position => by
    rw [evaluate]
    exact (safe_evaluate operand).next fun _ => (safe_evaluate maximum).next fun _ =>
      safe_ofRule (refused_restrict _ _ _)
  | .between operand minimum maximum position => by
    rw [evaluate]
    exact (safe_evaluate operand).next fun _ => (safe_evaluate minimum).next fun _ =>
      (safe_evaluate maximum).next fun _ => safe_ofRule (refused_restrict _ _ _)
  | .assign name value position => by
    rw [evaluate]
    exact (safe_evaluate value).next fun outcome => (safe_assign name outcome.value).next fun _ => safe_pure _

theorem safe_evaluateAll : ∀ expressions : List Expr, Safe (evaluateAll limits expressions : Play σ (List Outcome))
  | [] => safe_pure _
  | expression :: rest => by
    rw [evaluateAll]
    exact (safe_evaluate hanswers limits expression).next fun _ => (safe_evaluateAll rest).next fun _ => safe_pure _

theorem safe_modifierValue : ∀ modifier : Option (Sign × Expr), Safe (modifierValue limits modifier : Play σ Int)
  | none => safe_pure _
  | some (.plus, expression) | some (.minus, expression) =>
    (safe_evaluate hanswers limits expression).next fun _ => safe_pure _

theorem safe_evaluateStatement (statement : Statement) :
    Safe (evaluateStatement limits statement : Play σ Outcome) := by
  cases statement with
  | once expression position => exact safe_evaluate hanswers limits expression
  | times count expression position =>
    refine (safe_ofRule (refused_repeatCount _ _)).next fun count => ?_
    exact ((safe_evaluate hanswers limits expression).times count).next fun _ => safe_pure _
  | batch count expressions position =>
    refine (safe_ofRule (refused_repeatCount _ _)).next fun count => ?_
    exact (((safe_evaluateAll hanswers limits expressions).map _).times count).next fun _ => safe_pure _
  | ironsworn modifier position =>
    refine (safe_modifierValue hanswers limits modifier).next fun _ => ?_
    refine (Roller.safe_die hanswers 6).next fun _ => ?_
    exact (Roller.safe_die hanswers 10).next fun _ => (Roller.safe_die hanswers 10).next fun _ => safe_pure _
  | flag name position => exact safe_pure _

theorem safe_evaluateStatements : ∀ statements : List Statement,
    Safe (evaluateStatements limits statements : Play σ (List Outcome))
  | [] => safe_pure _
  | statement :: rest => by
    rw [evaluateStatements]
    refine (safe_report _).next fun _ => (safe_evaluateStatement hanswers limits statement).next fun _ => ?_
    exact (safe_evaluateStatements rest).next fun _ => safe_pure _

theorem safe_evaluateCommand (command : Command) : Safe (evaluateCommand limits command : Play σ Outcome) := by
  refine (safe_report _).next fun _ => (safe_evaluateStatement hanswers limits command.first).next fun _ => ?_
  exact (safe_evaluateStatements hanswers limits command.others).next fun _ => safe_pure _

end Evaluation

end Rolls

/-! ## Texts -/

namespace Engine

variable {σ : Type} [RandomSource σ]

/-- **The text that is read**: with its suffixes in order if that is wanted, or if it is usual and nothing else is
said. -/
def prepared (settings : Settings) (wanted : Option Bool) (text : String) : String :=
  if wanted.getD settings.normalize then SuffixOrder.normalize text else text

/-- The text that is prepared is evaluated after it may have been reported. -/
theorem evaluate_reported (settings : Settings) (setup : Setup) (wanted : Option Bool) (text : String)
    (table : Table σ) : ∃ log, evaluate settings setup wanted text table =
      evaluateText settings setup (prepared settings wanted text) { table with log } := by
  unfold evaluate prepared
  split
  · by_cases hchanged : SuffixOrder.normalize text ≠ text
    · have hreport := Play.report_writable (Event.writable_normalized text (SuffixOrder.normalize text)) table
      dsimp only
      rw [if_pos hchanged]
      exact ⟨_, Play.bind_eq hreport _⟩
    · dsimp only
      rw [if_neg hchanged]
      exact ⟨table.log, rfl⟩
  · exact ⟨table.log, rfl⟩

/-- **A text that is no command is refused before anything else happens.** -/
theorem evaluateText_unreadable {settings : Settings} {setup : Setup} {text : String} {error : SyntaxError}
    (h : Command.parse text = .error error) (table : Table σ) :
    evaluateText settings setup text table = .error (.rule (.unreadable error)) table := by
  unfold evaluateText
  rw [h]
  rfl

theorem safe_evaluateText (hanswers : RandomSource.Answers σ) (settings : Settings) (setup : Setup) {text : String}
    {command : Command} (h : Command.parse text = .ok command) :
    Play.Safe (evaluateText settings setup text : Play σ Outcome) := by
  have hreseed : Play.Safe (Play.reseed setup.seed : Play σ Unit) := Play.safe_modify fun _ => rfl
  have hforget : Play.Safe (Play.forget : Play σ Unit) := Play.safe_modify fun _ => rfl
  unfold evaluateText
  rw [h]
  refine (Play.safe_pure command).next fun read => hreseed.next fun _ => hforget.next fun _ => ?_
  refine (safe_evaluateCommand hanswers _ read).next fun outcome => ?_
  exact (Play.safe_report _).next fun _ => Play.safe_pure outcome

/-- **A text fails through the player only.** Every numeral in it is read as a number. If it is no command, that is
said before anything is drawn; if it is one, its evaluation is safe, as that of every command is. What the evaluation
looks up is found: the symbol of every operator, and the row of a table for every face of a six-sided die. -/
theorem evaluate_safe (hanswers : RandomSource.Answers σ) (settings : Settings) (setup : Setup)
    (normalize : Option Bool) (expression : String) (table : Table σ) :
    (∀ tokens, Token.scan (prepared settings normalize expression).toList = .ok tokens →
      ∀ token ∈ tokens, ∀ digits ∈ token.lexeme.numerals,
        Text.readInt? (String.ofList digits) = some (Text.numeralValue digits : Int)) ∧
    ((∃ error after, Command.parse (prepared settings normalize expression) = .error error ∧
        evaluate settings setup normalize expression table = .error (.rule (.unreadable error)) after ∧
        after.draws = table.draws ∧ after.source = table.source) ∨
      ∃ command, Command.parse (prepared settings normalize expression) = .ok command ∧
        Play.Ends table (evaluate settings setup normalize expression table)) ∧
    (∀ (limits : Limits) (command : Command), Play.Safe (evaluateCommand limits command : Play σ Outcome)) ∧
    (∀ (operator : BinaryOperator) (left right : Int), Arithmetic.applySymbol operator.symbol [left, right] =
      (Arithmetic.apply operator left right).mapError .rule) ∧
    ∀ face : Int, 1 ≤ face → face ≤ 6 → (∃ shown ∈ Roller.fudgeFaces, Roller.pick Roller.fudgeFaces face = .ok shown) ∧
      ∃ sides ∈ carcosaSizes, Roller.pick carcosaSizes face = .ok sides := by
  refine ⟨fun tokens hscan => Token.scan_numerals hscan, ?_, safe_evaluateCommand hanswers,
    Arithmetic.applySymbol_symbol, fun face hlow hhigh => ⟨Roller.pick_ok hlow hhigh, Roller.pick_ok hlow hhigh⟩⟩
  cases hparse : Command.parse (prepared settings normalize expression) with
  | error error =>
    obtain ⟨log, hevaluate⟩ := evaluate_reported settings setup normalize expression table
    refine .inl ⟨error, { table with log }, rfl, ?_, rfl, rfl⟩
    rw [hevaluate, evaluateText_unreadable hparse]
  | ok command =>
    obtain ⟨log, hevaluate⟩ := evaluate_reported settings setup normalize expression table
    have hends := safe_evaluateText hanswers settings setup hparse { table with log }
    refine .inr ⟨command, rfl, ?_⟩
    rw [hevaluate]
    exact hends.of_draws rfl

/-- A die with sides and a die without. -/
theorem evaluate_safe_sideless :
    RandomSource.Answers Scripted.Unfailing ∧
    Play.Ends (Table.new (⟨⟨[some 3], 7⟩, by decide⟩ : Scripted.Unfailing))
      (evaluate {} (setup {} none) none "d6+d0" (Table.new ⟨⟨[some 3], 7⟩, by decide⟩)) := by
  refine ⟨Scripted.Unfailing.answers, ?_⟩
  have hsafe := evaluate_safe Scripted.Unfailing.answers {} (setup {} none) none "d6+d0"
    (Table.new ⟨⟨[some 3], 7⟩, by decide⟩)
  rcases hsafe.2.1 with ⟨error, -, hparse, -⟩ | ⟨command, -, hends⟩
  · have hparses : Command.parses (prepared {} none "d6+d0") (fun _ => true) = true := by decide +kernel
    obtain ⟨command, hcommand, -⟩ := Command.ok_of_parses _ hparses
    rw [hcommand] at hparse
    cases hparse
  · exact hends

end Engine

end TabletopDice
