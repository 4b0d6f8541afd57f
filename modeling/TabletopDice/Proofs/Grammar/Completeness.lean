import TabletopDice.Proofs.Grammar.Soundness
/-!
# Completeness — what the grammar derives is read

A rule of the parser that is given a phrase of the grammar, and after it the end or a sign that may follow the phrase,
takes the phrase and leaves the rest. The rules of expressions do so if they are given at least as many levels as the
derivation nests, and stop if they are given fewer: `Cut` says both at once. Two derivations of the same tokens are
told apart by no number of levels, so they are the same derivation.
-/
namespace TabletopDice
namespace Command

open Grammar

/-! ## Rolls -/

theorem number_numeral {ts : List Token} {n : Nat} (h : Numeral ts n) (what : Expectation) (rest : List Token) :
    number what (ts ++ rest) = .ok (n, rest) := by
  cases h
  rfl

theorem targetSuffix_phrase {ts rest : List Token} {target : Option TargetSuffix} (h : Optional TargetPhrase ts target)
    (hrest : Follow anySign rest) : targetSuffix (ts ++ rest) = .ok (target, rest) := by
  cases h with
  | missing => cases hrest <;> rfl
  | present h =>
    cases h with
    | target hn => cases hn; cases hrest <;> rfl
    | interval hm => cases hm; rfl
    | both hn hm => cases hn; cases hm; rfl

theorem successSuffix_phrase {ts us rest : List Token} {n : Nat} {m : Option Nat} (hn : Numeral ts n)
    (hm : Optional (Lettered .f) us m) (hrest : Follow anySign rest) :
    successSuffix (ts ++ (us ++ rest)) = .ok (⟨n, m⟩, rest) := by
  cases hn
  cases hm with
  | missing => cases hrest <;> rfl
  | present hm => cases hm; rfl

/-- The lexemes that a target number starts with, or what follows where it is missing. -/
def startsTarget : Lexeme → Bool
  | .keyword .t | .keyword .r | .symbol _ => true
  | _ => false

theorem starts_target {us rest : List Token} {target : Option TargetSuffix} (h : Optional TargetPhrase us target)
    (hrest : Follow anySign rest) : Starts startsTarget (us ++ rest) := by
  rintro t ht
  cases h with
  | missing => cases hrest <;> cases ht; rfl
  | present h =>
    cases h with
    | target hn => cases hn; cases ht; rfl
    | interval hm => cases hm; cases ht; rfl
    | both hn hm => cases hn; cases ht; rfl

theorem optionalNumber_phrase {ts us rest : List Token} {count : Option Nat} {target : Option TargetSuffix}
    (h : Optional Numeral ts count) (ht : Optional TargetPhrase us target) (hrest : Follow anySign rest) :
    optionalNumber (ts ++ (us ++ rest)) = (count, us ++ rest) := by
  cases h with
  | present h => cases h; rfl
  | missing =>
    rw [List.nil_append, optionalNumber]
    exact fun digits => (starts_target ht hrest).not_cons rfl

theorem keepRule?_keepWord (rule : KeepRule) : keepRule? (keepWord rule) = some rule := by cases rule <;> rfl

theorem reading_phrase {ts rest : List Token} {read : Reading} (h : ReadingPhrase ts read)
    (hrest : Follow anySign rest) : reading (ts ++ rest) = .ok (read, rest) := by
  cases h with
  | success h =>
    obtain ⟨⟨digits, p, q⟩, hm⟩ := h
    rw [List.append_assoc]
    have := successSuffix_phrase (.mk digits q) hm hrest
    simp only [List.cons_append, List.nil_append, reading] at this ⊢
    rw [this]
    rfl
  | keep hk ht =>
    obtain ⟨rule, p, hc⟩ := hk
    have hcount := optionalNumber_phrase hc ht hrest
    have htarget := targetSuffix_phrase ht hrest
    have hword := keepRule?_keepWord rule
    rw [List.append_assoc, List.cons_append, reading]
    · simp only [hword, hcount, htarget]
      rfl
    · cases rule <;> simp [keepWord]
  | target ht =>
    have htarget := targetSuffix_phrase ht hrest
    cases ht with
    | missing => cases hrest <;> rfl
    | present ht =>
      cases ht with
      | target hn => cases hn; cases hrest <;> rfl
      | interval hm => cases hm; rfl
      | both hn hm => cases hn; cases hm; rfl

theorem acingMark_phrase {ts us rest : List Token} {acing : Bool} {read : Reading} (h : AcingMark ts acing)
    (hr : ReadingPhrase us read) (hrest : Follow afterPrimary rest) :
    acingMark (ts ++ (us ++ rest)) = (acing, us ++ rest) := by
  cases h with
  | present p => rfl
  | missing =>
    cases hr with
    | keep hk => cases hk; rfl
    | success hs => obtain ⟨⟨digits, p, q⟩, hm⟩ := hs; rfl
    | target ht =>
      cases ht with
      | missing =>
        cases hrest with
        | nothing => rfl
        | @sign s p ts hs => cases s <;> first | rfl | cases hs
      | present ht =>
        cases ht with
        | target hn => cases hn; rfl
        | interval hm => cases hm; rfl
        | both hn hm => cases hn; cases hm; rfl

theorem genericRoll_phrase {bs rs rest : List Token} {acing : Bool} {read : Reading} (count : Option Nat)
    (faces : Faces) (hb : AcingMark bs acing) (hr : ReadingPhrase rs read) (hrest : Follow afterPrimary rest) :
    genericRoll count faces (bs ++ (rs ++ rest)) = .ok (.generic ⟨count, faces, acing, read⟩, rest) := by
  unfold genericRoll
  rw [acingMark_phrase hb hr hrest, reading_phrase hr hrest.any]
  rfl

theorem wildSides_phrase {ts us rest : List Token} {wild : Option Nat} {target : Option TargetSuffix}
    (h : Optional (Lettered .w) ts wild) (ht : Optional TargetPhrase us target) (hrest : Follow anySign rest) :
    wildSides (ts ++ (us ++ rest)) = .ok (wild, us ++ rest) := by
  cases h with
  | present h => cases h; rfl
  | missing =>
    rw [List.nil_append, wildSides]
    exact (starts_target ht hrest).not_cons rfl

theorem diceRoll_generic {fs bs rs rest : List Token} {count : Option Nat} {faces : Faces} {acing : Bool}
    {read : Reading} (hf : FacesPhrase fs faces) (hb : AcingMark bs acing) (hr : ReadingPhrase rs read)
    (hrest : Follow afterPrimary rest) :
    diceRoll count (fs ++ (bs ++ (rs ++ rest))) = .ok (.generic ⟨count, faces, acing, read⟩, rest) := by
  have hgeneric := genericRoll_phrase count faces hb hr hrest
  cases hf with
  | sides hn => cases hn; exact hgeneric
  | percent p => exact hgeneric

theorem savageRoll_phrase {ts ws us rest : List Token} {wild : Option Nat} {trait : Nat}
    {target : Option TargetSuffix} (count : Option Nat) (hn : Numeral ts trait) (hw : Optional (Lettered .w) ws wild)
    (ht : Optional TargetPhrase us target) (hrest : Follow anySign rest) :
    savageRoll count (ts ++ (ws ++ (us ++ rest))) = .ok (.savage ⟨count, trait, wild, target⟩, rest) := by
  unfold savageRoll
  rw [number_numeral hn]
  simp only [bind, Except.bind, wildSides_phrase hw ht hrest, targetSuffix_phrase ht hrest]

theorem extrasRoll_phrase {ts us rest : List Token} {sides : Nat} {target : Option TargetSuffix}
    (count : Option Nat) (hn : Numeral ts sides) (ht : Optional TargetPhrase us target) (hrest : Follow anySign rest) :
    extrasRoll count (ts ++ (us ++ rest)) = .ok (.extras ⟨count, sides, target⟩, rest) := by
  unfold extrasRoll
  rw [number_numeral hn]
  simp only [bind, Except.bind, targetSuffix_phrase ht hrest]

/-- The rule for a roll after its letter. -/
def rollAfter (letter : Keyword) : Option Nat → List Token → Except Stop (Roll × List Token) :=
  match letter with
  | .s => savageRoll
  | .e => extrasRoll
  | _ => diceRoll

theorem primary_letter {cs us : List Token} {count : Option Nat} {t : Token} {ts rest : List Token} {letter : Keyword}
    {p : Nat} (hletter : letter = .d ∨ letter = .s ∨ letter = .e) (hc : Optional Numeral cs count)
    (h : cs ++ ⟨.keyword letter, p⟩ :: us = t :: ts) (levels : Nat) :
    primary levels (t :: ts ++ rest) = atPosition t.position (rollAfter letter count (us ++ rest)) := by
  cases hc with
  | missing =>
    cases h
    rcases hletter with rfl | rfl | rfl <;> exact primary.eq_def _ _
  | present hn =>
    cases hn
    cases h
    rcases hletter with rfl | rfl | rfl <;> exact primary.eq_def _ _

/-- **A roll term is read as an operand**, at any number of levels. -/
theorem primary_roll {t : Token} {ts rest : List Token} {term : Roll} (h : RollPhrase (t :: ts) term)
    (hrest : Follow afterPrimary rest) (levels : Nat) :
    primary levels (t :: ts ++ rest) = .ok (.roll term t.position, rest) := by
  obtain ⟨whole, hts⟩ : ∃ whole, whole = t :: ts := ⟨_, rfl⟩
  rw [← hts] at h
  cases h with
  | generic p hc hf hb hr =>
    rw [primary_letter (.inl rfl) hc hts, List.append_assoc, List.append_assoc]
    simp only [rollAfter, diceRoll_generic hf hb hr hrest]
    rfl
  | fudge p q hc | carcosa p q hc =>
    rw [primary_letter (.inl rfl) hc hts]
    rfl
  | @savage _ _ _ _ count _ _ _ hc ht hw hu =>
    obtain ⟨digits, p, q⟩ := ht
    have hsavage := savageRoll_phrase count (.mk digits q) hw hu hrest.any
    simp only [List.cons_append, List.nil_append] at hts hsavage
    rw [primary_letter (.inr (.inl rfl)) hc hts, List.cons_append, List.append_assoc, rollAfter, hsavage]
    rfl
  | @extras _ _ _ count _ _ hc ht hu =>
    obtain ⟨digits, p, q⟩ := ht
    have hextras := extrasRoll_phrase count (.mk digits q) hu hrest.any
    simp only [List.cons_append, List.nil_append] at hts hextras
    rw [primary_letter (.inr (.inr rfl)) hc hts, List.cons_append, rollAfter, hextras]
    rfl
  | weg p hn =>
    cases hn
    cases hts
    exact primary.eq_def _ _
  | span low high p =>
    cases hts
    exact primary.eq_def _ _

/-! ## Expressions -/

/-- **The exact cut-off of a rule**: at `n` levels or more it gives the result, at fewer it stops. -/
def Cut {α : Type} (n levels : Nat) (parsed result : Except Stop α) : Prop :=
  (n ≤ levels → parsed = result) ∧ (levels < n → ∃ stop, parsed = .error stop)

theorem Cut.of_eq {α : Type} {levels : Nat} {parsed result : Except Stop α} (h : parsed = result) :
    Cut 0 levels parsed result := ⟨fun _ => h, fun hlt => absurd hlt (Nat.not_lt_zero _)⟩

theorem Cut.congr {α : Type} {n levels : Nat} {parsed between result : Except Stop α} (h : Cut n levels parsed between)
    (heq : between = result) : Cut n levels parsed result := heq ▸ h

theorem Cut.bind {α β : Type} {n levels : Nat} {parsed : Except Stop α} {a : α} (h : Cut n levels parsed (.ok a))
    (next : α → Except Stop β) : Cut n levels (parsed >>= next) (next a) := by
  constructor
  · intro hle
    rw [h.1 hle]
    rfl
  · intro hlt
    obtain ⟨stop, hstop⟩ := h.2 hlt
    exact ⟨stop, by rw [hstop]; rfl⟩

/-- A rule that goes on as another one has the later cut-off of both. -/
theorem Cut.trans {α : Type} {m n levels : Nat} {parsed between result : Except Stop α}
    (h₁ : Cut m levels parsed between) (h₂ : Cut n levels between result) : Cut (max m n) levels parsed result := by
  constructor
  · intro hle
    rw [h₁.1 (by omega), h₂.1 (by omega)]
  · intro hlt
    by_cases hm : levels < m
    · exact h₁.2 hm
    · obtain ⟨stop, hstop⟩ := h₂.2 (by omega)
      exact ⟨stop, by rw [h₁.1 (by omega), hstop]⟩

/-- A chain that has used up `k` levels uses up one more, and `n` levels inside it. -/
theorem Cut.operand {α : Type} {n : Nat} (chain next : Nat → Except Stop α) (hnone : ∃ stop, chain 0 = .error stop)
    (h : ∀ levels, Cut n levels (chain (levels + 1)) (next levels)) (k levels : Nat) :
    Cut (k + 1 + n) levels (chain (levels - k)) (next (levels - (k + 1))) := by
  by_cases hk : levels ≤ k
  · refine ⟨fun hle => absurd hle (by omega), fun _ => ?_⟩
    rw [Nat.sub_eq_zero_of_le hk]
    exact hnone
  · have hlevels : levels - k = levels - (k + 1) + 1 := by omega
    rw [hlevels]
    have hcut := h (levels - (k + 1))
    exact ⟨fun hle => hcut.1 (by omega), fun hlt => hcut.2 (by omega)⟩

/-- A rule that uses up one level for what stands inside it. -/
theorem Cut.level {α : Type} {n : Nat} {result : Except Stop α} (rule : Nat → Except Stop α)
    (hnone : ∃ stop, rule 0 = .error stop) (h : ∀ levels, Cut n levels (rule (levels + 1)) result) (levels : Nat) :
    Cut (n + 1) levels (rule levels) result := by
  have hcut := Cut.operand rule (fun _ => result) hnone h 0 levels
  rw [Nat.sub_zero, Nat.zero_add, Nat.add_comm] at hcut
  exact hcut

/-- A chain of operators ends at a sign that may follow it. -/
theorem chainStep_follow {operator? : Symbol → Option BinaryOperator}
    {operand : Nat → List Token → Except Stop (Expr × List Token)}
    {chain : Nat → Expr → List Token → Except Stop (Expr × List Token)} {allowed : Symbol → Bool} {rest : List Token}
    (h : Follow allowed rest) (hend : ∀ s, allowed s = true → operator? s = none) (levels : Nat) (e : Expr) :
    chainStep operator? operand chain levels e rest = .ok (e, rest) := by
  cases h with
  | nothing => rfl
  | sign hs =>
    refine chainStep_end levels e fun s p ts heq => ?_
    cases heq
    exact hend _ hs

theorem additiveChain_stop {rest : List Token} (h : Follow afterExpr rest) (levels : Nat) (e : Expr) :
    additiveChain levels e rest = .ok (e, rest) := by
  rw [additiveChain_eq]
  exact chainStep_follow h (fun s hs => by cases s <;> first | rfl | cases hs) levels e

theorem multiplicativeChain_stop {rest : List Token} (h : Follow afterTerm rest) (levels : Nat) (e : Expr) :
    multiplicativeChain levels e rest = .ok (e, rest) := by
  rw [multiplicativeChain_eq]
  exact chainStep_follow h (fun s hs => by cases s <;> first | rfl | cases hs) levels e

theorem boundsChain_stop {rest : List Token} (h : Follow afterFactor rest) (levels : Nat) (e : Expr) :
    boundsChain levels e rest = .ok (e, rest) := by
  rw [boundsChain]
  exact h.not_sign rfl

theorem expr_sum {tokens : List Token} (h : opensAssignment tokens = false) (levels : Nat) :
    expr (levels + 1) tokens = additive levels tokens := by
  rw [expr]
  rintro name p q rest rfl
  cases h

/-- An operand that begins with no sign is one with bounds. -/
theorem unary_withBounds {tokens : List Token} (levels : Nat)
    (h : ∀ symbol position rest, tokens = ⟨.symbol symbol, position⟩ :: rest → sign? symbol = none) :
    unary levels tokens = withBounds levels tokens := by
  rw [unary.eq_def]
  split
  · simp only [h _ _ _ rfl]
  · rfl

theorem unary_unsigned {tokens : List Token} (h : opensSigned tokens = false) (levels : Nat) :
    unary levels tokens = withBounds levels tokens := by
  refine unary_withBounds levels fun s p rest heq => ?_
  subst heq
  cases s <;> first | rfl | cases h

/-- A bound is an expression where the closing sign does not come at once. -/
theorem openBound_expr {closing : Symbol} {tokens : List Token} (levels : Nat)
    (h : ∀ position rest, tokens = ⟨.symbol closing, position⟩ :: rest → False) :
    openBound levels closing tokens = expr levels tokens >>= fun read => .ok (some read.1, read.2) := by
  rw [openBound.eq_def]
  split
  · split
    · rename_i hclosing
      subst hclosing
      exact (h _ _ rfl).elim
    · rfl
  · rfl

/-- What an optional bound before a closing sign is read as. -/
def BoundReads (closing : Symbol) (ts : List Token) (bound : Option Expr) (n : Nat) : Prop :=
  ∀ q rest levels, Cut n levels (openBound levels closing (ts ++ ⟨.symbol closing, q⟩ :: rest))
    (.ok (bound, ⟨.symbol closing, q⟩ :: rest))

theorem boundReads_missing (closing : Symbol) : BoundReads closing [] none 0 := by
  intro q rest levels
  refine .of_eq ?_
  rw [List.nil_append, openBound]
  exact if_pos rfl

theorem openBound_present {tokens : List Token} {closing : Symbol} (h : opensExpr tokens = true)
    (hclosing : afterExpr closing = true) (levels : Nat) :
    openBound levels closing tokens = expr levels tokens >>= fun read => .ok (some read.1, read.2) := by
  refine openBound_expr levels fun p rest heq => ?_
  subst heq
  cases closing <;> first | exact Bool.noConfusion h | exact Bool.noConfusion hclosing

/-- The bounds after an operand that has used up `k` levels. -/
theorem boundsChain_bounded {us vs : List Token} {e : Expr} {low high : Option Expr} {n o : Nat} (p q r : Nat)
    (hlow : BoundReads .colon us low n) (hhigh : BoundReads .closeBracket vs high o) (rest : List Token)
    (k levels : Nat) :
    Cut (k + 1 + max n o) levels
      (boundsChain (levels - k) e
        (⟨.symbol .openBracket, p⟩ :: (us ++ ⟨.symbol .colon, q⟩ :: (vs ++ ⟨.symbol .closeBracket, r⟩ :: rest))))
      (boundsChain (levels - (k + 1)) (.bounded e low high p) rest) := by
  refine Cut.operand (fun levels => boundsChain levels e _) (fun levels => boundsChain levels _ rest)
    ⟨_, boundsChain.eq_def _ _ _⟩ (fun levels => ?_) k levels
  rw [boundsChain]
  exact ((hlow q _ levels).bind _).trans ((hhigh r rest levels).bind _)

/-- **How the parser reads the tokens that derive an expression by a rule**, the rest being one that may follow. A
chain is read up to the point where its rest begins. -/
def Reads : Rule → List Token → Expr → Nat → Prop
  | .expr, ts, e, n => ∀ rest, Follow afterExpr rest → ∀ levels,
      Cut n levels (expr levels (ts ++ rest)) (.ok (e, rest))
  | .additive k, ts, e, n => ∀ rest, Follow afterTerm rest → ∀ levels,
      Cut n levels (additive levels (ts ++ rest)) (additiveChain (levels - k) e rest)
  | .multiplicative k, ts, e, n => ∀ rest, Follow afterFactor rest → ∀ levels,
      Cut n levels (multiplicative levels (ts ++ rest)) (multiplicativeChain (levels - k) e rest)
  | .unary, ts, e, n => ∀ rest, Follow afterFactor rest → ∀ levels,
      Cut n levels (unary levels (ts ++ rest)) (.ok (e, rest))
  | .bounds k, ts, e, n => ∀ rest, Follow afterPrimary rest → ∀ levels,
      Cut n levels (withBounds levels (ts ++ rest)) (boundsChain (levels - k) e rest)
  | .primary, ts, e, n => ∀ rest, Follow afterPrimary rest → ∀ levels,
      Cut n levels (primary levels (ts ++ rest)) (.ok (e, rest))

theorem boundReads_present {closing : Symbol} {ts : List Token} {e : Expr} {n : Nat} (h : Derives .expr ts e n)
    (hr : Reads .expr ts e n) (hclosing : afterExpr closing = true) : BoundReads closing ts (some e) n := by
  intro q rest levels
  rw [openBound_present (h.opens (.sign rfl)) hclosing]
  exact (hr _ (.sign hclosing) levels).bind _

/-- An operator of a chain and its right operand use up one level of the chain. -/
theorem Cut.step {operator? : Symbol → Option BinaryOperator}
    {operand : Nat → List Token → Except Stop (Expr × List Token)}
    {chain : Nat → Expr → List Token → Except Stop (Expr × List Token)} {us rest : List Token} {l r : Expr} {n : Nat}
    {s : Symbol} {op : BinaryOperator}
    (hchain : ∀ levels e tokens, chain levels e tokens = chainStep operator? operand chain levels e tokens)
    (hop : operator? s = some op) (hread : ∀ levels, Cut n levels (operand levels (us ++ rest)) (.ok (r, rest)))
    (p k levels : Nat) :
    Cut (k + 1 + n) levels (chain (levels - k) l (⟨.symbol s, p⟩ :: (us ++ rest)))
      (chain (levels - (k + 1)) (.binary op l r p) rest) := by
  refine Cut.operand (fun levels => chain levels l _) (fun levels => chain levels _ rest)
    ⟨⟨.tooDeep, ⟨.symbol s, p⟩ :: (us ++ rest)⟩, ?_⟩ (fun levels => ?_) k levels
  · rw [hchain, chainStep_tooDeep hop]
  · rw [hchain, chainStep_operator hop]
    exact (hread levels).bind _

/-- **What the grammar derives as an expression is read as it**, at its nesting or more levels and at no fewer. -/
theorem reads_of_derives {rule : Rule} {ts : List Token} {e : Expr} {n : Nat} (h : Derives rule ts e n) :
    Reads rule ts e n := by
  induction h with
  | assignment name p q _ ih =>
    intro rest hrest levels
    refine Cut.level (fun levels => expr levels _) ⟨_, expr.eq_def _ _⟩ (fun levels => ?_) levels
    rw [List.cons_append, List.cons_append, expr]
    exact (ih rest hrest levels).bind _
  | sum h ih =>
    intro rest hrest levels
    refine Cut.level (fun levels => expr levels _) ⟨_, expr.eq_def _ _⟩ (fun levels => ?_) levels
    rw [expr_sum (h.not_opensAssignment (by simp) hrest.any)]
    exact (ih rest hrest.term levels).congr (additiveChain_stop hrest _ _)
  | oneTerm _ ih =>
    intro rest hrest levels
    rw [additive]
    exact ((ih rest hrest.factor levels).congr (multiplicativeChain_stop hrest _ _)).bind _
  | @moreTerms _ _ _ _ _ _ _ _ s op p h hs hr ih ihr =>
    intro rest hrest levels
    rw [List.append_assoc]
    have hop : additiveOperator? s = some op := by cases hs <;> rfl
    have hright := fun levels => (ihr rest hrest.factor levels).congr (multiplicativeChain_stop hrest _ _)
    exact (ih _ (.sign (by cases hs <;> rfl)) levels).trans (Cut.step additiveChain_eq hop hright p _ levels)
  | oneFactor _ ih =>
    intro rest hrest levels
    rw [multiplicative]
    exact (ih rest hrest levels).bind _
  | @moreFactors _ _ _ _ _ _ _ s op p h hs hr ih ihr =>
    intro rest hrest levels
    rw [List.append_assoc]
    have hop : multiplicativeOperator? s = some op := by cases hs <;> rfl
    exact (ih _ (.sign (by cases hs <;> rfl)) levels).trans
      (Cut.step multiplicativeChain_eq hop (ihr rest hrest) p _ levels)
  | @signed ts e n s sign p hs _ ih =>
    intro rest hrest levels
    have hsign : sign? s = some sign := by cases hs <;> rfl
    refine Cut.level (fun levels => unary levels _) ⟨⟨.tooDeep, ⟨.symbol s, p⟩ :: (ts ++ rest)⟩, ?_⟩
      (fun levels => ?_) levels
    · rw [List.cons_append, unary]
      simp only [hsign]
    · rw [List.cons_append, unary]
      simp only [hsign]
      exact (ih rest hrest levels).bind _
  | unsigned h ih =>
    intro rest hrest levels
    rw [unary_unsigned (h.bounds_not_opensSigned rest)]
    exact (ih rest hrest.primary levels).congr (boundsChain_stop hrest _ _)
  | noBounds _ ih =>
    intro rest hrest levels
    rw [withBounds]
    exact (ih rest hrest levels).bind _
  | unbounded p q r _ ih =>
    intro rest hrest levels
    rw [List.append_assoc]
    exact (ih _ (.sign rfl) levels).trans
      (boundsChain_bounded p q r (boundReads_missing _) (boundReads_missing _) rest _ levels)
  | atLeast p q r _ hlow ih ihlow =>
    intro rest hrest levels
    simpa [Expr.bounded] using (ih _ (.sign rfl) levels).trans
      (boundsChain_bounded p q r (boundReads_present hlow ihlow rfl) (boundReads_missing _) rest _ levels)
  | atMost p q r _ hhigh ih ihhigh =>
    intro rest hrest levels
    simpa [Expr.bounded] using (ih _ (.sign rfl) levels).trans
      (boundsChain_bounded p q r (boundReads_missing _) (boundReads_present hhigh ihhigh rfl) rest _ levels)
  | between p q r _ hlow hhigh ih ihlow ihhigh =>
    intro rest hrest levels
    simpa [Expr.bounded] using (ih _ (.sign rfl) levels).trans
      (boundsChain_bounded p q r (boundReads_present hlow ihlow rfl) (boundReads_present hhigh ihhigh rfl) rest _
        levels)
  | literal digits p =>
    intro rest hrest levels
    refine .of_eq ?_
    cases hrest <;> exact primary.eq_def _ _
  | var name p => exact fun rest hrest levels => .of_eq (primary.eq_def _ _)
  | parentheses p q _ ih =>
    intro rest hrest levels
    rw [List.cons_append, List.append_assoc, primary]
    exact (ih _ (.sign rfl) levels).bind _
  | roll hr => exact fun rest hrest levels => .of_eq (primary_roll hr hrest levels)

/-! ## Statements and commands -/

theorem expressions_of_derives {ts : List Token} {es : List Expr} {n : Nat} (h : DerivesAll ts es n) (q : Nat)
    (rest : List Token) :
    Cut n maxNesting (expressions (ts ++ ⟨.symbol .closeBracket, q⟩ :: rest))
      (.ok (es, ⟨.symbol .closeBracket, q⟩ :: rest)) := by
  induction h with
  | one h =>
    rw [expressions_eq]
    exact (reads_of_derives h _ (.sign rfl) maxNesting).bind _
  | more p h _ ih =>
    rw [List.append_assoc, expressions_eq]
    exact ((reads_of_derives h _ (.sign rfl) maxNesting).bind _).trans (ih.bind _)

theorem repetition_expr {tokens : List Token} (h : opensExpr tokens = true) (count p : Nat) :
    repetition count p tokens = expr maxNesting tokens >>= fun read => .ok (.times count read.1 p, read.2) := by
  unfold repetition
  split
  · cases h
  · rfl

theorem ironswornModifier_none {rest : List Token} (h : Follow afterExpr rest) :
    ironswornModifier rest = .ok (none, rest) := by
  cases h with
  | nothing => rfl
  | @sign s p ts hs => cases s <;> first | rfl | cases hs

theorem statement_once {tokens : List Token} (h : opensExpr tokens = true) {n : Nat} {e : Expr} {rest : List Token}
    (hread : Cut n maxNesting (expr maxNesting tokens) (.ok (e, rest))) {t : Token} (ht : tokens.head? = some t) :
    Cut n maxNesting (statement tokens) (.ok (.once e t.position, rest)) := by
  rw [statement.eq_def]
  split
  · cases h
  · cases h
  · cases h
  · cases h
  · cases ht
    exact hread.bind _

/-- **A statement that the grammar derives is read**, up to the end or a semicolon. -/
theorem statement_of_derives {ts : List Token} {s : Statement} {n : Nat} (h : DerivesStatement ts s n)
    {rest : List Token} (hrest : Follow afterExpr rest) :
    Cut n maxNesting (statement (ts ++ rest)) (.ok (s, rest)) := by
  cases h with
  | times digits p q h =>
    rw [List.cons_append, List.cons_append, statement, repetition_expr (h.opens hrest.any)]
    exact (reads_of_derives h rest hrest maxNesting).bind _
  | batch digits p q r c h =>
    simp only [List.cons_append, List.append_assoc, List.nil_append, statement, repetition]
    exact (expressions_of_derives h c rest).bind _
  | ironsworn p =>
    refine .of_eq ?_
    rw [List.cons_append, List.nil_append, statement, ironswornModifier_none hrest]
    rfl
  | @modified ts e n s sign p q hs h =>
    have hsign : sign? s = some sign := by cases hs <;> rfl
    rw [List.cons_append, List.cons_append, statement, ironswornModifier]
    simp only [hsign]
    have hread := reads_of_derives h rest hrest.term.factor maxNesting
    exact (hread.bind fun read => .ok (some (sign, read.1), read.2)).bind _
  | flag name p => exact .of_eq rfl
  | once h => exact statement_once (h.opens hrest.any) (reads_of_derives h rest hrest maxNesting) rfl

/-- **A command that the grammar derives is read to the end of the tokens**, if it nests no deeper than allowed. -/
theorem command_of_derives {ts : List Token} {c : Command} {n : Nat} (h : DerivesCommand ts c n) :
    Cut n maxNesting (command ts) (.ok (c, [])) := by
  induction h with
  | one h =>
    rw [command_eq]
    have hread := statement_of_derives h .nothing
    rw [List.append_nil] at hread
    exact hread.bind _
  | more p h _ ih =>
    rw [command_eq]
    exact ((statement_of_derives h (.sign rfl)).bind _).trans (ih.bind _)

/-- The cut-off for all the tokens of a text. -/
theorem ofTokens_of_derives {ts : List Token} {c : Command} {n : Nat} (h : DerivesCommand ts c n) :
    Cut n maxNesting (ofTokens ts) (.ok c) := (command_of_derives h).bind _

end Command
end TabletopDice
