import TabletopDice.Command.Parser
import TabletopDice.Proofs.Failure
import TabletopDice.Proofs.Grammar.Follow
/-!
# Soundness — what a rule reads derives what it returns

A rule of the parser that returns a tree has taken tokens from the head of its list, and the grammar derives the tree
from them. For the rules of expressions the nesting of the derivation is at most the number of levels that the rule
was given; the operators of a chain have used up as many of them as the chain has so far.
-/
namespace TabletopDice
namespace Command

open Failure Grammar

/-- **The tokens of a list that a rule has taken** derive what it returns. -/
def Takes {α : Type} (phrase : List Token → α → Prop) (tokens : List Token) (parsed : Except Stop (α × List Token)) :
    Prop :=
  ∀ a rest, parsed = .ok (a, rest) → ∃ taken, tokens = taken ++ rest ∧ phrase taken a

/-! ## Rolls -/

theorem takes_number (what : Expectation) (tokens : List Token) : Takes Numeral tokens (number what tokens) := by
  intro n rest h
  unfold number at h
  split at h
  · cases h; exact ⟨_, rfl, .mk _ _⟩
  · cases h

theorem sign_ok {symbol : Symbol} {tokens rest : List Token} (h : sign symbol tokens = .ok rest) :
    ∃ p, tokens = ⟨.symbol symbol, p⟩ :: rest := by
  unfold sign at h
  split at h
  · split at h
    · rename_i found position _ e
      subst e
      cases h
      exact ⟨position, rfl⟩
    · cases h
  · cases h

/-- A letter that has been read, and the numeral after it. -/
theorem lettered_of_numeral {letter : Keyword} {ts : List Token} {n : Nat} (p : Nat) (h : Numeral ts n) :
    Lettered letter (⟨.keyword letter, p⟩ :: ts) n := by
  cases h
  exact .mk _ _ _

theorem takes_targetSuffix (tokens : List Token) :
    Takes (Optional TargetPhrase) tokens (targetSuffix tokens) := by
  intro target rest h
  unfold targetSuffix at h
  split at h
  · rename_i p _
    obtain ⟨⟨n, after⟩, hn, h₁⟩ := bind_ok h
    obtain ⟨ts, rfl, hts⟩ := takes_number _ _ _ _ hn
    simp only at h₁
    split at h₁
    · rename_i q _
      obtain ⟨⟨m, after⟩, hm, h₂⟩ := bind_ok h₁
      obtain ⟨us, rfl, hus⟩ := takes_number _ _ _ _ hm
      cases h₂
      exact ⟨_ ++ _, by simp, .present (.both (lettered_of_numeral p hts) (lettered_of_numeral q hus))⟩
    · cases h₁
      exact ⟨_, rfl, .present (.target (lettered_of_numeral _ hts))⟩
  · obtain ⟨⟨m, after⟩, hm, h₁⟩ := bind_ok h
    obtain ⟨us, rfl, hus⟩ := takes_number _ _ _ _ hm
    cases h₁
    exact ⟨_, rfl, .present (.interval (lettered_of_numeral _ hus))⟩
  · cases h
    exact ⟨[], rfl, .missing⟩

theorem optionalNumber_eq (tokens : List Token) :
    ∃ taken, tokens = taken ++ (optionalNumber tokens).2 ∧ Optional Numeral taken (optionalNumber tokens).1 := by
  unfold optionalNumber
  split
  · exact ⟨_, rfl, .present (.mk _ _)⟩
  · exact ⟨[], rfl, .missing⟩

theorem takes_successSuffix {p : Nat} (tokens : List Token) :
    Takes SuccessPhrase (⟨.keyword .s, p⟩ :: tokens) (successSuffix tokens) := by
  intro suffix rest h
  unfold successSuffix at h
  obtain ⟨⟨n, after⟩, hn, h₁⟩ := bind_ok h
  obtain ⟨ts, rfl, hts⟩ := takes_number _ _ _ _ hn
  simp only at h₁
  split at h₁
  · rename_i q _
    obtain ⟨⟨m, after⟩, hm, h₂⟩ := bind_ok h₁
    obtain ⟨us, rfl, hus⟩ := takes_number _ _ _ _ hm
    cases h₂
    exact ⟨_ ++ _, by simp, .mk (lettered_of_numeral p hts) (.present (lettered_of_numeral q hus))⟩
  · cases h₁
    exact ⟨_ ++ [], by simp, .mk (lettered_of_numeral p hts) .missing⟩

theorem keepRule?_eq {word : Keyword} {rule : KeepRule} (h : keepRule? word = some rule) : word = keepWord rule := by
  cases word <;> cases h <;> rfl

theorem takes_reading (tokens : List Token) : Takes ReadingPhrase tokens (reading tokens) := by
  intro read rest h
  unfold reading at h
  split at h
  · obtain ⟨⟨suffix, after⟩, hs, h₁⟩ := bind_ok h
    obtain ⟨ts, e, hts⟩ := takes_successSuffix _ _ _ hs
    cases h₁
    exact ⟨ts, e, .success hts⟩
  · rename_i word p tokens hne
    split at h
    · rename_i rule hr
      obtain ⟨⟨target, after⟩, ht, h₁⟩ := bind_ok h
      obtain ⟨cs, e, hcs⟩ := optionalNumber_eq tokens
      obtain ⟨us, e', hus⟩ := takes_targetSuffix _ _ _ ht
      cases h₁
      refine ⟨(⟨.keyword (keepWord rule), p⟩ :: cs) ++ us, ?_, .keep (.mk rule p hcs) hus⟩
      rw [keepRule?_eq hr, List.append_assoc, ← e', List.cons_append, ← e]
    · obtain ⟨⟨target, after⟩, ht, h₁⟩ := bind_ok h
      obtain ⟨us, e, hus⟩ := takes_targetSuffix _ _ _ ht
      cases h₁
      exact ⟨us, e, .target hus⟩
  · obtain ⟨⟨target, after⟩, ht, h₁⟩ := bind_ok h
    obtain ⟨us, e, hus⟩ := takes_targetSuffix _ _ _ ht
    cases h₁
    exact ⟨us, e, .target hus⟩

theorem acingMark_eq (tokens : List Token) :
    ∃ taken, tokens = taken ++ (acingMark tokens).2 ∧ AcingMark taken (acingMark tokens).1 := by
  unfold acingMark
  split
  · exact ⟨_, rfl, .present _⟩
  · exact ⟨[], rfl, .missing⟩

theorem genericRoll_ok {count : Option Nat} {faces : Faces} {cs fs tokens rest : List Token} {term : Roll} (p : Nat)
    (hcount : Optional Numeral cs count) (hfaces : FacesPhrase fs faces)
    (h : genericRoll count faces tokens = .ok (term, rest)) :
    ∃ taken, tokens = taken ++ rest ∧ RollPhrase (cs ++ ⟨.keyword .d, p⟩ :: (fs ++ taken)) term := by
  unfold genericRoll at h
  obtain ⟨⟨read, after⟩, hr, h₁⟩ := bind_ok h
  obtain ⟨bs, e, hbs⟩ := acingMark_eq tokens
  obtain ⟨rs, e', hrs⟩ := takes_reading _ _ _ hr
  cases h₁
  exact ⟨bs ++ rs, by rw [List.append_assoc, ← e', ← e], .generic p hcount hfaces hbs hrs⟩

theorem diceRoll_ok {count : Option Nat} {cs tokens rest : List Token} {term : Roll} (p : Nat)
    (hcount : Optional Numeral cs count) (h : diceRoll count tokens = .ok (term, rest)) :
    ∃ taken, tokens = taken ++ rest ∧ RollPhrase (cs ++ ⟨.keyword .d, p⟩ :: taken) term := by
  unfold diceRoll at h
  split at h
  · cases h; exact ⟨[_], rfl, .fudge p _ hcount⟩
  · cases h; exact ⟨[_], rfl, .carcosa p _ hcount⟩
  · obtain ⟨taken, rfl, hroll⟩ := genericRoll_ok p hcount (.percent _) h
    exact ⟨_, rfl, hroll⟩
  · obtain ⟨⟨n, after⟩, hn, h₁⟩ := bind_ok h
    obtain ⟨fs, rfl, hfs⟩ := takes_number _ _ _ _ hn
    obtain ⟨taken, rfl, hroll⟩ := genericRoll_ok p hcount (.sides hfs) h₁
    exact ⟨fs ++ taken, by rw [List.append_assoc], hroll⟩

theorem takes_wildSides (tokens : List Token) : Takes (Optional (Lettered .w)) tokens (wildSides tokens) := by
  intro wild rest h
  unfold wildSides at h
  split at h
  · obtain ⟨⟨n, after⟩, hn, h₁⟩ := bind_ok h
    obtain ⟨ts, rfl, hts⟩ := takes_number _ _ _ _ hn
    cases h₁
    exact ⟨_, rfl, .present (lettered_of_numeral _ hts)⟩
  · cases h
    exact ⟨[], rfl, .missing⟩

theorem savageRoll_ok {count : Option Nat} {cs tokens rest : List Token} {term : Roll} (p : Nat)
    (hcount : Optional Numeral cs count) (h : savageRoll count tokens = .ok (term, rest)) :
    ∃ taken, tokens = taken ++ rest ∧ RollPhrase (cs ++ ⟨.keyword .s, p⟩ :: taken) term := by
  unfold savageRoll at h
  obtain ⟨⟨trait, after⟩, hn, h₁⟩ := bind_ok h
  obtain ⟨ts, rfl, hts⟩ := takes_number _ _ _ _ hn
  obtain ⟨⟨wild, after⟩, hw, h₂⟩ := bind_ok h₁
  obtain ⟨ws, rfl, hws⟩ := takes_wildSides _ _ _ hw
  obtain ⟨⟨target, after⟩, ht, h₃⟩ := bind_ok h₂
  obtain ⟨us, rfl, hus⟩ := takes_targetSuffix _ _ _ ht
  cases h₃
  exact ⟨ts ++ (ws ++ us), by simp only [List.append_assoc], .savage hcount (lettered_of_numeral p hts) hws hus⟩

theorem extrasRoll_ok {count : Option Nat} {cs tokens rest : List Token} {term : Roll} (p : Nat)
    (hcount : Optional Numeral cs count) (h : extrasRoll count tokens = .ok (term, rest)) :
    ∃ taken, tokens = taken ++ rest ∧ RollPhrase (cs ++ ⟨.keyword .e, p⟩ :: taken) term := by
  unfold extrasRoll at h
  obtain ⟨⟨sides, after⟩, hn, h₁⟩ := bind_ok h
  obtain ⟨ts, rfl, hts⟩ := takes_number _ _ _ _ hn
  obtain ⟨⟨target, after⟩, ht, h₂⟩ := bind_ok h₁
  obtain ⟨us, rfl, hus⟩ := takes_targetSuffix _ _ _ ht
  cases h₂
  exact ⟨ts ++ us, by simp only [List.append_assoc], .extras hcount (lettered_of_numeral p hts) hus⟩

theorem atPosition_ok {position : Nat} {parsed : Except Stop (Roll × List Token)} {e : Expr} {rest : List Token}
    (h : atPosition position parsed = .ok (e, rest)) : ∃ term, parsed = .ok (term, rest) ∧ e = .roll term position := by
  unfold atPosition at h
  obtain ⟨⟨term, after⟩, hterm, h₁⟩ := bind_ok h
  cases h₁
  exact ⟨term, hterm, rfl⟩

/-! ## Expressions -/

theorem additiveOperator?_sound {s : Symbol} {operator : BinaryOperator} (h : additiveOperator? s = some operator) :
    SumSign s operator := by
  cases s <;> cases h <;> constructor

theorem multiplicativeOperator?_sound {s : Symbol} {operator : BinaryOperator}
    (h : multiplicativeOperator? s = some operator) : ProductSign s operator := by
  cases s <;> cases h <;> constructor

theorem sign?_sound {s : Symbol} {found : Sign} (h : sign? s = some found) : PrefixSign s found := by
  cases s <;> cases h <;> constructor

/-- A derivation within a number of levels. -/
def Within (levels : Nat) (rule : Rule) (ts : List Token) (e : Expr) : Prop := ∃ n, n ≤ levels ∧ Derives rule ts e n

/-- A roll is an operand, at the place of its first token. -/
theorem takes_atPosition {levels : Nat} (t : Token) (opening : List Token) {tokens : List Token}
    {parsed : Except Stop (Roll × List Token)}
    (h : ∀ term rest, parsed = .ok (term, rest) →
      ∃ taken, tokens = taken ++ rest ∧ RollPhrase (t :: (opening ++ taken)) term) :
    Takes (Within levels .primary) (t :: (opening ++ tokens)) (atPosition t.position parsed) := by
  intro e rest hread
  obtain ⟨term, hterm, rfl⟩ := atPosition_ok hread
  obtain ⟨taken, rfl, hroll⟩ := h term rest hterm
  exact ⟨t :: (opening ++ taken), by rw [List.cons_append, List.append_assoc], 0, Nat.zero_le _, .roll hroll⟩

theorem derives_bounded {levels k m : Nat} {ts us vs : List Token} {operand : Expr} {minimum maximum : Option Expr}
    (p q r : Nat) (hm : m ≤ levels + 1 + k) (h : Derives (.bounds k) ts operand m)
    (hmin : Optional (Within levels .expr) us minimum) (hmax : Optional (Within levels .expr) vs maximum) :
    Within (levels + 1 + k) (.bounds (k + 1))
      (ts ++ ⟨.symbol .openBracket, p⟩ :: (us ++ ⟨.symbol .colon, q⟩ :: (vs ++ [⟨.symbol .closeBracket, r⟩])))
      (.bounded operand minimum maximum p) := by
  cases hmin with
  | missing =>
    cases hmax with
    | missing => exact ⟨_, by omega, .unbounded p q r h⟩
    | present hhigh =>
      obtain ⟨n, hn, hhigh⟩ := hhigh
      exact ⟨_, by omega, .atMost p q r h hhigh⟩
  | present hlow =>
    obtain ⟨n, hn, hlow⟩ := hlow
    cases hmax with
    | missing => exact ⟨_, by omega, .atLeast p q r h hlow⟩
    | present hhigh =>
      obtain ⟨o, ho, hhigh⟩ := hhigh
      exact ⟨_, by omega, .between p q r h hlow hhigh⟩

/-- **A chain that has been read so far may be read on**: what a rule for the rest of a chain takes, appended to the
tokens of its beginning, derives the whole chain. -/
def Extends (chain : Nat → Rule) (levels : Nat) (left : Expr) (tokens : List Token)
    (parsed : Except Stop (Expr × List Token)) : Prop :=
  ∀ ts k m, Derives (chain k) ts left m → m ≤ levels + k →
    Takes (fun us e => ∃ j, Within (levels + k) (chain j) (ts ++ us) e) tokens parsed

theorem Extends.stop {chain : Nat → Rule} {levels : Nat} {left : Expr} {tokens : List Token} :
    Extends chain levels left tokens (.ok (left, tokens)) := by
  intro ts k m h hm e rest he
  cases he
  exact ⟨[], rfl, k, m, hm, by rw [List.append_nil]; exact h⟩

/-- A chain is read from its first operand, which is a chain alone. -/
theorem Extends.whole {chain : Nat → Rule} {phrase : List Token → Expr → Prop} {levels : Nat} {tokens : List Token}
    {first : Except Stop (Expr × List Token)} {next : Expr → List Token → Except Stop (Expr × List Token)}
    (hfirst : Takes phrase tokens first) (hone : ∀ ts e, phrase ts e → Within levels (chain 0) ts e)
    (hnext : ∀ left rest, Extends chain levels left rest (next left rest)) :
    Takes (fun ts e => ∃ k, Within levels (chain k) ts e) tokens (first >>= fun read => next read.1 read.2) := by
  intro e rest h
  obtain ⟨⟨left, after⟩, hleft, h₁⟩ := bind_ok h
  obtain ⟨ts, rfl, hphrase⟩ := hfirst _ _ hleft
  obtain ⟨m, hm, hts⟩ := hone ts left hphrase
  obtain ⟨us, rfl, hus⟩ := hnext left after ts 0 m hts hm e rest h₁
  exact ⟨ts ++ us, (List.append_assoc _ _ _).symm, hus⟩

/-- A chain goes on with one more operand. -/
theorem Extends.operand {chain : Nat → Rule} {levels : Nat} {left : Expr} {t : Token} {tokens : List Token}
    {operand : Except Stop (Expr × List Token)} {build : Expr → Expr}
    {next : Expr → List Token → Except Stop (Expr × List Token)} {phrase : List Token → Expr → Prop}
    (hoperand : Takes phrase tokens operand)
    (hbuild : ∀ ts k m us right, Derives (chain k) ts left m → m ≤ levels + 1 + k → phrase us right →
      Within (levels + 1 + k) (chain (k + 1)) (ts ++ t :: us) (build right))
    (hnext : ∀ right rest, Extends chain levels (build right) rest (next (build right) rest)) :
    Extends chain (levels + 1) left (t :: tokens) (operand >>= fun read => next (build read.1) read.2) := by
  intro ts k m hts hm e rest h
  obtain ⟨⟨right, after⟩, hright, h₁⟩ := bind_ok h
  obtain ⟨us, rfl, hus⟩ := hoperand _ _ hright
  obtain ⟨n, hn, hbuilt⟩ := hbuild ts k m us right hts hm hus
  obtain ⟨vs, rfl, j, o, ho, hvs⟩ := hnext right after _ (k + 1) n hbuilt (by omega) e rest h₁
  refine ⟨t :: (us ++ vs), by simp only [List.cons_append, List.append_assoc], j, o, by omega, ?_⟩
  simpa only [List.append_assoc, List.cons_append] using hvs

/-- **A step of a chain** reads it on, if its operands are read and one more of them makes a longer chain. -/
theorem Extends.step {kind : Nat → Rule} {operator? : Symbol → Option BinaryOperator}
    {operand : Nat → List Token → Except Stop (Expr × List Token)}
    {chain : Nat → Expr → List Token → Except Stop (Expr × List Token)} {phrase : Nat → List Token → Expr → Prop}
    {levels : Nat} (hoperand : ∀ below < levels, ∀ tokens, Takes (phrase below) tokens (operand below tokens))
    (hchain : ∀ below < levels, ∀ left tokens, Extends kind below left tokens (chain below left tokens))
    (hmore : ∀ below {s operator}, operator? s = some operator → ∀ p ts k m us left right, Derives (kind k) ts left m →
      m ≤ below + 1 + k → phrase below us right →
      Within (below + 1 + k) (kind (k + 1)) (ts ++ ⟨.symbol s, p⟩ :: us) (.binary operator left right p))
    (left : Expr) (tokens : List Token) :
    Extends kind levels left tokens (chainStep operator? operand chain levels left tokens) := by
  obtain ⟨s, p, rest, operator, rfl, hoperator⟩ | hend := symbol_cases operator? tokens
  · cases levels with
    | zero =>
      intro ts k m hts hm e after h
      rw [chainStep_tooDeep hoperator] at h
      cases h
    | succ levels =>
      rw [chainStep_operator hoperator]
      exact Extends.operand (hoperand levels (Nat.lt_succ_self _) rest)
        (fun ts k m us right => hmore levels hoperator p ts k m us left right)
        fun right => hchain levels (Nat.lt_succ_self _) (.binary operator left right p)
  · rw [chainStep_end levels left hend]
    exact .stop

/-! ### One rule after another

What each rule of expressions reads derives what it returns, within the levels that the rule is given. The rules call
one another as the parser's do, so the theorems do, too. -/

mutual

theorem takes_expr (levels : Nat) (tokens : List Token) :
    Takes (Within levels .expr) tokens (expr levels tokens) := by
  intro e rest h
  cases levels with
  | zero =>
    rw [expr] at h
    cases h
  | succ levels =>
    rw [expr.eq_def] at h
    dsimp only at h
    split at h
    · rename_i name p q tokens
      obtain ⟨⟨value, after⟩, hv, h₁⟩ := bind_ok h
      obtain ⟨ts, rfl, n, hn, hts⟩ := takes_expr levels _ _ _ hv
      cases h₁
      exact ⟨_, rfl, n + 1, by omega, .assignment name p q hts⟩
    · obtain ⟨ts, rfl, k, n, hn, hts⟩ := takes_additive levels _ _ _ h
      exact ⟨ts, rfl, n + 1, by omega, .sum hts⟩
  termination_by 7 * levels

theorem takes_additive (levels : Nat) (tokens : List Token) :
    Takes (fun ts e => ∃ k, Within levels (.additive k) ts e) tokens (additive levels tokens) := by
  rw [additive]
  exact Extends.whole (takes_multiplicative levels tokens) (fun ts e ⟨_, n, hn, hts⟩ => ⟨n, hn, .oneTerm hts⟩)
    (extends_additiveChain levels)
  termination_by 7 * levels + 5

theorem extends_additiveChain (levels : Nat) (left : Expr) (tokens : List Token) :
    Extends .additive levels left tokens (additiveChain levels left tokens) := by
  rw [additiveChain_eq]
  refine Extends.step (fun below _ => takes_multiplicative below) (fun below _ => extends_additiveChain below)
    (fun below s operator hoperator p ts k m us left right hts hm hus => ?_) left tokens
  obtain ⟨j, n, hn, hus⟩ := hus
  exact ⟨_, by omega, .moreTerms p hts (additiveOperator?_sound hoperator) hus⟩
  termination_by 7 * levels

theorem takes_multiplicative (levels : Nat) (tokens : List Token) :
    Takes (fun ts e => ∃ k, Within levels (.multiplicative k) ts e) tokens (multiplicative levels tokens) := by
  rw [multiplicative]
  exact Extends.whole (takes_unary levels tokens) (fun ts e ⟨n, hn, hts⟩ => ⟨n, hn, .oneFactor hts⟩)
    (extends_multiplicativeChain levels)
  termination_by 7 * levels + 4

theorem extends_multiplicativeChain (levels : Nat) (left : Expr) (tokens : List Token) :
    Extends .multiplicative levels left tokens (multiplicativeChain levels left tokens) := by
  rw [multiplicativeChain_eq]
  refine Extends.step (fun below _ => takes_unary below) (fun below _ => extends_multiplicativeChain below)
    (fun below s operator hoperator p ts k m us left right hts hm hus => ?_) left tokens
  obtain ⟨n, hn, hus⟩ := hus
  exact ⟨_, by omega, .moreFactors p hts (multiplicativeOperator?_sound hoperator) hus⟩
  termination_by 7 * levels

theorem takes_unary (levels : Nat) (tokens : List Token) :
    Takes (Within levels .unary) tokens (unary levels tokens) := by
  have hunsigned : ∀ tokens, Takes (Within levels .unary) tokens (withBounds levels tokens) := by
    intro tokens e rest h
    obtain ⟨ts, hts, k, n, hn, hd⟩ := takes_withBounds levels _ _ _ h
    exact ⟨ts, hts, n, hn, .unsigned hd⟩
  rw [unary.eq_def]
  split
  · rename_i s p tokens
    split
    · rename_i found hs
      intro e rest h
      cases levels with
      | zero => cases h
      | succ levels =>
        obtain ⟨⟨operand, last⟩, ho, h₁⟩ := bind_ok h
        obtain ⟨ts, rfl, n, hn, hts⟩ := takes_unary levels _ _ _ ho
        cases h₁
        exact ⟨_, rfl, n + 1, by omega, .signed p (sign?_sound hs) hts⟩
    · exact hunsigned _
  · exact hunsigned _
  termination_by 7 * levels + 3

theorem takes_withBounds (levels : Nat) (tokens : List Token) :
    Takes (fun ts e => ∃ k, Within levels (.bounds k) ts e) tokens (withBounds levels tokens) := by
  rw [withBounds]
  exact Extends.whole (takes_primary levels tokens) (fun ts e ⟨n, hn, hts⟩ => ⟨n, hn, .noBounds hts⟩)
    (extends_boundsChain levels)
  termination_by 7 * levels + 2

theorem extends_boundsChain (levels : Nat) (operand : Expr) (tokens : List Token) :
    Extends .bounds levels operand tokens (boundsChain levels operand tokens) := by
  rw [boundsChain.eq_def]
  split
  · rename_i p tokens
    intro ts k m hts hm e after h
    cases levels with
    | zero => cases h
    | succ levels =>
      obtain ⟨⟨minimum, rest₁⟩, hmin, h₁⟩ := bind_ok h
      obtain ⟨rest₂, hcolon, h₂⟩ := bind_ok h₁
      obtain ⟨⟨maximum, rest₃⟩, hmax, h₃⟩ := bind_ok h₂
      obtain ⟨rest₄, hclose, h₄⟩ := bind_ok h₃
      obtain ⟨us, rfl, hus⟩ := takes_openBound levels .colon _ _ _ hmin
      obtain ⟨q, rfl⟩ := sign_ok hcolon
      obtain ⟨vs, rfl, hvs⟩ := takes_openBound levels .closeBracket _ _ _ hmax
      obtain ⟨r, rfl⟩ := sign_ok hclose
      obtain ⟨n, hn, hbuilt⟩ := derives_bounded p q r hm hts hus hvs
      obtain ⟨ws, rfl, j, o, ho, hws⟩ := extends_boundsChain levels _ rest₄ _ (k + 1) n hbuilt (by omega) e after h₄
      refine ⟨⟨.symbol .openBracket, p⟩ :: (us ++ ⟨.symbol .colon, q⟩ :: (vs ++ ⟨.symbol .closeBracket, r⟩ :: ws)),
        by simp, j, o, by omega, ?_⟩
      simpa only [List.append_assoc, List.cons_append, List.nil_append] using hws
  · exact .stop
  termination_by 7 * levels

theorem takes_openBound (levels : Nat) (closing : Symbol) (tokens : List Token) :
    Takes (Optional (Within levels .expr)) tokens (openBound levels closing tokens) := by
  have hpresent : ∀ tokens, Takes (Optional (Within levels .expr)) tokens
      (expr levels tokens >>= fun read => .ok (some read.1, read.2)) := by
    intro tokens bound rest h
    obtain ⟨⟨e, last⟩, hb, h₁⟩ := bind_ok h
    obtain ⟨ts, hts, hd⟩ := takes_expr levels _ _ _ hb
    cases h₁
    exact ⟨ts, hts, .present hd⟩
  rw [openBound.eq_def]
  split
  · split
    · intro bound rest h
      cases h
      exact ⟨[], rfl, .missing⟩
    · exact hpresent _
  · exact hpresent _
  termination_by 7 * levels + 1

theorem takes_primary (levels : Nat) (tokens : List Token) :
    Takes (Within levels .primary) tokens (primary levels tokens) := by
  intro e rest h
  rw [primary.eq_def] at h
  split at h
  · rename_i low high p tokens
    cases h
    exact ⟨[_], rfl, 0, Nat.zero_le _, .roll (.span low high p)⟩
  · rename_i name p tokens
    cases h
    exact ⟨[_], rfl, 0, Nat.zero_le _, .var name p⟩
  · rename_i p tokens
    obtain ⟨⟨inner, rest₁⟩, hi, h₁⟩ := bind_ok h
    obtain ⟨rest₂, hclose, h₂⟩ := bind_ok h₁
    obtain ⟨ts, rfl, n, hn, hts⟩ := takes_expr levels _ _ _ hi
    obtain ⟨q, rfl⟩ := sign_ok hclose
    cases h₂
    exact ⟨⟨.symbol .openParen, p⟩ :: (ts ++ [⟨.symbol .closeParen, q⟩]), by simp, n, hn, .parentheses p q hts⟩
  · -- a number is a count if the letter of a roll comes next
    rename_i digits p tokens
    have hcount : Optional Numeral [⟨.number digits, p⟩] (some (Text.numeralValue digits)) := .present (.mk digits p)
    dsimp only at h
    split at h
    · exact takes_atPosition ⟨.number digits, p⟩ [⟨.keyword .d, _⟩] (fun _ _ => diceRoll_ok _ hcount) e rest h
    · exact takes_atPosition ⟨.number digits, p⟩ [⟨.keyword .s, _⟩] (fun _ _ => savageRoll_ok _ hcount) e rest h
    · exact takes_atPosition ⟨.number digits, p⟩ [⟨.keyword .e, _⟩] (fun _ _ => extrasRoll_ok _ hcount) e rest h
    · cases h
      exact ⟨[_, _], rfl, 0, Nat.zero_le _, .roll (.weg _ (.mk digits p))⟩
    · cases h
      exact ⟨[_], rfl, 0, Nat.zero_le _, .literal digits p⟩
  · exact takes_atPosition ⟨.keyword .d, _⟩ [] (fun _ _ => diceRoll_ok _ .missing) e rest h
  · exact takes_atPosition ⟨.keyword .s, _⟩ [] (fun _ _ => savageRoll_ok _ .missing) e rest h
  · exact takes_atPosition ⟨.keyword .e, _⟩ [] (fun _ _ => extrasRoll_ok _ .missing) e rest h
  · cases h
  termination_by 7 * levels + 1

end

/-! ## Statements and commands -/

/-- What a list of items with semicolons between them does after its first item. -/
def afterItem {α β : Type} (one : α → β) (more : α → β → β) (list : List Token → Except Stop (β × List Token)) :
    α × List Token → Except Stop (β × List Token)
  | (first, ⟨.symbol .semicolon, _⟩ :: rest) => list rest >>= fun read => .ok (more first read.1, read.2)
  | (first, rest) => .ok (one first, rest)

theorem expressions_eq (tokens : List Token) :
    expressions tokens = expr maxNesting tokens >>= afterItem (fun first => [first]) List.cons expressions := by
  rw [expressions]
  split <;> simp_all [afterItem, bind, Except.bind]

theorem command_eq (tokens : List Token) : command tokens = statement tokens >>=
    afterItem (fun first => ⟨first, []⟩) (fun first command => ⟨first, command.statements⟩) command := by
  rw [command]
  split <;> simp_all [afterItem, bind, Except.bind]

/-- A derivation within the nesting that is allowed. -/
def Allowed {α : Type} (derives : List Token → α → Nat → Prop) (ts : List Token) (a : α) : Prop :=
  ∃ n, n ≤ maxNesting ∧ derives ts a n

/-- **Items with semicolons between them** derive their list if each derives. -/
theorem takes_separated {α β : Type} {item : List Token → Except Stop (α × List Token)}
    {list : List Token → Except Stop (β × List Token)} {one : α → β} {more : α → β → β}
    {derives : List Token → α → Nat → Prop} {derivesAll : List Token → β → Nat → Prop}
    (hone : ∀ {ts a n}, derives ts a n → derivesAll ts (one a) n)
    (hmore : ∀ {ts us a b m n} (p : Nat), derives ts a m → derivesAll us b n →
      derivesAll (ts ++ ⟨.symbol .semicolon, p⟩ :: us) (more a b) (max m n))
    (hlist : ∀ tokens, list tokens = item tokens >>= afterItem one more list)
    (hitem : ∀ tokens, Takes (Allowed derives) tokens (item tokens)) (tokens : List Token) :
    Takes (Allowed derivesAll) tokens (list tokens) := by
  induction hlength : tokens.length using Nat.strongRecOn generalizing tokens with
  | ind length ih =>
    intro b rest h
    rw [hlist] at h
    obtain ⟨⟨first, after⟩, hfirst, h₁⟩ := bind_ok h
    obtain ⟨ts, rfl, m, hm, hts⟩ := hitem tokens first after hfirst
    unfold afterItem at h₁
    split at h₁
    · rename_i p others heq
      cases heq
      obtain ⟨⟨read, last⟩, hread, h₂⟩ := bind_ok h₁
      have hshorter : others.length < length := by
        rw [← hlength, List.length_append, List.length_cons]
        omega
      obtain ⟨us, rfl, n, hn, hus⟩ := ih others.length hshorter others rfl read last hread
      cases h₂
      exact ⟨ts ++ ⟨.symbol .semicolon, p⟩ :: us, by simp, _, by omega, hmore p hts hus⟩
    · rename_i heq
      cases heq
      cases h₁
      exact ⟨ts, rfl, m, hm, hone hts⟩

theorem takes_expressions (tokens : List Token) : Takes (Allowed DerivesAll) tokens (expressions tokens) :=
  takes_separated .one .more expressions_eq (takes_expr maxNesting) tokens

theorem repetition_ok {digits : List Char} {p q : Nat} {tokens rest : List Token} {s : Statement}
    (h : repetition (Text.numeralValue digits) p tokens = .ok (s, rest)) :
    ∃ ts n, tokens = ts ++ rest ∧ n ≤ maxNesting ∧
      DerivesStatement (⟨.number digits, p⟩ :: ⟨.keyword .x, q⟩ :: ts) s n := by
  unfold repetition at h
  split at h
  · rename_i r _
    obtain ⟨⟨batch, rest₁⟩, hb, h₁⟩ := bind_ok h
    obtain ⟨rest₂, hclose, h₂⟩ := bind_ok h₁
    obtain ⟨ts, rfl, n, hn, hts⟩ := takes_expressions _ _ _ hb
    obtain ⟨c, rfl⟩ := sign_ok hclose
    cases h₂
    exact ⟨⟨.symbol .openBracket, r⟩ :: (ts ++ [⟨.symbol .closeBracket, c⟩]), n, by simp, hn,
      .batch digits p q r c hts⟩
  · obtain ⟨⟨repeated, rest₁⟩, he, h₁⟩ := bind_ok h
    obtain ⟨ts, rfl, n, hn, hts⟩ := takes_expr _ _ _ _ he
    cases h₁
    exact ⟨ts, n, rfl, hn, .times digits p q hts⟩

theorem ironswornModifier_ok {p : Nat} {tokens rest : List Token} {modifier : Option (Sign × Expr)}
    (h : ironswornModifier tokens = .ok (modifier, rest)) :
    ∃ ts n, tokens = ts ++ rest ∧ n ≤ maxNesting ∧
      DerivesStatement (⟨.keyword .iron, p⟩ :: ts) (.ironsworn modifier p) n := by
  unfold ironswornModifier at h
  split at h
  · rename_i s q tokens
    split at h
    · rename_i found hs
      obtain ⟨⟨operand, rest₁⟩, ho, h₁⟩ := bind_ok h
      obtain ⟨ts, rfl, n, hn, hts⟩ := takes_unary _ _ _ _ ho
      cases h₁
      exact ⟨_ :: ts, n, rfl, hn, .modified p q (sign?_sound hs) hts⟩
    · cases h
      exact ⟨[], 0, rfl, Nat.zero_le _, .ironsworn p⟩
  · cases h
    exact ⟨[], 0, rfl, Nat.zero_le _, .ironsworn p⟩

theorem takes_statement (tokens : List Token) : Takes (Allowed DerivesStatement) tokens (statement tokens) := by
  intro s rest h
  unfold statement at h
  split at h
  · obtain ⟨ts, n, rfl, hn, hts⟩ := repetition_ok h
    exact ⟨_, rfl, n, hn, hts⟩
  · obtain ⟨⟨modifier, rest₁⟩, hm, h₁⟩ := bind_ok h
    obtain ⟨ts, n, rfl, hn, hts⟩ := ironswornModifier_ok hm
    cases h₁
    exact ⟨_, rfl, n, hn, hts⟩
  · cases h
    exact ⟨[_], rfl, 0, Nat.zero_le _, .flag _ _⟩
  · cases h
  · rename_i t tokens _ _ _
    obtain ⟨⟨e, rest₁⟩, he, h₁⟩ := bind_ok h
    obtain ⟨ts, hts, n, hn, hd⟩ := takes_expr _ _ _ _ he
    cases h₁
    cases ts with
    | nil => exact hd.not_nil.elim
    | cons t' ts =>
      obtain ⟨rfl, rfl⟩ := List.cons.inj hts
      exact ⟨_, rfl, n, hn, .once hd⟩

theorem takes_command (tokens : List Token) : Takes (Allowed DerivesCommand) tokens (command tokens) :=
  takes_separated .one .more command_eq takes_statement tokens

/-- **Tokens that are read as a command derive it** within the nesting that is allowed. -/
theorem derives_of_ofTokens {tokens : List Token} {c : Command} (h : ofTokens tokens = .ok c) :
    ∃ n, n ≤ maxNesting ∧ DerivesCommand tokens c n := by
  unfold ofTokens at h
  obtain ⟨⟨read, rest⟩, hr, h₁⟩ := bind_ok h
  obtain ⟨ts, rfl, n, hn, hts⟩ := takes_command _ _ _ hr
  cases rest with
  | nil =>
    cases h₁
    exact ⟨n, hn, by rw [List.append_nil]; exact hts⟩
  | cons t rest => cases h₁

/-- **A text that is a command derives it** from its tokens. -/
theorem derives_of_parse {text : String} {c : Command} (h : parse text = .ok c) :
    ∃ tokens n, Token.scan text.toList = .ok tokens ∧ n ≤ maxNesting ∧ DerivesCommand tokens c n := by
  unfold parse at h
  dsimp only at h
  split at h
  · cases h
  · split at h
    · cases h
    · rename_i tokens hscan
      cases hread : ofTokens tokens with
      | error stop => rw [hread] at h; cases h
      | ok command =>
        rw [hread] at h
        cases h
        obtain ⟨n, hn, hderives⟩ := derives_of_ofTokens hread
        exact ⟨tokens, n, hscan, hn, hderives⟩

/-- The text is a command that passes a test. -/
def parses (text : String) (test : Command → Bool) : Bool :=
  match parse text with
  | .ok c => test c
  | .error _ => false

theorem ok_of_parses {text : String} (test : Command → Bool) (h : parses text test = true) :
    ∃ c, parse text = .ok c ∧ test c = true := by
  unfold parses at h
  split at h
  · rename_i c hparse
    exact ⟨c, hparse, h⟩
  · cases h

end Command
end TabletopDice
