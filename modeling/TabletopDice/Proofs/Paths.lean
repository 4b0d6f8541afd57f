import TabletopDice.Proofs.Grammar.Unambiguity
/-!
# Paths — how deep the trees are that the parser accepts

A path from the root of an expression to a leaf is the list of its steps: into the first operand of an operator or the
operand of bounds, or into any other part. Its length is the number of operators, signs, bounds and assignments on it.

The parser reads a first operand before it counts the operators and bounds after it. A path is therefore over the limit
on the nesting by at most the number of first operands with parts of their own that it passes (`length_le_passed`), and
it cannot pass them without end (`length_le_reach`).
-/
namespace TabletopDice

/-- A step from a node into one of its parts. -/
inductive PathStep
  | first
  | other
  deriving DecidableEq, Repr

/-- **The paths from the root of an expression to its leaves.** -/
def Expr.paths : Expr → List (List PathStep)
  | .literal _ _ | .var _ _ | .roll _ _ => [[]]
  | .signed _ operand _ => operand.paths.map (.other :: ·)
  | .binary _ left right _ => left.paths.map (.first :: ·) ++ right.paths.map (.other :: ·)
  | .unbounded operand _ => operand.paths.map (.first :: ·)
  | .atLeast operand bound _ => operand.paths.map (.first :: ·) ++ bound.paths.map (.other :: ·)
  | .atMost operand bound _ => operand.paths.map (.first :: ·) ++ bound.paths.map (.other :: ·)
  | .between operand minimum maximum _ =>
    operand.paths.map (.first :: ·) ++ (minimum.paths.map (.other :: ·) ++ maximum.paths.map (.other :: ·))
  | .assign _ value _ => value.paths.map (.other :: ·)

/-- The first operands with parts of their own that a path passes. -/
def passed (path : List PathStep) : Nat := path.dropLast.count .first

theorem passed_other (path : List PathStep) : passed (.other :: path) = passed path := by
  cases path with
  | nil => rfl
  | cons step rest => exact List.count_cons_of_ne (by decide)

theorem passed_first {path : List PathStep} (h : path ≠ []) : passed (.first :: path) = passed path + 1 := by
  cases path with
  | nil => exact absurd rfl h
  | cons step rest => exact List.count_cons_self

/-- A first operand is read within the levels of its chain, and only the operator after it is counted. -/
theorem length_of_first {paths : List (List PathStep)} {path : List PathStep} {m n : Nat}
    (hle : ∀ rest ∈ paths, rest.length ≤ m + passed rest) (h : path ∈ paths.map (.first :: ·)) (hm : m ≤ n)
    (hn : 1 ≤ n) : path.length ≤ n + passed path := by
  obtain ⟨rest, hrest, rfl⟩ := List.mem_map.1 h
  by_cases hnil : rest = []
  · subst hnil
    exact hn
  · have := hle rest hrest
    rw [passed_first hnil, List.length_cons]
    omega

theorem length_of_other {paths : List (List PathStep)} {path : List PathStep} {m n : Nat}
    (hle : ∀ rest ∈ paths, rest.length + m ≤ n + passed rest) (h : path ∈ paths.map (.other :: ·)) :
    path.length + m ≤ n + 1 + passed path := by
  obtain ⟨rest, hrest, rfl⟩ := List.mem_map.1 h
  have := hle rest hrest
  rw [passed_other, List.length_cons]
  omega

theorem length_map_cons {paths : List (List PathStep)} {step : PathStep} {n : Nat}
    (h : ∀ path ∈ paths, path.length ≤ n) : ∀ path ∈ paths.map (step :: ·), path.length ≤ n + 1 := by
  intro path hpath
  obtain ⟨rest, hrest, rfl⟩ := List.mem_map.1 hpath
  exact Nat.succ_le_succ (h rest hrest)

theorem length_append {left right : List (List PathStep)} {m n : Nat} (hl : ∀ path ∈ left, path.length ≤ m)
    (hr : ∀ path ∈ right, path.length ≤ n) : ∀ path ∈ left ++ right, path.length ≤ max m n := by
  intro path hpath
  rcases List.mem_append.1 hpath with hpath | hpath
  · exact Nat.le_trans (hl path hpath) (Nat.le_max_left m n)
  · exact Nat.le_trans (hr path hpath) (Nat.le_max_right m n)

namespace Grammar

/-- The levels that a rule uses up before its content. -/
def Rule.own : Rule → Nat
  | .expr => 1
  | _ => 0

/-- The operators or bounds of a chain. -/
def Rule.operators : Rule → Nat
  | .additive k | .multiplicative k | .bounds k => k
  | _ => 0

theorem Derives.own_le {rule : Rule} {ts : List Token} {e : Expr} {n : Nat} (h : Derives rule ts e n) :
    rule.own ≤ n := by
  cases h <;> simp only [Rule.own] <;> omega

theorem Derives.operators_le {rule : Rule} {ts : List Token} {e : Expr} {n : Nat} (h : Derives rule ts e n) :
    rule.operators ≤ n := by
  cases h <;> simp only [Rule.operators] <;> omega

/-- **The nesting bounds a path** up to the first operands with parts that it passes. -/
theorem Derives.length_le_passed {rule : Rule} {ts : List Token} {e : Expr} {n : Nat} (h : Derives rule ts e n) :
    ∀ path ∈ e.paths, path.length + rule.own ≤ n + passed path := by
  induction h with
  | oneTerm _ ih | oneFactor _ ih | unsigned _ ih | noBounds _ ih => exact ih
  | sum _ ih =>
    intro path hpath
    have hle := ih path hpath
    simp only [Rule.own] at hle ⊢
    omega
  | parentheses p q _ ih =>
    intro path hpath
    have hle := ih path hpath
    simp only [Rule.own] at hle ⊢
    omega
  | assignment name p q _ ih | signed p _ _ ih =>
    intro path hpath
    have hle := length_of_other ih hpath
    simp only [Rule.own] at hle ⊢
    omega
  | moreTerms p _ _ _ ih ihother | moreFactors p _ _ _ ih ihother | atLeast p q r _ _ ih ihother
  | atMost p q r _ _ ih ihother =>
    intro path hpath
    rcases List.mem_append.1 hpath with hfirst | hother
    · exact length_of_first ih hfirst (by omega) (by omega)
    · have hle := length_of_other ihother hother
      simp only [Rule.own] at hle ⊢
      omega
  | unbounded p q r _ ih =>
    intro path hpath
    exact length_of_first ih hpath (by omega) (by omega)
  | between p q r _ _ _ ih ihlow ihhigh =>
    intro path hpath
    rcases List.mem_append.1 hpath with hfirst | hbound
    · exact length_of_first ih hfirst (by omega) (by omega)
    · rcases List.mem_append.1 hbound with hlow | hhigh
      · have hle := length_of_other ihlow hlow
        simp only [Rule.own] at hle ⊢
        omega
      · have hle := length_of_other ihhigh hhigh
        simp only [Rule.own] at hle ⊢
        omega
  | literal | var | roll =>
    intro path hpath
    rw [List.mem_singleton.1 hpath]
    exact Nat.zero_le _

/-- The longest path that the levels allow, through first operands and parentheses. -/
def reach : Nat → Nat
  | 0 => 0
  | levels + 1 => reach levels + 3 * levels

theorem reach_mono {m n : Nat} (h : m ≤ n) : reach m ≤ reach n := by
  induction h with
  | refl => exact Nat.le_refl _
  | step _ ih => exact Nat.le_trans ih (Nat.le_add_right _ _)

example : reach maxNesting = 3675 := by decide

/-- The longest path of a rule: every chain adds its operators, a product as many as there are levels, a sum twice as
many, and an expression has no chain around it. -/
def Rule.reach : Rule → Nat → Nat
  | .expr, n => Grammar.reach n
  | .additive k, n => k + 2 * n + Grammar.reach n
  | .multiplicative k, n => k + n + Grammar.reach n
  | .unary, n => n + Grammar.reach n
  | .bounds k, n => k + Grammar.reach n
  | .primary, n => Grammar.reach n

/-- **The nesting bounds every path**, by three times the sum of the levels below it. -/
theorem Derives.length_le_reach {rule : Rule} {ts : List Token} {e : Expr} {n : Nat} (h : Derives rule ts e n) :
    ∀ path ∈ e.paths, path.length ≤ rule.reach n := by
  induction h with
  | noBounds _ ih | parentheses p q _ ih =>
    intro path hpath
    have hle := ih path hpath
    simp only [Rule.reach] at hle ⊢
    omega
  | sum h ih | oneTerm h ih | oneFactor h ih | unsigned h ih =>
    intro path hpath
    have hle := ih path hpath
    have hk := h.operators_le
    simp only [Rule.reach, Rule.operators, Grammar.reach] at hle hk ⊢
    omega
  | assignment name p q h ih =>
    intro path hpath
    have hle := length_map_cons ih path hpath
    have hown := h.own_le
    simp only [Rule.reach, Rule.own, Grammar.reach] at hle hown ⊢
    omega
  | signed p _ _ ih =>
    intro path hpath
    have hle := length_map_cons ih path hpath
    simp only [Rule.reach, Grammar.reach] at hle ⊢
    omega
  | @moreTerms _ _ _ _ k _ m n _ _ p _ _ hr ihl ihr =>
    intro path hpath
    have hle := length_append (length_map_cons ihl) (length_map_cons ihr) path hpath
    have hm := reach_mono (Nat.le_max_left m (k + 1 + n))
    have hn := reach_mono (show n ≤ max m (k + 1 + n) by omega)
    have hoperators := hr.operators_le
    simp only [Rule.reach, Rule.operators] at hle hoperators ⊢
    omega
  | @moreFactors _ _ _ _ k m n _ _ p _ _ _ ihl ihr =>
    intro path hpath
    have hle := length_append (length_map_cons ihl) (length_map_cons ihr) path hpath
    have hm := reach_mono (Nat.le_max_left m (k + 1 + n))
    have hn := reach_mono (show n ≤ max m (k + 1 + n) by omega)
    simp only [Rule.reach] at hle ⊢
    omega
  | @unbounded _ _ k m p q r _ ih =>
    intro path hpath
    have hle := length_map_cons ih path hpath
    have hm := reach_mono (Nat.le_max_left m (k + 1))
    simp only [Rule.reach] at hle ⊢
    omega
  | @atLeast _ _ _ _ k m n p q r _ _ ih ihbound | @atMost _ _ _ _ k m n p q r _ _ ih ihbound =>
    intro path hpath
    have hle := length_append (length_map_cons ih) (length_map_cons ihbound) path hpath
    have hm := reach_mono (Nat.le_max_left m (k + 1 + n))
    have hn := reach_mono (show n ≤ max m (k + 1 + n) by omega)
    simp only [Rule.reach] at hle ⊢
    omega
  | @between _ _ _ _ _ _ k m n o p q r _ _ _ ih ihlow ihhigh =>
    intro path hpath
    have hle := length_append (length_map_cons ih)
      (length_append (length_map_cons ihlow) (length_map_cons ihhigh)) path hpath
    have hm := reach_mono (Nat.le_max_left m (k + 1 + max n o))
    have hn := reach_mono (show n ≤ max m (k + 1 + max n o) by omega)
    have ho := reach_mono (show o ≤ max m (k + 1 + max n o) by omega)
    simp only [Rule.reach] at hle ⊢
    omega
  | literal | var | roll =>
    intro path hpath
    rw [List.mem_singleton.1 hpath]
    exact Nat.zero_le _

/-! ## The longest paths -/

/-- A derivation by the rule, nested `n` levels, of a tree with a path of that length. -/
def Reaches (rule : Rule) (n length : Nat) : Prop :=
  ∃ ts e, Derives rule ts e n ∧ ∃ path ∈ e.paths, path.length = length

/-- A chain goes on around every tree that it derives, one operator or bound at a time. -/
def Lengthens (chain : Nat → Rule) : Prop := ∀ {k n : Nat} {ts : List Token} {left : Expr},
  Derives (chain k) ts left n → ∃ us e, Derives (chain (k + 1)) us e (max n (k + 1)) ∧
    ∀ path ∈ left.paths, .first :: path ∈ e.paths

theorem lengthens_bounds : Lengthens .bounds := fun h =>
  ⟨_, _, .unbounded 0 0 0 h, fun _ hpath => List.mem_map_of_mem hpath⟩

theorem lengthens_factors : Lengthens .multiplicative := fun h =>
  ⟨_, _, .moreFactors 0 h .times (.unsigned (.noBounds (.literal [] 0))),
    fun _ hpath => List.mem_append_left _ (List.mem_map_of_mem hpath)⟩

theorem lengthens_terms : Lengthens .additive := fun h =>
  ⟨_, _, .moreTerms 0 h .plus (.oneFactor (.unsigned (.noBounds (.literal [] 0)))),
    fun _ hpath => List.mem_append_left _ (List.mem_map_of_mem hpath)⟩

/-- **A chain takes as many operators as there are levels**, each around the ones before. -/
theorem Reaches.chain {chain : Nat → Rule} {n length : Nat} (hchain : Lengthens chain)
    (h : Reaches (chain 0) n length) : ∀ {k}, k ≤ n → Reaches (chain k) n (length + k)
  | 0, _ => h
  | k + 1, hk => by
    obtain ⟨ts, left, hts, path, hpath, hlength⟩ := h.chain hchain (Nat.le_of_succ_le hk)
    obtain ⟨us, e, hus, hpaths⟩ := hchain hts
    rw [Nat.max_eq_left hk] at hus
    exact ⟨us, e, hus, .first :: path, hpaths path hpath, congrArg (· + 1) hlength⟩

theorem Reaches.rule {rule rule' : Rule} {n m length : Nat} (h : Reaches rule n length)
    (hrule : ∀ ts e, Derives rule ts e n → ∃ ts', Derives rule' ts' e m) : Reaches rule' m length := by
  obtain ⟨ts, e, hts, hpath⟩ := h
  obtain ⟨ts', hts'⟩ := hrule ts e hts
  exact ⟨ts', e, hts', hpath⟩

/-- All three chains of an operand, one around the other. -/
theorem Reaches.operand {n length : Nat} (h : Reaches .primary n length) : Reaches .unary n (length + n) :=
  (Reaches.chain lengthens_bounds (h.rule fun _ _ hts => ⟨_, .noBounds hts⟩) (Nat.le_refl n)).rule
    fun _ _ hts => ⟨_, .unsigned hts⟩

theorem reaches_primary : ∀ n, Reaches .primary n (reach n)
  | 0 => ⟨_, _, .literal [] 0, [], List.mem_singleton.2 rfl, rfl⟩
  | n + 1 => by
    have hunary := (reaches_primary n).operand
    have hproduct := Reaches.chain lengthens_factors (hunary.rule fun _ _ hts => ⟨_, .oneFactor hts⟩) (Nat.le_refl n)
    have hsum := Reaches.chain lengthens_terms (hproduct.rule fun _ _ hts => ⟨_, .oneTerm hts⟩) (Nat.le_refl n)
    have hexpr : Reaches .primary (n + 1) (reach n + n + n + n) :=
      hsum.rule fun _ _ hts => ⟨_, .parentheses 0 0 (.sum hts)⟩
    rw [show reach (n + 1) = reach n + n + n + n by rw [reach]; omega]
    exact hexpr

end Grammar

namespace Command

/-- **The longest path is accepted**, in the modifier of an Ironsworn roll. -/
theorem reach_accepted : ∃ tokens command, ofTokens tokens = .ok command ∧
    ∃ e ∈ command.trees, ∃ path ∈ e.paths, path.length = maxNesting + Grammar.reach maxNesting := by
  obtain ⟨ts, e, hts, path, hpath, hlength⟩ := (Grammar.reaches_primary maxNesting).operand
  have hcommand := Grammar.DerivesCommand.one (.modified 0 0 .plus hts)
  exact ⟨_, _, (ofTokens_of_derives hcommand).1 (Nat.le_refl _), e, List.mem_singleton.2 rfl, path, hpath, by omega⟩

/-- **The trees of a command and the limit on its nesting.** A path is over the limit by at most the number of first
operands with parts that it passes; every path is within `reach` and the signs of an operand; and all paths are within
the limit exactly when those that pass such operands are. -/
theorem parse_paths (text : String) (command : Command) (h : parse text = .ok command) :
    (∀ e ∈ command.trees, ∀ path ∈ e.paths, path.length ≤ maxNesting + passed path) ∧
    (∀ e ∈ command.trees, ∀ path ∈ e.paths, path.length ≤ maxNesting + Grammar.reach maxNesting) ∧
    ((∀ e ∈ command.trees, ∀ path ∈ e.paths, path.length ≤ maxNesting) ↔
      ∀ e ∈ command.trees, ∀ path ∈ e.paths, passed path ≠ 0 → path.length ≤ maxNesting) := by
  obtain ⟨tokens, n, _, hn, hderives⟩ := derives_of_parse h
  have hpassed : ∀ e ∈ command.trees, ∀ path ∈ e.paths, path.length ≤ maxNesting + passed path := by
    intro e he path hpath
    obtain ⟨rule, ts, m, _, hts, hm, _⟩ := hderives.trees e he
    have hle := hts.length_le_passed path hpath
    omega
  refine ⟨hpassed, ?_, fun hall e he path hpath _ => hall e he path hpath, ?_⟩
  · intro e he path hpath
    obtain ⟨rule, ts, m, hrule, hts, hm, _⟩ := hderives.trees e he
    have hle := hts.length_le_reach path hpath
    have hmono := Grammar.reach_mono (Nat.le_trans hm hn)
    rcases hrule with rfl | rfl
    · simp only [Grammar.Rule.reach] at hle
      omega
    · simp only [Grammar.Rule.reach] at hle
      omega
  · intro hcompound e he path hpath
    by_cases hp : passed path = 0
    · have hle := hpassed e he path hpath
      omega
    · exact hcompound e he path hpath hp

theorem parse_paths_signed : ∃ command, parse "-(1+2)*3+4" = .ok command ∧
    ∀ e ∈ command.trees, ∀ path ∈ e.paths, path.length ≤ maxNesting := by
  obtain ⟨command, hparse, htest⟩ : ∃ command, parse "-(1+2)*3+4" = .ok command ∧
      decide (∀ e ∈ command.trees, ∀ path ∈ e.paths, passed path ≠ 0 → path.length ≤ maxNesting) = true :=
    ok_of_parses _ (by decide +kernel)
  exact ⟨command, hparse, (parse_paths _ command hparse).2.2.2 (of_decide_eq_true htest)⟩

/-- The first operand of a sum has 49 signs, which leaves no level for the two operators of the sum. -/
theorem parse_path_too_long : ¬ ∀ text command, parse text = .ok command →
    ∀ e ∈ command.trees, ∀ path ∈ e.paths, path.length ≤ maxNesting := by
  intro h
  obtain ⟨command, hparse, htest⟩ : ∃ command,
      parse "-------------------------------------------------1+1+1" = .ok command ∧
      (!decide (∀ e ∈ command.trees, ∀ path ∈ e.paths, path.length ≤ maxNesting)) = true :=
    ok_of_parses _ (by decide +kernel)
  rw [decide_eq_true (h _ command hparse)] at htest
  cases htest

end Command
end TabletopDice
