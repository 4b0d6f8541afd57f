import TabletopDice.Proofs.Grammar.Completeness
/-!
# Unambiguity — the parser is the grammar

A derivation of tokens from the left end of a list is told from every other one by what the parser does at each number
of levels, so a list of tokens has at most one tree and one nesting, also where the nesting is deeper than allowed.
With soundness and completeness this makes the parser the decision procedure of the grammar: it returns the tree of a
list of tokens if there is one within the nesting that is allowed, and a syntax error on every other list.
-/
namespace TabletopDice
namespace Command

open Grammar

/-- **Two exact cut-offs of one rule agree**, and so do the results. -/
theorem Cut.unique {α : Type} {rule : Nat → Except Stop α} {a b : α} {m n : Nat}
    (h₁ : ∀ levels, Cut m levels (rule levels) (.ok a)) (h₂ : ∀ levels, Cut n levels (rule levels) (.ok b)) :
    m = n ∧ a = b := by
  have hle : ∀ {a b : α} {m n : Nat}, (∀ levels, Cut m levels (rule levels) (.ok a)) →
      (∀ levels, Cut n levels (rule levels) (.ok b)) → m ≤ n := by
    intro a b m n h₁ h₂
    by_cases hlt : n < m
    · obtain ⟨stop, hstop⟩ := (h₁ n).2 hlt
      rw [(h₂ n).1 (Nat.le_refl n)] at hstop
      cases hstop
    · exact Nat.le_of_not_lt hlt
  have heq : m = n := Nat.le_antisymm (hle h₁ h₂) (hle h₂ h₁)
  subst heq
  have hab := (h₁ m).1 (Nat.le_refl m)
  rw [(h₂ m).1 (Nat.le_refl m)] at hab
  cases hab
  exact ⟨rfl, rfl⟩

section

variable {ts ts' rest rest' : List Token} {n n' : Nat}

/-- A rule that reads two phrases off one list of tokens reads the same phrase twice. -/
theorem Cut.tree_unique {allowed : Symbol → Bool} {rule : Nat → List Token → Except Stop (Expr × List Token)}
    {e e' : Expr}
    (h : ∀ rest, Follow allowed rest → ∀ levels, Cut n levels (rule levels (ts ++ rest)) (.ok (e, rest)))
    (h' : ∀ rest, Follow allowed rest → ∀ levels, Cut n' levels (rule levels (ts' ++ rest)) (.ok (e', rest)))
    (hrest : Follow allowed rest) (hrest' : Follow allowed rest') (heq : ts ++ rest = ts' ++ rest') :
    e = e' ∧ n = n' ∧ rest = rest' := by
  have hread := h rest hrest
  rw [heq] at hread
  obtain ⟨rfl, hresult⟩ := Cut.unique hread (h' rest' hrest')
  cases hresult
  exact ⟨rfl, rfl, rfl⟩

theorem expr_unique {e e' : Expr} (h : Derives .expr ts e n) (h' : Derives .expr ts' e' n')
    (hrest : Follow afterExpr rest) (hrest' : Follow afterExpr rest') (heq : ts ++ rest = ts' ++ rest') :
    e = e' ∧ n = n' ∧ rest = rest' :=
  Cut.tree_unique (reads_of_derives h) (reads_of_derives h') hrest hrest' heq

theorem unary_unique {e e' : Expr} (h : Derives .unary ts e n) (h' : Derives .unary ts' e' n')
    (hrest : Follow afterFactor rest) (hrest' : Follow afterFactor rest') (heq : ts ++ rest = ts' ++ rest') :
    e = e' ∧ n = n' ∧ rest = rest' :=
  Cut.tree_unique (reads_of_derives h) (reads_of_derives h') hrest hrest' heq

/-- The expressions of a batch end at its closing bracket. -/
theorem derivesAll_unique {es : List Expr} (h : DerivesAll ts es n) : ∀ {ts' : List Token} {es' : List Expr} {n' : Nat}
    {q q' : Nat}, DerivesAll ts' es' n' →
    ts ++ ⟨.symbol .closeBracket, q⟩ :: rest = ts' ++ ⟨.symbol .closeBracket, q'⟩ :: rest' →
    es = es' ∧ n = n' ∧ rest = rest' := by
  induction h with
  | one h =>
    intro ts' es' n' q q' h' heq
    cases h' with
    | one h' =>
      obtain ⟨rfl, rfl, hend⟩ := expr_unique h h' (.sign rfl) (.sign rfl) heq
      cases hend
      exact ⟨rfl, rfl, rfl⟩
    | more p h' =>
      rw [List.append_assoc] at heq
      obtain ⟨_, _, hend⟩ := expr_unique h h' (.sign rfl) (.sign rfl) heq
      cases hend
  | more p h _ ih =>
    intro ts' es' n' q q' h' heq
    rw [List.append_assoc] at heq
    cases h' with
    | one h' =>
      obtain ⟨_, _, hend⟩ := expr_unique h h' (.sign rfl) (.sign rfl) heq
      cases hend
    | more p' h' hs' =>
      rw [List.append_assoc] at heq
      obtain ⟨rfl, rfl, hend⟩ := expr_unique h h' (.sign rfl) (.sign rfl) heq
      obtain ⟨rfl, rfl, rfl⟩ := ih hs' (List.cons.inj hend).2
      exact ⟨rfl, rfl, rfl⟩

/-- **The tokens of a statement and what follows them are cut in one place**, and the statement has one tree. -/
theorem derivesStatement_unique {s s' : Statement} (h : DerivesStatement ts s n) (h' : DerivesStatement ts' s' n')
    (hrest : Follow afterExpr rest) (hrest' : Follow afterExpr rest') (heq : ts ++ rest = ts' ++ rest') :
    s = s' ∧ n = n' ∧ rest = rest' := by
  cases h with
  | times digits p q h =>
    cases h' with
    | times digits' p' q' h' =>
      simp only [List.cons_append, List.cons.injEq] at heq
      obtain ⟨⟨rfl, rfl⟩, _, heq⟩ := heq
      obtain ⟨rfl, rfl, rfl⟩ := expr_unique h h' hrest hrest' heq
      exact ⟨rfl, rfl, rfl⟩
    | batch digits' p' q' r' c' h' =>
      simp only [List.cons_append, List.cons.injEq] at heq
      cases h.opens_of_eq hrest.any heq.2.2.symm
    | once h' => cases h'.opens_of_eq hrest'.any heq
    | ironsworn | modified | flag => cases heq
  | batch digits p q r c h =>
    cases h' with
    | batch digits' p' q' r' c' h' =>
      simp only [List.cons_append, List.append_assoc, List.nil_append, List.cons.injEq] at heq
      obtain ⟨⟨rfl, rfl⟩, _, _, heq⟩ := heq
      obtain ⟨rfl, rfl, rfl⟩ := derivesAll_unique h h' heq
      exact ⟨rfl, rfl, rfl⟩
    | times digits' p' q' h' =>
      simp only [List.cons_append, List.cons.injEq] at heq
      cases h'.opens_of_eq hrest'.any heq.2.2
    | once h' => cases h'.opens_of_eq hrest'.any heq
    | ironsworn | modified | flag => cases heq
  | ironsworn p =>
    cases h' with
    | ironsworn p' =>
      cases heq
      exact ⟨rfl, rfl, rfl⟩
    | modified p' q' hs h' =>
      cases heq
      cases hrest with
      | sign hsign => cases hs <;> cases hsign
    | once h' => cases h'.opens_of_eq hrest'.any heq
    | times | batch | flag => cases heq
  | modified p q hs h =>
    cases h' with
    | modified p' q' hs' h' =>
      simp only [List.cons_append, List.cons.injEq, Token.mk.injEq, Lexeme.symbol.injEq] at heq
      obtain ⟨⟨_, rfl⟩, ⟨rfl, _⟩, heq⟩ := heq
      obtain ⟨rfl, rfl, rfl⟩ := unary_unique h h' hrest.term.factor hrest'.term.factor heq
      cases hs <;> cases hs' <;> exact ⟨rfl, rfl, rfl⟩
    | ironsworn p' =>
      cases heq
      cases hrest' with
      | sign hsign => cases hs <;> cases hsign
    | once h' => cases h'.opens_of_eq hrest'.any heq
    | times | batch | flag => cases heq
  | flag name p =>
    cases h' with
    | flag name' p' =>
      cases heq
      exact ⟨rfl, rfl, rfl⟩
    | once h' => cases h'.opens_of_eq hrest'.any heq
    | times | batch | ironsworn | modified => cases heq
  | once h =>
    cases h' with
    | once h' =>
      obtain ⟨rfl, _⟩ := List.cons.inj heq
      obtain ⟨rfl, rfl, rfl⟩ := expr_unique h h' hrest hrest' heq
      exact ⟨rfl, rfl, rfl⟩
    | times | batch | ironsworn | modified | flag => cases h.opens_of_eq hrest.any heq.symm

theorem derivesCommand_unique {c : Command} (h : DerivesCommand ts c n) : ∀ {c' : Command} {n' : Nat},
    DerivesCommand ts c' n' → c = c' ∧ n = n' := by
  induction h with
  | @one ts s n h =>
    intro c' n' h'
    obtain ⟨us, heq⟩ : ∃ us, ts = us := ⟨ts, rfl⟩
    rw [heq] at h'
    cases h' with
    | one h' =>
      obtain ⟨rfl, rfl, _⟩ := derivesStatement_unique h h' .nothing .nothing (congrArg (· ++ []) heq)
      exact ⟨rfl, rfl⟩
    | more p h' =>
      rw [← List.append_nil ts] at heq
      obtain ⟨_, _, hend⟩ := derivesStatement_unique h h' .nothing (.sign rfl) heq
      cases hend
  | @more ts us s c m n p h _ ih =>
    intro c' n' h'
    obtain ⟨vs, heq⟩ : ∃ vs, ts ++ ⟨.symbol .semicolon, p⟩ :: us = vs := ⟨_, rfl⟩
    rw [heq] at h'
    cases h' with
    | one h' =>
      rw [← List.append_nil vs] at heq
      obtain ⟨_, _, hend⟩ := derivesStatement_unique h h' (.sign rfl) .nothing heq
      cases hend
    | more p' h' hs' =>
      obtain ⟨rfl, rfl, hend⟩ := derivesStatement_unique h h' (.sign rfl) (.sign rfl) heq
      cases hend
      obtain ⟨rfl, rfl⟩ := ih hs'
      exact ⟨rfl, rfl⟩

end

/-- **The parser accepts exactly the grammar.** A list of tokens is read as a tree if and only if the tree derives from
it within the nesting that is allowed; a list of tokens has one tree and one nesting; and every other list is a syntax
error, in a text of any length. -/
theorem ofTokens_iff_derives (tokens : List Token) :
    (∀ c, ofTokens tokens = .ok c ↔ ∃ n, n ≤ maxNesting ∧ DerivesCommand tokens c n) ∧
    (∀ c c' n n', DerivesCommand tokens c n → DerivesCommand tokens c' n' → c = c' ∧ n = n') ∧
    ((¬ ∃ c n, n ≤ maxNesting ∧ DerivesCommand tokens c n) → ∀ textLength,
      ∃ error : SyntaxError, (ofTokens tokens).mapError (Stop.toError textLength) = .error error) := by
  refine ⟨fun c => ⟨derives_of_ofTokens, ?_⟩, fun c c' n n' h h' => derivesCommand_unique h h',
    fun hnone textLength => ?_⟩
  · rintro ⟨n, hn, h⟩
    exact (ofTokens_of_derives h).1 hn
  · cases hread : ofTokens tokens with
    | error stop => exact ⟨stop.toError textLength, rfl⟩
    | ok c =>
      obtain ⟨n, hn, h⟩ := derives_of_ofTokens hread
      exact absurd ⟨c, n, hn, h⟩ hnone

end Command
end TabletopDice
