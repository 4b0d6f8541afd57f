import TabletopDice.Proofs.Locality
import TabletopDice.Proofs.Numerals
/-!
# Tiling — the slices of a text that its tokens stand on

Every token stands on a slice of the text, which is its text as typed. The slices come one behind the other in the order
of the tokens, none is empty, and whatever no slice covers is white space. A text without tokens has them up to the
place where the scanner stops: what stands before that place is tiled in the same way (`scan_tiled`).
-/
namespace TabletopDice

open Text

/-- **A slice of a text that says a lexeme**: names stand behind their sigil, words are in letters of any case, and all
else is written as its text. -/
def Lexeme.WrittenAs (slice : List Char) (lexeme : Lexeme) : Prop :=
  match lexeme with
  | .var _ => slice = '@' :: lexeme.text.toList
  | .flag _ => slice = '#' :: lexeme.text.toList
  | .keyword _ | .lookalike _ => slice.flatMap lowerLetter = lexeme.text.toList
  | .number _ | .span .. | .becomes | .symbol _ => slice = lexeme.text.toList

namespace Token

/-! ## Tiles -/

/-- **A token and the number of characters** of the slice that it stands on. -/
structure Tile where
  token : Token
  width : Nat

namespace Tile

def start (tile : Tile) : Nat := tile.token.position

/-- The place behind the slice. -/
def stop (tile : Tile) : Nat := tile.start + tile.width

def slice (text : List Char) (tile : Tile) : List Char := (text.drop tile.start).take tile.width

/-- **A tile lies on a text**: its slice is not empty, does not reach over the end, and says its token. -/
structure On (text : List Char) (tile : Tile) : Prop where
  nonempty : 0 < tile.width
  inside : tile.stop ≤ text.length
  spelled : tile.token.lexeme.WrittenAs (tile.slice text)

end Tile

/-- **Tiles that cover a text from a place on**: they lie on it one behind the other, and what none of them covers is
white space. -/
structure Tiling (text : List Char) (start : Nat) (tiles : List Tile) : Prop where
  on : ∀ tile ∈ tiles, start ≤ tile.start ∧ tile.On text
  apart : tiles.Pairwise fun first second => first.stop ≤ second.start
  blank : ∀ i c, start ≤ i → text[i]? = some c →
    isBlank c = true ∨ ∃ tile ∈ tiles, tile.start ≤ i ∧ i < tile.stop

section Tiling

variable {text : List Char} {start stop : Nat} {tiles : List Tile}

theorem tiling_nil (h : text.length ≤ start) : Tiling text start [] where
  on := List.forall_mem_nil _
  apart := .nil
  blank i c hi hc := absurd (List.getElem?_eq_some_iff.1 hc).1 (by omega)

/-- White space before tiles. -/
theorem Tiling.blanks (h : Tiling text stop tiles) (hle : start ≤ stop)
    (hblank : ∀ i c, start ≤ i → i < stop → text[i]? = some c → isBlank c = true) : Tiling text start tiles where
  on tile ht := ⟨Nat.le_trans hle (h.on tile ht).1, (h.on tile ht).2⟩
  apart := h.apart
  blank i c hi hc := by
    by_cases hbefore : i < stop
    · exact .inl (hblank i c hi hbefore hc)
    · exact h.blank i c (Nat.le_of_not_lt hbefore) hc

/-- A tile right before others. -/
theorem Tiling.cons {tile : Tile} (hon : tile.On text) (h : Tiling text tile.stop tiles) :
    Tiling text tile.start (tile :: tiles) where
  on := List.forall_mem_cons.2 ⟨⟨Nat.le_refl _, hon⟩, fun other ho =>
    ⟨Nat.le_trans (Nat.le_add_right _ _) (h.on other ho).1, (h.on other ho).2⟩⟩
  apart := List.pairwise_cons.2 ⟨fun other ho => (h.on other ho).1, h.apart⟩
  blank i c hi hc := by
    by_cases hinside : i < tile.stop
    · exact .inr ⟨tile, List.mem_cons_self, hi, hinside⟩
    · rcases h.blank i c (Nat.le_of_not_lt hinside) hc with hblank | ⟨other, ho, hcovers⟩
      · exact .inl hblank
      · exact .inr ⟨other, List.mem_cons_of_mem _ ho, hcovers⟩

theorem Tiling.increasing (h : Tiling text start tiles) :
    (tiles.map Tile.token).Pairwise fun first second => first.position < second.position := by
  refine List.pairwise_map.2 (h.apart.imp_of_mem fun {first second} hfirst _ hle => ?_)
  have hpos := (h.on first hfirst).2.nonempty
  unfold Tile.stop Tile.start at hle
  omega

end Tiling

/-! ## The slice of a piece -/

theorem numberPiece_written {afterLetter : Bool} {c : Char} {rest : List Char} {piece : Piece}
    (h : numberPiece afterLetter c rest = .ok piece) :
    ∃ lexeme, piece.lexeme = some lexeme ∧ lexeme.WrittenAs (c :: rest.take piece.extra) := by
  rcases numberPiece_ok h with ⟨rfl, -⟩ | ⟨high, hspan, rfl, -⟩
  · refine ⟨_, rfl, ?_⟩
    rw [← List.prefix_iff_eq_take.1 (List.takeWhile_prefix _)]
    exact (String.toList_ofList).symm
  · obtain ⟨after, hafter, rfl, -⟩ := spanEnd?_eq_some.1 hspan
    have hcut : rest.takeWhile isDigit ++ '-' :: '-' :: after = rest := by
      rw [← hafter, List.takeWhile_append_dropWhile]
    have hprefix : rest.takeWhile isDigit ++ '-' :: '-' :: after.takeWhile isDigit <+: rest := by
      conv => rhs; rw [← hcut]
      simp only [List.prefix_append_right_inj, List.cons_prefix_cons, List.takeWhile_prefix, true_and]
    have hextra : (rest.takeWhile isDigit).length + 2 + (after.takeWhile isDigit).length =
        (rest.takeWhile isDigit ++ '-' :: '-' :: after.takeWhile isDigit).length := by
      simp only [List.length_append, List.length_cons]
      omega
    refine ⟨_, rfl, ?_⟩
    dsimp only
    rw [hextra, ← List.prefix_iff_eq_take.1 hprefix]
    exact (String.toList_ofList).symm

theorem wordLength?_pos {cs : List Char} {length : Nat} (h : wordLength? cs = some length) : 0 < length := by
  unfold wordLength? at h
  split at h
  · rename_i word hfind
    cases h
    have hall : ∀ word ∈ longWords, 0 < word.length := by decide
    exact hall word (List.mem_of_find?_eq_some hfind)
  · split at h
    · cases h
      exact Nat.one_pos
    · cases h

theorem wordLexeme_written (slice : List Char) : (wordLexeme slice).WrittenAs slice := by
  unfold wordLexeme
  dsimp only
  split
  · rename_i keyword hkeyword
    have hspelling := List.find?_some hkeyword
    rw [beq_iff_eq] at hspelling
    exact hspelling.symm.trans (String.toList_ofList).symm
  · exact (String.toList_ofList).symm

/-- **A piece of a text** is white space, or it says its lexeme. -/
theorem firstPiece_written {afterLetter : Bool} {c : Char} {rest : List Char} {piece : Piece}
    (h : firstPiece afterLetter c rest = .ok piece) :
    (piece.lexeme = none ∧ ∀ d ∈ c :: rest.take piece.extra, isBlank d = true) ∨
      ∃ lexeme, piece.lexeme = some lexeme ∧ lexeme.WrittenAs (c :: rest.take piece.extra) := by
  unfold firstPiece at h
  split at h
  · rename_i hblank
    cases h
    refine .inl ⟨rfl, List.forall_mem_cons.2 ⟨hblank, ?_⟩⟩
    rw [← List.prefix_iff_eq_take.1 (List.takeWhile_prefix _)]
    exact List.all_eq_true.1 List.all_takeWhile
  split at h
  · exact .inr (numberPiece_written h)
  split at h
  · rename_i hvar
    split at h
    · rename_i name hname
      cases h
      refine .inr ⟨_, rfl, ?_⟩
      rw [hvar, ← List.prefix_iff_eq_take.1 (prefix_of_nameAfterSigil? hname)]
      exact congrArg ('@' :: ·) (String.toList_ofList).symm
    · cases h
  split at h
  · rename_i hflag
    split at h
    · rename_i name hname
      cases h
      refine .inr ⟨_, rfl, ?_⟩
      rw [hflag, ← List.prefix_iff_eq_take.1 (prefix_of_nameAfterSigil? hname)]
      exact congrArg ('#' :: ·) (String.toList_ofList).symm
    · cases h
  split at h
  · rename_i hbecomes
    cases h
    rw [Bool.and_eq_true, decide_eq_true_eq, beq_iff_eq] at hbecomes
    obtain ⟨more, hrest⟩ := List.head?_eq_some_iff.1 hbecomes.2
    refine .inr ⟨_, rfl, ?_⟩
    rw [hbecomes.1, hrest]
    rfl
  split at h
  · rename_i length hlength
    cases h
    refine .inr ⟨_, rfl, ?_⟩
    obtain ⟨more, rfl⟩ := Nat.exists_eq_succ_of_ne_zero (Nat.pos_iff_ne_zero.1 (wordLength?_pos hlength))
    exact wordLexeme_written (c :: rest.take more)
  split at h
  · rename_i symbol hsymbol
    cases h
    refine .inr ⟨_, rfl, ?_⟩
    have hchar := List.find?_some hsymbol
    rw [beq_iff_eq] at hchar
    rw [← hchar]
    exact (String.toList_ofList).symm
  · cases h

/-! ## The tiles of a text -/

theorem exists_tiling {text : List Char} : ∀ (after before : List Char) {afterLetter : Bool} {tokens : List Token},
    text = before ++ after → scanFrom afterLetter before.length after = .ok tokens →
      ∃ tiles, tiles.map Tile.token = tokens ∧ Tiling text before.length tiles
  | [], before, afterLetter, tokens, htext, h => by
    rw [scanFrom_nil] at h
    cases h
    rw [List.append_nil] at htext
    exact ⟨[], rfl, tiling_nil (Nat.le_of_eq (congrArg List.length htext))⟩
  | c :: rest, before, afterLetter, tokens, htext, h => by
    obtain ⟨piece, more, hpiece, hmore, rfl⟩ := scanFrom_cons.1 h
    have hle := firstPiece_extra_le hpiece
    have hlength : (before ++ c :: rest.take piece.extra).length = before.length + 1 + piece.extra := by
      rw [List.length_append, List.length_cons, List.length_take]
      omega
    have hwhole : text = (before ++ c :: rest.take piece.extra) ++ rest.drop piece.extra := by
      rw [htext, List.append_assoc, List.cons_append, List.take_append_drop]
    rw [← hlength] at hmore
    obtain ⟨tiles, hmap, htiling⟩ := exists_tiling _ _ hwhole hmore
    rw [hlength] at htiling
    rcases firstPiece_written hpiece with ⟨hlexeme, hblank⟩ | ⟨lexeme, hlexeme, hwritten⟩
    · refine ⟨tiles, by rw [hmap, Piece.tokens, hlexeme]; rfl, htiling.blanks (by omega) fun i d hi hbefore hd => ?_⟩
      -- the place lies on the white space of the piece
      rw [hwhole, List.getElem?_append_left (by omega), List.getElem?_append_right hi] at hd
      exact hblank d (List.mem_of_getElem? hd)
    · have hslice : (text.drop before.length).take (1 + piece.extra) = c :: rest.take piece.extra := by
        rw [htext, List.drop_left, Nat.add_comm, List.take_succ_cons]
      let tile : Tile := ⟨⟨lexeme, before.length⟩, 1 + piece.extra⟩
      have hstop : tile.stop = before.length + 1 + piece.extra := (Nat.add_assoc ..).symm
      have hon : tile.On text := by
        refine ⟨Nat.lt_of_lt_of_le Nat.one_pos (Nat.le_add_right _ _), ?_, ?_⟩
        · rw [hstop, hwhole, List.length_append, hlength]
          exact Nat.le_add_right _ _
        · change lexeme.WrittenAs ((text.drop before.length).take (1 + piece.extra))
          rw [hslice]
          exact hwritten
      refine ⟨tile :: tiles, ?_, Tiling.cons hon (hstop ▸ htiling)⟩
      rw [List.map_cons, hmap, Piece.tokens, hlexeme]
      rfl
  termination_by after => after.length
  decreasing_by simp only [List.length_cons, List.length_drop]; omega

/-- **What stands before the place where the scanner stops** is scanned. -/
theorem scanFrom_before_error : ∀ (cs : List Char) {afterLetter : Bool} {position : Nat} {error : SyntaxError},
    scanFrom afterLetter position cs = .error error → ∃ before after tokens, cs = before ++ after ∧
      error.position = position + before.length ∧ scanFrom afterLetter position before = .ok tokens
  | [], afterLetter, position, error, h => by
    rw [scanFrom_nil] at h
    cases h
  | c :: rest, afterLetter, position, error, h => by
    rw [scanFrom] at h
    cases hpiece : firstPiece afterLetter c rest with
    | error fault =>
      rw [hpiece] at h
      cases h
      exact ⟨[], c :: rest, [], rfl, rfl, scanFrom_nil _ _⟩
    | ok piece =>
      rw [hpiece] at h
      dsimp only at h
      have hle := firstPiece_extra_le hpiece
      cases hrest : scanFrom (endsInLetter c (rest.take piece.extra)) (position + 1 + piece.extra)
        (rest.drop piece.extra) with
      | ok tokens =>
        rw [hrest] at h
        cases hlexeme : piece.lexeme <;> rw [hlexeme] at h <;> cases h
      | error inner =>
        rw [hrest] at h
        cases h
        obtain ⟨before, after, tokens, hcut, hplace, hbefore⟩ := scanFrom_before_error _ hrest
        refine ⟨c :: (rest.take piece.extra ++ before), after, _, ?_, ?_, scanFrom_kept hpiece hcut hbefore⟩
        · rw [List.cons_append, List.append_assoc, ← hcut, List.take_append_drop]
        · rw [hplace, List.length_cons, List.length_append, List.length_take]
          omega
  termination_by cs => cs.length
  decreasing_by simp only [List.length_cons, List.length_drop]; omega

/-- **Tokens that tile a text**: the end stands behind all of them and nowhere else, their places increase, their
numerals are not too long, and they stand on slices that are apart and leave out white space only. -/
structure Tiled (text : List Char) (tokens : List Token) : Prop where
  ends : ∀ i, seen text.length tokens i = (none, text.length) ↔ tokens.length ≤ i
  increasing : tokens.Pairwise fun first second => first.position < second.position
  short : ∀ token ∈ tokens, token.lexeme.Short
  slices : ∃ tiles, tiles.map Tile.token = tokens ∧ Tiling text 0 tiles

theorem seen_end (textLength : Nat) (tokens : List Token) (i : Nat) :
    seen textLength tokens i = (none, textLength) ↔ tokens.length ≤ i := by
  unfold seen
  rw [← List.getElem?_eq_none_iff]
  cases tokens[i]? <;> simp

theorem tiled_of_scan {text : List Char} {tokens : List Token} (h : scan text = .ok tokens) : Tiled text tokens := by
  obtain ⟨tiles, hmap, htiling⟩ := exists_tiling text [] rfl h
  exact ⟨seen_end _ _, hmap ▸ htiling.increasing, scanFrom_short h, tiles, hmap, htiling⟩

/-- **The tokens of a text tile it.** A text that has none stops the scanner at the end of a part that has tokens, and
they tile that part. -/
theorem scan_tiled (text : List Char) :
    match scan text with
    | .ok tokens => Tiled text tokens
    | .error error => ∃ before after tokens, text = before ++ after ∧ error.position = before.length ∧
        scan before = .ok tokens ∧ Tiled before tokens := by
  cases hscan : scan text with
  | ok tokens => exact tiled_of_scan hscan
  | error error =>
    obtain ⟨before, after, tokens, htext, hplace, hbefore⟩ := scanFrom_before_error text hscan
    exact ⟨before, after, tokens, htext, hplace.trans (Nat.zero_add _), hbefore, tiled_of_scan hbefore⟩

end Token
end TabletopDice
