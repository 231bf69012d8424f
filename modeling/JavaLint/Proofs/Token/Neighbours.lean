import JavaLint.Proofs.Lexeme.Position
import JavaLint.Proofs.Token.LineTable
import Mathlib.Tactic.Common

/-!
# The tokens around a token

The table looks for the token before a token on its own line and then on the lines before, which may be
empty, and in the same way for the token after it.  In the table of a source text a token stands in the
row of its line (`Filling.Lined`), and the rows one after the other are the tokens (`rows_ofLexemes`), so
its number is that of the first token of the row and its place (`row_ofLexemes`).  So the tokens that are
found are those with the numbers before and after: `prev?_ofLexemes` and `next?_ofLexemes`.
-/

namespace JavaLint

/-- The lexemes of a source text start on lines that do not go back. -/
lemma Lexeme.IsPlaced.lines_le {offset line : Nat} {ls : List Lexeme}
    (h : Lexeme.IsPlaced offset line ls) :
    (∀ l ∈ ls, line ≤ l.line) ∧ ls.Pairwise fun l m => l.line ≤ m.line := by
  induction ls generalizing offset line with
  | nil => exact ⟨by simp, .nil⟩
  | cons l ls ih =>
    obtain ⟨-, -, hline, -, hrest⟩ := h
    obtain ⟨hle, hsorted⟩ := ih hrest
    refine ⟨List.forall_mem_cons.2 ⟨by omega, fun m hm => ?_⟩,
      List.pairwise_cons.2 ⟨fun m hm => ?_, hsorted⟩⟩
    · have hm' := hle m hm
      omega
    · have hm' := hle m hm
      omega

namespace LineTable

namespace Filling

variable {f : Filling}

/-- The tokens stand in the rows of their lines, at their places. -/
structure Lined (f : Filling) : Prop where
  line : f.table.rows.size + 1 = f.line
  placed : ∀ (slot : Nat) (row : Array Token) (i : Nat) (t : Token),
    (f.table.rows.push f.row)[slot]? = some row → row[i]? = some t → t.line = slot + 1 ∧ t.place = i

/-- Finishing a line moves no token. -/
lemma Lined.breakLine (h : f.Lined) : f.breakLine.Lined where
  line := by simp [Filling.breakLine, h.line]
  placed := by
    intro slot row i t hrow ht
    change ((f.table.rows.push f.row).push #[])[slot]? = some row at hrow
    rw [Array.getElem?_push] at hrow
    split at hrow
    · obtain rfl : #[] = row := by simpa using hrow
      simp at ht
    · exact h.placed slot row i t hrow ht

/-- Finishing any number of lines moves no token, and goes on by so many lines. -/
lemma Lined.breakLines (h : f.Lined) (m : Nat) :
    (f.breakLines m).Lined ∧ (f.breakLines m).line = f.line + m := by
  induction m generalizing f with
  | zero => exact ⟨h, rfl⟩
  | succ m ih =>
    obtain ⟨hlined, hline⟩ := ih h.breakLine
    refine ⟨hlined, ?_⟩
    rw [Filling.breakLines, hline]
    change f.line + 1 + m = f.line + (m + 1)
    omega

/-- A token is put in the row of its line. -/
lemma Lined.put (h : f.Lined) {l : Lexeme} (hl : l.line = f.line) (channel : Channel) :
    (f.put l channel).Lined where
  line := h.line
  placed := by
    intro slot row i t hrow ht
    have hsize := h.line
    simp only [Filling.put, Array.getElem?_push] at hrow
    split at hrow
    · rename_i hslot
      obtain rfl : f.row.push (f.place l channel) = row := by simpa using hrow
      rw [Array.getElem?_push] at ht
      split at ht
      · rename_i hi
        obtain rfl : f.place l channel = t := by simpa using ht
        exact ⟨by simp only [Filling.place]; omega, hi.symm⟩
      · exact h.placed slot f.row i t (by simp [hslot]) ht
    · rename_i hslot
      exact h.placed slot row i t (by rw [Array.getElem?_push, if_neg hslot, hrow]) ht

/-- Taking in a lexeme of the line at hand or of a later one. -/
lemma Lined.add (h : f.Lined) {l : Lexeme} (hl : f.line ≤ l.line) :
    (f.add l).Lined ∧ (f.add l).line ≤ l.line := by
  unfold Filling.add
  split
  · exact ⟨⟨h.line, h.placed⟩, hl⟩
  · split
    · exact ⟨⟨h.line, h.placed⟩, hl⟩
    · obtain ⟨hlined, hline⟩ := h.breakLines (l.line - f.line)
      have hhere : l.line = (f.breakLines (l.line - f.line)).line := by omega
      exact ⟨hlined.put hhere _, Nat.le_of_eq hhere.symm⟩

/-- Taking in lexemes whose lines do not go back. -/
lemma Lined.foldl_add (h : f.Lined) {ls : List Lexeme} (hle : ∀ l ∈ ls, f.line ≤ l.line)
    (hsorted : ls.Pairwise fun l m => l.line ≤ m.line) : (ls.foldl Filling.add f).Lined := by
  induction ls generalizing f with
  | nil => exact h
  | cons l ls ih =>
    obtain ⟨hl, -⟩ := List.forall_mem_cons.1 hle
    obtain ⟨hfirst, hrest⟩ := List.pairwise_cons.1 hsorted
    obtain ⟨hlined, hline⟩ := h.add hl
    exact ih hlined (fun m hm => hline.trans (hfirst m hm)) hrest

end Filling

/-! ## Rows -/

/-- The number of tokens before a row. -/
def rowStart (t : LineTable) (slot : Nat) : Nat :=
  ((t.rows.toList.take slot).flatMap Array.toList).length

/-- There are no tokens before the first row. -/
@[simp] lemma rowStart_zero (t : LineTable) : t.rowStart 0 = 0 := by
  simp [rowStart]

/-- A row starts after the tokens of the row before it. -/
lemma rowStart_succ {t : LineTable} {slot : Nat} {row : Array Token}
    (hrow : t.rows[slot]? = some row) : t.rowStart (slot + 1) = t.rowStart slot + row.size := by
  simp [rowStart, List.take_add_one, hrow]

/-- Later rows do not start earlier. -/
lemma rowStart_mono (t : LineTable) {m n : Nat} (h : m ≤ n) : t.rowStart m ≤ t.rowStart n := by
  obtain ⟨k, rfl⟩ := Nat.exists_eq_add_of_le h
  rw [rowStart, rowStart, List.take_add, List.flatMap_append, List.length_append]
  exact Nat.le_add_right _ _

variable {offset n slot i : Nat} {ls : List Lexeme} {row : Array Token} {t : Token}

/-- The tokens before a row are those of the rows before it. -/
lemma take_rowStart (ls : List Lexeme) (slot : Nat) :
    (ofLexemes ls).tokens.toList.take ((ofLexemes ls).rowStart slot) =
      ((ofLexemes ls).rows.toList.take slot).flatMap Array.toList := by
  rw [← rows_ofLexemes, ← List.take_append_drop slot (ofLexemes ls).rows.toList, List.flatMap_append]
  simp [rowStart]

/-- The tokens from a row on are those of the row and of the rows after it. -/
lemma drop_rowStart (ls : List Lexeme) (slot : Nat) :
    (ofLexemes ls).tokens.toList.drop ((ofLexemes ls).rowStart slot) =
      ((ofLexemes ls).rows.toList.drop slot).flatMap Array.toList := by
  rw [← rows_ofLexemes, ← List.take_append_drop slot (ofLexemes ls).rows.toList, List.flatMap_append]
  simp [rowStart]

/-- The tokens of a row follow those before it. -/
lemma getElem?_rowStart_add (hrow : (ofLexemes ls).rows[slot]? = some row) (hi : i < row.size) :
    (ofLexemes ls).tokens[(ofLexemes ls).rowStart slot + i]? = row[i]? := by
  obtain ⟨hslot, rfl⟩ := Array.getElem?_eq_some_iff.1 hrow
  rw [← Array.getElem?_toList, ← List.getElem?_drop, drop_rowStart, ← Array.getElem_toList,
    ← List.getElem_cons_drop (by simpa using hslot), List.flatMap_cons,
    List.getElem?_append_left (by simpa using hi), Array.getElem?_toList]

/-- In the table of a source text, the tokens stand in the rows of their lines, at their places. -/
lemma placed_ofLexemes (hls : Lexeme.IsPlaced offset 1 ls)
    (hrow : (ofLexemes ls).rows[slot]? = some row) (ht : row[i]? = some t) :
    t.line = slot + 1 ∧ t.place = i := by
  obtain ⟨hle, hsorted⟩ := hls.lines_le
  have hstart : ({} : Filling).Lined := by
    refine ⟨rfl, fun slot row i t hrow hi => ?_⟩
    obtain rfl : #[] = row := by
      obtain ⟨hlt, hget⟩ := Array.getElem?_eq_some_iff.1 hrow
      simpa using hget
    simp at hi
  refine (hstart.foldl_add hle hsorted).breakLine.placed slot row i t ?_ ht
  have hlt := (Array.getElem?_eq_some_iff.1 hrow).1
  change ((ofLexemes ls).rows.push _)[slot]? = some row
  rw [Array.getElem?_push, if_neg (by omega), hrow]

/-- In the table of a source text, a token stands in the row of its line, and its number is that of the
first token of the row and its place. -/
lemma row_ofLexemes (hls : Lexeme.IsPlaced offset 1 ls)
    (ht : (ofLexemes ls).tokens[n]? = some t) :
    ∃ slot row, t.line = slot + 1 ∧ (ofLexemes ls).rows[slot]? = some row ∧
      row[t.place]? = some t ∧ n = (ofLexemes ls).rowStart slot + t.place := by
  obtain ⟨slot, row, hrow, hplace⟩ := place_ofLexemes ht
  obtain ⟨hlt, -⟩ := Array.getElem?_eq_some_iff.1 hplace
  have hfound := getElem?_rowStart_add hrow hlt
  rw [hplace] at hfound
  refine ⟨slot, row, (placed_ofLexemes hls hrow hplace).1, hrow, hplace, ?_⟩
  rw [← number_ofLexemes ht, number_ofLexemes hfound]

/-! ## Neighbours -/

/-- The last token of the rows is the last one of the last row that is not empty. -/
lemma findSome?_back? (rows : List (Array Token)) :
    rows.reverse.findSome? Array.back? = (rows.flatMap Array.toList).getLast? := by
  induction rows with
  | nil => rfl
  | cons row rows ih =>
    rw [List.reverse_cons, List.findSome?_append, ih, List.flatMap_cons, List.getLast?_append]
    simp

/-- The first token of the rows is the first one of the first row that is not empty. -/
lemma findSome?_first (rows : List (Array Token)) :
    (rows.findSome? fun tokens => tokens[0]?) = (rows.flatMap Array.toList).head? := by
  induction rows with
  | nil => rfl
  | cons row rows ih =>
    have hfirst : row.toList.head? = row[0]? := by
      rw [List.head?_eq_getElem?, Array.getElem?_toList]
    rw [List.findSome?_cons, ih, List.flatMap_cons, List.head?_append, hfirst]
    cases row[0]? <;> rfl

/-- In the table of a source text, the token before a token is the one with the number before. -/
theorem prev?_ofLexemes (hls : Lexeme.IsPlaced offset 1 ls)
    (ht : (ofLexemes ls).tokens[n]? = some t) :
    (ofLexemes ls).prev? t = if n = 0 then none else (ofLexemes ls).tokens[n - 1]? := by
  obtain ⟨slot, row, hline, hrow, hplace, hnumber⟩ := row_ofLexemes hls ht
  obtain ⟨hslot, -⟩ := Array.getElem?_eq_some_iff.1 hrow
  obtain ⟨hlt, -⟩ := Array.getElem?_eq_some_iff.1 hplace
  rw [prev?, hline]
  cases hcount : t.place with
  | zero =>
    -- The token is the first one of its row, so the rows before it hold the tokens before it.
    have hsize := (Array.getElem?_eq_some_iff.1 ht).1
    rw [before?, if_pos hslot.le, findSome?_back?, ← take_rowStart, List.getLast?_take]
    rw [hcount, Nat.add_zero] at hnumber
    subst hnumber
    refine if_congr Iff.rfl rfl ?_
    rw [Array.getElem?_toList, Array.getElem?_eq_getElem (by omega), Option.some_or]
  | succ i =>
    have hfound : (ofLexemes ls).before? (slot + 1) (i + 1) = row[i]? := by
      simp [before?, atPlace?, lineTokens, hrow]
    rw [hfound, if_neg (by omega), ← getElem?_rowStart_add hrow (by omega)]
    congr 1
    omega

/-- In the table of a source text, the token after a token is the one with the number after. -/
theorem next?_ofLexemes (hls : Lexeme.IsPlaced offset 1 ls)
    (ht : (ofLexemes ls).tokens[n]? = some t) :
    (ofLexemes ls).next? t = (ofLexemes ls).tokens[n + 1]? := by
  obtain ⟨slot, row, hline, hrow, hplace, hnumber⟩ := row_ofLexemes hls ht
  obtain ⟨hslot, -⟩ := Array.getElem?_eq_some_iff.1 hrow
  obtain ⟨hlt, -⟩ := Array.getElem?_eq_some_iff.1 hplace
  have hrest : (ofLexemes ls).atPlace? (slot + 1) (t.place + 1) = row[t.place + 1]? := by
    simp [atPlace?, lineTokens, hrow]
  rw [next?, hline, after?, if_pos hslot, hrest, hnumber, Nat.add_assoc]
  by_cases hlast : t.place + 1 < row.size
  · rw [getElem?_rowStart_add hrow hlast, Array.getElem?_eq_getElem hlast, Option.some_or]
  · -- The token is the last one of its row, so the next row starts after it.
    have hsize : t.place + 1 = row.size := by omega
    rw [Array.getElem?_eq_none (by omega), Option.none_or, findSome?_first, ← drop_rowStart, hsize,
      ← rowStart_succ hrow, List.head?_drop, Array.getElem?_toList]

/-- Only the first token of a source text has none before it. -/
lemma exists_prev? (hls : Lexeme.IsPlaced offset 1 ls)
    (ht : (ofLexemes ls).tokens[n + 1]? = some t) :
    ∃ p, (ofLexemes ls).prev? t = some p ∧ (ofLexemes ls).tokens[n]? = some p := by
  have hlt := (Array.getElem?_eq_some_iff.1 ht).1
  have hn : n < (ofLexemes ls).tokens.size := by omega
  refine ⟨(ofLexemes ls).tokens[n], ?_, Array.getElem?_eq_getElem _⟩
  rw [prev?_ofLexemes hls ht, if_neg (Nat.succ_ne_zero n), Nat.add_sub_cancel, Array.getElem?_eq_getElem hn]

end LineTable

end JavaLint
