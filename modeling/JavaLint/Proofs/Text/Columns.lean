import JavaLint.Proofs.Text.Breaks
import Mathlib.Data.List.Induction
import Mathlib.Tactic.Common

/-!
# The widths of lines

`physicalLines` divides a text into its lines.  Their widths can be found in one pass over the text,
which keeps the column that it has reached: `endedWidths` are the widths of the lines that end in the
text, and `columnAfter` is the column after it.  Both can be found piece by piece, unlike the lines
themselves, of which a piece may have only a part.

`map_width_physicalLines` says that this is the same.
-/

namespace JavaLint.Text

/-- The lines of a text, without the breaks between them. -/
def physicalLines : List Char → List (List Char)
  | [] => [[]]
  | '\r' :: '\n' :: cs => [] :: physicalLines cs
  | c :: cs =>
    if isBreak c then [] :: physicalLines cs else (physicalLines cs).modifyHead (c :: ·)

/-- The column after a text that starts at the given column. -/
def columnAfter (column : Nat) (cs : List Char) : Nat :=
  cs.foldl (fun column c => if isBreak c then 0 else column + charWidth 1 column c) column

/-- The widths of the lines that end in a text, if the text starts at the given column. -/
def endedWidths : Nat → List Char → List Nat
  | _, [] => []
  | column, '\r' :: '\n' :: cs => column :: endedWidths 0 cs
  | column, c :: cs =>
    if isBreak c then column :: endedWidths 0 cs
    else endedWidths (column + charWidth 1 column c) cs

/-- The width of the line with a number, counted from one; zero if there is no such line. -/
def widthOfLine (cs : List Char) (n : Nat) : Nat :=
  ((endedWidths 0 cs ++ [columnAfter 0 cs])[n - 1]?).getD 0

/-! ## One character -/

/-- The column after a character and a text. -/
lemma columnAfter_cons (column : Nat) (c : Char) (cs : List Char) :
    columnAfter column (c :: cs) =
      columnAfter (if isBreak c then 0 else column + charWidth 1 column c) cs := rfl

/-- The column after two texts can be found one after the other. -/
lemma columnAfter_append (column : Nat) (as bs : List Char) :
    columnAfter column (as ++ bs) = columnAfter (columnAfter column as) bs :=
  List.foldl_append

/-- A character that does not start a `\r\n` ends a line by itself, or not at all. -/
lemma endedWidths_cons (column : Nat) {c : Char} {cs : List Char} (h : IsCleanCut [c] cs) :
    endedWidths column (c :: cs) =
      if isBreak c then column :: endedWidths 0 cs
      else endedWidths (column + charWidth 1 column c) cs := by
  have hpair : ∀ ds, c = '\r' → cs = '\n' :: ds → False := by
    rintro ds rfl rfl
    exact h rfl rfl
  rw [endedWidths]
  exact hpair

/-- A cut after a character that ends no line is clean. -/
lemma isCleanCut_of_not_isBreak {c : Char} (hc : isBreak c = false) (cs : List Char) :
    IsCleanCut [c] cs :=
  isCleanCut_of_getLast? rfl (by rintro rfl; simp [isBreak] at hc) cs

/-! ## Pieces of a text -/

/-- The lines that end in two texts end in the one or in the other, if the cut is clean. -/
theorem endedWidths_append (column : Nat) (as bs : List Char) (h : IsCleanCut as bs) :
    endedWidths column (as ++ bs) =
      endedWidths column as ++ endedWidths (columnAfter column as) bs := by
  fun_induction endedWidths column as with
  | case1 => rfl
  | case2 column cs ih =>
    rw [List.cons_append, List.cons_append, endedWidths, ih h.tail.tail]
    rfl
  | case3 column c cs hpair hc ih =>
    have hcut : IsCleanCut [c] (cs ++ bs) := by
      cases cs with
      | nil => exact h
      | cons d ds => exact fun hr hd => hpair ds (by simpa using hr) (by simpa using hd)
    rw [List.cons_append, endedWidths_cons column hcut, if_pos hc, ih h.tail, columnAfter_cons,
      if_pos hc, List.cons_append]
  | case4 column c cs hpair hc ih =>
    rw [List.cons_append, endedWidths_cons column (isCleanCut_of_not_isBreak (by simpa using hc) _),
      if_neg hc, ih h.tail, columnAfter_cons, if_neg hc]

/-- As many lines end as there are breaks. -/
@[simp] lemma length_endedWidths (column : Nat) (cs : List Char) :
    (endedWidths column cs).length = breaks cs := by
  fun_induction endedWidths column cs with
  | case1 => rfl
  | case2 column cs ih => simp [breaks, ih]
  | case3 column c cs hpair hc ih =>
    rw [List.length_cons, ih, breaks, if_pos hc]
    exact hpair
  | case4 column c cs hpair hc ih =>
    rw [ih, breaks, if_neg hc]
    exact hpair

/-- The column after a text of one line. -/
lemma columnAfter_eq_add_width {column : Nat} {cs : List Char} (h : ∀ c ∈ cs, isBreak c = false) :
    columnAfter column cs = column + width 1 column cs := by
  induction cs generalizing column with
  | nil => rfl
  | cons c cs ih =>
    obtain ⟨hc, hcs⟩ := List.forall_mem_cons.1 h
    rw [columnAfter_cons, width, if_neg (by simp [hc]), if_neg (by simp [hc]), ih hcs, Nat.add_assoc]

/-- The first line that ends in a text has the room that the text takes on it. -/
lemma head?_endedWidths {column : Nat} {cs : List Char} (h : breaks cs ≠ 0) :
    (endedWidths column cs).head? = some (column + width 1 column cs) := by
  fun_induction endedWidths column cs with
  | case1 => simp [breaks] at h
  | case2 column cs ih => simp [width, isBreak]
  | case3 column c cs hpair hc ih => simp [width, hc]
  | case4 column c cs hpair hc ih =>
    have hcs : breaks cs ≠ 0 := by rwa [breaks, if_neg hc] at h; exact hpair
    rw [ih hcs, width, if_neg hc, Nat.add_assoc]

/-- What stands after the last line break, if one more character is added. -/
lemma lastLine_concat (cs : List Char) (c : Char) :
    lastLine (cs ++ [c]) = if isBreak c then [] else lastLine cs ++ [c] := by
  simp only [lastLine, List.reverse_append, List.reverse_singleton, List.singleton_append,
    List.takeWhile_cons]
  cases isBreak c <;> simp

/-- Only the last line of a text with breaks counts for the column after it. -/
lemma columnAfter_eq_width_lastLine {column : Nat} {cs : List Char} (h : breaks cs ≠ 0) :
    columnAfter column cs = width 1 0 (lastLine cs) := by
  have hline : ∀ c ∈ lastLine cs, isBreak c = false := by
    intro c hc
    simpa using List.mem_takeWhile_imp (List.mem_reverse.1 hc)
  have hbreak : ∃ c ∈ cs, isBreak c = true := by
    by_contra hnone
    exact h ((breaks_eq_zero_iff cs).2 fun c hc => by
      by_contra hc'
      exact hnone ⟨c, hc, by simpa using hc'⟩)
  suffices hafter : columnAfter column cs = columnAfter 0 (lastLine cs) by
    rw [hafter, columnAfter_eq_add_width hline, Nat.zero_add]
  clear h hline
  induction cs using List.reverseRecOn with
  | nil => simp at hbreak
  | append_singleton cs c ih =>
    rw [columnAfter_append, lastLine_concat]
    cases hc : isBreak c with
    | true => simp [columnAfter_cons, hc]
    | false =>
      have hbefore : ∃ d ∈ cs, isBreak d = true := by
        obtain ⟨d, hd, hbreak⟩ := hbreak
        rcases List.mem_append.1 hd with hd | hd
        · exact ⟨d, hd, hbreak⟩
        · rw [List.mem_singleton.1 hd, hc] at hbreak
          cases hbreak
      rw [if_neg (by simp), columnAfter_append, ih hbefore]

/-! ## The widths of the lines -/

/-- The first line of a text goes on from the column at which the text starts. -/
lemma exists_physicalLines_eq_cons (column : Nat) (cs : List Char) :
    ∃ line lines, physicalLines cs = line :: lines ∧
      endedWidths column cs ++ [columnAfter column cs] =
        (column + width 1 column line) :: lines.map (width 1 0) := by
  fun_induction endedWidths column cs with
  | case1 => exact ⟨[], [], rfl, rfl⟩
  | case2 column cs ih =>
    obtain ⟨line, lines, hlines, hwidths⟩ := ih
    refine ⟨[], line :: lines, by rw [physicalLines, hlines], ?_⟩
    rw [Nat.zero_add] at hwidths
    rw [List.cons_append, List.map_cons, ← hwidths]
    rfl
  | case3 column c cs hpair hc ih =>
    obtain ⟨line, lines, hlines, hwidths⟩ := ih
    refine ⟨[], line :: lines, ?_, ?_⟩
    · rw [physicalLines, if_pos hc, hlines]
      exact hpair
    · rw [Nat.zero_add] at hwidths
      rw [List.cons_append, List.map_cons, ← hwidths, columnAfter_cons, if_pos hc]
      rfl
  | case4 column c cs hpair hc ih =>
    obtain ⟨line, lines, hlines, hwidths⟩ := ih
    refine ⟨c :: line, lines, ?_, ?_⟩
    · rw [physicalLines, if_neg hc, hlines]
      · rfl
      · exact hpair
    · rw [columnAfter_cons, if_neg hc, hwidths, width, if_neg hc, Nat.add_assoc]

/-- The widths that are found in one pass are those of the lines. -/
theorem map_width_physicalLines (cs : List Char) :
    endedWidths 0 cs ++ [columnAfter 0 cs] = (physicalLines cs).map (width 1 0) := by
  obtain ⟨line, lines, hlines, hwidths⟩ := exists_physicalLines_eq_cons 0 cs
  rw [hwidths, hlines, Nat.zero_add, List.map_cons]

/-- A line is wider than a bound if and only if it exists and is measured so. -/
lemma lt_widthOfLine_iff {cs : List Char} {bound n : Nat} :
    bound < widthOfLine cs n ↔
      ∃ line, (physicalLines cs)[n - 1]? = some line ∧ bound < width 1 0 line := by
  rw [widthOfLine, map_width_physicalLines, List.getElem?_map]
  cases (physicalLines cs)[n - 1]? <;> simp

/-! ## Adding a piece at the end -/

/-- The last line of a text ends at the column after it. -/
lemma widthOfLine_last (cs : List Char) : widthOfLine cs (1 + breaks cs) = columnAfter 0 cs := by
  rw [widthOfLine, Nat.add_sub_cancel_left, List.getElem?_append_right (by simp)]
  simp

/-- There are no more lines than breaks, and one. -/
lemma widthOfLine_eq_zero {cs : List Char} {n : Nat} (h : 1 + breaks cs < n) :
    widthOfLine cs n = 0 := by
  rw [widthOfLine, List.getElem?_eq_none (by simp; omega), Option.getD_none]

variable {as bs : List Char} {n : Nat}

/-- A piece at the end does not change the lines before the last one. -/
lemma widthOfLine_append_of_lt (h : IsCleanCut as bs) (hpos : 0 < n) (hn : n < 1 + breaks as) :
    widthOfLine (as ++ bs) n = widthOfLine as n := by
  have hlt : n - 1 < (endedWidths 0 as).length := by
    rw [length_endedWidths]
    omega
  rw [widthOfLine, widthOfLine, endedWidths_append 0 as bs h, List.append_assoc,
    List.getElem?_append_left hlt, List.getElem?_append_left hlt]

/-- A piece at the end takes room on the last line of the text before it. -/
lemma widthOfLine_append_last (h : IsCleanCut as bs) :
    widthOfLine (as ++ bs) (1 + breaks as) =
      columnAfter 0 as + width 1 (columnAfter 0 as) bs := by
  have hlength := length_endedWidths 0 as
  rw [widthOfLine, endedWidths_append 0 as bs h, columnAfter_append, List.append_assoc,
    Nat.add_sub_cancel_left, List.getElem?_append_right (by omega), hlength, Nat.sub_self]
  by_cases hbreaks : breaks bs = 0
  · have hnil : endedWidths (columnAfter 0 as) bs = [] :=
      List.length_eq_zero_iff.1 (by rw [length_endedWidths, hbreaks])
    simp [hnil, columnAfter_eq_add_width ((breaks_eq_zero_iff bs).1 hbreaks)]
  · have hhead : (endedWidths (columnAfter 0 as) bs).head? = _ := head?_endedWidths hbreaks
    rw [List.head?_eq_getElem?] at hhead
    obtain ⟨hlt, -⟩ := List.getElem?_eq_some_iff.1 hhead
    rw [List.getElem?_append_left hlt, hhead, Option.getD_some]

/-- The last line of a piece with breaks starts with the piece. -/
lemma widthOfLine_append_end (h : IsCleanCut as bs) (hbreaks : breaks bs ≠ 0) :
    widthOfLine (as ++ bs) (1 + breaks as + breaks bs) = width 1 0 (lastLine bs) := by
  rw [Nat.add_assoc, ← breaks_append as bs h, widthOfLine_last, columnAfter_append,
    columnAfter_eq_width_lastLine hbreaks]

/-- Each of the three line breaks ends one line. -/
lemma breaks_of_lineBreak (h : bs ∈ [['\n'], ['\r'], ['\r', '\n']]) : breaks bs = 1 := by
  simp only [List.mem_cons, List.not_mem_nil, or_false] at h
  rcases h with rfl | rfl | rfl <;> rfl

/-- A line break at the end adds an empty line. -/
lemma widthOfLine_append_lineBreak (h : IsCleanCut as bs)
    (hbreak : bs ∈ [['\n'], ['\r'], ['\r', '\n']]) (hpos : 0 < n) :
    widthOfLine (as ++ bs) n = widthOfLine as n := by
  have hone := breaks_of_lineBreak hbreak
  have hempty : (∀ column, width 1 column bs = 0) ∧ lastLine bs = [] := by
    simp only [List.mem_cons, List.not_mem_nil, or_false] at hbreak
    rcases hbreak with rfl | rfl | rfl <;> exact ⟨fun _ => rfl, rfl⟩
  obtain ⟨hwidth, hlast⟩ := hempty
  rcases Nat.lt_trichotomy n (1 + breaks as) with hlt | rfl | hgt
  · exact widthOfLine_append_of_lt h hpos hlt
  · rw [widthOfLine_append_last h, hwidth, widthOfLine_last, Nat.add_zero]
  · rw [widthOfLine_eq_zero hgt]
    by_cases hend : n = 1 + breaks as + breaks bs
    · rw [hend, widthOfLine_append_end h (by omega), hlast]
      rfl
    · rw [widthOfLine_eq_zero]
      rw [breaks_append _ _ h]
      omega

end JavaLint.Text
