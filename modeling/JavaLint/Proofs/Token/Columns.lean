import JavaLint.Proofs.Token.Order
import JavaLint.Proofs.Token.Widths
import Mathlib.Tactic.Common

/-!
# Where tokens stand on their lines

The columns of the tokens are found while the table is filled, from the widths of the tokens before them
and, where a line starts inside a token, from the column at which that token ends.  `EndsWithLine` and
`visualColumn` say what they should be from the text alone: one takes what stands between the last line
break and the token, and goes over it character by character.

A token that has been put is not changed any more (`getElem?_tokens_foldl_add`), so its column is the one
that the table had reached with the lexemes before it (`column_ofLexemes`).  Its place is the number of
tokens of its line before it, because the tokens of other lines stand in other rows
(`place_eq_countP`).  The main result is `columns_are_visual`.
-/

namespace JavaLint

/-! ## Columns in a text -/

namespace Text

/-- The column after a character: a tab goes to the next multiple of four, a form feed nowhere, and every
other character to the next column. -/
def nextColumn (column : Nat) (c : Char) : Nat :=
  if c = '\t' then (column / 4 + 1) * 4
  else if c = '\x0c' then column
  else column + 1

/-- The column after a text that starts a line. -/
def visualColumn (line : List Char) : Nat :=
  line.foldl nextColumn 0

/-- The text ends with the line: there is no line break in the line, and nothing or a line break stands
before it. -/
def EndsWithLine (cs line : List Char) : Prop :=
  (∀ c ∈ line, isBreak c = false) ∧
    (cs = line ∨ ∃ above c, isBreak c = true ∧ cs = above ++ c :: line)

/-- A character goes on by the room that it takes. -/
lemma nextColumn_eq (column : Nat) (c : Char) : nextColumn column c = column + charWidth 1 column c := by
  by_cases htab : c = '\t'
  · have hstop : charWidth 1 column c = 4 - column % 4 := by
      rw [htab]
      rfl
    rw [nextColumn, if_pos htab, hstop]
    omega
  · by_cases hfeed : c = '\x0c'
    · simp [nextColumn, charWidth, hfeed]
    · simp [nextColumn, charWidth, htab, hfeed]

/-- The column after a text without line breaks. -/
lemma columnAfter_eq_foldl {line : List Char} (h : ∀ c ∈ line, isBreak c = false) (column : Nat) :
    columnAfter column line = line.foldl nextColumn column := by
  induction line generalizing column with
  | nil => rfl
  | cons c line ih =>
    obtain ⟨hc, hline⟩ := List.forall_mem_cons.1 h
    rw [columnAfter_cons, if_neg (by simp [hc]), ← nextColumn_eq, ih hline, List.foldl_cons]

/-- The column after a text depends on the line with which it ends, and on nothing before. -/
lemma EndsWithLine.columnAfter_eq {cs line : List Char} (h : EndsWithLine cs line) :
    columnAfter 0 cs = visualColumn line := by
  obtain ⟨hline, rfl | ⟨above, c, hc, rfl⟩⟩ := h
  · exact columnAfter_eq_foldl hline 0
  · rw [columnAfter_append, columnAfter_cons, if_pos hc]
    exact columnAfter_eq_foldl hline 0

/-- Every text ends with a line. -/
lemma exists_endsWithLine (cs : List Char) : ∃ line, EndsWithLine cs line := by
  induction cs with
  | nil => exact ⟨[], by simp, .inl rfl⟩
  | cons c cs ih =>
    obtain ⟨line, hline, rfl | ⟨above, d, hd, rfl⟩⟩ := ih
    · cases hc : isBreak c with
      | true => exact ⟨cs, hline, .inr ⟨[], c, hc, rfl⟩⟩
      | false => exact ⟨c :: cs, List.forall_mem_cons.2 ⟨hc, hline⟩, .inl rfl⟩
    · exact ⟨line, hline, .inr ⟨c :: above, d, hd, rfl⟩⟩

end Text

open Text (EndsWithLine breaks columnAfter visualColumn)

namespace LineTable

/-! ## Columns in a table -/

namespace Filling

variable {f : Filling} {l : Lexeme} {ls : List Lexeme} {n : Nat} {t : Token}

/-- Finishing lines changes no tokens. -/
@[simp] lemma tokens_breakLines (f : Filling) (m : Nat) :
    (f.breakLines m).table.tokens = f.table.tokens := by
  induction m generalizing f with
  | zero => rfl
  | succ m ih => exact ih f.breakLine

/-- A token stays where it is when a lexeme is taken in. -/
lemma getElem?_tokens_add (h : f.table.tokens[n]? = some t) (l : Lexeme) :
    (f.add l).table.tokens[n]? = some t := by
  unfold Filling.add
  split
  · exact h
  · split
    · exact h
    · have hlt := (Array.getElem?_eq_some_iff.1 h).1
      simp only [Filling.put, tokens_breakLines]
      rw [Array.getElem?_push, if_neg (by omega), h]

/-- A token stays where it is when lexemes are taken in, one after the other. -/
lemma getElem?_tokens_foldl_add (h : f.table.tokens[n]? = some t) (ls : List Lexeme) :
    (ls.foldl Filling.add f).table.tokens[n]? = some t := by
  induction ls generalizing f with
  | nil => exact h
  | cons l ls ih => exact ih (getElem?_tokens_add h l)

/-- The token of the next lexeme stands at the column after the lexemes so far. -/
lemma Measures.column_add (h : f.Measures ls) (hplaced : Lexeme.IsPlaced 0 1 (ls ++ [l]))
    (htoken : l.hasToken = true) :
    (f.add l).table.tokens[f.table.tokens.size]?.map Token.column =
      some (columnAfter 0 (Lexeme.chars ls)) := by
  obtain ⟨hchannel, htext⟩ : l.channel.isSome = true ∧ ¬ l.text.isEmpty = true := by
    simpa [Lexeme.hasToken] using htoken
  obtain ⟨channel, hchannel⟩ := Option.isSome_iff_exists.1 hchannel
  have hle := h.line_le
  have hlast := hplaced.last.1
  have hline : (f.breakLines (l.line - f.line)).line = l.line := by
    rw [(h.tidy.breakLines _).2.1]
    omega
  have hcolumn := (h.breakLines (m := l.line - f.line) (by omega)).column_eq hplaced hline
  simp [Filling.add, hchannel, htext, Filling.put, Filling.place, hcolumn]

end Filling

variable {before after ls : List Lexeme} {l : Lexeme} {n : Nat} {t : Token}

/-- In the table of a source text, the token of a lexeme stands at the column after the lexemes before
it. -/
lemma column_ofLexemes (hplaced : Lexeme.IsPlaced 0 1 (before ++ l :: after))
    (hmeasured : ∀ m ∈ before, m.IsMeasured) (htoken : l.hasToken = true)
    (ht : (ofLexemes (before ++ l :: after)).tokens[before.countP Lexeme.hasToken]? = some t) :
    t.column = columnAfter 0 (Lexeme.chars before) := by
  have hhere : Lexeme.IsPlaced 0 1 (before ++ [l]) := by
    rw [List.append_cons] at hplaced
    exact hplaced.left
  obtain ⟨hmeasures, -⟩ := Filling.Measures.nil.foldl_add (.inl ⟨rfl, rfl⟩) hhere.left hmeasured
  have hsize := (Filling.Holds.nil.foldl_add before).size_tokens
  rw [List.nil_append] at hmeasures hsize
  obtain ⟨t', ht', hcolumn⟩ := Option.map_eq_some_iff.1 (hmeasures.column_add hhere htoken)
  rw [hsize] at ht'
  -- The token is there as soon as its lexeme is taken in, and stays.
  have hstays := Filling.getElem?_tokens_foldl_add ht' after
  have htokens : (ofLexemes (before ++ l :: after)).tokens =
      (after.foldl Filling.add ((before.foldl Filling.add {}).add l)).table.tokens := by
    simp [ofLexemes, Filling.finish, Filling.breakLine]
  rw [htokens, hstays] at ht
  rw [← hcolumn, Option.some.inj ht]

/-- In the table of a source text, the place of a token is the number of tokens of its line before it. -/
lemma place_eq_countP {offset : Nat} (hls : Lexeme.IsPlaced offset 1 ls)
    (ht : (ofLexemes ls).tokens[n]? = some t) :
    t.place = ((ofLexemes ls).tokens.toList.take n).countP fun m => m.line = t.line := by
  obtain ⟨slot, row, hline, hrow, hplace, rfl⟩ := row_ofLexemes hls ht
  have hlt := (Array.getElem?_eq_some_iff.1 hplace).1
  have hnext := rowStart_succ hrow
  have hsize := (Array.getElem?_eq_some_iff.1 ht).1
  have hbefore : ∀ m ∈ (ofLexemes ls).tokens.toList.take ((ofLexemes ls).rowStart slot),
      m.line ≠ t.line := by
    intro m hm
    obtain ⟨k, hk, rfl⟩ := List.mem_take_iff_getElem.1 hm
    rw [Array.length_toList] at hk
    have hm : (ofLexemes ls).tokens[k]? = some _ := Array.getElem?_eq_getElem (by omega)
    rw [hline, ne_eq, Array.getElem_toList, line_eq_iff hls hm]
    omega
  have hhere : ∀ m ∈ ((ofLexemes ls).tokens.toList.drop ((ofLexemes ls).rowStart slot)).take t.place,
      m.line = t.line := by
    intro m hm
    obtain ⟨k, hk, rfl⟩ := List.mem_take_iff_getElem.1 hm
    rw [List.length_drop, Array.length_toList] at hk
    have hm : (ofLexemes ls).tokens[(ofLexemes ls).rowStart slot + k]? = some _ :=
      Array.getElem?_eq_getElem (by omega)
    rw [hline, List.getElem_drop, Array.getElem_toList, line_eq_iff hls hm]
    omega
  rw [List.take_add, List.countP_append, List.countP_eq_zero.2 (by simpa using hbefore),
    List.countP_eq_length.2 (by simpa using hhere), Nat.zero_add, List.length_take, List.length_drop,
    Array.length_toList]
  omega

/-- The token stands where the text before it says: on the line after its line breaks, at the column
after its last line, and after the tokens that start on the same line. -/
structure StandsAfter (table : LineTable) (head : String) (number : Nat) (t : Token) : Prop where
  line : t.line = 1 + breaks head.toList
  column : ∃ line, EndsWithLine head.toList line ∧ t.column = visualColumn line
  place : t.place = (table.tokens.toList.take number).countP fun m => m.line = t.line

/-- The tokens of a source text stand where the text before them says. -/
theorem columns_are_visual {source : String} {lexemes : List Lexeme}
    (h : Lexeme.scan source = .ok lexemes) {number : Nat} {t : Token}
    (ht : (ofLexemes lexemes).token number = .ok t) :
    ∃ before l after, lexemes = before ++ l :: after ∧
      (ofLexemes lexemes).ofLexeme? before.length = some number ∧ t.text = l.text ∧
      source = String.join (before.map Lexeme.text) ++ t.text ++ String.join (after.map Lexeme.text) ∧
      (ofLexemes lexemes).StandsAfter (String.join (before.map Lexeme.text)) number t := by
  obtain ⟨hchars, hplaced⟩ := Lexeme.scan_eq_ok h
  have ht := token_eq_ok_iff.1 ht
  have hlt : number < lexemes.countP Lexeme.hasToken := by
    rw [← count_ofLexemes]
    exact (Array.getElem?_eq_some_iff.1 ht).1
  have hplace := place_eq_countP hplaced ht
  obtain ⟨before, l, after, rfl, htoken, rfl⟩ := exists_split_countP hlt
  have hnumber : (ofLexemes (before ++ l :: after)).ofLexeme? before.length =
      some (before.countP Lexeme.hasToken) := by
    rw [ofLexeme?_ofLexemes, if_pos htoken]
  obtain ⟨t', ht', -, htext, hline⟩ := token_of_ofLexeme? (l := l) (by simp) hnumber
  obtain rfl : t' = t := Option.some.inj (ht'.symm.trans ht)
  obtain ⟨line, hends⟩ := Text.exists_endsWithLine (Lexeme.chars before)
  have hmeasured : ∀ m ∈ before, m.IsMeasured :=
    fun m hm => Lexeme.isMeasured_of_scan h m (List.mem_append_left _ hm)
  refine ⟨before, l, after, rfl, hnumber, htext, ?_, ?_, ⟨line, ?_, ?_⟩, hplace⟩
  · rw [← String.toList_inj, ← hchars]
    simp only [String.toList_append, Lexeme.toList_join_text, htext, Lexeme.chars_append,
      Lexeme.chars_cons, List.append_assoc]
  · rw [Lexeme.toList_join_text, hline, hplaced.place.2.1]
  · rwa [Lexeme.toList_join_text]
  · rw [column_ofLexemes hplaced hmeasured htoken ht, hends.columnAfter_eq]

/-- A name on a line that starts inside the second of two comments over several lines. -/
theorem column_after_comments : ∃ lexemes t,
    Lexeme.scan "/*\n*/ /*\r\n\tx*/\ty" = .ok lexemes ∧ (ofLexemes lexemes).token 4 = .ok t ∧
    t.column = 8 ∧ t.place = 1 ∧
    ∃ before l after, lexemes = before ++ l :: after ∧
      (ofLexemes lexemes).ofLexeme? before.length = some 4 ∧ t.text = l.text ∧
      "/*\n*/ /*\r\n\tx*/\ty" =
        String.join (before.map Lexeme.text) ++ t.text ++ String.join (after.map Lexeme.text) ∧
      (ofLexemes lexemes).StandsAfter (String.join (before.map Lexeme.text)) 4 t := by
  have h : Lexeme.scan "/*\n*/ /*\r\n\tx*/\ty" = .ok [⟨.blockComment, "/*\n*/", 0, 1⟩,
      ⟨.whitespace, " ", 5, 2⟩, ⟨.blockComment, "/*\r\n\tx*/", 6, 2⟩, ⟨.whitespace, "\t", 14, 3⟩,
      ⟨.identifier, "y", 15, 3⟩] := by
    decide +kernel
  have ht : (ofLexemes [⟨.blockComment, "/*\n*/", 0, 1⟩, ⟨.whitespace, " ", 5, 2⟩,
      ⟨.blockComment, "/*\r\n\tx*/", 6, 2⟩, ⟨.whitespace, "\t", 14, 3⟩,
      ⟨.identifier, "y", 15, 3⟩]).token 4 = .ok ⟨.identifier, "y", 3, 8, 1, 1, 4⟩ := by
    decide +kernel
  exact ⟨_, _, h, ht, rfl, rfl, columns_are_visual h ht⟩

end LineTable

end JavaLint
