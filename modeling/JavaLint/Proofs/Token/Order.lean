import JavaLint.Proofs.Token.Code
import JavaLint.Proofs.Token.Neighbours
import Mathlib.Tactic.Common

/-!
# The order of the tokens of a source text

The table of a source text holds its tokens in one row and line by line, and it leads from lexemes to
tokens.  `IsFaithful` says that all of this tells of the same tokens in the same order: the lexemes that
are no line breaks have the tokens one by one, the ranges of the lines divide the tokens according to
their lines, and going from a token to its neighbours is counting.  The main result is
`table_is_faithful`.

The range of a line is described by `rowStart`, the number of tokens before its row: a line reaches from
there to the start of the next row (`lines_eq`), and so do the tokens that stand on it (`line_eq_iff`).
-/

namespace JavaLint

namespace LineTable

/-- The table tells of the lexemes that are no line breaks, in their order. -/
structure IsFaithful (table : LineTable) (ls : List Lexeme) : Prop where
  /-- There are as many tokens as lexemes that are no line breaks. -/
  count : table.count = ls.countP fun l => l.kind ≠ .newline
  /-- The lexemes that are no line breaks have tokens, and the others have none. -/
  hasToken : ∀ n, (∃ number, table.ofLexeme? n = some number) ↔
    ∃ l, ls[n]? = some l ∧ l.kind ≠ .newline
  /-- The token of a lexeme has its kind, its text and its line. -/
  lexeme : ∀ n l number, ls[n]? = some l → table.ofLexeme? n = some number →
    ∃ t, table.token number = .ok t ∧ t.kind = l.kind ∧ t.text = l.text ∧ t.line = l.line
  /-- Later lexemes have later tokens. -/
  ordered : ∀ m n number number', m < n → table.ofLexeme? m = some number →
    table.ofLexeme? n = some number' → number < number'
  /-- The tokens of the lexemes are all tokens. -/
  onto : ∀ number, (∃ n, table.ofLexeme? n = some number) ↔ number < table.count
  /-- There is a token for each number below the count, and it knows its number and its place. -/
  placed : ∀ number, number < table.count → ∃ t, table.token number = .ok t ∧ t.number = number ∧
    table.atPlace? t.line t.place = some t
  /-- The first line starts with the first token, and the last line ends with the last token. -/
  covered : table.lines.head?.map Line.start = some 0 ∧
    table.lines.getLast?.map Line.stop = some table.count
  /-- A line ends where the next one starts. -/
  consecutive : ∀ n line line', table.lines[n]? = some line → table.lines[n + 1]? = some line' →
    line.stop = line'.start ∧ line.number + 1 = line'.number
  /-- A line does not end before it starts. -/
  ranges : ∀ line ∈ table.lines, line.start ≤ line.stop
  /-- A line has the tokens that stand on it, and no others. -/
  divided : ∀ line ∈ table.lines, ∀ number t, table.token number = .ok t →
    (line.start ≤ number ∧ number < line.stop ↔ t.line = line.number)
  /-- The token before a token has the number before, and only the first token has none. -/
  prev : ∀ number t, table.token number = .ok t →
    (number = 0 → table.prev? t = none) ∧
      (0 < number → ∃ p, table.token (number - 1) = .ok p ∧ table.prev? t = some p)
  /-- The token after a token has the number after, and only the last token has none. -/
  next : ∀ number t, table.token number = .ok t →
    (number + 1 = table.count → table.next? t = none) ∧
      (number + 1 < table.count → ∃ p, table.token (number + 1) = .ok p ∧ table.next? t = some p)

/-! ## Lexemes and tokens -/

variable {offset n number : Nat} {ls : List Lexeme}

/-- Of the members of a list that pass a test, there is one with so many of them before it. -/
lemma exists_split_countP {α : Type} {p : α → Bool} {as : List α} {k : Nat} (hk : k < as.countP p) :
    ∃ before a after, as = before ++ a :: after ∧ p a = true ∧ before.countP p = k := by
  induction as generalizing k with
  | nil => simp at hk
  | cons a as ih =>
    cases ha : p a with
    | false =>
      rw [List.countP_cons_of_neg (by simp [ha])] at hk
      obtain ⟨before, b, after, rfl, hb, rfl⟩ := ih hk
      exact ⟨a :: before, b, after, rfl, hb, by simp [ha]⟩
    | true =>
      rw [List.countP_cons_of_pos ha] at hk
      cases k with
      | zero => exact ⟨[], a, as, rfl, ha, rfl⟩
      | succ k =>
        obtain ⟨before, b, after, rfl, hb, rfl⟩ := ih (Nat.lt_of_succ_lt_succ hk)
        exact ⟨a :: before, b, after, rfl, hb, by simp [ha]⟩

/-- A list can be split in one way only at the member that comes after so many others that are counted. -/
lemma split_countP_unique {α : Type} {p : α → Bool} {before before' after after' : List α} {a a' : α}
    (ha : p a = true) (ha' : p a' = true) (h : before ++ a :: after = before' ++ a' :: after')
    (hcount : before.countP p = before'.countP p) : before = before' ∧ a = a' ∧ after = after' := by
  induction before generalizing before' with
  | nil =>
    cases before' with
    | nil => simpa using h
    | cons b before' =>
      obtain ⟨rfl, -⟩ := List.cons.inj h
      simp [ha] at hcount
  | cons b before ih =>
    cases before' with
    | nil =>
      obtain ⟨rfl, -⟩ := List.cons.inj h
      simp [ha'] at hcount
    | cons b' before' =>
      obtain ⟨rfl, hrest⟩ := List.cons.inj h
      rw [List.countP_cons, List.countP_cons, Nat.add_right_cancel_iff] at hcount
      obtain ⟨rfl, hsame⟩ := ih hrest hcount
      exact ⟨rfl, hsame⟩

/-- All tokens are tokens of lexemes. -/
lemma exists_ofLexeme?_eq_some_iff :
    (∃ n, (ofLexemes ls).ofLexeme? n = some number) ↔ number < (ofLexemes ls).count := by
  constructor
  · rintro ⟨n, hn⟩
    exact ofLexeme?_lt hn
  · intro hlt
    rw [count_ofLexemes] at hlt
    obtain ⟨before, l, after, rfl, htoken, rfl⟩ := exists_split_countP hlt
    exact ⟨before.length, by rw [ofLexeme?_ofLexemes, if_pos htoken]⟩

/-- The token of a lexeme tells of it. -/
lemma token_of_ofLexeme? {l : Lexeme} (hl : ls[n]? = some l)
    (hnumber : (ofLexemes ls).ofLexeme? n = some number) :
    ∃ t, (ofLexemes ls).tokens[number]? = some t ∧ t.kind = l.kind ∧ t.text = l.text ∧
      t.line = l.line := by
  obtain ⟨⟨l', hl', htoken⟩, rfl⟩ := ofLexeme?_eq_some_iff.1 hnumber
  obtain rfl : l' = l := Option.some.inj (hl'.symm.trans hl)
  obtain ⟨hn, hget⟩ := List.getElem?_eq_some_iff.1 hl
  have hsplit : ls = ls.take n ++ l' :: ls.drop (n + 1) := by
    rw [← hget, List.getElem_cons_drop, List.take_append_drop]
  obtain ⟨t, ht, hkind, htext, -⟩ := token_ofLexemes (ls.take n) (ls.drop (n + 1)) htoken
  have hline := line_ofLexemes (ls.take n) (ls.drop (n + 1)) htoken
  rw [ht, Option.map_some, Option.some.injEq] at hline
  rw [← hsplit] at ht
  exact ⟨t, ht, hkind, htext, hline⟩

/-- The token of a lexeme is code if the lexeme is. -/
lemma isCode_of_ofLexeme? {l : Lexeme} {t : Token} (hl : ls[n]? = some l)
    (hnumber : (ofLexemes ls).ofLexeme? n = some number)
    (ht : (ofLexemes ls).tokens[number]? = some t) : t.isCode = !l.isTrivia := by
  obtain ⟨⟨l', hl', htoken⟩, -⟩ := ofLexeme?_eq_some_iff.1 hnumber
  obtain rfl : l' = l := Option.some.inj (hl'.symm.trans hl)
  obtain ⟨t', ht', hkind, -, -⟩ := token_of_ofLexeme? hl hnumber
  obtain rfl : t' = t := Option.some.inj (ht'.symm.trans ht)
  exact Token.isCode_eq hkind htoken

/-- Tokens come in the order of their lexemes. -/
lemma ofLexeme?_lt_iff {m other : Nat} (hm : (ofLexemes ls).ofLexeme? m = some number)
    (hn : (ofLexemes ls).ofLexeme? n = some other) : number < other ↔ m < n := by
  obtain ⟨⟨l, hl, htoken⟩, rfl⟩ := ofLexeme?_eq_some_iff.1 hm
  obtain ⟨⟨l', hl', htoken'⟩, rfl⟩ := ofLexeme?_eq_some_iff.1 hn
  refine ⟨fun hlt => ?_, countP_take_lt hl htoken⟩
  by_contra hle
  rcases Nat.lt_or_eq_of_le (Nat.not_lt.1 hle) with hlt' | rfl
  · exact absurd (countP_take_lt hl' htoken' hlt') (Nat.lt_asymm hlt)
  · exact absurd hlt (Nat.lt_irrefl _)

/-- The next code token after the token of a lexeme is that of the next lexeme that is code. -/
lemma nextCode?_ofLexemes {m other : Nat} {l : Lexeme}
    (hm : (ofLexemes ls).ofLexeme? m = some number) (hn : (ofLexemes ls).ofLexeme? n = some other)
    (hlt : m < n) (hl : ls[n]? = some l) (hcode : l.isTrivia = false)
    (hbetween : ∀ i l, m < i → i < n → ls[i]? = some l → l.isTrivia = true) :
    ((ofLexemes ls).nextCode? number).map Token.number = some other := by
  have hnumber := (ofLexeme?_lt_iff hm hn).2 hlt
  obtain ⟨t, ht, -⟩ := token_of_ofLexeme? hl hn
  -- The tokens in between are those of the lexemes in between.
  have hskip (i : Nat) (hi : number < i) (hi' : i < other) (t' : Token)
      (ht' : (ofLexemes ls).tokens[i]? = some t') : t'.isCode = false := by
    have hcount : i < (ofLexemes ls).count := (Array.getElem?_eq_some_iff.1 ht').1
    obtain ⟨k, hk⟩ := exists_ofLexeme?_eq_some_iff.2 hcount
    obtain ⟨⟨l', hl', -⟩, -⟩ := ofLexeme?_eq_some_iff.1 hk
    have htrivia := hbetween k l' ((ofLexeme?_lt_iff hm hk).1 hi) ((ofLexeme?_lt_iff hk hn).1 hi') hl'
    rw [isCode_of_ofLexeme? hl' hk ht', htrivia, Bool.not_true]
  have hfind : (ofLexemes ls).nextCode? number = some t := by
    have hget (j : Nat) : ((ofLexemes ls).tokens.toList.drop (number + 1))[j]? =
        (ofLexemes ls).tokens[number + 1 + j]? := by
      rw [List.getElem?_drop, Array.getElem?_toList]
    obtain ⟨j, rfl⟩ := Nat.exists_eq_add_of_lt hnumber
    rw [Nat.add_right_comm, ← hget] at ht
    obtain ⟨hj, rfl⟩ := List.getElem?_eq_some_iff.1 ht
    refine List.find?_eq_some_iff_getElem.2 ⟨?_, j, hj, rfl, fun i hi => ?_⟩
    · rw [hget, Nat.add_right_comm] at ht
      rw [isCode_of_ofLexeme? hl hn ht, hcode, Bool.not_false]
    · have hi' := List.getElem?_eq_getElem (Nat.lt_trans hi hj)
      rw [hget] at hi'
      rw [hskip _ (by omega) (by omega) _ hi', Bool.not_false]
  rw [hfind, Option.map_some, number_ofLexemes ht]

/-! ## The ranges of lines -/

/-- A line has the tokens of its row, after those of the rows before. -/
lemma getElem?_linesFrom (number start : Nat) (rows : List (Array Token)) (n : Nat) :
    (linesFrom number start rows)[n]? = rows[n]?.map fun row =>
      ⟨number + n, start + ((rows.take n).flatMap Array.toList).length,
        start + ((rows.take n).flatMap Array.toList).length + row.size⟩ := by
  induction rows generalizing number start n with
  | nil => simp [linesFrom]
  | cons row rows ih =>
    cases n with
    | zero => simp [linesFrom]
    | succ n =>
      simp only [linesFrom, List.getElem?_cons_succ, ih, List.take_succ_cons, List.flatMap_cons,
        List.length_append, Array.length_toList]
      congr 1
      funext row'
      congr 1 <;> omega

/-- A line reaches from the start of its row to the start of the next one. -/
lemma lines_eq (t : LineTable) :
    t.lines = (List.range t.rows.size).map fun n => ⟨n + 1, t.rowStart n, t.rowStart (n + 1)⟩ := by
  apply List.ext_getElem?
  intro n
  rw [lines, getElem?_linesFrom, Array.getElem?_toList, List.getElem?_map]
  cases hrow : t.rows[n]? with
  | none =>
    rw [List.getElem?_eq_none (by simpa using hrow)]
    rfl
  | some row =>
    have hn := (Array.getElem?_eq_some_iff.1 hrow).1
    rw [List.getElem?_range hn, Option.map_some, Option.map_some, rowStart_succ hrow, Nat.add_comm 1,
      Nat.zero_add]
    rfl

/-- The line at a place has the number after it. -/
lemma eq_of_getElem?_lines {t : LineTable} {line : Line} (h : t.lines[n]? = some line) :
    line = ⟨n + 1, t.rowStart n, t.rowStart (n + 1)⟩ := by
  rw [lines_eq, List.getElem?_map, Option.map_eq_some_iff] at h
  obtain ⟨m, hm, rfl⟩ := h
  obtain ⟨-, rfl⟩ := List.getElem?_eq_some_iff.1 hm
  rw [List.getElem_range]

/-- The rows of a file end with its last token. -/
lemma rowStart_size (ls : List Lexeme) :
    (ofLexemes ls).rowStart (ofLexemes ls).rows.size = (ofLexemes ls).count := by
  rw [rowStart, ← Array.length_toList, List.take_length, rows_ofLexemes, Array.length_toList, count]

/-- The table of a file has at least one row. -/
lemma rows_size_pos (ls : List Lexeme) : 0 < (ofLexemes ls).rows.size := by
  simp [ofLexemes, Filling.finish, Filling.breakLine]

/-- In the table of a source text, the tokens of a line are those from the start of its row to the start
of the next one. -/
lemma line_eq_iff (hls : Lexeme.IsPlaced offset 1 ls) {t : Token}
    (ht : (ofLexemes ls).tokens[number]? = some t) (n : Nat) :
    t.line = n + 1 ↔ (ofLexemes ls).rowStart n ≤ number ∧ number < (ofLexemes ls).rowStart (n + 1) := by
  obtain ⟨slot, row, hslot, hrow, hplace, hnumber⟩ := row_ofLexemes hls ht
  have hlt := (Array.getElem?_eq_some_iff.1 hplace).1
  have hend := rowStart_succ hrow
  rw [hslot]
  constructor
  · intro heq
    obtain rfl : slot = n := by omega
    omega
  · rintro ⟨hfirst, hlast⟩
    rcases Nat.lt_trichotomy slot n with hlow | rfl | hhigh
    · have hle : (ofLexemes ls).rowStart (slot + 1) ≤ (ofLexemes ls).rowStart n := rowStart_mono _ hlow
      omega
    · rfl
    · have hle : (ofLexemes ls).rowStart (n + 1) ≤ (ofLexemes ls).rowStart slot := rowStart_mono _ hhigh
      omega

/-- The ranges of the lines of a file start with its first token and end with its last one. -/
lemma lines_covered (ls : List Lexeme) :
    (ofLexemes ls).lines.head?.map Line.start = some 0 ∧
      (ofLexemes ls).lines.getLast?.map Line.stop = some (ofLexemes ls).count := by
  obtain ⟨last, hlast⟩ := Nat.exists_eq_succ_of_ne_zero (rows_size_pos ls).ne'
  rw [lines_eq, ← rowStart_size, hlast]
  simp [List.getLast?_range, List.head?_range]

/-! ## The table of a source text -/

/-- There is a token for each number below the count. -/
lemma exists_token {t : LineTable} (h : n < t.count) : ∃ token, t.tokens[n]? = some token :=
  ⟨_, Array.getElem?_eq_getElem h⟩

/-- The table of a source text tells of its lexemes that are no line breaks, in their order. -/
theorem table_is_faithful {source : String} {lexemes : List Lexeme}
    (h : Lexeme.scan source = .ok lexemes) : (ofLexemes lexemes).IsFaithful lexemes := by
  obtain ⟨-, hplaced⟩ := Lexeme.scan_eq_ok h
  have htoken : ∀ l ∈ lexemes, l.hasToken = true ↔ l.kind ≠ .newline :=
    fun l hl => Lexeme.hasToken_iff (hplaced.text_ne_empty l hl)
  constructor
  case count =>
    rw [count_ofLexemes]
    exact List.countP_congr fun l hl => by simpa using htoken l hl
  case hasToken =>
    intro n
    simp only [ofLexeme?_eq_some_iff, exists_and_left, exists_eq', and_true]
    exact exists_congr fun l => and_congr_right fun hl => htoken l (List.mem_of_getElem? hl)
  case lexeme =>
    intro n l number hl hnumber
    obtain ⟨t, ht, htells⟩ := token_of_ofLexeme? hl hnumber
    exact ⟨t, token_eq_ok_iff.2 ht, htells⟩
  case ordered =>
    intro m n number number' hlt hm hn
    obtain ⟨⟨l, hl, hltoken⟩, rfl⟩ := ofLexeme?_eq_some_iff.1 hm
    obtain ⟨-, rfl⟩ := ofLexeme?_eq_some_iff.1 hn
    exact countP_take_lt hl hltoken hlt
  case onto => exact fun number => exists_ofLexeme?_eq_some_iff
  case placed =>
    intro number hlt
    obtain ⟨t, ht⟩ := exists_token hlt
    obtain ⟨slot, row, hline, hrow, hplace, -⟩ := row_ofLexemes hplaced ht
    refine ⟨t, token_eq_ok_iff.2 ht, number_ofLexemes ht, ?_⟩
    rw [atPlace?, hline, lineTokens, hrow, Option.getD_some, hplace]
  case covered => exact lines_covered lexemes
  case consecutive =>
    intro n line line' hline hline'
    rw [eq_of_getElem?_lines hline, eq_of_getElem?_lines hline']
    exact ⟨rfl, rfl⟩
  case ranges =>
    intro line hline
    obtain ⟨n, hn⟩ := List.getElem?_of_mem hline
    rw [eq_of_getElem?_lines hn]
    exact rowStart_mono _ n.le_succ
  case divided =>
    intro line hline number t ht
    obtain ⟨n, hn⟩ := List.getElem?_of_mem hline
    rw [eq_of_getElem?_lines hn]
    exact (line_eq_iff hplaced (token_eq_ok_iff.1 ht) n).symm
  case prev =>
    intro number t ht
    have hlt := (Array.getElem?_eq_some_iff.1 (token_eq_ok_iff.1 ht)).1
    rw [prev?_ofLexemes hplaced (token_eq_ok_iff.1 ht)]
    refine ⟨fun hzero => if_pos hzero, fun hpos => ?_⟩
    obtain ⟨p, hp⟩ := exists_token (Nat.lt_of_le_of_lt (Nat.sub_le number 1) hlt)
    exact ⟨p, token_eq_ok_iff.2 hp, by rw [if_neg hpos.ne', hp]⟩
  case next =>
    intro number t ht
    rw [next?_ofLexemes hplaced (token_eq_ok_iff.1 ht)]
    refine ⟨fun hlast => Array.getElem?_eq_none hlast.ge, fun hlt => ?_⟩
    obtain ⟨p, hp⟩ := exists_token hlt
    exact ⟨p, token_eq_ok_iff.2 hp, hp⟩

/-- The table of a text with an empty line and a comment over two lines. -/
theorem table_of_scattered_names :
    Lexeme.scan "a\n\n/*\n*/b" = .ok [⟨.identifier, "a", 0, 1⟩, ⟨.newline, "\n", 1, 1⟩,
        ⟨.newline, "\n", 2, 2⟩, ⟨.blockComment, "/*\n*/", 3, 3⟩, ⟨.identifier, "b", 8, 4⟩] ∧
      (ofLexemes [⟨.identifier, "a", 0, 1⟩, ⟨.newline, "\n", 1, 1⟩, ⟨.newline, "\n", 2, 2⟩,
        ⟨.blockComment, "/*\n*/", 3, 3⟩, ⟨.identifier, "b", 8, 4⟩]).IsFaithful
        [⟨.identifier, "a", 0, 1⟩, ⟨.newline, "\n", 1, 1⟩, ⟨.newline, "\n", 2, 2⟩,
          ⟨.blockComment, "/*\n*/", 3, 3⟩, ⟨.identifier, "b", 8, 4⟩] := by
  have h : Lexeme.scan "a\n\n/*\n*/b" = .ok [⟨.identifier, "a", 0, 1⟩, ⟨.newline, "\n", 1, 1⟩,
      ⟨.newline, "\n", 2, 2⟩, ⟨.blockComment, "/*\n*/", 3, 3⟩, ⟨.identifier, "b", 8, 4⟩] := by
    decide +kernel
  exact ⟨h, table_is_faithful h⟩

end LineTable

end JavaLint
