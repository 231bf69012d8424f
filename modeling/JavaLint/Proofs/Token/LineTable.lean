import JavaLint.Token.LineTable
import Mathlib.Tactic.Common

/-!
# What a line table knows of its lexemes

A line table is filled by one pass over the lexemes.  `Filling.Holds` says what is true of it when
some of them have been taken in: the tokens are the lexemes that have a channel and characters,
numbered from zero on, each lexeme is led to its token, and the rows divide the tokens among them.
Every step keeps this (`Filling.Holds.add`), so it is true of the table of a file.

At the end the facts are stated for `LineTable.ofLexemes`; the walk over a tree and the judging of
a file need nothing else about the table.
-/

namespace JavaLint

/-- The lexeme makes a token: it has a channel and is not empty. -/
def Lexeme.hasToken (l : Lexeme) : Bool :=
  l.channel.isSome && !l.text.isEmpty

/-- Code that is not empty makes a token. -/
lemma Lexeme.hasToken_of_code {l : Lexeme} (hcode : l.isTrivia = false) (htext : l.text ≠ "") :
    l.hasToken = true := by
  have hchannel : l.channel = some .code := by simpa [isTrivia, Kind.isTrivia, channel] using hcode
  simp [hasToken, hchannel, htext]

/-- A lexeme that is not empty and no line break makes a token. -/
lemma Lexeme.hasToken_eq_false {l : Lexeme} (h : l.hasToken = false) :
    l.kind = .newline ∨ l.text = "" := by
  rcases Bool.and_eq_false_iff.1 h with hchannel | htext
  · left
    cases hkind : l.kind <;> simp_all [Lexeme.channel, Kind.channel]
  · right
    simpa using htext

/-- A lexeme with characters has a token, unless it is a line break. -/
lemma Lexeme.hasToken_iff {l : Lexeme} (htext : l.text ≠ "") :
    l.hasToken = true ↔ l.kind ≠ .newline := by
  cases hkind : l.kind <;> simp [hasToken, channel, hkind, Kind.channel, htext]

namespace LineTable

namespace Filling

/-! ## Filling the table -/

/-- What a table that is being filled knows of the lexemes that it has taken in. -/
structure Holds (f : Filling) (ls : List Lexeme) : Prop where
  /-- The tokens are the lexemes that make tokens. -/
  tokens : f.table.tokens.toList.map (fun t => (t.kind, t.text)) =
    (ls.filter Lexeme.hasToken).map fun l => (l.kind, l.text)
  /-- The tokens stand on the lines of their lexemes. -/
  tokenLines : f.table.tokens.toList.map Token.line = (ls.filter Lexeme.hasToken).map Lexeme.line
  /-- The number of a token is its place among all tokens. -/
  numbers : ∀ (n : Nat) (t : Token), f.table.tokens[n]? = some t → t.number = n
  /-- There is an entry for each lexeme. -/
  entries : f.table.byLexeme.size = ls.length
  /-- The entry of a lexeme is the number of tokens before it, if it makes a token. -/
  entry : ∀ n l, ls[n]? = some l → f.table.byLexeme[n]? =
    some (if l.hasToken then some ((ls.take n).countP Lexeme.hasToken) else none)
  /-- The tokens are divided among the finished rows and the row at hand. -/
  rows : (f.table.rows.push f.row).toList.flatMap Array.toList = f.table.tokens.toList
  /-- A token stands at its place in some row. -/
  place : ∀ (n : Nat) (t : Token), f.table.tokens[n]? = some t →
    ∃ (slot : Nat) (row : Array Token), (f.table.rows.push f.row)[slot]? = some row ∧
      row[t.place]? = some t

/-- There are as many tokens as lexemes that make tokens. -/
lemma Holds.size_tokens {f : Filling} {ls : List Lexeme} (h : f.Holds ls) :
    f.table.tokens.size = ls.countP Lexeme.hasToken := by
  have hlength := congrArg List.length h.tokens
  simpa [List.countP_eq_length_filter] using hlength

/-- The empty table knows everything of no lexemes. -/
lemma Holds.nil : Holds {} [] where
  tokens := rfl
  tokenLines := rfl
  numbers := by simp
  entries := rfl
  entry := by simp
  rows := rfl
  place := by simp

/-- Finishing a line changes nothing. -/
lemma Holds.breakLine {f : Filling} {ls : List Lexeme} (h : f.Holds ls) : f.breakLine.Holds ls where
  tokens := h.tokens
  tokenLines := h.tokenLines
  numbers := h.numbers
  entries := h.entries
  entry := h.entry
  rows := by simpa [Filling.breakLine] using h.rows
  place := by
    intro n t ht
    obtain ⟨slot, row, hslot, hplace⟩ := h.place n t ht
    refine ⟨slot, row, ?_, hplace⟩
    have hlt := (Array.getElem?_eq_some_iff.1 hslot).1
    simp only [Filling.breakLine]
    rw [Array.getElem?_push, if_neg (by omega), hslot]

/-- Finishing any number of lines changes nothing. -/
lemma Holds.breakLines {f : Filling} {ls : List Lexeme} (h : f.Holds ls) (n : Nat) :
    (f.breakLines n).Holds ls := by
  induction n generalizing f with
  | zero => exact h
  | succ n ih => exact ih h.breakLine

/-- A new entry after those of the lexemes so far: the old entries stay, and the new one is that of
the new lexeme. -/
lemma entry_push {entries : Array (Option Nat)} {ls : List Lexeme} (hsize : entries.size = ls.length)
    (hentry : ∀ n l, ls[n]? = some l → entries[n]? =
      some (if l.hasToken then some ((ls.take n).countP Lexeme.hasToken) else none))
    (new : Lexeme) (n : Nat) (l : Lexeme) (hl : (ls ++ [new])[n]? = some l) :
    (entries.push
      (if new.hasToken then some (ls.countP Lexeme.hasToken) else none))[n]? =
      some (if l.hasToken then some (((ls ++ [new]).take n).countP Lexeme.hasToken) else none) := by
  rcases Nat.lt_trichotomy n ls.length with hlt | heq | hgt
  · rw [List.getElem?_append_left hlt] at hl
    rw [Array.getElem?_push, if_neg (by omega), hentry n l hl,
      List.take_append_of_le_length (Nat.le_of_lt hlt)]
  · subst heq
    obtain rfl : new = l := by simpa using hl
    rw [← hsize, Array.getElem?_push_size, hsize, List.take_left]
  · rw [List.getElem?_eq_none (by simp; omega)] at hl
    simp at hl

/-- Passing over a lexeme that makes no token. -/
lemma Holds.skip {f : Filling} {ls : List Lexeme} (h : f.Holds ls) {l : Lexeme}
    (hl : l.hasToken = false) : f.skip.Holds (ls ++ [l]) where
  tokens := by simpa [Filling.skip, hl] using h.tokens
  tokenLines := by simpa [Filling.skip, hl] using h.tokenLines
  numbers := h.numbers
  entries := by simp [Filling.skip, h.entries]
  entry := by
    intro n m hm
    have hpush := entry_push h.entries h.entry l n m hm
    rwa [hl] at hpush
  rows := h.rows
  place := h.place

/-- Putting the token of a lexeme at the next place. -/
lemma Holds.put {f : Filling} {ls : List Lexeme} (h : f.Holds ls) {l : Lexeme}
    (hl : l.hasToken = true) (channel : Channel) : (f.put l channel).Holds (ls ++ [l]) where
  tokens := by simp [Filling.put, Filling.place, hl, h.tokens]
  tokenLines := by simp [Filling.put, Filling.place, hl, h.tokenLines]
  numbers := by
    intro n t ht
    simp only [Filling.put, Array.getElem?_push] at ht
    split at ht
    · rename_i hn
      obtain rfl : f.place l channel = t := by simpa using ht
      exact hn.symm
    · exact h.numbers n t ht
  entries := by simp [Filling.put, h.entries]
  entry := by
    intro n m hm
    have hpush := entry_push h.entries h.entry l n m hm
    rwa [hl, if_pos rfl, ← h.size_tokens] at hpush
  rows := by
    have hrows := h.rows
    simp only [Filling.put, Array.toList_push, List.flatMap_append, List.flatMap_singleton] at hrows ⊢
    rw [← hrows, List.append_assoc]
  place := by
    intro n t ht
    simp only [Filling.put, Array.getElem?_push] at ht ⊢
    split at ht
    · -- The new token comes last in the row at hand.
      obtain rfl : f.place l channel = t := by simpa using ht
      exact ⟨f.table.rows.size, f.row.push (f.place l channel), by simp, by simp [Filling.place]⟩
    · obtain ⟨slot, row, hslot, hplace⟩ := h.place n t ht
      rw [Array.getElem?_push] at hslot
      split at hslot
      · obtain rfl : f.row = row := by simpa using hslot
        refine ⟨slot, f.row.push (f.place l channel), by simp_all, ?_⟩
        have hlt := (Array.getElem?_eq_some_iff.1 hplace).1
        rw [Array.getElem?_push, if_neg (by omega), hplace]
      · rename_i hne
        exact ⟨slot, row, by simp [hne, hslot], hplace⟩

/-- Taking in the next lexeme. -/
lemma Holds.add {f : Filling} {ls : List Lexeme} (h : f.Holds ls) (l : Lexeme) :
    (f.add l).Holds (ls ++ [l]) := by
  unfold Filling.add
  split
  · rename_i hchannel
    exact h.skip (by simp [Lexeme.hasToken, hchannel])
  · rename_i channel hchannel
    split
    · rename_i htext
      exact h.skip (by simp [Lexeme.hasToken, htext])
    · rename_i htext
      exact (h.breakLines _).put (by simp [Lexeme.hasToken, hchannel, htext]) channel

/-- Taking in one lexeme after the other. -/
lemma Holds.foldl_add {f : Filling} {done : List Lexeme} (h : f.Holds done) (ls : List Lexeme) :
    (ls.foldl Filling.add f).Holds (done ++ ls) := by
  induction ls generalizing f done with
  | nil => simpa using h
  | cons l ls ih =>
    have hrest := ih (h.add l)
    rwa [List.append_assoc] at hrest

end Filling

/-! ## The table of a file -/

/-- The table of a file knows everything of its lexemes. -/
lemma ofLexemes_holds (ls : List Lexeme) :
    ∃ f : Filling, f.Holds ls ∧ f.row = #[] ∧ f.table = ofLexemes ls := by
  have hall : (ls.foldl Filling.add {}).Holds ls := by
    simpa using Filling.Holds.nil.foldl_add ls
  exact ⟨_, hall.breakLine, rfl, rfl⟩

/-- The tokens of a file are its lexemes that make tokens. -/
lemma map_tokens_ofLexemes (ls : List Lexeme) :
    (ofLexemes ls).tokens.toList.map (fun t => (t.kind, t.text)) =
      (ls.filter Lexeme.hasToken).map fun l => (l.kind, l.text) := by
  obtain ⟨f, hf, -, htable⟩ := ofLexemes_holds ls
  rw [← htable]
  exact hf.tokens

/-- A file has as many tokens as lexemes that make tokens. -/
lemma count_ofLexemes (ls : List Lexeme) :
    (ofLexemes ls).count = ls.countP Lexeme.hasToken := by
  obtain ⟨f, hf, -, htable⟩ := ofLexemes_holds ls
  rw [← htable]
  exact hf.size_tokens

/-- Every token knows its number. -/
lemma number_ofLexemes {ls : List Lexeme} {n : Nat} {t : Token}
    (ht : (ofLexemes ls).tokens[n]? = some t) : t.number = n := by
  obtain ⟨f, hf, -, htable⟩ := ofLexemes_holds ls
  rw [← htable] at ht
  exact hf.numbers n t ht

/-- A lexeme between others is led to its token, whose number is the number of tokens before it. -/
lemma ofLexeme?_ofLexemes (before : List Lexeme) (l : Lexeme) (after : List Lexeme) :
    (ofLexemes (before ++ l :: after)).ofLexeme? before.length =
      if l.hasToken then some (before.countP Lexeme.hasToken) else none := by
  obtain ⟨f, hf, -, htable⟩ := ofLexemes_holds (before ++ l :: after)
  have hentry := hf.entry before.length l (by simp)
  rw [List.take_left] at hentry
  rw [← htable, ofLexeme?, hentry, Option.getD_some]

/-- The lexemes that make tokens are led to the number of tokens before them, and the others nowhere. -/
lemma ofLexeme?_eq_some_iff {ls : List Lexeme} {n number : Nat} :
    (ofLexemes ls).ofLexeme? n = some number ↔
      (∃ l, ls[n]? = some l ∧ l.hasToken = true) ∧ (ls.take n).countP Lexeme.hasToken = number := by
  obtain ⟨f, hf, -, htable⟩ := ofLexemes_holds ls
  rw [← htable, ofLexeme?]
  cases hl : ls[n]? with
  | none =>
    have hle : f.table.byLexeme.size ≤ n := by
      rw [hf.entries]
      exact List.getElem?_eq_none_iff.1 hl
    simp [Array.getElem?_eq_none hle]
  | some l =>
    rw [hf.entry n l hl, Option.getD_some]
    cases htoken : l.hasToken <;> simp [htoken]

/-- One more token comes before the lexemes after a lexeme that makes a token. -/
lemma countP_take_lt {ls : List Lexeme} {m n : Nat} {l : Lexeme} (hl : ls[m]? = some l)
    (htoken : l.hasToken = true) (hlt : m < n) :
    (ls.take m).countP Lexeme.hasToken < (ls.take n).countP Lexeme.hasToken := by
  have hnext : (ls.take (m + 1)).countP Lexeme.hasToken = (ls.take m).countP Lexeme.hasToken + 1 := by
    simp [List.take_add_one, hl, htoken]
  have hle : (ls.take (m + 1)).countP Lexeme.hasToken ≤ (ls.take n).countP Lexeme.hasToken :=
    (List.take_sublist_take_left hlt).countP_le
  omega

/-- Lexemes are led to tokens that exist. -/
lemma ofLexeme?_lt {ls : List Lexeme} {n number : Nat}
    (h : (ofLexemes ls).ofLexeme? n = some number) : number < (ofLexemes ls).count := by
  obtain ⟨⟨l, hl, htoken⟩, rfl⟩ := ofLexeme?_eq_some_iff.1 h
  obtain ⟨hn, -⟩ := List.getElem?_eq_some_iff.1 hl
  have hlt := countP_take_lt hl htoken hn
  rw [List.take_length] at hlt
  rwa [count_ofLexemes]

/-- The token of a lexeme has its kind and its text. -/
lemma token_ofLexemes (before after : List Lexeme) {l : Lexeme}
    (hl : l.hasToken = true) :
    ∃ t, (ofLexemes (before ++ l :: after)).tokens[before.countP Lexeme.hasToken]? = some t ∧
      t.kind = l.kind ∧ t.text = l.text ∧ t.number = before.countP Lexeme.hasToken := by
  have hmap := congrArg (·[before.countP Lexeme.hasToken]?)
    (map_tokens_ofLexemes (before ++ l :: after))
  have hright : ((before ++ l :: after).filter Lexeme.hasToken)[before.countP Lexeme.hasToken]? =
      some l := by
    simp [List.countP_eq_length_filter, hl]
  simp only [List.getElem?_map, hright, Array.getElem?_toList, Option.map_some,
    Option.map_eq_some_iff] at hmap
  obtain ⟨t, ht, hpair⟩ := hmap
  obtain ⟨hkind, htext⟩ := Prod.mk.injEq .. ▸ hpair
  exact ⟨t, ht, hkind, htext, number_ofLexemes ht⟩

/-- The token of a lexeme stands on the line of the lexeme. -/
lemma line_ofLexemes (before after : List Lexeme) {l : Lexeme} (hl : l.hasToken = true) :
    (ofLexemes (before ++ l :: after)).tokens[before.countP Lexeme.hasToken]?.map Token.line =
      some l.line := by
  obtain ⟨f, hf, -, htable⟩ := ofLexemes_holds (before ++ l :: after)
  have hmap := congrArg (·[before.countP Lexeme.hasToken]?) hf.tokenLines
  rw [← htable]
  simpa [List.countP_eq_length_filter, hl] using hmap

/-- The rows of a file have all its tokens. -/
lemma rows_ofLexemes (ls : List Lexeme) :
    (ofLexemes ls).rows.toList.flatMap Array.toList = (ofLexemes ls).tokens.toList := by
  obtain ⟨f, hf, hrow, htable⟩ := ofLexemes_holds ls
  have hrows := hf.rows
  rw [hrow, htable] at hrows
  simpa using hrows

/-- Every token stands at its place in a row of the file. -/
lemma place_ofLexemes {ls : List Lexeme} {n : Nat} {t : Token}
    (ht : (ofLexemes ls).tokens[n]? = some t) :
    ∃ (slot : Nat) (row : Array Token), (ofLexemes ls).rows[slot]? = some row ∧
      row[t.place]? = some t := by
  obtain ⟨f, hf, hrow, htable⟩ := ofLexemes_holds ls
  rw [← htable] at ht ⊢
  obtain ⟨slot, row, hslot, hplace⟩ := hf.place n t ht
  refine ⟨slot, row, ?_, hplace⟩
  rw [Array.getElem?_push] at hslot
  split at hslot
  · -- The row at hand is empty, since all lines are finished.
    obtain rfl : #[] = row := by simpa [hrow] using hslot
    simp at hplace
  · exact hslot

/-! ## Lines -/

/-- The ranges of lines do not reach beyond the tokens of their rows. -/
lemma linesFrom_stop_le (number start : Nat) (rows : List (Array Token)) :
    ∀ line ∈ linesFrom number start rows,
      line.stop ≤ start + (rows.flatMap Array.toList).length := by
  induction rows generalizing number start with
  | nil => simp [linesFrom]
  | cons row rows ih =>
    intro line hline
    rw [List.flatMap_cons, List.length_append, Array.length_toList]
    rcases List.mem_cons.1 hline with rfl | hline
    · dsimp only
      omega
    · have hstop := ih (number + 1) (start + row.size) line hline
      omega

/-- Lines are numbered one after the other. -/
lemma map_number_linesFrom (number start : Nat) (rows : List (Array Token)) :
    (linesFrom number start rows).map Line.number = List.range' number rows.length := by
  induction rows generalizing number start with
  | nil => rfl
  | cons row rows ih => simp [linesFrom, ih, List.range'_succ]

/-- The lines of a file are numbered from one on. -/
lemma map_number_lines (t : LineTable) :
    t.lines.map Line.number = List.range' 1 t.rows.size := by
  rw [lines, map_number_linesFrom, Array.length_toList]

/-- The range of a line of a file holds numbers of tokens only. -/
lemma stop_le_count {ls : List Lexeme} {line : Line} (hline : line ∈ (ofLexemes ls).lines) :
    line.stop ≤ (ofLexemes ls).count := by
  have hstop := linesFrom_stop_le _ _ _ line hline
  rwa [rows_ofLexemes, Nat.zero_add, Array.length_toList] at hstop

/-- A token is found if it stands at its number. -/
lemma token_eq_ok_iff {table : LineTable} {n : Nat} {t : Token} :
    table.token n = .ok t ↔ table.tokens[n]? = some t := by
  unfold token
  cases table.tokens[n]? <;> simp

end LineTable

end JavaLint
