import JavaLint.Lexeme.Scan
import JavaLint.Proofs.Text.Breaks
import Mathlib.Tactic.Common

/-!
# How far lexemes reach

`Lexeme.next` answers how many characters after the first one belong to the lexeme at the start of
a text.  This file shows that so many characters are there, and that the cut after them is clean:
`next_extent`.  There is one lemma for each way in which lexemes end.

* Words, numbers, operators, blanks, line comments and quoted literals stay in their line.
* Comments in stars end with a slash and text blocks with a quotation mark.
* A line break takes the `\n` after a `\r` with it.
-/

namespace JavaLint

open Text (IsCleanCut StaysInLine isBreak isBreak_eq_false_of_test isCleanCut_of_getLast?)

/-! ## Numbers -/

namespace Number

/-- Digits and underscores end no line. -/
lemma isBreak_of_digitOrUnderscore {isDigit : Char → Bool}
    (h : ∀ c, isDigit c = true → isBreak c = false) (c : Char)
    (hc : (isDigit c || c == '_') = true) : isBreak c = false := by
  rcases Bool.or_eq_true_iff.1 hc with hd | hu
  · exact h c hd
  · rw [beq_iff_eq.1 hu]
    rfl

/-- Digits and underscores stay in their line. -/
lemma digits_staysInLine {isDigit : Char → Bool}
    (h : ∀ c, isDigit c = true → isBreak c = false) (cs : List Char) :
    StaysInLine (digits isDigit cs) cs :=
  .takeWhile (isBreak_of_digitOrUnderscore h) cs

/-- One of several characters that end no line stays in its line. -/
lemma oneOf_staysInLine (choices : List Char) (h : ∀ c ∈ choices, isBreak c = false)
    (cs : List Char) : StaysInLine (oneOf choices cs) cs := by
  unfold oneOf
  split
  · exact .zero _
  · rename_i c cs
    split
    · rename_i hc
      exact (StaysInLine.zero cs).cons (h c (by simpa using hc))
    · exact .zero _

/-- Decimal digits end no line. -/
lemma isBreak_of_isDigit : ∀ c : Char, c.isDigit = true → isBreak c = false :=
  isBreak_eq_false_of_test rfl rfl

/-- Hexadecimal digits end no line. -/
lemma isBreak_of_isHexDigit : ∀ c, isHexDigit c = true → isBreak c = false :=
  isBreak_eq_false_of_test rfl rfl

/-- Binary digits end no line. -/
lemma isBreak_of_isBinaryDigit : ∀ c, isBinaryDigit c = true → isBreak c = false :=
  isBreak_eq_false_of_test rfl rfl

/-- An exponent stays in its line. -/
lemma exponent_staysInLine (markers : List Char) (h : ∀ c ∈ markers, isBreak c = false)
    (cs : List Char) : StaysInLine (exponent markers cs) cs := by
  unfold exponent
  split
  · exact .zero _
  · rename_i m cs
    have hsign : StaysInLine (oneOf ['+', '-'] cs) cs := oneOf_staysInLine _ (by simp [isBreak]) cs
    dsimp only
    split
    · exact .zero _
    · rename_i d ds hds
      split
      · rename_i hm
        have hm' : m ∈ markers := by simpa using (Bool.and_eq_true_iff.1 hm).1
        have hdigits : StaysInLine (digits Char.isDigit (d :: ds)) (cs.drop (oneOf ['+', '-'] cs)) := by
          rw [hds]
          exact digits_staysInLine isBreak_of_isDigit _
        have hall := (hsign.add hdigits).cons (h m hm')
        rwa [Nat.add_comm _ 1, ← Nat.add_assoc] at hall
      · exact .zero _

/-- A decimal fraction stays in its line. -/
lemma fraction_staysInLine (cs : List Char) : StaysInLine (fraction cs) cs := by
  unfold fraction
  split
  · rename_i c cs
    split
    · rw [Nat.add_comm]
      exact (digits_staysInLine isBreak_of_isDigit _).cons rfl
    · split
      · exact .zero _
      · exact (StaysInLine.zero _).cons rfl
  · exact (StaysInLine.zero _).cons rfl
  · exact .zero _

/-- A hexadecimal fraction stays in its line. -/
lemma hexFraction_staysInLine (cs : List Char) : StaysInLine (hexFraction cs) cs := by
  unfold hexFraction
  split
  · rw [Nat.add_comm]
    exact (digits_staysInLine isBreak_of_isHexDigit _).cons rfl
  · exact .zero _

/-- What follows `0x` stays in its line. -/
lemma scanHex_staysInLine (cs : List Char) : StaysInLine (scanHex cs).2 cs := by
  have hwhole := digits_staysInLine isBreak_of_isHexDigit cs
  have hpart := hwhole.add (hexFraction_staysInLine _)
  have hpower := hpart.add (exponent_staysInLine ['p', 'P'] (by simp [isBreak]) _)
  unfold scanHex
  dsimp only
  split
  · exact hpower.add (oneOf_staysInLine _ (by simp [isBreak]) _)
  · exact hpower.add (oneOf_staysInLine _ (by simp [isBreak]) _)

/-- What follows `0b` stays in its line. -/
lemma scanBinary_staysInLine (cs : List Char) : StaysInLine (scanBinary cs).2 cs :=
  (digits_staysInLine isBreak_of_isBinaryDigit cs).add (oneOf_staysInLine _ (by simp [isBreak]) _)

/-- A decimal literal stays in its line. -/
lemma scanDecimal_staysInLine (cs : List Char) : StaysInLine (scanDecimal cs).2 cs := by
  have hwhole := digits_staysInLine isBreak_of_isDigit cs
  have hpart := hwhole.add (fraction_staysInLine _)
  have hpower := hpart.add (exponent_staysInLine ['e', 'E'] (by simp [isBreak]) _)
  unfold scanDecimal
  dsimp only
  split
  · rename_i hsuffix
    have hone := hpower.add (oneOf_staysInLine ['f', 'F', 'd', 'D'] (by simp [isBreak]) _)
    rwa [hsuffix] at hone
  · split
    · exact hpower
    · exact hpower.add (oneOf_staysInLine _ (by simp [isBreak]) _)

/-- A number literal stays in its line. -/
lemma scan_staysInLine (cs : List Char) : StaysInLine (scan cs).2 cs := by
  unfold scan
  split
  · rename_i m cs
    split
    · rename_i hm
      have hm' : isBreak m = false := by
        rcases (by simpa using hm : m = 'x' ∨ m = 'X') with rfl | rfl <;> rfl
      rw [Nat.add_comm]
      exact ((scanHex_staysInLine cs).cons hm').cons rfl
    · split
      · rename_i hm
        have hm' : isBreak m = false := by
          rcases (by simpa using hm : m = 'b' ∨ m = 'B') with rfl | rfl <;> rfl
        rw [Nat.add_comm]
        exact ((scanBinary_staysInLine cs).cons hm').cons rfl
      · exact scanDecimal_staysInLine _
  · exact scanDecimal_staysInLine _

end Number

namespace Lexeme

/-- A lexeme that starts with `c` and takes `n` of the characters after it lies within the text,
and the cut after it is clean. -/
def IsExtent (c : Char) (cs : List Char) (n : Nat) : Prop :=
  n ≤ cs.length ∧ IsCleanCut (c :: cs.take n) (cs.drop n)

/-- A stretch of one line is an extent. -/
lemma IsExtent.of_staysInLine {c : Char} {cs : List Char} {n : Nat} (hc : isBreak c = false)
    (h : StaysInLine n cs) : IsExtent c cs n :=
  ⟨h.1, h.isCleanCut hc⟩

/-- A lexeme that ends with some other character than `\r` is an extent. -/
lemma IsExtent.of_last (c : Char) (as bs : List Char) {d : Char} (hd : d ≠ '\r') :
    IsExtent c (as ++ d :: bs) (as.length + 1) := by
  have htake : (as ++ d :: bs).take (as.length + 1) = as ++ [d] := by
    rw [List.take_length_add_append]
    rfl
  refine ⟨by simp, ?_⟩
  rw [htake]
  refine isCleanCut_of_getLast? (c := d) ?_ hd _
  rw [← List.cons_append, List.getLast?_concat]

/-! ## Words -/

/-- Characters of words end no line. -/
lemma isBreak_of_continuesWord : ∀ c, continuesWord c = true → isBreak c = false :=
  isBreak_eq_false_of_test (by decide) (by decide)

/-- Blanks within a line end no line. -/
lemma isBreak_of_isGap : ∀ c, isGap c = true → isBreak c = false :=
  isBreak_eq_false_of_test rfl rfl

/-- A word stays in its line. -/
lemma nextWord_staysInLine (c : Char) (cs : List Char) : StaysInLine (nextWord c cs).2 cs := by
  unfold nextWord
  split
  · rename_i hword
    have hstay : StaysInLine 10 (c :: cs) :=
      StaysInLine.of_prefix (List.isPrefixOf_iff_prefix.1 hword) (by simp [isBreak])
    exact hstay.pred
  · exact .takeWhile isBreak_of_continuesWord cs

/-! ## Comments and quoted literals -/

/-- What is found stands at the place where it is found. -/
lemma find?_eq_some {piece cs : List Char} {n : Nat} (h : Text.find? piece cs = some n) :
    ∃ as bs, cs = as ++ piece ++ bs ∧ as.length = n := by
  induction cs generalizing n with
  | nil =>
    have hpiece : piece = [] ∧ 0 = n := by simpa [Text.find?] using h
    exact ⟨[], [], by simp [hpiece.1], hpiece.2⟩
  | cons c cs ih =>
    rw [Text.find?] at h
    split at h
    · rename_i hpre
      obtain ⟨bs, hbs⟩ := List.isPrefixOf_iff_prefix.1 hpre
      exact ⟨[], bs, by simpa using hbs.symm, by simpa using h⟩
    · obtain ⟨m, hm, rfl⟩ := Option.map_eq_some_iff.1 h
      obtain ⟨as, bs, rfl, rfl⟩ := ih hm
      exact ⟨c :: as, bs, by simp, by simp⟩

/-- A comment in stars ends with a slash, also if more of it stands before the place from which
its end is looked for. -/
lemma commentTail_extent (c : Char) (head : List Char) {cs : List Char} {n : Nat}
    (h : commentTail cs = .ok n) : IsExtent c (head ++ cs) (n + head.length) := by
  unfold commentTail at h
  split at h
  · rename_i m hm
    obtain ⟨as, bs, rfl, rfl⟩ := find?_eq_some hm
    have hn : as.length + 2 = n := by simpa using h
    have hlen : n + head.length = (head ++ as ++ ['*']).length + 1 := by
      simp
      omega
    have hcs : head ++ (as ++ ['*', '/'] ++ bs) = head ++ as ++ ['*'] ++ '/' :: bs := by simp
    rw [hlen, hcs]
    exact .of_last c _ bs (by decide)
  · simp at h

/-- A quoted literal stays in its line. -/
lemma quotedTail_staysInLine {quote : Char} (hq : isBreak quote = false) {cs : List Char} {n : Nat}
    (h : quotedTail quote cs = some n) : StaysInLine n cs := by
  fun_induction quotedTail quote cs generalizing n with
  | case1 => simp at h
  | case2 => simp at h
  | case3 => simp at h
  | case4 c cs hc ih =>
    obtain ⟨m, hm, rfl⟩ := Option.map_eq_some_iff.1 h
    exact ((ih hm).cons (by simpa using hc)).cons rfl
  | case5 => simp at h
  | case6 cs =>
    obtain rfl : 1 = n := by simpa using h
    exact (StaysInLine.zero cs).cons hq
  | case7 c cs _ _ hc _ ih =>
    obtain ⟨m, hm, rfl⟩ := Option.map_eq_some_iff.1 h
    exact (ih hm).cons (by simpa using hc)

/-- A text block ends with a quotation mark. -/
lemma textBlockBody_ends {cs : List Char} {n : Nat} (h : textBlockBody cs = some n) :
    ∃ as bs, cs = as ++ '"' :: bs ∧ n = as.length + 1 := by
  fun_induction textBlockBody cs generalizing n with
  | case1 => simp at h
  | case2 => simp at h
  | case3 c cs ih =>
    obtain ⟨m, hm, rfl⟩ := Option.map_eq_some_iff.1 h
    obtain ⟨as, bs, rfl, rfl⟩ := ih hm
    exact ⟨'\\' :: c :: as, bs, by simp, by simp⟩
  | case4 cs =>
    obtain rfl : 3 = n := by simpa using h
    exact ⟨['"', '"'], cs, by simp, by simp⟩
  | case5 c cs _ _ _ ih =>
    obtain ⟨m, hm, rfl⟩ := Option.map_eq_some_iff.1 h
    obtain ⟨as, bs, rfl, rfl⟩ := ih hm
    exact ⟨c :: as, bs, by simp, by simp⟩

/-- A quotation mark starts an extent. -/
lemma nextQuote_extent {cs : List Char} {kind : Kind} {n : Nat}
    (h : nextQuote cs = .ok (kind, n)) : IsExtent '"' cs n := by
  unfold nextQuote at h
  split at h
  · rename_i rest
    unfold textBlockTail at h
    split at h
    · split at h
      · rename_i m hm
        obtain ⟨as, bs, rfl, rfl⟩ := textBlockBody_ends hm
        obtain ⟨-, rfl⟩ : Kind.textBlock = kind ∧ as.length + 1 + 2 = n := by
          simpa [Except.map] using h
        exact .of_last '"' ('"' :: '"' :: as) bs (by decide)
      · simp [Except.map] at h
    · simp [Except.map] at h
  · split at h
    · rename_i m hm
      obtain ⟨-, rfl⟩ : Kind.stringLiteral = kind ∧ m = n := by simpa using h
      exact .of_staysInLine rfl (quotedTail_staysInLine rfl hm)
    · simp at h

/-- An apostrophe starts an extent. -/
lemma nextApostrophe_extent {cs : List Char} {kind : Kind} {n : Nat}
    (h : nextApostrophe cs = .ok (kind, n)) : IsExtent '\'' cs n := by
  unfold nextApostrophe at h
  split at h
  · rename_i m hm
    obtain ⟨-, rfl⟩ : Kind.charLiteral = kind ∧ m = n := by simpa using h
    exact .of_staysInLine rfl (quotedTail_staysInLine rfl hm)
  · simp at h

/-! ## Separators and operators -/

/-- No spelling of a separator or operator ends a line. -/
lemma isBreak_of_mem_symbols :
    ∀ symbol ∈ symbols, ∀ c ∈ symbol.1.toList, isBreak c = false := by
  have hall : symbols.all (fun symbol => symbol.1.toList.all fun c => !isBreak c) = true := by
    decide
  simpa using hall

/-- A separator or operator stays in its line. -/
lemma nextSymbol_staysInLine {c : Char} {cs : List Char} {kind : Kind} {n : Nat}
    (h : nextSymbol c cs = .ok (kind, n)) : StaysInLine n cs := by
  unfold nextSymbol at h
  split at h
  · rename_i spelling _ hfind
    have hstart := List.find?_some hfind
    have hpre : spelling.toList <+: c :: cs := List.isPrefixOf_iff_prefix.1 hstart
    have hmem := List.mem_of_find?_eq_some hfind
    have hstay := StaysInLine.of_prefix hpre (isBreak_of_mem_symbols _ hmem)
    obtain ⟨-, rfl⟩ : _ ∧ spelling.length - 1 = n := by simpa using h
    exact hstay.pred
  · simp at h

/-- A slash starts an extent. -/
lemma nextSlash_extent {cs : List Char} {kind : Kind} {n : Nat}
    (h : nextSlash cs = .ok (kind, n)) : IsExtent '/' cs n := by
  unfold nextSlash at h
  split at h
  · rename_i rest
    obtain ⟨-, rfl⟩ : Kind.lineComment = kind ∧ _ + 1 = n := by simpa using h
    refine .of_staysInLine rfl (StaysInLine.cons rfl (.takeWhile (fun c hc => ?_) rest))
    simpa using hc
  · rename_i rest
    obtain ⟨-, rfl⟩ : Kind.blockComment = kind ∧ 3 = n := by simpa using h
    exact .of_last '/' ['*', '*'] rest (by decide)
  · rename_i rest _
    cases hm : commentTail rest with
    | error cause => simp [hm, Except.map] at h
    | ok m =>
      obtain ⟨-, rfl⟩ : Kind.docComment = kind ∧ m + 2 = n := by simpa [hm, Except.map] using h
      exact commentTail_extent '/' ['*', '*'] hm
  · rename_i rest _ _
    cases hm : commentTail rest with
    | error cause => simp [hm, Except.map] at h
    | ok m =>
      obtain ⟨-, rfl⟩ : Kind.blockComment = kind ∧ m + 1 = n := by simpa [hm, Except.map] using h
      exact commentTail_extent '/' ['*'] hm
  · exact .of_staysInLine rfl (nextSymbol_staysInLine h)

/-! ## Any lexeme -/

/-- A line break is an extent, since it takes a `\n` after a `\r` with it. -/
lemma newline_extent (cs : List Char) :
    IsExtent '\r' cs (if cs.head? = some '\n' then 1 else 0) := by
  split
  · rename_i hhead
    obtain ⟨rest, rfl⟩ : ∃ rest, cs = '\n' :: rest := by
      cases cs with
      | nil => simp at hhead
      | cons c cs => exact ⟨cs, by simpa using hhead⟩
    exact .of_last '\r' [] rest (by decide)
  · rename_i hhead
    exact ⟨Nat.zero_le _, fun _ => by simpa using hhead⟩

/-- Every lexeme lies within the text, and the cut after it is clean. -/
theorem next_extent {c : Char} {cs : List Char} {kind : Kind} {n : Nat}
    (h : next c cs = .ok (kind, n)) : IsExtent c cs n := by
  unfold next at h
  split at h
  · rename_i hc
    obtain ⟨-, rfl⟩ : Kind.whitespace = kind ∧ _ = n := by simpa using h
    exact .of_staysInLine (isBreak_of_isGap c hc) (.takeWhile isBreak_of_isGap cs)
  split at h
  · rename_i hc
    obtain ⟨-, rfl⟩ : Kind.newline = kind ∧ 0 = n := by simpa using h
    exact ⟨Nat.zero_le _, isCleanCut_of_getLast? (c := c) rfl (by simp [hc]) _⟩
  split at h
  · rename_i hc
    obtain ⟨-, rfl⟩ : Kind.newline = kind ∧ _ = n := by simpa using h
    subst hc
    exact newline_extent cs
  have hbreak : isBreak c = false := by simp_all [isBreak]
  split at h
  · obtain rfl : (nextWord c cs).2 = n := by
      rw [Except.ok.inj h]
    exact .of_staysInLine hbreak (nextWord_staysInLine c cs)
  split at h
  · obtain ⟨-, rfl⟩ : _ ∧ (Number.scan (c :: cs)).2 - 1 = n := by simpa using h
    exact .of_staysInLine hbreak (Number.scan_staysInLine (c :: cs)).pred
  split at h
  · rename_i hc
    subst hc
    exact nextQuote_extent h
  split at h
  · rename_i hc
    subst hc
    exact nextApostrophe_extent h
  split at h
  · rename_i hc
    subst hc
    exact nextSlash_extent h
  · exact .of_staysInLine hbreak (nextSymbol_staysInLine h)

end Lexeme

end JavaLint
