import JavaLint.Proofs.Lexeme.Stability
import Mathlib.Tactic.Common

/-!
# Texts joined by a line break

A text that can be cut into lexemes is cut in the same way if a line break and a further text follow it.
Most lexemes are looked for in their line only, so they do not see what comes after the line break.
Comments in stars and text blocks go on over the ends of lines, but they are closed in the text that can
be cut, and the first place where they can be closed stays the first one.  So `next` gives the same answer
(`next_append_newline`).  The only exception is a `\r` at the end of the text, which would be one line
break with the `\n` after it.

What follows the line break is cut as if it stood alone, only its place is another one
(`scanFrom_moved`).  The main result is `joined_texts_are_cut_apart`.
-/

namespace JavaLint

open Text (isBreak firstLine)

/-! ## The first line of a text before a line break -/

namespace Text

/-- A run of characters is not continued after a line break, if the line break does not pass the test. -/
lemma takeWhile_append_newline {p : Char → Bool} (hp : p '\n' = false) (cs rest : List Char) :
    (cs ++ '\n' :: rest).takeWhile p = cs.takeWhile p := by
  induction cs with
  | nil => simp [hp]
  | cons c cs ih => rw [List.cons_append, List.takeWhile_cons, List.takeWhile_cons, ih]

/-- The first line is not continued after a line break. -/
lemma firstLine_append_newline (cs rest : List Char) :
    firstLine (cs ++ '\n' :: rest) = firstLine cs :=
  takeWhile_append_newline rfl cs rest

/-- A piece of a line does not start before a line break and end after it. -/
lemma isPrefixOf_append_newline {piece : List Char} (h : ∀ c ∈ piece, isBreak c = false)
    (cs rest : List Char) : piece.isPrefixOf (cs ++ '\n' :: rest) = piece.isPrefixOf cs := by
  rw [← isPrefixOf_firstLine h, firstLine_append_newline, isPrefixOf_firstLine h]

/-- What is found before a line break is found at the same place. -/
lemma find?_append_newline {piece cs : List Char} {n : Nat}
    (hpiece : ∀ c ∈ piece, isBreak c = false) (h : find? piece cs = some n) (rest : List Char) :
    find? piece (cs ++ '\n' :: rest) = some n := by
  induction cs generalizing n with
  | nil =>
    obtain ⟨hempty, rfl⟩ : piece = [] ∧ 0 = n := by simpa [find?] using h
    subst hempty
    rfl
  | cons c cs ih =>
    have hsame := isPrefixOf_append_newline hpiece (c :: cs) rest
    rw [List.cons_append] at hsame ⊢
    rw [find?] at h ⊢
    rw [hsame]
    split at h
    · rename_i hstart
      rwa [if_pos hstart]
    · rename_i hstart
      obtain ⟨m, hm, rfl⟩ := Option.map_eq_some_iff.1 h
      rw [if_neg hstart, ih hm]
      rfl

end Text

/-- The failure in a text that starts so many lines later. -/
def Error.moved (lines : Nat) : Error → Error
  | .lexical line cause => .lexical (line + lines) cause
  | e => e

/-! ## One lexeme -/

namespace Lexeme

variable {c : Char} {cs : List Char} {kind : Kind} {n : Nat}

/-- A word is not continued after a line break. -/
lemma nextWord_append_newline (c : Char) (cs rest : List Char) :
    nextWord c (cs ++ '\n' :: rest) = nextWord c cs := by
  have hpiece : ∀ d ∈ "non-sealed".toList, isBreak d = false := by simp [isBreak]
  have hstart := Text.isPrefixOf_append_newline hpiece (c :: cs) rest
  rw [List.cons_append] at hstart
  rw [nextWord, nextWord, hstart, Text.takeWhile_append_newline (by decide)]

/-- A separator or operator is not continued after a line break. -/
lemma nextSymbol_append_newline (c : Char) (cs rest : List Char) :
    nextSymbol c (cs ++ '\n' :: rest) = nextSymbol c cs := by
  have hfind : symbols.find? (fun symbol => symbol.1.toList.isPrefixOf (c :: (cs ++ '\n' :: rest))) =
      symbols.find? fun symbol => symbol.1.toList.isPrefixOf (c :: cs) := by
    apply List.find?_congr
    intro symbol hsymbol
    rw [← List.cons_append, Text.isPrefixOf_append_newline (isBreak_of_mem_symbols symbol hsymbol)]
  rw [nextSymbol, nextSymbol, hfind]

/-- A number does not start with a point before a line break. -/
lemma startsNumber_append_newline (c : Char) (cs rest : List Char) :
    startsNumber c (cs ++ '\n' :: rest) = startsNumber c cs := by
  cases cs with
  | nil => simp [startsNumber]
  | cons d cs => rfl

/-- A number is not continued after a line break. -/
lemma numberScan_append_newline (cs rest : List Char) :
    Number.scan (cs ++ '\n' :: rest) = Number.scan cs := by
  rw [← Number.scan_firstLine, Text.firstLine_append_newline, Number.scan_firstLine]

/-- A quoted literal is not continued after a line break. -/
lemma quotedTail_append_newline (quote : Char) (cs rest : List Char) :
    quotedTail quote (cs ++ '\n' :: rest) = quotedTail quote cs := by
  rw [← quotedTail_firstLine, Text.firstLine_append_newline, quotedTail_firstLine]

/-- A comment that is closed before a line break ends at the same place. -/
lemma commentTail_append_newline (h : commentTail cs = .ok n) (rest : List Char) :
    commentTail (cs ++ '\n' :: rest) = .ok n := by
  unfold commentTail at h ⊢
  split at h
  · rename_i m hm
    rw [Text.find?_append_newline (by simp [isBreak]) hm]
    exact h
  · cases h

/-- A text block that is closed before a line break ends at the same place. -/
lemma textBlockBody_append_newline {cs : List Char} {n : Nat} (h : textBlockBody cs = some n)
    (rest : List Char) : textBlockBody (cs ++ '\n' :: rest) = some n := by
  fun_induction textBlockBody cs generalizing n with
  | case1 => cases h
  | case2 => cases h
  | case3 c cs ih =>
    obtain ⟨m, hm, rfl⟩ := Option.map_eq_some_iff.1 h
    rw [List.cons_append, List.cons_append, textBlockBody, ih hm]
    rfl
  | case4 cs => exact h
  | case5 c cs hlast hpair hquotes ih =>
    obtain ⟨m, hm, rfl⟩ := Option.map_eq_some_iff.1 h
    have hthree : ['"', '"', '"'].isPrefixOf (c :: cs) = false := by
      refine isPrefixOf_eq_false fun tail htail => ?_
      obtain ⟨rfl, rfl⟩ := List.cons.inj htail
      exact hquotes tail rfl rfl
    rw [← Text.isPrefixOf_append_newline (by simp [isBreak]) _ rest, List.cons_append] at hthree
    rw [List.cons_append, textBlockBody_cons (ne_backslash hlast hpair) hthree, ih hm]
    rfl

/-- A text block that is closed before a line break is read in the same way. -/
lemma textBlockTail_append_newline (h : textBlockTail cs = .ok n) (rest : List Char) :
    textBlockTail (cs ++ '\n' :: rest) = .ok n := by
  unfold textBlockTail at h ⊢
  split at h
  · rename_i hopening
    -- The line of the opening delimiter ends in the text, so it ends at the same place.
    have hne : cs.dropWhile isGap ≠ [] := by
      intro hnil
      simp [hnil] at hopening
    have hhead : ((cs ++ '\n' :: rest).dropWhile isGap).head? = (cs.dropWhile isGap).head? := by
      rw [List.dropWhile_append, if_neg (by rwa [List.isEmpty_iff]), List.head?_append_of_ne_nil _ hne]
    rw [hhead, if_pos hopening]
    split at h
    · rename_i m hm
      rw [textBlockBody_append_newline hm]
      exact h
    · cases h
  · cases h

/-- What a piece of a line leaves of a text is followed by the line break in the same way. -/
lemma drop_append_newline {piece : List Char} (h : piece.isPrefixOf cs = true) (rest : List Char) :
    (cs ++ '\n' :: rest).drop piece.length = cs.drop piece.length ++ '\n' :: rest :=
  List.drop_append_of_le_length (List.isPrefixOf_iff_prefix.1 h).length_le

/-- What starts with a quotation mark is not changed by what follows a line break. -/
lemma nextQuote_append_newline (h : nextQuote cs = .ok (kind, n)) (rest : List Char) :
    nextQuote (cs ++ '\n' :: rest) = .ok (kind, n) := by
  rw [nextQuote_eq] at h ⊢
  rw [Text.isPrefixOf_append_newline (by simp [isBreak]), quotedTail_append_newline]
  split at h
  · rename_i hblock
    obtain ⟨m, hm, hanswer⟩ := exists_of_map_eq_ok h
    have hdrop : (cs ++ '\n' :: rest).drop 2 = cs.drop 2 ++ '\n' :: rest :=
      drop_append_newline hblock rest
    rw [if_pos hblock, hdrop, textBlockTail_append_newline hm]
    exact congrArg Except.ok hanswer
  · rename_i hstring
    rw [if_neg hstring]
    exact h

/-- What starts with a slash is not changed by what follows a line break. -/
lemma nextSlash_append_newline (h : nextSlash cs = .ok (kind, n)) (rest : List Char) :
    nextSlash (cs ++ '\n' :: rest) = .ok (kind, n) := by
  have hcomment {piece : List Char} (hpiece : piece.isPrefixOf cs = true) {answer : Nat → Kind × Nat}
      (h : (commentTail (cs.drop piece.length)).map answer = .ok (kind, n)) :
      (commentTail ((cs ++ '\n' :: rest).drop piece.length)).map answer = .ok (kind, n) := by
    obtain ⟨m, hm, hanswer⟩ := exists_of_map_eq_ok h
    rw [drop_append_newline hpiece, commentTail_append_newline hm]
    exact congrArg Except.ok hanswer
  rw [nextSlash_eq] at h ⊢
  rw [Text.isPrefixOf_append_newline (by simp [isBreak]),
    Text.isPrefixOf_append_newline (by simp [isBreak]),
    Text.isPrefixOf_append_newline (by simp [isBreak]),
    Text.isPrefixOf_append_newline (by simp [isBreak]), nextSymbol_append_newline]
  split at h
  · rename_i hline
    have hdrop : (cs ++ '\n' :: rest).drop 1 = cs.drop 1 ++ '\n' :: rest :=
      drop_append_newline hline rest
    rw [if_pos hline, hdrop, Text.firstLine_append_newline]
    exact h
  rename_i hline
  rw [if_neg hline]
  split at h
  · rename_i hempty
    rw [if_pos hempty]
    exact h
  rename_i hempty
  rw [if_neg hempty]
  split at h
  · rename_i hdoc
    rw [if_pos hdoc]
    exact hcomment hdoc h
  rename_i hdoc
  rw [if_neg hdoc]
  split at h
  · rename_i hblock
    rw [if_pos hblock]
    exact hcomment hblock h
  · rename_i hblock
    rw [if_neg hblock]
    exact h

/-- A lexeme of a text is not changed by a line break and a further text after it, unless the text ends
with a `\r`. -/
theorem next_append_newline (h : next c cs = .ok (kind, n)) (hend : (c :: cs).getLast? ≠ some '\r')
    (rest : List Char) : next c (cs ++ '\n' :: rest) = .ok (kind, n) := by
  unfold next at h ⊢
  rw [Text.takeWhile_append_newline rfl, startsNumber_append_newline, nextWord_append_newline,
    ← List.cons_append, numberScan_append_newline, nextSymbol_append_newline]
  split at h
  · rename_i hgap
    rwa [if_pos hgap]
  rename_i hgap
  rw [if_neg hgap]
  split at h
  · rename_i hn
    rwa [if_pos hn]
  rename_i hn
  rw [if_neg hn]
  split at h
  · rename_i hr
    -- A character follows the `\r` in the text, so it is the same one that follows it now.
    have hne : cs ≠ [] := by
      rintro rfl
      simp [hr] at hend
    rw [if_pos hr, List.head?_append_of_ne_nil _ hne]
    exact h
  rename_i hr
  rw [if_neg hr]
  split at h
  · rename_i hword
    rwa [if_pos hword]
  rename_i hword
  rw [if_neg hword]
  split at h
  · rename_i hnumber
    rwa [if_pos hnumber]
  rename_i hnumber
  rw [if_neg hnumber]
  split at h
  · rename_i hquote
    rw [if_pos hquote]
    exact nextQuote_append_newline h rest
  rename_i hquote
  rw [if_neg hquote]
  split at h
  · rename_i hapostrophe
    rw [if_pos hapostrophe, nextApostrophe, quotedTail_append_newline]
    exact h
  rename_i hapostrophe
  rw [if_neg hapostrophe]
  split at h
  · rename_i hslash
    rw [if_pos hslash]
    exact nextSlash_append_newline h rest
  · rename_i hslash
    rwa [if_neg hslash]

/-! ## All lexemes -/

/-- The lexemes of a text come first if a line break and a further text follow it. -/
lemma scanFrom_append_newline {offset line : Nat} {cs : List Char} {ls : List Lexeme}
    (h : scanFrom offset line cs = .ok ls) (hend : cs.getLast? ≠ some '\r') (rest : List Char) :
    scanFrom offset line (cs ++ '\n' :: rest) =
      (scanFrom (offset + Text.byteSize cs) (line + Text.breaks cs) ('\n' :: rest)).map (ls ++ ·) := by
  fun_induction scanFrom offset line cs generalizing ls with
  | case1 =>
    obtain rfl := Except.ok.inj h
    rw [List.nil_append, Text.byteSize, Text.breaks, Nat.add_zero, Nat.add_zero]
    cases scanFrom _ _ _ <;> rfl
  | case2 => cases h
  | case3 offset line c cs kind n hnext text =>
    rename_i ih
    obtain ⟨tail, htail, rfl⟩ := exists_of_map_eq_ok h
    obtain ⟨hle, hcut⟩ := next_extent hnext
    have hrest : (cs.drop n).getLast? ≠ some '\r' := by
      rw [List.getLast?_drop]
      split
      · simp
      · rename_i hlong
        have hne : cs ≠ [] := by
          rintro rfl
          exact hlong (Nat.zero_le _)
        rwa [List.getLast?_cons_of_ne_nil hne] at hend
    have hsplit : c :: cs = text ++ cs.drop n := by simp [text]
    have hsize : Text.byteSize (c :: cs) = Text.byteSize text + Text.byteSize (cs.drop n) := by
      rw [hsplit, Text.byteSize_append]
    have hbreaks : Text.breaks (c :: cs) = Text.breaks text + Text.breaks (cs.drop n) := by
      rw [hsplit, Text.breaks_append _ _ hcut]
    rw [List.cons_append, scanFrom, next_append_newline hnext hend]
    dsimp only
    rw [List.take_append_of_le_length hle, List.drop_append_of_le_length hle, ih htail hrest, hsize,
      hbreaks, ← Nat.add_assoc, ← Nat.add_assoc]
    cases scanFrom _ _ _ <;> rfl

/-- The lexeme in a text that starts so many bytes and lines later. -/
def moved (bytes lines : Nat) (l : Lexeme) : Lexeme :=
  { l with offset := l.offset + bytes, line := l.line + lines }

/-- A text that starts later is cut in the same way, and if it is refused it is for the same cause. -/
lemma scanFrom_moved (bytes lines offset line : Nat) (cs : List Char) :
    scanFrom (offset + bytes) (line + lines) cs =
      ((scanFrom offset line cs).map (List.map (moved bytes lines))).mapError (Error.moved lines) := by
  fun_induction scanFrom offset line cs with
  | case1 => rw [scanFrom]; rfl
  | case2 offset line c cs cause hnext =>
    rw [scanFrom, hnext]
    rfl
  | case3 offset line c cs kind n hnext text =>
    rename_i ih
    have hoffset : offset + bytes + Text.byteSize text = offset + Text.byteSize text + bytes := by omega
    have hline : line + lines + Text.breaks text = line + Text.breaks text + lines := by omega
    rw [scanFrom, hnext]
    dsimp only
    rw [hoffset, hline, ih]
    cases scanFrom _ _ _ <;> rfl

/-- The lexemes of a text, a line break and another text are the lexemes of the one, the line break, and
the lexemes of the other with their places moved, unless the first text ends with a `\r`.  If the other
text is refused, then the whole is refused for the same cause, so many lines later. -/
theorem joined_texts_are_cut_apart {a b : String} {lexemes : List Lexeme} (h : scan a = .ok lexemes)
    (hend : a.toList.getLast? ≠ some '\r') :
    (∀ lexemes', scan b = .ok lexemes' →
      scan (a ++ "\n" ++ b) = .ok (lexemes ++
        ⟨.newline, "\n", a.utf8ByteSize, Text.breaks a.toList + 1⟩ ::
          lexemes'.map (moved (a.utf8ByteSize + 1) (Text.breaks a.toList + 1)))) ∧
    ∀ line cause, scan b = .error (.lexical line cause) →
      scan (a ++ "\n" ++ b) = .error (.lexical (line + (Text.breaks a.toList + 1)) cause) := by
  have hjoined : scan (a ++ "\n" ++ b) =
      (scanFrom a.utf8ByteSize (Text.breaks a.toList + 1) ('\n' :: b.toList)).map (lexemes ++ ·) := by
    have hfirst := scanFrom_append_newline h hend b.toList
    rw [Nat.zero_add, Nat.add_comm 1, Text.byteSize_toList] at hfirst
    rw [scan, String.toList_append, String.toList_append, List.append_assoc]
    exact hfirst
  have hsecond : scanFrom a.utf8ByteSize (Text.breaks a.toList + 1) ('\n' :: b.toList) =
      (((scan b).map (List.map (moved (a.utf8ByteSize + 1) (Text.breaks a.toList + 1)))).mapError
        (Error.moved (Text.breaks a.toList + 1))).map
        (⟨.newline, "\n", a.utf8ByteSize, Text.breaks a.toList + 1⟩ :: ·) := by
    rw [scan, ← scanFrom_moved, Nat.zero_add, Nat.add_comm 1, scanFrom]
    rfl
  rw [hjoined, hsecond]
  constructor
  · intro lexemes' h'
    rw [h']
    rfl
  · intro line cause h'
    rw [h']
    rfl

/-- A comment over two lines and a number that ends with a point, before a name on the next line and
before a character on the line after it with which no lexeme starts. -/
theorem joined_texts_after_point :
    scan "/*é\n*/1." = .ok [⟨.blockComment, "/*é\n*/", 0, 1⟩, ⟨.floatLiteral, "1.", 7, 2⟩] ∧
      scan ("/*é\n*/1." ++ "\n" ++ "x") = .ok [⟨.blockComment, "/*é\n*/", 0, 1⟩,
        ⟨.floatLiteral, "1.", 7, 2⟩, ⟨.newline, "\n", 9, 2⟩, ⟨.identifier, "x", 10, 3⟩] ∧
      scan ("/*é\n*/1." ++ "\n" ++ "x\n#") = .error (.lexical 4 (.unexpected '#')) := by
  have h : scan "/*é\n*/1." =
      .ok [⟨.blockComment, "/*é\n*/", 0, 1⟩, ⟨.floatLiteral, "1.", 7, 2⟩] := by
    decide +kernel
  exact ⟨h, (joined_texts_are_cut_apart h (by decide)).1 [⟨.identifier, "x", 0, 1⟩] (by decide +kernel),
    (joined_texts_are_cut_apart h (by decide)).2 2 (.unexpected '#') (by decide +kernel)⟩

end Lexeme

end JavaLint
