import JavaLint.Proofs.Lexeme.Spelling
import JavaLint.Proofs.LineEnds.Number
import Mathlib.Data.List.Find
import Mathlib.Tactic.Common

/-!
# Lexemes and the ends of lines

The lexemes of a text in which every line ends with `\r\n` are those of the text in which every line
ends with `\n`.  Words, numbers, operators, blanks, line comments and quoted literals are looked for in
their line only; comments in stars and text blocks are stretched with the lines that end in them.
`next_crlf` says this for one lexeme and `scan_crlf` for all of them.
-/

namespace JavaLint.Lexeme

open Text (isBreak firstLine crlf stretch StaysInLine firstLine_cons firstLine_cons_of_isBreak
  firstLine_crlf isPrefixOf_crlf stretch_add)

variable {c : Char} {cs : List Char}

/-! ## Words and symbols -/

/-- A word is the same. -/
lemma nextWord_crlf (hc : c ≠ '\n') (cs : List Char) : nextWord c (crlf cs) = nextWord c cs := by
  have hpiece : ∀ d ∈ "non-sealed".toList, isBreak d = false := by simp [isBreak]
  have hprefix := isPrefixOf_crlf hpiece (c :: cs)
  rw [Text.crlf_cons hc] at hprefix
  rw [nextWord, nextWord, hprefix, Text.takeWhile_crlf (by decide) (by decide)]

/-- A separator or operator is the same. -/
lemma nextSymbol_crlf (hc : c ≠ '\n') (cs : List Char) :
    nextSymbol c (crlf cs) = nextSymbol c cs := by
  have hfind : symbols.find? (fun symbol => symbol.1.toList.isPrefixOf (c :: crlf cs)) =
      symbols.find? fun symbol => symbol.1.toList.isPrefixOf (c :: cs) := by
    apply List.find?_congr
    intro symbol hsymbol
    rw [← Text.crlf_cons hc, isPrefixOf_crlf (isBreak_of_mem_symbols symbol hsymbol)]
  rw [nextSymbol, nextSymbol, hfind]

/-- Whether a number starts is the same. -/
lemma startsNumber_crlf (c : Char) (cs : List Char) :
    startsNumber c (crlf cs) = startsNumber c cs := by
  rw [startsNumber, startsNumber, Text.any_head?_crlf rfl]

/-! ## Quoted literals -/

/-- A character that is no backslash is looked at by itself. -/
lemma quotedTail_cons (quote : Char) (hc : c ≠ '\\') (cs : List Char) :
    quotedTail quote (c :: cs) =
      if isBreak c then none
      else if c = quote then some 1
      else (quotedTail quote cs).map (· + 1) := by
  rw [quotedTail]
  · exact fun hslash => absurd hslash hc
  · exact fun _ _ hslash => absurd hslash hc

/-- The end of a quoted literal is looked for in the first line only. -/
lemma quotedTail_firstLine {quote : Char} (cs : List Char) :
    quotedTail quote (firstLine cs) = quotedTail quote cs := by
  fun_induction quotedTail quote cs with
  | case1 => rfl
  | case2 => rfl
  | case3 c cs hc =>
    rw [firstLine_cons rfl, firstLine_cons_of_isBreak hc]
    rfl
  | case4 c cs hc ih =>
    rw [firstLine_cons rfl, firstLine_cons (by simpa using hc), quotedTail, if_neg hc, ih]
  | case5 c cs _ _ hc =>
    rw [firstLine_cons_of_isBreak hc]
    rfl
  | case6 cs hlast hpair hc =>
    have hslash : quote ≠ '\\' := by
      rintro rfl
      cases cs with
      | nil => exact hlast rfl rfl
      | cons d cs => exact hpair d cs rfl rfl
    rw [firstLine_cons (by simpa using hc), quotedTail_cons quote hslash, if_neg hc, if_pos rfl]
  | case7 c cs hlast hpair hc hne ih =>
    have hslash : c ≠ '\\' := by
      rintro rfl
      cases cs with
      | nil => exact hlast rfl rfl
      | cons d cs => exact hpair d cs rfl rfl
    rw [firstLine_cons (by simpa using hc), quotedTail_cons quote hslash, if_neg hc, if_neg hne, ih]

/-- A quoted literal ends at the same place. -/
lemma quotedTail_crlf (quote : Char) (cs : List Char) :
    quotedTail quote (crlf cs) = quotedTail quote cs := by
  rw [← quotedTail_firstLine, firstLine_crlf, quotedTail_firstLine]

/-! ## Comments and text blocks -/

/-- A piece of a line is found at the place to which it has moved. -/
lemma find?_crlf {piece : List Char} (hne : piece ≠ []) (hpiece : ∀ c ∈ piece, isBreak c = false)
    (cs : List Char) : Text.find? piece (crlf cs) = (Text.find? piece cs).map (stretch cs) := by
  induction cs with
  | nil => cases piece <;> simp [Text.find?] at hne ⊢
  | cons c cs ih =>
    have hprefix := isPrefixOf_crlf hpiece (c :: cs)
    by_cases hc : c = '\n'
    · subst hc
      obtain ⟨d, piece, rfl⟩ := List.exists_cons_of_ne_nil hne
      have hd : d ≠ '\n' := by
        rintro rfl
        simpa [isBreak] using hpiece '\n' (by simp)
      have hd' : d ≠ '\r' := by
        rintro rfl
        simpa [isBreak] using hpiece '\r' (by simp)
      simp [Text.find?, List.isPrefixOf, hd, hd', ih, Function.comp_def]
    · rw [Text.crlf_cons hc] at hprefix ⊢
      rw [Text.find?, Text.find?, hprefix, ih]
      split
      · simp
      · simp [Function.comp_def, hc]

/-- A comment ends at the place to which its end has moved. -/
lemma commentTail_crlf (cs : List Char) :
    commentTail (crlf cs) = (commentTail cs).map (stretch cs) := by
  rw [commentTail, commentTail, find?_crlf (by simp) (by simp [isBreak])]
  cases hfind : Text.find? ['*', '/'] cs with
  | none => rfl
  | some n =>
    obtain ⟨as, bs, rfl, rfl⟩ := find?_eq_some hfind
    have hend : stretch (as ++ ['*', '/'] ++ bs) (as.length + 2) =
        stretch (as ++ ['*', '/'] ++ bs) as.length + 2 := by
      rw [stretch_add]
      simp [stretch]
    exact congrArg Except.ok hend.symm

/-- A character that neither is a backslash nor starts three quotation marks is passed over. -/
lemma textBlockBody_cons (hc : c ≠ '\\')
    (hquotes : ['"', '"', '"'].isPrefixOf (c :: cs) = false) :
    textBlockBody (c :: cs) = (textBlockBody cs).map (· + 1) := by
  rw [textBlockBody]
  · exact fun hslash => absurd hslash hc
  · exact fun _ _ hslash => absurd hslash hc
  · rintro rest rfl rfl
    simp [List.isPrefixOf] at hquotes

/-- A text block ends at the place to which its end has moved. -/
lemma textBlockBody_crlf (cs : List Char) :
    textBlockBody (crlf cs) = (textBlockBody cs).map (stretch cs) := by
  -- The end of a line is passed over, be it one character or two.
  have hpass (cs : List Char) : textBlockBody ('\n' :: cs) = (textBlockBody cs).map (· + 1) :=
    textBlockBody_cons (by decide) (by simp [List.isPrefixOf])
  fun_induction textBlockBody cs with
  | case1 => rfl
  | case2 => rfl
  | case3 c cs ih =>
    rw [Text.crlf_cons (by decide)]
    by_cases hc : c = '\n'
    · subst hc
      rw [Text.crlf_newline, textBlockBody, hpass, ih]
      simp [Function.comp_def]
    · rw [Text.crlf_cons hc, textBlockBody, ih]
      simp [Function.comp_def, hc]
  | case4 cs => simp [textBlockBody]
  | case5 c cs hlast hpair hquotes ih =>
    have hslash : c ≠ '\\' := by
      rintro rfl
      cases cs with
      | nil => exact hlast rfl rfl
      | cons d cs => exact hpair d cs rfl rfl
    by_cases hc : c = '\n'
    · subst hc
      have hreturn : textBlockBody ('\r' :: '\n' :: crlf cs) =
          (textBlockBody ('\n' :: crlf cs)).map (· + 1) :=
        textBlockBody_cons (by decide) (by simp [List.isPrefixOf])
      rw [Text.crlf_newline, hreturn, hpass, ih]
      simp [Function.comp_def]
    · have hprefix : ['"', '"', '"'].isPrefixOf (c :: cs) = false := by
        rw [Bool.eq_false_iff]
        intro hprefix
        obtain ⟨rest, hrest⟩ := List.isPrefixOf_iff_prefix.1 hprefix
        obtain ⟨rfl, rfl⟩ := List.cons.inj hrest
        exact hquotes rest rfl rfl
      rw [← isPrefixOf_crlf (by simp [isBreak]), Text.crlf_cons hc] at hprefix
      rw [Text.crlf_cons hc, textBlockBody_cons hslash hprefix, ih]
      simp [Function.comp_def, hc]

/-- A text block ends at the place to which its end has moved, and if it is refused it is for the same
reason. -/
lemma textBlockTail_crlf (cs : List Char) :
    textBlockTail (crlf cs) = (textBlockTail cs).map (stretch cs) := by
  rw [textBlockTail, textBlockTail, Text.dropWhile_crlf rfl rfl, Text.any_head?_crlf rfl,
    textBlockBody_crlf]
  split
  · cases textBlockBody cs <;> rfl
  · rfl

/-- A piece of a line with which a text starts stays in its line. -/
lemma staysInLine_of_isPrefixOf {piece : List Char} (hpiece : ∀ c ∈ piece, isBreak c = false)
    (h : piece.isPrefixOf cs = true) : StaysInLine piece.length cs :=
  StaysInLine.of_prefix (List.isPrefixOf_iff_prefix.1 h) hpiece

/-- What follows a piece of a line with which a text starts. -/
lemma drop_crlf_of_isPrefixOf {piece : List Char} (hpiece : ∀ c ∈ piece, isBreak c = false)
    (h : piece.isPrefixOf cs = true) :
    (crlf cs).drop piece.length = crlf (cs.drop piece.length) := by
  have hstretch := (staysInLine_of_isPrefixOf hpiece h).stretch_eq
  conv_lhs => rw [← hstretch]
  exact Text.drop_stretch cs piece.length

/-- The stretch after a piece of a line with which a text starts. -/
lemma stretch_of_isPrefixOf {piece : List Char} (hpiece : ∀ c ∈ piece, isBreak c = false)
    (h : piece.isPrefixOf cs = true) (n : Nat) :
    stretch cs (n + piece.length) = stretch (cs.drop piece.length) n + piece.length := by
  rw [Nat.add_comm, stretch_add, (staysInLine_of_isPrefixOf hpiece h).stretch_eq, Nat.add_comm]

/-! ## One lexeme -/

/-- The answer of the scanner for a text whose lines end otherwise: the lexeme is stretched. -/
def stretched (cs : List Char) (answer : Kind × Nat) : Kind × Nat :=
  (answer.1, stretch cs answer.2)

/-- A lexeme of one line is not stretched. -/
lemma stretched_of_staysInLine {answer : Kind × Nat} (h : StaysInLine answer.2 cs) :
    stretched cs answer = answer := by
  rw [stretched, h.stretch_eq]

/-- A text does not start with a piece that is not there. -/
lemma isPrefixOf_eq_false {piece : List Char} (h : ∀ rest, cs = piece ++ rest → False) :
    piece.isPrefixOf cs = false := by
  rw [Bool.eq_false_iff]
  intro hprefix
  obtain ⟨rest, rfl⟩ := List.isPrefixOf_iff_prefix.1 hprefix
  exact h rest rfl

/-- A quotation mark starts a text block if two more follow, and else a string literal. -/
lemma nextQuote_eq (cs : List Char) : nextQuote cs =
    if ['"', '"'].isPrefixOf cs then
      (textBlockTail (cs.drop 2)).map fun n => (.textBlock, n + 2)
    else
      match quotedTail '"' cs with
      | some n => .ok (.stringLiteral, n)
      | none => .error .openString := by
  unfold nextQuote
  split
  · simp [List.isPrefixOf]
  · rename_i hquotes
    rw [isPrefixOf_eq_false fun rest hrest => hquotes rest hrest]
    rfl

/-- A literal that starts with a quotation mark is stretched. -/
lemma nextQuote_crlf (cs : List Char) :
    nextQuote (crlf cs) = (nextQuote cs).map (stretched cs) := by
  have hpiece : ∀ c ∈ ['"', '"'], isBreak c = false := by simp [isBreak]
  rw [nextQuote_eq, nextQuote_eq, isPrefixOf_crlf hpiece, quotedTail_crlf]
  split
  · rename_i hprefix
    have hdrop := drop_crlf_of_isPrefixOf hpiece hprefix
    have hstretch := stretch_of_isPrefixOf hpiece hprefix
    simp only [List.length_cons, List.length_nil] at hdrop hstretch
    rw [hdrop, textBlockTail_crlf]
    cases textBlockTail (cs.drop 2) with
    | error cause => rfl
    | ok n => simp [Except.map, stretched, hstretch]
  · cases hquoted : quotedTail '"' cs with
    | none => rfl
    | some n =>
      have hstay := quotedTail_staysInLine rfl hquoted
      simp [Except.map, stretched, hstay.stretch_eq]

/-- A character literal is not stretched. -/
lemma nextApostrophe_crlf (cs : List Char) :
    nextApostrophe (crlf cs) = (nextApostrophe cs).map (stretched cs) := by
  rw [nextApostrophe, nextApostrophe, quotedTail_crlf]
  cases hquoted : quotedTail '\'' cs with
  | none => rfl
  | some n =>
    have hstay := quotedTail_staysInLine rfl hquoted
    simp [Except.map, stretched, hstay.stretch_eq]

/-- A separator or operator is not stretched. -/
lemma map_nextSymbol_crlf (hc : c ≠ '\n') (cs : List Char) :
    nextSymbol c (crlf cs) = (nextSymbol c cs).map (stretched cs) := by
  rw [nextSymbol_crlf hc]
  cases hsymbol : nextSymbol c cs with
  | error cause => rfl
  | ok answer =>
    have hstay : StaysInLine answer.2 cs := nextSymbol_staysInLine hsymbol
    exact congrArg Except.ok (stretched_of_staysInLine hstay).symm

/-- What a slash starts is told by the characters after it. -/
lemma nextSlash_eq (cs : List Char) : nextSlash cs =
    if ['/'].isPrefixOf cs then .ok (.lineComment, (firstLine (cs.drop 1)).length + 1)
    else if ['*', '*', '/'].isPrefixOf cs then .ok (.blockComment, 3)
    else if ['*', '*'].isPrefixOf cs then
      (commentTail (cs.drop 2)).map fun n => (.docComment, n + 2)
    else if ['*'].isPrefixOf cs then (commentTail (cs.drop 1)).map fun n => (.blockComment, n + 1)
    else nextSymbol '/' cs := by
  unfold nextSlash
  split
  · simp [List.isPrefixOf, firstLine]
  · simp [List.isPrefixOf]
  · rename_i rest hrest
    have hslash : ['/'].isPrefixOf rest = false := isPrefixOf_eq_false hrest
    simp [List.isPrefixOf, hslash]
  · rename_i rest hthird hsecond
    have hstar : ['*'].isPrefixOf rest = false := isPrefixOf_eq_false hsecond
    have hstar' : ['*', '/'].isPrefixOf rest = false := isPrefixOf_eq_false hthird
    simp [List.isPrefixOf, hstar, hstar']
  · rename_i hslash _ _ hstar
    have hslash' : ['/'].isPrefixOf cs = false := isPrefixOf_eq_false hslash
    have hone : ['*'].isPrefixOf cs = false := isPrefixOf_eq_false hstar
    have htwo : ['*', '*'].isPrefixOf cs = false :=
      isPrefixOf_eq_false fun rest hrest => hstar _ hrest
    have hthree : ['*', '*', '/'].isPrefixOf cs = false :=
      isPrefixOf_eq_false fun rest hrest => hstar _ hrest
    rw [hslash', hone, htwo, hthree]
    rfl

/-- A comment in stars is stretched, where a part of it has been read. -/
lemma map_commentTail_crlf {piece : List Char} (hpiece : ∀ c ∈ piece, isBreak c = false)
    (h : piece.isPrefixOf cs = true) (kind : Kind) :
    (commentTail ((crlf cs).drop piece.length)).map (fun n => (kind, n + piece.length)) =
      ((commentTail (cs.drop piece.length)).map fun n => (kind, n + piece.length)).map
        (stretched cs) := by
  rw [drop_crlf_of_isPrefixOf hpiece h, commentTail_crlf]
  cases commentTail (cs.drop piece.length) with
  | error cause => rfl
  | ok n => simp [Except.map, stretched, stretch_of_isPrefixOf hpiece h]

/-- What starts with a slash is stretched. -/
lemma nextSlash_crlf (cs : List Char) :
    nextSlash (crlf cs) = (nextSlash cs).map (stretched cs) := by
  have hslash : ∀ c ∈ ['/'], isBreak c = false := by simp [isBreak]
  have hone : ∀ c ∈ ['*'], isBreak c = false := by simp [isBreak]
  have htwo : ∀ c ∈ ['*', '*'], isBreak c = false := by simp [isBreak]
  have hthree : ∀ c ∈ ['*', '*', '/'], isBreak c = false := by simp [isBreak]
  rw [nextSlash_eq, nextSlash_eq, isPrefixOf_crlf hslash, isPrefixOf_crlf hone,
    isPrefixOf_crlf htwo, isPrefixOf_crlf hthree]
  split
  · rename_i hprefix
    have hdrop := drop_crlf_of_isPrefixOf hslash hprefix
    have hstretch := stretch_of_isPrefixOf hslash hprefix
    have hline : StaysInLine (firstLine (cs.drop 1)).length (cs.drop 1) :=
      .takeWhile (by simp) _
    simp only [List.length_cons, List.length_nil] at hdrop hstretch
    rw [hdrop, firstLine_crlf]
    simp only [Except.map, stretched, hstretch, hline.stretch_eq]
  split
  · rename_i hprefix
    have hstay := staysInLine_of_isPrefixOf hthree hprefix
    exact congrArg Except.ok (stretched_of_staysInLine hstay).symm
  split
  · rename_i hprefix
    exact map_commentTail_crlf htwo hprefix .docComment
  split
  · rename_i hprefix
    exact map_commentTail_crlf hone hprefix .blockComment
  · exact map_nextSymbol_crlf (by decide) cs

/-- A lexeme that does not start with the end of a line is stretched. -/
lemma next_crlf (hc : isBreak c = false) (cs : List Char) :
    next c (crlf cs) = (next c cs).map (stretched cs) := by
  have hn : c ≠ '\n' := by
    rintro rfl
    simp [isBreak] at hc
  have hr : c ≠ '\r' := by
    rintro rfl
    simp [isBreak] at hc
  have hnumber : Number.scan (c :: crlf cs) = Number.scan (c :: cs) := by
    rw [← Text.crlf_cons hn, ← Number.scan_firstLine, firstLine_crlf, Number.scan_firstLine]
  unfold next
  rw [startsNumber_crlf, nextWord_crlf hn, hnumber, Text.takeWhile_crlf rfl rfl, if_neg hn, if_neg hr]
  split
  · exact congrArg Except.ok (stretched_of_staysInLine (.takeWhile isBreak_of_isGap cs)).symm
  split
  · exact congrArg Except.ok (stretched_of_staysInLine (nextWord_staysInLine c cs)).symm
  split
  · have hstay := (Number.scan_staysInLine (c :: cs)).pred
    exact congrArg Except.ok (stretched_of_staysInLine hstay).symm
  split
  · exact nextQuote_crlf cs
  split
  · exact nextApostrophe_crlf cs
  split
  · exact nextSlash_crlf cs
  · exact map_nextSymbol_crlf hn cs

/-- The first lexeme of a text, if there is one, is changed like any text, and so is what follows
it. -/
lemma next_step_crlf (hc : c ≠ '\r') {kind : Kind} {n : Nat} (h : next c cs = .ok (kind, n)) :
    ∃ d ds m, crlf (c :: cs) = d :: ds ∧ next d ds = .ok (kind, m) ∧
      d :: ds.take m = crlf (c :: cs.take n) ∧ ds.drop m = crlf (cs.drop n) := by
  by_cases hn : c = '\n'
  · subst hn
    obtain ⟨rfl, rfl⟩ := Prod.mk.inj (Except.ok.inj h)
    exact ⟨'\r', '\n' :: crlf cs, 1, rfl, rfl, rfl, rfl⟩
  · have hbreak : isBreak c = false := by simp [isBreak, hn, hc]
    refine ⟨c, crlf cs, stretch cs n, Text.crlf_cons hn cs, ?_, ?_, Text.drop_stretch cs n⟩
    · rw [next_crlf hbreak, h]
      rfl
    · rw [Text.take_stretch, Text.crlf_cons hn]

/-- If there is no lexeme at the start of a text, then there is none at the start of the changed
text, for the same cause. -/
lemma next_error_crlf (hc : c ≠ '\r') {cause : LexicalCause} (h : next c cs = .error cause) :
    crlf (c :: cs) = c :: crlf cs ∧ next c (crlf cs) = .error cause := by
  have hn : c ≠ '\n' := by
    rintro rfl
    cases h
  have hbreak : isBreak c = false := by simp [isBreak, hn, hc]
  refine ⟨Text.crlf_cons hn cs, ?_⟩
  rw [next_crlf hbreak, h]
  rfl

/-! ## All lexemes -/

/-- The number of bytes of a text whose lines end with `\r\n` before the place that is `offset` bytes
from the start of the text whose lines end with `\n`. -/
def movedOffset : List Char → Nat → Nat
  | _, 0 => 0
  | [], offset => offset
  | c :: cs, offset => Text.byteSize (crlf [c]) + movedOffset cs (offset - c.utf8Size)

/-- A place moves by what is added to the text before it. -/
lemma movedOffset_byteSize (as bs : List Char) :
    movedOffset (as ++ bs) (Text.byteSize as) = Text.byteSize (crlf as) := by
  induction as with
  | nil => cases bs <;> rfl
  | cons c as ih =>
    obtain ⟨size, hsize⟩ := Nat.exists_eq_succ_of_ne_zero c.utf8Size_pos.ne'
    have hpos : Text.byteSize (c :: as) = (size + Text.byteSize as) + 1 := by
      rw [Text.byteSize, hsize]
      omega
    have hrest : size + Text.byteSize as + 1 - c.utf8Size = Text.byteSize as := by omega
    rw [hpos, List.cons_append, movedOffset, hrest, ih, ← Text.byteSize_append, ← Text.crlf_append]
    · rfl
    · simp

/-- The lexeme in a text whose lines end with `\r\n`. -/
def withCrlf (move : Nat → Nat) (l : Lexeme) : Lexeme :=
  { l with text := Text.withCrlf l.text, offset := move l.offset }

/-- The lexemes of a changed text that comes after some other text are the changed lexemes, and if it
is refused it is at the same line and for the same cause. -/
lemma scanFrom_crlf (before : List Char) (line : Nat) {cs : List Char} (h : '\r' ∉ cs) :
    scanFrom (Text.byteSize (crlf before)) line (crlf cs) =
      (scanFrom (Text.byteSize before) line cs).map
        (List.map (withCrlf (movedOffset (before ++ cs)))) := by
  generalize hoffset : Text.byteSize before = offset
  fun_induction scanFrom offset line cs generalizing before with
  | case1 => simp [scanFrom, Except.map]
  | case2 offset line c cs cause hnext =>
    obtain ⟨hc, -⟩ := List.ne_and_not_mem_of_not_mem_cons h
    obtain ⟨hcons, hcrlf⟩ := next_error_crlf (Ne.symm hc) hnext
    rw [hcons, scanFrom, hcrlf]
    rfl
  | case3 offset line c cs kind n hnext text ih =>
    obtain ⟨hc, hcs⟩ := List.ne_and_not_mem_of_not_mem_cons h
    obtain ⟨d, ds, m, hcons, hcrlf, htext, hrest⟩ := next_step_crlf (Ne.symm hc) hnext
    have htext' : '\r' ∉ text := by
      simp only [text, List.mem_cons, not_or]
      exact ⟨hc, fun hmem => hcs (List.mem_of_mem_take hmem)⟩
    have hwhole : before ++ c :: cs = (before ++ text) ++ cs.drop n := by simp [text]
    have hscan := ih (before ++ text) (fun hmem => hcs (List.mem_of_mem_drop hmem))
      (by rw [Text.byteSize_append, hoffset])
    have hfirst : withCrlf (movedOffset (before ++ c :: cs))
        ⟨kind, String.ofList text, offset, line⟩ =
        ⟨kind, String.ofList (crlf text), Text.byteSize (crlf before), line⟩ := by
      simp only [withCrlf, Text.withCrlf, String.toList_ofList, ← hoffset, movedOffset_byteSize]
    rw [Text.crlf_append, Text.byteSize_append, ← hwhole] at hscan
    rw [hcons, scanFrom, hcrlf]
    dsimp only
    rw [htext, hrest, Text.breaks_crlf htext', hscan]
    cases scanFrom (offset + Text.byteSize text) (line + Text.breaks text) (cs.drop n) with
    | error e => rfl
    | ok ls => exact congrArg (fun l => Except.ok (l :: ls.map _)) hfirst.symm

/-- The lexemes of a changed source text are the changed lexemes of the source text. -/
theorem scan_crlf {source : String} (h : '\r' ∉ source.toList) :
    scan (Text.withCrlf source) =
      (scan source).map (List.map (withCrlf (movedOffset source.toList))) := by
  have hscan := scanFrom_crlf [] 1 h
  rwa [List.nil_append, Text.crlf_nil, Text.byteSize, ← String.toList_ofList (l := crlf _)] at hscan

/-! ## Lexemes of one line -/

/-- A name is a word. -/
lemma isWord_of_isName {kind : Kind} (h : kind.isName = true) : kind.isWord = true := by
  cases kind <;> first | rfl | cases h

/-- The lexemes of the kind of a name do not end a line. -/
lemma scanFrom_isName {offset line : Nat} {ls : List Lexeme} (h : scanFrom offset line cs = .ok ls) :
    ∀ l ∈ ls, l.kind.isName = true → Text.OneLine l.text := by
  refine forall_mem_scanFrom (P := fun kind text => kind.isName = true → '\n' ∉ text)
    (fun c cs kind n hnext hkind hmem => ?_) h
  obtain ⟨hc, hword⟩ := next_of_isWord hnext (isWord_of_isName hkind)
  have hstay := nextWord_staysInLine c cs
  rw [hword] at hstay
  rcases List.mem_cons.1 hmem with rfl | hmem
  · exact absurd hc (by decide)
  · simpa [isBreak] using hstay.2 '\n' hmem

/-- The lexemes that are names, separators or operators do not end a line. -/
lemma oneLine_of_scan {source : String} {ls : List Lexeme} (h : scan source = .ok ls)
    {l : Lexeme} (hl : l ∈ ls)
    (hkind : l.kind.isName = true ∨
      l.kind.isTrivia = false ∧ l.kind.isWord = false ∧ l.kind.isLiteral = false) :
    Text.OneLine l.text := by
  rcases hkind with hname | ⟨htrivia, hword, hliteral⟩
  · exact scanFrom_isName h l hl hname
  · have hspelling := scanFrom_spelling h l hl
    simp only [htrivia, hword, hliteral, Bool.false_eq_true, false_or] at hspelling
    intro hmem
    simpa [isBreak] using isBreak_of_mem_symbols _ hspelling '\n' hmem

end JavaLint.Lexeme
