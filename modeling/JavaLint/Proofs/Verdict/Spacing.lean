import JavaLint.Proofs.Lexeme.Trivia
import JavaLint.Proofs.Verdict.Runs
import Mathlib.Tactic.Common

/-!
# Spaces after tokens

After a comma, a semicolon or an operator the rules look at the next token.  Line breaks make no tokens,
and the next token is looked for on later lines too.  So a comma is as it should be if a blank follows it
once line breaks are left out, or nothing at all; a semicolon may also be followed by a line break.

The first character of a lexeme tells whether it is a blank or a line break (`Lexeme.TellsSpace`), and the
next token is that of the next lexeme that is no line break (`LineTable.getElem?_next`).  From these two
facts the rules can be said of the text itself: `spacing_is_read_off_text`.
-/

namespace JavaLint

/-! ## What the first character tells -/

namespace Lexeme

/-- The first character of the lexeme tells whether it is a blank or a line break, and line breaks consist
of nothing else. -/
structure TellsSpace (l : Lexeme) : Prop where
  gap : ∃ c cs, l.text.toList = c :: cs ∧ isGap c = decide (l.kind = .whitespace) ∧
    Text.isBreak c = decide (l.kind = .newline)
  newline : l.kind = .newline → l.text.toList ∈ [['\n'], ['\r'], ['\r', '\n']]

/-- What the scanner finds is told by its first character. -/
lemma next_first {c : Char} {cs : List Char} {kind : Kind} {n : Nat} (h : next c cs = .ok (kind, n)) :
    isGap c = decide (kind = .whitespace) ∧ Text.isBreak c = decide (kind = .newline) := by
  obtain ⟨hspace, hnewline⟩ := next_blank h
  constructor
  · rw [Bool.eq_iff_iff, decide_eq_true_eq]
    refine ⟨fun hgap => ?_, fun hkind => hspace hkind c (by simp)⟩
    simp only [next, hgap, if_true] at h
    exact (Prod.mk.inj (Except.ok.inj h)).1.symm
  · rw [Bool.eq_iff_iff, decide_eq_true_eq]
    refine ⟨fun hbreak => ?_, fun hkind => ?_⟩
    · have hcases : c = '\n' ∨ c = '\r' := by simpa [Text.isBreak] using hbreak
      rcases hcases with rfl | rfl
      · have hnext : .ok (.newline, 0) = Except.ok (kind, n) := h
        exact (Prod.mk.inj (Except.ok.inj hnext)).1.symm
      · have hnext : .ok (.newline, if cs.head? = some '\n' then 1 else 0) = Except.ok (kind, n) := h
        exact (Prod.mk.inj (Except.ok.inj hnext)).1.symm
    · have htext := hnewline hkind
      simp only [List.mem_cons, List.cons.injEq, List.not_mem_nil, or_false] at htext
      rcases htext with ⟨rfl, -⟩ | ⟨rfl, -⟩ | ⟨rfl, -⟩ <;> rfl

/-- The lexemes of a source text tell where there is space. -/
lemma tellsSpace_of_scan {source : String} {ls : List Lexeme} (h : scan source = .ok ls) :
    ∀ l ∈ ls, l.TellsSpace := by
  have hall := forall_mem_scanFrom (P := fun kind text =>
    (∃ c cs, text = c :: cs ∧ isGap c = decide (kind = .whitespace) ∧
      Text.isBreak c = decide (kind = .newline)) ∧
    (kind = .newline → text ∈ [['\n'], ['\r'], ['\r', '\n']]))
    (fun c cs kind n hnext => ⟨⟨c, cs.take n, rfl, next_first hnext⟩, (next_blank hnext).2⟩) h
  exact fun l hl => ⟨(hall l hl).1, (hall l hl).2⟩

variable {offset line : Nat} {after : List Lexeme}

/-- The first lexeme that is no line break. -/
def afterBreaks? (after : List Lexeme) : Option Lexeme :=
  (after.dropWhile fun l => l.kind = .newline).head?

/-- The first lexeme that is no line break is a blank, or there is none, if and only if the text starts so
without its leading line breaks. -/
lemma all_afterBreaks? (h : ∀ l ∈ after, l.TellsSpace) :
    ((afterBreaks? after).all fun l => l.kind = .whitespace) =
      ((chars after).dropWhile Text.isBreak).head?.all isGap := by
  induction after with
  | nil => rfl
  | cons l after ih =>
    obtain ⟨⟨⟨c, cs, htext, hgap, hbreak⟩, hnewline⟩, hafter⟩ := List.forall_mem_cons.1 h
    by_cases hkind : l.kind = .newline
    · have hbreaks : ∀ d ∈ l.text.toList, Text.isBreak d = true := by
        have htexts := hnewline hkind
        simp only [List.mem_cons, List.not_mem_nil, or_false] at htexts
        rcases htexts with htext | htext | htext <;> simp [htext, Text.isBreak]
      rw [chars_cons, List.dropWhile_append_of_pos hbreaks, ← ih hafter, afterBreaks?,
        List.dropWhile_cons_of_pos (by simpa using hkind)]
      rfl
    · rw [chars_cons, htext, List.cons_append, List.dropWhile_cons_of_neg (by simp [hbreak, hkind]),
        afterBreaks?, List.dropWhile_cons_of_neg (by simpa using hkind)]
      simp [hgap]

/-- A lexeme without line breaks is followed by a blank, by a later line, or by nothing if and only if the
text after it starts with a blank or a line break, or is empty. -/
lemma all_or_any_afterBreaks? (h : ∀ l ∈ after, l.TellsSpace) (hplaced : IsPlaced offset line after) :
    (((afterBreaks? after).all fun l => l.kind = .whitespace) ||
      (afterBreaks? after).any fun l => line < l.line) =
      (chars after).head?.all fun c => isGap c || Text.isBreak c := by
  cases after with
  | nil => rfl
  | cons l after =>
    obtain ⟨⟨⟨c, cs, htext, hgap, hbreak⟩, hnewline⟩, -⟩ := List.forall_mem_cons.1 h
    obtain ⟨-, -, hline, -, hrest⟩ := hplaced
    by_cases hkind : l.kind = .newline
    · -- What follows a line break stands on a later line, so it need not be a blank.
      have hnext : afterBreaks? (l :: after) = afterBreaks? after := by
        rw [afterBreaks?, List.dropWhile_cons_of_pos (by simpa using hkind)]
        rfl
      have hlater : ∀ m, afterBreaks? after = some m → line < m.line := by
        intro m hm
        have hmem := (List.dropWhile_sublist _).subset (List.mem_of_head? hm)
        have hle := hrest.lines_le.1 m hmem
        have hpos : 0 < Text.breaks l.text.toList := by
          have htexts := hnewline hkind
          simp only [List.mem_cons, List.not_mem_nil, or_false] at htexts
          rcases htexts with htext | htext | htext <;> rw [htext] <;> decide
        omega
      rw [hnext, chars_cons, htext]
      cases hm : afterBreaks? after with
      | none => simp [hbreak, hkind]
      | some m => simp [hbreak, hkind, hlater m hm]
    · have hnext : afterBreaks? (l :: after) = some l := by
        rw [afterBreaks?, List.dropWhile_cons_of_neg (by simpa using hkind)]
        rfl
      rw [hnext, chars_cons, htext]
      simp [hgap, hbreak, hkind, hline]

/-- What comes after some of the lexemes of a text is placed too. -/
lemma IsPlaced.right {before : List Lexeme} (h : IsPlaced offset line (before ++ after)) :
    ∃ offset' line', IsPlaced offset' line' after := by
  induction before generalizing offset line with
  | nil => exact ⟨offset, line, h⟩
  | cons l before ih =>
    obtain ⟨-, -, -, -, hrest⟩ := h
    exact ih hrest

end Lexeme

/-! ## The next token -/

/-- The next token is that of the next lexeme that is no line break. -/
lemma LineTable.getElem?_next {before after : List Lexeme} {l : Lexeme} (hl : l.hasToken = true)
    (hafter : ∀ m ∈ after, m.text ≠ "") :
    ((ofLexemes (before ++ l :: after)).tokens[before.countP Lexeme.hasToken + 1]?).map
        (fun t => (t.kind, t.line)) =
      (Lexeme.afterBreaks? after).map fun m => (m.kind, m.line) := by
  let isBreak (m : Lexeme) : Bool := m.kind = .newline
  let breaks := after.takeWhile isBreak
  have hsplit : breaks ++ after.dropWhile isBreak = after := List.takeWhile_append_dropWhile
  have hnone : breaks.countP Lexeme.hasToken = 0 := by
    refine List.countP_eq_zero.2 fun m hm htoken => ?_
    have hkind := List.mem_takeWhile_imp hm
    have hmem := (List.takeWhile_sublist _).subset hm
    exact (Lexeme.hasToken_iff (hafter m hmem)).1 htoken (by simpa [isBreak] using hkind)
  have hcount : (before ++ l :: breaks).countP Lexeme.hasToken = before.countP Lexeme.hasToken + 1 := by
    simp [hl, hnone]
  rw [Lexeme.afterBreaks?, ← hcount]
  change _ = (after.dropWhile isBreak).head?.map _
  cases hrest : after.dropWhile isBreak with
  | nil =>
    rw [hrest, List.append_nil] at hsplit
    have hsize := count_ofLexemes (before ++ l :: after)
    rw [← hsplit] at hsize ⊢
    rw [Array.getElem?_eq_none (by rw [← hsize]; exact Nat.le_refl _)]
    rfl
  | cons m rest =>
    have hkind : m.kind ≠ .newline := by
      have hhead := List.head?_dropWhile_not isBreak after
      rw [hrest] at hhead
      simpa [isBreak] using hhead
    have hmem : m ∈ after := by
      rw [← hsplit, hrest]
      simp
    have hentry := ofLexeme?_ofLexemes (before ++ l :: breaks) m rest
    rw [if_pos ((Lexeme.hasToken_iff (hafter m hmem)).2 hkind)] at hentry
    have hls : (before ++ l :: breaks) ++ m :: rest = before ++ l :: after := by
      rw [← hsplit, hrest]
      simp
    obtain ⟨t, ht, hsame, -, hline⟩ := token_of_ofLexeme? (l := m) (by simp) hentry
    rw [← hls, ht]
    simp [hsame, hline]

/-- There is space where the neighbour is a blank, or where there is none. -/
lemma isSpaced_eq (neighbour : Option Token) :
    isSpaced neighbour = neighbour.all fun t => t.kind = .whitespace := by
  have hspace (t : Token) : t.isSpace = decide (t.kind = .whitespace) := by
    cases hkind : t.kind <;> simp [Token.isSpace, Token.channel, Kind.channel, hkind]
  rw [isSpaced, funext hspace]

/-! ## The rest of the text -/

namespace SourceFile

/-- The text is what stands in the source text after the token with the number. -/
def HasRest (file : SourceFile) (source : String) (number : Nat) (rest : String) : Prop :=
  ∃ before l after, Lexeme.scan source = .ok (before ++ l :: after) ∧
    file.table.ofLexeme? before.length = some number ∧
    source = String.join (before.map Lexeme.text) ++ l.text ++ rest

variable {source rest : String} {file : SourceFile} {settings : Settings} {number : Nat} {t : Token}

/-- What stands after a token is what the lexemes after its own are made of. -/
lemma HasRest.exists_lexeme (hrest : file.HasRest source number rest)
    (h : SourceFile.parse source = .ok file) :
    ∃ trees b before l after, Lexeme.scan source = .ok (before ++ l :: after) ∧
      file.ComesFrom (before ++ l :: after) trees b ∧ l.hasToken = true ∧
      before.countP Lexeme.hasToken = number ∧ rest.toList = Lexeme.chars after := by
  obtain ⟨before, l, after, hscan, hnumber, hsource⟩ := hrest
  obtain ⟨trees, b, hfrom⟩ := comesFrom_of_scan h hscan
  rw [hfrom.table, LineTable.ofLexeme?_ofLexemes] at hnumber
  have hchars := (Lexeme.scan_eq_ok hscan).1
  rw [hsource] at hchars
  simp only [Lexeme.chars_append, Lexeme.chars_cons, String.toList_append, Lexeme.toList_join_text,
    List.append_assoc, List.append_cancel_left_eq] at hchars
  cases htoken : l.hasToken with
  | false => simp [htoken] at hnumber
  | true =>
    rw [htoken, if_pos rfl] at hnumber
    exact ⟨trees, b, before, l, after, hscan, hfrom, htoken, Option.some.inj hnumber, hchars.symm⟩

/-- What stands after a token is found by leaving out the lexemes up to its own. -/
lemma hasRest_of_scan {ls : List Lexeme} (hscan : Lexeme.scan source = .ok ls) {n : Nat}
    (hn : n < ls.length) (hnumber : file.table.ofLexeme? n = some number) :
    file.HasRest source number (String.join ((ls.drop (n + 1)).map Lexeme.text)) := by
  have hls : ls.take n ++ ls[n] :: ls.drop (n + 1) = ls := by
    rw [List.getElem_cons_drop, List.take_append_drop]
  refine ⟨ls.take n, ls[n], ls.drop (n + 1), by rw [hls, hscan], ?_, ?_⟩
  · rw [List.length_take_of_le hn.le, hnumber]
  · have hchars := (Lexeme.scan_eq_ok hscan).1
    rw [← String.toList_inj, ← hchars]
    conv_lhs => rw [← hls]
    simp only [String.toList_append, Lexeme.toList_join_text, Lexeme.chars_append, Lexeme.chars_cons,
      List.append_assoc]

/-- Every token has its place in the source text. -/
lemma existsUnique_rest (h : SourceFile.parse source = .ok file) (hlt : number < file.table.count) :
    ∃! rest, file.HasRest source number rest := by
  obtain ⟨ls, -, -, hscan, -, htable, -⟩ := parse_parts h
  rw [htable] at hlt
  obtain ⟨n, hn⟩ := LineTable.exists_ofLexeme?_eq_some_iff.2 hlt
  obtain ⟨⟨l, hl, -⟩, -⟩ := LineTable.ofLexeme?_eq_some_iff.1 hn
  have hrest : file.HasRest source number (String.join ((ls.drop (n + 1)).map Lexeme.text)) :=
    hasRest_of_scan hscan (List.getElem?_eq_some_iff.1 hl).1 (htable ▸ hn)
  refine ⟨_, hrest, fun rest hrest' => ?_⟩
  obtain ⟨-, -, before, l, after, hscan, -, htoken, hnumber, hchars⟩ := hrest.exists_lexeme h
  obtain ⟨-, -, before', l', after', hscan', -, htoken', hnumber', hchars'⟩ := hrest'.exists_lexeme h
  obtain ⟨-, -, rfl⟩ := LineTable.split_countP_unique htoken htoken'
    (Except.ok.inj (hscan.symm.trans hscan')) (hnumber.trans hnumber'.symm)
  exact String.toList_inj.1 (hchars'.trans hchars.symm)

/-- A separator is written on one line. -/
lemma breaks_of_isSeparator {ls : List Lexeme} (hscan : Lexeme.scan source = .ok ls) {l : Lexeme}
    (hl : l ∈ ls) (hkind : l.kind.isSeparator = true) : Text.breaks l.text.toList = 0 := by
  have hsymbols : ∀ symbol ∈ Lexeme.symbols, Text.breaks symbol.1.toList = 0 := by decide
  rcases Lexeme.scanFrom_spelling hscan l hl with htrivia | hword | hliteral | hsymbol
  · cases hcase : l.kind <;> simp_all [Kind.isSeparator, Kind.isTrivia, Kind.channel]
  · cases hcase : l.kind <;> simp_all [Kind.isSeparator, Kind.isWord]
  · cases hcase : l.kind <;> simp_all [Kind.isSeparator, Kind.isLiteral]
  · exact hsymbols _ hsymbol

/-- The rest of the text is made of lexemes, and the first of them that is no line break makes the next
token.  After a separator they start on the line of the separator. -/
lemma HasRest.exists_after (hrest : file.HasRest source number rest)
    (h : SourceFile.parse source = .ok file) (ht : file.table.tokens[number]? = some t) :
    ∃ offset line after, (∀ m ∈ after, m.TellsSpace) ∧ Lexeme.IsPlaced offset line after ∧
      rest.toList = Lexeme.chars after ∧
      (file.table.next? t).map (fun next => (next.kind, next.line)) =
        (Lexeme.afterBreaks? after).map (fun m => (m.kind, m.line)) ∧
      (t.kind.isSeparator = true → line = t.line) := by
  obtain ⟨trees, b, before, l, after, hscan, hfrom, htoken, rfl, hchars⟩ := hrest.exists_lexeme h
  obtain ⟨offset, start, -, -, hline, -, hplaced⟩ := hfrom.placed.right
  have hnext : (file.table.next? t).map (fun next => (next.kind, next.line)) =
      (Lexeme.afterBreaks? after).map fun m => (m.kind, m.line) := by
    rw [next?_of_parse h ht, hfrom.table]
    exact LineTable.getElem?_next htoken fun m hm => hfrom.placed.text_ne_empty m (by simp [hm])
  refine ⟨_, _, after, fun m hm => Lexeme.tellsSpace_of_scan hscan m (by simp [hm]), hplaced, hchars,
    hnext, fun hkind => ?_⟩
  have hentry := LineTable.ofLexeme?_ofLexemes before l after
  rw [htoken, if_pos rfl] at hentry
  obtain ⟨t', ht', hsame, -, hline'⟩ := LineTable.token_of_ofLexeme? (l := l) (by simp) hentry
  rw [hfrom.table, ht'] at ht
  obtain rfl := Option.some.inj ht
  rw [breaks_of_isSeparator hscan (by simp) (hsame ▸ hkind), hline', hline, Nat.add_zero]

/-- The next token is a blank, or there is none, if and only if the rest of the text starts so without its
leading line breaks. -/
lemma isSpaced_next? (h : SourceFile.parse source = .ok file) (ht : file.table.tokens[number]? = some t)
    (hrest : file.HasRest source number rest) :
    isSpaced (file.table.next? t) = (rest.toList.dropWhile Text.isBreak).head?.all Lexeme.isGap := by
  obtain ⟨-, -, after, htells, -, hchars, hnext, -⟩ := hrest.exists_after h ht
  have hspaces := congrArg (Option.all fun p : Kind × Nat => p.1 = .whitespace) hnext
  rw [Option.all_map, Option.all_map] at hspaces
  rw [isSpaced_eq, hchars, ← Lexeme.all_afterBreaks? htells]
  exact hspaces

/-- After a separator the next token is a blank or stands on a later line, or there is none, if and only if
the rest of the text is empty or starts with a blank or a line break. -/
lemma isSpaced_or_later_next? (h : SourceFile.parse source = .ok file)
    (ht : file.table.tokens[number]? = some t) (hkind : t.kind.isSeparator = true)
    (hrest : file.HasRest source number rest) :
    (isSpaced (file.table.next? t) || (file.table.next? t).any fun next => t.line < next.line) =
      rest.toList.head?.all fun c => Lexeme.isGap c || Text.isBreak c := by
  obtain ⟨offset, line, after, htells, hplaced, hchars, hnext, hline⟩ := hrest.exists_after h ht
  obtain rfl := hline hkind
  have hspaces := congrArg (Option.all fun p : Kind × Nat => p.1 = .whitespace) hnext
  have hlater := congrArg (Option.any fun p : Kind × Nat => t.line < p.2) hnext
  rw [Option.all_map, Option.all_map] at hspaces
  rw [Option.any_map, Option.any_map] at hlater
  rw [isSpaced_eq, hchars, ← Lexeme.all_or_any_afterBreaks? htells hplaced]
  exact congrArg₂ or hspaces hlater

/-! ## The rules -/

/-- A separator is known to be what it is. -/
lemma classification_of_isSeparator (h : SourceFile.parse source = .ok file)
    (ht : file.table.tokens[number]? = some t) (hkind : t.kind.isSeparator = true) :
    t.isCode = true ∧
      ∃ c, file.model.classification t.number = .ok c ∧ c.role = Role.ofKind t.kind := by
  have hcode : t.isCode = true := by
    cases hcase : t.kind <;>
      simp_all [Kind.isSeparator, Token.isCode, Token.channel, Kind.channel]
  obtain ⟨ls, trees, b, hfrom⟩ := comesFrom_of_parse h
  obtain ⟨path, l, hl, hplace, -, hclass⟩ := hfrom.exists_word ht hcode
  rw [(covers_of_parse h).numbers number t ht]
  refine ⟨hcode, _, hclass, ?_⟩
  rw [role_reading_of_isSeparator hfrom.parse hplace (by rwa [hl]), hl]

/-- A comma is judged by the next token. -/
lemma judgeToken_of_comma (h : SourceFile.parse source = .ok file) (settings : Settings)
    (ht : file.table.tokens[number]? = some t) (hkind : t.kind = .comma) :
    file.judgeToken settings number = .ok ⟨number, .code (.comma (isSpaced (file.table.next? t))),
      isSpaced (file.table.next? t)⟩ := by
  obtain ⟨hcode, c, hc, hrole⟩ := classification_of_isSeparator h ht (by rw [hkind]; rfl)
  have hjudge : file.judgeCode settings t = .ok (.comma (isSpaced (file.table.next? t))) := by
    simp [judgeCode, hc, hrole, hkind, Role.ofKind, Role.isDeclaredName, Role.isTypeName, bind,
      Except.bind, pure, Except.pure]
  exact judgeToken_of_judgeCode ht hcode hjudge

/-- A semicolon is judged by the next token. -/
lemma judgeToken_of_semi (h : SourceFile.parse source = .ok file) (settings : Settings)
    (ht : file.table.tokens[number]? = some t) (hkind : t.kind = .semi) :
    file.judgeToken settings number =
      .ok ⟨number, .code (file.judgeSemicolon t), (file.judgeSemicolon t).isFine⟩ := by
  obtain ⟨hcode, c, hc, hrole⟩ := classification_of_isSeparator h ht (by rw [hkind]; rfl)
  have hjudge : file.judgeCode settings t = .ok (file.judgeSemicolon t) := by
    simp [judgeCode, hc, hrole, hkind, Role.ofKind, Role.isDeclaredName, Role.isTypeName, bind,
      Except.bind, pure, Except.pure]
  exact judgeToken_of_judgeCode ht hcode hjudge

/-- A token that is judged as an operator is the first part of a run. -/
lemma exists_run_of_judgeToken (h : SourceFile.parse source = .ok file) {o : TokenOutcome}
    (ho : file.judgeToken settings number = .ok o) {spacedBefore spacedAfter : Bool}
    (hruling : o.ruling = .code (.lowOperator spacedBefore spacedAfter)) :
    ∃ first rest, first :: rest ∈ file.operatorRuns ∧ first.number = number := by
  obtain ⟨t, ht, hjudge⟩ := exists_of_bind_eq_ok ho
  have htoken := ruling_of_judgeToken ht ho
  rw [hruling] at htoken
  have hoperator := isLowOperator_of_judgeCode (judgeCode_of_ruling htoken)
  have hmem := mem_operators_of_getElem? h (LineTable.token_eq_ok_iff.1 ht) hoperator
  rw [← List.flatten_splitBy Token.touches file.operators] at hmem
  obtain ⟨run, hrun, hin⟩ := List.mem_flatten.1 hmem
  have hisRun := isRun_of_mem_operatorRuns h hrun
  obtain ⟨first, rest, rfl⟩ := List.exists_cons_of_ne_nil hisRun.nonempty
  refine ⟨first, rest, hrun, ?_⟩
  rcases List.mem_cons.1 hin with rfl | hin
  · exact (covers_of_parse h).numbers number t (LineTable.token_eq_ok_iff.1 ht)
  · have hcode := judgeCode_of_ruling htoken
    rw [judgeCode_of_isLowOperator hoperator, hisRun.judgeOperator_rest h hin] at hcode
    cases Except.ok.inj hcode

end SourceFile

/-- The rules about the space after commas, semicolons and operators can be read off the text.  Every
token has its place in the source text.  After a comma, and after the last part of an operator, the text
without its leading line breaks is empty or starts with a blank; after a semicolon the text itself is empty
or starts with a blank or a line break. -/
theorem spacing_is_read_off_text {source : String} {file : SourceFile}
    (h : SourceFile.parse source = .ok file) (settings : Settings) :
    (∀ number < file.table.count, ∃! rest, file.HasRest source number rest) ∧
    (∀ number t rest, file.table.token number = .ok t → file.HasRest source number rest →
      let spaced := (rest.toList.dropWhile Text.isBreak).head?.all Lexeme.isGap
      let ended := rest.toList.head?.all fun c => Lexeme.isGap c || Text.isBreak c
      (t.kind = .comma → file.judgeToken settings number = .ok ⟨number, .code (.comma spaced), spaced⟩) ∧
      (t.kind = .semi →
        file.judgeToken settings number = .ok ⟨number, .code (.semicolon ended), ended⟩) ∧
      ∀ run ∈ file.operatorRuns, run.getLast? = some t → ∃ first spacedBefore, run.head? = some first ∧
        file.judgeToken settings first.number = .ok ⟨first.number,
          .code (.lowOperator spacedBefore spaced), spacedBefore && spaced⟩) ∧
    ∀ number o, file.judgeToken settings number = .ok o → ∀ spacedBefore spacedAfter,
      o.ruling = .code (.lowOperator spacedBefore spacedAfter) →
      ∃ first rest, first :: rest ∈ file.operatorRuns ∧ first.number = number := by
  refine ⟨fun number => SourceFile.existsUnique_rest h, fun number t rest ht hrest => ?_,
    fun number o ho _ _ hruling => SourceFile.exists_run_of_judgeToken h ho hruling⟩
  rw [LineTable.token_eq_ok_iff] at ht
  have hspaced := SourceFile.isSpaced_next? h ht hrest
  refine ⟨fun hkind => ?_, fun hkind => ?_, fun run hrun hlast => ?_⟩
  · rw [← hspaced]
    exact SourceFile.judgeToken_of_comma h settings ht hkind
  · have hended := SourceFile.isSpaced_or_later_next? h ht (by rw [hkind]; rfl) hrest
    rw [← hended]
    exact SourceFile.judgeToken_of_semi h settings ht hkind
  · have hisRun := SourceFile.isRun_of_mem_operatorRuns h hrun
    obtain ⟨first, parts, rfl⟩ := List.exists_cons_of_ne_nil hisRun.nonempty
    have hafter : file.afterRun? (first :: parts) = file.table.next? t := by
      rw [SourceFile.next?_of_parse h ht, SourceFile.afterRun?, hlast, Option.bind_some,
        (SourceFile.covers_of_parse h).numbers number t ht]
    refine ⟨first, isSpaced (file.beforeRun? (first :: parts)), rfl, ?_⟩
    rw [SourceFile.judgeToken_of_mem_operators h settings (hisRun.operators first (by simp)),
      hisRun.judgeOperator_first h, hafter, hspaced]
    rfl

/-- A comma and a semicolon at the ends of lines, where the next line starts with a blank and without one,
and an operator without spaces. -/
theorem spacing_of_broken_lines :
    ∃ file, SourceFile.parse "class A\x7bint a,\n b=1;\n\x7d" = .ok file ∧
      file.HasRest "class A\x7bint a,\n b=1;\n\x7d" 7 "\n b=1;\n\x7d" ∧
      file.judgeToken {} 7 = .ok ⟨7, .code (.comma true), true⟩ ∧
      file.HasRest "class A\x7bint a,\n b=1;\n\x7d" 10 "1;\n\x7d" ∧
      (∃ spacedBefore, file.judgeToken {} 10 =
        .ok ⟨10, .code (.lowOperator spacedBefore false), spacedBefore && false⟩) ∧
      file.HasRest "class A\x7bint a,\n b=1;\n\x7d" 12 "\n\x7d" ∧
      file.judgeToken {} 12 = .ok ⟨12, .code (.semicolon true), true⟩ := by
  have hread : ((SourceFile.parse "class A\x7bint a,\n b=1;\n\x7d").toOption.bind fun file =>
      (file.table.token 7).toOption.bind fun comma => (file.table.token 10).toOption.bind fun operator =>
        (file.table.token 12).toOption.map fun semi =>
          ((comma.kind, semi.kind, operator.number, decide ([operator] ∈ file.operatorRuns)),
            file.table.ofLexeme? 7, file.table.ofLexeme? 11, file.table.ofLexeme? 13)) =
      some ((.comma, .semi, 10, true), some 7, some 10, some 12) := by
    decide +kernel
  have htexts : ((Lexeme.scan "class A\x7bint a,\n b=1;\n\x7d").toOption.map fun ls =>
      (ls.length, String.join ((ls.drop 8).map Lexeme.text),
        String.join ((ls.drop 12).map Lexeme.text), String.join ((ls.drop 14).map Lexeme.text))) =
      some (16, "\n b=1;\n\x7d", "1;\n\x7d", "\n\x7d") := by
    decide +kernel
  obtain ⟨file, hfile, hread⟩ := Option.bind_eq_some_iff.1 hread
  obtain ⟨comma, hcomma, hread⟩ := Option.bind_eq_some_iff.1 hread
  obtain ⟨operator, hoperator, hread⟩ := Option.bind_eq_some_iff.1 hread
  obtain ⟨semi, hsemi, hread⟩ := Option.map_eq_some_iff.1 hread
  obtain ⟨ls, hscan, htexts⟩ := Option.map_eq_some_iff.1 htexts
  rw [toOption_eq_some_iff] at hfile hcomma hoperator hsemi hscan
  simp only [Prod.mk.injEq, decide_eq_true_eq] at hread htexts
  obtain ⟨⟨hcommaKind, hsemiKind, hnumber, hrun⟩, hcommaEntry, hoperatorEntry, hsemiEntry⟩ := hread
  obtain ⟨hlength, hcommaText, hoperatorText, hsemiText⟩ := htexts
  have hcommaRest := hcommaText ▸ SourceFile.hasRest_of_scan hscan (by omega) hcommaEntry
  have hoperatorRest := hoperatorText ▸ SourceFile.hasRest_of_scan hscan (by omega) hoperatorEntry
  have hsemiRest := hsemiText ▸ SourceFile.hasRest_of_scan hscan (by omega) hsemiEntry
  obtain ⟨-, hjudged, -⟩ := spacing_is_read_off_text hfile {}
  obtain ⟨first, spacedBefore, hfirst, hoperatorJudged⟩ :=
    (hjudged 10 operator _ hoperator hoperatorRest).2.2 _ hrun rfl
  obtain rfl := Option.some.inj hfirst
  rw [hnumber] at hoperatorJudged
  exact ⟨file, hfile, hcommaRest, (hjudged 7 comma _ hcomma hcommaRest).1 hcommaKind, hoperatorRest,
    ⟨spacedBefore, hoperatorJudged⟩, hsemiRest, (hjudged 12 semi _ hsemi hsemiRest).2.1 hsemiKind⟩

end JavaLint
