import JavaLint.Proofs.Lexeme.Trivia
import JavaLint.Proofs.Text.Columns
import JavaLint.Proofs.Token.LineTable
import Mathlib.Tactic.Common

/-!
# What a line table knows of the widths of lines

The table of a text finds the width of a line from its last token, or from the end of a token of an
earlier line.  While it is filled, `Filling.widthOf` is the width that it has found so far for a line, be
it finished or not.  Finishing a line does not change this (`widthOf_breakLine`), and a token changes it
for the lines on which it starts and ends, so `Measures` can say what is true of it after any number of
lexemes.

Two kinds of lines are overlooked: those inside a token, which count as empty, and those after the start
of the last token, which are not in the table at all.  All others have their width
(`lt_lineWidth_iff`).
-/

namespace JavaLint

open Text (IsCleanCut breaks columnAfter widthOfLine)

/-! ## Lexemes -/

namespace Lexeme

/-- Blanks consist of blanks, and a line break is one of three texts. -/
def IsMeasured (l : Lexeme) : Prop :=
  (l.kind = .whitespace → ∀ c ∈ l.text.toList, isGap c = true) ∧
    (l.kind = .newline → l.text.toList ∈ [['\n'], ['\r'], ['\r', '\n']])

/-- The lexemes of a source text are measured. -/
lemma isMeasured_of_scan {source : String} {ls : List Lexeme} (h : scan source = .ok ls) :
    ∀ l ∈ ls, l.IsMeasured :=
  forall_mem_scanFrom (P := fun kind text => (kind = .whitespace → ∀ c ∈ text, isGap c = true) ∧
    (kind = .newline → text ∈ [['\n'], ['\r'], ['\r', '\n']])) (fun _ _ _ _ => next_blank) h

/-- The line lies inside one of the lexemes: after the line on which it starts and before the line on
which it ends. -/
def IsInside (ls : List Lexeme) (n : Nat) : Prop :=
  ∃ l ∈ ls, l.line < n ∧ n < l.line + breaks l.text.toList

/-- The line lies inside a lexeme, or after the start of the last lexeme that is no line break. -/
def IsOverlooked (ls : List Lexeme) (n : Nat) : Prop :=
  IsInside ls n ∨ ∀ l ∈ ls, l.kind ≠ .newline → l.line < n

instance (ls : List Lexeme) (n : Nat) : Decidable (IsOverlooked ls n) :=
  inferInstanceAs (Decidable ((∃ l ∈ ls, l.line < n ∧ n < l.line + breaks l.text.toList) ∨
    ∀ l ∈ ls, l.kind ≠ .newline → l.line < n))

/-- There is no line with the number zero. -/
lemma IsInside.pos {ls : List Lexeme} {n : Nat} (h : IsInside ls n) : 0 < n := by
  obtain ⟨l, -, hfirst, -⟩ := h
  omega

/-- Lines inside lexemes come before the line on which the last lexeme ends. -/
lemma IsInside.lt {offset line n : Nat} {ls : List Lexeme} (h : IsInside ls n)
    (hplaced : IsPlaced offset line ls) : n < line + breaks (chars ls) := by
  induction ls generalizing offset line with
  | nil => simp [IsInside] at h
  | cons m ls ih =>
    obtain ⟨-, -, hline, hcut, hrest⟩ := hplaced
    rw [chars_cons, Text.breaks_append _ _ hcut]
    obtain ⟨l, hl, hfirst, hlast⟩ := h
    rcases List.mem_cons.1 hl with rfl | hl
    · omega
    · have hlt := ih ⟨l, hl, hfirst, hlast⟩ hrest
      omega

/-- A line lies inside some lexemes and one more if it lies inside the former or inside the latter. -/
lemma isInside_concat {ls : List Lexeme} {l : Lexeme} {n : Nat} : IsInside (ls ++ [l]) n ↔
    IsInside ls n ∨ l.line < n ∧ n < l.line + breaks l.text.toList := by
  simp [IsInside, or_and_right, exists_or]

/-- The last of some placed lexemes starts where those before it end, after a clean cut. -/
lemma IsPlaced.last {ls : List Lexeme} {l : Lexeme} (h : IsPlaced 0 1 (ls ++ [l])) :
    l.line = 1 + breaks (chars ls) ∧ IsCleanCut (chars ls) l.text.toList := by
  have hcut := h.isCleanCut
  simp only [chars_cons, chars_nil, List.append_nil] at hcut
  exact ⟨h.place.2.1, hcut⟩

/-- A blank takes the same room, whether only blanks take room or not. -/
lemma width_of_isGap {cs : List Char} (h : ∀ c ∈ cs, isGap c = true) (column : Nat) :
    Text.width 0 column cs = Text.width 1 column cs := by
  induction cs generalizing column with
  | nil => rfl
  | cons c cs ih =>
    obtain ⟨hc, hcs⟩ := List.forall_mem_cons.1 h
    have hwidth : Text.charWidth 0 column c = Text.charWidth 1 column c := by
      have hcases : c = ' ' ∨ c = '\t' ∨ c = '\x0c' := by
        simpa [isGap, or_assoc] using hc
      rcases hcases with rfl | rfl | rfl <;> rfl
    rw [Text.width, Text.width, hwidth, ih hcs]

/-- The visual width of a lexeme is the room that its text takes. -/
lemma IsMeasured.visualWidth_eq {l : Lexeme} (h : l.IsMeasured) {channel : Channel}
    (hchannel : l.channel = some channel) (column : Nat) :
    visualWidth l.text channel column = Text.width 1 column l.text.toList := by
  unfold visualWidth
  split
  · rename_i hspace
    subst hspace
    have hkind : l.kind = .whitespace := by
      cases hkind : l.kind <;> simp_all [channel, Kind.channel]
    exact width_of_isGap (h.1 hkind) column
  · rfl

/-- A lexeme that ends on a later line is no blank. -/
lemma IsMeasured.channel_ne {l : Lexeme} (h : l.IsMeasured) (hbreaks : breaks l.text.toList ≠ 0) :
    l.channel ≠ some .whitespace := by
  intro hchannel
  have hkind : l.kind = .whitespace := by
    cases hkind : l.kind <;> simp_all [channel, Kind.channel]
  apply hbreaks
  rw [Text.breaks_eq_zero_iff]
  intro c hc
  exact Text.isBreak_eq_false_of_test rfl rfl c (h.1 hkind c hc)

end Lexeme

/-! ## Filling the table -/

namespace LineTable

namespace Filling

variable {f : Filling} {ls : List Lexeme} {l : Lexeme} {n : Nat}

/-- The width that has been found so far for a line: a finished one, that at hand, or a later one. -/
def widthOf (f : Filling) (n : Nat) : Nat :=
  if n < f.line then f.table.lineWidth n
  else if n = f.line then f.column
  else f.startColumn n

/-- The width of a finished line is that in the table. -/
lemma widthOf_of_lt (h : n < f.line) : f.widthOf n = f.table.lineWidth n := by
  rw [widthOf, if_pos h]

/-- The width of the line at hand is the next column. -/
lemma widthOf_line (f : Filling) : f.widthOf f.line = f.column := by
  rw [widthOf, if_neg (Nat.lt_irrefl _), if_pos rfl]

/-- The width of a later line is the column at which it will start. -/
lemma widthOf_of_gt (h : f.line < n) : f.widthOf n = f.startColumn n := by
  rw [widthOf, if_neg (by omega), if_neg (by omega)]

/-- There is a row for each finished line, and the next column comes after the last token of the line
at hand. -/
structure IsTidy (f : Filling) : Prop where
  rows : f.table.rows.size + 1 = f.line
  carried : f.table.carried.size + 1 = f.line
  column : f.column = (f.row.back?.map Token.endColumn).getD f.lineStart

/-- The width of a line with a number that is not zero. -/
lemma lineWidth_succ (t : LineTable) (n : Nat) :
    t.lineWidth (n + 1) = (((t.rows[n]?).getD #[]).back?.map Token.endColumn).getD
      ((t.carried[n]?).getD 0) := by
  rw [lineWidth, lineTokens]
  cases ((t.rows[n]?).getD #[]).back? <;> rfl

/-- Finishing a line keeps order. -/
lemma IsTidy.breakLine (h : f.IsTidy) : f.breakLine.IsTidy where
  rows := by simp [Filling.breakLine, h.rows]
  carried := by simp [Filling.breakLine, h.carried]
  column := rfl

/-- The width of a line does not depend on whether the line is finished. -/
lemma IsTidy.widthOf_breakLine (h : f.IsTidy) (hpos : 0 < n) :
    f.breakLine.widthOf n = f.widthOf n := by
  obtain ⟨k, rfl⟩ : ∃ k, n = k + 1 := ⟨n - 1, by omega⟩
  have hrows := h.rows
  have hcarried := h.carried
  have hline : f.breakLine.line = f.line + 1 := rfl
  rcases Nat.lt_trichotomy (k + 1) f.line with hlt | heq | hgt
  · -- The line was finished before.
    have hrow : (f.table.rows.push f.row)[k]? = f.table.rows[k]? := by
      rw [Array.getElem?_push, if_neg (by omega)]
    have hstart : (f.table.carried.push f.lineStart)[k]? = f.table.carried[k]? := by
      rw [Array.getElem?_push, if_neg (by omega)]
    rw [widthOf_of_lt hlt, widthOf_of_lt (by omega), lineWidth_succ, lineWidth_succ]
    simp only [Filling.breakLine, hrow, hstart]
  · -- The line is finished now.
    have hrow : (f.table.rows.push f.row)[k]? = some f.row := by
      rw [Array.getElem?_push, if_pos (by omega)]
    have hstart : (f.table.carried.push f.lineStart)[k]? = some f.lineStart := by
      rw [Array.getElem?_push, if_pos (by omega)]
    have hcolumn : f.widthOf (k + 1) = f.column := heq ▸ f.widthOf_line
    rw [hcolumn, widthOf_of_lt (by omega), lineWidth_succ, h.column]
    simp only [Filling.breakLine, hrow, hstart, Option.getD_some]
  · rw [widthOf_of_gt hgt]
    rcases Nat.eq_or_lt_of_le hgt with heq | hgt'
    · have hcolumn : f.breakLine.widthOf (k + 1) = f.breakLine.column := by
        rw [← heq]
        exact f.breakLine.widthOf_line
      rw [hcolumn, ← heq]
      rfl
    · rw [widthOf_of_gt (by omega)]
      rfl

/-- Finishing any number of lines changes no width, and goes on by so many lines. -/
lemma IsTidy.breakLines (h : f.IsTidy) (m : Nat) :
    (f.breakLines m).IsTidy ∧ (f.breakLines m).line = f.line + m ∧
      ∀ n, 0 < n → (f.breakLines m).widthOf n = f.widthOf n := by
  induction m generalizing f with
  | zero => exact ⟨h, rfl, fun _ _ => rfl⟩
  | succ m ih =>
    obtain ⟨htidy, hline, hwidth⟩ := ih h.breakLine
    refine ⟨htidy, ?_, fun n hn => (hwidth n hn).trans (h.widthOf_breakLine hn)⟩
    rw [Filling.breakLines, hline]
    change f.line + 1 + m = f.line + (m + 1)
    omega

/-- Putting a token keeps order. -/
lemma IsTidy.put (h : f.IsTidy) (l : Lexeme) (channel : Channel) : (f.put l channel).IsTidy where
  rows := h.rows
  carried := h.carried
  column := by simp [Filling.put]

/-- A token does not change the lines before its own. -/
lemma widthOf_put_of_lt {channel : Channel} (hn : n < f.line) :
    (f.put l channel).widthOf n = f.widthOf n := by
  have hline : (f.put l channel).line = f.line := rfl
  rw [widthOf_of_lt (hline ▸ hn), widthOf_of_lt hn]
  rfl

/-- A token takes room on its own line. -/
lemma widthOf_put_line (hmeasured : l.IsMeasured) {channel : Channel}
    (hchannel : l.channel = some channel) :
    (f.put l channel).widthOf f.line = f.column + Text.width 1 f.column l.text.toList := by
  rw [← hmeasured.visualWidth_eq hchannel]
  exact widthOf_line _

/-- A token without line breaks does not change the lines after its own. -/
lemma widthOf_put_of_breaks {channel : Channel} (hn : f.line < n)
    (hbreaks : breaks l.text.toList = 0) : (f.put l channel).widthOf n = f.widthOf n := by
  have hline : (f.put l channel).line = f.line := rfl
  rw [widthOf_of_gt (hline ▸ hn), widthOf_of_gt hn]
  simp [Filling.put, startColumn, resumeAfter, hbreaks]

/-- A token with line breaks takes room on the line on which it ends, and on no other after its own. -/
lemma widthOf_put_of_gt (hmeasured : l.IsMeasured) {channel : Channel}
    (hchannel : l.channel = some channel) (hn : f.line < n) (hbreaks : breaks l.text.toList ≠ 0) :
    (f.put l channel).widthOf n =
      if l.line + breaks l.text.toList = n then Text.width 1 0 (Text.lastLine l.text.toList)
      else 0 := by
  have hline : (f.put l channel).line = f.line := rfl
  have hno : channel ≠ .whitespace := fun heq => hmeasured.channel_ne hbreaks (heq ▸ hchannel)
  rw [widthOf_of_gt (hline ▸ hn)]
  simp [Filling.put, startColumn, resumeAfter, hbreaks, visualWidth, hno]

/-! ## Measuring -/

/-- What a table that is being filled knows of the widths of the lines of the lexemes so far. -/
structure Measures (f : Filling) (ls : List Lexeme) : Prop where
  tidy : f.IsTidy
  /-- The line at hand is one of the lines so far. -/
  line_le : f.line ≤ 1 + breaks (Lexeme.chars ls)
  /-- No token starts after the line at hand. -/
  tokens : ∀ l ∈ ls, l.hasToken = true → l.line ≤ f.line
  /-- Lines inside a token count as empty. -/
  inside : ∀ n, Lexeme.IsInside ls n → f.widthOf n = 0
  /-- All other lines have their width. -/
  widths : ∀ n, 0 < n → ¬ Lexeme.IsInside ls n → f.widthOf n = widthOfLine (Lexeme.chars ls) n

/-- A token starts on the line at hand, or there are none so far. -/
def IsAtToken (f : Filling) (ls : List Lexeme) : Prop :=
  f.line = 1 ∧ f.column = 0 ∨ ∃ l ∈ ls, l.hasToken = true ∧ l.line = f.line

/-- Nothing is on no lines. -/
lemma Measures.nil : Measures {} [] where
  tidy := ⟨rfl, rfl, rfl⟩
  line_le := Nat.le_refl 1
  tokens := by simp
  inside := by simp [Lexeme.IsInside]
  widths := by
    intro n hn _
    obtain ⟨k, rfl⟩ : ∃ k, n = k + 1 := ⟨n - 1, by omega⟩
    cases k <;> rfl

/-- Finishing lines, up to that on which the next lexeme starts. -/
lemma Measures.breakLines (h : f.Measures ls) {m : Nat}
    (hm : f.line + m ≤ 1 + breaks (Lexeme.chars ls)) : (f.breakLines m).Measures ls := by
  obtain ⟨htidy, hline, hwidth⟩ := h.tidy.breakLines m
  refine ⟨htidy, by omega, ?_, ?_, ?_⟩
  · intro l hl htoken
    have hle := h.tokens l hl htoken
    omega
  · intro n hn
    rw [hwidth n hn.pos, h.inside n hn]
  · intro n hpos hn
    rw [hwidth n hpos, h.widths n hpos hn]

/-- Passing over a line break. -/
lemma Measures.skip (h : f.Measures ls) (hplaced : Lexeme.IsPlaced 0 1 (ls ++ [l]))
    (hmeasured : l.IsMeasured) (hkind : l.kind = .newline) : f.skip.Measures (ls ++ [l]) := by
  obtain ⟨-, hcut⟩ := hplaced.last
  have htext := hmeasured.2 hkind
  have htoken : l.hasToken = false := by simp [Lexeme.hasToken, Lexeme.channel, hkind, Kind.channel]
  have hchars : Lexeme.chars (ls ++ [l]) = Lexeme.chars ls ++ l.text.toList := by simp
  have hinside (n : Nat) : Lexeme.IsInside (ls ++ [l]) n ↔ Lexeme.IsInside ls n := by
    have hbreaks := Text.breaks_of_lineBreak htext
    rw [Lexeme.isInside_concat, or_iff_left (by omega)]
  have hwidth (n : Nat) : f.skip.widthOf n = f.widthOf n := rfl
  refine ⟨{ h.tidy with }, ?_, ?_, ?_, ?_⟩
  · rw [hchars, Text.breaks_append _ _ hcut, ← Nat.add_assoc]
    exact Nat.le_add_right_of_le h.line_le
  · intro m hm hmtoken
    rcases List.mem_append.1 hm with hm | hm
    · exact h.tokens m hm hmtoken
    · rw [List.mem_singleton.1 hm, htoken] at hmtoken
      cases hmtoken
  · intro n hn
    exact h.inside n ((hinside n).1 hn)
  · intro n hpos hn
    rw [hwidth, h.widths n hpos (fun hno => hn ((hinside n).2 hno)), hchars,
      Text.widthOfLine_append_lineBreak hcut htext hpos]

/-- The next token starts after what the lexemes so far take on its line. -/
lemma Measures.column_eq (h : f.Measures ls) (hplaced : Lexeme.IsPlaced 0 1 (ls ++ [l]))
    (hline : f.line = l.line) : f.column = columnAfter 0 (Lexeme.chars ls) := by
  obtain ⟨hlast, -⟩ := hplaced.last
  have houtside : ¬ Lexeme.IsInside ls f.line := fun hinside => by
    have hlt := hinside.lt hplaced.left
    omega
  rw [← f.widthOf_line, h.widths _ (by omega) houtside, hline, hlast, Text.widthOfLine_last]

/-- After a token has been put, all lines have their width that lie inside no lexeme. -/
lemma Measures.widthOf_put (h : f.Measures ls) (hplaced : Lexeme.IsPlaced 0 1 (ls ++ [l]))
    (hmeasured : l.IsMeasured) {channel : Channel} (hchannel : l.channel = some channel)
    (hline : f.line = l.line) (hpos : 0 < n) (hn : ¬ Lexeme.IsInside (ls ++ [l]) n) :
    (f.put l channel).widthOf n = widthOfLine (Lexeme.chars ls ++ l.text.toList) n := by
  obtain ⟨hlast, hcut⟩ := hplaced.last
  rw [Lexeme.isInside_concat, not_or] at hn
  obtain ⟨hbefore, hnew⟩ := hn
  rcases Nat.lt_trichotomy n f.line with hlt | rfl | hgt
  · rw [widthOf_put_of_lt hlt, h.widths n hpos hbefore,
      Text.widthOfLine_append_of_lt hcut hpos (by omega)]
  · rw [widthOf_put_line hmeasured hchannel, h.column_eq hplaced hline, hline, hlast,
      Text.widthOfLine_append_last hcut]
  · by_cases hbreaks : breaks l.text.toList = 0
    · rw [widthOf_put_of_breaks hgt hbreaks, h.widths n hpos hbefore,
        Text.widthOfLine_eq_zero (by omega), Text.widthOfLine_eq_zero]
      rw [Text.breaks_append _ _ hcut]
      omega
    · rw [widthOf_put_of_gt hmeasured hchannel hgt hbreaks]
      split
      · rename_i hend
        rw [← hend, hlast, Text.widthOfLine_append_end hcut hbreaks]
      · rw [Text.widthOfLine_eq_zero]
        rw [Text.breaks_append _ _ hcut]
        omega

/-- Putting a token on the line on which it starts. -/
lemma Measures.put (h : f.Measures ls) (hplaced : Lexeme.IsPlaced 0 1 (ls ++ [l]))
    (hmeasured : l.IsMeasured) {channel : Channel} (hchannel : l.channel = some channel)
    (hline : f.line = l.line) : (f.put l channel).Measures (ls ++ [l]) := by
  obtain ⟨hlast, hcut⟩ := hplaced.last
  have hput : (f.put l channel).line = f.line := rfl
  have hchars : Lexeme.chars (ls ++ [l]) = Lexeme.chars ls ++ l.text.toList := by simp
  refine ⟨h.tidy.put l channel, ?_, ?_, ?_, ?_⟩
  · rw [hput, hchars, Text.breaks_append _ _ hcut]
    omega
  · intro m hm hmtoken
    rcases List.mem_append.1 hm with hm | hm
    · exact h.tokens m hm hmtoken
    · rw [List.mem_singleton.1 hm, hput, hline]
  · intro n hn
    rcases Lexeme.isInside_concat.1 hn with hinside | ⟨hfirst, hend⟩
    · have hlt := hinside.lt hplaced.left
      rw [widthOf_put_of_lt (by omega), h.inside n hinside]
    · rw [widthOf_put_of_gt hmeasured hchannel (by omega) (by omega), if_neg (by omega)]
  · intro n hpos hn
    rw [hchars, h.widthOf_put hplaced hmeasured hchannel hline hpos hn]

/-- Taking in the next lexeme. -/
lemma Measures.add (h : f.Measures ls) (htoken : f.IsAtToken ls)
    (hplaced : Lexeme.IsPlaced 0 1 (ls ++ [l])) (hmeasured : l.IsMeasured) :
    (f.add l).Measures (ls ++ [l]) ∧ (f.add l).IsAtToken (ls ++ [l]) := by
  have htext : l.text ≠ "" := hplaced.text_ne_empty l (by simp)
  unfold Filling.add
  split
  · rename_i hchannel
    have hkind : l.kind = .newline := by
      cases hkind : l.kind <;> simp_all [Lexeme.channel, Kind.channel]
    refine ⟨h.skip hplaced hmeasured hkind, htoken.imp_right ?_⟩
    rintro ⟨m, hm, hmtoken⟩
    exact ⟨m, List.mem_append_left _ hm, hmtoken⟩
  · rename_i channel hchannel
    rw [if_neg (by simpa using htext)]
    have hle := h.line_le
    have hlast := hplaced.last.1
    have hline : (f.breakLines (l.line - f.line)).line = l.line := by
      rw [(h.tidy.breakLines _).2.1]
      omega
    refine ⟨(h.breakLines (by omega)).put hplaced hmeasured hchannel hline, .inr ⟨l, by simp, ?_, ?_⟩⟩
    · simp [Lexeme.hasToken, hchannel, htext]
    · exact hline.symm

/-- Taking in one lexeme after the other. -/
lemma Measures.foldl_add {done : List Lexeme} (h : f.Measures done) (htoken : f.IsAtToken done)
    (hplaced : Lexeme.IsPlaced 0 1 (done ++ ls)) (hmeasured : ∀ l ∈ ls, l.IsMeasured) :
    (ls.foldl Filling.add f).Measures (done ++ ls) ∧
      (ls.foldl Filling.add f).IsAtToken (done ++ ls) := by
  induction ls generalizing f done with
  | nil => simpa using And.intro h htoken
  | cons l ls ih =>
    obtain ⟨hl, hls⟩ := List.forall_mem_cons.1 hmeasured
    have hsplit : done ++ l :: ls = done ++ [l] ++ ls := by simp
    rw [hsplit] at hplaced ⊢
    obtain ⟨hnext, hnextToken⟩ := h.add htoken hplaced.left hl
    exact ih hnext hnextToken hplaced hls

/-- Up to the line at hand, those lines have a width that are not overlooked. -/
lemma Measures.lt_widthOf_iff (h : f.Measures ls) (htoken : f.IsAtToken ls)
    (htext : ∀ l ∈ ls, l.text ≠ "") (hpos : 0 < n) {bound : Nat} :
    n ≤ f.line ∧ bound < f.widthOf n ↔
      ¬ Lexeme.IsOverlooked ls n ∧ bound < widthOfLine (Lexeme.chars ls) n := by
  rw [Lexeme.IsOverlooked, not_or]
  by_cases hinside : Lexeme.IsInside ls n
  · simp [hinside, h.inside n hinside]
  rw [h.widths n hpos hinside]
  simp only [hinside, not_false_iff, true_and]
  refine and_congr_left fun hlt => ?_
  constructor
  · intro hn hlast
    rcases htoken with ⟨hline, hcolumn⟩ | ⟨l, hl, hltoken, hline⟩
    · -- There are no tokens, so there is nothing on the first line.
      obtain rfl : n = f.line := by omega
      rw [← h.widths _ hpos hinside, widthOf_line, hcolumn] at hlt
      exact Nat.not_lt_zero _ hlt
    · have hbefore := hlast l hl ((Lexeme.hasToken_iff (htext l hl)).1 hltoken)
      omega
  · intro hlast
    by_contra hn
    refine hlast fun l hl hkind => ?_
    have hle := h.tokens l hl ((Lexeme.hasToken_iff (htext l hl)).2 hkind)
    omega

end Filling

/-! ## The table of a file -/

/-- The table of a source text has the width of a line, unless the line is overlooked. -/
theorem lt_lineWidth_iff {source : String} {ls : List Lexeme} (h : Lexeme.scan source = .ok ls)
    {n bound : Nat} (hpos : 0 < n) :
    n ≤ (ofLexemes ls).rows.size ∧ bound < (ofLexemes ls).lineWidth n ↔
      ¬ Lexeme.IsOverlooked ls n ∧ bound < widthOfLine source.toList n := by
  obtain ⟨hchars, hplaced⟩ := Lexeme.scan_eq_ok h
  obtain ⟨hmeasures, htoken⟩ := Filling.Measures.nil.foldl_add (.inl ⟨rfl, rfl⟩) hplaced
    (Lexeme.isMeasured_of_scan h)
  rw [List.nil_append] at hmeasures htoken
  rw [← hchars, ← hmeasures.lt_widthOf_iff htoken hplaced.text_ne_empty hpos]
  have htable : ofLexemes ls = (ls.foldl Filling.add {}).breakLine.table := rfl
  rw [htable]
  generalize ls.foldl Filling.add {} = f at hmeasures
  have hrows : f.breakLine.table.rows.size = f.line := by
    rw [← hmeasures.tidy.rows]
    simp [Filling.breakLine]
  rw [hrows]
  refine and_congr_right fun hn => ?_
  have hline : n < f.breakLine.line := Nat.lt_succ_of_le hn
  rw [← Filling.widthOf_of_lt hline, hmeasures.tidy.widthOf_breakLine hpos]

end LineTable

end JavaLint
