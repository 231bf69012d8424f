import JavaLint.Proofs.LineEnds.Tree
import JavaLint.Token.LineTable
import Mathlib.Tactic.Common

/-!
# Lines and columns and the ends of lines

A `\r` before a `\n` takes no room on its line and ends no further line.  So the table of changed
lexemes has the same lines, columns and widths as before, and only the texts of its tokens are changed
(`ofLexemes_withCrlf`).  Whatever is looked up in the changed table is found where it was before.
-/

namespace JavaLint

variable (move : Nat → Nat)

/-- The token with its text changed. -/
def Token.withCrlf (t : Token) : Token :=
  { t with text := Text.withCrlf t.text }

/-- A changed token is code if it was before. -/
@[simp] lemma Token.isCode_withCrlf (t : Token) : t.withCrlf.isCode = t.isCode := rfl

/-- A changed token is whitespace if it was before. -/
@[simp] lemma Token.isSpace_withCrlf (t : Token) : t.withCrlf.isSpace = t.isSpace := rfl

/-- The table with the texts of its tokens changed. -/
def LineTable.withCrlf (t : LineTable) : LineTable :=
  { t with tokens := t.tokens.map .withCrlf, rows := t.rows.map (Array.map .withCrlf) }

/-- A changed text takes the same room. -/
lemma visualWidth_withCrlf (text : String) (channel : Channel) (column : Nat) :
    visualWidth (Text.withCrlf text) channel column = visualWidth text channel column := by
  rw [visualWidth, visualWidth, Text.toList_withCrlf, Text.width_crlf]

namespace LineTable

/-! ## Filling the table -/

namespace Filling

/-- The table that is being filled, with the texts of its tokens changed. -/
def withCrlf (f : Filling) : Filling :=
  { f with table := f.table.withCrlf, row := f.row.map .withCrlf }

/-- Finishing a line. -/
lemma breakLine_withCrlf (f : Filling) : f.withCrlf.breakLine = f.breakLine.withCrlf := by
  have hcolumn (line : Nat) : f.withCrlf.startColumn line = f.startColumn line := rfl
  unfold breakLine
  rw [hcolumn]
  simp [withCrlf, LineTable.withCrlf]

/-- Finishing lines. -/
lemma breakLines_withCrlf (n : Nat) (f : Filling) :
    f.withCrlf.breakLines n = (f.breakLines n).withCrlf := by
  induction n generalizing f with
  | zero => rfl
  | succ n ih => rw [breakLines, breakLines, breakLine_withCrlf, ih]

/-- A changed lexeme ends where it ended before. -/
lemma resumeAfter_withCrlf {l : Lexeme} (hl : '\r' ∉ l.text.toList) (channel : Channel) :
    resumeAfter (l.withCrlf move) channel = resumeAfter l channel := by
  simp [resumeAfter, Text.breaks_crlf hl, Text.lastLine_crlf]

/-- The token of a changed lexeme. -/
lemma place_withCrlf (f : Filling) (l : Lexeme) (channel : Channel) :
    f.withCrlf.place (l.withCrlf move) channel = (f.place l channel).withCrlf := by
  simp [place, withCrlf, LineTable.withCrlf, Token.withCrlf, visualWidth_withCrlf]

/-- Putting the token of a changed lexeme at the next place. -/
lemma put_withCrlf (f : Filling) {l : Lexeme} (hl : '\r' ∉ l.text.toList) (channel : Channel) :
    f.withCrlf.put (l.withCrlf move) channel = (f.put l channel).withCrlf := by
  unfold put
  rw [place_withCrlf, resumeAfter_withCrlf move hl]
  simp [withCrlf, LineTable.withCrlf, Token.withCrlf, Token.endColumn]

/-- Taking in a changed lexeme. -/
lemma add_withCrlf (f : Filling) {l : Lexeme} (hl : '\r' ∉ l.text.toList) :
    f.withCrlf.add (l.withCrlf move) = (f.add l).withCrlf := by
  have hchannel : (l.withCrlf move).channel = l.channel := rfl
  have hlines : f.withCrlf.breakLines ((l.withCrlf move).line - f.withCrlf.line) =
      (f.breakLines (l.line - f.line)).withCrlf := breakLines_withCrlf _ f
  unfold add
  rw [hchannel, Lexeme.text_withCrlf, Text.isEmpty_withCrlf, hlines]
  cases l.channel with
  | none => rfl
  | some channel =>
    dsimp only
    split
    · rfl
    · exact put_withCrlf move _ hl channel

end Filling

/-- The table of changed lexemes is the changed table, if no line ended with a `\r` before. -/
theorem ofLexemes_withCrlf {ls : List Lexeme} (h : ∀ l ∈ ls, '\r' ∉ l.text.toList) :
    ofLexemes (ls.map (.withCrlf move)) = (ofLexemes ls).withCrlf := by
  have hfold (f : Filling) : (ls.map (.withCrlf move)).foldl Filling.add f.withCrlf =
      (ls.foldl Filling.add f).withCrlf := by
    induction ls generalizing f with
    | nil => rfl
    | cons l ls ih =>
      obtain ⟨hl, hls⟩ := List.forall_mem_cons.1 h
      rw [List.map_cons, List.foldl_cons, List.foldl_cons, Filling.add_withCrlf move f hl]
      exact ih hls (f.add l)
  have hempty : Filling.withCrlf {} = {} := by simp [Filling.withCrlf, withCrlf]
  have hall := hfold {}
  rw [hempty] at hall
  rw [ofLexemes, ofLexemes, hall, Filling.finish, Filling.breakLine_withCrlf]
  rfl

/-! ## Looking things up -/

section Lookup

variable (t : LineTable) (token : Token) (line place : Nat)

/-- There are as many tokens as before. -/
@[simp] lemma count_withCrlf : t.withCrlf.count = t.count := by
  simp [count, withCrlf]

/-- There are as many lines as before. -/
@[simp] lemma size_rows_withCrlf : t.withCrlf.rows.size = t.rows.size := by
  simp [withCrlf]

/-- The tokens of a changed table. -/
@[simp] lemma getElem?_tokens_withCrlf (n : Nat) :
    t.withCrlf.tokens[n]? = t.tokens[n]?.map .withCrlf := by
  simp [withCrlf]

/-- The token with a number. -/
lemma token_withCrlf (n : Nat) : t.withCrlf.token n = (t.token n).map .withCrlf := by
  unfold LineTable.token
  rw [getElem?_tokens_withCrlf, count_withCrlf]
  cases t.tokens[n]? <;> rfl

/-- The tokens of a line. -/
lemma lineTokens_withCrlf : t.withCrlf.lineTokens line = (t.lineTokens line).map .withCrlf := by
  cases line with
  | zero => simp [lineTokens]
  | succ n =>
    simp only [lineTokens, withCrlf, Array.getElem?_map]
    cases t.rows[n]? <;> simp

/-- The token at a place of a line. -/
lemma atPlace?_withCrlf : t.withCrlf.atPlace? line place = (t.atPlace? line place).map .withCrlf := by
  simp [atPlace?, lineTokens_withCrlf]

/-- The token before a place of a line. -/
lemma before?_withCrlf : t.withCrlf.before? line place = (t.before? line place).map .withCrlf := by
  have hrows (n : Nat) : (t.withCrlf.rows.toList.take n).reverse.findSome? Array.back? =
      ((t.rows.toList.take n).reverse.findSome? Array.back?).map .withCrlf := by
    rw [withCrlf, Array.toList_map, ← List.map_take, ← List.map_reverse, List.findSome?_map,
      List.map_findSome?]
    congr 1
    funext row
    simp [Array.back?_map]
  cases line with
  | zero => rfl
  | succ row =>
    cases place with
    | zero =>
      simp only [before?, size_rows_withCrlf, hrows]
      split <;> rfl
    | succ place => exact atPlace?_withCrlf t (row + 1) place

/-- The token after a place of a line. -/
lemma after?_withCrlf : t.withCrlf.after? line place = (t.after? line place).map .withCrlf := by
  have hrows (n : Nat) :
      (t.withCrlf.rows.toList.drop n).findSome? (fun tokens => tokens[0]?) =
        ((t.rows.toList.drop n).findSome? fun tokens => tokens[0]?).map .withCrlf := by
    rw [withCrlf, Array.toList_map, ← List.map_drop, List.findSome?_map, List.map_findSome?]
    congr 1
    funext row
    simp
  cases line with
  | zero => rfl
  | succ row =>
    simp only [after?, size_rows_withCrlf, hrows, atPlace?_withCrlf]
    split
    · cases t.atPlace? (row + 1) (place + 1) <;> rfl
    · rfl

/-- The token before a token. -/
lemma prev?_withCrlf : t.withCrlf.prev? token.withCrlf = (t.prev? token).map .withCrlf :=
  before?_withCrlf t token.line token.place

/-- The token after a token. -/
lemma next?_withCrlf : t.withCrlf.next? token.withCrlf = (t.next? token).map .withCrlf :=
  after?_withCrlf t token.line token.place

/-- The lines have the same ranges. -/
lemma lines_withCrlf : t.withCrlf.lines = t.lines := by
  have hlines (number start : Nat) (rows : List (Array Token)) :
      linesFrom number start (rows.map (Array.map .withCrlf)) = linesFrom number start rows := by
    induction rows generalizing number start with
    | nil => rfl
    | cons row rows ih => simp [linesFrom, ih]
  simp only [lines, withCrlf, Array.toList_map, hlines]

/-- The lines have the same widths. -/
lemma lineWidth_withCrlf : t.withCrlf.lineWidth line = t.lineWidth line := by
  unfold lineWidth
  rw [lineTokens_withCrlf, Array.back?_map]
  cases (t.lineTokens line).back? <;> rfl

/-- The next code token. -/
lemma nextCode?_withCrlf (n : Nat) : t.withCrlf.nextCode? n = (t.nextCode? n).map .withCrlf := by
  simp only [nextCode?, withCrlf, Array.toList_map, ← List.map_drop, List.find?_map]
  rfl

end Lookup

end LineTable

end JavaLint
