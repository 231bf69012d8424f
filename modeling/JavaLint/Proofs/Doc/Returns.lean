import JavaLint.Proofs.Doc.Glued
import JavaLint.Proofs.Doc.Links
import JavaLint.Proofs.Doc.Weight
import Mathlib.Tactic.Common

/-!
# Doc comments whose lines end with a lone `\r`

`returns` puts a `\r` in the place of every `\n` of a text.  Both are blanks, and neither is in the words
that are looked for in the whole comment: so the inline links of a comment, and whether it inherits
another, do not depend on which of the two ends its lines (`links_withLoneReturns`,
`inheritDoc_withLoneReturns`).

But the lines of a doc comment are divided at `\n` only, although a lone `\r` ends a line of the source.
With returns, a comment is one line, from which one star is taken and in which the texts of the lines are
glued together.  The description and the tags stay the same exactly if no other star is decoration and the
texts can be read as one (`parse_withLoneReturns`).  That no star gets lost unseen is known by the weight of
what is said (`isStarred_of_said_eq`).
-/

namespace JavaLint

open Text (isBlank)

namespace Text

/-- The text with a `\r` in the place of every `\n`. -/
def returns (cs : List Char) : List Char :=
  cs.map fun c => if c = '\n' then '\r' else c

/-- The text with a `\r` in the place of every `\n`. -/
def withLoneReturns (s : String) : String :=
  String.ofList (returns s.toList)

variable {piece cs : List Char}

/-- The end of a line is replaced. -/
lemma returns_newline (cs : List Char) : returns ('\n' :: cs) = '\r' :: returns cs := rfl

/-- Every other character stays as it is. -/
lemma returns_cons {c : Char} (hc : c ≠ '\n') (cs : List Char) :
    returns (c :: cs) = c :: returns cs := by
  rw [returns, List.map_cons, if_neg hc, ← returns]

/-- The two sides of a cut can be changed by themselves. -/
lemma returns_append (as bs : List Char) : returns (as ++ bs) = returns as ++ returns bs :=
  List.map_append

/-- A text in which no line ends stays as it is. -/
lemma returns_of_notMem (h : '\n' ∉ cs) : returns cs = cs := by
  calc returns cs
    _ = cs.map id := List.map_congr_left fun c hc => if_neg (ne_of_mem_of_not_mem hc h)
    _ = cs := List.map_id cs

/-- A text without blanks stays as it is. -/
lemma returns_of_isBlank (h : ∀ c ∈ cs, isBlank c = false) : returns cs = cs :=
  returns_of_notMem fun hmem => by cases h '\n' hmem

/-- No line ends in the changed text. -/
lemma newline_notMem_returns (cs : List Char) : '\n' ∉ returns cs := by
  intro hmem
  obtain ⟨c, -, hc⟩ := List.mem_map.1 hmem
  split at hc
  · cases hc
  · exact absurd hc ‹_›

/-- A character stays a blank, or no blank. -/
lemma isBlank_return (c : Char) : isBlank (if c = '\n' then '\r' else c) = isBlank c := by
  by_cases hc : c = '\n'
  · rw [if_pos hc, hc]
    rfl
  · rw [if_neg hc]

/-- A text starts with a blank if it did before. -/
lemma any_head?_returns (cs : List Char) : (returns cs).head?.any isBlank = cs.head?.any isBlank := by
  cases cs with
  | nil => rfl
  | cons c cs => exact isBlank_return c

/-- The blanks at the start of a text are as many as before. -/
lemma trimStart_returns (cs : List Char) : trimStart (returns cs) = returns (trimStart cs) := by
  simp only [trimStart, returns, List.dropWhile_map, Function.comp_def, isBlank_return]

/-- A text that has no blanks after the change was not changed. -/
lemma eq_returns_of_isBlank (h : ∀ c ∈ returns cs, isBlank c = false) : returns cs = cs := by
  refine returns_of_isBlank fun c hc => ?_
  rw [← isBlank_return]
  exact h _ (List.mem_map_of_mem hc)

section Piece

variable (h : ∀ c ∈ piece, isBlank c = false)

include h

/-- A piece without blanks starts a text if it did before. -/
lemma returns_eq_append_iff {rest : List Char} :
    returns cs = piece ++ rest ↔ ∃ rest', cs = piece ++ rest' ∧ returns rest' = rest := by
  constructor
  · intro heq
    obtain ⟨piece', rest', rfl, rfl, hrest⟩ := List.map_eq_append_iff.1 heq
    exact ⟨rest', by rw [← returns, eq_returns_of_isBlank h], hrest⟩
  · rintro ⟨rest', rfl, rfl⟩
    rw [returns_append, returns_of_isBlank h]

/-- A piece without blanks ends a text if it did before. -/
lemma returns_eq_append_right_iff {rest : List Char} :
    returns cs = rest ++ piece ↔ ∃ rest', cs = rest' ++ piece ∧ returns rest' = rest := by
  constructor
  · intro heq
    obtain ⟨rest', piece', rfl, hrest, rfl⟩ := List.map_eq_append_iff.1 heq
    exact ⟨rest', by rw [← returns, eq_returns_of_isBlank h], hrest⟩
  · rintro ⟨rest', rfl, rfl⟩
    rw [returns_append, returns_of_isBlank h]

/-- A piece without blanks is dropped from the start of a text if it was before. -/
lemma dropStart?_returns (cs : List Char) :
    dropStart? piece (returns cs) = (dropStart? piece cs).map returns := by
  ext rest
  rw [Option.map_eq_some_iff, dropStart?_eq_some_iff, returns_eq_append_iff h]
  simp only [dropStart?_eq_some_iff]

/-- A piece without blanks is dropped from the end of a text if it was before. -/
lemma dropEnd?_returns (cs : List Char) :
    dropEnd? piece (returns cs) = (dropEnd? piece cs).map returns := by
  ext rest
  rw [Option.map_eq_some_iff, dropEnd?_eq_some_iff, returns_eq_append_right_iff h]
  simp only [dropEnd?_eq_some_iff]

/-- A piece without blanks is found in a text if it was before. -/
lemma contains_returns (cs : List Char) : contains piece (returns cs) = contains piece cs := by
  induction cs with
  | nil => rfl
  | cons c cs ih =>
    have hstart : piece.isPrefixOf (returns (c :: cs)) = piece.isPrefixOf (c :: cs) := by
      rw [Bool.eq_iff_iff, List.isPrefixOf_iff_prefix, List.isPrefixOf_iff_prefix]
      constructor
      · rintro ⟨rest, hrest⟩
        obtain ⟨rest', hrest', -⟩ := (returns_eq_append_iff h).1 hrest.symm
        exact ⟨rest', hrest'.symm⟩
      · rintro ⟨rest', hrest'⟩
        exact ⟨returns rest', ((returns_eq_append_iff h).2 ⟨rest', hrest'.symm, rfl⟩).symm⟩
    rw [contains_cons, ← hstart, ← ih]
    exact contains_cons piece (returns cs) _

end Piece

end Text

namespace DocComment

open Text (returns returns_cons weight)

variable {cs after : List Char}

/-- The delimiters of a comment are found where they were. -/
lemma inner_returns (text : List Char) : inner (returns text) = returns (inner text) := by
  have hopen : ∀ c ∈ ['/', '*', '*'], isBlank c = false := Text.isBlank_of_any rfl
  have hclose : ∀ c ∈ ['*', '/'], isBlank c = false := Text.isBlank_of_any rfl
  have hstart : Text.dropStart ['/', '*', '*'] (returns text) =
      returns (Text.dropStart ['/', '*', '*'] text) := by
    rw [Text.dropStart, Text.dropStart, Text.dropStart?_returns hopen]
    cases Text.dropStart? ['/', '*', '*'] text <;> rfl
  rw [inner, inner, hstart, Text.dropEnd, Text.dropEnd, Text.dropEnd?_returns hclose]
  cases Text.dropEnd? ['*', '/'] (Text.dropStart ['/', '*', '*'] text) <;> rfl

/-! ## Links -/

/-- A link starts where one did before. -/
lemma opens_returns_iff {after' : List Char} :
    Opens (returns cs) after' ↔ ∃ after, Opens cs after ∧ returns after = after' := by
  constructor
  · rintro ⟨head, hhead, heq, hblank⟩
    obtain ⟨after, rfl, rfl⟩ := (Text.returns_eq_append_iff (isBlank_of_mem_linkHeads hhead)).1 heq
    rw [Text.any_head?_returns] at hblank
    exact ⟨after, ⟨head, hhead, rfl, hblank⟩, rfl⟩
  · rintro ⟨after, ⟨head, hhead, rfl, hblank⟩, rfl⟩
    rw [← Text.any_head?_returns] at hblank
    have heq := (Text.returns_eq_append_iff (isBlank_of_mem_linkHeads hhead)).2 ⟨after, rfl, rfl⟩
    exact ⟨head, hhead, heq, hblank⟩

/-- What follows the first closing brace is changed as the text is. -/
lemma afterBrace?_returns (cs : List Char) :
    afterBrace? (returns cs) = (afterBrace? cs).map returns := by
  induction cs with
  | nil => rfl
  | cons c cs ih =>
    by_cases hc : c = '\n'
    · rw [hc, Text.returns_newline, afterBrace?_cons, afterBrace?_cons, ih]
      rfl
    · rw [returns_cons hc, afterBrace?_cons, afterBrace?_cons, ih, apply_ite (Option.map returns)]
      rfl

/-- The first word is the same, since no line ends in it. -/
lemma firstWord_returns (cs : List Char) : firstWord (returns cs) = firstWord cs := by
  rw [firstWord, firstWord, Text.trimStart_returns]
  generalize Text.trimStart cs = cs
  induction cs with
  | nil => rfl
  | cons c cs ih =>
    by_cases hc : c = '\n'
    · rw [hc]
      rfl
    · rw [returns_cons hc, List.takeWhile_cons, List.takeWhile_cons, ih]

/-- The link at the start of a text is the same. -/
lemma link?_returns (cs : List Char) :
    link? (returns cs) = (link? cs).map fun r => (r.1, returns r.2) := by
  by_cases hopens : ∃ after, Opens cs after
  · obtain ⟨after, hafter⟩ := hopens
    have hafter' : Opens (returns cs) (returns after) := opens_returns_iff.2 ⟨after, hafter, rfl⟩
    obtain ⟨-, -, -, hblank⟩ := id hafter
    obtain ⟨-, -, -, hblank'⟩ := id hafter'
    rw [hafter.link?_eq, hafter'.link?_eq, linkTarget?_eq hblank, linkTarget?_eq hblank',
      firstWord_returns, afterBrace?_returns]
    split
    · rfl
    · rw [Option.map_map, Option.map_map]
      rfl
  · rw [link?_eq_none fun after hafter => hopens ⟨after, hafter⟩]
    refine link?_eq_none fun after' hafter' => hopens ?_
    obtain ⟨after, hafter, -⟩ := opens_returns_iff.1 hafter'
    exact ⟨after, hafter⟩

/-- The targets of all links are the same. -/
lemma linksOf_returns (cs : List Char) : linksOf (returns cs) = linksOf cs := by
  refine linksOf_change rfl link?_returns (fun c cs hnone => ?_) cs
  have hlink := link?_returns (c :: cs)
  rw [hnone] at hlink
  exact linksOf_of_eq_none hlink

/-- The links of a comment do not depend on what ends its lines. -/
theorem links_withLoneReturns (text : String) :
    (parse (Text.withLoneReturns text)).links = (parse text).links := by
  rw [links_parse, links_parse, Text.withLoneReturns, String.toList_ofList, inner_returns,
    linksOf_returns]

/-- Whether a comment inherits another does not depend on what ends its lines. -/
theorem inheritDoc_withLoneReturns (text : String) :
    (parse (Text.withLoneReturns text)).inheritDoc = (parse text).inheritDoc := by
  have hword : ∀ c ∈ "\x7b@inheritDoc\x7d".toList, isBlank c = false :=
    Text.isBlank_of_any (by decide)
  simp only [parse, Text.withLoneReturns, String.toList_ofList, inner_returns,
    Text.contains_returns hword]

/-! ## Lines that end with a lone `\r` -/

/-- What the lines say, without the lines that say nothing. -/
def texts (lines : List (List Char)) : List (List Char) :=
  (lines.map undecorate).filter fun text => !text.isEmpty

/-- The lines after the first one that is not blank. -/
def laterLines (lines : List (List Char)) : List (List Char) :=
  (lines.dropWhile fun line => line.all isBlank).tail

/-- The lines say the same if they are read as one line: no star but the first is decoration, and the
texts can be glued together. -/
structure ReadAsOneLine (lines : List (List Char)) : Prop where
  unstarred : ∀ line ∈ laterLines lines, isStarred line = false
  areOneText : AreOneText (texts lines)

variable {line text : List Char} {c : Char}

/-- Where a line ends with a lone `\r`, it goes on. -/
lemma returns_eq_of_splitAt {cs : List Char} {lines : List (List Char)}
    (h : Text.splitAt '\n' cs = line :: lines) : returns cs = line ++ lines.flatMap ('\r' :: ·) := by
  induction cs generalizing line lines with
  | nil =>
    obtain ⟨rfl, rfl⟩ := List.cons.inj h
    rfl
  | cons c cs ih =>
    obtain ⟨first, rest, hsplit⟩ := List.exists_cons_of_ne_nil (Text.splitAt_ne_nil '\n' cs)
    by_cases hc : c = '\n'
    · rw [hc, Text.splitAt_separator, hsplit] at h
      obtain ⟨rfl, rfl⟩ := List.cons.inj h
      rw [hc, Text.returns_newline, ih hsplit]
      rfl
    · rw [Text.splitAt_cons hc hsplit] at h
      obtain ⟨rfl, rfl⟩ := List.cons.inj h
      rw [Text.returns_cons hc, ih hsplit]
      rfl

/-- The texts have no blanks at their ends. -/
lemma isText_of_mem_texts {lines : List (List Char)} (h : text ∈ texts lines) : IsText text := by
  obtain ⟨hmem, hne⟩ := List.mem_filter.1 h
  obtain ⟨line, -, rfl⟩ := List.mem_map.1 hmem
  exact ⟨by simpa using hne, Text.trim_trim _⟩

/-- The characters of the texts are characters of the lines. -/
lemma mem_of_mem_texts {lines : List (List Char)} (h : text ∈ texts lines) (hc : c ∈ text) :
    ∃ line ∈ lines, c ∈ line := by
  obtain ⟨line, hline, rfl⟩ := List.mem_map.1 (List.mem_filter.1 h).1
  have hstart := Text.mem_of_mem_dropStart (Text.mem_of_mem_trim hc)
  exact ⟨line, hline, (List.dropWhile_suffix _).subset hstart⟩

/-- A line without a star is trimmed only. -/
lemma undecorate_of_isStarred (h : isStarred line = false) : undecorate line = Text.trim line := by
  have hstart : Text.trim (Text.trimStart line) = Text.trim line := by
    simp only [Text.trim, Text.trimStart, List.dropWhile_idempotent]
  rw [undecorate, ← hstart]
  rw [isStarred] at h
  cases htrim : Text.trimStart line with
  | nil => rfl
  | cons c cs =>
    have hc : '*' ≠ c := by
      rintro rfl
      simp [htrim] at h
    simp [Text.dropStart, Text.dropStart?, hc]

section Margin

variable {margin : List Char} (h : ∀ c ∈ margin, isBlank c = true)

include h

/-- Blanks before a line say nothing. -/
lemma undecorate_append_left (line : List Char) : undecorate (margin ++ line) = undecorate line := by
  rw [undecorate, undecorate, Text.trimStart_append h]

/-- Blanks before a star do not matter. -/
lemma isStarred_append_left (line : List Char) : isStarred (margin ++ line) = isStarred line := by
  rw [isStarred, isStarred, Text.trimStart_append h]

end Margin

/-- Nothing is said on a blank line, and no star starts it. -/
lemma undecorate_of_isBlank (h : ∀ c ∈ line, isBlank c = true) :
    undecorate line = [] ∧ isStarred line = false := by
  have hstart : Text.trimStart line = [] := List.dropWhile_eq_nil_iff.2 h
  rw [undecorate, isStarred, hstart]
  exact ⟨rfl, rfl⟩

/-- A blank line does not count as the first one. -/
lemma laterLines_of_isBlank (h : line.all isBlank = true) (lines : List (List Char)) :
    laterLines (line :: lines) = laterLines lines := by
  simp [laterLines, h]

/-- All lines come after the first one if it is not blank. -/
lemma laterLines_of_not_isBlank (h : ¬ line.all isBlank = true) (lines : List (List Char)) :
    laterLines (line :: lines) = lines := by
  simp [laterLines, h]

/-- The line with which a comment starts, after blanks: it is followed by the later lines. -/
structure IsFirstLine (line : List Char) (lines : List (List Char)) (margin first : List Char) : Prop where
  isBlank_margin : ∀ c ∈ margin, isBlank c = true
  join_eq : line ++ lines.flatMap ('\r' :: ·) =
    margin ++ (first ++ (laterLines (line :: lines)).flatMap ('\r' :: ·))
  texts_eq : texts (line :: lines) = texts (first :: laterLines (line :: lines))
  countP_eq : (line :: lines).countP isStarred = (first :: laterLines (line :: lines)).countP isStarred
  notBlank : Text.trim first ≠ [] ∨ laterLines (line :: lines) = []

/-- Every comment starts with a line. -/
lemma exists_isFirstLine (line : List Char) (lines : List (List Char)) :
    ∃ margin first, IsFirstLine line lines margin first := by
  induction lines generalizing line with
  | nil =>
    have hlater : laterLines [line] = [] := by
      rw [laterLines, List.dropWhile_cons]
      split <;> rfl
    exact ⟨[], line, by simp, by rw [hlater]; simp, by rw [hlater], by rw [hlater], .inr hlater⟩
  | cons next lines ih =>
    by_cases hline : line.all isBlank = true
    · have hblank := List.all_eq_true.1 hline
      obtain ⟨hempty, hstar⟩ := undecorate_of_isBlank hblank
      have hlater := laterLines_of_isBlank hline (next :: lines)
      obtain ⟨margin, first, h⟩ := ih next
      refine ⟨line ++ '\r' :: margin, first, ?_, ?_, ?_, ?_, ?_⟩
      · rw [List.forall_mem_append, List.forall_mem_cons]
        exact ⟨hblank, rfl, h.isBlank_margin⟩
      · rw [hlater, List.flatMap_cons, List.cons_append, h.join_eq]
        simp
      · rw [hlater, ← h.texts_eq, texts, List.map_cons, hempty]
        rfl
      · rw [hlater, ← h.countP_eq, List.countP_cons_of_neg (by simp [hstar])]
      · rw [hlater]
        exact h.notBlank
    · have hlater := laterLines_of_not_isBlank hline (next :: lines)
      have hne : Text.trim line ≠ [] := by
        rw [ne_eq, Text.trim_eq_nil_iff, ← List.all_eq_true]
        exact hline
      refine ⟨[], line, by simp, ?_, ?_, ?_, .inl hne⟩ <;> rw [hlater]
      rfl

/-- What follows a line that is not blank stands after what the line says. -/
lemma undecorate_append (h : Text.trim line ≠ []) (rest : List Char) :
    undecorate (line ++ rest) = Text.trim (Text.dropStart ['*'] (Text.trimStart line) ++ rest) ∧
      isStarred (line ++ rest) = isStarred line := by
  have hne : Text.trimStart line ≠ [] := fun hnil => h (by rw [Text.trim, hnil]; rfl)
  have hstart : Text.trimStart (line ++ rest) = Text.trimStart line ++ rest := by
    rw [Text.trimStart, List.dropWhile_append, if_neg (by rw [List.isEmpty_iff]; exact hne),
      ← Text.trimStart]
  obtain ⟨c, cs, hcs⟩ := List.exists_cons_of_ne_nil hne
  rw [undecorate, isStarred, isStarred, hstart, hcs]
  refine ⟨?_, rfl⟩
  by_cases hc : '*' = c
  · subst hc
    rfl
  · simp [Text.dropStart, Text.dropStart?, hc]

/-- If no star but the first is decoration, the texts of the lines are glued together. -/
lemma glued_texts {lines : List (List Char)}
    (h : ∀ l ∈ laterLines (line :: lines), isStarred l = false) :
    Glued (texts (line :: lines)) (undecorate (line ++ lines.flatMap ('\r' :: ·))) := by
  obtain ⟨margin, first, hfirst⟩ := exists_isFirstLine line lines
  have hmap : (laterLines (line :: lines)).map undecorate =
      (laterLines (line :: lines)).map Text.trim :=
    List.map_congr_left fun l hl => undecorate_of_isStarred (h l hl)
  have hglued := glued_trim (Text.dropStart ['*'] (Text.trimStart first)) (laterLines (line :: lines))
  rw [hfirst.join_eq, undecorate_append_left hfirst.isBlank_margin, hfirst.texts_eq, texts,
    List.map_cons, hmap]
  obtain hne | hlater := hfirst.notBlank
  · rw [(undecorate_append hne _).1]
    exact hglued
  · rw [hlater] at hglued ⊢
    simpa [undecorate] using hglued

/-- A comment weighs as much as its lines, since what ends a line is a blank. -/
lemma weight_join (line : List Char) (lines : List (List Char)) :
    weight (line ++ lines.flatMap ('\r' :: ·)) = ((line :: lines).map weight).sum := by
  have hreturn : isBlank '\r' = true := rfl
  induction lines generalizing line with
  | nil => simp
  | cons next lines ih =>
    rw [List.flatMap_cons, List.cons_append, Text.weight_append, Text.weight_cons, ih, if_pos hreturn]
    simp

/-- The lines lose their stars and nothing else. -/
lemma sum_weight_undecorate (lines : List (List Char)) :
    ((lines.map undecorate).map weight).sum + lines.countP isStarred = (lines.map weight).sum := by
  induction lines with
  | nil => rfl
  | cons line lines ih =>
    have hline := weight_undecorate line
    simp only [List.map_cons, List.sum_cons, List.countP_cons, ← ih, ← hline]
    cases isStarred line <;> simp <;> omega

/-- If the lines say the same when they are read as one line, no star but the first is decoration. -/
lemma isStarred_of_said_eq {lines : List (List Char)}
    (h : said [undecorate (line ++ lines.flatMap ('\r' :: ·))] = said ((line :: lines).map undecorate)) :
    ∀ l ∈ laterLines (line :: lines), isStarred l = false := by
  obtain ⟨margin, first, hfirst⟩ := exists_isFirstLine line lines
  have hstar : isStarred (line ++ lines.flatMap ('\r' :: ·)) = isStarred first := by
    rw [hfirst.join_eq, isStarred_append_left hfirst.isBlank_margin]
    obtain hne | hlater := hfirst.notBlank
    · exact (undecorate_append hne _).2
    · rw [hlater, List.flatMap_nil, List.append_nil]
  -- Both ways of reading weigh the same, so they have lost the same number of stars.
  have hlost : (isStarred first).toNat = (line :: lines).countP isStarred := by
    have hone := weight_undecorate (line ++ lines.flatMap ('\r' :: ·))
    have hlines := sum_weight_undecorate (line :: lines)
    have hsaid := weight_said ((line :: lines).map undecorate)
    rw [← h, weight_said, List.map_singleton, List.sum_singleton] at hsaid
    rw [hstar, weight_join, hsaid] at hone
    omega
  have hlater : (laterLines (line :: lines)).countP isStarred = 0 := by
    have hbool : (isStarred first).toNat = if isStarred first = true then 1 else 0 := by
      cases isStarred first <;> rfl
    rw [hfirst.countP_eq, List.countP_cons] at hlost
    omega
  intro l hl
  simpa using List.countP_eq_zero.1 hlater l hl

/-! ## The whole comment -/

/-- A comment says the same with a lone `\r` at the end of each line exactly if its lines can be read as one
line. -/
theorem parse_withLoneReturns {text : String} (h : '\r' ∉ text.toList) :
    let doc := parse text
    let returned := parse (Text.withLoneReturns text)
    returned.links = doc.links ∧ returned.inheritDoc = doc.inheritDoc ∧
      (returned.description = doc.description ∧ returned.tags = doc.tags ↔
        ReadAsOneLine (Text.splitAt '\n' (inner text.toList))) := by
  intro doc returned
  refine ⟨links_withLoneReturns text, inheritDoc_withLoneReturns text, ?_⟩
  obtain ⟨line, lines, hlines⟩ :=
    List.exists_cons_of_ne_nil (Text.splitAt_ne_nil '\n' (inner text.toList))
  have hdoc : (doc.description, doc.tags) = said ((line :: lines).map undecorate) := by
    rw [said_lines, hlines]
  have hreturned : (returned.description, returned.tags) =
      said [undecorate (line ++ lines.flatMap ('\r' :: ·))] := by
    rw [said_lines, Text.withLoneReturns, String.toList_ofList, inner_returns,
      Text.splitAt_of_not_mem (Text.newline_notMem_returns _), returns_eq_of_splitAt hlines,
      List.map_singleton]
  have hsame : returned.description = doc.description ∧ returned.tags = doc.tags ↔
      said [undecorate (line ++ lines.flatMap ('\r' :: ·))] = said ((line :: lines).map undecorate) := by
    rw [← hdoc, ← hreturned, Prod.mk.injEq]
  have hnone : ∀ t ∈ texts (line :: lines), '\r' ∉ t := by
    intro t ht hmem
    obtain ⟨l, hl, hreturn⟩ := mem_of_mem_texts ht hmem
    have hinner : '\r' ∈ inner text.toList := Text.mem_of_mem_splitAt (hlines ▸ hl) hreturn
    exact h (Text.mem_of_mem_dropStart (Text.mem_of_mem_dropEnd hinner))
  rw [hlines, hsame]
  constructor
  · intro heq
    have hstar := isStarred_of_said_eq heq
    rw [← said_filter ((line :: lines).map undecorate), ← texts,
      said_glued_iff_areOneText (fun t => isText_of_mem_texts) hnone (glued_texts hstar)] at heq
    exact ⟨hstar, heq⟩
  · rintro ⟨hstar, hone⟩
    rw [← said_filter ((line :: lines).map undecorate), ← texts]
    exact (said_glued_iff_areOneText (fun t => isText_of_mem_texts) hnone (glued_texts hstar)).2 hone

/-- A tag whose body stands on the next line, without a star. -/
theorem parse_withLoneReturns_of_body :
    let doc := parse "/** @param n\n how many */"
    let returned := parse (Text.withLoneReturns "/** @param n\n how many */")
    returned.description = doc.description ∧ returned.tags = doc.tags := by
  have hreturn : '\r' ∉ "/** @param n\n how many */".toList := by decide
  obtain ⟨-, -, hiff⟩ := parse_withLoneReturns hreturn
  have htexts : texts (Text.splitAt '\n' (inner "/** @param n\n how many */".toList)) =
      ["@param n".toList, "how many".toList] := by
    decide
  refine hiff.2 ⟨by decide, ?_⟩
  rw [htexts]
  exact ⟨⟨⟨"param", some "n", ""⟩, by decide, rfl, by decide⟩, by decide⟩

/-- The lines of a comment with a description and a tag are glued together, to a description without a
tag. -/
theorem lines_are_glued :
    let text := "/**\n * Copies.\n * @param n how many\n */"
    let doc := parse text
    let returned := parse (Text.withLoneReturns text)
    '\r' ∉ text.toList ∧
      doc.description = "Copies." ∧ doc.tags = [⟨"param", some "n", "how many"⟩] ∧
      returned.description = "Copies.\r * @param n how many" ∧ returned.tags = [] := by
  decide

end DocComment

end JavaLint
