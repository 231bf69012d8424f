import JavaLint.Doc.Comment
import JavaLint.Proofs.Text.Search

/-!
# Doc comments and their margins

A doc comment is usually written with a star at the start of each line.  `WrittenLine` is a line that
says something between two margins of blanks, and it can be written with a star or without one.

The star and the margins are decoration: the lines of a comment are read as what they say
(`parse_blocks_of_isWriting`), so the description, the tags, and whether the comment inherits another
are the same for two comments that say the same lines (`decoration_is_irrelevant`).
-/

namespace JavaLint.DocComment

open Text (isBlank)

/-! ## Written lines -/

/-- What may stand beside the content of a line: blanks that do not end the line. -/
def IsMargin (cs : List Char) : Prop :=
  ∀ c ∈ cs, isBlank c = true ∧ c ≠ '\n'

instance (cs : List Char) : Decidable (IsMargin cs) :=
  List.decidableBAll _ cs

/-- A line of a doc comment: what it says, between its margins.  What it says has no blanks at its
ends, is on one line, and does not start with a star, which would be taken for decoration. -/
structure WrittenLine where
  indent : List Char
  content : List Char
  trail : List Char
  isMargin_indent : IsMargin indent
  isMargin_trail : IsMargin trail
  trim_content : Text.trim content = content
  oneLine : '\n' ∉ content
  unstarred : content.head? ≠ some '*'

namespace WrittenLine

/-- The line as it is written without a star. -/
def plain (line : WrittenLine) : List Char :=
  line.indent ++ (line.content ++ line.trail)

/-- The line as it is written with a star and a space before what it says. -/
def starred (line : WrittenLine) : List Char :=
  line.indent ++ '*' :: ' ' :: (line.content ++ line.trail)

/-- The text is one of the two ways in which the line is written. -/
def IsWriting (line : WrittenLine) (text : List Char) : Prop :=
  text = line.starred ∨ text = line.plain

end WrittenLine

/-- The comment with the given lines between its first line and its last one. -/
def ofLines (lines : List (List Char)) : String :=
  String.ofList ("/**".toList ++ (lines.flatMap ('\n' :: ·) ++ "\n */".toList))

/-- What stands between the delimiters of a comment: an empty line, the lines, and a space on the
last line. -/
lemma inner_ofLines (lines : List (List Char)) :
    inner (ofLines lines).toList = (lines ++ [[' ']]).flatMap ('\n' :: ·) := by
  have hstart : Text.dropStart? ['/', '*', '*'] (ofLines lines).toList =
      some (lines.flatMap ('\n' :: ·) ++ "\n */".toList) :=
    Text.dropStart?_eq_some_iff.2 (by rw [ofLines, String.toList_ofList]; rfl)
  have hend : Text.dropEnd? ['*', '/'] (lines.flatMap ('\n' :: ·) ++ "\n */".toList) =
      some ((lines ++ [[' ']]).flatMap ('\n' :: ·)) :=
    Text.dropEnd?_eq_some_iff.2 (by simp)
  rw [inner, Text.dropStart, hstart, Option.getD_some, Text.dropEnd, hend, Option.getD_some]

namespace WrittenLine

variable {line : WrittenLine} {text : List Char}

/-! ## A line is read as what it says -/

/-- A written line has no end in it. -/
lemma IsWriting.oneLine (h : line.IsWriting text) : '\n' ∉ text := by
  have hindent : '\n' ∉ line.indent := fun hmem => (line.isMargin_indent _ hmem).2 rfl
  have htrail : '\n' ∉ line.trail := fun hmem => (line.isMargin_trail _ hmem).2 rfl
  rcases h with rfl | rfl
  · simp [starred, hindent, htrail, line.oneLine]
  · simp [plain, hindent, htrail, line.oneLine]

/-- Nothing is taken for a star in a line without a star. -/
lemma dropStart_star : Text.dropStart ['*'] (Text.trimStart (line.content ++ line.trail)) =
    Text.trimStart (line.content ++ line.trail) := by
  have hblank (c : Char) (hc : c ∈ line.trail) : isBlank c = true := (line.isMargin_trail c hc).1
  cases hcontent : line.content with
  | nil =>
    have htrail : Text.trimStart line.trail = [] := List.dropWhile_eq_nil_iff.2 hblank
    rw [List.nil_append, htrail]
    rfl
  | cons c cs =>
    have hc : isBlank c = false := Text.isBlank_head_of_trim (hcontent ▸ line.trim_content)
    have hstar : '*' ≠ c := fun hstar => line.unstarred (by rw [hcontent, hstar]; rfl)
    rw [List.cons_append, Text.trimStart_cons hc]
    simp [Text.dropStart, Text.dropStart?, hstar]

/-- Without its decoration, a line is what it says. -/
lemma IsWriting.undecorate_eq (h : line.IsWriting text) : undecorate text = line.content := by
  have hindent (c : Char) (hc : c ∈ line.indent) : isBlank c = true := (line.isMargin_indent c hc).1
  have htrail (c : Char) (hc : c ∈ line.trail) : isBlank c = true := (line.isMargin_trail c hc).1
  have htrim : Text.trim (line.content ++ line.trail) = line.content := by
    rw [Text.trim_append htrail, line.trim_content]
  rcases h with rfl | rfl
  · calc undecorate line.starred
      _ = Text.trim (Text.dropStart ['*'] ('*' :: ' ' :: (line.content ++ line.trail))) := by
        rw [undecorate, starred, Text.trimStart_append hindent, Text.trimStart_cons rfl]
      _ = Text.trim (line.content ++ line.trail) := rfl
      _ = line.content := htrim
  · calc undecorate line.plain
      _ = Text.trim (Text.trimStart (line.content ++ line.trail)) := by
        rw [undecorate, plain, Text.trimStart_append hindent, dropStart_star]
      _ = Text.trim (line.content ++ line.trail) := by
        rw [Text.trim, Text.trimStart, Text.trimStart, List.dropWhile_idempotent]
        rfl
      _ = line.content := htrim

end WrittenLine

/-! ## What is found in a comment

A piece of text without blanks and stars is never made of decoration, so it stands in one of the
lines as a whole. -/

section Contains

variable {piece : List Char} (hne : piece ≠ []) (hblank : piece.any isBlank = false)
  (hstar : '*' ∉ piece)

include hblank in
/-- A blank does not belong to the piece. -/
lemma notMem_of_isBlank {c : Char} (hc : isBlank c = true) : c ∉ piece := by
  intro hmem
  exact List.any_eq_false.1 hblank c hmem hc

include hne hblank hstar

/-- The piece is found in a line if it is found in what the line says. -/
lemma contains_of_isWriting {line : WrittenLine} {text : List Char} (h : line.IsWriting text) :
    Text.contains piece text = Text.contains piece line.content := by
  have hindent (c : Char) (hc : c ∈ line.indent) : c ∉ piece :=
    notMem_of_isBlank hblank (line.isMargin_indent c hc).1
  have htrail (c : Char) (hc : c ∈ line.trail) : c ∉ piece :=
    notMem_of_isBlank hblank (line.isMargin_trail c hc).1
  have hcontent := Text.contains_append_right hne htrail line.content
  rcases h with rfl | rfl
  · have hdecoration (c : Char) (hc : c ∈ ['*', ' ']) : c ∉ piece := by
      rcases List.mem_cons.1 hc with rfl | hc
      · exact hstar
      · rw [List.mem_singleton.1 hc]
        exact notMem_of_isBlank hblank rfl
    have hleft := Text.contains_append_left hne hdecoration (line.content ++ line.trail)
    rw [WrittenLine.starred, Text.contains_append_left hne hindent, ← hcontent, ← hleft]
    rfl
  · rw [WrittenLine.plain, Text.contains_append_left hne hindent, hcontent]

/-- The piece is found in a comment if it is found in what one of the lines says. -/
lemma contains_ofLines {write : WrittenLine → List Char}
    (hwrite : ∀ line : WrittenLine, line.IsWriting (write line)) (lines : List WrittenLine) :
    Text.contains piece (inner (ofLines (lines.map write)).toList) =
      (lines.map WrittenLine.content).any (Text.contains piece) := by
  have hend : '\n' ∉ piece := notMem_of_isBlank hblank rfl
  have hspace : ∀ c ∈ [' '], c ∉ piece := by
    intro c hc
    rw [List.mem_singleton.1 hc]
    exact notMem_of_isBlank hblank rfl
  have hlast : Text.contains piece [' '] = false :=
    (Text.contains_append_left hne hspace []).trans (Text.contains_nil hne)
  have hline (line : WrittenLine) : Text.contains piece (write line) =
      Text.contains piece line.content := contains_of_isWriting hne hblank hstar (hwrite line)
  have hjoin := Text.contains_join hne hend [] (lines.map write ++ [[' ']])
  rw [inner_ofLines]
  simpa [Text.contains_nil hne, hlast, List.any_map, Function.comp_def, hline] using hjoin

end Contains

/-! ## The whole comment -/

/-- The description, line by line, and the tags that the contents of lines give. -/
def blocks (contents : List (List Char)) : List String × List DocTag :=
  contents.foldl addLine ([], [])

section Parse

variable {write : WrittenLine → List Char} (hwrite : ∀ line : WrittenLine, line.IsWriting (write line))
  (lines : List WrittenLine)

include hwrite

/-- The lines of a comment, without decoration, are what they say, between two empty lines. -/
lemma map_undecorate_ofLines :
    (Text.splitAt '\n' (inner (ofLines (lines.map write)).toList)).map undecorate =
      [] :: (lines.map WrittenLine.content ++ [[]]) := by
  have hone : ∀ text ∈ lines.map write ++ [[' ']], '\n' ∉ text := by
    intro text htext
    rcases List.mem_append.1 htext with htext | htext
    · obtain ⟨line, -, rfl⟩ := List.mem_map.1 htext
      exact (hwrite line).oneLine
    · simp [List.mem_singleton.1 htext]
  have hline (line : WrittenLine) : undecorate (write line) = line.content :=
    (hwrite line).undecorate_eq
  have hopen : '\n' ∉ ([] : List Char) := List.not_mem_nil
  have hsplit := Text.splitAt_join hopen hone
  rw [List.nil_append, ← inner_ofLines] at hsplit
  simp only [hsplit, List.map_cons, List.map_append, List.map_map, Function.comp_def, hline]
  rfl

/-- A comment says what its lines say, whether they are written with stars or without them. -/
lemma parse_ofLines :
    let doc := parse (ofLines (lines.map write))
    let contents := lines.map WrittenLine.content
    doc.description = " ".intercalate (blocks contents).1 ∧ doc.tags = (blocks contents).2 ∧
      doc.inheritDoc = contents.any (Text.contains "\x7b@inheritDoc\x7d".toList) := by
  have hblocks : ((Text.splitAt '\n' (inner (ofLines (lines.map write)).toList)).map
      undecorate).foldl addLine ([], []) = blocks (lines.map WrittenLine.content) := by
    rw [map_undecorate_ofLines hwrite, List.foldl_cons, List.foldl_append]
    rfl
  refine ⟨?_, ?_, ?_⟩
  · simp only [parse, hblocks]
  · simp only [parse, hblocks]
  · rw [← contains_ofLines (by decide) (by decide) (by decide) hwrite, parse]

end Parse

/-- Stars and margins are decoration: a comment whose lines are written with stars and one whose lines
are written without stars, with other margins, have the same description, the same tags, and inherit
the comment of the overridden method both or neither, if their lines say the same. -/
theorem decoration_is_irrelevant (starred plain : List WrittenLine)
    (h : starred.map WrittenLine.content = plain.map WrittenLine.content) :
    let decorated := parse (ofLines (starred.map WrittenLine.starred))
    let bare := parse (ofLines (plain.map WrittenLine.plain))
    decorated.description = bare.description ∧ decorated.tags = bare.tags ∧
      decorated.inheritDoc = bare.inheritDoc := by
  obtain ⟨hdescription, htags, hinherit⟩ := parse_ofLines (fun _ => Or.inl rfl) starred
  obtain ⟨hdescription', htags', hinherit'⟩ := parse_ofLines (fun _ => Or.inr rfl) plain
  rw [h] at hdescription htags hinherit
  exact ⟨hdescription.trans hdescription'.symm, htags.trans htags'.symm,
    hinherit.trans hinherit'.symm⟩

/-- A parameter is documented, with stars of emphasis and what looks like the end of the comment. -/
theorem decoration_is_irrelevant_of_param :
    let starred : List WrittenLine :=
      [⟨[' '], "Copies.".toList, [], by decide, by decide, by decide, by decide, by decide⟩,
        ⟨['\t', ' '], "@param n how **many** */".toList, [' '], by decide, by decide, by decide,
          by decide, by decide⟩]
    let plain : List WrittenLine :=
      [⟨[], "Copies.".toList, ['\t'], by decide, by decide, by decide, by decide, by decide⟩,
        ⟨[' '], "@param n how **many** */".toList, [], by decide, by decide, by decide, by decide,
          by decide⟩]
    let decorated := parse (ofLines (starred.map WrittenLine.starred))
    let bare := parse (ofLines (plain.map WrittenLine.plain))
    decorated.description = bare.description ∧ decorated.tags = bare.tags ∧
      decorated.inheritDoc = bare.inheritDoc :=
  decoration_is_irrelevant _ _ rfl

end JavaLint.DocComment
