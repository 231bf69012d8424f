import JavaLint.Doc.Check
import JavaLint.Proofs.Doc.Links
import JavaLint.Proofs.LineEnds.Quoted
import JavaLint.Proofs.Text.Search
import Mathlib.Data.List.Induction
import Mathlib.Tactic.Common

/-!
# Doc comments and the ends of lines

A doc comment says the same, however its lines end (`DocComment.parse_withCrlf`): lines are divided at
`\n`, and the `\r` that is left at the end of a line is a blank, which is trimmed away.  The target of
an inline link ends at a blank, and any blank will do.

So what a comment is held against may change only in the result type and the thrown types, since no
line ends in the names of a declaration, and neither of the two is quoted in a finding.
-/

namespace JavaLint

open Text (crlf isBreak OneLine)

/-! ## Searching -/

namespace Text

variable {piece cs : List Char}

/-- A piece of a line is dropped from the start of a text if it was before. -/
lemma dropStart?_crlf (h : ∀ c ∈ piece, isBreak c = false) (cs : List Char) :
    dropStart? piece (crlf cs) = (dropStart? piece cs).map crlf := by
  cases hdrop : dropStart? piece cs with
  | some rest =>
    rw [dropStart?_eq_some_iff.1 hdrop, crlf_append, crlf_of_isBreak h]
    exact dropStart?_eq_some_iff.2 rfl
  | none =>
    rw [Option.map_none, Option.eq_none_iff_forall_ne_some]
    intro rest hrest
    have hprefix : piece.isPrefixOf (crlf cs) = true := by
      rw [dropStart?_eq_some_iff.1 hrest]
      simp
    rw [isPrefixOf_crlf h] at hprefix
    obtain ⟨rest', hrest'⟩ := List.isPrefixOf_iff_prefix.1 hprefix
    rw [dropStart?_eq_some_iff.2 hrest'.symm] at hdrop
    cases hdrop

/-- A text ends with a piece of a line if it did before. -/
lemma exists_of_crlf_eq_append (h : ∀ c ∈ piece, isBreak c = false) {rest : List Char}
    (heq : crlf cs = rest ++ piece) : ∃ rest', cs = rest' ++ piece := by
  induction piece using List.reverseRecOn generalizing cs with
  | nil => exact ⟨cs, by simp⟩
  | append_singleton piece c ih =>
    rw [← List.append_assoc] at heq
    rcases List.eq_nil_or_concat cs with rfl | ⟨ds, d, rfl⟩
    · simp at heq
    · have hc : c ≠ '\n' := by
        rintro rfl
        simpa [isBreak] using h '\n' (by simp)
      by_cases hd : d = '\n'
      · have hlast := congrArg List.getLast? heq
        simp [hd, Ne.symm hc] at hlast
      · rw [List.concat_eq_append, crlf_append, crlf_cons hd, crlf_nil] at heq
        obtain ⟨hds, hdc⟩ := List.append_inj' heq rfl
        obtain ⟨rest', rfl⟩ := ih (fun e he => h e (by simp [he])) hds
        exact ⟨rest', by simp [List.singleton_inj.1 hdc]⟩

/-- A piece of a line is dropped from the end of a text if it was before. -/
lemma dropEnd?_crlf (h : ∀ c ∈ piece, isBreak c = false) (cs : List Char) :
    dropEnd? piece (crlf cs) = (dropEnd? piece cs).map crlf := by
  cases hdrop : dropEnd? piece cs with
  | some rest =>
    rw [dropEnd?_eq_some_iff.1 hdrop, crlf_append, crlf_of_isBreak h]
    exact dropEnd?_eq_some_iff.2 rfl
  | none =>
    rw [Option.map_none, Option.eq_none_iff_forall_ne_some]
    intro rest hrest
    obtain ⟨rest', hrest'⟩ := exists_of_crlf_eq_append h (dropEnd?_eq_some_iff.1 hrest)
    rw [dropEnd?_eq_some_iff.2 hrest'] at hdrop
    cases hdrop

/-- A piece of a line is dropped from the start of a text, if it is there. -/
lemma dropStart_crlf (h : ∀ c ∈ piece, isBreak c = false) (cs : List Char) :
    dropStart piece (crlf cs) = crlf (dropStart piece cs) := by
  rw [dropStart, dropStart, dropStart?_crlf h]
  cases dropStart? piece cs <;> rfl

/-- A piece of a line is dropped from the end of a text, if it is there. -/
lemma dropEnd_crlf (h : ∀ c ∈ piece, isBreak c = false) (cs : List Char) :
    dropEnd piece (crlf cs) = crlf (dropEnd piece cs) := by
  rw [dropEnd, dropEnd, dropEnd?_crlf h]
  cases dropEnd? piece cs <;> rfl

/-- What stands after the start of a text that passes a test, if the ends of lines pass it. -/
lemma dropWhile_crlf_of_pass {p : Char → Bool} (hn : p '\n' = true) (hr : p '\r' = true)
    (cs : List Char) : (crlf cs).dropWhile p = crlf (cs.dropWhile p) := by
  induction cs with
  | nil => rfl
  | cons c cs ih =>
    by_cases hc : c = '\n'
    · simp [hc, hn, hr, ih]
    · rw [crlf_cons hc, List.dropWhile_cons, List.dropWhile_cons, ih]
      split
      · rfl
      · rw [crlf_cons hc]

/-- What follows the first character that passes a test, if the ends of lines do not pass it. -/
lemma cut?_crlf {t : Char → Bool} (hn : t '\n' = false) (hr : t '\r' = false)
    (cs : List Char) :
    (cut? t (crlf cs)).map Prod.snd = (cut? t cs).map fun r => crlf r.2 := by
  unfold cut?
  rw [dropWhile_crlf_of_pass (by simp [hn]) (by simp [hr])]
  cases hdrop : cs.dropWhile fun c => !t c with
  | nil => rfl
  | cons c after =>
    have hc : c ≠ '\n' := by
      rintro rfl
      have hhead := List.head?_dropWhile_not (fun c => !t c) cs
      simp [hdrop, hn] at hhead
    rw [crlf_cons hc]
    rfl

/-- A piece of a line is found in a text if it was before. -/
lemma contains_crlf (hne : piece ≠ []) (h : ∀ c ∈ piece, isBreak c = false) (cs : List Char) :
    contains piece (crlf cs) = contains piece cs := by
  rw [contains, contains, Lexeme.find?_crlf hne h, Option.isSome_map]

end Text

/-! ## Lines -/

namespace Text

/-- The lines with a `\r` at the end of each but the last. -/
def withReturns : List (List Char) → List (List Char)
  | [] => []
  | [line] => [line]
  | line :: next :: lines => (line ++ ['\r']) :: withReturns (next :: lines)

/-- The lines of a changed text end with a `\r`. -/
lemma splitAt_newline_crlf (cs : List Char) :
    splitAt '\n' (crlf cs) = withReturns (splitAt '\n' cs) := by
  induction cs with
  | nil => rfl
  | cons c cs ih =>
    obtain ⟨line, lines, hlines⟩ := List.exists_cons_of_ne_nil (splitAt_ne_nil '\n' cs)
    by_cases hc : c = '\n'
    · have hbreak := splitAt_separator '\n' (crlf cs)
      rw [hc, crlf_newline, splitAt_cons (by decide) hbreak, splitAt_separator, ih, hlines]
      rfl
    · rw [crlf_cons hc, splitAt_cons hc hlines]
      rw [hlines] at ih
      cases lines with
      | nil => exact splitAt_cons hc ih
      | cons next lines => exact splitAt_cons hc ih

/-- A separator in the middle of lines divides a changed text where it divided the text. -/
lemma splitAt_crlf {separator : Char} (hn : separator ≠ '\n') (hr : separator ≠ '\r')
    (cs : List Char) : splitAt separator (crlf cs) = (splitAt separator cs).map crlf := by
  induction cs with
  | nil => rfl
  | cons c cs ih =>
    obtain ⟨piece, pieces, hpieces⟩ := List.exists_cons_of_ne_nil (splitAt_ne_nil separator cs)
    rw [hpieces, List.map_cons] at ih
    by_cases hc : c = '\n'
    · rw [hc, crlf_newline, splitAt_cons hn.symm hpieces,
        splitAt_cons hr.symm (splitAt_cons hn.symm ih), List.map_cons, crlf_newline]
    · rw [crlf_cons hc]
      by_cases hsep : c = separator
      · rw [hsep, splitAt_separator, splitAt_separator, ih, hpieces]
        rfl
      · rw [splitAt_cons hsep ih, splitAt_cons hsep hpieces, List.map_cons, crlf_cons hc]

end Text

namespace DocComment

/-- A blank at the end of a line does not matter. -/
lemma undecorate_concat {c : Char} (hc : Text.isBlank c = true) (line : List Char) :
    undecorate (line ++ [c]) = undecorate line := by
  rw [undecorate, undecorate, Text.trimStart_concat hc]
  cases hline : Text.trimStart line with
  | nil => rfl
  | cons d ds =>
    have hdrop : Text.dropStart ['*'] (d :: ds ++ [c]) = Text.dropStart ['*'] (d :: ds) ++ [c] := by
      by_cases hd : '*' = d
      · subst hd
        rfl
      · simp [Text.dropStart, Text.dropStart?, hd]
    simp only [List.isEmpty_cons, Bool.false_eq_true, if_false]
    rw [hdrop, Text.trim_concat hc]

/-- The lines of a comment say the same. -/
lemma map_undecorate_withReturns (lines : List (List Char)) :
    (Text.withReturns lines).map undecorate = lines.map undecorate := by
  fun_induction Text.withReturns lines with
  | case1 => rfl
  | case2 line => rfl
  | case3 line next lines ih => rw [List.map_cons, ih, undecorate_concat rfl, ← List.map_cons]

/-- The delimiters of a comment are found where they were. -/
lemma inner_crlf (text : List Char) : inner (crlf text) = crlf (inner text) := by
  rw [inner, inner, Text.dropStart_crlf (by simp [isBreak]), Text.dropEnd_crlf (by simp [isBreak])]

/-! ## Links -/

/-- The target of a link is the same. -/
lemma linkTarget?_crlf (cs : List Char) :
    linkTarget? (crlf cs) = (linkTarget? cs).map fun r => (r.1, crlf r.2) := by
  have htrim : Text.trimStart (crlf cs) = crlf (Text.trimStart cs) :=
    Text.dropWhile_crlf_of_pass rfl rfl cs
  have htarget : (crlf (Text.trimStart cs)).takeWhile (fun c => !Text.isBlank c && c != '\x7d') =
      (Text.trimStart cs).takeWhile fun c => !Text.isBlank c && c != '\x7d' :=
    Text.takeWhile_crlf rfl rfl _
  have hhead : (crlf cs).head?.any Text.isBlank = cs.head?.any Text.isBlank :=
    Text.any_head?_crlf rfl cs
  have hcut (target : List Char) :
      (Text.cut? (· == '\x7d') (crlf (Text.trimStart cs))).map (fun r => (target, r.2)) =
        (Text.cut? (· == '\x7d') (Text.trimStart cs)).map fun r => (target, crlf r.2) := by
    have hrest := congrArg (Option.map fun rest => (target, rest))
      (Text.cut?_crlf (t := (· == '\x7d')) rfl rfl (Text.trimStart cs))
    rwa [Option.map_map, Option.map_map] at hrest
  unfold linkTarget?
  simp only [htrim, htarget, hhead, hcut]
  split
  · rw [Option.map_map]
    rfl
  · rfl

/-- The link at the start of a text is the same. -/
lemma link?_crlf (cs : List Char) :
    link? (crlf cs) = (link? cs).map fun r => (r.1, crlf r.2) := by
  have hhead (head : List Char) (h : ∀ c ∈ head, isBreak c = false) :
      (Text.dropStart? head (crlf cs)).bind linkTarget? =
        ((Text.dropStart? head cs).bind linkTarget?).map fun r => (r.1, crlf r.2) := by
    rw [Text.dropStart?_crlf h]
    cases Text.dropStart? head cs with
    | none => rfl
    | some rest => exact linkTarget?_crlf rest
  unfold link? linkHeads
  rw [List.map_findSome?]
  simp only [List.findSome?_cons, Function.comp_apply]
  rw [hhead _ (by simp [isBreak]), hhead _ (by simp [isBreak])]
  simp only [List.findSome?_nil]

/-- The targets of all links are the same. -/
lemma linksOf_crlf (cs : List Char) : linksOf (crlf cs) = linksOf cs := by
  refine linksOf_change rfl link?_crlf (fun c cs hnone => ?_) cs
  by_cases hc : c = '\n'
  · -- The two characters of the break are passed over.
    rw [hc, Text.crlf_newline]
    exact linksOf_append (by decide : '\x7b' ∉ ['\r', '\n']) (crlf cs)
  · have hlink := link?_crlf (c :: cs)
    rw [hnone, Text.crlf_cons hc] at hlink
    rw [Text.crlf_cons hc]
    exact linksOf_of_eq_none hlink

/-! ## The whole comment -/

/-- A doc comment says the same, however its lines end. -/
theorem parse_withCrlf (text : String) : parse (Text.withCrlf text) = parse text := by
  have hlines : (Text.splitAt '\n' (crlf (inner text.toList))).map undecorate =
      (Text.splitAt '\n' (inner text.toList)).map undecorate := by
    rw [Text.splitAt_newline_crlf, map_undecorate_withReturns]
  have hlinks : linksFrom (crlf (inner text.toList)).length (crlf (inner text.toList)) =
      linksFrom (inner text.toList).length (inner text.toList) := linksOf_crlf (inner text.toList)
  have hinherit : Text.contains "\x7b@inheritDoc\x7d".toList (crlf (inner text.toList)) =
      Text.contains "\x7b@inheritDoc\x7d".toList (inner text.toList) :=
    Text.contains_crlf (by decide) (by simp [isBreak]) _
  simp only [parse, Text.toList_withCrlf, inner_crlf, hlines, hlinks, hinherit]

/-! ## Arguments of tags -/

/-- A text without blanks has no line break. -/
lemma oneLine_of_isBlank {cs : List Char} (h : ∀ c ∈ cs, Text.isBlank c = false) :
    OneLine (String.ofList cs) := by
  intro hmem
  rw [String.toList_ofList] at hmem
  cases h '\n' hmem

/-- No line ends in the argument of a tag. -/
lemma oneLine_of_tagOf {name argument : String} {rest : List Char}
    (h : (tagOf name rest).argument = some argument) : OneLine argument := by
  unfold tagOf at h
  split at h
  · split at h
    · rename_i before body hcut
      obtain rfl := Option.some.inj h
      obtain ⟨-, -, -, hbefore⟩ := Text.exists_of_cut? hcut
      exact oneLine_of_isBlank hbefore
    · rename_i hcut
      dsimp only at h
      split at h
      · cases h
      · obtain rfl := Option.some.inj h
        exact oneLine_of_isBlank (Text.forall_of_cut?_eq_none hcut)
  · cases h

/-- No line ends in the argument of a tag that starts on a line. -/
lemma oneLine_of_readTag? {line : List Char} {tag : DocTag} {argument : String}
    (h : readTag? line = some tag) (hargument : tag.argument = some argument) :
    OneLine argument := by
  unfold readTag? at h
  split at h
  · split at h
    · cases h
    · obtain rfl := Option.some.inj h
      exact oneLine_of_tagOf hargument
  · cases h

/-- A further line does not change the arguments. -/
lemma map_argument_extendLast (line : String) (tags : List DocTag) :
    (extendLast line tags).map DocTag.argument = tags.map DocTag.argument := by
  fun_induction extendLast line tags with
  | case1 => rfl
  | case2 tag => rfl
  | case3 tag tags _ ih => rw [List.map_cons, List.map_cons, ih]

/-- No line ends in the arguments of the tags of a comment. -/
lemma oneLine_of_mem_tags {text : String} {tag : DocTag} (htag : tag ∈ (parse text).tags)
    {argument : String} (h : tag.argument = some argument) : OneLine argument := by
  have hfold (lines : List (List Char)) (state : List String × List DocTag)
      (hstate : ∀ a ∈ state.2.map DocTag.argument, ∀ argument, a = some argument →
        OneLine argument) :
      ∀ a ∈ (lines.foldl addLine state).2.map DocTag.argument, ∀ argument, a = some argument →
        OneLine argument := by
    induction lines generalizing state with
    | nil => exact hstate
    | cons line lines ih =>
      refine ih _ ?_
      unfold addLine
      split
      · rename_i tag' htag'
        rw [List.map_append, List.forall_mem_append]
        refine ⟨hstate, ?_⟩
        intro a ha argument hargument
        obtain rfl : a = tag'.argument := by simpa using ha
        exact oneLine_of_readTag? htag' hargument
      · split
        · exact hstate
        · split
          · simp
          · rw [map_argument_extendLast]
            exact hstate
  exact hfold _ ([], []) (by simp) tag.argument (List.mem_map_of_mem htag) argument h

end DocComment

/-! ## Declarations -/

/-- No line ends in the last part of a name, if none ends in the name. -/
lemma DocCheck.oneLine_simpleName {name : String} (h : OneLine name) :
    OneLine (DocCheck.simpleName name) := by
  intro hmem
  unfold DocCheck.simpleName at hmem
  rw [String.toList_ofList] at hmem
  cases hlast : (Text.splitAt '.' name.toList).getLast? with
  | none => simp [hlast] at hmem
  | some piece =>
    rw [hlast] at hmem
    exact h (Text.mem_of_mem_splitAt (List.mem_of_getLast? hlast) hmem)

/-- The last part of a changed name. -/
lemma DocCheck.simpleName_withCrlf (name : String) :
    DocCheck.simpleName (Text.withCrlf name) = Text.withCrlf (DocCheck.simpleName name) := by
  unfold DocCheck.simpleName
  rw [Text.toList_withCrlf, Text.splitAt_crlf (by decide) (by decide), List.getLast?_map,
    Text.withCrlf, String.toList_ofList]
  cases (Text.splitAt '.' name.toList).getLast? <;> rfl

/-- A changed type covers an exception if it did before. -/
lemma DocCheck.covers_withCrlf (declared : String) {name : String} (h : OneLine name) :
    DocCheck.covers (Text.withCrlf declared) name = DocCheck.covers declared name := by
  have hexception : OneLine "Exception" := by decide
  have hthrowable : OneLine "Throwable" := by decide
  simp only [DocCheck.covers, DocCheck.simpleName_withCrlf, h.withCrlf_eq_iff,
    hexception.withCrlf_eq_iff, hthrowable.withCrlf_eq_iff]

/-- A method gives no result if it did not before. -/
lemma Declaration.returnsVoid_withCrlf (d : Declaration) :
    d.withCrlf.returnsVoid = d.returnsVoid := by
  have hvoid : OneLine "void" := by decide
  unfold Declaration.returnsVoid Declaration.withCrlf
  cases d.returnType with
  | none => rfl
  | some type => simp [hvoid.withCrlf_eq_iff]

namespace DocCheck

/-- The exceptions that can be thrown are the same. -/
lemma knowsException_withCrlf (d : Declaration) {argument : String} (h : OneLine argument) :
    knowsException d.withCrlf argument = knowsException d argument := by
  have hname := oneLine_simpleName h
  simp only [knowsException, Declaration.withCrlf, List.any_map, Function.comp_def,
    covers_withCrlf _ hname]

/-- The tags that name exceptions which cannot be thrown are the same. -/
lemma unknownExceptions_withCrlf (text : String) (d : Declaration) :
    unknownExceptions (.parse text) d.withCrlf = unknownExceptions (.parse text) d := by
  have hkind : d.withCrlf.kind = d.kind := rfl
  have hknows : ∀ tag ∈ (DocComment.parse text).tagsNamed "throws" ++
      (DocComment.parse text).tagsNamed "exception",
      (!tag.argument.any (knowsException d.withCrlf)) = !tag.argument.any (knowsException d) := by
    intro tag htag
    have hmem : tag ∈ (DocComment.parse text).tags := by
      rcases List.mem_append.1 htag with htag | htag <;> exact (List.mem_filter.1 htag).1
    cases hargument : tag.argument with
    | none => simp only [Option.any_none]
    | some argument =>
      have hline := DocComment.oneLine_of_mem_tags hmem hargument
      simp only [Option.any_some, knowsException_withCrlf d hline]
  rw [unknownExceptions, unknownExceptions, hkind, List.filter_congr hknows]

/-- The comment fits a changed declaration as it fits the declaration. -/
theorem of_withCrlf (text : String) (types members : List String) {declaration : Option Declaration}
    (h : ∀ d, declaration = some d → d.NamesInLine) :
    DocCheck.of (.parse text) (declaration.map .withCrlf) types members =
      DocCheck.of (.parse text) declaration types members := by
  cases declaration with
  | none => rfl
  | some d =>
    obtain ⟨-, hparams, htypeParams, hcomponents⟩ := h d rfl
    have hkind : d.withCrlf.kind = d.kind := rfl
    have hparams' : d.withCrlf.params = d.params := OneLine.map_withCrlf hparams
    have htypeParams' : d.withCrlf.typeParams = d.typeParams := OneLine.map_withCrlf htypeParams
    have hcomponents' : d.withCrlf.recordComponents = d.recordComponents :=
      OneLine.map_withCrlf hcomponents
    have hvoid := d.returnsVoid_withCrlf
    have hfits : fitsSubject (.parse text) d.withCrlf = fitsSubject (.parse text) d := rfl
    have hexceptions := unknownExceptions_withCrlf text d
    have hknows : knowsParam d.withCrlf = knowsParam d := by
      funext argument
      simp only [knowsParam, hparams', htypeParams', hcomponents']
    simp only [Option.map_some, DocCheck.of, hfits, unknownParams, strayReturns, undocumented,
      lacksReturn, hkind, hparams', hcomponents', hvoid, hexceptions, hknows]

end DocCheck

end JavaLint
