import JavaLint.Doc.Check
import JavaLint.Lexeme.Scan
import JavaLint.Proofs.Doc.Links
import JavaLint.Proofs.Doc.Margins
import Mathlib.Data.List.Nodup

/-!
# Complete doc comments

A method or a constructor is documented completely by a word, and a block tag for each type parameter,
each parameter, the result, and each exception.  The comment is read back as these tags
(`parse_ofTags`), and it passes all checks, whatever else the file declares.  Without the tag of one
parameter, exactly this parameter is missed (`complete_comment_passes`).
-/

namespace JavaLint

open Text (isBlank)

/-! ## Names -/

namespace Text

/-- Every range of one list ends before a range of another one starts, or starts after it ends. -/
def areDisjoint (ranges others : List (Nat × Nat)) : Bool :=
  ranges.all fun r => others.all fun o => r.2 < o.1 || o.2 < r.1

/-- No character is in two classes whose ranges are disjoint. -/
lemma inRanges_of_areDisjoint {ranges others : List (Nat × Nat)} (h : areDisjoint ranges others = true)
    {c : Char} (hc : inRanges ranges c = true) : inRanges others c = false := by
  by_contra hother
  obtain ⟨r, hr, hcr⟩ := List.any_eq_true.1 hc
  obtain ⟨o, ho, hco⟩ := List.any_eq_true.1 (Bool.not_eq_false _ ▸ hother)
  have hapart := List.all_eq_true.1 (List.all_eq_true.1 h r hr) o ho
  simp only [Bool.and_eq_true, Bool.or_eq_true, decide_eq_true_eq] at hcr hco hapart
  omega

end Text

namespace Lexeme

/-- A character of a name is not a blank. -/
lemma isBlank_of_continuesWord {c : Char} (h : continuesWord c = true) : isBlank c = false := by
  cases hascii : Text.isAscii c with
  | true =>
    have hall : ((List.range 128).map Char.ofNat).all
        (fun d => !(continuesWord d && isBlank d)) = true := by
      decide +kernel
    have hmem : c ∈ (List.range 128).map Char.ofNat :=
      List.mem_map.2 ⟨c.toNat, by simpa [Text.isAscii] using hascii, Char.ofNat_toNat c⟩
    simpa [h] using List.all_eq_true.1 hall c hmem
  | false =>
    have hletters : Text.areDisjoint Text.letterRanges Text.blankRanges = true := by decide +kernel
    have hdigits : Text.areDisjoint Text.digitRanges Text.blankRanges = true := by decide +kernel
    have hclass : ((c = '_' ∨ c = '$') ∨ Text.inRanges Text.letterRanges c = true) ∨
        Text.inRanges Text.digitRanges c = true := by
      simpa [continuesWord, startsWord, Text.isLetter, Text.isDecimalDigit, hascii] using h
    have hblank : isBlank c = Text.inRanges Text.blankRanges c := by rw [isBlank, hascii]; rfl
    rw [hblank]
    rcases hclass with ((rfl | rfl) | hletter) | hdigit
    · cases hascii
    · cases hascii
    · exact Text.inRanges_of_areDisjoint hletters hletter
    · exact Text.inRanges_of_areDisjoint hdigits hdigit

/-- A letter of ASCII continues a name. -/
lemma continuesWord_of_isAlpha {c : Char} (h : c.isAlpha = true) : continuesWord c = true := by
  have hascii : Text.isAscii c = true := by
    have hval : c.val ≤ 122 := by
      rcases Bool.or_eq_true_iff.1 h with h | h
      · exact UInt32.le_trans (of_decide_eq_true h).2 (by decide)
      · have hbounds : (decide (c.val ≥ 97) && decide (c.val ≤ 122)) = true := h
        exact of_decide_eq_true (Bool.and_eq_true_iff.1 hbounds).2
    exact decide_eq_true (Nat.lt_of_le_of_lt (UInt32.le_iff_toNat_le.1 hval) (by decide))
  simp [continuesWord, startsWord, Text.isLetter, hascii, h]

/-- The text is an identifier. -/
def isIdentifier (cs : List Char) : Bool :=
  cs.head?.any startsWord && cs.all continuesWord

/-- The text is made of identifiers with points between them. -/
def isDotted (cs : List Char) : Bool :=
  (Text.splitAt '.' cs).all isIdentifier

end Lexeme

/-- The text can stand as one word after the name of a tag: it is not empty, and there are neither
blanks nor opening braces in it. -/
structure IsWord (cs : List Char) : Prop where
  ne_nil : cs ≠ []
  isBlank_eq : ∀ c ∈ cs, isBlank c = false
  notMem : '\x7b' ∉ cs

/-- An identifier is a word. -/
lemma IsWord.of_isIdentifier {cs : List Char} (h : Lexeme.isIdentifier cs = true) : IsWord cs := by
  obtain ⟨hhead, hall⟩ := Bool.and_eq_true_iff.1 h
  rw [List.all_eq_true] at hall
  refine ⟨?_, fun c hc => Lexeme.isBlank_of_continuesWord (hall c hc), ?_⟩
  · rintro rfl
    cases hhead
  · intro hmem
    cases hall _ hmem

/-- A name with points is a word. -/
lemma IsWord.of_isDotted {cs : List Char} (h : Lexeme.isDotted cs = true) : IsWord cs := by
  rw [Lexeme.isDotted, List.all_eq_true] at h
  have hpart {c : Char} (hc : c ∈ cs) : c = '.' ∨ Lexeme.continuesWord c = true := by
    obtain hpoint | ⟨part, hpart, hmem⟩ := Text.mem_splitAt_of_mem '.' hc
    · exact .inl hpoint
    · exact .inr (List.all_eq_true.1 (Bool.and_eq_true_iff.1 (h part hpart)).2 c hmem)
  refine ⟨?_, fun c hc => ?_, fun hmem => ?_⟩
  · rintro rfl
    cases h [] (by simp [Text.splitAt])
  · rcases hpart hc with rfl | hword
    · rfl
    · exact Lexeme.isBlank_of_continuesWord hword
  · rcases hpart hmem with hpoint | hword
    · cases hpoint
    · cases hword

/-- The text can stand on the rest of a line: it is not empty, nothing is trimmed from its ends, it is
on one line, and there are no opening braces in it. -/
structure IsPhrase (cs : List Char) : Prop where
  ne_nil : cs ≠ []
  trim_eq : Text.trim cs = cs
  oneLine : '\n' ∉ cs
  notMem : '\x7b' ∉ cs

/-! ## Block tags and their lines -/

namespace DocTag

/-- The line on which a tag is written. -/
def line (tag : DocTag) : List Char :=
  (tag.render ++ " " ++ tag.body).toList

/-- The tag is one that a line can say: its name is made of letters, it has an argument if its name
takes one, and its body is not empty. -/
structure IsWritable (tag : DocTag) : Prop where
  name_ne_nil : tag.name.toList ≠ []
  isAlpha_name : ∀ c ∈ tag.name.toList, c.isAlpha = true
  takesArgument_iff : takesArgument tag.name = tag.argument.isSome
  isWord_argument : ∀ argument ∈ tag.argument, IsWord argument.toList
  isPhrase_body : IsPhrase tag.body.toList

end DocTag

namespace DocComment

/-- The name of a tag ends at a blank. -/
lemma readTag?_of_isAlpha {name : List Char} (hne : name ≠ []) (hname : ∀ c ∈ name, c.isAlpha = true)
    (rest : List Char) :
    readTag? ('@' :: (name ++ ' ' :: rest)) = some (tagOf (String.ofList name) (Text.trim rest)) := by
  obtain ⟨c, cs, rfl⟩ := List.exists_cons_of_ne_nil hne
  have htake : (c :: cs ++ ' ' :: rest).takeWhile Char.isAlpha = c :: cs := by
    rw [List.takeWhile_append_of_pos hname]
    simp
  have hdrop : (c :: cs ++ ' ' :: rest).dropWhile Char.isAlpha = ' ' :: rest := by
    rw [List.dropWhile_append_of_pos hname]
    rfl
  have htrim : Text.trim (' ' :: rest) = Text.trim rest :=
    Text.trim_append_left (List.forall_mem_singleton.2 rfl) rest
  rw [readTag?, htake, hdrop, htrim]

/-- The line of a tag is read back as the tag. -/
lemma readTag?_line {tag : DocTag} (h : tag.IsWritable) : readTag? tag.line = some tag := by
  obtain ⟨hne, halpha, htakes, hargument, hbody⟩ := h
  obtain ⟨name, argument, body⟩ := tag
  cases argument with
  | none =>
    have hline : DocTag.line ⟨name, none, body⟩ = '@' :: (name.toList ++ ' ' :: body.toList) := by
      simp [DocTag.line, DocTag.render]
    have htag : tagOf name body.toList = ⟨name, none, body⟩ := by
      rw [tagOf, htakes]
      simp
    rw [hline, readTag?_of_isAlpha hne halpha, hbody.trim_eq, String.ofList_toList, htag]
  | some argument =>
    obtain ⟨hword, hblank, -⟩ := hargument argument rfl
    have hline : DocTag.line ⟨name, some argument, body⟩ =
        '@' :: (name.toList ++ ' ' :: (argument.toList ++ ' ' :: body.toList)) := by
      simp [DocTag.line, DocTag.render]
    have htrim : Text.trim (argument.toList ++ ' ' :: body.toList) =
        argument.toList ++ ' ' :: body.toList := by
      obtain ⟨c, cs, hargument⟩ := List.exists_cons_of_ne_nil hword
      have hc : isBlank c = false := hblank c (by simp [hargument])
      have htrim := Text.trim_cons_append hc hbody.ne_nil hbody.trim_eq (cs ++ [' '])
      rw [hargument]
      simpa using htrim
    have htag : tagOf name (argument.toList ++ ' ' :: body.toList) = ⟨name, some argument, body⟩ := by
      have hcut := Text.cut?_append_cons (c := ' ') hblank rfl body.toList
      rw [tagOf, htakes, hcut]
      simp [hbody.trim_eq]
    rw [hline, readTag?_of_isAlpha hne halpha, htrim, String.ofList_toList, htag]

/-! ## Comments made of a description and tags -/

/-- The comment that gives a description and then the tags, each on a line with a star. -/
def ofTags (description : String) (tags : List DocTag) : String :=
  ofLines ((description.toList :: tags.map DocTag.line).map (" * ".toList ++ ·))

/-- What may stand on a line: nothing is trimmed from its ends, it is on one line, and it starts
neither with a star nor holds it an opening brace. -/
structure IsContent (cs : List Char) : Prop where
  trim_eq : Text.trim cs = cs
  oneLine : '\n' ∉ cs
  unstarred : cs.head? ≠ some '*'
  notMem : '\x7b' ∉ cs

/-- The line of a tag may stand in a comment. -/
lemma isContent_line {tag : DocTag} (h : tag.IsWritable) : IsContent tag.line := by
  obtain ⟨hne, htrim, hone, hbrace⟩ := h.isPhrase_body
  have hplain : ∀ c ∈ tag.render.toList, c ≠ '\n' ∧ c ≠ '\x7b' := by
    have hname (c : Char) (hc : c ∈ tag.name.toList) : c ≠ '\n' ∧ c ≠ '\x7b' := by
      have halpha := h.isAlpha_name c hc
      constructor
      · rintro rfl
        cases halpha
      · rintro rfl
        cases halpha
    cases hargument : tag.argument with
    | none => simpa [DocTag.render, hargument] using hname
    | some argument =>
      obtain ⟨-, hblank, hnot⟩ := h.isWord_argument argument hargument
      have hword (c : Char) (hc : c ∈ argument.toList) : c ≠ '\n' ∧ c ≠ '\x7b' := by
        constructor
        · rintro rfl
          cases hblank _ hc
        · rintro rfl
          exact hnot hc
      intro c hc
      simp only [DocTag.render, hargument, String.toList_append, List.mem_append] at hc
      rcases hc with ((hc | hc) | hc) | hc
      · rw [List.mem_singleton.1 hc]
        decide
      · exact hname c hc
      · rw [List.mem_singleton.1 hc]
        decide
      · exact hword c hc
  obtain ⟨cs, hrender⟩ : ∃ cs, tag.render.toList = '@' :: cs := by
    cases hargument : tag.argument with
    | none => exact ⟨_, by simp [DocTag.render, hargument]; rfl⟩
    | some argument => exact ⟨_, by simp [DocTag.render, hargument]; rfl⟩
  have hline : tag.line = '@' :: (cs ++ [' ']) ++ tag.body.toList := by
    simp [DocTag.line, hrender]
  rw [hrender, List.forall_mem_cons] at hplain
  refine ⟨?_, ?_, ?_, ?_⟩
  · rw [hline]
    exact Text.trim_cons_append rfl hne htrim _
  · have hcs : '\n' ∉ cs := fun hmem => (hplain.2 _ hmem).1 rfl
    simp [hline, hcs, hone]
  · rw [hline]
    simp
  · have hcs : '\x7b' ∉ cs := fun hmem => (hplain.2 _ hmem).2 rfl
    simp [hline, hcs, hbrace]

/-- The tags are added one after the other. -/
lemma foldl_addLine_tags {tags : List DocTag} (h : ∀ tag ∈ tags, tag.IsWritable)
    (lines : List String) (before : List DocTag) :
    (tags.map DocTag.line).foldl addLine (lines, before) = (lines, before ++ tags) := by
  induction tags generalizing before with
  | nil => simp
  | cons tag tags ih =>
    obtain ⟨htag, htags⟩ := List.forall_mem_cons.1 h
    rw [List.map_cons, List.foldl_cons, addLine, readTag?_line htag]
    dsimp only
    rw [ih htags, List.append_assoc]
    rfl

/-- What may stand on a line can be written on one, with a star. -/
lemma exists_writtenLines {contents : List (List Char)} (h : ∀ cs ∈ contents, IsContent cs) :
    ∃ lines : List WrittenLine, lines.map WrittenLine.content = contents ∧
      lines.map WrittenLine.starred = contents.map (" * ".toList ++ ·) := by
  induction contents with
  | nil => exact ⟨[], rfl, rfl⟩
  | cons cs contents ih =>
    obtain ⟨hcs, hcontents⟩ := List.forall_mem_cons.1 h
    obtain ⟨lines, hlines, hstarred⟩ := ih hcontents
    refine ⟨⟨[' '], cs, [], by decide, by decide, hcs.trim_eq, hcs.oneLine, hcs.unstarred⟩ :: lines,
      ?_, ?_⟩
    · rw [List.map_cons, hlines]
    · simp [hstarred, WrittenLine.starred]

/-- There are no links in a comment without opening braces. -/
lemma links_ofLines {contents : List (List Char)} (h : ∀ cs ∈ contents, IsContent cs) :
    (parse (ofLines (contents.map (" * ".toList ++ ·)))).links = [] := by
  have hbrace : '\x7b' ∉ inner (ofLines (contents.map (" * ".toList ++ ·))).toList := by
    rw [inner_ofLines]
    intro hmem
    obtain ⟨text, htext, hmem⟩ := List.mem_flatMap.1 hmem
    rcases List.mem_append.1 htext with htext | htext
    · obtain ⟨cs, hcs, rfl⟩ := List.mem_map.1 htext
      simp [(h cs hcs).notMem] at hmem
    · simp [List.mem_singleton.1 htext] at hmem
  have hlinks := linksOf_append hbrace []
  rw [List.append_nil] at hlinks
  rw [links_parse, hlinks]
  rfl

/-- A comment made of a word and tags is read back as these, and there is nothing else in it. -/
theorem parse_ofTags {word : String} (hne : word ≠ "") (hword : ∀ c ∈ word.toList, c.isAlpha = true)
    {tags : List DocTag} (h : ∀ tag ∈ tags, tag.IsWritable) :
    parse (ofTags word tags) =
      { description := word, tags := tags, links := [], inheritDoc := false } := by
  obtain ⟨c, cs, hcs⟩ := List.exists_cons_of_ne_nil (String.toList_eq_nil_iff.not.2 hne)
  have hcontents : ∀ cs ∈ word.toList :: tags.map DocTag.line, IsContent cs := by
    have hstrange (d : Char) (hd : d.isAlpha = false) : d ∉ word.toList := by
      intro hmem
      rw [hword d hmem] at hd
      cases hd
    have hblank (d : Char) (hd : d ∈ word.toList) : isBlank d = false :=
      Lexeme.isBlank_of_continuesWord (Lexeme.continuesWord_of_isAlpha (hword d hd))
    have hstar : word.toList.head? ≠ some '*' := by
      intro hstar
      exact hstrange '*' rfl (List.mem_of_head? hstar)
    refine List.forall_mem_cons.2 ⟨⟨Text.trim_of_isBlank hblank, hstrange _ rfl, hstar,
      hstrange _ rfl⟩, ?_⟩
    intro cs hcs
    obtain ⟨tag, htag, rfl⟩ := List.mem_map.1 hcs
    exact isContent_line (h tag htag)
  obtain ⟨lines, hlines, hstarred⟩ := exists_writtenLines hcontents
  obtain ⟨hdescription, htags, hinherit⟩ := parse_ofLines (fun _ => Or.inl rfl) lines
  have hlinks := links_ofLines hcontents
  have hblocks : blocks (word.toList :: tags.map DocTag.line) = ([word], tags) := by
    have hfirst : addLine ([], []) word.toList = ([word], []) := by
      have hc : c ≠ '@' := by
        rintro rfl
        cases hword '@' (by simp [hcs])
      have hread : readTag? word.toList = none := by
        rw [hcs, readTag?]
        rintro cs ⟨⟩
        exact hc rfl
      have hempty : word.toList.isEmpty = false := by rw [hcs]; rfl
      simp [addLine, hread, hempty]
    rw [blocks, List.foldl_cons, hfirst, foldl_addLine_tags h, List.nil_append]
  rw [hstarred, hlines, hblocks] at hdescription htags
  rw [hstarred, hlines] at hinherit
  have hnone : (word.toList :: tags.map DocTag.line).any
      (Text.contains "\x7b@inheritDoc\x7d".toList) = false := by
    rw [List.any_eq_false]
    intro cs hcs
    rw [Text.contains_eq_false (c := '\x7b') (by decide) (hcontents cs hcs).notMem]
    exact Bool.false_ne_true
  rw [hnone] at hinherit
  rw [ofTags]
  generalize parse (ofLines _) = doc at hdescription htags hlinks hinherit ⊢
  obtain ⟨description, docTags, links, inheritDoc⟩ := doc
  dsimp only at hdescription htags hlinks hinherit
  rw [hdescription, htags, hlinks, hinherit]
  rfl

example : ofTags "Copies" [⟨"param", some "n", "how many"⟩] =
    "/**\n * Copies\n * @param n how many\n */" := by
  decide

end DocComment

/-! ## The tags that a declaration asks for -/

namespace Declaration

/-- The tags that document a method or a constructor: one for each type parameter, one for each of the
given parameters, one for the result, if there is one, and one for each exception. -/
def docTags (d : Declaration) (params : List String) (text : String) : List DocTag :=
  d.typeParams.map (fun t => ⟨"param", some ("<" ++ t ++ ">"), text⟩) ++
    params.map (fun p => ⟨"param", some p, text⟩) ++
    (if d.kind = .method && !d.returnsVoid then [⟨"return", none, text⟩] else []) ++
    d.throwsTypes.map fun e => ⟨"throws", some e, text⟩

/-- The names of the declaration are written as Java has them. -/
structure IsWellNamed (d : Declaration) : Prop where
  isIdentifier_params : ∀ p ∈ d.params, Lexeme.isIdentifier p.toList = true
  isIdentifier_typeParams : ∀ t ∈ d.typeParams, Lexeme.isIdentifier t.toList = true
  isDotted_throwsTypes : ∀ e ∈ d.throwsTypes, Lexeme.isDotted e.toList = true

variable {d : Declaration} {params : List String} {text : String}

/-- The tags of a declaration can be written on lines. -/
lemma isWritable_docTags (h : d.IsWellNamed) (hparams : params ⊆ d.params)
    (htext : IsPhrase text.toList) : ∀ tag ∈ d.docTags params text, tag.IsWritable := by
  have hargument {name argument : String} (hne : name.toList ≠ [])
      (halpha : name.toList.all Char.isAlpha = true) (htakes : DocTag.takesArgument name = true)
      (hword : IsWord argument.toList) : DocTag.IsWritable ⟨name, some argument, text⟩ := by
    refine ⟨hne, List.all_eq_true.1 halpha, htakes, ?_, htext⟩
    rintro _ ⟨⟩
    exact hword
  intro tag htag
  simp only [docTags, List.mem_append, List.mem_map] at htag
  rcases htag with ((⟨t, ht, rfl⟩ | ⟨p, hp, rfl⟩) | hreturn) | ⟨e, he, rfl⟩
  · refine hargument (by decide) (by decide) rfl ?_
    obtain ⟨-, hblank, hbrace⟩ := IsWord.of_isIdentifier (h.isIdentifier_typeParams t ht)
    refine ⟨by simp, ?_, by simp [hbrace]⟩
    intro c hc
    simp only [String.toList_append, List.mem_append] at hc
    rcases hc with (hc | hc) | hc
    · rw [List.mem_singleton.1 hc]
      rfl
    · exact hblank c hc
    · rw [List.mem_singleton.1 hc]
      rfl
  · exact hargument (by decide) (by decide) rfl
      (.of_isIdentifier (h.isIdentifier_params p (hparams hp)))
  · split at hreturn
    · have hne : "return".toList ≠ [] := by decide
      have halpha : ∀ c ∈ "return".toList, c.isAlpha = true :=
        List.all_eq_true.1 (by decide)
      rw [List.mem_singleton.1 hreturn]
      exact ⟨hne, halpha, rfl, nofun, htext⟩
    · cases hreturn
  · exact hargument (by decide) (by decide) rfl (.of_isDotted (h.isDotted_throwsTypes e he))

end Declaration

/-! ## The checks of such a comment -/

namespace DocCheck

variable {d : Declaration} {params : List String} {text : String}

/-- An identifier does not start with an angle bracket. -/
lemma ne_brackets_of_isIdentifier {p : String} (h : Lexeme.isIdentifier p.toList = true) (t : String) :
    p ≠ "<" ++ t ++ ">" := by
  rintro rfl
  simp [Lexeme.isIdentifier, Lexeme.startsWord, Text.isLetter, Text.isAscii] at h

/-- An identifier does not stand between angle brackets. -/
lemma typeArgument?_of_isIdentifier {cs : List Char} (h : Lexeme.isIdentifier cs = true) :
    typeArgument? cs = none := by
  have hstart : Text.dropStart? ['<'] cs = none := by
    rw [Option.eq_none_iff_forall_ne_some]
    intro rest hrest
    rw [Text.dropStart?_eq_some_iff.1 hrest] at h
    cases h
  rw [typeArgument?, hstart, Option.bind_none]

/-- What stands between angle brackets is found. -/
lemma typeArgument?_of_brackets (t : String) :
    typeArgument? ("<" ++ t ++ ">").toList = some t.toList := by
  have hstart : Text.dropStart? ['<'] ("<" ++ t ++ ">").toList = some (t.toList ++ ['>']) :=
    Text.dropStart?_eq_some_iff.2 (by simp)
  rw [typeArgument?, hstart, Option.bind_some]
  exact Text.dropEnd?_eq_some_iff.2 rfl

section Complete

variable (d params text) (word : String)

/-- The comment that consists of a word and of the tags of a declaration. -/
def docOf : DocComment :=
  { description := word, tags := d.docTags params text, links := [], inheritDoc := false }

/-- The `@param` tags are those of the type parameters and of the parameters. -/
lemma tagsNamed_param : (docOf d params text word).tagsNamed "param" =
    d.typeParams.map (fun t => ⟨"param", some ("<" ++ t ++ ">"), text⟩) ++
      params.map fun p => ⟨"param", some p, text⟩ := by
  simp only [docOf, DocComment.tagsNamed, Declaration.docTags, List.filter_append, List.filter_map,
    Function.comp_def]
  split <;> simp

/-- There is a `@return` tag if there is a result. -/
lemma tagsNamed_return : (docOf d params text word).tagsNamed "return" =
    if d.kind = .method && !d.returnsVoid then [⟨"return", none, text⟩] else [] := by
  simp only [docOf, DocComment.tagsNamed, Declaration.docTags, List.filter_append, List.filter_map,
    Function.comp_def]
  split <;> simp

/-- The `@throws` tags are those of the exceptions. -/
lemma tagsNamed_throws : (docOf d params text word).tagsNamed "throws" =
    d.throwsTypes.map fun e => ⟨"throws", some e, text⟩ := by
  simp only [docOf, DocComment.tagsNamed, Declaration.docTags, List.filter_append, List.filter_map,
    Function.comp_def]
  split <;> simp

/-- There are no other tags that name something. -/
lemma tagsNamed_eq_nil {name : String} (h : name = "exception" ∨ name = "see") :
    (docOf d params text word).tagsNamed name = [] := by
  simp only [docOf, DocComment.tagsNamed, Declaration.docTags, List.filter_append, List.filter_map,
    Function.comp_def]
  rcases h with rfl | rfl
  · split <;> simp
  · split <;> simp

variable {d params} (hd : d.IsWellNamed) (hparams : params ⊆ d.params)

include hd hparams in
/-- Every `@param` tag names something that the declaration has. -/
lemma unknownParams_docOf : unknownParams (docOf d params text word) d = [] := by
  rw [unknownParams, tagsNamed_param, List.map_eq_nil_iff, List.filter_eq_nil_iff]
  intro tag htag
  rcases List.mem_append.1 htag with htag | htag
  · obtain ⟨t, ht, rfl⟩ := List.mem_map.1 htag
    have hknows : knowsParam d ("<" ++ t ++ ">") = true := by
      rw [knowsParam, typeArgument?_of_brackets]
      simp [ht]
    simp [hknows]
  · obtain ⟨p, hp, rfl⟩ := List.mem_map.1 htag
    have hnone := typeArgument?_of_isIdentifier (hd.isIdentifier_params p (hparams hp))
    simp [knowsParam, hnone, hparams hp]

/-- There is no `@return` tag where there is no result. -/
lemma strayReturns_docOf : strayReturns (docOf d params text word) d = [] := by
  rw [strayReturns, tagsNamed_return]
  split
  · rename_i hnone
    have hresult : (d.kind = .method && !d.returnsVoid) = false := by
      rcases Bool.or_eq_true_iff.1 hnone with hkind | hvoid
      · simp [of_decide_eq_true hkind]
      · simp [hvoid]
    rw [hresult]
    rfl
  · rfl

/-- Every exception that is named is declared. -/
lemma unknownExceptions_docOf : unknownExceptions (docOf d params text word) d = [] := by
  rw [unknownExceptions, tagsNamed_throws, tagsNamed_eq_nil _ _ _ _ (.inl rfl), List.append_nil]
  split
  · rw [List.map_eq_nil_iff, List.filter_eq_nil_iff]
    intro tag htag
    obtain ⟨e, he, rfl⟩ := List.mem_map.1 htag
    have hcovers : d.throwsTypes.any (fun declared => covers declared (simpleName e)) = true :=
      List.any_eq_true.2 ⟨e, he, by simp [covers]⟩
    simp [knowsException, hcovers]
  · rfl

/-- The comment refers to nothing. -/
lemma unknownReferences_docOf (types members : List String) :
    unknownReferences (docOf d params text word) types members = [] := by
  rw [unknownReferences, DocComment.references, tagsNamed_eq_nil _ _ _ _ (.inr rfl)]
  rfl

include hd in
/-- The parameters without a tag are those that were left out. -/
lemma undocumented_docOf (hkind : d.kind.isExecutable = true) :
    undocumented (docOf d params text word) d = d.params.filter fun p => !params.contains p := by
  have hrecord : d.kind ≠ .recordDecl := by
    intro hrecord
    rw [hrecord] at hkind
    cases hkind
  rw [undocumented, tagsNamed_param, if_neg hrecord]
  refine List.filter_congr fun p hp => ?_
  have hne (t : String) : "<" ++ t ++ ">" ≠ p :=
    (ne_brackets_of_isIdentifier (hd.isIdentifier_params p hp) t).symm
  have hmem : p ∈ d.typeParams.map (fun t => "<" ++ t ++ ">") ++ params ↔ p ∈ params := by
    rw [List.mem_append, List.mem_map]
    refine or_iff_right ?_
    rintro ⟨t, -, ht⟩
    exact hne t ht
  have hdocumented : (d.typeParams.map (fun t => (⟨"param", some ("<" ++ t ++ ">"), text⟩ : DocTag)) ++
      params.map fun p => (⟨"param", some p, text⟩ : DocTag)).filterMap DocTag.argument =
      d.typeParams.map (fun t => "<" ++ t ++ ">") ++ params := by
    simp [List.filterMap_map]
  rw [hdocumented, List.contains_eq_mem, List.contains_eq_mem, decide_eq_decide.2 hmem]

/-- The result is documented if there is one. -/
lemma lacksReturn_docOf (htext : text ≠ "") : lacksReturn (docOf d params text word) d = false := by
  rw [lacksReturn, tagsNamed_return]
  cases hresult : (d.kind = .method && !d.returnsVoid) with
  | true => simp [htext]
  | false => rfl

include hd hparams in
/-- The only thing that such a comment can miss are parameters. -/
lemma of_docOf (hkind : d.kind.isExecutable = true) (htext : text ≠ "")
    (types members : List String) :
    DocCheck.of (docOf d params text word) (some d) types members =
      { subjectMatched := true
        unmatchedParams := d.params.filter fun p => !params.contains p } := by
  have hfits : fitsSubject (docOf d params text word) d = true := by
    unfold fitsSubject
    cases hsubject : d.kind with
    | constructor => rfl
    | method => rfl
    | _ =>
      rw [hsubject] at hkind
      cases hkind
  simp only [DocCheck.of, hfits, unknownParams_docOf text word hd hparams, strayReturns_docOf,
    unknownExceptions_docOf, unknownReferences_docOf, undocumented_docOf text word hd hkind,
    lacksReturn_docOf text word htext]
  rfl

end Complete

end DocCheck

/-! ## The result -/

/-- A comment that documents a method or a constructor completely passes, in every file.  If the tag
of one parameter is left out, this parameter is all that is missed. -/
theorem complete_comment_passes {d : Declaration} (hkind : d.kind.isExecutable = true)
    (hd : d.IsWellNamed) (hdistinct : d.params.Nodup) {word text : String} (hne : word ≠ "")
    (hword : ∀ c ∈ word.toList, c.isAlpha = true) (htext : IsPhrase text.toList) (model : Model) :
    let check (params : List String) : DocCheck :=
      DocCheck.of (.parse (DocComment.ofTags word (d.docTags params text))) (some d) model.typeNames
        model.memberNames
    (check d.params).isBad = false ∧
      ∀ p ∈ d.params, (check (d.params.erase p)).subjectMatched = true ∧
        (check (d.params.erase p)).unmatchedTags = [] ∧
        (check (d.params.erase p)).unmatchedParams = [p] := by
  have htext' : text ≠ "" := by
    rintro rfl
    exact htext.ne_nil rfl
  have hcheck {params : List String} (hparams : params ⊆ d.params) :
      DocCheck.of (.parse (DocComment.ofTags word (d.docTags params text))) (some d) model.typeNames
          model.memberNames =
        { subjectMatched := true
          unmatchedParams := d.params.filter fun p => !params.contains p } := by
    rw [DocComment.parse_ofTags hne hword (Declaration.isWritable_docTags hd hparams htext)]
    exact DocCheck.of_docOf text word hd hparams hkind htext' _ _
  intro check
  have hall : check d.params = { subjectMatched := true } := by
    have hnone : (d.params.filter fun p => !d.params.contains p) = [] := by
      rw [List.filter_eq_nil_iff]
      intro p hp
      simp [hp]
    exact (hcheck (List.Subset.refl _)).trans (by rw [hnone])
  refine ⟨by rw [hall]; rfl, fun p hp => ?_⟩
  have hone : check (d.params.erase p) = { subjectMatched := true, unmatchedParams := [p] } := by
    have hleft : (d.params.filter fun q => !(d.params.erase p).contains q) = [p] := by
      have hsame : ∀ q ∈ d.params, (!(d.params.erase p).contains q) = (q == p) := by
        intro q hq
        rw [Bool.eq_iff_iff]
        simp [hdistinct.mem_erase_iff, hq]
      rw [List.filter_congr hsame, List.filter_beq, List.count_eq_one_of_mem hdistinct hp]
      rfl
    exact (hcheck List.erase_subset).trans (by rw [hleft])
  rw [hone]
  exact ⟨rfl, rfl, rfl⟩

/-- A method with a type parameter, a parameter, a result, and an exception. -/
theorem complete_comment_passes_of_copy :
    let d : Declaration :=
      { kind := .method, name := "copy", params := ["count"], typeParams := ["T"],
        returnType := some "T", throwsTypes := ["java.io.IOException"] }
    let model : Model := ⟨#[], #[], #[], #[], [d]⟩
    let check (params : List String) : DocCheck :=
      DocCheck.of (.parse (DocComment.ofTags "Copies" (d.docTags params "some text"))) (some d)
        model.typeNames model.memberNames
    (check d.params).isBad = false ∧
      ∀ p ∈ d.params, (check (d.params.erase p)).subjectMatched = true ∧
        (check (d.params.erase p)).unmatchedTags = [] ∧
        (check (d.params.erase p)).unmatchedParams = [p] :=
  complete_comment_passes rfl ⟨by decide, by decide, by decide⟩ (by decide) (by decide)
    (List.all_eq_true.1 (by decide)) ⟨by decide, by decide, by decide, by decide⟩ _

end JavaLint
