import JavaLint.Proofs.Doc.Complete
import JavaLint.Proofs.Doc.Margins
import JavaLint.Proofs.Doc.Weight
import JavaLint.Proofs.LineEnds.Doc
import Mathlib.Tactic.Common

/-!
# Texts of a doc comment that are glued together

If the end of a line is not seen, the texts of its two sides are glued together, with blanks between them
among which a `\r` is (`Glued`).

A text that is glued to the line of a tag becomes the body of the tag if only a body is missing.  If not,
the tag gets another argument, or a `\r` in its body, which no text of a line has (`IsGluedTag`).  So the
description and the tags stay the same exactly if there is at most one text, or if there are two texts of
which the second is the body that the tag on the first lacks (`said_glued_iff_areOneText`).
-/

namespace JavaLint

open Text (isBlank)

/-- Of what the tag may say, only the body is missing. -/
def DocTag.AwaitsBody (tag : DocTag) : Prop :=
  tag.body = "" ∧ (DocTag.takesArgument tag.name = true → tag.argument ≠ none)

namespace DocComment

/-! ## Texts that are glued together -/

/-- Blanks with a `\r` among them. -/
structure IsReturn (gap : List Char) : Prop where
  mem : '\r' ∈ gap
  isBlank_eq : ∀ c ∈ gap, isBlank c = true

/-- Something that has no blanks at its ends. -/
structure IsText (text : List Char) : Prop where
  ne_nil : text ≠ []
  trim_eq : Text.trim text = text

/-- The texts one after the other, with blanks between them among which a `\r` is. -/
inductive Glued : List (List Char) → List Char → Prop
  | nil : Glued [] []
  | single (text : List Char) : Glued [text] text
  | cons (text : List Char) {gap next glued : List Char} {texts : List (List Char)}
      (hgap : IsReturn gap) (h : Glued (next :: texts) glued) :
      Glued (text :: next :: texts) (text ++ (gap ++ glued))

variable {text gap glued : List Char}

/-- Nothing is glued together from no texts. -/
lemma Glued.eq_nil (h : Glued [] glued) : glued = [] := by
  cases h
  rfl

/-- Two texts with blanks around them are trimmed to the texts and the blanks between them. -/
lemma IsReturn.exists_trim_eq {before after : List Char} (h : IsReturn gap)
    (hbefore : Text.trim before ≠ []) (hafter : Text.trim after ≠ []) :
    ∃ gap', IsReturn gap' ∧
      Text.trim (before ++ (gap ++ after)) = Text.trim before ++ (gap' ++ Text.trim after) := by
  obtain ⟨left, right, hsplit, hleft, hright⟩ := Text.exists_trim before
  obtain ⟨left', right', hsplit', hleft', hright'⟩ := Text.exists_trim after
  refine ⟨right ++ (gap ++ left'), ⟨?_, ?_⟩, ?_⟩
  · exact List.mem_append_right right (List.mem_append_left left' h.mem)
  · simp only [List.forall_mem_append]
    exact ⟨hright, h.isBlank_eq, hleft'⟩
  · calc Text.trim (before ++ (gap ++ after))
      _ = Text.trim (left ++ (Text.trim before ++ (right ++ (gap ++ left') ++ Text.trim after) ++
            right')) := by
        conv_lhs => rw [hsplit, hsplit']
        simp only [List.append_assoc]
      _ = Text.trim (Text.trim before ++ (right ++ (gap ++ left') ++ Text.trim after)) := by
        rw [Text.trim_append_left hleft, Text.trim_append hright']
      _ = Text.trim before ++ (right ++ (gap ++ left') ++ Text.trim after) :=
        Text.trim_append_append hbefore (Text.trim_trim before) _ hafter (Text.trim_trim after)

/-- What is glued together from texts is a text. -/
lemma Glued.isText {texts : List (List Char)} (h : Glued texts glued) (hne : texts ≠ [])
    (htexts : ∀ t ∈ texts, IsText t) : IsText glued := by
  induction h with
  | nil => exact absurd rfl hne
  | single text => exact htexts text List.mem_cons_self
  | cons text hgap h ih =>
    obtain ⟨htext, hrest⟩ := List.forall_mem_cons.1 htexts
    have hglued := ih (List.cons_ne_nil _ _) hrest
    exact ⟨List.append_ne_nil_of_left_ne_nil htext.ne_nil _,
      Text.trim_append_append htext.ne_nil htext.trim_eq _ hglued.ne_nil hglued.trim_eq⟩

/-- Lines that end with a `\r` are glued together. -/
lemma glued_trim (line : List Char) (lines : List (List Char)) :
    Glued (((line :: lines).map Text.trim).filter fun t => !t.isEmpty)
      (Text.trim (line ++ lines.flatMap ('\r' :: ·))) := by
  have hreturn : IsReturn ['\r'] := ⟨List.mem_cons_self, List.forall_mem_singleton.2 rfl⟩
  induction lines generalizing line with
  | nil =>
    rw [List.flatMap_nil, List.append_nil, List.map_singleton]
    by_cases hline : Text.trim line = []
    · simpa [hline] using Glued.nil
    · simpa [hline] using Glued.single _
  | cons next lines ih =>
    have hrest := ih next
    have hjoin : (next :: lines).flatMap ('\r' :: ·) =
        ['\r'] ++ (next ++ lines.flatMap ('\r' :: ·)) := rfl
    rw [hjoin, List.map_cons]
    by_cases hline : Text.trim line = []
    · -- A blank line leaves nothing behind but a part of the margin.
      rw [Text.trim_append_left (Text.trim_eq_nil_iff.1 hline),
        Text.trim_append_left hreturn.isBlank_eq, hline]
      exact hrest
    · rw [List.filter_cons_of_pos (by simpa using hline)]
      cases htexts : ((next :: lines).map Text.trim).filter fun t => !t.isEmpty with
      | nil =>
        rw [htexts] at hrest
        have hblank := hrest.eq_nil
        rw [← List.append_assoc, Text.trim_append (Text.trim_eq_nil_iff.1 hblank),
          Text.trim_append hreturn.isBlank_eq]
        exact .single _
      | cons text texts =>
        rw [htexts] at hrest
        have hne : Text.trim (next ++ lines.flatMap ('\r' :: ·)) ≠ [] := by
          refine (hrest.isText (List.cons_ne_nil _ _) ?_).ne_nil
          intro t ht
          rw [← htexts] at ht
          obtain ⟨hmem, hnil⟩ := List.mem_filter.1 ht
          obtain ⟨line', -, rfl⟩ := List.mem_map.1 hmem
          exact ⟨by simpa using hnil, Text.trim_trim line'⟩
        obtain ⟨gap, hgap, heq⟩ := hreturn.exists_trim_eq hline hne
        rw [heq]
        exact .cons _ hgap hrest

/-! ## Tags -/

/-- A blank is no letter. -/
lemma isAlpha_of_isBlank {c : Char} (h : isBlank c = true) : c.isAlpha = false := by
  by_contra halpha
  have hword := Lexeme.continuesWord_of_isAlpha (Bool.not_eq_false _ ▸ halpha)
  rw [Lexeme.isBlank_of_continuesWord hword] at h
  cases h

/-- What follows the `@` of a tag is its name and the rest. -/
lemma readTag?_at (cs : List Char) :
    readTag? ('@' :: cs) =
      if cs.takeWhile Char.isAlpha = [] then none
      else some (tagOf (String.ofList (cs.takeWhile Char.isAlpha))
        (Text.trim (cs.dropWhile Char.isAlpha))) := by
  rw [readTag?]
  cases cs.takeWhile Char.isAlpha <;> rfl

/-- A name ends at a blank. -/
lemma IsReturn.takeWhile_isAlpha (h : IsReturn gap) (cs rest : List Char) :
    (cs ++ (gap ++ rest)).takeWhile Char.isAlpha = cs.takeWhile Char.isAlpha ∧
      (cs ++ (gap ++ rest)).dropWhile Char.isAlpha = cs.dropWhile Char.isAlpha ++ (gap ++ rest) := by
  obtain ⟨c, gap, rfl⟩ := List.exists_cons_of_ne_nil (List.ne_nil_of_mem h.mem)
  have hc : c.isAlpha = false := isAlpha_of_isBlank (h.isBlank_eq c List.mem_cons_self)
  induction cs with
  | nil => simp [hc]
  | cons d cs ih =>
    by_cases hd : d.isAlpha = true
    · simpa [hd] using ih
    · simp [hd]

/-- The tag that is read if a text is glued to the line of a tag: the text is the body, if only a body is
missing.  If not, the tag has another argument, or a `\r` in its body. -/
structure IsGluedTag (text : List Char) (tag tag' : DocTag) : Prop where
  eq_of_awaits : tag.AwaitsBody → tag' = { tag with body := String.ofList text }
  changed : ¬ tag.AwaitsBody → tag'.argument ≠ tag.argument ∨ '\r' ∈ tag'.body.toList

/-- A tag that takes an argument has one if anything follows its name. -/
lemma argument_tagOf {name : String} (hname : DocTag.takesArgument name = true) {rest : List Char}
    (hne : rest ≠ []) : (tagOf name rest).argument ≠ none := by
  rw [tagOf, if_pos hname]
  split
  · simp
  · simp [hne]

/-- A text is glued to the name of a tag. -/
lemma isGluedTag_name (name : String) (htext : IsText text) :
    IsGluedTag text (tagOf name []) (tagOf name text) := by
  have hbare : tagOf name [] = ⟨name, none, ""⟩ := by
    rw [tagOf]
    split <;> rfl
  rw [hbare]
  by_cases hname : DocTag.takesArgument name = true
  · exact ⟨fun hawaits => absurd rfl (hawaits.2 hname),
      fun _ => .inl (argument_tagOf hname htext.ne_nil)⟩
  · have htag : tagOf name text = ⟨name, none, String.ofList text⟩ := if_neg hname
    exact ⟨fun _ => htag, fun hawaits => absurd ⟨rfl, fun h => absurd h hname⟩ hawaits⟩

/-- A text is glued to what follows the name of a tag. -/
lemma isGluedTag_rest (name : String) {rest : List Char} (hrest : IsText rest) (hgap : IsReturn gap)
    (htext : IsText text) :
    IsGluedTag text (tagOf name rest) (tagOf name (rest ++ (gap ++ text))) := by
  have hreturn (before : List Char) : '\r' ∈ before ++ (gap ++ text) :=
    List.mem_append_right before (List.mem_append_left text hgap.mem)
  unfold tagOf
  by_cases hname : DocTag.takesArgument name = true
  · rw [if_pos hname, if_pos hname]
    cases hcut : Text.cut? isBlank rest with
    | some r =>
      obtain ⟨argument, body⟩ := r
      obtain ⟨c, rfl, hc, hargument⟩ := Text.exists_of_cut? hcut
      have hbody : Text.trim body ≠ [] := by
        intro hnil
        have hblank : ∀ d ∈ c :: body, isBlank d = true :=
          List.forall_mem_cons.2 ⟨hc, Text.trim_eq_nil_iff.1 hnil⟩
        have htrim := hrest.trim_eq
        rw [Text.trim_append hblank, Text.trim_of_isBlank hargument] at htrim
        simp at htrim
      obtain ⟨gap', hgap', hglued⟩ := hgap.exists_trim_eq hbody (by rw [htext.trim_eq]; exact htext.ne_nil)
      have hmem : '\r' ∈ Text.trim body ++ (gap' ++ Text.trim text) :=
        List.mem_append_right _ (List.mem_append_left _ hgap'.mem)
      rw [List.append_assoc, List.cons_append, Text.cut?_append_cons hargument hc]
      refine ⟨fun hawaits => absurd hawaits.1 (by simpa using hbody), fun _ => .inr ?_⟩
      simpa [hglued] using hmem
    | none =>
      have hword := Text.forall_of_cut?_eq_none hcut
      obtain ⟨c, gap, rfl⟩ := List.exists_cons_of_ne_nil (List.ne_nil_of_mem hgap.mem)
      obtain ⟨hc, hblank⟩ := List.forall_mem_cons.1 hgap.isBlank_eq
      rw [List.cons_append, Text.cut?_append_cons hword hc]
      refine ⟨fun _ => ?_, fun hawaits => absurd ⟨rfl, by simp [hrest.ne_nil]⟩ hawaits⟩
      simp [hrest.ne_nil, Text.trim_append_left hblank, htext.trim_eq]
  · rw [if_neg hname, if_neg hname]
    refine ⟨fun hawaits => absurd hawaits.1 (by simpa using hrest.ne_nil), fun _ => .inr ?_⟩
    simpa using hreturn rest

/-- A text is glued to the line of a tag. -/
lemma exists_readTag?_glued {line : List Char} {tag : DocTag} (h : readTag? line = some tag)
    (hgap : IsReturn gap) (htext : IsText text) :
    ∃ tag', readTag? (line ++ (gap ++ text)) = some tag' ∧ IsGluedTag text tag tag' := by
  obtain ⟨cs, rfl⟩ : ∃ cs, line = '@' :: cs := by
    unfold readTag? at h
    split at h
    · exact ⟨_, rfl⟩
    · cases h
  obtain ⟨htake, hdrop⟩ := hgap.takeWhile_isAlpha cs text
  rw [readTag?_at] at h
  rw [List.cons_append, readTag?_at, htake, hdrop]
  split at h
  · cases h
  · rename_i hname
    obtain rfl := Option.some.inj h
    rw [if_neg hname]
    refine ⟨_, rfl, ?_⟩
    by_cases hrest : Text.trim (cs.dropWhile Char.isAlpha) = []
    · rw [Text.trim_append_left (Text.trim_eq_nil_iff.1 hrest), Text.trim_append_left hgap.isBlank_eq,
        htext.trim_eq, hrest]
      exact isGluedTag_name _ htext
    · obtain ⟨gap', hgap', hglued⟩ :=
        hgap.exists_trim_eq hrest (by rw [htext.trim_eq]; exact htext.ne_nil)
      rw [hglued, htext.trim_eq]
      exact isGluedTag_rest _ ⟨hrest, Text.trim_trim _⟩ hgap' htext

/-- No tag starts on a line to which a text was glued, if none did before. -/
lemma readTag?_glued_eq_none {line : List Char} (h : readTag? line = none) (hne : line ≠ [])
    (hgap : IsReturn gap) (text : List Char) : readTag? (line ++ (gap ++ text)) = none := by
  obtain ⟨c, cs, rfl⟩ := List.exists_cons_of_ne_nil hne
  rw [List.cons_append]
  by_cases hc : c = '@'
  · subst hc
    rw [readTag?_at] at h
    rw [readTag?_at, (hgap.takeWhile_isAlpha cs text).1]
    split at h
    · rw [if_pos ‹_›]
    · cases h
  · rw [readTag?]
    simpa using hc

/-! ## What the texts of a comment say -/

/-- What one text says. -/
lemma said_singleton (htext : IsText text) :
    said [text] = match readTag? text with
      | some tag => ("", [tag])
      | none => (String.ofList text, []) := by
  rw [said, blocks, List.foldl_cons, List.foldl_nil, addLine]
  cases readTag? text with
  | some tag => rfl
  | none => simp [htext.ne_nil]

/-- Texts that say nothing can be left out. -/
lemma said_filter (contents : List (List Char)) :
    said (contents.filter fun text => !text.isEmpty) = said contents := by
  have hskip (state : List String × List DocTag) (text : List Char) :
      (if !text.isEmpty then addLine state text else state) = addLine state text := by
    cases text with
    | nil => rfl
    | cons c cs => rfl
  simp only [said, blocks, List.foldl_filter, hskip]

/-- A text does not change the arguments of the tags before it. -/
lemma argument_prefix_addLine (state : List String × List DocTag) (text : List Char) :
    state.2.map DocTag.argument <+: (addLine state text).2.map DocTag.argument := by
  unfold addLine
  split
  · rw [List.map_append]
    exact List.prefix_append _ _
  · split
    · exact List.prefix_rfl
    · split
      · rename_i hnone
        have hnil : state.2 = [] := List.isEmpty_iff.1 hnone
        simp [hnil]
      · have hsame := map_argument_extendLast (String.ofList text) state.2
        exact hsame ▸ List.prefix_rfl

/-- Further texts do not change the arguments of the tags before them. -/
lemma argument_prefix_foldl (state : List String × List DocTag) (contents : List (List Char)) :
    state.2.map DocTag.argument <+: (contents.foldl addLine state).2.map DocTag.argument := by
  induction contents generalizing state with
  | nil => exact List.prefix_rfl
  | cons text contents ih => exact (argument_prefix_addLine state text).trans (ih _)

/-- The character is neither in the description nor in the body of a tag. -/
structure Lacks (c : Char) (state : List String × List DocTag) : Prop where
  texts : ∀ text ∈ state.1, c ∉ text.toList
  tags : ∀ tag ∈ state.2, c ∉ tag.body.toList

variable {c : Char}

/-- The characters of the body of a tag are characters of its line. -/
lemma mem_of_mem_body {line : List Char} {tag : DocTag} (h : readTag? line = some tag)
    (hc : c ∈ tag.body.toList) : c ∈ line := by
  have hrest {name : String} {rest : List Char} (hc : c ∈ (tagOf name rest).body.toList) : c ∈ rest := by
    unfold tagOf at hc
    split at hc
    · split at hc
      · rename_i argument body hcut
        obtain ⟨d, rfl, -, -⟩ := Text.exists_of_cut? hcut
        have hbody : c ∈ body := Text.mem_of_mem_trim (by simpa using hc)
        simp [hbody]
      · simp at hc
    · simpa using hc
  unfold readTag? at h
  split at h
  · split at h
    · cases h
    · obtain rfl := Option.some.inj h
      have hmem := Text.mem_of_mem_trim (hrest hc)
      exact List.mem_cons_of_mem _ ((List.dropWhile_suffix _).subset hmem)
  · cases h

/-- A further line adds its characters and a space to the last of the tags. -/
lemma notMem_of_mem_extendLast (hspace : c ≠ ' ') (hc : c ∉ text) {tags : List DocTag}
    (h : ∀ tag ∈ tags, c ∉ tag.body.toList) :
    ∀ tag ∈ extendLast (String.ofList text) tags, c ∉ tag.body.toList := by
  induction tags with
  | nil => simp [extendLast]
  | cons tag tags ih =>
    obtain ⟨htag, htags⟩ := List.forall_mem_cons.1 h
    cases tags with
    | nil =>
      refine List.forall_mem_singleton.2 ?_
      unfold DocTag.extend
      split
      · simpa using hc
      · simp [htag, hspace, hc]
    | cons next tags => exact List.forall_mem_cons.2 ⟨htag, ih htags⟩

/-- A text without the character does not add it. -/
lemma Lacks.addLine {state : List String × List DocTag} (h : Lacks c state) (hspace : c ≠ ' ')
    (hc : c ∉ text) : Lacks c (addLine state text) := by
  unfold DocComment.addLine
  split
  · rename_i tag htag
    refine ⟨h.texts, ?_⟩
    rw [List.forall_mem_append, List.forall_mem_singleton]
    exact ⟨h.tags, fun hmem => hc (mem_of_mem_body htag hmem)⟩
  · split
    · exact h
    · split
      · refine ⟨?_, by simp⟩
        rw [List.forall_mem_append, List.forall_mem_singleton]
        exact ⟨h.texts, by simpa using hc⟩
      · exact ⟨h.texts, notMem_of_mem_extendLast hspace hc h.tags⟩

/-- What texts without the character say does not have it. -/
lemma notMem_said (hspace : c ≠ ' ') {contents : List (List Char)} (h : ∀ text ∈ contents, c ∉ text) :
    c ∉ (said contents).1.toList ∧ ∀ tag ∈ (said contents).2, c ∉ tag.body.toList := by
  have hrun (state : List String × List DocTag) (hstate : Lacks c state) :
      Lacks c (contents.foldl DocComment.addLine state) := by
    induction contents generalizing state with
    | nil => exact hstate
    | cons text contents ih =>
      obtain ⟨htext, hcontents⟩ := List.forall_mem_cons.1 h
      exact ih hcontents _ (hstate.addLine hspace htext)
  have hjoin (texts : List String) (htexts : ∀ text ∈ texts, c ∉ text.toList) :
      c ∉ (" ".intercalate texts).toList := by
    induction texts with
    | nil => simp
    | cons text texts ih =>
      obtain ⟨htext, hrest⟩ := List.forall_mem_cons.1 htexts
      cases texts with
      | nil => simpa using htext
      | cons next texts =>
        rw [String.intercalate_cons_cons]
        simp only [String.toList_append, List.mem_append, not_or]
        exact ⟨⟨htext, by simpa using hspace⟩, ih hrest⟩
  obtain ⟨htexts, htags⟩ := hrun ([], []) ⟨by simp, by simp⟩
  exact ⟨hjoin _ htexts, htags⟩

/-! ## When the texts can be glued -/

/-- A `\r` stands between the first two of the texts that are glued together. -/
lemma Glued.mem {first next : List Char} {texts : List (List Char)}
    (h : Glued (first :: next :: texts) glued) : '\r' ∈ glued := by
  cases h with
  | cons text hgap h => exact List.mem_append_right _ (List.mem_append_left _ hgap.mem)

section Tag

variable {first next : List Char} {contents : List (List Char)} {tag tag' : DocTag}
  (htag : readTag? first = some tag)

include htag

/-- The texts after the line of a tag are added to the tag. -/
lemma said_of_readTag? (contents : List (List Char)) :
    said (first :: contents) = (" ".intercalate (contents.foldl addLine ([], [tag])).1,
      (contents.foldl addLine ([], [tag])).2) := by
  rw [said, blocks, List.foldl_cons, addLine, htag]
  rfl

/-- If a tag is all that is said, it has the argument that it has on its line. -/
lemma argument_of_said_eq (h : (said (first :: contents)).2 = [tag']) : tag'.argument = tag.argument := by
  have hstart := argument_prefix_foldl ([], [tag]) contents
  rw [said_of_readTag? htag] at h
  rw [h] at hstart
  exact (List.singleton_inj.1 (hstart.eq_of_length rfl)).symm

/-- If a tag is all that is said, no other one starts on the next line. -/
lemma readTag?_eq_none_of_said_eq (h : (said [first, next]).2 = [tag']) : readTag? next = none := by
  cases hnext : readTag? next with
  | none => rfl
  | some second => simp [said_of_readTag? htag, addLine, hnext] at h

/-- The next line is the body of a tag that lacks only its body. -/
lemma said_body (hawaits : tag.AwaitsBody) (hnext : IsText next) (hnone : readTag? next = none) :
    said [first, next] = ("", [{ tag with body := String.ofList next }]) := by
  rw [said_of_readTag? htag]
  simp [addLine, hnone, hnext.ne_nil, extendLast, DocTag.extend, hawaits.1]

end Tag

/-- Texts that are glued together say what they said before exactly if there are two of them, a tag that
lacks only its body and this body. -/
theorem said_glued_iff {first next : List Char} {texts : List (List Char)}
    (htexts : ∀ t ∈ first :: next :: texts, IsText t) (hreturn : ∀ t ∈ first :: next :: texts, '\r' ∉ t)
    (h : Glued (first :: next :: texts) glued) :
    said [glued] = said (first :: next :: texts) ↔
      (∃ tag, readTag? first = some tag ∧ tag.AwaitsBody) ∧ readTag? next = none ∧ texts = [] := by
  obtain ⟨hdescription, hbodies⟩ := notMem_said (by decide) hreturn
  obtain ⟨hfirst, hrest⟩ := List.forall_mem_cons.1 htexts
  have hmem := h.mem
  have hsaid := said_singleton (h.isText (List.cons_ne_nil _ _) htexts)
  cases h with
  | @cons _ gap _ body _ hgap h =>
    have hbody := h.isText (List.cons_ne_nil _ _) hrest
    cases htag : readTag? first with
    | none =>
      -- Everything is the description, the `\r` included.
      rw [readTag?_glued_eq_none htag hfirst.ne_nil hgap] at hsaid
      refine iff_of_false (fun heq => ?_) fun hone => ?_
      · rw [← heq, hsaid, String.toList_ofList] at hdescription
        exact hdescription hmem
      · obtain ⟨⟨tag, htag', -⟩, -⟩ := hone
        cases htag'
    | some tag =>
      obtain ⟨tag', htag', hglued⟩ := exists_readTag?_glued htag hgap hbody
      rw [htag'] at hsaid
      constructor
      · intro heq
        rw [hsaid] at heq
        have htags : (said (first :: next :: texts)).2 = [tag'] := (congrArg Prod.snd heq).symm
        have hreturn' : '\r' ∉ tag'.body.toList := hbodies tag' (by rw [htags]; exact List.mem_cons_self)
        have hawaits : tag.AwaitsBody := by
          by_contra hawaits
          exact (hglued.changed hawaits).elim (absurd (argument_of_said_eq htag htags))
            (absurd · hreturn')
        rw [hglued.eq_of_awaits hawaits, String.toList_ofList] at hreturn'
        cases texts with
        | nil => exact ⟨⟨tag, rfl, hawaits⟩, readTag?_eq_none_of_said_eq htag htags, rfl⟩
        | cons text texts => exact absurd h.mem hreturn'
      · rintro ⟨⟨tag₀, htag₀, hawaits⟩, hnone, rfl⟩
        obtain rfl := Option.some.inj htag₀
        have hnext : body = next := by cases h; rfl
        rw [hnext] at hbody hglued
        rw [hsaid, hglued.eq_of_awaits hawaits, said_body htag hawaits hbody hnone]

/-- The texts are at most one, or they are a tag that lacks only its body and this body. -/
def AreOneText : List (List Char) → Prop
  | [] => True
  | [_] => True
  | [first, next] => (∃ tag, readTag? first = some tag ∧ tag.AwaitsBody) ∧ readTag? next = none
  | _ => False

/-- Texts that are glued together say what they said before exactly if they can be read as one. -/
theorem said_glued_iff_areOneText {texts : List (List Char)} (htexts : ∀ t ∈ texts, IsText t)
    (hreturn : ∀ t ∈ texts, '\r' ∉ t) (h : Glued texts glued) :
    said [glued] = said texts ↔ AreOneText texts := by
  match texts with
  | [] =>
    rw [h.eq_nil]
    exact iff_of_true rfl trivial
  | [text] =>
    cases h
    exact iff_of_true rfl trivial
  | [first, next] =>
    rw [said_glued_iff htexts hreturn h]
    simp [AreOneText]
  | first :: next :: text :: texts =>
    rw [said_glued_iff htexts hreturn h]
    simp [AreOneText]

end DocComment

end JavaLint
