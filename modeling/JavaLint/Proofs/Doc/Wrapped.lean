import JavaLint.Proofs.Doc.Links
import JavaLint.Proofs.Doc.Margins
import Mathlib.Data.List.Count
import Mathlib.Logic.Relation

/-!
# Inline links and decoration

Links are looked for in the comment as it is written, stars included.  That does no harm as long as
the head of a link and its target stand on one line: the target ends at a blank, and what else the
link says is passed over.  But a line break between the head and the target lets the star of the next
line come first, and the star is taken for the target.

`Redraws s p` says that the text `s` with stars and the text `p` without them are the rest of the same
lines.  The two searches run side by side over such texts, and they find the same links exactly if no
link is wrapped before its target (`links_agree_iff`); otherwise a star is among the targets.
-/

namespace JavaLint.DocComment

open Text (isBlank)

/-! ## Links that are wrapped -/

/-- One step of the search for links. -/
inductive Continues : List Char → List Char → Prop
  | char {c : Char} {cs : List Char} (h : link? (c :: cs) = none) : Continues (c :: cs) cs
  | link {cs target rest : List Char} (h : link? cs = some (target, rest)) : Continues cs rest

/-- The text starts with the head of a link; the line ends before the target, and the link is closed
later. -/
def StartsWrapped (cs : List Char) : Prop :=
  ∃ after, Opens cs after ∧ '\n' ∈ after.takeWhile isBlank ∧ '\x7d' ∈ after

/-- The search for links comes upon one that is wrapped before its target. -/
def HasWrapped (cs : List Char) : Prop :=
  ∃ rest, Relation.ReflTransGen Continues cs rest ∧ StartsWrapped rest

variable {c : Char} {cs rest s p : List Char}

/-- The search goes on in one way only. -/
lemma Continues.unique {rest' : List Char} (h : Continues cs rest) (h' : Continues cs rest') :
    rest = rest' := by
  cases h with
  | char h =>
    cases h' with
    | char => rfl
    | link h' => simp [h] at h'
  | link h =>
    cases h' with
    | char h' => simp [h'] at h
    | link h' =>
      rw [h] at h'
      exact congrArg Prod.snd (Option.some.inj h')

/-- A wrapped link is the first one or comes after it. -/
lemma Continues.hasWrapped_iff (h : Continues cs rest) :
    HasWrapped cs ↔ StartsWrapped cs ∨ HasWrapped rest := by
  constructor
  · rintro ⟨last, hsteps, hlast⟩
    rcases Relation.ReflTransGen.cases_head hsteps with rfl | ⟨next, hnext, hsteps⟩
    · exact .inl hlast
    · rw [h.unique hnext]
      exact .inr ⟨last, hsteps, hlast⟩
  · rintro (hstart | ⟨last, hsteps, hlast⟩)
    · exact ⟨cs, .refl, hstart⟩
    · exact ⟨last, .head h hsteps, hlast⟩

/-- No link is wrapped where none starts. -/
lemma not_startsWrapped_cons (hc : c ≠ '\x7b') (cs : List Char) : ¬ StartsWrapped (c :: cs) := by
  rintro ⟨after, hopens, -⟩
  exact not_opens_cons hc after hopens

/-- There is no link in the empty text. -/
lemma not_hasWrapped_nil : ¬ HasWrapped [] := by
  rintro ⟨rest, hsteps, after, hopens, -⟩
  rcases Relation.ReflTransGen.cases_head hsteps with rfl | ⟨next, hnext, -⟩
  · cases hopens.head?_eq
  · cases hnext with
    | link h =>
      obtain ⟨after, hopens, -⟩ := exists_opens_of_link? h
      cases hopens.head?_eq

/-- The search passes over text without opening braces. -/
lemma hasWrapped_append {margin : List Char} (h : '\x7b' ∉ margin) (cs : List Char) :
    HasWrapped (margin ++ cs) ↔ HasWrapped cs := by
  induction margin with
  | nil => rfl
  | cons c margin ih =>
    obtain ⟨hc, hmargin⟩ := List.ne_and_not_mem_of_not_mem_cons h
    have hnone : link? (c :: (margin ++ cs)) = none := link?_eq_none (not_opens_cons hc.symm)
    rw [List.cons_append, (Continues.char hnone).hasWrapped_iff, ih hmargin]
    exact or_iff_right (not_startsWrapped_cons hc.symm _)

/-! ## Texts with and without stars -/

/-- What stands between the last visible character of a line and the star of a later one, or the
place where it would be. -/
def IsGap (cs : List Char) : Prop :=
  '\n' ∈ cs ∧ ∀ c ∈ cs, isBlank c = true

/-- The text `s` with stars and the text `p` without them are the rest of the same lines. -/
inductive Redraws : List Char → List Char → Prop
  /-- There is nothing left but the ends of lines. -/
  | stop {gap gap' : List Char} (h : IsGap gap) (h' : IsGap gap') : Redraws gap gap'
  /-- Both texts have the same character in a line. -/
  | char {c : Char} {s p : List Char} (hc : c ≠ '\n') (h : Redraws s p) : Redraws (c :: s) (c :: p)
  /-- A line ends, and the next one starts, in one of the texts with a star. -/
  | star {gap gap' s p : List Char} (hgap : IsGap gap) (hgap' : IsGap gap')
    (hp : (Text.trimStart p).head? ≠ some '*') (h : Redraws s p) :
    Redraws (gap ++ '*' :: ' ' :: s) (gap' ++ p)

/-- A gap has a first character, and it is a blank. -/
lemma IsGap.exists_cons {gap : List Char} (h : IsGap gap) :
    ∃ c cs, gap = c :: cs ∧ isBlank c = true := by
  obtain ⟨hmem, hblank⟩ := h
  obtain ⟨c, cs, rfl⟩ := List.exists_cons_of_ne_nil (List.ne_nil_of_mem hmem)
  exact ⟨c, cs, rfl, hblank c List.mem_cons_self⟩

/-- There is no brace in a gap. -/
lemma IsGap.notMem {gap : List Char} (h : IsGap gap) (hc : isBlank c = false) : c ∉ gap := by
  intro hmem
  rw [h.2 c hmem] at hc
  cases hc

namespace Redraws

/-- Both texts start with a blank, or neither does. -/
lemma any_head?_isBlank (h : Redraws s p) : s.head?.any isBlank = p.head?.any isBlank := by
  cases h with
  | stop h h' =>
    obtain ⟨c, cs, rfl, hc⟩ := h.exists_cons
    obtain ⟨c', cs', rfl, hc'⟩ := h'.exists_cons
    simp [hc, hc']
  | char => rfl
  | star h h' =>
    obtain ⟨c, cs, rfl, hc⟩ := h.exists_cons
    obtain ⟨c', cs', rfl, hc'⟩ := h'.exists_cons
    simp [hc, hc']

/-- A visible character of one text is one of the other, and the rests correspond. -/
lemma cons_left (h : Redraws (c :: s) p) (hc : isBlank c = false) :
    ∃ p', p = c :: p' ∧ Redraws s p' := by
  generalize hs : c :: s = cs at h
  cases h with
  | stop hgap =>
    subst hs
    exact absurd List.mem_cons_self (hgap.notMem hc)
  | char _ h =>
    obtain ⟨rfl, rfl⟩ := List.cons.inj hs
    exact ⟨_, rfl, h⟩
  | star hgap =>
    obtain ⟨d, ds, rfl, hd⟩ := hgap.exists_cons
    obtain ⟨rfl, -⟩ := List.cons.inj hs
    rw [hc] at hd
    cases hd

/-- A visible character of one text is one of the other, and the rests correspond. -/
lemma cons_right (h : Redraws s (c :: p)) (hc : isBlank c = false) :
    ∃ s', s = c :: s' ∧ Redraws s' p := by
  generalize hp : c :: p = cs at h
  cases h with
  | stop _ hgap =>
    subst hp
    exact absurd List.mem_cons_self (hgap.notMem hc)
  | char _ h =>
    obtain ⟨rfl, rfl⟩ := List.cons.inj hp
    exact ⟨_, rfl, h⟩
  | star _ hgap =>
    obtain ⟨d, ds, rfl, hd⟩ := hgap.exists_cons
    obtain ⟨rfl, -⟩ := List.cons.inj hp
    rw [hc] at hd
    cases hd

/-- Both texts start with a visible word, or neither does. -/
lemma append_left {word : List Char} (h : Redraws (word ++ s) p)
    (hword : ∀ c ∈ word, isBlank c = false) : ∃ p', p = word ++ p' ∧ Redraws s p' := by
  induction word generalizing p with
  | nil => exact ⟨p, rfl, h⟩
  | cons c word ih =>
    obtain ⟨hc, hword⟩ := List.forall_mem_cons.1 hword
    obtain ⟨rest, rfl, hrest⟩ := h.cons_left hc
    obtain ⟨p', rfl, hp⟩ := ih hrest hword
    exact ⟨p', rfl, hp⟩

/-- Both texts start with a visible word, or neither does. -/
lemma append_right {word : List Char} (h : Redraws s (word ++ p))
    (hword : ∀ c ∈ word, isBlank c = false) : ∃ s', s = word ++ s' ∧ Redraws s' p := by
  induction word generalizing s with
  | nil => exact ⟨s, rfl, h⟩
  | cons c word ih =>
    obtain ⟨hc, hword⟩ := List.forall_mem_cons.1 hword
    obtain ⟨rest, rfl, hrest⟩ := h.cons_right hc
    obtain ⟨s', rfl, hs⟩ := ih hrest hword
    exact ⟨s', rfl, hs⟩

/-- If a link starts in the text with stars, it starts in the one without them. -/
lemma opens_left {after : List Char} (h : Redraws s p) (hopens : Opens s after) :
    ∃ after', Opens p after' ∧ Redraws after after' := by
  obtain ⟨head, hhead, rfl, hblank⟩ := hopens
  obtain ⟨after', rfl, hafter⟩ := h.append_left (isBlank_of_mem_linkHeads hhead)
  rw [hafter.any_head?_isBlank] at hblank
  exact ⟨after', ⟨head, hhead, rfl, hblank⟩, hafter⟩

/-- If a link starts in the text without stars, it starts in the one with them. -/
lemma opens_right {after : List Char} (h : Redraws s p) (hopens : Opens p after) :
    ∃ after', Opens s after' ∧ Redraws after' after := by
  obtain ⟨head, hhead, rfl, hblank⟩ := hopens
  obtain ⟨after', rfl, hafter⟩ := h.append_right (isBlank_of_mem_linkHeads hhead)
  rw [← hafter.any_head?_isBlank] at hblank
  exact ⟨after', ⟨head, hhead, rfl, hblank⟩, hafter⟩

/-- What passes a test that blanks fail is the same at the start of both texts. -/
lemma takeWhile_eq {q : Char → Bool} (hq : ∀ c, isBlank c = true → q c = false)
    (h : Redraws s p) : s.takeWhile q = p.takeWhile q := by
  induction h with
  | stop h h' =>
    obtain ⟨c, cs, rfl, hc⟩ := h.exists_cons
    obtain ⟨c', cs', rfl, hc'⟩ := h'.exists_cons
    simp [hq c hc, hq c' hc']
  | char _ _ ih => rw [List.takeWhile_cons, List.takeWhile_cons, ih]
  | star h h' =>
    obtain ⟨c, cs, rfl, hc⟩ := h.exists_cons
    obtain ⟨c', cs', rfl, hc'⟩ := h'.exists_cons
    simp [hq c hc, hq c' hc']

/-- The end of a line in a gap is among the blanks at the start. -/
lemma mem_takeWhile_of_isGap {gap : List Char} (h : IsGap gap) (cs : List Char) :
    '\n' ∈ (gap ++ cs).takeWhile isBlank := by
  rw [List.takeWhile_append_of_pos h.2]
  exact List.mem_append_left _ h.1

/-- If the line does not end before the next visible character, the two texts correspond from there
on. -/
lemma trimStart (h : Redraws s p) (hline : '\n' ∉ p.takeWhile isBlank) :
    Redraws (Text.trimStart s) (Text.trimStart p) := by
  induction h with
  | stop _ h' =>
    refine absurd ?_ hline
    simpa using mem_takeWhile_of_isGap h' []
  | @char c s p hc h ih =>
    cases hblank : isBlank c with
    | true =>
      rw [List.takeWhile_cons_of_pos hblank] at hline
      rw [Text.trimStart, Text.trimStart, List.dropWhile_cons_of_pos hblank,
        List.dropWhile_cons_of_pos hblank]
      exact ih fun hmem => hline (List.mem_cons_of_mem c hmem)
    | false =>
      rw [Text.trimStart_cons hblank, Text.trimStart_cons hblank]
      exact .char hc h
  | star _ h' => exact absurd (mem_takeWhile_of_isGap h' _) hline

/-- If the line ends before the next visible character, a star comes first in one of the texts, but
not in the other. -/
lemma firstWord_of_mem (h : Redraws s p) (hline : '\n' ∈ p.takeWhile isBlank)
    (hbrace : '\x7d' ∈ p) : firstWord s = ['*'] ∧ (Text.trimStart p).head? ≠ some '*' := by
  induction h with
  | stop _ h' => exact absurd hbrace (h'.notMem rfl)
  | @char c s p hc h ih =>
    cases hblank : isBlank c with
    | true =>
      have hc' : '\x7d' ≠ c := by
        rintro rfl
        cases hblank
      rw [List.takeWhile_cons_of_pos hblank] at hline
      have hrest := ih (List.mem_of_ne_of_mem hc.symm hline) (List.mem_of_ne_of_mem hc' hbrace)
      rw [firstWord, Text.trimStart, Text.trimStart, List.dropWhile_cons_of_pos hblank,
        List.dropWhile_cons_of_pos hblank]
      exact hrest
    | false =>
      rw [List.takeWhile_cons_of_neg (by simp [hblank])] at hline
      cases hline
  | star h h' hp =>
    rw [firstWord, Text.trimStart_append h.2, Text.trimStart_append h'.2]
    exact ⟨rfl, hp⟩

/-- The texts correspond from the first closing brace on. -/
lemma afterBrace? (h : Redraws s p) :
    Option.Rel Redraws (DocComment.afterBrace? s) (DocComment.afterBrace? p) := by
  induction h with
  | stop h h' =>
    have hnone {cs : List Char} (hcs : IsGap cs) : DocComment.afterBrace? cs = none := by
      rw [← Option.not_isSome_iff_eq_none, isSome_afterBrace?]
      exact hcs.notMem rfl
    rw [hnone h, hnone h']
    exact .none
  | @char c s p _ h ih =>
    rw [afterBrace?_cons, afterBrace?_cons]
    split
    · exact .some h
    · exact ih
  | @star gap gap' s p h h' _ _ ih =>
    have hmargin : '\x7d' ∉ gap ++ ['*', ' '] := by simpa using h.notMem rfl
    have hleft := afterBrace?_append hmargin s
    rw [List.append_assoc] at hleft
    rw [afterBrace?_append (h'.notMem rfl)]
    exact hleft ▸ ih

end Redraws

/-! ## The two searches -/

/-- The links found in a text with stars and in one without: the same ones, or, if a link is wrapped,
more stars among the targets. -/
structure SameUnlessWrapped (s p : List Char) : Prop where
  eq_of_not : ¬ HasWrapped p → linksOf s = linksOf p
  lt_of_hasWrapped : HasWrapped p → (linksOf p).count "*" < (linksOf s).count "*"

namespace SameUnlessWrapped

/-- There are never fewer stars among the targets in the text with stars. -/
lemma count_le (h : SameUnlessWrapped s p) :
    (linksOf p).count "*" ≤ (linksOf s).count "*" := by
  by_cases hp : HasWrapped p
  · exact (h.lt_of_hasWrapped hp).le
  · rw [h.eq_of_not hp]

/-- No link starts at the next character of either text. -/
lemma cons (hs : link? (c :: s) = none) (hp : link? (c :: p) = none)
    (hstart : ¬ StartsWrapped (c :: p)) (h : SameUnlessWrapped s p) :
    SameUnlessWrapped (c :: s) (c :: p) := by
  have hwrapped : HasWrapped (c :: p) ↔ HasWrapped p := by
    rw [(Continues.char hp).hasWrapped_iff]
    exact or_iff_right hstart
  constructor
  · rw [hwrapped, linksOf_of_eq_none hs, linksOf_of_eq_none hp]
    exact h.eq_of_not
  · rw [hwrapped, linksOf_of_eq_none hs, linksOf_of_eq_none hp]
    exact h.lt_of_hasWrapped

/-- A link with the same target starts both texts. -/
lemma link {target s' p' : List Char} (hs : link? s = some (target, s'))
    (hp : link? p = some (target, p')) (hstart : ¬ StartsWrapped p)
    (h : SameUnlessWrapped s' p') : SameUnlessWrapped s p := by
  have hwrapped : HasWrapped p ↔ HasWrapped p' := by
    rw [(Continues.link hp).hasWrapped_iff]
    exact or_iff_right hstart
  constructor
  · intro hnot
    rw [linksOf_of_eq_some hs, linksOf_of_eq_some hp, h.eq_of_not (fun hp' => hnot (hwrapped.2 hp'))]
  · intro hp'
    rw [linksOf_of_eq_some hs, linksOf_of_eq_some hp, List.count_cons, List.count_cons]
    have hlt := h.lt_of_hasWrapped (hwrapped.1 hp')
    omega

/-- Text without opening braces may stand before both texts. -/
lemma append {margin margin' : List Char} (hs : '\x7b' ∉ margin) (hp : '\x7b' ∉ margin')
    (h : SameUnlessWrapped s p) : SameUnlessWrapped (margin ++ s) (margin' ++ p) := by
  constructor
  · rw [hasWrapped_append hp, linksOf_append hs, linksOf_append hp]
    exact h.eq_of_not
  · rw [hasWrapped_append hp, linksOf_append hs, linksOf_append hp]
    exact h.lt_of_hasWrapped

end SameUnlessWrapped

/-- If a closing brace follows the blanks after a head, the search goes on to it without meeting a
link. -/
lemma linksOf_of_firstWord_eq_nil {after : List Char} (hopens : Opens p after)
    (hempty : firstWord after = []) (hrest : afterBrace? after = some rest) :
    linksOf p = linksOf rest := by
  obtain ⟨head, hhead, rfl, hblank⟩ := id hopens
  have hafter : after = after.takeWhile isBlank ++ '\x7d' :: rest := by
    rw [← afterBrace?_trimStart] at hrest
    have hsplit := List.takeWhile_append_dropWhile (p := isBlank) (l := after)
    cases htrim : Text.trimStart after with
    | nil => simp [htrim, afterBrace?, Text.cut?] at hrest
    | cons c cs =>
      have hc : isBlank c = false := by
        have hhead := List.head?_dropWhile_not isBlank after
        rw [← Text.trimStart, htrim] at hhead
        simpa using hhead
      rw [htrim, afterBrace?_cons] at hrest
      rw [firstWord, htrim] at hempty
      have hbrace : c = '\x7d' := by
        by_contra hbrace
        simp [hc, hbrace] at hempty
      rw [if_pos hbrace] at hrest
      rw [← Option.some.inj hrest, ← hbrace, ← htrim]
      exact hsplit.symm
  have hnone : link? (head ++ after) = none := by
    rw [hopens.link?_eq, linkTarget?_eq hblank, if_pos hempty]
  obtain ⟨word, rfl, hword⟩ : ∃ word, head = '\x7b' :: word ∧ '\x7b' ∉ word := by
    rcases mem_linkHeads.1 hhead with rfl | rfl
    · exact ⟨"@link".toList, rfl, by decide⟩
    · exact ⟨"@linkplain".toList, rfl, by decide⟩
  have hmargin : '\x7b' ∉ after.takeWhile isBlank ++ ['\x7d'] := by
    intro hmem
    rcases List.mem_append.1 hmem with hmem | hmem
    · cases List.mem_takeWhile_imp hmem
    · simp at hmem
  calc linksOf ('\x7b' :: word ++ after)
    _ = linksOf (word ++ after) := linksOf_of_eq_none hnone
    _ = linksOf after := linksOf_append hword after
    _ = linksOf (after.takeWhile isBlank ++ ['\x7d'] ++ rest) := by
      rw [List.append_assoc]
      exact congrArg linksOf hafter
    _ = linksOf rest := linksOf_append hmargin rest

/-- A link whose target does not start with a star gives no star among the targets. -/
lemma count_linksOf_of_opens {after : List Char} (hopens : Opens p after)
    (hword : (Text.trimStart after).head? ≠ some '*') (hrest : afterBrace? after = some rest) :
    (linksOf p).count "*" = (linksOf rest).count "*" := by
  by_cases hempty : firstWord after = []
  · rw [linksOf_of_firstWord_eq_nil hopens hempty hrest]
  · have hlink : link? p = some (firstWord after, rest) := by
      obtain ⟨-, -, -, hblank⟩ := id hopens
      rw [hopens.link?_eq, linkTarget?_eq hblank, hrest, Option.map_some, if_neg hempty]
    have hstar : String.ofList (firstWord after) ≠ "*" := by
      intro hstar
      have hfirst : firstWord after = ['*'] := by
        rw [← String.toList_ofList (l := firstWord after), hstar]
        rfl
      have hprefix := List.takeWhile_prefix (l := Text.trimStart after) fun c =>
        !isBlank c && c != '\x7d'
      rw [← firstWord, hfirst] at hprefix
      obtain ⟨rest, hrest⟩ := hprefix
      rw [← hrest] at hword
      exact hword rfl
    rw [linksOf_of_eq_some hlink, List.count_cons_of_ne hstar]

/-- A link that starts both texts is wrapped. -/
lemma sameUnlessWrapped_of_startsWrapped {after after' s' p' : List Char} (hs : Opens s after')
    (hp : Opens p after) (h : Redraws after' after) (hline : '\n' ∈ after.takeWhile isBlank)
    (hs' : afterBrace? after' = some s') (hp' : afterBrace? after = some p')
    (hrest : SameUnlessWrapped s' p') : SameUnlessWrapped s p := by
  have hbrace : '\x7d' ∈ after := by
    rw [← isSome_afterBrace?, hp']
    rfl
  obtain ⟨hword, hhead⟩ := h.firstWord_of_mem hline hbrace
  obtain ⟨-, -, -, hblank⟩ := id hs
  have hlink : link? s = some (['*'], s') := by
    rw [hs.link?_eq, linkTarget?_eq hblank, hword, hs']
    rfl
  have hlt : (linksOf p).count "*" < (linksOf s).count "*" := by
    calc (linksOf p).count "*"
      _ = (linksOf p').count "*" := count_linksOf_of_opens hp hhead hp'
      _ ≤ (linksOf s').count "*" := hrest.count_le
      _ < (linksOf s').count "*" + 1 := Nat.lt_succ_self _
      _ = (linksOf s).count "*" := by
        rw [linksOf_of_eq_some hlink]
        exact List.count_cons_self.symm
  have hwrapped : HasWrapped p := ⟨p, .refl, after, hp, hline, hbrace⟩
  exact ⟨fun hnot => absurd hwrapped hnot, fun _ => hlt⟩

/-- The head of a link starts both texts. -/
lemma sameUnlessWrapped_of_opens {after after' : List Char} (hs : Opens (c :: s) after')
    (hp : Opens (c :: p) after) (h : Redraws after' after) (htail : SameUnlessWrapped s p)
    (hrest : ∀ s' p', p'.length < (c :: p).length → Redraws s' p' → SameUnlessWrapped s' p') :
    SameUnlessWrapped (c :: s) (c :: p) := by
  obtain ⟨-, -, -, hblank⟩ := id hp
  obtain ⟨-, -, -, hblank'⟩ := id hs
  have hlink := hp.link?_eq.trans (linkTarget?_eq hblank)
  have hlink' := hs.link?_eq.trans (linkTarget?_eq hblank')
  have hbraces := h.afterBrace?
  cases hp' : afterBrace? after with
  | none =>
    rw [hp'] at hbraces
    have hs' : afterBrace? after' = none := by
      cases hafter : afterBrace? after' with
      | none => rfl
      | some s' =>
        rw [hafter] at hbraces
        cases hbraces
    have hstart : ¬ StartsWrapped (c :: p) := by
      rintro ⟨last, hlast, -, hbrace⟩
      rw [← hp.unique hlast, ← isSome_afterBrace?, hp'] at hbrace
      cases hbrace
    rw [hp', Option.map_none, ite_self] at hlink
    rw [hs', Option.map_none, ite_self] at hlink'
    exact htail.cons hlink' hlink hstart
  | some p' =>
    rw [hp'] at hbraces
    obtain ⟨s', hs', hsp⟩ : ∃ s', afterBrace? after' = some s' ∧ Redraws s' p' := by
      cases hafter : afterBrace? after' with
      | none =>
        rw [hafter] at hbraces
        cases hbraces
      | some s' =>
        rw [hafter] at hbraces
        cases hbraces with
        | some hsp => exact ⟨s', rfl, hsp⟩
    have hshort := (length_lt_of_afterBrace? hp').trans hp.length_lt
    by_cases hline : '\n' ∈ after.takeWhile isBlank
    · exact sameUnlessWrapped_of_startsWrapped hs hp h hline hs' hp' (hrest s' p' hshort hsp)
    · have hstart : ¬ StartsWrapped (c :: p) := by
        rintro ⟨last, hlast, hmem, -⟩
        rw [← hp.unique hlast] at hmem
        exact hline hmem
      have hword : firstWord after' = firstWord after :=
        (h.trimStart hline).takeWhile_eq fun c hc => by simp [hc]
      rw [hp'] at hlink
      rw [hs', hword] at hlink'
      by_cases hempty : firstWord after = []
      · rw [if_pos hempty] at hlink hlink'
        exact htail.cons hlink' hlink hstart
      · rw [if_neg hempty] at hlink hlink'
        exact SameUnlessWrapped.link hlink' hlink hstart (hrest s' p' hshort hsp)

/-- The two searches find the same links, unless a link is wrapped. -/
theorem Redraws.sameUnlessWrapped (h : Redraws s p) : SameUnlessWrapped s p := by
  -- Both searches take a step at once, and what they go on with corresponds again.
  induction hn : p.length using Nat.strong_induction_on generalizing s p with
  | _ n ih =>
    subst hn
    cases h with
    | stop hgap hgap' =>
      have hnil : SameUnlessWrapped [] [] := ⟨fun _ => rfl, fun h => absurd h not_hasWrapped_nil⟩
      simpa using hnil.append (hgap.notMem rfl) (hgap'.notMem rfl)
    | @star gap gap' s p hgap hgap' _ h =>
      obtain ⟨d, ds, rfl, -⟩ := hgap'.exists_cons
      have hshort : p.length < (d :: ds ++ p).length := by
        rw [List.length_append, List.length_cons]
        omega
      have hrest : SameUnlessWrapped s p := ih p.length hshort h rfl
      have hmargin : '\x7b' ∉ gap ++ ['*', ' '] := by simpa using hgap.notMem rfl
      simpa using hrest.append hmargin (hgap'.notMem rfl)
    | @char c s p hc h =>
      have htail : SameUnlessWrapped s p := ih p.length (by simp) h rfl
      have hboth := Redraws.char hc h
      by_cases hopens : ∃ after, Opens (c :: p) after
      · obtain ⟨after, hp⟩ := hopens
        obtain ⟨after', hs, hafter⟩ := hboth.opens_right hp
        exact sameUnlessWrapped_of_opens hs hp hafter htail fun s' p' hshort hrest =>
          ih p'.length hshort hrest rfl
      · have hp : link? (c :: p) = none := link?_eq_none fun after hp => hopens ⟨after, hp⟩
        have hs : link? (c :: s) = none := by
          refine link?_eq_none fun after hs => ?_
          obtain ⟨after', hp, -⟩ := hboth.opens_left hs
          exact hopens ⟨after', hp⟩
        exact htail.cons hs hp fun ⟨after, hp, _⟩ => hopens ⟨after, hp⟩

/-! ## Comments with and without stars -/

/-- The same characters of a line may stand before both texts. -/
lemma Redraws.append {content : List Char} (hcontent : '\n' ∉ content) (h : Redraws s p) :
    Redraws (content ++ s) (content ++ p) := by
  induction content with
  | nil => exact h
  | cons c content ih =>
    obtain ⟨hc, hcontent⟩ := List.ne_and_not_mem_of_not_mem_cons hcontent
    exact .char hc.symm (ih hcontent)

/-- The margins of two lines are a gap. -/
lemma IsMargin.isGap {trail indent : List Char} (ht : IsMargin trail) (hi : IsMargin indent) :
    IsGap (trail ++ '\n' :: indent) := by
  refine ⟨by simp, fun c hc => ?_⟩
  rcases List.mem_append.1 hc with hc | hc
  · exact (ht c hc).1
  · rcases List.mem_cons.1 hc with rfl | hc
    · rfl
    · exact (hi c hc).1

/-- A line does not start with a star, so nothing does that starts with the line, unless the line is
empty. -/
lemma WrittenLine.head?_trimStart (line : WrittenLine) {rest : List Char}
    (h : (Text.trimStart rest).head? ≠ some '*') :
    (Text.trimStart (line.content ++ rest)).head? ≠ some '*' := by
  have hstar := line.unstarred
  cases hcontent : line.content with
  | nil => exact h
  | cons c cs =>
    have hc : isBlank c = false := Text.isBlank_head_of_trim (hcontent ▸ line.trim_content)
    rw [hcontent] at hstar
    rw [List.cons_append, Text.trimStart_cons hc]
    exact hstar

/-- The lines of two comments that say the same correspond, after the line before them. -/
lemma redraws_lines {starred plain : List WrittenLine}
    (h : starred.map WrittenLine.content = plain.map WrittenLine.content) {trail trail' : List Char}
    (ht : IsMargin trail) (ht' : IsMargin trail') :
    let s := trail ++ (starred.map WrittenLine.starred ++ [[' ']]).flatMap ('\n' :: ·)
    let p := trail' ++ (plain.map WrittenLine.plain ++ [[' ']]).flatMap ('\n' :: ·)
    Redraws s p ∧ (Text.trimStart p).head? ≠ some '*' := by
  have hspace : IsMargin [' '] := by decide
  induction starred generalizing plain trail trail' with
  | nil =>
    obtain rfl : plain = [] := by simpa using h.symm
    have hblank : Text.trimStart (trail' ++ ['\n', ' ']) = [] :=
      List.dropWhile_eq_nil_iff.2 (ht'.isGap hspace).2
    refine ⟨.stop (ht.isGap hspace) (ht'.isGap hspace), ?_⟩
    rw [List.map_nil, List.nil_append, List.flatMap_singleton, hblank]
    simp
  | cons line starred ih =>
    obtain ⟨line', plain, rfl⟩ : ∃ line' lines, plain = line' :: lines := by
      cases plain with
      | nil => simp at h
      | cons line' lines => exact ⟨line', lines, rfl⟩
    obtain ⟨hcontent, h⟩ := List.cons.inj h
    obtain ⟨hrest, hhead⟩ := ih h line.isMargin_trail line'.isMargin_trail
    have hsame := hrest.append line'.oneLine
    have hhead' := line'.head?_trimStart hhead
    have hgap := ht.isGap line.isMargin_indent
    have hgap' := ht'.isGap line'.isMargin_indent
    have hlines := Redraws.star hgap hgap' hhead' hsame
    rw [← Text.trimStart_append hgap'.2] at hhead'
    simp only [← hcontent, List.append_assoc, List.cons_append] at hlines hhead'
    simp only [List.map_cons, List.cons_append, List.flatMap_cons, WrittenLine.starred,
      WrittenLine.plain, List.append_assoc, ← hcontent]
    exact ⟨hlines, hhead'⟩

/-- Two comments that say the same, one with stars and one without, have the same links exactly if no
link is wrapped before its target.  If one is, a star is among the targets. -/
theorem links_agree_iff (starred plain : List WrittenLine)
    (h : starred.map WrittenLine.content = plain.map WrittenLine.content) :
    let decorated := ofLines (starred.map WrittenLine.starred)
    let bare := ofLines (plain.map WrittenLine.plain)
    ((parse decorated).links = (parse bare).links ↔ ¬ HasWrapped (inner bare.toList)) ∧
      (HasWrapped (inner bare.toList) →
        (parse bare).links.count "*" < (parse decorated).links.count "*") := by
  have hsame : SameUnlessWrapped (inner (ofLines (starred.map WrittenLine.starred)).toList)
      (inner (ofLines (plain.map WrittenLine.plain)).toList) := by
    have hnil : IsMargin [] := by decide
    rw [inner_ofLines, inner_ofLines]
    exact (redraws_lines h hnil hnil).1.sameUnlessWrapped
  intro decorated bare
  rw [links_parse, links_parse]
  refine ⟨⟨?_, hsame.eq_of_not⟩, hsame.lt_of_hasWrapped⟩
  intro heq hwrapped
  have hlt := hsame.lt_of_hasWrapped hwrapped
  rw [heq] at hlt
  exact Nat.lt_irrefl _ hlt

/-- A link to `Foo` whose label goes on in the next line. -/
theorem links_agree_iff_of_wrapped_label :
    let lines : List WrittenLine :=
      [⟨[' '], "See \x7b@link Foo the".toList, [], by decide, by decide, by decide, by decide,
          by decide⟩,
        ⟨[' '], "type\x7d.".toList, [], by decide, by decide, by decide, by decide, by decide⟩]
    let decorated := ofLines (lines.map WrittenLine.starred)
    let bare := ofLines (lines.map WrittenLine.plain)
    ((parse decorated).links = (parse bare).links ↔ ¬ HasWrapped (inner bare.toList)) ∧
      (HasWrapped (inner bare.toList) →
        (parse bare).links.count "*" < (parse decorated).links.count "*") :=
  links_agree_iff _ _ rfl

/-- A link to `Foo` that is wrapped before its target: the star of the next line is taken for the
target. -/
theorem star_is_taken_for_target :
    let lines : List WrittenLine :=
      [⟨[' '], "See \x7b@link".toList, [], by decide, by decide, by decide, by decide, by decide⟩,
        ⟨[' '], "Foo bar\x7d.".toList, [], by decide, by decide, by decide, by decide, by decide⟩]
    let decorated := ofLines (lines.map WrittenLine.starred)
    let bare := ofLines (lines.map WrittenLine.plain)
    (parse decorated).links = ["*"] ∧ (parse bare).links = ["Foo"] := by
  decide

end JavaLint.DocComment
