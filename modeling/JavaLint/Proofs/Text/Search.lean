import JavaLint.Text.Classes
import JavaLint.Text.Search
import Mathlib.Data.List.DropRight
import Mathlib.Data.List.TakeWhile
import Mathlib.Tactic.Common

/-!
# Dividing and searching texts

What the operations on texts answer, by how the text was put together: a prefix, a suffix, the
pieces between separators, the blanks at the two ends.

A text is joined again from its pieces (`splitAt_join`), and a piece is looked for on the two sides
of a character that it does not hold (`contains_append_cons`).
-/

namespace JavaLint.Text

variable {piece cs : List Char}

/-! ## Prefixes and suffixes -/

/-- A piece with which a text starts is followed by the rest. -/
lemma dropStart?_eq_some_iff {rest : List Char} :
    dropStart? piece cs = some rest ↔ cs = piece ++ rest := by
  induction piece generalizing cs with
  | nil => simp [dropStart?]
  | cons p piece ih =>
    cases cs with
    | nil => simp [dropStart?]
    | cons c cs =>
      by_cases hc : p = c
      · simp [dropStart?, hc, ih]
      · simp [dropStart?, hc, Ne.symm hc]

/-- A piece with which a text ends comes after the rest. -/
lemma dropEnd?_eq_some_iff {rest : List Char} :
    dropEnd? piece cs = some rest ↔ cs = rest ++ piece := by
  rw [dropEnd?, Option.map_eq_some_iff]
  constructor
  · rintro ⟨rest, hrest, rfl⟩
    rw [← List.reverse_reverse cs, dropStart?_eq_some_iff.1 hrest]
    simp
  · rintro rfl
    exact ⟨rest.reverse, dropStart?_eq_some_iff.2 (by simp), by simp⟩

/-- The characters after a piece at the start were there before. -/
lemma mem_of_mem_dropStart {c : Char} (hc : c ∈ dropStart piece cs) : c ∈ cs := by
  cases hdrop : dropStart? piece cs with
  | none => rwa [dropStart, hdrop] at hc
  | some rest =>
    rw [dropStart, hdrop] at hc
    rw [dropStart?_eq_some_iff.1 hdrop]
    exact List.mem_append_right piece hc

/-- The characters before a piece at the end were there before. -/
lemma mem_of_mem_dropEnd {c : Char} (hc : c ∈ dropEnd piece cs) : c ∈ cs := by
  cases hdrop : dropEnd? piece cs with
  | none => rwa [dropEnd, hdrop] at hc
  | some rest =>
    rw [dropEnd, hdrop] at hc
    rw [dropEnd?_eq_some_iff.1 hdrop]
    exact List.mem_append_left piece hc

/-- What follows the first character that passes a test is shorter. -/
lemma length_lt_of_cut? {test : Char → Bool} {cs before after : List Char}
    (h : cut? test cs = some (before, after)) : after.length < cs.length := by
  unfold cut? at h
  have hle := (List.dropWhile_suffix (l := cs) fun c => !test c).length_le
  split at h
  · cases h
  · rename_i hdrop
    obtain ⟨-, rfl⟩ := Prod.mk.inj (Option.some.inj h)
    rw [hdrop] at hle
    exact hle

/-- The first character that passes a test divides a text, if none before it does. -/
lemma cut?_append_cons {test : Char → Bool} {c : Char} (hpiece : ∀ d ∈ piece, test d = false)
    (hc : test c = true) (cs : List Char) : cut? test (piece ++ c :: cs) = some (piece, cs) := by
  have hpass : ∀ d ∈ piece, (!test d) = true := fun d hd => by simp [hpiece d hd]
  simp [cut?, List.dropWhile_append_of_pos hpass, List.takeWhile_append_of_pos hpass, hc]

/-- The first character that passes a test stands between the two sides. -/
lemma exists_of_cut? {test : Char → Bool} {cs before after : List Char}
    (h : cut? test cs = some (before, after)) :
    ∃ c, cs = before ++ c :: after ∧ test c = true ∧ ∀ d ∈ before, test d = false := by
  unfold cut? at h
  split at h
  · cases h
  · rename_i c after' hdrop
    obtain ⟨rfl, rfl⟩ := Prod.mk.inj (Option.some.inj h)
    have hhead := List.head?_dropWhile_not (fun c => !test c) cs
    refine ⟨c, ?_, by simpa [hdrop] using hhead, fun d hd => by simpa using List.mem_takeWhile_imp hd⟩
    rw [← hdrop, List.takeWhile_append_dropWhile]

/-- No character passes a test that does not divide the text. -/
lemma forall_of_cut?_eq_none {test : Char → Bool} {cs : List Char} (h : cut? test cs = none) :
    ∀ c ∈ cs, test c = false := by
  unfold cut? at h
  split at h
  · rename_i hdrop
    simpa using List.dropWhile_eq_nil_iff.1 hdrop
  · cases h

/-! ## Pieces -/

/-- There is at least one piece. -/
lemma splitAt_ne_nil (separator : Char) (cs : List Char) : splitAt separator cs ≠ [] := by
  cases cs with
  | nil => simp [splitAt]
  | cons c cs =>
    simp only [splitAt]
    split
    · simp
    · split <;> simp

/-- A separator ends a piece. -/
lemma splitAt_separator (separator : Char) (cs : List Char) :
    splitAt separator (separator :: cs) = [] :: splitAt separator cs := by
  obtain ⟨piece, pieces, hpieces⟩ := List.exists_cons_of_ne_nil (splitAt_ne_nil separator cs)
  simp [splitAt, hpieces]

/-- Any other character belongs to the first piece. -/
lemma splitAt_cons {separator c : Char} (hc : c ≠ separator) {cs piece : List Char}
    {pieces : List (List Char)} (h : splitAt separator cs = piece :: pieces) :
    splitAt separator (c :: cs) = (c :: piece) :: pieces := by
  simp [splitAt, h, hc]

/-- The characters of the pieces are characters of the text. -/
lemma mem_of_mem_splitAt {separator c : Char} {cs piece : List Char}
    (hpiece : piece ∈ splitAt separator cs) (hc : c ∈ piece) : c ∈ cs := by
  induction cs generalizing piece with
  | nil =>
    obtain rfl : piece = [] := by simpa [splitAt] using hpiece
    exact hc
  | cons d cs ih =>
    obtain ⟨first, pieces, hpieces⟩ := List.exists_cons_of_ne_nil (splitAt_ne_nil separator cs)
    rw [hpieces] at ih
    by_cases hd : d = separator
    · rw [hd, splitAt_separator, hpieces] at hpiece
      rcases List.mem_cons.1 hpiece with rfl | hpiece
      · cases hc
      · exact List.mem_cons_of_mem d (ih hpiece hc)
    · rw [splitAt_cons hd hpieces] at hpiece
      rcases List.mem_cons.1 hpiece with rfl | hpiece
      · rcases List.mem_cons.1 hc with rfl | hc
        · exact List.mem_cons_self
        · exact List.mem_cons_of_mem d (ih List.mem_cons_self hc)
      · exact List.mem_cons_of_mem d (ih (List.mem_cons_of_mem first hpiece) hc)

/-- The characters of a text are separators or characters of the pieces. -/
lemma mem_splitAt_of_mem (separator : Char) {c : Char} {cs : List Char} (hc : c ∈ cs) :
    c = separator ∨ ∃ piece ∈ splitAt separator cs, c ∈ piece := by
  induction cs with
  | nil => cases hc
  | cons d cs ih =>
    obtain ⟨first, pieces, hpieces⟩ := List.exists_cons_of_ne_nil (splitAt_ne_nil separator cs)
    by_cases hd : d = separator
    · rw [hd, splitAt_separator]
      rcases List.mem_cons.1 hc with rfl | hc
      · exact .inl hd
      · obtain hsep | ⟨piece, hpiece, hmem⟩ := ih hc
        · exact .inl hsep
        · exact .inr ⟨piece, List.mem_cons_of_mem _ hpiece, hmem⟩
    · rw [splitAt_cons hd hpieces]
      rw [hpieces] at ih
      rcases List.mem_cons.1 hc with rfl | hc
      · exact .inr ⟨c :: first, List.mem_cons_self, List.mem_cons_self⟩
      · obtain hsep | ⟨piece, hpiece, hmem⟩ := ih hc
        · exact .inl hsep
        · rcases List.mem_cons.1 hpiece with rfl | hpiece
          · exact .inr ⟨d :: piece, List.mem_cons_self, List.mem_cons_of_mem d hmem⟩
          · exact .inr ⟨piece, List.mem_cons_of_mem _ hpiece, hmem⟩

/-- A text that does not hold the separator comes before what follows it. -/
lemma splitAt_append_separator {separator : Char} (h : separator ∉ piece) (cs : List Char) :
    splitAt separator (piece ++ separator :: cs) = piece :: splitAt separator cs := by
  induction piece with
  | nil => exact splitAt_separator separator cs
  | cons c piece ih =>
    obtain ⟨hc, hpiece⟩ := List.ne_and_not_mem_of_not_mem_cons h
    exact splitAt_cons hc.symm (ih hpiece)

/-- A text that does not hold the separator is one piece. -/
lemma splitAt_of_not_mem {separator : Char} (h : separator ∉ cs) : splitAt separator cs = [cs] := by
  induction cs with
  | nil => rfl
  | cons c cs ih =>
    obtain ⟨hc, hcs⟩ := List.ne_and_not_mem_of_not_mem_cons h
    exact splitAt_cons hc.symm (ih hcs)

/-- Joined pieces are divided again, if none of them holds the separator. -/
lemma splitAt_join {separator : Char} {pieces : List (List Char)} (hpiece : separator ∉ piece)
    (h : ∀ p ∈ pieces, separator ∉ p) :
    splitAt separator (piece ++ pieces.flatMap (separator :: ·)) = piece :: pieces := by
  induction pieces generalizing piece with
  | nil => rw [List.flatMap_nil, List.append_nil, splitAt_of_not_mem hpiece]
  | cons next pieces ih =>
    obtain ⟨hnext, hpieces⟩ := List.forall_mem_cons.1 h
    rw [List.flatMap_cons, List.cons_append, splitAt_append_separator hpiece, ih hnext hpieces]

/-! ## Blanks at the two ends -/

/-- Texts without blanks are known by a search. -/
lemma isBlank_of_any (h : cs.any isBlank = false) : ∀ c ∈ cs, isBlank c = false := by
  simpa using h

/-- A blank at the end goes away with what is trimmed at the start, or stays at the end. -/
lemma trimStart_concat {c : Char} (hc : isBlank c = true) (cs : List Char) :
    trimStart (cs ++ [c]) = if (trimStart cs).isEmpty then [] else trimStart cs ++ [c] := by
  rw [trimStart, List.dropWhile_append]
  simp [trimStart, hc]

/-- A blank at the end is trimmed away. -/
lemma trim_concat {c : Char} (hc : isBlank c = true) (cs : List Char) :
    trim (cs ++ [c]) = trim cs := by
  rw [trim, trim, trimStart_concat hc]
  split
  · rename_i hempty
    rw [List.isEmpty_iff.1 hempty]
  · simp [trimEnd, hc]

/-- Blanks at the end are trimmed away. -/
lemma trim_append {margin : List Char} (h : ∀ c ∈ margin, isBlank c = true) (cs : List Char) :
    trim (cs ++ margin) = trim cs := by
  induction margin generalizing cs with
  | nil => rw [List.append_nil]
  | cons c margin ih =>
    obtain ⟨hc, hmargin⟩ := List.forall_mem_cons.1 h
    rw [← List.singleton_append, ← List.append_assoc, ih hmargin, trim_concat hc]

/-- Blanks at the start are trimmed away. -/
lemma trimStart_append {margin : List Char} (h : ∀ c ∈ margin, isBlank c = true)
    (cs : List Char) : trimStart (margin ++ cs) = trimStart cs :=
  List.dropWhile_append_of_pos h

/-- Nothing is trimmed from the start of a text that starts with something else than a blank. -/
lemma trimStart_cons {c : Char} (hc : isBlank c = false) (cs : List Char) :
    trimStart (c :: cs) = c :: cs := by
  simp [trimStart, hc]

/-- Nothing is trimmed from the start of a text if nothing is trimmed from its two ends. -/
lemma trimStart_of_trim (h : trim cs = cs) : trimStart cs = cs := by
  have hstart : trimStart cs <:+ cs := List.dropWhile_suffix isBlank
  have hend : trim cs <+: trimStart cs := List.rdropWhile_prefix isBlank (trimStart cs)
  refine hstart.eq_of_length (Nat.le_antisymm hstart.length_le ?_)
  rw [h] at hend
  exact hend.length_le

/-- Nothing is trimmed from the end of a text if nothing is trimmed from its two ends. -/
lemma trimEnd_of_trim (h : trim cs = cs) : trimEnd cs = cs := by
  conv_lhs => rw [← trimStart_of_trim h]
  exact h

/-- A text at whose ends nothing is trimmed does not start with a blank. -/
lemma isBlank_head_of_trim {c : Char} (h : trim (c :: cs) = c :: cs) : isBlank c = false := by
  have hstart := trimStart_of_trim h
  by_contra hc
  have hshort : (trimStart (c :: cs)).length ≤ cs.length := by
    rw [trimStart, List.dropWhile_cons_of_pos (by simpa using hc)]
    exact (List.dropWhile_suffix isBlank).length_le
  rw [hstart, List.length_cons] at hshort
  omega

/-- Nothing is trimmed from a text without blanks. -/
lemma trim_of_isBlank (h : ∀ c ∈ cs, isBlank c = false) : trim cs = cs := by
  have hend : trimEnd cs = cs := by
    refine List.rdropWhile_eq_self_iff.2 fun hne => ?_
    rw [h _ (List.getLast_mem hne)]
    exact Bool.false_ne_true
  cases cs with
  | nil => rfl
  | cons c cs => rw [trim, trimStart_cons (h c List.mem_cons_self), hend]

/-- Nothing is trimmed from a text that starts with something else than a blank and ends with a text
from which nothing is trimmed. -/
lemma trim_cons_append {c : Char} (hc : isBlank c = false) (hne : piece ≠ [])
    (h : trim piece = piece) (cs : List Char) : trim (c :: cs ++ piece) = c :: cs ++ piece := by
  have hlast : ¬ isBlank (piece.getLast hne) = true :=
    List.rdropWhile_eq_self_iff.1 (trimEnd_of_trim h) hne
  have hend : trimEnd (c :: cs ++ piece) = c :: cs ++ piece := by
    refine List.rdropWhile_eq_self_iff.2 fun _ => ?_
    rwa [List.getLast_append_of_ne_nil _ hne]
  rw [trim, List.cons_append, trimStart_cons hc]
  exact hend

/-- Blanks at the start are trimmed away. -/
lemma trim_append_left {margin : List Char} (h : ∀ c ∈ margin, isBlank c = true) (cs : List Char) :
    trim (margin ++ cs) = trim cs := by
  rw [trim, trim, trimStart_append h]

/-- A text is what is left of it after trimming, between blanks. -/
lemma exists_trim (cs : List Char) : ∃ before after, cs = before ++ (trim cs ++ after) ∧
    (∀ c ∈ before, isBlank c = true) ∧ ∀ c ∈ after, isBlank c = true := by
  have hend : trimStart cs = trim cs ++ (trimStart cs).rtakeWhile isBlank :=
    List.rdropWhile_append_rtakeWhile.symm
  refine ⟨cs.takeWhile isBlank, (trimStart cs).rtakeWhile isBlank, ?_, ?_, ?_⟩
  · rw [← hend]
    exact List.takeWhile_append_dropWhile.symm
  · exact fun c hc => List.mem_takeWhile_imp hc
  · exact fun c hc => List.mem_rtakeWhile_imp hc

/-- The characters that are left after trimming were there before. -/
lemma mem_of_mem_trim {c : Char} (hc : c ∈ trim cs) : c ∈ cs := by
  obtain ⟨before, after, hcs, -, -⟩ := exists_trim cs
  rw [hcs]
  exact List.mem_append_right before (List.mem_append_left after hc)

/-- Nothing is left of a text after trimming if it is blank. -/
lemma trim_eq_nil_iff : trim cs = [] ↔ ∀ c ∈ cs, isBlank c = true := by
  constructor
  · intro h
    obtain ⟨before, after, hcs, hbefore, hafter⟩ := exists_trim cs
    rw [h] at hcs
    rw [hcs, List.nil_append, List.forall_mem_append]
    exact ⟨hbefore, hafter⟩
  · intro h
    rw [← List.append_nil cs, trim_append_left h]
    rfl

/-- A text that was trimmed stays as it is. -/
lemma trim_trim (cs : List Char) : trim (trim cs) = trim cs := by
  obtain ⟨before, after, hcs, hbefore, hafter⟩ := exists_trim cs
  conv_rhs => rw [hcs, trim_append_left hbefore, trim_append hafter]

/-- Nothing is trimmed from two trimmed texts with anything between them. -/
lemma trim_append_append (hne : cs ≠ []) (h : trim cs = cs) (between : List Char) (hne' : piece ≠ [])
    (h' : trim piece = piece) : trim (cs ++ (between ++ piece)) = cs ++ (between ++ piece) := by
  obtain ⟨c, cs, rfl⟩ := List.exists_cons_of_ne_nil hne
  rw [← List.append_assoc]
  exact trim_cons_append (isBlank_head_of_trim h) hne' h' (cs ++ between)

/-! ## Pieces inside a text -/

/-- Nothing is found in the empty text. -/
lemma contains_nil (hne : piece ≠ []) : contains piece [] = false := by
  simp [contains, find?, hne]

/-- A piece is found at the start of a text or after it. -/
lemma contains_cons (piece cs : List Char) (c : Char) :
    contains piece (c :: cs) = (piece.isPrefixOf (c :: cs) || contains piece cs) := by
  simp only [contains, find?]
  split
  · simp [*]
  · simp [*]

/-- A piece is not found if one of its characters is not in the text. -/
lemma contains_eq_false {c : Char} (hc : c ∈ piece) (hcs : c ∉ cs) : contains piece cs = false := by
  induction cs with
  | nil => exact contains_nil (List.ne_nil_of_mem hc)
  | cons d cs ih =>
    have hpref : piece.isPrefixOf (d :: cs) = false := by
      by_contra hpref
      rw [Bool.not_eq_false, List.isPrefixOf_iff_prefix] at hpref
      exact hcs (hpref.subset hc)
    rw [contains_cons, hpref, ih (fun hmem => hcs (List.mem_cons_of_mem d hmem))]
    rfl

/-- A text starts with a piece up to a character that the piece does not hold. -/
lemma isPrefixOf_append_cons {c : Char} (hc : c ∉ piece) (as bs : List Char) :
    piece.isPrefixOf (as ++ c :: bs) = piece.isPrefixOf as := by
  induction piece generalizing as with
  | nil => rw [List.isPrefixOf_nil_left, List.isPrefixOf_nil_left]
  | cons p piece ih =>
    obtain ⟨hp, hpiece⟩ := List.ne_and_not_mem_of_not_mem_cons hc
    cases as with
    | nil => simp [List.isPrefixOf, Ne.symm hp]
    | cons a as => rw [List.cons_append, List.isPrefixOf, List.isPrefixOf, ih hpiece]

/-- A piece is found on one of the two sides of a character that it does not hold. -/
lemma contains_append_cons {c : Char} (hne : piece ≠ []) (hc : c ∉ piece) (as bs : List Char) :
    contains piece (as ++ c :: bs) = (contains piece as || contains piece bs) := by
  induction as with
  | nil =>
    have hpref := isPrefixOf_append_cons hc [] bs
    have hnil : piece.isPrefixOf [] = false := by
      cases piece with
      | nil => exact absurd rfl hne
      | cons p piece => rfl
    rw [List.nil_append] at hpref ⊢
    rw [contains_cons, hpref, hnil, contains_nil hne]
  | cons a as ih =>
    rw [List.cons_append, contains_cons, ih, contains_cons, ← Bool.or_assoc,
      ← List.cons_append, isPrefixOf_append_cons hc]

/-- A piece is found in one of the texts that are joined by a character that it does not hold. -/
lemma contains_join {separator : Char} (hne : piece ≠ []) (hc : separator ∉ piece)
    (cs : List Char) (texts : List (List Char)) :
    contains piece (cs ++ texts.flatMap (separator :: ·)) =
      (contains piece cs || texts.any (contains piece)) := by
  induction texts generalizing cs with
  | nil => simp
  | cons text texts ih =>
    rw [List.flatMap_cons, List.cons_append, contains_append_cons hne hc, ih, List.any_cons]

/-- Characters that a piece does not hold may stand before a text. -/
lemma contains_append_left {margin : List Char} (hne : piece ≠ []) (h : ∀ c ∈ margin, c ∉ piece)
    (cs : List Char) : contains piece (margin ++ cs) = contains piece cs := by
  induction margin with
  | nil => rw [List.nil_append]
  | cons c margin ih =>
    obtain ⟨hc, hmargin⟩ := List.forall_mem_cons.1 h
    have hside := contains_append_cons hne hc [] (margin ++ cs)
    rw [List.nil_append] at hside
    rw [List.cons_append, hside, ih hmargin, contains_nil hne, Bool.false_or]

/-- Characters that a piece does not hold may stand after a text. -/
lemma contains_append_right {margin : List Char} (hne : piece ≠ []) (h : ∀ c ∈ margin, c ∉ piece)
    (cs : List Char) : contains piece (cs ++ margin) = contains piece cs := by
  cases margin with
  | nil => rw [List.append_nil]
  | cons c margin =>
    obtain ⟨hc, hmargin⟩ := List.forall_mem_cons.1 h
    have hrest := contains_append_left hne hmargin []
    rw [List.append_nil] at hrest
    rw [contains_append_cons hne hc, hrest, contains_nil hne, Bool.or_false]

end JavaLint.Text
