import JavaLint.Proofs.Lexeme.Extent
import Mathlib.Data.List.Basic
import Mathlib.Tactic.Common

/-!
# Where lexemes stand

`Lexeme.scan` keeps a running offset and a running line, to which it adds the size and the line
breaks of one lexeme after the other.  `IsPlaced` describes sequences of lexemes that are numbered
in this way, and `scan_eq_ok` says that the lexemes of a text are such a sequence and lose nothing
of the text.

Because no lexeme ends in the middle of a `\r\n`, the running line of a lexeme can also be found
by counting the line breaks before it at one go: `lexemes_are_located`.
-/

namespace JavaLint.Lexeme

open Text (IsCleanCut breaks byteSize)

/-- The characters of a sequence of lexemes. -/
def chars (lexemes : List Lexeme) : List Char :=
  lexemes.flatMap fun l => l.text.toList

/-- There are no characters in no lexemes. -/
@[simp] lemma chars_nil : chars [] = [] := rfl

/-- The characters of a sequence start with those of its first lexeme. -/
@[simp] lemma chars_cons (l : Lexeme) (ls : List Lexeme) :
    chars (l :: ls) = l.text.toList ++ chars ls := rfl

/-- The characters of two sequences are those of the one and then those of the other. -/
@[simp] lemma chars_append (ls ms : List Lexeme) : chars (ls ++ ms) = chars ls ++ chars ms :=
  List.flatMap_append

/-- The joined texts of lexemes are spelled by their characters. -/
lemma toList_join_text (ls : List Lexeme) : (String.join (ls.map text)).toList = chars ls := by
  rw [String.toList_join, List.flatMap_map]
  rfl

/-- Lexemes that stand one after the other from the given offset and line on, none of them empty
and all cuts between them clean. -/
def IsPlaced : Nat → Nat → List Lexeme → Prop
  | _, _, [] => True
  | offset, line, l :: ls =>
    l.text ≠ "" ∧ l.offset = offset ∧ l.line = line ∧ IsCleanCut l.text.toList (chars ls) ∧
      IsPlaced (offset + byteSize l.text.toList) (line + breaks l.text.toList) ls

/-- Placed lexemes are not empty. -/
lemma IsPlaced.text_ne_empty {offset line : Nat} {ls : List Lexeme} (h : IsPlaced offset line ls) :
    ∀ l ∈ ls, l.text ≠ "" := by
  induction ls generalizing offset line with
  | nil => simp
  | cons m ls ih =>
    obtain ⟨hm, -, -, -, hls⟩ := h
    intro l hl
    rcases List.mem_cons.1 hl with rfl | hl
    · exact hm
    · exact ih hls l hl

/-- The place of a lexeme can be read off the characters before it at one go. -/
lemma IsPlaced.place {offset line : Nat} {before after : List Lexeme} {l : Lexeme}
    (h : IsPlaced offset line (before ++ l :: after)) :
    l.offset = offset + byteSize (chars before) ∧ l.line = line + breaks (chars before) ∧
      IsCleanCut l.text.toList (chars after) := by
  induction before generalizing offset line with
  | nil =>
    obtain ⟨-, hoffset, hline, hcut, -⟩ := h
    exact ⟨by simpa [byteSize] using hoffset, by simpa [breaks] using hline, hcut⟩
  | cons m before ih =>
    obtain ⟨-, -, -, hcut, hrest⟩ := h
    obtain ⟨hoffset, hline, hafter⟩ := ih hrest
    -- The cut after `m` is clean also if only the lexemes up to `l` come after it.
    have hcut' : IsCleanCut m.text.toList (chars before) := by
      intro hlast hhead
      refine hcut hlast ?_
      change (chars (before ++ l :: after)).head? = some '\n'
      simp [hhead]
    refine ⟨?_, ?_, hafter⟩
    · rw [hoffset, chars_cons, Text.byteSize_append]
      omega
    · rw [hline, chars_cons, Text.breaks_append _ _ hcut']
      omega

/-- The cut between two parts of a sequence of placed lexemes is clean. -/
lemma IsPlaced.isCleanCut {offset line : Nat} {before after : List Lexeme}
    (h : IsPlaced offset line (before ++ after)) : IsCleanCut (chars before) (chars after) := by
  induction before generalizing offset line with
  | nil => simp [IsCleanCut]
  | cons l before ih =>
    obtain ⟨-, -, -, hcut, hrest⟩ := h
    have hbefore := ih hrest
    rw [chars_cons]
    by_cases hempty : chars before = []
    · rw [hempty, List.append_nil]
      change IsCleanCut l.text.toList (chars (before ++ after)) at hcut
      rwa [chars_append, hempty, List.nil_append] at hcut
    · intro hlast
      rw [List.getLast?_append_of_ne_nil _ hempty] at hlast
      exact hbefore hlast

/-- The first of two parts of a sequence of placed lexemes is placed. -/
lemma IsPlaced.left {offset line : Nat} {before after : List Lexeme}
    (h : IsPlaced offset line (before ++ after)) : IsPlaced offset line before := by
  induction before generalizing offset line with
  | nil => trivial
  | cons l before ih =>
    obtain ⟨htext, hoffset, hline, hcut, hrest⟩ := h
    refine ⟨htext, hoffset, hline, fun hlast hhead => hcut hlast ?_, ih hrest⟩
    change (chars (before ++ after)).head? = some '\n'
    simp [hhead]

/-- One step of scanning: the first lexeme is placed where the text starts, and the others after
it. -/
lemma isPlaced_cons_of_next {offset line : Nat} {c : Char} {cs : List Char} {kind : Kind} {n : Nat}
    (hnext : next c cs = .ok (kind, n)) {ls : List Lexeme} (hchars : chars ls = cs.drop n)
    (hls : IsPlaced (offset + byteSize (c :: cs.take n)) (line + breaks (c :: cs.take n)) ls) :
    IsPlaced offset line (⟨kind, String.ofList (c :: cs.take n), offset, line⟩ :: ls) := by
  have hcut := (next_extent hnext).2
  refine ⟨?_, rfl, rfl, ?_, ?_⟩
  · intro hempty
    have hlist := congrArg String.toList hempty
    simp at hlist
  · simpa [hchars] using hcut
  · simpa using hls

/-- The lexemes of a text are placed, and their characters are those of the text. -/
lemma scanFrom_eq_ok {offset line : Nat} {cs : List Char} {ls : List Lexeme}
    (h : scanFrom offset line cs = .ok ls) : chars ls = cs ∧ IsPlaced offset line ls := by
  fun_induction scanFrom offset line cs generalizing ls with
  | case1 =>
    obtain rfl : [] = ls := by simpa using h
    exact ⟨rfl, trivial⟩
  | case2 => simp at h
  | case3 offset line c cs kind n hnext text =>
    rename_i ih
    cases hrest : scanFrom (offset + byteSize text) (line + breaks text) (cs.drop n) with
    | error e => simp [hrest, Except.map] at h
    | ok rest =>
      obtain rfl : ⟨kind, String.ofList text, offset, line⟩ :: rest = ls := by
        simpa [hrest, Except.map] using h
      obtain ⟨hchars, hplaced⟩ := ih hrest
      refine ⟨?_, isPlaced_cons_of_next hnext hchars hplaced⟩
      rw [chars_cons, hchars, String.toList_ofList, List.cons_append, List.take_append_drop]

/-- The lexemes of a source text are placed from its start on, and lose nothing of it. -/
lemma scan_eq_ok {source : String} {ls : List Lexeme} (h : scan source = .ok ls) :
    chars ls = source.toList ∧ IsPlaced 0 1 ls :=
  scanFrom_eq_ok h

/-- The lexemes of a source text are not empty, and put together they are the source text.  Each
starts at the byte at which the text before it ends, and on the line that one finds by counting
the line breaks in the text before it.  No line break is divided between two lexemes. -/
theorem lexemes_are_located {source : String} {lexemes : List Lexeme}
    (h : scan source = .ok lexemes) :
    (∀ l ∈ lexemes, l.text ≠ "") ∧ String.join (lexemes.map text) = source ∧
      ∀ before l after, lexemes = before ++ l :: after →
        ∃ head tail : String, source = head ++ l.text ++ tail ∧
          head = String.join (before.map text) ∧ tail = String.join (after.map text) ∧
          l.offset = head.utf8ByteSize ∧ l.line = 1 + breaks head.toList ∧
          ¬ (l.text.toList.getLast? = some '\r' ∧ tail.toList.head? = some '\n') := by
  obtain ⟨hchars, hplaced⟩ := scan_eq_ok h
  have hjoin : String.join (lexemes.map text) = source := by
    rw [← String.toList_inj, toList_join_text, hchars]
  refine ⟨hplaced.text_ne_empty, hjoin, ?_⟩
  rintro before l after rfl
  obtain ⟨hoffset, hline, hcut⟩ := hplaced.place
  refine ⟨String.join (before.map text), String.join (after.map text), ?_, rfl, rfl, ?_, ?_, ?_⟩
  · rw [← hjoin, List.map_append, List.map_cons, ← String.toList_inj]
    simp
  · rw [hoffset, ← Text.byteSize_toList, toList_join_text, Nat.zero_add]
  · rw [hline, toList_join_text]
  · rintro ⟨hlast, hhead⟩
    rw [toList_join_text] at hhead
    exact hcut hlast hhead

/-- The places of lexemes after a letter of two bytes, a `\r\n`, and a comment with a `\r` in it. -/
theorem lexemes_are_located_across_breaks :
    ∃ before after, scan "é\r\n/*\r*/x\r" = .ok (before ++ ⟨.identifier, "x", 9, 3⟩ :: after) ∧
      ∃ head tail : String, "é\r\n/*\r*/x\r" = head ++ "x" ++ tail ∧
        9 = head.utf8ByteSize ∧ 3 = 1 + breaks head.toList := by
  have h : scan "é\r\n/*\r*/x\r" = .ok ([⟨.identifier, "é", 0, 1⟩, ⟨.newline, "\r\n", 2, 1⟩,
      ⟨.blockComment, "/*\r*/", 4, 2⟩] ++ ⟨.identifier, "x", 9, 3⟩ ::
      [⟨.newline, "\r", 10, 3⟩]) := by
    decide +kernel
  obtain ⟨head, tail, hsource, -, -, hoffset, hline, -⟩ := (lexemes_are_located h).2.2 _ _ _ rfl
  exact ⟨_, _, h, head, tail, hsource, hoffset, hline⟩

end JavaLint.Lexeme
