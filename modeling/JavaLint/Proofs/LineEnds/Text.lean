import JavaLint.Proofs.Text.Columns
import Mathlib.Data.List.Induction
import Mathlib.Tactic.Common

/-!
# Two ways to end a line

`crlf` puts a `\r\n` in the place of every `\n` of a text.  This is a homomorphism of texts: it can be
applied to the two sides of any cut.  It moves the ends of lines apart by one character, but it changes
neither the number of lines nor what stands on the first line, on the last one, or at any column.

`stretch cs n` says how many characters the first `n` characters of a text become.
-/

namespace JavaLint.Text

/-- The text with `\r\n` in the place of every `\n`. -/
def crlf (cs : List Char) : List Char :=
  cs.flatMap fun c => if c = '\n' then ['\r', '\n'] else [c]

/-- The text with `\r\n` in the place of every `\n`. -/
def withCrlf (s : String) : String :=
  String.ofList (crlf s.toList)

/-- Nothing stays nothing. -/
@[simp] lemma crlf_nil : crlf [] = [] := rfl

/-- The end of a line becomes two characters. -/
@[simp] lemma crlf_newline (cs : List Char) : crlf ('\n' :: cs) = '\r' :: '\n' :: crlf cs := rfl

/-- Every other character stays as it is. -/
@[simp] lemma crlf_cons {c : Char} (hc : c ≠ '\n') (cs : List Char) :
    crlf (c :: cs) = c :: crlf cs := by
  simp [crlf, hc]

/-- The two sides of a cut can be changed by themselves. -/
@[simp] lemma crlf_append (as bs : List Char) : crlf (as ++ bs) = crlf as ++ crlf bs :=
  List.flatMap_append

/-- A text in which no line ends stays as it is. -/
lemma crlf_of_not_mem {cs : List Char} (h : '\n' ∉ cs) : crlf cs = cs := by
  induction cs with
  | nil => rfl
  | cons c cs ih =>
    obtain ⟨hc, hcs⟩ := List.ne_and_not_mem_of_not_mem_cons h
    rw [crlf_cons (Ne.symm hc), ih hcs]

/-- A text without line breaks stays as it is. -/
lemma crlf_of_isBreak {cs : List Char} (h : ∀ c ∈ cs, isBreak c = false) : crlf cs = cs :=
  crlf_of_not_mem fun hmem => by simpa [isBreak] using h '\n' hmem

/-- No character gets lost. -/
lemma mem_crlf {c : Char} {cs : List Char} (h : c ∈ cs) : c ∈ crlf cs := by
  refine List.mem_flatMap.2 ⟨c, h, ?_⟩
  split <;> simp_all

/-- No character is added but `\r`. -/
lemma mem_crlf_iff {c : Char} (hc : c ≠ '\r') {cs : List Char} : c ∈ crlf cs ↔ c ∈ cs := by
  refine ⟨fun h => ?_, mem_crlf⟩
  obtain ⟨d, hd, hmem⟩ := List.mem_flatMap.1 h
  split at hmem <;> simp_all

/-- Only the empty text becomes empty. -/
lemma crlf_eq_nil_iff {cs : List Char} : crlf cs = [] ↔ cs = [] := by
  cases cs with
  | nil => simp
  | cons c cs => by_cases hc : c = '\n' <;> simp [hc]

/-! ## Strings -/

/-- The characters of a changed text. -/
@[simp] lemma toList_withCrlf (s : String) : (withCrlf s).toList = crlf s.toList :=
  String.toList_ofList

/-- No line ends in the string. -/
def OneLine (s : String) : Prop :=
  '\n' ∉ s.toList

instance (s : String) : Decidable (OneLine s) :=
  inferInstanceAs (Decidable ('\n' ∉ s.toList))

/-- No line ends in joined strings if none ends in any of them. -/
lemma OneLine.join {ss : List String} (h : ∀ s ∈ ss, OneLine s) : OneLine (String.join ss) := by
  intro hmem
  rw [String.toList_join, List.mem_flatMap] at hmem
  obtain ⟨s, hs, hmem⟩ := hmem
  exact h s hs hmem

/-- A string in which no line ends stays as it is. -/
lemma OneLine.withCrlf_eq {s : String} (h : OneLine s) : withCrlf s = s := by
  rw [withCrlf, crlf_of_not_mem h, String.ofList_toList]

/-- Strings in which no line ends stay as they are. -/
lemma OneLine.map_withCrlf {ss : List String} (h : ∀ s ∈ ss, OneLine s) : ss.map withCrlf = ss := by
  rw [List.map_congr_left fun s hs => (h s hs).withCrlf_eq, List.map_id']

/-- Joined strings can be changed one by one. -/
lemma withCrlf_join (ss : List String) : withCrlf (String.join ss) = String.join (ss.map withCrlf) := by
  apply String.toList_inj.1
  induction ss with
  | nil => rfl
  | cons s ss ih => simpa [String.toList_join] using ih

/-- Only the empty string becomes empty. -/
@[simp] lemma isEmpty_withCrlf (s : String) : (withCrlf s).isEmpty = s.isEmpty := by
  rw [Bool.eq_iff_iff, String.isEmpty_iff, String.isEmpty_iff, ← String.toList_eq_nil_iff,
    ← String.toList_eq_nil_iff, toList_withCrlf, crlf_eq_nil_iff]

/-- A string in which no line ends comes from itself only. -/
lemma OneLine.withCrlf_eq_iff {s r : String} (h : OneLine r) : withCrlf s = r ↔ s = r := by
  constructor
  · rintro rfl
    have hs : OneLine s := fun hmem => h (by simpa using mem_crlf hmem)
    exact hs.withCrlf_eq.symm
  · rintro rfl
    exact h.withCrlf_eq

/-! ## Lines and columns -/

/-- The number of line breaks stays the same. -/
lemma breaks_crlf {cs : List Char} (h : '\r' ∉ cs) : breaks (crlf cs) = breaks cs := by
  induction cs with
  | nil => rfl
  | cons c cs ih =>
    obtain ⟨hc, hcs⟩ := List.ne_and_not_mem_of_not_mem_cons h
    have hcut (ds : List Char) : IsCleanCut [c] ds :=
      isCleanCut_of_getLast? rfl (Ne.symm hc) ds
    rw [breaks_cons c cs (hcut cs)]
    by_cases hn : c = '\n'
    · subst hn
      rw [crlf_newline, breaks, ih hcs, Nat.add_comm]
      rfl
    · rw [crlf_cons hn, breaks_cons c _ (hcut _), ih hcs]

/-- What stands at the start of a text up to the first character that fails a test stays the same, if
the ends of lines fail it. -/
lemma takeWhile_crlf {p : Char → Bool} (hn : p '\n' = false) (hr : p '\r' = false)
    (cs : List Char) : (crlf cs).takeWhile p = cs.takeWhile p := by
  induction cs with
  | nil => rfl
  | cons c cs ih =>
    by_cases hc : c = '\n'
    · simp [hc, hn, hr]
    · rw [crlf_cons hc, List.takeWhile_cons, List.takeWhile_cons, ih]

/-- What stands after the start of a text that passes a test, if the ends of lines fail it. -/
lemma dropWhile_crlf {p : Char → Bool} (hn : p '\n' = false) (hr : p '\r' = false)
    (cs : List Char) : (crlf cs).dropWhile p = crlf (cs.dropWhile p) := by
  induction cs with
  | nil => rfl
  | cons c cs ih =>
    by_cases hc : c = '\n'
    · simp [hc, hn, hr]
    · rw [crlf_cons hc, List.dropWhile_cons, List.dropWhile_cons, ih]
      split
      · rfl
      · rw [crlf_cons hc]

/-- The room that a text takes on its first line stays the same. -/
lemma width_crlf (other column : Nat) (cs : List Char) :
    width other column (crlf cs) = width other column cs := by
  induction cs generalizing column with
  | nil => rfl
  | cons c cs ih =>
    by_cases hc : c = '\n'
    · simp [hc, width, isBreak]
    · rw [crlf_cons hc, width, width, ih]

/-- What stands after the last line break stays the same. -/
lemma lastLine_crlf (cs : List Char) : lastLine (crlf cs) = lastLine cs := by
  induction cs using List.reverseRecOn with
  | nil => rfl
  | append_singleton cs c ih =>
    by_cases hc : c = '\n'
    · have hends : crlf (cs ++ ['\n']) = (crlf cs ++ ['\r']) ++ ['\n'] := by simp
      rw [hc, hends, lastLine_concat, lastLine_concat cs]
      rfl
    · have hends : crlf (cs ++ [c]) = crlf cs ++ [c] := by simp [hc]
      rw [hends, lastLine_concat, lastLine_concat, ih]

/-! ## The first line -/

/-- What stands before the first line break. -/
def firstLine (cs : List Char) : List Char :=
  cs.takeWhile fun c => !isBreak c

/-- No line break passes a test that is passed only by characters that end no line. -/
lemma eq_false_of_isBreak {p : Char → Bool} (h : ∀ c, p c = true → isBreak c = false) {c : Char}
    (hc : isBreak c = true) : p c = false := by
  by_contra hp
  simp [h c (by simpa using hp)] at hc

/-- The first line stays the same. -/
lemma firstLine_crlf (cs : List Char) : firstLine (crlf cs) = firstLine cs :=
  takeWhile_crlf rfl rfl cs

/-- There is nothing before a line break. -/
lemma firstLine_cons_of_isBreak {c : Char} (hc : isBreak c = true) (cs : List Char) :
    firstLine (c :: cs) = [] := by
  simp [firstLine, hc]

/-- The first line goes on until there is a line break. -/
lemma firstLine_cons {c : Char} (hc : isBreak c = false) (cs : List Char) :
    firstLine (c :: cs) = c :: firstLine cs := by
  simp [firstLine, hc]

/-- What passes a test is looked for in the first line only, if no line break passes it. -/
lemma takeWhile_firstLine {p : Char → Bool} (h : ∀ c, p c = true → isBreak c = false)
    (cs : List Char) : (firstLine cs).takeWhile p = cs.takeWhile p := by
  induction cs with
  | nil => rfl
  | cons c cs ih =>
    cases hc : isBreak c with
    | true => simp [firstLine_cons_of_isBreak hc, eq_false_of_isBreak h hc]
    | false => rw [firstLine_cons hc, List.takeWhile_cons, List.takeWhile_cons, ih]

/-- The first line starts with a character that ends no line, if the text does. -/
lemma head?_firstLine {c : Char} (hc : isBreak c = false) (cs : List Char) :
    (firstLine cs).head? = some c ↔ cs.head? = some c := by
  cases cs with
  | nil => rfl
  | cons d cs =>
    cases hd : isBreak d with
    | true =>
      have hne : d ≠ c := by
        rintro rfl
        simp [hc] at hd
      simp [firstLine_cons_of_isBreak hd, hne]
    | false => simp [firstLine_cons hd]

/-- A piece of a line is looked for in the first line only. -/
lemma isPrefixOf_firstLine {piece : List Char} (h : ∀ c ∈ piece, isBreak c = false)
    (cs : List Char) : piece.isPrefixOf (firstLine cs) = piece.isPrefixOf cs := by
  induction piece generalizing cs with
  | nil => simp
  | cons c piece ih =>
    obtain ⟨hc, hpiece⟩ := List.forall_mem_cons.1 h
    cases cs with
    | nil => rfl
    | cons d cs =>
      cases hd : isBreak d with
      | true =>
        have hne : c ≠ d := by
          rintro rfl
          simp [hc] at hd
        simp [firstLine_cons_of_isBreak hd, List.isPrefixOf, hne]
      | false =>
        rw [firstLine_cons hd, List.isPrefixOf_cons_cons, List.isPrefixOf_cons_cons, ih hpiece]

/-- The text starts with a piece of a line if it did before. -/
lemma isPrefixOf_crlf {piece : List Char} (h : ∀ c ∈ piece, isBreak c = false) (cs : List Char) :
    piece.isPrefixOf (crlf cs) = piece.isPrefixOf cs := by
  rw [← isPrefixOf_firstLine h, firstLine_crlf, isPrefixOf_firstLine h]

/-- The first character passes a test if it did before, unless the ends of lines are told apart by
it. -/
lemma any_head?_crlf {p : Char → Bool} (hp : p '\n' = p '\r') (cs : List Char) :
    (crlf cs).head?.any p = cs.head?.any p := by
  cases cs with
  | nil => rfl
  | cons c cs => by_cases hc : c = '\n' <;> simp [hc, hp]

/-- A stretch of the first line can be taken away before or after the rest. -/
lemma StaysInLine.firstLine_drop {n : Nat} {cs : List Char} (h : StaysInLine n cs) :
    firstLine (cs.drop n) = (firstLine cs).drop n := by
  induction n generalizing cs with
  | zero => rfl
  | succ n ih =>
    cases cs with
    | nil => rfl
    | cons c cs =>
      have hc : isBreak c = false := h.2 c (by simp)
      rw [firstLine_cons hc, List.drop_succ_cons, List.drop_succ_cons]
      exact ih h.pred

/-! ## Stretching -/

/-- The number of characters that the first `n` characters of a text become. -/
def stretch (cs : List Char) (n : Nat) : Nat :=
  (crlf (cs.take n)).length

/-- Nothing becomes nothing. -/
@[simp] lemma stretch_zero (cs : List Char) : stretch cs 0 = 0 := by
  simp [stretch]

/-- The end of a line becomes two characters. -/
@[simp] lemma stretch_newline (cs : List Char) (n : Nat) :
    stretch ('\n' :: cs) (n + 1) = stretch cs n + 2 := by
  simp [stretch]

/-- Every other character stays one. -/
@[simp] lemma stretch_cons {c : Char} (hc : c ≠ '\n') (cs : List Char) (n : Nat) :
    stretch (c :: cs) (n + 1) = stretch cs n + 1 := by
  simp [stretch, hc]

/-- A stretch can be measured on the two sides of a cut. -/
lemma stretch_add (cs : List Char) (m n : Nat) :
    stretch cs (m + n) = stretch cs m + stretch (cs.drop m) n := by
  simp [stretch, List.take_add]

/-- A stretch of one line keeps its length. -/
lemma StaysInLine.stretch_eq {n : Nat} {cs : List Char} (h : StaysInLine n cs) :
    stretch cs n = n := by
  rw [stretch, crlf_of_isBreak h.2, List.length_take_of_le h.1]

/-- The first characters of the changed text are those to which the first characters are changed. -/
lemma take_stretch (cs : List Char) (n : Nat) : (crlf cs).take (stretch cs n) = crlf (cs.take n) := by
  conv_lhs => rw [← List.take_append_drop n cs, crlf_append]
  rw [stretch, List.take_left' (by simp)]

/-- What follows the first characters of the changed text is what follows the first characters,
changed. -/
lemma drop_stretch (cs : List Char) (n : Nat) : (crlf cs).drop (stretch cs n) = crlf (cs.drop n) := by
  conv_lhs => rw [← List.take_append_drop n cs, crlf_append]
  rw [stretch, List.drop_left' (by simp)]

end JavaLint.Text
