import JavaLint.Text.Lines
import Mathlib.Data.List.TakeWhile
import Mathlib.Tactic.Common

/-!
# Counting line breaks piece by piece

`breaks` counts `\r\n` once, so it is additive only over cuts that do not go through such a pair.
`IsCleanCut` names these cuts and `breaks_append` is the additivity.

The second half of the file measures how far a count of characters reaches into a text.
`StaysInLine n cs` says that the first `n` characters of `cs` exist and end no line; it is closed
under putting one stretch after another, which is how the lengths of words, numbers and operators
are put together.
-/

namespace JavaLint.Text

/-! ## Cuts between lexemes -/

/-- The cut between the two texts does not go through the middle of a `\r\n`. -/
def IsCleanCut (as bs : List Char) : Prop :=
  as.getLast? = some '\r' → bs.head? ≠ some '\n'

/-- A cut is clean if the text before it ends with some other character than `\r`. -/
lemma isCleanCut_of_getLast? {as : List Char} {c : Char} (h : as.getLast? = some c)
    (hc : c ≠ '\r') (bs : List Char) : IsCleanCut as bs := by
  intro hr
  rw [h, Option.some.injEq] at hr
  exact absurd hr hc

/-- A clean cut stays clean if the text before it loses its first character. -/
lemma IsCleanCut.tail {c : Char} {as bs : List Char} (h : IsCleanCut (c :: as) bs) :
    IsCleanCut as bs := by
  intro hlast
  have has : as ≠ [] := by
    rintro rfl
    simp at hlast
  exact h (by rwa [List.getLast?_cons_of_ne_nil has])

/-- A character that does not start a `\r\n` is counted on its own. -/
lemma breaks_cons (c : Char) (cs : List Char) (h : IsCleanCut [c] cs) :
    breaks (c :: cs) = (if isBreak c then 1 else 0) + breaks cs := by
  have hpair : ∀ ds, c = '\r' → cs = '\n' :: ds → False := by
    rintro ds rfl rfl
    exact h rfl rfl
  rw [breaks]
  · split <;> omega
  · exact hpair

/-- Line breaks can be counted on the two sides of a clean cut. -/
theorem breaks_append (as bs : List Char) (h : IsCleanCut as bs) :
    breaks (as ++ bs) = breaks as + breaks bs := by
  -- The induction follows `breaks`, which takes the two characters of a `\r\n` at once.
  fun_induction breaks as with
  | case1 => simp
  | case2 cs ih =>
    have hcs := ih h.tail.tail
    rw [List.cons_append, List.cons_append, breaks, hcs]
    omega
  | case3 c cs hpair hc ih =>
    have hcut : IsCleanCut [c] (cs ++ bs) := by
      cases cs with
      | nil => exact h
      | cons d ds => exact fun hr hd => hpair ds (by simpa using hr) (by simpa using hd)
    rw [List.cons_append, breaks_cons _ _ hcut, ih h.tail, if_pos hc]
    omega
  | case4 c cs hpair hc ih =>
    have hcut : IsCleanCut [c] (cs ++ bs) :=
      isCleanCut_of_getLast? rfl (by rintro rfl; simp [isBreak] at hc) _
    rw [List.cons_append, breaks_cons _ _ hcut, ih h.tail, if_neg hc, Nat.zero_add]

/-- A text without line breaks has no character that ends a line. -/
lemma breaks_eq_zero_iff (cs : List Char) : breaks cs = 0 ↔ ∀ c ∈ cs, isBreak c = false := by
  fun_induction breaks cs with
  | case1 => simp
  | case2 cs ih => simp [isBreak]
  | case3 c cs hpair hc ih => simp [hc]
  | case4 c cs hpair hc ih => simpa [hc] using ih

/-! ## Sizes in bytes -/

/-- The size in bytes is additive. -/
@[simp] lemma byteSize_append (as bs : List Char) :
    byteSize (as ++ bs) = byteSize as + byteSize bs := by
  induction as with
  | nil => simp [byteSize]
  | cons c cs ih => simp [byteSize, ih, Nat.add_assoc]

/-- The size in bytes is that of the text as a string. -/
lemma byteSize_toList (s : String) : byteSize s.toList = s.utf8ByteSize := by
  have hlist (cs : List Char) : byteSize cs = (String.ofList cs).utf8ByteSize := by
    induction cs with
    | nil => rfl
    | cons c cs ih =>
      rw [String.ofList_cons, String.utf8ByteSize_append, String.utf8ByteSize_singleton,
        byteSize, ih]
  rw [hlist, String.ofList_toList]

/-! ## Stretches of one line -/

/-- A test that both line ends fail is passed only by characters that end no line. -/
lemma isBreak_eq_false_of_test {p : Char → Bool} (hn : p '\n' = false) (hr : p '\r' = false)
    (c : Char) (h : p c = true) : isBreak c = false := by
  rw [Bool.eq_false_iff]
  intro hc
  rcases (by simpa [isBreak] using hc : c = '\n' ∨ c = '\r') with rfl | rfl
  · simp [hn] at h
  · simp [hr] at h

/-- The text has at least `n` characters, and the first `n` of them end no line. -/
def StaysInLine (n : Nat) (cs : List Char) : Prop :=
  n ≤ cs.length ∧ ∀ c ∈ cs.take n, isBreak c = false

/-- Nothing ends no line. -/
lemma StaysInLine.zero (cs : List Char) : StaysInLine 0 cs := by
  simp [StaysInLine]

/-- One stretch after another is a stretch. -/
lemma StaysInLine.add {m n : Nat} {cs : List Char} (hm : StaysInLine m cs)
    (hn : StaysInLine n (cs.drop m)) : StaysInLine (m + n) cs := by
  obtain ⟨hm, hms⟩ := hm
  obtain ⟨hn, hns⟩ := hn
  rw [List.length_drop] at hn
  refine ⟨by omega, fun c hc => ?_⟩
  rw [List.take_add, List.mem_append] at hc
  exact hc.elim (hms c) (hns c)

/-- A character that ends no line can be put in front of a stretch. -/
lemma StaysInLine.cons {c : Char} {n : Nat} {cs : List Char} (hc : isBreak c = false)
    (h : StaysInLine n cs) : StaysInLine (n + 1) (c :: cs) := by
  refine ⟨by simpa using h.1, fun d hd => ?_⟩
  rw [List.take_succ_cons, List.mem_cons] at hd
  rcases hd with rfl | hd
  · exact hc
  · exact h.2 d hd

/-- The characters at the start that pass a test make a stretch, if no line end passes it. -/
lemma StaysInLine.takeWhile {p : Char → Bool} (hp : ∀ c, p c = true → isBreak c = false)
    (cs : List Char) : StaysInLine (cs.takeWhile p).length cs := by
  refine ⟨(List.takeWhile_prefix p).length_le, fun c hc => hp c ?_⟩
  rw [← List.prefix_iff_eq_take.1 (List.takeWhile_prefix p)] at hc
  exact List.mem_takeWhile_imp hc

/-- A stretch after its first character. -/
lemma StaysInLine.pred {c : Char} {n : Nat} {cs : List Char} (h : StaysInLine n (c :: cs)) :
    StaysInLine (n - 1) cs := by
  cases n with
  | zero => exact .zero cs
  | succ n =>
    refine ⟨by simpa using h.1, fun d hd => h.2 d ?_⟩
    rw [List.take_succ_cons]
    exact List.mem_cons_of_mem c hd

/-- A text of one line makes a stretch wherever it starts another text. -/
lemma StaysInLine.of_prefix {as cs : List Char} (h : as <+: cs)
    (has : ∀ c ∈ as, isBreak c = false) : StaysInLine as.length cs := by
  refine ⟨h.length_le, fun c hc => has c ?_⟩
  rwa [← List.prefix_iff_eq_take.1 h] at hc

/-- The cut after a stretch is clean. -/
lemma StaysInLine.isCleanCut {c : Char} {n : Nat} {cs : List Char} (hc : isBreak c = false)
    (h : StaysInLine n cs) : IsCleanCut (c :: cs.take n) (cs.drop n) := by
  intro hr
  have hmem : '\r' ∈ c :: cs.take n := List.mem_of_getLast? hr
  have hbreak : isBreak '\r' = false := by
    rcases List.mem_cons.1 hmem with heq | hmem
    · rw [heq, hc]
    · exact h.2 _ hmem
  simp [isBreak] at hbreak

end JavaLint.Text
