import JavaLint.Proofs.Lexeme.Spelling
import Mathlib.Tactic.Common

/-!
# Words that touch

A word takes all characters that continue it (`nextWord_maximal`), and the first character of a lexeme
says whether it is a word (`next_isWord`).  So after a word there is something else before the next word
starts.

There is one exception.  The word `non-sealed` is known by its ten characters, whatever follows them, so
a name may start right after it: `words_touch_iff` says that this is the only way in which two words can
touch.
-/

namespace JavaLint.Lexeme

variable {c : Char} {cs : List Char} {kind : Kind} {n : Nat}

/-- What starts like a word is read as one. -/
lemma next_of_startsWord (hc : startsWord c = true) (cs : List Char) :
    next c cs = .ok (nextWord c cs) := by
  have hne {d : Char} (hd : startsWord d = false) : c ≠ d := by
    rintro rfl
    simp [hc] at hd
  have hgap : isGap c = false := by
    simp [isGap, hne (d := ' ') (by decide), hne (d := '\t') (by decide),
      hne (d := '\x0c') (by decide)]
  rw [next, if_neg (by simp [hgap]), if_neg (hne (by decide)), if_neg (hne (by decide)), if_pos hc]

/-- A lexeme is a word if and only if it starts like one. -/
lemma next_isWord (h : next c cs = .ok (kind, n)) : kind.isWord = true ↔ startsWord c = true := by
  constructor
  · exact fun hkind => (next_of_isWord h hkind).1
  · intro hc
    have hkind := nextWord_isWord c cs
    rw [next_of_startsWord hc] at h
    rwa [Except.ok.inj h] at hkind

/-- A word takes all characters that continue it, unless it is the one with a hyphen. -/
lemma nextWord_maximal (h : nextWord c cs = (kind, n)) :
    c :: cs.take n = "non-sealed".toList ∨ ∀ d ∈ (cs.drop n).head?, continuesWord d = false := by
  unfold nextWord at h
  split at h
  · rename_i hhyphen
    obtain ⟨-, rfl⟩ := Prod.mk.inj h
    have hstart : "non-sealed".toList <+: c :: cs := List.isPrefixOf_iff_prefix.1 hhyphen
    exact .inl (List.prefix_iff_eq_take.1 hstart).symm
  · obtain ⟨-, rfl⟩ := Prod.mk.inj h
    refine .inr fun d hd => ?_
    have hrest : cs.drop (cs.takeWhile continuesWord).length = cs.dropWhile continuesWord := by
      have hsplit : cs.takeWhile continuesWord ++ cs.dropWhile continuesWord = cs :=
        List.takeWhile_append_dropWhile
      exact (congrArg (List.drop _) hsplit).symm.trans List.drop_left
    have hstop := List.head?_dropWhile_not continuesWord cs
    rw [hrest] at hd
    rw [Option.mem_def.1 hd] at hstop
    exact hstop

/-- Of two lexemes that stand one after the other, both are words if and only if the first one is
`non-sealed` and the second one starts with a character that starts a word. -/
theorem words_touch_iff {source : String} {lexemes : List Lexeme} (h : scan source = .ok lexemes) :
    ∀ before l m after, lexemes = before ++ l :: m :: after →
      (l.kind.isWord = true ∧ m.kind.isWord = true ↔
        l.text = "non-sealed" ∧ m.text.toList.head?.any startsWord = true) := by
  rintro before l m after rfl
  obtain ⟨c, cs, n, hnext, htext, hrest⟩ := exists_next_of_scanFrom h
  have h' : scanFrom 0 1 source.toList = .ok (before ++ [l] ++ m :: after) := by
    rw [List.append_assoc]
    exact h
  obtain ⟨d, ds, k, hnext', htext', -⟩ := exists_next_of_scanFrom h'
  have hsecond : (cs.drop n).head? = some d := by
    rw [← hrest, chars_cons, htext']
    rfl
  rw [next_isWord hnext', htext', List.head?_cons, Option.any_some]
  refine and_congr_left fun hd => ?_
  constructor
  · intro hkind
    rcases nextWord_maximal (next_of_isWord hnext hkind).2 with hhyphen | hstop
    · rw [← String.toList_inj, htext, hhyphen]
    · have hcontinues : continuesWord d = true := by simp [continuesWord, hd]
      simp [hstop d hsecond] at hcontinues
  · intro hhyphen
    rw [hhyphen] at htext
    obtain ⟨rfl, -⟩ := List.cons.inj htext
    exact (next_isWord hnext).2 (by decide)

/-- The word with a hyphen right before a name, and a name before a blank. -/
theorem words_touch_before_name :
    scan "non-sealed_a b" = .ok [⟨.keyword .nonSealedKw, "non-sealed", 0, 1⟩,
        ⟨.identifier, "_a", 10, 1⟩, ⟨.whitespace, " ", 12, 1⟩, ⟨.identifier, "b", 13, 1⟩] ∧
      ((Kind.keyword .nonSealedKw).isWord = true ∧ Kind.identifier.isWord = true ↔
        "non-sealed" = "non-sealed" ∧ "_a".toList.head?.any startsWord = true) ∧
      (Kind.identifier.isWord = true ∧ Kind.whitespace.isWord = true ↔
        "_a" = "non-sealed" ∧ " ".toList.head?.any startsWord = true) := by
  have h : scan "non-sealed_a b" = .ok [⟨.keyword .nonSealedKw, "non-sealed", 0, 1⟩,
      ⟨.identifier, "_a", 10, 1⟩, ⟨.whitespace, " ", 12, 1⟩, ⟨.identifier, "b", 13, 1⟩] := by
    decide +kernel
  exact ⟨h, words_touch_iff h [] _ _ _ rfl,
    words_touch_iff h [⟨.keyword .nonSealedKw, "non-sealed", 0, 1⟩] _ _ _ rfl⟩

/-- A difference of two names is read as two words that touch. -/
theorem words_touch_in_difference :
    ¬ ∀ source lexemes, scan source = .ok lexemes → ∀ before l m after,
      lexemes = before ++ l :: m :: after → ¬ (l.kind.isWord = true ∧ m.kind.isWord = true) := by
  intro hlaw
  have h : scan "non-sealedCount" =
      .ok [⟨.keyword .nonSealedKw, "non-sealed", 0, 1⟩, ⟨.identifier, "Count", 10, 1⟩] := by
    decide +kernel
  exact hlaw _ _ h [] _ _ [] rfl ⟨rfl, rfl⟩

end JavaLint.Lexeme
