import JavaLint.Proofs.LineEnds.Text
import JavaLint.Proofs.Lexeme.Extent
import Mathlib.Tactic.Common

/-!
# Numbers and the ends of lines

A number literal stays in its line, and what comes after its line plays no part in how it is read, nor
does the way in which the line ends: `scan_firstLine`.  There is one lemma for each part of a number.
-/

namespace JavaLint.Number

open Text (isBreak firstLine isBreak_eq_false_of_test firstLine_cons firstLine_cons_of_isBreak
  takeWhile_firstLine head?_firstLine eq_false_of_isBreak)

/-- Digits are looked for in the first line only. -/
lemma digits_firstLine {isDigit : Char → Bool} (h : ∀ c, isDigit c = true → isBreak c = false)
    (cs : List Char) : digits isDigit (firstLine cs) = digits isDigit cs := by
  rw [digits, digits, takeWhile_firstLine (isBreak_of_digitOrUnderscore h)]

/-- One of several characters is looked for in the first line only. -/
lemma oneOf_firstLine (choices : List Char) (h : ∀ c ∈ choices, isBreak c = false)
    (cs : List Char) : oneOf choices (firstLine cs) = oneOf choices cs := by
  cases cs with
  | nil => rfl
  | cons c cs =>
    cases hc : isBreak c with
    | true =>
      have hnot : c ∉ choices := fun hmem => by simp [h c hmem] at hc
      simp [firstLine_cons_of_isBreak hc, oneOf, hnot]
    | false => rw [firstLine_cons hc, oneOf, oneOf]

/-- An exponent is looked for in the first line only. -/
lemma exponent_firstLine (markers : List Char) (h : ∀ c ∈ markers, isBreak c = false)
    (cs : List Char) : exponent markers (firstLine cs) = exponent markers cs := by
  cases cs with
  | nil => rfl
  | cons m cs =>
    cases hm : isBreak m with
    | true =>
      have hnot : m ∉ markers := fun hmem => by simp [h m hmem] at hm
      rw [firstLine_cons_of_isBreak hm, exponent, exponent]
      split <;> simp [hnot]
    | false =>
      have hsigns : ∀ c ∈ ['+', '-'], isBreak c = false := by simp [isBreak]
      have hdrop := (oneOf_staysInLine ['+', '-'] hsigns cs).firstLine_drop
      rw [firstLine_cons hm, exponent, exponent, oneOf_firstLine _ hsigns, ← hdrop]
      cases hrest : cs.drop (oneOf ['+', '-'] cs) with
      | nil => rfl
      | cons d ds =>
        cases hd : isBreak d with
        | true =>
          simp [firstLine_cons_of_isBreak hd, eq_false_of_isBreak isBreak_of_isDigit hd]
        | false =>
          have hdigits := digits_firstLine isBreak_of_isDigit (d :: ds)
          rw [firstLine_cons hd] at hdigits ⊢
          simp only [hdigits]

/-- A character that can start a name ends no line. -/
lemma isBreak_of_startsName : ∀ c, startsName c = true → isBreak c = false :=
  isBreak_eq_false_of_test (by decide +kernel) (by decide +kernel)

/-- There is no decimal fraction without a point. -/
lemma fraction_of_ne {c : Char} (hc : c ≠ '.') (cs : List Char) : fraction (c :: cs) = 0 := by
  unfold fraction
  split <;> simp_all

/-- There is no hexadecimal fraction without a point. -/
lemma hexFraction_of_ne {c : Char} (hc : c ≠ '.') (cs : List Char) :
    hexFraction (c :: cs) = 0 := by
  unfold hexFraction
  split <;> simp_all

/-- A decimal fraction is looked for in the first line only. -/
lemma fraction_firstLine (cs : List Char) : fraction (firstLine cs) = fraction cs := by
  cases cs with
  | nil => rfl
  | cons c cs =>
    by_cases hc : c = '.'
    · subst hc
      cases cs with
      | nil => rfl
      | cons d cs =>
        rw [firstLine_cons rfl]
        cases hd : isBreak d with
        | true =>
          have hpoint : (d == '.') = false := by
            rw [beq_eq_false_iff_ne]
            rintro rfl
            simp [isBreak] at hd
          rw [firstLine_cons_of_isBreak hd]
          simp [fraction, eq_false_of_isBreak isBreak_of_isDigit hd,
            eq_false_of_isBreak isBreak_of_startsName hd, hpoint]
        | false =>
          have hdigits := digits_firstLine isBreak_of_isDigit (d :: cs)
          rw [firstLine_cons hd] at hdigits ⊢
          rw [fraction, fraction, hdigits]
    · rw [fraction_of_ne hc]
      cases hbreak : isBreak c with
      | true =>
        rw [firstLine_cons_of_isBreak hbreak]
        rfl
      | false => rw [firstLine_cons hbreak, fraction_of_ne hc]

/-- A hexadecimal fraction is looked for in the first line only. -/
lemma hexFraction_firstLine (cs : List Char) : hexFraction (firstLine cs) = hexFraction cs := by
  cases cs with
  | nil => rfl
  | cons c cs =>
    by_cases hc : c = '.'
    · subst hc
      rw [firstLine_cons rfl, hexFraction, hexFraction, digits_firstLine isBreak_of_isHexDigit]
    · rw [hexFraction_of_ne hc]
      cases hbreak : isBreak c with
      | true =>
        rw [firstLine_cons_of_isBreak hbreak]
        rfl
      | false => rw [firstLine_cons hbreak, hexFraction_of_ne hc]

/-- What follows `0x` is looked for in the first line only. -/
lemma scanHex_firstLine (cs : List Char) : scanHex (firstLine cs) = scanHex cs := by
  have hwhole := digits_staysInLine isBreak_of_isHexDigit cs
  have hpart := hwhole.add (hexFraction_staysInLine _)
  have hpower := hpart.add (exponent_staysInLine ['p', 'P'] (by simp [isBreak]) _)
  simp only [scanHex, digits_firstLine isBreak_of_isHexDigit, ← hwhole.firstLine_drop,
    hexFraction_firstLine, ← hpart.firstLine_drop, ← hpower.firstLine_drop,
    exponent_firstLine ['p', 'P'] (by simp [isBreak]),
    oneOf_firstLine ['l', 'L'] (by simp [isBreak]),
    oneOf_firstLine ['f', 'F', 'd', 'D'] (by simp [isBreak])]

/-- What follows `0b` is looked for in the first line only. -/
lemma scanBinary_firstLine (cs : List Char) : scanBinary (firstLine cs) = scanBinary cs := by
  have hwhole := digits_staysInLine isBreak_of_isBinaryDigit cs
  simp only [scanBinary, digits_firstLine isBreak_of_isBinaryDigit, ← hwhole.firstLine_drop,
    oneOf_firstLine ['l', 'L'] (by simp [isBreak])]

/-- A decimal literal is looked for in the first line only. -/
lemma scanDecimal_firstLine (cs : List Char) : scanDecimal (firstLine cs) = scanDecimal cs := by
  have hwhole := digits_staysInLine isBreak_of_isDigit cs
  have hpart := hwhole.add (fraction_staysInLine _)
  have hpower := hpart.add (exponent_staysInLine ['e', 'E'] (by simp [isBreak]) _)
  simp only [scanDecimal, digits_firstLine isBreak_of_isDigit, ← hwhole.firstLine_drop,
    fraction_firstLine, ← hpart.firstLine_drop, ← hpower.firstLine_drop,
    exponent_firstLine ['e', 'E'] (by simp [isBreak]),
    oneOf_firstLine ['l', 'L'] (by simp [isBreak]),
    oneOf_firstLine ['f', 'F', 'd', 'D'] (by simp [isBreak]), head?_firstLine (c := '0') rfl]

/-- A number is decimal unless it starts with a zero and a further character. -/
lemma scan_eq_scanDecimal {cs : List Char} (h : ∀ m ds, cs ≠ '0' :: m :: ds) :
    scan cs = scanDecimal cs := by
  unfold scan
  split
  · rename_i m ds
    exact absurd rfl (h m ds)
  · rfl

/-- A number literal is looked for in the first line only. -/
lemma scan_firstLine (cs : List Char) : scan (firstLine cs) = scan cs := by
  by_cases hzero : ∃ m ds, cs = '0' :: m :: ds
  · obtain ⟨m, ds, rfl⟩ := hzero
    have hdecimal := scanDecimal_firstLine ('0' :: m :: ds)
    rw [firstLine_cons rfl] at hdecimal ⊢
    cases hm : isBreak m with
    | true =>
      have hne (c : Char) (hc : isBreak c = false) : m ≠ c := by
        rintro rfl
        simp [hc] at hm
      rw [firstLine_cons_of_isBreak hm] at hdecimal ⊢
      rw [scan_eq_scanDecimal (by simp), hdecimal, scan]
      simp [hne 'x' rfl, hne 'X' rfl, hne 'b' rfl, hne 'B' rfl]
    | false =>
      rw [firstLine_cons hm] at hdecimal ⊢
      rw [scan, scan, hdecimal, scanHex_firstLine, scanBinary_firstLine]
  · have hfirst : ∀ m ds, firstLine cs ≠ '0' :: m :: ds := by
      intro m ds hline
      have hprefix : firstLine cs <+: cs := List.takeWhile_prefix _
      rw [hline] at hprefix
      obtain ⟨rest, rfl⟩ := hprefix
      exact hzero ⟨m, ds ++ rest, by simp⟩
    rw [scan_eq_scanDecimal hfirst, scanDecimal_firstLine,
      scan_eq_scanDecimal fun m ds hcs => hzero ⟨m, ds, hcs⟩]

end JavaLint.Number
