import JavaLint.Proofs.LineEnds.Scan
import Mathlib.Tactic.Common

/-!
# Lexemes read by themselves

What follows a lexeme decides where it ends: a point belongs to the number before it unless a name
follows, two quotation marks are an empty string unless a third one follows, and an operator is as long
as it can be.  Nothing of this is lost with the text that follows.  The characters that `next` takes are
taken again, as a lexeme of the same kind, if nothing stands after them (`next_take`).

There is one lemma for each way in which lexemes end, each of which says that a scanner which has taken
its characters from a text finds the same in these characters alone.  The main result is
`lexemes_read_back`: the text of a lexeme is a text with this one lexeme, so the text tells the kind.
-/

namespace JavaLint

/-- A run of characters that is not cut is found again. -/
lemma Text.takeWhile_take {p : Char → Bool} {cs : List Char} {m : Nat}
    (h : (cs.takeWhile p).length ≤ m) : (cs.take m).takeWhile p = cs.takeWhile p := by
  induction cs generalizing m with
  | nil => simp
  | cons c cs ih =>
    cases m with
    | zero => exact (List.length_eq_zero_iff.1 (Nat.le_zero.1 h)).symm
    | succ m =>
      rw [List.take_succ_cons, List.takeWhile_cons, List.takeWhile_cons]
      rw [List.takeWhile_cons] at h
      split
      · rename_i hc
        rw [if_pos hc, List.length_cons, Nat.add_le_add_iff_right] at h
        rw [ih h]
      · rfl

/-! ## Numbers -/

namespace Number

variable {m : Nat}

/-- A run of digits that is not cut is found again. -/
lemma digits_take (isDigit : Char → Bool) {cs : List Char} (h : digits isDigit cs ≤ m) :
    digits isDigit (cs.take m) = digits isDigit cs := by
  rw [digits, Text.takeWhile_take h, digits]

/-- One of several characters that is not cut is found again. -/
lemma oneOf_take (choices : List Char) {cs : List Char} (h : oneOf choices cs ≤ m) :
    oneOf choices (cs.take m) = oneOf choices cs := by
  cases cs with
  | nil => simp
  | cons c cs =>
    cases m with
    | zero => exact (Nat.le_zero.1 h).symm
    | succ m => rfl

/-- An exponent that is not cut is found again.  Where there is none, none arises from one character. -/
lemma exponent_take (markers : List Char) {cs : List Char} (h : exponent markers cs ≤ m)
    (hzero : exponent markers cs = 0 → m ≤ 1) :
    exponent markers (cs.take m) = exponent markers cs := by
  by_cases hnone : exponent markers cs = 0
  · rw [hnone]
    cases cs with
    | nil => simp [exponent]
    | cons c cs =>
      rcases Nat.le_one_iff_eq_zero_or_eq_one.1 (hzero hnone) with rfl | rfl <;> simp [exponent]
  · cases cs with
    | nil => simp [exponent] at hnone
    | cons c cs =>
      cases hdrop : cs.drop (oneOf ['+', '-'] cs) with
      | nil => simp [exponent, hdrop] at hnone
      | cons d ds =>
        by_cases hmark : (markers.contains c && d.isDigit) = true
        · simp only [exponent, hdrop, if_pos hmark] at h ⊢
          obtain ⟨k, rfl⟩ : ∃ k, m = k + 1 := ⟨m - 1, by omega⟩
          have hsign : oneOf ['+', '-'] (cs.take k) = oneOf ['+', '-'] cs :=
            oneOf_take _ (by omega)
          have hrest : (cs.take k).drop (oneOf ['+', '-'] cs) =
              (d :: ds).take (k - oneOf ['+', '-'] cs) := by
            rw [List.drop_take, hdrop]
          have hpos : 0 < digits Char.isDigit (d :: ds) := by
            simp [digits, (Bool.and_eq_true_iff.1 hmark).2]
          obtain ⟨j, hj⟩ : ∃ j, k - oneOf ['+', '-'] cs = j + 1 :=
            ⟨k - oneOf ['+', '-'] cs - 1, by omega⟩
          have hdigits : digits Char.isDigit (d :: ds.take j) = digits Char.isDigit (d :: ds) := by
            rw [← List.take_succ_cons]
            exact digits_take Char.isDigit (by omega)
          rw [hj, List.take_succ_cons] at hrest
          simp only [List.take_succ_cons, hsign, hrest, if_pos hmark, hdigits]
        · simp only [exponent, hdrop, if_neg hmark, not_true_eq_false] at hnone

/-- A decimal fraction that is not cut is found again, unless only its point is left of what was no
fraction. -/
lemma fraction_take {cs : List Char} (h : fraction cs ≤ m)
    (hzero : cs.head? = some '.' → fraction cs = 0 → m = 0) :
    fraction (cs.take m) = fraction cs := by
  cases cs with
  | nil => simp
  | cons c cs =>
    cases m with
    | zero => exact (Nat.le_zero.1 h).symm
    | succ m =>
      rw [List.take_succ_cons]
      by_cases hc : c = '.'
      · subst hc
        cases cs with
        | nil => simp
        | cons d cs =>
          have hsome : fraction ('.' :: d :: cs) ≠ 0 := fun hnone => by
            have := hzero rfl hnone
            omega
          cases m with
          | zero =>
            have hone : fraction ('.' :: d :: cs) = 1 := by omega
            rw [hone]
            rfl
          | succ m =>
            rw [List.take_succ_cons]
            by_cases hd : d.isDigit = true
            · rw [fraction, if_pos hd] at h
              have hdigits : digits Char.isDigit (d :: cs.take m) = digits Char.isDigit (d :: cs) := by
                rw [← List.take_succ_cons]
                exact digits_take Char.isDigit (by omega)
              rw [fraction, fraction, hdigits]
            · rw [fraction, fraction, if_neg hd, if_neg hd]
      · rw [fraction_of_ne hc, fraction_of_ne hc]

/-- A hexadecimal fraction that is not cut is found again. -/
lemma hexFraction_take {cs : List Char} (h : hexFraction cs ≤ m) :
    hexFraction (cs.take m) = hexFraction cs := by
  cases cs with
  | nil => simp
  | cons c cs =>
    cases m with
    | zero => exact (Nat.le_zero.1 h).symm
    | succ m =>
      rw [List.take_succ_cons]
      by_cases hc : c = '.'
      · subst hc
        rw [hexFraction] at h
        rw [hexFraction, hexFraction, digits_take isHexDigit (by omega)]
      · rw [hexFraction_of_ne hc, hexFraction_of_ne hc]

/-- There is no exponent where no marker stands. -/
lemma exponent_of_notMem {markers : List Char} {c : Char} (hc : c ∉ markers) (cs : List Char) :
    exponent markers (c :: cs) = 0 := by
  rw [exponent]
  split <;> simp [hc]

/-- At most one character is taken. -/
lemma oneOf_le_one (choices cs : List Char) : oneOf choices cs ≤ 1 := by
  unfold oneOf
  split
  · omega
  · split <;> omega

/-- A shorter text does not start with more. -/
lemma oneOf_take_le (choices cs : List Char) (m : Nat) :
    oneOf choices (cs.take m) ≤ oneOf choices cs := by
  cases cs with
  | nil => simp
  | cons c cs =>
    cases m with
    | zero => exact Nat.zero_le _
    | succ m => exact le_rfl

/-- What follows `0x` is read back. -/
lemma scanHex_take (cs : List Char) : scanHex (cs.take (scanHex cs).2) = scanHex cs := by
  set whole := digits isHexDigit cs with hwhole
  set part := hexFraction (cs.drop whole) with hpart
  set power := exponent ['p', 'P'] (cs.drop (whole + part)) with hpower
  -- The literal read from its first characters, up to the place of its suffix.
  have hread {s : Nat} (hs : s ≤ 1) : scanHex (cs.take (whole + part + power + s)) =
      if part + power = 0 then
        (.hexLiteral, whole + part + power +
          oneOf ['l', 'L'] ((cs.drop (whole + part + power)).take s))
      else
        (.hexFloatLiteral, whole + part + power +
          oneOf ['f', 'F', 'd', 'D'] ((cs.drop (whole + part + power)).take s)) := by
    have hdigits : digits isHexDigit (cs.take (whole + part + power + s)) = whole :=
      digits_take isHexDigit (by omega)
    have hfraction :
        hexFraction ((cs.take (whole + part + power + s)).drop whole) = part := by
      rw [List.drop_take]
      exact hexFraction_take (by omega)
    have hexponent : exponent ['p', 'P']
        ((cs.take (whole + part + power + s)).drop (whole + part)) = power := by
      rw [List.drop_take]
      exact exponent_take ['p', 'P'] (by omega) (by omega)
    have hsuffix : (cs.take (whole + part + power + s)).drop (whole + part + power) =
        (cs.drop (whole + part + power)).take s := by
      rw [List.drop_take, Nat.add_sub_cancel_left]
    simp only [scanHex, hdigits, hfraction, hexponent, hsuffix]
  have hscan : scanHex cs =
      if part + power = 0 then
        (.hexLiteral, whole + part + power + oneOf ['l', 'L'] (cs.drop (whole + part + power)))
      else
        (.hexFloatLiteral, whole + part + power +
          oneOf ['f', 'F', 'd', 'D'] (cs.drop (whole + part + power))) := rfl
  by_cases hnone : part + power = 0
  · rw [if_pos hnone] at hscan
    rw [hscan, hread (oneOf_le_one _ _), if_pos hnone, oneOf_take _ le_rfl]
  · rw [if_neg hnone] at hscan
    rw [hscan, hread (oneOf_le_one _ _), if_neg hnone, oneOf_take _ le_rfl]

/-- What follows `0b` is read back. -/
lemma scanBinary_take (cs : List Char) : scanBinary (cs.take (scanBinary cs).2) = scanBinary cs := by
  have hdigits : digits isBinaryDigit (cs.take (scanBinary cs).2) = digits isBinaryDigit cs :=
    digits_take isBinaryDigit (Nat.le_add_right _ _)
  have hsuffix : (cs.take (scanBinary cs).2).drop (digits isBinaryDigit cs) =
      (cs.drop (digits isBinaryDigit cs)).take
        (oneOf ['l', 'L'] (cs.drop (digits isBinaryDigit cs))) := by
    rw [List.drop_take, scanBinary, Nat.add_sub_cancel_left]
  rw [scanBinary, hdigits, hsuffix, oneOf_take _ le_rfl]
  rfl

/-- Before a point there is none of several other characters. -/
lemma oneOf_eq_zero {choices cs : List Char} (hhead : cs.head? = some '.') (h : '.' ∉ choices) :
    oneOf choices cs = 0 := by
  obtain ⟨rest, rfl⟩ := List.head?_eq_some_iff.1 hhead
  simp [oneOf, h]

/-- A decimal literal is read back. -/
lemma scanDecimal_take (cs : List Char) :
    scanDecimal (cs.take (scanDecimal cs).2) = scanDecimal cs := by
  set whole := digits Char.isDigit cs with hwhole
  set part := fraction (cs.drop whole) with hpart
  set power := exponent ['e', 'E'] (cs.drop (whole + part)) with hpower
  set size := whole + part + power with hsize
  have hscan (cs' : List Char) (hhead : 1 < size → cs'.head? = cs.head?)
      (hdigits : digits Char.isDigit cs' = whole) (hfraction : fraction (cs'.drop whole) = part)
      (hexponent : exponent ['e', 'E'] (cs'.drop (whole + part)) = power) :
      scanDecimal cs' =
        if oneOf ['f', 'F', 'd', 'D'] (cs'.drop size) = 1 then (.floatLiteral, size + 1)
        else if part + power ≠ 0 then (.floatLiteral, size)
        else (if cs.head? = some '0' && 1 < size then .octLiteral else .decimalLiteral,
          size + oneOf ['l', 'L'] (cs'.drop size)) := by
    have hzero : (cs'.head? = some '0' && 1 < size : Bool) = (cs.head? = some '0' && 1 < size : Bool) := by
      by_cases hlt : 1 < size
      · rw [hhead hlt]
      · simp [hlt]
    simp only [scanDecimal, hdigits, hfraction, hexponent, ← hsize, hzero]
  -- A point after the digits that starts no fraction ends the literal.
  have hpoint (hhead : (cs.drop whole).head? = some '.') (hnone : part = 0) :
      power = 0 ∧ ∀ choices, '.' ∉ choices → oneOf choices (cs.drop size) = 0 := by
    obtain ⟨rest, hrest⟩ := List.head?_eq_some_iff.1 hhead
    have hpower : power = 0 := by
      rw [hpower, hnone, Nat.add_zero, hrest]
      exact exponent_of_notMem (by decide) rest
    refine ⟨hpower, fun choices hchoices => oneOf_eq_zero ?_ hchoices⟩
    rw [hsize, hnone, hpower]
    exact hhead
  have hread {s : Nat} (hs : s ≤ 1) (hend : (cs.drop whole).head? = some '.' → part = 0 → s = 0) :
      scanDecimal (cs.take (size + s)) =
        if oneOf ['f', 'F', 'd', 'D'] ((cs.drop size).take s) = 1 then (.floatLiteral, size + 1)
        else if part + power ≠ 0 then (.floatLiteral, size)
        else (if cs.head? = some '0' && 1 < size then .octLiteral else .decimalLiteral,
          size + oneOf ['l', 'L'] ((cs.drop size).take s)) := by
    have hsuffix : (cs.take (size + s)).drop size = (cs.drop size).take s := by
      rw [List.drop_take, Nat.add_sub_cancel_left]
    rw [← hsuffix]
    refine hscan _ (fun hlt => ?_) (digits_take Char.isDigit (by omega)) ?_ ?_
    · rw [List.head?_take, if_neg (by omega)]
    · rw [List.drop_take]
      refine fraction_take (by omega) fun hhead hnone => ?_
      have hpower := (hpoint hhead hnone).1
      have hs := hend hhead hnone
      omega
    · rw [List.drop_take]
      exact exponent_take ['e', 'E'] (by omega) (by omega)
  rw [hscan cs (fun _ => rfl) rfl rfl rfl]
  by_cases hfloat : oneOf ['f', 'F', 'd', 'D'] (cs.drop size) = 1
  · rw [if_pos hfloat, hread le_rfl, if_pos]
    · rwa [oneOf_take _ (by omega)]
    · intro hhead hnone
      have hnot := (hpoint hhead hnone).2 ['f', 'F', 'd', 'D'] (by decide)
      omega
  · rw [if_neg hfloat]
    by_cases hparts : part + power ≠ 0
    · have hall := hread (s := 0) (by omega) fun _ _ => rfl
      rw [if_pos hparts]
      rw [Nat.add_zero, List.take_zero, if_neg (by simp [oneOf]), if_pos hparts] at hall
      exact hall
    · rw [if_neg hparts, hread (oneOf_le_one _ _), if_neg, if_neg hparts, oneOf_take _ le_rfl]
      · have hle := oneOf_take_le ['f', 'F', 'd', 'D'] (cs.drop size)
          (oneOf ['l', 'L'] (cs.drop size))
        have hone := oneOf_le_one ['f', 'F', 'd', 'D'] (cs.drop size)
        omega
      · exact fun hhead hnone => (hpoint hhead hnone).2 ['l', 'L'] (by decide)

/-- A number is decimal unless it starts with a zero and a letter for another base. -/
lemma scan_eq_scanDecimal_of_base {cs : List Char}
    (h : ∀ m ds, cs = '0' :: m :: ds → m ∉ ['x', 'X', 'b', 'B']) : scan cs = scanDecimal cs := by
  unfold scan
  split
  · rename_i m ds
    obtain ⟨hx, hX, hb, hB⟩ : m ≠ 'x' ∧ m ≠ 'X' ∧ m ≠ 'b' ∧ m ≠ 'B' := by simpa using h m ds rfl
    simp [hx, hX, hb, hB]
  · rfl

/-- A number literal is read back. -/
lemma scan_take (cs : List Char) : scan (cs.take (scan cs).2) = scan cs := by
  by_cases hbase : ∀ m ds, cs = '0' :: m :: ds → m ∉ ['x', 'X', 'b', 'B']
  · rw [scan_eq_scanDecimal_of_base hbase, scan_eq_scanDecimal_of_base, scanDecimal_take]
    intro m ds htake
    have hprefix := List.take_prefix (scanDecimal cs).2 cs
    rw [htake] at hprefix
    obtain ⟨rest, hrest⟩ := hprefix
    exact hbase m (ds ++ rest) hrest.symm
  · push Not at hbase
    obtain ⟨m, ds, rfl, hm⟩ := hbase
    by_cases hhex : (m = 'x' || m = 'X') = true
    · have hscan (ds : List Char) :
          scan ('0' :: m :: ds) = ((scanHex ds).1, (scanHex ds).2 + 2) := by
        rw [scan, if_pos hhex, Nat.add_comm]
      rw [hscan, List.take_succ_cons, List.take_succ_cons, hscan, scanHex_take]
    · have hbinary : (m = 'b' || m = 'B') = true := by simp_all
      have hscan (ds : List Char) :
          scan ('0' :: m :: ds) = ((scanBinary ds).1, (scanBinary ds).2 + 2) := by
        rw [scan, if_neg hhex, if_pos hbinary, Nat.add_comm]
      rw [hscan, List.take_succ_cons, List.take_succ_cons, hscan, scanBinary_take]

/-- A decimal literal takes its digits and its fraction. -/
lemma le_scanDecimal (cs : List Char) :
    digits Char.isDigit cs + fraction (cs.drop (digits Char.isDigit cs)) ≤ (scanDecimal cs).2 := by
  simp only [scanDecimal]
  split
  · omega
  · split <;> omega

/-- A number literal takes the digit with which it starts. -/
lemma scan_pos_of_digit {c : Char} (hc : c.isDigit = true) (cs : List Char) :
    0 < (scan (c :: cs)).2 := by
  have hdecimal {c : Char} (hc : c.isDigit = true) (cs : List Char) :
      0 < (scanDecimal (c :: cs)).2 := by
    have hdigits : 0 < digits Char.isDigit (c :: cs) := by simp [digits, hc]
    have hle := le_scanDecimal (c :: cs)
    omega
  unfold scan
  split
  · split
    · omega
    · split
      · omega
      · exact hdecimal rfl _
  · exact hdecimal hc cs

/-- A number literal takes the point with which it starts and the digit after it. -/
lemma scan_pos_of_point {d : Char} (hd : d.isDigit = true) (cs : List Char) :
    1 < (scan ('.' :: d :: cs)).2 := by
  have hfraction : fraction ('.' :: d :: cs) = 1 + digits Char.isDigit (d :: cs) := by
    rw [fraction, if_pos hd]
  have hdigits : 0 < digits Char.isDigit (d :: cs) := by simp [digits, hd]
  have hle := le_scanDecimal ('.' :: d :: cs)
  have hwhole : digits Char.isDigit ('.' :: d :: cs) = 0 := rfl
  rw [hwhole, List.drop_zero, hfraction] at hle
  rw [scan_eq_scanDecimal (by simp)]
  omega

end Number

namespace Lexeme

variable {c : Char} {cs : List Char} {kind : Kind} {n : Nat}

/-! ## Words and symbols -/

/-- A text starts with a piece if and only if its first characters do, of which there are enough. -/
lemma isPrefixOf_take {piece : List Char} (h : piece.length ≤ n) :
    piece.isPrefixOf (cs.take n) = piece.isPrefixOf cs := by
  rw [Bool.eq_iff_iff, List.isPrefixOf_iff_prefix, List.isPrefixOf_iff_prefix, List.prefix_take_iff]
  exact and_iff_left h

/-- A text starts with what its first characters start with. -/
lemma isPrefixOf_of_take {piece : List Char} (h : piece.isPrefixOf (cs.take n) = true) :
    piece.isPrefixOf cs = true :=
  List.isPrefixOf_iff_prefix.2 ((List.isPrefixOf_iff_prefix.1 h).trans (List.take_prefix n cs))

/-- A word is read back. -/
lemma nextWord_take (c : Char) (cs : List Char) :
    nextWord c (cs.take (nextWord c cs).2) = nextWord c cs := by
  by_cases hhyphen : "non-sealed".toList.isPrefixOf (c :: cs) = true
  · have hword : nextWord c cs = (.keyword .nonSealedKw, 9) := by rw [nextWord, if_pos hhyphen]
    rw [hword, nextWord, ← List.take_succ_cons, isPrefixOf_take (by decide), if_pos hhyphen]
  · have hword : nextWord c cs = (wordKind (String.ofList (c :: cs.takeWhile continuesWord)),
        (cs.takeWhile continuesWord).length) := by rw [nextWord, if_neg hhyphen]
    rw [hword, nextWord, if_neg, Text.takeWhile_take le_rfl]
    rw [← List.take_succ_cons]
    exact fun hcut => hhyphen (isPrefixOf_of_take hcut)

/-- A separator or operator is read back. -/
lemma nextSymbol_take (h : nextSymbol c cs = .ok (kind, n)) :
    nextSymbol c (cs.take n) = .ok (kind, n) := by
  unfold nextSymbol at h ⊢
  split at h
  · rename_i spelling kind' hfind
    obtain ⟨rfl, hn⟩ := Prod.mk.inj (Except.ok.inj h)
    obtain ⟨hstart, before, after, hsymbols, hbefore⟩ := List.find?_eq_some_iff_append.1 hfind
    have hlength : spelling.toList.length ≤ n + 1 := by
      rw [String.length_toList]
      omega
    -- The spellings before it in the list start neither the text nor a part of it.
    have hagain : symbols.find? (fun symbol => symbol.1.toList.isPrefixOf (c :: cs.take n)) =
        some (spelling, kind') := by
      rw [← List.take_succ_cons]
      refine List.find?_eq_some_iff_append.2 ⟨?_, before, after, hsymbols, fun symbol hsymbol => ?_⟩
      · rw [isPrefixOf_take hlength]
        exact hstart
      · rw [Bool.not_eq_true', Bool.eq_false_iff]
        intro hcut
        simpa [isPrefixOf_of_take hcut] using hbefore symbol hsymbol
    rw [hagain]
    exact h
  · cases h

/-! ## Comments and quoted literals -/

/-- What starts a text is found at its start. -/
lemma find?_of_isPrefixOf {piece : List Char} (h : piece.isPrefixOf cs = true) :
    Text.find? piece cs = some 0 := by
  cases cs with
  | nil =>
    obtain rfl : piece = [] := by simpa using List.isPrefixOf_iff_prefix.1 h
    rfl
  | cons c cs => rw [Text.find?, if_pos h]

/-- What is found in a text is found in its first characters, of which there are enough. -/
lemma find?_take {piece : List Char} {m : Nat} (h : Text.find? piece cs = some m)
    (hm : m + piece.length ≤ n) : Text.find? piece (cs.take n) = some m := by
  induction cs generalizing m n with
  | nil => simpa using h
  | cons c cs ih =>
    rw [Text.find?] at h
    split at h
    · rename_i hstart
      obtain rfl := Option.some.inj h
      exact find?_of_isPrefixOf (by rwa [isPrefixOf_take (by omega)])
    · rename_i hstart
      obtain ⟨k, hk, rfl⟩ := Option.map_eq_some_iff.1 h
      obtain ⟨n, rfl⟩ : ∃ j, n = j + 1 := ⟨n - 1, by omega⟩
      rw [List.take_succ_cons, Text.find?, ← List.take_succ_cons, if_neg, ih hk (by omega)]
      · rfl
      · exact fun hcut => hstart (isPrefixOf_of_take hcut)

/-- The end of a comment is found again. -/
lemma commentTail_take {cs : List Char} {n : Nat} (h : commentTail cs = .ok n) :
    commentTail (cs.take n) = .ok n := by
  unfold commentTail at h ⊢
  split at h
  · rename_i m hm
    obtain rfl := Except.ok.inj h
    rw [find?_take (n := m + 2) hm le_rfl]
  · cases h

/-- A character is no backslash, if neither a last one nor one before another character. -/
lemma ne_backslash (hlast : c = '\\' → cs = [] → False)
    (hpair : ∀ d ds, c = '\\' → cs = d :: ds → False) : c ≠ '\\' := by
  rintro rfl
  cases cs with
  | nil => exact hlast rfl rfl
  | cons d ds => exact hpair d ds rfl rfl

/-- The end of a quoted literal is found again. -/
lemma quotedTail_take {quote : Char} {cs : List Char} {n : Nat} (h : quotedTail quote cs = some n) :
    quotedTail quote (cs.take n) = some n := by
  fun_induction quotedTail quote cs generalizing n with
  | case1 => cases h
  | case2 => cases h
  | case3 => cases h
  | case4 c cs hc ih =>
    obtain ⟨m, hm, rfl⟩ := Option.map_eq_some_iff.1 h
    rw [List.take_succ_cons, List.take_succ_cons, quotedTail, if_neg hc, ih hm]
    rfl
  | case5 => cases h
  | case6 cs hlast hpair hc =>
    obtain rfl := Option.some.inj h
    rw [List.take_succ_cons, quotedTail_cons quote (ne_backslash hlast hpair), if_neg hc, if_pos rfl]
  | case7 c cs hlast hpair hc hquote ih =>
    obtain ⟨m, hm, rfl⟩ := Option.map_eq_some_iff.1 h
    rw [List.take_succ_cons, quotedTail_cons quote (ne_backslash hlast hpair), if_neg hc,
      if_neg hquote, ih hm]
    rfl

/-- The end of a text block is found again. -/
lemma textBlockBody_take {cs : List Char} {n : Nat} (h : textBlockBody cs = some n) :
    textBlockBody (cs.take n) = some n := by
  fun_induction textBlockBody cs generalizing n with
  | case1 => cases h
  | case2 => cases h
  | case3 c cs ih =>
    obtain ⟨m, hm, rfl⟩ := Option.map_eq_some_iff.1 h
    rw [List.take_succ_cons, List.take_succ_cons, textBlockBody, ih hm]
    rfl
  | case4 cs =>
    obtain rfl := Option.some.inj h
    rfl
  | case5 c cs hlast hpair hquotes ih =>
    obtain ⟨m, hm, rfl⟩ := Option.map_eq_some_iff.1 h
    have hthree : ['"', '"', '"'].isPrefixOf (c :: cs.take m) = false := by
      rw [Bool.eq_false_iff, ← List.take_succ_cons]
      intro hcut
      obtain ⟨rest, hrest⟩ := List.isPrefixOf_iff_prefix.1 (isPrefixOf_of_take hcut)
      obtain ⟨rfl, rfl⟩ := List.cons.inj hrest
      exact hquotes rest rfl rfl
    rw [List.take_succ_cons, textBlockBody_cons (ne_backslash hlast hpair) hthree, ih hm]
    rfl

/-- A text block is read back from what follows its opening delimiter. -/
lemma textBlockTail_take {cs : List Char} {n : Nat} (h : textBlockTail cs = .ok n) :
    textBlockTail (cs.take n) = .ok n := by
  unfold textBlockTail at h ⊢
  split at h
  · rename_i hopening
    split at h
    · rename_i m hm
      obtain rfl := Except.ok.inj h
      -- The block ends with a quotation mark, so the line break before it is not cut off.
      have hstays : ((cs.take m).dropWhile isGap).head? = (cs.dropWhile isGap).head? := by
        obtain ⟨as, bs, rfl, rfl⟩ := textBlockBody_ends hm
        have htake : (as ++ '"' :: bs).take (as.length + 1) = as ++ ['"'] := by
          rw [List.take_length_add_append]
          rfl
        have hsplit : as ++ '"' :: bs = (as ++ ['"']) ++ bs := by simp
        have hne : (as ++ ['"']).dropWhile isGap ≠ [] := by
          intro hnil
          exact absurd (List.dropWhile_eq_nil_iff.1 hnil '"' (by simp)) (by decide)
        rw [htake, hsplit, @List.dropWhile_append _ _ (as ++ ['"']), if_neg (by rwa [List.isEmpty_iff]),
          List.head?_append_of_ne_nil _ hne]
      rw [hstays, if_pos hopening, textBlockBody_take hm]
    · cases h
  · cases h

/-- What starts with a quotation mark is read back. -/
lemma nextQuote_take (h : nextQuote cs = .ok (kind, n)) : nextQuote (cs.take n) = .ok (kind, n) := by
  rw [nextQuote_eq] at h ⊢
  split at h
  · rename_i hblock
    obtain ⟨m, hm, hanswer⟩ := exists_of_map_eq_ok h
    obtain ⟨rfl, rfl⟩ := Prod.mk.inj hanswer
    have htail : (cs.take (m + 2)).drop 2 = (cs.drop 2).take m := by
      rw [List.drop_take, Nat.add_sub_cancel]
    rw [isPrefixOf_take (by simp), if_pos hblock, htail, textBlockTail_take hm]
    rfl
  · rename_i hstring
    rw [if_neg fun hcut => hstring (isPrefixOf_of_take hcut)]
    split at h
    · rename_i m hm
      obtain ⟨rfl, rfl⟩ := Prod.mk.inj (Except.ok.inj h)
      rw [quotedTail_take hm]
    · cases h

/-- What starts with an apostrophe is read back. -/
lemma nextApostrophe_take (h : nextApostrophe cs = .ok (kind, n)) :
    nextApostrophe (cs.take n) = .ok (kind, n) := by
  unfold nextApostrophe at h ⊢
  split at h
  · rename_i m hm
    obtain ⟨rfl, rfl⟩ := Prod.mk.inj (Except.ok.inj h)
    rw [quotedTail_take hm]
  · cases h

/-- What starts with a slash is read back. -/
lemma nextSlash_take (h : nextSlash cs = .ok (kind, n)) : nextSlash (cs.take n) = .ok (kind, n) := by
  have hnot {piece : List Char} (hpiece : ¬ piece.isPrefixOf cs = true) :
      ¬ piece.isPrefixOf (cs.take n) = true :=
    fun hcut => hpiece (isPrefixOf_of_take hcut)
  have hdrop (m k : Nat) : (cs.take (m + k)).drop k = (cs.drop k).take m := by
    rw [List.drop_take, Nat.add_sub_cancel]
  rw [nextSlash_eq] at h ⊢
  split at h
  · rename_i hline
    obtain ⟨rfl, rfl⟩ := Prod.mk.inj (Except.ok.inj h)
    rw [isPrefixOf_take (by simp), if_pos hline, hdrop]
    have hagain : Text.firstLine ((cs.drop 1).take (Text.firstLine (cs.drop 1)).length) =
        Text.firstLine (cs.drop 1) := Text.takeWhile_take le_rfl
    rw [hagain]
  rename_i hline
  rw [if_neg (hnot hline)]
  split at h
  · rename_i hempty
    obtain ⟨rfl, rfl⟩ := Prod.mk.inj (Except.ok.inj h)
    rw [isPrefixOf_take (by simp), if_pos hempty]
  rename_i hempty
  rw [if_neg (hnot hempty)]
  split at h
  · rename_i hdoc
    obtain ⟨m, hm, hanswer⟩ := exists_of_map_eq_ok h
    obtain ⟨rfl, rfl⟩ := Prod.mk.inj hanswer
    rw [isPrefixOf_take (by simp), if_pos hdoc, hdrop, commentTail_take hm]
    rfl
  rename_i hdoc
  rw [if_neg (hnot hdoc)]
  split at h
  · rename_i hblock
    obtain ⟨m, hm, hanswer⟩ := exists_of_map_eq_ok h
    obtain ⟨rfl, rfl⟩ := Prod.mk.inj hanswer
    rw [isPrefixOf_take (by simp), if_pos hblock, hdrop, commentTail_take hm]
    rfl
  · rename_i hblock
    rw [if_neg (hnot hblock)]
    exact nextSymbol_take h

/-! ## Any lexeme -/

/-- Whether a number starts is seen in its own characters. -/
lemma startsNumber_of_take (h : startsNumber c (cs.take n) = true) : startsNumber c cs = true := by
  cases cs with
  | nil => simpa using h
  | cons d ds =>
    cases n with
    | zero => simp_all [startsNumber]
    | succ n => exact h

/-- A number is read back. -/
lemma next_number_take (h : startsNumber c cs = true) :
    startsNumber c (cs.take ((Number.scan (c :: cs)).2 - 1)) = true ∧
      Number.scan (c :: cs.take ((Number.scan (c :: cs)).2 - 1)) = Number.scan (c :: cs) := by
  have hscan (hpos : 0 < (Number.scan (c :: cs)).2) :
      Number.scan (c :: cs.take ((Number.scan (c :: cs)).2 - 1)) = Number.scan (c :: cs) := by
    have htake := Number.scan_take (c :: cs)
    rwa [← Nat.succ_pred_eq_of_pos hpos, List.take_succ_cons] at htake
  by_cases hdigit : c.isDigit = true
  · exact ⟨by simp [startsNumber, hdigit], hscan (Number.scan_pos_of_digit hdigit cs)⟩
  · obtain ⟨rfl, hhead⟩ : c = '.' ∧ cs.head?.any Char.isDigit = true := by
      simpa [startsNumber, hdigit] using h
    cases cs with
    | nil => cases hhead
    | cons d ds =>
      have hd : d.isDigit = true := hhead
      have hlong := Number.scan_pos_of_point hd ds
      obtain ⟨k, hk⟩ : ∃ k, (Number.scan ('.' :: d :: ds)).2 - 1 = k + 1 :=
        ⟨(Number.scan ('.' :: d :: ds)).2 - 2, by omega⟩
      refine ⟨?_, hscan (by omega)⟩
      rw [hk]
      simp [startsNumber, hd]

/-- The characters of a lexeme make up the same lexeme if nothing stands after them. -/
theorem next_take (h : next c cs = .ok (kind, n)) : next c (cs.take n) = .ok (kind, n) := by
  unfold next at h ⊢
  split at h
  · rename_i hgap
    obtain ⟨rfl, rfl⟩ := Prod.mk.inj (Except.ok.inj h)
    rw [if_pos hgap, Text.takeWhile_take le_rfl]
  rename_i hgap
  rw [if_neg hgap]
  split at h
  · rename_i hn
    rwa [if_pos hn]
  rename_i hn
  rw [if_neg hn]
  split at h
  · rename_i hr
    obtain ⟨rfl, rfl⟩ := Prod.mk.inj (Except.ok.inj h)
    rw [if_pos hr]
    cases hhead : cs.head? with
    | none => simp
    | some d =>
      obtain ⟨rest, rfl⟩ := List.head?_eq_some_iff.1 hhead
      by_cases hd : d = '\n' <;> simp [hd]
  rename_i hr
  rw [if_neg hr]
  split at h
  · rename_i hword
    have hn : n = (nextWord c cs).2 := by rw [Except.ok.inj h]
    rw [if_pos hword, hn, nextWord_take, ← hn]
    exact h
  rename_i hword
  rw [if_neg hword]
  split at h
  · rename_i hnumber
    obtain ⟨rfl, rfl⟩ := Prod.mk.inj (Except.ok.inj h)
    obtain ⟨hstarts, hscan⟩ := next_number_take hnumber
    rw [if_pos hstarts, hscan]
  rename_i hnumber
  rw [if_neg fun hcut => hnumber (startsNumber_of_take hcut)]
  split at h
  · rename_i hquote
    rw [if_pos hquote]
    exact nextQuote_take h
  rename_i hquote
  rw [if_neg hquote]
  split at h
  · rename_i hapostrophe
    rw [if_pos hapostrophe]
    exact nextApostrophe_take h
  rename_i hapostrophe
  rw [if_neg hapostrophe]
  split at h
  · rename_i hslash
    rw [if_pos hslash]
    exact nextSlash_take h
  · rename_i hslash
    rw [if_neg hslash]
    exact nextSymbol_take h

/-- The characters of a lexeme are a text with this one lexeme. -/
lemma scanFrom_of_next (h : next c cs = .ok (kind, n)) (offset line : Nat) :
    scanFrom offset line (c :: cs.take n) =
      .ok [⟨kind, String.ofList (c :: cs.take n), offset, line⟩] := by
  rw [scanFrom, next_take h]
  simp only [List.take_take, Nat.min_self, List.drop_take, Nat.sub_self, List.take_zero]
  rw [scanFrom]
  rfl

/-- The text of a lexeme of a source text is itself a source text with one lexeme, of the same kind and
with the same text.  So two lexemes with the same text have the same kind, wherever they stand. -/
theorem lexemes_read_back {source : String} {lexemes : List Lexeme} (h : scan source = .ok lexemes) :
    ∀ l ∈ lexemes, scan l.text = .ok [⟨l.kind, l.text, 0, 1⟩] ∧
      ∀ source' lexemes' l', scan source' = .ok lexemes' → l' ∈ lexemes' → l'.text = l.text →
        l'.kind = l.kind := by
  have hback {source : String} {lexemes : List Lexeme} (h : scan source = .ok lexemes) :
      ∀ l ∈ lexemes, scan l.text = .ok [⟨l.kind, l.text, 0, 1⟩] := by
    have hall := forall_mem_scanFrom (P := fun kind text =>
      scanFrom 0 1 text = .ok [⟨kind, String.ofList text, 0, 1⟩])
      (fun c cs kind n hnext => scanFrom_of_next hnext 0 1) h
    simpa [scan] using hall
  intro l hl
  refine ⟨hback h l hl, fun source' lexemes' l' h' hl' htext => ?_⟩
  have hl' := hback h' l' hl'
  rw [htext, hback h l hl] at hl'
  simpa using hl'.symm

/-- Numbers that end where they do only because of what follows: an octal literal, and a decimal one
before two points, of which the second starts a number of its own. -/
theorem numbers_read_back :
    scan "017+1..2" = .ok [⟨.octLiteral, "017", 0, 1⟩, ⟨.add, "+", 3, 1⟩, ⟨.decimalLiteral, "1", 4, 1⟩,
        ⟨.dot, ".", 5, 1⟩, ⟨.floatLiteral, ".2", 6, 1⟩] ∧
      scan "017" = .ok [⟨.octLiteral, "017", 0, 1⟩] ∧ scan "1" = .ok [⟨.decimalLiteral, "1", 0, 1⟩] ∧
      scan "." = .ok [⟨.dot, ".", 0, 1⟩] ∧ scan ".2" = .ok [⟨.floatLiteral, ".2", 0, 1⟩] := by
  have h : scan "017+1..2" = .ok [⟨.octLiteral, "017", 0, 1⟩, ⟨.add, "+", 3, 1⟩,
      ⟨.decimalLiteral, "1", 4, 1⟩, ⟨.dot, ".", 5, 1⟩, ⟨.floatLiteral, ".2", 6, 1⟩] := by
    decide +kernel
  exact ⟨h, (lexemes_read_back h ⟨.octLiteral, "017", 0, 1⟩ (by decide)).1,
    (lexemes_read_back h ⟨.decimalLiteral, "1", 4, 1⟩ (by decide)).1,
    (lexemes_read_back h ⟨.dot, ".", 5, 1⟩ (by decide)).1,
    (lexemes_read_back h ⟨.floatLiteral, ".2", 6, 1⟩ (by decide)).1⟩

end Lexeme

end JavaLint
