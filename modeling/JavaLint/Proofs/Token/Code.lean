import JavaLint.Proofs.Lexeme.Position
import JavaLint.Proofs.Token.LineTable
import JavaLint.Proofs.Tree.Bare
import Mathlib.Tactic.Common

/-!
# Code tokens and their ordinals

Blanks and comments are tokens too, so the number of a code token depends on the layout of the file.
Its ordinal, the number of code tokens before it, does not: it is the place of its lexeme among the
lexemes that are code (`ordinal_ofLexemes`).  Ordinals keep the order of code tokens.

`codeEntries` picks the entries of the code tokens from a list with an entry for each token.  To
change the entry of a code token is to change the picked entry at its ordinal.
-/

namespace JavaLint

/-- No lexeme of code is empty. -/
def CodeHasText (ls : List Lexeme) : Prop :=
  ∀ l ∈ ls, l.isTrivia = false → l.text ≠ ""

/-- The lexemes of a source text are not empty, be they code or not. -/
lemma codeHasText_of_scan {source : String} {ls : List Lexeme}
    (h : Lexeme.scan source = .ok ls) : CodeHasText ls :=
  fun l hl _ => (Lexeme.scan_eq_ok h).2.text_ne_empty l hl

/-- The token of a lexeme is code if the lexeme is. -/
lemma Token.isCode_eq {t : Token} {l : Lexeme} (hkind : t.kind = l.kind)
    (hl : l.hasToken = true) : t.isCode = !l.isTrivia := by
  have hchannel : l.kind.channel.isSome := by simp_all [Lexeme.hasToken, Lexeme.channel]
  obtain ⟨channel, hchannel⟩ := Option.isSome_iff_exists.1 hchannel
  cases channel <;>
    simp [Token.isCode, Token.channel, hkind, Lexeme.isTrivia, Kind.isTrivia, hchannel]

/-- What is kept of a list is found after what is kept before it. -/
lemma getElem?_filter_countP {α : Type} {p : α → Bool} {as : List α} {n : Nat} {a : α}
    (ha : as[n]? = some a) (hp : p a = true) :
    (as.filter p)[(as.take n).countP p]? = some a := by
  obtain ⟨hn, rfl⟩ := List.getElem?_eq_some_iff.1 ha
  have hsplit : as.filter p = (as.take n).filter p ++ as[n] :: (as.drop (n + 1)).filter p := by
    rw [← List.filter_cons_of_pos hp, ← List.filter_append, List.getElem_cons_drop,
      List.take_append_drop]
  rw [hsplit, List.countP_eq_length_filter]
  simp

namespace LineTable

/-! ## Ordinals -/

/-- The number is that of a code token. -/
def HasCode (t : LineTable) (n : Nat) : Prop :=
  ∃ token, t.tokens[n]? = some token ∧ token.isCode = true

/-- The number of code tokens before the token with a number. -/
def ordinal (t : LineTable) (n : Nat) : Nat :=
  (t.tokens.toList.take n).countP Token.isCode

variable {t : LineTable} {n m : Nat}

/-- Later tokens have no lower ordinals. -/
lemma ordinal_mono (h : n ≤ m) : t.ordinal n ≤ t.ordinal m :=
  (List.take_sublist_take_left h).countP_le

/-- The token after a code token has the next ordinal. -/
lemma HasCode.ordinal_succ (h : t.HasCode n) : t.ordinal (n + 1) = t.ordinal n + 1 := by
  obtain ⟨token, htoken, hcode⟩ := h
  rw [ordinal, List.take_add_one, Array.getElem?_toList, htoken, List.countP_append]
  simp [ordinal, hcode]

/-- What comes after a code token has a higher ordinal. -/
lemma HasCode.ordinal_lt (h : t.HasCode n) (hlt : n < m) : t.ordinal n < t.ordinal m := by
  have hle : t.ordinal (n + 1) ≤ t.ordinal m := ordinal_mono hlt
  rw [h.ordinal_succ] at hle
  omega

/-- Ordinals keep the order of code tokens. -/
lemma HasCode.ordinal_lt_iff (hn : t.HasCode n) (hm : t.HasCode m) :
    t.ordinal n < t.ordinal m ↔ n < m := by
  constructor
  · intro hlt
    rcases Nat.lt_trichotomy n m with h | rfl | h
    · exact h
    · omega
    · have hgt := hm.ordinal_lt h
      omega
  · exact hn.ordinal_lt

/-- Different code tokens have different ordinals. -/
lemma HasCode.ordinal_inj (hn : t.HasCode n) (hm : t.HasCode m) :
    t.ordinal n = t.ordinal m ↔ n = m := by
  have hlt := hn.ordinal_lt_iff hm
  have hgt := hm.ordinal_lt_iff hn
  omega

/-- The lexemes that make tokens of code are those that are code, if none of these is empty. -/
lemma filter_hasToken_code {ls : List Lexeme} (hcode : CodeHasText ls) :
    (ls.filter Lexeme.hasToken).filter (fun l => l.kind.channel.getD .code = .code) =
      codeLexemes ls := by
  rw [List.filter_filter, codeLexemes]
  apply List.filter_congr
  intro l hl
  cases htrivia : l.isTrivia with
  | false =>
    have htoken := Lexeme.hasToken_of_code htrivia (hcode l hl htrivia)
    have hchannel : l.kind.channel = some .code := by
      simpa [Lexeme.isTrivia, Kind.isTrivia] using htrivia
    simp [htoken, hchannel]
  | true =>
    have hchannel : l.kind.channel ≠ some .code := by
      simpa [Lexeme.isTrivia, Kind.isTrivia] using htrivia
    cases hkind : l.kind.channel <;> simp_all [Lexeme.hasToken, Lexeme.channel]

/-- If no lexeme of code is empty, then the ordinal of a token is the number of lexemes of code
before its own. -/
lemma ordinal_ofLexemes {before after : List Lexeme} (hcode : CodeHasText before) :
    (ofLexemes (before ++ after)).ordinal (before.countP Lexeme.hasToken) =
      (codeLexemes before).length := by
  have htake : ((ofLexemes (before ++ after)).tokens.toList.take
      (before.countP Lexeme.hasToken)).map (fun t => (t.kind, t.text)) =
      (before.filter Lexeme.hasToken).map fun l => (l.kind, l.text) := by
    rw [List.map_take, map_tokens_ofLexemes, List.filter_append, List.map_append,
      List.countP_eq_length_filter]
    exact List.take_left' (by simp)
  have hcount := congrArg (List.countP fun p => p.1.channel.getD .code = .code) htake
  rw [List.countP_map, List.countP_map] at hcount
  rw [← filter_hasToken_code hcode, ← List.countP_eq_length_filter]
  exact hcount

/-! ## The code tokens by themselves -/

/-- The entries of the code tokens, from a list with an entry for each token. -/
def codeEntries {α : Type} : List Token → List α → List α
  | t :: ts, a :: as => if t.isCode then a :: codeEntries ts as else codeEntries ts as
  | _, _ => []

/-- Changing the entry of a code token changes the picked entry at its ordinal. -/
lemma codeEntries_modify {α : Type} {ts : List Token} {n : Nat} {token : Token}
    (htoken : ts[n]? = some token) (hcode : token.isCode = true) (as : List α) (f : α → α) :
    codeEntries ts (as.modify n f) =
      (codeEntries ts as).modify ((ts.take n).countP Token.isCode) f := by
  induction ts generalizing n as with
  | nil => simp at htoken
  | cons t ts ih =>
    cases as with
    | nil => simp [codeEntries]
    | cons a as =>
      cases n with
      | zero =>
        obtain rfl : t = token := by simpa using htoken
        simp [codeEntries, hcode]
      | succ n =>
        have hrest := ih (by simpa using htoken) as
        cases ht : t.isCode <;> simp [codeEntries, ht, hrest]

/-- Setting an entry is changing it whatever it was. -/
lemma set_eq_modify {α : Type} (as : List α) (n : Nat) (a : α) :
    as.set n a = as.modify n fun _ => a := by
  apply List.ext_getElem?
  intro m
  rw [List.getElem?_set', List.getElem?_modify]
  split
  · rfl
  · simp

/-- The entries of the code tokens, if the entries are made from the tokens. -/
lemma codeEntries_map {α : Type} (ts : List Token) (f : Token → α) :
    codeEntries ts (ts.map f) = (ts.filter Token.isCode).map f := by
  induction ts with
  | nil => rfl
  | cons t ts ih => cases ht : t.isCode <;> simp [codeEntries, ht, ih]

/-- There are as many picked entries as code tokens, if each token has an entry. -/
lemma length_codeEntries {α : Type} {ts : List Token} {as : List α}
    (hlength : as.length = ts.length) :
    (codeEntries ts as).length = (ts.filter Token.isCode).length := by
  induction ts generalizing as with
  | nil => rfl
  | cons t ts ih =>
    obtain ⟨a, as, rfl⟩ := List.exists_cons_of_length_eq_add_one hlength
    have hrest : (codeEntries ts as).length = (ts.filter Token.isCode).length :=
      ih (by simpa using hlength)
    cases ht : t.isCode <;> simp [codeEntries, ht, hrest]

/-- The entry of a code token is picked at its ordinal. -/
lemma getElem?_codeEntries {α : Type} {ts : List Token} {n : Nat} {token : Token}
    (htoken : ts[n]? = some token) (hcode : token.isCode = true) (as : List α) :
    (codeEntries ts as)[(ts.take n).countP Token.isCode]? = as[n]? := by
  induction ts generalizing n as with
  | nil => simp at htoken
  | cons t ts ih =>
    cases as with
    | nil => simp [codeEntries]
    | cons a as =>
      cases n with
      | zero =>
        obtain rfl : t = token := by simpa using htoken
        simp [codeEntries, hcode]
      | succ n =>
        have hrest := ih (by simpa using htoken) as
        cases ht : t.isCode <;> simp [codeEntries, ht, hrest]

/-- The code tokens of a file are its lexemes of code, if none of these is empty. -/
lemma map_codeTokens_ofLexemes {ls : List Lexeme} (hcode : CodeHasText ls) :
    ((ofLexemes ls).tokens.toList.filter Token.isCode).map (fun t => (t.kind, t.text)) =
      (codeLexemes ls).map fun l => (l.kind, l.text) := by
  have hmap := congrArg (List.filter fun p => decide (p.1.channel.getD .code = .code))
    (map_tokens_ofLexemes ls)
  rw [List.filter_map, List.filter_map] at hmap
  rw [← filter_hasToken_code hcode]
  exact hmap

end LineTable

end JavaLint
