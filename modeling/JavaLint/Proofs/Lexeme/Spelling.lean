import JavaLint.Proofs.Answer
import JavaLint.Proofs.Lexeme.Position
import Mathlib.Tactic.Common

/-!
# Lexemes with a fixed spelling

The kind of a separator or operator says how it is spelled: `next` gives such a kind to nothing else
(`next_cases`), and takes exactly the characters of the spelling.  `scan_spelling` says this of all
lexemes of a text.
-/

namespace JavaLint

/-- What is looked up as a word has the kind of one. -/
lemma Lexeme.isWord_wordKind (word : String) : (wordKind word).isWord = true := by
  unfold wordKind
  split
  · rfl
  · split
    · rfl
    · split <;> rfl

/-- A number has the kind of a literal, but not of one that is spelled like a word. -/
lemma Number.isLiteral_scan (cs : List Char) :
    (scan cs).1.isLiteral = true ∧ (scan cs).1.isWord = false := by
  have hdecimal (cs : List Char) :
      (scanDecimal cs).1.isLiteral = true ∧ (scanDecimal cs).1.isWord = false := by
    simp only [scanDecimal]
    split
    · exact ⟨rfl, rfl⟩
    · split
      · exact ⟨rfl, rfl⟩
      · dsimp only
        split <;> exact ⟨rfl, rfl⟩
  have hhex (cs : List Char) : (scanHex cs).1.isLiteral = true ∧ (scanHex cs).1.isWord = false := by
    simp only [scanHex]
    split <;> exact ⟨rfl, rfl⟩
  unfold scan
  split
  · split
    · exact hhex _
    · split
      · exact ⟨rfl, rfl⟩
      · exact hdecimal _
  · exact hdecimal _

namespace Lexeme

variable {c : Char} {cs : List Char} {kind : Kind} {n : Nat}

/-- Words and literals are code. -/
lemma isTrivia_of_isWord (h : kind.isWord = true ∨ kind.isLiteral = true) :
    kind.isTrivia = false := by
  cases kind <;> simp_all [Kind.isWord, Kind.isLiteral, Kind.isTrivia, Kind.channel]

/-- What starts with a slash is a comment, or a separator or operator. -/
lemma nextSlash_cases (h : nextSlash cs = .ok (kind, n)) :
    kind.isTrivia = true ∨ nextSymbol '/' cs = .ok (kind, n) := by
  unfold nextSlash at h
  split at h
  · obtain ⟨rfl, -⟩ := Prod.mk.inj (Except.ok.inj h)
    exact .inl rfl
  · obtain ⟨rfl, -⟩ := Prod.mk.inj (Except.ok.inj h)
    exact .inl rfl
  · obtain ⟨m, -, hm⟩ := exists_of_map_eq_ok h
    obtain ⟨rfl, -⟩ := Prod.mk.inj hm
    exact .inl rfl
  · obtain ⟨m, -, hm⟩ := exists_of_map_eq_ok h
    obtain ⟨rfl, -⟩ := Prod.mk.inj hm
    exact .inl rfl
  · exact .inr h

/-- A quotation mark starts a literal that is not spelled like a word. -/
lemma nextQuote_isLiteral (h : nextQuote cs = .ok (kind, n)) :
    kind.isLiteral = true ∧ kind.isWord = false := by
  unfold nextQuote at h
  split at h
  · obtain ⟨m, -, hm⟩ := exists_of_map_eq_ok h
    obtain ⟨rfl, -⟩ := Prod.mk.inj hm
    exact ⟨rfl, rfl⟩
  · split at h
    · obtain ⟨rfl, -⟩ := Prod.mk.inj (Except.ok.inj h)
      exact ⟨rfl, rfl⟩
    · simp at h

/-- An apostrophe starts a literal that is not spelled like a word. -/
lemma nextApostrophe_isLiteral (h : nextApostrophe cs = .ok (kind, n)) :
    kind.isLiteral = true ∧ kind.isWord = false := by
  unfold nextApostrophe at h
  split at h
  · obtain ⟨rfl, -⟩ := Prod.mk.inj (Except.ok.inj h)
    exact ⟨rfl, rfl⟩
  · simp at h

/-- A word, also the one with a hyphen, has the kind of one. -/
lemma nextWord_isWord (c : Char) (cs : List Char) : (nextWord c cs).1.isWord = true := by
  unfold nextWord
  split
  · rfl
  · exact isWord_wordKind _

/-- A lexeme is trivia, a word, a literal, or a separator or operator. -/
lemma next_cases (h : next c cs = .ok (kind, n)) :
    kind.isTrivia = true ∨ kind.isWord = true ∨ kind.isLiteral = true ∨
      nextSymbol c cs = .ok (kind, n) := by
  unfold next at h
  split at h
  · obtain ⟨rfl, -⟩ := Prod.mk.inj (Except.ok.inj h)
    exact .inl rfl
  split at h
  · obtain ⟨rfl, -⟩ := Prod.mk.inj (Except.ok.inj h)
    exact .inl rfl
  split at h
  · obtain ⟨rfl, -⟩ := Prod.mk.inj (Except.ok.inj h)
    exact .inl rfl
  split at h
  · have hword := nextWord_isWord c cs
    rw [Except.ok.inj h] at hword
    exact .inr (.inl hword)
  split at h
  · obtain ⟨rfl, -⟩ := Prod.mk.inj (Except.ok.inj h)
    exact .inr (.inr (.inl (Number.isLiteral_scan _).1))
  split at h
  · exact .inr (.inr (.inl (nextQuote_isLiteral h).1))
  split at h
  · exact .inr (.inr (.inl (nextApostrophe_isLiteral h).1))
  split at h
  · rename_i hslash
    subst hslash
    exact (nextSlash_cases h).imp_right fun hsymbol => .inr (.inr hsymbol)
  · exact .inr (.inr (.inr h))

/-- A separator or operator takes the characters of its spelling. -/
lemma nextSymbol_spelling (h : nextSymbol c cs = .ok (kind, n)) :
    (String.ofList (c :: cs.take n), kind) ∈ symbols := by
  unfold nextSymbol at h
  split at h
  · rename_i spelling kind' hfind
    obtain ⟨rfl, rfl⟩ := Prod.mk.inj (Except.ok.inj h)
    have hmem := List.mem_of_find?_eq_some hfind
    have hstart := List.find?_some hfind
    have hpre : spelling.toList <+: c :: cs := List.isPrefixOf_iff_prefix.1 hstart
    have hpos : ∀ symbol ∈ symbols, symbol.1.toList.length ≠ 0 := by decide
    obtain ⟨m, hm⟩ := Nat.exists_eq_succ_of_ne_zero (hpos _ hmem)
    have htext : c :: cs.take (spelling.length - 1) = spelling.toList := by
      rw [List.prefix_iff_eq_take.1 hpre, ← String.length_toList, hm]
      rfl
    rwa [htext, String.ofList_toList]
  · simp at h

/-- A lexeme with the kind of a word is read as one. -/
lemma next_of_isWord (h : next c cs = .ok (kind, n)) (hkind : kind.isWord = true) :
    startsWord c = true ∧ nextWord c cs = (kind, n) := by
  have hsymbol : ∀ symbol ∈ symbols, symbol.2.isWord = false := by decide
  unfold next at h
  split at h
  · obtain ⟨rfl, -⟩ := Prod.mk.inj (Except.ok.inj h)
    cases hkind
  split at h
  · obtain ⟨rfl, -⟩ := Prod.mk.inj (Except.ok.inj h)
    cases hkind
  split at h
  · obtain ⟨rfl, -⟩ := Prod.mk.inj (Except.ok.inj h)
    cases hkind
  split at h
  · rename_i hword
    exact ⟨hword, Except.ok.inj h⟩
  split at h
  · obtain ⟨rfl, -⟩ := Prod.mk.inj (Except.ok.inj h)
    simp [Number.isLiteral_scan] at hkind
  split at h
  · simp [nextQuote_isLiteral h] at hkind
  split at h
  · simp [nextApostrophe_isLiteral h] at hkind
  split at h
  · rcases nextSlash_cases h with htrivia | hnext
    · simp [isTrivia_of_isWord (.inl hkind)] at htrivia
    · simp [hsymbol _ (nextSymbol_spelling hnext)] at hkind
  · simp [hsymbol _ (nextSymbol_spelling h)] at hkind

/-- Every lexeme of a text is the one that `next` finds where it starts. -/
lemma exists_next_of_scanFrom {offset line : Nat} {before after : List Lexeme} {l : Lexeme}
    (h : scanFrom offset line cs = .ok (before ++ l :: after)) :
    ∃ c ds n, next c ds = .ok (l.kind, n) ∧ l.text.toList = c :: ds.take n ∧
      chars after = ds.drop n := by
  generalize hls : before ++ l :: after = ls at h
  fun_induction scanFrom offset line cs generalizing before ls with
  | case1 =>
    obtain rfl := Except.ok.inj h
    simp at hls
  | case2 => simp at h
  | case3 offset line c cs kind n hnext text =>
    rename_i ih
    obtain ⟨rest, hrest, rfl⟩ := exists_of_map_eq_ok h
    cases before with
    | nil =>
      obtain ⟨rfl, rfl⟩ := List.cons.inj hls
      exact ⟨c, cs, n, hnext, String.toList_ofList, (scanFrom_eq_ok hrest).1⟩
    | cons first before => exact ih rest (List.cons.inj hls).2 hrest

/-- What is true of every lexeme that `next` finds is true of all lexemes of a text. -/
lemma forall_mem_scanFrom {P : Kind → List Char → Prop}
    (hP : ∀ c cs kind n, next c cs = .ok (kind, n) → P kind (c :: cs.take n)) {offset line : Nat}
    {ls : List Lexeme} (h : scanFrom offset line cs = .ok ls) : ∀ l ∈ ls, P l.kind l.text.toList := by
  intro l hl
  obtain ⟨before, after, rfl⟩ := List.append_of_mem hl
  obtain ⟨c, ds, n, hnext, htext, -⟩ := exists_next_of_scanFrom h
  rw [htext]
  exact hP c ds l.kind n hnext

/-- Every lexeme of a text is trivia, a word, a literal, or is spelled as its kind says. -/
lemma scanFrom_spelling {offset line : Nat} {ls : List Lexeme}
    (h : scanFrom offset line cs = .ok ls) :
    ∀ l ∈ ls, l.kind.isTrivia = true ∨ l.kind.isWord = true ∨ l.kind.isLiteral = true ∨
      (l.text, l.kind) ∈ symbols := by
  have hall := forall_mem_scanFrom (P := fun kind text => kind.isTrivia = true ∨
    kind.isWord = true ∨ kind.isLiteral = true ∨ (String.ofList text, kind) ∈ symbols)
    (fun c cs kind n hnext => (next_cases hnext).imp_right (Or.imp_right (Or.imp_right
      nextSymbol_spelling))) h
  simpa using hall

/-- The braces of a text are spelled as braces. -/
lemma text_of_brace {source : String} {ls : List Lexeme} (h : scan source = .ok ls) {l : Lexeme}
    (hl : l ∈ ls) :
    (l.kind = .lBrace → l.text = "\x7b") ∧ (l.kind = .rBrace → l.text = "\x7d") := by
  have hspelling := scanFrom_spelling h l hl
  constructor
  · intro hkind
    simpa [hkind, Kind.isTrivia, Kind.channel, Kind.isWord, Kind.isLiteral, symbols] using hspelling
  · intro hkind
    simpa [hkind, Kind.isTrivia, Kind.channel, Kind.isWord, Kind.isLiteral, symbols] using hspelling

/-- A lexeme that is spelled as a sign of comparison is one, and the other way around. -/
lemma kind_of_angle {source : String} {ls : List Lexeme} (h : scan source = .ok ls) {l : Lexeme}
    (hl : l ∈ ls) : (l.text = ">" ↔ l.kind = .gt) ∧ (l.text = "<" ↔ l.kind = .lt) := by
  have hspelling := scanFrom_spelling h l hl
  have hread := forall_mem_scanFrom (P := fun kind text =>
    (text = ['>'] → kind = .gt) ∧ (text = ['<'] → kind = .lt)) (fun c cs kind n hnext => ?_) h l hl
  · refine ⟨⟨fun htext => hread.1 (by rw [htext]; rfl), fun hkind => ?_⟩,
      ⟨fun htext => hread.2 (by rw [htext]; rfl), fun hkind => ?_⟩⟩
    · simpa [hkind, Kind.isTrivia, Kind.channel, Kind.isWord, Kind.isLiteral, symbols] using hspelling
    · simpa [hkind, Kind.isTrivia, Kind.channel, Kind.isWord, Kind.isLiteral, symbols] using hspelling
  · constructor
    · intro htext
      obtain ⟨rfl, -⟩ := List.cons.inj htext
      have hsymbol := nextSymbol_spelling (show nextSymbol '>' cs = .ok (kind, n) from hnext)
      rw [htext] at hsymbol
      simpa [symbols] using hsymbol
    · intro htext
      obtain ⟨rfl, -⟩ := List.cons.inj htext
      have hsymbol := nextSymbol_spelling (show nextSymbol '<' cs = .ok (kind, n) from hnext)
      rw [htext] at hsymbol
      simpa [symbols] using hsymbol

end Lexeme

end JavaLint
