import JavaLint.Proofs.Lexeme.Spelling
import Mathlib.Tactic.Common

/-!
# Trivia is known by its text

The first two characters of a lexeme say whether it is trivia (`next_isTrivia`).  So two lexemes with the
same text are both trivia or both code, whatever stands around them.

Of blanks and line breaks also the other characters are known (`next_blank`).
-/

namespace JavaLint.Lexeme

/-- The text starts like a blank, a line break or a comment. -/
def startsTrivia : List Char → Bool
  | [] => false
  | c :: cs => isGap c || Text.isBreak c || c == '/' && cs.head?.any fun d => d == '/' || d == '*'

variable {c : Char} {cs : List Char} {kind : Kind} {n : Nat}

/-- Separators and operators are code. -/
lemma nextSymbol_isTrivia (h : nextSymbol c cs = .ok (kind, n)) : kind.isTrivia = false := by
  have hall : ∀ symbol ∈ symbols, symbol.2.isTrivia = false := by decide
  exact hall _ (nextSymbol_spelling h)

/-- The lexeme is a comment. -/
def isComment (kind : Kind) : Bool :=
  kind = .lineComment || kind = .blockComment || kind = .docComment

/-- What starts with a slash is a comment if a slash or an asterisk follows, and an operator if not. -/
lemma nextSlash_inv (h : nextSlash cs = .ok (kind, n)) :
    isComment kind = true ∧ startsTrivia ('/' :: cs.take n) = true ∨
      kind.isTrivia = false ∧ startsTrivia ('/' :: cs.take n) = false := by
  unfold nextSlash at h
  split at h
  · obtain ⟨rfl, rfl⟩ := Prod.mk.inj (Except.ok.inj h)
    exact .inl ⟨rfl, rfl⟩
  · obtain ⟨rfl, rfl⟩ := Prod.mk.inj (Except.ok.inj h)
    exact .inl ⟨rfl, rfl⟩
  · obtain ⟨m, -, hm⟩ := exists_of_map_eq_ok h
    obtain ⟨rfl, rfl⟩ := Prod.mk.inj hm
    exact .inl ⟨rfl, rfl⟩
  · obtain ⟨m, -, hm⟩ := exists_of_map_eq_ok h
    obtain ⟨rfl, rfl⟩ := Prod.mk.inj hm
    exact .inl ⟨rfl, rfl⟩
  · rename_i hslash _ _ hstar
    have hhead : ∀ d ∈ (cs.take n).head?, d ≠ '/' ∧ d ≠ '*' := by
      intro d hd
      have hcs : d ∈ cs.head? := by
        rw [List.head?_take] at hd
        split at hd
        · cases hd
        · exact hd
      obtain ⟨rest, rfl⟩ := List.head?_eq_some_iff.1 hcs
      exact ⟨fun heq => hslash rest (by rw [heq]), fun heq => hstar rest (by rw [heq])⟩
    have hany : ((cs.take n).head?.any fun d => d == '/' || d == '*') = false := by
      cases htake : (cs.take n).head? with
      | none => rfl
      | some d => simpa [htake] using hhead
    refine .inr ⟨nextSymbol_isTrivia h, ?_⟩
    rw [startsTrivia, hany]
    rfl

/-- A lexeme is trivia if and only if it starts so. -/
lemma next_isTrivia (h : next c cs = .ok (kind, n)) :
    kind.isTrivia = startsTrivia (c :: cs.take n) := by
  have hplain (hgap : ¬ isGap c = true) (hn : c ≠ '\n') (hr : c ≠ '\r') (hslash : c ≠ '/') :
      startsTrivia (c :: cs.take n) = false := by
    simp [startsTrivia, Text.isBreak, hgap, hn, hr, hslash]
  unfold next at h
  split at h
  · rename_i hgap
    obtain ⟨rfl, rfl⟩ := Prod.mk.inj (Except.ok.inj h)
    simp [startsTrivia, hgap, Kind.isTrivia, Kind.channel]
  rename_i hgap
  split at h
  · rename_i hn
    obtain ⟨rfl, rfl⟩ := Prod.mk.inj (Except.ok.inj h)
    simp [startsTrivia, hn, Text.isBreak, Kind.isTrivia, Kind.channel]
  rename_i hn
  split at h
  · rename_i hr
    obtain ⟨rfl, rfl⟩ := Prod.mk.inj (Except.ok.inj h)
    simp [startsTrivia, hr, Text.isBreak, Kind.isTrivia, Kind.channel]
  rename_i hr
  split at h
  · rename_i hword
    have hslash : c ≠ '/' := by
      rintro rfl
      exact absurd hword (by decide)
    have hkind := nextWord_isWord c cs
    rw [Except.ok.inj h] at hkind
    rw [isTrivia_of_isWord (.inl hkind), hplain hgap hn hr hslash]
  split at h
  · rename_i hnumber
    have hslash : c ≠ '/' := by
      rintro rfl
      simp [startsNumber] at hnumber
    obtain ⟨rfl, -⟩ := Prod.mk.inj (Except.ok.inj h)
    rw [isTrivia_of_isWord (.inr (Number.isLiteral_scan _).1), hplain hgap hn hr hslash]
  split at h
  · rename_i hquote
    rw [isTrivia_of_isWord (.inr (nextQuote_isLiteral h).1), hplain hgap hn hr (by simp [hquote])]
  split at h
  · rename_i hquote
    rw [isTrivia_of_isWord (.inr (nextApostrophe_isLiteral h).1), hplain hgap hn hr (by simp [hquote])]
  split at h
  · rename_i hslash
    subst hslash
    rcases nextSlash_inv h with ⟨hcomment, hstart⟩ | ⟨hcode, hstart⟩
    · rw [hstart]
      cases kind <;> first | rfl | simp [isComment] at hcomment
    · rw [hcode, hstart]
  · rename_i hslash
    rw [nextSymbol_isTrivia h, hplain hgap hn hr hslash]

/-- The lexeme is not empty, and is trivia if and only if its text starts so. -/
def IsLegible (l : Lexeme) : Prop :=
  l.text ≠ "" ∧ l.isTrivia = startsTrivia l.text.toList

/-- The lexemes of a source text are legible. -/
lemma isLegible_of_scan {source : String} {ls : List Lexeme} (h : scan source = .ok ls) :
    ∀ l ∈ ls, l.IsLegible := by
  have htrivia := forall_mem_scanFrom (P := fun kind text => kind.isTrivia = startsTrivia text)
    (fun c cs kind n hnext => next_isTrivia hnext) h
  exact fun l hl => ⟨(scan_eq_ok h).2.text_ne_empty l hl, htrivia l hl⟩

/-! ## Blanks and line breaks -/

/-- Blanks consist of blanks, and a line break is one of three texts. -/
lemma next_blank (h : next c cs = .ok (kind, n)) :
    (kind = .whitespace → ∀ d ∈ c :: cs.take n, isGap d = true) ∧
      (kind = .newline → c :: cs.take n ∈ [['\n'], ['\r'], ['\r', '\n']]) := by
  have htrivia := next_isTrivia h
  by_cases hgap : isGap c = true
  · simp only [next, hgap, if_true] at h
    obtain ⟨rfl, rfl⟩ := Prod.mk.inj (Except.ok.inj h)
    refine ⟨fun _ d hd => ?_, by simp⟩
    rw [← List.prefix_iff_eq_take.1 (List.takeWhile_prefix isGap)] at hd
    rcases List.mem_cons.1 hd with rfl | hd
    · exact hgap
    · exact List.mem_takeWhile_imp hd
  by_cases hn : c = '\n'
  · subst hn
    have hnext : .ok (.newline, 0) = Except.ok (kind, n) := h
    obtain ⟨rfl, rfl⟩ := Prod.mk.inj (Except.ok.inj hnext)
    simp
  by_cases hr : c = '\r'
  · subst hr
    have hnext : .ok (.newline, if cs.head? = some '\n' then 1 else 0) = Except.ok (kind, n) := h
    obtain ⟨rfl, rfl⟩ := Prod.mk.inj (Except.ok.inj hnext)
    split
    · rename_i hhead
      obtain ⟨rest, rfl⟩ := List.head?_eq_some_iff.1 hhead
      simp
    · simp
  -- Only a slash is left to start trivia, and it starts no blanks.
  suffices hkind : kind ≠ .whitespace ∧ kind ≠ .newline from
    ⟨fun hspace => absurd hspace hkind.1, fun hbreak => absurd hbreak hkind.2⟩
  cases hcode : kind.isTrivia with
  | false =>
    constructor <;> rintro rfl <;> cases hcode
  | true =>
    have hslash : c = '/' := by
      by_contra hslash
      simp [startsTrivia, Text.isBreak, hgap, hn, hr, hslash, hcode] at htrivia
    subst hslash
    have hnext : nextSlash cs = .ok (kind, n) := h
    rcases nextSlash_inv hnext with ⟨hcomment, -⟩ | ⟨hno, -⟩
    · constructor <;> rintro rfl <;> cases hcomment
    · simp [hcode] at hno

end JavaLint.Lexeme
