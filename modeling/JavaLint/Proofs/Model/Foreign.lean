import JavaLint.Proofs.Lexeme.Trivia
import JavaLint.Proofs.Model.Walk
import Mathlib.Tactic.Common

/-!
# Walking over the tree of another file

A builder holds each leaf of a tree against the token that its own table has at the same place.  So the
walk over the tree of another text goes through if and only if the two texts have the same lexemes as
far as the other text goes, where a line break may stand for another line break, or for the end.

The walk could fail in other ways, by a scope or a declaration without code.  It does not, since a
lexeme is trivia if its text starts like trivia (`Lexeme.isLegible_of_scan`): a leaf of code that is not
refused is code in the builder's own table, too, and settles the builder as a leaf of its own tree
would.  The main result is `foreign_tree_is_noticed`.
-/

namespace JavaLint

namespace Lexeme

/-! ## Leaves against lexemes -/

/-- Why a leaf is refused where another text has this lexeme, or nothing.  A line break has no token,
so it is as if there were nothing. -/
def misfit? (own : Option Lexeme) (leaf : Lexeme) : Option Fault :=
  match own.filter fun l => l.kind ≠ .newline with
  | some l => if l.text = leaf.text then none else some (.mismatch leaf.text l.text)
  | none => if leaf.kind = .newline then none else some (.noEntry leaf.text)

/-- Why the first leaf is refused that does not fit, where the leaves are counted from `count` on. -/
def firstMisfit? (own : List Lexeme) : Nat → List Lexeme → Option Fault
  | _, [] => none
  | count, leaf :: leaves => (misfit? own[count]? leaf).or (firstMisfit? own (count + 1) leaves)

variable {own leaves : List Lexeme} {leaf : Lexeme} {fault : Fault} {count : Nat}

/-- There is a lexeme that is no line break, or there is none. -/
lemma filter_cases (found : Option Lexeme) :
    (∃ l, found = some l ∧ l.kind ≠ .newline ∧ (found.filter fun l => l.kind ≠ .newline) = some l) ∨
      (∀ l, found = some l → l.kind = .newline) ∧
        (found.filter fun l => l.kind ≠ .newline) = none := by
  cases found with
  | none => simp
  | some l => by_cases hl : l.kind = .newline <;> simp [hl]

/-- A leaf fits a lexeme with its text, and a line break fits where there is no token. -/
lemma misfit?_eq_none_iff {found : Option Lexeme} :
    misfit? found leaf = none ↔
      (∃ l, found = some l ∧ l.kind ≠ .newline ∧ l.text = leaf.text) ∨
        (∀ l, found = some l → l.kind = .newline) ∧ leaf.kind = .newline := by
  unfold misfit?
  rcases filter_cases found with ⟨l, rfl, hl, hfilter⟩ | ⟨hall, hfilter⟩
  · rw [hfilter]
    simp [hl]
  · have hnone : ¬ ∃ l, found = some l ∧ l.kind ≠ .newline ∧ l.text = leaf.text :=
      fun ⟨l, hfound, hl, _⟩ => hl (hall l hfound)
    rw [hfilter, or_iff_right hnone, and_iff_right hall]
    simp

/-- A leaf is refused for its text, or since there is no token at its place. -/
lemma misfit?_eq_some {found : Option Lexeme} (h : misfit? found leaf = some fault) :
    (∃ l, found = some l ∧ l.kind ≠ .newline ∧ l.text ≠ leaf.text ∧
      fault = .mismatch leaf.text l.text) ∨
    (∀ l, found = some l → l.kind = .newline) ∧ leaf.kind ≠ .newline ∧
      fault = .noEntry leaf.text := by
  unfold misfit? at h
  rcases filter_cases found with ⟨l, rfl, hl, hfilter⟩ | ⟨hall, hfilter⟩
  · rw [hfilter] at h
    dsimp only at h
    split at h
    · cases h
    · rename_i htext
      exact .inl ⟨l, rfl, hl, htext, (Option.some.inj h).symm⟩
  · rw [hfilter] at h
    dsimp only at h
    split at h
    · cases h
    · rename_i hkind
      exact .inr ⟨hall, hkind, (Option.some.inj h).symm⟩

/-- The first misfit of two parts is that of the first, or else that of the second. -/
lemma firstMisfit?_append (own : List Lexeme) (count : Nat) (as bs : List Lexeme) :
    firstMisfit? own count (as ++ bs) =
      (firstMisfit? own count as).or (firstMisfit? own (count + as.length) bs) := by
  induction as generalizing count with
  | nil => rfl
  | cons a as ih =>
    rw [List.cons_append, firstMisfit?, firstMisfit?, ih, Option.or_assoc, List.length_cons,
      Nat.add_right_comm, Nat.add_assoc]

/-- All leaves fit if each does. -/
lemma firstMisfit?_eq_none_iff :
    firstMisfit? own count leaves = none ↔
      ∀ n leaf, leaves[n]? = some leaf → misfit? own[count + n]? leaf = none := by
  induction leaves generalizing count with
  | nil => simp [firstMisfit?]
  | cons l leaves ih =>
    rw [firstMisfit?, Option.or_eq_none_iff, ih]
    constructor
    · rintro ⟨hl, hleaves⟩ n leaf hn
      cases n with
      | zero => simp_all
      | succ n =>
        have hleaf := hleaves n leaf (by simpa using hn)
        rwa [Nat.add_right_comm] at hleaf
    · intro h
      refine ⟨h 0 l rfl, fun n leaf hn => ?_⟩
      rw [Nat.add_right_comm]
      exact h (n + 1) leaf (by simpa using hn)

/-- The first misfit is one of the leaves. -/
lemma exists_of_firstMisfit?_eq_some (h : firstMisfit? own count leaves = some fault) :
    ∃ n leaf, leaves[n]? = some leaf ∧ misfit? own[count + n]? leaf = some fault := by
  induction leaves generalizing count with
  | nil => simp [firstMisfit?] at h
  | cons l leaves ih =>
    rw [firstMisfit?, Option.or_eq_some_iff] at h
    rcases h with hl | ⟨-, hleaves⟩
    · exact ⟨0, l, rfl, hl⟩
    · obtain ⟨n, leaf, hn, hleaf⟩ := ih hleaves
      rw [Nat.add_right_comm] at hleaf
      exact ⟨n + 1, leaf, by simpa using hn, hleaf⟩

end Lexeme

/-! ## The steps -/

namespace LineTable

/-- What the table of a text without empty lexemes has at the place of a lexeme: its token, if there is
a lexeme and it is no line break. -/
lemma entry_cases {ls : List Lexeme} (htext : ∀ l ∈ ls, l.text ≠ "") (n : Nat) :
    (∃ (l : Lexeme) (token : Token), (ls[n]?.filter fun l => l.kind ≠ .newline) = some l ∧ l ∈ ls ∧
      (ofLexemes ls).ofLexeme? n = some token.number ∧
      (ofLexemes ls).tokens[token.number]? = some token ∧ token.text = l.text ∧
      token.isCode = !l.isTrivia) ∨
    (ls[n]?.filter fun l => l.kind ≠ .newline) = none ∧ (ofLexemes ls).ofLexeme? n = none := by
  cases hl : ls[n]? with
  | none =>
    obtain ⟨f, hf, -, htable⟩ := ofLexemes_holds ls
    have hsize : f.table.byLexeme.size ≤ n := by
      rw [hf.entries]
      exact List.getElem?_eq_none_iff.1 hl
    refine .inr ⟨rfl, ?_⟩
    rw [← htable, ofLexeme?, Array.getElem?_eq_none hsize, Option.getD_none]
  | some l =>
    obtain ⟨hn, rfl⟩ := List.getElem?_eq_some_iff.1 hl
    have hsplit : ls.take n ++ ls[n] :: ls.drop (n + 1) = ls := by
      rw [List.getElem_cons_drop, List.take_append_drop]
    have hlength : (ls.take n).length = n := List.length_take_of_le (Nat.le_of_lt hn)
    have hentry := ofLexeme?_ofLexemes (ls.take n) ls[n] (ls.drop (n + 1))
    rw [hsplit, hlength] at hentry
    by_cases hkind : ls[n].kind = .newline
    · have hno : ls[n].hasToken = false := by
        simp [Lexeme.hasToken, Lexeme.channel, hkind, Kind.channel]
      exact .inr ⟨by simp [hkind], by simpa [hno] using hentry⟩
    · have hhas : ls[n].hasToken = true := by
        by_contra hno
        rcases Lexeme.hasToken_eq_false (by simpa using hno) with hnewline | hempty
        · exact hkind hnewline
        · exact htext _ (List.getElem_mem hn) hempty
      obtain ⟨token, htoken, htokenKind, htokenText, hnumber⟩ :=
        token_ofLexemes (ls.take n) (ls.drop (n + 1)) hhas
      rw [hsplit, ← hnumber] at htoken
      rw [if_pos hhas, ← hnumber] at hentry
      exact .inl ⟨ls[n], token, by simp [hkind], List.getElem_mem hn, hentry, htoken, htokenText,
        Token.isCode_eq htokenKind hhas⟩

end LineTable

namespace Builder

variable {own : List Lexeme} {b : Builder} {path : Ancestry} {count : Nat}

/-- A leaf that does not fit is refused. -/
lemma IsAt.visit_misfit (h : b.IsAt own path count) (hown : ∀ l ∈ own, l.IsLegible)
    {leaf : Lexeme} (hleaf : leaf.IsLegible) {fault : Fault}
    (hmisfit : Lexeme.misfit? own[count]? leaf = some fault) :
    b.visit path leaf = .error (fault, b) := by
  have htable := h.sound.table
  unfold Lexeme.misfit? at hmisfit
  rcases LineTable.entry_cases (fun l hl => (hown l hl).1) count with
    ⟨l, token, hfilter, -, hentry, htoken, htext, -⟩ | ⟨hfilter, hentry⟩
  · rw [hfilter] at hmisfit
    rw [← htable, ← h.leaves] at hentry
    rw [← htable] at htoken
    dsimp only at hmisfit
    split at hmisfit
    · cases hmisfit
    · rename_i hne
      obtain rfl := Option.some.inj hmisfit
      simp [Builder.visit, hentry, htoken, htext, hne]
  · rw [hfilter] at hmisfit
    rw [← htable, ← h.leaves] at hentry
    dsimp only at hmisfit
    split at hmisfit
    · cases hmisfit
    · rename_i hkind
      obtain rfl := Option.some.inj hmisfit
      simp [Builder.visit, hentry, hkind, hleaf.1]

/-- The way past a leaf that fits.  A leaf of code settles the builder. -/
lemma IsAt.visit_fit (h : b.IsAt own path count) (hown : ∀ l ∈ own, l.IsLegible)
    {leaf : Lexeme} (hleaf : leaf.IsLegible) (hfit : Lexeme.misfit? own[count]? leaf = none) :
    ∃ b', b.visit path leaf = .ok b' ∧ b'.IsAt own path (count + 1) ∧
      (b.Settled ∨ leaf.isTrivia = false → b'.Settled) := by
  have htable := h.sound.table
  unfold Lexeme.misfit? at hfit
  rcases LineTable.entry_cases (fun l hl => (hown l hl).1) count with
    ⟨l, token, hfilter, hl, hentry, htoken, htext, hcode⟩ | ⟨hfilter, hentry⟩
  · rw [hfilter] at hfit
    rw [← htable, ← h.leaves] at hentry
    rw [← htable] at htoken
    have hsame : l.text = leaf.text := by simpa using hfit
    -- The same text is trivia in both files, or in none.
    have htrivia : l.isTrivia = leaf.isTrivia := by rw [(hown l hl).2, hleaf.2, hsame]
    have hvisit : b.visit path leaf = _ := visit_eq_of_token hentry htoken (htext.trans hsame)
    rw [hcode, htrivia] at hvisit
    cases hkind : leaf.isTrivia with
    | true =>
      rw [hkind] at hvisit
      refine ⟨_, hvisit, ⟨h.sound.meet _, { h.fits with }, by simp [meet, h.leaves], h.walked⟩, ?_⟩
      rintro (hsettled | hno)
      · exact { hsettled with }
      · cases hno
    | false =>
      rw [hkind] at hvisit
      obtain ⟨b', hclassify, hat, hsettled⟩ :=
        h.visit_code htoken (by rw [hcode, htrivia, hkind]; rfl)
      exact ⟨b', hvisit.trans hclassify, hat, fun _ => hsettled⟩
  · rw [hfilter] at hfit
    rw [← htable, ← h.leaves] at hentry
    have hkind : leaf.kind = .newline := by simpa using hfit
    refine ⟨_, visit_eq_of_skip hentry (.inl hkind),
      ⟨{ h.sound with }, { h.fits with }, by simp [h.leaves], h.walked⟩, ?_⟩
    rintro (hsettled | hno)
    · exact { hsettled with }
    · simp [Lexeme.isTrivia, hkind, Kind.isTrivia, Kind.channel] at hno

/-! ## The walk -/

/-- The walk over a part of a tree in which all leaves fit succeeds. -/
lemma walkForest_fit {f : Forest Lexeme} (hown : ∀ l ∈ own, l.IsLegible)
    (hlegible : ∀ l ∈ f.leaves, l.IsLegible) (hfull : f.bare.NodesFull)
    (h : b.IsAt own path count) (hfit : Lexeme.firstMisfit? own count f.leaves = none) :
    ∃ b', walkForest path f b = .ok b' ∧ b'.IsAt own path (count + f.leaves.length) ∧
      (b.Settled ∨ f.bare.leaves ≠ [] → b'.Settled) := by
  induction f generalizing path b count with
  | nil =>
    refine ⟨b, rfl, h, ?_⟩
    rintro (hsettled | hne)
    · exact hsettled
    · simp [Forest.bare, Forest.leaves] at hne
  | leaf l rest ih =>
    obtain ⟨hl, hrest⟩ := List.forall_mem_cons.1 hlegible
    obtain ⟨hfirst, hlater⟩ := Option.or_eq_none_iff.1 hfit
    have hfull' : rest.bare.NodesFull := by
      cases htrivia : l.isTrivia <;> simpa [Forest.bare, htrivia, Forest.NodesFull] using hfull
    obtain ⟨b₁, hb₁, hat₁, hsettled₁⟩ := h.visit_fit hown hl hfirst
    obtain ⟨b₂, hb₂, hat₂, hsettled₂⟩ := ih hrest hfull' hat₁ hlater
    refine ⟨b₂, ?_, ?_, ?_⟩
    · simp [walkForest, hb₁, Except.bind, hb₂]
    · rwa [Forest.leaves, List.length_cons, Nat.add_comm _ 1, ← Nat.add_assoc]
    · rintro (hsettled | hne)
      · exact hsettled₂ (.inl (hsettled₁ (.inl hsettled)))
      · cases htrivia : l.isTrivia with
        | false => exact hsettled₂ (.inl (hsettled₁ (.inr htrivia)))
        | true => exact hsettled₂ (.inr (by simpa [Forest.bare, htrivia] using hne))
  | node kind inside rest ihInside ihRest =>
    obtain ⟨hne, hfullInside, hfullRest⟩ := hfull
    obtain ⟨hinside, hrest⟩ := List.forall_mem_append.1 hlegible
    rw [Forest.leaves, Lexeme.firstMisfit?_append, Option.or_eq_none_iff] at hfit
    obtain ⟨b₁, hb₁, hat₁, hsettled₁⟩ :=
      ihInside hinside hfullInside (h.enter kind inside) hfit.1
    obtain ⟨b₂, hb₂, hat₂, hsettled₂⟩ := hat₁.leave (hsettled₁ (.inr hne))
    obtain ⟨b₃, hb₃, hat₃, hsettled₃⟩ := ihRest hrest hfullRest hat₂ hfit.2
    refine ⟨b₃, ?_, ?_, fun _ => hsettled₃ (.inl hsettled₂)⟩
    · simp [walkForest, hb₁, Except.bind, hb₂, hb₃]
    · rwa [Forest.leaves, List.length_append, ← Nat.add_assoc]

/-- The walk over a part of a tree fails at the first leaf that does not fit, and nowhere else. -/
lemma walkForest_misfit {f : Forest Lexeme} (hown : ∀ l ∈ own, l.IsLegible)
    (hlegible : ∀ l ∈ f.leaves, l.IsLegible) (hfull : f.bare.NodesFull)
    (h : b.IsAt own path count) {fault : Fault}
    (hmisfit : Lexeme.firstMisfit? own count f.leaves = some fault) :
    ∃ b', walkForest path f b = .error (fault, b') := by
  induction f generalizing path b count with
  | nil => cases hmisfit
  | leaf l rest ih =>
    obtain ⟨hl, hrest⟩ := List.forall_mem_cons.1 hlegible
    have hfull' : rest.bare.NodesFull := by
      cases htrivia : l.isTrivia <;> simpa [Forest.bare, htrivia, Forest.NodesFull] using hfull
    rcases Option.or_eq_some_iff.1 hmisfit with hfirst | ⟨hfirst, hlater⟩
    · exact ⟨b, by simp [walkForest, h.visit_misfit hown hl hfirst, Except.bind]⟩
    · obtain ⟨b₁, hb₁, hat₁, -⟩ := h.visit_fit hown hl hfirst
      obtain ⟨b', hb'⟩ := ih hrest hfull' hat₁ hlater
      exact ⟨b', by simp [walkForest, hb₁, Except.bind, hb']⟩
  | node kind inside rest ihInside ihRest =>
    obtain ⟨hne, hfullInside, hfullRest⟩ := hfull
    obtain ⟨hinside, hrest⟩ := List.forall_mem_append.1 hlegible
    rw [Forest.leaves, Lexeme.firstMisfit?_append, Option.or_eq_some_iff] at hmisfit
    rcases hmisfit with hfirst | ⟨hfirst, hlater⟩
    · obtain ⟨b', hb'⟩ := ihInside hinside hfullInside (h.enter kind inside) hfirst
      exact ⟨b', by simp [walkForest, hb', Except.bind]⟩
    · obtain ⟨b₁, hb₁, hat₁, hsettled₁⟩ :=
        walkForest_fit hown hinside hfullInside (h.enter kind inside) hfirst
      obtain ⟨b₂, hb₂, hat₂, -⟩ := hat₁.leave (hsettled₁ (.inr hne))
      obtain ⟨b', hb'⟩ := ihRest hrest hfullRest hat₂ hlater
      exact ⟨b', by simp [walkForest, hb₁, Except.bind, hb₂, hb']⟩

/-- The walk over the tree of another text goes through if and only if every lexeme of that text finds a
lexeme with its own text at its place, or is a line break and finds a line break or nothing.  If it does
not go through, then because of a lexeme that does not find this. -/
theorem foreign_tree_is_noticed {source other : String} {own foreign : List Lexeme}
    (hown : Lexeme.scan source = .ok own) (hforeign : Lexeme.scan other = .ok foreign)
    {trees : Forest Lexeme} (hparse : parse foreign = .ok trees) :
    ((∃ b, (ofTable (.ofLexemes own)).walk trees = .ok b) ↔
      ∀ (n : Nat) (leaf : Lexeme), foreign[n]? = some leaf →
        (∃ l : Lexeme, own[n]? = some l ∧ l.kind ≠ .newline ∧ l.text = leaf.text) ∨
          (∀ l : Lexeme, own[n]? = some l → l.kind = .newline) ∧ leaf.kind = .newline) ∧
    ∀ fault b, (ofTable (.ofLexemes own)).walk trees = .error (fault, b) →
      Model.build (.ofLexemes own) trees = .error (.invariant fault) ∧
      ∃ (n : Nat) (leaf : Lexeme), foreign[n]? = some leaf ∧
        ((∃ l : Lexeme, own[n]? = some l ∧ l.kind ≠ .newline ∧ l.text ≠ leaf.text ∧
            fault = .mismatch leaf.text l.text) ∨
          (∀ l : Lexeme, own[n]? = some l → l.kind = .newline) ∧ leaf.kind ≠ .newline ∧
            fault = .noEntry leaf.text) := by
  have hownLegible := Lexeme.isLegible_of_scan hown
  have hleaves := parse_leaves hparse
  have hlegible : ∀ l ∈ trees.leaves, l.IsLegible := by
    rw [hleaves]
    exact Lexeme.isLegible_of_scan hforeign
  have hfull := parse_bare_nodesFull hparse
  have hstart := IsAt.ofTable own trees
  have hfresh : (ofTable (.ofLexemes own)).walked = false := rfl
  have hfits : (∀ (n : Nat) (leaf : Lexeme), foreign[n]? = some leaf →
        (∃ l : Lexeme, own[n]? = some l ∧ l.kind ≠ .newline ∧ l.text = leaf.text) ∨
          (∀ l : Lexeme, own[n]? = some l → l.kind = .newline) ∧ leaf.kind = .newline) ↔
      Lexeme.firstMisfit? own 0 foreign = none := by
    simp only [Lexeme.firstMisfit?_eq_none_iff, Lexeme.misfit?_eq_none_iff, Nat.zero_add]
  rw [hfits]
  cases hmisfit : Lexeme.firstMisfit? own 0 foreign with
  | none =>
    obtain ⟨b, hb, hat, -⟩ :=
      walkForest_fit hownLegible hlegible hfull hstart (by rw [hleaves, hmisfit])
    have hwalk : (ofTable (.ofLexemes own)).walk trees = .ok b := by
      simp [walk, hfresh, hb, Except.bind, hat.fits.closed_eq]
    exact ⟨iff_of_true ⟨b, hwalk⟩ rfl, fun fault b' hb' => by simp [hwalk] at hb'⟩
  | some fault =>
    obtain ⟨b, hb⟩ :=
      walkForest_misfit hownLegible hlegible hfull hstart (by rw [hleaves, hmisfit])
    have hwalk : (ofTable (.ofLexemes own)).walk trees = .error (fault, b) := by
      simp [walk, hfresh, hb, Except.bind]
    refine ⟨iff_of_false (by simp [hwalk]) (by simp), fun fault' b' hb' => ?_⟩
    obtain ⟨rfl, rfl⟩ : fault = fault' ∧ b = b' := by simpa [hwalk] using hb'
    obtain ⟨n, leaf, hn, hleaf⟩ := Lexeme.exists_of_firstMisfit?_eq_some hmisfit
    rw [Nat.zero_add] at hleaf
    exact ⟨by simp [Model.build, hwalk], n, leaf, hn, Lexeme.misfit?_eq_some hleaf⟩

/-- The tree of a class and a line break goes through in a file with the class only. -/
theorem foreign_tree_with_line_break :
    ∃ own foreign trees b, Lexeme.scan "class A\x7b\x7d" = .ok own ∧
      Lexeme.scan "class A\x7b\x7d\n" = .ok foreign ∧ parse foreign = .ok trees ∧
      (ofTable (.ofLexemes own)).walk trees = .ok b := by
  have hread : ((Lexeme.scan "class A\x7b\x7d").toOption.bind fun own =>
      (Lexeme.scan "class A\x7b\x7d\n").toOption.map fun foreign =>
        (Lexeme.firstMisfit? own 0 foreign, (parse foreign).toOption.isSome)) =
      some (none, true) := by
    decide +kernel
  cases hown : Lexeme.scan "class A\x7b\x7d" with
  | error e => simp [hown, Except.toOption] at hread
  | ok own =>
    cases hforeign : Lexeme.scan "class A\x7b\x7d\n" with
    | error e => simp [hown, hforeign, Except.toOption] at hread
    | ok foreign =>
      simp only [hown, hforeign, Except.toOption, Option.bind_some, Option.map_some,
        Option.some.injEq, Prod.mk.injEq] at hread
      obtain ⟨hfit, hparsed⟩ := hread
      cases hparse : parse foreign with
      | error e => simp [hparse] at hparsed
      | ok trees =>
        simp only [Lexeme.firstMisfit?_eq_none_iff, Lexeme.misfit?_eq_none_iff, Nat.zero_add] at hfit
        obtain ⟨b, hwalk⟩ := (foreign_tree_is_noticed hown hforeign hparse).1.2 hfit
        exact ⟨own, foreign, trees, b, rfl, rfl, hparse, hwalk⟩

end Builder

end JavaLint
