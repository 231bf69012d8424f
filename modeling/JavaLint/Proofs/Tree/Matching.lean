import JavaLint.Proofs.Grammar.Brackets
import JavaLint.Proofs.Tree.Bare
import JavaLint.Proofs.Tree.Brackets
import Mathlib.Tactic.Common

/-!
# The brackets of a file

The shape of a file is bracketed (`readShape_bracketed`).  Weaving the blanks and comments back in
keeps it so, because a node never starts or ends with one of them: `weave_bracketed` follows the
brackets of the shape, and `parse_bracketed` says it of whole files.

The main result is `brackets_match`.  The brackets of a file that is accepted, less the round and
square ones directly in the body of a module, make a well-bracketed word; its pairs of curly
brackets are the first and the last leaves of the nodes with braces, one node for each pair; and a
file whose braces do not match is refused.
-/

namespace JavaLint

/-! ## Weaving -/

namespace Forest

variable {α : Type} {kindOf : α → Kind} {loose : Bool} {depth : Nat} {f g : Forest α}

/-- Leaves before a forest are a forest of their own before it. -/
lemma withLeaves_eq_append (as : List α) (f : Forest α) :
    withLeaves as f = withLeaves as nil ++ f := by
  induction as with
  | nil => rfl
  | cons a as ih =>
    show leaf a (withLeaves as f) = leaf a (withLeaves as nil) ++ f
    rw [ih, leaf_append]

/-- Blanks and comments before a forest leave it bracketed. -/
lemma Bracketed.withTrivia {as : List α} (has : ∀ a ∈ as, (kindOf a).isTrivia = true)
    (hf : f.Bracketed kindOf loose depth) : (withLeaves as f).Bracketed kindOf loose depth := by
  induction as with
  | nil => exact hf
  | cons a as ih =>
    obtain ⟨ha, has⟩ := List.forall_mem_cons.1 has
    exact .leaf (Kind.markIn_of_isTrivia ha) (ih has)

/-- Blanks and comments after a forest leave it bracketed. -/
lemma Bracketed.append_trivia {as : List α} (has : ∀ a ∈ as, (kindOf a).isTrivia = true)
    (hf : f.Bracketed kindOf loose depth) :
    (f ++ withLeaves as .nil).Bracketed kindOf loose depth :=
  hf.append (.withTrivia has .nil)

end Forest

/-- Two sequences are woven one after the other. -/
lemma weave_append {α : Type} (f g : Forest α) (ws : List Word) :
    weave (f ++ g) ws =
      ((weave f ws).1 ++ (weave g (weave f ws).2).1, (weave g (weave f ws).2).2) := by
  induction f generalizing ws with
  | nil => rfl
  | leaf a rest ih =>
    cases ws with
    | nil => exact ih []
    | cons w ws =>
      simp only [Forest.leaf_append, weave, ih]
      rw [Forest.withLeaves_eq_append, Forest.withLeaves_eq_append w.lead (.leaf w.core _),
        Forest.append_assoc, Forest.leaf_append]
  | node k inside rest _ ih =>
    simp only [Forest.node_append, weave, ih]
    rw [Forest.withLeaves_eq_append, Forest.withLeaves_eq_append (takeLead ws).1 (.node k _ _),
      Forest.append_assoc, Forest.node_append]

/-- Taking the lead of the next word keeps the kinds of the words. -/
lemma takeLead_kinds (ws : List Word) :
    (takeLead ws).2.map (fun w => w.core.kind) = ws.map fun w => w.core.kind := by
  cases ws <;> simp [takeLead]

/-- The words of a file fit a shape, and `ks` are the kinds of the words after it. -/
structure Fitting (ws : List Word) (f : Shape) (ks : List Kind) : Prop where
  parted : ∀ w ∈ ws, w.IsParted
  kinds : ws.map (fun w => w.core.kind) = f.leaves ++ ks

namespace Fitting

variable {ws : List Word} {ks : List Kind}

/-- There is a word for the first leaf. -/
lemma exists_cons {k : Kind} {rest : Shape} (h : Fitting ws (.leaf k rest) ks) :
    ∃ w ws', ws = w :: ws' ∧ w.IsParted ∧ w.core.kind = k ∧ Fitting ws' rest ks := by
  cases ws with
  | nil => simpa [Forest.leaves] using h.kinds
  | cons w ws =>
    obtain ⟨hparted, hrest⟩ := List.forall_mem_cons.1 h.parted
    have hkinds := h.kinds
    simp only [List.map_cons, Forest.leaves, List.cons_append, List.cons.injEq] at hkinds
    exact ⟨w, ws, rfl, hparted, hkinds.1, hrest, hkinds.2⟩

/-- Words that fit two sequences fit the first one. -/
lemma first {f g : Shape} (h : Fitting ws (f ++ g) ks) : Fitting ws f (g.leaves ++ ks) :=
  ⟨h.parted, by simpa using h.kinds⟩

/-- Words that fit a node, without the lead of the first of them, fit the inside of it. -/
lemma inside {k : NodeKind} {f g : Shape} (h : Fitting ws (.node k f g) ks) :
    Fitting (takeLead ws).2 f (g.leaves ++ ks) := by
  refine ⟨(takeLead_parted h.parted).2, ?_⟩
  rw [takeLead_kinds, h.kinds, Forest.leaves, List.append_assoc]

/-- The words that are left fit what comes next. -/
lemma left {f g : Shape} (h : Fitting ws f (g.leaves ++ ks)) : Fitting (weave f ws).2 g ks := by
  refine ⟨(weave_bare f h.parted).2.2, ?_⟩
  have hcores : (weave f ws).2.map (fun w => w.core.kind) =
      (ws.map fun w => w.core.kind).drop f.leaves.length := by
    clear h
    induction f generalizing ws with
    | nil => simp [weave, Forest.leaves]
    | leaf a rest ih =>
      cases ws with
      | nil => simpa [weave] using @ih []
      | cons w ws => simpa [weave, Forest.leaves] using ih
    | node k inside rest ihInside ihRest =>
      simp only [weave, Forest.leaves, List.length_append]
      rw [ihRest, ihInside, takeLead_kinds, List.drop_drop]
  rw [hcores, h.kinds, List.drop_left]

end Fitting

/-- The words of a file fit the shape that the grammar finds for it. -/
lemma fitting_words {ls : List Lexeme} {shape : Shape}
    (hshape : readShape ((codeLexemes ls).map Lexeme.kind) = .ok shape) :
    Fitting (words ls).1 shape [] := by
  refine ⟨(words_parted ls).1, ?_⟩
  rw [readShape_leaves hshape, ← words_core, List.map_map, List.append_nil]
  rfl

/-- Weaving words into a bracketed shape makes a bracketed forest. -/
lemma weave_bracketed {f : Shape} {loose : Bool} {depth : Nat} (hf : f.Bracketed id loose depth)
    {ws : List Word} {ks : List Kind} (h : Fitting ws f ks) :
    (weave f ws).1.Bracketed Lexeme.kind loose depth := by
  induction hf generalizing ws ks with
  | nil => exact .nil
  | leaf ha _ ih =>
    obtain ⟨w, ws, rfl, hw, rfl, hrest⟩ := h.exists_cons
    exact .withTrivia hw.1 (.leaf ha (ih hrest))
  | @pair loose _ b a c inside rest ha hc hb _ _ ihInside ihRest =>
    obtain ⟨w, ws, rfl, hw, rfl, hrest⟩ := h.exists_cons
    have hinside := ihInside hrest.first
    obtain ⟨w', ws', hws', hw', rfl, hrest'⟩ := hrest.first.left.exists_cons
    simp only [weave, weave_append, hws']
    rw [Forest.withLeaves_eq_append w'.lead, ← Forest.append_assoc]
    exact .withTrivia hw.1 (.pair ha hc hb (hinside.append_trivia hw'.1) (ihRest hrest'))
  | plain hk _ _ ihInside ihRest =>
    have hinside := ihInside h.inside
    exact .withTrivia (takeLead_parted h.parted).1 (.plain hk hinside (ihRest h.inside.left))
  | @braced loose _ k a c inside rest hk ha hc _ _ ihInside ihRest =>
    have hlead := (takeLead_parted h.parted).1
    have hrest := ihRest h.inside.left
    -- The lead of the opening brace stays outside of the node.
    obtain ⟨w, ws₁, hws₁, hw, rfl, hfit⟩ := h.inside.exists_cons
    have hempty : w.lead = [] := by
      cases ws with
      | nil => simp [takeLead] at hws₁
      | cons w' ws' =>
        obtain ⟨rfl, -⟩ : (⟨[], w'.core⟩ : Word) = w ∧ ws' = ws₁ := by simpa [takeLead] using hws₁
        rfl
    have hinside := ihInside hfit.first
    obtain ⟨w', ws', hws', hw', rfl, -⟩ := hfit.first.left.exists_cons
    simp only [weave, weave_append, hws₁, hws', hempty] at hrest ⊢
    rw [Forest.withLeaves_eq_append w'.lead, ← Forest.append_assoc]
    exact .withTrivia hlead (.braced hk ha hc (hinside.append_trivia hw'.1) hrest)

/-- The trees of a file are bracketed. -/
theorem parse_bracketed {ls : List Lexeme} {trees : Forest Lexeme} (h : parse ls = .ok trees) :
    trees.Bracketed Lexeme.kind false maxNesting := by
  obtain ⟨shape, hshape, rfl⟩ := parse_eq_ok.1 h
  have hwoven := weave_bracketed (readShape_bracketed hshape) (fitting_words hshape)
  exact hwoven.append_trivia (words_parted ls).2

/-! ## Whole files -/

/-- For every sequence of lexemes that makes a file, the brackets that count make a well-bracketed
word, where all count but the round and square ones directly in the body of a module.  Exactly one
node with braces starts at each opening brace, and it ends at the partner of that brace; every node
with braces is of this form.  So a file is refused if its braces do not match, whatever its other
lexemes are. -/
theorem brackets_match (lexemes : List Lexeme) :
    (∀ trees, parse lexemes = .ok trees →
      WellBracketed (trees.marks Lexeme.kind false).reduceOption ∧
      (∀ (i : Nat) (l : Lexeme), lexemes[i]? = some l → l.kind = .lBrace →
        ∃ j, (trees.bracedSpans 0).filter (fun span => span.1 = i) = [(i, j)] ∧
          Forest.IsPair (trees.marks Lexeme.kind false) .curly i j ∧
          ∀ b j', Forest.IsPair (trees.marks Lexeme.kind false) b i j' → j' = j) ∧
      ∀ span ∈ trees.bracedSpans 0,
        Forest.IsPair (trees.marks Lexeme.kind false) .curly span.1 span.2) ∧
    (¬ WellBracketed (lexemes.filterMap fun l => l.kind.markIn true) →
      ∃ line cause, parse lexemes = .error (.grammatical line cause)) := by
  constructor
  · intro trees h
    have hbracketed := parse_bracketed h
    have hpairs : ∀ span ∈ trees.bracedSpans 0,
        Forest.IsPair (trees.marks Lexeme.kind false) .curly span.1 span.2 := by
      intro span hspan
      simpa using hbracketed.span_isPair [] [] hspan
    refine ⟨hbracketed.wellBracketed, fun i l hl hbrace => ?_, hpairs⟩
    rw [← parse_leaves h] at hl
    obtain ⟨j, hj⟩ := hbracketed.spans_at_brace hl hbrace
    have hmem : (i, j) ∈ (trees.bracedSpans 0).filter fun span => span.1 = i := by simp [hj]
    have hpair : Forest.IsPair (trees.marks Lexeme.kind false) .curly i j :=
      hpairs _ (List.mem_filter.1 hmem).1
    exact ⟨j, hj, hpair, fun b j' hpair' => hpair'.unique hpair⟩
  · intro hunmatched
    cases h : parse lexemes with
    | error e =>
      obtain ⟨line, cause, rfl⟩ := parse_eq_error h
      exact ⟨line, cause, rfl⟩
    | ok trees =>
      have hword := (parse_bracketed h).wellBracketed.filter fun b => b = .curly
      rw [Forest.marks_curly, parse_leaves h] at hword
      exact absurd hword hunmatched

/-- A module whose body has a round and a square bracket without partners: both are left out, and
the braces are those of the body.  Without the closing brace the file is refused. -/
theorem brackets_of_module :
    let opening : List Lexeme := [⟨.keyword .moduleKw, "module", 0, 1⟩, ⟨.identifier, "m", 7, 1⟩,
      ⟨.lBrace, "\x7b", 8, 1⟩, ⟨.lParen, "(", 9, 1⟩, ⟨.rBrack, "]", 10, 1⟩, ⟨.semi, ";", 11, 1⟩]
    let closing : Lexeme := ⟨.rBrace, "\x7d", 12, 1⟩
    (∃ trees, parse (opening ++ [closing]) = .ok trees ∧
      WellBracketed (trees.marks Lexeme.kind false).reduceOption ∧
      (trees.marks Lexeme.kind false).reduceOption = [.opens .curly, .closes .curly] ∧
      trees.bracedSpans 0 = [(2, 6)] ∧
      Forest.IsPair (trees.marks Lexeme.kind false) .curly 2 6) ∧
    ∃ line cause, parse opening = .error (.grammatical line cause) := by
  intro opening closing
  have h : parse (opening ++ [closing]) = .ok (.node .moduleDecl
      (.leaf ⟨.keyword .moduleKw, "module", 0, 1⟩ (.leaf ⟨.identifier, "m", 7, 1⟩
        (.node .moduleBody (.leaf ⟨.lBrace, "\x7b", 8, 1⟩ (.leaf ⟨.lParen, "(", 9, 1⟩
          (.leaf ⟨.rBrack, "]", 10, 1⟩ (.leaf ⟨.semi, ";", 11, 1⟩ (.leaf closing .nil))))) .nil)))
      .nil) := by
    decide +kernel
  obtain ⟨hword, -, hpairs⟩ := (brackets_match (opening ++ [closing])).1 _ h
  refine ⟨⟨_, h, hword, by decide, by decide, hpairs (2, 6) (by decide)⟩, ?_⟩
  refine (brackets_match opening).2 fun hopen => ?_
  exact absurd hopen.balance_eq_zero (by decide)

end JavaLint
