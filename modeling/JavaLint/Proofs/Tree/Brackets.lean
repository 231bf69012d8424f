import JavaLint.Lexeme.Kind
import JavaLint.Tree.Forest
import Mathlib.Algebra.Ring.Int.Defs
import Mathlib.Data.List.Nodup
import Mathlib.Data.List.ReduceOption
import Mathlib.Tactic.Common

/-!
# Brackets in trees

A well-bracketed word is a sequence of brackets of three kinds in which every bracket has its
partner (`WellBracketed`).  A bracketed forest is one in which this holds along the tree: round and
square brackets come in pairs that stand directly in the same node, and curly brackets are the
first and the last leaf of a node that is made for them (`Forest.Bracketed`).  The index of that
predicate bounds how many nodes with braces lie inside each other.

The brackets of a bracketed forest make a well-bracketed word (`Forest.Bracketed.wellBracketed`),
and the nodes with braces are exactly the pairs of curly brackets of that word
(`Forest.Bracketed.span_isPair`, `Forest.Bracketed.spans_at_brace`).
-/

namespace JavaLint

/-! ## Words -/

/-- The kinds of brackets. -/
inductive Bracket where
  | round | square | curly
deriving DecidableEq, Repr

/-- One of the two brackets of a pair. -/
inductive Mark where
  | opens (bracket : Bracket)
  | closes (bracket : Bracket)
deriving DecidableEq, Repr

/-- The kind of bracket. -/
def Mark.bracket : Mark → Bracket
  | opens b => b
  | closes b => b

/-- A word over brackets in which every bracket has its partner. -/
inductive WellBracketed : List Mark → Prop where
  /-- The empty word. -/
  | nil : WellBracketed []
  /-- A word in a pair of brackets, and another word after it. -/
  | pair (b : Bracket) {w v : List Mark} :
    WellBracketed w → WellBracketed v → WellBracketed (.opens b :: (w ++ .closes b :: v))

/-- Two well-bracketed words one after the other are well-bracketed. -/
lemma WellBracketed.append {w v : List Mark} (hw : WellBracketed w) (hv : WellBracketed v) :
    WellBracketed (w ++ v) := by
  induction hw with
  | nil => exact hv
  | pair b hw _ _ ih =>
    rw [List.cons_append, List.append_assoc, List.cons_append]
    exact .pair b hw ih

/-- A well-bracketed word stays so when all brackets but those of some kinds are left out. -/
lemma WellBracketed.filter {w : List Mark} (hw : WellBracketed w) (keep : Bracket → Bool) :
    WellBracketed (w.filter fun m => keep m.bracket) := by
  induction hw with
  | nil => exact .nil
  | pair b _ _ ihw ihv =>
    cases hb : keep b with
    | true => simpa [Mark.bracket, hb] using WellBracketed.pair b ihw ihv
    | false => simpa [Mark.bracket, hb] using ihw.append ihv

/-- How many brackets are opened and not closed again. -/
def Mark.balance (w : List Mark) : Int :=
  (w.map fun | .opens _ => 1 | .closes _ => -1).sum

@[simp] lemma Mark.balance_append (w v : List Mark) : balance (w ++ v) = balance w + balance v := by
  simp [balance]

@[simp] lemma Mark.balance_opens (b : Bracket) (w : List Mark) :
    balance (.opens b :: w) = 1 + balance w := by
  simp [balance]

@[simp] lemma Mark.balance_closes (b : Bracket) (w : List Mark) :
    balance (.closes b :: w) = -1 + balance w := by
  simp [balance]

/-- All brackets of a well-bracketed word are closed again. -/
lemma WellBracketed.balance_eq_zero {w : List Mark} (hw : WellBracketed w) : Mark.balance w = 0 := by
  induction hw with
  | nil => rfl
  | pair b _ _ ihw ihv =>
    simp [ihw, ihv]

/-- At no point of a well-bracketed word more brackets are closed than were opened. -/
lemma WellBracketed.balance_take_nonneg {w : List Mark} (hw : WellBracketed w) (n : Nat) :
    0 ≤ Mark.balance (w.take n) := by
  induction hw generalizing n with
  | nil => simp [Mark.balance]
  | @pair b w v _ _ ihw ihv =>
    cases n with
    | zero => simp [Mark.balance]
    | succ n =>
      have hw := ihw n
      rw [List.take_succ_cons, Mark.balance_opens, List.take_append, Mark.balance_append]
      cases n - w.length with
      | zero =>
        simp only [List.take_zero, Mark.balance, List.map_nil, List.sum_nil] at hw ⊢
        omega
      | succ m =>
        have hv := ihv m
        rw [List.take_succ_cons, Mark.balance_closes]
        omega

/-- A well-bracketed word that goes on with a closing bracket is not the start of another one. -/
lemma WellBracketed.not_append_closes {w v : List Mark} {b : Bracket} (hw : WellBracketed w) :
    ¬ WellBracketed (w ++ .closes b :: v) := by
  intro hlong
  have hpoint := hlong.balance_take_nonneg (w.length + 1)
  have htake : (w ++ .closes b :: v).take (w.length + 1) = w ++ [.closes b] := by
    rw [List.take_length_add_append]
    rfl
  rw [htake, Mark.balance_append, hw.balance_eq_zero, Mark.balance_closes] at hpoint
  simp [Mark.balance] at hpoint

/-- The bracket that a word of the given kind is. -/
def Kind.mark? : Kind → Option Mark
  | .lParen => some (.opens .round)
  | .rParen => some (.closes .round)
  | .lBrack => some (.opens .square)
  | .rBrack => some (.closes .square)
  | .lBrace => some (.opens .curly)
  | .rBrace => some (.closes .curly)
  | _ => none

/-- The bracket that counts where a word of the given kind stands.  In a `loose` place only curly
brackets count. -/
def Kind.markIn (loose : Bool) (k : Kind) : Option Mark :=
  k.mark?.filter fun m => !loose || m.bracket = .curly

/-- The node takes its words as they come, without a look at round and square brackets. -/
def NodeKind.isLoose (k : NodeKind) : Bool :=
  k = .moduleBody

/-- A word opens a pair of curly brackets, wherever it stands, if it is an opening brace. -/
lemma Kind.markIn_eq_opens_curly {loose : Bool} {k : Kind} :
    k.markIn loose = some (.opens .curly) ↔ k = .lBrace := by
  cases loose <;> cases k <;> simp [markIn, mark?, Mark.bracket]

/-- A word closes a pair of curly brackets, wherever it stands, if it is a closing brace. -/
lemma Kind.markIn_eq_closes_curly {loose : Bool} {k : Kind} :
    k.markIn loose = some (.closes .curly) ↔ k = .rBrace := by
  cases loose <;> cases k <;> simp [markIn, mark?, Mark.bracket]

/-- Nodes without braces are not loose. -/
lemma NodeKind.isLoose_eq_false {k : NodeKind} (h : k.isBraced = false) : k.isLoose = false := by
  cases k <;> simp_all [isBraced, isLoose]

/-- Blanks and comments are no brackets. -/
lemma Kind.markIn_of_isTrivia {loose : Bool} {k : Kind} (h : k.isTrivia = true) :
    k.markIn loose = none := by
  cases k <;> simp_all [isTrivia, channel, markIn, mark?]

/-- To leave out round and square brackets after the fact is to listen to curly ones only. -/
lemma Kind.markIn_filter_curly (loose : Bool) (k : Kind) :
    (k.markIn loose).filter (fun m => m.bracket = .curly) = k.markIn true := by
  cases loose <;> cases k <;> rfl

namespace Forest

variable {α : Type} (kindOf : α → Kind)

/-! ## Bracketed forests -/

/-- The forest is a sequence of words and nodes in which brackets are paired: round and square
ones within the sequence, unless the place is `loose`, and curly ones around the inside of a node.
At most `depth` nodes with braces lie inside each other. -/
inductive Bracketed : (loose : Bool) → (depth : Nat) → Forest α → Prop where
  | nil {loose : Bool} {depth : Nat} : Bracketed loose depth .nil
  /-- A word that is no bracket. -/
  | leaf {loose : Bool} {depth : Nat} {a : α} {rest : Forest α} :
    (kindOf a).markIn loose = none → Bracketed loose depth rest →
    Bracketed loose depth (.leaf a rest)
  /-- A pair of round or square brackets. -/
  | pair {loose : Bool} {depth : Nat} {b : Bracket} {a c : α} {inside rest : Forest α} :
    (kindOf a).markIn loose = some (.opens b) → (kindOf c).markIn loose = some (.closes b) →
    b ≠ .curly → Bracketed loose depth inside → Bracketed loose depth rest →
    Bracketed loose depth (.leaf a (inside ++ .leaf c rest))
  /-- A node without braces. -/
  | plain {loose : Bool} {depth : Nat} {k : NodeKind} {inside rest : Forest α} :
    k.isBraced = false → Bracketed false depth inside → Bracketed loose depth rest →
    Bracketed loose depth (.node k inside rest)
  /-- A node with braces. -/
  | braced {loose : Bool} {depth : Nat} {k : NodeKind} {a c : α} {inside rest : Forest α} :
    k.isBraced = true → kindOf a = .lBrace → kindOf c = .rBrace →
    Bracketed k.isLoose depth inside → Bracketed loose (depth + 1) rest →
    Bracketed loose (depth + 1) (.node k (.leaf a (inside ++ .leaf c .nil)) rest)

/-- The brackets at the leaves, where round and square ones directly in the body of a module are
left out.  There is one entry for each leaf. -/
def marks (loose : Bool) : Forest α → List (Option Mark)
  | nil => []
  | leaf a rest => (kindOf a).markIn loose :: rest.marks loose
  | node k inside rest => inside.marks k.isLoose ++ rest.marks loose

/-- The places of the first and the last leaf of every node with braces, from top to bottom, where
the first leaf of the forest is at the place `start`. -/
def bracedSpans (start : Nat) : Forest α → List (Nat × Nat)
  | nil => []
  | leaf _ rest => rest.bracedSpans (start + 1)
  | node k inside rest =>
    (if k.isBraced then [(start, start + (inside.leaves.length - 1))] else []) ++
      (inside.bracedSpans start ++ rest.bracedSpans (start + inside.leaves.length))

variable {kindOf} {f g : Forest α} {loose : Bool} {depth : Nat}

/-- An opening brace counts in every place. -/
lemma markIn_lBrace (loose : Bool) {a : α} (h : kindOf a = .lBrace) :
    (kindOf a).markIn loose = some (.opens .curly) :=
  Kind.markIn_eq_opens_curly.2 h

/-- A closing brace counts in every place. -/
lemma markIn_rBrace (loose : Bool) {a : α} (h : kindOf a = .rBrace) :
    (kindOf a).markIn loose = some (.closes .curly) :=
  Kind.markIn_eq_closes_curly.2 h

/-- A word whose bracket is not an opening curly one is not an opening brace. -/
lemma ne_lBrace_of_markIn_ne {a : α} (h : (kindOf a).markIn loose ≠ some (.opens .curly)) :
    kindOf a ≠ .lBrace :=
  fun hbrace => h (markIn_lBrace loose hbrace)

/-- Appending forests is associative. -/
lemma append_assoc (f g h : Forest α) : f ++ g ++ h = f ++ (g ++ h) := by
  induction f with
  | nil => rfl
  | leaf a rest ih => simp [ih]
  | node k inside rest _ ih => simp [ih]

/-- Two bracketed sequences make one. -/
lemma Bracketed.append (hf : f.Bracketed kindOf loose depth) (hg : g.Bracketed kindOf loose depth) :
    (f ++ g).Bracketed kindOf loose depth := by
  induction hf with
  | nil => exact hg
  | leaf ha _ ih => exact .leaf ha (ih hg)
  | pair ha hc hb hinside _ _ ih =>
    rw [leaf_append, append_assoc, leaf_append]
    exact .pair ha hc hb hinside (ih hg)
  | plain hk hinside _ _ ih => exact .plain hk hinside (ih hg)
  | braced hk ha hc hinside _ _ ih => exact .braced hk ha hc hinside (ih hg)

/-! ## The brackets of a forest -/

/-- There is one entry for each leaf. -/
@[simp] lemma length_marks (kindOf : α → Kind) (loose : Bool) (f : Forest α) :
    (f.marks kindOf loose).length = f.leaves.length := by
  induction f generalizing loose with
  | nil => rfl
  | leaf a rest ih => simp [marks, leaves, ih]
  | node k inside rest ihInside ihRest => simp [marks, leaves, ihInside, ihRest]

/-- The brackets of two sequences are those of the one and then those of the other. -/
@[simp] lemma marks_append (kindOf : α → Kind) (loose : Bool) (f g : Forest α) :
    (f ++ g).marks kindOf loose = f.marks kindOf loose ++ g.marks kindOf loose := by
  induction f with
  | nil => rfl
  | leaf a rest ih => simp [marks, ih]
  | node k inside rest _ ih => simp [marks, ih]

/-- The nodes with braces of two sequences are those of the one and then those of the other. -/
lemma bracedSpans_append (start : Nat) (f g : Forest α) :
    (f ++ g).bracedSpans start =
      f.bracedSpans start ++ g.bracedSpans (start + f.leaves.length) := by
  induction f generalizing start with
  | nil => rfl
  | leaf a rest ih =>
    rw [leaf_append, bracedSpans, bracedSpans, ih, leaves, List.length_cons]
    congr 2
    omega
  | node k inside rest _ ih =>
    rw [node_append, bracedSpans, bracedSpans, ih, leaves, List.length_append]
    simp only [List.append_assoc, Nat.add_assoc]

/-- The curly brackets of a forest do not depend on the nodes. -/
lemma marks_curly (kindOf : α → Kind) (loose : Bool) (f : Forest α) :
    ((f.marks kindOf loose).reduceOption.filter fun m => m.bracket = .curly) =
      f.leaves.filterMap fun a => (kindOf a).markIn true := by
  have hword : ∀ marks : List (Option Mark),
      (marks.reduceOption.filter fun m => m.bracket = .curly) =
        (marks.map fun m => m.filter fun m => m.bracket = .curly).reduceOption := by
    intro marks
    induction marks with
    | nil => rfl
    | cons m marks ih =>
      cases m with
      | none => simpa [List.reduceOption] using ih
      | some m =>
        by_cases hm : m.bracket = .curly <;> simpa [List.reduceOption, hm, Option.filter] using ih
  have hmap : ∀ (f : Forest α) (loose : Bool),
      ((f.marks kindOf loose).map fun m => m.filter fun m => m.bracket = .curly) =
        f.leaves.map fun a => (kindOf a).markIn true := by
    intro f
    induction f with
    | nil => intro loose; rfl
    | leaf a rest ih => intro loose; simp [marks, leaves, ih, Kind.markIn_filter_curly]
    | node k inside rest ihInside ihRest => intro loose; simp [marks, leaves, ihInside, ihRest]
  rw [hword, hmap, List.reduceOption, List.filterMap_map]
  rfl

/-- The brackets of a bracketed forest make a well-bracketed word. -/
theorem Bracketed.wellBracketed (hf : f.Bracketed kindOf loose depth) :
    WellBracketed (f.marks kindOf loose).reduceOption := by
  induction hf with
  | nil => exact .nil
  | leaf ha _ ih =>
    rw [marks, ha, List.reduceOption_cons_of_none]
    exact ih
  | pair ha hc _ _ _ ihInside ihRest =>
    simpa [marks, ha, hc, List.reduceOption_append] using WellBracketed.pair _ ihInside ihRest
  | plain hk _ _ ihInside ihRest =>
    rw [marks, NodeKind.isLoose_eq_false hk, List.reduceOption_append]
    exact ihInside.append ihRest
  | @braced _ _ k _ _ _ _ _ ha hc _ _ ihInside ihRest =>
    have ha := markIn_lBrace k.isLoose ha
    have hc := markIn_rBrace k.isLoose hc
    simpa [marks, ha, hc, List.reduceOption_append] using WellBracketed.pair _ ihInside ihRest

/-! ## Pairs and nodes -/

/-- The two entries of a list are partners: an opening and a closing bracket of the same kind with
a well-bracketed word between them. -/
def IsPair (marks : List (Option Mark)) (b : Bracket) (i j : Nat) : Prop :=
  ∃ before between after, marks = before ++ some (.opens b) :: (between ++ some (.closes b) :: after) ∧
    i = before.length ∧ j = i + 1 + between.length ∧ WellBracketed between.reduceOption

/-- A bracket has no more than one partner. -/
lemma IsPair.unique {marks : List (Option Mark)} {b b' : Bracket} {i j j' : Nat}
    (h : IsPair marks b i j) (h' : IsPair marks b' i j') : j = j' := by
  obtain ⟨before, between, after, rfl, rfl, rfl, hword⟩ := h
  obtain ⟨before', between', after', heq, hlength, rfl, hword'⟩ := h'
  obtain ⟨-, htail⟩ := List.append_inj heq hlength
  have hrest : between ++ some (.closes b) :: after = between' ++ some (.closes b') :: after' := by
    simpa using (List.cons.inj htail).2
  rcases List.append_eq_append_iff.1 hrest with ⟨c, rfl, hc⟩ | ⟨c, rfl, hc⟩
  · cases c with
    | nil => simp
    | cons m c =>
      obtain rfl : some (.closes b) = m := (List.cons.inj hc).1
      rw [List.reduceOption_append, List.reduceOption_cons_of_some] at hword'
      exact absurd hword' hword.not_append_closes
  · cases c with
    | nil => simp
    | cons m c =>
      obtain rfl : some (.closes b') = m := (List.cons.inj hc).1
      rw [List.reduceOption_append, List.reduceOption_cons_of_some] at hword
      exact absurd hword hword'.not_append_closes

/-- Every node with braces starts at an opening brace and ends at its partner. -/
theorem Bracketed.span_isPair (hf : f.Bracketed kindOf loose depth)
    (before after : List (Option Mark)) {span : Nat × Nat}
    (hspan : span ∈ f.bracedSpans before.length) :
    IsPair (before ++ (f.marks kindOf loose ++ after)) .curly span.1 span.2 := by
  induction hf generalizing before after with
  | nil => simp [bracedSpans] at hspan
  | @leaf loose _ a rest _ _ ih =>
    have hrest := ih (before ++ [(kindOf a).markIn loose]) after (by simpa [bracedSpans] using hspan)
    simpa [marks] using hrest
  | @pair loose _ _ a c inside rest _ _ _ _ _ ihInside ihRest =>
    simp only [bracedSpans, bracedSpans_append, List.mem_append] at hspan
    rcases hspan with hspan | hspan
    · have hinside := ihInside (before ++ [(kindOf a).markIn loose])
        ((kindOf c).markIn loose :: rest.marks kindOf loose ++ after) (by simpa using hspan)
      simpa [marks] using hinside
    · have hrest := ihRest
        (before ++ ((kindOf a).markIn loose :: inside.marks kindOf loose ++ [(kindOf c).markIn loose]))
        after (by simpa [Nat.add_assoc, Nat.add_comm 1] using hspan)
      simpa [marks] using hrest
  | @plain loose _ k inside rest hk _ _ ihInside ihRest =>
    simp only [bracedSpans, hk, List.mem_append] at hspan
    rcases hspan with hspan | hspan | hspan
    · simp at hspan
    · have hinside := ihInside before (rest.marks kindOf loose ++ after) hspan
      simpa [marks, NodeKind.isLoose_eq_false hk] using hinside
    · have hrest := ihRest (before ++ inside.marks kindOf false) after (by simpa using hspan)
      simpa [marks, NodeKind.isLoose_eq_false hk] using hrest
  | @braced loose _ k a c inside rest hk ha hc hinside _ ihInside ihRest =>
    have ha := markIn_lBrace k.isLoose ha
    have hc := markIn_rBrace k.isLoose hc
    simp only [bracedSpans, bracedSpans_append, hk, List.mem_append, if_true, List.mem_singleton,
      List.not_mem_nil, or_false, leaves, leaves_append] at hspan
    rcases hspan with rfl | hspan | hspan
    · refine ⟨before, inside.marks kindOf k.isLoose, rest.marks kindOf loose ++ after, ?_, rfl, ?_,
        hinside.wellBracketed⟩
      · simp [marks, ha, hc]
      · simp
        omega
    · have hinside := ihInside (before ++ [some (.opens .curly)])
        (some (.closes .curly) :: rest.marks kindOf loose ++ after) (by simpa using hspan)
      simpa [marks, ha, hc] using hinside
    · have hrest := ihRest
        (before ++ (some (.opens .curly) :: inside.marks kindOf k.isLoose ++ [some (.closes .curly)]))
        after (by simpa using hspan)
      simpa [marks, ha, hc] using hrest

/-- The nodes with braces start at the opening braces, one node at each, in the same order. -/
theorem Bracketed.starts_eq_braces (hf : f.Bracketed kindOf loose depth) (start : Nat) :
    (f.bracedSpans start).map Prod.fst =
      f.leaves.findIdxs (fun a => kindOf a = .lBrace) start := by
  induction hf generalizing start with
  | nil => rfl
  | @leaf loose _ a rest ha _ ih =>
    have hbrace : kindOf a ≠ .lBrace := ne_lBrace_of_markIn_ne (by rw [ha]; simp)
    simp [bracedSpans, leaves, hbrace, ih]
  | @pair loose _ b a c inside rest ha hc hb _ _ ihInside ihRest =>
    have hopen : kindOf a ≠ .lBrace := ne_lBrace_of_markIn_ne (by rw [ha]; simpa using hb)
    have hclose : kindOf c ≠ .lBrace := ne_lBrace_of_markIn_ne (by rw [hc]; simp)
    simp [bracedSpans, bracedSpans_append, leaves, hopen, hclose, ihInside, ihRest,
      List.findIdxs_append]
  | plain hk _ _ ihInside ihRest =>
    simp [bracedSpans, leaves, hk, List.findIdxs_append, ihInside, ihRest]
  | braced hk ha hc _ _ ihInside ihRest =>
    simp [bracedSpans, bracedSpans_append, leaves, hk, ha, hc, ihInside, ihRest,
      List.findIdxs_append, Nat.add_assoc, Nat.add_comm 1]

/-- Exactly one node with braces starts at an opening brace. -/
lemma Bracketed.spans_at_brace (hf : f.Bracketed kindOf loose depth) {i : Nat} {a : α}
    (ha : f.leaves[i]? = some a) (hbrace : kindOf a = .lBrace) :
    ∃ j, (f.bracedSpans 0).filter (fun span => span.1 = i) = [(i, j)] := by
  obtain ⟨hi, rfl⟩ := List.getElem?_eq_some_iff.1 ha
  have hmem : i ∈ (f.bracedSpans 0).map Prod.fst := by
    rw [hf.starts_eq_braces]
    exact List.mem_findIdxs_iff_exists_getElem_pos.2 ⟨hi, by simpa using hbrace⟩
  have hnodup : ((f.bracedSpans 0).map Prod.fst).Nodup := by
    rw [hf.starts_eq_braces]
    exact List.nodup_findIdxs
  have hlength : ((f.bracedSpans 0).filter (fun span => span.1 = i)).length = 1 := by
    have hcount := List.count_eq_one_of_mem hnodup hmem
    rwa [List.count, List.countP_map, List.countP_eq_length_filter] at hcount
  obtain ⟨⟨i', j⟩, hspan⟩ := List.length_eq_one_iff.1 hlength
  have hi' : i' = i := by
    have hself : (i', j) ∈ (f.bracedSpans 0).filter (fun span => span.1 = i) := by simp [hspan]
    simpa using (List.mem_filter.1 hself).2
  exact ⟨j, by rw [hspan, hi']⟩

end Forest

end JavaLint
