import JavaLint.Model.Scope
import Mathlib.Data.List.Basic
import Mathlib.Tactic.Common

/-!
# Nested scopes

What it means that the scopes of a file are nested, told twice.

`Nested` tells it along the text: a sequence of tokens is a sequence of single tokens and of
blocks, where a block is an opening token, a nested sequence, and a closing token.  Blocks are
numbered as they open, and every token is noted to lie in the block around it.

The rest of the module reads off what the numbers say.  The intervals of two blocks are apart or one
lies strictly inside the other (`Nested.pairwise`), the block that is noted as the parent of a block
is the smallest one around it (`Nested.parent`), and the block that is noted for a token is the
innermost one that holds it (`Nested.owner`).
-/

namespace JavaLint

namespace Scope

/-- The number of the first token of the scope. -/
def first (s : Scope) : Nat :=
  s.opening.getD 0

/-- The number of the last token of the scope. -/
def last (s : Scope) : Nat :=
  s.closing.getD 0

/-- The token is one from the opening to the closing token of the scope. -/
def Holds (s : Scope) (token : Nat) : Prop :=
  s.first ≤ token ∧ token ≤ s.last

/-- The scope lies between the two braces of the other scope. -/
def Within (s outer : Scope) : Prop :=
  outer.first < s.first ∧ s.last < outer.last

/-- The scope ends before the other scope starts. -/
def Before (s other : Scope) : Prop :=
  s.last < other.first

/-- A scope does not lie within one that starts after it. -/
lemma Within.not_after {s t : Scope} (h : s.Within t) (hs : s.first ≤ s.last) : ¬ s.Before t := by
  intro hbefore
  have hlt : s.last < t.first := hbefore
  have hfirst := h.1
  omega

/-- A scope does not lie within one that ends before it. -/
lemma Within.not_before {s t : Scope} (h : s.Within t) (hs : s.first ≤ s.last) : ¬ t.Before s := by
  intro hbefore
  have hlt : t.last < s.first := hbefore
  have hlast := h.2
  omega

/-- The scope is one of those around something, and lies within all others of them. -/
structure Innermost (Around : Scope → Prop) (scopes : List Scope) (s : Scope) : Prop where
  mem : s ∈ scopes
  around : Around s
  within : ∀ t ∈ scopes, Around t → t = s ∨ s.Within t

/-! A block stands before the scopes in it, and these before the scopes after it. -/

section Block

variable {Around : Scope → Prop} {s p : Scope} {inner rest : List Scope}

/-- What holds of all scopes of a block and after it. -/
lemma forall_mem_block : (∀ t ∈ s :: (inner ++ rest), Around t) ↔
    Around s ∧ (∀ t ∈ inner, Around t) ∧ ∀ t ∈ rest, Around t := by
  rw [List.forall_mem_cons, List.forall_mem_append]

/-- The block itself is the innermost scope if no other one is around. -/
lemma Innermost.block (hs : Around s) (hinner : ∀ t ∈ inner, ¬ Around t)
    (hrest : ∀ t ∈ rest, ¬ Around t) : Innermost Around (s :: (inner ++ rest)) s where
  mem := List.mem_cons_self
  around := hs
  within := forall_mem_block.2
    ⟨fun _ => .inl rfl, fun t ht h => absurd h (hinner t ht), fun t ht h => absurd h (hrest t ht)⟩

/-- The innermost scope of those in the block, where none after the block is around. -/
lemma Innermost.inside (hp : Innermost Around inner p) (hs : p.Within s)
    (hrest : ∀ t ∈ rest, ¬ Around t) : Innermost Around (s :: (inner ++ rest)) p where
  mem := by simp [hp.mem]
  around := hp.around
  within := forall_mem_block.2 ⟨fun _ => .inr hs, hp.within, fun t ht h => absurd h (hrest t ht)⟩

/-- The innermost scope of those after the block, where none of the block is around. -/
lemma Innermost.after (hp : Innermost Around rest p) (hs : ¬ Around s)
    (hinner : ∀ t ∈ inner, ¬ Around t) : Innermost Around (s :: (inner ++ rest)) p where
  mem := by simp [hp.mem]
  around := hp.around
  within := forall_mem_block.2
    ⟨fun h => absurd h hs, fun t ht h => absurd h (hinner t ht), hp.within⟩

end Block

end Scope

open Scope

/-- The scopes that open in a sequence of tokens, and the number of the scope around each token.
The sequence lies directly in the scope `outer`, its blocks have the depth `depth`, its first block
has the number `id`, and its first token has the number `start`. -/
inductive Nested : (outer depth id start : Nat) → List Scope → List Nat → Prop where
  | nil {outer depth id start : Nat} : Nested outer depth id start [] []
  /-- A token that is no brace. -/
  | token {outer depth id start : Nat} {scopes : List Scope} {owners : List Nat} :
    Nested outer depth id (start + 1) scopes owners →
    Nested outer depth id start scopes (outer :: owners)
  /-- A block: a brace, what stands in it, and the other brace. -/
  | block {outer depth id start : Nat} {s : Scope} {inner scopes : List Scope}
      {innerOwners owners : List Nat} :
    s.id = id → s.parent = some outer → s.depth = depth → s.opening = some start →
    s.closing = some (start + 1 + innerOwners.length) →
    Nested id (depth + 1) (id + 1) (start + 1) inner innerOwners →
    Nested outer depth (id + 1 + inner.length) (start + 2 + innerOwners.length) scopes owners →
    Nested outer depth id start (s :: (inner ++ scopes)) (id :: (innerOwners ++ id :: owners))

namespace Nested

variable {outer depth id start : Nat} {scopes : List Scope} {owners : List Nat}

/-- A nested sequence after another one, numbered on from it. -/
lemma append {scopes' : List Scope} {owners' : List Nat}
    (h : Nested outer depth id start scopes owners)
    (h' : Nested outer depth (id + scopes.length) (start + owners.length) scopes' owners') :
    Nested outer depth id start (scopes ++ scopes') (owners ++ owners') := by
  induction h with
  | nil => exact h'
  | @token _ _ _ start _ owners _ ih =>
    rw [List.length_cons, show start + (owners.length + 1) = start + 1 + owners.length by omega] at h'
    exact .token (ih h')
  | @block _ _ id start s inner rest innerOwners owners hid hparent hdepth hopening hclosing hinner
      _ _ ihRest =>
    rw [List.length_cons, List.length_append, List.length_cons, List.length_append,
      List.length_cons,
      show id + (inner.length + rest.length + 1) = id + 1 + inner.length + rest.length by omega,
      show start + (innerOwners.length + (owners.length + 1) + 1) =
        start + 2 + innerOwners.length + owners.length by omega] at h'
    have hblock := block hid hparent hdepth hopening hclosing hinner (ihRest h')
    simpa using hblock

/-- The scopes are numbered in the order in which they open. -/
lemma id_eq (h : Nested outer depth id start scopes owners) {i : Nat} {s : Scope}
    (hs : scopes[i]? = some s) : s.id = id + i := by
  induction h generalizing i with
  | nil => simp at hs
  | token _ ih => exact ih hs
  | @block _ _ _ _ s' inner rest _ _ hid _ _ _ _ _ _ ihInner ihRest =>
    cases i with
    | zero =>
      obtain rfl : s' = s := by simpa using hs
      simpa using hid
    | succ i =>
      rw [List.getElem?_cons_succ] at hs
      by_cases hi : i < inner.length
      · rw [List.getElem?_append_left hi] at hs
        rw [ihInner hs]
        omega
      · rw [List.getElem?_append_right (by omega)] at hs
        rw [ihRest hs]
        omega

/-- Every scope has its two braces among the tokens, the opening one first. -/
lemma bounds (h : Nested outer depth id start scopes owners) {s : Scope} (hs : s ∈ scopes) :
    s.opening = some s.first ∧ s.closing = some s.last ∧ start ≤ s.first ∧ s.first < s.last ∧
      s.last < start + owners.length := by
  induction h with
  | nil => simp at hs
  | token _ ih =>
    obtain ⟨hopening, hclosing, hstart, hlt, hstop⟩ := ih hs
    refine ⟨hopening, hclosing, by omega, hlt, ?_⟩
    rw [List.length_cons]
    omega
  | @block _ _ _ start s' inner rest innerOwners owners _ _ _ hopening hclosing _ _ ihInner ihRest =>
    rw [List.length_cons, List.length_append, List.length_cons]
    rcases List.mem_cons.1 hs with rfl | hs
    · have hfirst : s.first = start := by simp [Scope.first, hopening]
      have hlast : s.last = start + 1 + innerOwners.length := by simp [Scope.last, hclosing]
      rw [hfirst, hlast]
      exact ⟨hopening, hclosing, by omega, by omega, by omega⟩
    · rcases List.mem_append.1 hs with hs | hs
      · obtain ⟨hopening, hclosing, hstart, hlt, hstop⟩ := ihInner hs
        exact ⟨hopening, hclosing, by omega, hlt, by omega⟩
      · obtain ⟨hopening, hclosing, hstart, hlt, hstop⟩ := ihRest hs
        exact ⟨hopening, hclosing, by omega, hlt, by omega⟩

/-- What stands in a block lies within it, and what comes after the block lies after it and after
all that stands in it. -/
lemma of_block {s : Scope} {inner rest : List Scope} {innerOwners owners : List Nat}
    (hopening : s.opening = some start) (hclosing : s.closing = some (start + 1 + innerOwners.length))
    (hinner : Nested id (depth + 1) (id + 1) (start + 1) inner innerOwners)
    (hrest : Nested outer depth (id + 1 + inner.length) (start + 2 + innerOwners.length) rest owners) :
    s.first = start ∧ s.last = start + 1 + innerOwners.length ∧ (∀ t ∈ inner, t.Within s) ∧
      (∀ t ∈ rest, s.Before t) ∧ ∀ t ∈ inner, ∀ u ∈ rest, t.Before u := by
  have hfirst : s.first = start := by simp [Scope.first, hopening]
  have hlast : s.last = start + 1 + innerOwners.length := by simp [Scope.last, hclosing]
  refine ⟨hfirst, hlast, fun t ht => ?_, fun t ht => ?_, fun t ht u hu => ?_⟩
  · obtain ⟨-, -, hstart, -, hstop⟩ := hinner.bounds ht
    exact ⟨by omega, by omega⟩
  · obtain ⟨-, -, hstart, -, -⟩ := hrest.bounds ht
    show s.last < t.first
    omega
  · obtain ⟨-, -, -, -, hstop⟩ := hinner.bounds ht
    obtain ⟨-, -, hstart, -, -⟩ := hrest.bounds hu
    show t.last < u.first
    omega

/-- Of two scopes, the one that opens later lies within the other or after it. -/
theorem pairwise (h : Nested outer depth id start scopes owners) :
    scopes.Pairwise fun s t => t.Within s ∨ s.Before t := by
  induction h with
  | nil => exact .nil
  | token _ ih => exact ih
  | block _ _ _ hopening hclosing hinner hrest ihInner ihRest =>
    obtain ⟨-, -, hwithin, hafter, hbetween⟩ := of_block hopening hclosing hinner hrest
    refine List.pairwise_cons.2 ⟨fun t ht => ?_, List.pairwise_append.2 ⟨ihInner, ihRest, ?_⟩⟩
    · exact (List.mem_append.1 ht).imp (hwithin t) (hafter t)
    · exact fun t ht u hu => .inr (hbetween t ht u hu)

/-- A scope of the sequence opens with a number that is not below that of the first one. -/
lemma le_id (h : Nested outer depth id start scopes owners) {s : Scope} (hs : s ∈ scopes) :
    id ≤ s.id := by
  obtain ⟨i, hi⟩ := List.mem_iff_getElem?.1 hs
  rw [h.id_eq hi]
  omega

/-- The parent of a scope is the smallest scope around it, or the scope around the sequence if none
of the sequence is around it. -/
theorem parent (h : Nested outer depth id start scopes owners) {s : Scope} (hs : s ∈ scopes) :
    (s.parent = some outer ∧ s.depth = depth ∧ ∀ t ∈ scopes, ¬ s.Within t) ∨
    ∃ p, Innermost s.Within scopes p ∧ s.parent = some p.id ∧ s.depth = p.depth + 1 ∧
      p.id < s.id := by
  induction h generalizing s with
  | nil => simp at hs
  | token _ ih => exact ih hs
  | @block _ _ _ _ s' inner rest _ _ hid hparent hdepth hopening hclosing hinner hrest ihInner
      ihRest =>
    obtain ⟨hfirst, hlast, hwithin, hafter, hbetween⟩ := of_block hopening hclosing hinner hrest
    rcases List.mem_cons.1 hs with rfl | hs
    · -- The block itself.
      refine .inl ⟨hparent, hdepth, forall_mem_block.2 ⟨fun hst => ?_, fun t ht hst => ?_,
        fun t ht hst => ?_⟩⟩
      · exact absurd hst.1 (Nat.lt_irrefl _)
      · exact absurd hst.1 (Nat.lt_asymm (hwithin t ht).1)
      · exact hst.not_after (by omega) (hafter t ht)
    · rcases List.mem_append.1 hs with hs | hs
      · -- A scope in the block: the block is around it, and nothing after the block is.
        have hle := Nat.le_of_lt (hinner.bounds hs).2.2.2.1
        have hnot : ∀ t ∈ rest, ¬ s.Within t :=
          fun t ht hst => hst.not_after hle (hbetween s hs t ht)
        right
        rcases ihInner hs with ⟨hparent', hdepth', hnone⟩ | ⟨p, hp, hparent', hdepth', hlt⟩
        · have hle' := hinner.le_id hs
          exact ⟨s', .block (hwithin s hs) hnone hnot, by rw [hparent', hid],
            by rw [hdepth', hdepth], by omega⟩
        · exact ⟨p, hp.inside (hwithin p hp.mem) hnot, hparent', hdepth', hlt⟩
      · -- A scope after the block: nothing of the block is around it.
        have hle := Nat.le_of_lt (hrest.bounds hs).2.2.2.1
        have hnot : ¬ s.Within s' := fun hst => hst.not_before hle (hafter s hs)
        have hnot' : ∀ t ∈ inner, ¬ s.Within t :=
          fun t ht hst => hst.not_before hle (hbetween t ht s hs)
        rcases ihRest hs with ⟨hparent', hdepth', hnone⟩ | ⟨p, hp, hparent', hdepth', hlt⟩
        · exact .inl ⟨hparent', hdepth', forall_mem_block.2 ⟨hnot, hnot', hnone⟩⟩
        · exact .inr ⟨p, hp.after hnot hnot', hparent', hdepth', hlt⟩

/-- What is noted for a token of a block and of what comes after it: the number of the block for its
two braces, and what is noted in the two sequences for their tokens. -/
lemma getElem?_block {innerOwners : List Nat} {n o : Nat}
    (ho : (id :: (innerOwners ++ id :: owners))[n]? = some o) :
    (o = id ∧ (n = 0 ∨ n = innerOwners.length + 1)) ∨
    (∃ m, n = m + 1 ∧ m < innerOwners.length ∧ innerOwners[m]? = some o) ∨
    ∃ m, n = innerOwners.length + 2 + m ∧ owners[m]? = some o := by
  cases n with
  | zero => exact .inl ⟨by simpa using ho.symm, .inl rfl⟩
  | succ n =>
    rw [List.getElem?_cons_succ] at ho
    rcases Nat.lt_trichotomy n innerOwners.length with hn | rfl | hn
    · rw [List.getElem?_append_left hn] at ho
      exact .inr (.inl ⟨n, rfl, hn, ho⟩)
    · exact .inl ⟨by simpa using ho.symm, .inr rfl⟩
    · obtain ⟨m, rfl⟩ : ∃ m, n = innerOwners.length + (m + 1) :=
        ⟨n - (innerOwners.length + 1), by omega⟩
      rw [List.getElem?_append_right (by omega), Nat.add_sub_cancel_left,
        List.getElem?_cons_succ] at ho
      exact .inr (.inr ⟨m, by omega, ho⟩)

/-- The scope that is noted for a token is the innermost one that holds it, or the scope around the
sequence if none of the sequence holds it. -/
theorem owner (h : Nested outer depth id start scopes owners) {n o : Nat}
    (ho : owners[n]? = some o) :
    (o = outer ∧ ∀ t ∈ scopes, ¬ t.Holds (start + n)) ∨
    ∃ s, Innermost (fun t => t.Holds (start + n)) scopes s ∧ o = s.id := by
  induction h generalizing n with
  | nil => simp at ho
  | @token _ _ _ start _ _ hrest ih =>
    cases n with
    | zero =>
      refine .inl ⟨by simpa using ho.symm, fun t ht hholds => ?_⟩
      have hstart := (hrest.bounds ht).2.2.1
      have hfirst := hholds.1
      omega
    | succ n =>
      rw [show start + (n + 1) = start + 1 + n by omega]
      exact ih (by simpa using ho)
  | @block _ _ _ start s' inner rest innerOwners _ hid _ _ hopening hclosing hinner hrest ihInner
      ihRest =>
    obtain ⟨hfirst, hlast, hwithin, -, -⟩ := of_block hopening hclosing hinner hrest
    -- Where the token stands says which of the scopes cannot hold it.
    have hnotInner : ∀ t ∈ inner, n = 0 ∨ innerOwners.length < n → ¬ t.Holds (start + n) := by
      intro t ht hn hholds
      obtain ⟨-, -, hstart, -, hstop⟩ := hinner.bounds ht
      have hholdsFirst := hholds.1
      have hholdsLast := hholds.2
      omega
    have hnotRest : ∀ t ∈ rest, n < innerOwners.length + 2 → ¬ t.Holds (start + n) := by
      intro t ht hn hholds
      have hstart := (hrest.bounds ht).2.2.1
      have hholdsFirst := hholds.1
      omega
    rcases getElem?_block ho with ⟨rfl, hn⟩ | ⟨m, rfl, hm, hinside⟩ | ⟨m, rfl, hbehind⟩
    · -- A brace of the block.
      exact .inr ⟨s', .block ⟨by omega, by omega⟩ (fun t ht => hnotInner t ht (by omega))
        fun t ht => hnotRest t ht (by omega), hid.symm⟩
    · -- A token in the block.
      have hself : s'.Holds (start + (m + 1)) := ⟨by omega, by omega⟩
      have hnot := fun t ht => hnotRest t ht (by omega)
      right
      rcases ihInner hinside with ⟨rfl, hnone⟩ | ⟨s, hs, hsid⟩
      · rw [show start + 1 + m = start + (m + 1) by omega] at hnone
        exact ⟨s', .block hself hnone hnot, hid.symm⟩
      · rw [show start + 1 + m = start + (m + 1) by omega] at hs
        exact ⟨s, hs.inside (hwithin s hs.mem) hnot, hsid⟩
    · -- A token after the block.
      have hself : ¬ s'.Holds (start + (innerOwners.length + 2 + m)) := by
        intro hholds
        have hholdsLast := hholds.2
        omega
      have hnot := fun t ht => hnotInner t ht (by omega)
      rw [show start + (innerOwners.length + 2 + m) = start + 2 + innerOwners.length + m by omega]
        at hself hnot ⊢
      rcases ihRest hbehind with ⟨houter, hnone⟩ | ⟨s, hs, hsid⟩
      · exact .inl ⟨houter, forall_mem_block.2 ⟨hself, hnot, hnone⟩⟩
      · exact .inr ⟨s, hs.after hself hnot, hsid⟩

end Nested

end JavaLint
