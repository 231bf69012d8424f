import JavaLint.Proofs.Grammar.Read
import Mathlib.Tactic.Common

/-!
# Progress of forms

Conditions on forms, stated along the form and without reading, that say how reading gets on.

* `MovesAt` is a condition under which a form uses up a word (`readRule_isMoving`).
* `CallsBelow` bounds the rules that a form calls before a word is used up.  A grammar whose rules
  can be ranked in this way never runs out of fuel (`readRule_finishes`).
* `NodesMoveAt` is a condition under which no node of the shape is empty (`readRule_nodesFull`).

All three look at the words to come only where the form itself does.  `moves` says for each rule
before which words it is known to use up a word.
-/

namespace JavaLint

/-- Every node of the forest has a leaf in it. -/
def Forest.NodesFull {α : Type} : Forest α → Prop
  | .nil => True
  | .leaf _ rest => rest.NodesFull
  | .node _ inside rest => inside.leaves ≠ [] ∧ inside.NodesFull ∧ rest.NodesFull

/-- The nodes of two sequences are full if those of both are. -/
lemma Forest.NodesFull.append {α : Type} {f g : Forest α} (hf : f.NodesFull) (hg : g.NodesFull) :
    (f ++ g).NodesFull := by
  induction f with
  | nil => exact hg
  | leaf a rest ih => exact ih hf
  | node k inside rest _ ih => exact ⟨hf.1, hf.2.1, ih hf.2.2⟩

/-- Adoption leaves no node empty. -/
lemma Forest.NodesFull.adopt {α : Type} {f g : Forest α} (hf : f.NodesFull) (hg : g.NodesFull) :
    (f.adopt g).NodesFull := by
  cases g with
  | nil => exact hf.append hg
  | leaf a rest => exact hf.append hg
  | node k inside rest =>
    obtain ⟨hinside, hfull, hrest⟩ := hg
    refine ⟨?_, hf.append hfull, hrest⟩
    rw [Forest.leaves_append]
    exact List.append_ne_nil_of_right_ne_nil _ hinside

namespace Form

variable {ρ : Type} {follow : ρ → Reader} {moves : ρ → List Kind → Prop} {rank : ρ → Nat}

/-! ## Using up a word -/

/-- The form uses up a word, or fails, where it is read before the given words. -/
def MovesAt (moves : ρ → List Kind → Prop) : Form ρ → List Kind → Prop
  | empty, _ => False
  | fail _, _ => True
  | take, _ => True
  | call rule, ks => moves rule ks
  | seq a b, ks => a.MovesAt moves ks ∨ b.MovesAt moves ks
  | node _ a, ks => a.MovesAt moves ks
  | adopt a b, ks => a.MovesAt moves ks ∨ b.MovesAt moves ks
  | nest a, ks => a.MovesAt moves ks
  | look choose, ks => (choose ks).MovesAt moves ks

/-- The rules use up a word where they are said to, and lose none. -/
structure IsMoving (follow : ρ → Reader) (moves : ρ → List Kind → Prop) : Prop where
  lossless : ∀ rule, IsLossless (follow rule)
  length_lt : ∀ rule room ks f ks', follow rule room ks = .ok (f, ks') → moves rule ks →
    ks'.length < ks.length

/-- Two parts use up a word if one of them does. -/
lemma length_lt_of_parts (hfollow : IsMoving follow moves) {a b : Form ρ} {room : Nat}
    {ks ks₁ ks₂ : List Kind} {f g : Shape} (ha : a.read follow room ks = .ok (f, ks₁))
    (hb : b.read follow room ks₁ = .ok (g, ks₂))
    (hmove : ks₁.length < ks.length ∨ (ks₁ = ks → ks₂.length < ks₁.length)) :
    ks₂.length < ks.length := by
  have hle := (read_lossless hfollow.lossless b).length_le hb
  rcases (read_lossless hfollow.lossless a).eq_or_length_lt ha with heq | hlt
  · rcases hmove with hlt | hmove
    · omega
    · rw [← heq]
      exact hmove heq
  · omega

/-- A form that moves uses up a word, if the rules that it calls do. -/
lemma read_moves (hfollow : IsMoving follow moves) (form : Form ρ) {room : Nat}
    {ks ks' : List Kind} {f : Shape} (hread : form.read follow room ks = .ok (f, ks'))
    (hmove : form.MovesAt moves ks) : ks'.length < ks.length := by
  induction form generalizing room ks f ks' with
  | empty => exact hmove.elim
  | fail what => simp [read] at hread
  | take =>
    obtain ⟨k, rfl, -⟩ := read_take_eq_ok.1 hread
    simp
  | call rule =>
    rw [read] at hread
    exact hfollow.length_lt rule room ks f ks' hread hmove
  | seq a b iha ihb =>
    obtain ⟨g, ks₁, h, ha, hb, rfl⟩ := read_seq_eq_ok.1 hread
    refine length_lt_of_parts hfollow ha hb (hmove.imp (iha ha) fun hm heq => ?_)
    exact ihb hb (heq ▸ hm)
  | node k a ih =>
    obtain ⟨g, ha, rfl⟩ := read_node_eq_ok.1 hread
    exact ih ha hmove
  | adopt a b iha ihb =>
    obtain ⟨g, ks₁, h, ha, hb, rfl⟩ := read_adopt_eq_ok.1 hread
    refine length_lt_of_parts hfollow ha hb (hmove.imp (iha ha) fun hm heq => ?_)
    exact ihb hb (heq ▸ hm)
  | nest a ih =>
    obtain ⟨room', rfl, ha⟩ := read_nest_eq_ok.1 hread
    exact ih ha hmove
  | look choose ih =>
    rw [read] at hread
    exact ih ks hread hmove

/-! ## Staying within the fuel -/

/-- Every rule that the form calls before a word is used up has a rank below `n`. -/
def CallsBelow (moves : ρ → List Kind → Prop) (rank : ρ → Nat) (n : Nat) :
    Form ρ → List Kind → Prop
  | empty, _ => True
  | fail _, _ => True
  | take, _ => True
  | call rule, _ => rank rule < n
  | seq a b, ks =>
    a.CallsBelow moves rank n ks ∧ (a.MovesAt moves ks ∨ b.CallsBelow moves rank n ks)
  | node _ a, ks => a.CallsBelow moves rank n ks
  | adopt a b, ks =>
    a.CallsBelow moves rank n ks ∧ (a.MovesAt moves ks ∨ b.CallsBelow moves rank n ks)
  | nest a, ks => a.CallsBelow moves rank n ks
  | look choose, ks => (choose ks).CallsBelow moves rank n ks

/-- A bound on all ranks is a bound on those of the rules that a form calls. -/
lemma callsBelow_of_rank_lt {n : Nat} (h : ∀ rule, rank rule < n) (form : Form ρ)
    (ks : List Kind) : form.CallsBelow moves rank n ks := by
  induction form generalizing ks with
  | empty => trivial
  | fail what => trivial
  | take => trivial
  | call rule => exact h rule
  | seq a b iha ihb => exact ⟨iha ks, .inr (ihb ks)⟩
  | node k a ih => exact ih ks
  | adopt a b iha ihb => exact ⟨iha ks, .inr (ihb ks)⟩
  | nest a ih => exact ih ks
  | look choose ih => exact ih ks ks

/-- Reading does not stop for lack of fuel. -/
def Finishes (result : Except Stop (Shape × List Kind)) : Prop :=
  ∀ left, result ≠ .error ⟨.unfinished, left⟩

/-- The second of two parts has fuel enough: either the first has used up a word, which pays for
calls of any rank, or the calls of the second are bounded like those of the first. -/
lemma finishes_second {height fuel n : Nat} (hheight : ∀ rule, rank rule < height)
    (hfollow : IsMoving follow moves) {a b : Form ρ} {room : Nat} {ks ks' : List Kind} {f : Shape}
    (hfuel : height * ks.length + n ≤ fuel) (ha : a.read follow room ks = .ok (f, ks'))
    (hcalls : a.MovesAt moves ks ∨ b.CallsBelow moves rank n ks)
    (ih : ∀ {m : Nat} {ks' : List Kind}, height * ks'.length + m ≤ fuel →
      b.CallsBelow moves rank m ks' → Finishes (b.read follow room ks')) :
    Finishes (b.read follow room ks') := by
  have hstay : ks'.length < ks.length → Finishes (b.read follow room ks') := by
    intro hlt
    refine ih (m := height) ?_ (callsBelow_of_rank_lt hheight b ks')
    have hpay : height * (ks'.length + 1) ≤ height * ks.length := Nat.mul_le_mul_left _ hlt
    rw [Nat.mul_add, Nat.mul_one] at hpay
    omega
  rcases (read_lossless hfollow.lossless a).eq_or_length_lt ha with heq | hlt
  · rcases hcalls with hmove | hcalls
    · exact hstay (read_moves hfollow a ha hmove)
    · rw [heq]
      exact ih hfuel hcalls
  · exact hstay hlt

/-- Reading a form finishes, if following the rules finishes within the fuel. -/
lemma read_finishes {height fuel : Nat} (hheight : ∀ rule, rank rule < height)
    (hfollow : IsMoving follow moves)
    (hfinish : ∀ rule room ks, height * ks.length + rank rule < fuel →
      Finishes (follow rule room ks))
    (form : Form ρ) {n room : Nat} {ks : List Kind} (hfuel : height * ks.length + n ≤ fuel)
    (hcalls : form.CallsBelow moves rank n ks) : Finishes (form.read follow room ks) := by
  induction form generalizing n room ks with
  | empty => simp [Finishes, read]
  | fail what => simp [Finishes, read]
  | take => cases ks <;> simp [Finishes, read]
  | call rule =>
    rw [read]
    have hrank : rank rule < n := hcalls
    exact hfinish rule room ks (by omega)
  | seq a b iha ihb =>
    intro left hread
    rcases read_seq_eq_error.1 hread with ha | ⟨g, ks', ha, hb⟩
    · exact iha hfuel hcalls.1 left ha
    · exact finishes_second hheight hfollow hfuel ha hcalls.2 ihb left hb
  | node k a ih =>
    intro left hread
    exact ih hfuel hcalls left (read_node_eq_error.1 hread)
  | adopt a b iha ihb =>
    intro left hread
    rcases read_adopt_eq_error.1 hread with ha | ⟨g, ks', ha, hb⟩
    · exact iha hfuel hcalls.1 left ha
    · exact finishes_second hheight hfollow hfuel ha hcalls.2 ihb left hb
  | nest a ih =>
    cases room with
    | zero => simp [Finishes, read]
    | succ room => exact ih hfuel hcalls
  | look choose ih =>
    rw [read]
    exact ih ks hfuel hcalls

/-! ## Nodes with words in them -/

/-- Every node of the form uses up a word.  Before which words the later parts are read is not
known. -/
def NodesMoveAt (moves : ρ → List Kind → Prop) : Form ρ → List Kind → Prop
  | empty, _ => True
  | fail _, _ => True
  | take, _ => True
  | call _, _ => True
  | seq a b, ks => a.NodesMoveAt moves ks ∧ ∀ ks', b.NodesMoveAt moves ks'
  | node _ a, ks => a.MovesAt moves ks ∧ a.NodesMoveAt moves ks
  | adopt a b, ks => a.NodesMoveAt moves ks ∧ ∀ ks', b.NodesMoveAt moves ks'
  | nest a, ks => a.NodesMoveAt moves ks
  | look choose, ks => (choose ks).NodesMoveAt moves ks

/-- No node is empty in what a form reads, if none is in what the rules read. -/
lemma read_nodesFull (hfollow : IsMoving follow moves)
    (hfull : ∀ rule room ks f ks', follow rule room ks = .ok (f, ks') → f.NodesFull)
    (form : Form ρ) {room : Nat} {ks ks' : List Kind} {f : Shape}
    (hread : form.read follow room ks = .ok (f, ks')) (hnodes : form.NodesMoveAt moves ks) :
    f.NodesFull := by
  induction form generalizing room ks f ks' with
  | empty =>
    obtain ⟨rfl, -⟩ : Forest.nil = f ∧ ks = ks' := by simpa [read] using hread
    trivial
  | fail what => simp [read] at hread
  | take =>
    obtain ⟨k, -, rfl⟩ := read_take_eq_ok.1 hread
    trivial
  | call rule =>
    rw [read] at hread
    exact hfull rule room ks f ks' hread
  | seq a b iha ihb =>
    obtain ⟨g, ks₁, h, ha, hb, rfl⟩ := read_seq_eq_ok.1 hread
    exact (iha ha hnodes.1).append (ihb hb (hnodes.2 ks₁))
  | node k a ih =>
    obtain ⟨g, ha, rfl⟩ := read_node_eq_ok.1 hread
    have hlt := read_moves hfollow a ha hnodes.1
    have hleaves := read_lossless hfollow.lossless a room ks g ks' ha
    refine ⟨?_, ih ha hnodes.2, trivial⟩
    intro hempty
    rw [hempty, List.nil_append] at hleaves
    rw [hleaves] at hlt
    exact Nat.lt_irrefl _ hlt
  | adopt a b iha ihb =>
    obtain ⟨g, ks₁, h, ha, hb, rfl⟩ := read_adopt_eq_ok.1 hread
    exact (iha ha hnodes.1).adopt (ihb hb (hnodes.2 ks₁))
  | nest a ih =>
    obtain ⟨room', rfl, ha⟩ := read_nest_eq_ok.1 hread
    exact ih ha hnodes
  | look choose ih =>
    rw [read] at hread
    exact ih ks hread hnodes

/-! ## The conditions on common forms -/

@[simp] lemma movesAt_append (a b : Form ρ) (ks : List Kind) :
    (a ++ b).MovesAt moves ks ↔ a.MovesAt moves ks ∨ b.MovesAt moves ks := Iff.rfl

@[simp] lemma movesAt_ite (test : List Kind → Bool) (a b : Form ρ) (ks : List Kind) :
    (ite test a b).MovesAt moves ks ↔
      if test ks then a.MovesAt moves ks else b.MovesAt moves ks := by
  rw [ite, MovesAt]
  split <;> rfl

@[simp] lemma movesAt_opt (test : List Kind → Bool) (a : Form ρ) (ks : List Kind) :
    (opt test a).MovesAt moves ks ↔ test ks = true ∧ a.MovesAt moves ks := by
  rw [opt, movesAt_ite]
  split <;> simp [*, MovesAt]

@[simp] lemma movesAt_expect (kind : Kind) (what : String) (ks : List Kind) :
    (expect kind what : Form ρ).MovesAt moves ks := by
  rw [expect, movesAt_ite]
  split <;> trivial

@[simp] lemma movesAt_if (p : Prop) [Decidable p] (a b : Form ρ) (ks : List Kind) :
    (if p then a else b).MovesAt moves ks ↔
      if p then a.MovesAt moves ks else b.MovesAt moves ks := by
  split <;> rfl

@[simp] lemma callsBelow_append (n : Nat) (a b : Form ρ) (ks : List Kind) :
    (a ++ b).CallsBelow moves rank n ks ↔
      a.CallsBelow moves rank n ks ∧ (a.MovesAt moves ks ∨ b.CallsBelow moves rank n ks) := Iff.rfl

@[simp] lemma callsBelow_ite (n : Nat) (test : List Kind → Bool) (a b : Form ρ) (ks : List Kind) :
    (ite test a b).CallsBelow moves rank n ks ↔
      if test ks then a.CallsBelow moves rank n ks else b.CallsBelow moves rank n ks := by
  rw [ite, CallsBelow]
  split <;> rfl

@[simp] lemma callsBelow_opt (n : Nat) (test : List Kind → Bool) (a : Form ρ) (ks : List Kind) :
    (opt test a).CallsBelow moves rank n ks ↔
      (test ks = true → a.CallsBelow moves rank n ks) := by
  rw [opt, callsBelow_ite]
  split <;> simp [*, CallsBelow]

@[simp] lemma callsBelow_expect (n : Nat) (kind : Kind) (what : String) (ks : List Kind) :
    (expect kind what : Form ρ).CallsBelow moves rank n ks := by
  rw [expect, callsBelow_ite]
  split <;> trivial

@[simp] lemma callsBelow_eat (n : Nat) (kind : Kind) (ks : List Kind) :
    (eat kind : Form ρ).CallsBelow moves rank n ks := by
  rw [eat, callsBelow_opt]
  exact fun _ => trivial

@[simp] lemma callsBelow_if (n : Nat) (p : Prop) [Decidable p] (a b : Form ρ) (ks : List Kind) :
    (if p then a else b).CallsBelow moves rank n ks ↔
      if p then a.CallsBelow moves rank n ks else b.CallsBelow moves rank n ks := by
  split <;> rfl

@[simp] lemma nodesMoveAt_append (a b : Form ρ) (ks : List Kind) :
    (a ++ b).NodesMoveAt moves ks ↔
      a.NodesMoveAt moves ks ∧ ∀ ks', b.NodesMoveAt moves ks' := Iff.rfl

@[simp] lemma nodesMoveAt_ite (test : List Kind → Bool) (a b : Form ρ) (ks : List Kind) :
    (ite test a b).NodesMoveAt moves ks ↔
      if test ks then a.NodesMoveAt moves ks else b.NodesMoveAt moves ks := by
  rw [ite, NodesMoveAt]
  split <;> rfl

@[simp] lemma nodesMoveAt_opt (test : List Kind → Bool) (a : Form ρ) (ks : List Kind) :
    (opt test a).NodesMoveAt moves ks ↔ (test ks = true → a.NodesMoveAt moves ks) := by
  rw [opt, nodesMoveAt_ite]
  split <;> simp [*, NodesMoveAt]

@[simp] lemma nodesMoveAt_expect (kind : Kind) (what : String) (ks : List Kind) :
    (expect kind what : Form ρ).NodesMoveAt moves ks := by
  rw [expect, nodesMoveAt_ite]
  split <;> trivial

@[simp] lemma nodesMoveAt_eat (kind : Kind) (ks : List Kind) :
    (eat kind : Form ρ).NodesMoveAt moves ks := by
  rw [eat, nodesMoveAt_opt]
  exact fun _ => trivial

@[simp] lemma nodesMoveAt_if (p : Prop) [Decidable p] (a b : Form ρ) (ks : List Kind) :
    (if p then a else b).NodesMoveAt moves ks ↔
      if p then a.NodesMoveAt moves ks else b.NodesMoveAt moves ks := by
  split <;> rfl

end Form

/-! ## Grammars -/

section Grammar

variable {ρ : Type} {grammar : ρ → Form ρ} {moves : ρ → List Kind → Prop} {rank : ρ → Nat}

/-- The rules of a grammar use up words where their forms do. -/
theorem readRule_isMoving
    (hmoves : ∀ rule ks, moves rule ks → (grammar rule).MovesAt moves ks) (fuel : Nat) :
    Form.IsMoving (readRule grammar fuel) moves := by
  induction fuel with
  | zero =>
    refine ⟨readRule_lossless grammar 0, ?_⟩
    intro rule room ks f ks' hread
    simp [readRule] at hread
  | succ fuel ih =>
    refine ⟨readRule_lossless grammar (fuel + 1), ?_⟩
    intro rule room ks f ks' hread hmove
    exact Form.read_moves ih (grammar rule) hread (hmoves rule ks hmove)

/-- A grammar does not run out of fuel, if the rules that a rule calls before a word is used up
have lower ranks, and there is fuel for one chain of ranks for each word. -/
theorem readRule_finishes {height : Nat} (hheight : ∀ rule, rank rule < height)
    (hmoves : ∀ rule ks, moves rule ks → (grammar rule).MovesAt moves ks)
    (hcalls : ∀ rule ks, (grammar rule).CallsBelow moves rank (rank rule) ks)
    (fuel : Nat) (rule : ρ) (room : Nat) (ks : List Kind)
    (hfuel : height * ks.length + rank rule < fuel) :
    Form.Finishes (readRule grammar fuel rule room ks) := by
  induction fuel generalizing rule room ks with
  | zero => omega
  | succ fuel ih =>
    exact Form.read_finishes hheight (readRule_isMoving hmoves fuel) ih (grammar rule)
      (by omega) (hcalls rule ks)

/-- No node is empty in what a grammar reads, if every node of its forms uses up a word. -/
theorem readRule_nodesFull
    (hmoves : ∀ rule ks, moves rule ks → (grammar rule).MovesAt moves ks)
    (hnodes : ∀ rule ks, (grammar rule).NodesMoveAt moves ks)
    (fuel : Nat) (rule : ρ) (room : Nat) (ks : List Kind) {f : Shape} {ks' : List Kind}
    (hread : readRule grammar fuel rule room ks = .ok (f, ks')) : f.NodesFull := by
  induction fuel generalizing rule room ks f ks' with
  | zero => simp [readRule] at hread
  | succ fuel ih =>
    exact Form.read_nodesFull (readRule_isMoving hmoves fuel)
      (fun rule room ks f ks' hread => ih rule room ks hread) (grammar rule) hread (hnodes rule ks)

end Grammar

end JavaLint
