import JavaLint.Proofs.Grammar.Java
import Mathlib.Tactic.Common

/-!
# Chains of rules that are cut off

Fuel bounds the length of chains of rules.  A reading that does not stop because a chain was cut off
comes to the same result with more fuel (`Form.read_eq_of_finishes`, `readRule_eq_of_finishes`).

For the grammar of Java files the fuel that `fuelFor` gives is enough, whichever part of a file is read
and wherever (`Rule.read_finishes_of_le`).  So reading a part comes to one result, which `Rule.outcome`
names, and with less fuel it either comes to the same result or is cut off
(`Rule.read_eq_outcome_or_cut`).
-/

namespace JavaLint

namespace Form

variable {ρ : Type} {follow follow' : ρ → Reader}

/-- If reading a form finishes, then it does the same with rules that agree wherever they finish. -/
lemma read_eq_of_finishes
    (hfollow : ∀ rule room ks, Finishes (follow rule room ks) →
      follow' rule room ks = follow rule room ks)
    (form : Form ρ) {room : Nat} {ks : List Kind} (hfinish : Finishes (form.read follow room ks)) :
    form.read follow' room ks = form.read follow room ks := by
  induction form generalizing room ks with
  | empty => rfl
  | fail what => rfl
  | take => cases ks <;> rfl
  | call rule => exact hfollow rule room ks hfinish
  | seq a b iha ihb =>
    have ha : Finishes (a.read follow room ks) := fun left hstop =>
      hfinish left (read_seq_eq_error.2 (.inl hstop))
    rw [read_seq, read_seq, iha ha]
    cases hfirst : a.read follow room ks with
    | error stop => rfl
    | ok result =>
      obtain ⟨f, ks'⟩ := result
      have hb : Finishes (b.read follow room ks') := fun left hstop =>
        hfinish left (read_seq_eq_error.2 (.inr ⟨f, ks', hfirst, hstop⟩))
      simp only [ihb hb]
  | node k a ih =>
    have ha : Finishes (a.read follow room ks) := fun left hstop =>
      hfinish left (read_node_eq_error.2 hstop)
    rw [read_node, read_node, ih ha]
  | adopt a b iha ihb =>
    have ha : Finishes (a.read follow room ks) := fun left hstop =>
      hfinish left (read_adopt_eq_error.2 (.inl hstop))
    rw [read_adopt, read_adopt, iha ha]
    cases hfirst : a.read follow room ks with
    | error stop => rfl
    | ok result =>
      obtain ⟨f, ks'⟩ := result
      have hb : Finishes (b.read follow room ks') := fun left hstop =>
        hfinish left (read_adopt_eq_error.2 (.inr ⟨f, ks', hfirst, hstop⟩))
      simp only [ihb hb]
  | nest a ih =>
    cases room with
    | zero => rfl
    | succ room => exact ih hfinish
  | look choose ih => exact ih ks hfinish

end Form

/-- A rule that finishes comes to the same result with more fuel. -/
theorem readRule_eq_of_finishes {ρ : Type} (grammar : ρ → Form ρ) {fuel fuel' : Nat}
    (hle : fuel ≤ fuel') (rule : ρ) (room : Nat) (ks : List Kind)
    (hfinish : Form.Finishes (readRule grammar fuel rule room ks)) :
    readRule grammar fuel' rule room ks = readRule grammar fuel rule room ks := by
  induction fuel generalizing fuel' rule room ks with
  | zero => exact absurd rfl (hfinish ks.length)
  | succ fuel ih =>
    obtain ⟨fuel', rfl⟩ : ∃ n, fuel' = n + 1 := ⟨fuel' - 1, by omega⟩
    exact Form.read_eq_of_finishes (ih (Nat.le_of_succ_le_succ hle)) (grammar rule) hfinish

namespace Rule

open Form

variable (part : Part) (room : Nat) (ks : List Kind)

/-- No part of a file is cut off where there is fuel for all words. -/
lemma read_finishes_of_le {fuel : Nat} (hfuel : fuelFor ks.length ≤ fuel) :
    Finishes (part.read (readRule form fuel) room ks) := by
  refine read_finishes rank_lt (readRule_isMoving form_movesAt fuel) ?_ part hfuel
    (callsBelow_of_rank_lt rank_lt part ks)
  intro rule room ks hfuel
  exact readRule_finishes rank_lt form_movesAt form_callsBelow fuel rule room ks hfuel

/-- What reading a part of a file comes to, if no chain of rules is cut off. -/
def outcome : Except Stop (Shape × List Kind) :=
  part.read (readRule form (fuelFor ks.length)) room ks

/-- The outcome of reading a part is no cut. -/
lemma outcome_finishes : Finishes (outcome part room ks) :=
  read_finishes_of_le part room ks (Nat.le_refl _)

/-- A part that is not cut off comes to its outcome, however much fuel there is. -/
lemma read_eq_outcome {fuel : Nat} (hfinish : Finishes (part.read (readRule form fuel) room ks)) :
    part.read (readRule form fuel) room ks = outcome part room ks := by
  rcases Nat.le_total fuel (fuelFor ks.length) with hle | hle
  · exact (read_eq_of_finishes (readRule_eq_of_finishes form hle) part hfinish).symm
  · exact read_eq_of_finishes (readRule_eq_of_finishes form hle) part (outcome_finishes part room ks)

/-- Reading a part comes to its outcome, or is cut off for lack of fuel. -/
lemma read_eq_outcome_or_cut (fuel : Nat) :
    part.read (readRule form fuel) room ks = outcome part room ks ∨
      fuel < fuelFor ks.length ∧
        ∃ left, part.read (readRule form fuel) room ks = .error ⟨.unfinished, left⟩ := by
  by_cases hfinish : Finishes (part.read (readRule form fuel) room ks)
  · exact .inl (read_eq_outcome part room ks hfinish)
  · refine .inr ⟨?_, ?_⟩
    · by_contra hfuel
      exact hfinish (read_finishes_of_le part room ks (Nat.le_of_not_lt hfuel))
    · simpa [Finishes] using hfinish

end Rule

end JavaLint
