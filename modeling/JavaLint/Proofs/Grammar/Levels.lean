import JavaLint.Proofs.Grammar.Read
import JavaLint.Proofs.Tree.Brackets
import Mathlib.Tactic.Common

/-!
# Brackets in what a grammar reads

A small machine reads the words directly in a node and keeps the brackets that are open
(`Level.step`, `Forest.run`).  A shape is levelled if the machine accepts the inside of each of its
nodes, and such a shape is bracketed (`bracketed_of_run`).

`Form.Leads` is a condition on a form, stated along the form and without reading, under which the
machine accepts what the form reads.  It runs the machine on the form itself: before each word it
knows the words to come and the brackets that are open.  A rule that is called is known by its
contract alone, which says before which words the rule may be called and which words it leaves.
A grammar whose rules keep their contracts reads levelled shapes only (`readRule_obeys`).
-/

namespace JavaLint

/-! ## The machine -/

/-- How far the reading of the words directly in a node has come. -/
inductive Level where
  /-- The opening brace is still to come. -/
  | before
  /-- These round and square brackets are open, the innermost one first. -/
  | within (opened : List Bracket)
  /-- The closing brace has been read. -/
  | after
deriving DecidableEq, Repr

namespace Level

/-- Reads one word, given by the bracket that it is. -/
def step : Level → Option Mark → Option Level
  | before, some (.opens .curly) => some (within [])
  | within s, none => some (within s)
  | within s, some (.opens .round) => some (within (.round :: s))
  | within s, some (.opens .square) => some (within (.square :: s))
  | within [], some (.closes .curly) => some after
  | within (.round :: s), some (.closes .round) => some (within s)
  | within (.square :: s), some (.closes .square) => some (within s)
  | _, _ => none

/-- Where the reading of the inside of a node starts. -/
def first (k : NodeKind) : Level :=
  if k.isBraced then before else within []

/-- Where the reading of the inside of a node has to end. -/
def last (k : NodeKind) : Level :=
  if k.isBraced then after else within []

/-- Nodes may stand here. -/
def IsWithin : Level → Prop
  | within _ => True
  | _ => False

/-- The machine has read a word, and the goal holds of the level that it has come to. -/
def Reached (level? : Option Level) (goal : Level → Prop) : Prop :=
  match level? with
  | some level => goal level
  | none => False

/-- What holds of the level waits until the level is known. -/
@[congr] lemma reached_congr {level? level?' : Option Level} {goal : Level → Prop}
    (h : level? = level?') : Reached level? goal ↔ Reached level?' goal := by
  rw [h]

@[simp ↓] lemma reached_some {level : Level} {goal : Level → Prop} :
    Reached (some level) goal ↔ goal level := Iff.rfl

/-- A word that is no bracket changes nothing. -/
@[simp] alias step_within_none := step.eq_2

@[simp] lemma step_opens_round (s : List Bracket) :
    (within s).step (some (.opens .round)) = some (within (.round :: s)) := rfl

@[simp] lemma step_opens_square (s : List Bracket) :
    (within s).step (some (.opens .square)) = some (within (.square :: s)) := rfl

@[simp] lemma step_closes_round (s : List Bracket) :
    (within (.round :: s)).step (some (.closes .round)) = some (within s) := rfl

@[simp] lemma step_closes_square (s : List Bracket) :
    (within (.square :: s)).step (some (.closes .square)) = some (within s) := rfl

@[simp] lemma step_opens_curly : before.step (some (.opens .curly)) = some (within []) := rfl

@[simp] lemma step_closes_curly : (within []).step (some (.closes .curly)) = some after := rfl

/-- A round or square bracket is opened. -/
lemma step_opens {b : Bracket} (hb : b ≠ .curly) (s : List Bracket) :
    (within s).step (some (.opens b)) = some (within (b :: s)) := by
  cases b <;> simp_all [step]

/-- The innermost round or square bracket is closed. -/
lemma step_closes {b : Bracket} (hb : b ≠ .curly) (s : List Bracket) :
    (within (b :: s)).step (some (.closes b)) = some (within s) := by
  cases b <;> simp_all [step]

/-- What one word does between the braces, or where there are none. -/
lemma step_within_cases {s : List Bracket} {m : Option Mark} {level : Level}
    (h : (within s).step m = some level) :
    (m = none ∧ level = within s) ∨
    (∃ b, b ≠ .curly ∧ m = some (.opens b) ∧ level = within (b :: s)) ∨
    (∃ b s', b ≠ .curly ∧ m = some (.closes b) ∧ s = b :: s' ∧ level = within s') ∨
    (s = [] ∧ m = some (.closes .curly) ∧ level = after) := by
  unfold step at h
  split at h <;> simp_all

/-- Only an opening brace can be read before one. -/
lemma step_before {m : Option Mark} {level : Level} (h : before.step m = some level) :
    m = some (.opens .curly) ∧ level = within [] := by
  unfold step at h
  split at h <;> simp_all

/-- No word can be read after the closing brace. -/
@[simp] lemma step_after (m : Option Mark) : after.step m = none := by
  simp [step]

end Level

open Level

namespace Forest

variable {f g : Shape} {loose : Bool} {level : Level}

/-- Reads the words of a shape that lie in none of its nodes. -/
def run (loose : Bool) : Shape → Level → Option Level
  | nil, level => some level
  | leaf k rest, level => (level.step (k.markIn loose)).bind (rest.run loose)
  | node _ _ rest, within s => rest.run loose (within s)
  | node _ _ _, _ => none

/-- The machine accepts the inside of every node, and at most `depth` nodes with braces lie inside
each other. -/
def Levelled : (depth : Nat) → Shape → Prop
  | _, nil => True
  | depth, leaf _ rest => rest.Levelled depth
  | depth, node k inside rest =>
    inside.run k.isLoose (first k) = some (last k) ∧
      (if k.isBraced then ∃ depth', depth = depth' + 1 ∧ inside.Levelled depth'
        else inside.Levelled depth) ∧
      rest.Levelled depth

/-- Two sequences are read one after the other. -/
lemma run_append (f g : Shape) (loose : Bool) (level : Level) :
    (f ++ g).run loose level = (f.run loose level).bind (g.run loose) := by
  induction f generalizing level with
  | nil => rfl
  | leaf k rest ih =>
    rw [leaf_append, run, run, Option.bind_assoc]
    congr 1
    funext level'
    exact ih level'
  | node k inside rest _ ih =>
    cases level with
    | within s => exact ih (within s)
    | before => rfl
    | after => rfl

/-- Nothing can be read after the closing brace. -/
lemma eq_nil_of_run_after (h : f.run loose after = some level) : f = nil ∧ level = after := by
  cases f with
  | nil => exact ⟨rfl, by simpa [run] using h.symm⟩
  | leaf k rest => simp [run] at h
  | node k inside rest => simp [run] at h

/-- Brackets that are open further out do not matter to a sequence that leaves them open. -/
lemma run_frame {s s' : List Bracket} (t : List Bracket)
    (h : f.run loose (within s) = some (within s')) :
    f.run loose (within (s ++ t)) = some (within (s' ++ t)) := by
  induction f generalizing s with
  | nil =>
    obtain rfl : s = s' := by simpa [run] using h
    rfl
  | leaf k rest ih =>
    obtain ⟨level, hstep, hrest⟩ := Option.bind_eq_some_iff.1 h
    rw [run]
    rcases step_within_cases hstep with ⟨hm, rfl⟩ | ⟨b, hb, hm, rfl⟩ | ⟨b, s₁, hb, hm, rfl, rfl⟩ |
      ⟨-, -, rfl⟩
    · rw [hm, step_within_none, Option.bind_some]
      exact ih hrest
    · rw [hm, step_opens hb, Option.bind_some]
      exact ih hrest
    · rw [hm, List.cons_append, step_closes hb, Option.bind_some]
      exact ih hrest
    · exact absurd (eq_nil_of_run_after hrest).2 (by simp)
  | node k inside rest _ ih => exact ih h

/-- What is balanced on its own is balanced wherever it stands. -/
lemma run_within (h : f.run loose (within []) = some (within [])) (hlevel : level.IsWithin) :
    f.run loose level = some level := by
  cases level with
  | within s => simpa using run_frame s h
  | before => exact hlevel.elim
  | after => exact hlevel.elim

/-- Two levelled sequences make one. -/
lemma Levelled.append {depth : Nat} (hf : f.Levelled depth) (hg : g.Levelled depth) :
    (f ++ g).Levelled depth := by
  induction f with
  | nil => exact hg
  | leaf k rest ih => exact ih hf
  | node k inside rest _ ih => exact ⟨hf.1, hf.2.1, ih hf.2.2⟩

/-- A bound on the depth can be raised. -/
lemma Levelled.mono {depth depth' : Nat} (hle : depth ≤ depth') (hf : f.Levelled depth) :
    f.Levelled depth' := by
  induction f generalizing depth depth' with
  | nil => trivial
  | leaf k rest ih => exact ih hle hf
  | node k inside rest ihInside ihRest =>
    obtain ⟨hrun, hinside, hrest⟩ := hf
    refine ⟨hrun, ?_, ihRest hle hrest⟩
    cases hk : k.isBraced with
    | true =>
      obtain ⟨d, rfl, hd⟩ : ∃ d, depth = d + 1 ∧ inside.Levelled d := by simpa [hk] using hinside
      refine ⟨depth' - 1, by omega, ihInside (by omega) hd⟩
    | false => exact ihInside hle (by simpa [hk] using hinside)

/-! ## Levelled shapes are bracketed -/

/-- The sequence closes the brackets that are open, and what stands between is bracketed. -/
def Closes (loose : Bool) (depth : Nat) : List Bracket → Shape → Prop
  | [], f => f.Bracketed id loose depth
  | b :: opened, f =>
    ∃ g k h, f = g ++ leaf k h ∧ k.markIn loose = some (.closes b) ∧
      g.Bracketed id loose depth ∧ Closes loose depth opened h

variable {depth : Nat} {opened : List Bracket}

/-- What stands before a sequence does not change which brackets it closes. -/
lemma Closes.prepend (hf : f.Bracketed id loose depth) (hg : Closes loose depth opened g) :
    Closes loose depth opened (f ++ g) := by
  cases opened with
  | nil => exact hf.append hg
  | cons b opened =>
    obtain ⟨g, k, h, rfl, hk, hbracketed, hcloses⟩ := hg
    exact ⟨f ++ g, k, h, (append_assoc ..).symm, hk, hf.append hbracketed, hcloses⟩

/-- A bracket that is opened and closed again is a pair. -/
lemma Closes.pair {b : Bracket} {k : Kind} (hb : b ≠ .curly)
    (hk : k.markIn loose = some (.opens b)) (hf : Closes loose depth (b :: opened) f) :
    Closes loose depth opened (leaf k f) := by
  obtain ⟨g, k', h, rfl, hk', hg, hcloses⟩ := hf
  have hpair : (leaf k (g ++ leaf k' nil)).Bracketed id loose depth := .pair hk hk' hb hg .nil
  have hall := Closes.prepend hpair hcloses
  simpa [append_assoc] using hall

/-- What the machine accepts is bracketed, in each of the three ways in which it may accept: a
sequence without braces, the end of a braced node, and the whole inside of one. -/
lemma closes_of_run (hf : f.Levelled depth) (opened : List Bracket) :
    (f.run loose (within opened) = some (within []) → Closes loose depth opened f) ∧
    (f.run loose (within opened) = some after →
      ∃ g, f = g ++ leaf .rBrace nil ∧ Closes loose depth opened g) ∧
    (f.run loose before = some after →
      ∃ g, f = leaf .lBrace (g ++ leaf .rBrace nil) ∧ g.Bracketed id loose depth) := by
  induction f generalizing loose depth opened with
  | nil =>
    refine ⟨fun hrun => ?_, fun hrun => by simp [run] at hrun, fun hrun => by simp [run] at hrun⟩
    obtain rfl : opened = [] := by simpa [run] using hrun
    exact .nil
  | leaf k rest ih =>
    refine ⟨fun hrun => ?_, fun hrun => ?_, fun hrun => ?_⟩
    · obtain ⟨level, hstep, hrest⟩ := Option.bind_eq_some_iff.1 hrun
      rcases step_within_cases hstep with ⟨hm, rfl⟩ | ⟨b, hb, hm, rfl⟩ |
        ⟨b, s, hb, hm, rfl, rfl⟩ | ⟨-, -, rfl⟩
      · exact Closes.prepend (f := leaf k nil) (.leaf hm .nil) ((ih hf _).1 hrest)
      · exact Closes.pair hb hm ((ih hf _).1 hrest)
      · exact ⟨nil, k, rest, rfl, hm, .nil, (ih hf _).1 hrest⟩
      · exact absurd (eq_nil_of_run_after hrest).2 (by simp)
    · obtain ⟨level, hstep, hrest⟩ := Option.bind_eq_some_iff.1 hrun
      rcases step_within_cases hstep with ⟨hm, rfl⟩ | ⟨b, hb, hm, rfl⟩ |
        ⟨b, s, hb, hm, rfl, rfl⟩ | ⟨rfl, hm, rfl⟩
      · obtain ⟨g, rfl, hg⟩ := (ih hf _).2.1 hrest
        exact ⟨leaf k g, rfl, Closes.prepend (f := leaf k nil) (.leaf hm .nil) hg⟩
      · obtain ⟨g, rfl, hg⟩ := (ih hf _).2.1 hrest
        exact ⟨leaf k g, rfl, Closes.pair hb hm hg⟩
      · obtain ⟨g, rfl, hg⟩ := (ih hf _).2.1 hrest
        exact ⟨leaf k g, rfl, nil, k, g, rfl, hm, .nil, hg⟩
      · obtain ⟨rfl, -⟩ := eq_nil_of_run_after hrest
        obtain rfl := Kind.markIn_eq_closes_curly.1 hm
        exact ⟨nil, rfl, .nil⟩
    · obtain ⟨level, hstep, hrest⟩ := Option.bind_eq_some_iff.1 hrun
      obtain ⟨hm, rfl⟩ := step_before hstep
      obtain rfl := Kind.markIn_eq_opens_curly.1 hm
      obtain ⟨g, rfl, hg⟩ := (ih hf []).2.1 hrest
      exact ⟨g, rfl, hg⟩
  | node k inside rest ihInside ihRest =>
    obtain ⟨hinside, hdepth, hrest⟩ := hf
    have hnode : (node k inside nil).Bracketed id loose depth := by
      cases hk : k.isBraced with
      | false =>
        have hlevelled : inside.Levelled depth := by simpa [hk] using hdepth
        refine .plain hk ((ihInside hlevelled []).1 ?_) .nil
        simpa [first, last, hk, NodeKind.isLoose_eq_false hk] using hinside
      | true =>
        obtain ⟨d, rfl, hlevelled⟩ : ∃ d, depth = d + 1 ∧ inside.Levelled d := by
          simpa [hk] using hdepth
        obtain ⟨g, rfl, hg⟩ := (ihInside hlevelled []).2.2
          (by simpa [first, last, hk] using hinside)
        exact .braced hk rfl rfl hg .nil
    refine ⟨fun hrun => ?_, fun hrun => ?_, fun hrun => by simp [run] at hrun⟩
    · exact Closes.prepend hnode ((ihRest hrest _).1 hrun)
    · obtain ⟨g, rfl, hg⟩ := (ihRest hrest _).2.1 hrun
      exact ⟨node k inside g, rfl, Closes.prepend hnode hg⟩

/-- A levelled sequence that leaves no bracket open is bracketed. -/
theorem bracketed_of_run (hf : f.Levelled depth) (hrun : f.run loose (within []) = some (within [])) :
    f.Bracketed id loose depth :=
  (closes_of_run hf []).1 hrun

end Forest

/-! ## The first node of what a form reads -/

/-- The forest starts with a node whose kind is of the given sort. -/
def Forest.HeadedBy {α : Type} (sort : NodeKind → Prop) : Forest α → Prop
  | .node k _ _ => sort k
  | _ => False

namespace Form

variable {ρ : Type} {follow : ρ → Reader} {sort : NodeKind → Prop} {headed : ρ → Prop}

/-- What the form describes starts with a node of the given sort, if it does so for the `headed`
rules. -/
def Heads (sort : NodeKind → Prop) (headed : ρ → Prop) : Form ρ → Prop
  | empty => False
  | fail _ => True
  | take => False
  | call rule => headed rule
  | seq a _ => a.Heads sort headed
  | node k _ => sort k
  | adopt _ b => b.Heads sort headed
  | nest a => a.Heads sort headed
  | look choose => ∀ ks, (choose ks).Heads sort headed

/-- A form that is said to start with a node does. -/
lemma read_headedBy
    (hfollow : ∀ rule room ks f ks', follow rule room ks = .ok (f, ks') → headed rule →
      f.HeadedBy sort)
    {form : Form ρ} (hform : form.Heads sort headed) {room : Nat} {ks ks' : List Kind} {f : Shape}
    (hread : form.read follow room ks = .ok (f, ks')) : f.HeadedBy sort := by
  induction form generalizing room ks ks' f with
  | empty => exact hform.elim
  | fail what => simp [read] at hread
  | take => exact hform.elim
  | call rule =>
    rw [read] at hread
    exact hfollow rule room ks f ks' hread hform
  | seq a b iha _ =>
    obtain ⟨g, ks₁, h, ha, -, rfl⟩ := read_seq_eq_ok.1 hread
    have hg := iha hform ha
    cases g with
    | node k inside rest => exact hg
    | nil => exact hg.elim
    | leaf k rest => exact hg.elim
  | node k a _ =>
    obtain ⟨g, -, rfl⟩ := read_node_eq_ok.1 hread
    exact hform
  | adopt a b _ ihb =>
    obtain ⟨g, ks₁, h, -, hb, rfl⟩ := read_adopt_eq_ok.1 hread
    have hh := ihb hform hb
    cases h with
    | node k inside rest => exact hh
    | nil => exact hh.elim
    | leaf k rest => exact hh.elim
  | nest a ih =>
    obtain ⟨room', -, ha⟩ := read_nest_eq_ok.1 hread
    exact ih hform ha
  | look choose ih =>
    rw [read] at hread
    exact ih ks (hform ks) hread

end Form

/-- A rule that is said to start with a node does. -/
theorem readRule_headedBy {ρ : Type} {grammar : ρ → Form ρ} {sort : NodeKind → Prop}
    {headed : ρ → Prop} (hheads : ∀ rule, headed rule → (grammar rule).Heads sort headed)
    (fuel : Nat) (rule : ρ) (room : Nat) (ks : List Kind) (f : Shape) (ks' : List Kind)
    (hread : readRule grammar fuel rule room ks = .ok (f, ks')) (hrule : headed rule) :
    f.HeadedBy sort := by
  induction fuel generalizing rule room ks f ks' with
  | zero => simp [readRule] at hread
  | succ fuel ih => exact Form.read_headedBy ih (hheads rule hrule) hread

/-! ## Contracts -/

/-- What is known of the rules of a grammar. -/
structure Contract (ρ : Type) where
  /-- The rule reads words of a loose place. -/
  loose : ρ → Bool
  /-- The rule may be called before these words. -/
  needs : ρ → List Kind → Prop
  /-- The rule stops before words like these. -/
  ensures : ρ → List Kind → Prop
  /-- The rule starts with a node without braces. -/
  headed : ρ → Prop

namespace Form

variable {ρ : Type} {follow : ρ → Reader}

/-- The machine runs through what the form reads before the words `ks`, and `goal` holds of the
level and of the words after it.  Nodes with braces take up one of `spare` levels of nesting. -/
def Leads (contract : Contract ρ) :
    Form ρ → (loose : Bool) → (spare : Nat) → Level → (ks : List Kind) →
      (goal : Level → List Kind → Prop) → Prop
  | empty, _, _, level, ks, goal => goal level ks
  | fail _, _, _, _, _, _ => True
  | take, loose, _, level, ks, goal =>
    ∀ k ks', ks = k :: ks' → Reached (level.step (k.markIn loose)) fun level' => goal level' ks'
  | call rule, loose, _, level, ks, goal =>
    level.IsWithin ∧ contract.loose rule = loose ∧ contract.needs rule ks ∧
      ∀ ks', contract.ensures rule ks' → goal level ks'
  | seq a b, loose, spare, level, ks, goal =>
    a.Leads contract loose spare level ks fun level' ks' =>
      b.Leads contract loose spare level' ks' goal
  | node k a, _, spare, level, ks, goal =>
    level.IsWithin ∧ (k.isBraced = true → 0 < spare) ∧
      a.Leads contract k.isLoose (if k.isBraced then spare - 1 else spare) (first k) ks
        fun level' ks' => level' = last k ∧ goal level ks'
  | adopt a b, loose, spare, level, ks, goal =>
    b.Heads (fun k => k.isBraced = false) contract.headed ∧
      a.Leads contract false spare (within []) ks fun level' ks' =>
        level' = within [] ∧ b.Leads contract loose spare level ks' goal
  | nest a, loose, _, level, ks, goal => a.Leads contract loose 1 level ks goal
  | look choose, loose, spare, level, ks, goal =>
    (choose ks).Leads contract loose spare level ks goal

/-- Following the rules keeps their contracts. -/
structure Obeys (contract : Contract ρ) (follow : ρ → Reader) : Prop where
  /-- Where a rule may be called, it reads a levelled shape that leaves no bracket open. -/
  levelled : ∀ rule room ks f ks', follow rule room ks = .ok (f, ks') → contract.needs rule ks →
    f.run (contract.loose rule) (within []) = some (within []) ∧ f.Levelled room ∧
      contract.ensures rule ks'
  /-- A rule that is said to start with a node without braces does. -/
  headed : ∀ rule room ks f ks', follow rule room ks = .ok (f, ks') → contract.headed rule →
    f.HeadedBy fun k => k.isBraced = false

variable {contract : Contract ρ}

/-- If the machine runs through the form, then it runs through what the form reads. -/
lemma read_leads (hfollow : Obeys contract follow) {form : Form ρ} {loose : Bool} {spare : Nat}
    {level : Level} {goal : Level → List Kind → Prop} {room : Nat} {ks ks' : List Kind} {f : Shape}
    (hform : form.Leads contract loose spare level ks goal)
    (hread : form.read follow room ks = .ok (f, ks')) :
    ∃ level', f.run loose level = some level' ∧ f.Levelled (room + spare) ∧ goal level' ks' := by
  induction form generalizing loose spare level goal room ks ks' f with
  | empty =>
    obtain ⟨rfl, rfl⟩ : Forest.nil = f ∧ ks = ks' := by simpa [read] using hread
    exact ⟨level, rfl, trivial, hform⟩
  | fail what => simp [read] at hread
  | take =>
    obtain ⟨k, rfl, rfl⟩ := read_take_eq_ok.1 hread
    have hreached := hform k ks' rfl
    cases hstep : level.step (k.markIn loose) with
    | none => simp [hstep, Reached] at hreached
    | some level' =>
      exact ⟨level', by simp [Forest.run, hstep], trivial, by simpa [hstep, Reached] using hreached⟩
  | call rule =>
    rw [read] at hread
    obtain ⟨hlevel, rfl, hneeds, hgoal⟩ := hform
    obtain ⟨hrun, hlevelled, hensures⟩ := hfollow.levelled rule room ks f ks' hread hneeds
    exact ⟨level, Forest.run_within hrun hlevel, hlevelled.mono (Nat.le_add_right ..),
      hgoal ks' hensures⟩
  | seq a b iha ihb =>
    obtain ⟨g, ks₁, h, ha, hb, rfl⟩ := read_seq_eq_ok.1 hread
    obtain ⟨level₁, hg, hglevelled, hmiddle⟩ := iha hform ha
    obtain ⟨level₂, hh, hhlevelled, hgoal⟩ := ihb hmiddle hb
    refine ⟨level₂, ?_, hglevelled.append hhlevelled, hgoal⟩
    rw [Forest.run_append, hg, Option.bind_some, hh]
  | node k a ih =>
    obtain ⟨g, ha, rfl⟩ := read_node_eq_ok.1 hread
    obtain ⟨hlevel, hspare, hinside⟩ := hform
    obtain ⟨level', hrun, hlevelled, rfl, hgoal⟩ := ih hinside ha
    refine ⟨level, ?_, ⟨hrun, ?_, trivial⟩, hgoal⟩
    · cases level with
      | within s => rfl
      | before => exact hlevel.elim
      | after => exact hlevel.elim
    · cases hk : k.isBraced with
      | true =>
        have hpositive := hspare hk
        rw [hk, if_pos rfl] at hlevelled
        exact ⟨room + (spare - 1), by omega, hlevelled⟩
      | false => simpa [hk] using hlevelled
  | adopt a b iha ihb =>
    obtain ⟨g, ks₁, h, ha, hb, rfl⟩ := read_adopt_eq_ok.1 hread
    obtain ⟨hheads, hfirst⟩ := hform
    obtain ⟨level₁, hg, hglevelled, rfl, hsecond⟩ := iha hfirst ha
    obtain ⟨level₂, hh, hhlevelled, hgoal⟩ := ihb hsecond hb
    have hhead := read_headedBy hfollow.headed hheads hb
    cases h with
    | nil => exact hhead.elim
    | leaf k rest => exact hhead.elim
    | node k inside rest =>
      have hk : k.isBraced = false := hhead
      obtain ⟨hinside, hdepth, hrest⟩ := hhlevelled
      simp only [first, last, hk, NodeKind.isLoose_eq_false hk] at hinside
      refine ⟨level₂, ?_, ⟨?_, ?_, hrest⟩, hgoal⟩
      · cases level with
        | within s => exact hh
        | before => simp [Forest.run] at hh
        | after => simp [Forest.run] at hh
      · simp only [first, last, hk, NodeKind.isLoose_eq_false hk]
        rw [Forest.run_append]
        exact (congrArg (Option.bind · (inside.run false)) hg).trans hinside
      · simp only [hk] at hdepth ⊢
        exact hglevelled.append hdepth
  | nest a ih =>
    obtain ⟨room', rfl, ha⟩ := read_nest_eq_ok.1 hread
    obtain ⟨level', hrun, hlevelled, hgoal⟩ := ih hform ha
    exact ⟨level', hrun, hlevelled.mono (by omega), hgoal⟩
  | look choose ih =>
    rw [read] at hread
    exact ih ks hform hread

/-! ### Running the machine by simplification

The machine is run from the outside in: the form that comes first is opened before the goal is
looked at, so that the level is known wherever the goal asks for it. -/

section Simplification

variable {loose : Bool} {spare : Nat} {level : Level} {ks : List Kind}
  {goal : Level → List Kind → Prop} {a b : Form ρ}

/-- The goal after a form waits until the form is done. -/
@[congr] lemma leads_congr {a' : Form ρ} (h : a = a') :
    a.Leads contract loose spare level ks goal ↔ a'.Leads contract loose spare level ks goal := by
  rw [h]

@[simp ↓] lemma leads_empty :
    (empty : Form ρ).Leads contract loose spare level ks goal ↔ goal level ks := Iff.rfl

@[simp ↓] lemma leads_fail {what : String} :
    (fail what : Form ρ).Leads contract loose spare level ks goal := trivial

@[simp ↓] lemma leads_take_cons {k : Kind} :
    (take : Form ρ).Leads contract loose spare level (k :: ks) goal ↔
      Reached (level.step (k.markIn loose)) fun level' => goal level' ks := by
  simp [Leads]

@[simp ↓] lemma leads_call {rule : ρ} :
    (call rule).Leads contract loose spare level ks goal ↔
      level.IsWithin ∧ contract.loose rule = loose ∧ contract.needs rule ks ∧
        ∀ ks', contract.ensures rule ks' → goal level ks' := Iff.rfl

@[simp ↓] lemma leads_append :
    (a ++ b).Leads contract loose spare level ks goal ↔
      a.Leads contract loose spare level ks fun level' ks' =>
        b.Leads contract loose spare level' ks' goal := Iff.rfl

@[simp ↓] lemma leads_node {k : NodeKind} :
    (node k a).Leads contract loose spare level ks goal ↔
      level.IsWithin ∧ (k.isBraced = true → 0 < spare) ∧
        a.Leads contract k.isLoose (if k.isBraced then spare - 1 else spare) (first k) ks
          fun level' ks' => level' = last k ∧ goal level ks' := Iff.rfl

@[simp ↓] lemma leads_adopt :
    (adopt a b).Leads contract loose spare level ks goal ↔
      b.Heads (fun k => k.isBraced = false) contract.headed ∧
        a.Leads contract false spare (within []) ks fun level' ks' =>
          level' = within [] ∧ b.Leads contract loose spare level ks' goal := Iff.rfl

@[simp ↓] lemma leads_nest :
    (nest a).Leads contract loose spare level ks goal ↔
      a.Leads contract loose 1 level ks goal := Iff.rfl

@[simp ↓] lemma leads_look {choose : List Kind → Form ρ} :
    (look choose).Leads contract loose spare level ks goal ↔
      (choose ks).Leads contract loose spare level ks goal := Iff.rfl

@[simp ↓ low] lemma leads_ite {test : List Kind → Bool} :
    (ite test a b).Leads contract loose spare level ks goal ↔
      (test ks = true → a.Leads contract loose spare level ks goal) ∧
        (test ks = false → b.Leads contract loose spare level ks goal) := by
  cases h : test ks <;> simp [ite, Leads, h]

@[simp ↓ low] lemma leads_if {test : Prop} [Decidable test] :
    (if test then a else b).Leads contract loose spare level ks goal ↔
      (test → a.Leads contract loose spare level ks goal) ∧
        (¬ test → b.Leads contract loose spare level ks goal) := by
  by_cases h : test <;> simp [h]

variable {sort : NodeKind → Prop} {headed : ρ → Prop}

@[simp] lemma heads_append : (a ++ b).Heads sort headed ↔ a.Heads sort headed := Iff.rfl

@[simp] lemma heads_ite {test : List Kind → Bool} :
    (ite test a b).Heads sort headed ↔
      ∀ ks, if test ks then a.Heads sort headed else b.Heads sort headed := by
  simp only [ite, Heads]
  refine forall_congr' fun ks => ?_
  cases h : test ks <;> simp

@[simp] lemma heads_if {test : Prop} [Decidable test] :
    (if test then a else b).Heads sort headed ↔
      (test → a.Heads sort headed) ∧ (¬ test → b.Heads sort headed) := by
  by_cases h : test <;> simp [h]

end Simplification

end Form

/-- If the forms of all rules keep their contracts, then so does following the rules. -/
theorem readRule_obeys {ρ : Type} {grammar : ρ → Form ρ} {contract : Contract ρ}
    (hleads : ∀ rule ks, contract.needs rule ks →
      (grammar rule).Leads contract (contract.loose rule) 0 (within []) ks
        fun level ks' => level = within [] ∧ contract.ensures rule ks')
    (hheads : ∀ rule, contract.headed rule →
      (grammar rule).Heads (fun k => k.isBraced = false) contract.headed)
    (fuel : Nat) : Form.Obeys contract (readRule grammar fuel) := by
  refine ⟨?_, readRule_headedBy hheads fuel⟩
  induction fuel with
  | zero =>
    intro rule room ks f ks' hread
    simp [readRule] at hread
  | succ fuel ih =>
    intro rule room ks f ks' hread hneeds
    obtain ⟨level, hrun, hlevelled, rfl, hensures⟩ :=
      Form.read_leads ⟨ih, readRule_headedBy hheads fuel⟩ (hleads rule ks hneeds) hread
    exact ⟨hrun, hlevelled, hensures⟩

end JavaLint
