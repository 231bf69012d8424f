import JavaLint.Proofs.Grammar.Java
import Mathlib.Tactic.Common

/-!
# How deep shapes are

Every level of nesting that the grammar counts takes one of the `maxNesting` levels that there are, and
between two of them only few nodes can lie inside each other.  The only nodes that can lie inside each
other without end are types in type arguments, where no level is counted.

`Forest.rise` measures how many nodes lie inside each other, less two for every node of type arguments.
`Form.Rises` bounds it for what a form describes: rules add what `Rule.rise` says, and a counted level
adds `levelRise`.  The bound for a file is `readShape_rise`.
-/

namespace JavaLint

namespace Forest

variable {α : Type}

/-- What a node adds to the depth of what lies inside it.  The nodes of type arguments pay back one for
themselves and one for the type inside them. -/
def riseThrough (kind : NodeKind) (inside : Nat) : Nat :=
  if kind = .typeArgs then inside - 1 else inside + 1

/-- The largest number of nodes that lie inside each other, less what those of type arguments pay
back. -/
def rise : Forest α → Nat
  | nil => 0
  | leaf _ rest => rest.rise
  | node kind inside rest => max (riseThrough kind inside.rise) rest.rise

/-- A node adds at most one level. -/
lemma riseThrough_le (kind : NodeKind) (inside : Nat) : riseThrough kind inside ≤ inside + 1 := by
  unfold riseThrough
  split <;> omega

/-- Two sequences are as deep as the deeper one. -/
@[simp] lemma rise_append (f g : Forest α) : (f ++ g).rise = max f.rise g.rise := by
  induction f with
  | nil => simp [rise]
  | leaf a rest ih => simp [rise, ih]
  | node kind inside rest _ ih => simp [rise, ih, Nat.max_assoc]

/-- What is adopted gets one level deeper. -/
lemma rise_adopt_le (head f : Forest α) : (head.adopt f).rise ≤ max (head.rise + 1) f.rise := by
  cases f with
  | nil => simp [adopt, rise]
  | leaf a rest =>
    simp only [adopt, rise_append]
    omega
  | node kind inside rest =>
    simp only [adopt, rise, rise_append]
    have hhead := riseThrough_le kind head.rise
    rcases Nat.le_total head.rise inside.rise with hle | hle
    · rw [Nat.max_eq_right hle]
      omega
    · rw [Nat.max_eq_left hle]
      omega

end Forest

/-! ## Forms -/

namespace Form

variable {ρ : Type} {rise : ρ → Nat} {cost : Nat} {follow : ρ → Reader}

/-- What the form describes is at most `bound` deep, where the rules that it calls are as deep as
`rise` says, and where a counted level may add `cost`. -/
def Rises (rise : ρ → Nat) (cost : Nat) : Form ρ → Nat → Prop
  | empty, _ => True
  | fail _, _ => True
  | take, _ => True
  | call rule, bound => rise rule ≤ bound
  | seq a b, bound => a.Rises rise cost bound ∧ b.Rises rise cost bound
  | node kind a, bound =>
    if kind = .typeArgs then a.Rises rise cost (bound + 1)
    else 0 < bound ∧ a.Rises rise cost (bound - 1)
  | adopt a b, bound => 0 < bound ∧ a.Rises rise cost (bound - 1) ∧ b.Rises rise cost bound
  | nest a, bound => a.Rises rise cost (bound + cost)
  | look choose, bound => ∀ ks, (choose ks).Rises rise cost bound

/-- What a form reads is as deep as the form says, if that is so for the rules. -/
lemma read_rise
    (hfollow : ∀ rule room ks f ks', follow rule room ks = .ok (f, ks') →
      f.rise ≤ rise rule + cost * room)
    {form : Form ρ} {bound : Nat} (hform : form.Rises rise cost bound) {room : Nat}
    {ks ks' : List Kind} {f : Shape} (hread : form.read follow room ks = .ok (f, ks')) :
    f.rise ≤ bound + cost * room := by
  induction form generalizing bound room ks ks' f with
  | empty =>
    obtain ⟨rfl, -⟩ : Forest.nil = f ∧ ks = ks' := by simpa [read] using hread
    exact Nat.zero_le _
  | fail what => simp [read] at hread
  | take =>
    obtain ⟨k, -, rfl⟩ := read_take_eq_ok.1 hread
    exact Nat.zero_le _
  | call rule =>
    rw [read] at hread
    have hrule := hfollow rule room ks f ks' hread
    have hle : rise rule ≤ bound := hform
    omega
  | seq a b iha ihb =>
    obtain ⟨g, ks₁, h, ha, hb, rfl⟩ := read_seq_eq_ok.1 hread
    rw [Forest.rise_append]
    exact Nat.max_le.2 ⟨iha hform.1 ha, ihb hform.2 hb⟩
  | node kind a ih =>
    obtain ⟨g, ha, rfl⟩ := read_node_eq_ok.1 hread
    rw [Rises] at hform
    rw [Forest.rise, Forest.rise, Nat.max_zero, Forest.riseThrough]
    split
    · rename_i hkind
      rw [if_pos hkind] at hform
      have hinside := ih hform ha
      omega
    · rename_i hkind
      rw [if_neg hkind] at hform
      have hinside := ih hform.2 ha
      omega
  | adopt a b iha ihb =>
    obtain ⟨g, ks₁, h, ha, hb, rfl⟩ := read_adopt_eq_ok.1 hread
    obtain ⟨hpos, hhead, htail⟩ := hform
    have hg := iha hhead ha
    have hh := ihb htail hb
    have hadopt := g.rise_adopt_le h
    omega
  | nest a ih =>
    obtain ⟨room', rfl, ha⟩ := read_nest_eq_ok.1 hread
    have hinside := ih hform ha
    rw [Nat.mul_succ]
    omega
  | look choose ih =>
    rw [read] at hread
    exact ih ks (hform ks) hread

@[simp] lemma rises_append {a b : Form ρ} {bound : Nat} :
    (a ++ b).Rises rise cost bound ↔ a.Rises rise cost bound ∧ b.Rises rise cost bound := Iff.rfl

@[simp] lemma rises_if {p : Prop} [Decidable p] {a b : Form ρ} {bound : Nat} :
    (if p then a else b).Rises rise cost bound ↔
      if p then a.Rises rise cost bound else b.Rises rise cost bound := by
  split <;> rfl

@[simp] lemma rises_ite {test : List Kind → Bool} {a b : Form ρ} {bound : Nat} :
    (ite test a b).Rises rise cost bound ↔
      ∀ ks, if test ks then a.Rises rise cost bound else b.Rises rise cost bound := by
  simp [ite, Rises]

end Form

/-- If the forms of all rules are as deep as is said of the rules, then so is all that is read. -/
theorem readRule_rise {ρ : Type} {grammar : ρ → Form ρ} {rise : ρ → Nat} {cost : Nat}
    (hrises : ∀ rule, (grammar rule).Rises rise cost (rise rule)) (fuel : Nat) (rule : ρ) (room : Nat)
    (ks : List Kind) (f : Shape) (ks' : List Kind)
    (hread : readRule grammar fuel rule room ks = .ok (f, ks')) : f.rise ≤ rise rule + cost * room := by
  induction fuel generalizing rule room ks f ks' with
  | zero => simp [readRule] at hread
  | succ fuel ih =>
    rw [readRule] at hread
    exact Form.read_rise ih (hrises rule) hread

/-! ## The rules -/

namespace Rule

open Form Lookahead

/-- How deep the part is that a rule describes, up to the next counted level. -/
def rise : Rule → Nat
  | annotationUse | annotations | modifierTail | typeTail | typeArgs => 1
  | type | typeArgList | typeList | bounds | heritage | exceptionTypes | declarators | creator => 2
  | typeParamList | param | params | lambdaParamList | resources | enumConstants => 3
  | typeParams | catches | exprTail .. => 4
  | items | typeDecl | member | members | blockStatement | blockStatements | switchItems => 5
  | _ => 0

/-- What a counted level may add to the depth. -/
def levelRise : Nat := 6

attribute [local simp] rise levelRise Form.Rises opt expect eat expectWord expectName semicolon braces
  parens unlessAt more qualifiedName declaredName modifiers arguments parenExpr brackets formalParams
  throwsClause typeCore packageDecl importDecl moduleDecl enumConstant constructorDecl methodDecl
  fieldDecl declaredMember paramName localVar resource catchClause tryStatement forHeader ruleBody
  switchLabel lambdaParams cast creatorBody

/-- The depth of a type declaration. -/
lemma typeDeclOf_rises {kind : NodeKind} (h : kind.isTypeDecl = true) :
    (typeDeclOf kind).Rises rise levelRise 5 := by
  have hargs : kind ≠ .typeArgs := by
    rintro rfl
    cases h
  by_cases henum : kind = .enumDecl <;> simp [typeDeclOf, hargs, henum]

/-- The depth of a statement within its node. -/
lemma statementBody_rises (ks : List Kind) : (statementBody ks).Rises rise levelRise 5 := by
  unfold statementBody
  split <;> simp

/-- The depth of a step of an expression. -/
lemma exprStep_rises (stops : Stops) (previous : Option Kind) (ks : List Kind) :
    (exprStep stops previous ks).Rises rise levelRise 4 := by
  unfold exprStep
  split <;> simp

/-- A choice adds no depth. -/
lemma closedUnderChoice_rises (bound : Nat) :
    ClosedUnderChoice fun part : Part => part.Rises rise levelRise bound :=
  ⟨fun _ => trivial, fun _ h => h⟩

/-- Every rule is as deep as is said of it. -/
theorem form_rises (rule : Rule) : rule.form.Rises rise levelRise rule.rise := by
  have hclosed := closedUnderChoice_rises rule.rise
  cases rule with
  | directive => exact form_directive_of_closed hclosed trivial (by simp)
  | typeDecl => exact form_typeDecl_of_closed hclosed fun kind => typeDeclOf_rises
  | members | blockStatements | switchItems | elements =>
    exact untilBrace_of_closed hclosed trivial (by simp)
  | statement => simpa [form] using fun ks _ _ => statementBody_rises ks
  | exprTail stops ternaries previous =>
    refine form_exprTail_of_closed hclosed trivial fun k ks => ?_
    simpa using exprStep_rises stops previous (k :: ks)
  | _ => simp [form]

end Rule

/-- The shape of a file is at most so deep. -/
theorem readShape_rise {ks : List Kind} {shape : Shape} (h : readShape ks = .ok shape) :
    shape.rise ≤ 5 + 6 * maxNesting := by
  obtain ⟨ks', hread⟩ := readShape_eq_ok.1 h
  exact readRule_rise Rule.form_rises _ _ _ _ _ _ hread

end JavaLint
