import JavaLint.Proofs.Model.Walk
import Mathlib.Tactic.Common

/-!
# Calling a builder

A builder may be asked for several walks, and its model may be finished after any of them.  Only the
first walk does anything: every later one is refused and changes nothing (`calls_eq`).

A walk counts from its first step on, not once it has gone through.  So a model can be finished if and
only if a walk was asked for, also if the walk failed, and the model then holds what the walk had found
when it failed.  `finish_after_calls` says for which calls a finished model means a walk that succeeded.
-/

namespace JavaLint

namespace Builder

/-! ## Answers -/

/-- The builder after a step, also if the step failed. -/
def Step.builder : Step → Builder
  | .ok b => b
  | .error (_, b) => b

/-- What is said of a step to the one who asked for it. -/
def Step.answer : Step → Except Fault Unit
  | .ok _ => .ok ()
  | .error (fault, _) => .error fault

/-- Asks for one walk after the other, whatever the answers are: the answers, and the builder after the
last walk. -/
def calls (b : Builder) : List (Forest Lexeme) → List (Except Fault Unit) × Builder
  | [] => ([], b)
  | trees :: rest =>
    let step := b.walk trees
    let (answers, last) := step.builder.calls rest
    (step.answer :: answers, last)

variable {b : Builder} {path : Ancestry} {kind : NodeKind} {inside : Forest Lexeme}

/-! ## A walk counts from its first step on -/

/-- If no second step changes whether a walk counts, then after both it counts as after the first. -/
lemma walked_bind (step : Step) {f : Builder → Step}
    (hf : ∀ b, (f b).builder.walked = b.walked) :
    (Step.builder (step.bind f)).walked = step.builder.walked := by
  cases step with
  | error e => rfl
  | ok b => exact hf b

/-- Entering a node. -/
lemma walked_enter (b : Builder) (path : Ancestry) (kind : NodeKind) (inside : Forest Lexeme) :
    (b.enter path kind inside).walked = b.walked := by
  rw [enter_eq]

/-- Finding out what a code token means. -/
lemma walked_classify (b : Builder) (path : Ancestry) (token : Token) :
    (b.classify path token).builder.walked = b.walked := by
  have hupdate (f : Pending → Pending) : (b.updatePending f).walked = b.walked := by
    rw [updatePending_eq]
  have hname (owner : NodeKind) (number : Nat) (role : Role) :
      (b.noteName owner number role).builder.walked = b.walked := by
    unfold noteName
    cases b.pending <;> rfl
  unfold classify
  split
  · rfl
  split
  · split
    · exact hname _ _ _
    · rfl
  · split
    · split
      · exact hupdate _
      · rfl
    · rfl
  · split <;> rfl

/-- Meeting a leaf, also one that does not match. -/
lemma walked_visit (b : Builder) (path : Ancestry) (leaf : Lexeme) :
    (b.visit path leaf).builder.walked = b.walked := by
  unfold visit
  split
  · split <;> rfl
  split
  · rfl
  split
  · dsimp only
    split
    · exact walked_classify _ path _
    · rfl
  · rfl

/-- Finishing a declaration, also one without tokens. -/
lemma walked_closePending (b : Builder) (path : Ancestry) (kind : NodeKind)
    (inside : Forest Lexeme) : (b.closePending path kind inside).builder.walked = b.walked := by
  unfold closePending record
  split
  · rfl
  dsimp only
  split
  · rfl
  · split <;> rfl

/-- Closing a scope, also one without braces. -/
lemma walked_closeScope (b : Builder) : b.closeScope.builder.walked = b.walked := by
  unfold closeScope
  dsimp only
  split
  · rfl
  · split <;> rfl

/-- Leaving a node. -/
lemma walked_leave (b : Builder) (path : Ancestry) (kind : NodeKind) (inside : Forest Lexeme) :
    (b.leave path kind inside).builder.walked = b.walked := by
  unfold leave
  refine (walked_bind _ fun b => ?_).trans ?_
  · split
    · exact b.walked_closeScope
    · rfl
  · split
    · exact b.walked_closePending path kind inside
    · rfl

/-- Walking over a forest, as far as that goes. -/
lemma walked_walkForest (path : Ancestry) (f : Forest Lexeme) (b : Builder) :
    (walkForest path f b).builder.walked = b.walked := by
  induction f generalizing path b with
  | nil => rfl
  | leaf l rest ih =>
    rw [walkForest, walked_bind _ (ih path)]
    exact b.walked_visit path l
  | node kind inside rest ihInside ihRest =>
    have hafter (b : Builder) :
        (Step.builder ((b.leave path kind inside).bind (walkForest path rest))).walked = b.walked := by
      rw [walked_bind _ (ihRest path)]
      exact b.walked_leave path kind inside
    rw [walkForest, walked_bind _ hafter, ihInside]
    exact b.walked_enter path kind inside

/-- After a walk was asked for it counts, whether it succeeded or not. -/
lemma walked_walk (b : Builder) (trees : Forest Lexeme) : (b.walk trees).builder.walked = true := by
  have hclosed (b : Builder) : b.closed.builder.walked = b.walked := by
    unfold closed
    split
    · rfl
    · split <;> rfl
  unfold walk
  split
  · assumption
  · rw [walked_bind _ hclosed, walked_walkForest]

/-- A second walk is refused and changes nothing. -/
lemma calls_of_walked (h : b.walked = true) (trees : List (Forest Lexeme)) :
    b.calls trees = (List.replicate trees.length (.error .walkedTwice), b) := by
  induction trees with
  | nil => rfl
  | cons first rest ih =>
    have hwalk : b.walk first = .error (.walkedTwice, b) := by simp [walk, h]
    rw [calls, hwalk]
    simp only [Step.builder, Step.answer, ih, List.length_cons, List.replicate_succ]

/-- All that is answered and left behind comes from the first walk. -/
theorem calls_cons (b : Builder) (first : Forest Lexeme) (rest : List (Forest Lexeme)) :
    b.calls (first :: rest) =
      ((b.walk first).answer :: List.replicate rest.length (.error .walkedTwice),
        (b.walk first).builder) := by
  rw [calls, calls_of_walked (b.walked_walk first)]

/-! ## Finishing -/

/-- A model can be finished if and only if a walk counts. -/
lemma finish_succeeds_iff (b : Builder) : (∃ model, b.finish = .ok model) ↔ b.walked = true := by
  unfold finish
  split <;> simp_all

/-- A first walk succeeds if and only if the model of the file can be built. -/
lemma answer_walk_eq_ok_iff (table : LineTable) (trees : Forest Lexeme) :
    ((ofTable table).walk trees).answer = .ok () ↔ ∃ model, Model.build table trees = .ok model := by
  have hwalked := (ofTable table).walked_walk trees
  unfold Model.build
  cases hwalk : (ofTable table).walk trees with
  | error e => simp [Step.answer]
  | ok b =>
    rw [hwalk] at hwalked
    obtain ⟨model, hmodel⟩ := b.finish_succeeds_iff.2 hwalked
    simp [Step.answer, hmodel]

/-- A model can be finished if and only if a walk was asked for, and it holds what the first walk left
behind.  So a model means that a walk succeeded exactly if the first walk, where there is one, goes
through; then the model is that of the file. -/
theorem finish_after_calls (table : LineTable) (walks : List (Forest Lexeme)) :
    ((∃ model, ((ofTable table).calls walks).2.finish = .ok model) ↔ walks ≠ []) ∧
    (((∃ model, ((ofTable table).calls walks).2.finish = .ok model) →
        .ok () ∈ ((ofTable table).calls walks).1) ↔
      ∀ first ∈ walks.head?, ∃ model, Model.build table first = .ok model) ∧
    ∀ first ∈ walks.head?,
      ((ofTable table).calls walks).2 = ((ofTable table).walk first).builder ∧
      ∀ model, Model.build table first = .ok model →
        ((ofTable table).calls walks).2.finish = .ok model := by
  cases walks with
  | nil =>
    have hfresh : ((ofTable table).calls []).2.finish = .error .notWalked := rfl
    simp [hfresh]
  | cons first rest =>
    have hsucceeds : ∃ model, ((ofTable table).walk first).builder.finish = .ok model :=
      (finish_succeeds_iff _).2 ((ofTable table).walked_walk first)
    have hanswers : .ok () ∈ ((ofTable table).walk first).answer ::
          List.replicate rest.length (.error .walkedTwice) ↔
        ((ofTable table).walk first).answer = .ok () := by
      simp [List.mem_replicate, eq_comm]
    rw [calls_cons]
    simp only [hsucceeds, hanswers, answer_walk_eq_ok_iff, List.head?_cons, Option.mem_some_iff,
      forall_eq', true_imp_iff, true_and]
    refine ⟨by simp, fun model hmodel => ?_⟩
    unfold Model.build at hmodel
    cases hwalk : (ofTable table).walk first with
    | error e => simp [hwalk] at hmodel
    | ok b =>
      rw [hwalk] at hmodel
      dsimp only at hmodel
      split at hmodel
      · cases hmodel
      · rename_i model' hfinish
        obtain rfl := Except.ok.inj hmodel
        exact hfinish

/-- The walk over the tree of a class with a member fails in a class without, and the model that can be
finished then has a scope that starts and does not end. -/
theorem finish_after_failed_walk :
    ∃ ls trees model, Lexeme.scan "class Abcd \x7b \x7d" = .ok ls ∧
      (Lexeme.scan "class Abcd \x7b ; \x7d").bind parse = .ok trees ∧
      ((ofTable (.ofLexemes ls)).calls [trees]).1 = [.error (.mismatch ";" "\x7d")] ∧
      ((ofTable (.ofLexemes ls)).calls [trees]).2.finish = .ok model ∧
      (model.scope 1).opening = some 4 ∧ (model.scope 1).closing = none ∧
      ¬ ((∃ model, ((ofTable (.ofLexemes ls)).calls [trees]).2.finish = .ok model) →
        .ok () ∈ ((ofTable (.ofLexemes ls)).calls [trees]).1) := by
  have hrun : ((Lexeme.scan "class Abcd \x7b \x7d").toOption.bind fun ls =>
      ((Lexeme.scan "class Abcd \x7b ; \x7d").bind parse).toOption.map fun trees =>
        (((ofTable (.ofLexemes ls)).calls [trees]).1,
          ((ofTable (.ofLexemes ls)).calls [trees]).2.finish.toOption.map fun model =>
            ((model.scope 1).opening, (model.scope 1).closing))) =
      some ([.error (.mismatch ";" "\x7d")], some (some 4, none)) := by
    decide +kernel
  cases hscan : Lexeme.scan "class Abcd \x7b \x7d" with
  | error e => simp [hscan, Except.toOption] at hrun
  | ok ls =>
    cases hparse : (Lexeme.scan "class Abcd \x7b ; \x7d").bind parse with
    | error e => simp [hparse, Except.toOption] at hrun
    | ok trees =>
      cases hfinish : ((ofTable (.ofLexemes ls)).calls [trees]).2.finish with
      | error e => simp [hscan, hparse, hfinish, Except.toOption] at hrun
      | ok model =>
        simp only [hscan, hparse, hfinish, Except.toOption, Option.bind_some, Option.map_some,
          Option.some.injEq, Prod.mk.injEq] at hrun
        obtain ⟨hanswers, hopening, hclosing⟩ := hrun
        refine ⟨ls, trees, model, rfl, rfl, hanswers, hfinish, hopening, hclosing, fun hlaw => ?_⟩
        simpa [hanswers] using hlaw ⟨model, hfinish⟩

end Builder

end JavaLint
