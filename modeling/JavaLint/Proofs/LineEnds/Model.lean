import JavaLint.Proofs.Layout.Sketch
import JavaLint.Proofs.LineEnds.Table
import Mathlib.Tactic.Common

/-!
# The model of a file and the ends of lines

The walk over a changed tree makes the same steps as the walk over the tree, on changed texts: if one
succeeds then so does the other, and what it has built is changed text by text (`walkForest_withCrlf`).
So the model of the changed file is the changed model (`build_withCrlf`).
-/

namespace JavaLint

variable (move : Nat → Nat)

/-! ## Changed builders -/

/-- The node with changed leaves. -/
def Ancestor.withCrlf (a : Ancestor) : Ancestor :=
  ⟨a.kind, a.inside.withCrlf move⟩

/-- A changed node is of the same kind. -/
@[simp] lemma Ancestor.kind_withCrlf (a : Ancestor) : (a.withCrlf move).kind = a.kind := rfl

/-- The nodes around a place with changed leaves. -/
def Ancestry.withCrlf (path : Ancestry) : Ancestry :=
  path.map (.withCrlf move)

/-- The declaration at hand with changed texts. -/
def Pending.withCrlf (p : Pending) : Pending :=
  { p with annotations := p.annotations.map Text.withCrlf }

/-- What is known of a token, with changed texts. -/
def Classification.withCrlf (c : Classification) : Classification :=
  { c with annotations := c.annotations.map Text.withCrlf }

/-- The builder with changed texts. -/
def Builder.withCrlf (b : Builder) : Builder :=
  { b with
    table := b.table.withCrlf
    classes := b.classes.map .withCrlf
    pending := b.pending.map .withCrlf
    declarations := b.declarations.map .withCrlf }

/-- The model with changed texts. -/
def Model.withCrlf (m : Model) : Model :=
  { m with
    classes := m.classes.map .withCrlf
    declarations := m.declarations.map .withCrlf }

/-! ## What depends on the nodes around a place -/

namespace Ancestry

variable (path : Ancestry)

/-- The innermost node is of the same kind. -/
@[simp] lemma kind_withCrlf : Ancestry.kind (path.withCrlf move) = Ancestry.kind path := by
  cases path <;> rfl

/-- A name has the same role. -/
lemma nameRole?_withCrlf : nameRole? (path.withCrlf move) = nameRole? path := by
  rcases path with _ | ⟨_, _ | ⟨_, _⟩⟩ <;> rfl

/-- A constant is one without being declared so if it was before. -/
lemma isImplicitConstant_withCrlf (kind : NodeKind) :
    isImplicitConstant kind (path.withCrlf move) = isImplicitConstant kind path := by
  rcases path with _ | ⟨_, _ | ⟨_, _⟩⟩ <;> cases kind <;> rfl

/-- An operator is none if it was none before. -/
lemma isNoOperator_withCrlf (kind : Kind) (parent : Ancestor) :
    isNoOperator kind (parent.withCrlf move) = isNoOperator kind parent := by
  simp only [isNoOperator, Ancestor.withCrlf, Forest.startsWithLabel_withCrlf]
  split <;> rfl

/-- The annotations that a node adds are changed. -/
lemma notedAnnotations_withCrlf (kind : NodeKind) (inside : Forest Lexeme) :
    Builder.notedAnnotations (path.withCrlf move) kind (inside.withCrlf move) =
      (Builder.notedAnnotations path kind inside).map Text.withCrlf := by
  rcases path with _ | ⟨list, _ | ⟨owner, above⟩⟩
  · rfl
  · rfl
  · simp only [withCrlf, List.map_cons, Builder.notedAnnotations, Ancestor.withCrlf,
      Forest.annotationName_withCrlf]
    split <;> rfl

end Ancestry

/-! ## The steps of the walk -/

namespace Builder

variable {b b' : Builder} {path : Ancestry} {kind : NodeKind} {inside : Forest Lexeme}

/-- Changing the pending declaration and then all texts. -/
lemma updatePending_withCrlf {f : Pending → Pending} (hf : ∀ p, (f p).withCrlf = f p.withCrlf) :
    b.withCrlf.updatePending f = (b.updatePending f).withCrlf := by
  rw [updatePending_eq, updatePending_eq]
  simp only [withCrlf, map_modifyHead hf]

/-- Entering a node. -/
lemma enter_withCrlf (b : Builder) (path : Ancestry) (kind : NodeKind) (inside : Forest Lexeme) :
    b.withCrlf.enter (path.withCrlf move) kind (inside.withCrlf move) =
      (b.enter path kind inside).withCrlf := by
  have hannotate (names : List String) (p : Pending) :
      (p.annotate names).withCrlf = p.withCrlf.annotate (names.map Text.withCrlf) := by
    simp [Pending.withCrlf, Pending.annotate]
  have hpending := map_modifyHead (hannotate (notedAnnotations path kind inside)) b.pending
  rw [enter_eq, enter_eq]
  simp only [withCrlf, Ancestry.notedAnnotations_withCrlf, List.map_append, hpending]
  cases kind.isBraced <;> cases kind.declaresNames <;> rfl

/-- Settling what waits for a code token. -/
lemma settle_withCrlf (b : Builder) (token : Nat) :
    b.withCrlf.settle token = (b.settle token).withCrlf := by
  simp only [settle, withCrlf, List.map_map]
  rfl

/-- Taking the role from a token. -/
lemma loseRole_withCrlf (classes : Array Classification) (number : Nat) :
    (classes.map Classification.withCrlf).modify number (fun c => { c with role := .other }) =
      (classes.modify number fun c => { c with role := .other }).map .withCrlf := by
  apply Array.toList_inj.1
  rw [Array.toList_modify, Array.toList_map, Array.toList_map, Array.toList_modify]
  symm
  apply map_modify
  exact fun _ => rfl

/-- Noting a name. -/
lemma noteName_withCrlf {owner : NodeKind} {token : Nat} {role : Role}
    (h : b.noteName owner token role = .ok b') :
    b.withCrlf.noteName owner token role = .ok b'.withCrlf := by
  unfold noteName at h ⊢
  cases hpending : b.pending with
  | nil => simp [hpending] at h
  | cons p ps =>
    rw [hpending] at h
    obtain rfl := Except.ok.inj h
    simp only [withCrlf, hpending, List.map_cons]
    rfl

/-- Classifying a token. -/
lemma classify_withCrlf {token : Token} (h : b.classify path token = .ok b') :
    b.withCrlf.classify (path.withCrlf move) token.withCrlf = .ok b'.withCrlf := by
  cases path with
  | nil =>
    obtain rfl := Except.ok.inj h
    rfl
  | cons parent above =>
    have hname : nameRole? (List.map (Ancestor.withCrlf move) above) = nameRole? above :=
      Ancestry.nameRole?_withCrlf move above
    have hkind : Ancestry.kind (List.map (Ancestor.withCrlf move) above) = Ancestry.kind above :=
      Ancestry.kind_withCrlf move above
    have hoperator : isNoOperator token.withCrlf.kind (parent.withCrlf move) =
        isNoOperator token.kind parent := Ancestry.isNoOperator_withCrlf move token.kind parent
    unfold classify at h ⊢
    simp only [Ancestry.withCrlf, List.map_cons, hname, hkind, hoperator, Ancestor.kind_withCrlf]
    simp only at h
    split at h
    · cases hrole : nameRole? above with
      | none =>
        rw [hrole] at h
        obtain rfl := Except.ok.inj h
        rfl
      | some role =>
        rw [hrole] at h
        exact noteName_withCrlf h
    · dsimp only [Token.withCrlf]
      split at h
      · split at h
        · rename_i hmodifier
          obtain rfl := Except.ok.inj h
          rw [if_pos hmodifier]
          exact congrArg Except.ok (updatePending_withCrlf fun _ => rfl)
        · rename_i hmodifier
          obtain rfl := Except.ok.inj h
          rw [if_neg hmodifier]
      · obtain rfl := Except.ok.inj h
        rfl
    · split at h
      · rename_i hno
        obtain rfl := Except.ok.inj h
        rw [if_pos hno, withCrlf, loseRole_withCrlf]
        rfl
      · rename_i hno
        obtain rfl := Except.ok.inj h
        rw [if_neg hno]

/-- Meeting a leaf. -/
lemma visit_withCrlf {leaf : Lexeme} (h : b.visit path leaf = .ok b') :
    b.withCrlf.visit (path.withCrlf move) (leaf.withCrlf move) = .ok b'.withCrlf := by
  have hentry : b.withCrlf.table.ofLexeme? b.withCrlf.leaves = b.table.ofLexeme? b.leaves := rfl
  cases hnumber : b.table.ofLexeme? b.leaves with
  | none =>
    have hleaf : leaf.kind = .newline ∨ leaf.text = "" := by
      by_contra hleaf
      simp [visit, hnumber, not_or.1 hleaf] at h
    rw [visit_eq_of_skip hnumber hleaf] at h
    obtain rfl := Except.ok.inj h
    have hleaf' : (leaf.withCrlf move).kind = .newline ∨ (leaf.withCrlf move).text = "" := by
      refine hleaf.imp_right fun htext => ?_
      rw [Lexeme.text_withCrlf, htext]
      rfl
    rw [visit_eq_of_skip (hentry.trans hnumber) hleaf']
    rfl
  | some number =>
    have htokens : b.withCrlf.table.tokens[number]? = b.table.tokens[number]?.map .withCrlf :=
      LineTable.getElem?_tokens_withCrlf b.table number
    cases htoken : b.table.tokens[number]? with
    | none => simp [visit, hnumber, htoken] at h
    | some token =>
      have htext : token.text = leaf.text := by
        by_contra htext
        simp [visit, hnumber, htoken, htext] at h
      have htext' : token.withCrlf.text = (leaf.withCrlf move).text := congrArg Text.withCrlf htext
      have hcode : token.withCrlf.isCode = token.isCode := rfl
      rw [visit_eq_of_token hnumber htoken htext] at h
      rw [htoken] at htokens
      rw [visit_eq_of_token (hentry.trans hnumber) htokens htext', hcode]
      split at h
      · rename_i hiscode
        have hclassify := classify_withCrlf move h
        rw [← settle_withCrlf] at hclassify
        rw [if_pos hiscode]
        exact hclassify
      · rename_i hiscode
        obtain rfl := Except.ok.inj h
        rw [if_neg hiscode]
        rfl

/-- Recording the declarations of a node. -/
lemma record_withCrlf {p : Pending} (h : b.record kind inside p = .ok b') :
    b.withCrlf.record kind (inside.withCrlf move) p.withCrlf = .ok b'.withCrlf := by
  unfold record at h ⊢
  cases hkind : DeclKind.ofNode? kind with
  | none =>
    rw [hkind] at h
    obtain rfl := Except.ok.inj h
    rfl
  | some declKind =>
    rw [hkind] at h
    cases hfirst : p.firstToken with
    | none => simp [hfirst] at h
    | some first =>
      have hfirst' : p.withCrlf.firstToken = some first := hfirst
      rw [hfirst] at h
      obtain rfl := Except.ok.inj h
      have hdeclarations : (p.names.map fun name => Declaration.ofNode declKind (inside.withCrlf move)
          ((b.withCrlf.table.tokens[name.1]?.map Token.text).getD "") name.1 first) =
          (p.names.map fun name => Declaration.ofNode declKind inside
            ((b.table.tokens[name.1]?.map Token.text).getD "") name.1 first).map .withCrlf := by
        rw [List.map_map]
        apply List.map_congr_left
        intro name _
        have htext : (b.withCrlf.table.tokens[name.1]?.map Token.text).getD "" =
            Text.withCrlf ((b.table.tokens[name.1]?.map Token.text).getD "") := by
          rw [withCrlf, LineTable.getElem?_tokens_withCrlf]
          cases b.table.tokens[name.1]? <;> rfl
        rw [htext, Declaration.ofNode_withCrlf]
        rfl
      rw [hfirst']
      dsimp only
      rw [show p.withCrlf.names = p.names from rfl, hdeclarations]
      simp only [withCrlf, List.map_append]

/-- Writing what was collected to the names of a declaration. -/
lemma writeNames_withCrlf (b : Builder) (modifiers : List Keyword) (p : Pending) :
    b.withCrlf.writeNames modifiers p.withCrlf = (b.writeNames modifiers p).withCrlf := by
  have hnames (classes : Array Classification) (names : List (Nat × Role)) :
      names.foldl (fun classes name => classes.setIfInBounds name.1
        { role := name.2, modifiers := modifiers, annotations := p.withCrlf.annotations })
        (classes.map .withCrlf) =
      (names.foldl (fun classes name => classes.setIfInBounds name.1
        { role := name.2, modifiers := modifiers, annotations := p.annotations }) classes).map
          Classification.withCrlf := by
    induction names generalizing classes with
    | nil => rfl
    | cons name names ih =>
      rw [List.foldl_cons, List.foldl_cons, ← ih]
      congr 1
      apply Array.toList_inj.1
      simp only [Array.toList_setIfInBounds, Array.toList_map, List.map_set]
      rfl
  simp only [writeNames, withCrlf, ← hnames]
  rfl

/-- Finishing a declaration. -/
lemma closePending_withCrlf (h : b.closePending path kind inside = .ok b') :
    b.withCrlf.closePending (path.withCrlf move) kind (inside.withCrlf move) = .ok b'.withCrlf := by
  unfold closePending at h ⊢
  cases hpending : b.pending with
  | nil =>
    rw [hpending] at h
    obtain rfl := Except.ok.inj h
    simp [withCrlf, hpending]
  | cons p ps =>
    rw [hpending] at h
    have hpending' : b.withCrlf.pending = p.withCrlf :: ps.map .withCrlf := by
      simp [withCrlf, hpending]
    have hrecord := record_withCrlf move h
    rw [← writeNames_withCrlf] at hrecord
    rw [hpending', Ancestry.isImplicitConstant_withCrlf]
    exact hrecord

/-- If a scope is closed, then it is not that of the file, and its braces are known. -/
lemma exists_of_closeScope (h : b.closeScope = .ok b') :
    ∃ id ids s first last, b.stack = id :: ids ∧ id ≠ 0 ∧ b.scopes[id]? = some s ∧
      s.opening = some first ∧ b.lastCode = some last := by
  unfold closeScope at h
  dsimp only at h
  split at h
  · cases h
  · rename_i hid
    split at h
    · rename_i first last hopening hlast
      obtain ⟨s, hs, hfirst⟩ := Option.bind_eq_some_iff.1 hopening
      cases hstack : b.stack with
      | nil => simp [currentScope, hstack] at hid
      | cons id ids =>
        have hcurrent : b.currentScope = id := by simp [currentScope, hstack]
        rw [hcurrent] at hid hs
        exact ⟨id, ids, s, first, last, rfl, hid, hs, hfirst, hlast⟩
    · cases h

/-- Closing a scope. -/
lemma closeScope_withCrlf (h : b.closeScope = .ok b') :
    b.withCrlf.closeScope = .ok b'.withCrlf := by
  have hline (first last : Nat) : b.withCrlf.onOneLine first last = b.onOneLine first last := by
    simp only [onOneLine, withCrlf, LineTable.getElem?_tokens_withCrlf, Option.map_map]
    rfl
  obtain ⟨id, ids, s, first, last, hstack, hid, hs, hfirst, hlast⟩ := exists_of_closeScope h
  have hclosed : b.withCrlf.closeScope = _ := closeScope_eq hstack hid hs hfirst hlast
  rw [closeScope_eq hstack hid hs hfirst hlast] at h
  obtain rfl := Except.ok.inj h
  rw [hclosed, hline]
  rfl

/-- Leaving a node. -/
lemma leave_withCrlf (h : b.leave path kind inside = .ok b') :
    b.withCrlf.leave (path.withCrlf move) kind (inside.withCrlf move) = .ok b'.withCrlf := by
  unfold leave at h ⊢
  obtain ⟨b₁, hdeclared, hrest⟩ := exists_of_bind_eq_ok h
  have hdeclared' : (if kind.declaresNames then
      b.withCrlf.closePending (path.withCrlf move) kind (inside.withCrlf move)
      else .ok b.withCrlf) = .ok b₁.withCrlf := by
    cases hdeclares : kind.declaresNames with
    | true =>
      rw [hdeclares] at hdeclared
      exact closePending_withCrlf move hdeclared
    | false =>
      rw [hdeclares] at hdeclared
      obtain rfl := Except.ok.inj hdeclared
      rfl
  rw [hdeclared']
  dsimp only [Except.bind]
  cases hbraced : kind.isBraced with
  | true =>
    rw [hbraced] at hrest
    exact closeScope_withCrlf hrest
  | false =>
    rw [hbraced] at hrest
    obtain rfl := Except.ok.inj hrest
    rfl

/-- The walk over a changed forest does what the walk over the forest does. -/
theorem walkForest_withCrlf {f : Forest Lexeme} (h : walkForest path f b = .ok b') :
    walkForest (path.withCrlf move) (f.withCrlf move) b.withCrlf = .ok b'.withCrlf := by
  induction f generalizing path b b' with
  | nil =>
    obtain rfl := Except.ok.inj h
    rfl
  | leaf l rest ih =>
    obtain ⟨b₁, hvisit, hrest⟩ := exists_of_bind_eq_ok h
    rw [Forest.withCrlf, walkForest, visit_withCrlf move hvisit]
    exact ih hrest
  | node kind inside rest ihInside ihRest =>
    obtain ⟨b₁, hinside, hafter⟩ := exists_of_bind_eq_ok h
    obtain ⟨b₂, hleave, hrest⟩ := exists_of_bind_eq_ok hafter
    have hinside' := ihInside hinside
    rw [← enter_withCrlf move] at hinside'
    have hleave' := leave_withCrlf move hleave
    rw [Forest.withCrlf, walkForest]
    rw [show Ancestry.withCrlf move (⟨kind, inside⟩ :: path) =
      ⟨kind, inside.withCrlf move⟩ :: path.withCrlf move from rfl] at hinside'
    rw [hinside']
    dsimp only [Except.bind]
    rw [hleave']
    exact ihRest hrest

/-! ## The finished model -/

/-- The builder for a changed table, before the walk. -/
lemma ofTable_withCrlf (table : LineTable) : ofTable table.withCrlf = (ofTable table).withCrlf := by
  have hclasses : (table.tokens.map Token.withCrlf).map
      (fun t => if t.isCode then ({ role := Role.ofKind t.kind } : Classification) else {}) =
      (table.tokens.map fun t => if t.isCode then { role := Role.ofKind t.kind } else {}).map
        Classification.withCrlf := by
    rw [Array.map_map, Array.map_map]
    congr 1
    funext t
    cases hcode : t.isCode <;> simp only [Function.comp_apply, Token.isCode_withCrlf, hcode] <;> rfl
  simp only [ofTable, withCrlf, LineTable.count_withCrlf]
  rw [LineTable.withCrlf, hclasses]
  rfl

/-- The end of a walk over changed trees. -/
lemma closed_withCrlf (h : b.closed = .ok b') : b.withCrlf.closed = .ok b'.withCrlf := by
  have hpending : b.withCrlf.pending.isEmpty = b.pending.isEmpty := by
    simp [withCrlf]
  have hstack : b.withCrlf.stack = b.stack := rfl
  obtain rfl := closed_eq_ok h
  unfold closed at h ⊢
  rw [hpending, hstack]
  split at h
  · cases h
  · rename_i hdone
    rw [if_neg hdone]
    split at h
    · cases h
    · rename_i hfile
      rw [if_neg hfile]

/-- The walk over the changed trees of a file. -/
lemma walk_withCrlf {trees : Forest Lexeme} (h : b.walk trees = .ok b') :
    b.withCrlf.walk (trees.withCrlf move) = .ok b'.withCrlf := by
  unfold walk at h ⊢
  split at h
  · cases h
  · rename_i hfresh
    obtain ⟨b₁, hforest, hclosed⟩ := exists_of_bind_eq_ok h
    have hforest' : walkForest [⟨.sourceFile, trees.withCrlf move⟩] (trees.withCrlf move)
        { b.withCrlf with walked := true } = .ok b₁.withCrlf := walkForest_withCrlf move hforest
    rw [show b.withCrlf.walked = b.walked from rfl, if_neg hfresh, hforest']
    exact closed_withCrlf hclosed

/-- The model that was built of a changed file. -/
lemma finish_withCrlf {model : Model} (h : b.finish = .ok model) :
    b.withCrlf.finish = .ok model.withCrlf := by
  have hsorted : (b.declarations.mergeSort declaredBefore).map Declaration.withCrlf =
      (b.declarations.map Declaration.withCrlf).mergeSort declaredBefore := by
    apply List.map_mergeSort
    intro d _ e _
    rfl
  unfold finish at h ⊢
  split at h
  · rename_i hwalked
    obtain rfl := Except.ok.inj h
    rw [show b.withCrlf.walked = b.walked from rfl, if_pos hwalked]
    simp only [Model.withCrlf, withCrlf, LineTable.lines_withCrlf, hsorted]
  · cases h

end Builder

/-- The model of a changed file is the changed model. -/
theorem Model.build_withCrlf {table : LineTable} {trees : Forest Lexeme} {model : Model}
    (h : Model.build table trees = .ok model) :
    Model.build table.withCrlf (trees.withCrlf move) = .ok model.withCrlf := by
  unfold Model.build at h ⊢
  cases hwalk : (Builder.ofTable table).walk trees with
  | error e => simp [hwalk] at h
  | ok b =>
    rw [hwalk] at h
    rw [Builder.ofTable_withCrlf, Builder.walk_withCrlf move hwalk]
    cases hfinish : b.finish with
    | error e => simp [hfinish] at h
    | ok m =>
      obtain rfl : m = model := by simpa [hfinish] using h
      simp only [Builder.finish_withCrlf hfinish]

end JavaLint
