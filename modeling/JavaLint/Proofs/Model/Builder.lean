import JavaLint.Model.Builder
import Mathlib.Tactic.Common

/-!
# The steps of the walk

What one step of the walk over a tree does to a builder, said once for each step, so that no later
proof has to look into the step again.

* `enter_eq`, `classify_eq`, `closePending_eq` and `closeScope_eq` write a step as one change of the
  builder, under the conditions under which it does not fail.
* `visit_eq_of_skip` and `visit_eq_of_token` say which leaves are passed over and which are not.
* `scopes_settle` describes the loop over the open scopes.
-/

namespace JavaLint

/-- A node that gives a role to a name declares it. -/
lemma NodeKind.declaresNames_of_nameRole? {kind : NodeKind} {role : Role}
    (h : kind.nameRole? = some role) : kind.declaresNames = true := by
  cases kind <;> simp_all [NodeKind.nameRole?, NodeKind.declaresNames, NodeKind.isTypeDecl]

/-- A node that gives a role to the names of its declarators declares them. -/
lemma NodeKind.declaresNames_of_variableRole? {kind : NodeKind} {role : Role}
    (h : kind.variableRole? = some role) : kind.declaresNames = true := by
  cases kind <;> simp_all [NodeKind.variableRole?, NodeKind.declaresNames]

/-- A declarator declares nothing by itself. -/
lemma NodeKind.declaresNames_variableDeclarator :
    NodeKind.variableDeclarator.declaresNames = false := rfl

/-- The owner of a name with a role is the innermost node around it that declares names. -/
lemma nameRole?_owner {above : Ancestry} {owner : NodeKind} {role : Role}
    (h : nameRole? above = some (owner, role)) :
    (above.find? fun a => a.kind.declaresNames).map Ancestor.kind = some owner := by
  match above with
  | [] => simp [nameRole?] at h
  | [a] =>
    obtain ⟨r, hr, hpair⟩ := Option.map_eq_some_iff.1 h
    obtain ⟨rfl, -⟩ := Prod.mk.injEq .. ▸ hpair
    simp [List.find?, NodeKind.declaresNames_of_nameRole? hr]
  | a :: a' :: rest =>
    simp only [nameRole?] at h
    split at h
    · rename_i ha
      obtain ⟨r, hr, hpair⟩ := Option.map_eq_some_iff.1 h
      obtain ⟨rfl, -⟩ := Prod.mk.injEq .. ▸ hpair
      simp [List.find?, ha, NodeKind.declaresNames_variableDeclarator,
        NodeKind.declaresNames_of_variableRole? hr]
    · obtain ⟨r, hr, hpair⟩ := Option.map_eq_some_iff.1 h
      obtain ⟨rfl, -⟩ := Prod.mk.injEq .. ▸ hpair
      simp [List.find?, NodeKind.declaresNames_of_nameRole? hr]

/-- Adds the names of annotations to a pending declaration. -/
def Pending.annotate (names : List String) (p : Pending) : Pending :=
  { p with annotations := p.annotations ++ names }

/-- Adding no annotations changes nothing. -/
@[simp] lemma Pending.annotate_nil : Pending.annotate [] = id := by
  funext p
  simp [annotate]

/-- Adds names and modifiers to a pending declaration. -/
def Pending.note (names : List (Nat × Role)) (modifiers : List Keyword) (p : Pending) : Pending :=
  { p with names := p.names ++ names, modifiers := p.modifiers ++ modifiers }

/-- Adding nothing changes nothing. -/
@[simp] lemma Pending.note_nil : Pending.note [] [] = id := by
  funext p
  simp [note]

namespace Builder

variable {b b' : Builder} {path : Ancestry} {kind : NodeKind} {inside : Forest Lexeme}

/-! ## Entering a node -/

/-- Only the innermost pending declaration is changed. -/
lemma updatePending_eq (b : Builder) (f : Pending → Pending) :
    b.updatePending f = { b with pending := b.pending.modifyHead f } := by
  obtain ⟨_, _, _, _, _, pending, _, _, _, _⟩ := b
  cases pending <;> rfl

/-- The names of annotations that a node adds to the pending declaration when it is entered. -/
def notedAnnotations (path : Ancestry) (kind : NodeKind) (inside : Forest Lexeme) : List String :=
  match path with
  | list :: owner :: _ =>
    if kind = .annotationUse && list.kind = .modifiers && owner.kind.declaresNames then
      [inside.annotationName]
    else []
  | _ => []

/-- Entering a node that adds annotations, for all nodes alike. -/
lemma noteAnnotations_eq (b : Builder) (path : Ancestry) (kind : NodeKind) (inside : Forest Lexeme) :
    (if kind = .annotationUse then b.noteAnnotations path inside else b) =
      { b with pending := b.pending.modifyHead (.annotate (notedAnnotations path kind inside)) } := by
  match path with
  | [] => simp [noteAnnotations, notedAnnotations]
  | [_] => simp [noteAnnotations, notedAnnotations]
  | list :: owner :: rest =>
    by_cases hkind : kind = .annotationUse
    · simp only [hkind, noteAnnotations, notedAnnotations, decide_true, Bool.true_and, if_true]
      split
      · exact updatePending_eq b _
      · simp
    · simp [hkind, notedAnnotations]

/-- The scope that a braced node opens. -/
def newScope (b : Builder) (kind : NodeKind) : Scope where
  id := b.scopes.size
  parent := some b.currentScope
  depth := b.stack.length
  kind := kind.scopeKind

/-- Entering a node opens a scope, if it is braced, and a declaration, if it declares names. -/
lemma enter_eq (b : Builder) (path : Ancestry) (kind : NodeKind) (inside : Forest Lexeme) :
    b.enter path kind inside =
      { b with
        scopes := if kind.isBraced then b.scopes.push (b.newScope kind) else b.scopes
        stack := if kind.isBraced then b.scopes.size :: b.stack else b.stack
        pending := (if kind.declaresNames then [{}] else []) ++
          b.pending.modifyHead (.annotate (notedAnnotations path kind inside)) } := by
  unfold enter
  simp only [noteAnnotations_eq]
  cases kind.isBraced <;> cases kind.declaresNames <;> rfl

/-! ## Meeting a leaf -/

/-- The token of the next leaf is noted to lie in the innermost scope. -/
def meet (b : Builder) (number : Nat) : Builder :=
  { b with
    tokenScopes := b.tokenScopes.setIfInBounds number b.currentScope
    leaves := b.leaves + 1 }

/-- A line break or an empty leaf is passed over. -/
lemma visit_eq_of_skip {leaf : Lexeme} (hentry : b.table.ofLexeme? b.leaves = none)
    (hleaf : leaf.kind = .newline ∨ leaf.text = "") :
    b.visit path leaf = .ok { b with leaves := b.leaves + 1 } := by
  have hpass : (leaf.kind != .newline && !leaf.text.isEmpty) = false := by
    rcases hleaf with hleaf | hleaf <;> simp [hleaf]
  simp [visit, hentry, hpass]

/-- A leaf with a token of the same text is met, and means something if it is code. -/
lemma visit_eq_of_token {leaf : Lexeme} {number : Nat} {token : Token}
    (hentry : b.table.ofLexeme? b.leaves = some number)
    (htoken : b.table.tokens[number]? = some token) (htext : token.text = leaf.text) :
    b.visit path leaf =
      if token.isCode then ((b.meet number).settle number).classify path token
      else .ok (b.meet number) := by
  simp [visit, hentry, htoken, htext, meet]

/-- The scopes that are open and wait for their first token get it. -/
lemma scopes_settle (b : Builder) (token id : Nat) :
    (b.settle token).scopes[id]? = (b.scopes[id]?).map fun s =>
      if id ≠ 0 ∧ id ∈ b.stack then { s with opening := s.opening.or (some token) } else s := by
  unfold settle
  simp only
  -- The loop over the open scopes; a scope that comes twice keeps its first token.
  generalize b.scopes = scopes
  induction b.stack generalizing scopes with
  | nil => simp
  | cons first stack ih =>
    rw [List.foldl_cons, ih]
    by_cases hzero : first = 0
    · by_cases hid : id = 0 <;> simp [hzero, hid]
    · rw [if_neg hzero, Array.getElem?_modify]
      by_cases hfirst : first = id
      · subst hfirst
        cases scopes[first]? with
        | none => simp
        | some s => by_cases hmem : first ∈ stack <;> simp [hzero, hmem]
      · have hfirst' : id ≠ first := fun h => hfirst h.symm
        simp [hfirst, hfirst']

/-- Meeting a code token opens no scope. -/
lemma size_scopes_settle (b : Builder) (token : Nat) :
    (b.settle token).scopes.size = b.scopes.size := by
  unfold settle
  simp only
  generalize b.scopes = scopes
  induction b.stack generalizing scopes with
  | nil => rfl
  | cons first stack ih =>
    rw [List.foldl_cons, ih]
    split
    · rfl
    · exact Array.size_modify ..

/-- The name that a code token adds to the pending declaration. -/
def notedNames (path : Ancestry) (number : Nat) : List (Nat × Role) :=
  match path with
  | [] => []
  | parent :: above =>
    if parent.kind = .name then ((nameRole? above).map fun (_, role) => (number, role)).toList
    else []

/-- The name that is added is the token itself. -/
lemma fst_of_mem_notedNames {number : Nat} {name : Nat × Role}
    (h : name ∈ notedNames path number) : name.1 = number := by
  unfold notedNames at h
  split at h
  · simp at h
  · split at h
    · obtain ⟨result, -, rfl⟩ := Option.map_eq_some_iff.1 (Option.mem_toList.1 h)
      rfl
    · simp at h

/-- The modifier that a code token adds to the pending declaration. -/
def notedModifiers (path : Ancestry) (kind : Kind) : List Keyword :=
  match path with
  | [] => []
  | parent :: above =>
    if parent.kind = .modifiers then
      match kind with
      | .keyword k => if (Ancestry.kind above).declaresNames && k.isModifier then [k] else []
      | _ => []
    else []

/-- The code token turns out to be no operator. -/
def losesRole (path : Ancestry) (kind : Kind) : Bool :=
  match path with
  | [] => false
  | parent :: _ =>
    parent.kind ≠ .name && parent.kind ≠ .modifiers && isNoOperator kind parent

/-- A code token may add a name or a modifier to the pending declaration, or lose its role.  Only
a name needs the declaration to be there. -/
lemma classify_eq {token : Token} (hpending : notedNames path token.number ≠ [] → b.pending ≠ []) :
    b.classify path token = .ok { b with
      pending := b.pending.modifyHead
        (.note (notedNames path token.number) (notedModifiers path token.kind))
      classes := if losesRole path token.kind then
          b.classes.modify token.number fun c => { c with role := .other }
        else b.classes } := by
  match path with
  | [] => simp [classify, notedNames, notedModifiers, losesRole]
  | parent :: above =>
    by_cases hname : parent.kind = .name
    · cases hrole : nameRole? above with
      | none => simp [classify, notedNames, notedModifiers, losesRole, hname, hrole]
      | some result =>
        obtain ⟨p, ps, hps⟩ := List.exists_cons_of_ne_nil (hpending (by simp [notedNames, hname, hrole]))
        simp [classify, notedNames, notedModifiers, losesRole, hname, hrole, noteName, hps,
          Pending.note]
    · by_cases hmodifiers : parent.kind = .modifiers
      · simp only [classify, notedNames, notedModifiers, losesRole, hmodifiers]
        cases token.kind with
        | keyword k =>
          simp only [updatePending_eq]
          split
          · cases b.pending <;> simp [Pending.note]
          · simp
        | _ => simp
      · simp only [classify, notedNames, notedModifiers, losesRole, hname, hmodifiers]
        split <;> simp_all

/-! ## Leaving a node -/

/-- The modifiers of a declaration, with those that it has without being declared so. -/
def allModifiers (path : Ancestry) (kind : NodeKind) (p : Pending) : List Keyword :=
  if isImplicitConstant kind path then p.modifiers ++ implicitModifiers else p.modifiers

/-- The declarations that are recorded for a node whose first token is `first`. -/
def recorded (b : Builder) (kind : NodeKind) (inside : Forest Lexeme) (p : Pending) (first : Nat) :
    List Declaration :=
  match DeclKind.ofNode? kind with
  | none => []
  | some declKind => p.names.map fun name =>
    .ofNode declKind inside ((b.table.tokens[name.1]?.map Token.text).getD "") name.1 first

/-- A declaration that is recorded starts with the first token and is about one of the names. -/
lemma mem_recorded {p : Pending} {first : Nat} {d : Declaration}
    (h : d ∈ b.recorded kind inside p first) :
    ∃ name ∈ p.names, d.firstToken = first ∧ d.nameToken = name.1 := by
  unfold recorded at h
  split at h
  · simp at h
  · obtain ⟨name, hname, rfl⟩ := List.mem_map.1 h
    exact ⟨name, hname, rfl, rfl⟩

/-- Writing names to the classifications adds and removes none. -/
lemma size_classes_writeNames (b : Builder) (modifiers : List Keyword) (p : Pending) :
    (b.writeNames modifiers p).classes.size = b.classes.size := by
  unfold writeNames
  simp only
  generalize b.classes = classes
  induction p.names generalizing classes with
  | nil => rfl
  | cons name names ih => rw [List.foldl_cons, ih, Array.size_setIfInBounds]

/-- A declaration that has its first token is finished without a fault. -/
lemma closePending_eq {p : Pending} {ps : List Pending} {first : Nat}
    (hpending : b.pending = p :: ps) (hfirst : p.firstToken = some first) :
    b.closePending path kind inside = .ok { b with
      pending := ps
      classes := (b.writeNames (allModifiers path kind p) p).classes
      declarations := b.declarations ++ b.recorded kind inside p first } := by
  simp only [closePending, hpending, record, recorded, hfirst]
  cases DeclKind.ofNode? kind <;> simp [allModifiers, writeNames]

/-- Changing an entry twice is changing it once. -/
lemma modify_modify {α : Type} (xs : Array α) (i : Nat) (f g : α → α) :
    (xs.modify i f).modify i g = xs.modify i fun x => g (f x) := by
  apply Array.ext_getElem?
  intro j
  by_cases hij : i = j
  · subst hij
    simp [Array.getElem?_modify, Function.comp_def]
  · simp [Array.getElem?_modify, hij]

/-- A scope that has its first token is closed at the last one without a fault. -/
lemma closeScope_eq {id : Nat} {ids : List Nat} {s : Scope} {first last : Nat}
    (hstack : b.stack = id :: ids) (hid : id ≠ 0) (hscope : b.scopes[id]? = some s)
    (hopening : s.opening = some first) (hlast : b.lastCode = some last) :
    b.closeScope = .ok { b with
      stack := ids
      scopes := b.scopes.modify id fun s =>
        { s with closing := some last, oneLine := b.onOneLine first last } } := by
  have hcurrent : b.currentScope = id := by simp [currentScope, hstack]
  simp only [closeScope, hcurrent, if_neg hid, hscope, Option.bind_some, hopening, hlast, hstack,
    List.tail_cons, modify_modify]
  rfl

/-! ## The end of the walk -/

/-- The end of the walk changes nothing. -/
lemma closed_eq_ok (h : b.closed = .ok b') : b' = b := by
  unfold closed at h
  split at h
  · simp at h
  · split at h
    · simp at h
    · exact (Except.ok.inj h).symm

/-- The model holds what the builder has found, with the declarations in the order of the file. -/
lemma finish_eq_ok {model : Model} (h : b.finish = .ok model) :
    model.scopes = b.scopes ∧ model.tokenScopes = b.tokenScopes ∧ model.classes = b.classes ∧
      model.declarations = b.declarations.mergeSort declaredBefore := by
  unfold finish at h
  split at h
  · obtain rfl := Except.ok.inj h
    exact ⟨rfl, rfl, rfl, rfl⟩
  · simp at h

end Builder

end JavaLint
