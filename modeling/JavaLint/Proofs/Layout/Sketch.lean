import JavaLint.Proofs.Layout.Tree
import JavaLint.Proofs.Model.Walk
import Mathlib.Tactic.Common

/-!
# The walk without layout

A `Sketch` is what a builder knows, less what depends on the layout of the file: code tokens are
known by their ordinals, and nothing is known of other tokens and of lines.  Each step of the walk
has a counterpart on sketches, which looks at bare trees only, and each counterpart does to the
sketch of a builder what the step does to the builder (`sketch_enter`, `sketch_code`,
`sketch_leave`).
-/

namespace JavaLint

/-- A node around a place, without layout. -/
def Ancestor.bare (a : Ancestor) : Ancestor :=
  ⟨a.kind, a.inside.bare⟩

/-- The nodes around a place, without layout. -/
def Ancestry.bare (path : Ancestry) : Ancestry :=
  path.map Ancestor.bare

/-! ## Renumbering -/

/-- A scope whose tokens are renumbered, and of whose lines nothing is known. -/
def Scope.renumber (new : Nat → Nat) (s : Scope) : Scope :=
  { s with opening := s.opening.map new, closing := s.closing.map new, oneLine := false }

/-- A pending declaration whose tokens are renumbered. -/
def Pending.renumber (new : Nat → Nat) (p : Pending) : Pending :=
  { p with
    firstToken := p.firstToken.map new
    names := p.names.map fun name => (new name.1, name.2) }

/-- A declaration whose tokens are renumbered. -/
def Declaration.renumber (new : Nat → Nat) (d : Declaration) : Declaration :=
  { d with nameToken := new d.nameToken, firstToken := new d.firstToken }

/-! ## Sketches -/

/-- What is known on the way through a tree, where code tokens are known by their ordinals. -/
structure Sketch where
  scopes : List Scope
  stack : List Nat
  /-- The classifications of the code tokens. -/
  classes : List Classification
  pending : List Pending
  lastCode : Option Nat
  declarations : List Declaration

/-- What a builder knows, less what depends on layout. -/
def Builder.sketch (b : Builder) : Sketch where
  scopes := b.scopes.toList.map (.renumber b.table.ordinal)
  stack := b.stack
  classes := LineTable.codeEntries b.table.tokens.toList b.classes.toList
  pending := b.pending.map (.renumber b.table.ordinal)
  lastCode := b.lastCode.map b.table.ordinal
  declarations := b.declarations.map (.renumber b.table.ordinal)

namespace Sketch

/-- Before the walk, nothing is known but the kinds of the words. -/
def start (kinds : List Kind) : Sketch where
  scopes := [.file]
  stack := [0]
  classes := kinds.map fun kind => { role := Role.ofKind kind }
  pending := []
  lastCode := none
  declarations := []

/-- Enters a node. -/
def enter (s : Sketch) (path : Ancestry) (kind : NodeKind) (inside : Forest Lexeme) : Sketch :=
  { s with
    scopes := if kind.isBraced then
        s.scopes ++ [{
          id := s.scopes.length, parent := some (s.stack.head?.getD 0), depth := s.stack.length
          kind := kind.scopeKind }]
      else s.scopes
    stack := if kind.isBraced then s.scopes.length :: s.stack else s.stack
    pending := (if kind.declaresNames then [{}] else []) ++
      s.pending.modifyHead (.annotate (Builder.notedAnnotations path kind inside)) }

/-- Meets the code token with the given ordinal. -/
def visit (s : Sketch) (path : Ancestry) (ordinal : Nat) (kind : Kind) : Sketch :=
  { s with
    scopes := s.scopes.mapIdx fun id scope =>
      if id ≠ 0 ∧ id ∈ s.stack then { scope with opening := scope.opening.or (some ordinal) }
      else scope
    pending := (s.pending.map fun p => { p with firstToken := p.firstToken.or (some ordinal) })
      |>.modifyHead (.note (Builder.notedNames path ordinal) (Builder.notedModifiers path kind))
    lastCode := some ordinal
    classes := if Builder.losesRole path kind then
        s.classes.modify ordinal fun c => { c with role := .other }
      else s.classes }

/-- The declarations that are recorded for a node, where `texts` are those of the words. -/
def recorded (texts : List String) (kind : NodeKind) (inside : Forest Lexeme) (p : Pending) :
    List Declaration :=
  match DeclKind.ofNode? kind with
  | none => []
  | some declKind => p.names.map fun name =>
    .ofNode declKind inside (texts[name.1]?.getD "") name.1 (p.firstToken.getD 0)

/-- Finishes the innermost declaration. -/
def closePending (s : Sketch) (texts : List String) (path : Ancestry) (kind : NodeKind)
    (inside : Forest Lexeme) : Sketch :=
  match s.pending with
  | [] => s
  | p :: ps =>
    { s with
      pending := ps
      classes := p.names.foldl (fun classes name => classes.modify name.1 fun _ =>
        { role := name.2, modifiers := Builder.allModifiers path kind p
          annotations := p.annotations }) s.classes
      declarations := s.declarations ++ recorded texts kind inside p }

/-- Closes the innermost scope. -/
def closeScope (s : Sketch) : Sketch :=
  { s with
    stack := s.stack.tail
    scopes := s.scopes.modify (s.stack.head?.getD 0) fun scope =>
      { scope with closing := s.lastCode } }

/-- Leaves a node. -/
def leave (s : Sketch) (texts : List String) (path : Ancestry) (kind : NodeKind)
    (inside : Forest Lexeme) : Sketch :=
  let s := if kind.declaresNames then s.closePending texts path kind inside else s
  if kind.isBraced then s.closeScope else s

/-- Walks over a bare forest, before which there are so many words. -/
def walk (texts : List String) (path : Ancestry) : Forest Lexeme → Nat → Sketch → Sketch
  | .nil, _, s => s
  | .leaf l rest, count, s => walk texts path rest (count + 1) (s.visit path count l.kind)
  | .node kind inside rest, count, s =>
    walk texts path rest (count + inside.leaves.length)
      ((walk texts (⟨kind, inside⟩ :: path) inside count (s.enter path kind inside)).leave
        texts path kind inside)

end Sketch

/-! ## What depends on the nodes around a place -/

namespace Ancestry

/-- The kind of the innermost node does not depend on layout. -/
@[simp] lemma kind_bare (path : Ancestry) : Ancestry.kind path.bare = Ancestry.kind path := by
  cases path <;> rfl

/-- The role of a name does not depend on layout. -/
lemma nameRole?_bare (path : Ancestry) : nameRole? path.bare = nameRole? path := by
  match path with
  | [] => rfl
  | [_] => rfl
  | _ :: _ :: _ => rfl

/-- Whether a declaration is an implicit constant does not depend on layout. -/
lemma isImplicitConstant_bare (kind : NodeKind) (path : Ancestry) :
    isImplicitConstant kind path.bare = isImplicitConstant kind path := by
  match path with
  | [] => cases kind <;> rfl
  | [_] => cases kind <;> rfl
  | _ :: _ :: _ => cases kind <;> rfl

/-- The annotations that a node adds do not depend on layout. -/
lemma notedAnnotations_bare (path : Ancestry) (kind : NodeKind) (inside : Forest Lexeme) :
    Builder.notedAnnotations path.bare kind inside.bare =
      Builder.notedAnnotations path kind inside := by
  match path with
  | [] => rfl
  | [_] => rfl
  | _ :: _ :: _ =>
    simp only [bare, List.map_cons, Builder.notedAnnotations, Forest.annotationName_bare]
    rfl

/-- The name that a token adds does not depend on layout. -/
lemma notedNames_bare (path : Ancestry) (number : Nat) :
    Builder.notedNames path.bare number = Builder.notedNames path number := by
  cases path with
  | nil => rfl
  | cons parent above =>
    have hrole := nameRole?_bare above
    simp only [bare] at hrole
    simp only [bare, List.map_cons, Builder.notedNames, hrole]
    rfl

/-- The modifier that a token adds does not depend on layout. -/
lemma notedModifiers_bare (path : Ancestry) (kind : Kind) :
    Builder.notedModifiers path.bare kind = Builder.notedModifiers path kind := by
  cases path with
  | nil => rfl
  | cons parent above =>
    have hkind := kind_bare above
    simp only [bare] at hkind
    simp only [bare, List.map_cons, Builder.notedModifiers, hkind]
    rfl

/-- Whether a token is no operator does not depend on layout. -/
lemma losesRole_bare (path : Ancestry) (kind : Kind) :
    Builder.losesRole path.bare kind = Builder.losesRole path kind := by
  cases path with
  | nil => rfl
  | cons parent above =>
    have hoperator : isNoOperator kind parent.bare = isNoOperator kind parent := by
      simp only [isNoOperator, Ancestor.bare, Forest.startsWithLabel_bare]
      split <;> rfl
    simp only [bare, List.map_cons, Builder.losesRole, hoperator]
    rfl

end Ancestry

/-! ## The steps on sketches -/

/-- Changing the first entry and then all is changing all and then the first. -/
lemma map_modifyHead {α β : Type} {f : α → α} {f' : β → β} {g : α → β}
    (h : ∀ a, g (f a) = f' (g a)) (as : List α) :
    (as.modifyHead f).map g = (as.map g).modifyHead f' := by
  cases as <;> simp [h]

/-- Changing one entry and then all is changing all and then the one. -/
lemma map_modify {α β : Type} {f : α → α} {f' : β → β} {g : α → β}
    (h : ∀ a, g (f a) = f' (g a)) (as : List α) (n : Nat) :
    (as.modify n f).map g = (as.map g).modify n f' := by
  apply List.ext_getElem?
  intro m
  simp only [List.getElem?_map, List.getElem?_modify]
  cases as[m]? with
  | none => rfl
  | some a => by_cases hnm : n = m <;> simp [hnm, h]

namespace Builder

variable {ls : List Lexeme} {b b' : Builder} {path : Ancestry} {kind : NodeKind}
  {inside : Forest Lexeme}

/-- Entering a node. -/
lemma sketch_enter (b : Builder) (path : Ancestry) (kind : NodeKind) (inside : Forest Lexeme) :
    (b.enter path kind inside).sketch = b.sketch.enter path.bare kind inside.bare := by
  have hannotate : ∀ (names : List String) (p : Pending),
      (p.annotate names).renumber b.table.ordinal = (p.renumber b.table.ordinal).annotate names :=
    fun _ _ => rfl
  have hpending := map_modifyHead (hannotate (notedAnnotations path kind inside)) b.pending
  rw [enter_eq]
  simp only [sketch, Sketch.enter, Ancestry.notedAnnotations_bare, List.map_append, hpending]
  cases kind.isBraced <;> cases kind.declaresNames <;>
    simp [newScope, Scope.renumber, Pending.renumber, currentScope]

/-- Passing a token that is no code. -/
lemma sketch_meet (b : Builder) (number : Nat) : (b.meet number).sketch = b.sketch := rfl

/-- The scopes after a code token. -/
lemma sketch_scopes_settle (b : Builder) (number : Nat) :
    (b.settle number).scopes.toList.map (Scope.renumber b.table.ordinal) =
      (b.scopes.toList.map (Scope.renumber b.table.ordinal)).mapIdx fun id scope =>
        if id ≠ 0 ∧ id ∈ b.stack then
          { scope with opening := scope.opening.or (some (b.table.ordinal number)) }
        else scope := by
  apply List.ext_getElem?
  intro id
  rw [List.getElem?_map, Array.getElem?_toList, scopes_settle, List.getElem?_mapIdx,
    List.getElem?_map, Array.getElem?_toList]
  cases b.scopes[id]? with
  | none => rfl
  | some s =>
    simp only [Option.map_some]
    split
    · cases hopening : s.opening <;> simp [Scope.renumber, hopening]
    · rfl

/-- The name that a token adds is renumbered with the token. -/
lemma map_notedNames (path : Ancestry) (number : Nat) (new : Nat → Nat) :
    (notedNames path number).map (fun name => (new name.1, name.2)) =
      notedNames path (new number) := by
  unfold notedNames
  split
  · rfl
  · split
    · cases nameRole? _ <;> rfl
    · rfl

/-- The pending declarations after a code token. -/
lemma sketch_pending_settle (ps : List Pending) (new : Nat → Nat) (path : Ancestry) (number : Nat)
    (modifiers : List Keyword) :
    ((ps.map fun p => { p with firstToken := p.firstToken.or (some number) }).modifyHead
        (.note (notedNames path number) modifiers)).map (Pending.renumber new) =
      ((ps.map (Pending.renumber new)).map fun p =>
        { p with firstToken := p.firstToken.or (some (new number)) }).modifyHead
        (Pending.note (notedNames path (new number)) modifiers) := by
  have hnote : ∀ p : Pending, Pending.renumber new (p.note (notedNames path number) modifiers) =
      (Pending.renumber new p).note (notedNames path (new number)) modifiers := by
    intro p
    simp [Pending.renumber, Pending.note, map_notedNames]
  rw [map_modifyHead hnote, List.map_map, List.map_map]
  congr 2
  funext p
  cases hfirst : p.firstToken <;> simp [Pending.renumber, hfirst]

/-- Meeting a code token. -/
lemma sketch_code {token : Token} (htoken : b.table.tokens[token.number]? = some token)
    (hcode : token.isCode = true) (hpending : notedNames path token.number ≠ [] → b.pending ≠ [])
    (h : ((b.meet token.number).settle token.number).classify path token = .ok b') :
    b'.sketch = b.sketch.visit path.bare (b.table.ordinal token.number) token.kind := by
  have hpending' : notedNames path token.number ≠ [] →
      ((b.meet token.number).settle token.number).pending ≠ [] := by
    intro hnames
    simpa [settle, meet] using hpending hnames
  rw [classify_eq hpending'] at h
  obtain rfl := Except.ok.inj h
  simp only [sketch, Sketch.visit, Ancestry.notedNames_bare, Ancestry.notedModifiers_bare,
    Ancestry.losesRole_bare, Sketch.mk.injEq]
  refine ⟨sketch_scopes_settle (b.meet token.number) token.number, rfl, ?_,
    sketch_pending_settle b.pending b.table.ordinal path token.number _, rfl, rfl⟩
  split
  · rw [Array.toList_modify]
    exact LineTable.codeEntries_modify (by rwa [Array.getElem?_toList]) hcode _ _
  · rfl

/-- Writing the names of a declaration. -/
lemma sketch_writeNames (names : List (Nat × Role))
    (hnames : ∀ name ∈ names, b.table.HasCode name.1) (modifiers : List Keyword)
    (annotations : List String) (classes : Array Classification) :
    LineTable.codeEntries b.table.tokens.toList (names.foldl (fun classes name =>
      classes.setIfInBounds name.1
        { role := name.2, modifiers := modifiers, annotations := annotations }) classes).toList =
    (names.map fun name => (b.table.ordinal name.1, name.2)).foldl (fun classes name =>
      classes.modify name.1 fun _ =>
        { role := name.2, modifiers := modifiers, annotations := annotations })
      (LineTable.codeEntries b.table.tokens.toList classes.toList) := by
  induction names generalizing classes with
  | nil => rfl
  | cons name names ih =>
    obtain ⟨⟨token, htoken, hcode⟩, hrest⟩ := List.forall_mem_cons.1 hnames
    rw [List.foldl_cons, ih hrest, List.map_cons, List.foldl_cons, Array.toList_setIfInBounds,
      LineTable.set_eq_modify, LineTable.codeEntries_modify (by rwa [Array.getElem?_toList]) hcode]
    rfl

/-- The text of a code token is that of the word at its ordinal. -/
lemma text_eq (hsound : b.Sound ls) (hcode : CodeHasText ls) {n : Nat}
    (hn : b.table.HasCode n) :
    (b.table.tokens[n]?.map Token.text).getD "" =
      (((codeLexemes ls).map Lexeme.text)[b.table.ordinal n]?).getD "" := by
  obtain ⟨token, htoken, hiscode⟩ := hn
  have hfound := getElem?_filter_countP
    (by rwa [Array.getElem?_toList] : b.table.tokens.toList[n]? = some token) hiscode
  have htexts := congrArg (fun l : List (Kind × String) =>
    (l.map Prod.snd)[b.table.ordinal n]?) (LineTable.map_codeTokens_ofLexemes hcode)
  rw [← hsound.table] at htexts
  simp only [List.map_map, Function.comp_def, List.getElem?_map] at htexts
  rw [LineTable.ordinal, hfound] at htexts
  rw [htoken, List.getElem?_map, LineTable.ordinal]
  simpa using congrArg (Option.getD · "") htexts

/-- The declarations that are recorded for a node. -/
lemma sketch_recorded (hsound : b.Sound ls) (hcode : CodeHasText ls)
    (hinside : inside.NamesBare) {p : Pending} {first : Nat} (hp : p ∈ b.pending)
    (hfirst : p.firstToken = some first) :
    (b.recorded kind inside p first).map (.renumber b.table.ordinal) =
      Sketch.recorded ((codeLexemes ls).map Lexeme.text) kind inside.bare
        (p.renumber b.table.ordinal) := by
  unfold recorded Sketch.recorded
  cases DeclKind.ofNode? kind with
  | none => rfl
  | some declKind =>
    simp only [Pending.renumber, hfirst, Option.map_some, Option.getD_some, List.map_map]
    apply List.map_congr_left
    intro name hname
    have htext := text_eq hsound hcode (hsound.names p hp name hname)
    simp only [Function.comp_apply, htext, Declaration.ofNode_bare hinside]
    rfl

/-- Finishing a declaration. -/
lemma sketch_closePending (hsound : b.Sound ls) (hcode : CodeHasText ls)
    (hinside : inside.NamesBare) {p : Pending} {ps : List Pending} {first : Nat}
    (hpending : b.pending = p :: ps) (hfirst : p.firstToken = some first)
    (h : b.closePending path kind inside = .ok b') :
    b'.sketch =
      b.sketch.closePending ((codeLexemes ls).map Lexeme.text) path.bare kind inside.bare := by
  have hp : p ∈ b.pending := by simp [hpending]
  have hmodifiers : allModifiers path.bare kind (p.renumber b.table.ordinal) =
      allModifiers path kind p := by
    simp only [allModifiers, Ancestry.isImplicitConstant_bare]
    rfl
  have hpending' : b.sketch.pending =
      p.renumber b.table.ordinal :: ps.map (.renumber b.table.ordinal) := by
    simp [sketch, hpending]
  rw [closePending_eq hpending hfirst] at h
  obtain rfl := Except.ok.inj h
  simp only [Sketch.closePending, hpending', hmodifiers]
  simp only [sketch, List.map_append, sketch_recorded hsound hcode hinside hp hfirst,
    Sketch.mk.injEq, and_true, true_and]
  exact sketch_writeNames p.names (hsound.names p hp) _ _ b.classes

/-- Closing a scope. -/
lemma sketch_closeScope {id : Nat} {ids : List Nat} {s : Scope} {first last : Nat}
    (hstack : b.stack = id :: ids) (hid : id ≠ 0) (hscope : b.scopes[id]? = some s)
    (hopening : s.opening = some first) (hlast : b.lastCode = some last)
    (h : b.closeScope = .ok b') : b'.sketch = b.sketch.closeScope := by
  have hscopes : (b.scopes.toList.modify id fun s =>
      { s with closing := some last, oneLine := b.onOneLine first last }).map
        (Scope.renumber b.table.ordinal) =
      (b.scopes.toList.map (Scope.renumber b.table.ordinal)).modify id fun s =>
        { s with closing := some (b.table.ordinal last) } := by
    apply map_modify
    exact fun _ => rfl
  rw [closeScope_eq hstack hid hscope hopening hlast] at h
  obtain rfl := Except.ok.inj h
  simp only [sketch, Sketch.closeScope, hstack, hlast, Array.toList_modify, hscopes,
    List.tail_cons, List.head?_cons, Option.getD_some, Option.map_some]

/-- Leaving a node, once the builder is settled. -/
lemma sketch_leave {count : Nat} (hat : b.IsAt ls (⟨kind, inside⟩ :: path) count)
    (hsettled : b.Settled) (hcode : CodeHasText ls) (hinside : inside.NamesBare)
    (h : b.leave path kind inside = .ok b') :
    b'.sketch = b.sketch.leave ((codeLexemes ls).map Lexeme.text) path.bare kind inside.bare := by
  obtain ⟨b₁, hb₁, hsound₁, hopen₁, hsettled₁, -, -⟩ := hat.finish_declaration hsettled
  have hsketch₁ : b₁.sketch = if kind.declaresNames then
      b.sketch.closePending ((codeLexemes ls).map Lexeme.text) path.bare kind inside.bare
      else b.sketch := by
    cases hdeclares : kind.declaresNames with
    | true =>
      have hopen := hat.fits
      simp only [Fits, List.countP_cons, hdeclares] at hopen
      obtain ⟨p, ps, first, hpending, hfirst⟩ := hsettled.exists_pending hopen
      rw [hdeclares] at hb₁
      exact sketch_closePending hat.sound hcode hinside hpending hfirst hb₁
    | false =>
      rw [hdeclares] at hb₁
      obtain rfl := Except.ok.inj hb₁
      rfl
  simp only [leave, hb₁, Except.bind] at h
  simp only [Sketch.leave, ← hsketch₁]
  cases hbraced : kind.isBraced with
  | true =>
    rw [hbraced] at hopen₁ h
    obtain ⟨id, ids, s, first, last, hstack, hid, hs, hfirst, hlast⟩ :=
      hsettled₁.exists_scope hsound₁ hopen₁
    exact sketch_closeScope hstack hid hs hfirst hlast h
  | false =>
    rw [hbraced] at h
    obtain rfl := Except.ok.inj h
    rfl

end Builder

end JavaLint
