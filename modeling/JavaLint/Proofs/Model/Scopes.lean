import JavaLint.Proofs.Model.Nesting
import JavaLint.Proofs.Model.Walk
import JavaLint.Proofs.Tree.Matching
import Mathlib.Tactic.Common

/-!
# The scopes that the walk finds

The walk over the tree of a file opens a scope when it enters a node with braces, gives it the next
code token as its first one and the last code token as its last one.  These are the braces of the
node, because a node with braces starts and ends with them (`parse_braced`).

`Builder.Grows` says what a part of the walk adds to the scopes and to the scopes of tokens,
`Builder.Adds` that the additions are nested, and `walkForest_adds` that this is so for every part of
the tree of a file.  The main result is `walk_scopes`.
-/

namespace JavaLint

/-! ## Nodes with braces -/

namespace Forest

variable {α : Type} {kindOf : α → Kind} {depth : Nat} {f g : Forest α}

/-- Every node with braces starts with the one and ends with the other, and at most `depth` of them
lie inside each other. -/
inductive Braced (kindOf : α → Kind) : (depth : Nat) → Forest α → Prop where
  | nil {depth : Nat} : Braced kindOf depth .nil
  | leaf {depth : Nat} {a : α} {rest : Forest α} :
    Braced kindOf depth rest → Braced kindOf depth (.leaf a rest)
  | plain {depth : Nat} {k : NodeKind} {inside rest : Forest α} :
    k.isBraced = false → Braced kindOf depth inside → Braced kindOf depth rest →
    Braced kindOf depth (.node k inside rest)
  | braced {depth : Nat} {k : NodeKind} {a c : α} {inside rest : Forest α} :
    k.isBraced = true → kindOf a = .lBrace → kindOf c = .rBrace → Braced kindOf depth inside →
    Braced kindOf (depth + 1) rest →
    Braced kindOf (depth + 1) (.node k (.leaf a (inside ++ .leaf c .nil)) rest)

/-- The nodes of two sequences have their braces if those of both do. -/
lemma Braced.append (hf : f.Braced kindOf depth) (hg : g.Braced kindOf depth) :
    (f ++ g).Braced kindOf depth := by
  induction hf with
  | nil => exact hg
  | leaf _ ih => exact .leaf (ih hg)
  | plain hk hinside _ _ ih => exact .plain hk hinside (ih hg)
  | braced hk ha hc hinside _ _ ih => exact .braced hk ha hc hinside (ih hg)

/-- The nodes of a bracketed forest have their braces. -/
lemma Bracketed.nodes_braced {loose : Bool} (hf : f.Bracketed kindOf loose depth) :
    f.Braced kindOf depth := by
  induction hf with
  | nil => exact .nil
  | leaf _ _ ih => exact .leaf ih
  | pair _ _ _ _ _ ihInside ihRest => exact .leaf (ihInside.append (.leaf ihRest))
  | plain hk _ _ ihInside ihRest => exact .plain hk ihInside ihRest
  | braced hk ha hc _ _ ihInside ihRest => exact .braced hk ha hc ihInside ihRest

/-- If all nodes of two sequences of trees have something in them, then so have those of the first
sequence. -/
lemma NodesFull.left (h : (f ++ g).NodesFull) : f.NodesFull := by
  induction f with
  | nil => trivial
  | leaf _ _ ih => exact ih h
  | node _ _ _ _ ih => exact ⟨h.1, h.2.1, ih h.2.2⟩

/-- A leaf in front changes nothing about the nodes. -/
lemma nodesFull_bare_leaf {l : Lexeme} {rest : Forest Lexeme} :
    (leaf l rest).bare.NodesFull ↔ rest.bare.NodesFull := by
  cases htrivia : l.isTrivia <;> simp [bare, htrivia, NodesFull]

end Forest

/-- The nodes with braces in the tree of a file start and end with them. -/
lemma parse_braced {ls : List Lexeme} {trees : Forest Lexeme} (h : parse ls = .ok trees) :
    trees.Braced Lexeme.kind maxNesting :=
  (parse_bracketed h).nodes_braced

/-- A node with braces declares no names. -/
lemma NodeKind.declaresNames_of_isBraced {kind : NodeKind} (h : kind.isBraced = true) :
    kind.declaresNames = false := by
  cases kind <;> first | rfl | cases h

/-- The scope starts and ends at the tokens of two braces of the file, and is on one line if they
are. -/
def Scope.HasBraces (ls : List Lexeme) (s : Scope) : Prop :=
  ∃ before opens between closes after, ls = before ++ opens :: (between ++ closes :: after) ∧
    opens.kind = .lBrace ∧ closes.kind = .rBrace ∧
    s.opening = some (before.countP Lexeme.hasToken) ∧
    s.closing = some ((before ++ opens :: between).countP Lexeme.hasToken) ∧
    s.oneLine = decide (opens.line = closes.line)

namespace Builder

variable {ls : List Lexeme} {b b₁ b₂ : Builder} {path : Ancestry} {start : Nat}

/-! ## What a part of the walk adds -/

/-- The scopes that are open have their first tokens. -/
def Opened (b : Builder) : Prop :=
  ∀ id ∈ b.stack, id ≠ 0 → ∃ s, b.scopes[id]? = some s ∧ s.opening.isSome

/-- From the one builder to the other, these scopes are added, and these scopes are noted for the
tokens from the number `start` on.  No scope that was open before is closed, and none that was
opened stays open. -/
structure Grows (start : Nat) (b b' : Builder) (scopes : List Scope) (owners : List Nat) : Prop where
  stack : b'.stack = b.stack
  scopes : b'.scopes.toList = b.scopes.toList ++ scopes
  owners : b'.tokenScopes.toList.take (start + owners.length) =
    b.tokenScopes.toList.take start ++ owners

/-- A step that touches no scope adds nothing. -/
lemma Grows.of_eq (hstack : b₁.stack = b.stack) (hscopes : b₁.scopes = b.scopes)
    (howners : b₁.tokenScopes = b.tokenScopes) : b.Grows start b₁ [] [] :=
  ⟨hstack, by simp [hscopes], by simp [howners]⟩

/-- Two parts of the walk add what the one adds and then what the other adds. -/
lemma Grows.trans {scopes scopes' : List Scope} {owners owners' : List Nat}
    (h : b.Grows start b₁ scopes owners) (h' : b₁.Grows (start + owners.length) b₂ scopes' owners') :
    b.Grows start b₂ (scopes ++ scopes') (owners ++ owners') where
  stack := h'.stack.trans h.stack
  scopes := by rw [h'.scopes, h.scopes, List.append_assoc]
  owners := by rw [List.length_append, ← Nat.add_assoc, h'.owners, h.owners, List.append_assoc]

/-- Scopes that were there before are not changed. -/
lemma Grows.scope {scopes : List Scope} {owners : List Nat} (h : b.Grows start b₁ scopes owners)
    {id : Nat} {s : Scope} (hs : b.scopes[id]? = some s) : b₁.scopes[id]? = some s := by
  rw [← Array.getElem?_toList] at hs ⊢
  obtain ⟨hlt, -⟩ := List.getElem?_eq_some_iff.1 hs
  rwa [h.scopes, List.getElem?_append_left hlt]

/-- So many scopes are added. -/
lemma Grows.size {scopes : List Scope} {owners : List Nat} (h : b.Grows start b₁ scopes owners) :
    b₁.scopes.size = b.scopes.size + scopes.length := by
  have hlength := congrArg List.length h.scopes
  simpa using hlength

/-- The scopes that are open keep their first tokens. -/
lemma Opened.grows {scopes : List Scope} {owners : List Nat} (hopened : b.Opened)
    (h : b.Grows start b₁ scopes owners) : b₁.Opened := by
  intro id hid hne
  rw [h.stack] at hid
  obtain ⟨s, hs, hopening⟩ := hopened id hid hne
  exact ⟨s, h.scope hs, hopening⟩

/-- The scope around the place is still the same. -/
lemma Grows.currentScope {scopes : List Scope} {owners : List Nat}
    (h : b.Grows start b₁ scopes owners) : b₁.currentScope = b.currentScope := by
  rw [Builder.currentScope, Builder.currentScope, h.stack]

/-! ## The steps -/

/-- The token that is met next gets the innermost scope, and those before it keep theirs. -/
lemma take_meet (b : Builder) (hlt : start < b.tokenScopes.size) :
    (b.meet start).tokenScopes.toList.take (start + 1) =
      b.tokenScopes.toList.take start ++ [b.currentScope] := by
  simp only [meet, Array.toList_setIfInBounds]
  rw [List.take_succ_eq_append_getElem (by simpa using hlt), List.take_set_of_le (Nat.le_refl _),
    List.getElem_set_self]

/-- A code token changes no scope, if all that are open have their first tokens. -/
lemma Opened.scopes_settle (h : b.Opened) (token : Nat) : (b.settle token).scopes = b.scopes := by
  apply Array.ext_getElem?
  intro id
  rw [Builder.scopes_settle]
  cases hs : b.scopes[id]? with
  | none => rfl
  | some s =>
    rw [Option.map_some]
    split
    · rename_i hid
      obtain ⟨s', hs', hopening⟩ := h id hid.2 hid.1
      obtain rfl : s = s' := by simpa [hs] using hs'
      rw [Option.or_of_isSome hopening]
    · rfl

/-- What a leaf of code does to the scopes. -/
lemma IsAt.visit_code_scopes {before after : List Lexeme} {l : Lexeme} {b' : Builder}
    (h : b.IsAt (before ++ l :: after) path before.length) (hl : l.isTrivia = false)
    (htext : l.text ≠ "") (hok : b.visit path l = .ok b') :
    b'.stack = b.stack ∧ b'.scopes = (b.settle (before.countP Lexeme.hasToken)).scopes ∧
      b'.tokenScopes = (b.meet (before.countP Lexeme.hasToken)).tokenScopes ∧
      b'.lastCode = some (before.countP Lexeme.hasToken) := by
  rcases h.visit_cases (fun _ => htext) with ⟨htrivia, -⟩ | ⟨-, t, -, -, -, hnumber, hvisit⟩
  · simp [hl] at htrivia
  · have hpending : notedNames path t.number ≠ [] →
        ((b.meet t.number).settle t.number).pending ≠ [] := by
      intro hnames
      simpa [settle, meet] using h.fits.pending_ne_nil hnames
    rw [hvisit, classify_eq hpending] at hok
    obtain rfl := Except.ok.inj hok
    rw [← hnumber]
    exact ⟨rfl, rfl, rfl, rfl⟩

/-- There is a place for the scope of the token of a leaf. -/
lemma IsAt.lt_tokenScopes {before after : List Lexeme} {l : Lexeme} {count : Nat}
    (h : b.IsAt (before ++ l :: after) path count) (hl : l.hasToken = true) :
    before.countP Lexeme.hasToken < b.tokenScopes.size := by
  rw [h.sound.size_tokenScopes, h.sound.table, LineTable.count_ofLexemes, List.countP_append,
    List.countP_cons_of_pos hl]
  omega

/-- A leaf adds no scope, and its token lies in the innermost one. -/
lemma IsAt.visit_grows {before after : List Lexeme} {l : Lexeme} {b' : Builder}
    (h : b.IsAt (before ++ l :: after) path before.length)
    (hcode : l.isTrivia = false → l.text ≠ "") (hopened : b.Opened)
    (hok : b.visit path l = .ok b') :
    b.Grows (before.countP Lexeme.hasToken) b' [] (if l.hasToken then [b.currentScope] else []) := by
  cases htrivia : l.isTrivia with
  | false =>
    have htoken := Lexeme.hasToken_of_code htrivia (hcode htrivia)
    obtain ⟨hstack, hscopes, howners, -⟩ := h.visit_code_scopes htrivia (hcode htrivia) hok
    rw [htoken, if_pos rfl]
    refine ⟨hstack, by simp [hscopes, hopened.scopes_settle], ?_⟩
    rw [howners]
    exact take_meet b (h.lt_tokenScopes htoken)
  | true =>
    rcases h.visit_cases hcode with ⟨-, ⟨htoken, hvisit⟩ | ⟨htoken, hvisit⟩⟩ | ⟨hl, -⟩
    · obtain rfl := Except.ok.inj (hvisit.symm.trans hok)
      rw [htoken]
      exact .of_eq rfl rfl rfl
    · obtain rfl := Except.ok.inj (hvisit.symm.trans hok)
      rw [htoken, if_pos rfl]
      exact ⟨rfl, by simp [meet], take_meet b (h.lt_tokenScopes htoken)⟩
    · simp [htrivia] at hl

/-- A node without braces is entered without a scope. -/
lemma enter_grows {kind : NodeKind} (hkind : kind.isBraced = false) (inside : Forest Lexeme) :
    b.Grows start (b.enter path kind inside) [] [] := by
  rw [enter_eq, hkind]
  exact .of_eq rfl rfl rfl

/-- A node without braces is left without a scope. -/
lemma leave_grows {kind : NodeKind} {inside : Forest Lexeme} {b' : Builder} {count : Nat}
    (h : b.IsAt ls (⟨kind, inside⟩ :: path) count) (hsettled : b.Settled)
    (hkind : kind.isBraced = false) (hok : b.leave path kind inside = .ok b') :
    b.Grows start b' [] [] := by
  unfold leave at hok
  cases hdeclares : kind.declaresNames with
  | false =>
    obtain rfl : b = b' := by simpa [hdeclares, hkind, Except.bind] using hok
    exact .of_eq rfl rfl rfl
  | true =>
    have hopen := h.fits
    simp only [Fits, List.countP_cons, hdeclares, if_true] at hopen
    obtain ⟨p, ps, first, hpending, hfirst⟩ := hsettled.exists_pending hopen
    rw [hdeclares, if_pos rfl, closePending_eq hpending hfirst] at hok
    simp only [Except.bind, hkind] at hok
    obtain rfl := Except.ok.inj hok
    exact .of_eq rfl rfl rfl

/-! ## The scope of a node with braces -/

/-- A node with braces is entered with a scope, which starts at the code token that comes next. -/
lemma scopes_enter_settle {kind : NodeKind} (hkind : kind.isBraced = true) (hopened : b.Opened)
    (hfile : 0 < b.scopes.size) (inside : Forest Lexeme) (token : Nat) :
    ((b.enter path kind inside).settle token).scopes =
      b.scopes.push { b.newScope kind with opening := some token } := by
  apply Array.ext_getElem?
  intro id
  have hold := congrArg (·[id]?) (hopened.scopes_settle token)
  simp only [scopes_settle] at hold
  rw [scopes_settle, enter_eq, hkind]
  simp only [if_true, Array.getElem?_push]
  by_cases hid : id = b.scopes.size
  · subst hid
    simp [newScope, Nat.ne_of_gt hfile]
  · rw [if_neg hid, if_neg hid]
    simpa [hid] using hold

/-- From the one builder to the other, a node with braces has been entered and its first brace has
been met, which is the token with the number `start`. -/
structure OpensAt (start : Nat) (kind : NodeKind) (b b₁ : Builder) : Prop where
  file_lt : 0 < b.scopes.size
  stack : b₁.stack = b.scopes.size :: b.stack
  scopes : b₁.scopes = b.scopes.push { b.newScope kind with opening := some start }
  owners : b₁.tokenScopes.toList.take (start + 1) =
    b.tokenScopes.toList.take start ++ [b.scopes.size]

/-- The way into a node with braces and past its first brace. -/
lemma IsAt.visit_opensAt {before after : List Lexeme} {l : Lexeme} {kind : NodeKind}
    {inside : Forest Lexeme} (h : b.IsAt (before ++ l :: after) path before.length)
    (hkind : kind.isBraced = true) (hl : l.isTrivia = false) (htext : l.text ≠ "")
    (hopened : b.Opened)
    (hok : (b.enter path kind inside).visit (⟨kind, inside⟩ :: path) l = .ok b₁) :
    b.OpensAt (before.countP Lexeme.hasToken) kind b₁ := by
  have hat := h.enter kind inside
  have hfile := h.sound.file_lt
  have hstack : (b.enter path kind inside).stack = b.scopes.size :: b.stack := by
    simp [enter_eq, hkind]
  have htokenScopes : (b.enter path kind inside).tokenScopes = b.tokenScopes := by
    simp [enter_eq]
  obtain ⟨hstack₁, hscopes₁, howners₁, -⟩ := hat.visit_code_scopes hl htext hok
  refine ⟨hfile, hstack₁.trans hstack,
    hscopes₁.trans (scopes_enter_settle hkind hopened hfile inside _), ?_⟩
  rw [howners₁, take_meet _ (hat.lt_tokenScopes (Lexeme.hasToken_of_code hl htext)), htokenScopes,
    currentScope, hstack, List.head?_cons, Option.getD_some]

/-- The scopes that are open have their first tokens, also the new one. -/
lemma OpensAt.opened {kind : NodeKind} (h : b.OpensAt start kind b₁) (hopened : b.Opened) :
    b₁.Opened := by
  intro id hid hne
  rw [h.stack] at hid
  rcases List.mem_cons.1 hid with rfl | hid
  · exact ⟨{ b.newScope kind with opening := some start }, by simp [h.scopes], rfl⟩
  · obtain ⟨s, hs, hopening⟩ := hopened id hid hne
    have hlt := (Array.getElem?_eq_some_iff.1 hs).1
    exact ⟨s, by rw [h.scopes, Array.getElem?_push, if_neg (by omega), hs], hopening⟩

/-- Changing the entry after the first part of a list. -/
lemma modify_length_append {α : Type} (as : List α) (a : α) (bs : List α) (f : α → α) :
    (as ++ a :: bs).modify as.length f = as ++ f a :: bs := by
  induction as with
  | nil => rfl
  | cons _ as ih => simp [ih]

/-- The scope that a braced node has when it is left. -/
def fullScope (b : Builder) (kind : NodeKind) (first last : Nat) (oneLine : Bool) : Scope :=
  { b.newScope kind with opening := some first, closing := some last, oneLine := oneLine }

/-- The way out of a node with braces, whose scope ends at the last code token. -/
lemma OpensAt.leave {kind : NodeKind} {inside : Forest Lexeme} {b' : Builder} {inner : List Scope}
    {innerOwners : List Nat} {last : Nat} (h : b.OpensAt start kind b₁)
    (hkind : kind.isBraced = true) (hinner : b₁.Grows (start + 1) b₂ inner innerOwners)
    (hlast : b₂.lastCode = some last) (hok : b₂.leave path kind inside = .ok b') :
    b.Grows start b'
      (b.fullScope kind start last (b₂.onOneLine start last) :: inner)
      (b.scopes.size :: innerOwners) := by
  have hscope : b₂.scopes[b.scopes.size]? = some { b.newScope kind with opening := some start } :=
    hinner.scope (by simp [h.scopes])
  have hclose : b₂.closeScope = .ok b' := by
    simpa [Builder.leave, NodeKind.declaresNames_of_isBraced hkind, hkind, Except.bind] using hok
  rw [closeScope_eq (hinner.stack.trans h.stack) (Nat.ne_of_gt h.file_lt) hscope rfl hlast] at hclose
  obtain rfl := Except.ok.inj hclose
  refine ⟨rfl, ?_, ?_⟩
  · have hlist : b₂.scopes.toList =
        b.scopes.toList ++ { b.newScope kind with opening := some start } :: inner := by
      simp [hinner.scopes, h.scopes]
    rw [Array.toList_modify, hlist, ← Array.length_toList, modify_length_append]
    rfl
  · rw [List.length_cons, Nat.add_comm innerOwners.length, ← Nat.add_assoc, hinner.owners, h.owners,
      List.append_assoc, List.singleton_append]

/-! ## The walk -/

/-- A part of the walk, after the lexemes `before` and over the lexemes `part`, adds scopes that are
nested, have their braces, and lie at most `room` deep. -/
def Adds (ls : List Lexeme) (room : Nat) (before part : List Lexeme) (b b' : Builder) : Prop :=
  ∃ scopes owners, b.Grows (before.countP Lexeme.hasToken) b' scopes owners ∧
    owners.length = part.countP Lexeme.hasToken ∧
    Nested b.currentScope b.stack.length b.scopes.size (before.countP Lexeme.hasToken) scopes owners ∧
    ∀ s ∈ scopes, s.HasBraces ls ∧ s.depth < b.stack.length + room

variable {room : Nat} {b' : Builder} {before after : List Lexeme} {l : Lexeme}

/-- Nothing is added where nothing changes. -/
lemma Adds.of_grows_nil (h : b.Grows (before.countP Lexeme.hasToken) b' [] []) :
    b.Adds ls room before [] b' :=
  ⟨[], [], h, rfl, .nil, by simp⟩

/-- Two parts of the walk, one after the other. -/
lemma Adds.trans {part part' : List Lexeme} (h : b.Adds ls room before part b₁)
    (h' : b₁.Adds ls room (before ++ part) part' b₂) :
    b.Adds ls room before (part ++ part') b₂ := by
  obtain ⟨scopes, owners, hgrows, hlength, hnested, hscopes⟩ := h
  obtain ⟨scopes', owners', hgrows', hlength', hnested', hscopes'⟩ := h'
  rw [List.countP_append, ← hlength] at hgrows' hnested'
  rw [hgrows.currentScope, hgrows.stack, hgrows.size] at hnested'
  rw [hgrows.stack] at hscopes'
  refine ⟨scopes ++ scopes', owners ++ owners', hgrows.trans hgrows', by simp [hlength, hlength'],
    hnested.append hnested', fun s hs => ?_⟩
  exact (List.mem_append.1 hs).elim (hscopes s) (hscopes' s)

/-- The scopes that are open keep their first tokens. -/
lemma Opened.adds {part : List Lexeme} (hopened : b.Opened) (h : b.Adds ls room before part b') :
    b'.Opened := by
  obtain ⟨scopes, owners, hgrows, -⟩ := h
  exact hopened.grows hgrows

/-- A leaf adds its token. -/
lemma IsAt.visit_adds (h : b.IsAt (before ++ l :: after) path before.length)
    (hcode : l.isTrivia = false → l.text ≠ "") (hopened : b.Opened)
    (hok : b.visit path l = .ok b') : b.Adds ls room before [l] b' := by
  have hgrows := h.visit_grows hcode hopened hok
  cases htoken : l.hasToken with
  | false =>
    rw [htoken] at hgrows
    exact ⟨[], [], hgrows, by simp [htoken], .nil, by simp⟩
  | true =>
    rw [htoken] at hgrows
    exact ⟨[], [b.currentScope], hgrows, by simp [htoken], .token .nil, by simp⟩

/-- The walk over two sequences of trees is the walk over the one and then over the other. -/
lemma walkForest_append (f g : Forest Lexeme) (b : Builder) :
    walkForest path (f ++ g) b = (walkForest path f b).bind (walkForest path g) := by
  induction f generalizing b with
  | nil => rfl
  | leaf l rest ih =>
    simp only [Forest.leaf_append, walkForest]
    cases b.visit path l with
    | error e => rfl
    | ok b₁ => exact ih b₁
  | node kind inside rest _ ih =>
    simp only [Forest.node_append, walkForest]
    cases walkForest (⟨kind, inside⟩ :: path) inside (b.enter path kind inside) with
    | error e => rfl
    | ok b₁ =>
      simp only [Except.bind]
      cases b₁.leave path kind inside with
      | error e => rfl
      | ok b₂ => exact ih b₂

/-- Two tokens are on one line if their lexemes are. -/
lemma Sound.onOneLine_eq {between : List Lexeme} {opens closes : Lexeme}
    (h : b.Sound (before ++ opens :: (between ++ closes :: after)))
    (hopens : opens.hasToken = true) (hcloses : closes.hasToken = true) :
    b.onOneLine (before.countP Lexeme.hasToken)
      ((before ++ opens :: between).countP Lexeme.hasToken) = decide (opens.line = closes.line) := by
  have hfirst := LineTable.line_ofLexemes before (between ++ closes :: after) hopens
  have hlast := LineTable.line_ofLexemes (before ++ opens :: between) after hcloses
  rw [List.append_assoc, List.cons_append] at hlast
  rw [onOneLine, h.table, hfirst, hlast]
  simp

/-- A node with braces adds its scope, what its inside adds, and the tokens of its braces. -/
lemma OpensAt.adds {kind : NodeKind} {inside : Forest Lexeme} {opens closes : Lexeme}
    {between : List Lexeme} {b₃ : Builder} (hopens : opens.kind = .lBrace)
    (hcloses : closes.kind = .rBrace) (hopensToken : opens.hasToken = true)
    (hclosesToken : closes.hasToken = true)
    (h : b.OpensAt (before.countP Lexeme.hasToken) kind b₁) (hkind : kind.isBraced = true)
    (hinner : b₁.Adds ls room (before ++ [opens]) between b₂)
    (hclose : b₂.Grows ((before ++ opens :: between).countP Lexeme.hasToken) b₃ [] [b₂.currentScope])
    (hlast : b₃.lastCode = some ((before ++ opens :: between).countP Lexeme.hasToken))
    (hls : ls = before ++ opens :: (between ++ closes :: after)) (hsound : b₃.Sound ls)
    (hok : b₃.leave path kind inside = .ok b') :
    b.Adds ls (room + 1) before (opens :: (between ++ [closes])) b' := by
  obtain ⟨inner, innerOwners, hgrows, hlength, hnested, hscopes⟩ := hinner
  have hstart : (before ++ [opens]).countP Lexeme.hasToken = before.countP Lexeme.hasToken + 1 := by
    simp [hopensToken]
  have hstop : (before ++ opens :: between).countP Lexeme.hasToken =
      before.countP Lexeme.hasToken + 1 + innerOwners.length := by
    rw [List.countP_append, List.countP_cons_of_pos hopensToken, hlength]
    omega
  have hcurrent : b₁.currentScope = b.scopes.size := by simp [currentScope, h.stack]
  have hline := (hls ▸ hsound).onOneLine_eq hopensToken hclosesToken
  rw [hstart] at hgrows hnested
  rw [hgrows.currentScope, hcurrent, hstop] at hclose
  rw [hcurrent, h.stack, h.scopes, Array.size_push] at hnested
  rw [h.stack] at hscopes
  have hall := h.leave hkind (hgrows.trans hclose) hlast hok
  rw [List.append_nil, hline] at hall
  refine ⟨_, _, hall, ?_, ?_, ?_⟩
  · simp [hlength, hopensToken, hclosesToken]
  · have hblock : Nested b.currentScope b.stack.length b.scopes.size
        (before.countP Lexeme.hasToken)
        (b.fullScope kind _ _ (decide (opens.line = closes.line)) :: (inner ++ []))
        (b.scopes.size :: (innerOwners ++ [b.scopes.size])) :=
      .block rfl rfl rfl rfl (congrArg some hstop) hnested .nil
    rwa [List.append_nil] at hblock
  · rintro s hs
    rcases List.mem_cons.1 hs with rfl | hs
    · refine ⟨⟨before, opens, between, closes, after, hls, hopens, hcloses, rfl, rfl, rfl⟩, ?_⟩
      simp [fullScope, newScope]
    · obtain ⟨hbraces, hdepth⟩ := hscopes s hs
      rw [List.length_cons] at hdepth
      exact ⟨hbraces, by omega⟩

/-- The two braces around what stands in a node are code, and so they have a text. -/
lemma codeHasText_of_braces {opens closes : Lexeme} {inside : Forest Lexeme}
    (hopens : opens.kind = .lBrace) (hcloses : closes.kind = .rBrace)
    (hcode : CodeHasText (Forest.leaf opens (inside ++ .leaf closes .nil)).leaves) :
    opens.isTrivia = false ∧ closes.isTrivia = false ∧ opens.text ≠ "" ∧ closes.text ≠ "" ∧
      CodeHasText inside.leaves := by
  have hopensCode : opens.isTrivia = false := by rw [Lexeme.isTrivia, hopens]; rfl
  have hclosesCode : closes.isTrivia = false := by rw [Lexeme.isTrivia, hcloses]; rfl
  simp only [Forest.leaves, Forest.leaves_append] at hcode
  obtain ⟨hopensText, hrest⟩ := List.forall_mem_cons.1 hcode
  obtain ⟨hinside, hclosesText⟩ := List.forall_mem_append.1 hrest
  exact ⟨hopensCode, hclosesCode, hopensText hopensCode, hclosesText closes (by simp) hclosesCode,
    hinside⟩

/-- The walk over a part of the tree of a file adds the scopes and the tokens of this part. -/
theorem walkForest_adds {f : Forest Lexeme} (hf : f.Braced Lexeme.kind room)
    (before after : List Lexeme) (hfull : f.bare.NodesFull) (hcode : CodeHasText f.leaves)
    (hls : ls = before ++ (f.leaves ++ after)) (h : b.IsAt ls path before.length)
    (hopened : b.Opened) (hok : walkForest path f b = .ok b') :
    b.Adds ls room before f.leaves b' := by
  induction hf generalizing path before after b b' with
  | nil =>
    obtain rfl := Except.ok.inj hok
    exact .of_grows_nil (.of_eq rfl rfl rfl)
  | @leaf room l rest _ ih =>
    obtain ⟨hl, hrest⟩ := List.forall_mem_cons.1 hcode
    have hls' : ls = before ++ l :: (rest.leaves ++ after) := hls
    rw [hls'] at h
    obtain ⟨b₁, hb₁, hat₁, -⟩ := h.visit hl
    have hfirst : b.Adds ls room before [l] b₁ := h.visit_adds hl hopened hb₁
    rw [← hls'] at hat₁
    rw [walkForest, hb₁] at hok
    exact hfirst.trans (ih (before ++ [l]) after (Forest.nodesFull_bare_leaf.1 hfull) hrest
      (by simp [hls']) (by simpa using hat₁) (hopened.adds hfirst) hok)
  | @plain room k inside rest hk _ _ ihInside ihRest =>
    obtain ⟨hne, hfullInside, hfullRest⟩ := hfull
    obtain ⟨hcodeInside, hcodeRest⟩ := List.forall_mem_append.1 hcode
    have hls' : ls = before ++ (inside.leaves ++ (rest.leaves ++ after)) := by
      simp [hls, Forest.leaves]
    have henter : b.Adds ls room before [] (b.enter path k inside) :=
      .of_grows_nil (enter_grows hk inside)
    have hat := h.enter k inside
    obtain ⟨b₁, hb₁, hat₁, hsettled₁, -⟩ :=
      walkForest_succeeds before (rest.leaves ++ after) hfullInside hcodeInside hls' hat
    have hsettled := hsettled₁ (Or.inr hne)
    obtain ⟨b₂, hb₂, hat₂, -⟩ := hat₁.leave hsettled
    have hinside := ihInside before _ hfullInside hcodeInside hls' hat (hopened.adds henter) hb₁
    have hleave : b₁.Adds ls room (before ++ inside.leaves) [] b₂ :=
      .of_grows_nil (leave_grows hat₁ hsettled hk hb₂)
    have hnode : b.Adds ls room before inside.leaves b₂ := by
      simpa using (henter.trans (by simpa using hinside)).trans hleave
    simp only [walkForest, hb₁, hb₂, Except.bind] at hok
    exact hnode.trans (ihRest (before ++ inside.leaves) after hfullRest hcodeRest
      (by simp [hls']) hat₂ (hopened.adds hnode) hok)
  | @braced room k opens closes inside rest hk hopens hcloses _ _ ihInside ihRest =>
    have hls' : ls = before ++ opens :: (inside.leaves ++ closes :: (rest.leaves ++ after)) := by
      simp [hls, Forest.leaves]
    obtain ⟨hne, hfullBody, hfullRest⟩ := hfull
    have hfullInside : inside.bare.NodesFull := by
      rw [Forest.nodesFull_bare_leaf, Forest.bare_append] at hfullBody
      exact hfullBody.left
    obtain ⟨hcodeBody, hcodeRest⟩ := List.forall_mem_append.1 hcode
    obtain ⟨hopensCode, hclosesCode, hopensText, hclosesText, hcodeInside⟩ :=
      codeHasText_of_braces hopens hcloses hcodeBody
    -- Into the node and past its first brace.
    rw [hls'] at h
    obtain ⟨b₁, hb₁, hat₁, -⟩ := (h.enter k (.leaf opens (inside ++ .leaf closes .nil))).visit
      fun _ => hopensText
    have hopensAt := h.visit_opensAt hk hopensCode hopensText hopened hb₁
    -- Through the node.
    have hls₁ : ls = (before ++ [opens]) ++ (inside.leaves ++ closes :: (rest.leaves ++ after)) := by
      simp [hls']
    rw [← hls', show before.length + 1 = (before ++ [opens]).length by simp] at hat₁
    obtain ⟨b₂, hb₂, hat₂, -⟩ := walkForest_succeeds _ _ hfullInside hcodeInside hls₁ hat₁
    have hinner := ihInside _ _ hfullInside hcodeInside hls₁ hat₁ (hopensAt.opened hopened) hb₂
    have hopened₂ := (hopensAt.opened hopened).adds hinner
    -- Past its last brace and out of it.
    have hls₂ : ls = (before ++ opens :: inside.leaves) ++ closes :: (rest.leaves ++ after) := by
      simp [hls']
    rw [List.append_assoc, List.singleton_append, hls₂] at hat₂
    obtain ⟨b₃, hb₃, hat₃, hsettled₃⟩ := hat₂.visit fun _ => hclosesText
    have hgrows := hat₂.visit_grows (fun _ => hclosesText) hopened₂ hb₃
    obtain ⟨-, -, -, hlast⟩ := hat₂.visit_code_scopes hclosesCode hclosesText hb₃
    have hclosesToken := Lexeme.hasToken_of_code hclosesCode hclosesText
    rw [hclosesToken, if_pos rfl] at hgrows
    rw [← hls₂] at hat₃
    obtain ⟨b₄, hb₄, hat₄, -⟩ := hat₃.leave (hsettled₃ (Or.inr hclosesCode))
    have hnode := hopensAt.adds hopens hcloses (Lexeme.hasToken_of_code hopensCode hopensText)
      hclosesToken hk hinner hgrows hlast hls' hat₃.sound hb₄
    simp only [walkForest, hb₁, walkForest_append, hb₂, hb₃, hb₄, Except.bind] at hok
    have hrest := ihRest (before ++ opens :: (inside.leaves ++ [closes])) after hfullRest hcodeRest
      (by simp [hls']) (by simpa [Nat.add_assoc] using hat₄) (hopened.adds hnode) hok
    simpa [Forest.leaves] using hnode.trans hrest

/-- The walk over the tree of a file leaves the scope of the file and the scopes of its braces. -/
lemma walk_scopes {trees : Forest Lexeme} (hparse : parse ls = .ok trees) (hcode : CodeHasText ls)
    (hwalk : (ofTable (LineTable.ofLexemes ls)).walk trees = .ok b) :
    ∃ blocks, b.scopes.toList = .file :: blocks ∧ Nested 0 1 1 0 blocks b.tokenScopes.toList ∧
      ∀ s ∈ blocks, s.HasBraces ls ∧ s.depth ≤ maxNesting := by
  have hleaves := parse_leaves hparse
  obtain ⟨b', hb', hat, -⟩ := walkForest_succeeds [] [] (parse_bare_nodesFull hparse)
    (by rwa [hleaves]) (by simp [hleaves]) (IsAt.ofTable ls trees)
  have hopened : Opened { ofTable (LineTable.ofLexemes ls) with walked := true } := by
    simp [Opened, ofTable]
  obtain ⟨blocks, owners, hgrows, hlength, hnested, hblocks⟩ :=
    walkForest_adds (parse_braced hparse) [] [] (parse_bare_nodesFull hparse) (by rwa [hleaves])
      (by simp [hleaves]) (IsAt.ofTable ls trees) hopened hb'
  obtain rfl : b = b' := by
    have hfresh : (ofTable (LineTable.ofLexemes ls)).walked = false := rfl
    simp only [walk, hfresh, hb', Except.bind] at hwalk
    exact closed_eq_ok hwalk
  have howners : b.tokenScopes.toList = owners := by
    have htake := hgrows.owners
    have hsize : b.tokenScopes.toList.length = owners.length := by
      rw [Array.length_toList, hat.sound.size_tokenScopes, hat.sound.table,
        LineTable.count_ofLexemes, hlength, hleaves]
    rw [List.countP_nil, Nat.zero_add, ← hsize, List.take_length] at htake
    simpa using htake
  refine ⟨blocks, hgrows.scopes, howners ▸ hnested, fun s hs => ⟨(hblocks s hs).1, ?_⟩⟩
  have hdepth : s.depth < 1 + maxNesting := (hblocks s hs).2
  omega

end Builder

end JavaLint
