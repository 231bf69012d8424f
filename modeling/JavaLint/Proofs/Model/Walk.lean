import JavaLint.Proofs.Model.Sound
import JavaLint.SourceFile
import Mathlib.Tactic.Common

/-!
# The walk over the tree of a file never fails

Three things are true of a builder on its way through the tree of a file.

* `Sound`: every number that it keeps is the number of a token or scope that exists.
* `Fits`: the declarations and scopes that are open are those of the nodes around the place.
* `Settled`: every open declaration and scope has its first token.  This is lost when a node is
  entered and regained at the next code token, and every node has one.

Each step keeps the first two, and with the third the step out of a node cannot fail.  The main
results are `walk_succeeds` and, for the finished model, `Model.build_succeeds`.
-/

namespace JavaLint

namespace Builder

variable {ls : List Lexeme} {b b' : Builder} {path : Ancestry}

/-! ## What is open -/

/-- So many declarations and scopes are open, not counting the scope of the file, which is always
open and never open twice. -/
structure Open (b : Builder) (declarations scopes : Nat) : Prop where
  pending : b.pending.length = declarations
  stack : ∃ ids, b.stack = ids ++ [0] ∧ (∀ id ∈ ids, id ≠ 0) ∧ ids.length = scopes

/-- What is open once the innermost scope is closed. -/
lemma Open.stack_tail {declarations scopes id : Nat} {ids : List Nat}
    (h : b.Open declarations (scopes + 1)) (hstack : b.stack = id :: ids) :
    ∃ ids', ids = ids' ++ [0] ∧ (∀ id ∈ ids', id ≠ 0) ∧ ids'.length = scopes := by
  obtain ⟨-, ids', hstack', hids, hlength⟩ := h
  obtain ⟨id', ids', rfl⟩ := List.exists_cons_of_length_eq_add_one hlength
  rw [hstack, List.cons_append] at hstack'
  obtain ⟨-, rfl⟩ := List.cons.inj hstack'
  exact ⟨ids', rfl, (List.forall_mem_cons.1 hids).2, by simpa using hlength⟩

/-- The declarations and scopes that are open are those of the nodes around the place. -/
def Fits (b : Builder) (path : Ancestry) : Prop :=
  b.Open (path.countP fun a => a.kind.declaresNames) (path.countP fun a => a.kind.isBraced)

/-- Entering a node opens its declaration and its scope. -/
lemma Fits.enter (h : b.Fits path) (hsize : 0 < b.scopes.size) (kind : NodeKind)
    (inside : Forest Lexeme) :
    (b.enter path kind inside).Fits (⟨kind, inside⟩ :: path) := by
  obtain ⟨hpending, ids, hstack, hids, hlength⟩ := h
  rw [enter_eq]
  refine ⟨?_, ?_⟩
  · rw [List.countP_cons, List.length_append, List.length_modifyHead, hpending]
    cases kind.declaresNames <;> simp [Nat.add_comm]
  · cases hbraced : kind.isBraced with
    | false => exact ⟨ids, by simpa using hstack, hids, by simpa [hbraced] using hlength⟩
    | true =>
      refine ⟨b.scopes.size :: ids, by simp [hstack], ?_, by simp [hbraced, hlength]⟩
      intro id hid
      rcases List.mem_cons.1 hid with rfl | hid
      · omega
      · exact hids id hid

/-- A name with a role has a pending declaration to go to. -/
lemma Fits.pending_ne_nil (h : b.Fits path) {number : Nat} (hnames : notedNames path number ≠ []) :
    b.pending ≠ [] := by
  match path with
  | [] => simp [notedNames] at hnames
  | parent :: above =>
    have hrole : (nameRole? above).isSome := by
      simp only [notedNames] at hnames
      split at hnames
      · cases hrole : nameRole? above <;> simp_all
      · simp at hnames
    obtain ⟨⟨owner, role⟩, hrole⟩ := Option.isSome_iff_exists.1 hrole
    obtain ⟨a, ha, -⟩ := Option.map_eq_some_iff.1 (nameRole?_owner hrole)
    have hdeclares := List.find?_some ha
    have hmem := List.mem_cons_of_mem parent (List.mem_of_find?_eq_some ha)
    have hpos : 0 < (parent :: above).countP fun a => a.kind.declaresNames :=
      List.countP_pos_iff.2 ⟨a, hmem, hdeclares⟩
    rw [← h.pending] at hpos
    exact List.length_pos_iff.1 hpos

/-! ## Settled builders -/

/-- Every open declaration and scope has its first token. -/
structure Settled (b : Builder) : Prop where
  pending : ∀ p ∈ b.pending, p.firstToken.isSome
  stack : ∀ id ∈ b.stack, id ≠ 0 → ∀ s, b.scopes[id]? = some s → s.opening.isSome
  lastCode : b.lastCode.isSome

/-- A code token settles everything. -/
lemma settled_settle (b : Builder) (number : Nat) : (b.settle number).Settled where
  pending := by
    intro p hp
    obtain ⟨p', -, rfl⟩ := List.mem_map.1 hp
    simp
  stack := by
    intro id hid hne s hs
    rw [scopes_settle] at hs
    obtain ⟨s', -, rfl⟩ := Option.map_eq_some_iff.1 hs
    have hstack : id ∈ b.stack := hid
    simp [hne, hstack]
  lastCode := rfl

/-! ## The steps -/

/-- The builder is on its way through the tree of the lexemes: `count` leaves have been met, and
the nodes of `path` are open. -/
structure IsAt (ls : List Lexeme) (path : Ancestry) (count : Nat) (b : Builder) : Prop where
  sound : b.Sound ls
  fits : b.Fits path
  leaves : b.leaves = count
  walked : b.walked = true

/-- The way starts before the first leaf, where only the file is open. -/
lemma IsAt.ofTable (ls : List Lexeme) (trees : Forest Lexeme) :
    IsAt ls [⟨.sourceFile, trees⟩] 0
      { ofTable (LineTable.ofLexemes ls) with walked := true } :=
  ⟨{ Sound.ofTable ls with }, ⟨rfl, [], rfl, by simp, rfl⟩, rfl, rfl⟩

/-- The way into a node. -/
lemma IsAt.enter {count : Nat} (h : b.IsAt ls path count) (kind : NodeKind)
    (inside : Forest Lexeme) :
    (b.enter path kind inside).IsAt ls (⟨kind, inside⟩ :: path) count where
  sound := h.sound.enter path kind inside
  fits := h.fits.enter h.sound.file_lt kind inside
  leaves := by
    rw [enter_eq]
    exact h.leaves
  walked := by
    rw [enter_eq]
    exact h.walked

/-- The way past a leaf that is a code token. -/
lemma IsAt.visit_code {count : Nat} {token : Token} (h : b.IsAt ls path count)
    (htoken : b.table.tokens[token.number]? = some token) (hcode : token.isCode = true) :
    ∃ b', ((b.meet token.number).settle token.number).classify path token = .ok b' ∧
      b'.IsAt ls path (count + 1) ∧ b'.Settled := by
  have hhas : b.table.HasCode token.number := ⟨token, htoken, hcode⟩
  have hsound := (h.sound.meet token.number).settle hhas
  have hlength : ((b.meet token.number).settle token.number).pending.length =
      b.pending.length := by
    simp [settle, meet]
  have hpending : notedNames path token.number ≠ [] →
      ((b.meet token.number).settle token.number).pending ≠ [] := by
    intro hnames
    have hne := List.length_pos_iff.2 (h.fits.pending_ne_nil hnames)
    exact List.length_pos_iff.1 (by omega)
  have hclassify := classify_eq hpending
  have hsettled := settled_settle (b.meet token.number) token.number
  refine ⟨_, hclassify, ⟨hsound.classify hhas hpending hclassify, ?_, ?_, h.walked⟩, ?_⟩
  · exact ⟨by rw [List.length_modifyHead, hlength]; exact h.fits.pending, h.fits.stack⟩
  · simp [settle, meet, h.leaves]
  · refine { hsettled with pending := ?_ }
    exact forall_mem_modifyHead (f := .note _ _) (fun _ hp => hp) hsettled.pending

/-- What meeting a leaf can do.  A leaf that is no code is passed over, or only noted to lie in the
innermost scope.  A leaf that is code has a token, which may mean something. -/
lemma IsAt.visit_cases {before after : List Lexeme} {l : Lexeme}
    (h : b.IsAt (before ++ l :: after) path before.length)
    (hcode : l.isTrivia = false → l.text ≠ "") :
    (l.isTrivia = true ∧
      (l.hasToken = false ∧ b.visit path l = .ok { b with leaves := b.leaves + 1 } ∨
        l.hasToken = true ∧ b.visit path l = .ok (b.meet (before.countP Lexeme.hasToken)))) ∨
    (l.isTrivia = false ∧ ∃ token, b.table.tokens[before.countP Lexeme.hasToken]? = some token ∧
      token.isCode = true ∧ token.kind = l.kind ∧
      token.number = before.countP Lexeme.hasToken ∧
      b.visit path l = ((b.meet token.number).settle token.number).classify path token) := by
  have hentry := LineTable.ofLexeme?_ofLexemes before l after
  rw [← h.sound.table, ← h.leaves] at hentry
  cases htoken : l.hasToken with
  | false =>
    have htrivia : l.isTrivia = true := by
      by_contra hne
      have hl : l.isTrivia = false := by simpa using hne
      simp [Lexeme.hasToken_of_code hl (hcode hl)] at htoken
    rw [htoken] at hentry
    exact .inl ⟨htrivia, .inl ⟨rfl, visit_eq_of_skip hentry (Lexeme.hasToken_eq_false htoken)⟩⟩
  | true =>
    obtain ⟨t, ht, hkind, htext, hnumber⟩ := LineTable.token_ofLexemes before after htoken
    rw [← h.sound.table] at ht
    rw [htoken, if_pos rfl] at hentry
    have hiscode := Token.isCode_eq hkind htoken
    have hvisit : b.visit path l = _ := visit_eq_of_token hentry ht htext
    rw [hiscode] at hvisit
    cases hl : l.isTrivia with
    | false =>
      rw [hl] at hvisit
      exact .inr ⟨rfl, t, ht, by simp [hiscode, hl], hkind, hnumber, by rw [hnumber]; exact hvisit⟩
    | true =>
      rw [hl] at hvisit
      exact .inl ⟨rfl, .inr ⟨rfl, hvisit⟩⟩

/-- The way past a leaf.  A leaf of code settles the builder. -/
lemma IsAt.visit {before after : List Lexeme} {l : Lexeme}
    (h : b.IsAt (before ++ l :: after) path before.length)
    (hcode : l.isTrivia = false → l.text ≠ "") :
    ∃ b', b.visit path l = .ok b' ∧ b'.IsAt (before ++ l :: after) path (before.length + 1) ∧
      (b.Settled ∨ l.isTrivia = false → b'.Settled) := by
  rcases h.visit_cases hcode with ⟨htrivia, ⟨-, hb'⟩ | ⟨-, hb'⟩⟩ | ⟨-, t, ht, hiscode, -, hnumber, hb'⟩
  · refine ⟨_, hb', ⟨{ h.sound with }, { h.fits with }, by simp [h.leaves], h.walked⟩, ?_⟩
    rintro (hsettled | hl)
    · exact { hsettled with }
    · simp [htrivia] at hl
  · refine ⟨_, hb', ⟨h.sound.meet _, { h.fits with }, by simp [meet, h.leaves], h.walked⟩, ?_⟩
    rintro (hsettled | hl)
    · exact { hsettled with }
    · simp [htrivia] at hl
  · rw [← hnumber] at ht
    obtain ⟨b', hclassify, hat, hsettled⟩ := h.visit_code ht hiscode
    exact ⟨b', hb'.trans hclassify, hat, fun _ => hsettled⟩

/-- The innermost declaration of a settled builder has its first token. -/
lemma Settled.exists_pending {declarations scopes : Nat} (hsettled : b.Settled)
    (hopen : b.Open (declarations + 1) scopes) :
    ∃ p ps first, b.pending = p :: ps ∧ p.firstToken = some first := by
  obtain ⟨p, ps, hpending⟩ : ∃ p ps, b.pending = p :: ps :=
    List.exists_cons_of_length_eq_add_one hopen.pending
  obtain ⟨first, hfirst⟩ := Option.isSome_iff_exists.1 (hsettled.pending p (by simp [hpending]))
  exact ⟨p, ps, first, hpending, hfirst⟩

/-- The innermost scope of a settled builder has its first and its last token. -/
lemma Settled.exists_scope {declarations scopes : Nat} (hsettled : b.Settled)
    (hsound : b.Sound ls) (hopen : b.Open declarations (scopes + 1)) :
    ∃ id ids s first last, b.stack = id :: ids ∧ id ≠ 0 ∧ b.scopes[id]? = some s ∧
      s.opening = some first ∧ b.lastCode = some last := by
  obtain ⟨-, ids, hstack, hids, hlength⟩ := hopen
  obtain ⟨id, ids, rfl⟩ := List.exists_cons_of_length_eq_add_one hlength
  rw [List.cons_append] at hstack
  have hid := hids id (by simp)
  have hmem : id ∈ b.stack := by simp [hstack]
  obtain ⟨s, hs⟩ : ∃ s, b.scopes[id]? = some s :=
    ⟨_, Array.getElem?_eq_getElem (hsound.stack_lt id hmem)⟩
  obtain ⟨first, hfirst⟩ := Option.isSome_iff_exists.1 (hsettled.stack id hmem hid s hs)
  obtain ⟨last, hlast⟩ := Option.isSome_iff_exists.1 hsettled.lastCode
  exact ⟨id, ids ++ [0], s, first, last, hstack, hid, hs, hfirst, hlast⟩

/-- A settled builder can finish its innermost declaration. -/
lemma closePending_succeeds {declarations scopes : Nat} (hsound : b.Sound ls)
    (hopen : b.Open (declarations + 1) scopes) (hsettled : b.Settled) (path : Ancestry)
    (kind : NodeKind) (inside : Forest Lexeme) :
    ∃ b', b.closePending path kind inside = .ok b' ∧ b'.Sound ls ∧ b'.Open declarations scopes ∧
      b'.Settled ∧ b'.leaves = b.leaves ∧ b'.walked = b.walked := by
  obtain ⟨p, ps, first, hpending, hfirst⟩ := hsettled.exists_pending hopen
  refine ⟨_, closePending_eq hpending hfirst, hsound.closePending hpending hfirst _ _ _, ?_,
    ?_, rfl, rfl⟩
  · have hlength := hopen.pending
    rw [hpending, List.length_cons, Nat.add_right_cancel_iff] at hlength
    exact ⟨hlength, hopen.stack⟩
  · refine { hsettled with pending := ?_ }
    exact fun q hq => hsettled.pending q (hpending ▸ List.mem_cons_of_mem p hq)

/-- A settled builder can close its innermost scope. -/
lemma closeScope_succeeds {declarations scopes : Nat} (hsound : b.Sound ls)
    (hopen : b.Open declarations (scopes + 1)) (hsettled : b.Settled) :
    ∃ b', b.closeScope = .ok b' ∧ b'.Sound ls ∧ b'.Open declarations scopes ∧ b'.Settled ∧
      b'.leaves = b.leaves ∧ b'.walked = b.walked := by
  obtain ⟨id, ids, s, first, last, hstack, hid, hs, hfirst, hlast⟩ :=
    hsettled.exists_scope hsound hopen
  refine ⟨_, closeScope_eq hstack hid hs hfirst hlast, hsound.closeScope hstack hlast _, ?_, ?_, rfl,
    rfl⟩
  · exact ⟨hopen.pending, hopen.stack_tail hstack⟩
  · refine { hsettled with stack := ?_ }
    intro id' hid' hne s' hs'
    have hmem' : id' ∈ b.stack := hstack ▸ List.mem_cons_of_mem id hid'
    rw [Array.getElem?_modify] at hs'
    split at hs'
    · obtain ⟨s'', hs'', rfl⟩ := Option.map_eq_some_iff.1 hs'
      exact hsettled.stack id' hmem' hne s'' hs''
    · exact hsettled.stack id' hmem' hne s' hs'

/-- The way to the end of the declaration of a node, if it has one.  Only the scope of the node is
left to be closed then. -/
lemma IsAt.finish_declaration {count : Nat} {kind : NodeKind} {inside : Forest Lexeme}
    (h : b.IsAt ls (⟨kind, inside⟩ :: path) count) (hsettled : b.Settled) :
    ∃ b', (if kind.declaresNames then b.closePending path kind inside else .ok b) = .ok b' ∧
      b'.Sound ls ∧ b'.Open (path.countP fun a => a.kind.declaresNames)
        ((path.countP fun a => a.kind.isBraced) + if kind.isBraced then 1 else 0) ∧
      b'.Settled ∧ b'.leaves = count ∧ b'.walked = true := by
  obtain ⟨hsound, hfits, rfl, hwalked⟩ := h
  simp only [Fits, List.countP_cons] at hfits
  cases hdeclares : kind.declaresNames with
  | true =>
    rw [hdeclares] at hfits
    obtain ⟨b', hb', hsound', hopen', hsettled', hleaves', hwalked'⟩ :=
      closePending_succeeds hsound hfits hsettled path kind inside
    exact ⟨b', hb', hsound', hopen', hsettled', hleaves', hwalked'.trans hwalked⟩
  | false =>
    rw [hdeclares] at hfits
    exact ⟨b, rfl, hsound, hfits, hsettled, rfl, hwalked⟩

/-- The way out of a node, once the builder is settled. -/
lemma IsAt.leave {count : Nat} {kind : NodeKind} {inside : Forest Lexeme}
    (h : b.IsAt ls (⟨kind, inside⟩ :: path) count) (hsettled : b.Settled) :
    ∃ b', b.leave path kind inside = .ok b' ∧ b'.IsAt ls path count ∧ b'.Settled := by
  obtain ⟨b₁, hb₁, hsound₁, hopen₁, hsettled₁, hleaves₁, hwalked₁⟩ := h.finish_declaration hsettled
  simp only [Builder.leave, hb₁, Except.bind]
  cases hbraced : kind.isBraced with
  | true =>
    rw [hbraced] at hopen₁
    obtain ⟨b₂, hb₂, hsound₂, hopen₂, hsettled₂, hleaves₂, hwalked₂⟩ :=
      closeScope_succeeds hsound₁ hopen₁ hsettled₁
    exact ⟨b₂, hb₂, ⟨hsound₂, hopen₂, by omega, by rw [hwalked₂, hwalked₁]⟩, hsettled₂⟩
  | false =>
    rw [hbraced] at hopen₁
    exact ⟨b₁, rfl, ⟨hsound₁, hopen₁, hleaves₁, hwalked₁⟩, hsettled₁⟩

/-! ## The walk -/

/-- The property is one of every builder that the walk over a forest passes through, at the place
where it is then. -/
def Throughout (P : Ancestry → Builder → Prop) (path : Ancestry) : Forest Lexeme → Builder → Prop
  | .nil, b => P path b
  | .leaf l rest, b => P path b ∧ ∀ b', b.visit path l = .ok b' → Throughout P path rest b'
  | .node kind inside rest, b =>
    P path b ∧ Throughout P (⟨kind, inside⟩ :: path) inside (b.enter path kind inside) ∧
      ∀ b' b'', walkForest (⟨kind, inside⟩ :: path) inside (b.enter path kind inside) = .ok b' →
        b'.leave path kind inside = .ok b'' → Throughout P path rest b''

/-- The walk over a part of the tree of a file succeeds, whatever has been met before.  The
builder is sound and fits its place all the way, and it is settled at the end if it was before or
if there is code in the part. -/
theorem walkForest_succeeds {f : Forest Lexeme} (before after : List Lexeme)
    (hfull : f.bare.NodesFull) (hcode : CodeHasText f.leaves)
    (hls : ls = before ++ (f.leaves ++ after)) (h : b.IsAt ls path before.length) :
    ∃ b', walkForest path f b = .ok b' ∧
      b'.IsAt ls path (before ++ f.leaves).length ∧ (b.Settled ∨ f.bare.leaves ≠ [] → b'.Settled) ∧
      Throughout (fun path b => b.Sound ls ∧ b.Fits path) path f b := by
  induction f generalizing path before after b with
  | nil =>
    refine ⟨b, rfl, by simpa [Forest.leaves] using h, ?_, h.sound, h.fits⟩
    rintro (hsettled | hne)
    · exact hsettled
    · simp [Forest.bare, Forest.leaves] at hne
  | leaf l rest ih =>
    obtain ⟨hl, hrest⟩ := List.forall_mem_cons.1 hcode
    have hls' : ls = before ++ l :: (rest.leaves ++ after) := hls
    have hfull' : rest.bare.NodesFull := by
      cases htrivia : l.isTrivia <;> simpa [Forest.bare, htrivia, Forest.NodesFull] using hfull
    rw [hls'] at h
    obtain ⟨b₁, hb₁, hat₁, hsettled₁⟩ := h.visit hl
    rw [← hls'] at hat₁
    obtain ⟨b₂, hb₂, hat₂, hsettled₂, hthrough⟩ :=
      ih (before ++ [l]) after hfull' hrest (by simp [hls']) (by simpa using hat₁)
    rw [← hls'] at h
    refine ⟨b₂, ?_, by simpa [Forest.leaves] using hat₂, ?_, ⟨h.sound, h.fits⟩, ?_⟩
    · simp [walkForest, hb₁, Except.bind, hb₂]
    · rintro (hsettled | hne)
      · exact hsettled₂ (Or.inl (hsettled₁ (Or.inl hsettled)))
      · cases htrivia : l.isTrivia with
        | false => exact hsettled₂ (Or.inl (hsettled₁ (Or.inr htrivia)))
        | true => exact hsettled₂ (Or.inr (by simpa [Forest.bare, htrivia] using hne))
    · intro b' hb'
      obtain rfl : b₁ = b' := by simpa [hb₁] using hb'
      exact hthrough
  | node kind inside rest ihInside ihRest =>
    obtain ⟨hne, hfullInside, hfullRest⟩ := hfull
    obtain ⟨hinside, hrest⟩ := List.forall_mem_append.1 hcode
    obtain ⟨b₁, hb₁, hat₁, hsettled₁, hthrough₁⟩ :=
      ihInside before (rest.leaves ++ after) hfullInside hinside
        (by simp [hls, Forest.leaves]) (h.enter kind inside)
    -- There is code inside the node, so the builder is settled when it is left.
    obtain ⟨b₂, hb₂, hat₂, hsettled₂⟩ := hat₁.leave (hsettled₁ (Or.inr hne))
    obtain ⟨b₃, hb₃, hat₃, hsettled₃, hthrough₃⟩ :=
      ihRest (before ++ inside.leaves) after hfullRest hrest
        (by simp [hls, Forest.leaves]) hat₂
    refine ⟨b₃, ?_, by simpa [Forest.leaves] using hat₃, fun _ => hsettled₃ (Or.inl hsettled₂),
      ⟨h.sound, h.fits⟩, hthrough₁, ?_⟩
    · simp [walkForest, hb₁, Except.bind, hb₂, hb₃]
    · intro b' b'' hb' hb''
      obtain rfl : b₁ = b' := by simpa [hb₁] using hb'
      obtain rfl : b₂ = b'' := by simpa [hb₂] using hb''
      exact hthrough₃

/-- Only the file itself is open at the end of a walk. -/
lemma Fits.closed_eq {trees : Forest Lexeme} (h : b.Fits [⟨.sourceFile, trees⟩]) :
    b.closed = .ok b := by
  obtain ⟨hpending, ids, hstack, -, hlength⟩ := h
  obtain rfl : ids = [] := List.length_eq_zero_iff.1 hlength
  have hnone : b.pending = [] := List.length_eq_zero_iff.1 hpending
  simp [closed, hnone, hstack]

/-- The walk over the tree of a file succeeds, if no lexeme of code is empty, and the builder is
sound and fits its place all the way. -/
theorem walk_succeeds {trees : Forest Lexeme} (hparse : parse ls = .ok trees)
    (hcode : CodeHasText ls) :
    ∃ b, (ofTable (LineTable.ofLexemes ls)).walk trees = .ok b ∧ b.Sound ls ∧ b.walked = true ∧
      Throughout (fun path b => b.Sound ls ∧ b.Fits path) [⟨.sourceFile, trees⟩] trees
        { ofTable (LineTable.ofLexemes ls) with walked := true } := by
  have hleaves := parse_leaves hparse
  obtain ⟨b, hb, hat, -, hthrough⟩ :=
    walkForest_succeeds [] [] (parse_bare_nodesFull hparse)
      (by rwa [hleaves]) (by simp [hleaves]) (IsAt.ofTable ls trees)
  have hfresh : (ofTable (LineTable.ofLexemes ls)).walked = false := rfl
  refine ⟨b, ?_, hat.sound, hat.walked, hthrough⟩
  simp [walk, hfresh, hb, Except.bind, hat.fits.closed_eq]

end Builder

/-- A model is built from the tree of a file, if no lexeme of code is empty, and it is what a sound
builder has found. -/
theorem Model.build_succeeds {ls : List Lexeme} {trees : Forest Lexeme}
    (hparse : parse ls = .ok trees) (hcode : CodeHasText ls) :
    ∃ b model, Model.build (LineTable.ofLexemes ls) trees = .ok model ∧
      (Builder.ofTable (LineTable.ofLexemes ls)).walk trees = .ok b ∧ b.Sound ls ∧
      b.finish = .ok model := by
  obtain ⟨b, hwalk, hsound, hwalked, -⟩ := Builder.walk_succeeds hparse hcode
  obtain ⟨model, hfinish⟩ : ∃ model, b.finish = .ok model := by simp [Builder.finish, hwalked]
  exact ⟨b, model, by simp [Model.build, hwalk, hfinish], hwalk, hsound, hfinish⟩

/-- The parts of a source file that has been read. -/
lemma SourceFile.parse_parts {source : String} {file : SourceFile}
    (h : SourceFile.parse source = .ok file) :
    ∃ ls trees b, Lexeme.scan source = .ok ls ∧ JavaLint.parse ls = .ok trees ∧
      file.table = LineTable.ofLexemes ls ∧
      (Builder.ofTable (LineTable.ofLexemes ls)).walk trees = .ok b ∧ b.Sound ls ∧
      b.finish = .ok file.model := by
  unfold SourceFile.parse at h
  cases hscan : Lexeme.scan source with
  | error e => simp [hscan, bind, Except.bind] at h
  | ok ls =>
    cases hparse : JavaLint.parse ls with
    | error e => simp [hscan, hparse, bind, Except.bind] at h
    | ok trees =>
      obtain ⟨b, model, hbuild, hwalk, hsound, hfinish⟩ :=
        Model.build_succeeds hparse (codeHasText_of_scan hscan)
      obtain rfl : ⟨LineTable.ofLexemes ls, model⟩ = file := by
        simpa [hscan, hparse, hbuild, bind, Except.bind, pure, Except.pure] using h
      exact ⟨ls, trees, b, rfl, hparse, rfl, hwalk, hsound, hfinish⟩

end JavaLint
