import JavaLint.Proofs.Answer
import JavaLint.Proofs.Grammar.NameWords
import JavaLint.Proofs.Grammar.Opening
import JavaLint.Proofs.Model.Roles
import JavaLint.Proofs.Model.Scopes
import Mathlib.Data.List.Perm.Subperm
import Mathlib.Tactic.Common

/-!
# The braces of a file

Every opening brace of a file starts a scope of its own.  That each scope starts at a brace of its own
is known from the walk (`Builder.walk_scopes`); that no brace is left over follows by counting: the walk
makes one scope for each node with braces (`Builder.size_scopes_walkForest`), and the tree has one such
node for each opening brace (`Forest.Bracketed.starts_eq_braces`).

`Scope.OwnsBraces` says of one scope what the rules about braces need to know, and
`SourceFile.scopes_own_braces` says it of all scopes of a file.
-/

namespace JavaLint

/-! ## Counting scopes -/

namespace Builder

variable {b b' : Builder} {path : Ancestry} {kind : NodeKind} {inside : Forest Lexeme}

/-- What a token means changes no scope. -/
lemma scopes_classify {token : Token} (h : b.classify path token = .ok b') : b'.scopes = b.scopes := by
  unfold classify noteName updatePending at h
  repeat' split at h
  all_goals first | (obtain rfl := Except.ok.inj h; rfl) | cases h

/-- A leaf makes no scope. -/
lemma size_scopes_visit {l : Lexeme} (h : b.visit path l = .ok b') :
    b'.scopes.size = b.scopes.size := by
  unfold visit at h
  repeat' split at h
  all_goals first | (obtain rfl := Except.ok.inj h; rfl) | cases h | skip
  rw [scopes_classify h, size_scopes_settle]

/-- Entering a node makes a scope if the node has braces. -/
lemma size_scopes_enter (b : Builder) (path : Ancestry) (kind : NodeKind) (inside : Forest Lexeme) :
    (b.enter path kind inside).scopes.size = b.scopes.size + if kind.isBraced then 1 else 0 := by
  rw [enter_eq]
  cases kind.isBraced <;> simp

/-- Finishing a declaration changes no scope. -/
lemma scopes_closePending (h : b.closePending path kind inside = .ok b') : b'.scopes = b.scopes := by
  unfold closePending record at h
  repeat' split at h
  all_goals first | (obtain rfl := Except.ok.inj h; rfl) | cases h

/-- Closing a scope makes no scope. -/
lemma size_scopes_closeScope (h : b.closeScope = .ok b') : b'.scopes.size = b.scopes.size := by
  simp only [closeScope] at h
  repeat' split at h
  all_goals first | (obtain rfl := Except.ok.inj h; simp) | cases h

/-- Leaving a node makes no scope. -/
lemma size_scopes_leave (h : b.leave path kind inside = .ok b') :
    b'.scopes.size = b.scopes.size := by
  obtain ⟨b₁, hdeclared, hscope⟩ := exists_of_bind_eq_ok h
  have hsize : b₁.scopes = b.scopes := by
    split at hdeclared
    · exact scopes_closePending hdeclared
    · rw [Except.ok.inj hdeclared]
  rw [← hsize]
  split at hscope
  · exact size_scopes_closeScope hscope
  · rw [Except.ok.inj hscope]

/-- The walk makes a scope for each node with braces. -/
lemma size_scopes_walkForest {f : Forest Lexeme} (start : Nat) (h : walkForest path f b = .ok b') :
    b'.scopes.size = b.scopes.size + (f.bracedSpans start).length := by
  induction f generalizing path b b' start with
  | nil => rw [← Except.ok.inj h]; rfl
  | leaf l rest ih =>
    obtain ⟨b₁, hvisit, hrest⟩ := exists_of_bind_eq_ok h
    rw [ih (start + 1) hrest, size_scopes_visit hvisit, Forest.bracedSpans]
  | node kind inside rest ihInside ihRest =>
    obtain ⟨b₁, hinside, hnode⟩ := exists_of_bind_eq_ok h
    obtain ⟨b₂, hleave, hrest⟩ := exists_of_bind_eq_ok hnode
    rw [ihRest (start + inside.leaves.length) hrest, size_scopes_leave hleave, ihInside start hinside,
      size_scopes_enter, Forest.bracedSpans, List.length_append, List.length_append]
    cases kind.isBraced <;> simp <;> omega

end Builder

/-- The walk over the tree of a file makes a scope for each opening brace, besides that of the file. -/
lemma Builder.size_scopes_walk {ls : List Lexeme} {trees : Forest Lexeme} {b : Builder}
    (hparse : parse ls = .ok trees)
    (hwalk : (ofTable (LineTable.ofLexemes ls)).walk trees = .ok b) :
    b.scopes.size = 1 + ls.countP fun l => l.kind = .lBrace := by
  have hfresh : (ofTable (LineTable.ofLexemes ls)).walked = false := rfl
  rw [walk, hfresh, if_neg (by simp)] at hwalk
  obtain ⟨b₁, hforest, hclosed⟩ := exists_of_bind_eq_ok hwalk
  have hstarts := congrArg List.length ((parse_bracketed hparse).starts_eq_braces 0)
  rw [List.length_map, List.length_findIdxs, parse_leaves hparse] at hstarts
  rw [closed_eq_ok hclosed, size_scopes_walkForest 0 hforest, hstarts]
  rfl

/-! ## The roles of separators -/

/-- A word that stands directly in the node of a name has what the words of names have. -/
lemma Forest.NamesHave.of_mem_places {p : Lexeme → Prop} {f : Forest Lexeme} (hf : f.NamesHave p)
    {path : Ancestry} (hpath : path.kind = .name → ∀ l ∈ f.leaves, p l) {place : Ancestry × Lexeme}
    (hplace : place ∈ f.places path) (hname : Ancestry.kind place.1 = .name) : p place.2 := by
  induction f generalizing path with
  | nil => simp [places] at hplace
  | leaf l rest ih =>
    rcases List.mem_cons.1 hplace with rfl | hrest
    · exact hpath hname l (by simp [leaves])
    · exact ih hf (fun hkind m hm => hpath hkind m (by simp [leaves, hm])) hrest
  | node kind inside rest ihInside ihRest =>
    obtain ⟨hnode, hinside, hrest⟩ := hf
    rcases List.mem_append.1 hplace with hplace | hplace
    · have hhere : Ancestry.kind (⟨kind, inside⟩ :: path) = .name → ∀ l ∈ inside.leaves, p l := hnode
      exact ihInside hinside hhere hplace
    · exact ihRest hrest (fun hkind m hm => hpath hkind m (by simp [leaves, hm])) hplace

/-- A word that is no name has no owner. -/
lemma owner?_eq_none {path : Ancestry} (h : path.kind ≠ .name) : owner? path = none := by
  match path with
  | [] => rfl
  | [_] => rfl
  | [name, owner] => simpa [owner?, Ancestry.kind] using fun hname => absurd hname h
  | name :: declarator :: owner :: around =>
    simpa [owner?, Ancestry.kind] using fun hname => absurd hname h

/-- A word that cannot be a name is read without a look at declarations. -/
lemma reading_eq_plainReading {ls : List Lexeme} {trees : Forest Lexeme} (hparse : parse ls = .ok trees)
    {path : Ancestry} {l : Lexeme} (hplace : (path, l) ∈ trees.places [⟨.sourceFile, trees⟩])
    (hl : l.kind.isName = false) : reading path l.kind = plainReading path l.kind := by
  have hname : path.kind ≠ .name := by
    intro hkind
    have hword := (parse_namesHave hparse).of_mem_places (by simp [Ancestry.kind]) hplace hkind
    simp [hl] at hword
  rw [reading, owner?_eq_none hname]

/-- One of the signs that part other words. -/
def Kind.isSeparator : Kind → Bool
  | lBrace | rBrace | comma | semi => true
  | _ => false

/-- A separator is read as what it is, wherever it stands. -/
lemma role_reading_of_isSeparator {ls : List Lexeme} {trees : Forest Lexeme}
    (hparse : parse ls = .ok trees) {path : Ancestry} {l : Lexeme}
    (hplace : (path, l) ∈ trees.places [⟨.sourceFile, trees⟩]) (hl : l.kind.isSeparator = true) :
    (reading path l.kind).role = Role.ofKind l.kind := by
  have hname : l.kind.isName = false := by
    cases hkind : l.kind <;> simp_all [Kind.isSeparator, Kind.isName]
  have hkeeps : Builder.losesRole path l.kind = false := by
    unfold Builder.losesRole
    cases hkind : l.kind <;> simp_all [Kind.isSeparator] <;> split <;> simp [isNoOperator]
  rw [reading_eq_plainReading hparse hplace hname]
  simp [plainReading, hkeeps]

/-! ## The braces of scopes -/

namespace Nested

variable {outer depth id start : Nat} {scopes : List Scope} {owners : List Nat} {s : Scope}

/-- The innermost scope that holds a token is noted for the token. -/
lemma owner_eq (h : Nested outer depth id start scopes owners) (hs : s ∈ scopes) {token : Nat}
    (hholds : s.Holds token) (hinnermost : ∀ t ∈ scopes, t.Within s → ¬ t.Holds token) :
    owners[token - start]? = some s.id := by
  obtain ⟨-, -, hstart, -, hstop⟩ := h.bounds hs
  have hfirst := hholds.1
  have hlast := hholds.2
  obtain ⟨n, rfl⟩ : ∃ n, token = start + n := ⟨token - start, by omega⟩
  rw [Nat.add_sub_cancel_left]
  obtain ⟨o, ho⟩ : ∃ o, owners[n]? = some o := ⟨_, List.getElem?_eq_getElem (by omega)⟩
  rcases h.owner ho with ⟨-, hnone⟩ | ⟨t, ⟨ht, htholds, hsmallest⟩, rfl⟩
  · exact absurd hholds (hnone s hs)
  · rcases hsmallest s hs hholds with rfl | hwithin
    · exact ho
    · exact absurd htholds (hinnermost t ht hwithin)

/-- The first token of a scope lies in the scope. -/
lemma owner_first (h : Nested outer depth id start scopes owners) (hs : s ∈ scopes) :
    owners[s.first - start]? = some s.id := by
  obtain ⟨-, -, -, hlt, -⟩ := h.bounds hs
  exact h.owner_eq hs ⟨Nat.le_refl _, hlt.le⟩ fun t _ hwithin hholds =>
    absurd hholds.1 (Nat.not_le_of_lt hwithin.1)

/-- The last token of a scope lies in the scope. -/
lemma owner_last (h : Nested outer depth id start scopes owners) (hs : s ∈ scopes) :
    owners[s.last - start]? = some s.id := by
  obtain ⟨-, -, -, hlt, -⟩ := h.bounds hs
  exact h.owner_eq hs ⟨hlt.le, Nat.le_refl _⟩ fun t _ hwithin hholds =>
    absurd hholds.2 (Nat.not_le_of_lt hwithin.2)

/-- Scopes come in the order of their first tokens. -/
lemma first_lt (h : Nested outer depth id start scopes owners) :
    scopes.Pairwise fun s t => s.first < t.first := by
  refine h.pairwise.imp_of_mem fun {s t} hs _ hst => ?_
  rcases hst with hwithin | hbefore
  · exact hwithin.1
  · exact (h.bounds hs).2.2.2.1.trans hbefore

end Nested

/-- The token with the number is of the given kind, and the model knows it to be what its kind says. -/
def SourceFile.HasPlain (file : SourceFile) (kind : Kind) (n : Nat) : Prop :=
  ∃ t c, file.table.tokens[n]? = some t ∧ t.kind = kind ∧ t.number = n ∧
    file.model.classification n = .ok c ∧ c.role = Role.ofKind kind

/-- The two braces of the scope are tokens of the file, and they are known to be the braces of this
scope.  The opening one is not among the first two tokens. -/
structure Scope.OwnsBraces (file : SourceFile) (s : Scope) : Prop where
  opening : s.opening = some s.first
  closing : s.closing = some s.last
  opens : file.HasPlain .lBrace s.first
  closes : file.HasPlain .rBrace s.last
  scopeOf_first : file.model.scopeOf s.first = .ok s
  scopeOf_last : file.model.scopeOf s.last = .ok s
  two_le : 2 ≤ s.first

namespace SourceFile

/-- The lexemes, the trees and the builder from which a source file comes. -/
structure ComesFrom (file : SourceFile) (ls : List Lexeme) (trees : Forest Lexeme) (b : Builder) :
    Prop where
  placed : Lexeme.IsPlaced 0 1 ls
  code : CodeHasText ls
  parse : JavaLint.parse ls = .ok trees
  table : file.table = LineTable.ofLexemes ls
  walk : (Builder.ofTable (LineTable.ofLexemes ls)).walk trees = .ok b
  sound : b.Sound ls
  finish : b.finish = .ok file.model

/-- A file that has been read comes from the lexemes of its source text. -/
lemma comesFrom_of_scan {source : String} {file : SourceFile} {ls : List Lexeme}
    (h : SourceFile.parse source = .ok file) (hscan : Lexeme.scan source = .ok ls) :
    ∃ trees b, file.ComesFrom ls trees b := by
  obtain ⟨ls', trees, b, hscan', hparse, htable, hwalk, hsound, hfinish⟩ := parse_parts h
  obtain rfl := Except.ok.inj (hscan'.symm.trans hscan)
  exact ⟨trees, b, (Lexeme.scan_eq_ok hscan).2, codeHasText_of_scan hscan, hparse, htable, hwalk,
    hsound, hfinish⟩

/-- A file that has been read comes from some lexemes. -/
lemma comesFrom_of_parse {source : String} {file : SourceFile}
    (h : SourceFile.parse source = .ok file) : ∃ ls trees b, file.ComesFrom ls trees b := by
  obtain ⟨ls, -, -, hscan, -⟩ := parse_parts h
  exact ⟨ls, comesFrom_of_scan h hscan⟩

namespace ComesFrom

variable {file : SourceFile} {ls before after : List Lexeme} {l : Lexeme} {trees : Forest Lexeme}
  {b : Builder}

/-- A word among the lexemes of a file stands in the tree, and the model knows it as it is read there. -/
lemma exists_place (h : file.ComesFrom ls trees b) (hls : ls = before ++ l :: after)
    (hl : l.isTrivia = false) :
    ∃ path, (trees.places [⟨.sourceFile, trees⟩])[before.length]? = some (path, l) ∧
      file.model.classification (before.countP Lexeme.hasToken) = .ok (reading path l.kind) := by
  subst hls
  have htoken := Lexeme.hasToken_of_code hl (h.code l (by simp) hl)
  have hleaf : ((trees.places [⟨.sourceFile, trees⟩]).map Prod.snd)[before.length]? = some l := by
    rw [Forest.map_snd_places, parse_leaves h.parse]
    simp
  rw [List.getElem?_map] at hleaf
  obtain ⟨⟨path, l⟩, hplace, rfl⟩ := Option.map_eq_some_iff.1 hleaf
  obtain ⟨token, hentry, hclass⟩ := Builder.class_of_walk h.parse h.code h.walk h.sound hplace hl
  rw [LineTable.ofLexeme?_ofLexemes, htoken, if_pos rfl] at hentry
  obtain rfl := Option.some.inj hentry
  obtain ⟨-, -, hclasses, -⟩ := Builder.finish_eq_ok h.finish
  exact ⟨path, hplace, by rw [Model.classification, hclasses, hclass]⟩

/-- A separator among the lexemes of a file is a token that is known to be what it is. -/
lemma hasPlain (h : file.ComesFrom ls trees b) (hls : ls = before ++ l :: after)
    (hl : l.kind.isSeparator = true) : file.HasPlain l.kind (before.countP Lexeme.hasToken) := by
  have htrivia : l.isTrivia = false := by
    rw [Lexeme.isTrivia]
    cases hkind : l.kind <;> simp_all [Kind.isSeparator, Kind.isTrivia, Kind.channel]
  have htoken := Lexeme.hasToken_of_code htrivia (h.code l (by simp [hls]) htrivia)
  obtain ⟨t, ht, hkind, -, hnumber⟩ := LineTable.token_ofLexemes before after htoken
  obtain ⟨path, hplace, hclass⟩ := h.exists_place hls htrivia
  exact ⟨t, _, by rw [h.table, hls, ht], hkind, hnumber, hclass,
    role_reading_of_isSeparator h.parse (List.mem_of_getElem? hplace) hl⟩

/-- At least two tokens come before an opening brace. -/
lemma two_le (h : file.ComesFrom ls trees b) (hls : ls = before ++ l :: after)
    (hl : l.kind = .lBrace) : 2 ≤ before.countP Lexeme.hasToken := by
  obtain ⟨shape, hshape, -⟩ := parse_eq_ok.1 h.parse
  have hword : ((codeLexemes ls).map Lexeme.kind)[(codeLexemes before).length]? = some .lBrace := by
    have htrivia : l.isTrivia = false := by rw [Lexeme.isTrivia, hl]; rfl
    have hcode : codeLexemes ls = codeLexemes before ++ l :: codeLexemes after := by
      simp [hls, codeLexemes, htrivia]
    simp [hcode, hl]
  have hcount : (codeLexemes before).length ≤ before.countP Lexeme.hasToken := by
    rw [codeLexemes, ← List.countP_eq_length_filter]
    refine List.countP_mono_left fun m hm htrivia => ?_
    have hcode : m.isTrivia = false := by simpa using htrivia
    exact Lexeme.hasToken_of_code hcode (h.code m (by simp [hls, hm]) hcode)
  exact (readShape_brace hshape hword).trans hcount

/-- The scopes of a file are those of its braces, each opening later than those before it. -/
lemma exists_blocks (h : file.ComesFrom ls trees b) :
    ∃ blocks, file.model.scopes.toList = .file :: blocks ∧
      Nested 0 1 1 0 blocks file.model.tokenScopes.toList ∧ (∀ s ∈ blocks, s.HasBraces ls) ∧
      blocks.length = ls.countP (fun l => l.kind = .lBrace) := by
  obtain ⟨hscopes, htokenScopes, -, -⟩ := Builder.finish_eq_ok h.finish
  obtain ⟨blocks, hblocks, hnested, hbraces⟩ := Builder.walk_scopes h.parse h.code h.walk
  refine ⟨blocks, by rw [hscopes, hblocks], by rwa [htokenScopes], fun s hs => (hbraces s hs).1, ?_⟩
  have hsize := Builder.size_scopes_walk h.parse h.walk
  rw [← Array.length_toList, hblocks, List.length_cons] at hsize
  omega

/-- The scope that is noted for a token is the scope of the token. -/
lemma scopeOf_eq {blocks : List Scope} {owners : List Nat}
    (hblocks : file.model.scopes.toList = .file :: blocks) (hnested : Nested 0 1 1 0 blocks owners)
    {s : Scope} (hs : s ∈ blocks) {n : Nat} (hn : file.model.tokenScopes[n]? = some s.id) :
    file.model.scopeOf n = .ok s := by
  obtain ⟨i, hi⟩ := List.mem_iff_getElem?.1 hs
  have hid : file.model.scopes[s.id]? = some s := by
    rw [← Array.getElem?_toList, hblocks, hnested.id_eq hi, Nat.add_comm, List.getElem?_cons_succ, hi]
  simp [Model.scopeOf, hn, Model.scope, Model.scope?, hid]

/-- The scopes between braces own their braces. -/
lemma ownsBraces (h : file.ComesFrom ls trees b) {blocks : List Scope}
    (hblocks : file.model.scopes.toList = .file :: blocks)
    (hnested : Nested 0 1 1 0 blocks file.model.tokenScopes.toList) {s : Scope} (hs : s ∈ blocks)
    (hbraces : s.HasBraces ls) : s.OwnsBraces file := by
  obtain ⟨before, opens, between, closes, after, hls, hopens, hcloses, hfirst, hlast, -⟩ := hbraces
  obtain ⟨hopening, hclosing, -⟩ := hnested.bounds hs
  have hls' : ls = (before ++ opens :: between) ++ closes :: after := by simp [hls]
  have hopensAt := h.hasPlain hls (by rw [hopens]; rfl)
  have hclosesAt := h.hasPlain hls' (by rw [hcloses]; rfl)
  have htwo := h.two_le hls hopens
  rw [hopens, ← Option.some.inj (hopening.symm.trans hfirst)] at hopensAt
  rw [hcloses, ← Option.some.inj (hclosing.symm.trans hlast)] at hclosesAt
  rw [← Option.some.inj (hopening.symm.trans hfirst)] at htwo
  refine ⟨hopening, hclosing, hopensAt, hclosesAt, scopeOf_eq hblocks hnested hs ?_,
    scopeOf_eq hblocks hnested hs ?_, htwo⟩
  · simpa using hnested.owner_first hs
  · simpa using hnested.owner_last hs

/-- There are as many opening braces among the tokens as among the lexemes. -/
lemma countP_braces (h : file.ComesFrom ls trees b) :
    file.table.tokens.toList.countP (fun t => t.kind = .lBrace) =
      ls.countP (fun l => l.kind = .lBrace) := by
  have htokens := congrArg (List.countP fun p : Kind × String => p.1 = .lBrace)
    (LineTable.map_tokens_ofLexemes ls)
  rw [List.countP_map, List.countP_map, List.countP_filter, ← h.table] at htokens
  refine htokens.trans (List.countP_congr fun l hl => ?_)
  simp only [Function.comp_apply, Bool.and_eq_true, decide_eq_true_eq, and_iff_left_iff_imp]
  intro hbrace
  have htrivia : l.isTrivia = false := by rw [Lexeme.isTrivia, hbrace]; rfl
  exact Lexeme.hasToken_of_code htrivia (h.code l hl htrivia)

/-- Every opening brace opens a scope: the scopes open at braces of their own, and there are as many
scopes as braces. -/
lemma exists_scope (h : file.ComesFrom ls trees b) {blocks : List Scope}
    (hsorted : blocks.Pairwise fun s t => s.first < t.first)
    (howns : ∀ s ∈ blocks, s.OwnsBraces file)
    (hlength : blocks.length = ls.countP fun l => l.kind = .lBrace) {n : Nat} {t : Token}
    (ht : file.table.tokens[n]? = some t) (hkind : t.kind = .lBrace) :
    ∃ s ∈ blocks, s.opening = some n := by
  let braces := (file.table.tokens.toList.filter fun t => t.kind = .lBrace).map Token.number
  have hbrace {m : Nat} {t : Token} (ht : file.table.tokens[m]? = some t) (hkind : t.kind = .lBrace) :
      m ∈ braces := by
    have hnumber : t.number = m := LineTable.number_ofLexemes (h.table ▸ ht)
    rw [← Array.getElem?_toList] at ht
    exact List.mem_map.2 ⟨t, List.mem_filter.2 ⟨List.mem_of_getElem? ht, by simpa using hkind⟩, hnumber⟩
  have hnodup : (blocks.map Scope.first).Nodup :=
    List.pairwise_map.2 (hsorted.imp fun hlt => Nat.ne_of_lt hlt)
  have hsubset : blocks.map Scope.first ⊆ braces := by
    intro m hm
    obtain ⟨s, hs, rfl⟩ := List.mem_map.1 hm
    obtain ⟨t, -, ht, hkind, -⟩ := (howns s hs).opens
    exact hbrace ht hkind
  have hperm := (List.subperm_of_subset hnodup hsubset).perm_of_length_le (by
    rw [List.length_map, List.length_map, ← List.countP_eq_length_filter, h.countP_braces, hlength])
  obtain ⟨s, hs, hfirst⟩ := List.mem_map.1 (hperm.mem_iff.2 (hbrace ht hkind))
  exact ⟨s, hs, by rw [(howns s hs).opening, hfirst]⟩

end ComesFrom

/-- The scopes of a file are the file itself and those between its braces, which come in the order of
their opening braces and own their braces.  Every opening brace opens one of them. -/
theorem scopes_own_braces {source : String} {file : SourceFile}
    (h : SourceFile.parse source = .ok file) :
    ∃ blocks, file.model.scopes.toList = .file :: blocks ∧
      (blocks.Pairwise fun s t => s.first < t.first) ∧ (∀ s ∈ blocks, s.OwnsBraces file) ∧
      ∀ (n : Nat) (t : Token), file.table.tokens[n]? = some t → t.kind = .lBrace →
        ∃ s ∈ blocks, s.opening = some n := by
  obtain ⟨ls, trees, b, hfrom⟩ := comesFrom_of_parse h
  obtain ⟨blocks, hblocks, hnested, hbraces, hlength⟩ := hfrom.exists_blocks
  have howns : ∀ s ∈ blocks, s.OwnsBraces file := fun s hs =>
    hfrom.ownsBraces hblocks hnested hs (hbraces s hs)
  exact ⟨blocks, hblocks, hnested.first_lt, howns, fun n t ht hkind =>
    hfrom.exists_scope hnested.first_lt howns hlength ht hkind⟩

end SourceFile

end JavaLint
