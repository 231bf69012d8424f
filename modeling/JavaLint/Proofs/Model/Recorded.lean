import JavaLint.Proofs.Grammar.Owners
import JavaLint.Proofs.Layout.Sketch
import JavaLint.Proofs.Token.Order
import JavaLint.Proofs.Tree.Sites
import Mathlib.Tactic.Common

/-!
# What the walk records

The walk records the declarations of a node when it leaves the node, so those of inner nodes come
first.  Up to the order, it has recorded one declaration for each declared name of each recorded node
of what it has walked over (`walkForest_records`).

On the way, the declarations that are pending know their first token once there has been code, and
the names in the nodes that belong to them.  The names that a part of the tree adds to the innermost
one are `noted`; for the inside of a recorded node, these are just the names that the node declares
(`noted_inside`).
-/

namespace JavaLint

/-! ## Declarations of sites -/

/-- The first token of a node. -/
def Site.token? (t : LineTable) (s : Site) : Option Nat :=
  s.first?.bind t.ofLexeme?

/-- The declaration that a node makes of one of its names. -/
def LineTable.declaration? (t : LineTable) (s name : Site) : Option Declaration := do
  let kind ← DeclKind.ofNode? s.kind
  let first ← s.token? t
  let nameToken ← name.token? t
  return .ofNode kind s.inside name.inside.text nameToken first

namespace Forest

/-- The recorded nodes of a forest in document order. -/
def recordedSites (before : Nat) (f : Forest Lexeme) : List Site :=
  (f.sites before).filter fun s => s.kind.isRecorded

/-- The recorded nodes of a forest, each with each of its names. -/
def declaredNamesOf (before : Nat) (f : Forest Lexeme) : List (Site × Site) :=
  (f.recordedSites before).flatMap fun s => s.names.map (s, ·)

/-- The names of a node are its own, if it is recorded, and those inside it. -/
lemma declaredNamesOf_node (kind : NodeKind) (inside : Forest Lexeme) (before : Nat) :
    (node kind inside .nil).declaredNamesOf before =
      (if kind.isRecorded then
        (Site.names ⟨kind, inside, before⟩).map (⟨kind, inside, before⟩, ·) else []) ++
        inside.declaredNamesOf before := by
  simp only [declaredNamesOf, recordedSites, sites, List.append_nil, List.filter_cons]
  split <;> simp

end Forest

/-! ## The names that are noted -/

namespace LineTable

/-- The names in a forest inside `base` that belong to the innermost declaration around it, if so
many leaves stand before the forest. -/
def noted (t : LineTable) (base : Ancestry) : (before : Nat) → Forest Lexeme → List (Nat × Role)
  | _, .nil => []
  | before, .leaf l rest =>
    (if l.isTrivia then [] else (t.ofLexeme? before).toList.flatMap (Builder.notedNames base)) ++
      noted t base (before + 1) rest
  | before, .node kind inside rest =>
    (if kind.declaresNames then [] else noted t (⟨kind, inside⟩ :: base) before inside) ++
      noted t base (before + inside.leaves.length) rest

variable {t : LineTable} {base : Ancestry} {a : Ancestor} {f : Forest Lexeme} {before : Nat}

/-- No names are noted in a node that gives them no role. -/
lemma noted_eq_nil (ha : a.kind.declaresNames = false) (hdeclarator : a.kind ≠ .variableDeclarator)
    (hnone : ∀ number, Builder.notedNames (a :: base) number = []) (hf : f.Orderly a.kind) :
    t.noted (a :: base) before f = [] := by
  induction f generalizing a base before with
  | nil => rfl
  | leaf l rest ih => simp [noted, hnone, ih ha hdeclarator hnone hf]
  | node kind inside rest ihInside ihRest =>
    obtain ⟨hstands, -, hinside, hrest⟩ := hf
    rw [noted, ihRest ha hdeclarator hnone hrest, List.append_nil]
    cases hkind : kind.declaresNames with
    | true => rfl
    | false =>
      have hne : kind ≠ .variableDeclarator := by
        rintro rfl
        obtain ⟨role, hrole⟩ := Option.isSome_iff_exists.1 hstands
        rw [NodeKind.declaresNames_of_variableRole? hrole] at ha
        cases ha
      refine ihInside hkind hne (fun number => ?_) hinside
      by_cases hname : kind = .name
      · -- The name can only be that of a type parameter.
        subst hname
        rcases hstands with hrole | htypeParam | hdeclarator'
        · obtain ⟨role, hrole⟩ := Option.isSome_iff_exists.1 hrole
          rw [NodeKind.declaresNames_of_nameRole? hrole] at ha
          cases ha
        · cases base <;>
            simp [Builder.notedNames, nameRole?, htypeParam, NodeKind.nameRole?]
        · exact absurd hdeclarator' hdeclarator
      · simp [Builder.notedNames, hname]

/-- Only words in the nodes of names are noted. -/
lemma noted_leaf (hname : a.kind ≠ .name) (before : Nat) (l : Lexeme) (rest : Forest Lexeme) :
    t.noted (a :: base) before (.leaf l rest) = t.noted (a :: base) (before + 1) rest := by
  simp [noted, Builder.notedNames, hname]

/-- The name that is noted in the node of a name. -/
lemma noted_name {l : Lexeme} (hl : l.isTrivia = false) {path : Ancestry} {role : Role}
    (hnames : ∀ number, Builder.notedNames path number = [(number, role)]) :
    (t.noted path before (.leaf l .nil)).map Prod.fst =
      [(⟨.name, .leaf l .nil, before⟩ : Site)].filterMap (Site.token? t) := by
  have htoken : Site.token? t ⟨.name, .leaf l .nil, before⟩ = t.ofLexeme? before := by
    simp [Site.token?, Site.first?, Forest.firstCode?_leaf, hl]
  rw [List.filterMap_cons, htoken]
  cases hentry : t.ofLexeme? before <;> simp [noted, hl, hentry, hnames]

/-- In a node that gives a role to the names directly inside it, or with whose declarators a node
around it does so, just these names are noted. -/
lemma noted_direct {owner : NodeKind} {role : Role} (hrole : nameRole? (a :: base) = some (owner, role))
    (hdeclarators : a.kind.variableRole? = none) (hname : a.kind ≠ .name)
    (hf : f.Orderly a.kind) (hsingle : f.NamesSingle) (hbare : f.NamesBare) :
    (t.noted (a :: base) before f).map Prod.fst =
      (f.sitesOf .name before).filterMap (Site.token? t) := by
  induction f generalizing before with
  | nil => rfl
  | leaf l rest ih =>
    rw [noted_leaf hname]
    exact ih hf hsingle hbare
  | node kind inside rest _ ih =>
    obtain ⟨hstands, -, hinside, hrest⟩ := hf
    obtain ⟨hsingleName, -, hsingleRest⟩ := hsingle
    obtain ⟨hbareName, -, hbareRest⟩ := hbare
    rw [noted, Forest.sitesOf, List.map_append, List.filterMap_append,
      ih hrest hsingleRest hbareRest]
    congr 1
    by_cases hkind : kind = .name
    · subst hkind
      obtain ⟨l, rfl⟩ := hsingleName rfl
      have hl := hbareName rfl l (by simp [Forest.leaves])
      have hplain : NodeKind.name.declaresNames = false := rfl
      have hnames (number : Nat) : Builder.notedNames (⟨.name, .leaf l .nil⟩ :: a :: base) number =
          [(number, role)] := by
        simp [Builder.notedNames, hrole]
      rw [hplain, if_neg Bool.false_ne_true, if_pos rfl]
      exact noted_name hl hnames
    · rw [if_neg hkind]
      cases hdeclares : kind.declaresNames with
      | true => rfl
      | false =>
        have hne : kind ≠ .variableDeclarator := by
          rintro rfl
          have hsome : a.kind.variableRole?.isSome := hstands
          rw [hdeclarators] at hsome
          cases hsome
        have hnone (number : Nat) :
            Builder.notedNames (⟨kind, inside⟩ :: a :: base) number = [] := by
          simp [Builder.notedNames, hkind]
        rw [if_neg Bool.false_ne_true, noted_eq_nil hdeclares hne hnone hinside]
        rfl

/-- In a node that gives a role to the names of its declarators, just these names are noted. -/
lemma noted_declarators {role : Role} (hrole : a.kind.variableRole? = some role)
    (hf : f.Orderly a.kind) (hsingle : f.NamesSingle) (hbare : f.NamesBare) :
    (t.noted (a :: base) before f).map Prod.fst =
      ((f.sitesOf .variableDeclarator before).flatMap fun d =>
        d.inside.sitesOf .name d.before).filterMap (Site.token? t) := by
  have hname : a.kind.nameRole? = none ∧ a.kind ≠ .name ∧ a.kind ≠ .typeParam ∧
      a.kind ≠ .variableDeclarator := by
    revert hrole
    cases a.kind <;> simp [NodeKind.variableRole?, NodeKind.nameRole?]
  obtain ⟨hnoRole, hne, htypeParam, hdeclarator⟩ := hname
  induction f generalizing before with
  | nil => rfl
  | leaf l rest ih =>
    rw [noted_leaf hne]
    exact ih hf hsingle hbare
  | node kind inside rest _ ih =>
    obtain ⟨hstands, -, hinside, hrest⟩ := hf
    obtain ⟨-, hsingleInside, hsingleRest⟩ := hsingle
    obtain ⟨-, hbareInside, hbareRest⟩ := hbare
    rw [noted, Forest.sitesOf, List.map_append, List.flatMap_append, List.filterMap_append,
      ih hrest hsingleRest hbareRest]
    congr 1
    by_cases hkind : kind = .variableDeclarator
    · subst hkind
      have hpath : nameRole? (⟨.variableDeclarator, inside⟩ :: a :: base) = some (a.kind, role) := by
        simp [nameRole?, hrole]
      have hplain : NodeKind.variableDeclarator.declaresNames = false := rfl
      have hword : NodeKind.variableDeclarator ≠ .name := by decide
      rw [hplain, if_neg Bool.false_ne_true, if_pos rfl, List.flatMap_singleton]
      exact noted_direct hpath rfl hword hinside hsingleInside hbareInside
    · rw [if_neg hkind]
      cases hdeclares : kind.declaresNames with
      | true => rfl
      | false =>
        have hkindName : kind ≠ .name := by
          rintro rfl
          rcases hstands with hsome | hparam | hstands
          · rw [hnoRole] at hsome
            cases hsome
          · exact htypeParam hparam
          · exact hdeclarator hstands
        have hnone (number : Nat) :
            Builder.notedNames (⟨kind, inside⟩ :: a :: base) number = [] := by
          simp [Builder.notedNames, hkindName]
        rw [if_neg Bool.false_ne_true, noted_eq_nil hdeclares hkind hnone hinside]
        rfl

/-- What is noted inside a recorded node are its names. -/
lemma noted_inside {kind : NodeKind} {inside : Forest Lexeme} (hkind : kind.isRecorded = true)
    (hf : inside.Orderly kind) (hsingle : inside.NamesSingle) (hbare : inside.NamesBare) :
    (t.noted (⟨kind, inside⟩ :: base) before inside).map Prod.fst =
      (Site.names ⟨kind, inside, before⟩).filterMap (Site.token? t) := by
  unfold Site.names
  by_cases hfield : kind = .fieldDecl
  · subst hfield
    rw [if_pos rfl]
    exact noted_declarators (a := ⟨.fieldDecl, inside⟩) rfl hf hsingle hbare
  · have hrole : ∃ role, kind.nameRole? = some role ∧ kind.variableRole? = none ∧ kind ≠ .name := by
      cases kind <;> simp_all [NodeKind.isRecorded, DeclKind.ofNode?, NodeKind.nameRole?,
        NodeKind.variableRole?]
    obtain ⟨role, hrole, hdeclarators, hname⟩ := hrole
    rw [if_neg hfield]
    have hne : kind ≠ .variableDeclarator := by
      rintro rfl
      cases hrole
    have hpath : nameRole? (⟨kind, inside⟩ :: base) = some (kind, role) := by
      cases base <;> simp [nameRole?, hrole, hne]
    exact noted_direct hpath hdeclarators hname hf hsingle hbare

/-- The names that are noted in two sequences. -/
lemma noted_append (t : LineTable) (base : Ancestry) (before : Nat) (f g : Forest Lexeme) :
    t.noted base before (f ++ g) =
      t.noted base before f ++ t.noted base (before + f.leaves.length) g := by
  induction f generalizing before with
  | nil => rfl
  | leaf l rest ih =>
    simp only [Forest.leaf_append, noted, Forest.leaves, List.length_cons, ih, List.append_assoc]
    rw [Nat.add_assoc, Nat.add_comm 1]
  | node kind inside rest _ ih =>
    simp only [Forest.node_append, noted, Forest.leaves, List.length_append, ih, List.append_assoc,
      Nat.add_assoc]

end LineTable

/-! ## Pending declarations -/

namespace Pending

/-- What is known of a declaration besides its modifiers and annotations. -/
def outline (p : Pending) : Pending :=
  { p with modifiers := [], annotations := [] }

/-- Sets the first token of a declaration that has none yet. -/
def start (first : Option Nat) (p : Pending) : Pending :=
  { p with firstToken := p.firstToken.or first }

/-- What pending declarations learn from a part of the tree: all of them the first token in it, and
the innermost one the names as well. -/
def learn (first : Option Nat) (names : List (Nat × Role)) (ps : List Pending) : List Pending :=
  (ps.map (start first)).modifyHead (note names [])

/-- What is learned from two parts. -/
lemma learn_learn (first second : Option Nat) (names more : List (Nat × Role)) (ps : List Pending) :
    learn second more (learn first names ps) = learn (first.or second) (names ++ more) ps := by
  cases ps <;> simp [learn, start, note, Option.or_assoc]

/-- Where there is no code, no declaration starts. -/
lemma start_none : start none = id := by
  funext p
  simp [start]

/-- Nothing is learned from a part without code. -/
lemma learn_none (ps : List Pending) : learn none [] ps = ps := by
  simp [learn, start_none]

end Pending

/-! ## The walk -/

/-- The walk over a part of the tree records one declaration for each declared name of each recorded
node in it, and what is pending around the part learns its first token and the names that belong
there. -/
structure Builder.Records (t : LineTable) (path : Ancestry) (before : Nat) (f : Forest Lexeme)
    (b b' : Builder) : Prop where
  pending : b'.pending.map Pending.outline =
    Pending.learn ((f.firstCode? before).bind t.ofLexeme?) (t.noted path before f)
      (b.pending.map Pending.outline)
  declarations : b'.declarations.Perm (b.declarations ++
    (f.declaredNamesOf before).filterMap fun entry => t.declaration? entry.1 entry.2)

namespace Builder

variable {ls : List Lexeme} {b b₁ b₂ b' : Builder} {path : Ancestry} {t : LineTable} {before : Nat}

/-- Two parts of the walk, one after the other. -/
lemma Records.append {f g : Forest Lexeme} (hf : Records t path before f b b₁)
    (hg : Records t path (before + f.leaves.length) g b₁ b')
    (hfirst : ∀ m, f.firstCode? before = some m → ∃ number, t.ofLexeme? m = some number) :
    Records t path before (f ++ g) b b' := by
  have hbind : ((f ++ g).firstCode? before).bind t.ofLexeme? =
      ((f.firstCode? before).bind t.ofLexeme?).or
        ((g.firstCode? (before + f.leaves.length)).bind t.ofLexeme?) := by
    rw [Forest.firstCode?_append]
    cases hm : f.firstCode? before with
    | none => rfl
    | some m =>
      obtain ⟨number, hnumber⟩ := hfirst m hm
      simp [hnumber]
  refine ⟨?_, ?_⟩
  · rw [hg.pending, hf.pending, Pending.learn_learn, hbind, LineTable.noted_append]
  · have hdeclared : (f ++ g).declaredNamesOf before =
        f.declaredNamesOf before ++ g.declaredNamesOf (before + f.leaves.length) := by
      simp [Forest.declaredNamesOf, Forest.recordedSites, Forest.sites_append]
    rw [hdeclared, List.filterMap_append, ← List.append_assoc]
    exact hg.declarations.trans (hf.declarations.append_right _)

/-- A lexeme that is code has a token. -/
lemma exists_token_of_code (hcode : CodeHasText ls) {n : Nat} {l : Lexeme} (hl : ls[n]? = some l)
    (hiscode : l.isTrivia = false) :
    ∃ number, (LineTable.ofLexemes ls).ofLexeme? n = some number := by
  have htoken := Lexeme.hasToken_of_code hiscode (hcode l (List.mem_of_getElem? hl) hiscode)
  exact ⟨_, LineTable.ofLexeme?_eq_some_iff.2 ⟨⟨l, hl, htoken⟩, rfl⟩⟩

/-- The first leaf of code in a part of a file has a token. -/
lemma exists_token_of_firstCode? {f : Forest Lexeme} {before after : List Lexeme}
    (hls : ls = before ++ (f.leaves ++ after)) (hcode : CodeHasText ls) {m : Nat}
    (h : f.firstCode? before.length = some m) :
    ∃ number, (LineTable.ofLexemes ls).ofLexeme? m = some number := by
  obtain ⟨i, l, rfl, hl, hiscode⟩ := Forest.getElem?_of_firstCode? h
  have hget : ls[before.length + i]? = some l := by
    rw [hls, List.getElem?_append_right (Nat.le_add_right _ _), Nat.add_sub_cancel_left,
      List.getElem?_append_left (List.getElem?_eq_some_iff.1 hl).1, hl]
  exact exists_token_of_code hcode hget hiscode

/-- A leaf is met. -/
lemma IsAt.visit_records {before after : List Lexeme} {l : Lexeme}
    (hat : b.IsAt (before ++ l :: after) path before.length)
    (hcode : l.isTrivia = false → l.text ≠ "") (h : b.visit path l = .ok b') :
    Records b.table path before.length (.leaf l .nil) b b' := by
  have hdeclared : (Forest.leaf l .nil).declaredNamesOf before.length = [] := rfl
  rcases hat.visit_cases hcode with
    ⟨htrivia, ⟨-, hb'⟩ | ⟨-, hb'⟩⟩ | ⟨hiscode, token, htoken, -, -, hnumber, hb'⟩
  · obtain rfl := Except.ok.inj (hb'.symm.trans h)
    refine ⟨?_, by simp [hdeclared]⟩
    simp [Forest.firstCode?, Forest.leaves, LineTable.noted, htrivia, Pending.learn_none]
  · obtain rfl := Except.ok.inj (hb'.symm.trans h)
    refine ⟨?_, by simp [hdeclared, meet]⟩
    simp [Forest.firstCode?, Forest.leaves, LineTable.noted, htrivia, Pending.learn_none, meet]
  · have hentry : b.table.ofLexeme? before.length = some token.number := by
      have htoken' := Lexeme.hasToken_of_code hiscode (hcode hiscode)
      rw [hat.sound.table, LineTable.ofLexeme?_ofLexemes, if_pos htoken', hnumber]
    have hpending : notedNames path token.number ≠ [] →
        ((b.meet token.number).settle token.number).pending ≠ [] := by
      intro hnames
      simpa [settle, meet] using hat.fits.pending_ne_nil hnames
    rw [hb', classify_eq hpending] at h
    obtain rfl := Except.ok.inj h
    refine ⟨?_, by simp [hdeclared, meet, settle]⟩
    have hfirst : (Forest.leaf l .nil).firstCode? before.length = some before.length := by
      rw [Forest.firstCode?_leaf, hiscode, if_neg Bool.false_ne_true]
    have hnoted : b.table.noted path before.length (.leaf l .nil) =
        notedNames path token.number := by
      simp [LineTable.noted, hiscode, hentry]
    rw [hfirst, hnoted, Option.bind_some, hentry]
    simp only [settle, meet]
    cases b.pending <;> simp [Pending.learn, Pending.start, Pending.note, Pending.outline]

/-- Entering a node opens its declaration, if it has one. -/
lemma outline_enter (b : Builder) (path : Ancestry) (kind : NodeKind) (inside : Forest Lexeme) :
    (b.enter path kind inside).pending.map Pending.outline =
      (if kind.declaresNames then [({} : Pending)] else []) ++ b.pending.map Pending.outline := by
  have hannotate (names : List String) (p : Pending) :
      (p.annotate names).outline = id p.outline := rfl
  rw [enter_eq, List.map_append, map_modifyHead (hannotate _), List.modifyHead_id]
  cases kind.declaresNames <;> rfl

/-- Closing a scope changes nothing in what is declared. -/
lemma declared_closeScope (h : b.closeScope = .ok b') :
    b'.pending = b.pending ∧ b'.declarations = b.declarations := by
  unfold closeScope at h
  dsimp only at h
  split at h
  · cases h
  · split at h
    · obtain rfl := Except.ok.inj h
      exact ⟨rfl, rfl⟩
    · cases h

/-- Leaving a node that declares no names changes nothing in what is declared. -/
lemma declared_leave_of_plain {kind : NodeKind} {inside : Forest Lexeme}
    (hdeclares : kind.declaresNames = false) (h : b.leave path kind inside = .ok b') :
    b'.pending = b.pending ∧ b'.declarations = b.declarations := by
  simp only [leave, hdeclares, Bool.false_eq_true, if_false, Except.bind] at h
  split at h
  · exact declared_closeScope h
  · obtain rfl := Except.ok.inj h
    exact ⟨rfl, rfl⟩

/-- Leaving a node that declares names records its declarations. -/
lemma declared_leave {kind : NodeKind} {inside : Forest Lexeme} {p : Pending} {ps : List Pending}
    {first : Nat} (hdeclares : kind.declaresNames = true) (hpending : b.pending = p :: ps)
    (hfirst : p.firstToken = some first) (h : b.leave path kind inside = .ok b') :
    b'.pending = ps ∧ b'.declarations = b.declarations ++ b.recorded kind inside p first := by
  have hclose : b.closePending path kind inside = _ := closePending_eq hpending hfirst
  simp only [leave, hdeclares, if_true, hclose, Except.bind] at h
  split at h
  · exact declared_closeScope h
  · obtain rfl := Except.ok.inj h
    exact ⟨rfl, rfl⟩

/-- What is recorded for a node are the declarations of its names. -/
lemma recorded_eq {s : Site} {p : Pending} {first : Nat} (hkind : s.kind.isRecorded = true)
    (hfirst : s.token? b.table = some first)
    (hnames : p.names.map Prod.fst = s.names.filterMap (Site.token? b.table))
    (htext : ∀ name ∈ s.names, ∀ number, name.token? b.table = some number →
      (b.table.tokens[number]?.map Token.text).getD "" = name.inside.text) :
    b.recorded s.kind s.inside p first = s.names.filterMap (b.table.declaration? s) := by
  obtain ⟨declKind, hdeclKind⟩ := Option.isSome_iff_exists.1 hkind
  have hmap : b.recorded s.kind s.inside p first = (p.names.map Prod.fst).map fun number =>
      .ofNode declKind s.inside ((b.table.tokens[number]?.map Token.text).getD "") number first := by
    simp [recorded, hdeclKind]
  rw [hmap, hnames, List.map_filterMap]
  refine List.filterMap_congr fun name hname => ?_
  simp only [LineTable.declaration?, hdeclKind, hfirst, Option.bind_eq_bind, Option.bind_some]
  cases hnumber : name.token? b.table with
  | none => rfl
  | some number =>
    rw [Option.map_some, htext name hname number hnumber]
    rfl

/-- The token of a name has the text of the name. -/
lemma text_of_name {inside : Forest Lexeme} {before after : List Lexeme} {kind : NodeKind}
    (hls : ls = before ++ (inside.leaves ++ after)) (hsingle : inside.NamesSingle) {name : Site}
    (hname : name ∈ Site.names ⟨kind, inside, before.length⟩) {number : Nat}
    (hnumber : name.token? (LineTable.ofLexemes ls) = some number) :
    ((LineTable.ofLexemes ls).tokens[number]?.map Token.text).getD "" = name.inside.text := by
  obtain ⟨hmem, hkind⟩ := Site.mem_sites_of_mem_names hname
  obtain ⟨l, hl⟩ := (Forest.namesSingle_of_mem_sites hsingle hmem).1 hkind
  obtain ⟨m, hm, hentry⟩ := Option.bind_eq_some_iff.1 hnumber
  obtain ⟨i, l', rfl, hl', -⟩ := Forest.getElem?_of_firstCode? hm
  obtain ⟨j, hj, hleaves⟩ := Forest.getElem?_of_mem_sites hmem
  have hget := hleaves i l' hl'
  have hls' : ls[name.before + i]? = some l' := by
    rw [hls, hj, Nat.add_assoc, List.getElem?_append_right (Nat.le_add_right _ _),
      Nat.add_sub_cancel_left, List.getElem?_append_left (List.getElem?_eq_some_iff.1 hget).1, hget]
  obtain ⟨token, htoken, -, htext, -⟩ := LineTable.token_of_ofLexeme? hls' hentry
  have hsame : l' = l := by
    rw [hl] at hl'
    exact (List.mem_singleton.1 (List.mem_of_getElem? hl'))
  rw [htoken, Option.map_some, Option.getD_some, htext, hsame, hl]
  simp [Forest.text, Forest.leaves]

/-- What is recorded for a node whose names were noted are the declarations of its names. -/
lemma recorded_of_noted {kind : NodeKind} {inside : Forest Lexeme} {before after : List Lexeme}
    (hls : ls = before ++ (inside.leaves ++ after)) (htable : b.table = LineTable.ofLexemes ls)
    (horderly : inside.Orderly kind) (hsingle : inside.NamesSingle) (hbare : inside.NamesBare)
    (hkind : kind.isRecorded = true) {p : Pending} {first : Nat}
    (hfirst : Site.token? b.table ⟨kind, inside, before.length⟩ = some first)
    (hnames : p.names = b.table.noted (⟨kind, inside⟩ :: path) before.length inside) :
    b.recorded kind inside p first =
      (Site.names ⟨kind, inside, before.length⟩).filterMap
        (b.table.declaration? ⟨kind, inside, before.length⟩) := by
  let s : Site := ⟨kind, inside, before.length⟩
  have hnames' : p.names.map Prod.fst = s.names.filterMap (Site.token? b.table) := by
    rw [hnames, LineTable.noted_inside hkind horderly hsingle hbare]
  refine recorded_eq (s := s) hkind hfirst hnames' fun name hname number hnumber => ?_
  rw [htable] at hnumber ⊢
  exact text_of_name hls hsingle hname hnumber

/-- A node is entered, walked through, and left. -/
lemma leave_records {kind : NodeKind} {inside : Forest Lexeme} {before after : List Lexeme}
    (hls : ls = before ++ (inside.leaves ++ after)) (htable : b₁.table = LineTable.ofLexemes ls)
    (hcode : CodeHasText ls) (hfull : inside.bare.leaves ≠ []) (horderly : inside.Orderly kind)
    (hsingle : inside.NamesSingle) (hbare : inside.NamesBare)
    (hinside : Records b₁.table (⟨kind, inside⟩ :: path) before.length inside
      (b.enter path kind inside) b₁)
    (h : b₁.leave path kind inside = .ok b₂) :
    Records b₁.table path before.length (.node kind inside .nil) b b₂ := by
  have hentered : (b.enter path kind inside).declarations = b.declarations := by rw [enter_eq]
  have hpending := hinside.pending
  have hdeclarations := hinside.declarations
  rw [outline_enter] at hpending
  rw [hentered] at hdeclarations
  have hsites := Forest.declaredNamesOf_node kind inside before.length
  cases hdeclares : kind.declaresNames with
  | false =>
    obtain ⟨hpending', hdeclarations'⟩ := declared_leave_of_plain hdeclares h
    have hplain : kind.isRecorded = false := by
      cases kind <;> simp_all [NodeKind.isRecorded, DeclKind.ofNode?, NodeKind.declaresNames,
        NodeKind.isTypeDecl]
    refine ⟨?_, ?_⟩
    · rw [hpending', hpending, hdeclares, Forest.firstCode?_node, LineTable.noted, hdeclares]
      simp [LineTable.noted]
    · rw [hdeclarations', hsites, hplain]
      exact hdeclarations
  | true =>
    -- The innermost declaration is that of the node, which knows its first token and its names now.
    obtain ⟨m, hm⟩ := Forest.exists_firstCode? before.length hfull
    obtain ⟨first, hentry⟩ := exists_token_of_firstCode? hls hcode hm
    rw [← htable] at hentry
    rw [hdeclares, hm, Option.bind_some, hentry] at hpending
    obtain ⟨p, ps, hps, hp, hrest⟩ : ∃ p ps, b₁.pending = p :: ps ∧
        p.outline = ⟨some first, [], [],
          b₁.table.noted (⟨kind, inside⟩ :: path) before.length inside⟩ ∧
        ps.map Pending.outline =
          (b.pending.map Pending.outline).map (Pending.start (some first)) := by
      simpa [Pending.learn, Pending.start, Pending.note, List.map_eq_cons_iff] using hpending
    have hfirst : p.firstToken = some first := congrArg Pending.firstToken hp
    have hnames : p.names = b₁.table.noted (⟨kind, inside⟩ :: path) before.length inside :=
      congrArg Pending.names hp
    obtain ⟨hpending', hdeclarations'⟩ := declared_leave hdeclares hps hfirst h
    refine ⟨?_, ?_⟩
    · rw [hpending', hrest, Forest.firstCode?_node, hm, Option.bind_some, hentry, LineTable.noted,
        hdeclares, if_pos rfl]
      simp [Pending.learn, LineTable.noted]
    · rw [hdeclarations', hsites]
      cases hkind : kind.isRecorded with
      | false =>
        have hnoKind : DeclKind.ofNode? kind = none := by simpa [NodeKind.isRecorded] using hkind
        have hnone : b₁.recorded kind inside p first = [] := by rw [recorded, hnoKind]
        rw [hnone, List.append_nil]
        exact hdeclarations
      | true =>
        have htoken : Site.token? b₁.table ⟨kind, inside, before.length⟩ = some first := by
          rw [Site.token?, Site.first?, hm, Option.bind_some, hentry]
        rw [recorded_of_noted hls htable horderly hsingle hbare hkind htoken hnames, if_pos rfl,
          List.filterMap_append, List.filterMap_map]
        refine (hdeclarations.append_right _).trans ?_
        rw [List.append_assoc]
        exact List.perm_append_comm.append_left _

/-- The walk over a part of a file records one declaration for each declared name of each recorded
node in the part. -/
theorem walkForest_records {f : Forest Lexeme} {parent : NodeKind} (before after : List Lexeme)
    (hfull : f.bare.NodesFull) (horderly : f.Orderly parent) (hsingle : f.NamesSingle)
    (hbare : f.NamesBare) (hcode : CodeHasText ls) (hls : ls = before ++ (f.leaves ++ after))
    (hat : b.IsAt ls path before.length) (h : walkForest path f b = .ok b') :
    Records (LineTable.ofLexemes ls) path before.length f b b' := by
  induction f generalizing path parent before after b b' with
  | nil =>
    obtain rfl := Except.ok.inj h
    exact ⟨(Pending.learn_none _).symm, by simp [Forest.declaredNamesOf, Forest.recordedSites,
      Forest.sites]⟩
  | leaf l rest ih =>
    have hls' : ls = before ++ l :: (rest.leaves ++ after) := hls
    have hl : l.isTrivia = false → l.text ≠ "" := hcode l (by simp [hls'])
    have hfull' : rest.bare.NodesFull := by
      cases htrivia : l.isTrivia <;> simpa [Forest.bare, htrivia, Forest.NodesFull] using hfull
    have hat' := hat
    rw [hls'] at hat'
    obtain ⟨b₁, hb₁, hat₁, -⟩ := hat'.visit hl
    have hfirst := hat'.visit_records hl hb₁
    rw [hat'.sound.table] at hfirst
    rw [← hls'] at hat₁ hfirst
    simp only [walkForest, hb₁, Except.bind] at h
    have hrest := ih (before ++ [l]) after hfull' horderly hsingle hbare (by simp [hls'])
      (by simpa using hat₁) h
    rw [List.length_append] at hrest
    have hlsFirst : ls = before ++ ((Forest.leaf l .nil).leaves ++ (rest.leaves ++ after)) := hls
    exact hfirst.append hrest fun m hm => exists_token_of_firstCode? hlsFirst hcode hm
  | node kind inside rest ihInside ihRest =>
    obtain ⟨hne, hfullInside, hfullRest⟩ := hfull
    obtain ⟨-, -, horderlyInside, horderlyRest⟩ := horderly
    obtain ⟨-, hsingleInside, hsingleRest⟩ := hsingle
    obtain ⟨-, hbareInside, hbareRest⟩ := hbare
    have hlsInside : ls = before ++ (inside.leaves ++ (rest.leaves ++ after)) := by
      simp [hls, Forest.leaves]
    have hcodeInside : CodeHasText inside.leaves :=
      fun l hl => hcode l (by simp [hlsInside, hl])
    -- The walk is at its place before and after the node is left.
    obtain ⟨b₁, hb₁, hat₁, hsettled₁, -⟩ :=
      walkForest_succeeds before (rest.leaves ++ after) hfullInside hcodeInside hlsInside
        (hat.enter kind inside)
    obtain ⟨b₂, hb₂, hat₂, -⟩ := hat₁.leave (hsettled₁ (Or.inr hne))
    simp only [walkForest, hb₁, Except.bind, hb₂] at h
    have hinside := ihInside before (rest.leaves ++ after) hfullInside horderlyInside hsingleInside
      hbareInside hlsInside (hat.enter kind inside) hb₁
    rw [← hat₁.sound.table] at hinside
    have hfirst := leave_records hlsInside hat₁.sound.table hcode hne horderlyInside hsingleInside
      hbareInside hinside hb₂
    rw [hat₁.sound.table] at hfirst
    have hrest := ihRest (before ++ inside.leaves) after hfullRest horderlyRest hsingleRest hbareRest
      (by simp [hls, Forest.leaves]) hat₂ h
    rw [List.length_append] at hrest
    refine Records.append (f := .node kind inside .nil) hfirst ?_ fun m hm => ?_
    · rw [Forest.leaves, Forest.leaves, List.append_nil]
      exact hrest
    · rw [Forest.firstCode?_node] at hm
      exact exists_token_of_firstCode? hlsInside hcode hm

end Builder

end JavaLint
