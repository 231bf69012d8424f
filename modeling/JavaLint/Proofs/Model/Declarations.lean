import JavaLint.Judge.Rules
import JavaLint.Proofs.Answer
import JavaLint.Proofs.Model.Recorded
import JavaLint.Proofs.Model.Roles
import JavaLint.Proofs.Tree.Shape
import Mathlib.Data.List.Pairwise
import Mathlib.Tactic.Common

/-!
# The declarations of a file

The model of a file has one declaration for each name that a type, method, constructor, field or enum
constant declares, and no others.  They come in the order of their nodes, which is the order of their
first tokens, and then in the order of their names: no two of these nodes start with the same token,
so sorting moves every declaration to its place.

A declaration is looked up by its first token, so a doc comment that stands directly before one of
these nodes finds the declaration of its first name.
-/

namespace JavaLint

/-! ## The order of declarations -/

/-- The one declaration comes before the other: it starts earlier, or they start together and its name
comes earlier. -/
def Declaration.Precedes (d e : Declaration) : Prop :=
  d.firstToken < e.firstToken ∨ d.firstToken = e.firstToken ∧ d.nameToken < e.nameToken

/-- Of two members of a list in order, the one comes before the other, unless they are the same. -/
lemma eq_or_rel_of_pairwise {α : Type} {R : α → α → Prop} {l : List α} (h : l.Pairwise R) {a b : α}
    (ha : a ∈ l) (hb : b ∈ l) : a = b ∨ R a b ∨ R b a := by
  have hsymm : Std.Symm fun a b => R a b ∨ R b a := ⟨fun _ _ => Or.symm⟩
  by_cases hab : a = b
  · exact .inl hab
  · exact .inr ((h.imp Or.inl : l.Pairwise fun a b => R a b ∨ R b a).forall ha hb hab)

/-- Sorting a list whose declarations precede each other, in whatever order it is given, puts every
declaration in its place. -/
lemma mergeSort_declaredBefore {ds es : List Declaration} (hperm : ds.Perm es)
    (hsorted : es.Pairwise Declaration.Precedes) : ds.mergeSort Builder.declaredBefore = es := by
  have htrans (a b c : Declaration) (hab : Builder.declaredBefore a b = true)
      (hbc : Builder.declaredBefore b c = true) : Builder.declaredBefore a c = true := by
    simp only [Builder.declaredBefore, Bool.or_eq_true, Bool.and_eq_true, decide_eq_true_eq] at *
    omega
  have htotal (a b : Declaration) :
      (Builder.declaredBefore a b || Builder.declaredBefore b a) = true := by
    simp only [Builder.declaredBefore, Bool.or_eq_true, Bool.and_eq_true, decide_eq_true_eq]
    omega
  have hds := List.pairwise_mergeSort htrans htotal ds
  have hes : es.Pairwise fun a b => Builder.declaredBefore a b = true := by
    refine hsorted.imp fun hab => ?_
    simp only [Declaration.Precedes] at hab
    simp only [Builder.declaredBefore, Bool.or_eq_true, Bool.and_eq_true, decide_eq_true_eq]
    omega
  have hperm' := (List.mergeSort_perm ds Builder.declaredBefore).trans hperm
  refine hperm'.eq_of_pairwise (fun a b ha hb hab hba => ?_) hds hes
  -- Two declarations of which each comes before the other have the same first token and name.
  simp only [Builder.declaredBefore, Bool.or_eq_true, Bool.and_eq_true, decide_eq_true_eq] at hab hba
  rcases eq_or_rel_of_pairwise hsorted (hperm'.mem_iff.1 ha) hb with heq | hlt | hlt
  · exact heq
  · simp only [Declaration.Precedes] at hlt
    omega
  · simp only [Declaration.Precedes] at hlt
    omega

/-! ## The declarations of the tree -/

namespace LineTable

variable {t : LineTable} {s name : Site} {d : Declaration}

/-- A declaration starts with the first token of its node, and its name is the one from which it is
made. -/
lemma declaration?_eq_some (h : t.declaration? s name = some d) :
    s.token? t = some d.firstToken ∧ name.token? t = some d.nameToken := by
  obtain ⟨kind, -, h⟩ := Option.bind_eq_some_iff.1 h
  obtain ⟨first, hfirst, h⟩ := Option.bind_eq_some_iff.1 h
  obtain ⟨nameToken, hname, h⟩ := Option.bind_eq_some_iff.1 h
  obtain rfl := Option.some.inj h
  exact ⟨hfirst, hname⟩

/-- A recorded node makes a declaration of each name, if both have a token. -/
lemma exists_declaration? (hkind : s.kind.isRecorded = true) (hs : ∃ n, s.token? t = some n)
    (hname : ∃ n, name.token? t = some n) : ∃ d, t.declaration? s name = some d := by
  obtain ⟨kind, hkind⟩ := Option.isSome_iff_exists.1 hkind
  obtain ⟨first, hfirst⟩ := hs
  obtain ⟨nameToken, hnameToken⟩ := hname
  exact ⟨.ofNode kind s.inside name.inside.text nameToken first,
    by simp [declaration?, hkind, hfirst, hnameToken]⟩

end LineTable

section Tree

variable {ls : List Lexeme} {trees : Forest Lexeme} {s m : Site}

/-- The first leaf of code of a node is a lexeme of the file that is code. -/
lemma getElem?_of_first? (hparse : parse ls = .ok trees) (hs : s ∈ trees.sites 0) {n : Nat}
    (hn : s.first? = some n) : ∃ l, ls[n]? = some l ∧ l.isTrivia = false := by
  obtain ⟨i, l, rfl, hl, hcode⟩ := Forest.getElem?_of_firstCode? hn
  obtain ⟨j, hj, hleaves⟩ := Forest.getElem?_of_mem_sites hs
  have hget := hleaves i l hl
  rw [parse_leaves hparse] at hget
  exact ⟨l, by rw [hj, Nat.zero_add, hget], hcode⟩

/-- Every node of the tree of a file has a first token. -/
lemma exists_token_of_mem_sites (hparse : parse ls = .ok trees) (hcode : CodeHasText ls)
    (hs : s ∈ trees.sites 0) : ∃ number, s.token? (LineTable.ofLexemes ls) = some number := by
  obtain ⟨n, hn⟩ := Forest.exists_first? (parse_bare_nodesFull hparse) hs
  obtain ⟨l, hl, hiscode⟩ := getElem?_of_first? hparse hs hn
  obtain ⟨number, hnumber⟩ := Builder.exists_token_of_code hcode hl hiscode
  exact ⟨number, by rw [Site.token?, hn, Option.bind_some, hnumber]⟩

/-- Every declared name of a recorded node makes a declaration. -/
lemma exists_declaration?_of_mem (hparse : parse ls = .ok trees) (hcode : CodeHasText ls)
    (hs : s ∈ trees.recordedSites 0) (hm : m ∈ s.names) :
    ∃ d, (LineTable.ofLexemes ls).declaration? s m = some d := by
  obtain ⟨hs, hkind⟩ := List.mem_filter.1 hs
  have hname := Forest.mem_sites_of_mem_inside hs (Site.mem_sites_of_mem_names hm).1
  exact LineTable.exists_declaration? hkind (exists_token_of_mem_sites hparse hcode hs)
    (exists_token_of_mem_sites hparse hcode hname)

/-- The first tokens of nodes come in the order of the nodes. -/
lemma Site.StartsBefore.token_lt {t : Site} (h : s.StartsBefore t) {a b : Nat}
    (ha : s.token? (LineTable.ofLexemes ls) = some a)
    (hb : t.token? (LineTable.ofLexemes ls) = some b) : a < b := by
  obtain ⟨m, hm, ha⟩ := Option.bind_eq_some_iff.1 ha
  obtain ⟨n, hn, hb⟩ := Option.bind_eq_some_iff.1 hb
  exact (LineTable.ofLexeme?_lt_iff ha hb).2 (h m n hm hn)

/-- The declarations of a tree are in order. -/
lemma declared_pairwise (hparse : parse ls = .ok trees) :
    ((trees.declaredNamesOf 0).filterMap fun entry =>
      (LineTable.ofLexemes ls).declaration? entry.1 entry.2).Pairwise Declaration.Precedes := by
  have hentries : (trees.declaredNamesOf 0).Pairwise fun x y =>
      x.1.StartsBefore y.1 ∨ x.1 = y.1 ∧ x.2.StartsBefore y.2 := by
    refine List.pairwise_flatMap.2 ⟨fun s _ => ?_, ?_⟩
    · refine List.pairwise_map.2 ((s.names_pairwise).imp fun hlt => ?_)
      exact .inr ⟨rfl, hlt⟩
    · refine (Forest.sites_pairwise (parse_bare_nodesFull hparse) (parse_declaring hparse)).imp ?_
      intro s s' hlt x hx y hy
      obtain ⟨-, -, rfl⟩ := List.mem_map.1 hx
      obtain ⟨-, -, rfl⟩ := List.mem_map.1 hy
      exact .inl hlt
  refine List.pairwise_filterMap.2 (hentries.imp fun {x y} hlt d hd e he => ?_)
  obtain ⟨hdfirst, hdname⟩ := LineTable.declaration?_eq_some hd
  obtain ⟨hefirst, hename⟩ := LineTable.declaration?_eq_some he
  rcases hlt with hlt | ⟨heq, hlt⟩
  · exact .inl (hlt.token_lt hdfirst hefirst)
  · rw [heq, hefirst] at hdfirst
    exact .inr ⟨(Option.some.inj hdfirst).symm, hlt.token_lt hdname hename⟩

end Tree

/-! ## The declarations of the model -/

/-- There is nothing but blanks and comments between the lexeme with the number `n` and the node. -/
def Site.ComesNext (lexemes : List Lexeme) (n : Nat) (s : Site) : Prop :=
  ∃ first, s.first? = some first ∧ n < first ∧
    ∀ i l, n < i → i < first → lexemes[i]? = some l → l.isTrivia = true

namespace SourceFile

variable {file : SourceFile} {ls : List Lexeme} {trees : Forest Lexeme}

/-- What the model knows of declarations, in terms of the tree. -/
structure HasDeclarations (file : SourceFile) (ls : List Lexeme) (trees : Forest Lexeme) : Prop where
  table : file.table = LineTable.ofLexemes ls
  code : CodeHasText ls
  parse : JavaLint.parse ls = .ok trees
  declarations : file.model.declarations = (trees.declaredNamesOf 0).filterMap fun entry =>
    file.table.declaration? entry.1 entry.2

/-- The declarations of a file that has been read are those of its tree. -/
lemma hasDeclarations_of_parse {source : String} (h : SourceFile.parse source = .ok file) :
    ∃ ls trees, Lexeme.scan source = .ok ls ∧ file.HasDeclarations ls trees := by
  obtain ⟨ls, trees, b, hscan, hparse, htable, hwalk, hsound, hfinish⟩ := parse_parts h
  have hcode := codeHasText_of_scan hscan
  have hleaves := parse_leaves hparse
  have hls : ls = [] ++ (trees.leaves ++ []) := by simp [hleaves]
  have hat := Builder.IsAt.ofTable ls trees
  obtain ⟨b₁, hb₁, -⟩ := Builder.walkForest_succeeds [] [] (parse_bare_nodesFull hparse)
    (by rwa [hleaves]) hls hat
  have hrecords := Builder.walkForest_records [] [] (parse_bare_nodesFull hparse)
    (parse_orderly hparse) (parse_namesSingle hparse) (parse_namesBare hparse) hcode hls hat hb₁
  have hfresh : (Builder.ofTable (LineTable.ofLexemes ls)).walked = false := rfl
  simp only [Builder.walk, hfresh, hb₁, Except.bind] at hwalk
  obtain rfl : b = b₁ := Builder.closed_eq_ok hwalk
  obtain ⟨-, -, -, hdeclarations⟩ := Builder.finish_eq_ok hfinish
  refine ⟨ls, trees, hscan, htable, hcode, hparse, ?_⟩
  rw [hdeclarations, htable]
  exact mergeSort_declaredBefore hrecords.declarations (declared_pairwise hparse)

namespace HasDeclarations

/-- A declaration of the file is that of a name of a recorded node. -/
lemma mem_iff (h : file.HasDeclarations ls trees) {d : Declaration} :
    d ∈ file.model.declarations ↔
      ∃ s ∈ trees.recordedSites 0, ∃ m ∈ s.names, file.table.declaration? s m = some d := by
  simp [h.declarations, Forest.declaredNamesOf, and_assoc]

/-- Every name of a recorded node has its declaration. -/
lemma map_some (h : file.HasDeclarations ls trees) :
    (trees.declaredNamesOf 0).map (fun entry => file.table.declaration? entry.1 entry.2) =
      file.model.declarations.map some := by
  rw [h.declarations, List.map_filterMap_some_eq_filter_map_isSome]
  refine (List.filter_eq_self.2 fun declaration? hmem => ?_).symm
  obtain ⟨⟨s, m⟩, hentry, rfl⟩ := List.mem_map.1 hmem
  obtain ⟨s, hs, hentry⟩ := List.mem_flatMap.1 hentry
  obtain ⟨m, hm, hpair⟩ := List.mem_map.1 hentry
  obtain ⟨rfl, rfl⟩ := Prod.mk.inj hpair
  obtain ⟨d, hd⟩ := exists_declaration?_of_mem h.parse h.code hs hm
  simp [h.table, hd]

/-- The declarations come in the order of their first tokens and names. -/
lemma pairwise (h : file.HasDeclarations ls trees) :
    file.model.declarations.Pairwise Declaration.Precedes := by
  rw [h.declarations, h.table]
  exact declared_pairwise h.parse

/-- Nodes that are recorded have different first tokens. -/
lemma eq_of_token? (h : file.HasDeclarations ls trees) {s s' : Site} {number : Nat}
    (hs : s ∈ trees.recordedSites 0) (hs' : s' ∈ trees.recordedSites 0)
    (hnumber : s.token? file.table = some number) (hnumber' : s'.token? file.table = some number) :
    s = s' := by
  rw [h.table] at hnumber hnumber'
  have hsites : (trees.recordedSites 0).Pairwise Site.StartsBefore :=
    Forest.sites_pairwise (parse_bare_nodesFull h.parse) (parse_declaring h.parse)
  rcases eq_or_rel_of_pairwise hsites hs hs' with heq | hlt | hlt
  · exact heq
  · exact absurd (hlt.token_lt hnumber hnumber') (Nat.lt_irrefl number)
  · exact absurd (hlt.token_lt hnumber' hnumber) (Nat.lt_irrefl number)

/-- Two declarations start with the same token only if they are declarators of one field. -/
lemma eq_or_field (h : file.HasDeclarations ls trees) {d e : Declaration}
    (hd : d ∈ file.model.declarations) (he : e ∈ file.model.declarations)
    (hfirst : d.firstToken = e.firstToken) :
    d = e ∨ ∃ s ∈ trees.recordedSites 0, s.kind = .fieldDecl ∧ ∃ m ∈ s.names, ∃ n ∈ s.names,
      file.table.declaration? s m = some d ∧ file.table.declaration? s n = some e := by
  obtain ⟨s, hs, m, hm, hd⟩ := h.mem_iff.1 hd
  obtain ⟨s', hs', n, hn, he⟩ := h.mem_iff.1 he
  have htoken := (LineTable.declaration?_eq_some hd).1
  have htoken' := (LineTable.declaration?_eq_some he).1
  rw [← hfirst] at htoken'
  obtain rfl := h.eq_of_token? hs hs' htoken htoken'
  by_cases hfield : s.kind = .fieldDecl
  · exact .inr ⟨s, hs, hfield, m, hm, n, hn, hd, he⟩
  · obtain ⟨hs, hkind⟩ := List.mem_filter.1 hs
    have hlength := (Site.length_names (parse_declaring h.parse) hs hkind).2 hfield
    obtain ⟨name, hnames⟩ := List.length_eq_one_iff.1 hlength
    rw [hnames, List.mem_singleton] at hm hn
    rw [hm] at hd
    rw [hn, hd] at he
    exact .inl (Option.some.inj he)

/-- A declaration is found by each first token of a recorded node. -/
lemma isSome_declarationAt? (h : file.HasDeclarations ls trees) (number : Nat) :
    (file.model.declarationAt? number).isSome ↔
      ∃ s ∈ trees.recordedSites 0, s.token? file.table = some number := by
  rw [Model.declarationAt?, List.find?_isSome]
  constructor
  · rintro ⟨d, hd, hfirst⟩
    obtain ⟨s, hs, m, -, hd⟩ := h.mem_iff.1 hd
    exact ⟨s, hs, by rw [(LineTable.declaration?_eq_some hd).1, of_decide_eq_true hfirst]⟩
  · rintro ⟨s, hs, hnumber⟩
    obtain ⟨hmem, hkind⟩ := List.mem_filter.1 hs
    obtain ⟨m, hm⟩ := List.exists_mem_of_ne_nil _
      (Site.length_names (parse_declaring h.parse) hmem hkind).1
    obtain ⟨d, hd⟩ := exists_declaration?_of_mem h.parse h.code hs hm
    rw [← h.table] at hd
    have hfirst := (LineTable.declaration?_eq_some hd).1
    rw [hnumber] at hfirst
    exact ⟨d, h.mem_iff.2 ⟨s, hs, m, hm, hd⟩, decide_eq_true (Option.some.inj hfirst).symm⟩

/-- What is found by a first token is the declaration of the first name. -/
lemma declarationAt?_eq_some (h : file.HasDeclarations ls trees) {number : Nat} {d : Declaration}
    (hd : file.model.declarationAt? number = some d) :
    d ∈ file.model.declarations ∧ d.firstToken = number ∧
      ∀ e ∈ file.model.declarations, e.firstToken = number → d.nameToken ≤ e.nameToken := by
  obtain ⟨hfirst, before, after, hsplit, hbefore⟩ := List.find?_eq_some_iff_append.1 hd
  have hfirst := of_decide_eq_true hfirst
  have hsorted := h.pairwise
  rw [hsplit] at hsorted ⊢
  refine ⟨by simp, hfirst, fun e he hefirst => ?_⟩
  rcases List.mem_append.1 he with he | he
  · have hnot := hbefore e he
    simp [hefirst] at hnot
  · rcases List.mem_cons.1 he with rfl | he
    · exact Nat.le_refl _
    · have hlt := (List.pairwise_cons.1 (List.pairwise_append.1 hsorted).2.1).1 e he
      simp only [Declaration.Precedes] at hlt
      omega

/-- A comment that stands directly before a recorded node is judged by the declaration that is found
by the first token of the node. -/
lemma judgeDocComment_eq (h : file.HasDeclarations ls trees) {n number : Nat} {comment : Token}
    {s : Site} (hnumber : file.table.ofLexeme? n = some number)
    (hcomment : file.table.tokens[number]? = some comment) (hs : s ∈ trees.recordedSites 0)
    (hnext : s.ComesNext ls n) :
    ∃ first d, s.token? file.table = some first ∧ file.model.declarationAt? first = some d ∧
      file.judgeDocComment comment =
        .of (.parse comment.text) (some d) file.model.typeNames file.model.memberNames := by
  obtain ⟨m, hm, hlt, hbetween⟩ := hnext
  have hmem := (List.mem_filter.1 hs).1
  obtain ⟨l, hl, hcode⟩ := getElem?_of_first? h.parse hmem hm
  obtain ⟨first, hfirst⟩ := Builder.exists_token_of_code h.code hl hcode
  have htoken : s.token? file.table = some first := by
    rw [Site.token?, hm, Option.bind_some, h.table, hfirst]
  obtain ⟨d, hd⟩ := Option.isSome_iff_exists.1 ((h.isSome_declarationAt? first).2 ⟨s, hs, htoken⟩)
  rw [h.table] at hnumber hcomment
  obtain ⟨next, hnext, hnextNumber⟩ := Option.map_eq_some_iff.1
    (LineTable.nextCode?_ofLexemes hnumber hfirst hlt hl hcode hbetween)
  refine ⟨first, d, htoken, hd, ?_⟩
  rw [judgeDocComment, LineTable.number_ofLexemes hcomment, h.table, hnext, Option.bind_some,
    hnextNumber, hd]

end HasDeclarations

/-- The model of a file that has been read has exactly one declaration for each declared name of each
type, method, constructor, field and enum constant, strictly in the order of first tokens and then of
names.  Only declarators of one field start with the same token.  A declaration is found by a token
just if one of these nodes starts with it, and it is the one whose name comes first; so a doc comment
that stands directly before such a node is judged by the declaration of the node. -/
theorem declarations_are_complete {source : String} (h : SourceFile.parse source = .ok file) :
    ∃ lexemes trees, Lexeme.scan source = .ok lexemes ∧ JavaLint.parse lexemes = .ok trees ∧
      (trees.declaredNamesOf 0).map (fun entry => file.table.declaration? entry.1 entry.2) =
        file.model.declarations.map some ∧
      file.model.declarations.Pairwise Declaration.Precedes ∧
      (∀ d ∈ file.model.declarations, ∀ e ∈ file.model.declarations, d.firstToken = e.firstToken →
        d = e ∨ ∃ s ∈ trees.recordedSites 0, s.kind = .fieldDecl ∧ ∃ m ∈ s.names, ∃ n ∈ s.names,
          file.table.declaration? s m = some d ∧ file.table.declaration? s n = some e) ∧
      (∀ number, (file.model.declarationAt? number).isSome ↔
        ∃ s ∈ trees.recordedSites 0, s.token? file.table = some number) ∧
      (∀ number d, file.model.declarationAt? number = some d →
        d ∈ file.model.declarations ∧ d.firstToken = number ∧
          ∀ e ∈ file.model.declarations, e.firstToken = number → d.nameToken ≤ e.nameToken) ∧
      ∀ (n number : Nat) (comment : Token), file.table.ofLexeme? n = some number →
        file.table.tokens[number]? = some comment → comment.kind = .docComment →
        ∀ s ∈ trees.recordedSites 0, s.ComesNext lexemes n →
          ∃ first d, s.token? file.table = some first ∧
            file.model.declarationAt? first = some d ∧
            ∀ settings, file.ruling settings comment = .ok (.docComment
              (.of (.parse comment.text) (some d) file.model.typeNames file.model.memberNames)) := by
  obtain ⟨ls, trees, hscan, hfile⟩ := hasDeclarations_of_parse h
  refine ⟨ls, trees, hscan, hfile.parse, hfile.map_some, hfile.pairwise, fun d hd e he hfirst => ?_,
    hfile.isSome_declarationAt?, fun number d hd => hfile.declarationAt?_eq_some hd, ?_⟩
  · exact hfile.eq_or_field hd he hfirst
  · intro n number comment hnumber hcomment hkind s hs hnext
    obtain ⟨first, d, hfirst, hd, hjudged⟩ := hfile.judgeDocComment_eq hnumber hcomment hs hnext
    refine ⟨first, d, hfirst, hd, fun settings => ?_⟩
    have hchannel : comment.channel = .docComment := by
      rw [Token.channel, hkind]
      rfl
    rw [ruling, hchannel, hjudged]

/-- A documented class with two fields that are declared together: the comment is judged by the
declaration of the class. -/
theorem declarations_of_documented_class :
    ∃ file lexemes trees comment d,
      SourceFile.parse "/** A. */class A\x7bint x,y;\x7d" = .ok file ∧
      Lexeme.scan "/** A. */class A\x7bint x,y;\x7d" = .ok lexemes ∧
      JavaLint.parse lexemes = .ok trees ∧
      (trees.declaredNamesOf 0).map (fun entry => file.table.declaration? entry.1 entry.2) =
        file.model.declarations.map some ∧
      file.model.declarations.map (fun d => (d.firstToken, d.nameToken)) =
        [(1, 3), (5, 7), (5, 9)] ∧
      file.table.tokens[0]? = some comment ∧ file.model.declarationAt? 1 = some d ∧
      ∀ settings, file.ruling settings comment = .ok (.docComment
        (.of (.parse comment.text) (some d) file.model.typeNames file.model.memberNames)) := by
  have hread : ((SourceFile.parse "/** A. */class A\x7bint x,y;\x7d").toOption.bind fun file =>
      (Lexeme.scan "/** A. */class A\x7bint x,y;\x7d").toOption.bind fun lexemes =>
        (JavaLint.parse lexemes).toOption.map fun trees =>
          ((trees.declaredNamesOf 0).map fun entry =>
              (file.table.declaration? entry.1 entry.2).map fun d => (d.firstToken, d.nameToken),
            decide (file.table.ofLexeme? 0 = some 0 ∧
              file.table.tokens[0]?.map Token.kind = some .docComment ∧
              (trees.recordedSites 0).head?.map Site.first? = some (some 1) ∧
              (trees.recordedSites 0).head?.map (Site.token? file.table) = some (some 1)))) =
      some ([some (1, 3), some (5, 7), some (5, 9)], true) := by
    decide +kernel
  obtain ⟨file, hfile, hread⟩ := Option.bind_eq_some_iff.1 hread
  obtain ⟨lexemes, hscan, hread⟩ := Option.bind_eq_some_iff.1 hread
  obtain ⟨trees, hparse, hread⟩ := Option.map_eq_some_iff.1 hread
  rw [toOption_eq_some_iff] at hfile hscan hparse
  simp only [Prod.mk.injEq, decide_eq_true_eq] at hread
  obtain ⟨hread, hnumber, hkind, hfirst, htoken⟩ := hread
  obtain ⟨comment, hcomment, hkind⟩ := Option.map_eq_some_iff.1 hkind
  obtain ⟨s, hs, hfirst⟩ := Option.map_eq_some_iff.1 hfirst
  rw [hs, Option.map_some, Option.some.injEq] at htoken
  obtain ⟨lexemes', trees', hscan', hparse', hdeclared, -, -, -, -, hjudged⟩ :=
    declarations_are_complete hfile
  obtain rfl := Except.ok.inj (hscan.symm.trans hscan')
  obtain rfl := Except.ok.inj (hparse.symm.trans hparse')
  -- There is nothing at all between the comment and the class.
  have hnext : s.ComesNext lexemes 0 :=
    ⟨1, hfirst, Nat.zero_lt_one, fun i _ hi hi' => absurd hi' (Nat.not_lt.2 hi)⟩
  obtain ⟨first, d, hfirst', hd, hruling⟩ :=
    hjudged 0 0 comment hnumber hcomment hkind s (List.mem_of_head? hs) hnext
  obtain rfl := Option.some.inj (htoken.symm.trans hfirst')
  refine ⟨file, lexemes, trees, comment, d, hfile, hscan, hparse, hdeclared, ?_, hcomment, hd, hruling⟩
  have htokens := congrArg (List.map (Option.map fun d : Declaration => (d.firstToken, d.nameToken)))
    hdeclared
  rw [List.map_map, List.map_map] at htokens
  have hsome := htokens.symm.trans hread
  simpa [Function.comp_def, List.map_eq_cons_iff] using hsome

end SourceFile

end JavaLint
