import JavaLint.Proofs.Grammar.NameWords
import JavaLint.Proofs.LineEnds.Model
import JavaLint.SourceFile
import Mathlib.Tactic.Common

/-!
# What findings quote stands on one line

Findings quote declared names and operators of low precedence, and the names of parameters.  All of
these are words or operators, in which no line ends, while a text block or a comment may span lines.
The walk over a tree keeps it so that what it notes as a name stands on one line:
`walkForest_quotesLines`.
-/

namespace JavaLint

open Text (OneLine)

/-! ## Names that are read off a tree -/

namespace Forest

variable {f : Forest Lexeme}

/-- The names in the nodes at the top have what all names have. -/
lemma NamesHave.children {p : Lexeme → Prop} (hf : f.NamesHave p) {k : NodeKind} :
    ∀ g ∈ f.children k, g.NamesHave p ∧ (k = .name → ∀ l ∈ g.leaves, p l) := by
  induction f with
  | nil => simp [Forest.children]
  | leaf a rest ih => exact ih hf
  | node k' inside rest _ ih =>
    simp only [Forest.children]
    split
    · rename_i hk
      subst hk
      exact List.forall_mem_cons.2 ⟨⟨hf.2.1, hf.1⟩, ih hf.2.2⟩
    · exact ih hf.2.2

/-- No line ends in the texts of names. -/
abbrev NamesInLine (f : Forest Lexeme) : Prop :=
  f.NamesHave fun l => OneLine l.text

/-- No line ends in the names that are declared. -/
lemma NamesInLine.declaredNames (hf : f.NamesInLine) {item : NodeKind} :
    ∀ name ∈ f.declaredNames item, OneLine name := by
  intro name hname
  obtain ⟨g, hg, hname⟩ := List.mem_filterMap.1 hname
  obtain ⟨inside, hinside, rfl⟩ := Option.map_eq_some_iff.1 hname
  have hleaves := ((hf.children g hg).1.children inside (List.mem_of_head? hinside)).2 rfl
  exact .join (List.forall_mem_map.2 hleaves)

/-- No line ends in the names that are declared in a list. -/
lemma NamesInLine.namesIn (hf : f.NamesInLine) {list item : NodeKind} :
    ∀ name ∈ f.namesIn list item, OneLine name := by
  unfold Forest.namesIn
  cases hlist : f.child? list with
  | none => simp
  | some inside =>
    exact NamesInLine.declaredNames (hf.children inside (List.mem_of_head? hlist)).1

end Forest

/-- No line ends in the names of a declaration. -/
structure Declaration.NamesInLine (d : Declaration) : Prop where
  name : OneLine d.name
  params : ∀ s ∈ d.params, OneLine s
  typeParams : ∀ s ∈ d.typeParams, OneLine s
  recordComponents : ∀ s ∈ d.recordComponents, OneLine s

/-- No line ends in the names of a declaration that is read off a node. -/
lemma Declaration.NamesInLine.ofNode {inside : Forest Lexeme} (hinside : inside.NamesInLine)
    {name : String} (hname : OneLine name) (kind : DeclKind) (nameToken firstToken : Nat) :
    (Declaration.ofNode kind inside name nameToken firstToken).NamesInLine where
  name := hname
  params := by
    unfold Declaration.ofNode
    dsimp only
    split
    · simp
    · exact hinside.namesIn
  typeParams := hinside.namesIn
  recordComponents := by
    unfold Declaration.ofNode
    dsimp only
    split
    · exact hinside.namesIn
    · simp

/-! ## The walk -/

/-- Findings quote the tokens of the role. -/
def Role.isQuoted (r : Role) : Bool :=
  r.isDeclaredName || r = .lowOperator

namespace Builder

variable {b b' : Builder} {path : Ancestry} {kind : NodeKind} {inside : Forest Lexeme}

/-- No line ends in the tokens that are noted as names or have a role that is quoted, nor in the
names of the declarations that are recorded. -/
structure QuotesLines (b : Builder) : Prop where
  numbers : ∀ (n : Nat) (t : Token), b.table.tokens[n]? = some t → t.number = n
  names : ∀ p ∈ b.pending, ∀ name ∈ p.names, ∀ t : Token, b.table.tokens[name.1]? = some t →
    OneLine t.text
  classes : ∀ (n : Nat) (c : Classification) (t : Token), b.classes[n]? = some c → c.role.isQuoted = true →
    b.table.tokens[n]? = some t → OneLine t.text
  declarations : ∀ d ∈ b.declarations, d.NamesInLine

/-- Entering a node. -/
lemma QuotesLines.enter (h : b.QuotesLines) (path : Ancestry) (kind : NodeKind)
    (inside : Forest Lexeme) : (b.enter path kind inside).QuotesLines := by
  rw [enter_eq]
  refine { h with names := ?_ }
  intro p hp
  rcases List.mem_append.1 hp with hp | hp
  · split at hp
    · obtain rfl : p = ({} : Pending) := by simpa using hp
      simp
    · simp at hp
  · exact forall_mem_modifyHead (f := .annotate _) (fun _ hq => hq) h.names p hp

/-- Settling what waits for a code token. -/
lemma QuotesLines.settle (h : b.QuotesLines) (number : Nat) : (b.settle number).QuotesLines := by
  refine { h with names := ?_ }
  intro p hp
  obtain ⟨p', hp', rfl⟩ := List.mem_map.1 hp
  exact h.names p' hp'

/-- Noting a name in which no line ends. -/
lemma QuotesLines.noteName (h : b.QuotesLines) {owner : NodeKind} {number : Nat} {role : Role}
    (hname : ∀ t : Token, b.table.tokens[number]? = some t → OneLine t.text)
    (hok : b.noteName owner number role = .ok b') : b'.QuotesLines := by
  unfold Builder.noteName at hok
  split at hok
  · cases hok
  · rename_i p ps hpending
    obtain rfl := Except.ok.inj hok
    have hnames := h.names
    rw [hpending, List.forall_mem_cons] at hnames
    refine { h with names := List.forall_mem_cons.2 ⟨?_, hnames.2⟩ }
    intro name hname'
    rcases List.mem_append.1 hname' with hold | hnew
    · exact hnames.1 name hold
    · obtain rfl : name = (number, role) := by simpa using hnew
      exact hname

/-- Changing what is pending, but for names. -/
lemma QuotesLines.updatePending (h : b.QuotesLines) {f : Pending → Pending}
    (hf : ∀ p, (f p).names = p.names) : (b.updatePending f).QuotesLines := by
  rw [updatePending_eq]
  refine { h with names := forall_mem_modifyHead ?_ h.names }
  intro p hp
  rwa [hf]

/-- Classifying a token in which no line ends if it stands in the node of a name. -/
lemma QuotesLines.classify (h : b.QuotesLines) {token : Token}
    (htoken : Ancestry.kind path = .name → ∀ t : Token, b.table.tokens[token.number]? = some t →
      OneLine t.text)
    (hok : b.classify path token = .ok b') : b'.QuotesLines := by
  unfold Builder.classify at hok
  split at hok
  · obtain rfl := Except.ok.inj hok
    exact h
  · split at hok
    · rename_i hparent
      split at hok
      · exact h.noteName (htoken hparent) hok
      · obtain rfl := Except.ok.inj hok
        exact h
    · split at hok
      · split at hok
        · obtain rfl := Except.ok.inj hok
          exact h.updatePending fun _ => rfl
        · obtain rfl := Except.ok.inj hok
          exact h
      · obtain rfl := Except.ok.inj hok
        exact h
    · split at hok
      · obtain rfl := Except.ok.inj hok
        refine { h with classes := ?_ }
        intro n c t hc hquoted
        rw [Array.getElem?_modify] at hc
        split at hc
        · obtain ⟨c', -, rfl⟩ := Option.map_eq_some_iff.1 hc
          cases hquoted
        · exact h.classes n c t hc hquoted
      · obtain rfl := Except.ok.inj hok
        exact h

/-- Meeting a leaf in which no line ends if it stands in the node of a name. -/
lemma QuotesLines.visit (h : b.QuotesLines) {leaf : Lexeme}
    (hleaf : Ancestry.kind path = .name → OneLine leaf.text)
    (hok : b.visit path leaf = .ok b') : b'.QuotesLines := by
  unfold Builder.visit at hok
  split at hok
  · split at hok
    · cases hok
    · obtain rfl := Except.ok.inj hok
      exact { h with }
  · rename_i number _
    split at hok
    · cases hok
    · rename_i token htoken
      split at hok
      · rename_i htext
        have hmet : (b.meet number).QuotesLines := { h with }
        split at hok
        · refine (hmet.settle number).classify (fun hkind t ht => ?_) hok
          have hsame : t = token := by
            have ht' : b.table.tokens[token.number]? = some t := ht
            rw [h.numbers number token htoken, htoken] at ht'
            exact (Option.some.inj ht').symm
          rw [hsame, htext]
          exact hleaf hkind
        · obtain rfl := Except.ok.inj hok
          exact hmet
      · cases hok

/-- Writing what was collected to names in which no line ends. -/
lemma QuotesLines.writeNames (h : b.QuotesLines) (modifiers : List Keyword) {p : Pending}
    (hp : ∀ name ∈ p.names, ∀ t : Token, b.table.tokens[name.1]? = some t → OneLine t.text) :
    (b.writeNames modifiers p).QuotesLines := by
  refine { h with classes := ?_ }
  have hclasses := h.classes
  unfold Builder.writeNames
  dsimp only
  generalize b.classes = classes at hclasses
  generalize hnames : p.names = names at hp
  clear hnames
  induction names generalizing classes with
  | nil => exact hclasses
  | cons name names ih =>
    obtain ⟨hname, hrest⟩ := List.forall_mem_cons.1 hp
    refine ih _ ?_ hrest
    intro n c t hc hquoted ht
    rw [Array.getElem?_setIfInBounds] at hc
    split at hc
    · rename_i hn
      rw [← hn] at ht
      exact hname t ht
    · exact hclasses n c t hc hquoted ht

/-- Recording declarations with names in which no line ends. -/
lemma QuotesLines.record (h : b.QuotesLines) {p : Pending}
    (hp : ∀ name ∈ p.names, ∀ t : Token, b.table.tokens[name.1]? = some t → OneLine t.text)
    (hinside : inside.NamesInLine) (hok : b.record kind inside p = .ok b') : b'.QuotesLines := by
  unfold Builder.record at hok
  split at hok
  · obtain rfl := Except.ok.inj hok
    exact h
  · split at hok
    · cases hok
    · obtain rfl := Except.ok.inj hok
      refine { h with declarations := ?_ }
      intro d hd
      rcases List.mem_append.1 hd with hd | hd
      · exact h.declarations d hd
      · obtain ⟨name, hname, rfl⟩ := List.mem_map.1 hd
        apply Declaration.NamesInLine.ofNode hinside
        cases ht : b.table.tokens[name.1]? with
        | none => simp [OneLine]
        | some t => exact hp name hname t ht

/-- Finishing a declaration. -/
lemma QuotesLines.closePending (h : b.QuotesLines) (hinside : inside.NamesInLine)
    (hok : b.closePending path kind inside = .ok b') : b'.QuotesLines := by
  unfold Builder.closePending at hok
  split at hok
  · obtain rfl := Except.ok.inj hok
    exact h
  · rename_i p ps hpending
    have hnames := h.names
    rw [hpending, List.forall_mem_cons] at hnames
    have hrest : QuotesLines { b with pending := ps } := { h with names := hnames.2 }
    exact (hrest.writeNames _ hnames.1).record hnames.1 hinside hok

/-- Leaving a node. -/
lemma QuotesLines.leave (h : b.QuotesLines) (hinside : inside.NamesInLine)
    (hok : b.leave path kind inside = .ok b') : b'.QuotesLines := by
  unfold Builder.leave at hok
  obtain ⟨b₁, hdeclared, hclosed⟩ := exists_of_bind_eq_ok hok
  have h₁ : b₁.QuotesLines := by
    split at hdeclared
    · exact h.closePending hinside hdeclared
    · obtain rfl := Except.ok.inj hdeclared
      exact h
  split at hclosed
  · obtain ⟨id, ids, s, first, last, hstack, hid, hs, hfirst, hlast⟩ := exists_of_closeScope hclosed
    rw [closeScope_eq hstack hid hs hfirst hlast] at hclosed
    obtain rfl := Except.ok.inj hclosed
    exact { h₁ with }
  · obtain rfl := Except.ok.inj hclosed
    exact h₁

/-- The walk over a forest in whose names no line ends notes only names in which no line ends. -/
theorem walkForest_quotesLines {f : Forest Lexeme} (h : b.QuotesLines) (hf : f.NamesInLine)
    (hpath : Ancestry.kind path = .name → ∀ l ∈ f.leaves, OneLine l.text)
    (hok : walkForest path f b = .ok b') : b'.QuotesLines := by
  induction f generalizing path b b' with
  | nil =>
    obtain rfl := Except.ok.inj hok
    exact h
  | leaf l rest ih =>
    obtain ⟨b₁, hvisit, hrest⟩ := exists_of_bind_eq_ok hok
    have hleaves := fun hkind => List.forall_mem_cons.1 (hpath hkind)
    exact ih (h.visit (fun hkind => (hleaves hkind).1) hvisit) hf (fun hkind => (hleaves hkind).2)
      hrest
  | node kind inside rest ihInside ihRest =>
    obtain ⟨b₁, hinside, hafter⟩ := exists_of_bind_eq_ok hok
    obtain ⟨b₂, hleave, hrest⟩ := exists_of_bind_eq_ok hafter
    have hname : Ancestry.kind (⟨kind, inside⟩ :: path) = .name →
        ∀ l ∈ inside.leaves, OneLine l.text := hf.1
    have h₁ := ihInside (h.enter path kind inside) hf.2.1 hname hinside
    refine ihRest (h₁.leave hf.2.1 hleave) hf.2.2 (fun hkind l hl => ?_) hrest
    exact hpath hkind l (by simp [Forest.leaves, hl])

end Builder

/-! ## Whole files -/

/-- No line ends in the tokens that have a role that is quoted, nor in the names of declarations. -/
structure SourceFile.QuotesLines (file : SourceFile) : Prop where
  numbers : ∀ (n : Nat) (t : Token), file.table.tokens[n]? = some t → t.number = n
  tokens : ∀ (n : Nat) (c : Classification) (t : Token), file.model.classes[n]? = some c → c.role.isQuoted = true →
    file.table.tokens[n]? = some t → OneLine t.text
  declarations : ∀ d ∈ file.model.declarations, d.NamesInLine

/-- Before the walk only operators have a role that is quoted. -/
lemma Builder.QuotesLines.ofTable {source : String} {ls : List Lexeme}
    (hscan : Lexeme.scan source = .ok ls) :
    (ofTable (LineTable.ofLexemes ls)).QuotesLines where
  numbers := fun _ _ ht => LineTable.number_ofLexemes ht
  names := by simp [Builder.ofTable]
  classes := by
    intro n c t hc hquoted ht
    have htable : (LineTable.ofLexemes ls).tokens[n]? = some t := ht
    simp only [Builder.ofTable, Array.getElem?_map, htable, Option.map_some,
      Option.some.injEq] at hc
    have hkind : t.kind.isTrivia = false ∧ t.kind.isWord = false ∧ t.kind.isLiteral = false := by
      subst hc
      split at hquoted
      · cases hkind : t.kind <;>
          simp_all [Role.isQuoted, Role.ofKind, Role.isDeclaredName, Role.isTypeName,
            Kind.isTrivia, Kind.channel, Kind.isWord, Kind.isLiteral]
      · cases hquoted
    have hmem : (t.kind, t.text) ∈ (LineTable.ofLexemes ls).tokens.toList.map
        fun t => (t.kind, t.text) :=
      List.mem_map.2 ⟨t, Array.mem_toList_iff.2 (Array.mem_of_getElem? htable), rfl⟩
    rw [LineTable.map_tokens_ofLexemes] at hmem
    obtain ⟨l, hl, hpair⟩ := List.mem_map.1 hmem
    obtain ⟨hlkind, hltext⟩ := Prod.mk.inj hpair
    rw [← hltext]
    exact Lexeme.oneLine_of_scan hscan (List.mem_filter.1 hl).1 (.inr (by rwa [hlkind]))
  declarations := by simp [Builder.ofTable]

/-- What findings quote of a source text stands on one line. -/
theorem SourceFile.quotesLines_of_parse {source : String} {file : SourceFile}
    (h : SourceFile.parse source = .ok file) : file.QuotesLines := by
  obtain ⟨ls, trees, b, hscan, hparse, htable, hwalk, hsound, hfinish⟩ := SourceFile.parse_parts h
  obtain ⟨-, -, hclasses, hdeclarations⟩ := Builder.finish_eq_ok hfinish
  have hnames : trees.NamesInLine := by
    refine (parse_namesHave hparse).imp fun l hl hname => ?_
    rw [parse_leaves hparse] at hl
    exact Lexeme.oneLine_of_scan hscan hl (.inl hname)
  have hfresh : (Builder.ofTable (LineTable.ofLexemes ls)).walked = false := rfl
  have hstart : Builder.QuotesLines
      { Builder.ofTable (LineTable.ofLexemes ls) with walked := true } :=
    { Builder.QuotesLines.ofTable hscan with }
  simp only [Builder.walk, hfresh, Bool.false_eq_true, if_false] at hwalk
  obtain ⟨b₁, hforest, hclosed⟩ := exists_of_bind_eq_ok hwalk
  obtain rfl := Builder.closed_eq_ok hclosed
  have hroot : Ancestry.kind [⟨.sourceFile, trees⟩] = .name → ∀ l ∈ trees.leaves, OneLine l.text :=
    fun hkind => by cases hkind
  have hquotes := Builder.walkForest_quotesLines hstart hnames hroot hforest
  refine ⟨?_, ?_, ?_⟩
  · rw [htable, ← hsound.table]
    exact hquotes.numbers
  · rw [htable, ← hsound.table, hclasses]
    exact hquotes.classes
  · intro d hd
    rw [hdeclarations, List.mem_mergeSort] at hd
    exact hquotes.declarations d hd

end JavaLint
