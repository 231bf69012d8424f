import JavaLint.Proofs.Layout.Sketch
import JavaLint.SourceFile
import Mathlib.Tactic.Common

/-!
# Layout never changes meaning

Two source texts may differ in blanks, line breaks and comments and still consist of the same words.
Then the grammar accepts both or none of them, and what is known of the two files is the same, up to
the numbers of tokens.

The walk over the tree of a file and the walk over its bare tree are run side by side: after each
part of the tree, the sketch of the builder is what the bare walk has found (`sketch_walkForest`).
The bare walk depends on the words alone.  What it finds is the `Skeleton` of the file, and the main
result is `layout_never_changes_meaning`.
-/

namespace JavaLint

/-! ## The two walks -/

/-- The words before the end of a part of a file. -/
lemma length_codeLexemes_append (before : List Lexeme) (f : Forest Lexeme) :
    (codeLexemes (before ++ f.leaves)).length =
      (codeLexemes before).length + f.bare.leaves.length := by
  simp [codeLexemes, Forest.bare_leaves, bareLexemes]

namespace Builder

variable {ls : List Lexeme} {b b' : Builder} {path : Ancestry}

/-- Meeting a leaf.  If it is no code, then nothing happens without layout. -/
lemma sketch_visit {before after : List Lexeme} {l : Lexeme}
    (hat : b.IsAt (before ++ l :: after) path before.length)
    (hcode : CodeHasText (before ++ l :: after)) (h : b.visit path l = .ok b') :
    b'.sketch = if l.isTrivia then b.sketch
      else b.sketch.visit path.bare (codeLexemes before).length l.kind := by
  have hbefore : CodeHasText before := fun m hm => hcode m (by simp [hm])
  have hl : l.isTrivia = false → l.text ≠ "" := hcode l (by simp)
  rcases hat.visit_cases hl with
    ⟨htrivia, ⟨-, hb'⟩ | ⟨-, hb'⟩⟩ | ⟨hcode', t, ht, hiscode, hkind, hnumber, hb'⟩
  · obtain rfl := Except.ok.inj (hb'.symm.trans h)
    rw [if_pos htrivia]
    rfl
  · obtain rfl := Except.ok.inj (hb'.symm.trans h)
    rw [if_pos htrivia, sketch_meet]
  · have hordinal : b.table.ordinal t.number = (codeLexemes before).length := by
      rw [hat.sound.table, hnumber]
      exact LineTable.ordinal_ofLexemes hbefore
    rw [hcode', ← hordinal, ← hkind]
    rw [← hnumber] at ht
    exact sketch_code ht hiscode hat.fits.pending_ne_nil (hb'.symm.trans h)

/-- The walk over a part of a file and the walk over its bare form find the same, up to the numbers
of tokens. -/
theorem sketch_walkForest {f : Forest Lexeme} (before after : List Lexeme)
    (hfull : f.bare.NodesFull) (hnames : f.NamesBare) (hcode : CodeHasText ls)
    (hls : ls = before ++ (f.leaves ++ after)) (hat : b.IsAt ls path before.length)
    (h : walkForest path f b = .ok b') :
    b'.sketch = Sketch.walk ((codeLexemes ls).map Lexeme.text) path.bare f.bare
      (codeLexemes before).length b.sketch := by
  induction f generalizing path before after b b' with
  | nil =>
    obtain rfl := Except.ok.inj h
    rfl
  | leaf l rest ih =>
    have hls' : ls = before ++ l :: (rest.leaves ++ after) := hls
    have hl : l.isTrivia = false → l.text ≠ "" := hcode l (by simp [hls'])
    have hfull' : rest.bare.NodesFull := by
      cases htrivia : l.isTrivia <;> simpa [Forest.bare, htrivia, Forest.NodesFull] using hfull
    have hat' := hat
    rw [hls'] at hat'
    obtain ⟨b₁, hb₁, hat₁, -⟩ := hat'.visit hl
    have hsketch₁ := sketch_visit hat' (by rwa [← hls']) hb₁
    rw [← hls'] at hat₁
    simp only [walkForest, hb₁, Except.bind] at h
    have hrest := ih (before ++ [l]) after hfull' hnames (by simp [hls']) (by simpa using hat₁) h
    rw [hrest, hsketch₁]
    cases htrivia : l.isTrivia <;> simp [Forest.bare, htrivia, Sketch.walk, codeLexemes]
  | node kind inside rest ihInside ihRest =>
    obtain ⟨hne, hfullInside, hfullRest⟩ := hfull
    obtain ⟨-, hnamesInside, hnamesRest⟩ := hnames
    have hlsInside : ls = before ++ (inside.leaves ++ (rest.leaves ++ after)) := by
      simp [hls, Forest.leaves]
    have hcodeInside : CodeHasText inside.leaves :=
      fun l hl => hcode l (by simp [hlsInside, hl])
    -- The walk is at its place before and after the node is left.
    obtain ⟨b₁, hb₁, hat₁, hsettled₁, -⟩ :=
      walkForest_succeeds before (rest.leaves ++ after) hfullInside hcodeInside hlsInside
        (hat.enter kind inside)
    have hsettled := hsettled₁ (Or.inr hne)
    obtain ⟨b₂, hb₂, hat₂, -⟩ := hat₁.leave hsettled
    simp only [walkForest, hb₁, Except.bind, hb₂] at h
    have hinside := ihInside before (rest.leaves ++ after) hfullInside hnamesInside hlsInside
      (hat.enter kind inside) hb₁
    have hleave := sketch_leave hat₁ hsettled hcode hnamesInside hb₂
    have hrest := ihRest (before ++ inside.leaves) after hfullRest hnamesRest
      (by simp [hls, Forest.leaves]) hat₂ h
    rw [hrest, hleave, hinside, sketch_enter, length_codeLexemes_append]
    rfl

/-- Before the walk, the builder knows only the words. -/
lemma sketch_ofTable (hcode : CodeHasText ls) :
    ({ ofTable (LineTable.ofLexemes ls) with walked := true } : Builder).sketch =
      Sketch.start ((codeLexemes ls).map Lexeme.kind) := by
  have hkinds := congrArg (List.map fun p : Kind × String =>
    ({ role := Role.ofKind p.1 } : Classification)) (LineTable.map_codeTokens_ofLexemes hcode)
  simp only [List.map_map, Function.comp_def] at hkinds
  simp only [sketch, ofTable, Sketch.start, Array.toList_map, LineTable.codeEntries_map,
    List.map_map, Function.comp_def, ← hkinds, Sketch.mk.injEq, List.map_nil, Option.map_none,
    and_true, true_and]
  refine ⟨rfl, List.map_congr_left ?_⟩
  intro t ht
  simp [(List.mem_filter.1 ht).2]

/-- The walk over the tree of a file finds what the bare walk finds. -/
lemma sketch_walk {trees : Forest Lexeme} (hparse : parse ls = .ok trees)
    (hcode : CodeHasText ls) (h : (ofTable (LineTable.ofLexemes ls)).walk trees = .ok b) :
    b.sketch = Sketch.walk ((codeLexemes ls).map Lexeme.text) [⟨.sourceFile, trees.bare⟩]
      trees.bare 0 (Sketch.start ((codeLexemes ls).map Lexeme.kind)) := by
  have hleaves := parse_leaves hparse
  have hls : ls = [] ++ (trees.leaves ++ []) := by simp [hleaves]
  have hat := IsAt.ofTable ls trees
  obtain ⟨b₁, hb₁, -⟩ := walkForest_succeeds [] [] (parse_bare_nodesFull hparse)
    (by rwa [hleaves]) hls hat
  have hsketch := sketch_walkForest [] [] (parse_bare_nodesFull hparse) (parse_namesBare hparse)
    hcode hls hat hb₁
  have hfresh : (ofTable (LineTable.ofLexemes ls)).walked = false := rfl
  simp only [walk, hfresh, hb₁, Except.bind] at h
  obtain rfl : b = b₁ := closed_eq_ok h
  rw [hsketch, sketch_ofTable hcode]
  rfl

end Builder

/-! ## Skeletons -/

/-- What is known of a file apart from its layout.  Code tokens are known by their ordinals. -/
structure Skeleton where
  /-- What each code token is. -/
  classes : List Classification
  /-- The scopes; whether their braces stand on one line is not known. -/
  scopes : List Scope
  declarations : List Declaration
deriving DecidableEq, Repr

/-- What is known of a file, less what depends on layout. -/
def SourceFile.skeleton (file : SourceFile) : Skeleton where
  classes := LineTable.codeEntries file.table.tokens.toList file.model.classes.toList
  scopes := file.model.scopes.toList.map (.renumber file.table.ordinal)
  declarations := file.model.declarations.map (.renumber file.table.ordinal)

/-- The scopes and declarations of a file refer to code tokens only, so no reference is lost in the
skeleton. -/
structure SourceFile.RefersToCode (file : SourceFile) : Prop where
  scopes : ∀ s ∈ file.model.scopes, ∀ n, s.opening = some n ∨ s.closing = some n →
    file.table.HasCode n
  declarations : ∀ d ∈ file.model.declarations,
    file.table.HasCode d.firstToken ∧ file.table.HasCode d.nameToken

/-- The skeleton that words have if they are put together in a shape. -/
def Skeleton.ofShape (shape : Shape) (ws : List Lexeme) : Skeleton :=
  let trees := weaveFile shape ws
  let sketch := Sketch.walk (ws.map Lexeme.text) [⟨.sourceFile, trees⟩] trees 0
    (.start (ws.map Lexeme.kind))
  ⟨sketch.classes, sketch.scopes, sketch.declarations.mergeSort Builder.declaredBefore⟩

/-- Ordinals keep the order of declarations. -/
lemma declaredBefore_renumber {t : LineTable} {d e : Declaration}
    (hd : t.HasCode d.firstToken ∧ t.HasCode d.nameToken)
    (he : t.HasCode e.firstToken ∧ t.HasCode e.nameToken) :
    Builder.declaredBefore d e =
      Builder.declaredBefore (d.renumber t.ordinal) (e.renumber t.ordinal) := by
  have hlt := hd.1.ordinal_lt_iff he.1
  have heq := hd.1.ordinal_inj he.1
  have hnames := he.2.ordinal_lt_iff hd.2
  rw [← Nat.not_le, ← Nat.not_le, not_iff_not] at hnames
  simp [Builder.declaredBefore, Declaration.renumber, hlt, heq, hnames]

section Finish

variable {ls : List Lexeme} {b : Builder} {model : Model}

/-- The model of a sound builder refers to code only. -/
lemma refersToCode_of_finish (hsound : b.Sound ls) (hfinish : b.finish = .ok model) :
    SourceFile.RefersToCode ⟨LineTable.ofLexemes ls, model⟩ := by
  obtain ⟨hscopes, -, -, hdeclarations⟩ := Builder.finish_eq_ok hfinish
  rw [← hsound.table]
  refine ⟨?_, ?_⟩
  · intro s hs n hn
    rw [hscopes] at hs
    obtain ⟨id, hid⟩ := Array.getElem?_of_mem hs
    exact hsound.scopes id s n hid hn
  · intro d hd
    rw [hdeclarations, List.mem_mergeSort] at hd
    exact hsound.declarations d hd

/-- The model of a sound builder knows what each of the words is. -/
lemma length_classes_of_finish (hsound : b.Sound ls) (hcode : CodeHasText ls)
    (hfinish : b.finish = .ok model) :
    (SourceFile.skeleton ⟨LineTable.ofLexemes ls, model⟩).classes.length =
      (codeLexemes ls).length := by
  obtain ⟨-, -, hclasses, -⟩ := Builder.finish_eq_ok hfinish
  have hsize : model.classes.toList.length = (LineTable.ofLexemes ls).tokens.toList.length := by
    rw [hclasses, Array.length_toList, hsound.size_classes, hsound.table]
    rfl
  have hwords := congrArg List.length (LineTable.map_codeTokens_ofLexemes hcode)
  rw [List.length_map, List.length_map] at hwords
  exact (LineTable.length_codeEntries hsize).trans hwords

/-- The skeleton of the model of a sound builder is what the sketch of the builder has, with the
declarations in their order. -/
lemma skeleton_of_finish (hsound : b.Sound ls) (hfinish : b.finish = .ok model) :
    SourceFile.skeleton ⟨LineTable.ofLexemes ls, model⟩ =
      ⟨b.sketch.classes, b.sketch.scopes,
        b.sketch.declarations.mergeSort Builder.declaredBefore⟩ := by
  obtain ⟨hscopes, -, hclasses, hdeclarations⟩ := Builder.finish_eq_ok hfinish
  have hsorted : (b.declarations.mergeSort Builder.declaredBefore).map
      (Declaration.renumber b.table.ordinal) =
      (b.declarations.map (Declaration.renumber b.table.ordinal)).mergeSort
        Builder.declaredBefore :=
    List.map_mergeSort fun d hd e he =>
      declaredBefore_renumber (hsound.declarations d hd) (hsound.declarations e he)
  simp only [SourceFile.skeleton, hscopes, hclasses, hdeclarations, ← hsound.table, hsorted]
  rfl

end Finish

/-- The model of a file has the skeleton of its words. -/
lemma build_skeleton {ls : List Lexeme} {shape : Shape}
    (hparse : parse ls = .ok (weaveFile shape ls)) (hcode : CodeHasText ls) :
    ∃ model, Model.build (LineTable.ofLexemes ls) (weaveFile shape ls) = .ok model ∧
      SourceFile.RefersToCode ⟨LineTable.ofLexemes ls, model⟩ ∧
      (SourceFile.skeleton ⟨LineTable.ofLexemes ls, model⟩).classes.length =
        (codeLexemes ls).length ∧
      SourceFile.skeleton ⟨LineTable.ofLexemes ls, model⟩ = .ofShape shape (bareLexemes ls) := by
  obtain ⟨b, model, hbuild, hwalk, hsound, hfinish⟩ := Model.build_succeeds hparse hcode
  refine ⟨model, hbuild, refersToCode_of_finish hsound hfinish,
    length_classes_of_finish hsound hcode hfinish, ?_⟩
  have htexts : (bareLexemes ls).map Lexeme.text = (codeLexemes ls).map Lexeme.text := by
    simp [bareLexemes, Function.comp_def]
  have hsketch := Builder.sketch_walk hparse hcode hwalk
  rw [weaveFile_bare, ← htexts, ← map_kind_bareLexemes] at hsketch
  rw [skeleton_of_finish hsound hfinish, hsketch]
  rfl

/-- A source text is read if the grammar finds a shape for its words, and its skeleton is that of
the words in this shape. -/
lemma SourceFile.parse_of_shape {source : String} {ls : List Lexeme} {shape : Shape}
    (hscan : Lexeme.scan source = .ok ls)
    (hshape : readShape ((bareLexemes ls).map Lexeme.kind) = .ok shape) :
    ∃ file, SourceFile.parse source = .ok file ∧ file.RefersToCode ∧
      file.skeleton.classes.length = (codeLexemes ls).length ∧
      file.skeleton = .ofShape shape (bareLexemes ls) := by
  rw [map_kind_bareLexemes] at hshape
  have hparse : JavaLint.parse ls = .ok (weaveFile shape ls) := parse_eq_ok.2 ⟨shape, hshape, rfl⟩
  obtain ⟨model, hbuild, hknown⟩ := build_skeleton hparse (codeHasText_of_scan hscan)
  refine ⟨⟨LineTable.ofLexemes ls, model⟩, ?_, hknown⟩
  simp [SourceFile.parse, hscan, hparse, hbuild, bind, Except.bind, pure, Except.pure]

/-- A source text is refused if the grammar finds no shape for its words. -/
lemma SourceFile.parse_of_stop {source : String} {ls : List Lexeme} {stop : Stop}
    (hscan : Lexeme.scan source = .ok ls)
    (hstop : readShape ((bareLexemes ls).map Lexeme.kind) = .error stop) (file : SourceFile) :
    SourceFile.parse source ≠ .ok file := by
  rw [map_kind_bareLexemes] at hstop
  simp [SourceFile.parse, hscan, JavaLint.parse, hstop, bind, Except.bind]

/-- Two source texts that consist of the same words, whatever blanks, line breaks and comments stand
between them, are both read or both refused.  If they are read, then what is known of the two files
is the same once tokens are counted without layout: what each of the words is, the scopes with their
kinds, parents, depths and ends, and the declarations in all their parts. -/
theorem layout_never_changes_meaning {source₁ source₂ : String} {ls₁ ls₂ : List Lexeme}
    (hscan₁ : Lexeme.scan source₁ = .ok ls₁) (hscan₂ : Lexeme.scan source₂ = .ok ls₂)
    (hwords : (codeLexemes ls₁).map (fun l => (l.kind, l.text)) =
      (codeLexemes ls₂).map fun l => (l.kind, l.text)) :
    ((∃ file, SourceFile.parse source₁ = .ok file) ↔
      ∃ file, SourceFile.parse source₂ = .ok file) ∧
    ∀ file₁ file₂, SourceFile.parse source₁ = .ok file₁ → SourceFile.parse source₂ = .ok file₂ →
      file₁.RefersToCode ∧ file₂.RefersToCode ∧
      file₁.skeleton.classes.length = (codeLexemes ls₁).length ∧
      file₁.skeleton = file₂.skeleton := by
  have hbare := bareLexemes_eq_of_map_eq hwords
  cases hshape : readShape ((bareLexemes ls₁).map Lexeme.kind) with
  | error stop =>
    have hnone₁ := SourceFile.parse_of_stop hscan₁ hshape
    have hnone₂ := SourceFile.parse_of_stop hscan₂ (by rwa [← hbare])
    refine ⟨⟨?_, ?_⟩, fun file₁ _ h₁ => absurd h₁ (hnone₁ file₁)⟩
    · rintro ⟨file, hfile⟩
      exact absurd hfile (hnone₁ file)
    · rintro ⟨file, hfile⟩
      exact absurd hfile (hnone₂ file)
  | ok shape =>
    obtain ⟨file₁, hfile₁, hrefers₁, hlength₁, hskeleton₁⟩ :=
      SourceFile.parse_of_shape hscan₁ hshape
    obtain ⟨file₂, hfile₂, hrefers₂, -, hskeleton₂⟩ :=
      SourceFile.parse_of_shape hscan₂ (by rwa [← hbare])
    refine ⟨⟨fun _ => ⟨file₂, hfile₂⟩, fun _ => ⟨file₁, hfile₁⟩⟩, ?_⟩
    intro file₁' file₂' h₁ h₂
    obtain rfl : file₁ = file₁' := Except.ok.inj (hfile₁.symm.trans h₁)
    obtain rfl : file₂ = file₂' := Except.ok.inj (hfile₂.symm.trans h₂)
    refine ⟨hrefers₁, hrefers₂, hlength₁, ?_⟩
    rw [hskeleton₁, hskeleton₂, hbare]

/-- A class on one line, and the same class over three lines with comments in it. -/
theorem layout_of_commented_class :
    ∃ file₁ file₂, SourceFile.parse "class A \x7bint x;\x7d" = .ok file₁ ∧
      SourceFile.parse "class/**/A\n\x7b int/*y*/x ; // z\n\x7d" = .ok file₂ ∧
      file₁.skeleton = file₂.skeleton := by
  have hscan₁ : Lexeme.scan "class A \x7bint x;\x7d" = .ok
      [⟨.keyword .classKw, "class", 0, 1⟩, ⟨.whitespace, " ", 5, 1⟩, ⟨.identifier, "A", 6, 1⟩,
        ⟨.whitespace, " ", 7, 1⟩, ⟨.lBrace, "\x7b", 8, 1⟩, ⟨.keyword .intKw, "int", 9, 1⟩,
        ⟨.whitespace, " ", 12, 1⟩, ⟨.identifier, "x", 13, 1⟩, ⟨.semi, ";", 14, 1⟩,
        ⟨.rBrace, "\x7d", 15, 1⟩] := by
    decide +kernel
  have hscan₂ : Lexeme.scan "class/**/A\n\x7b int/*y*/x ; // z\n\x7d" = .ok
      [⟨.keyword .classKw, "class", 0, 1⟩, ⟨.blockComment, "/**/", 5, 1⟩,
        ⟨.identifier, "A", 9, 1⟩, ⟨.newline, "\n", 10, 1⟩, ⟨.lBrace, "\x7b", 11, 2⟩,
        ⟨.whitespace, " ", 12, 2⟩, ⟨.keyword .intKw, "int", 13, 2⟩,
        ⟨.blockComment, "/*y*/", 16, 2⟩, ⟨.identifier, "x", 21, 2⟩, ⟨.whitespace, " ", 22, 2⟩,
        ⟨.semi, ";", 23, 2⟩, ⟨.whitespace, " ", 24, 2⟩, ⟨.lineComment, "// z", 25, 2⟩,
        ⟨.newline, "\n", 29, 2⟩, ⟨.rBrace, "\x7d", 30, 3⟩] := by
    decide +kernel
  have hshape : readShape [.keyword .classKw, .identifier, .lBrace, .keyword .intKw, .identifier,
      .semi, .rBrace] = .ok
      (.node .classDecl (.leaf (.keyword .classKw) (.node .name (.leaf .identifier .nil)
        (.node .classBody (.leaf .lBrace (.node .fieldDecl
          (.node .type (.leaf (.keyword .intKw) .nil)
            (.node .variableDeclarator (.node .name (.leaf .identifier .nil) .nil)
              (.leaf .semi .nil)))
          (.leaf .rBrace .nil))) .nil))) .nil) := by
    decide +kernel
  obtain ⟨file₁, hfile₁, -⟩ := SourceFile.parse_of_shape hscan₁ hshape
  obtain ⟨hread, hmeaning⟩ := layout_never_changes_meaning hscan₁ hscan₂ (by decide +kernel)
  obtain ⟨file₂, hfile₂⟩ := hread.1 ⟨file₁, hfile₁⟩
  exact ⟨file₁, file₂, hfile₁, hfile₂, (hmeaning file₁ file₂ hfile₁ hfile₂).2.2.2⟩

end JavaLint
