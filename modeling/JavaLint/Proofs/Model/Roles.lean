import JavaLint.Proofs.Layout.Invariance
import JavaLint.Proofs.Model.Known
import Mathlib.Tactic.Common

/-!
# What every word of a file is

The reading of a tree is the same with and without layout (`reading_bare`), and the tree of a file is
orderly, so what the walk has found for a word of a file is its reading (`classification_eq_reading`).

The main result, `words_are_read`, says this without `reading`: declared names get the role that their
declaration gives them, with the modifiers and annotations of its own modifier list, and every other
word is what its kind says, but for some signs that are no operators where they stand.
-/

namespace JavaLint

/-! ## The tree of a file is orderly -/

namespace Forest

variable {parent : NodeKind}

/-- Leaves before a forest are no modifier lists. -/
@[simp] lemma lists_withLeaves {α : Type} (as : List α) (f : Forest α) :
    (withLeaves as f).lists = f.lists := by
  induction as with
  | nil => rfl
  | cons a as ih => exact ih

/-- Leaves before a forest do not disturb it. -/
lemma orderly_withLeaves {α : Type} {as : List α} {f : Forest α} :
    (withLeaves as f).Orderly parent ↔ f.Orderly parent := by
  induction as with
  | nil => rfl
  | cons a as ih => exact ih

/-- The modifier lists of a forest do not depend on layout. -/
lemma lists_bare (f : Forest Lexeme) : f.bare.lists = f.lists := by
  simp [lists, children_bare]

/-- An orderly forest is orderly without layout. -/
lemma Orderly.bare {f : Forest Lexeme} (hf : f.Orderly parent) : f.bare.Orderly parent := by
  induction f generalizing parent with
  | nil => trivial
  | leaf l rest ih =>
    cases hl : l.isTrivia <;> simpa [Forest.bare, hl, Orderly] using ih hf
  | node kind inside rest ihInside ihRest =>
    obtain ⟨hstands, hsingle, hinside, hrest⟩ := hf
    exact ⟨hstands, by rwa [lists_bare], ihInside hinside, ihRest hrest⟩

end Forest

/-- Weaving makes and loses no modifier list. -/
lemma weave_lists {α : Type} (f : Forest α) (ws : List Word) : (weave f ws).1.lists = f.lists := by
  induction f generalizing ws with
  | nil => rfl
  | leaf a rest ih =>
    cases ws with
    | nil => exact ih []
    | cons w ws =>
      rw [weave, Forest.lists_withLeaves]
      exact ih ws
  | node kind inside rest _ ih =>
    rw [weave, Forest.lists_withLeaves, Forest.lists_node, Forest.lists_node, ih]

/-- Weaving an orderly shape gives an orderly forest. -/
lemma weave_orderly {α : Type} {f : Forest α} {parent : NodeKind} (hf : f.Orderly parent)
    (ws : List Word) : (weave f ws).1.Orderly parent := by
  induction f generalizing parent ws with
  | nil => trivial
  | leaf a rest ih =>
    cases ws with
    | nil => exact ih hf []
    | cons w ws => exact Forest.orderly_withLeaves.2 (ih hf ws)
  | node kind inside rest ihInside ihRest =>
    obtain ⟨hstands, hsingle, hinside, hrest⟩ := hf
    exact Forest.orderly_withLeaves.2
      ⟨hstands, by rwa [weave_lists], ihInside hinside _, ihRest hrest _⟩

/-- The tree of a file is orderly. -/
theorem parse_orderly {ls : List Lexeme} {trees : Forest Lexeme} (h : parse ls = .ok trees) :
    trees.Orderly .sourceFile := by
  obtain ⟨shape, hshape, rfl⟩ := parse_eq_ok.1 h
  have hwoven := weave_orderly (readShape_orderly hshape) (words ls).1
  exact hwoven.append (Forest.orderly_withLeaves.2 trivial)

/-! ## Places -/

/-- The nodes around a place stand where they may, and none of them but the file has more than one
modifier list. -/
def Ancestry.Orderly (path : Ancestry) : Prop :=
  path.IsChain (fun a b => a.kind.MayStandIn b.kind) ∧
    ∀ a ∈ path, a.kind ≠ .sourceFile → a.inside.lists ≤ 1

namespace Forest

/-- The nodes around every place of an orderly forest are orderly. -/
lemma orderly_of_mem_places {f : Forest Lexeme} {path : Ancestry}
    (hpath : path.Orderly) (hne : path ≠ []) (hf : f.Orderly (Ancestry.kind path))
    {place : Ancestry × Lexeme} (h : place ∈ f.places path) : Ancestry.Orderly place.1 := by
  induction f generalizing path with
  | nil => simp [places] at h
  | leaf l rest ih =>
    rcases List.mem_cons.1 h with rfl | h
    · exact hpath
    · exact ih hpath hne hf h
  | node kind inside rest ihInside ihRest =>
    obtain ⟨hstands, hsingle, hinside, hrest⟩ := hf
    rcases List.mem_append.1 h with h | h
    · have hpath' : Ancestry.Orderly (⟨kind, inside⟩ :: path) := by
        obtain ⟨a, above, rfl⟩ := List.exists_cons_of_ne_nil hne
        exact ⟨List.isChain_cons_cons.2 ⟨hstands, hpath.1⟩,
          List.forall_mem_cons.2 ⟨fun _ => hsingle, hpath.2⟩⟩
      exact ihInside hpath' (List.cons_ne_nil _ _) hinside h
    · exact ihRest hpath hne hrest h

/-- The words at the places of a forest are its leaves. -/
lemma map_snd_places (path : Ancestry) (f : Forest Lexeme) :
    (f.places path).map Prod.snd = f.leaves := by
  induction f generalizing path with
  | nil => rfl
  | leaf l rest ih => simp [places, leaves, ih]
  | node kind inside rest ihInside ihRest => simp [places, leaves, ihInside, ihRest]

/-- The places of a bare forest are the places of the code. -/
lemma places_bare (path : Ancestry) (f : Forest Lexeme) :
    f.bare.places path.bare =
      ((f.places path).filter fun place => !place.2.isTrivia).map fun place =>
        (Ancestry.bare place.1, place.2.bare) := by
  induction f generalizing path with
  | nil => rfl
  | leaf l rest ih => cases hl : l.isTrivia <;> simp [bare, places, hl, ih]
  | node kind inside rest ihInside ihRest =>
    have hinside := ihInside (⟨kind, inside⟩ :: path)
    simp only [bare, places, List.filter_append, List.map_append, ← hinside, ← ihRest]
    rfl

end Forest

/-! ## The reading does not depend on layout -/

/-- An owner without layout. -/
def Owner.bare (o : Owner) : Owner :=
  ⟨o.node.bare, o.role, o.around.bare⟩

/-- The owner of a word does not depend on layout. -/
lemma owner?_bare (path : Ancestry) : owner? path.bare = (owner? path).map Owner.bare := by
  match path with
  | [] => rfl
  | [_] => rfl
  | [name, owner] =>
    by_cases hname : name.kind = .name <;>
      simp [owner?, Ancestry.bare, Ancestor.bare, hname, Function.comp_def, Owner.bare]
  | name :: declarator :: owner :: around =>
    by_cases hname : name.kind = .name
    · by_cases hdeclarator : declarator.kind = .variableDeclarator <;>
        simp [owner?, Ancestry.bare, Ancestor.bare, hname, hdeclarator, Function.comp_def, Owner.bare]
    · simp [owner?, Ancestry.bare, Ancestor.bare, hname]

/-- Trivia is no modifier. -/
lemma modifier?_of_isTrivia {l : Lexeme} (hl : l.isTrivia = true) : l.kind.modifier? = none := by
  cases hkind : l.kind <;> simp_all [Lexeme.isTrivia, Kind.isTrivia, Kind.channel, Kind.modifier?]

namespace Ancestor

/-- The modifier list of a node without layout. -/
lemma modifierList_bare (a : Ancestor) : a.bare.modifierList = a.modifierList.bare := by
  rw [modifierList, modifierList, bare, Forest.child?_bare]
  cases a.inside.child? .modifiers <;> rfl

/-- The modifiers of a node do not depend on layout. -/
lemma modifiers_bare (a : Ancestor) : a.bare.modifiers = a.modifiers := by
  rw [modifiers, modifiers, modifierList_bare, Forest.ownLeaves_bare, bareLexemes, codeLexemes,
    List.filterMap_map, List.filterMap_filter]
  apply List.filterMap_congr
  intro l _
  cases hl : l.isTrivia with
  | true => simp [modifier?_of_isTrivia hl]
  | false => simp

/-- The annotations of a node do not depend on layout. -/
lemma annotations_bare (a : Ancestor) : a.bare.annotations = a.annotations := by
  rw [annotations, annotations, modifierList_bare, Forest.children_bare, List.map_map]
  exact List.map_congr_left fun f _ => Forest.annotationName_bare f

end Ancestor

/-- What a declaration makes of its names does not depend on layout. -/
lemma Owner.classification_bare (o : Owner) : o.bare.classification = o.classification := by
  simp only [classification, bare, Ancestor.modifiers_bare, Ancestor.annotations_bare,
    Ancestry.isImplicitConstant_bare]
  rfl

/-- What a word is does not depend on layout. -/
theorem reading_bare (path : Ancestry) (kind : Kind) : reading path.bare kind = reading path kind := by
  rw [reading, reading, owner?_bare]
  cases owner? path with
  | none => simp [plainReading, Ancestry.losesRole_bare]
  | some o => exact o.classification_bare

/-- All words of a file are known at its end: the file itself declares no name. -/
lemma knownIn_root {root : Ancestor} (hroot : root.kind.declaresNames = false) {path : Ancestry}
    (hsuffix : [root] <:+ path) (kind : Kind) : knownIn [root] path kind = reading path kind := by
  unfold knownIn reading
  cases ho : owner? path with
  | none => rfl
  | some o =>
    have hne : o.around.length ≠ 0 := by
      intro hlength
      obtain ⟨rfl, -⟩ := eq_of_owner? hsuffix ho hlength
      simp [(owner?_split ho).1] at hroot
    have hle : [root].length ≤ o.around.length := Nat.one_le_iff_ne_zero.2 hne
    simp only [if_pos hle]

/-! ## The words of a file -/

/-- A word is found in the bare tree where it stands among the words. -/
lemma Forest.getElem?_places_bare {f : Forest Lexeme} {base path : Ancestry} {n : Nat} {l : Lexeme}
    (hplace : (f.places base)[n]? = some (path, l)) (hl : l.isTrivia = false) :
    (f.bare.places base.bare)[(codeLexemes (f.leaves.take n)).length]? =
      some (path.bare, l.bare) := by
  have hfound := getElem?_filter_countP (p := fun place : Ancestry × Lexeme => !place.2.isTrivia)
    hplace (by simp [hl])
  have hcount : ((f.places base).take n).countP (fun place => !place.2.isTrivia) =
      (codeLexemes (f.leaves.take n)).length := by
    rw [← map_snd_places base, ← List.map_take, codeLexemes, ← List.countP_eq_length_filter,
      List.countP_map]
    rfl
  rw [places_bare, List.getElem?_map, ← hcount, hfound]
  rfl

section Words

variable {ls : List Lexeme} {trees : Forest Lexeme} {b : Builder}

/-- What the walk over the bare tree of a file has found for a word is its reading. -/
lemma Sketch.walk_root (texts : List String) (hparse : parse ls = .ok trees) {i : Nat}
    {path : Ancestry} {l : Lexeme}
    (hplace : (trees.bare.places [⟨.sourceFile, trees.bare⟩])[i]? = some (path, l)) :
    (Sketch.walk texts [⟨.sourceFile, trees.bare⟩] trees.bare 0
      (Sketch.start ((codeLexemes ls).map Lexeme.kind))).classes[i]? =
      some (reading path l.kind) := by
  have hkinds : ((trees.bare.places [⟨.sourceFile, trees.bare⟩]).map fun place => place.2.kind) =
      (codeLexemes ls).map Lexeme.kind := by
    rw [← map_kind_bareLexemes, ← parse_leaves hparse, ← Forest.bare_leaves,
      ← Forest.map_snd_places [⟨.sourceFile, trees.bare⟩], List.map_map]
    rfl
  have hreads := Sketch.walk_reads texts (parse_orderly hparse).bare
    [⟨.sourceFile, trees.bare⟩] 0 (Sketch.start ((codeLexemes ls).map Lexeme.kind)) (by
      intro j place hj
      simp [Sketch.start, ← hkinds, hj])
  have hknown := hreads.known i (path, l) hplace
  rw [Nat.zero_add] at hknown
  rw [hknown, knownIn_root rfl (Forest.suffix_of_mem_places (List.mem_of_getElem? hplace))]

/-- What the walk over the tree of a file has found for a word is its reading. -/
lemma Builder.class_of_walk (hparse : parse ls = .ok trees) (hcode : CodeHasText ls)
    (hwalk : (ofTable (LineTable.ofLexemes ls)).walk trees = .ok b) (hsound : b.Sound ls)
    {n : Nat} {path : Ancestry} {l : Lexeme}
    (hplace : (trees.places [⟨.sourceFile, trees⟩])[n]? = some (path, l))
    (hl : l.isTrivia = false) :
    ∃ token, (LineTable.ofLexemes ls).ofLexeme? n = some token ∧
      b.classes[token]? = some (reading path l.kind) := by
  have hleaf : ls[n]? = some l := by
    rw [← parse_leaves hparse, ← Forest.map_snd_places [⟨.sourceFile, trees⟩], List.getElem?_map,
      hplace]
    rfl
  obtain ⟨hn, hget⟩ := List.getElem?_eq_some_iff.1 hleaf
  have hls : ls = ls.take n ++ l :: ls.drop (n + 1) := by
    rw [← hget, List.getElem_cons_drop, List.take_append_drop]
  have hlength : (ls.take n).length = n := List.length_take_of_le hn.le
  have htoken : l.hasToken = true :=
    Lexeme.hasToken_of_code hl (hcode l (List.mem_of_getElem? hleaf) hl)
  have hentry := LineTable.ofLexeme?_ofLexemes (ls.take n) l (ls.drop (n + 1))
  obtain ⟨t, ht, hkind, -, -⟩ :=
    LineTable.token_ofLexemes (ls.take n) (ls.drop (n + 1)) htoken
  have hordinal : (LineTable.ofLexemes (ls.take n ++ l :: ls.drop (n + 1))).ordinal
      ((ls.take n).countP Lexeme.hasToken) = (codeLexemes (ls.take n)).length :=
    LineTable.ordinal_ofLexemes fun m hm => hcode m (List.mem_of_mem_take hm)
  rw [← hls, hlength, htoken, if_pos rfl] at hentry
  rw [← hls, ← hsound.table, ← Array.getElem?_toList] at ht
  rw [← hls, ← hsound.table] at hordinal
  have hiscode : t.isCode = true := by
    rw [Token.isCode_eq hkind htoken, hl]
    rfl
  have hbare := Forest.getElem?_places_bare hplace hl
  rw [parse_leaves hparse, ← hordinal] at hbare
  have hclass := Sketch.walk_root ((codeLexemes ls).map Lexeme.text) hparse hbare
  rw [← sketch_walk hparse hcode hwalk, reading_bare] at hclass
  refine ⟨_, hentry, ?_⟩
  rw [← Array.getElem?_toList, ← LineTable.getElem?_codeEntries ht hiscode]
  exact hclass

end Words

/-! ## The reading in words -/

/-- The place is directly in a declared name, which is not that of a type parameter. -/
def Ancestry.IsDeclaredName (path : Ancestry) : Prop :=
  ∃ name parent above, path = name :: parent :: above ∧ name.kind = .name ∧
    parent.kind ≠ .typeParam

/-- The declaration makes constants of its names without saying so: it is an enum constant, or a
field directly in the body of an interface or an annotation type. -/
def Owner.IsConstant (o : Owner) : Prop :=
  o.node.kind = .enumConstant ∨
    o.node.kind = .fieldDecl ∧ ∃ body type around, o.around = body :: type :: around ∧
      body.kind = .classBody ∧ (type.kind = .interfaceDecl ∨ type.kind = .annotationTypeDecl)

/-- A sign of the given kind is no operator if it stands directly in the node: angle brackets and
their company in lists of types, the sign between the types of a cast, and the colons of labels. -/
def Ancestor.DeniesOperator (a : Ancestor) (kind : Kind) : Prop :=
  (kind = .lt ∨ kind = .gt ∨ kind = .question ∨ kind = .bitAnd) ∧
    (a.kind = .typeArgs ∨ a.kind = .typeParams ∨ a.kind = .typeParam) ∨
  kind = .bitAnd ∧ a.kind = .cast ∨
  kind = .colon ∧ (a.kind = .switchLabel ∨ a.kind = .statement ∧
    ∃ first, (codeLexemes a.inside.ownLeaves).head? = some first ∧ first.kind = .identifier)

/-- The walk finds out which declarations make constants of their names. -/
lemma Owner.isImplicitConstant_iff (o : Owner) :
    isImplicitConstant o.node.kind o.around = true ↔ o.IsConstant := by
  obtain ⟨⟨kind, inside⟩, role, around⟩ := o
  match around with
  | [] => cases kind <;> simp [isImplicitConstant, IsConstant]
  | [_] => cases kind <;> simp [isImplicitConstant, IsConstant]
  | body :: type :: around => cases kind <;> simp [isImplicitConstant, IsConstant]

/-- A statement starts with a label if its first word is an identifier. -/
lemma Forest.startsWithLabel_iff (f : Forest Lexeme) : f.startsWithLabel = true ↔
    ∃ first, (codeLexemes f.ownLeaves).head? = some first ∧ first.kind = .identifier := by
  rw [startsWithLabel, codeLexemes, List.head?_filter]
  cases f.ownLeaves.find? fun l => !l.isTrivia <;> simp

/-- The walk finds out which signs are no operators. -/
lemma losesRole_iff {a : Ancestor} (above : Ancestry) {kind : Kind} :
    Builder.losesRole (a :: above) kind = true ↔ a.DeniesOperator kind := by
  rw [Ancestor.DeniesOperator, ← Forest.startsWithLabel_iff]
  cases kind <;> grind [Builder.losesRole, isNoOperator]

/-- What has an owner is a declared name. -/
lemma Owner.Owns.isDeclaredName {o : Owner} {path : Ancestry} (h : o.Owns path) :
    path.IsDeclaredName := by
  cases h with
  | @directly name hname hrole =>
    refine ⟨name, o.node, o.around, rfl, hname, ?_⟩
    intro hkind
    simp [hkind, NodeKind.nameRole?] at hrole
  | @byDeclarator name declarator hname hdeclarator hrole =>
    exact ⟨name, declarator, _, rfl, hname, by simp [hdeclarator]⟩

/-- In an orderly tree every declared name has an owner. -/
lemma Ancestry.Orderly.exists_owner {root : Ancestor} {path : Ancestry} (hpath : path.Orderly)
    (hroot : root.kind = .sourceFile) (hsuffix : [root] <:+ path) (h : path.IsDeclaredName) :
    ∃ o : Owner, o.Owns path := by
  obtain ⟨name, parent, above, rfl, hname, hparent⟩ := h
  obtain ⟨hchain, -⟩ := hpath
  obtain ⟨hstands, hchain⟩ := List.isChain_cons_cons.1 hchain
  rw [hname] at hstands
  rcases hstands with hrole | htype | hdeclarator
  · obtain ⟨role, hrole⟩ := Option.isSome_iff_exists.1 hrole
    exact ⟨⟨parent, role, above⟩, .directly hname hrole⟩
  · exact absurd htype hparent
  · -- A declarator is not the file itself, so there is a node around it.
    cases above with
    | nil =>
      obtain ⟨inner, hinner⟩ := hsuffix
      obtain rfl : root = parent := by simpa using congrArg List.getLast? hinner
      simp [hroot] at hdeclarator
    | cons owner around =>
      obtain ⟨hstands, -⟩ := List.isChain_cons_cons.1 hchain
      rw [hdeclarator] at hstands
      obtain ⟨role, hrole⟩ := Option.isSome_iff_exists.1 hstands
      exact ⟨⟨owner, role, around⟩, .byDeclarator hname hdeclarator hrole⟩

/-- The owner of a name has at most one modifier list. -/
lemma Ancestry.Orderly.lists_le_one {path : Ancestry} (hpath : path.Orderly) {o : Owner}
    (ho : o.Owns path) : o.node.inside.lists ≤ 1 := by
  obtain ⟨hdeclares, between, rfl, -⟩ := owner?_split (owner?_eq_some_iff.2 ho)
  refine hpath.2 o.node (by simp) ?_
  intro hkind
  simp [hkind, NodeKind.declaresNames, NodeKind.isTypeDecl] at hdeclares

/-- Every word of a file is what its place in the tree says.

The places of the tree are the lexemes of the file with the nodes around them.  A word that is a
declared name, though not of a type parameter, gets the role that its owner gives it, with the
modifiers and the annotations that stand directly in the modifier list of the owner, of which there
is at most one, and with three more modifiers if the owner makes constants.  Every other word has no
modifiers and no annotations, and it is what its kind says unless it only looks like an operator. -/
theorem words_are_read {source : String} {file : SourceFile}
    (h : SourceFile.parse source = .ok file) :
    ∃ lexemes trees, Lexeme.scan source = .ok lexemes ∧ parse lexemes = .ok trees ∧
      (trees.places [⟨.sourceFile, trees⟩]).map Prod.snd = lexemes ∧
      ∀ n path l, (trees.places [⟨.sourceFile, trees⟩])[n]? = some (path, l) →
        l.isTrivia = false →
        ∃ token c, file.table.ofLexeme? n = some token ∧ file.model.classification token = .ok c ∧
          (path.IsDeclaredName → ∃ o : Owner, o.Owns path ∧ o.node.inside.lists ≤ 1 ∧
            c.role = o.role ∧ c.annotations = o.node.annotations ∧
            (o.IsConstant →
              c.modifiers = o.node.modifiers ++ [.publicKw, .staticKw, .finalKw]) ∧
            (¬ o.IsConstant → c.modifiers = o.node.modifiers)) ∧
          (¬ path.IsDeclaredName → c.modifiers = [] ∧ c.annotations = [] ∧
            ∃ parent above, path = parent :: above ∧
              (parent.DeniesOperator l.kind → c.role = .other) ∧
              (¬ parent.DeniesOperator l.kind → c.role = Role.ofKind l.kind)) := by
  obtain ⟨ls, trees, b, hscan, hparse, htable, hwalk, hsound, hfinish⟩ := SourceFile.parse_parts h
  obtain ⟨-, -, hclasses, -⟩ := Builder.finish_eq_ok hfinish
  refine ⟨ls, trees, hscan, hparse, ?_, fun n path l hplace hl => ?_⟩
  · rw [Forest.map_snd_places, parse_leaves hparse]
  have hmem := List.mem_of_getElem? hplace
  have hsuffix := Forest.suffix_of_mem_places hmem
  have hroot : Ancestry.Orderly [⟨.sourceFile, trees⟩] := ⟨.singleton _, by simp⟩
  have hpath := Forest.orderly_of_mem_places hroot (by simp) (parse_orderly hparse) hmem
  obtain ⟨token, htoken, hclass⟩ :=
    Builder.class_of_walk hparse (codeHasText_of_scan hscan) hwalk hsound hplace hl
  refine ⟨token, reading path l.kind, by rw [htable, htoken], ?_, ?_, ?_⟩
  · rw [Model.classification, hclasses, hclass]
  · intro hname
    obtain ⟨o, ho⟩ := hpath.exists_owner rfl hsuffix hname
    have hreading : reading path l.kind = o.classification := by
      rw [reading, owner?_eq_some_iff.2 ho]
    rw [hreading]
    refine ⟨o, ho, hpath.lists_le_one ho, rfl, rfl, fun hconstant => ?_, fun hconstant => ?_⟩
    · simp [Owner.classification, o.isImplicitConstant_iff.2 hconstant, implicitModifiers]
    · rw [← o.isImplicitConstant_iff] at hconstant
      simp [Owner.classification, hconstant]
  · intro hname
    obtain ⟨parent, above, rfl⟩ : ∃ parent above, path = parent :: above :=
      List.exists_cons_of_ne_nil (hsuffix.ne_nil (by simp))
    have hnone : owner? (parent :: above) = none := by
      rw [Option.eq_none_iff_forall_ne_some]
      exact fun o ho => hname (owner?_eq_some_iff.1 ho).isDeclaredName
    have hreading : reading (parent :: above) l.kind = plainReading (parent :: above) l.kind := by
      rw [reading, hnone]
    rw [hreading]
    refine ⟨rfl, rfl, parent, above, rfl, fun hdenies => ?_, fun hdenies => ?_⟩
    · simp [plainReading, (losesRole_iff above).2 hdenies]
    · rw [← losesRole_iff above] at hdenies
      simp [plainReading, hdenies]

/-- A field of an annotation type, in the annotation of which there is a class with a field.  The
modifier of the inner field does not reach the outer one, which has three modifiers that are not
written. -/
theorem words_of_annotated_constant :
    ∃ file lexemes trees path l o token c,
      SourceFile.parse "@interface I\x7b@A(new B()\x7bfinal int z;\x7d)private int a;\x7d" =
        .ok file ∧
      Lexeme.scan "@interface I\x7b@A(new B()\x7bfinal int z;\x7d)private int a;\x7d" =
        .ok lexemes ∧
      parse lexemes = .ok trees ∧
      (trees.places [⟨.sourceFile, trees⟩])[26]? = some (path, l) ∧ l.text = "a" ∧
      Owner.Owns o path ∧ o.node.modifiers = [.privateKw] ∧ o.node.annotations = ["A"] ∧
      file.table.ofLexeme? 26 = some token ∧ file.model.classification token = .ok c ∧
      c = { role := .fieldName, modifiers := [.privateKw, .publicKw, .staticKw, .finalKw]
            annotations := ["A"] } := by
  have hread : ((SourceFile.parse
      "@interface I\x7b@A(new B()\x7bfinal int z;\x7d)private int a;\x7d").toOption.map
      fun file => file.table.count) = some 29 := by
    decide +kernel
  have hplace : ((parseSource
      "@interface I\x7b@A(new B()\x7bfinal int z;\x7d)private int a;\x7d").toOption.bind
      fun trees => ((trees.places [⟨.sourceFile, trees⟩])[26]?).bind fun place =>
        (owner? place.1).map fun o => ((place.2.text, place.2.isTrivia), (o.role, o.node.modifiers),
          o.node.annotations, isImplicitConstant o.node.kind o.around)) =
      some (("a", false), (.fieldName, [.privateKw]), ["A"], true) := by
    decide +kernel
  cases hfile : SourceFile.parse
      "@interface I\x7b@A(new B()\x7bfinal int z;\x7d)private int a;\x7d" with
  | error e => simp [hfile, Except.toOption] at hread
  | ok file =>
    obtain ⟨lexemes, trees, hscan, hparse, -, hwords⟩ := words_are_read hfile
    have htrees : parseSource "@interface I\x7b@A(new B()\x7bfinal int z;\x7d)private int a;\x7d" =
        .ok trees := by
      simp [parseSource, hscan, hparse, bind, Except.bind]
    rw [htrees, Except.toOption, Option.bind_some] at hplace
    obtain ⟨⟨path, l⟩, hplace, howner⟩ := Option.bind_eq_some_iff.1 hplace
    obtain ⟨o, ho, hfacts⟩ := Option.map_eq_some_iff.1 howner
    simp only [Prod.mk.injEq] at hfacts
    obtain ⟨⟨htext, hcode⟩, ⟨hrole, hmodifiers⟩, hannotations, hconstant⟩ := hfacts
    have howns := owner?_eq_some_iff.1 ho
    obtain ⟨token, c, htoken, hclass, hnamed, -⟩ := hwords 26 path l hplace hcode
    obtain ⟨o', ho', -, hrole', hannotations', hmodifiers', -⟩ := hnamed howns.isDeclaredName
    obtain rfl : o = o' := Option.some.inj (ho.symm.trans (owner?_eq_some_iff.2 ho'))
    refine ⟨file, lexemes, trees, path, l, o, token, c, rfl, hscan, hparse, hplace, htext, ho',
      hmodifiers, hannotations, htoken, hclass, ?_⟩
    have hall := hmodifiers' (o.isImplicitConstant_iff.1 hconstant)
    rw [hmodifiers] at hall
    cases c
    simp_all

end JavaLint
