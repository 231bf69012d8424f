import JavaLint.Proofs.Grammar.Depth
import JavaLint.Proofs.Tree.Weave
import Mathlib.Data.Set.Basic

/-!
# How deep trees are

`Forest.lineages` lists, for each node of a forest, the kinds of the nodes around it, from the node
itself outwards.  Putting blanks and comments back into a tree adds no nodes, so the lineages of a file
are those of its shape (`weaveFile_lineages`), and the rise of the shape bounds their lengths: a lineage
is no longer than the counted levels allow, plus two nodes for each of its nodes of type arguments
(`parse_lineages_length`).

Since no level is counted for types in type arguments, there is no bound that holds for all files
(`trees_are_not_bounded`); the files of a collection are bounded in depth exactly if their type
arguments are (`depth_follows_type_arguments`).
-/

namespace JavaLint

/-! ## Lineages -/

namespace Forest

variable {α : Type}

/-- For each node, the kinds of the node itself and of the nodes around it, from the inside out, where
the nodes of the kinds `above` are around the whole forest. -/
def lineages (above : List NodeKind) : Forest α → List (List NodeKind)
  | nil => []
  | leaf _ rest => lineages above rest
  | node kind inside rest => (kind :: above) :: (lineages (kind :: above) inside ++ lineages above rest)

/-- Nothing after a sequence of trees leaves it as it is. -/
@[simp] lemma append_nil (f : Forest α) : f ++ nil = f := by
  induction f with
  | nil => rfl
  | leaf a rest ih => simp [ih]
  | node kind inside rest _ ih => simp [ih]

/-- Two sequences of trees have the nodes of both. -/
@[simp] lemma lineages_append (above : List NodeKind) (f g : Forest α) :
    (f ++ g).lineages above = f.lineages above ++ g.lineages above := by
  induction f with
  | nil => rfl
  | leaf a rest ih => simp [lineages, ih]
  | node kind inside rest _ ih => simp [lineages, ih]

/-- Leaves are no nodes. -/
@[simp] lemma lineages_withLeaves (above : List NodeKind) (as : List α) (f : Forest α) :
    (withLeaves as f).lineages above = f.lineages above := by
  induction as with
  | nil => rfl
  | cons a as ih => simpa [withLeaves, lineages] using ih

/-- What a node adds to a lineage is what it adds to the rise, except that type arguments pay back
two. -/
lemma length_cons_le_riseThrough (kind : NodeKind) (above : List NodeKind) (n : Nat) :
    (kind :: above).length + n + 2 * above.count .typeArgs ≤
      above.length + riseThrough kind n + 2 * (kind :: above).count .typeArgs := by
  by_cases hkind : kind = .typeArgs
  · subst hkind
    rw [riseThrough, if_pos rfl, List.length_cons, List.count_cons_self]
    omega
  · rw [riseThrough, if_neg hkind, List.length_cons, List.count_cons_of_ne hkind]
    omega

/-- A lineage is as long as the rise of the forest allows, if one takes away two for each node of type
arguments. -/
lemma length_of_mem_lineages {f : Forest α} {above lineage : List NodeKind}
    (h : lineage ∈ f.lineages above) :
    lineage.length + 2 * above.count .typeArgs ≤
      above.length + f.rise + 2 * lineage.count .typeArgs := by
  induction f generalizing above with
  | nil => simp [lineages] at h
  | leaf a rest ih => exact ih h
  | node kind inside rest ihInside ihRest =>
    simp only [lineages, List.mem_cons, List.mem_append] at h
    have hnode := length_cons_le_riseThrough kind above inside.rise
    rw [rise]
    obtain rfl | hinside | hrest := h
    · omega
    · have hlength := ihInside hinside
      omega
    · have hlength := ihRest hrest
      omega

/-- The depth of an entry of an outline is the length of a lineage, or the entry is at the top. -/
lemma depth_of_mem_outline {f : Forest Lexeme} (above : List NodeKind) {entry : Nat × OutlineEntry}
    (h : entry ∈ f.outline above.length) :
    entry.1 = above.length ∨ ∃ lineage ∈ f.lineages above, entry.1 = lineage.length := by
  induction f generalizing above with
  | nil => simp [outline] at h
  | leaf l rest ih =>
    obtain rfl | hrest := List.mem_cons.1 h
    · exact .inl rfl
    · exact ih above hrest
  | node kind inside rest ihInside ihRest =>
    simp only [outline, List.mem_cons, List.mem_append] at h
    simp only [lineages, List.mem_cons, List.mem_append]
    obtain rfl | hinside | hrest := h
    · exact .inl rfl
    · right
      obtain htop | ⟨lineage, hmem, hlength⟩ := ihInside (kind :: above) hinside
      · exact ⟨kind :: above, .inl rfl, htop⟩
      · exact ⟨lineage, .inr (.inl hmem), hlength⟩
    · obtain htop | ⟨lineage, hmem, hlength⟩ := ihRest above hrest
      · exact .inl htop
      · exact .inr ⟨lineage, .inr (.inr hmem), hlength⟩

/-- Every node has an entry in the outline, at the depth that its lineage gives. -/
lemma exists_mem_outline {f : Forest Lexeme} {above lineage : List NodeKind}
    (h : lineage ∈ f.lineages above) :
    ∃ entry ∈ f.outline above.length, entry.1 + 1 = lineage.length := by
  induction f generalizing above with
  | nil => simp [lineages] at h
  | leaf l rest ih =>
    obtain ⟨entry, hmem, hlength⟩ := ih h
    exact ⟨entry, List.mem_cons_of_mem _ hmem, hlength⟩
  | node kind inside rest ihInside ihRest =>
    simp only [lineages, List.mem_cons, List.mem_append] at h
    simp only [outline, List.mem_cons, List.mem_append]
    obtain rfl | hinside | hrest := h
    · exact ⟨_, .inl rfl, rfl⟩
    · obtain ⟨entry, hmem, hlength⟩ := ihInside hinside
      exact ⟨entry, .inr (.inl hmem), hlength⟩
    · obtain ⟨entry, hmem, hlength⟩ := ihRest hrest
      exact ⟨entry, .inr (.inr hmem), hlength⟩

end Forest

/-- Weaving adds and drops no nodes. -/
lemma weave_lineages {α : Type} (f : Forest α) (above : List NodeKind) (ws : List Word) :
    (weave f ws).1.lineages above = f.lineages above := by
  induction f generalizing above ws with
  | nil => rfl
  | leaf a rest ih =>
    cases ws with
    | nil => exact ih above []
    | cons w ws => simp [weave, Forest.lineages, ih]
  | node kind inside rest ihInside ihRest => simp [weave, Forest.lineages, ihInside, ihRest]

/-- A tree has the nodes of its shape. -/
lemma weaveFile_lineages {α : Type} (shape : Forest α) (above : List NodeKind) (ls : List Lexeme) :
    (weaveFile shape ls).lineages above = shape.lineages above := by
  simp [weaveFile, weave_lineages, Forest.lineages]

/-- The lineages of a file are no longer than the counted levels allow, and two nodes more for each
node of type arguments. -/
lemma parse_lineages_length {ls : List Lexeme} {trees : Forest Lexeme} (h : parse ls = .ok trees)
    {lineage : List NodeKind} (hlineage : lineage ∈ (fileTree trees).lineages []) :
    lineage.length ≤ 6 * (maxNesting + 1) + 2 * lineage.count .typeArgs := by
  obtain ⟨shape, hshape, rfl⟩ := parse_eq_ok.1 h
  simp only [fileTree, Forest.lineages, List.append_nil, List.mem_cons] at hlineage
  obtain rfl | hinside := hlineage
  · rw [List.length_singleton]
    omega
  · rw [weaveFile_lineages] at hinside
    have hlength := Forest.length_of_mem_lineages hinside
    have hrise := readShape_rise hshape
    have hroot : [NodeKind.sourceFile].count .typeArgs = 0 := rfl
    rw [hroot, List.length_singleton] at hlength
    omega

/-! ## Types in type arguments -/

namespace Rule

/-- The words of a type with so many type arguments inside each other. -/
def nestedType : Nat → List Kind
  | 0 => [.identifier]
  | n + 1 => .identifier :: .lt :: (nestedType n ++ [.gt])

/-- The shape of a type with so many type arguments inside each other. -/
def nestedShape : Nat → Shape
  | 0 => .node .type (.leaf .identifier .nil) .nil
  | n + 1 =>
    .node .type
      (.leaf .identifier (.node .typeArgs (.leaf .lt (nestedShape n ++ .leaf .gt .nil)) .nil)) .nil

/-- The type with so many type arguments inside each other has that many nodes inside each other. -/
lemma exists_lineage_nestedShape (n : Nat) (above : List NodeKind) :
    ∃ lineage ∈ (nestedShape n).lineages above, above.length + n < lineage.length := by
  induction n generalizing above with
  | zero => exact ⟨.type :: above, by simp [nestedShape, Forest.lineages], by simp⟩
  | succ n ih =>
    obtain ⟨lineage, hmem, hlength⟩ := ih (.typeArgs :: .type :: above)
    refine ⟨lineage, by simp [nestedShape, Forest.lineages, hmem], ?_⟩
    simp only [List.length_cons] at hlength
    omega

open Form Lookahead

/-- A rule is followed by reading its form, with less fuel for the rules that it calls. -/
lemma readRule_succ {ρ : Type} (grammar : ρ → Form ρ) (fuel : Nat) (rule : ρ) (room : Nat)
    (ks : List Kind) :
    readRule grammar (fuel + 1) rule room ks = (grammar rule).read (readRule grammar fuel) room ks :=
  rfl

/-- One part is read after the other. -/
lemma read_append_ok {ρ : Type} {follow : ρ → Reader} {a b : Form ρ} {room : Nat}
    {ks : List Kind} :
    (a ++ b).read follow room ks =
      match a.read follow room ks with
      | .error stop => .error stop
      | .ok (f, ks') =>
        match b.read follow room ks' with
        | .error stop => .error stop
        | .ok (g, ks'') => .ok (f ++ g, ks'') :=
  read_seq ..

attribute [local simp] readRule_succ read_append_ok form Form.read opt Form.ite expect expectName
  declaredName atKind atName atDims atWord atHeritage atModule atModifier thenKind first unlessAt more
  typeCore typeDeclOf typeDeclKind? modifiers braces untilBrace Forest.adopt Kind.isPrimitive
  Kind.isName Keyword.isModifier

/-- Each type in type arguments is read without a level of nesting, however small the room is. -/
lemma read_nestedType (n : Nat) (fuel room : Nat) {k : Kind} (hk : k = .gt ∨ k = .lBrace)
    (ks : List Kind) :
    readRule form (fuel + 2 + 4 * n) .type room (nestedType n ++ k :: ks) =
      .ok (nestedShape n, k :: ks) := by
  induction n generalizing fuel k ks with
  | zero =>
    obtain rfl | rfl := hk
    · simp [nestedType, nestedShape]
    · simp [nestedType, nestedShape]
  | succ n ih =>
    -- The type inside is read by four rules more: the tail of the outer type, its arguments, their list
    -- and the type itself.
    have hinside := ih fuel (.inl rfl) (k :: ks)
    obtain ⟨ks', hks'⟩ : ∃ ks', nestedType n = .identifier :: ks' := by cases n <;> exact ⟨_, rfl⟩
    rw [hks', List.cons_append] at hinside
    have hplain : readRule form (fuel + 2 + 4 * n) .annotations room
        (.identifier :: (ks' ++ .gt :: k :: ks)) = .ok (.nil, .identifier :: (ks' ++ .gt :: k :: ks)) := by
      rw [Nat.add_right_comm fuel 2]
      simp
    rw [Nat.mul_succ, ← Nat.add_assoc, nestedType, nestedShape, hks']
    obtain rfl | rfl := hk
    · simp [hinside, hplain]
    · simp [hinside, hplain]

/-- The words of a class that extends a type with so many type arguments inside each other. -/
def nestedFile (n : Nat) : List Kind :=
  .keyword .classKw :: .identifier :: .keyword .extendsKw :: (nestedType n ++ [.lBrace, .rBrace])

/-- The shape of that class. -/
def nestedFileShape (n : Nat) : Shape :=
  .node .classDecl
    (.leaf (.keyword .classKw) (.node .name (.leaf .identifier .nil)
      (.leaf (.keyword .extendsKw)
        (nestedShape n ++ .node .classBody (.leaf .lBrace (.leaf .rBrace .nil)) .nil)))) .nil

/-- Each level of type arguments takes three words. -/
lemma length_nestedType (n : Nat) : (nestedType n).length = 3 * n + 1 := by
  induction n with
  | zero => rfl
  | succ n ih =>
    simp only [nestedType, List.length_cons, List.length_append, List.length_nil, ih]
    omega

/-- However many type arguments lie inside each other, the class makes a file. -/
lemma readShape_nestedFile (n : Nat) : readShape (nestedFile n) = .ok (nestedFileShape n) := by
  have hfuel : fuelFor (nestedFile n).length = 44 * n + 106 + 2 + 4 * n + 4 := by
    simp only [fuelFor, nestedFile, List.length_cons, List.length_append, length_nestedType,
      List.length_nil]
    omega
  have htype := read_nestedType n (44 * n + 106) 256 (.inr rfl) [.rBrace]
  rw [readShape, hfuel, maxNesting, nestedFile, nestedFileShape]
  obtain ⟨ks, hks⟩ : ∃ ks, nestedType n = .identifier :: ks := by cases n <;> exact ⟨_, rfl⟩
  rw [hks, List.cons_append] at htype
  rw [hks]
  simp [htype, Except.map]

/-- A word of the class, as it is spelled. -/
def nestedWord (k : Kind) : Lexeme :=
  ⟨k,
    match k with
    | .keyword word => word.word
    | .lt => "<"
    | .gt => ">"
    | .lBrace => "\x7b"
    | .rBrace => "\x7d"
    | _ => "A",
    0, 1⟩

/-- All words of the type are code. -/
lemma isTrivia_of_mem_nestedType {n : Nat} {k : Kind} (hk : k ∈ nestedType n) :
    k.isTrivia = false := by
  induction n with
  | zero =>
    obtain rfl := List.mem_singleton.1 hk
    rfl
  | succ n ih =>
    simp only [nestedType, List.mem_cons, List.mem_append, List.not_mem_nil, or_false] at hk
    obtain rfl | rfl | hinside | rfl := hk
    · rfl
    · rfl
    · exact ih hinside
    · rfl

/-- All words of the class are code. -/
lemma codeLexemes_nestedFile (n : Nat) :
    codeLexemes ((nestedFile n).map nestedWord) = (nestedFile n).map nestedWord := by
  rw [codeLexemes, List.filter_eq_self]
  intro l hl
  obtain ⟨k, hk, rfl⟩ := List.mem_map.1 hl
  have hcode : k.isTrivia = false := by
    simp only [nestedFile, List.mem_cons, List.mem_append, List.not_mem_nil, or_false] at hk
    obtain rfl | rfl | rfl | htype | rfl | rfl := hk
    · rfl
    · rfl
    · rfl
    · exact isTrivia_of_mem_nestedType htype
    · rfl
    · rfl
  simp [Lexeme.isTrivia, nestedWord, hcode]

/-- The class makes a file, and its tree has the nodes of its shape. -/
lemma exists_parse_nestedFile (n : Nat) :
    ∃ trees, parse ((nestedFile n).map nestedWord) = .ok trees ∧
      ∃ lineage ∈ (fileTree trees).lineages [], n < lineage.length := by
  have hkinds : (codeLexemes ((nestedFile n).map nestedWord)).map Lexeme.kind = nestedFile n := by
    rw [codeLexemes_nestedFile, List.map_map]
    exact List.map_id _
  refine ⟨_, parse_eq_ok.2 ⟨nestedFileShape n, ?_, rfl⟩, ?_⟩
  · rw [hkinds]
    exact readShape_nestedFile n
  · obtain ⟨lineage, hmem, hlength⟩ := exists_lineage_nestedShape n [.classDecl, .sourceFile]
    refine ⟨lineage, ?_, by omega⟩
    simp [fileTree, Forest.lineages, weaveFile_lineages, nestedFileShape, hmem]

end Rule

/-! ## Bounds -/

/-- Lexemes that make no file are answered by an error of the grammar.  In the tree of a file, no more
nodes lie inside each other than the counted levels allow, and two more for each node of type arguments.
So the nodes and leaves of the trees of a collection of files are bounded in depth exactly if the number
of type arguments that lie inside each other is bounded. -/
theorem depth_follows_type_arguments (inputs : Set (List Lexeme)) :
    (∀ lexemes, (∃ line cause, parse lexemes = .error (.grammatical line cause)) ∨
      ∃ trees, parse lexemes = .ok trees ∧
        ∀ lineage ∈ (fileTree trees).lineages [],
          lineage.length ≤ 6 * (maxNesting + 1) + 2 * lineage.count .typeArgs) ∧
    ((∃ bound, ∀ lexemes ∈ inputs, ∀ trees, parse lexemes = .ok trees →
        ∀ entry ∈ (fileTree trees).outline 0, entry.1 ≤ bound) ↔
      ∃ bound, ∀ lexemes ∈ inputs, ∀ trees, parse lexemes = .ok trees →
        ∀ lineage ∈ (fileTree trees).lineages [], lineage.count .typeArgs ≤ bound) := by
  refine ⟨fun lexemes => ?_, ?_, ?_⟩
  · cases hparse : parse lexemes with
    | error e =>
      obtain ⟨line, cause, rfl⟩ := parse_eq_error hparse
      exact .inl ⟨line, cause, rfl⟩
    | ok trees => exact .inr ⟨trees, rfl, fun _ => parse_lineages_length hparse⟩
  · rintro ⟨bound, hbound⟩
    refine ⟨bound + 1, fun lexemes hmem trees hparse lineage hlineage => ?_⟩
    obtain ⟨entry, hentry, hdepth⟩ := Forest.exists_mem_outline hlineage
    have hle := hbound lexemes hmem trees hparse entry hentry
    have hcount : lineage.count .typeArgs ≤ lineage.length := List.count_le_length
    omega
  · rintro ⟨bound, hbound⟩
    refine ⟨6 * (maxNesting + 1) + 2 * bound, fun lexemes hmem trees hparse entry hentry => ?_⟩
    obtain htop | ⟨lineage, hlineage, hdepth⟩ := Forest.depth_of_mem_outline [] hentry
    · rw [htop]
      exact Nat.zero_le _
    · have hlength := parse_lineages_length hparse hlineage
      have hle := hbound lexemes hmem trees hparse lineage hlineage
      omega

/-- There is no bound on the depth of the trees of all files: a class may extend a type with any number
of type arguments inside each other. -/
theorem trees_are_not_bounded :
    ¬ ∃ bound, ∀ lexemes trees, parse lexemes = .ok trees →
      ∀ entry ∈ (fileTree trees).outline 0, entry.1 ≤ bound := by
  rintro ⟨bound, hbound⟩
  obtain ⟨trees, hparse, lineage, hlineage, hlength⟩ := Rule.exists_parse_nestedFile (bound + 1)
  obtain ⟨entry, hentry, hdepth⟩ := Forest.exists_mem_outline hlineage
  have hle := hbound _ trees hparse entry hentry
  omega

end JavaLint
