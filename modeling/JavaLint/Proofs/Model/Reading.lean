import JavaLint.Proofs.Grammar.Owners
import JavaLint.Proofs.Layout.Sketch
import Mathlib.Tactic.Common

/-!
# The reading of a tree

What a word means can be read off the tree: from the nodes around it and, if it is a declared name,
from the modifier list of the declaration.  `reading` says how, for one word and without a walk.

In the middle of a tree some names are not yet known: those whose declaration is around the place
(`knownIn`).  What a part of the tree adds to the declarations around it is described by `openNames`,
`openModifiers` and `openAnnotations`.  What is open inside a node that declares names is just what
the reading finds in its modifier list (`open_inside`).
-/

namespace JavaLint

/-! ## Places and owners -/

/-- The leaves of a forest in document order, each with the nodes around it. -/
def Forest.places (path : Ancestry) : Forest Lexeme → List (Ancestry × Lexeme)
  | .nil => []
  | .leaf l rest => (path, l) :: places path rest
  | .node kind inside rest => places (⟨kind, inside⟩ :: path) inside ++ places path rest

/-- The declaration to which a name belongs. -/
structure Owner where
  /-- The node of the declaration. -/
  node : Ancestor
  /-- What the declaration makes of the name. -/
  role : Role
  /-- The nodes around the declaration. -/
  around : Ancestry

/-- The owner of a word, if it is a declared name with a role: the node around the node of the name,
or the one around that if the name stands in a declarator. -/
def owner? : Ancestry → Option Owner
  | name :: declarator :: owner :: around =>
    if name.kind ≠ .name then none
    else if declarator.kind = .variableDeclarator then
      owner.kind.variableRole?.map (⟨owner, ·, around⟩)
    else declarator.kind.nameRole?.map (⟨declarator, ·, owner :: around⟩)
  | [name, owner] => if name.kind ≠ .name then none else owner.kind.nameRole?.map (⟨owner, ·, []⟩)
  | _ => none

/-- The walk notes a name if it has an owner. -/
lemma notedNames_eq (path : Ancestry) (number : Nat) :
    Builder.notedNames path number = ((owner? path).map fun o => (number, o.role)).toList := by
  match path with
  | [] => rfl
  | [name] => by_cases h : name.kind = .name <;> simp [Builder.notedNames, owner?, h, nameRole?]
  | [name, owner] =>
    by_cases h : name.kind = .name <;>
      simp [Builder.notedNames, owner?, h, nameRole?, Option.map_map, Function.comp_def]
  | name :: declarator :: owner :: around =>
    by_cases h : name.kind = .name
    · by_cases hd : declarator.kind = .variableDeclarator <;>
        simp [Builder.notedNames, owner?, h, hd, nameRole?, Option.map_map, Function.comp_def]
    · simp [Builder.notedNames, owner?, h]

/-- The owner declares the name that stands in the innermost of the given nodes, directly or with a
declarator. -/
inductive Owner.Owns (o : Owner) : Ancestry → Prop
  | directly {name : Ancestor} (hname : name.kind = .name)
      (hrole : o.node.kind.nameRole? = some o.role) : o.Owns (name :: o.node :: o.around)
  | byDeclarator {name declarator : Ancestor} (hname : name.kind = .name)
      (hdeclarator : declarator.kind = .variableDeclarator)
      (hrole : o.node.kind.variableRole? = some o.role) :
      o.Owns (name :: declarator :: o.node :: o.around)

/-- The owner that is found is the one that declares the name. -/
lemma owner?_eq_some_iff {path : Ancestry} {o : Owner} : owner? path = some o ↔ o.Owns path := by
  constructor
  · intro h
    match path with
    | [] => simp [owner?] at h
    | [_] => simp [owner?] at h
    | [name, owner] =>
      simp only [owner?, ite_not, Option.ite_none_right_eq_some] at h
      obtain ⟨hname, h⟩ := h
      obtain ⟨role, hrole, rfl⟩ := Option.map_eq_some_iff.1 h
      exact .directly hname hrole
    | name :: declarator :: owner :: around =>
      simp only [owner?, ite_not, Option.ite_none_right_eq_some] at h
      obtain ⟨hname, h⟩ := h
      split at h
      · rename_i hdeclarator
        obtain ⟨role, hrole, rfl⟩ := Option.map_eq_some_iff.1 h
        exact .byDeclarator hname hdeclarator hrole
      · obtain ⟨role, hrole, rfl⟩ := Option.map_eq_some_iff.1 h
        exact .directly hname hrole
  · intro h
    obtain ⟨node, role, around⟩ := o
    cases h with
    | byDeclarator hname hdeclarator hrole => simp_all [owner?]
    | directly hname hrole =>
      have hnode : node.kind ≠ .variableDeclarator := by
        intro hkind
        simp [hkind, NodeKind.nameRole?] at hrole
      cases around <;> simp_all [owner?]

/-- An owner declares names, and the nodes between it and the word do not. -/
lemma owner?_split {path : Ancestry} {o : Owner} (h : owner? path = some o) :
    o.node.kind.declaresNames = true ∧ ∃ between, path = between ++ o.node :: o.around ∧
      ∀ a ∈ between, a.kind.declaresNames = false := by
  cases owner?_eq_some_iff.1 h with
  | @directly name hname hrole =>
    refine ⟨NodeKind.declaresNames_of_nameRole? hrole, [name], rfl, ?_⟩
    simp [hname, NodeKind.declaresNames, NodeKind.isTypeDecl]
  | @byDeclarator name declarator hname hdeclarator hrole =>
    refine ⟨NodeKind.declaresNames_of_variableRole? hrole, [name, declarator], rfl, ?_⟩
    simp [hname, hdeclarator, NodeKind.declaresNames, NodeKind.isTypeDecl]

/-! ## The reading -/

/-- The modifier that a word is. -/
def Kind.modifier? : Kind → Option Keyword
  | .keyword k => if k.isModifier then some k else none
  | _ => none

namespace Ancestor

/-- The modifier list of a node, which may be empty. -/
def modifierList (a : Ancestor) : Forest Lexeme :=
  (a.inside.child? .modifiers).getD .nil

/-- The modifiers that stand directly in the modifier list of a node. -/
def modifiers (a : Ancestor) : List Keyword :=
  a.modifierList.ownLeaves.filterMap fun l => l.kind.modifier?

/-- The names of the annotations that stand directly in the modifier list of a node. -/
def annotations (a : Ancestor) : List String :=
  (a.modifierList.children .annotationUse).map Forest.annotationName

end Ancestor

/-- What a declaration makes of its names. -/
def Owner.classification (o : Owner) : Classification where
  role := o.role
  modifiers := o.node.modifiers ++
    if isImplicitConstant o.node.kind o.around then implicitModifiers else []
  annotations := o.node.annotations

/-- What a word is by itself and by the node in which it stands. -/
def plainReading (path : Ancestry) (kind : Kind) : Classification where
  role := if Builder.losesRole path kind then .other else Role.ofKind kind

/-- What a word is. -/
def reading (path : Ancestry) (kind : Kind) : Classification :=
  match owner? path with
  | some o => o.classification
  | none => plainReading path kind

/-- What a word is as far as it is known inside `base`: names whose declaration is one of the nodes
of `base` are not known yet. -/
def knownIn (base path : Ancestry) (kind : Kind) : Classification :=
  match owner? path with
  | some o => if base.length ≤ o.around.length then o.classification else plainReading path kind
  | none => plainReading path kind

/-! ## What is open -/

/-- The name that a word is, if its declaration is one of the nodes of `base`. -/
def openName (base path : Ancestry) (number : Nat) : Option (Nat × Role) :=
  (owner? path).bind fun o =>
    if o.around.length < base.length then some (number, o.role) else none

/-- The names in a forest inside `base` whose declaration is one of the nodes of `base`, where the
words of the forest are numbered from `count` on. -/
def openNames (base : Ancestry) (f : Forest Lexeme) (count : Nat) : List (Nat × Role) :=
  ((f.places base).zipIdx count).filterMap fun entry => openName base entry.1.1 entry.2

/-- The modifiers in a forest inside `base` that belong to one of the nodes of `base`. -/
def openModifiers (base : Ancestry) : Forest Lexeme → List Keyword
  | .nil => []
  | .leaf l rest => Builder.notedModifiers base l.kind ++ openModifiers base rest
  | .node kind inside rest =>
    (if kind.declaresNames then [] else openModifiers (⟨kind, inside⟩ :: base) inside) ++
      openModifiers base rest

/-- The annotations in a forest inside `base` that belong to one of the nodes of `base`. -/
def openAnnotations (base : Ancestry) : Forest Lexeme → List String
  | .nil => []
  | .leaf _ rest => openAnnotations base rest
  | .node kind inside rest =>
    Builder.notedAnnotations base kind inside ++
      (if kind.declaresNames then [] else openAnnotations (⟨kind, inside⟩ :: base) inside) ++
      openAnnotations base rest

/-! ### Names -/

namespace Forest

/-- There is one place for each leaf. -/
@[simp] lemma length_places (path : Ancestry) (f : Forest Lexeme) :
    (f.places path).length = f.leaves.length := by
  induction f generalizing path with
  | nil => rfl
  | leaf l rest ih => simp [places, leaves, ih]
  | node k inside rest ihInside ihRest => simp [places, leaves, ihInside, ihRest]

/-- The places of two sequences of trees. -/
lemma places_append (path : Ancestry) (f g : Forest Lexeme) :
    (f ++ g).places path = f.places path ++ g.places path := by
  induction f with
  | nil => rfl
  | leaf l rest ih => simp [places, ih]
  | node k inside rest _ ih => simp [places, ih]

/-- A place in a forest lies inside all nodes around the forest. -/
lemma suffix_of_mem_places {path : Ancestry} {f : Forest Lexeme} {place : Ancestry × Lexeme}
    (h : place ∈ f.places path) : path <:+ place.1 := by
  induction f generalizing path with
  | nil => simp [places] at h
  | leaf l rest ih =>
    rcases List.mem_cons.1 h with rfl | h
    · exact List.suffix_refl _
    · exact ih h
  | node k inside rest ihInside ihRest =>
    rcases List.mem_append.1 h with h | h
    · exact (List.suffix_cons _ _).trans (ihInside h)
    · exact ihRest h

end Forest

/-- If the innermost node around a forest declares names, then the owners of the names in the forest
are not further out. -/
lemma length_le_of_owner? {a : Ancestor} {base path : Ancestry} {o : Owner}
    (hdeclares : a.kind.declaresNames = true) (hsuffix : a :: base <:+ path)
    (ho : owner? path = some o) : base.length ≤ o.around.length := by
  obtain ⟨-, between, rfl, hbetween⟩ := owner?_split ho
  obtain ⟨inner, hinner⟩ := hsuffix
  rcases List.append_eq_append_iff.1 hinner with ⟨mid, rfl, hmid⟩ | ⟨mid, -, hmid⟩
  · -- The node itself would lie between the name and its owner.
    cases mid with
    | nil =>
      have hlength := congrArg List.length hmid
      simp only [List.nil_append, List.length_cons] at hlength
      omega
    | cons a' mid =>
      obtain ⟨rfl, -⟩ := List.cons.inj hmid
      have hnot := hbetween a (by simp)
      simp [hdeclares] at hnot
  · have hlength := congrArg List.length hmid
    simp only [List.length_append, List.length_cons] at hlength
    omega

/-- If the owner of a name is just as far out as the innermost node around a forest, then it is this
node. -/
lemma eq_of_owner? {a : Ancestor} {base path : Ancestry} {o : Owner}
    (hsuffix : a :: base <:+ path) (ho : owner? path = some o)
    (hlength : o.around.length = base.length) : o.node = a ∧ o.around = base := by
  obtain ⟨-, between, rfl, -⟩ := owner?_split ho
  have hlength' : (o.node :: o.around).length = (a :: base).length := by simp [hlength]
  have hsuffix' := List.suffix_of_suffix_length_le (List.suffix_append between _) hsuffix
    hlength'.le
  simpa using hsuffix'.eq_of_length hlength'

/-- The name that is open in a leaf directly inside `base`. -/
lemma openName_self (base : Ancestry) (number : Nat) :
    openName base base number = (owner? base).map fun o => (number, o.role) := by
  unfold openName
  cases ho : owner? base with
  | none => rfl
  | some o =>
    obtain ⟨-, between, hbase, -⟩ := owner?_split ho
    have hlt : o.around.length < base.length := by
      rw [hbase, List.length_append, List.length_cons]
      omega
    simp [hlt]

/-- A name inside a node is open if it is open inside what is around the node, unless the node
declares names: then none is. -/
lemma openName_node {base path : Ancestry} {a : Ancestor} (hsuffix : a :: base <:+ path)
    (number : Nat) :
    openName base path number =
      if a.kind.declaresNames then none else openName (a :: base) path number := by
  unfold openName
  cases ho : owner? path with
  | none => simp
  | some o =>
    cases hdeclares : a.kind.declaresNames with
    | true =>
      have hle := length_le_of_owner? hdeclares hsuffix ho
      simp [hle]
    | false =>
      have hne : o.around.length ≠ base.length := by
        intro hlength
        obtain ⟨rfl, -⟩ := eq_of_owner? hsuffix ho hlength
        simp [(owner?_split ho).1] at hdeclares
      have hiff : o.around.length < base.length ↔ o.around.length < (a :: base).length := by
        rw [List.length_cons]
        omega
      simp only [Option.bind_some, hiff, Bool.false_eq_true, if_false]

/-- The name that is open in a single leaf. -/
lemma openNames_leaf (base : Ancestry) (l : Lexeme) (count : Nat) :
    openNames base (.leaf l .nil) count = Builder.notedNames base count := by
  rw [notedNames_eq, ← openName_self]
  simp only [openNames, Forest.places, List.zipIdx_cons, List.zipIdx_nil, List.filterMap_cons]
  cases openName base base count <;> rfl

/-- The names that are open in a single node. -/
lemma openNames_node (base : Ancestry) (kind : NodeKind) (inside : Forest Lexeme) (count : Nat) :
    openNames base (.node kind inside .nil) count =
      if kind.declaresNames then [] else openNames (⟨kind, inside⟩ :: base) inside count := by
  have hentry : ∀ entry ∈ (inside.places (⟨kind, inside⟩ :: base)).zipIdx count,
      openName base entry.1.1 entry.2 = if kind.declaresNames then none
        else openName (⟨kind, inside⟩ :: base) entry.1.1 entry.2 :=
    fun entry hentry =>
      openName_node (Forest.suffix_of_mem_places (List.fst_mem_of_mem_zipIdx hentry)) entry.2
  rw [openNames, Forest.places, Forest.places, List.append_nil, List.filterMap_congr hentry]
  cases kind.declaresNames with
  | true => simp
  | false => rfl

/-- The names that are open in two sequences of trees. -/
lemma openNames_append (base : Ancestry) (f g : Forest Lexeme) (count : Nat) :
    openNames base (f ++ g) count =
      openNames base f count ++ openNames base g (count + f.leaves.length) := by
  rw [openNames, Forest.places_append, List.zipIdx_append, List.filterMap_append,
    Forest.length_places]
  rfl

/-! ### Modifiers and annotations -/

/-- The innermost node is the modifier list of a node that declares names. -/
def isModifierList : Ancestry → Bool
  | list :: owner :: _ => list.kind = .modifiers && owner.kind.declaresNames
  | _ => false

/-- The modifiers that the walk notes are those in modifier lists. -/
lemma notedModifiers_eq (path : Ancestry) (kind : Kind) :
    Builder.notedModifiers path kind =
      if isModifierList path then kind.modifier?.toList else [] := by
  match path with
  | [] => rfl
  | [list] =>
    have hfile : NodeKind.sourceFile.declaresNames = false := rfl
    cases kind <;> simp [Builder.notedModifiers, isModifierList, Ancestry.kind, hfile]
  | list :: owner :: rest =>
    by_cases hlist : list.kind = .modifiers
    · cases hdeclares : owner.kind.declaresNames with
      | false =>
        cases kind <;>
          simp [Builder.notedModifiers, isModifierList, Ancestry.kind, hlist, hdeclares]
      | true =>
        cases kind with
        | keyword k =>
          cases hk : k.isModifier <;>
            simp [Builder.notedModifiers, isModifierList, Ancestry.kind, hlist, hdeclares,
              Kind.modifier?, hk]
        | _ =>
          simp [Builder.notedModifiers, isModifierList, hlist, hdeclares, Kind.modifier?]
    · simp [Builder.notedModifiers, isModifierList, hlist]

/-- The annotations that the walk notes are those in modifier lists. -/
lemma notedAnnotations_eq (path : Ancestry) (kind : NodeKind) (inside : Forest Lexeme) :
    Builder.notedAnnotations path kind inside =
      if isModifierList path ∧ kind = .annotationUse then [inside.annotationName] else [] := by
  match path with
  | [] => simp [Builder.notedAnnotations, isModifierList]
  | [_] => simp [Builder.notedAnnotations, isModifierList]
  | list :: owner :: rest =>
    by_cases hkind : kind = .annotationUse <;>
      simp [Builder.notedAnnotations, isModifierList, hkind]

/-- What is collected in two sequences of trees. -/
lemma open_append (base : Ancestry) (f g : Forest Lexeme) :
    openModifiers base (f ++ g) = openModifiers base f ++ openModifiers base g ∧
      openAnnotations base (f ++ g) = openAnnotations base f ++ openAnnotations base g := by
  induction f with
  | nil => exact ⟨rfl, rfl⟩
  | leaf l rest ih => simp [openModifiers, openAnnotations, ih]
  | node k inside rest _ ih => simp [openModifiers, openAnnotations, ih]

/-- Nothing is collected in a node that neither declares names nor is the modifier list of one that
does, as far as it belongs to the nodes around. -/
lemma open_eq_nil (path : Ancestry) (hkind : (Ancestry.kind path).declaresNames = false)
    (hlist : isModifierList path = false) (f : Forest Lexeme) :
    openModifiers path f = [] ∧ openAnnotations path f = [] := by
  induction f generalizing path with
  | nil => exact ⟨rfl, rfl⟩
  | leaf l rest ih =>
    obtain ⟨hmodifiers, hannotations⟩ := ih path hkind hlist
    exact ⟨by simp [openModifiers, notedModifiers_eq, hlist, hmodifiers], hannotations⟩
  | node k inside rest ihInside ihRest =>
    obtain ⟨hmodifiers, hannotations⟩ := ihRest path hkind hlist
    cases hk : k.declaresNames with
    | true =>
      simp [openModifiers, openAnnotations, notedAnnotations_eq, hlist, hk, hmodifiers,
        hannotations]
    | false =>
      have hlist' : isModifierList (⟨k, inside⟩ :: path) = false := by
        cases path with
        | nil => rfl
        | cons a path =>
          have ha : a.kind.declaresNames = false := hkind
          simp [isModifierList, ha]
      obtain ⟨hmodifiers', hannotations'⟩ := ihInside (⟨k, inside⟩ :: path) hk hlist'
      simp [openModifiers, openAnnotations, notedAnnotations_eq, hlist, hk, hmodifiers,
        hannotations, hmodifiers', hannotations']

/-- What is collected in the modifier list of a node that declares names stands directly in it. -/
lemma open_of_isModifierList (path : Ancestry) (hlist : isModifierList path = true)
    (f : Forest Lexeme) :
    openModifiers path f = f.ownLeaves.filterMap (fun l => l.kind.modifier?) ∧
      openAnnotations path f = (f.children .annotationUse).map Forest.annotationName := by
  have hhead : (Ancestry.kind path).declaresNames = false := by
    match path with
    | [] => rfl
    | [_] => simp [isModifierList] at hlist
    | list :: owner :: _ =>
      have hkind : list.kind = .modifiers := by simp_all [isModifierList]
      rw [Ancestry.kind, hkind]
      rfl
  induction f with
  | nil => exact ⟨rfl, rfl⟩
  | leaf l rest ih =>
    obtain ⟨hmodifiers, hannotations⟩ := ih
    refine ⟨?_, hannotations⟩
    rw [openModifiers, notedModifiers_eq, hlist, if_pos rfl, hmodifiers, Forest.ownLeaves,
      List.filterMap_cons]
    cases l.kind.modifier? <;> rfl
  | node k inside rest _ ih =>
    obtain ⟨hmodifiers, hannotations⟩ := ih
    have hinside : k.declaresNames = false → openModifiers (⟨k, inside⟩ :: path) inside = [] ∧
        openAnnotations (⟨k, inside⟩ :: path) inside = [] := by
      intro hk
      refine open_eq_nil (⟨k, inside⟩ :: path) hk ?_ inside
      cases path with
      | nil => rfl
      | cons a path =>
        have ha : a.kind.declaresNames = false := hhead
        simp [isModifierList, ha]
    have hown : (if k.declaresNames then [] else openModifiers (⟨k, inside⟩ :: path) inside) = [] ∧
        (if k.declaresNames then [] else openAnnotations (⟨k, inside⟩ :: path) inside) = [] := by
      cases hk : k.declaresNames with
      | true => simp
      | false => simpa using hinside hk
    refine ⟨by rw [openModifiers, hown.1, hmodifiers]; rfl, ?_⟩
    rw [openAnnotations, hown.2, hannotations, notedAnnotations_eq, hlist]
    by_cases hk : k = .annotationUse <;> simp [Forest.children, hk]

/-- What is collected for a node that declares names stands in its modifier lists. -/
lemma open_of_declaresNames {a : Ancestor} (ha : a.kind.declaresNames = true) (base : Ancestry)
    (f : Forest Lexeme) :
    openModifiers (a :: base) f = (f.children .modifiers).flatMap (fun list =>
        list.ownLeaves.filterMap fun l => l.kind.modifier?) ∧
      openAnnotations (a :: base) f = (f.children .modifiers).flatMap (fun list =>
        (list.children .annotationUse).map Forest.annotationName) := by
  have hlist : isModifierList (a :: base) = false := by
    cases base with
    | nil => rfl
    | cons owner base =>
      have hne : a.kind ≠ .modifiers := by
        intro hkind
        rw [hkind] at ha
        exact Bool.false_ne_true ha
      simp [isModifierList, hne]
  induction f with
  | nil => exact ⟨rfl, rfl⟩
  | leaf l rest ih =>
    obtain ⟨hmodifiers, hannotations⟩ := ih
    exact ⟨by simp [openModifiers, notedModifiers_eq, hlist, hmodifiers, Forest.children],
      hannotations⟩
  | node k inside rest _ ih =>
    obtain ⟨hmodifiers, hannotations⟩ := ih
    by_cases hk : k = .modifiers
    · subst hk
      have hinside := open_of_isModifierList (⟨.modifiers, inside⟩ :: a :: base)
        (by simp [isModifierList, ha]) inside
      have hdeclares : NodeKind.modifiers.declaresNames = false := rfl
      simp [openModifiers, openAnnotations, notedAnnotations_eq, hlist, hdeclares, hmodifiers,
        hannotations, hinside, Forest.children]
    · cases hdeclares : k.declaresNames with
      | true =>
        simp [openModifiers, openAnnotations, notedAnnotations_eq, hlist, hdeclares, hmodifiers,
          hannotations, Forest.children, hk]
      | false =>
        have hinside := open_eq_nil (⟨k, inside⟩ :: a :: base) hdeclares
          (by simp [isModifierList, hk]) inside
        simp [openModifiers, openAnnotations, notedAnnotations_eq, hlist, hdeclares, hmodifiers,
          hannotations, hinside, Forest.children, hk]

/-- What is collected for a node that declares names and has a single modifier list stands there. -/
lemma open_inside {a : Ancestor} (ha : a.kind.declaresNames = true) (base : Ancestry)
    (hsingle : (a.inside.children .modifiers).length ≤ 1) :
    openModifiers (a :: base) a.inside = a.modifiers ∧
      openAnnotations (a :: base) a.inside = a.annotations := by
  obtain ⟨hmodifiers, hannotations⟩ := open_of_declaresNames ha base a.inside
  rw [hmodifiers, hannotations, Ancestor.modifiers, Ancestor.annotations, Ancestor.modifierList,
    Forest.child?]
  rcases hlists : a.inside.children .modifiers with _ | ⟨list, _ | ⟨list', lists⟩⟩
  · simp [Forest.ownLeaves, Forest.children]
  · simp
  · simp [hlists] at hsingle

end JavaLint
