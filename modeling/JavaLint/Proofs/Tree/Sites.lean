import JavaLint.Proofs.Tree.Shape
import Mathlib.Tactic.Common

/-!
# The nodes of a tree in document order

A `Site` is a node of a tree that knows how many leaves stand before it, so the first leaf of code in
it has a number in the tree.  The nodes whose declarations are recorded have different first leaves,
in the order of the nodes: this is `sites_pairwise`, and it is true of nodes inside each other because
none of them comes first in another one.
-/

namespace JavaLint

/-- A node of a tree, with the number of leaves before it. -/
structure Site where
  kind : NodeKind
  inside : Forest Lexeme
  before : Nat

namespace Forest

/-- The nodes of a forest in document order, if so many leaves stand before the forest. -/
def sites (before : Nat) : Forest Lexeme → List Site
  | nil => []
  | leaf _ rest => sites (before + 1) rest
  | node kind inside rest =>
    ⟨kind, inside, before⟩ :: (sites before inside ++ sites (before + inside.leaves.length) rest)

/-- The nodes of the given kind at the top of a forest, if so many leaves stand before the forest. -/
def sitesOf (k : NodeKind) (before : Nat) : Forest Lexeme → List Site
  | nil => []
  | leaf _ rest => sitesOf k (before + 1) rest
  | node kind inside rest =>
    (if kind = k then [⟨kind, inside, before⟩] else []) ++
      sitesOf k (before + inside.leaves.length) rest

/-- The number of the first leaf of code in a forest, if so many leaves stand before the forest. -/
def firstCode? (before : Nat) (f : Forest Lexeme) : Option Nat :=
  (f.leaves.findIdx? fun l => !l.isTrivia).map (before + ·)

end Forest

namespace Site

/-- The number of the first leaf of code in the node. -/
def first? (s : Site) : Option Nat :=
  s.inside.firstCode? s.before

/-- The number of leaves before the end of the node. -/
def stop (s : Site) : Nat :=
  s.before + s.inside.leaves.length

/-- The names that the node declares: those of the declarators of a field, and the name directly
inside any other node. -/
def names (s : Site) : List Site :=
  if s.kind = .fieldDecl then
    (s.inside.sitesOf .variableDeclarator s.before).flatMap fun d =>
      d.inside.sitesOf .name d.before
  else s.inside.sitesOf .name s.before

/-- The first leaf of code in the one node comes before that in the other. -/
def StartsBefore (s t : Site) : Prop :=
  ∀ m n, s.first? = some m → t.first? = some n → m < n

end Site

namespace Forest

variable {f : Forest Lexeme} {before m : Nat} {s t : Site} {k : NodeKind}

/-! ## The first leaf of code -/

/-- The first leaf of code after a single leaf. -/
lemma firstCode?_leaf (before : Nat) (l : Lexeme) (rest : Forest Lexeme) :
    (leaf l rest).firstCode? before =
      if l.isTrivia then rest.firstCode? (before + 1) else some before := by
  cases hl : l.isTrivia with
  | true => simp [firstCode?, leaves, List.findIdx?_cons, hl, Function.comp_def, Nat.add_comm 1,
      Nat.add_assoc]
  | false => simp [firstCode?, leaves, List.findIdx?_cons, hl]

/-- The first leaf of code in a single node. -/
lemma firstCode?_node (before : Nat) (kind : NodeKind) (inside : Forest Lexeme) :
    (node kind inside nil).firstCode? before = inside.firstCode? before := by
  simp [firstCode?, leaves]

/-- The first leaf of code in two sequences. -/
lemma firstCode?_append (before : Nat) (f g : Forest Lexeme) :
    (f ++ g).firstCode? before =
      (f.firstCode? before).or (g.firstCode? (before + f.leaves.length)) := by
  simp only [firstCode?, leaves_append, List.findIdx?_append]
  cases f.leaves.findIdx? fun l => !l.isTrivia with
  | some i => simp
  | none =>
    simp only [Option.map_map, Option.map_none, Option.none_or, Function.comp_def]
    congr 1
    funext i
    omega

/-- The first leaf of code is one of the leaves, and it is code. -/
lemma getElem?_of_firstCode? (h : f.firstCode? before = some m) :
    ∃ i l, m = before + i ∧ f.leaves[i]? = some l ∧ l.isTrivia = false := by
  obtain ⟨i, hi, rfl⟩ := Option.map_eq_some_iff.1 h
  obtain ⟨hlt, hcode, -⟩ := List.findIdx?_eq_some_iff_getElem.1 hi
  exact ⟨i, f.leaves[i], rfl, List.getElem?_eq_getElem hlt, by simpa using hcode⟩

/-- The first leaf of code lies in the forest. -/
lemma firstCode?_bounds (h : f.firstCode? before = some m) :
    before ≤ m ∧ m < before + f.leaves.length := by
  obtain ⟨i, l, rfl, hl, -⟩ := getElem?_of_firstCode? h
  have hlt := (List.getElem?_eq_some_iff.1 hl).1
  omega

/-- A forest with code in it has a first leaf of code. -/
lemma exists_firstCode? (before : Nat) (h : f.bare.leaves ≠ []) :
    ∃ m, f.firstCode? before = some m := by
  obtain ⟨l, hl⟩ := List.exists_mem_of_ne_nil _ h
  rw [bare_leaves] at hl
  obtain ⟨l', hl', -⟩ := List.mem_map.1 hl
  obtain ⟨hmem, hcode⟩ := List.mem_filter.1 hl'
  cases hfirst : f.leaves.findIdx? fun l => !l.isTrivia with
  | some i => exact ⟨before + i, by rw [firstCode?, hfirst]; rfl⟩
  | none =>
    have htrivia := List.findIdx?_eq_none_iff.1 hfirst l' hmem
    rw [hcode] at htrivia
    cases htrivia

/-! ## The nodes of a forest -/

/-- The nodes of two sequences are those of the one and then those of the other. -/
lemma sites_append (before : Nat) (f g : Forest Lexeme) :
    (f ++ g).sites before = f.sites before ++ g.sites (before + f.leaves.length) := by
  induction f generalizing before with
  | nil => rfl
  | leaf l rest ih =>
    simp only [leaf_append, sites, leaves, List.length_cons, ih]
    congr 2
    omega
  | node kind inside rest _ ih =>
    simp only [node_append, sites, leaves, List.length_append, ih, List.cons_append,
      List.append_assoc, Nat.add_assoc]

/-- Where the node lies. -/
lemma bounds_of_mem_sites (h : s ∈ f.sites before) :
    before ≤ s.before ∧ s.stop ≤ before + f.leaves.length := by
  induction f generalizing before with
  | nil => cases h
  | leaf l rest ih =>
    obtain ⟨hstart, hstop⟩ := ih h
    simp only [leaves, List.length_cons]
    omega
  | node kind inside rest ihInside ihRest =>
    simp only [leaves, List.length_append]
    rcases List.mem_cons.1 h with rfl | h
    · simp only [Site.stop]
      omega
    · rcases List.mem_append.1 h with h | h
      · obtain ⟨hstart, hstop⟩ := ihInside h
        omega
      · obtain ⟨hstart, hstop⟩ := ihRest h
        omega

/-- The leaves of a node are leaves of the forest. -/
lemma getElem?_of_mem_sites (h : s ∈ f.sites before) :
    ∃ i, s.before = before + i ∧
      ∀ j l, s.inside.leaves[j]? = some l → f.leaves[i + j]? = some l := by
  induction f generalizing before with
  | nil => cases h
  | leaf l rest ih =>
    obtain ⟨i, hi, hleaves⟩ := ih h
    refine ⟨i + 1, by omega, fun j l' hj => ?_⟩
    rw [leaves, Nat.add_right_comm]
    exact hleaves j l' hj
  | node kind inside rest ihInside ihRest =>
    rcases List.mem_cons.1 h with rfl | h
    · refine ⟨0, rfl, fun j l hj => ?_⟩
      rw [leaves, Nat.zero_add, List.getElem?_append_left (List.getElem?_eq_some_iff.1 hj).1]
      exact hj
    · rcases List.mem_append.1 h with h | h
      · obtain ⟨i, hi, hleaves⟩ := ihInside h
        refine ⟨i, hi, fun j l hj => ?_⟩
        have hget := hleaves j l hj
        rw [leaves, List.getElem?_append_left (List.getElem?_eq_some_iff.1 hget).1]
        exact hget
      · obtain ⟨i, hi, hleaves⟩ := ihRest h
        refine ⟨inside.leaves.length + i, by omega, fun j l hj => ?_⟩
        rw [leaves, Nat.add_assoc, List.getElem?_append_right (Nat.le_add_right _ _),
          Nat.add_sub_cancel_left]
        exact hleaves j l hj

/-- Where the first leaf of code of a node lies. -/
lemma bounds_of_first? (h : s ∈ f.sites before) (hfirst : s.first? = some m) :
    before ≤ m ∧ m < before + f.leaves.length := by
  obtain ⟨hstart, hstop⟩ := bounds_of_mem_sites h
  obtain ⟨hle, hlt⟩ := firstCode?_bounds hfirst
  simp only [Site.stop] at hstop
  omega

/-- The nodes inside a node are nodes of the forest. -/
lemma mem_sites_of_mem_inside (hs : s ∈ f.sites before) (ht : t ∈ s.inside.sites s.before) :
    t ∈ f.sites before := by
  induction f generalizing before with
  | nil => cases hs
  | leaf l rest ih => exact ih hs
  | node kind inside rest ihInside ihRest =>
    refine List.mem_cons_of_mem _ (List.mem_append.2 ?_)
    rcases List.mem_cons.1 hs with rfl | hs
    · exact .inl ht
    · exact (List.mem_append.1 hs).imp ihInside ihRest

/-- The nodes at the top are nodes of the forest. -/
lemma mem_sites_of_mem_sitesOf (h : s ∈ f.sitesOf k before) : s ∈ f.sites before ∧ s.kind = k := by
  induction f generalizing before with
  | nil => cases h
  | leaf l rest ih => exact ih h
  | node kind inside rest _ ih =>
    rcases List.mem_append.1 h with h | h
    · split at h
      · obtain rfl := List.mem_singleton.1 h
        exact ⟨List.mem_cons_self, ‹_›⟩
      · cases h
    · obtain ⟨hmem, hkind⟩ := ih h
      exact ⟨List.mem_cons_of_mem _ (List.mem_append_right _ hmem), hkind⟩

/-- What stands inside the nodes at the top. -/
lemma map_inside_sitesOf (k : NodeKind) (before : Nat) (f : Forest Lexeme) :
    (f.sitesOf k before).map Site.inside = f.children k := by
  induction f generalizing before with
  | nil => rfl
  | leaf l rest ih => exact ih (before + 1)
  | node kind inside rest _ ih =>
    rw [sitesOf, children, List.map_append, ih]
    split <;> rfl

/-- The nodes at the top come one after the other. -/
lemma sitesOf_pairwise (k : NodeKind) (before : Nat) (f : Forest Lexeme) :
    (f.sitesOf k before).Pairwise fun s t => s.stop ≤ t.before := by
  induction f generalizing before with
  | nil => exact .nil
  | leaf l rest ih => exact ih (before + 1)
  | node kind inside rest _ ih =>
    refine List.pairwise_append.2 ⟨by split <;> simp, ih _, fun s hs t ht => ?_⟩
    split at hs
    · obtain rfl := List.mem_singleton.1 hs
      exact (bounds_of_mem_sites (mem_sites_of_mem_sitesOf ht).1).1
    · cases hs

/-- The nodes of a forest have code in them if those of its bare form have. -/
lemma full_of_mem_sites (hfull : f.bare.NodesFull) (h : s ∈ f.sites before) :
    s.inside.bare.leaves ≠ [] ∧ s.inside.bare.NodesFull := by
  induction f generalizing before with
  | nil => cases h
  | leaf l rest ih =>
    refine ih ?_ h
    cases hl : l.isTrivia <;> simpa [bare, hl, NodesFull] using hfull
  | node kind inside rest ihInside ihRest =>
    obtain ⟨hne, hinside, hrest⟩ := hfull
    rcases List.mem_cons.1 h with rfl | h
    · exact ⟨hne, hinside⟩
    · exact (List.mem_append.1 h).elim (ihInside hinside) (ihRest hrest)

/-- Every node has a first leaf of code. -/
lemma exists_first? (hfull : f.bare.NodesFull) (h : s ∈ f.sites before) :
    ∃ m, s.first? = some m :=
  exists_firstCode? s.before (full_of_mem_sites hfull h).1

/-- The nodes of a forest declare what they should if those of its bare form do. -/
lemma declares_of_mem_sites (hf : f.bare.Declaring) (h : s ∈ f.sites before) :
    Declares s.kind s.inside.bare := by
  induction f generalizing before with
  | nil => cases h
  | leaf l rest ih =>
    refine ih ?_ h
    cases hl : l.isTrivia <;> simpa [bare, hl, Declaring] using hf
  | node kind inside rest ihInside ihRest =>
    obtain ⟨hdeclares, hinside, hrest⟩ := hf
    rcases List.mem_cons.1 h with rfl | h
    · exact hdeclares
    · exact (List.mem_append.1 h).elim (ihInside hinside) (ihRest hrest)

/-- The names in a forest are single words if those around it are. -/
lemma namesSingle_of_mem_sites (hf : f.NamesSingle) (h : s ∈ f.sites before) :
    (s.kind = .name → ∃ l, s.inside = .leaf l .nil) ∧ s.inside.NamesSingle := by
  induction f generalizing before with
  | nil => cases h
  | leaf l rest ih => exact ih hf h
  | node kind inside rest ihInside ihRest =>
    obtain ⟨hname, hinside, hrest⟩ := hf
    rcases List.mem_cons.1 h with rfl | h
    · exact ⟨hname, hinside⟩
    · exact (List.mem_append.1 h).elim (ihInside hinside) (ihRest hrest)

/-! ## The order of recorded nodes -/

/-- If nothing recorded comes first, then the recorded nodes start after the first leaf of code. -/
lemma firstCode?_lt (hfull : f.bare.NodesFull) (hhead : f.bare.HeadPlain)
    (hs : s ∈ f.sites before) (hrecorded : s.kind.isRecorded = true) {first : Nat}
    (hfirst : f.firstCode? before = some first) (hm : s.first? = some m) : first < m := by
  induction f generalizing before with
  | nil => cases hs
  | leaf l rest ih =>
    rw [firstCode?_leaf] at hfirst
    cases hl : l.isTrivia with
    | true =>
      rw [hl, if_pos rfl] at hfirst
      rw [bare, if_pos hl] at hfull hhead
      exact ih hfull hhead hs hfirst
    | false =>
      rw [hl, if_neg Bool.false_ne_true] at hfirst
      obtain rfl := Option.some.inj hfirst
      have hrest : s ∈ rest.sites (before + 1) := hs
      exact (bounds_of_first? hrest hm).1
  | node kind inside rest ihInside _ =>
    obtain ⟨hplain, hinside⟩ := hhead
    obtain ⟨hne, hfullInside, -⟩ := hfull
    obtain ⟨first', hfirst'⟩ := exists_firstCode? before hne
    have hfirst'' : (node kind inside nil ++ rest).firstCode? before = some first := hfirst
    rw [firstCode?_append, firstCode?_node, hfirst', Option.some_or] at hfirst''
    obtain rfl := Option.some.inj hfirst''
    rcases List.mem_cons.1 hs with rfl | hs
    · rw [hplain] at hrecorded
      cases hrecorded
    · rcases List.mem_append.1 hs with hs | hs
      · exact ihInside hfullInside hinside hs hfirst'
      · exact Nat.lt_of_lt_of_le (firstCode?_bounds hfirst').2 (bounds_of_first? hs hm).1

/-- The recorded nodes start one after the other. -/
theorem sites_pairwise (hfull : f.bare.NodesFull) (hf : f.bare.Declaring) :
    ((f.sites before).filter fun s => s.kind.isRecorded).Pairwise Site.StartsBefore := by
  induction f generalizing before with
  | nil => exact .nil
  | leaf l rest ih =>
    refine ih ?_ ?_ <;> cases hl : l.isTrivia <;>
      simp_all [bare, NodesFull, Declaring]
  | node kind inside rest ihInside ihRest =>
    obtain ⟨hne, hfullInside, hfullRest⟩ := hfull
    obtain ⟨hdeclares, hinside, hrest⟩ := hf
    -- What is inside the node ends before what comes after it.
    have hacross : ∀ s ∈ (inside.sites before).filter fun s => s.kind.isRecorded,
        ∀ t ∈ (rest.sites (before + inside.leaves.length)).filter fun s => s.kind.isRecorded,
          s.StartsBefore t := by
      intro s hs t ht m n hm hn
      have hlt := (bounds_of_first? (List.mem_filter.1 hs).1 hm).2
      have hle := (bounds_of_first? (List.mem_filter.1 ht).1 hn).1
      omega
    have hall := List.pairwise_append.2 ⟨ihInside hfullInside hinside, ihRest hfullRest hrest,
      hacross⟩
    rw [sites, List.filter_cons, List.filter_append]
    split
    · rename_i hrecorded
      refine List.pairwise_cons.2 ⟨fun t ht m n hm hn => ?_, hall⟩
      rcases List.mem_append.1 ht with ht | ht
      · obtain ⟨hmem, hrecorded'⟩ := List.mem_filter.1 ht
        exact firstCode?_lt hfullInside (hdeclares.headPlain hrecorded) hmem hrecorded' hm hn
      · have hlt := (firstCode?_bounds hm).2
        have hle := (bounds_of_first? (List.mem_filter.1 ht).1 hn).1
        exact Nat.lt_of_lt_of_le hlt hle
    · exact hall

end Forest

namespace Site

variable {f : Forest Lexeme} {before : Nat} {s t : Site}

/-! ## Declared names -/

/-- A declared name of a node is the node of a name inside it. -/
lemma mem_sites_of_mem_names (h : t ∈ s.names) : t ∈ s.inside.sites s.before ∧ t.kind = .name := by
  unfold names at h
  split at h
  · obtain ⟨d, hd, ht⟩ := List.mem_flatMap.1 h
    obtain ⟨ht, hkind⟩ := Forest.mem_sites_of_mem_sitesOf ht
    exact ⟨Forest.mem_sites_of_mem_inside (Forest.mem_sites_of_mem_sitesOf hd).1 ht, hkind⟩
  · exact Forest.mem_sites_of_mem_sitesOf h

/-- Nodes that come one after the other start one after the other. -/
lemma startsBefore_of_le (hle : s.stop ≤ t.before) : s.StartsBefore t := by
  intro m n hm hn
  have hlt := (Forest.firstCode?_bounds hm).2
  have hle' := (Forest.firstCode?_bounds hn).1
  simp only [stop] at hle
  omega

/-- The declared names of a node come one after the other. -/
lemma names_pairwise (s : Site) : s.names.Pairwise StartsBefore := by
  unfold names
  split
  · refine List.pairwise_flatMap.2 ⟨fun d _ => ?_, ?_⟩
    · exact (Forest.sitesOf_pairwise .name d.before d.inside).imp startsBefore_of_le
    · refine (Forest.sitesOf_pairwise .variableDeclarator s.before s.inside).imp ?_
      intro d e hle x hx y hy
      have hx := (Forest.bounds_of_mem_sites (Forest.mem_sites_of_mem_sitesOf hx).1).2
      have hy := (Forest.bounds_of_mem_sites (Forest.mem_sites_of_mem_sitesOf hy).1).1
      exact startsBefore_of_le (Nat.le_trans hx (Nat.le_trans hle hy))
  · exact (Forest.sitesOf_pairwise .name s.before s.inside).imp startsBefore_of_le

/-- A recorded node declares a name, and if it is no field, only one. -/
lemma length_names (hf : f.bare.Declaring) (h : s ∈ f.sites before)
    (hrecorded : s.kind.isRecorded = true) :
    s.names ≠ [] ∧ (s.kind ≠ .fieldDecl → s.names.length = 1) := by
  have hone {s : Site} (h : s ∈ f.sites before) (hname : s.kind.hasName = true) :
      (s.inside.sitesOf .name s.before).length = 1 := by
    have hchildren := (Forest.declares_of_mem_sites hf h).name hname
    rw [Forest.children_bare, List.length_map] at hchildren
    rw [← hchildren, ← Forest.map_inside_sitesOf .name s.before, List.length_map]
  unfold names
  split
  · rename_i hfield
    refine ⟨?_, fun hne => absurd hfield hne⟩
    have hdeclarators := (Forest.declares_of_mem_sites hf h).declarator hfield
    rw [Forest.children_bare, ← Forest.map_inside_sitesOf .variableDeclarator s.before, Ne,
      List.map_eq_nil_iff, List.map_eq_nil_iff] at hdeclarators
    obtain ⟨d, hd⟩ := List.exists_mem_of_ne_nil _ hdeclarators
    obtain ⟨hmem, hkind⟩ := Forest.mem_sites_of_mem_sitesOf hd
    have hlength := hone (Forest.mem_sites_of_mem_inside h hmem) (by rw [hkind]; rfl)
    intro hnil
    rw [List.flatMap_eq_nil_iff.1 hnil d hd] at hlength
    cases hlength
  · rename_i hfield
    have hname : s.kind.hasName = true := by
      simp [NodeKind.hasName, hrecorded, hfield]
    have hlength := hone h hname
    refine ⟨?_, fun _ => hlength⟩
    intro hnil
    rw [hnil] at hlength
    cases hlength

end Site

end JavaLint
