import JavaLint.Proofs.Model.Reading
import Mathlib.Tactic.Common

/-!
# What the walk knows

The walk finds the reading of a tree in one pass.  It collects names, modifiers and annotations for
the declarations that are open and writes them to the names when a declaration ends.

`Sketch.Reads` says what the walk over a part of the tree does: it adds what is open in the part to
the innermost open declaration, and it knows all other words of the part.  Each step of the walk reads
the part that it passes, and so does the walk over any orderly part (`Sketch.walk_reads`).
-/

namespace JavaLint

/-- The names that are open, by their places. -/
lemma mem_openNames {base : Ancestry} {f : Forest Lexeme} {count n : Nat} {role : Role} :
    (n, role) ∈ openNames base f count ↔ ∃ i place, (f.places base)[i]? = some place ∧
      n = count + i ∧ openName base place.1 n = some (n, role) := by
  rw [openNames, List.mem_filterMap]
  constructor
  · rintro ⟨⟨place, m⟩, hentry, hname⟩
    obtain ⟨hle, hplace⟩ := List.mk_mem_zipIdx_iff_le_and_getElem?_sub.1 hentry
    obtain ⟨o, -, ho⟩ := Option.bind_eq_some_iff.1 hname
    obtain rfl : m = n := by
      split at ho
      · exact congrArg Prod.fst (Option.some.inj ho)
      · simp at ho
    exact ⟨m - count, place, hplace, by omega, hname⟩
  · rintro ⟨i, place, hplace, rfl, hname⟩
    refine ⟨(place, count + i), ?_, hname⟩
    rw [List.mk_mem_zipIdx_iff_le_and_getElem?_sub]
    exact ⟨by omega, by rwa [Nat.add_sub_cancel_left]⟩

/-- Adds all that is collected to a pending declaration. -/
def Pending.collect (names : List (Nat × Role)) (modifiers : List Keyword)
    (annotations : List String) (p : Pending) : Pending :=
  (p.note names modifiers).annotate annotations

/-- Collecting nothing changes nothing. -/
@[simp] lemma Pending.collect_nil : Pending.collect [] [] [] = id := by
  funext p
  simp [collect]

/-- Collecting twice is collecting one after the other. -/
lemma Pending.collect_collect (names names' : List (Nat × Role)) (modifiers modifiers' : List Keyword)
    (annotations annotations' : List String) :
    Pending.collect names' modifiers' annotations' ∘ Pending.collect names modifiers annotations =
      Pending.collect (names ++ names') (modifiers ++ modifiers') (annotations ++ annotations') := by
  funext p
  simp [collect, note, annotate]

/-- A pending declaration, of whose first token nothing is known. -/
def Pending.withoutFirst (p : Pending) : Pending :=
  { p with firstToken := none }

namespace Sketch

section Write

variable {names : List (Nat × Role)} (value : Role → Classification)
  {classes : List Classification} {n : Nat}

/-- Writing names leaves other words as they are. -/
lemma getElem?_write_of_not_mem (hnot : ∀ role, (n, role) ∉ names) :
    (names.foldl (fun classes name => classes.modify name.1 fun _ => value name.2) classes)[n]? =
      classes[n]? := by
  induction names generalizing classes with
  | nil => rfl
  | cons name names ih =>
    have hne : name.1 ≠ n := by
      rintro rfl
      exact hnot name.2 (by simp)
    rw [List.foldl_cons, ih fun role hrole => hnot role (by simp [hrole])]
    simp [hne]

/-- Writing names writes the names. -/
lemma getElem?_write_of_mem {role : Role} (hmem : (n, role) ∈ names)
    (hrole : ∀ role', (n, role') ∈ names → role' = role) (hn : n < classes.length) :
    (names.foldl (fun classes name => classes.modify name.1 fun _ => value name.2) classes)[n]? =
      some (value role) := by
  induction names generalizing classes with
  | nil => simp at hmem
  | cons name names ih =>
    rw [List.foldl_cons]
    by_cases hrest : (n, role) ∈ names
    · exact ih hrest (fun role' h => hrole role' (by simp [h])) (by simpa using hn)
    · obtain rfl : name = (n, role) := by
        rcases List.mem_cons.1 hmem with h | h
        · exact h.symm
        · exact absurd h hrest
      rw [getElem?_write_of_not_mem]
      · simp [List.getElem?_eq_getElem hn]
      · intro role' hrole'
        rw [hrole role' (by simp [hrole'])] at hrole'
        exact hrest hrole'

end Write

variable {texts : List String} {base : Ancestry} {s : Sketch}

/-- The walk over a part of the tree collects what is open in it, knows all words of it but for the
open names, and leaves other words as they are. -/
structure Reads (base : Ancestry) (f : Forest Lexeme) (count : Nat) (s s' : Sketch) : Prop where
  pending : s'.pending.map Pending.withoutFirst =
    (s.pending.map Pending.withoutFirst).modifyHead
      (.collect (openNames base f count) (openModifiers base f) (openAnnotations base f))
  known : ∀ i place, (f.places base)[i]? = some place →
    s'.classes[count + i]? = some (knownIn base place.1 place.2.kind)
  others : ∀ n, n < count ∨ count + f.leaves.length ≤ n → s'.classes[n]? = s.classes[n]?

/-- Two parts of the walk, one after the other. -/
lemma Reads.append {f g : Forest Lexeme} {count : Nat} {s₁ s₂ : Sketch}
    (hf : Reads base f count s s₁) (hg : Reads base g (count + f.leaves.length) s₁ s₂) :
    Reads base (f ++ g) count s s₂ := by
  obtain ⟨hmodifiers, hannotations⟩ := open_append base f g
  refine ⟨?_, fun i place hplace => ?_, fun n hn => ?_⟩
  · rw [hg.pending, hf.pending, List.modifyHead_modifyHead, Pending.collect_collect,
      openNames_append, hmodifiers, hannotations]
  · rw [Forest.places_append] at hplace
    by_cases hi : i < f.leaves.length
    · rw [List.getElem?_append_left (by simpa using hi)] at hplace
      rw [hg.others (count + i) (.inl (by omega)), hf.known i place hplace]
    · rw [List.getElem?_append_right (by simpa using hi), Forest.length_places] at hplace
      have hknown := hg.known (i - f.leaves.length) place hplace
      rwa [show count + f.leaves.length + (i - f.leaves.length) = count + i by omega] at hknown
  · rw [Forest.leaves_append, List.length_append] at hn
    rw [hg.others n (by omega), hf.others n (by omega)]

/-- Inside all of its nodes, a word is known by itself only. -/
lemma knownIn_self (base : Ancestry) (kind : Kind) : knownIn base base kind = plainReading base kind := by
  unfold knownIn
  cases ho : owner? base with
  | none => rfl
  | some o =>
    obtain ⟨-, between, hbase, -⟩ := owner?_split ho
    have hlt : ¬ base.length ≤ o.around.length := by
      rw [hbase, List.length_append, List.length_cons]
      omega
    simp [hlt]

/-- A leaf is met. -/
lemma visit_reads (l : Lexeme) (count : Nat)
    (hcoarse : s.classes[count]? = some { role := Role.ofKind l.kind }) :
    Reads base (.leaf l .nil) count s (s.visit base count l.kind) := by
  refine ⟨?_, fun i place hplace => ?_, fun n hn => ?_⟩
  · have hnote (p : Pending) : (p.note (Builder.notedNames base count)
        (Builder.notedModifiers base l.kind)).withoutFirst =
        p.withoutFirst.collect (Builder.notedNames base count)
          (Builder.notedModifiers base l.kind) [] := by
      simp [Pending.withoutFirst, Pending.collect, Pending.note]
    simp only [visit, openNames_leaf, openModifiers, openAnnotations, List.append_nil]
    rw [map_modifyHead hnote, List.map_map]
    rfl
  · cases i with
    | succ i => simp [Forest.places] at hplace
    | zero =>
      obtain rfl : (base, l) = place := by simpa [Forest.places] using hplace
      rw [knownIn_self, plainReading, visit, Nat.add_zero]
      split <;> simp [hcoarse]
  · have hne : count ≠ n := by
      simp only [Forest.leaves, List.length_singleton] at hn
      omega
    simp only [visit]
    split <;> simp [hne]

/-- Leaving a node finishes its declaration, if it has one. -/
lemma leave_pending (s : Sketch) (texts : List String) (path : Ancestry) (kind : NodeKind)
    (inside : Forest Lexeme) :
    (s.leave texts path kind inside).pending =
      if kind.declaresNames then s.pending.tail else s.pending := by
  unfold leave
  cases kind.declaresNames <;> cases kind.isBraced <;> cases hpending : s.pending <;>
    simp [closePending, closeScope, hpending]

/-- Leaving a node writes the names of its declaration, if it has one. -/
lemma leave_classes (s : Sketch) (texts : List String) (path : Ancestry) (kind : NodeKind)
    (inside : Forest Lexeme) :
    (s.leave texts path kind inside).classes =
      if kind.declaresNames then (s.closePending texts path kind inside).classes else s.classes := by
  unfold leave
  cases kind.declaresNames <;> cases kind.isBraced <;> rfl

/-- The end of a node that declares no names makes no more words known. -/
lemma knownIn_of_plain {a : Ancestor} {path : Ancestry} (ha : a.kind.declaresNames = false)
    (hsuffix : a :: base <:+ path) (kind : Kind) :
    knownIn base path kind = knownIn (a :: base) path kind := by
  unfold knownIn
  cases ho : owner? path with
  | none => rfl
  | some o =>
    have hne : o.around.length ≠ base.length := by
      intro hlength
      obtain ⟨rfl, -⟩ := eq_of_owner? hsuffix ho hlength
      simp [(owner?_split ho).1] at ha
    have hiff : base.length ≤ o.around.length ↔ (a :: base).length ≤ o.around.length := by
      rw [List.length_cons]
      omega
    simp only [hiff]

/-- The end of a node does not change a word that is no open name. -/
lemma knownIn_of_closed {a : Ancestor} {path : Ancestry} {n : Nat}
    (hopen : openName (a :: base) path n = none) (kind : Kind) :
    knownIn base path kind = knownIn (a :: base) path kind := by
  unfold knownIn
  unfold openName at hopen
  cases ho : owner? path with
  | none => rfl
  | some o =>
    have hle : (a :: base).length ≤ o.around.length := by simpa [ho] using hopen
    have hle' : base.length ≤ o.around.length := by
      rw [List.length_cons] at hle
      omega
    simp only [if_pos hle, if_pos hle']

/-- The end of a node that declares names makes the open names known. -/
lemma knownIn_of_open {a : Ancestor} {path : Ancestry} {n : Nat} {name : Nat × Role}
    (ha : a.kind.declaresNames = true) (hsuffix : a :: base <:+ path)
    (hopen : openName (a :: base) path n = some name) (kind : Kind) :
    name.1 = n ∧ knownIn base path kind = Owner.classification ⟨a, name.2, base⟩ := by
  unfold openName at hopen
  obtain ⟨o, ho, hname⟩ := Option.bind_eq_some_iff.1 hopen
  have hle := length_le_of_owner? ha hsuffix ho
  split at hname
  · rename_i hlt
    obtain rfl := Option.some.inj hname
    rw [List.length_cons] at hlt
    obtain ⟨rfl, rfl⟩ := eq_of_owner? hsuffix ho (by omega)
    simp [knownIn, ho]
  · simp at hname

/-- The end of a declaration makes its names known. -/
lemma closePending_known {a : Ancestor} {count : Nat} {p : Pending} {ps : List Pending}
    (ha : a.kind.declaresNames = true) (hsingle : a.inside.lists ≤ 1)
    (hpending : s.pending = p :: ps)
    (hp : p.withoutFirst = Pending.collect (openNames (a :: base) a.inside count)
      (openModifiers (a :: base) a.inside) (openAnnotations (a :: base) a.inside) {})
    {i : Nat} {place : Ancestry × Lexeme} (hplace : (a.inside.places (a :: base))[i]? = some place)
    (hknown : s.classes[count + i]? = some (knownIn (a :: base) place.1 place.2.kind)) :
    (s.closePending texts base a.kind a.inside).classes[count + i]? =
      some (knownIn base place.1 place.2.kind) := by
  have hnames : p.names = openNames (a :: base) a.inside count := congrArg Pending.names hp
  obtain ⟨hmodifiers, hannotations⟩ := open_inside ha base hsingle
  rw [hmodifiers, hannotations] at hp
  have hpmodifiers : p.modifiers = a.modifiers := congrArg Pending.modifiers hp
  have hpannotations : p.annotations = a.annotations := congrArg Pending.annotations hp
  have hvalue (role : Role) : { role := role, modifiers := Builder.allModifiers base a.kind p
                                annotations := p.annotations : Classification } =
      Owner.classification ⟨a, role, base⟩ := by
    simp only [Owner.classification, Builder.allModifiers, hpmodifiers, hpannotations]
    split <;> simp
  have hsuffix := Forest.suffix_of_mem_places (List.mem_of_getElem? hplace)
  -- The word at this place is the only one with its number.
  have hmem (role : Role) : (count + i, role) ∈ p.names ↔
      openName (a :: base) place.1 (count + i) = some (count + i, role) := by
    rw [hnames, mem_openNames]
    constructor
    · rintro ⟨i', place', hplace', hi, hopen⟩
      obtain rfl : i = i' := by omega
      obtain rfl : place = place' := by simpa [hplace] using hplace'
      exact hopen
    · exact fun hopen => ⟨i, place, hplace, rfl, hopen⟩
  simp only [closePending, hpending, hvalue]
  cases hopen : openName (a :: base) place.1 (count + i) with
  | none =>
    have hnot (role : Role) : (count + i, role) ∉ p.names := by simp [hmem, hopen]
    rw [knownIn_of_closed hopen, ← hknown]
    exact getElem?_write_of_not_mem (fun role => Owner.classification ⟨a, role, base⟩) hnot
  | some name =>
    obtain ⟨hnumber, hclassification⟩ := knownIn_of_open ha hsuffix hopen place.2.kind
    have hname : name = (count + i, name.2) := by rw [← hnumber]
    have hrole (role : Role) (hrole : (count + i, role) ∈ p.names) : role = name.2 := by
      rw [hmem, hopen] at hrole
      rw [Option.some.inj hrole]
    rw [hclassification]
    exact getElem?_write_of_mem (fun role => Owner.classification ⟨a, role, base⟩)
      ((hmem name.2).2 (by rw [hopen, ← hname])) hrole (List.getElem?_eq_some_iff.1 hknown).1

/-- The words outside of a declaration are as they were when it ends. -/
lemma closePending_others {a : Ancestor} {count : Nat} {p : Pending} {ps : List Pending}
    (hpending : s.pending = p :: ps) (hnames : p.names = openNames (a :: base) a.inside count)
    {n : Nat} (hn : n < count ∨ count + a.inside.leaves.length ≤ n) :
    (s.closePending texts base a.kind a.inside).classes[n]? = s.classes[n]? := by
  simp only [closePending, hpending]
  refine getElem?_write_of_not_mem (fun role => { role := role, modifiers := _, annotations := _ })
    fun role hrole => ?_
  rw [hnames, mem_openNames] at hrole
  obtain ⟨i, place, hplace, rfl, -⟩ := hrole
  have hlt := (List.getElem?_eq_some_iff.1 hplace).1
  rw [Forest.length_places] at hlt
  omega

/-- A node is entered, walked through, and left. -/
lemma leave_reads (texts : List String) {kind : NodeKind} {inside : Forest Lexeme} {count : Nat}
    {s₁ : Sketch} (hsingle : inside.lists ≤ 1)
    (hinside : Reads (⟨kind, inside⟩ :: base) inside count (s.enter base kind inside) s₁) :
    Reads base (.node kind inside .nil) count s (s₁.leave texts base kind inside) := by
  have hannotate (names : List String) (p : Pending) :
      (p.annotate names).withoutFirst = p.withoutFirst.collect [] [] names := by
    simp [Pending.withoutFirst, Pending.collect, Pending.annotate]
  have hentered : (s.enter base kind inside).pending.map Pending.withoutFirst =
      (if kind.declaresNames then [({} : Pending)] else []) ++
        (s.pending.map Pending.withoutFirst).modifyHead
          (.collect [] [] (Builder.notedAnnotations base kind inside)) := by
    simp only [enter, List.map_append, map_modifyHead (hannotate _)]
    cases kind.declaresNames <;> rfl
  have hplaces : (Forest.node kind inside .nil).places base =
      inside.places (⟨kind, inside⟩ :: base) := by
    simp [Forest.places]
  have hlength : (Forest.node kind inside .nil).leaves.length = inside.leaves.length := by
    simp [Forest.leaves]
  have hpending := hinside.pending
  rw [hentered] at hpending
  cases hdeclares : kind.declaresNames with
  | false =>
    rw [hdeclares] at hpending
    refine ⟨?_, fun i place hplace => ?_, fun n hn => ?_⟩
    · rw [leave_pending, hdeclares, openNames_node, hdeclares]
      simpa [openModifiers, openAnnotations, hdeclares, Pending.collect_collect] using hpending
    · rw [hplaces] at hplace
      rw [leave_classes, hdeclares, knownIn_of_plain hdeclares
        (Forest.suffix_of_mem_places (List.mem_of_getElem? hplace))]
      exact hinside.known i place hplace
    · rw [hlength] at hn
      rw [leave_classes, hdeclares]
      exact hinside.others n hn
  | true =>
    rw [hdeclares] at hpending
    obtain ⟨p, ps, hps, hp, hrest⟩ : ∃ p ps, s₁.pending = p :: ps ∧ p.withoutFirst =
        Pending.collect (openNames (⟨kind, inside⟩ :: base) inside count)
          (openModifiers (⟨kind, inside⟩ :: base) inside)
          (openAnnotations (⟨kind, inside⟩ :: base) inside) {} ∧
        ps.map Pending.withoutFirst = (s.pending.map Pending.withoutFirst).modifyHead
          (.collect [] [] (Builder.notedAnnotations base kind inside)) :=
      List.map_eq_cons_iff.1 hpending
    refine ⟨?_, fun i place hplace => ?_, fun n hn => ?_⟩
    · rw [leave_pending, hdeclares, openNames_node, hdeclares, hps]
      simpa [openModifiers, openAnnotations, hdeclares] using hrest
    · rw [hplaces] at hplace
      rw [leave_classes, hdeclares, if_pos rfl]
      exact closePending_known (a := ⟨kind, inside⟩) hdeclares hsingle hps hp hplace
        (hinside.known i place hplace)
    · rw [hlength] at hn
      rw [leave_classes, hdeclares, if_pos rfl]
      exact (closePending_others (a := ⟨kind, inside⟩) hps (congrArg Pending.names hp) hn).trans
        (hinside.others n hn)

/-- The walk over a part of an orderly tree reads it. -/
theorem walk_reads (texts : List String) {f : Forest Lexeme} {parent : NodeKind}
    (hf : f.Orderly parent) (base : Ancestry) (count : Nat) (s : Sketch)
    (hcoarse : ∀ i place, (f.places base)[i]? = some place →
      s.classes[count + i]? = some { role := Role.ofKind place.2.kind }) :
    Reads base f count s (walk texts base f count s) := by
  induction f generalizing parent base count s with
  | nil =>
    refine ⟨?_, by simp [Forest.places], fun n _ => rfl⟩
    simp [walk, openNames, openModifiers, openAnnotations, Forest.places]
  | leaf l rest ih =>
    have hfirst : Reads base (.leaf l .nil) count s (s.visit base count l.kind) :=
      visit_reads l count (by simpa using hcoarse 0 (base, l) rfl)
    refine hfirst.append (ih hf base (count + 1) _ fun i place hplace => ?_)
    have hafter : count + (Forest.leaf l .nil).leaves.length ≤ count + 1 + i := by
      simp [Forest.leaves]
    rw [hfirst.others _ (.inr hafter), Nat.add_assoc, Nat.add_comm 1]
    exact hcoarse (i + 1) place hplace
  | node kind inside rest ihInside ihRest =>
    obtain ⟨-, hsingle, hinside, hrest⟩ := hf
    have hlength : (Forest.node kind inside .nil).leaves.length = inside.leaves.length := by
      simp [Forest.leaves]
    have hwalk := ihInside hinside (⟨kind, inside⟩ :: base) count (s.enter base kind inside) (by
      intro i place hplace
      refine hcoarse i place ?_
      rw [Forest.places, List.getElem?_append_left, hplace]
      exact (List.getElem?_eq_some_iff.1 hplace).1)
    have hfirst := leave_reads texts hsingle hwalk
    have hsecond := ihRest hrest base (count + inside.leaves.length) _ (by
      intro i place hplace
      rw [hfirst.others _ (.inr (by omega)), Nat.add_assoc]
      refine hcoarse (inside.leaves.length + i) place ?_
      rw [Forest.places, List.getElem?_append_right (by simp), Forest.length_places,
        Nat.add_sub_cancel_left]
      exact hplace)
    rw [← hlength] at hsecond
    have hall := hfirst.append hsecond
    rw [hlength] at hall
    exact hall

end Sketch

end JavaLint
