import JavaLint.Proofs.Grammar.Java
import Mathlib.Tactic.Common

/-!
# How files open

A file starts with a declaration, and a declaration has at least a keyword and a name before its first
brace.  So no opening brace is among the first two words of a file (`readShape_brace`).

`Form.Refuses` says that nothing can be read at a sequence of words.
-/

namespace JavaLint

namespace Form

variable {ρ : Type} {follow : ρ → Reader} {a b : Form ρ} {k : Kind} {ks : List Kind}

/-- The form describes nothing that starts with these words. -/
def Refuses (follow : ρ → Reader) (form : Form ρ) (ks : List Kind) : Prop :=
  ∀ room result, form.read follow room ks ≠ .ok result

/-- A part is refused if what comes after it is. -/
lemma refuses_append (h : ∀ room f ks', a.read follow room ks = .ok (f, ks') → b.Refuses follow ks') :
    (a ++ b).Refuses follow ks := by
  rintro room ⟨f, ks''⟩ hread
  obtain ⟨g, ks', h', ha, hb, -⟩ := read_seq_eq_ok.1 hread
  exact h room g ks' ha room _ hb

/-- Two parts are refused if the first is. -/
lemma Refuses.append (h : a.Refuses follow ks) (b : Form ρ) : (a ++ b).Refuses follow ks :=
  refuses_append fun room _ _ ha => (h room _ ha).elim

/-- A word and a part are refused if the part is refused after the word. -/
lemma Refuses.after_take (h : b.Refuses follow ks) : (take ++ b).Refuses follow (k :: ks) := by
  refine refuses_append fun room f ks' htake => ?_
  obtain ⟨k', hk', -⟩ := read_take_eq_ok.1 htake
  obtain ⟨-, rfl⟩ := List.cons.inj hk'
  exact h

/-- A node is refused if its inside is. -/
lemma Refuses.node (h : a.Refuses follow ks) (kind : NodeKind) : (node kind a).Refuses follow ks := by
  rintro room ⟨f, ks'⟩ hread
  obtain ⟨g, ha, -⟩ := read_node_eq_ok.1 hread
  exact h room _ ha

/-- What is adopted is refused if the part that adopts it is. -/
lemma refuses_adopt (h : ∀ room f ks', a.read follow room ks = .ok (f, ks') → b.Refuses follow ks') :
    (adopt a b).Refuses follow ks := by
  rintro room ⟨f, ks''⟩ hread
  obtain ⟨g, ks', h', ha, hb, -⟩ := read_adopt_eq_ok.1 hread
  exact h room g ks' ha room _ hb

/-- Looking ahead, the chosen form is refused. -/
lemma refuses_look {choose : List Kind → Form ρ} (h : (choose ks).Refuses follow ks) :
    (look choose).Refuses follow ks :=
  h

/-- Nothing can be read where something else was expected. -/
lemma refuses_fail (what : String) : (fail what : Form ρ).Refuses follow ks := by
  intro room result hread
  simp [read] at hread

end Form

namespace Rule

open Form Lookahead

variable {fuel room : Nat} {k : Kind} {ks : List Kind}

/-- What a rule describes starts with other words. -/
abbrev Refuses (rule : Rule) (ks : List Kind) : Prop :=
  ∀ fuel, (call rule).Refuses (readRule form fuel) ks

/-- A rule is refused if its form is. -/
lemma refuses_of_form {rule : Rule} (h : ∀ fuel, rule.form.Refuses (readRule form fuel) ks) :
    rule.Refuses ks := by
  intro fuel room result hread
  cases fuel with
  | zero => simp [Form.read, readRule] at hread
  | succ fuel => exact h fuel room result hread

/-- A brace is no name. -/
lemma qualifiedName_refuses (what : String) :
    (qualifiedName what).Refuses (readRule form fuel) (.lBrace :: ks) := by
  have hname : (expectName what).Refuses (readRule form fuel) (.lBrace :: ks) :=
    refuses_look (refuses_fail what)
  exact hname.append _

/-- A brace is no declared name. -/
lemma declaredName_refuses (what : String) :
    (declaredName what).Refuses (readRule form fuel) (.lBrace :: ks) :=
  refuses_look (refuses_fail what)

/-- No type declaration starts with a brace. -/
lemma typeDecl_refuses : typeDecl.Refuses (.lBrace :: ks) :=
  refuses_of_form fun _ => refuses_look (refuses_fail _)

/-- No type declaration has a brace for its second word. -/
lemma typeDecl_refuses_second : typeDecl.Refuses (k :: .lBrace :: ks) := by
  refine refuses_of_form fun fuel => refuses_look ?_
  cases hkind : typeDeclKind? (k :: .lBrace :: ks) with
  | none => exact refuses_fail _
  | some kind =>
    have hplain : kind ≠ .annotationTypeDecl := by
      rintro rfl
      unfold typeDeclKind? at hkind
      split at hkind <;> grind [atWord, atKind]
    have hname : (declaredName "type name").Refuses (readRule form fuel) (.lBrace :: ks) :=
      declaredName_refuses _
    simp only [typeDeclOf, if_neg hplain]
    exact ((((hname.after_take.append _).append _).append _).append _).node kind

/-! ## Declarations -/

/-- A declaration of a file after its modifiers. -/
def declared : Part :=
  look fun ks =>
    if atWord .packageKw ks then packageDecl
    else if atModule ks then moduleDecl
    else call typeDecl

/-- A file is a sequence of declarations with modifiers, of imports and of semicolons. -/
lemma form_items :
    items.form = look fun ks =>
      if ks.isEmpty then empty
      else if atKind .semi ks then take ++ call items
      else if atWord .importKw ks then importDecl ++ call items
      else adopt modifiers declared ++ call items :=
  rfl

/-- No declaration starts with a brace. -/
lemma declared_refuses : declared.Refuses (readRule form fuel) (.lBrace :: ks) :=
  refuses_look (typeDecl_refuses fuel)

/-- No declaration has a brace for its second word. -/
lemma declared_refuses_second : declared.Refuses (readRule form fuel) (k :: .lBrace :: ks) := by
  refine refuses_look ?_
  split
  · have hname : (qualifiedName "package name").Refuses (readRule form fuel) (.lBrace :: ks) :=
      qualifiedName_refuses _
    exact (hname.after_take.append _).node _
  · have hmodule : atModule (k :: .lBrace :: ks) = false := by
      simp [atModule, thenKind, thenName, atName, first, Kind.isName]
    rw [if_neg (by simp [hmodule])]
    exact typeDecl_refuses_second fuel

/-- No annotation has a brace for its second word. -/
lemma annotationUse_refuses_second : annotationUse.Refuses (k :: .lBrace :: ks) := by
  refine refuses_of_form fun fuel => ?_
  have hname : (qualifiedName "annotation name").Refuses (readRule form fuel) (.lBrace :: ks) :=
    qualifiedName_refuses _
  exact (hname.after_take.append _).node _

/-- There are no modifiers at a brace. -/
lemma modifierTail_at_brace {f : Shape} {ks' : List Kind}
    (h : (call modifierTail).read (readRule form fuel) room (.lBrace :: ks) = .ok (f, ks')) :
    ks' = .lBrace :: ks := by
  cases fuel with
  | zero => simp [Form.read, readRule] at h
  | succ fuel =>
    have hread : (Forest.nil, .lBrace :: ks) = (f, ks') := Except.ok.inj h
    exact (Prod.mk.inj hread).2.symm

/-- The modifiers before a brace are no more than one word. -/
lemma modifiers_before_brace {f : Shape} {ks' : List Kind}
    (h : modifiers.read (readRule form fuel) room (k :: .lBrace :: ks) = .ok (f, ks')) :
    ks' = k :: .lBrace :: ks ∨ ks' = .lBrace :: ks := by
  change (if atModifier (k :: .lBrace :: ks) then node .modifiers (call modifierTail) else empty).read
    (readRule form fuel) room (k :: .lBrace :: ks) = .ok (f, ks') at h
  split at h
  · rename_i hmodifier
    right
    obtain ⟨g, hread, -⟩ := read_node_eq_ok.1 h
    cases fuel with
    | zero => simp [Form.read, readRule] at hread
    | succ fuel =>
      change (if atModifier (k :: .lBrace :: ks) then
        ite (atKind .atSign) (call annotationUse) take ++ call modifierTail else empty).read
          (readRule form fuel) room (k :: .lBrace :: ks) = .ok (g, ks') at hread
      rw [if_pos hmodifier] at hread
      obtain ⟨g₁, ks₁, g₂, hfirst, hrest, -⟩ := read_seq_eq_ok.1 hread
      change (if atKind .atSign (k :: .lBrace :: ks) then call annotationUse else take).read
        (readRule form fuel) room (k :: .lBrace :: ks) = .ok (g₁, ks₁) at hfirst
      split at hfirst
      · exact (annotationUse_refuses_second fuel room _ hfirst).elim
      · obtain ⟨k', hk', -⟩ := read_take_eq_ok.1 hfirst
        obtain ⟨-, rfl⟩ := List.cons.inj hk'
        exact modifierTail_at_brace hrest
  · left
    have hread : (Forest.nil, k :: .lBrace :: ks) = (f, ks') := Except.ok.inj h
    exact (Prod.mk.inj hread).2.symm

/-- No file starts with a brace. -/
lemma items_refuses : items.Refuses (.lBrace :: ks) := by
  refine refuses_of_form fun fuel => ?_
  rw [form_items]
  have hdeclared : (adopt modifiers declared).Refuses (readRule form fuel) (.lBrace :: ks) := by
    refine refuses_adopt fun room f ks' hread => ?_
    have hnone : (Forest.nil, .lBrace :: ks) = (f, ks') := Except.ok.inj hread
    obtain ⟨-, rfl⟩ := Prod.mk.inj hnone
    exact declared_refuses
  exact hdeclared.append _

/-- No file has a brace for its second word. -/
lemma items_refuses_second : items.Refuses (k :: .lBrace :: ks) := by
  refine refuses_of_form fun fuel => ?_
  rw [form_items]
  refine refuses_look ?_
  rw [if_neg (by simp)]
  split
  · exact (items_refuses fuel).after_take
  · split
    · have hname : (qualifiedName "import name").Refuses (readRule form fuel) (.lBrace :: ks) :=
        qualifiedName_refuses _
      have himport : (take ++ eat (.keyword .staticKw) ++ qualifiedName "import name").Refuses
          (readRule form fuel) (k :: .lBrace :: ks) := by
        refine refuses_append fun room f ks' hread => ?_
        have hword : (Forest.leaf k .nil, .lBrace :: ks) = (f, ks') := Except.ok.inj hread
        obtain ⟨-, rfl⟩ := Prod.mk.inj hword
        exact hname
      exact (((himport.append _).append _).node _).append _
    · have hdeclared : (adopt modifiers declared).Refuses (readRule form fuel) (k :: .lBrace :: ks) := by
        refine refuses_adopt fun room f ks' hread => ?_
        obtain rfl | rfl := modifiers_before_brace hread
        · exact declared_refuses_second
        · exact declared_refuses
      exact hdeclared.append _

end Rule

/-- An opening brace is not among the first two words of a file. -/
theorem readShape_brace {ks : List Kind} {shape : Shape} (h : readShape ks = .ok shape) {i : Nat}
    (hi : ks[i]? = some .lBrace) : 2 ≤ i := by
  obtain ⟨ks', hread⟩ := readShape_eq_ok.1 h
  obtain rfl | rfl | htwo : i = 0 ∨ i = 1 ∨ 2 ≤ i := by omega
  · obtain ⟨rest, rfl⟩ : ∃ rest, ks = .lBrace :: rest := by
      cases ks <;> simp_all
    exact (Rule.items_refuses _ _ _ hread).elim
  · obtain ⟨k, rest, rfl⟩ : ∃ k rest, ks = k :: .lBrace :: rest := by
      rcases ks with _ | ⟨k, _ | ⟨k', rest⟩⟩ <;> simp_all
    exact (Rule.items_refuses_second _ _ _ hread).elim
  · exact htwo

end JavaLint
