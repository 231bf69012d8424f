import JavaLint.Proofs.Grammar.Brackets
import JavaLint.Proofs.Grammar.Counters
import Mathlib.Tactic.Common

/-!
# Where types end

A type is skipped in two ways.  Looking ahead, `afterType?` takes any words between angle brackets that may
stand there and counts the brackets.  The grammar reads the type rule by rule.  Here it is shown that both
come to the same words, wherever both come to an end.

The two ways have different notions of what stands between angle brackets, so the rules are not compared
with the look ahead word by word.  What carries the induction is that inside of type arguments no rule
changes where counting ends (`Keeps`): a rule may stop at any point, and counting on from there comes to the
same words.  The rules for whole types then inherit from it where they stop (`Rule.EndsAt`).

`Form.Ends` is the condition on a form, stated along the form and without reading, under which it stops only
before words of which a goal holds.  `Rule.form_ends` goes through the rules.
-/

namespace JavaLint

namespace Form

variable {ρ : Type} {follow : ρ → Reader} {ends : ρ → List Kind → List Kind → Prop}

/-- Read before the words `ks`, the form stops only before words of which `goal` holds.  What is known of
the rules is a relation between the words before which they are called and those before which they stop. -/
def Ends (ends : ρ → List Kind → List Kind → Prop) :
    Form ρ → (ks : List Kind) → (goal : List Kind → Prop) → Prop
  | empty, ks, goal => goal ks
  | fail _, _, _ => True
  | take, ks, goal => ∀ k ks', ks = k :: ks' → goal ks'
  | call rule, ks, goal => ∀ ks', ends rule ks ks' → goal ks'
  | seq a b, ks, goal => a.Ends ends ks fun ks' => b.Ends ends ks' goal
  | node _ a, ks, goal => a.Ends ends ks goal
  | adopt a b, ks, goal => a.Ends ends ks fun ks' => b.Ends ends ks' goal
  | nest a, ks, goal => a.Ends ends ks goal
  | look choose, ks, goal => (choose ks).Ends ends ks goal

/-- A form that is read stops where it is said to, if this is so for the rules. -/
lemma read_ends
    (hfollow : ∀ rule room ks f ks', follow rule room ks = .ok (f, ks') → ends rule ks ks')
    {form : Form ρ} {room : Nat} {ks ks' : List Kind} {f : Shape} {goal : List Kind → Prop}
    (hform : form.Ends ends ks goal) (hread : form.read follow room ks = .ok (f, ks')) : goal ks' := by
  induction form generalizing room ks ks' f goal with
  | empty =>
    obtain ⟨-, rfl⟩ : Forest.nil = f ∧ ks = ks' := by simpa [read] using hread
    exact hform
  | fail what => simp [read] at hread
  | take =>
    obtain ⟨k, rfl, -⟩ := read_take_eq_ok.1 hread
    exact hform k ks' rfl
  | call rule => exact hform ks' (hfollow rule room ks f ks' hread)
  | seq a b iha ihb =>
    obtain ⟨g, ks₁, h, ha, hb, -⟩ := read_seq_eq_ok.1 hread
    exact ihb (iha hform ha) hb
  | node k a ih =>
    obtain ⟨g, ha, -⟩ := read_node_eq_ok.1 hread
    exact ih hform ha
  | adopt a b iha ihb =>
    obtain ⟨g, ks₁, h, ha, hb, -⟩ := read_adopt_eq_ok.1 hread
    exact ihb (iha hform ha) hb
  | nest a ih =>
    obtain ⟨room', rfl, ha⟩ := read_nest_eq_ok.1 hread
    exact ih hform ha
  | look choose ih => exact ih ks hform hread

/-- A form that stops where one goal holds stops where every goal holds that follows. -/
lemma Ends.imp {form : Form ρ} {ks : List Kind} {goal goal' : List Kind → Prop}
    (h : form.Ends ends ks goal) (himp : ∀ ks', goal ks' → goal' ks') : form.Ends ends ks goal' := by
  induction form generalizing ks goal goal' with
  | empty => exact himp ks h
  | fail what => trivial
  | take => exact fun k ks' hks => himp ks' (h k ks' hks)
  | call rule => exact fun ks' hrule => himp ks' (h ks' hrule)
  | seq a b iha ihb => exact iha h fun _ hb => ihb hb himp
  | node k a ih => exact ih h himp
  | adopt a b iha ihb => exact iha h fun _ hb => ihb hb himp
  | nest a ih => exact ih h himp
  | look choose ih => exact ih ks h himp

section Simplification

variable {ks : List Kind} {goal : List Kind → Prop} {a b : Form ρ}

@[simp ↓] lemma ends_empty : (empty : Form ρ).Ends ends ks goal ↔ goal ks := Iff.rfl

@[simp ↓] lemma ends_fail {what : String} : (fail what : Form ρ).Ends ends ks goal := trivial

@[simp ↓] lemma ends_take_cons {k : Kind} :
    (take : Form ρ).Ends ends (k :: ks) goal ↔ goal ks := by
  simp [Ends]

@[simp ↓] lemma ends_call {rule : ρ} :
    (call rule).Ends ends ks goal ↔ ∀ ks', ends rule ks ks' → goal ks' := Iff.rfl

@[simp ↓] lemma ends_append :
    (a ++ b).Ends ends ks goal ↔ a.Ends ends ks fun ks' => b.Ends ends ks' goal := Iff.rfl

@[simp ↓] lemma ends_node {k : NodeKind} :
    (node k a).Ends ends ks goal ↔ a.Ends ends ks goal := Iff.rfl

@[simp ↓] lemma ends_ite {test : List Kind → Bool} :
    (ite test a b).Ends ends ks goal ↔
      (test ks = true → a.Ends ends ks goal) ∧ (test ks = false → b.Ends ends ks goal) := by
  cases h : test ks <;> simp [ite, Ends, h]

@[simp ↓] lemma ends_opt {test : List Kind → Bool} :
    (opt test a).Ends ends ks goal ↔
      (test ks = true → a.Ends ends ks goal) ∧ (test ks = false → goal ks) :=
  ends_ite

end Simplification

/-- Every form stops where a goal holds that always does. -/
lemma ends_of_forall {goal : List Kind → Prop} (h : ∀ ks', goal ks') (form : Form ρ) (ks : List Kind) :
    form.Ends ends ks goal := by
  induction form generalizing ks goal with
  | empty => exact h ks
  | fail what => trivial
  | take => exact fun _ ks' _ => h ks'
  | call rule => exact fun ks' _ => h ks'
  | seq a b iha ihb => exact iha (fun ks' => ihb h ks') ks
  | node k a ih => exact ih h ks
  | adopt a b iha ihb => exact iha (fun ks' => ihb h ks') ks
  | nest a ih => exact ih h ks
  | look choose ih => exact ih ks h ks

end Form

/-- If the forms of all rules stop where they are said to, then so does following the rules. -/
theorem readRule_ends {ρ : Type} {grammar : ρ → Form ρ} {ends : ρ → List Kind → List Kind → Prop}
    (hends : ∀ rule ks, (grammar rule).Ends ends ks (ends rule ks))
    (fuel : Nat) (rule : ρ) (room : Nat) (ks : List Kind) (f : Shape) (ks' : List Kind)
    (hread : readRule grammar fuel rule room ks = .ok (f, ks')) : ends rule ks ks' := by
  induction fuel generalizing rule room ks f ks' with
  | zero => simp [readRule] at hread
  | succ fuel ih => exact Form.read_ends ih (hends rule ks) hread

namespace Lookahead

/-! ## Looking ahead for the end of type arguments -/

/-- Counting on from the words `ks`, with `depth` angle brackets open, one comes to the words `rest`. -/
def Skips (rest : List Kind) : (depth : Nat) → (ks : List Kind) → Prop
  | 0, ks => ks = rest
  | depth + 1, ks => countAngles (depth + 1) ks = some (some rest)

variable {rest ks ks₁ ks₂ : List Kind} {depth : Nat} {k : Kind}

/-- An opening angle bracket is one more that is open. -/
@[simp] lemma skips_lt : Skips rest (depth + 1) (.lt :: ks) ↔ Skips rest (depth + 2) ks := by
  simp [Skips, countAngles]

/-- A closing angle bracket is one less that is open. -/
@[simp] lemma skips_gt : Skips rest (depth + 1) (.gt :: ks) ↔ Skips rest depth ks := by
  cases depth <;> simp [Skips, countAngles]

/-- Any other word is skipped if it may stand between angle brackets. -/
lemma skips_word (hlt : k ≠ .lt) (hgt : k ≠ .gt) :
    Skips rest (depth + 1) (k :: ks) ↔ inTypeArgs k = true ∧ Skips rest (depth + 1) ks := by
  rw [Skips, Skips, countAngles_cons hlt hgt]
  cases inTypeArgs k <;> simp

/-- Inside of type arguments, counting from either of the words comes to the same end. -/
def Keeps (ks ks' : List Kind) : Prop :=
  ∀ depth rest, Skips rest (depth + 1) ks → Skips rest (depth + 1) ks'

lemma Keeps.refl (ks : List Kind) : Keeps ks ks :=
  fun _ _ => id

lemma Keeps.trans (h : Keeps ks ks₁) (h' : Keeps ks₁ ks₂) : Keeps ks ks₂ :=
  fun depth rest hskips => h' depth rest (h depth rest hskips)

/-- A word that is no angle bracket does not change where counting ends. -/
lemma keeps_word (hlt : k ≠ .lt) (hgt : k ≠ .gt) : Keeps (k :: ks) ks :=
  fun _ _ hskips => ((skips_word hlt hgt).1 hskips).2

/-- A name does not change where counting ends. -/
lemma keeps_name (hk : k.isName = true) : Keeps (k :: ks) ks := by
  refine keeps_word ?_ ?_ <;> rintro rfl <;> simp [Kind.isName] at hk

/-- What may not stand between angle brackets is never met by counting. -/
lemma keeps_of_not_inTypeArgs (hlt : k ≠ .lt) (hgt : k ≠ .gt) (hk : inTypeArgs k = false) :
    Keeps (k :: ks) ks₁ := by
  intro depth rest hskips
  exact absurd ((skips_word hlt hgt).1 hskips).1 (by simp [hk])

/-- Words that are no empty pair of brackets are no dimensions. -/
lemma afterDims_eq_self (h : atDims ks = false) : afterDims ks = ks := by
  unfold afterDims
  split
  · simp [atDims, atKind, thenKind] at h
  · rfl

/-- Dimensions start with a bracket. -/
lemma atKind_afterDims (hk : k ≠ .lBrack) (h : atKind k (afterDims ks) = false) :
    atKind k ks = false := by
  by_cases hdims : atDims ks = true
  · obtain ⟨ks, rfl⟩ := Rule.atDims_iff.1 hdims
    simpa [atKind] using Ne.symm hk
  · rwa [afterDims_eq_self (by simpa using hdims)] at h

/-- What follows a type name without type arguments. -/
lemma afterName?_eq (h : atKind .lt ks = false) : afterName? ks = afterTypeArgs? ks := by
  unfold afterTypeArgs?
  split
  · rw [afterName?]
  · rw [afterName?]
    · rintro ks' rfl
      simp [atKind] at h
    · assumption

/-- After a keyword, a type is nothing but dimensions. -/
lemma afterType?_keyword {w : Keyword} (h : afterType? (.keyword w :: ks) = some rest) :
    rest = afterDims ks := by
  rw [afterType?] at h
  split at h
  · exact (Option.some.inj h).symm
  · cases h

/-- A type starts with no annotation. -/
lemma atSign_of_afterType? (h : afterType? ks = some rest) : atKind .atSign ks = false := by
  cases ks with
  | nil => rfl
  | cons k ks => cases k <;> simp_all [afterType?, atKind]

/-- Words that do not start with `&` are no further bounds. -/
lemma afterBounds?_eq_self {fuel : Nat} (h : atKind .bitAnd ks = false) :
    afterBounds? fuel ks = some ks := by
  unfold afterBounds?
  split
  · simp [atKind] at h
  · rfl

/-- Before a closing parenthesis or a further bound there is no word with which a type could go on. -/
lemma afterBounds?_rParen {fuel : Nat} (h : afterBounds? fuel ks = some (.rParen :: rest)) :
    atKind .lt ks = false ∧ atKind .dot ks = false := by
  unfold afterBounds? at h
  split at h
  · simp [atKind]
  · obtain rfl := Option.some.inj h
    simp [atKind]

/-! ### What is skipped comes first -/

/-- The words to which counting comes are the last ones. -/
lemma Skips.suffix (h : Skips rest depth ks) : rest <:+ ks := by
  induction ks generalizing depth with
  | nil =>
    cases depth with
    | zero => exact h ▸ List.suffix_rfl
    | succ depth => simp [Skips, countAngles] at h
  | cons k ks ih =>
    cases depth with
    | zero => exact h ▸ List.suffix_rfl
    | succ depth =>
      refine List.IsSuffix.trans ?_ (List.suffix_cons k ks)
      by_cases hlt : k = .lt
      · subst hlt
        exact ih (skips_lt.1 h)
      by_cases hgt : k = .gt
      · subst hgt
        exact ih (skips_gt.1 h)
      · exact ih ((skips_word hlt hgt).1 h).2

/-- The words after the rest of a type name are the last ones. -/
lemma afterName?_suffix (h : afterName? ks = some rest) : rest <:+ ks := by
  induction hlength : ks.length using Nat.strong_induction_on generalizing ks with
  | _ n ih =>
    subst hlength
    have harguments : ∀ ks₁, ks₁ <:+ ks → afterTypeArgs? ks₁ = some rest → rest <:+ ks := by
      intro ks₁ hsuffix hafter
      refine List.IsSuffix.trans ?_ hsuffix
      unfold afterTypeArgs? at hafter
      split at hafter
      · rename_i ks₂
        have hshort := hsuffix.length_le
        simp only [List.length_cons] at hshort
        have hrest := ih ks₂.length (by omega) hafter rfl
        exact hrest.trans ((List.suffix_cons _ _).trans (List.suffix_cons _ _))
      · obtain rfl := Option.some.inj hafter
        exact List.suffix_rfl
    cases hlt : atKind .lt ks with
    | true =>
      obtain ⟨ks₁, rfl⟩ := Rule.atKind_iff.1 hlt
      obtain ⟨rest?, hcount, hrest⟩ := countAngles_succ 0 ks₁
      rw [afterName?, hrest] at h
      obtain ⟨ks₂, rfl, hafter⟩ := Option.bind_eq_some_iff.1 h
      have hskips : Skips ks₂ 1 ks₁ := hcount
      exact harguments ks₂ (hskips.suffix.trans (List.suffix_cons _ _)) hafter
    | false => exact harguments ks List.suffix_rfl (afterName?_eq hlt ▸ h)

/-- The words after dimensions are the last ones. -/
lemma afterDims_suffix (ks : List Kind) : afterDims ks <:+ ks := by
  fun_induction afterDims ks with
  | case1 ks ih => exact ih.trans ((List.suffix_cons _ _).trans (List.suffix_cons _ _))
  | case2 ks => exact List.suffix_rfl

/-- The words after a type are the last ones. -/
lemma afterType?_suffix (h : afterType? ks = some rest) : rest <:+ ks := by
  unfold afterType? at h
  split at h
  · split at h
    · obtain rfl := Option.some.inj h
      exact (afterDims_suffix _).trans (List.suffix_cons _ _)
    · cases h
  · obtain ⟨ks₁, hname, rfl⟩ := Option.map_eq_some_iff.1 h
    exact (afterDims_suffix _).trans ((afterName?_suffix hname).trans (List.suffix_cons _ _))
  · cases h

/-- The words after further bounds are the last ones. -/
lemma afterBounds?_suffix {fuel : Nat} (h : afterBounds? fuel ks = some rest) : rest <:+ ks := by
  induction fuel generalizing ks with
  | zero =>
    obtain rfl : ks = rest := by simpa [afterBounds?] using h
    exact List.suffix_rfl
  | succ fuel ih =>
    cases hand : atKind .bitAnd ks with
    | true =>
      obtain ⟨ks, rfl⟩ := Rule.atKind_iff.1 hand
      obtain ⟨ks₁, htype, hbounds⟩ := Option.bind_eq_some_iff.1 (afterBounds?.eq_1 fuel ks ▸ h)
      exact (ih hbounds).trans ((afterType?_suffix htype).trans (List.suffix_cons _ _))
    | false =>
      obtain rfl : ks = rest := Option.some.inj (afterBounds?_eq_self hand ▸ h)
      exact List.suffix_rfl

end Lookahead

namespace Rule

open Form Lookahead

/-! ## Where the rules stop -/

/-- What is known of where the rules for types stop.  A rule that takes its first word as it comes is
known only where that word stands. -/
def EndsAt : Rule → (ks ks' : List Kind) → Prop
  | nameTail, ks, ks' | typeArgList, ks, ks' => Keeps ks ks'
  | annotationUse, ks, ks' => ∀ ks₁, ks = .atSign :: ks₁ → Keeps ks ks'
  | annotations, ks, ks' => Keeps ks ks' ∧ (atKind .atSign ks = false → ks' = ks)
  | typeArgs, ks, ks' =>
    ∀ ks₁, ks = .lt :: ks₁ → ∀ depth rest, Skips rest (depth + 1) ks₁ → Skips rest depth ks'
  | dims, ks, ks' => Keeps ks ks' ∧ ks' = afterDims ks
  | typeTail, ks, ks' =>
    Keeps ks ks' ∧ ∀ rest, afterName? ks = some rest → atKind .dot rest = false → ks' = rest
  | type, ks, ks' =>
    Keeps ks ks' ∧ ∀ rest, afterType? ks = some rest → atKind .lt rest = false →
      atKind .dot rest = false → ks' = rest
  | bounds, ks, ks' =>
    ∀ fuel rest, afterBounds? fuel ks = some (.rParen :: rest) → ks' = .rParen :: rest
  | _, _, _ => True

variable {ks : List Kind} {goal : List Kind → Prop}

/-- A word that has to stand here is taken. -/
lemma ends_expect {k : Kind} {what : String} (h : ∀ ks', ks = k :: ks' → goal ks') :
    (expect k what : Part).Ends EndsAt ks goal := by
  rw [expect_eq, ends_ite]
  refine ⟨fun hk => ?_, fun _ => ends_fail⟩
  obtain ⟨ks', rfl⟩ := atKind_iff.1 hk
  exact ends_take_cons.2 (h ks' rfl)

/-- A name that has to stand here is taken. -/
lemma ends_expectName {what : String} (h : ∀ k ks', k.isName = true → ks = k :: ks' → goal ks') :
    (expectName what).Ends EndsAt ks goal := by
  rw [expectName, ends_ite]
  refine ⟨fun hname => ?_, fun _ => ends_fail⟩
  obtain ⟨k, ks', rfl, hk⟩ := atName_iff.1 hname
  exact ends_take_cons.2 (h k ks' hk rfl)

/-- The points and names of a qualified name do not change where counting ends. -/
lemma nameTail_ends (ks : List Kind) : nameTail.form.Ends EndsAt ks (nameTail.EndsAt ks) := by
  simp only [form, ends_opt, ends_append]
  refine ⟨fun h => ?_, fun _ => .refl ks⟩
  obtain ⟨hdot, hname⟩ := Bool.and_eq_true_iff.1 h
  obtain ⟨ks, rfl⟩ := atKind_iff.1 hdot
  obtain ⟨k, ks, rfl, hk⟩ := thenName_cons.1 hname
  simp only [ends_take_cons, ends_call]
  intro ks' htail
  exact (keeps_word (by simp) (by simp)).trans ((keeps_name hk).trans htail)

/-- An annotation does not change where counting ends: counting never meets its arguments. -/
lemma annotationUse_ends (ks : List Kind) :
    annotationUse.form.Ends EndsAt ks (annotationUse.EndsAt ks) := by
  simp only [form, ends_node, ends_append, qualifiedName]
  rintro k ks rfl
  refine ends_expectName ?_
  rintro name ks hname rfl
  rw [ends_call]
  intro ks₁ htail
  have hkeeps : annotationUse.EndsAt (k :: name :: ks) ks₁ := by
    intro ks' hks
    obtain ⟨rfl, -⟩ := List.cons.inj hks
    exact (keeps_word (by simp) (by simp)).trans ((keeps_name hname).trans htail)
  rw [ends_opt]
  refine ⟨fun hparen => ?_, fun _ => hkeeps⟩
  obtain ⟨ks₂, rfl⟩ := atKind_iff.1 hparen
  refine ends_of_forall (fun ks' ks₃ hks => ?_) arguments _
  exact (hkeeps ks₃ hks).trans (keeps_of_not_inTypeArgs (by simp) (by simp) rfl)

/-- Annotations do not change where counting ends. -/
lemma annotations_ends (ks : List Kind) :
    annotations.form.Ends EndsAt ks (annotations.EndsAt ks) := by
  simp only [form, ends_opt, ends_append, ends_call]
  refine ⟨fun hsign ks₁ huse ks₂ htail => ?_, fun _ => ⟨.refl ks, fun _ => rfl⟩⟩
  obtain ⟨ks', rfl⟩ := atKind_iff.1 hsign
  exact ⟨(huse ks' rfl).trans htail.1, by simp [atKind]⟩

/-- Dimensions are skipped as they are read. -/
lemma dims_ends (ks : List Kind) : dims.form.Ends EndsAt ks (dims.EndsAt ks) := by
  simp only [form, ends_opt, ends_append]
  refine ⟨fun hdims => ?_, fun hdims => ⟨.refl ks, (afterDims_eq_self hdims).symm⟩⟩
  obtain ⟨ks, rfl⟩ := atDims_iff.1 hdims
  simp only [ends_take_cons, ends_call]
  rintro ks' ⟨hkeeps, rfl⟩
  have hword : Keeps (.lBrack :: .rBrack :: ks) ks :=
    (keeps_word (by simp) (by simp)).trans (keeps_word (by simp) (by simp))
  exact ⟨hword.trans hkeeps, by rw [afterDims]⟩

/-- Type arguments are skipped to the bracket that closes them. -/
lemma typeArgs_ends (ks : List Kind) : typeArgs.form.Ends EndsAt ks (typeArgs.EndsAt ks) := by
  simp only [form, ends_node, ends_append, unlessAt, ends_ite, ends_empty, ends_call]
  rintro k ks₁ rfl
  have hclose : ∀ ks₂, Keeps ks₁ ks₂ →
      (expect .gt "'>'" : Part).Ends EndsAt ks₂ (typeArgs.EndsAt (k :: ks₁)) := by
    intro ks₂ hkeeps
    refine ends_expect ?_
    rintro ks' rfl ks hks depth rest hskips
    obtain ⟨rfl, rfl⟩ := List.cons.inj hks
    exact skips_gt.1 (hkeeps depth rest hskips)
  exact ⟨fun _ => hclose ks₁ (.refl ks₁), fun _ => hclose⟩

/-- The name of an inner type, after a point, with what follows it. -/
def innerName : Part :=
  opt (fun ks => atKind .dot ks && (thenName ks || thenKind .atSign ks))
    (take ++ call annotations ++ expectName "type name" ++ call typeTail)

/-- A type name goes on with type arguments and with the name of an inner type. -/
lemma form_typeTail : typeTail.form = opt (atKind .lt) (call typeArgs) ++ innerName :=
  rfl

/-- After type arguments, the name of an inner type is skipped as it is read, unless a point follows with
which the grammar would go on. -/
lemma innerName_ends (ks : List Kind) :
    innerName.Ends EndsAt ks fun ks' => Keeps ks ks' ∧
      ∀ rest, afterTypeArgs? ks = some rest → atKind .dot rest = false → ks' = rest := by
  simp only [innerName, ends_opt, ends_append]
  refine ⟨fun h => ?_, fun h => ⟨.refl ks, fun rest hafter _ => ?_⟩⟩
  · obtain ⟨ks, rfl⟩ := atKind_iff.1 (Bool.and_eq_true_iff.1 h).1
    simp only [ends_take_cons, ends_call]
    rintro ks₁ ⟨hkeeps, hsame⟩
    refine ends_expectName ?_
    rintro k ks₂ hk rfl ks' ⟨hkeeps', hend⟩
    have hname : Keeps (.dot :: ks) ks₂ :=
      (keeps_word (by simp) (by simp)).trans (hkeeps.trans (keeps_name hk))
    refine ⟨hname.trans hkeeps', fun rest hafter hdot => ?_⟩
    unfold afterTypeArgs? at hafter
    split at hafter
    · -- Before a plain name there are no annotations.
      rename_i hks
      obtain ⟨-, rfl⟩ := List.cons.inj hks
      obtain ⟨-, rfl⟩ := List.cons.inj (hsame (by simp [atKind]))
      exact hend rest hafter hdot
    · obtain rfl := Option.some.inj hafter
      simp [atKind] at hdot
  · unfold afterTypeArgs? at hafter
    split at hafter
    · simp [atKind, thenName, atName, Lookahead.first, Kind.isName] at h
    · exact Option.some.inj hafter

/-- The rest of a type name is skipped as it is read, unless a point follows with which the grammar would
go on. -/
lemma typeTail_ends (ks : List Kind) : typeTail.form.Ends EndsAt ks (typeTail.EndsAt ks) := by
  simp only [form_typeTail, ends_append, ends_opt, ends_call]
  refine ⟨fun hlt ks₁ hargs => ?_, fun hlt => ?_⟩
  · obtain ⟨ks, rfl⟩ := atKind_iff.1 hlt
    refine (innerName_ends ks₁).imp fun ks' ⟨hkeeps, hend⟩ => ⟨?_, fun rest hafter hdot => ?_⟩
    · intro depth rest hskips
      exact hkeeps depth rest (hargs ks rfl (depth + 1) rest (skips_lt.1 hskips))
    · obtain ⟨rest?, hcount, hrest⟩ := countAngles_succ 0 ks
      rw [afterName?, hrest] at hafter
      obtain ⟨ks₂, rfl, hafter⟩ := Option.bind_eq_some_iff.1 hafter
      obtain rfl : ks₁ = ks₂ := hargs ks rfl 0 ks₂ hcount
      exact hend rest hafter hdot
  · refine (innerName_ends ks).imp fun ks' ⟨hkeeps, hend⟩ => ⟨hkeeps, ?_⟩
    rwa [afterName?_eq hlt]

/-- Further type arguments do not change where counting ends. -/
lemma moreTypeArgs_ends {ks₁ : List Kind} (h : Keeps ks ks₁) :
    (more typeArgList).Ends EndsAt ks₁ (Keeps ks) := by
  simp only [more, ends_opt, ends_append]
  refine ⟨fun hcomma => ?_, fun _ => h⟩
  obtain ⟨ks₂, rfl⟩ := atKind_iff.1 hcomma
  simp only [ends_take_cons, ends_call]
  exact fun ks' hlist => h.trans ((keeps_word (by simp) (by simp)).trans hlist)

/-- A list of type arguments does not change where counting ends. -/
lemma typeArgList_ends (ks : List Kind) :
    typeArgList.form.Ends EndsAt ks (typeArgList.EndsAt ks) := by
  simp only [form, ends_append, ends_call, ends_ite]
  rintro ks₁ ⟨hnotes, -⟩
  refine ⟨fun hquestion => ?_, fun _ ks₂ htype => moreTypeArgs_ends (hnotes.trans htype.1)⟩
  obtain ⟨ks₁, rfl⟩ := atKind_iff.1 hquestion
  have hwild : Keeps ks ks₁ := hnotes.trans (keeps_word (by simp) (by simp))
  simp only [ends_take_cons, ends_opt, ends_append, ends_call]
  refine ⟨fun hbound => ?_, fun _ => moreTypeArgs_ends hwild⟩
  obtain ⟨w, ks₂, rfl⟩ : ∃ w ks₂, ks₁ = .keyword w :: ks₂ := by
    rcases Bool.or_eq_true_iff.1 hbound with hword | hword
    · obtain ⟨ks₂, rfl⟩ := atKind_iff.1 hword
      exact ⟨_, ks₂, rfl⟩
    · obtain ⟨ks₂, rfl⟩ := atKind_iff.1 hword
      exact ⟨_, ks₂, rfl⟩
  rw [ends_take_cons]
  exact fun ks₃ htype =>
    moreTypeArgs_ends (hwild.trans ((keeps_word (by simp) (by simp)).trans htype.1))

/-- A type is skipped as it is read, unless a word follows with which the grammar would go on. -/
lemma type_ends (ks : List Kind) : type.form.Ends EndsAt ks (type.EndsAt ks) := by
  simp only [form, typeCore, ends_node, ends_append, ends_ite, ends_call]
  rintro ks₁ ⟨hnotes, hsame⟩
  refine ⟨fun hprimitive => ?_, fun _ => ⟨fun hname => ?_, fun _ => ends_fail⟩⟩
  · obtain ⟨k, ks₁, rfl, hk⟩ := first_iff.1 hprimitive
    obtain ⟨w, rfl⟩ : ∃ w, k = .keyword w := by
      cases k <;> simp_all [Kind.isPrimitive]
    rw [ends_take_cons]
    rintro ks' ⟨hdims, rfl⟩
    refine ⟨hnotes.trans ((keeps_word (by simp) (by simp)).trans hdims), fun rest hafter _ _ => ?_⟩
    obtain rfl := hsame (atSign_of_afterType? hafter)
    exact (afterType?_keyword hafter).symm
  · obtain ⟨k, ks₁, rfl, hk⟩ := atName_iff.1 hname
    rw [ends_take_cons]
    rintro ks₂ ⟨htail, hend⟩ ks' ⟨hdims, rfl⟩
    refine ⟨hnotes.trans ((keeps_name hk).trans (htail.trans hdims)), fun rest hafter hlt hdot => ?_⟩
    obtain rfl := hsame (atSign_of_afterType? hafter)
    cases k with
    | identifier =>
      obtain ⟨r, hr, rfl⟩ : ∃ r, afterName? ks₁ = some r ∧ afterDims r = rest :=
        Option.map_eq_some_iff.1 hafter
      rw [hend r hr (atKind_afterDims (by simp) hdot)]
    | keyword w =>
      -- The contextual keyword `var` is a name to the grammar, which could go on behind it.
      obtain rfl := afterType?_keyword hafter
      have hlt' := atKind_afterDims (by simp) hlt
      have hdot' := atKind_afterDims (by simp) hdot
      have hnone : afterName? ks₁ = some ks₁ := by
        rw [afterName?_eq hlt']
        unfold afterTypeArgs?
        split
        · simp [atKind] at hdot'
        · rfl
      rw [hend ks₁ hnone hdot']
    | _ => simp [Kind.isName] at hk

/-- Further bounds of a cast are skipped as they are read. -/
lemma bounds_ends (ks : List Kind) : bounds.form.Ends EndsAt ks (bounds.EndsAt ks) := by
  simp only [form, ends_opt, ends_append]
  refine ⟨fun hand => ?_, fun hand fuel rest hafter => ?_⟩
  · obtain ⟨ks, rfl⟩ := atKind_iff.1 hand
    simp only [ends_take_cons, ends_call]
    rintro ks₁ ⟨-, htype⟩ ks' hbounds fuel rest hafter
    cases fuel with
    | zero => simp [afterBounds?] at hafter
    | succ fuel =>
      rw [afterBounds?] at hafter
      obtain ⟨r, hr, hafter⟩ := Option.bind_eq_some_iff.1 hafter
      obtain ⟨hlt, hdot⟩ := afterBounds?_rParen hafter
      obtain rfl : ks₁ = r := htype r hr hlt hdot
      exact hbounds fuel rest hafter
  · rw [afterBounds?_eq_self hand] at hafter
    exact Option.some.inj hafter

/-- The rules stop where they are said to. -/
theorem form_ends (rule : Rule) (ks : List Kind) : rule.form.Ends EndsAt ks (rule.EndsAt ks) := by
  cases rule with
  | nameTail => exact nameTail_ends ks
  | annotationUse => exact annotationUse_ends ks
  | annotations => exact annotations_ends ks
  | type => exact type_ends ks
  | typeTail => exact typeTail_ends ks
  | dims => exact dims_ends ks
  | typeArgs => exact typeArgs_ends ks
  | typeArgList => exact typeArgList_ends ks
  | bounds => exact bounds_ends ks
  | _ => exact ends_of_forall (fun _ => trivial) _ ks

end Rule

end JavaLint
