import JavaLint.Proofs.Grammar.Fuel
import JavaLint.Proofs.Grammar.Parens
import JavaLint.Proofs.Grammar.TypeEnds
import Mathlib.Tactic.Common

/-!
# Looking ahead and reading agree

Three times the grammar looks ahead over any number of words before it decides how to go on: for a type
before a declared name (`atLocalVar`, `atResource`), for the types in a cast (`atCast`), and for a pair of
parentheses before an arrow (`atLambdaParams`).  What is then read is read by other rules, which do not know
what was seen.  They may still refuse the words, but they never stop anywhere else than where the look ahead
did.

The main result is `lookahead_agrees_with_grammar`.
-/

namespace JavaLint

namespace Rule

open Form Lookahead

/-- If the part is read before the words `ks`, then `goal` holds of what was read and of the words after it.
Otherwise it is refused by the grammar, unless a chain of rules is cut off for lack of fuel. -/
def Yields (part : Part) (room : Nat) (ks : List Kind) (goal : Shape → List Kind → Prop) : Prop :=
  ∀ fuel, match part.read (readRule form fuel) room ks with
    | .ok (f, ks') => goal f ks'
    | .error stop => stop.cause = .unfinished → fuel < fuelFor ks.length

variable {part : Part} {fuel room : Nat} {ks ks' ts rest : List Kind} {k : Kind} {f : Shape}
  {goal : Shape → List Kind → Prop}

/-- The grammar of Java files has fuel for all words, so only what is read is to be looked at. -/
lemma yields_of_ok
    (h : ∀ fuel f ks', part.read (readRule form fuel) room ks = .ok (f, ks') → goal f ks') :
    Yields part room ks goal := by
  intro fuel
  cases hread : part.read (readRule form fuel) room ks with
  | ok result => exact h fuel result.1 result.2 hread
  | error stop =>
    intro hcut
    by_contra hfuel
    obtain ⟨cause, left⟩ := stop
    obtain rfl : cause = .unfinished := hcut
    exact read_finishes_of_le part room ks (Nat.le_of_not_lt hfuel) left hread

/-! ## What is seen -/

/-- A type that is seen before a name consists of the words before that name. -/
lemma exists_name_of_afterType? (hafter : afterType? ks = some rest) (hname : atName rest = true) :
    ∃ ts k rest, ks = ts ++ k :: rest ∧ k.isName = true ∧ afterType? ks = some (k :: rest) := by
  obtain ⟨k, rest, rfl, hk⟩ := atName_iff.1 hname
  obtain ⟨ts, rfl⟩ := afterType?_suffix hafter
  exact ⟨ts, k, rest, rfl, hk, hafter⟩

/-- Where a local variable is seen there is a type before its name. -/
lemma exists_name_of_atLocalVar (h : atLocalVar ks = true) :
    ∃ ts k rest, ks = ts ++ k :: rest ∧ k.isName = true ∧ afterType? ks = some (k :: rest) := by
  unfold atLocalVar at h
  split at h
  · exact exists_name_of_afterType? ‹_› (Bool.and_eq_true_iff.1 h).1
  · cases h

/-- Where a declared resource is seen there is a type before its name. -/
lemma exists_name_of_atResource (h : atResource ks = true) :
    ∃ ts k rest, ks = ts ++ k :: rest ∧ k.isName = true ∧ afterType? ks = some (k :: rest) := by
  unfold atResource at h
  split at h
  · exact exists_name_of_afterType? ‹_› (Bool.and_eq_true_iff.1 h).1
  · cases h

/-- Where a cast is seen there are types between its parentheses. -/
lemma exists_rParen_of_atCast {previous : Option Kind} (h : atCast previous ks = true) :
    ∃ inner rest, ks = .lParen :: (inner ++ .rParen :: rest) ∧
      (afterType? ks.tail).bind (afterBounds? ks.tail.length) = some (.rParen :: rest) := by
  unfold atCast at h
  split at h
  · rename_i ks
    have hscan := (Bool.and_eq_true_iff.1 h).2
    split at hscan
    · rename_i rest hafter
      obtain ⟨ks₁, htype, hbounds⟩ := Option.bind_eq_some_iff.1 hafter
      obtain ⟨inner, rfl⟩ := (afterBounds?_suffix hbounds).trans (afterType?_suffix htype)
      exact ⟨inner, rest, rfl, hafter⟩
    · cases hscan
  · cases h

/-- Where the parameters of a lambda are seen, the parenthesis that closes the first stands before an
arrow. -/
lemma exists_arrow_of_atLambdaParams (h : atLambdaParams ks = true) :
    ∃ inner rest, ks = .lParen :: (inner ++ .rParen :: .arrow :: rest) ∧
      WellBracketed (parenMarks inner) := by
  unfold atLambdaParams at h
  split at h
  · obtain ⟨inner, rest, rfl, hinner, harrow⟩ := closesBeforeArrow_split h
    obtain ⟨rest, rfl⟩ := atKind_iff.1 harrow
    exact ⟨inner, rest, rfl, hinner⟩
  · cases h

/-! ## Declared variables -/

/-- The forest starts with a node of the given kind that declares variables of a type with the words `ts`,
the first of which has the name `k`. -/
def DeclaresVariable (kind : NodeKind) (ts : List Kind) (k : Kind) (f : Shape) : Prop :=
  ∃ type inside more after, type.leaves = ts ∧
    f = .node kind (.node .type type
      (.node .variableDeclarator (.node .name (.leaf k .nil) inside) more)) after

/-- The forest starts with a resource of a type with the words `ts` and with the name `k`. -/
def DeclaresResource (ts : List Kind) (k : Kind) (f : Shape) : Prop :=
  ∃ type more after, type.leaves = ts ∧
    f = .node .resource (.node .type type (.node .name (.leaf k .nil) more)) after

/-- A name is no word with which a type could go on. -/
lemma atKind_of_isName (hk : k.isName = true) (rest : List Kind) :
    atKind .lt (k :: rest) = false ∧ atKind .dot (k :: rest) = false := by
  cases k <;> simp_all [Kind.isName, atKind]

/-- A type is read to where it was seen to end. -/
lemma read_type_ends (hafter : afterType? ks = some rest) (hlt : atKind .lt rest = false)
    (hdot : atKind .dot rest = false) (hread : readRule form fuel type room ks = .ok (f, ks')) :
    ks' = rest :=
  (readRule_ends form_ends fuel type room ks f ks' hread).2 rest hafter hlt hdot

/-- A type before a name is one node with the words before that name. -/
lemma read_type_before_name (hafter : afterType? (ts ++ k :: rest) = some (k :: rest))
    (hk : k.isName = true)
    (hread : readRule form fuel type room (ts ++ k :: rest) = .ok (f, ks')) :
    ks' = k :: rest ∧ ∃ inside, inside.leaves = ts ∧ f = .node .type inside .nil := by
  obtain ⟨hlt, hdot⟩ := atKind_of_isName hk rest
  obtain rfl := read_type_ends hafter hlt hdot hread
  have hleaves := readRule_lossless form _ _ _ _ _ _ hread
  cases fuel with
  | zero => simp [readRule] at hread
  | succ fuel =>
    obtain ⟨inside, -, rfl⟩ := read_node_eq_ok.1 hread
    refine ⟨rfl, inside, ?_, rfl⟩
    simpa [Forest.leaves] using hleaves

/-- Where a type was seen there is no modifier, and no type declaration. -/
lemma not_atModifier_of_afterType? (hafter : afterType? ks = some rest) :
    atModifier ks = false ∧ atLocalModifier ks = false ∧ atTypeDecl ks = false := by
  cases ks with
  | nil => simp [afterType?] at hafter
  | cons k ks =>
    cases k with
    | keyword w => cases w <;> simp_all [afterType?, Keyword.isPrimitive, atModifier, atLocalModifier,
        atTypeDecl, Keyword.isModifier]
    | identifier => simp [atModifier, atLocalModifier, atTypeDecl]
    | _ => simp [afterType?] at hafter

/-- There are no modifiers before a word that is none. -/
lemma read_modifiers (hnone : atModifier ks = false)
    (hread : modifiers.read (readRule form fuel) room ks = .ok (f, ks')) : f = .nil ∧ ks' = ks := by
  rw [modifiers, opt, read_ite_neg hnone] at hread
  obtain ⟨rfl, rfl⟩ := Prod.mk.inj (Except.ok.inj hread)
  exact ⟨rfl, rfl⟩

/-- A declared name is one node. -/
lemma read_declaredName {what : String}
    (hread : (declaredName what).read (readRule form fuel) room (k :: rest) = .ok (f, ks')) :
    f = .node .name (.leaf k .nil) .nil := by
  cases hname : atName (k :: rest) with
  | true =>
    rw [declaredName, read_ite_pos hname] at hread
    obtain ⟨g, htake, rfl⟩ := read_node_eq_ok.1 hread
    obtain ⟨k', hk', rfl⟩ := read_take_eq_ok.1 htake
    obtain ⟨rfl, -⟩ := List.cons.inj hk'
    rfl
  | false =>
    rw [declaredName, read_ite_neg hname] at hread
    cases hread

/-- Declarators start with the name of the first variable. -/
lemma read_declarators (hread : readRule form fuel declarators room (k :: rest) = .ok (f, ks')) :
    ∃ inside more, f = .node .variableDeclarator (.node .name (.leaf k .nil) inside) more := by
  cases fuel with
  | zero => simp [readRule] at hread
  | succ fuel =>
    obtain ⟨first, ks₁, more, hfirst, -, rfl⟩ := read_seq_eq_ok.1 hread
    obtain ⟨inside, hinside, rfl⟩ := read_node_eq_ok.1 hfirst
    obtain ⟨head, ks₂, value, hhead, -, rfl⟩ := read_seq_eq_ok.1 hinside
    obtain ⟨name, ks₃, dims, hname, -, rfl⟩ := read_seq_eq_ok.1 hhead
    obtain rfl := read_declaredName hname
    exact ⟨_, _, rfl⟩

/-- A type and declarators are a node for the type and one for the variable whose name was seen. -/
lemma read_type_declarators (hafter : afterType? (ts ++ k :: rest) = some (k :: rest))
    (hk : k.isName = true)
    (hread : (call type ++ call declarators).read (readRule form fuel) room (ts ++ k :: rest) =
      .ok (f, ks')) :
    ∃ type inside more, type.leaves = ts ∧
      f = .node .type type (.node .variableDeclarator (.node .name (.leaf k .nil) inside) more) := by
  obtain ⟨g, ks₁, h, htype, hdeclarators, rfl⟩ := read_seq_eq_ok.1 hread
  obtain ⟨rfl, type, hleaves, rfl⟩ := read_type_before_name hafter hk htype
  obtain ⟨inside, more, rfl⟩ := read_declarators hdeclarators
  exact ⟨type, inside, more, hleaves, rfl⟩

/-- A type is read to the name that was seen after it. -/
lemma type_yields (hafter : afterType? ks = some (k :: rest)) (hk : k.isName = true) :
    Yields (call type) room ks fun _ ks' => ks' = k :: rest := by
  obtain ⟨hlt, hdot⟩ := atKind_of_isName hk rest
  exact yields_of_ok fun fuel f ks' hread => read_type_ends hafter hlt hdot hread

/-- A statement at which a local variable was seen declares it. -/
lemma blockStatement_yields (hlocal : atLocalVar (ts ++ k :: rest) = true)
    (hafter : afterType? (ts ++ k :: rest) = some (k :: rest)) (hk : k.isName = true) :
    Yields (call blockStatement) room (ts ++ k :: rest)
      fun f _ => DeclaresVariable .localVarDecl ts k f := by
  refine yields_of_ok fun fuel f ks' hread => ?_
  obtain ⟨-, hmodifier, htypeDecl⟩ := not_atModifier_of_afterType? hafter
  cases fuel with
  | zero => simp [Form.read, readRule] at hread
  | succ fuel =>
    have hlocalVar : localVar.read (readRule form fuel) room (ts ++ k :: rest) = .ok (f, ks') := by
      simpa [Form.read, readRule, form, hmodifier, htypeDecl, hlocal] using hread
    obtain ⟨g, hinside, rfl⟩ := read_node_eq_ok.1 hlocalVar
    obtain ⟨g, ks₁, h, hdeclared, -, rfl⟩ := read_seq_eq_ok.1 hinside
    obtain ⟨type, inside, more, hleaves, rfl⟩ := read_type_declarators hafter hk hdeclared
    exact ⟨type, inside, _, _, hleaves, rfl⟩

/-- The head of a `for` statement at which a local variable was seen declares it. -/
lemma forHeader_yields (hlocal : atLocalVar (ts ++ k :: rest) = true)
    (hafter : afterType? (ts ++ k :: rest) = some (k :: rest)) (hk : k.isName = true) :
    Yields forHeader room (ts ++ k :: rest) fun f _ => DeclaresVariable .forInit ts k f := by
  refine yields_of_ok fun fuel f ks' hread => ?_
  obtain ⟨hmodifier, -, -⟩ := not_atModifier_of_afterType? hafter
  obtain ⟨g, ks₁, after, hinit, -, rfl⟩ := read_seq_eq_ok.1 hread
  rw [read_ite_pos (by simp [hlocal])] at hinit
  obtain ⟨g, hinside, rfl⟩ := read_node_eq_ok.1 hinit
  obtain ⟨g, ks₂, declared, hhead, hdeclarators, rfl⟩ := read_seq_eq_ok.1 hinside
  obtain ⟨none, ks₃, type, hmodifiers, htype, rfl⟩ := read_seq_eq_ok.1 hhead
  obtain ⟨rfl, rfl⟩ := read_modifiers hmodifier hmodifiers
  obtain ⟨type, inside, more, hleaves, hdeclared⟩ := read_type_declarators hafter hk
    (read_seq_eq_ok.2 ⟨_, _, _, htype, hdeclarators, rfl⟩)
  exact ⟨type, inside, more, after, hleaves, by rw [Forest.nil_append, hdeclared]; rfl⟩

/-- A resource at which a declaration was seen declares it. -/
lemma resource_yields (hresource : atResource (ts ++ k :: rest) = true)
    (hafter : afterType? (ts ++ k :: rest) = some (k :: rest)) (hk : k.isName = true) :
    Yields resource room (ts ++ k :: rest) fun f _ => DeclaresResource ts k f := by
  refine yields_of_ok fun fuel f ks' hread => ?_
  obtain ⟨hmodifier, -, -⟩ := not_atModifier_of_afterType? hafter
  rw [resource, read_ite_pos (by simp [hresource])] at hread
  obtain ⟨g, hinside, rfl⟩ := read_node_eq_ok.1 hread
  obtain ⟨g, ks₁, value, hassigned, -, rfl⟩ := read_seq_eq_ok.1 hinside
  obtain ⟨g, ks₂, sign, hnamed, -, rfl⟩ := read_seq_eq_ok.1 hassigned
  obtain ⟨g, ks₃, name, htyped, hname, rfl⟩ := read_seq_eq_ok.1 hnamed
  obtain ⟨none, ks₄, type, hmodifiers, htype, rfl⟩ := read_seq_eq_ok.1 htyped
  obtain ⟨rfl, rfl⟩ := read_modifiers hmodifier hmodifiers
  obtain ⟨rfl, inside, hleaves, rfl⟩ := read_type_before_name hafter hk htype
  obtain rfl := read_declaredName hname
  exact ⟨inside, _, _, hleaves, rfl⟩

/-! ## Casts and the parameters of lambdas -/

/-- A cast is read to the parenthesis that was seen to close it. -/
lemma cast_yields {fuel' : Nat}
    (hafter : (afterType? ks).bind (afterBounds? fuel') = some (.rParen :: rest)) :
    Yields cast room (.lParen :: ks) fun _ ks' => ks' = rest := by
  refine yields_of_ok fun fuel f ks' hread => ?_
  obtain ⟨ks₁, htype, hbounds⟩ := Option.bind_eq_some_iff.1 hafter
  obtain ⟨hlt, hdot⟩ := afterBounds?_rParen hbounds
  have hends : cast.Ends EndsAt (.lParen :: ks) (· = rest) := by
    simp only [cast, ends_node, ends_append, ends_take_cons, ends_call]
    rintro ks₂ ⟨-, hend⟩ ks₃ hmore
    obtain rfl := hend ks₁ htype hlt hdot
    obtain rfl := hmore fuel' rest hbounds
    exact ends_expect fun ks₄ hks => (List.cons.inj hks).2.symm
  have hgoal := read_ends (readRule_ends form_ends fuel) hends hread
  exact hgoal

/-- The parameters of a lambda are read to the parenthesis before the arrow that was seen. -/
lemma lambdaParams_yields {inner : List Kind} (hinner : WellBracketed (parenMarks inner)) :
    Yields lambdaParams room (.lParen :: (inner ++ .rParen :: rest)) fun _ ks' => ks' = rest := by
  refine yields_of_ok fun fuel f ks' hread => ?_
  obtain ⟨inner', hks, hinner'⟩ := lambdaParams_closes hread
  exact (rParen_unique hinner hinner' hks).2.symm

end Rule

open Lookahead Rule

/-- Where looking ahead sees a type before a declared name, that type, if it is not refused, is read to this
name, and it is this name that the declaration gives to its variable.  Where it sees a cast, the cast, if it
is not refused, is read to the closing parenthesis that was seen.  Where it sees a pair of parentheses before
an arrow, the parameters in it, if they are not refused, are read to this arrow. -/
theorem lookahead_agrees_with_grammar (room : Nat) (ks : List Kind) :
    (atLocalVar ks = true → ∃ ts k rest, ks = ts ++ k :: rest ∧ k.isName = true ∧
      afterType? ks = some (k :: rest) ∧
      Yields (.call .type) room ks (fun _ ks' => ks' = k :: rest) ∧
      Yields (.call .blockStatement) room ks (fun f _ => DeclaresVariable .localVarDecl ts k f) ∧
      Yields forHeader room ks (fun f _ => DeclaresVariable .forInit ts k f)) ∧
    (atResource ks = true → ∃ ts k rest, ks = ts ++ k :: rest ∧ k.isName = true ∧
      afterType? ks = some (k :: rest) ∧
      Yields (.call .type) room ks (fun _ ks' => ks' = k :: rest) ∧
      Yields resource room ks (fun f _ => DeclaresResource ts k f)) ∧
    (∀ previous, atCast previous ks = true → ∃ inner rest, ks = .lParen :: (inner ++ .rParen :: rest) ∧
      (afterType? ks.tail).bind (afterBounds? ks.tail.length) = some (.rParen :: rest) ∧
      Yields cast room ks (fun _ ks' => ks' = rest)) ∧
    (atLambdaParams ks = true → ∃ inner rest, ks = .lParen :: (inner ++ .rParen :: .arrow :: rest) ∧
      WellBracketed (parenMarks inner) ∧
      Yields lambdaParams room ks (fun _ ks' => ks' = .arrow :: rest)) := by
  refine ⟨fun h => ?_, fun h => ?_, fun previous h => ?_, fun h => ?_⟩
  · obtain ⟨ts, k, rest, rfl, hk, hafter⟩ := exists_name_of_atLocalVar h
    exact ⟨ts, k, rest, rfl, hk, hafter, type_yields hafter hk, blockStatement_yields h hafter hk,
      forHeader_yields h hafter hk⟩
  · obtain ⟨ts, k, rest, rfl, hk, hafter⟩ := exists_name_of_atResource h
    exact ⟨ts, k, rest, rfl, hk, hafter, type_yields hafter hk, resource_yields h hafter hk⟩
  · obtain ⟨inner, rest, rfl, hafter⟩ := exists_rParen_of_atCast h
    exact ⟨inner, rest, rfl, hafter, cast_yields hafter⟩
  · obtain ⟨inner, rest, rfl, hinner⟩ := exists_arrow_of_atLambdaParams h
    exact ⟨inner, rest, rfl, hinner, lambdaParams_yields hinner⟩

/-- The type in `Map<String, List<int[]>> m =` is read to the name `m`, the cast in `(A & B) x` to `x`, and
the parameters in `(a) -> a` to the arrow. -/
theorem nested_type_and_cast_and_lambda_agree :
    Yields (.call .type) 3 [.identifier, .lt, .identifier, .comma, .identifier, .lt, .keyword .intKw,
      .lBrack, .rBrack, .gt, .gt, .identifier, .assign] (fun _ ks' => ks' = [.identifier, .assign]) ∧
    Yields cast 3 [.lParen, .identifier, .bitAnd, .identifier, .rParen, .identifier]
      (fun _ ks' => ks' = [.identifier]) ∧
    Yields lambdaParams 3 [.lParen, .identifier, .rParen, .arrow, .identifier]
      (fun _ ks' => ks' = [.arrow, .identifier]) := by
  have hlocal : atLocalVar [.identifier, .lt, .identifier, .comma, .identifier, .lt, .keyword .intKw,
      .lBrack, .rBrack, .gt, .gt, .identifier, .assign] = true := by decide
  have hcast : atCast none [.lParen, .identifier, .bitAnd, .identifier, .rParen, .identifier] = true := by
    decide
  have hlambda : atLambdaParams [.lParen, .identifier, .rParen, .arrow, .identifier] = true := by decide
  obtain ⟨ts, k, rest, -, -, hafter, htype, -⟩ := (lookahead_agrees_with_grammar 3 _).1 hlocal
  obtain ⟨inner, rest', -, hafter', hends⟩ := (lookahead_agrees_with_grammar 3 _).2.2.1 none hcast
  obtain ⟨inner', rest'', hks, hinner, hparams⟩ := (lookahead_agrees_with_grammar 3 _).2.2.2 hlambda
  obtain ⟨rfl, rfl⟩ := List.cons.inj (Option.some.inj hafter)
  obtain ⟨-, rfl⟩ := List.cons.inj (Option.some.inj hafter')
  have hword : WellBracketed (parenMarks [.identifier]) := .nil
  obtain ⟨-, rfl⟩ := List.cons.inj (rParen_unique hinner hword (List.cons.inj hks).2.symm).2
  exact ⟨htype, hends, hparams⟩

end JavaLint
