import JavaLint.Proofs.Grammar.Java
import Mathlib.Tactic.Common

/-!
# Counters of open constructs

The grammar has three counts of what is open: the depth of nesting, the angle brackets of type
arguments, and the parentheses before an arrow.  The definitions pass them down in a form in which
they cannot fall below zero.  Here each is also given as a single counter that is raised and
lowered on the way and could fail, and it is shown that it never does: the counters agree with the
definitions on all words.
-/

namespace JavaLint

/-! ## The depth of nesting -/

/-- A reader that is given the depth at which it starts and answers the depth at which it ends.
It fails for the reason `none` if the depth would fall below zero. -/
abbrev CountingReader := Nat → List Kind → Except (Option Stop) (Shape × List Kind × Nat)

/-- Reads the words that a form describes, with a counter that is raised where a nested part
starts and lowered where it ends. -/
def Form.readCounting {ρ : Type} (limit : Nat) (follow : ρ → CountingReader) :
    Form ρ → CountingReader
  | empty, depth, ks => .ok (.nil, ks, depth)
  | fail what, _, ks => .error (some ⟨.expected what, ks.length⟩)
  | take, _, [] => .error (some ⟨.expected "word", 0⟩)
  | take, depth, k :: ks => .ok (.leaf k .nil, ks, depth)
  | call rule, depth, ks => follow rule depth ks
  | seq first second, depth, ks => do
    let (f, ks, depth) ← first.readCounting limit follow depth ks
    let (g, ks, depth) ← second.readCounting limit follow depth ks
    return (f ++ g, ks, depth)
  | node kind inside, depth, ks => do
    let (f, ks, depth) ← inside.readCounting limit follow depth ks
    return (.node kind f .nil, ks, depth)
  | adopt head tail, depth, ks => do
    let (f, ks, depth) ← head.readCounting limit follow depth ks
    let (g, ks, depth) ← tail.readCounting limit follow depth ks
    return (f.adopt g, ks, depth)
  | nest inside, depth, ks => do
    let depth := depth + 1
    if limit < depth then throw (some ⟨.tooDeep, ks.length⟩)
    let (f, ks, depth) ← inside.readCounting limit follow depth ks
    match depth with
    | 0 => throw none
    | depth + 1 => return (f, ks, depth)
  | look choose, depth, ks => (choose ks).readCounting limit follow depth ks

/-- Follows a rule of a grammar with a counter for the depth of nesting. -/
def readRuleCounting {ρ : Type} (grammar : ρ → Form ρ) (limit : Nat) : Nat → ρ → CountingReader
  | 0, _, _, ks => .error (some ⟨.unfinished, ks.length⟩)
  | fuel + 1, rule, depth, ks =>
    (grammar rule).readCounting limit (readRuleCounting grammar limit fuel) depth ks

/-- A reader that takes what is left of the limit, as one that counts: it ends at the depth at
which it started. -/
def Reader.counted (reader : Reader) (limit : Nat) : CountingReader := fun depth ks =>
  match reader (limit - depth) ks with
  | .ok (f, ks') => .ok (f, ks', depth)
  | .error stop => .error (some stop)

/-- Reading a form with a counter is reading it with what is left of the limit, if this is so for
the rules. -/
lemma Form.readCounting_eq {ρ : Type} {limit : Nat} {follow : ρ → Reader}
    {follow' : ρ → CountingReader}
    (hfollow : ∀ rule depth ks, depth ≤ limit →
      follow' rule depth ks = (follow rule).counted limit depth ks)
    (form : Form ρ) (depth : Nat) (hdepth : depth ≤ limit) (ks : List Kind) :
    form.readCounting limit follow' depth ks = Reader.counted (form.read follow) limit depth ks := by
  induction form generalizing depth ks with
  | empty => rfl
  | fail what => rfl
  | take => cases ks <;> rfl
  | call rule => exact hfollow rule depth ks hdepth
  | seq a b iha ihb =>
    simp only [readCounting, iha depth hdepth, Reader.counted, read]
    cases a.read follow (limit - depth) ks with
    | error stop => rfl
    | ok result =>
      obtain ⟨f, ks'⟩ := result
      have hsecond := ihb depth hdepth ks'
      simp only [bind, Except.bind, hsecond, Reader.counted]
      cases b.read follow (limit - depth) ks' <;> rfl
  | node k a ih =>
    simp only [readCounting, ih depth hdepth, Reader.counted, read]
    cases a.read follow (limit - depth) ks <;> rfl
  | adopt a b iha ihb =>
    simp only [readCounting, iha depth hdepth, Reader.counted, read]
    cases a.read follow (limit - depth) ks with
    | error stop => rfl
    | ok result =>
      obtain ⟨f, ks'⟩ := result
      have hsecond := ihb depth hdepth ks'
      simp only [bind, Except.bind, hsecond, Reader.counted]
      cases b.read follow (limit - depth) ks' <;> rfl
  | nest a ih =>
    by_cases hlimit : limit < depth + 1
    · obtain rfl : depth = limit := by omega
      simp [readCounting, Reader.counted, read, hlimit, bind, Except.bind, throw, throwThe,
        MonadExceptOf.throw]
    · -- The counter comes back to the depth inside, which is not zero.
      have hroom : limit - depth = limit - (depth + 1) + 1 := by omega
      have hinside := ih (depth + 1) (by omega) ks
      simp only [readCounting, if_neg hlimit, hinside, Reader.counted, hroom, read]
      cases a.read follow (limit - (depth + 1)) ks <;> rfl
  | look choose ih => exact ih ks depth hdepth ks

/-- The counter for the depth of nesting never falls below zero, and following a rule brings it
back to where it was. -/
theorem readRuleCounting_eq {ρ : Type} (grammar : ρ → Form ρ) (limit fuel : Nat) (rule : ρ)
    (depth : Nat) (ks : List Kind) (hdepth : depth ≤ limit) :
    readRuleCounting grammar limit fuel rule depth ks =
      Reader.counted (readRule grammar fuel rule) limit depth ks := by
  induction fuel generalizing rule depth ks with
  | zero => rfl
  | succ fuel ih => exact Form.readCounting_eq ih (grammar rule) depth hdepth ks

/-- Reads the shape of a file with a counter for the depth of nesting, which starts at zero. -/
def readShapeCounting (ks : List Kind) : Except (Option Stop) (Shape × List Kind × Nat) :=
  readRuleCounting Rule.form maxNesting (fuelFor ks.length) .items 0 ks

/-- The counter for the depth of nesting is zero again when all words of a file have been read, and
it is never the reason why a file is refused. -/
theorem readShapeCounting_eq (ks : List Kind) :
    readShapeCounting ks =
      match readShape ks with
      | .ok shape => .ok (shape, [], 0)
      | .error stop => .error (some stop) := by
  rw [readShapeCounting, readRuleCounting_eq _ _ _ _ _ _ (Nat.zero_le _), Reader.counted, readShape,
    Nat.sub_zero]
  cases hread : readRule Rule.form (fuelFor ks.length) .items maxNesting ks with
  | error stop => rfl
  | ok result =>
    obtain ⟨shape, ks'⟩ := result
    obtain rfl := Rule.items_reads_all hread
    rfl

namespace Lookahead

/-! ## Angle brackets -/

/-- The words after type arguments, found with a counter for the open angle brackets.  The answer
is `none` if the counter would fall below zero, and `some none` if there are no type arguments. -/
def countAngles : Nat → List Kind → Option (Option (List Kind))
  | _, [] => some none
  | depth, .lt :: ks => countAngles (depth + 1) ks
  | 0, .gt :: _ => none
  | depth + 1, .gt :: ks => if depth = 0 then some (some ks) else countAngles depth ks
  | depth, k :: ks => if inTypeArgs k then countAngles depth ks else some none

/-- The words after the rest of a type name, whose type arguments have just been read. -/
def afterTypeArgs? : List Kind → Option (List Kind)
  | .dot :: .identifier :: ks => afterName? ks
  | ks => some ks

/-- A word that is no angle bracket leaves the counter alone. -/
lemma countAngles_cons {depth : Nat} {k : Kind} {ks : List Kind} (hlt : k ≠ .lt) (hgt : k ≠ .gt) :
    countAngles (depth + 1) (k :: ks) =
      if inTypeArgs k then countAngles (depth + 1) ks else some none := by
  rw [countAngles] <;> simp_all

/-- While an angle bracket is open, the counter does not fall below zero, and it finds the end of
the type arguments where the grammar does. -/
lemma countAngles_succ (depth : Nat) (ks : List Kind) :
    ∃ rest, countAngles (depth + 1) ks = some rest ∧ afterArgs? depth ks = rest.bind afterTypeArgs? := by
  induction ks generalizing depth with
  | nil => exact ⟨none, rfl, by simp [afterArgs?]⟩
  | cons k ks ih =>
    by_cases hlt : k = .lt
    · subst hlt
      obtain ⟨rest, hcount, hafter⟩ := ih (depth + 1)
      exact ⟨rest, by rw [countAngles, hcount], by rw [afterArgs?, hafter]⟩
    by_cases hgt : k = .gt
    · subst hgt
      cases depth with
      | zero =>
        refine ⟨some ks, by simp [countAngles], ?_⟩
        rw [Option.bind_some]
        unfold afterTypeArgs?
        split
        · rw [afterArgs?]
        · rename_i hks
          rw [afterArgs?]
          exact hks
      | succ depth =>
        obtain ⟨rest, hcount, hafter⟩ := ih depth
        exact ⟨rest, by simp [countAngles, hcount], by rw [afterArgs?, hafter]⟩
    · -- Any other word leaves the counter alone.
      have hafter : afterArgs? depth (k :: ks) =
          if inTypeArgs k then afterArgs? depth ks else none := by
        rw [afterArgs?] <;> simp_all
      rw [countAngles_cons hlt hgt, hafter]
      split
      · exact ih depth
      · exact ⟨none, rfl, rfl⟩

/-- The counter for angle brackets starts at zero before an opening one and never falls below zero,
and it finds the end of the type arguments where the grammar does. -/
theorem countAngles_lt (ks : List Kind) :
    ∃ rest, countAngles 0 (.lt :: ks) = some rest ∧
      afterName? (.lt :: ks) = rest.bind afterTypeArgs? := by
  obtain ⟨rest, hcount, hafter⟩ := countAngles_succ 0 ks
  exact ⟨rest, by rw [countAngles, hcount], by rw [afterName?, hafter]⟩

/-! ## Parentheses -/

/-- Whether the parenthesis that closes the first one stands before an arrow, found with a counter
for the open parentheses.  The answer is `none` if the counter would fall below zero. -/
def countParens : Nat → List Kind → Option Bool
  | _, [] => some false
  | depth, .lParen :: ks => countParens (depth + 1) ks
  | 0, .rParen :: _ => none
  | depth + 1, .rParen :: ks => if depth = 0 then some (atKind .arrow ks) else countParens depth ks
  | depth, _ :: ks => countParens depth ks

/-- A word that is no parenthesis is passed over. -/
lemma closesBeforeArrow_cons {depth : Nat} {k : Kind} {ks : List Kind} (hopen : k ≠ .lParen)
    (hclose : k ≠ .rParen) : closesBeforeArrow depth (k :: ks) = closesBeforeArrow depth ks := by
  rw [closesBeforeArrow] <;> simp_all

/-- While a parenthesis is open, the counter does not fall below zero. -/
lemma countParens_succ (depth : Nat) (ks : List Kind) :
    countParens (depth + 1) ks = some (closesBeforeArrow depth ks) := by
  induction ks generalizing depth with
  | nil => rfl
  | cons k ks ih =>
    by_cases hopen : k = .lParen
    · subst hopen
      rw [countParens, closesBeforeArrow, ih]
    by_cases hclose : k = .rParen
    · subst hclose
      cases depth with
      | zero => simp [countParens, closesBeforeArrow]
      | succ depth => simp [countParens, closesBeforeArrow, ih]
    · have hcount : countParens (depth + 1) (k :: ks) = countParens (depth + 1) ks := by
        rw [countParens] <;> simp_all
      rw [hcount, closesBeforeArrow_cons hopen hclose, ih]

/-- The counter for parentheses starts at zero before an opening one and never falls below zero,
and it finds the parameters of a lambda where the grammar does. -/
theorem countParens_lParen (ks : List Kind) :
    countParens 0 (.lParen :: ks) = some (atLambdaParams (.lParen :: ks)) := by
  rw [countParens, countParens_succ, atLambdaParams]

end Lookahead

end JavaLint
