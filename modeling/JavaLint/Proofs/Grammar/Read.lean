import JavaLint.Grammar.Form
import Mathlib.Tactic.Common

/-!
# What reading a form does

The facts about `Form.read` and `readRule` that hold for every grammar.  The first part inverts a
successful reading of each form.  The second part shows that reading is lossless: the leaves of
what was read, followed by the words that are left, are the words to come.  The third part shows
that a reading which fails does so at one of these words or at their end.
-/

namespace JavaLint

/-- A reader neither drops nor invents words. -/
def IsLossless (reader : Reader) : Prop :=
  ∀ room ks f ks', reader room ks = .ok (f, ks') → f.leaves ++ ks' = ks

/-- A lossless reader leaves the words as they are, or fewer of them. -/
lemma IsLossless.eq_or_length_lt {reader : Reader} (h : IsLossless reader) {room : Nat}
    {ks ks' : List Kind} {f : Shape} (hread : reader room ks = .ok (f, ks')) :
    ks' = ks ∨ ks'.length < ks.length := by
  have hleaves := h room ks f ks' hread
  cases hf : f.leaves with
  | nil =>
    left
    rwa [hf, List.nil_append] at hleaves
  | cons k leaves =>
    right
    rw [← hleaves, hf, List.length_append, List.length_cons]
    omega

/-- A lossless reader leaves no more words than there were. -/
lemma IsLossless.length_le {reader : Reader} (h : IsLossless reader) {room : Nat}
    {ks ks' : List Kind} {f : Shape} (hread : reader room ks = .ok (f, ks')) :
    ks'.length ≤ ks.length := by
  rw [← h room ks f ks' hread, List.length_append]
  omega

/-- A reader that fails does so with no more words unread than there were. -/
def StopsInside (reader : Reader) : Prop :=
  ∀ room ks stop, reader room ks = .error stop → stop.left ≤ ks.length

namespace Form

variable {ρ : Type} {follow : ρ → Reader}

/-! ## Inversion -/

/-- Two parts that are read one after the other, whose shapes are then combined. -/
lemma combine_eq_ok {first : Except Stop (Shape × List Kind)} {second : Reader}
    {combine : Shape → Shape → Shape} {room : Nat} {f : Shape} {ks : List Kind} :
    (match first with
      | .error stop => .error stop
      | .ok (g, ks') =>
        match second room ks' with
        | .error stop => .error stop
        | .ok (h, ks'') => .ok (combine g h, ks'')) = Except.ok (f, ks) ↔
      ∃ g ks' h, first = .ok (g, ks') ∧ second room ks' = .ok (h, ks) ∧ f = combine g h := by
  constructor
  · intro hread
    split at hread
    · simp at hread
    · rename_i g ks'
      split at hread
      · simp at hread
      · rename_i h ks₂ hsecond
        obtain ⟨rfl, rfl⟩ : combine g h = f ∧ ks₂ = ks := by simpa using hread
        exact ⟨g, ks', h, rfl, hsecond, rfl⟩
  · rintro ⟨g, ks', h, rfl, hsecond, rfl⟩
    dsimp only
    rw [hsecond]

/-- Of two parts that are read one after the other, either the first fails or the second. -/
lemma combine_eq_error {first : Except Stop (Shape × List Kind)} {second : Reader}
    {combine : Shape → Shape → Shape} {room : Nat} {stop : Stop} :
    (match first with
      | .error stop => Except.error stop
      | .ok (g, ks') =>
        match second room ks' with
        | .error stop => .error stop
        | .ok (h, ks'') => .ok (combine g h, ks'')) = .error stop ↔
      first = .error stop ∨ ∃ g ks', first = .ok (g, ks') ∧ second room ks' = .error stop := by
  constructor
  · intro hread
    split at hread
    · exact .inl hread
    · rename_i g ks'
      split at hread
      · rename_i hsecond
        exact .inr ⟨g, ks', rfl, hsecond.trans (by simpa using hread)⟩
      · simp at hread
  · rintro (rfl | ⟨g, ks', rfl, hsecond⟩)
    · rfl
    · dsimp only
      rw [hsecond]

/-- How one part is read after the other, step by step. -/
alias read_seq := read.eq_6

/-- How a node is read, step by step. -/
alias read_node := read.eq_7

/-- How a part is read that the next part adopts, step by step. -/
alias read_adopt := read.eq_8

/-- Reading one part after the other. -/
lemma read_seq_eq_ok {a b : Form ρ} {room : Nat} {ks ks'' : List Kind} {f : Shape} :
    (seq a b).read follow room ks = .ok (f, ks'') ↔
      ∃ g ks' h, a.read follow room ks = .ok (g, ks') ∧ b.read follow room ks' = .ok (h, ks'') ∧
        f = g ++ h := by
  rw [read_seq]
  exact combine_eq_ok

/-- Reading a part that the first node of the next part adopts. -/
lemma read_adopt_eq_ok {a b : Form ρ} {room : Nat} {ks ks'' : List Kind} {f : Shape} :
    (adopt a b).read follow room ks = .ok (f, ks'') ↔
      ∃ g ks' h, a.read follow room ks = .ok (g, ks') ∧ b.read follow room ks' = .ok (h, ks'') ∧
        f = g.adopt h := by
  rw [read_adopt]
  exact combine_eq_ok

/-- Reading what becomes a node. -/
lemma read_node_eq_ok {k : NodeKind} {a : Form ρ} {room : Nat} {ks ks' : List Kind} {f : Shape} :
    (node k a).read follow room ks = .ok (f, ks') ↔
      ∃ g, a.read follow room ks = .ok (g, ks') ∧ f = .node k g .nil := by
  rw [read_node]
  constructor
  · intro hread
    split at hread
    · simp at hread
    · rename_i g ks₁ ha
      obtain ⟨rfl, rfl⟩ : Forest.node k g .nil = f ∧ ks₁ = ks' := by simpa using hread
      exact ⟨g, ha, rfl⟩
  · rintro ⟨g, ha, rfl⟩
    rw [ha]

/-- Reading one level deeper. -/
lemma read_nest_eq_ok {a : Form ρ} {room : Nat} {ks ks' : List Kind} {f : Shape} :
    (nest a).read follow room ks = .ok (f, ks') ↔
      ∃ room', room = room' + 1 ∧ a.read follow room' ks = .ok (f, ks') := by
  cases room with
  | zero => simp [read]
  | succ room => simp [read]

/-- Reading the next word. -/
lemma read_take_eq_ok {room : Nat} {ks ks' : List Kind} {f : Shape} :
    (take : Form ρ).read follow room ks = .ok (f, ks') ↔
      ∃ k, ks = k :: ks' ∧ f = .leaf k .nil := by
  cases ks with
  | nil => simp [read]
  | cons k ks =>
    simp only [read, Except.ok.injEq, Prod.mk.injEq, List.cons.injEq]
    constructor
    · rintro ⟨rfl, rfl⟩
      exact ⟨k, ⟨rfl, rfl⟩, rfl⟩
    · rintro ⟨k', ⟨rfl, rfl⟩, rfl⟩
      exact ⟨rfl, rfl⟩

/-- Reading the first of two forms, which the words to come choose. -/
lemma read_ite_pos {test : List Kind → Bool} {a b : Form ρ} {room : Nat} {ks : List Kind}
    (h : test ks = true) : (ite test a b).read follow room ks = a.read follow room ks := by
  simp [ite, read, h]

/-- Reading the second of two forms, which the words to come choose. -/
lemma read_ite_neg {test : List Kind → Bool} {a b : Form ρ} {room : Nat} {ks : List Kind}
    (h : test ks = false) : (ite test a b).read follow room ks = b.read follow room ks := by
  simp [ite, read, h]

/-- Reading a word that has to stand here. -/
lemma read_expect_eq_ok {k : Kind} {what : String} {room : Nat} {ks ks' : List Kind} {f : Shape} :
    (expect k what : Form ρ).read follow room ks = .ok (f, ks') ↔ ks = k :: ks' ∧ f = .leaf k .nil := by
  cases ks with
  | nil => simp [expect, ite, read]
  | cons k' ks =>
    by_cases hk : k' = k
    · subst hk
      simp [expect, ite, read, eq_comm, and_comm]
    · simp [expect, ite, read, hk]

/-- How reading one part after the other fails. -/
lemma read_seq_eq_error {a b : Form ρ} {room : Nat} {ks : List Kind} {stop : Stop} :
    (seq a b).read follow room ks = .error stop ↔
      a.read follow room ks = .error stop ∨
        ∃ g ks', a.read follow room ks = .ok (g, ks') ∧ b.read follow room ks' = .error stop := by
  rw [read_seq]
  exact combine_eq_error

/-- How reading a part that is adopted and the part that adopts it fails. -/
lemma read_adopt_eq_error {a b : Form ρ} {room : Nat} {ks : List Kind} {stop : Stop} :
    (adopt a b).read follow room ks = .error stop ↔
      a.read follow room ks = .error stop ∨
        ∃ g ks', a.read follow room ks = .ok (g, ks') ∧ b.read follow room ks' = .error stop := by
  rw [read_adopt]
  exact combine_eq_error

/-- How reading what becomes a node fails. -/
lemma read_node_eq_error {k : NodeKind} {a : Form ρ} {room : Nat} {ks : List Kind} {stop : Stop} :
    (node k a).read follow room ks = .error stop ↔ a.read follow room ks = .error stop := by
  rw [read_node]
  split
  · rename_i hstop
    rw [hstop]
  · rename_i hok
    simp [hok]

/-! ## Nothing is lost -/

/-- Reading a form is lossless if following the rules is. -/
lemma read_lossless (hfollow : ∀ rule, IsLossless (follow rule)) (form : Form ρ) :
    IsLossless (form.read follow) := by
  intro room ks f ks' hread
  induction form generalizing room ks f ks' with
  | empty =>
    obtain ⟨rfl, rfl⟩ : Forest.nil = f ∧ ks = ks' := by simpa [read] using hread
    rfl
  | fail what => simp [read] at hread
  | take =>
    obtain ⟨k, rfl, rfl⟩ := read_take_eq_ok.1 hread
    rfl
  | call rule =>
    rw [read] at hread
    exact hfollow rule room ks f ks' hread
  | seq a b iha ihb =>
    obtain ⟨g, ks₁, h, ha, hb, rfl⟩ := read_seq_eq_ok.1 hread
    rw [Forest.leaves_append, List.append_assoc, ihb _ _ _ _ hb, iha _ _ _ _ ha]
  | node k a ih =>
    obtain ⟨g, ha, rfl⟩ := read_node_eq_ok.1 hread
    simpa [Forest.leaves] using ih _ _ _ _ ha
  | adopt a b iha ihb =>
    obtain ⟨g, ks₁, h, ha, hb, rfl⟩ := read_adopt_eq_ok.1 hread
    rw [Forest.leaves_adopt, List.append_assoc, ihb _ _ _ _ hb, iha _ _ _ _ ha]
  | nest a ih =>
    obtain ⟨room', rfl, ha⟩ := read_nest_eq_ok.1 hread
    exact ih _ _ _ _ ha
  | look choose ih =>
    rw [read] at hread
    exact ih ks _ _ _ _ hread

/-! ## Where reading stops -/

/-- Reading a form stops inside the words if following the rules does. -/
lemma read_stopsInside (hfollow : ∀ rule, IsLossless (follow rule))
    (hstops : ∀ rule, StopsInside (follow rule)) (form : Form ρ) :
    StopsInside (form.read follow) := by
  intro room ks stop hread
  induction form generalizing room ks with
  | empty => simp [read] at hread
  | fail what =>
    obtain rfl : (⟨.expected what, ks.length⟩ : Stop) = stop := by simpa [read] using hread
    exact Nat.le_refl _
  | take =>
    cases ks with
    | nil =>
      obtain rfl : (⟨.expected "word", 0⟩ : Stop) = stop := by simpa [read] using hread
      exact Nat.le_refl _
    | cons k ks => simp [read] at hread
  | call rule =>
    rw [read] at hread
    exact hstops rule room ks stop hread
  | seq a b iha ihb =>
    rcases read_seq_eq_error.1 hread with ha | ⟨g, ks₁, ha, hb⟩
    · exact iha _ _ ha
    · exact Nat.le_trans (ihb _ _ hb) ((read_lossless hfollow a).length_le ha)
  | node k a ih => exact ih _ _ (read_node_eq_error.1 hread)
  | adopt a b iha ihb =>
    rcases read_adopt_eq_error.1 hread with ha | ⟨g, ks₁, ha, hb⟩
    · exact iha _ _ ha
    · exact Nat.le_trans (ihb _ _ hb) ((read_lossless hfollow a).length_le ha)
  | nest a ih =>
    cases room with
    | zero =>
      obtain rfl : (⟨.tooDeep, ks.length⟩ : Stop) = stop := by simpa [read] using hread
      exact Nat.le_refl _
    | succ room =>
      rw [read] at hread
      exact ih _ _ hread
  | look choose ih =>
    rw [read] at hread
    exact ih ks _ _ hread

end Form

/-- Following a rule of any grammar is lossless. -/
theorem readRule_lossless {ρ : Type} (grammar : ρ → Form ρ) (fuel : Nat) (rule : ρ) :
    IsLossless (readRule grammar fuel rule) := by
  induction fuel generalizing rule with
  | zero =>
    intro room ks f ks' hread
    simp [readRule] at hread
  | succ fuel ih => exact Form.read_lossless ih (grammar rule)

/-- Following a rule of any grammar stops inside the words. -/
theorem readRule_stopsInside {ρ : Type} (grammar : ρ → Form ρ) (fuel : Nat) (rule : ρ) :
    StopsInside (readRule grammar fuel rule) := by
  induction fuel generalizing rule with
  | zero =>
    intro room ks stop hread
    obtain rfl : (⟨.unfinished, ks.length⟩ : Stop) = stop := by simpa [readRule] using hread
    exact Nat.le_refl _
  | succ fuel ih => exact Form.read_stopsInside (readRule_lossless grammar fuel) ih (grammar rule)

end JavaLint
