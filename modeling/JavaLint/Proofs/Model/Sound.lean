import JavaLint.Proofs.Model.Builder
import JavaLint.Proofs.Token.Code
import Mathlib.Tactic.Common

/-!
# Sound builders

Every number that a sound builder keeps is the number of a token or scope that exists, and where it
is about a scope or a declaration it is the number of a code token.  Each step of the walk keeps a
builder sound, whatever the tree is.
-/

namespace JavaLint

/-- What all members of a list have and a change keeps, all have after the first is changed. -/
lemma forall_mem_modifyHead {α : Type} {P : α → Prop} {f : α → α} (hf : ∀ a, P a → P (f a))
    {l : List α} (hl : ∀ a ∈ l, P a) : ∀ a ∈ l.modifyHead f, P a := by
  cases l with
  | nil => simp
  | cons a l =>
    obtain ⟨ha, hl⟩ := List.forall_mem_cons.1 hl
    exact List.forall_mem_cons.2 ⟨hf a ha, hl⟩

namespace Builder

/-- Every number that the builder keeps is the number of a token or of a scope that exists, so it
may be used as an index. -/
structure Sound (ls : List Lexeme) (b : Builder) : Prop where
  /-- The table is that of the lexemes. -/
  table : b.table = LineTable.ofLexemes ls
  /-- There is a scope for each token. -/
  size_tokenScopes : b.tokenScopes.size = b.table.count
  /-- There is a classification for each token. -/
  size_classes : b.classes.size = b.table.count
  /-- The file is a scope. -/
  file_lt : 0 < b.scopes.size
  /-- The scopes of tokens exist. -/
  tokenScopes_lt : ∀ n id : Nat, b.tokenScopes[n]? = some id → id < b.scopes.size
  /-- The scopes that are open exist. -/
  stack_lt : ∀ id ∈ b.stack, id < b.scopes.size
  /-- Scopes start and end at code tokens. -/
  scopes : ∀ (id : Nat) (s : Scope) (n : Nat), b.scopes[id]? = some s →
    s.opening = some n ∨ s.closing = some n → b.table.HasCode n
  /-- The last code token is one. -/
  lastCode : ∀ n, b.lastCode = some n → b.table.HasCode n
  /-- Declared names are code tokens. -/
  names : ∀ p ∈ b.pending, ∀ name ∈ p.names, b.table.HasCode name.1
  /-- The first tokens of declarations are code tokens. -/
  firstTokens : ∀ p ∈ b.pending, ∀ n, p.firstToken = some n → b.table.HasCode n
  /-- So are those of the declarations that are finished. -/
  declarations : ∀ d ∈ b.declarations,
    b.table.HasCode d.firstToken ∧ b.table.HasCode d.nameToken

variable {ls : List Lexeme} {b b' : Builder} {path : Ancestry}

/-- The innermost scope exists. -/
lemma Sound.currentScope_lt (h : b.Sound ls) : b.currentScope < b.scopes.size := by
  unfold currentScope
  cases hstack : b.stack with
  | nil => exact h.file_lt
  | cons id ids => exact h.stack_lt id (by simp [hstack])

/-- The builder is sound before the walk. -/
lemma Sound.ofTable (ls : List Lexeme) : (ofTable (LineTable.ofLexemes ls)).Sound ls where
  table := rfl
  size_tokenScopes := by simp [Builder.ofTable]
  size_classes := by simp [Builder.ofTable, LineTable.count]
  file_lt := by simp [Builder.ofTable]
  tokenScopes_lt := by
    intro n id hid
    have hzero : id = 0 := by
      simp only [Builder.ofTable, Array.getElem?_replicate] at hid
      split at hid <;> simp_all
    simp [hzero, Builder.ofTable]
  stack_lt := by simp [Builder.ofTable]
  scopes := by
    intro id s n hs hn
    obtain rfl : id = 0 := by
      have hlt := (Array.getElem?_eq_some_iff.1 hs).1
      simpa [Builder.ofTable] using hlt
    obtain rfl : Scope.file = s := by simpa [Builder.ofTable] using hs
    simp [Scope.file] at hn
  lastCode := by simp [Builder.ofTable]
  names := by simp [Builder.ofTable]
  firstTokens := by simp [Builder.ofTable]
  declarations := by simp [Builder.ofTable]

/-! ## The steps -/

/-- Entering a node keeps a builder sound. -/
lemma Sound.enter (h : b.Sound ls) (path : Ancestry) (kind : NodeKind) (inside : Forest Lexeme) :
    (b.enter path kind inside).Sound ls := by
  have hpending : ∀ p ∈ (if kind.declaresNames then [({} : Pending)] else []) ++
      b.pending.modifyHead (.annotate (notedAnnotations path kind inside)),
      (∀ name ∈ p.names, b.table.HasCode name.1) ∧
        ∀ n, p.firstToken = some n → b.table.HasCode n := by
    intro p hp
    rcases List.mem_append.1 hp with hp | hp
    · split at hp
      · obtain rfl : p = ({} : Pending) := by simpa using hp
        simp
      · simp at hp
    · exact ⟨forall_mem_modifyHead (f := .annotate _) (fun _ hq => hq) h.names p hp,
        forall_mem_modifyHead (f := .annotate _) (fun _ hq => hq) h.firstTokens p hp⟩
  have hnames := fun p hp => (hpending p hp).1
  have hfirst := fun p hp => (hpending p hp).2
  rw [enter_eq]
  cases kind.isBraced with
  | false => exact { h with names := hnames, firstTokens := hfirst }
  | true =>
    refine { h with
      file_lt := by simp
      tokenScopes_lt := ?_
      stack_lt := ?_
      scopes := ?_
      names := hnames
      firstTokens := hfirst }
    · intro n id hid
      have hlt := h.tokenScopes_lt n id hid
      simp only [if_true, Array.size_push]
      omega
    · intro id hid
      simp only [if_true, Array.size_push]
      rcases List.mem_cons.1 hid with rfl | hid
      · omega
      · have hlt := h.stack_lt id hid
        omega
    · intro id s n hs hn
      simp only [if_true, Array.getElem?_push] at hs
      split at hs
      · obtain rfl : b.newScope kind = s := by simpa using hs
        simp [newScope] at hn
      · exact h.scopes id s n hs hn

/-- Noting the scope of a token keeps a builder sound. -/
lemma Sound.meet (h : b.Sound ls) (number : Nat) : (b.meet number).Sound ls := by
  refine { h with size_tokenScopes := ?_, tokenScopes_lt := ?_ }
  · simpa [Builder.meet] using h.size_tokenScopes
  · intro n id hid
    simp only [Builder.meet, Array.getElem?_setIfInBounds] at hid
    split at hid
    · obtain ⟨-, rfl⟩ : number < b.tokenScopes.size ∧ b.currentScope = id := by
        split at hid <;> simp_all
      exact h.currentScope_lt
    · exact h.tokenScopes_lt n id hid

/-- Meeting a code token keeps a builder sound. -/
lemma Sound.settle (h : b.Sound ls) {number : Nat} (hnumber : b.table.HasCode number) :
    (b.settle number).Sound ls := by
  have hsize := size_scopes_settle b number
  refine { h with
    file_lt := ?_
    tokenScopes_lt := ?_
    stack_lt := ?_
    scopes := ?_
    lastCode := ?_
    names := ?_
    firstTokens := ?_ }
  · rw [hsize]
    exact h.file_lt
  · rw [hsize]
    exact h.tokenScopes_lt
  · rw [hsize]
    exact h.stack_lt
  · intro id s n hs hn
    rw [scopes_settle] at hs
    obtain ⟨s', hs', rfl⟩ := Option.map_eq_some_iff.1 hs
    split at hn
    · -- The scope has got its first token now, or had one before.
      rcases hn with hn | hn
      · rcases Option.or_eq_some_iff.1 hn with hn | ⟨-, hn⟩
        · exact h.scopes id s' n hs' (Or.inl hn)
        · obtain rfl : number = n := by simpa using hn
          exact hnumber
      · exact h.scopes id s' n hs' (Or.inr hn)
    · exact h.scopes id s' n hs' hn
  · rintro n hn
    obtain rfl : number = n := by simpa [Builder.settle] using hn
    exact hnumber
  · intro p hp
    obtain ⟨p', hp', rfl⟩ := List.mem_map.1 hp
    exact h.names p' hp'
  · intro p hp n hn
    obtain ⟨p', hp', rfl⟩ := List.mem_map.1 hp
    rcases Option.or_eq_some_iff.1 hn with hn | ⟨-, hn⟩
    · exact h.firstTokens p' hp' n hn
    · obtain rfl : number = n := by simpa using hn
      exact hnumber

/-- A code token that means something keeps a builder sound. -/
lemma Sound.classify {token : Token} (h : b.Sound ls) (hnumber : b.table.HasCode token.number)
    (hpending : notedNames path token.number ≠ [] → b.pending ≠ [])
    (hok : b.classify path token = .ok b') : b'.Sound ls := by
  rw [classify_eq hpending] at hok
  obtain rfl := Except.ok.inj hok
  refine { h with size_classes := ?_, names := ?_, firstTokens := ?_ }
  · have hsize := h.size_classes
    dsimp only
    split
    · rwa [Array.size_modify]
    · exact hsize
  · refine forall_mem_modifyHead ?_ h.names
    intro p hp name hname
    rcases List.mem_append.1 hname with hname | hname
    · exact hp name hname
    · rw [fst_of_mem_notedNames hname]
      exact hnumber
  · exact forall_mem_modifyHead (f := .note _ _) (fun _ hp => hp) h.firstTokens

/-- Finishing a declaration keeps a builder sound. -/
lemma Sound.closePending (h : b.Sound ls) {p : Pending} {ps : List Pending} {first : Nat}
    (hpending : b.pending = p :: ps) (hfirst : p.firstToken = some first)
    (modifiers : List Keyword) (kind : NodeKind) (inside : Forest Lexeme) :
    Sound ls { b with
      pending := ps
      classes := (b.writeNames modifiers p).classes
      declarations := b.declarations ++ b.recorded kind inside p first } where
  table := h.table
  size_tokenScopes := h.size_tokenScopes
  size_classes := by
    rw [size_classes_writeNames]
    exact h.size_classes
  file_lt := h.file_lt
  tokenScopes_lt := h.tokenScopes_lt
  stack_lt := h.stack_lt
  scopes := h.scopes
  lastCode := h.lastCode
  names := fun q hq => h.names q (hpending ▸ List.mem_cons_of_mem p hq)
  firstTokens := fun q hq => h.firstTokens q (hpending ▸ List.mem_cons_of_mem p hq)
  declarations := by
    intro d hd
    rcases List.mem_append.1 hd with hd | hd
    · exact h.declarations d hd
    · have hp : p ∈ b.pending := by simp [hpending]
      obtain ⟨name, hname, hfirst', hname'⟩ := mem_recorded hd
      rw [hfirst', hname']
      exact ⟨h.firstTokens p hp first hfirst, h.names p hp name hname⟩

/-- Closing a scope keeps a builder sound. -/
lemma Sound.closeScope (h : b.Sound ls) {id last : Nat} {ids : List Nat}
    (hstack : b.stack = id :: ids) (hlast : b.lastCode = some last) (oneLine : Bool) :
    Sound ls { b with
      stack := ids
      scopes := b.scopes.modify id fun s =>
        { s with closing := some last, oneLine := oneLine } } := by
  refine { h with
    file_lt := ?_
    tokenScopes_lt := ?_
    stack_lt := ?_
    scopes := ?_ }
  · rw [Array.size_modify]
    exact h.file_lt
  · rw [Array.size_modify]
    exact h.tokenScopes_lt
  · rw [Array.size_modify]
    exact fun id' hid' => h.stack_lt id' (hstack ▸ List.mem_cons_of_mem id hid')
  · intro id' s n hs hn
    rw [Array.getElem?_modify] at hs
    split at hs
    · obtain ⟨s', hs', rfl⟩ := Option.map_eq_some_iff.1 hs
      rcases hn with hn | hn
      · exact h.scopes id' s' n hs' (Or.inl hn)
      · obtain rfl : last = n := by simpa using hn
        exact h.lastCode last hlast
    · exact h.scopes id' s n hs hn

end Builder

end JavaLint
