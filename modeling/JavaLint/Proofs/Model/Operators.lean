import JavaLint.Judge.Rules
import JavaLint.Proofs.Grammar.Angles
import JavaLint.Proofs.Model.Braces
import JavaLint.Proofs.Token.Order
import Mathlib.Tactic.Common

/-!
# The operators of a file

Only code tokens are known as operators (`SourceFile.isCode_of_isLowOperator`): the walk gives no other
token a role, and no declared name the role of an operator.

Of the signs `<` and `>` those are operators that do not enclose types.  They are the loose ones of the
tree, whose words stand in the seats that the grammar has given them (`parse_codeSeats`).  So a sign that
follows an operator of its kind directly is an operator too: `SourceFile.isLowOperator_next`.
-/

namespace JavaLint

/-! ## Operators are code -/

/-- No name is declared as an operator. -/
lemma nameRole?_ne {path : Ancestry} {owner : NodeKind} {role : Role}
    (h : nameRole? path = some (owner, role)) : role ≠ .lowOperator := by
  have hdirect {kind : NodeKind} {role : Role} (h : kind.nameRole? = some role) :
      role ≠ .lowOperator := by
    cases kind <;> simp_all [NodeKind.nameRole?] <;> simp [← h]
  have hdeclarator {kind : NodeKind} {role : Role} (h : kind.variableRole? = some role) :
      role ≠ .lowOperator := by
    cases kind <;> simp_all [NodeKind.variableRole?] <;> simp [← h]
  unfold nameRole? at h
  split at h
  · split at h
    · obtain ⟨role', hrole', heq⟩ := Option.map_eq_some_iff.1 h
      obtain ⟨-, rfl⟩ := Prod.mk.inj heq
      exact hdeclarator hrole'
    · obtain ⟨role', hrole', heq⟩ := Option.map_eq_some_iff.1 h
      obtain ⟨-, rfl⟩ := Prod.mk.inj heq
      exact hdirect hrole'
  · obtain ⟨role', hrole', heq⟩ := Option.map_eq_some_iff.1 h
    obtain ⟨-, rfl⟩ := Prod.mk.inj heq
    exact hdirect hrole'
  · cases h

namespace Builder

/-- Only the given tokens are known as operators, and no name will be. -/
structure OperatorsAre (among : Nat → Prop) (b : Builder) : Prop where
  classes : ∀ n c, b.classes[n]? = some c → c.role = .lowOperator → among n
  names : ∀ p ∈ b.pending, ∀ name ∈ p.names, name.2 ≠ .lowOperator

variable {among : Nat → Prop} {b b' : Builder} {path : Ancestry} {kind : NodeKind}
  {inside : Forest Lexeme}

/-- Changing the innermost declaration but for its names. -/
lemma OperatorsAre.updatePending (h : b.OperatorsAre among) {f : Pending → Pending}
    (hf : ∀ p, (f p).names = p.names) : (b.updatePending f).OperatorsAre among := by
  refine ⟨by rw [Builder.updatePending_eq]; exact h.classes, ?_⟩
  rw [Builder.updatePending_eq]
  exact forall_mem_modifyHead (fun p hp => by rwa [hf]) h.names

/-- Entering a node. -/
lemma OperatorsAre.enter (h : b.OperatorsAre among) :
    (b.enter path kind inside).OperatorsAre among := by
  rw [enter_eq]
  refine ⟨h.classes, fun p hp => ?_⟩
  rcases List.mem_append.1 hp with hp | hp
  · split at hp
    · obtain rfl := List.mem_singleton.1 hp
      simp
    · simp at hp
  · exact forall_mem_modifyHead (f := .annotate _) (fun _ hq => hq) h.names p hp

/-- A token may lose its role, and a name is noted with a role of names. -/
lemma OperatorsAre.classify {token : Token} (h : b.OperatorsAre among)
    (hok : b.classify path token = .ok b') : b'.OperatorsAre among := by
  unfold Builder.classify at hok
  split at hok
  · rwa [← Except.ok.inj hok]
  split at hok
  · split at hok
    · rename_i owner role hrole
      unfold noteName at hok
      split at hok
      · cases hok
      · rename_i p ps hpending
        obtain rfl := Except.ok.inj hok
        refine ⟨h.classes, List.forall_mem_cons.2 ⟨fun name hname => ?_, fun q hq => ?_⟩⟩
        · rcases List.mem_append.1 hname with hname | hname
          · exact h.names p (by simp [hpending]) name hname
          · obtain rfl := List.mem_singleton.1 hname
            exact nameRole?_ne hrole
        · exact h.names q (by simp [hpending, hq])
    · rwa [← Except.ok.inj hok]
  · split at hok
    · split at hok
      · obtain rfl := Except.ok.inj hok
        exact h.updatePending fun _ => rfl
      · rwa [← Except.ok.inj hok]
    · rwa [← Except.ok.inj hok]
  · split at hok
    · obtain rfl := Except.ok.inj hok
      refine ⟨fun n c hc hrole => ?_, h.names⟩
      simp only [Array.getElem?_modify] at hc
      split at hc
      · obtain ⟨c', -, rfl⟩ := Option.map_eq_some_iff.1 hc
        cases hrole
      · exact h.classes n c hc hrole
    · rwa [← Except.ok.inj hok]

/-- Noting the first code token. -/
lemma OperatorsAre.settle (h : b.OperatorsAre among) (token : Nat) :
    (b.settle token).OperatorsAre among := by
  refine ⟨h.classes, fun p hp => ?_⟩
  obtain ⟨q, hq, rfl⟩ := List.mem_map.1 hp
  exact h.names q hq

/-- Meeting a leaf. -/
lemma OperatorsAre.visit {l : Lexeme} (h : b.OperatorsAre among) (hok : b.visit path l = .ok b') :
    b'.OperatorsAre among := by
  unfold Builder.visit at hok
  split at hok
  · split at hok
    · cases hok
    · obtain rfl := Except.ok.inj hok
      exact ⟨h.classes, h.names⟩
  · split at hok
    · cases hok
    · split at hok
      · dsimp only at hok
        split at hok
        · refine OperatorsAre.classify ?_ hok
          apply OperatorsAre.settle
          exact ⟨h.classes, h.names⟩
        · obtain rfl := Except.ok.inj hok
          exact ⟨h.classes, h.names⟩
      · cases hok

/-- The names of a declaration are written with roles of names. -/
lemma OperatorsAre.writeNames (h : b.OperatorsAre among) (modifiers : List Keyword) {p : Pending}
    (hp : ∀ name ∈ p.names, name.2 ≠ .lowOperator) : (b.writeNames modifiers p).OperatorsAre among := by
  refine ⟨?_, h.names⟩
  have hclasses := h.classes
  unfold Builder.writeNames
  dsimp only
  generalize b.classes = classes at hclasses
  generalize p.names = names at hp
  induction names generalizing classes with
  | nil => exact hclasses
  | cons name names ih =>
    obtain ⟨hname, hnames⟩ := List.forall_mem_cons.1 hp
    refine ih _ (fun n c hc hrole => ?_) hnames
    rw [Array.getElem?_setIfInBounds] at hc
    split at hc
    · split at hc
      · obtain rfl := Option.some.inj hc
        exact (hname hrole).elim
      · cases hc
    · exact hclasses n c hc hrole

/-- Finishing a declaration. -/
lemma OperatorsAre.closePending (h : b.OperatorsAre among)
    (hok : b.closePending path kind inside = .ok b') : b'.OperatorsAre among := by
  unfold Builder.closePending at hok
  split at hok
  · rwa [← Except.ok.inj hok]
  · rename_i p ps hpending
    have hpopped : { b with pending := ps }.OperatorsAre among :=
      ⟨h.classes, fun q hq => h.names q (by simp [hpending, hq])⟩
    have hwritten (modifiers : List Keyword) :=
      hpopped.writeNames modifiers (h.names p (by simp [hpending]))
    generalize (if isImplicitConstant kind path then _ else _) = modifiers at hok
    unfold record at hok
    split at hok
    · obtain rfl := Except.ok.inj hok
      exact hwritten modifiers
    · split at hok
      · cases hok
      · obtain rfl := Except.ok.inj hok
        obtain ⟨hclasses, hnames⟩ := hwritten modifiers
        exact ⟨hclasses, hnames⟩

/-- Closing a scope. -/
lemma OperatorsAre.closeScope (h : b.OperatorsAre among) (hok : b.closeScope = .ok b') :
    b'.OperatorsAre among := by
  simp only [Builder.closeScope] at hok
  repeat' split at hok
  all_goals first | (obtain rfl := Except.ok.inj hok; exact ⟨h.classes, h.names⟩) | cases hok

/-- Leaving a node. -/
lemma OperatorsAre.leave (h : b.OperatorsAre among) (hok : b.leave path kind inside = .ok b') :
    b'.OperatorsAre among := by
  obtain ⟨b₁, hdeclared, hscope⟩ := exists_of_bind_eq_ok hok
  have hmiddle : b₁.OperatorsAre among := by
    split at hdeclared
    · exact h.closePending hdeclared
    · rwa [← Except.ok.inj hdeclared]
  split at hscope
  · exact hmiddle.closeScope hscope
  · rwa [← Except.ok.inj hscope]

/-- The walk over a part of a tree. -/
lemma OperatorsAre.walkForest {f : Forest Lexeme} (h : b.OperatorsAre among)
    (hok : walkForest path f b = .ok b') : b'.OperatorsAre among := by
  induction f generalizing path b b' with
  | nil => rwa [← Except.ok.inj hok]
  | leaf l rest ih =>
    obtain ⟨b₁, hvisit, hrest⟩ := exists_of_bind_eq_ok hok
    exact ih (h.visit hvisit) hrest
  | node kind inside rest ihInside ihRest =>
    obtain ⟨b₁, hinside, hnode⟩ := exists_of_bind_eq_ok hok
    obtain ⟨b₂, hleave, hrest⟩ := exists_of_bind_eq_ok hnode
    exact ihRest ((ihInside h.enter hinside).leave hleave) hrest

/-- After the walk over a file only code tokens are known as operators. -/
lemma hasCode_of_lowOperator {table : LineTable} {trees : Forest Lexeme}
    (hwalk : (ofTable table).walk trees = .ok b) {n : Nat} {c : Classification}
    (hc : b.classes[n]? = some c) (hrole : c.role = .lowOperator) : table.HasCode n := by
  have hstart : { ofTable table with walked := true }.OperatorsAre table.HasCode := by
    refine ⟨fun n c hc hrole => ?_, by simp [ofTable]⟩
    simp only [ofTable, Array.getElem?_map] at hc
    obtain ⟨t, ht, rfl⟩ := Option.map_eq_some_iff.1 hc
    cases hcode : t.isCode with
    | true => exact ⟨t, ht, hcode⟩
    | false => simp [hcode] at hrole
  have hfresh : (ofTable table).walked = false := rfl
  rw [walk, hfresh, if_neg (by simp)] at hwalk
  obtain ⟨b₁, hforest, hclosed⟩ := exists_of_bind_eq_ok hwalk
  rw [closed_eq_ok hclosed] at hc
  exact (hstart.walkForest hforest).classes n c hc hrole

end Builder

/-! ## Seats in the tree -/

/-- Weaving leaves the words in their seats. -/
lemma weave_seats {f : Shape} {ws : List Word} {ks : List Kind} (h : Fitting ws f ks) (angled : Bool) :
    ((weave f ws).1.bare.seats angled).map (Prod.map id Lexeme.kind) = f.seats angled := by
  induction f generalizing ws ks angled with
  | nil => rfl
  | leaf k rest ih =>
    obtain ⟨w, ws, rfl, hw, rfl, hrest⟩ := h.exists_cons
    rw [weave, Forest.bare_withLeaves hw.1]
    simp [Forest.bare, Forest.seats, hw.2, ih hrest]
  | node kind inside rest ihInside ihRest =>
    rw [weave, Forest.bare_withLeaves (takeLead_parted h.parted).1]
    simp [Forest.bare, Forest.seats, ihInside h.inside, ihRest h.inside.left]

/-- In the tree of a file no sign that encloses types comes directly after a loose one. -/
theorem parse_calm {ls : List Lexeme} {trees : Forest Lexeme} (h : parse ls = .ok trees) :
    Seat.Calm ((trees.bare.seats false).map (Prod.map id Lexeme.kind)) := by
  obtain ⟨shape, hshape, rfl⟩ := parse_eq_ok.1 h
  have hseats := weave_seats (fitting_words hshape) false
  simp only [weaveFile, Forest.bare_append, Forest.bare_withLeaves (words_parted ls).2,
    Forest.seats_append, List.map_append, hseats]
  simpa [Forest.bare, Forest.seats] using readShape_calm hshape

/-- The seat of a word shows in the innermost node around it. -/
lemma Forest.map_places (f : Forest Lexeme) (path : Ancestry) :
    (f.places path).map (fun place => ((Ancestry.kind place.1).isAngled, place.2)) =
      f.seats (Ancestry.kind path).isAngled := by
  induction f generalizing path with
  | nil => rfl
  | leaf l rest ih => simp [places, seats, ih]
  | node kind inside rest ihInside ihRest =>
    rw [places, List.map_append, ihInside, ihRest]
    rfl

/-! ## Signs that are operators -/

/-- The signs that enclose types or compare are operators if they do not enclose types. -/
lemma role_plainReading_of_isAngle (path : Ancestry) {kind : Kind} (h : kind.isAngle = true) :
    (plainReading path kind).role = .lowOperator ↔ (Ancestry.kind path).isAngled = false := by
  cases path with
  | nil =>
    rcases Kind.isAngle_iff.1 h with rfl | rfl <;>
      simp [plainReading, Builder.losesRole, Role.ofKind, Ancestry.kind, NodeKind.isAngled]
  | cons parent above =>
    rcases Kind.isAngle_iff.1 h with rfl | rfl <;> cases hparent : parent.kind <;>
      simp [plainReading, Builder.losesRole, isNoOperator, Role.ofKind, Ancestry.kind,
        NodeKind.isAngled, hparent]

namespace SourceFile

variable {file : SourceFile} {n : Nat} {t : Token}

/-- A token is known as an operator if the model says so. -/
lemma isLowOperator_iff : file.isLowOperator t = true ↔
    ∃ c, file.model.classification t.number = .ok c ∧ c.role = .lowOperator := by
  unfold isLowOperator
  cases file.model.classification t.number <;> simp

namespace ComesFrom

variable {ls : List Lexeme} {trees : Forest Lexeme} {b : Builder}

/-- Tokens that are known as operators are code. -/
lemma isCode_of_isLowOperator (h : file.ComesFrom ls trees b) (ht : file.table.tokens[n]? = some t)
    (hoperator : file.isLowOperator t = true) : t.isCode = true := by
  obtain ⟨c, hc, hrole⟩ := isLowOperator_iff.1 hoperator
  obtain ⟨-, -, hclasses, -⟩ := Builder.finish_eq_ok h.finish
  rw [h.table] at ht
  rw [LineTable.number_ofLexemes ht, Model.classification, hclasses] at hc
  split at hc
  · rename_i c' hc'
    obtain rfl := Except.ok.inj hc
    obtain ⟨t', ht', hcode⟩ := Builder.hasCode_of_lowOperator h.walk hc' hrole
    obtain rfl := Option.some.inj (ht'.symm.trans ht)
    exact hcode
  · cases hc

/-- A code token stands for a word of the tree, which is found in the bare tree at the ordinal of the
token. -/
lemma exists_word (h : file.ComesFrom ls trees b) (ht : file.table.tokens[n]? = some t)
    (hcode : t.isCode = true) :
    ∃ path l, l.kind = t.kind ∧ (path, l) ∈ trees.places [⟨.sourceFile, trees⟩] ∧
      (trees.bare.places [⟨.sourceFile, trees.bare⟩])[file.table.ordinal n]? =
        some (Ancestry.bare path, l.bare) ∧
      file.model.classification n = .ok (reading path l.kind) := by
  rw [h.table] at ht
  have hlt : n < ls.countP Lexeme.hasToken := by
    rw [← LineTable.count_ofLexemes]
    exact (Array.getElem?_eq_some_iff.1 ht).1
  obtain ⟨before, l, after, hls, htoken, rfl⟩ := LineTable.exists_split_countP hlt
  have hordinal : file.table.ordinal (before.countP Lexeme.hasToken) =
      (codeLexemes before).length := by
    rw [h.table, hls]
    exact LineTable.ordinal_ofLexemes fun m hm => h.code m (by simp [hls, hm])
  obtain ⟨t', ht', hkind, -, -⟩ := LineTable.token_ofLexemes before after htoken
  rw [← hls, ht] at ht'
  obtain rfl := Option.some.inj ht'
  have htrivia : l.isTrivia = false := by simpa [hcode] using Token.isCode_eq hkind htoken
  obtain ⟨path, hplace, hclass⟩ := h.exists_place hls htrivia
  have hbare := Forest.getElem?_places_bare hplace htrivia
  rw [parse_leaves h.parse, hls, List.take_left, ← hordinal] at hbare
  exact ⟨path, l, hkind.symm, List.mem_of_getElem? hplace, hbare, hclass⟩

/-- A sign that encloses types or compares has a seat in the tree, and it is an operator if types are
not enclosed there. -/
lemma exists_seat (h : file.ComesFrom ls trees b) (ht : file.table.tokens[n]? = some t)
    (hangle : t.kind.isAngle = true) :
    ∃ angled, ((trees.bare.seats false).map (Prod.map id Lexeme.kind))[file.table.ordinal n]? =
        some (angled, t.kind) ∧
      (file.isLowOperator t = true ↔ angled = false) := by
  have hcode : t.isCode = true := by
    rcases Kind.isAngle_iff.1 hangle with hkind | hkind <;>
      simp [Token.isCode, Token.channel, Kind.channel, hkind]
  obtain ⟨path, l, hkind, hplace, hbare, hclass⟩ := h.exists_word ht hcode
  have hname : l.kind.isName = false := by
    rcases Kind.isAngle_iff.1 hangle with hangle | hangle <;> simp [hkind, hangle, Kind.isName]
  refine ⟨(Ancestry.kind path).isAngled, ?_, ?_⟩
  · have hseats := Forest.map_places trees.bare [⟨.sourceFile, trees.bare⟩]
    change _ = trees.bare.seats false at hseats
    simp [← hseats, hbare, hkind]
  · have hnumber : t.number = n := LineTable.number_ofLexemes (h.table ▸ ht)
    rw [isLowOperator_iff, hnumber, hclass, reading_eq_plainReading h.parse hplace hname, hkind,
      ← role_plainReading_of_isAngle path hangle]
    simp

end ComesFrom

/-- A sign that comes directly after an operator of its kind is an operator too. -/
theorem isLowOperator_next {source : String} (h : SourceFile.parse source = .ok file)
    {left right : Token} (hleft : file.table.tokens[n]? = some left)
    (hright : file.table.tokens[n + 1]? = some right) (hangle : left.kind.isAngle = true)
    (hkind : right.kind = left.kind) (hoperator : file.isLowOperator left = true) :
    file.isLowOperator right = true := by
  obtain ⟨ls, trees, b, hfrom⟩ := comesFrom_of_parse h
  obtain ⟨angled, hseat, hrole⟩ := hfrom.exists_seat hleft hangle
  obtain ⟨angled', hseat', hrole'⟩ := hfrom.exists_seat hright (by rwa [hkind])
  obtain rfl := hrole.1 hoperator
  rw [LineTable.HasCode.ordinal_succ ⟨left, hleft, hfrom.isCode_of_isLowOperator hleft hoperator⟩]
    at hseat'
  obtain ⟨hlt, hget⟩ := List.getElem?_eq_some_iff.1 hseat
  obtain ⟨hlt', hget'⟩ := List.getElem?_eq_some_iff.1 hseat'
  have hcalm := List.isChain_iff_getElem.1 (parse_calm hfrom.parse) _ hlt'
  rw [hget, hget'] at hcalm
  exact hrole'.2 (by simpa [Seat.isLoose, Seat.isBracket, hangle, hkind] using hcalm)

end SourceFile

end JavaLint
