import JavaLint.Proofs.Model.Operators
import JavaLint.Proofs.Verdict.Operators
import JavaLint.Proofs.Verdict.Safety
import Mathlib.Data.List.SplitBy
import Mathlib.Tactic.Common

/-!
# Runs of operators

Signs `<` and `>` that touch are parts of one operator, and every other operator stands by itself.  So the
operators of a file fall into runs (`SourceFile.operatorRuns`), which cannot be made longer
(`SourceFile.isRun_of_mem_operatorRuns`).

The rules look for the end of a run among the tokens that are operators, and the message looks for it
among all tokens with the same text.  Both find it, since a sign that touches an operator of its kind is an
operator too.  Both loops take one part of the run after the other, so both proofs are by induction on the
parts that are left.  The main result is `operator_runs_are_judged`.
-/

namespace JavaLint

/-! ## Splitting a sorted list -/

section Sorted

variable {α : Type} {key : α → Nat} {as : List α} {a b : α}

/-- Nothing in a sorted list comes before its first member. -/
lemma eq_or_lt_of_head? (h : as.Pairwise fun a b => key a < key b) (hfirst : as.head? = some b)
    (ha : a ∈ as) : a = b ∨ key b < key a := by
  obtain ⟨rest, rfl⟩ := List.head?_eq_some_iff.1 hfirst
  exact (List.mem_cons.1 ha).imp_right ((List.pairwise_cons.1 h).1 a)

/-- Nothing in a sorted list comes after its last member. -/
lemma eq_or_lt_of_getLast? (h : as.Pairwise fun a b => key a < key b) (hlast : as.getLast? = some b)
    (ha : a ∈ as) : a = b ∨ key a < key b := by
  obtain ⟨rest, rfl⟩ := List.getLast?_eq_some_iff.1 hlast
  rcases List.mem_append.1 ha with ha | ha
  · exact .inr ((List.pairwise_append.1 h).2.2 a ha b (by simp))
  · exact .inl (List.mem_singleton.1 ha)

/-- If related members of a sorted list are neighbours, then nothing in the list is related to the first
member of a part from before, or to the last one from after. -/
lemma splitBy_maximal {r : α → α → Bool} (hsorted : as.Pairwise fun a b => key a < key b)
    (hnext : ∀ a b, r a b = true → key b = key a + 1) {run : List α} (hrun : run ∈ as.splitBy r) :
    (∀ a ∈ as, ∀ first ∈ run.head?, r a first = false) ∧
      ∀ a ∈ as, ∀ last ∈ run.getLast?, r last a = false := by
  obtain ⟨before, after, hsplit⟩ := List.append_of_mem hrun
  have hparts : before.flatten ++ (run ++ after.flatten) = as := by
    rw [← List.flatten_splitBy r as, hsplit, List.flatten_append, List.flatten_cons]
  have hbreaks := List.isChain_getLast_head_splitBy r as
  rw [hsplit] at hbreaks
  obtain ⟨-, hafter, hbefore⟩ := List.isChain_append.1 hbreaks
  rw [← hparts] at hsorted ⊢
  constructor
  · intro a ha first hfirst
    by_contra htouch
    have hkey := hnext a first (by simpa using htouch)
    obtain ⟨hsorted, hlater, hcross⟩ := List.pairwise_append.1 hsorted
    have hfirst' : (run ++ after.flatten).head? = some first := by
      rw [List.head?_append, Option.mem_def.1 hfirst, Option.some_or]
    rcases List.mem_append.1 ha with ha | ha
    · obtain ⟨init, part, rfl⟩ := List.eq_nil_or_concat' before |>.resolve_left (by
        rintro rfl
        simp at ha)
      obtain ⟨hpart, hne, hbreak⟩ := hbefore part (by simp) run (by simp)
      have hlast : (init ++ [part]).flatten.getLast? = some (part.getLast hpart) := by
        simp [List.getLast?_append, List.getLast?_eq_some_getLast hpart]
      rw [List.head_eq_iff_head?_eq_some hne |>.2 hfirst] at hbreak
      have hlt := hcross _ (List.mem_of_getLast? hlast) first (List.mem_of_head? hfirst')
      rcases eq_or_lt_of_getLast? hsorted hlast ha with rfl | hlt'
      · exact htouch hbreak
      · omega
    · rcases eq_or_lt_of_head? hlater hfirst' ha with rfl | hlt <;> omega
  · intro a ha last hlast
    by_contra htouch
    have hkey := hnext last a (by simpa using htouch)
    rw [← List.append_assoc] at hsorted ha
    obtain ⟨hearlier, hsorted, hcross⟩ := List.pairwise_append.1 hsorted
    have hlast' : (before.flatten ++ run).getLast? = some last := by
      rw [List.getLast?_append, Option.mem_def.1 hlast, Option.some_or]
    rcases List.mem_append.1 ha with ha | ha
    · rcases eq_or_lt_of_getLast? hearlier hlast' ha with rfl | hlt <;> omega
    · obtain ⟨part, rest, rfl⟩ := List.exists_cons_of_ne_nil (l := after) (by
        rintro rfl
        simp at ha)
      obtain ⟨hne, hpart, hbreak⟩ := (List.isChain_cons_cons.1 hafter).1
      have hfirst : (part :: rest).flatten.head? = some (part.head hpart) := by
        simp [List.head?_append, List.head?_eq_some_head hpart]
      rw [List.getLast_eq_iff_getLast?_eq_some hne |>.2 hlast] at hbreak
      have hlt := hcross last (List.mem_of_getLast? hlast') _ (List.mem_of_head? hfirst)
      rcases eq_or_lt_of_head? hsorted hfirst ha with rfl | hlt'
      · exact htouch hbreak
      · omega

end Sorted

/-! ## The runs of a file -/

/-- The two tokens are the same sign of comparison, one directly after the other and on one line. -/
def Token.touches (left right : Token) : Bool :=
  right.number = left.number + 1 && right.line = left.line && left.kind.isAngle &&
    left.kind = right.kind

/-- Tokens that touch have numbers that follow one another. -/
lemma Token.number_of_touches {left right : Token} (h : left.touches right = true) :
    right.number = left.number + 1 := by
  simp only [touches, Bool.and_eq_true, decide_eq_true_eq] at h
  exact h.1.1.1

namespace SourceFile

variable (file : SourceFile)

/-- The tokens that count as operators, in order. -/
def operators : List Token :=
  file.table.tokens.toList.filter file.isLowOperator

/-- The operators, where those that touch are put together. -/
def operatorRuns : List (List Token) :=
  file.operators.splitBy Token.touches

/-- The token before a run. -/
def beforeRun? (run : List Token) : Option Token :=
  run.head?.bind fun first => if first.number = 0 then none else file.table.tokens[first.number - 1]?

/-- The token after a run. -/
def afterRun? (run : List Token) : Option Token :=
  run.getLast?.bind fun last => file.table.tokens[last.number + 1]?

/-- The run lacks a space on one of its sides. -/
def runLacksSpace (run : List Token) : Bool :=
  !(isSpaced (file.beforeRun? run) && isSpaced (file.afterRun? run))

/-- The operators are the last parts of a run: each touches the next one, and the last one touches none
that comes after it. -/
structure IsRunTail (run : List Token) : Prop where
  operators : ∀ t ∈ run, t ∈ file.operators
  touching : run.IsChain fun left right => left.touches right = true
  ends : ∀ t ∈ file.operators, ∀ last ∈ run.getLast?, last.touches t = false

/-- The operators are a run: none that comes before touches the first one either. -/
structure IsRun (run : List Token) : Prop extends IsRunTail file run where
  nonempty : run ≠ []
  begins : ∀ t ∈ file.operators, ∀ first ∈ run.head?, t.touches first = false

variable {file} {source : String} {n : Nat} {left right t : Token} {run : List Token}

/-- The rules put two operators together if they touch. -/
lemma continuesShift_eq (left right : Token) : file.continuesShift left right =
    (left.touches right && file.isLowOperator left && file.isLowOperator right) := by
  have hangle : (decide (left.kind = .gt) || decide (left.kind = .lt)) = left.kind.isAngle := by
    cases left.kind <;> rfl
  rw [continuesShift, Token.touches, hangle]

/-- An operator is a token that counts as one. -/
lemma mem_operators (h : SourceFile.parse source = .ok file) :
    t ∈ file.operators ↔ file.table.tokens[t.number]? = some t ∧ file.isLowOperator t = true := by
  rw [operators, List.mem_filter, and_congr_left_iff]
  intro _
  constructor
  · intro ht
    obtain ⟨n, hn⟩ := List.mem_iff_getElem?.1 ht
    rw [Array.getElem?_toList] at hn
    rwa [(covers_of_parse h).numbers n t hn]
  · intro ht
    rw [← Array.getElem?_toList] at ht
    exact List.mem_of_getElem? ht

/-- The tokens are numbered one by one. -/
lemma map_number_tokens (h : SourceFile.parse source = .ok file) :
    file.table.tokens.toList.map Token.number = List.range file.table.count := by
  refine List.ext_getElem (by simp [LineTable.count]) fun n hn _ => ?_
  rw [List.getElem_map, List.getElem_range]
  exact (covers_of_parse h).numbers n _ (by simp)

/-- The operators come in the order of their numbers. -/
lemma operators_sorted (h : SourceFile.parse source = .ok file) :
    file.operators.Pairwise fun left right => left.number < right.number := by
  have hsorted : (file.table.tokens.toList.map Token.number).Pairwise (· < ·) := by
    rw [map_number_tokens h]
    exact List.pairwise_lt_range
  exact (List.pairwise_map.1 hsorted).filter _

/-- The operators of a file fall into runs. -/
theorem isRun_of_mem_operatorRuns (h : SourceFile.parse source = .ok file)
    (hrun : run ∈ file.operatorRuns) : file.IsRun run := by
  obtain ⟨hbegins, hends⟩ :=
    splitBy_maximal (operators_sorted h) (fun _ _ htouches => Token.number_of_touches htouches) hrun
  refine ⟨⟨fun t ht => ?_, List.isChain_of_mem_splitBy hrun, hends⟩, List.ne_nil_of_mem_splitBy hrun,
    hbegins⟩
  rw [← List.flatten_splitBy Token.touches file.operators]
  exact List.mem_flatten_of_mem hrun ht

/-! ## How runs are judged -/

/-- The token before a token of a file is the one with the number before. -/
lemma prev?_of_parse (h : SourceFile.parse source = .ok file) (ht : file.table.tokens[n]? = some t) :
    file.table.prev? t = if n = 0 then none else file.table.tokens[n - 1]? := by
  obtain ⟨ls, trees, b, hfrom⟩ := comesFrom_of_parse h
  rw [hfrom.table] at ht ⊢
  exact LineTable.prev?_ofLexemes hfrom.placed ht

/-- The token after a token of a file is the one with the number after. -/
lemma next?_of_parse (h : SourceFile.parse source = .ok file) (ht : file.table.tokens[n]? = some t) :
    file.table.next? t = file.table.tokens[n + 1]? := by
  obtain ⟨ls, trees, b, hfrom⟩ := comesFrom_of_parse h
  rw [hfrom.table] at ht ⊢
  exact LineTable.next?_ofLexemes hfrom.placed ht

/-- A token that is put together with an operator is an operator. -/
lemma mem_operators_of_getElem? (h : SourceFile.parse source = .ok file)
    (ht : file.table.tokens[n]? = some t) (hoperator : file.isLowOperator t = true) :
    t ∈ file.operators := by
  rw [mem_operators h, (covers_of_parse h).numbers n t ht]
  exact ⟨ht, hoperator⟩

/-- An operator is judged as one. -/
lemma judgeToken_of_mem_operators (h : SourceFile.parse source = .ok file) (settings : Settings)
    (ht : t ∈ file.operators) :
    file.judgeToken settings t.number =
      .ok ⟨t.number, .code (file.judgeOperator t), (file.judgeOperator t).isFine⟩ := by
  obtain ⟨htoken, hoperator⟩ := (mem_operators h).1 ht
  obtain ⟨ls, trees, b, hfrom⟩ := comesFrom_of_parse h
  exact judgeToken_of_judgeCode htoken (hfrom.isCode_of_isLowOperator htoken hoperator)
    (judgeCode_of_isLowOperator hoperator)

namespace IsRunTail

variable {first second : Token} {rest : List Token}

/-- Without its first part the rest of a run is still the rest of a run. -/
lemma tail (h : file.IsRunTail (first :: second :: rest)) : file.IsRunTail (second :: rest) :=
  ⟨fun t ht => h.operators t (List.mem_cons_of_mem _ ht), (List.isChain_cons_cons.1 h.touching).2,
    fun t ht last hlast => h.ends t ht last (by rwa [List.getLast?_cons_cons])⟩

/-- The parts of a run are numbered one by one. -/
lemma number_getLast (h : file.IsRunTail (first :: rest)) {last : Token}
    (hlast : (first :: rest).getLast? = some last) : last.number = first.number + rest.length := by
  induction rest generalizing first with
  | nil =>
    obtain rfl : first = last := by simpa using hlast
    rfl
  | cons second rest ih =>
    have hnumber := Token.number_of_touches (List.isChain_cons_cons.1 h.touching).1
    rw [List.getLast?_cons_cons] at hlast
    have hrest := ih h.tail hlast
    simp only [List.length_cons]
    omega

/-- A run has no more parts than the file has tokens. -/
lemma length_le (h : file.IsRunTail (first :: rest)) (hparse : SourceFile.parse source = .ok file) :
    rest.length ≤ file.table.count := by
  obtain ⟨last, hlast⟩ : ∃ last, (first :: rest).getLast? = some last := ⟨_, List.getLast?_cons⟩
  have hnumber := h.number_getLast hlast
  obtain ⟨htoken, -⟩ := (mem_operators hparse).1 (h.operators last (List.mem_of_getLast? hlast))
  have hlt : last.number < file.table.count := (Array.getElem?_eq_some_iff.1 htoken).1
  omega

/-- The first part of a run comes directly before the second one. -/
lemma next?_first (h : file.IsRunTail (first :: second :: rest))
    (hparse : SourceFile.parse source = .ok file) : file.table.next? first = some second := by
  obtain ⟨hfirst, -⟩ := (mem_operators hparse).1 (h.operators first (by simp))
  obtain ⟨hsecond, -⟩ := (mem_operators hparse).1 (h.operators second (by simp))
  rw [next?_of_parse hparse hfirst,
    ← Token.number_of_touches (List.isChain_cons_cons.1 h.touching).1, hsecond]

/-- The rules find the last part of a run. -/
lemma getLast?_eq (h : file.IsRunTail (first :: rest)) (hparse : SourceFile.parse source = .ok file)
    {fuel : Nat} (hfuel : rest.length ≤ fuel) :
    (first :: rest).getLast? = some (file.shiftEnd fuel first) := by
  induction rest generalizing first fuel with
  | nil =>
    -- The search stops at the end of the run also if there is fuel left.
    have hstays : file.shiftEnd fuel first = first := by
      cases fuel with
      | zero => rfl
      | succ fuel =>
        rw [shiftEnd]
        split
        · rename_i next hnext
          obtain ⟨htoken, -⟩ := (mem_operators hparse).1 (h.operators first (by simp))
          rw [next?_of_parse hparse htoken] at hnext
          refine if_neg fun hcontinues => ?_
          simp only [continuesShift_eq, Bool.and_eq_true] at hcontinues
          obtain ⟨⟨htouches, -⟩, hoperator⟩ := hcontinues
          have hends := h.ends next (mem_operators_of_getElem? hparse hnext hoperator) first (by simp)
          simp [htouches] at hends
        · rfl
    simp [hstays]
  | cons second rest ih =>
    obtain ⟨fuel, rfl⟩ : ∃ m, fuel = m + 1 := Nat.exists_eq_add_one.2 (by simp at hfuel; omega)
    have hcontinues : file.continuesShift first second = true := by
      rw [continuesShift_eq, (List.isChain_cons_cons.1 h.touching).1,
        ((mem_operators hparse).1 (h.operators first (by simp))).2,
        ((mem_operators hparse).1 (h.operators second (by simp))).2]
      rfl
    rw [shiftEnd, h.next?_first hparse]
    simp only [hcontinues, if_true, List.getLast?_cons_cons]
    exact ih h.tail (by simpa using hfuel)

end IsRunTail

namespace IsRun

variable {first : Token} {rest : List Token}

/-- The first part of a run is judged for the whole run. -/
lemma judgeOperator_first (h : file.IsRun (first :: rest))
    (hparse : SourceFile.parse source = .ok file) :
    file.judgeOperator first = .lowOperator (isSpaced (file.beforeRun? (first :: rest)))
      (isSpaced (file.afterRun? (first :: rest))) := by
  obtain ⟨hfirst, -⟩ := (mem_operators hparse).1 (h.operators first (by simp))
  have hprev : file.table.prev? first = file.beforeRun? (first :: rest) := prev?_of_parse hparse hfirst
  have hbegins : ((file.beforeRun? (first :: rest)).any fun prev => file.continuesShift prev first) =
      false := by
    cases hbefore : file.beforeRun? (first :: rest) with
    | none => rfl
    | some prev =>
      rw [← hprev, prev?_of_parse hparse hfirst] at hbefore
      split at hbefore
      · cases hbefore
      · rw [Option.any_some, continuesShift_eq, Bool.eq_false_iff]
        simp only [ne_eq, Bool.and_eq_true]
        rintro ⟨⟨htouches, hoperator⟩, -⟩
        have hbegins := h.begins prev (mem_operators_of_getElem? hparse hbefore hoperator) first (by simp)
        simp [htouches] at hbegins
  have hlast := h.getLast?_eq hparse (h.length_le hparse)
  obtain ⟨htoken, -⟩ := (mem_operators hparse).1 (h.operators _ (List.mem_of_getLast? hlast))
  have hnext : file.table.next? (file.shiftEnd file.table.count first) =
      file.afterRun? (first :: rest) := by
    rw [next?_of_parse hparse htoken, afterRun?, hlast, Option.bind_some]
  rw [judgeOperator, hprev]
  simp only [hbegins, hnext]
  rfl

/-- The other parts of a run are not judged. -/
lemma judgeOperator_rest (h : file.IsRun (first :: rest))
    (hparse : SourceFile.parse source = .ok file) (ht : t ∈ rest) :
    file.judgeOperator t = .unchecked := by
  obtain ⟨between, after, rfl⟩ := List.append_of_mem ht
  obtain ⟨prev, hprev⟩ : ∃ prev, (first :: between).getLast? = some prev := ⟨_, List.getLast?_cons⟩
  have htouches : prev.touches t = true := by
    have hchain := h.touching
    rw [← List.cons_append] at hchain
    exact (List.isChain_append.1 hchain).2.2 prev hprev t (by simp)
  obtain ⟨htoken, hoperator⟩ := (mem_operators hparse).1 (h.operators t (by simp))
  obtain ⟨hprevToken, hprevOperator⟩ := (mem_operators hparse).1
    (h.operators prev (by
      have hmem := List.mem_of_getLast? hprev
      rw [← List.cons_append]
      exact List.mem_append_left _ hmem))
  have hfound : file.table.prev? t = some prev := by
    rw [prev?_of_parse hparse htoken, Token.number_of_touches htouches, if_neg (Nat.succ_ne_zero _),
      Nat.add_sub_cancel, hprevToken]
  simp [judgeOperator, hfound, continuesShift_eq, htouches, hoperator, hprevOperator]

end IsRun

/-! ## What the message says -/

/-- The signs of comparison are known by their text. -/
lemma text_of_angle (h : SourceFile.parse source = .ok file) (ht : file.table.tokens[n]? = some t) :
    (t.text = ">" ↔ t.kind = .gt) ∧ (t.text = "<" ↔ t.kind = .lt) := by
  obtain ⟨ls, trees, b, hscan, -, htable, -⟩ := parse_parts h
  have hmem : (t.kind, t.text) ∈ (ls.filter Lexeme.hasToken).map fun l => (l.kind, l.text) := by
    rw [← LineTable.map_tokens_ofLexemes, ← htable]
    rw [← Array.getElem?_toList] at ht
    exact List.mem_map.2 ⟨t, List.mem_of_getElem? ht, rfl⟩
  obtain ⟨l, hl, heq⟩ := List.mem_map.1 hmem
  obtain ⟨hkind, htext⟩ := Prod.mk.inj heq
  rw [← hkind, ← htext]
  exact Lexeme.kind_of_angle hscan (List.mem_filter.1 hl).1

/-- The message puts two tokens together if they touch. -/
lemma touches_eq (h : SourceFile.parse source = .ok file) {m : Nat}
    (hleft : file.table.tokens[m]? = some left) (hright : file.table.tokens[n]? = some right) :
    ((right.text = ">" || right.text = "<") && right.text = left.text &&
      right.number = left.number + 1 && right.line = left.line) = left.touches right := by
  obtain ⟨hgt, hlt⟩ := text_of_angle h hleft
  obtain ⟨hgt', hlt'⟩ := text_of_angle h hright
  have hsame : ((right.text = ">" ∨ right.text = "<") ∧ right.text = left.text) ↔
      left.kind.isAngle = true ∧ left.kind = right.kind := by
    constructor
    · rintro ⟨htext | htext, hsame⟩
      · rw [hgt.1 (hsame ▸ htext), hgt'.1 htext]
        exact ⟨rfl, rfl⟩
      · rw [hlt.1 (hsame ▸ htext), hlt'.1 htext]
        exact ⟨rfl, rfl⟩
    · rintro ⟨hangle, hkind⟩
      rcases Kind.isAngle_iff.1 hangle with hcase | hcase
      · rw [hlt.2 hcase, hlt'.2 (hkind ▸ hcase)]
        simp
      · rw [hgt.2 hcase, hgt'.2 (hkind ▸ hcase)]
        simp
  rw [Bool.eq_iff_iff]
  simp only [Token.touches, Bool.and_eq_true, Bool.or_eq_true, decide_eq_true_eq, hsame]
  constructor
  · rintro ⟨⟨⟨hangle, hkind⟩, hnumber⟩, hline⟩
    exact ⟨⟨⟨hnumber, hline⟩, hangle⟩, hkind⟩
  · rintro ⟨⟨⟨hnumber, hline⟩, hangle⟩, hkind⟩
    exact ⟨⟨⟨hangle, hkind⟩, hnumber⟩, hline⟩

/-- A token that an operator touches is an operator. -/
lemma mem_operators_of_touches (h : SourceFile.parse source = .ok file) (hleft : left ∈ file.operators)
    (hright : file.table.tokens[left.number + 1]? = some right) (htouches : left.touches right = true) :
    right ∈ file.operators := by
  obtain ⟨htoken, hoperator⟩ := (mem_operators h).1 hleft
  simp only [Token.touches, Bool.and_eq_true, decide_eq_true_eq] at htouches
  obtain ⟨⟨-, hangle⟩, hkind⟩ := htouches
  exact mem_operators_of_getElem? h hright
    (isLowOperator_next h htoken hright hangle hkind.symm hoperator)

/-- The message finds the parts of a run after the first one. -/
lemma IsRunTail.shiftTail_eq {first : Token} {rest : List Token} (h : file.IsRunTail (first :: rest))
    (hparse : SourceFile.parse source = .ok file) {fuel : Nat} (hfuel : rest.length ≤ fuel) :
    Finding.shiftTail file.table first.text fuel first = String.join (rest.map Token.text) := by
  induction rest generalizing first fuel with
  | nil =>
    cases fuel with
    | zero => rfl
    | succ fuel =>
      rw [Finding.shiftTail]
      split
      · rename_i next hnext
        have hfirst := h.operators first (by simp)
        obtain ⟨htoken, -⟩ := (mem_operators hparse).1 hfirst
        rw [next?_of_parse hparse htoken] at hnext
        rw [touches_eq hparse htoken hnext]
        refine if_neg fun htouches => ?_
        have hends := h.ends next (mem_operators_of_touches hparse hfirst hnext htouches) first (by simp)
        simp [htouches] at hends
      · rfl
  | cons second rest ih =>
    obtain ⟨fuel, rfl⟩ : ∃ m, fuel = m + 1 := Nat.exists_eq_add_one.2 (by simp at hfuel; omega)
    have htouches := (List.isChain_cons_cons.1 h.touching).1
    obtain ⟨hfirst, -⟩ := (mem_operators hparse).1 (h.operators first (by simp))
    obtain ⟨hsecond, -⟩ := (mem_operators hparse).1 (h.operators second (by simp))
    have hcondition := (touches_eq hparse hfirst hsecond).trans htouches
    have htext : second.text = first.text := by
      simp only [Bool.and_eq_true, decide_eq_true_eq] at hcondition
      exact hcondition.1.1.2
    rw [Finding.shiftTail, h.next?_first hparse]
    simp only [hcondition, if_true, List.map_cons, String.join_cons]
    rw [← htext, ih h.tail (by simpa using hfuel)]

/-- The message names the operator as it is written. -/
lemma IsRun.shiftText_eq {first : Token} {rest : List Token} (h : file.IsRun (first :: rest))
    (hparse : SourceFile.parse source = .ok file) :
    Finding.shiftText file.table first = String.join ((first :: rest).map Token.text) := by
  rw [Finding.shiftText, h.shiftTail_eq hparse (h.length_le hparse), List.map_cons, String.join_cons]

/-! ## The verdict on runs -/

/-- Of the parts of a run only the first one can lack a space. -/
lemma IsRun.filter_lacks (h : file.IsRun run) (hparse : SourceFile.parse source = .ok file)
    (settings : Settings) :
    run.filter (fun t => (file.judgeToken settings t.number).toOption.any TokenOutcome.lacksSpace) =
      if file.runLacksSpace run then run.head?.toList else [] := by
  obtain ⟨first, rest, rfl⟩ := List.exists_cons_of_ne_nil h.nonempty
  have hfirst := judgeToken_of_mem_operators hparse settings (h.operators first (by simp))
  have hrest : rest.filter (fun t =>
      (file.judgeToken settings t.number).toOption.any TokenOutcome.lacksSpace) = [] := by
    refine List.filter_eq_nil_iff.2 fun t ht => ?_
    rw [judgeToken_of_mem_operators hparse settings (h.operators t (List.mem_cons_of_mem _ ht)),
      h.judgeOperator_rest hparse ht]
    simp [Except.toOption, TokenOutcome.lacksSpace]
  rw [h.judgeOperator_first hparse] at hfirst
  rw [List.filter_cons, hrest, hfirst]
  rfl

/-- Keeping in each part of a list its first member, if anything, is to keep the first members of some
parts. -/
lemma filter_flatten_eq {α : Type} {p : α → Bool} {q : List α → Bool} {parts : List (List α)}
    (h : ∀ part ∈ parts, part.filter p = if q part then part.head?.toList else []) :
    parts.flatten.filter p = (parts.filter q).filterMap List.head? := by
  induction parts with
  | nil => rfl
  | cons part parts ih =>
    obtain ⟨hpart, hparts⟩ := List.forall_mem_cons.1 h
    rw [List.flatten_cons, List.filter_append, hpart, ih hparts]
    cases hq : q part <;> cases hhead : part.head? <;> simp [hq, hhead]

/-- The outcomes that lack a space are those for the first parts of the runs that lack one. -/
lemma map_token_lacksSpace (h : SourceFile.parse source = .ok file) {settings : Settings}
    {outcomes : List TokenOutcome} (houtcomes : file.tokenOutcomes settings = .ok outcomes) :
    (outcomes.filter TokenOutcome.lacksSpace).map TokenOutcome.token =
      ((file.operatorRuns.filter file.runLacksSpace).filterMap List.head?).map Token.number := by
  let lacks (n : Nat) : Bool := (file.judgeToken settings n).toOption.any TokenOutcome.lacksSpace
  have hlacks : outcomes.filter TokenOutcome.lacksSpace =
      outcomes.filter (lacks ∘ TokenOutcome.token) := by
    refine List.filter_congr fun o ho => ?_
    obtain ⟨-, hjudge⟩ := judgeToken_of_mem_tokenOutcomes houtcomes ho
    simp [lacks, hjudge, Except.toOption]
  have hoperators : file.table.tokens.toList.filter (lacks ∘ Token.number) =
      file.operators.filter (lacks ∘ Token.number) := by
    rw [operators, List.filter_filter]
    refine List.filter_congr fun t ht => ?_
    obtain ⟨n, hn⟩ := List.mem_iff_getElem?.1 ht
    rw [Array.getElem?_toList] at hn
    obtain rfl := (covers_of_parse h).numbers n t hn
    cases hjudge : file.judgeToken settings t.number with
    | error e => simp [lacks, hjudge, Except.toOption]
    | ok o =>
      cases hspace : o.lacksSpace with
      | false => simp [lacks, hjudge, hspace, Except.toOption]
      | true =>
        have hoperator :=
          isLowOperator_of_lacksSpace (LineTable.token_eq_ok_iff.2 hn) hjudge hspace
        simp [hoperator]
  calc (outcomes.filter TokenOutcome.lacksSpace).map TokenOutcome.token
      = (outcomes.map TokenOutcome.token).filter lacks := by rw [hlacks, List.filter_map]
    _ = (file.table.tokens.toList.map Token.number).filter lacks := by
      rw [map_token_tokenOutcomes houtcomes, map_number_tokens h]
    _ = (file.operators.filter (lacks ∘ Token.number)).map Token.number := by
      rw [List.filter_map, hoperators]
    _ = ((file.operatorRuns.filter file.runLacksSpace).filterMap List.head?).map Token.number := by
      rw [← List.flatten_splitBy Token.touches file.operators]
      exact congrArg _ (filter_flatten_eq fun run hrun =>
        (isRun_of_mem_operatorRuns h hrun).filter_lacks h settings)

end SourceFile

/-- The rule about operators is known by its name. -/
lemma Breach.name_eq_operatorSpacing {breach : Breach} :
    breach.name = "operator-spacing" ↔ breach = .operatorSpacing := by
  cases breach <;> simp [name]

/-- The findings about operators are the violations of the rule about them. -/
lemma Verdict.filter_findings (v : Verdict) (table : LineTable) :
    (v.findings table).filter (fun f => f.rule = "operator-spacing") =
      (v.violations.filter fun p => p.2.breach = .operatorSpacing).map fun p =>
        .ofViolation table p.1 p.2 := by
  rw [findings, List.filter_map]
  congr 1
  refine List.filter_congr fun p _ => ?_
  simp [Finding.rule_ofViolation, Breach.name_eq_operatorSpacing]

/-- What is said of a run that lacks a space. -/
def Finding.ofRun? (run : List Token) : Option Finding :=
  run.head?.map fun first =>
    { line := first.line
      column := first.column + 1
      category := .code
      rule := "operator-spacing"
      message := "operator '" ++ String.join (run.map Token.text) ++ "' needs a space on both sides" }

/-- The finding about the first part of a run is about the whole run. -/
lemma SourceFile.IsRun.finding_eq {file : SourceFile} {source : String} {run : List Token}
    (h : file.IsRun run) (hparse : SourceFile.parse source = .ok file) :
    (run.head?.map fun first =>
      Finding.ofViolation file.table .code ⟨.token first.number, .operatorSpacing⟩) =
      Finding.ofRun? run := by
  obtain ⟨first, rest, rfl⟩ := List.exists_cons_of_ne_nil h.nonempty
  obtain ⟨htoken, -⟩ := (mem_operators hparse).1 (h.operators first (by simp))
  have hmessage : Finding.tokenMessage file.table first .operatorSpacing =
      "operator '" ++ String.join ((first :: rest).map Token.text) ++ "' needs a space on both sides" := by
    rw [← h.shiftText_eq hparse]
    rfl
  rw [Finding.ofRun?, List.head?_cons, Option.map_some, Option.map_some, ← hmessage]
  simp only [Finding.ofViolation, LineTable.token_eq_ok_iff.2 htoken]
  rfl

/-- The operators of a file fall into runs.  The first part of a run is judged by the tokens before and
after the whole run, and the other parts are not judged.  So there is one violation for each run that
lacks a space, and the finding about it names the operator as it is written. -/
theorem operator_runs_are_judged {source : String} {file : SourceFile}
    (h : SourceFile.parse source = .ok file) (settings : Settings) :
    file.operatorRuns.flatten = file.operators ∧
    (∀ run ∈ file.operatorRuns, file.IsRun run ∧ ∃ first rest, run = first :: rest ∧
      file.judgeToken settings first.number = .ok ⟨first.number,
        .code (.lowOperator (isSpaced (file.beforeRun? run)) (isSpaced (file.afterRun? run))),
        !file.runLacksSpace run⟩ ∧
      ∀ t ∈ rest, file.judgeToken settings t.number = .ok ⟨t.number, .code .unchecked, true⟩) ∧
    ∃ verdict, analyzeSource source settings = .ok ⟨file, verdict⟩ ∧
      (verdict.violations.filter fun v => v.2.breach = .operatorSpacing) =
        ((file.operatorRuns.filter file.runLacksSpace).filterMap List.head?).map (fun first =>
          (.code, ⟨.token first.number, .operatorSpacing⟩)) ∧
      (Analysis.findings ⟨file, verdict⟩).filter (fun f => f.rule = "operator-spacing") =
        (file.operatorRuns.filter file.runLacksSpace).filterMap Finding.ofRun? := by
  refine ⟨List.flatten_splitBy _ _, fun run hrun => ?_, ?_⟩
  · have hisRun := SourceFile.isRun_of_mem_operatorRuns h hrun
    obtain ⟨first, rest, rfl⟩ := List.exists_cons_of_ne_nil hisRun.nonempty
    refine ⟨hisRun, first, rest, rfl, ?_, fun t ht => ?_⟩
    · rw [SourceFile.judgeToken_of_mem_operators h settings (hisRun.operators first (by simp)),
        hisRun.judgeOperator_first h, SourceFile.runLacksSpace, Bool.not_not]
      rfl
    · rw [SourceFile.judgeToken_of_mem_operators h settings
          (hisRun.operators t (List.mem_cons_of_mem _ ht)), hisRun.judgeOperator_rest h ht]
      rfl
  · obtain ⟨verdict, hverdict, hanalysis⟩ := analyzeSource_of_parse h settings
    obtain ⟨outcomes, houtcomes, rfl⟩ :=
      exists_of_map_eq_ok ((file.analyze_eq settings).symm.trans hverdict)
    have hviolations := Verdict.filter_operatorSpacing outcomes (file.lineOutcomes settings)
    have htokens := congrArg (List.map fun n =>
        ((.code, ⟨.token n, .operatorSpacing⟩) : Category × Violation))
      (SourceFile.map_token_lacksSpace h houtcomes)
    rw [List.map_map, List.map_map] at htokens
    refine ⟨_, hanalysis, hviolations.trans htokens, ?_⟩
    rw [Analysis.findings, Verdict.filter_findings, hviolations.trans htokens, List.map_map,
      List.map_filterMap]
    refine List.filterMap_congr fun run hrun => ?_
    exact (SourceFile.isRun_of_mem_operatorRuns h (List.mem_of_mem_filter hrun)).finding_eq h

/-- Two operators without spaces, one of which consists of two signs.  The signs that enclose types are no
operators. -/
theorem operator_runs_of_shift :
    ∃ file verdict, SourceFile.parse "class A\x7bB<C<D>>e=f>>g;\x7d" = .ok file ∧
      analyzeSource "class A\x7bB<C<D>>e=f>>g;\x7d" {} = .ok ⟨file, verdict⟩ ∧
      file.operatorRuns.map (List.map Token.text) = [["="], [">", ">"]] ∧
      (Analysis.findings ⟨file, verdict⟩).filter (fun f => f.rule = "operator-spacing") =
        [⟨1, 17, .code, "operator-spacing", "operator '=' needs a space on both sides"⟩,
          ⟨1, 19, .code, "operator-spacing", "operator '>>' needs a space on both sides"⟩] := by
  have hread : ((SourceFile.parse "class A\x7bB<C<D>>e=f>>g;\x7d").toOption.map fun file =>
      (file.operatorRuns.map (List.map Token.text),
        (file.operatorRuns.filter file.runLacksSpace).filterMap Finding.ofRun?)) =
      some ([["="], [">", ">"]],
        [⟨1, 17, .code, "operator-spacing", "operator '=' needs a space on both sides"⟩,
          ⟨1, 19, .code, "operator-spacing", "operator '>>' needs a space on both sides"⟩]) := by
    decide +kernel
  obtain ⟨file, hfile, hread⟩ := Option.map_eq_some_iff.1 hread
  rw [toOption_eq_some_iff] at hfile
  obtain ⟨htexts, hfindings⟩ := Prod.mk.inj hread
  obtain ⟨-, -, verdict, hanalysis, -, hfound⟩ := operator_runs_are_judged hfile {}
  exact ⟨file, verdict, hfile, hanalysis, htexts, hfound.trans hfindings⟩

end JavaLint
