import JavaLint.Doc.Comment
import JavaLint.Proofs.Text.Search

/-!
# The search for inline links

Where a link may start (`Opens`), what its target is, and where the search goes on after it.
`linksOf` is the search without a bound on its length, with one equation for a place where no link
starts and one for a place where one does.
-/

namespace JavaLint.DocComment

open Text (isBlank)

/-! ## Where a link starts -/

/-- The text starts with the head of a link, and a blank comes first in what follows. -/
def Opens (cs after : List Char) : Prop :=
  ∃ head ∈ linkHeads, cs = head ++ after ∧ after.head?.any isBlank = true

/-- What follows the first closing brace. -/
def afterBrace? (cs : List Char) : Option (List Char) :=
  (Text.cut? (· == '\x7d') cs).map Prod.snd

/-- The first word of a text; a closing brace ends it as a blank does. -/
def firstWord (cs : List Char) : List Char :=
  (Text.trimStart cs).takeWhile fun c => !isBlank c && c != '\x7d'

variable {cs after target rest : List Char}

/-- The head of a link is `\x7b@link` or `\x7b@linkplain`. -/
lemma mem_linkHeads {head : List Char} : head ∈ linkHeads ↔
    head = "\x7b@link".toList ∨ head = "\x7b@link".toList ++ "plain".toList := by
  simp [linkHeads]

/-- There are no blanks in the head of a link. -/
lemma isBlank_of_mem_linkHeads {head : List Char} (hhead : head ∈ linkHeads) :
    ∀ c ∈ head, isBlank c = false := by
  refine Text.isBlank_of_any ?_
  rcases mem_linkHeads.1 hhead with rfl | rfl <;> decide

/-- A link starts with an opening brace. -/
lemma Opens.head?_eq (h : Opens cs after) : cs.head? = some '\x7b' := by
  obtain ⟨head, hhead, rfl, -⟩ := h
  rcases mem_linkHeads.1 hhead with rfl | rfl <;> rfl

/-- What follows the head of a link is shorter than what starts with it. -/
lemma Opens.length_lt (h : Opens cs after) : after.length < cs.length := by
  obtain ⟨head, hhead, rfl, -⟩ := h
  have hpos : 0 < head.length := by
    rcases mem_linkHeads.1 hhead with rfl | rfl <;> simp
  rw [List.length_append]
  omega

/-- There is one way only in which a text starts with the head of a link. -/
lemma Opens.unique {after' : List Char} (h : Opens cs after) (h' : Opens cs after') :
    after = after' := by
  obtain ⟨head, hhead, rfl, hblank⟩ := h
  obtain ⟨head', hhead', heq, hblank'⟩ := h'
  rcases mem_linkHeads.1 hhead with rfl | rfl <;> rcases mem_linkHeads.1 hhead' with rfl | rfl
  · exact List.append_cancel_left heq
  · rw [List.append_assoc] at heq
    rw [List.append_cancel_left heq] at hblank
    cases hblank
  · rw [List.append_assoc] at heq
    rw [← List.append_cancel_left heq] at hblank'
    cases hblank'
  · exact List.append_cancel_left heq

/-- A link with a target in it starts where the head of a link does, and nowhere else. -/
lemma exists_opens_of_link? (h : link? cs = some (target, rest)) :
    ∃ after, Opens cs after ∧ linkTarget? after = some (target, rest) := by
  obtain ⟨head, hmem, hhead⟩ := List.exists_of_findSome?_eq_some h
  obtain ⟨after, hafter, htarget⟩ := Option.bind_eq_some_iff.1 hhead
  refine ⟨after, ⟨head, hmem, Text.dropStart?_eq_some_iff.1 hafter, ?_⟩, htarget⟩
  unfold linkTarget? at htarget
  dsimp only at htarget
  split at htarget
  · rename_i hcond
    exact (Bool.and_eq_true_iff.1 hcond).1
  · cases htarget

/-- What stands after the head of a link decides whether there is one. -/
lemma Opens.link?_eq (h : Opens cs after) : link? cs = linkTarget? after := by
  cases hlink : link? cs with
  | some r =>
    obtain ⟨after', hopens, htarget⟩ := exists_opens_of_link? hlink
    rw [h.unique hopens, htarget]
  | none =>
    obtain ⟨head, hmem, rfl, -⟩ := h
    have hhead := List.findSome?_eq_none_iff.1 hlink head hmem
    rw [Text.dropStart?_eq_some_iff.2 rfl, Option.bind_some] at hhead
    exact hhead.symm

/-- Where the head of a link does not start, no link does. -/
lemma link?_eq_none (h : ∀ after, ¬ Opens cs after) : link? cs = none := by
  rw [Option.eq_none_iff_forall_ne_some]
  rintro ⟨target, rest⟩ hlink
  obtain ⟨after, hopens, -⟩ := exists_opens_of_link? hlink
  exact h after hopens

/-- No link starts at a character that is not an opening brace. -/
lemma not_opens_cons {c : Char} (hc : c ≠ '\x7b') (after : List Char) : ¬ Opens (c :: cs) after :=
  fun h => hc (Option.some.inj h.head?_eq)

/-! ## The target of a link -/

/-- What follows the first closing brace, one character at a time. -/
lemma afterBrace?_cons (c : Char) (cs : List Char) :
    afterBrace? (c :: cs) = if c = '\x7d' then some cs else afterBrace? cs := by
  by_cases hc : c = '\x7d'
  · simp [afterBrace?, Text.cut?, hc]
  · rw [if_neg hc]
    unfold afterBrace? Text.cut?
    rw [List.dropWhile_cons_of_pos (by simpa using hc)]
    split <;> rfl

/-- Other characters than a closing brace may stand before the first one. -/
lemma afterBrace?_append {margin : List Char} (h : '\x7d' ∉ margin) (cs : List Char) :
    afterBrace? (margin ++ cs) = afterBrace? cs := by
  induction margin with
  | nil => rfl
  | cons c margin ih =>
    obtain ⟨hc, hmargin⟩ := List.ne_and_not_mem_of_not_mem_cons h
    rw [List.cons_append, afterBrace?_cons, if_neg hc.symm, ih hmargin]

/-- Something follows the first closing brace if there is one. -/
lemma isSome_afterBrace? (cs : List Char) : (afterBrace? cs).isSome = true ↔ '\x7d' ∈ cs := by
  induction cs with
  | nil => simp [afterBrace?, Text.cut?]
  | cons c cs ih =>
    rw [afterBrace?_cons]
    split
    · simp [*]
    · rename_i hc
      rw [ih, List.mem_cons]
      simp [Ne.symm hc]

/-- What follows the first closing brace is shorter. -/
lemma length_lt_of_afterBrace? (h : afterBrace? cs = some rest) : rest.length < cs.length := by
  obtain ⟨r, hr, rfl⟩ := Option.map_eq_some_iff.1 h
  exact Text.length_lt_of_cut? hr

/-- Blanks before the first closing brace do not matter. -/
lemma afterBrace?_trimStart (cs : List Char) : afterBrace? (Text.trimStart cs) = afterBrace? cs := by
  have hblank : '\x7d' ∉ cs.takeWhile isBlank := by
    intro hmem
    cases List.mem_takeWhile_imp hmem
  rw [Text.trimStart, ← afterBrace?_append hblank, List.takeWhile_append_dropWhile]

/-- After the head and a blank, a link needs a word and a closing brace. -/
lemma linkTarget?_eq (h : cs.head?.any isBlank = true) :
    linkTarget? cs =
      if firstWord cs = [] then none else (afterBrace? cs).map fun rest => (firstWord cs, rest) := by
  unfold linkTarget?
  rw [h, ← afterBrace?_trimStart, afterBrace?, Option.map_map]
  by_cases hword : firstWord cs = []
  · rw [if_pos hword]
    unfold firstWord at hword
    simp [hword]
  · rw [if_neg hword]
    unfold firstWord at hword
    simp [hword, firstWord, Function.comp_def]

/-! ## The whole search -/

/-- What follows a link is shorter than what starts with it. -/
lemma length_lt_of_link? (h : link? cs = some (target, rest)) : rest.length < cs.length := by
  obtain ⟨after, ⟨head, -, rfl, hblank⟩, htarget⟩ := exists_opens_of_link? h
  unfold linkTarget? at htarget
  dsimp only at htarget
  split at htarget
  · obtain ⟨r, hr, hrest⟩ := Option.map_eq_some_iff.1 htarget
    obtain ⟨-, rfl⟩ := Prod.mk.inj hrest
    have hcut := Text.length_lt_of_cut? hr
    have htrim := (List.dropWhile_suffix (l := after) isBlank).length_le
    rw [List.length_append]
    exact (hcut.trans_le htrim).trans_le (Nat.le_add_left _ _)
  · cases htarget

/-- The targets of all links of a text. -/
def linksOf (cs : List Char) : List String :=
  linksFrom cs.length cs

/-- The links of a comment are those between its delimiters. -/
lemma links_parse (text : String) : (parse text).links = linksOf (inner text.toList) := rfl

/-- A bound that is large enough does not matter. -/
lemma linksFrom_eq_linksOf {fuel : Nat} (h : cs.length ≤ fuel) : linksFrom fuel cs = linksOf cs := by
  have hbound (fuel fuel' : Nat) (cs : List Char) (h : cs.length ≤ fuel) (h' : cs.length ≤ fuel') :
      linksFrom fuel cs = linksFrom fuel' cs := by
    induction fuel generalizing fuel' cs with
    | zero =>
      obtain rfl : cs = [] := List.length_eq_zero_iff.1 (Nat.le_zero.1 h)
      cases fuel' <;> rfl
    | succ fuel ih =>
      cases cs with
      | nil => cases fuel' <;> rfl
      | cons c cs =>
        obtain ⟨fuel', rfl⟩ : ∃ n, fuel' = n + 1 :=
          Nat.exists_eq_add_of_le' (Nat.le_trans (by simp) h')
        rw [linksFrom, linksFrom]
        cases hlink : link? (c :: cs) with
        | none => exact ih fuel' cs (by simpa using h) (by simpa using h')
        | some r =>
          have hshort := length_lt_of_link? hlink
          exact congrArg _ (ih fuel' r.2 (Nat.le_of_lt_succ (hshort.trans_le h))
            (Nat.le_of_lt_succ (hshort.trans_le h')))
  exact hbound fuel cs.length cs h (Nat.le_refl _)

/-- Where no link starts, the search goes on at the next character. -/
lemma linksOf_of_eq_none {c : Char} (h : link? (c :: cs) = none) :
    linksOf (c :: cs) = linksOf cs := by
  rw [linksOf, List.length_cons, linksFrom, h]
  rfl

/-- After a link, the search goes on behind its closing brace. -/
lemma linksOf_of_eq_some (h : link? cs = some (target, rest)) :
    linksOf cs = String.ofList target :: linksOf rest := by
  have hshort := length_lt_of_link? h
  obtain ⟨c, cs, rfl⟩ : ∃ c ds, cs = c :: ds := by
    cases cs with
    | nil => simp at hshort
    | cons c cs => exact ⟨c, cs, rfl⟩
  rw [linksOf, List.length_cons, linksFrom, h]
  exact congrArg _ (linksFrom_eq_linksOf (Nat.le_of_lt_succ hshort))

/-- A change of texts that keeps the link at their start, and changes what follows it in the same way,
keeps all links. -/
lemma linksOf_change {change : List Char → List Char} (hnil : change [] = [])
    (hlink : ∀ cs, link? (change cs) = (link? cs).map fun r => (r.1, change r.2))
    (hskip : ∀ c cs, link? (c :: cs) = none → linksOf (change (c :: cs)) = linksOf (change cs))
    (cs : List Char) : linksOf (change cs) = linksOf cs := by
  induction hn : cs.length using Nat.strong_induction_on generalizing cs with
  | _ n ih =>
    subst hn
    cases cs with
    | nil => rw [hnil]
    | cons c cs =>
      have hchanged := hlink (c :: cs)
      cases hfound : link? (c :: cs) with
      | none =>
        rw [hskip c cs hfound, linksOf_of_eq_none hfound]
        exact ih cs.length (by simp) cs rfl
      | some r =>
        rw [hfound] at hchanged
        rw [linksOf_of_eq_some hfound, linksOf_of_eq_some hchanged,
          ih r.2.length (length_lt_of_link? hfound) r.2 rfl]

/-- The search passes over text without opening braces. -/
lemma linksOf_append {margin : List Char} (h : '\x7b' ∉ margin) (cs : List Char) :
    linksOf (margin ++ cs) = linksOf cs := by
  induction margin with
  | nil => rfl
  | cons c margin ih =>
    obtain ⟨hc, hmargin⟩ := List.ne_and_not_mem_of_not_mem_cons h
    rw [List.cons_append, linksOf_of_eq_none (link?_eq_none (not_opens_cons hc.symm)), ih hmargin]

end JavaLint.DocComment
