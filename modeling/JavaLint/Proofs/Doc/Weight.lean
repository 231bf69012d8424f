import JavaLint.Doc.Comment
import JavaLint.Proofs.Doc.Margins
import JavaLint.Proofs.Text.Search
import Mathlib.Algebra.Ring.Nat
import Mathlib.Tactic.Common

/-!
# No character of a doc comment gets lost

The weight of a text is the number of its characters that are not blank.  Reading a comment moves blanks
about, but every other character stays: the description and the tags weigh as much as the lines without
their decoration (`weight_said`), where the `@` of a tag counts with the tag.  What a line loses is the
star at its start, if there is one (`weight_undecorate`).
-/

namespace JavaLint

open Text (isBlank)

namespace Text

/-- The number of characters that are not blank. -/
def weight (cs : List Char) : Nat :=
  cs.countP fun c => !isBlank c

/-- A text weighs as much as its two sides. -/
@[simp] lemma weight_append (as bs : List Char) : weight (as ++ bs) = weight as + weight bs :=
  List.countP_append

/-- One character more. -/
@[simp] lemma weight_cons (c : Char) (cs : List Char) :
    weight (c :: cs) = weight cs + if isBlank c then 0 else 1 := by
  rw [weight, List.countP_cons]
  cases isBlank c <;> rfl

/-- Blanks weigh nothing. -/
lemma weight_eq_zero {cs : List Char} (h : ∀ c ∈ cs, isBlank c = true) : weight cs = 0 := by
  refine List.countP_eq_zero.2 fun c hc => ?_
  simp [h c hc]

/-- What is trimmed from the start weighs nothing. -/
lemma weight_trimStart (cs : List Char) : weight (trimStart cs) = weight cs := by
  have hblank : weight (cs.takeWhile isBlank) = 0 :=
    weight_eq_zero fun c hc => List.mem_takeWhile_imp hc
  conv_rhs => rw [← List.takeWhile_append_dropWhile (p := isBlank) (l := cs), weight_append, hblank]
  exact (Nat.zero_add _).symm

/-- What is trimmed weighs nothing. -/
lemma weight_trim (cs : List Char) : weight (trim cs) = weight cs := by
  obtain ⟨before, after, hcs, hbefore, hafter⟩ := exists_trim cs
  conv_rhs => rw [hcs, weight_append, weight_append, weight_eq_zero hbefore, weight_eq_zero hafter]
  rw [Nat.zero_add, Nat.add_zero]

/-- A text is cut at a blank without loss. -/
lemma weight_of_cut? {cs before after : List Char} (h : cut? isBlank cs = some (before, after)) :
    weight cs = weight before + weight after := by
  obtain ⟨c, rfl, hc, -⟩ := exists_of_cut? h
  simp [hc]

end Text

open Text (weight)

/-- The weight of a tag, with its `@`. -/
def DocTag.weight (tag : DocTag) : Nat :=
  1 + Text.weight tag.name.toList + Text.weight (tag.argument.getD "").toList +
    Text.weight tag.body.toList

namespace DocComment

/-! ## A line without its decoration -/

/-- The line starts with a star, which is decoration. -/
def isStarred (line : List Char) : Bool :=
  (Text.trimStart line).head? = some '*'

/-- A line loses its star and nothing else. -/
lemma weight_undecorate (line : List Char) :
    weight (undecorate line) + (isStarred line).toNat = weight line := by
  rw [undecorate, isStarred, Text.weight_trim, ← Text.weight_trimStart line]
  cases Text.trimStart line with
  | nil => rfl
  | cons c cs =>
    by_cases hc : c = '*'
    · have hstar : isBlank '*' = false := rfl
      simp [Text.dropStart, Text.dropStart?, hc, hstar]
    · simp [Text.dropStart, Text.dropStart?, hc, Ne.symm hc]

/-! ## Lines that are taken in -/

/-- A tag weighs as much as the text after its `@`. -/
lemma weight_tagOf (name rest : List Char) :
    (tagOf (String.ofList name) rest).weight = 1 + weight name + weight rest := by
  unfold tagOf DocTag.weight
  split
  · cases hcut : Text.cut? isBlank rest with
    | some r =>
      obtain ⟨argument, body⟩ := r
      simp [Text.weight_of_cut? hcut, Text.weight_trim, Nat.add_assoc]
    | none =>
      by_cases hrest : rest = []
      · simp [hrest, weight]
      · simp [hrest, weight]
  · simp [weight]

/-- A tag weighs as much as the line on which it starts. -/
lemma weight_of_readTag? {line : List Char} {tag : DocTag} (h : readTag? line = some tag) :
    tag.weight = weight line := by
  unfold readTag? at h
  split at h
  · rename_i cs
    split at h
    · cases h
    · obtain rfl := Option.some.inj h
      conv_rhs => rw [Text.weight_cons, ← List.takeWhile_append_dropWhile (p := Char.isAlpha) (l := cs)]
      rw [weight_tagOf, Text.weight_trim, Text.weight_append]
      have hat : isBlank '@' = false := rfl
      simp only [hat, Bool.false_eq_true, if_false]
      omega
  · cases h

/-- What was read so far: the weight of the description and of the tags. -/
def stateWeight (state : List String × List DocTag) : Nat :=
  (state.1.map fun text => weight text.toList).sum + (state.2.map DocTag.weight).sum

/-- A further line makes a tag as much heavier as the line weighs. -/
lemma weight_extend (tag : DocTag) (line : List Char) :
    (tag.extend (String.ofList line)).weight = tag.weight + weight line := by
  unfold DocTag.extend DocTag.weight
  by_cases hbody : tag.body = ""
  · simp [hbody, weight]
  · have hspace : isBlank ' ' = true := rfl
    simp [hbody, hspace, Nat.add_assoc]

/-- A further line makes the last of the tags as much heavier as the line weighs. -/
lemma sum_weight_extendLast (line : List Char) {tags : List DocTag} (hne : tags ≠ []) :
    ((extendLast (String.ofList line) tags).map DocTag.weight).sum =
      (tags.map DocTag.weight).sum + weight line := by
  induction tags with
  | nil => exact absurd rfl hne
  | cons tag tags ih =>
    cases tags with
    | nil => simp [extendLast, weight_extend]
    | cons next tags =>
      have hlater : extendLast (String.ofList line) (tag :: next :: tags) =
          tag :: extendLast (String.ofList line) (next :: tags) := rfl
      rw [hlater, List.map_cons, List.sum_cons, ih (List.cons_ne_nil _ _), ← Nat.add_assoc]
      rfl

/-- A line adds its weight to what was read. -/
lemma stateWeight_addLine (state : List String × List DocTag) (line : List Char) :
    stateWeight (addLine state line) = stateWeight state + weight line := by
  obtain ⟨texts, tags⟩ := state
  unfold addLine
  cases htag : readTag? line with
  | some tag => simp [stateWeight, weight_of_readTag? htag, Nat.add_assoc]
  | none =>
    by_cases hline : line = []
    · simp [hline, weight]
    · by_cases htags : tags = []
      · simp [stateWeight, hline, htags]
      · have hsum := sum_weight_extendLast line htags
        simp [stateWeight, hline, htags, hsum, Nat.add_assoc]

/-- A description weighs as much as its lines. -/
lemma weight_intercalate (texts : List String) :
    weight (" ".intercalate texts).toList = (texts.map fun text => weight text.toList).sum := by
  induction texts with
  | nil => rfl
  | cons text texts ih =>
    cases texts with
    | nil => simp
    | cons next texts =>
      have hspace : isBlank ' ' = true := rfl
      rw [String.intercalate_cons_cons, List.map_cons, List.sum_cons, ← ih]
      simp [hspace]

/-- The description and the tags that texts give, one after the other. -/
def said (contents : List (List Char)) : String × List DocTag :=
  (" ".intercalate (blocks contents).1, (blocks contents).2)

/-- The description and the tags of a comment are what its lines say. -/
lemma said_lines (text : String) :
    ((parse text).description, (parse text).tags) =
      said ((Text.splitAt '\n' (inner text.toList)).map undecorate) := rfl

/-- The description and the tags weigh as much as the texts that give them. -/
theorem weight_said (contents : List (List Char)) :
    weight (said contents).1.toList + ((said contents).2.map DocTag.weight).sum =
      (contents.map weight).sum := by
  have hrun (state : List String × List DocTag) :
      stateWeight (contents.foldl addLine state) = stateWeight state + (contents.map weight).sum := by
    induction contents generalizing state with
    | nil => rfl
    | cons line contents ih =>
      rw [List.foldl_cons, ih, stateWeight_addLine, List.map_cons, List.sum_cons, Nat.add_assoc]
  have hstart : stateWeight ([], []) = 0 := rfl
  rw [said, weight_intercalate, blocks]
  exact (hrun ([], [])).trans (by rw [hstart, Nat.zero_add])

end DocComment

end JavaLint
