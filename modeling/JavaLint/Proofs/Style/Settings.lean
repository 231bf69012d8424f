import JavaLint.Proofs.Json.RoundTrip
import JavaLint.Style.Settings
import Mathlib.Tactic.Common

/-!
# Settings are read back from their JSON form

An object that gives some keys of settings, in any order, and leaves out only such keys as have their
default value, is read as the settings, unless no name or no line could meet them
(`read_back_iff_meetable`).

Taking in a member changes the value of its key and no other (`set?_get`), so after all members each
key that was given has the value of the settings and each other key the value from before
(`setMembers?_map_member`).  Settings are known by the values of their keys (`ext_get`).  The JSON form
that the program itself would give, with all keys, is a special case (`ofText_toJson`).
-/

namespace JavaLint.Settings

/-! ## The values of keys -/

/-- The limits fit into 64 bits. -/
structure InRange (s : Settings) : Prop where
  minNameLength : s.minNameLength < Text.numberBound
  maxNameLength : s.maxNameLength < Text.numberBound
  maxLineWidth : s.maxLineWidth < Text.numberBound

/-- The digits of a count are read as the count. -/
lemma digitsValue_toDigits (n : Nat) : Text.digitsValue (Nat.toDigits 10 n) = n :=
  Nat.ofDigitChars_ten_toDigits

/-- A limit is read from its JSON form. -/
lemma readLimit?_nat {n : Nat} (h : n < Text.numberBound) : readLimit? (Json.nat n) = some n := by
  have hdigits : ∀ d ∈ Nat.toDigits 10 n, d.isDigit = true :=
    fun d hd => Nat.isDigit_of_mem_toDigits (by decide) (by decide) hd
  rw [Json.nat, readLimit?, Nat.toString_eq_ofList_toDigits, String.toList_ofList, Text.readDigits?,
    digitsValue_toDigits, if_pos h, if_neg (by simpa using hdigits)]

/-- A style is read from its JSON form. -/
lemma readStyle?_key (style : NamingStyle) : readStyle? (.string style.key) = some style := by
  cases style <;> decide

/-- A key is known by its spelling. -/
lemma Key.ofSpelling?_spelling (key : Key) : ofSpelling? key.spelling = some key := by
  cases key <;> decide

/-- The JSON form of a limit is the form of no other limit. -/
lemma nat_injective {m n : Nat} (h : Json.nat m = Json.nat n) : m = n := by
  have hdigits : Nat.toDigits 10 m = Nat.toDigits 10 n := by
    rw [Json.nat, Json.nat, Nat.toString_eq_ofList_toDigits, Nat.toString_eq_ofList_toDigits] at h
    exact String.ofList_injective (Json.number.inj h)
  rw [← digitsValue_toDigits m, hdigits, digitsValue_toDigits]

/-- The JSON form of a style is the form of no other style. -/
lemma key_injective {style style' : NamingStyle}
    (h : Json.string style.key = .string style'.key) : style = style' := by
  have hread := readStyle?_key style
  rw [h, readStyle?_key] at hread
  exact (Option.some.inj hread).symm

/-- Settings are known by the values of their keys. -/
lemma ext_get {s t : Settings} (h : ∀ key, s.get key = t.get key) : s = t := by
  have hmin : s.minNameLength = t.minNameLength := nat_injective (h .minLength)
  have hmax : s.maxNameLength = t.maxNameLength := nat_injective (h .maxLength)
  have hclass : s.classNaming = t.classNaming := key_injective (h .classNaming)
  have hmethod : s.methodNaming = t.methodNaming := key_injective (h .methodNaming)
  have hvariable : s.variableNaming = t.variableNaming := key_injective (h .variableNaming)
  have hconstant : s.constantNaming = t.constantNaming := key_injective (h .constantNaming)
  have hwidth : s.maxLineWidth = t.maxLineWidth := nat_injective (h .lineWidth)
  cases s
  cases t
  simp_all

/-! ## Taking in members -/

/-- The member of the JSON form that gives a key. -/
def member (s : Settings) (key : Key) : String × Json :=
  (key.spelling, s.get key)

/-- The JSON form gives all keys in their order. -/
lemma toJson_eq (s : Settings) : s.toJson = .object (Key.all.map s.member) := rfl

variable {s : Settings}

/-- Taking in the value of a key changes the value of this key and of no other. -/
lemma set?_get (hs : s.InRange) (t : Settings) (key : Key) :
    ∃ t', t.set? (s.get key) key = some t' ∧
      ∀ key', t'.get key' = if key' = key then s.get key else t.get key' := by
  obtain ⟨hmin, hmax, hwidth⟩ := hs
  cases key
  all_goals
    simp only [set?, get, readLimit?_nat hmin, readLimit?_nat hmax, readLimit?_nat hwidth,
      readStyle?_key, Option.map_some]
    refine ⟨_, rfl, fun key' => ?_⟩
    cases key' <;> rfl

/-- After all members, each key that was given has its value, and each other key the value from
before. -/
lemma setMembers?_map_member (hs : s.InRange) {keys : List Key} (hnodup : keys.Nodup)
    {seen : List Key} (hseen : ∀ key ∈ keys, key ∉ seen) (t : Settings) :
    ∃ t', setMembers? seen t (keys.map s.member) = some t' ∧
      ∀ key, t'.get key = if key ∈ keys then s.get key else t.get key := by
  induction keys generalizing seen t with
  | nil => exact ⟨t, rfl, fun key => by simp⟩
  | cons key keys ih =>
    obtain ⟨hnew, hnodup⟩ := List.nodup_cons.1 hnodup
    obtain ⟨hkey, hkeys⟩ := List.forall_mem_cons.1 hseen
    obtain ⟨t₁, hset, hget₁⟩ := set?_get hs t key
    have hseen' : ∀ key' ∈ keys, key' ∉ key :: seen := by
      intro key' hmem
      rw [List.mem_cons, not_or]
      exact ⟨fun heq => hnew (heq ▸ hmem), hkeys key' hmem⟩
    obtain ⟨t₂, hmembers, hget₂⟩ := ih hnodup hseen' t₁
    refine ⟨t₂, ?_, ?_⟩
    · rw [List.map_cons, member, setMembers?, Key.ofSpelling?_spelling]
      simp [hkey, hset, hmembers]
    · intro key'
      rw [hget₂, hget₁]
      by_cases heq : key' = key
      · simp [heq, hnew]
      · simp [heq]

/-- An object that leaves out only keys with their default value is read as the settings. -/
lemma ofJson?_members (hs : s.InRange) {keys : List Key} (hnodup : keys.Nodup)
    (hdefault : ∀ key ∉ keys, s.get key = ({} : Settings).get key) :
    ofJson? (.object (keys.map s.member)) = some s := by
  have hseen : ∀ key ∈ keys, key ∉ ([] : List Key) := by simp
  obtain ⟨t, hmembers, hget⟩ := setMembers?_map_member hs hnodup hseen {}
  have hts : t = s := by
    refine ext_get fun key => ?_
    rw [hget]
    split
    · rfl
    · exact (hdefault key ‹_›).symm
  rw [ofJson?, hmembers, hts]

/-- The members of the JSON form are such as the program writes. -/
lemma plain_members (s : Settings) (keys : List Key) : (Json.object (keys.map s.member)).Plain := by
  refine .object fun m hm => ?_
  obtain ⟨key, -, rfl⟩ := List.mem_map.1 hm
  cases key
  case minLength | maxLength | lineWidth => exact .nat _
  all_goals exact .string _

/-- A text of such an object is checked as the settings are. -/
lemma ofText_of_read? (hs : s.InRange) {keys : List Key} (hnodup : keys.Nodup)
    (hdefault : ∀ key ∉ keys, s.get key = ({} : Settings).get key) {text : String}
    (h : Json.read? text = some (.object (keys.map s.member))) : ofText text = s.validate := by
  have hjson : (Json.read? text).bind ofJson? = some s := by
    rw [h, Option.bind_some, ofJson?_members hs hnodup hdefault]
  rw [ofText, hjson]

/-- The JSON form with all keys is read back. -/
theorem ofText_toJson (hs : s.InRange) : ofText s.toJson.write = s.validate := by
  have hall : ∀ key, key ∈ Key.all := by
    intro key
    cases key <;> decide
  have hread : Json.read? s.toJson.write = some (.object (Key.all.map s.member)) := by
    rw [toJson_eq]
    exact Json.read?_write (plain_members s Key.all)
  exact ofText_of_read? hs (by decide) (fun key hkey => absurd (hall key) hkey) hread

/-! ## Settings that make sense -/

/-- Settings are accepted if a name and a line can meet them, and refused if not. -/
lemma validate_eq (s : Settings) :
    (s.validate = .ok s ↔ s.minNameLength ≤ s.maxNameLength ∧ 0 < s.maxLineWidth) ∧
      (¬ (s.minNameLength ≤ s.maxNameLength ∧ 0 < s.maxLineWidth) → ∃ e, s.validate = .error e) := by
  unfold validate
  split_ifs with hlengths hwidth
  · simp [Nat.not_le.2 hlengths]
  · simp [hwidth]
  · have hmeetable : s.minNameLength ≤ s.maxNameLength ∧ 0 < s.maxLineWidth := by omega
    simp [hmeetable]

/-- A text of the JSON form of settings, with its keys in any order and any keys left out that have
their default value, is read as the settings if some name and some line can meet them, and refused if
not.  The compact form is such a text. -/
theorem read_back_iff_meetable {s : Settings} (hs : s.InRange) {keys : List Key}
    (hnodup : keys.Nodup) (hdefault : ∀ key ∉ keys, s.get key = ({} : Settings).get key) :
    let object := Json.object (keys.map s.member)
    Json.read? object.write = some object ∧
      ∀ text, Json.read? text = some object →
        (ofText text = .ok s ↔ s.minNameLength ≤ s.maxNameLength ∧ 0 < s.maxLineWidth) ∧
        (¬ (s.minNameLength ≤ s.maxNameLength ∧ 0 < s.maxLineWidth) → ∃ e, ofText text = .error e) := by
  intro object
  refine ⟨Json.read?_write (plain_members s keys), fun text htext => ?_⟩
  rw [ofText_of_read? hs hnodup hdefault htext]
  exact validate_eq s

/-- Settings with two limits and a style of their own, which are given in another order. -/
theorem read_back_iff_meetable_of_three_keys :
    let s : Settings := { minNameLength := 2, maxNameLength := 40, classNaming := .upperUnderscore }
    let text := "\x7b\"max_identifier_length\":40,\"class_naming\":\"upper_underscore\"," ++
      "\"min_identifier_length\":2\x7d"
    ofText text = .ok s := by
  intro s text
  have hdefault : ∀ key ∉ [Key.maxLength, .classNaming, .minLength],
      s.get key = ({} : Settings).get key := by
    intro key hkey
    cases key <;> first | rfl | simp at hkey
  obtain ⟨hwrite, hread⟩ :=
    read_back_iff_meetable (s := s) ⟨by decide, by decide, by decide⟩ (by decide) hdefault
  have htext : (Json.object ([Key.maxLength, .classNaming, .minLength].map s.member)).write = text := by
    decide
  rw [htext] at hwrite
  exact (hread text hwrite).1.2 (by decide)

end JavaLint.Settings
