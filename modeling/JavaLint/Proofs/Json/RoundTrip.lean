import JavaLint.Json.Reader
import JavaLint.Json.Writer
import Mathlib.Tactic.Common

/-!
# What is written as JSON is read back

The compact form of a value is read as the value (`read?_write`), if the value is such as the program
writes: its numbers are counts, and its strings have characters.

Strings are read back character by character, since the escape of a character says where it ends
(`readChars_writeChar`).  A number has no end of its own; what follows must not go on with it
(`EndsNumber`).  Arrays and objects are read with one unit of fuel for each of their parts, and each part
is at least one character long: so the length of the text is fuel enough.
-/

namespace JavaLint.Json

/-! ## Strings -/

/-- An escape of four digits is read as the character with this number. -/
lemma readChars_unit {a b c d : Char} {unit : Nat} (h : hexUnit? a b c d = some unit)
    (hhigh : isHighSurrogate unit = false) (hlow : isLowSurrogate unit = false) (cs : List Char) :
    readChars ('\\' :: 'u' :: a :: b :: c :: d :: cs) = (readChars cs).map (push (Char.ofNat unit)) := by
  rw [readChars.eq_def]
  split <;> grind

/-- An escape of one letter is read as the character that it stands for. -/
lemma readChars_escape {c d : Char} (hc : c ≠ 'u') (h : simpleEscape? c = some d) (cs : List Char) :
    readChars ('\\' :: c :: cs) = (readChars cs).map (push d) := by
  rw [readChars.eq_def]
  split <;> grind

/-- A character that needs no escape is read as itself. -/
lemma readChars_plain {c : Char} (hquote : c ≠ '"') (hslash : c ≠ '\\') (hcontrol : ¬ c.toNat < 32)
    (cs : List Char) : readChars (c :: cs) = (readChars cs).map (push c) := by
  rw [readChars.eq_def]
  split <;> grind

/-- The digits of a control character are its number. -/
lemma hexUnit?_of_control {n : Nat} (h : n < 32) :
    hexUnit? '0' '0' (Nat.digitChar (n / 16)) (Nat.digitChar (n % 16)) = some n := by
  revert n
  decide

/-- A written character is read back. -/
lemma readChars_writeChar (c : Char) (cs : List Char) :
    readChars (writeChar c ++ cs) = (readChars cs).map (push c) := by
  unfold writeChar
  split_ifs with hquote hslash hn hr ht hb hf hcontrol
  · rw [hquote]; exact readChars_escape (by decide) rfl cs
  · rw [hslash]; exact readChars_escape (by decide) rfl cs
  · rw [hn]; exact readChars_escape (by decide) rfl cs
  · rw [hr]; exact readChars_escape (by decide) rfl cs
  · rw [ht]; exact readChars_escape (by decide) rfl cs
  · rw [hb]; exact readChars_escape (by decide) rfl cs
  · rw [hf]; exact readChars_escape (by decide) rfl cs
  · have hhigh : isHighSurrogate c.toNat = false := by simp [isHighSurrogate]; omega
    have hlow : isLowSurrogate c.toNat = false := by simp [isLowSurrogate]; omega
    have hread := readChars_unit (hexUnit?_of_control hcontrol) hhigh hlow cs
    rwa [Char.ofNat_toNat] at hread
  · exact readChars_plain hquote hslash hcontrol cs

/-- A written string is read back. -/
lemma readChars_flatMap_writeChar (s rest : List Char) :
    readChars (s.flatMap writeChar ++ '"' :: rest) = some (some s, rest) := by
  induction s with
  | nil => simp [readChars]
  | cons c s ih =>
    rw [List.flatMap_cons, List.append_assoc, readChars_writeChar, ih]
    rfl

/-! ## Numbers -/

/-- What follows a number does not go on with it. -/
def EndsNumber (cs : List Char) : Prop :=
  ∀ c ∈ cs.head?, c.isDigit = false ∧ c ≠ '.' ∧ c ≠ 'e' ∧ c ≠ 'E'

/-- No digit comes after the digits. -/
lemma takeDigits_append {ds rest : List Char} (hds : ∀ d ∈ ds, d.isDigit = true)
    (hrest : EndsNumber rest) : takeDigits (ds ++ rest) = (ds, rest) := by
  have htake : rest.takeWhile Char.isDigit = [] := by
    cases rest with
    | nil => rfl
    | cons c rest => simp [(hrest c rfl).1]
  have hdrop : rest.dropWhile Char.isDigit = rest := by
    cases rest with
    | nil => rfl
    | cons c rest => simp [(hrest c rfl).1]
  rw [takeDigits, List.takeWhile_append_of_pos hds, List.dropWhile_append_of_pos hds, htake, hdrop,
    List.append_nil]

/-- A number other than zero does not start with a zero. -/
lemma head?_toDigits_ne {n : Nat} (h : 0 < n) : (Nat.toDigits 10 n).head? ≠ some '0' := by
  induction n using Nat.strongRecOn with
  | ind n ih =>
    rw [Nat.toDigits_eq_if (by decide)]
    split
    · simp; omega
    · have hquotient : 0 < n / 10 := by omega
      rw [List.head?_append]
      have hhead := ih (n / 10) (by omega) hquotient
      cases hd : (Nat.toDigits 10 (n / 10)).head? with
      | none => simp [List.head?_eq_none_iff] at hd
      | some d => rwa [hd] at hhead

/-- The digits of a number are read as a whole. -/
lemma readWhole_toDigits (n : Nat) {rest : List Char} (hrest : EndsNumber rest) :
    readWhole (Nat.toDigits 10 n ++ rest) = some (Nat.toDigits 10 n, rest) := by
  have hdigits : ∀ d ∈ Nat.toDigits 10 n, d.isDigit = true :=
    fun d hd => Nat.isDigit_of_mem_toDigits (by decide) (by decide) hd
  rcases Nat.eq_zero_or_pos n with rfl | hpos
  · cases rest with
    | nil => rfl
    | cons c rest => simp [Nat.toDigits_zero, readWhole, (hrest c rfl).1]
  · have htake := takeDigits_append hdigits hrest
    have hhead := head?_toDigits_ne hpos
    obtain ⟨d, ds, hds⟩ := List.exists_cons_of_ne_nil (Nat.toDigits_ne_nil (n := n) (b := 10))
    rw [hds] at hhead htake ⊢
    rw [List.cons_append] at htake ⊢
    have hd : d ≠ '0' := fun hd => hhead (by rw [hd]; rfl)
    rw [readWhole.eq_def]
    split
    · rename_i heq
      exact absurd (List.cons.inj heq).1 hd
    · rw [htake]

/-- A written count is read as its digits. -/
lemma readNumber_toDigits (n : Nat) {rest : List Char} (hrest : EndsNumber rest) :
    readNumber (Nat.toDigits 10 n ++ rest) = some (Nat.toDigits 10 n, rest) := by
  have hfraction : readFraction rest = some ([], rest) := by
    cases rest with
    | nil => rfl
    | cons c rest =>
      have hpoint := (hrest c rfl).2.1
      rw [readFraction.eq_def]
      split <;> simp_all
  have hexponent : readExponent rest = some ([], rest) := by
    cases rest with
    | nil => rfl
    | cons c rest =>
      obtain ⟨-, -, hsmall, hcapital⟩ := hrest c rfl
      simp [readExponent, hsmall, hcapital]
  have hunsigned : readUnsigned (Nat.toDigits 10 n ++ rest) = some (Nat.toDigits 10 n, rest) := by
    simp [readUnsigned, readWhole_toDigits n hrest, hfraction, hexponent]
  have hdigits : ∀ d ∈ Nat.toDigits 10 n, d.isDigit = true :=
    fun d hd => Nat.isDigit_of_mem_toDigits (by decide) (by decide) hd
  obtain ⟨d, ds, hds⟩ := List.exists_cons_of_ne_nil (Nat.toDigits_ne_nil (n := n) (b := 10))
  rw [hds] at hunsigned hdigits ⊢
  rw [List.cons_append] at hunsigned ⊢
  have hd := hdigits d List.mem_cons_self
  rw [readNumber.eq_def]
  split
  · rename_i heq
    rw [(List.cons.inj heq).1] at hd
    cases hd
  · exact hunsigned

/-! ## Values -/

/-- A value such as the program writes: its numbers are counts, and its strings have characters. -/
inductive Plain : Json → Prop
  | null : Plain .null
  | bool (b : Bool) : Plain (.bool b)
  | nat (n : Nat) : Plain (.nat n)
  | string (s : String) : Plain (.string s)
  | array {items : List Json} (h : ∀ item ∈ items, Plain item) : Plain (.array items)
  | object {members : List (String × Json)} (h : ∀ m ∈ members, Plain m.2) : Plain (.object members)

/-- The compact form of the value is read as the value, with as much fuel as there are characters. -/
def ReadsBack (json : Json) : Prop :=
  ∀ (fuel : Nat) (rest : List Char), json.write.toList.length ≤ fuel → EndsNumber rest →
    readValue fuel (json.write.toList ++ rest) = some (json, rest)

/-- The characters of a written string. -/
lemma toList_writeString (s : String) :
    (writeString s).toList = '"' :: (s.toList.flatMap writeChar ++ ['"']) := by
  simp [writeString]

/-- A written string is read back with any fuel. -/
lemma readsBack_string (s : String) : ReadsBack (.string s) := by
  intro fuel rest hfuel _
  rw [write, toList_writeString] at hfuel ⊢
  obtain ⟨fuel, rfl⟩ := Nat.exists_eq_add_one.2 (Nat.lt_of_lt_of_le (by simp) hfuel)
  have hread := readChars_flatMap_writeChar s.toList rest
  simp [readValue, skipSpace, isSpace, hread, ofChars]

/-- A digit is no blank. -/
lemma isSpace_of_isDigit {c : Char} (hc : c.isDigit = true) : isSpace c = false := by
  rw [Bool.eq_false_iff]
  intro hspace
  simp only [isSpace, Bool.or_eq_true, beq_iff_eq] at hspace
  rcases hspace with ((rfl | rfl) | rfl) | rfl <;> cases hc

/-- What starts with a digit is read as a number. -/
lemma readValue_of_isDigit {d : Char} (hd : d.isDigit = true) (fuel : Nat) (cs : List Char) :
    readValue (fuel + 1) (d :: cs) =
      (readNumber (d :: cs)).map fun r => (.number (String.ofList r.1), r.2) := by
  have hskip : skipSpace (d :: cs) = d :: cs := by simp [skipSpace, isSpace_of_isDigit hd]
  have hne (c : Char) (hc : c.isDigit = false) : d ≠ c := by
    rintro rfl
    simp [hc] at hd
  rw [readValue, hskip]
  split
  case h_7 => rfl
  all_goals exact absurd (List.cons.inj ‹_›).1 (hne _ rfl)

/-- A written count is read back with any fuel. -/
lemma readsBack_nat (n : Nat) : ReadsBack (.nat n) := by
  intro fuel rest hfuel hrest
  have htext : (Json.nat n).write.toList = Nat.toDigits 10 n := by
    simp [Json.nat, write]
  have hvalue : Json.number (String.ofList (Nat.toDigits 10 n)) = .nat n := by
    rw [Json.nat, Nat.toString_eq_ofList_toDigits]
  have hread := readNumber_toDigits n hrest
  obtain ⟨d, ds, hds⟩ := List.exists_cons_of_ne_nil (Nat.toDigits_ne_nil (n := n) (b := 10))
  have hd : d.isDigit = true :=
    Nat.isDigit_of_mem_toDigits (n := n) (b := 10) (by decide) (by decide) (by simp [hds])
  rw [htext] at hfuel ⊢
  obtain ⟨fuel, rfl⟩ := Nat.exists_eq_add_one.2 (Nat.lt_of_lt_of_le (by simp [hds]) hfuel)
  rw [← hvalue]
  rw [hds, List.cons_append] at hread ⊢
  rw [readValue_of_isDigit hd, hread]
  rfl

/-- A written value starts with a character that is neither a blank nor a closing bracket. -/
lemma Plain.exists_write_eq_cons {json : Json} (h : json.Plain) :
    ∃ c cs, json.write.toList = c :: cs ∧ isSpace c = false ∧ c ≠ ']' := by
  cases h with
  | null => exact ⟨'n', _, rfl, rfl, by decide⟩
  | bool b => cases b <;> exact ⟨_, _, rfl, rfl, by decide⟩
  | nat n =>
    obtain ⟨d, ds, hds⟩ := List.exists_cons_of_ne_nil (Nat.toDigits_ne_nil (n := n) (b := 10))
    have hd : d.isDigit = true :=
      Nat.isDigit_of_mem_toDigits (n := n) (b := 10) (by decide) (by decide) (by simp [hds])
    refine ⟨d, ds, by simp [Json.nat, write, hds], isSpace_of_isDigit hd, ?_⟩
    rintro rfl
    cases hd
  | string s => exact ⟨'"', _, by rw [write, toList_writeString], rfl, by decide⟩
  | array h => exact ⟨'[', _, by simp [write]; rfl, rfl, by decide⟩
  | object h => exact ⟨'\x7b', _, by simp [write]; rfl, rfl, by decide⟩

/-- The items of an array as they are written. -/
def itemsText (items : List Json) : List Char :=
  (",".intercalate (writeItems items)).toList

/-- The members of an object as they are written. -/
def membersText (members : List (String × Json)) : List Char :=
  (",".intercalate (writeMembers members)).toList

/-- One item is written by itself. -/
lemma itemsText_singleton (item : Json) : itemsText [item] = item.write.toList := by
  simp [itemsText, writeItems]

/-- There is a comma between two items. -/
lemma itemsText_cons_cons (item next : Json) (items : List Json) :
    itemsText (item :: next :: items) = item.write.toList ++ ',' :: itemsText (next :: items) := by
  simp [itemsText, writeItems, String.intercalate_cons_cons]

/-- One member is written by itself. -/
lemma membersText_singleton (key : String) (value : Json) :
    membersText [(key, value)] = (writeString key).toList ++ ':' :: value.write.toList := by
  simp [membersText, writeMembers]

/-- There is a comma between two members. -/
lemma membersText_cons_cons (key : String) (value : Json) (next : String × Json)
    (members : List (String × Json)) :
    membersText ((key, value) :: next :: members) =
      (writeString key).toList ++ ':' :: (value.write.toList ++ ',' :: membersText (next :: members)) := by
  obtain ⟨key', value'⟩ := next
  simp [membersText, writeMembers, String.intercalate_cons_cons]

/-- A separator ends a number. -/
lemma endsNumber_cons {c : Char} (hc : c = ',' ∨ c = ']' ∨ c = '\x7d') (cs : List Char) :
    EndsNumber (c :: cs) := by
  intro d hd
  obtain rfl : c = d := by simpa using hd
  rcases hc with rfl | rfl | rfl <;> decide

/-- Items are read back if each of them is. -/
lemma readItems_itemsText {item : Json} {items : List Json}
    (h : ∀ i ∈ item :: items, ReadsBack i) {fuel : Nat}
    (hfuel : (itemsText (item :: items)).length < fuel) (rest : List Char) :
    readItems fuel (itemsText (item :: items) ++ ']' :: rest) = some (item :: items, rest) := by
  induction items generalizing item fuel with
  | nil =>
    rw [itemsText_singleton] at hfuel ⊢
    obtain ⟨fuel, rfl⟩ := Nat.exists_eq_add_one.2 (Nat.zero_lt_of_lt hfuel)
    have hitem := h item List.mem_cons_self fuel (']' :: rest) (by omega)
      (endsNumber_cons (by simp) rest)
    simp [readItems, hitem, skipSpace, isSpace]
  | cons next items ih =>
    rw [itemsText_cons_cons] at hfuel ⊢
    rw [List.length_append, List.length_cons] at hfuel
    obtain ⟨fuel, rfl⟩ := Nat.exists_eq_add_one.2 (Nat.zero_lt_of_lt hfuel)
    have hitem := h item List.mem_cons_self fuel (',' :: (itemsText (next :: items) ++ ']' :: rest))
      (by omega) (endsNumber_cons (by simp) _)
    have hshort : (itemsText (next :: items)).length < fuel := by omega
    have hitems := ih (fun i hi => h i (List.mem_cons_of_mem item hi)) hshort
    simp [readItems, hitem, hitems, skipSpace, isSpace]

/-- Members are read back if the value of each of them is. -/
lemma readMembers_membersText {m : String × Json} {members : List (String × Json)}
    (h : ∀ m' ∈ m :: members, ReadsBack m'.2) {fuel : Nat}
    (hfuel : (membersText (m :: members)).length < fuel) (rest : List Char) :
    readMembers fuel (membersText (m :: members) ++ '\x7d' :: rest) = some (some (m :: members), rest) := by
  induction members generalizing m fuel with
  | nil =>
    obtain ⟨key, value⟩ := m
    rw [membersText_singleton, toList_writeString] at hfuel ⊢
    simp only [List.length_cons, List.length_append] at hfuel
    obtain ⟨fuel, rfl⟩ := Nat.exists_eq_add_one.2 (Nat.zero_lt_of_lt hfuel)
    have hkey := readChars_flatMap_writeChar key.toList (':' :: (value.write.toList ++ '\x7d' :: rest))
    have hback : ReadsBack value := h (key, value) List.mem_cons_self
    have hvalue := hback fuel ('\x7d' :: rest) (by omega) (endsNumber_cons (by simp) rest)
    simp [readMembers, hkey, hvalue, skipSpace, isSpace, addMember]
  | cons next members ih =>
    obtain ⟨key, value⟩ := m
    rw [membersText_cons_cons, toList_writeString] at hfuel ⊢
    simp only [List.length_cons, List.length_append] at hfuel
    obtain ⟨fuel, rfl⟩ := Nat.exists_eq_add_one.2 (Nat.zero_lt_of_lt hfuel)
    have hkey := readChars_flatMap_writeChar key.toList
      (':' :: (value.write.toList ++ ',' :: (membersText (next :: members) ++ '\x7d' :: rest)))
    have hback : ReadsBack value := h (key, value) List.mem_cons_self
    have hvalue := hback fuel (',' :: (membersText (next :: members) ++ '\x7d' :: rest)) (by omega)
      (endsNumber_cons (by simp) _)
    have hshort : (membersText (next :: members)).length < fuel := by omega
    have hmembers := ih (fun m' hm' => h m' (List.mem_cons_of_mem _ hm')) hshort
    simp [readMembers, hkey, hvalue, hmembers, skipSpace, isSpace, addMember]

/-- Items that are not empty do not start with a blank or a closing bracket. -/
lemma exists_itemsText_eq_cons {item : Json} (h : item.Plain) (items : List Json) :
    ∃ c cs, itemsText (item :: items) = c :: cs ∧ isSpace c = false ∧ c ≠ ']' := by
  obtain ⟨c, cs, hcs, hspace, hclose⟩ := h.exists_write_eq_cons
  cases items with
  | nil => exact ⟨c, cs, by rw [itemsText_singleton, hcs], hspace, hclose⟩
  | cons next items => exact ⟨c, _, by rw [itemsText_cons_cons, hcs]; rfl, hspace, hclose⟩

/-- Members that are not empty start with a quotation mark. -/
lemma exists_membersText_eq_cons (m : String × Json) (members : List (String × Json)) :
    ∃ cs, membersText (m :: members) = '"' :: cs := by
  obtain ⟨key, value⟩ := m
  cases members with
  | nil => exact ⟨_, by rw [membersText_singleton, toList_writeString]; rfl⟩
  | cons next members => exact ⟨_, by rw [membersText_cons_cons, toList_writeString]; rfl⟩

/-- A written array is read back if its items are. -/
lemma readsBack_array {items : List Json} (hplain : ∀ item ∈ items, item.Plain)
    (h : ∀ item ∈ items, ReadsBack item) : ReadsBack (.array items) := by
  intro fuel rest hfuel _
  have htext : (Json.array items).write.toList = '[' :: (itemsText items ++ [']']) := by
    simp [write, itemsText]
  rw [htext] at hfuel ⊢
  rw [List.length_cons, List.length_append] at hfuel
  obtain ⟨fuel, rfl⟩ := Nat.exists_eq_add_one.2 (Nat.lt_of_lt_of_le (by simp) hfuel)
  cases items with
  | nil => simp [readValue, skipSpace, isSpace, itemsText, writeItems]
  | cons item items =>
    have hshort : (itemsText (item :: items)).length < fuel := Nat.lt_of_succ_le (by simpa using hfuel)
    have hitems := readItems_itemsText h hshort rest
    obtain ⟨c, cs, hcs, hspace, hclose⟩ :=
      exists_itemsText_eq_cons (hplain item List.mem_cons_self) items
    rw [hcs, List.cons_append] at hitems ⊢
    have hopen (cs : List Char) : skipSpace ('[' :: cs) = '[' :: cs := rfl
    have hfirst (cs : List Char) : skipSpace (c :: cs) = c :: cs := by simp [skipSpace, hspace]
    simp [readValue, hopen, hfirst, hclose, hitems]

/-- A written object is read back if the values of its members are. -/
lemma readsBack_object {members : List (String × Json)} (h : ∀ m ∈ members, ReadsBack m.2) :
    ReadsBack (.object members) := by
  intro fuel rest hfuel _
  have htext : (Json.object members).write.toList = '\x7b' :: (membersText members ++ ['\x7d']) := by
    simp [write, membersText]
  rw [htext] at hfuel ⊢
  rw [List.length_cons, List.length_append] at hfuel
  obtain ⟨fuel, rfl⟩ := Nat.exists_eq_add_one.2 (Nat.lt_of_lt_of_le (by simp) hfuel)
  cases members with
  | nil => simp [readValue, skipSpace, isSpace, membersText, writeMembers]
  | cons m members =>
    have hshort : (membersText (m :: members)).length < fuel := Nat.lt_of_succ_le (by simpa using hfuel)
    have hmembers := readMembers_membersText h hshort rest
    obtain ⟨cs, hcs⟩ := exists_membersText_eq_cons m members
    rw [hcs, List.cons_append] at hmembers ⊢
    simp [readValue, skipSpace, isSpace, hmembers, ofMembers]

/-- Every value such as the program writes is read back. -/
lemma Plain.readsBack {json : Json} (h : json.Plain) : ReadsBack json := by
  induction h with
  | null =>
    intro fuel rest hfuel _
    obtain ⟨fuel, rfl⟩ := Nat.exists_eq_add_one.2 (Nat.lt_of_lt_of_le (by decide) hfuel)
    rfl
  | bool b =>
    intro fuel rest hfuel _
    cases b <;>
      obtain ⟨fuel, rfl⟩ := Nat.exists_eq_add_one.2 (Nat.lt_of_lt_of_le (by decide) hfuel) <;>
      rfl
  | nat n => exact readsBack_nat n
  | string s => exact readsBack_string s
  | array hplain ih => exact readsBack_array hplain ih
  | object _ ih => exact readsBack_object ih

/-- The compact form of a value is read as the value, if the value is such as the program writes. -/
theorem read?_write {json : Json} (h : json.Plain) : read? json.write = some json := by
  have hfuel : json.write.toList.length ≤ 2 * json.write.length + 2 := by
    rw [String.length_toList]
    omega
  have hread := h.readsBack _ [] hfuel (by simp [EndsNumber])
  rw [List.append_nil] at hread
  simp [read?, hread, skipSpace]

end JavaLint.Json
