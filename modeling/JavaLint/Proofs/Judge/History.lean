import JavaLint.Proofs.Verdict.Safety
import Mathlib.Tactic.Common

/-!
# The history of a session

A session may be asked for tokens and lines in any order, also several times for the same one and for
ones that do not exist.  What it remembers of its history is which items were asked for: `Remembers`
says so, and `Remembers.judge` that one more request keeps it so.

An item is marked before it is judged.  For a file that was read this does no harm, because judging an
item that exists never fails: a request that is refused leaves the session as it was
(`Remembers.judge_of_error`), and the answer to a request is known from the requests before it
(`getElem?_judgeAll`).
-/

namespace JavaLint

/-! ## Requests -/

/-- The outcome for a token or a line. -/
inductive ItemOutcome where
  | token (outcome : TokenOutcome)
  | line (outcome : LineOutcome)
deriving DecidableEq, Repr

namespace SourceFile

/-- The file has such a token or line. -/
def hasItem (file : SourceFile) : Item → Bool
  | .token number => number < file.table.count
  | .line number => 1 ≤ number && number ≤ file.table.lines.length

/-- Why an item that the file does not have is not judged. -/
def refusal (file : SourceFile) : Item → Error
  | .token number => .outOfRange number file.table.count
  | .line number => .invariant (.noLine number)

/-- Judges an item by itself. -/
def judgeItem (file : SourceFile) (settings : Settings) : Item → Except Error ItemOutcome
  | .token number => (file.judgeToken settings number).map .token
  | .line number => .ok (.line (file.judgeLine settings number))

/-- The answer to a request for an item, if these items were asked for before. -/
def answerAfter (file : SourceFile) (settings : Settings) (asked : List Item) (item : Item) :
    Except Error ItemOutcome :=
  if file.hasItem item then
    if item ∈ asked then .error (.alreadyJudged item) else file.judgeItem settings item
  else .error (file.refusal item)

/-- Every item of a file that was read can be judged. -/
lemma judgeItem_succeeds {file : SourceFile} (h : file.Covers) (settings : Settings) {item : Item}
    (hitem : file.hasItem item = true) : ∃ outcome, file.judgeItem settings item = .ok outcome := by
  cases item with
  | token number =>
    have hlt : number < file.table.count := by simpa [hasItem] using hitem
    obtain ⟨outcome, houtcome⟩ := judgeToken_succeeds h settings hlt
    exact ⟨.token outcome, by rw [judgeItem, houtcome]; rfl⟩
  | line number => exact ⟨_, rfl⟩

/-- The answer is an outcome if and only if the item exists and was not asked for before; it is then
the outcome for the item by itself. -/
lemma answerAfter_eq_ok_iff {file : SourceFile} (h : file.Covers) {settings : Settings}
    {asked : List Item} {item : Item} :
    (∃ outcome, file.answerAfter settings asked item = .ok outcome) ↔
      file.hasItem item = true ∧ item ∉ asked := by
  unfold answerAfter
  split
  · rename_i hitem
    split
    · simp_all
    · simp_all [judgeItem_succeeds h settings hitem]
  · simp_all

/-- A request is refused because the item was asked for before or does not exist. -/
lemma eq_of_answerAfter_eq_error {file : SourceFile} (h : file.Covers) {settings : Settings}
    {asked : List Item} {item : Item} {e : Error}
    (he : file.answerAfter settings asked item = .error e) :
    e = if file.hasItem item then .alreadyJudged item else file.refusal item := by
  unfold answerAfter at he
  split at he
  · rename_i hitem
    rw [if_pos hitem]
    split at he
    · exact (Except.error.inj he).symm
    · obtain ⟨outcome, houtcome⟩ := judgeItem_succeeds h settings hitem
      rw [houtcome] at he
      cases he
  · rename_i hitem
    rw [if_neg hitem]
    exact (Except.error.inj he).symm

end SourceFile

namespace Session

variable {file : SourceFile} {settings : Settings} {asked : List Item} {s : Session}

/-- Judges a token or a line. -/
def judge (s : Session) : Item → Except Error ItemOutcome × Session
  | .token number => ((s.judgeToken number).1.map .token, (s.judgeToken number).2)
  | .line number => ((s.judgeLine number).1.map .line, (s.judgeLine number).2)

/-- The answers to requests, one after the other. -/
def judgeAll (s : Session) : List Item → List (Except Error ItemOutcome)
  | [] => []
  | item :: items => (s.judge item).1 :: (s.judge item).2.judgeAll items

/-- The session after requests, one after the other. -/
def after (s : Session) (items : List Item) : Session :=
  items.foldl (fun s item => (s.judge item).2) s

/-- There are as many answers as requests. -/
@[simp] lemma length_judgeAll (s : Session) (items : List Item) :
    (s.judgeAll items).length = items.length := by
  induction items generalizing s with
  | nil => rfl
  | cons item items ih => rw [judgeAll, List.length_cons, ih, List.length_cons]

/-- Later requests are answered by the session that the earlier ones leave. -/
lemma judgeAll_append (s : Session) (items later : List Item) :
    s.judgeAll (items ++ later) = s.judgeAll items ++ (s.after items).judgeAll later := by
  induction items generalizing s with
  | nil => rfl
  | cons item items ih =>
    rw [List.cons_append, judgeAll, ih, judgeAll, List.cons_append]
    rfl

/-! ## What a session remembers -/

/-- Whether an item has been judged; nothing is known of an item that does not exist. -/
def done? (s : Session) : Item → Option Bool
  | .token number => s.tokensDone[number]?
  | .line number => s.lineDone? number

/-- The session with an item marked as judged. -/
def mark (s : Session) : Item → Session
  | .token number => { s with tokensDone := s.tokensDone.setIfInBounds number true }
  | .line number => { s with linesDone := s.linesDone.setIfInBounds (number - 1) true }

/-- Marking an item changes what is known of this item only. -/
lemma done?_mark {item : Item} (h : s.done? item = some false) (other : Item) :
    (s.mark item).done? other = if other = item then some true else s.done? other := by
  cases item with
  | token number =>
    cases other with
    | line _ => rfl
    | token other =>
      obtain ⟨hlt, -⟩ := Array.getElem?_eq_some_iff.1 h
      simp only [mark, done?, Array.getElem?_setIfInBounds, Item.token.injEq, eq_comm (a := other)]
      rw [if_pos hlt]
  | line number =>
    cases other with
    | token _ => rfl
    | line other =>
      match number, other, h with
      | n + 1, 0, _ => rfl
      | n + 1, m + 1, h =>
        obtain ⟨hlt, -⟩ := Array.getElem?_eq_some_iff.1 h
        simp only [mark, done?, lineDone?, Nat.add_sub_cancel, Array.getElem?_setIfInBounds,
          Item.line.injEq, Nat.add_right_cancel_iff, eq_comm (a := m)]
        rw [if_pos hlt]

/-- The session judges this file by these settings, and of the items of the file it remembers
whether they were asked for. -/
structure Remembers (file : SourceFile) (settings : Settings) (asked : List Item) (s : Session) :
    Prop where
  file_eq : s.file = file
  settings_eq : s.settings = settings
  done?_eq : ∀ item, s.done? item = if file.hasItem item then some (decide (item ∈ asked)) else none

/-- A new session was asked for nothing. -/
lemma remembers_start (file : SourceFile) (settings : Settings) :
    Remembers file settings [] (start file settings) where
  file_eq := rfl
  settings_eq := rfl
  done?_eq := by
    have hlength : file.table.lines.length = file.table.rows.size := by
      simpa using congrArg List.length file.table.map_number_lines
    intro item
    cases item with
    | token number => simp [Session.done?, start, SourceFile.hasItem, Array.getElem?_replicate]
    | line number =>
      cases number with
      | zero => rfl
      | succ n =>
        simp only [Session.done?, lineDone?, start, SourceFile.hasItem, hlength,
          Array.getElem?_replicate, Bool.and_eq_true, decide_eq_true_eq, List.not_mem_nil, decide_false]
        refine if_congr ?_ rfl rfl
        omega

/-- One request: how it is answered, and which session it leaves. -/
lemma Remembers.judge_eq (h : Remembers file settings asked s) (item : Item) :
    s.judge item = (file.answerAfter settings asked item,
      if file.hasItem item = true ∧ item ∉ asked then s.mark item else s) := by
  have hdone := h.done?_eq item
  cases item with
  | token number =>
    change s.tokensDone[number]? = _ at hdone
    simp only [judge, judgeToken, hdone, SourceFile.answerAfter, h.file_eq, h.settings_eq]
    by_cases hitem : file.hasItem (.token number) = true
    · by_cases hasked : .token number ∈ asked
      · simp [hitem, hasked, Except.map]
      · simp [hitem, hasked, SourceFile.judgeItem, mark, h.file_eq, h.settings_eq]
    · simp [hitem, Except.map, SourceFile.refusal]
  | line number =>
    change s.lineDone? number = _ at hdone
    simp only [judge, judgeLine, hdone, SourceFile.answerAfter, h.file_eq, h.settings_eq]
    by_cases hitem : file.hasItem (.line number) = true
    · by_cases hasked : .line number ∈ asked
      · simp [hitem, hasked, Except.map]
      · simp [hitem, hasked, Except.map, SourceFile.judgeItem, mark, h.file_eq, h.settings_eq]
    · simp [hitem, Except.map, SourceFile.refusal]

/-- One more request is remembered too. -/
lemma Remembers.judge (h : Remembers file settings asked s) (item : Item) :
    Remembers file settings (asked ++ [item]) (s.judge item).2 := by
  rw [h.judge_eq item]
  dsimp only
  split
  · rename_i hnew
    have hfalse : s.done? item = some false := by simp [h.done?_eq item, hnew]
    refine ⟨?_, ?_, fun other => ?_⟩
    · cases item <;> exact h.file_eq
    · cases item <;> exact h.settings_eq
    · rw [done?_mark hfalse, h.done?_eq other]
      by_cases heq : other = item
      · simp [heq, hnew.1]
      · simp [heq]
  · rename_i hold
    refine ⟨h.file_eq, h.settings_eq, fun other => ?_⟩
    rw [h.done?_eq other]
    by_cases heq : other = item
    · subst heq
      by_cases hitem : file.hasItem other = true
      · have hasked : other ∈ asked := by
          by_contra hnew
          exact hold ⟨hitem, hnew⟩
        simp [hasked]
      · simp [hitem]
    · simp [heq]

/-- All requests are remembered. -/
lemma Remembers.after (h : Remembers file settings asked s) (items : List Item) :
    Remembers file settings (asked ++ items) (s.after items) := by
  induction items generalizing asked s with
  | nil => rwa [List.append_nil]
  | cons item items ih =>
    have hrest := ih (h.judge item)
    rwa [List.append_assoc, List.singleton_append] at hrest

/-- A request that is refused changes nothing. -/
lemma Remembers.judge_of_error (h : Remembers file settings asked s) (hcovers : file.Covers)
    {item : Item} {e : Error} (he : (s.judge item).1 = .error e) : (s.judge item).2 = s := by
  rw [h.judge_eq item] at he ⊢
  refine if_neg fun hnew => ?_
  obtain ⟨outcome, houtcome⟩ : ∃ outcome, file.answerAfter settings asked item = .ok outcome :=
    (SourceFile.answerAfter_eq_ok_iff hcovers).2 hnew
  have hanswer : file.answerAfter settings asked item = .error e := he
  rw [houtcome] at hanswer
  cases hanswer

/-! ## All requests -/

/-- The answer to each request is known from the requests before it. -/
lemma getElem?_judgeAll (file : SourceFile) (settings : Settings) (before later : List Item)
    (item : Item) :
    ((start file settings).judgeAll (before ++ item :: later))[before.length]? =
      some (file.answerAfter settings before item) := by
  have hbefore := (remembers_start file settings).after before
  rw [judgeAll_append, List.getElem?_append_right (by simp), length_judgeAll, Nat.sub_self, judgeAll,
    List.getElem?_cons_zero, hbefore.judge_eq item]
  rfl

/-- A request that is refused can be left out, and all other answers stay the same. -/
lemma judgeAll_without {file : SourceFile} (hcovers : file.Covers) (settings : Settings)
    (before later : List Item) {item : Item} {e : Error}
    (he : file.answerAfter settings before item = .error e) :
    (start file settings).judgeAll (before ++ later) =
      ((start file settings).judgeAll (before ++ item :: later)).eraseIdx before.length := by
  have hbefore := (remembers_start file settings).after before
  have hrefused : (((start file settings).after before).judge item).1 = .error e := by
    rw [hbefore.judge_eq item]
    exact he
  have hsame := hbefore.judge_of_error hcovers hrefused
  rw [judgeAll_append, judgeAll_append, judgeAll, hsame,
    List.eraseIdx_append_of_length_le (by simp), length_judgeAll, Nat.sub_self, List.eraseIdx_cons_zero]

/-- Of the requests to a session of a file that was read, exactly those are answered by an outcome that
name a token or a line of the file and come first among the requests for it.  The outcome is the one
that a new session gives.  Any other request is refused, with the reason, and without it all other
requests would be answered as they are. -/
theorem items_are_judged_once {source : String} {file : SourceFile}
    (h : SourceFile.parse source = .ok file) (settings : Settings) {items : List Item} {k : Nat}
    {item : Item} (hitem : items[k]? = some item) :
    ∃ answer, ((start file settings).judgeAll items)[k]? = some answer ∧
      ((∃ outcome, answer = .ok outcome) ↔ file.hasItem item = true ∧ item ∉ items.take k) ∧
      (∀ outcome, answer = .ok outcome → ((start file settings).judge item).1 = .ok outcome) ∧
      ∀ e, answer = .error e →
        e = (if file.hasItem item then .alreadyJudged item else file.refusal item) ∧
        (start file settings).judgeAll (items.eraseIdx k) =
          ((start file settings).judgeAll items).eraseIdx k := by
  have hcovers := SourceFile.covers_of_parse h
  obtain ⟨hlt, hget⟩ := List.getElem?_eq_some_iff.1 hitem
  have hsplit : items = items.take k ++ item :: items.drop (k + 1) := by
    rw [← hget, ← List.drop_eq_getElem_cons hlt, List.take_append_drop]
  have hlength : (items.take k).length = k := by simp [Nat.le_of_lt hlt]
  have hanswer := getElem?_judgeAll file settings (items.take k) (items.drop (k + 1)) item
  rw [← hsplit, hlength] at hanswer
  refine ⟨_, hanswer, SourceFile.answerAfter_eq_ok_iff hcovers, ?_, ?_⟩
  · intro outcome houtcome
    obtain ⟨hin, hnew⟩ := (SourceFile.answerAfter_eq_ok_iff hcovers).1 ⟨outcome, houtcome⟩
    rw [(remembers_start file settings).judge_eq item]
    simpa [SourceFile.answerAfter, hin, hnew] using houtcome
  · intro e he
    refine ⟨SourceFile.eq_of_answerAfter_eq_error hcovers he, ?_⟩
    have hwithout := judgeAll_without hcovers settings (items.take k) (items.drop (k + 1)) he
    rwa [← hsplit, hlength, ← List.eraseIdx_eq_take_drop_succ] at hwithout

/-- Requests for a class of seven tokens on one line: a token that there is not, a token twice with
others between, and the line before the first one.  The two that are refused change nothing for the last
request. -/
theorem requests_for_small_class :
    ∃ file, SourceFile.parse "class Abcd \x7b \x7d" = .ok file ∧
      ((start file {}).judgeAll [.token 4, .token 7, .line 1, .token 4, .line 0, .token 6]).map
          (fun answer => answer.map fun _ => ()) =
        [.ok (), .error (.outOfRange 7 7), .ok (), .error (.alreadyJudged (.token 4)),
          .error (.invariant (.noLine 0)), .ok ()] ∧
      (start file {}).judgeAll [.token 4, .token 7, .line 1, .line 0, .token 6] =
        ((start file {}).judgeAll [.token 4, .token 7, .line 1, .token 4, .line 0, .token 6]).eraseIdx
          3 := by
  have hanswers : (SourceFile.parse "class Abcd \x7b \x7d").toOption.map (fun file =>
      ((start file {}).judgeAll [.token 4, .token 7, .line 1, .token 4, .line 0, .token 6]).map
        (fun answer => answer.map fun _ => ())) =
      some [.ok (), .error (.outOfRange 7 7), .ok (), .error (.alreadyJudged (.token 4)),
        .error (.invariant (.noLine 0)), .ok ()] := by
    decide +kernel
  cases hfile : SourceFile.parse "class Abcd \x7b \x7d" with
  | error e => simp [hfile, Except.toOption] at hanswers
  | ok file =>
    simp only [hfile, Except.toOption, Option.map_some, Option.some.injEq] at hanswers
    have hitem : [Item.token 4, .token 7, .line 1, .token 4, .line 0, .token 6][3]? =
        some (.token 4) := rfl
    obtain ⟨answer, hanswer, -, -, hrefused⟩ := items_are_judged_once hfile {} hitem
    have hfourth := congrArg (·[3]?) hanswers
    simp only [List.getElem?_map, hanswer] at hfourth
    cases answer with
    | ok outcome => simp [Except.map] at hfourth
    | error e => exact ⟨file, rfl, hanswers, (hrefused e rfl).2⟩

end Session

end JavaLint
