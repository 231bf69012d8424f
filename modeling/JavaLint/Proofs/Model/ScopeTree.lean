import JavaLint.Proofs.Lexeme.Spelling
import JavaLint.Proofs.Model.Scopes
import Mathlib.Tactic.Common

/-!
# The scopes of a file

The scopes that the walk finds are nested by construction (`Builder.walk_scopes`).  Here this is read
off for a source text: what the numbers of tokens and lines say about its characters is put together
in `Scope.StandsIn`, and the whole in `scopes_are_nested`.
-/

namespace JavaLint

open Lexeme (chars scan)

/-- The scope stands between two braces of the source text, an opening one and a later closing one.
Its first and its last token are the tokens of these two, and it is on one line if no line ends
between them. -/
structure Scope.StandsIn (s : Scope) (source : String) (table : LineTable) : Prop where
  opening : s.opening = some s.first
  closing : s.closing = some s.last
  first_lt_last : s.first < s.last
  braces : ∃ before opens between closes after,
    scan source = .ok (before ++ opens :: (between ++ closes :: after)) ∧
    opens.text = "\x7b" ∧ closes.text = "\x7d" ∧
    source.toList = chars before ++ '\x7b' :: (chars between ++ '\x7d' :: chars after) ∧
    table.ofLexeme? before.length = some s.first ∧
    table.ofLexeme? (before ++ opens :: between).length = some s.last ∧
    (table.tokens[s.first]?).map Token.text = some "\x7b" ∧
    (table.tokens[s.last]?).map Token.text = some "\x7d" ∧
    (s.oneLine = true ↔ ∀ c ∈ chars between, c ≠ '\n' ∧ c ≠ '\r')

/-- A brace ends no line, so its line and that of a later brace differ by the line breaks between
the two. -/
lemma line_of_brace {before between after : List Lexeme} {opens closes : Lexeme}
    (hplaced : Lexeme.IsPlaced 0 1 (before ++ opens :: (between ++ closes :: after)))
    (hopens : opens.text = "\x7b") :
    opens.line = closes.line ↔ ∀ c ∈ chars between, c ≠ '\n' ∧ c ≠ '\r' := by
  have hfirst := hplaced.place.2.1
  have hreading : before ++ opens :: (between ++ closes :: after) =
      (before ++ opens :: between) ++ closes :: after := by simp
  rw [hreading] at hplaced
  have hlast := hplaced.place.2.1
  have hbrace : Text.breaks ('\x7b' :: chars between) = Text.breaks (chars between) := by
    rw [Text.breaks_cons _ _ (Text.isCleanCut_of_getLast? rfl (by decide) _)]
    simp [Text.isBreak]
  have hchars : chars (before ++ opens :: between) = chars before ++ '\x7b' :: chars between := by
    simp [hopens]
  rw [hchars, Text.breaks_append _ _ (by simp [Text.IsCleanCut]), hbrace] at hlast
  calc opens.line = closes.line ↔ Text.breaks (chars between) = 0 := by omega
    _ ↔ ∀ c ∈ chars between, c ≠ '\n' ∧ c ≠ '\r' := by
      simp [Text.breaks_eq_zero_iff, Text.isBreak]

/-- The scopes of braces stand in the source text as they should. -/
lemma Scope.HasBraces.standsIn {source : String} {ls : List Lexeme} {s : Scope}
    (h : s.HasBraces ls) (hscan : scan source = .ok ls) :
    s.StandsIn source (LineTable.ofLexemes ls) := by
  obtain ⟨before, opens, between, closes, after, rfl, hopens, hcloses, hopening, hclosing, hline⟩ := h
  obtain ⟨hchars, hplaced⟩ := Lexeme.scan_eq_ok hscan
  have hopensText := (Lexeme.text_of_brace hscan (l := opens) (by simp)).1 hopens
  have hclosesText := (Lexeme.text_of_brace hscan (l := closes) (by simp)).2 hcloses
  have hopensToken : opens.hasToken = true := by
    simp [Lexeme.hasToken, Lexeme.channel, hopens, Kind.channel, hopensText]
  have hclosesToken : closes.hasToken = true := by
    simp [Lexeme.hasToken, Lexeme.channel, hcloses, Kind.channel, hclosesText]
  have hreading : before ++ opens :: (between ++ closes :: after) =
      (before ++ opens :: between) ++ closes :: after := by simp
  have hfirst : s.first = before.countP Lexeme.hasToken := by simp [first, hopening]
  have hlast : s.last = (before ++ opens :: between).countP Lexeme.hasToken := by
    simp [last, hclosing]
  obtain ⟨t, ht, -, htext, -⟩ :=
    LineTable.token_ofLexemes before (between ++ closes :: after) hopensToken
  obtain ⟨u, hu, -, hutext, -⟩ :=
    LineTable.token_ofLexemes (before ++ opens :: between) after hclosesToken
  refine ⟨by rw [hfirst, hopening], by rw [hlast, hclosing], ?_, before, opens, between, closes, after,
    hscan, hopensText, hclosesText, ?_, ?_, ?_, ?_, ?_, ?_⟩
  · rw [hfirst, hlast, List.countP_append, List.countP_cons_of_pos hopensToken]
    omega
  · rw [← hchars]
    simp [hopensText, hclosesText]
  · rw [LineTable.ofLexeme?_ofLexemes, hopensToken, if_pos rfl, hfirst]
  · rw [hreading, LineTable.ofLexeme?_ofLexemes, hclosesToken, if_pos rfl, hlast]
  · rw [hfirst, ht, Option.map_some, htext, hopensText]
  · rw [hreading, hlast, hu, Option.map_some, hutext, hclosesText]
  · rw [hline, decide_eq_true_iff]
    exact line_of_brace hplaced hopensText

/-- The scopes of a file are the file itself and, nested under it, what stands between its braces.

They are numbered in their order.  Each one between braces has a parent with a smaller number, which
is the smallest scope around it, or the file if there is none around it; it is one level deeper than
its parent, and at most 256 levels deep.  Of two scopes between braces the later one lies strictly
inside the other or after it.  For every token, of code or not, the innermost scope that holds it is
known, which is the file if there is none between braces. -/
theorem scopes_are_nested {source : String} {file : SourceFile}
    (h : SourceFile.parse source = .ok file) :
    (∀ (i : Nat) (s : Scope), file.model.scopes[i]? = some s → s.id = i) ∧
    ∃ blocks, file.model.scopes.toList = .file :: blocks ∧
      (∀ s ∈ blocks, s.StandsIn source file.table ∧ s.depth ≤ 256 ∧
        ∃ p ∈ file.model.scopes.toList, s.parent = some p.id ∧ p.id < s.id ∧
          s.depth = p.depth + 1 ∧
          (p = .file ∧ (∀ t ∈ blocks, ¬ s.Within t) ∨
            p ∈ blocks ∧ s.Within p ∧ ∀ t ∈ blocks, s.Within t → t = p ∨ p.Within t)) ∧
      blocks.Pairwise (fun s t => t.Within s ∨ s.Before t) ∧
      ∀ token < file.table.count, ∃ s, file.model.scopeOf token = .ok s ∧
        (s = .file ∧ (∀ t ∈ blocks, ¬ t.Holds token) ∨
          s ∈ blocks ∧ s.Holds token ∧ ∀ t ∈ blocks, t.Holds token → t = s ∨ s.Within t) := by
  obtain ⟨ls, trees, b, hscan, hparse, htable, hwalk, hsound, hfinish⟩ := SourceFile.parse_parts h
  obtain ⟨hscopes, htokenScopes, -, -⟩ := Builder.finish_eq_ok hfinish
  obtain ⟨blocks, hblocks, hnested, hbraces⟩ :=
    Builder.walk_scopes hparse (codeHasText_of_scan hscan) hwalk
  rw [← hscopes] at hblocks
  rw [← htokenScopes] at hnested
  have hids : ∀ (i : Nat) (s : Scope), file.model.scopes[i]? = some s → s.id = i := by
    intro i s hs
    rw [← Array.getElem?_toList, hblocks] at hs
    cases i with
    | zero =>
      obtain rfl : Scope.file = s := by simpa using hs
      rfl
    | succ i =>
      rw [hnested.id_eq hs]
      omega
  refine ⟨hids, blocks, hblocks, fun s hs => ⟨?_, (hbraces s hs).2, ?_⟩, hnested.pairwise, ?_⟩
  · rw [htable]
    exact (hbraces s hs).1.standsIn hscan
  · rcases hnested.parent hs with ⟨hparent, hdepth, hnone⟩ |
      ⟨p, ⟨hp, hsp, hsmallest⟩, hparent, hdepth, hlt⟩
    · exact ⟨.file, by simp [hblocks], hparent, hnested.le_id hs, hdepth, .inl ⟨rfl, hnone⟩⟩
    · exact ⟨p, by simp [hblocks, hp], hparent, hlt, hdepth, .inr ⟨hp, hsp, hsmallest⟩⟩
  · intro token htoken
    have hsize : file.model.tokenScopes.size = file.table.count := by
      rw [htokenScopes, hsound.size_tokenScopes, hsound.table, htable]
    obtain ⟨o, ho⟩ : ∃ o, file.model.tokenScopes[token]? = some o :=
      ⟨_, Array.getElem?_eq_getElem (by omega)⟩
    have hscopeOf : file.model.scopeOf token = .ok (file.model.scope o) := by
      simp [Model.scopeOf, ho]
    have howner := hnested.owner (n := token) (by simpa using ho)
    rw [Nat.zero_add] at howner
    rcases howner with ⟨rfl, hnone⟩ | ⟨s, ⟨hs, hholds, hinnermost⟩, rfl⟩
    · refine ⟨.file, ?_, .inl ⟨rfl, hnone⟩⟩
      rw [hscopeOf, Model.scope, Model.scope?, ← Array.getElem?_toList, hblocks]
      rfl
    · refine ⟨s, ?_, .inr ⟨hs, hholds, hinnermost⟩⟩
      obtain ⟨i, hi⟩ := List.mem_iff_getElem?.1 hs
      rw [hscopeOf, Model.scope, Model.scope?, ← Array.getElem?_toList, hblocks, hnested.id_eq hi,
        Nat.add_comm, List.getElem?_cons_succ, hi, Option.getD_some]

/-- The scopes of a constant with a body, in which a method has braces on two lines and a field has
a pair of braces on one line. -/
theorem scopes_of_constant_body :
    ∃ file blocks,
      SourceFile.parse "enum E\x7bA\x7bvoid f()\x7b\n\x7dint[] a=\x7b\x7d;\x7d\x7d" = .ok file ∧
      file.model.scopes.toList = .file :: blocks ∧
      blocks.map (fun s => (s.id, s.parent, s.first, s.last, s.oneLine)) =
        [(1, some 0, 3, 23, false), (2, some 1, 5, 22, false), (3, some 2, 11, 12, false),
          (4, some 2, 19, 20, true)] ∧
      blocks.Pairwise (fun s t => t.Within s ∨ s.Before t) := by
  have hscopes :
      (SourceFile.parse
        "enum E\x7bA\x7bvoid f()\x7b\n\x7dint[] a=\x7b\x7d;\x7d\x7d").toOption.map
        (fun file => file.model.scopes.toList.map fun s =>
          (s.id, s.parent, s.first, s.last, s.oneLine)) =
      some [(0, none, 0, 0, false), (1, some 0, 3, 23, false), (2, some 1, 5, 22, false),
        (3, some 2, 11, 12, false), (4, some 2, 19, 20, true)] := by
    decide +kernel
  cases hfile : SourceFile.parse
      "enum E\x7bA\x7bvoid f()\x7b\n\x7dint[] a=\x7b\x7d;\x7d\x7d" with
  | error e => simp [hfile, Except.toOption] at hscopes
  | ok file =>
    obtain ⟨-, blocks, hblocks, -, hpairwise, -⟩ := scopes_are_nested hfile
    refine ⟨file, blocks, rfl, hblocks, ?_, hpairwise⟩
    rw [hfile, Except.toOption, Option.map_some, hblocks, List.map_cons] at hscopes
    exact (List.cons.inj (Option.some.inj hscopes)).2

end JavaLint
