import JavaLint.Proofs.Token.LineTable
import JavaLint.Verdict.Basic
import Mathlib.Tactic.Common

/-!
# Judging a token never fails

A file can be judged if its model has an entry for each token of its table; `Covers` says so.  One
token is then judged without an error (`judgeToken_succeeds`), since every role of a declared name
has a naming rule.
-/

namespace JavaLint

/-- There is a naming rule for every declared name. -/
lemma Settings.expectedStyle?_isSome (settings : Settings) {c : Classification}
    (hc : c.role.isDeclaredName = true) : (settings.expectedStyle? c).isSome := by
  unfold expectedStyle?
  cases hrole : c.role <;> simp_all [Role.isDeclaredName, Role.isTypeName]

namespace SourceFile

/-- The model of the file has an entry for each token of its table, and the scopes of the tokens
exist. -/
structure Covers (file : SourceFile) : Prop where
  tokenScopes : file.model.tokenScopes.size = file.table.count
  classes : file.model.classes.size = file.table.count
  scopes_lt : ∀ n id : Nat, file.model.tokenScopes[n]? = some id → id < file.model.scopes.size
  numbers : ∀ (n : Nat) (t : Token), file.table.tokens[n]? = some t → t.number = n

variable {file : SourceFile}

/-- A token that exists has a classification. -/
lemma Covers.classification (h : file.Covers) {n : Nat} (hn : n < file.table.count) :
    ∃ c, file.model.classification n = .ok c := by
  obtain ⟨c, hc⟩ : ∃ c, file.model.classes[n]? = some c :=
    ⟨_, Array.getElem?_eq_getElem (by rwa [h.classes])⟩
  exact ⟨c, by simp [Model.classification, hc]⟩

/-- A token that exists has a scope, which exists too. -/
lemma Covers.scopeOf (h : file.Covers) {n : Nat} (hn : n < file.table.count) :
    ∃ scope, file.model.scopeOf n = .ok scope ∧ scope ∈ file.model.scopes := by
  obtain ⟨id, hid⟩ : ∃ id, file.model.tokenScopes[n]? = some id :=
    ⟨_, Array.getElem?_eq_getElem (by rwa [h.tokenScopes])⟩
  have hlt := h.scopes_lt n id hid
  refine ⟨file.model.scopes[id], ?_, Array.getElem_mem hlt⟩
  simp [Model.scopeOf, hid, Model.scope, Model.scope?, hlt]

/-- Every code token can be judged. -/
lemma judgeCode_succeeds (h : file.Covers) (settings : Settings) (token : Token)
    (hnumber : token.number < file.table.count) :
    ∃ outcome, file.judgeCode settings token = .ok outcome := by
  obtain ⟨c, hc⟩ := h.classification hnumber
  obtain ⟨scope, hscope, -⟩ := h.scopeOf hnumber
  simp only [judgeCode, hc, bind, Except.bind]
  split
  · rename_i hname
    obtain ⟨style, hstyle⟩ := Option.isSome_iff_exists.1 (settings.expectedStyle?_isSome hname)
    simp [judgeName, hstyle]
  · split <;> simp [hscope, pure, Except.pure]

/-- Every token can be judged. -/
lemma judgeToken_succeeds (h : file.Covers) (settings : Settings) {n : Nat}
    (hn : n < file.table.count) : ∃ outcome, file.judgeToken settings n = .ok outcome := by
  obtain ⟨token, htoken⟩ : ∃ token, file.table.tokens[n]? = some token :=
    ⟨_, Array.getElem?_eq_getElem hn⟩
  obtain ⟨ruling, hruling⟩ : ∃ ruling, file.ruling settings token = .ok ruling := by
    obtain ⟨outcome, houtcome⟩ :=
      judgeCode_succeeds h settings token (by rwa [h.numbers n token htoken])
    unfold ruling
    split <;> simp [houtcome, Except.map]
  simp [judgeToken, LineTable.token, htoken, hruling, bind, Except.bind, pure, Except.pure]

end SourceFile

end JavaLint
