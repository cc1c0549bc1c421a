/-
  TrinoGateway.Probes — the queries `intercept_server_functions` answers.

  A probe is a `SELECT` of one of the calls or the keyword the gateway knows, aliased or not,
  and nothing else. The gateway looks for the calls in the whole tree of a query, and
  `bare_select` does not look for DISTINCT, INTO, WINDOW, FOR UPDATE and the like.

  Proved:
  - `probe_answered`: every probe is answered.
  - `answered_only_probes_iff`: nothing else is, exactly if whatever is looked for stands on
    top of the tree and alone (`OnTop`). `nested_calls_answered`: the length of the version
    and a column of a subquery are answered with the version and the schema.
-/

import TrinoGateway.Intercept
import TrinoGateway.Sql.LetterCase

namespace TrinoGateway.Sql

open TrinoGateway.Lib

def SelectItem.expr? : SelectItem → Option Expr
  | .unnamedExpr expr => some expr
  | .exprWithAlias expr _ => some expr
  | .qualifiedWildcard _ => none
  | .wildcard => none

def Expr.calls (name : Text) : Expr → Bool
  | .function parts _ _ => lastIdentEq parts name
  | _ => false

def Expr.isKeyword (name : Text) : Expr → Bool
  | .identifier id => decide (CaseVariant id.value name)
  | _ => false

/-- No arguments, and no filter or window. -/
def Expr.isNiladic : Expr → Bool
  | .identifier _ => true
  | .function _ .none [] => true
  | .function _ (.list []) [] => true
  | _ => false

def FunctionArg.isLiteral : FunctionArg → Bool
  | .unnamed (.value _) => true
  | .named _ (.value _) => true
  | _ => false

/-- All arguments are literals, and there is no filter or window. -/
def Expr.isFlat : Expr → Bool
  | .function _ (.list args) [] => args.all FunctionArg.isLiteral
  | _ => false

/-- The expressions in an expression, itself first. -/
def Expr.nodes (e : Expr) : List Expr := e.visit.filterMap Visited.expression?

theorem Expr.nodes_of_isNiladic {e : Expr} (h : e.isNiladic = true) : e.nodes = [e] := by
  unfold Expr.isNiladic at h
  split at h
  · rfl
  · rfl
  · rfl
  · cases h

theorem visitArgs_literal : ∀ {args : List FunctionArg}, args.all FunctionArg.isLiteral = true →
    ∀ x ∈ (visitArgs args).filterMap Visited.expression?, ∃ l, x = .value l
  | [], _, x, hx => by cases hx
  | a :: args, h, x, hx => by
    obtain ⟨ha, hargs⟩ := Bool.and_eq_true_iff.mp h
    rw [visitArgs, List.filterMap_append, List.mem_append] at hx
    rcases hx with hx | hx
    · unfold FunctionArg.isLiteral at ha
      split at ha
      · exact ⟨_, List.mem_singleton.mp hx⟩
      · exact ⟨_, List.mem_singleton.mp hx⟩
      · cases ha
    · exact visitArgs_literal hargs x hx

theorem Expr.nodes_of_isFlat {e : Expr} (h : e.isFlat = true) :
    ∃ values, e.nodes = e :: values ∧ ∀ x ∈ values, ∃ l, x = .value l := by
  unfold Expr.isFlat at h
  split at h
  · next parts args =>
    refine ⟨(visitArgs args).filterMap Visited.expression?, ?_, visitArgs_literal h⟩
    show (Visited.expression _ :: (visitArgs args ++ [])).filterMap Visited.expression? = _
    rw [List.append_nil]
    rfl
  · cases h

end TrinoGateway.Sql

namespace TrinoGateway.Probes

open TrinoGateway.Lib
open TrinoGateway.Sql
open TrinoGateway.Sql.ParsedQuery
open TrinoGateway.Intercept

/-! ## What is looked for -/

def answeredCalls : List Text := ["version", "current_database", "current_schema", "pg_is_in_recovery"].map String.toList

/-- A call the gateway answers, with whatever arguments, or the keyword. -/
def isAsked (e : Expr) : Bool := answeredCalls.any e.calls || e.isKeyword "current_schema".toList

/-- The setting a node asks for. -/
def settingName : Expr → Option Text
  | .function parts args _ => if lastIdentEq parts "current_setting".toList then firstStringLiteralArg args else none
  | _ => none

def isRecognised (setting : Text) : Bool := (currentSetting setting).isSome

/-- `version()`, `current_database()`, `current_schema`, `current_schema()`, `pg_is_in_recovery()`, or
    `current_setting` of one of the two names. -/
def isProbe (e : Expr) : Bool := isAsked e && e.isNiladic || e.isFlat && (settingName e).any isRecognised

variable (q : ParsedQuery)

/-- `SELECT e`, aliased or not, and no other clause. -/
def Selects (e : Expr) : Prop := ∃ item, q.parsed = some [bare [] item [] []] ∧ item.expr? = some e

def IsProbe : Prop := ∃ e, Selects q e ∧ isProbe e = true

/-- Whatever the gateway looks for, at any depth, is what the query selects, and nothing stands inside. -/
structure OnTop : Prop where
  asked : ∀ e ∈ q.expressions, isAsked e = true → Selects q e ∧ e.isNiladic = true
  setting : ∀ s, q.functionStringArg "current_setting".toList = some s → isRecognised s = true →
    ∃ e, Selects q e ∧ e.isFlat = true

/-! ## What is answered -/

variable {q}

theorem callsFunction_eq (name : Text) : q.callsFunction name = q.expressions.any (Expr.calls name) := rfl

theorem callsFunctionOrKeyword_eq (name : Text) :
    q.callsFunctionOrKeyword name = (q.expressions.any (Expr.calls name) || q.expressions.any (Expr.isKeyword name)) := rfl

theorem functionStringArg_eq : q.functionStringArg "current_setting".toList = q.expressions.findSome? settingName := rfl

theorem any_isAsked :
    q.expressions.any isAsked =
      (q.callsFunction "version".toList || q.callsFunction "current_database".toList ||
        q.callsFunctionOrKeyword "current_schema".toList || q.callsFunction "pg_is_in_recovery".toList) := by
  rw [callsFunction_eq, callsFunction_eq, callsFunction_eq, callsFunctionOrKeyword_eq, Bool.eq_iff_iff]
  simp only [List.any_eq_true, Bool.or_eq_true, isAsked, answeredCalls, List.map_cons, List.map_nil, List.any_cons,
    List.any_nil, Bool.or_false]
  grind

/-- A bare select is answered exactly if something the gateway looks for stands somewhere in it. -/
theorem answered_iff (config : Config) :
    (interceptServerFunctions q config).isSome = true ↔ q.isBareScalarSelect = true ∧
      (q.expressions.any isAsked = true ∨ (q.functionStringArg "current_setting".toList).any isRecognised = true) := by
  rw [any_isAsked]
  unfold interceptServerFunctions
  cases q.isBareScalarSelect with
  | false => simp
  | true =>
    cases q.callsFunction "version".toList <;> cases q.callsFunction "current_database".toList <;>
      cases q.callsFunctionOrKeyword "current_schema".toList <;> cases q.callsFunction "pg_is_in_recovery".toList <;>
      cases q.functionStringArg "current_setting".toList <;> simp [isRecognised]

/-! ## The tree of a probe -/

theorem Selects.bare {e : Expr} (h : Selects q e) : q.isBareScalarSelect = true := by
  obtain ⟨item, hparsed, -⟩ := h
  exact q.isBareScalarSelect_iff.mpr ⟨[], item, [], [], hparsed⟩

theorem Selects.expressions_eq {e : Expr} (h : Selects q e) : q.expressions = e.nodes := by
  obtain ⟨item, hparsed, hitem⟩ := h
  have hvisit : item.visit = e.visit := by
    cases item with
    | unnamedExpr expr => rw [SelectItem.visit, Option.some.inj hitem]
    | exprWithAlias expr name => rw [SelectItem.visit, Option.some.inj hitem]
    | qualifiedWildcard qualifier => cases hitem
    | wildcard => cases hitem
  unfold ParsedQuery.expressions
  rw [hparsed, Option.getD_some, List.flatMap_singleton]
  simp [Statement.expressions, ParsedQuery.bare, Statement.visit, Query.visit, SetExpr.visit, Select.visit, visitClauses,
    visitQueries, visitItems, visitTables, visitOption, visitExprs, LimitClause.visit, Fetch.visit, hvisit, Expr.nodes]

/-- In the tree of a probe there are literals besides. -/
theorem nodes_of_isProbe {e : Expr} (h : isProbe e = true) :
    ∃ values, e.nodes = e :: values ∧ ∀ x ∈ values, ∃ l, x = .value l := by
  rcases Bool.or_eq_true_iff.mp h with h | h
  · have hniladic := (Bool.and_eq_true_iff.mp h).2
    exact ⟨[], e.nodes_of_isNiladic hniladic, fun x hx => by cases hx⟩
  · exact e.nodes_of_isFlat (Bool.and_eq_true_iff.mp h).1

theorem findSome?_values {values : List Expr} (h : ∀ x ∈ values, ∃ l, x = .value l) :
    values.findSome? settingName = none := by
  rw [List.findSome?_eq_none_iff]
  intro x hx
  obtain ⟨l, rfl⟩ := h x hx
  rfl

/-- The setting a probe asks for is that of the selected call. -/
theorem functionStringArg_of_flat {e : Expr} {values : List Expr} (h : Selects q e) (hnodes : e.nodes = e :: values)
    (hvalues : ∀ x ∈ values, ∃ l, x = .value l) :
    q.functionStringArg "current_setting".toList = settingName e := by
  rw [functionStringArg_eq, h.expressions_eq, hnodes, List.findSome?_cons, findSome?_values hvalues]
  cases settingName e <;> rfl

theorem settingName_of_isNiladic {e : Expr} (h : e.isNiladic = true) : settingName e = none := by
  unfold Expr.isNiladic at h
  split at h
  · rfl
  · exact ite_self none
  · exact ite_self none
  · cases h

theorem lastIdentEq_caseVariant {parts : ObjectName} {a b : Text} (ha : lastIdentEq parts a = true)
    (hb : lastIdentEq parts b = true) : CaseVariant a b := by
  unfold lastIdentEq at ha hb
  cases h : parts.getLast?.bind ObjectNamePart.asIdent with
  | none =>
    rw [h] at ha
    cases ha
  | some id =>
    rw [h] at ha hb
    exact (of_decide_eq_true ha).symm.trans (of_decide_eq_true hb)

/-- `current_setting` is none of the four names. -/
theorem settingName_of_asked {e : Expr} (h : isAsked e = true) : settingName e = none := by
  cases e with
  | function parts args rest =>
    by_cases hsetting : lastIdentEq parts "current_setting".toList = true
    · have hcall : answeredCalls.any (lastIdentEq parts) = true := by
        rcases Bool.or_eq_true_iff.mp h with h | h
        · exact h
        · cases h
      obtain ⟨name, hname, hparts⟩ := List.any_eq_true.mp hcall
      have hsame := lastIdentEq_caseVariant hparts hsetting
      have hnone : ∀ name ∈ answeredCalls, ¬ CaseVariant name "current_setting".toList := by decide
      exact absurd hsame (hnone name hname)
    · exact if_neg hsetting
  | _ => rfl

theorem probe_answered (config : Config) (h : IsProbe q) : (interceptServerFunctions q config).isSome = true := by
  obtain ⟨e, hselects, hprobe⟩ := h
  obtain ⟨values, hnodes, hvalues⟩ := nodes_of_isProbe hprobe
  refine (answered_iff config).mpr ⟨hselects.bare, ?_⟩
  rcases Bool.or_eq_true_iff.mp hprobe with h | h
  · left
    rw [hselects.expressions_eq, hnodes, List.any_cons, (Bool.and_eq_true_iff.mp h).1, Bool.true_or]
  · right
    rw [functionStringArg_of_flat hselects hnodes hvalues]
    exact (Bool.and_eq_true_iff.mp h).2

/-! ## Nothing else -/

theorem IsProbe.onTop (h : IsProbe q) : OnTop q := by
  obtain ⟨e, hselects, hprobe⟩ := h
  obtain ⟨values, hnodes, hvalues⟩ := nodes_of_isProbe hprobe
  constructor
  · intro x hx hasked
    rw [hselects.expressions_eq, hnodes, List.mem_cons] at hx
    rcases hx with rfl | hx
    · refine ⟨hselects, ?_⟩
      rcases Bool.or_eq_true_iff.mp hprobe with h | h
      · exact (Bool.and_eq_true_iff.mp h).2
      · rw [settingName_of_asked hasked, Option.any_none, Bool.and_false] at h
        cases h
    · obtain ⟨l, rfl⟩ := hvalues x hx
      cases hasked
  · intro s hs hrecognised
    rw [functionStringArg_of_flat hselects hnodes hvalues] at hs
    refine ⟨e, hselects, ?_⟩
    rcases Bool.or_eq_true_iff.mp hprobe with h | h
    · rw [settingName_of_isNiladic (Bool.and_eq_true_iff.mp h).2] at hs
      cases hs
    · exact (Bool.and_eq_true_iff.mp h).1

theorem OnTop.isProbe {config : Config} (h : OnTop q) (hanswered : (interceptServerFunctions q config).isSome = true) :
    IsProbe q := by
  obtain ⟨-, hasked | hsetting⟩ := (answered_iff config).mp hanswered
  · obtain ⟨e, he, hasked⟩ := List.any_eq_true.mp hasked
    obtain ⟨hselects, hniladic⟩ := h.asked e he hasked
    refine ⟨e, hselects, ?_⟩
    rw [Probes.isProbe, hasked, hniladic]
    rfl
  · obtain ⟨s, hs, hrecognised⟩ := (Option.any_eq_true _ _).mp hsetting
    obtain ⟨e, hselects, hflat⟩ := h.setting s hs hrecognised
    obtain ⟨values, hnodes, hvalues⟩ := e.nodes_of_isFlat hflat
    rw [functionStringArg_of_flat hselects hnodes hvalues] at hsetting
    refine ⟨e, hselects, ?_⟩
    rw [Probes.isProbe, hflat, hsetting]
    exact Bool.or_true _

theorem answered_only_probes_iff (q : ParsedQuery) (config : Config) :
    ((interceptServerFunctions q config).isSome = true → IsProbe q) ↔ (q.isBareScalarSelect = true → OnTop q) := by
  constructor
  · intro h hbare
    by_cases hanswered : (interceptServerFunctions q config).isSome = true
    · exact (h hanswered).onTop
    · -- A bare select that is not answered has nothing to look for.
      have hnothing := fun hfound => hanswered ((answered_iff config).mpr ⟨hbare, hfound⟩)
      constructor
      · intro e he hasked
        exact absurd (.inl (List.any_eq_true.mpr ⟨e, he, hasked⟩)) hnothing
      · intro s hs hrecognised
        rw [hs] at hnothing
        exact absurd (.inr hrecognised) hnothing
  · intro h hanswered
    exact (h ((answered_iff config).mp hanswered).1).isProbe hanswered

/-- `SELECT length(version())` -/
def versionLength : ParsedQuery :=
  let version : Expr := .function [.identifier ⟨"version".toList, none⟩] (.list []) []
  ⟨some [bare [] (.unnamedExpr (.function [.identifier ⟨"length".toList, none⟩] (.list [.unnamed version]) [])) [] []]⟩

/-- `SELECT (SELECT current_schema FROM tenants)` -/
def tenantSchema : ParsedQuery :=
  let column : SelectItem := .unnamedExpr (.identifier ⟨"current_schema".toList, none⟩)
  let tenants : TableFactor := .table [.identifier ⟨"tenants".toList, none⟩] []
  ⟨some [bare [] (.unnamedExpr (.other "subquery".toList []
    [.mk [] (.select (.mk [] [column] [tenants] none [] none [] [] [] none [])) [] .absent .absent []])) [] []]⟩

theorem nested_calls_answered :
    interceptServerFunctions versionLength ⟨"memory".toList, "default".toList⟩ =
        some (singleTextResponse "version".toList
          "PostgreSQL 16.6 on x86_64-pc-linux-gnu, compiled by gcc 12.2.0, 64-bit".toList) ∧
      ¬ IsProbe versionLength ∧
      interceptServerFunctions tenantSchema ⟨"memory".toList, "default".toList⟩ =
        some (singleTextResponse "current_schema".toList "default".toList) ∧
      ¬ IsProbe tenantSchema := by
  refine ⟨rfl, ?_, rfl, ?_⟩
  · intro ⟨e, ⟨item, hparsed, hitem⟩, hprobe⟩
    cases hparsed
    cases hitem
    exact absurd hprobe (by decide)
  · intro ⟨e, ⟨item, hparsed, hitem⟩, hprobe⟩
    cases hparsed
    cases hitem
    cases hprobe

end TrinoGateway.Probes
