/-
  TrinoGateway.Batches — texts of several statements: what they answer, and what a Describe
  of one submits.

  `batch_replies` (`two_selects_reply`): every statement that succeeds adds one response, so
  the responses of a batch are those of its statements in order, up to the first that fails;
  the statements after it are not run.
  `describe_submits_nothing_iff`: a Describe looks at the first statement of a text and at its
  outermost form only, so a text that changes data is kept from Trino exactly if it does not
  begin with a query, or if the gateway answers all of it (`describe_inserts`).
-/

import TrinoGateway.Portals
import TrinoGateway.Sql.Fold

namespace TrinoGateway.Sql

def Shape.writes : Shape → Bool
  | .statementBody => true
  | .clause _ writes _ => writes
  | _ => false

/-- No statement stands in the place of a query and no select has an INTO, at any depth. -/
def readsOnly : Algebra Bool where
  node shape parts := !shape.writes && parts.flatten.all id
  query _ ctes body orderBy limits fetch others :=
    ctes.all id && body && orderBy.all id && limits.parts.all id && fetch.parts.all id && others.all id

/-- A query that changes nothing. -/
def Statement.isPure : Statement → Bool
  | .query q => q.fold readsOnly
  | .write .. => false
  | .other .. => false

end TrinoGateway.Sql

namespace TrinoGateway.Batches

open TrinoGateway.Lib
open TrinoGateway.Sql
open TrinoGateway.Catalog
open TrinoGateway.Types
open TrinoGateway.Pipeline
open TrinoGateway.Portals

variable {G : Gateway} {resultFormat : Option Format} {l l₁ l₂ : Link}

/-! ## One response a statement -/

variable (G resultFormat) in
/-- The statements succeed one after the other, each with one response. -/
inductive Replies : Link → List Text → List Response → Link → Prop
  | nil (l : Link) : Replies l [] [] l
  | cons {l l₁ l₂ : Link} {stmt : Text} {stmts : List Text} {response : Response} {responses : List Response} :
      processSingleStatement G l stmt resultFormat = (.ok [response], l₁) → Replies l₁ stmts responses l₂ →
      Replies l (stmt :: stmts) (response :: responses) l₂

theorem Succeeds.replies {stmts : List Text} {responses : List Response}
    (h : Succeeds G resultFormat l stmts responses l₁) : Replies G resultFormat l stmts responses l₁ := by
  induction h with
  | nil l => exact .nil l
  | cons hs _ ih =>
    obtain ⟨response, rfl, _⟩ := single_ok hs
    exact .cons hs ih

theorem Replies.succeeds {stmts : List Text} {responses : List Response}
    (h : Replies G resultFormat l stmts responses l₁) : Succeeds G resultFormat l stmts responses l₁ := by
  induction h with
  | nil l => exact .nil l
  | cons hs _ ih => exact .cons hs ih

theorem Replies.length_eq {stmts : List Text} {responses : List Response}
    (h : Replies G resultFormat l stmts responses l₁) : responses.length = stmts.length := by
  induction h with
  | nil l => rfl
  | cons _ _ ih => rw [List.length_cons, List.length_cons, ih]

theorem processQuery_batch {query : Text} (hmany : 1 < (splitStatements G query).length) (l : Link) :
    processQuery G l query resultFormat = processBatch G resultFormat [] l (splitStatements G query) :=
  if_neg (by omega)

variable (G resultFormat) in
/-- The statements before this one succeed and it fails. -/
def FailsAt (l : Link) (pieces : List Text) (responses : List Response) (e : PgWireError) (l' : Link) : Prop :=
  ∃ before stmt after l₁, pieces = before ++ stmt :: after ∧ Replies G resultFormat l before responses l₁ ∧
    responses.length = before.length ∧ processSingleStatement G l₁ stmt resultFormat = (.error e, l')

theorem batch_all {pieces : List Text} {responses : List Response} (h : Replies G resultFormat l pieces responses l₁) :
    processBatch G resultFormat [] l pieces = (.ok responses, l₁) := by
  have happend := processBatch_append h.succeeds [] []
  rwa [List.append_nil, List.nil_append] at happend

theorem batch_fails {pieces : List Text} {responses : List Response} {e : PgWireError}
    (h : FailsAt G resultFormat l pieces responses e l₁) :
    processBatch G resultFormat [] l pieces = (stopped responses e, l₁) := by
  obtain ⟨before, stmt, after, l₂, rfl, hbefore, _, hstmt⟩ := h
  rw [processBatch_append hbefore.succeeds, List.nil_append, processBatch_stop hstmt]

theorem batch_cases (l : Link) (pieces : List Text) :
    (∃ responses l', Replies G resultFormat l pieces responses l') ∨
      ∃ responses e l', FailsAt G resultFormat l pieces responses e l' := by
  obtain ⟨responses, l', hall, _⟩ | ⟨before, stmt, after, responses, l₁, e, l', hpieces, hbefore, hstmt, _⟩ :=
    @processBatch_spec G resultFormat l [] pieces
  · exact .inl ⟨responses, l', Succeeds.replies hall⟩
  · have hreplies := Succeeds.replies hbefore
    exact .inr ⟨responses, e, l', before, stmt, after, l₁, hpieces, hreplies, hreplies.length_eq, hstmt⟩

/-- The link `l'` at the end is that of the last statement processed. -/
theorem batch_replies (G : Gateway) (resultFormat : Option Format) (l : Link) (query : Text)
    (hmany : 1 < (splitStatements G query).length) :
    ((∃ responses l', Replies G resultFormat l (splitStatements G query) responses l') ∨
        ∃ responses e l', FailsAt G resultFormat l (splitStatements G query) responses e l') ∧
      (∀ responses l', Replies G resultFormat l (splitStatements G query) responses l' →
        responses.length = (splitStatements G query).length ∧
          processQuery G l query resultFormat = (.ok responses, l')) ∧
      (∀ responses info l', FailsAt G resultFormat l (splitStatements G query) responses (.userError info) l' →
        processQuery G l query resultFormat = (.ok (responses ++ [.error info]), l')) ∧
      (∀ responses e l', FailsAt G resultFormat l (splitStatements G query) responses e l' →
        (∀ info, e ≠ .userError info) → processQuery G l query resultFormat = (.error e, l')) ∧
      ∀ l stmt responses l', processSingleStatement G l stmt resultFormat = (.ok responses, l') →
        ∃ response, responses = [response] ∧ ∀ info, response ≠ .error info := by
  refine ⟨batch_cases l _, ?_, ?_, ?_, fun l stmt responses l' => single_ok⟩
  · intro responses l' hall
    exact ⟨hall.length_eq, (processQuery_batch hmany l).trans (batch_all hall)⟩
  · intro responses info l' hfails
    exact (processQuery_batch hmany l).trans (batch_fails hfails)
  · intro responses e l' hfails hfatal
    rw [processQuery_batch hmany, batch_fails hfails]
    cases e with
    | userError info => exact absurd rfl (hfatal info)
    | apiError message => rfl

theorem brokenTrino_reply (l : Link) (stmt : Text) (h : ¬ AnswersItself (splitting brokenTrino) stmt) :
    ∃ response l', processSingleStatement (splitting brokenTrino) l stmt none = (.ok [response], l') := by
  have hcolumns : firstColumns ((splitting brokenTrino).trino.reply l.requests (rewritten (splitting brokenTrino) stmt)).pages =
      some [⟨"x".toList, "integer".toList⟩] := rfl
  obtain ⟨schema, rows, hsubmit, _⟩ := submit_of_columns none hcolumns
  rw [single_of_not_answers h, hsubmit]
  exact ⟨_, _, rfl⟩

/-- Both statements of the text are run. -/
theorem two_selects_reply :
    splitStatements (splitting brokenTrino) "SELECT a;SELECT b".toList = ["SELECT a".toList, "SELECT b".toList] ∧
      ∃ first second l', processQuery (splitting brokenTrino) ⟨none, []⟩ "SELECT a;SELECT b".toList none =
        (.ok [first, second], l') := by
  have hpieces : splitStatements (splitting brokenTrino) "SELECT a;SELECT b".toList =
      ["SELECT a".toList, "SELECT b".toList] := by decide +kernel
  have hreplies := batch_replies (splitting brokenTrino) none ⟨none, []⟩ "SELECT a;SELECT b".toList
    (by rw [hpieces]; decide)
  obtain ⟨first, l₁, hfirst⟩ := brokenTrino_reply ⟨none, []⟩ "SELECT a".toList (by decide +kernel)
  obtain ⟨second, l₂, hsecond⟩ := brokenTrino_reply l₁ "SELECT b".toList (by decide +kernel)
  have hboth := Replies.cons hfirst (.cons hsecond (.nil l₂))
  rw [← hpieces] at hboth
  exact ⟨hpieces, first, second, l₂, (hreplies.2.1 _ _ hboth).2⟩

/-! ## What a Describe submits -/

variable (G) in
/-- Every statement of the text is a query that changes nothing. -/
def PureText (query : Text) : Prop := ∃ stmts, G.parser.parseSql query = some stmts ∧ ∀ stmt ∈ stmts, stmt.isPure = true

variable (G) in
/-- The gateway answers the statements itself, up to the first whose lookup fails. -/
def AnswersAll : List Request → List Text → Prop
  | _, [] => True
  | requests, stmt :: rest =>
    match intercepted G stmt with
    | some _ => AnswersAll requests rest
    | none =>
      match dynamicTable (parse G stmt) with
      | some table =>
        match G.trino.getAll requests table.sql with
        | .error _ => True
        | .ok _ => AnswersAll (requests ++ [.lookup table.sql]) rest
      | none => False

theorem batch_submits_nothing (l : Link) (out : List Response) (pieces : List Text) :
    (processBatch G resultFormat out l pieces).2.submitted = l.submitted ↔ AnswersAll G l.requests pieces := by
  induction pieces generalizing l out with
  | nil => simp only [processBatch, AnswersAll]
  | cons stmt rest ih =>
    rw [AnswersAll]
    cases hi : intercepted G stmt with
    | some result =>
      obtain ⟨response, rfl, _⟩ := intercepted_built G hi
      have hsingle : processSingleStatement G l stmt resultFormat = (.ok [response], l) := by
        rw [processSingleStatement, hi]
      rw [processBatch_go hsingle, ih]
    | none =>
      cases hd : dynamicTable (parse G stmt) with
      | none =>
        have hunanswered : ¬ AnswersItself G stmt := by simp [AnswersItself, hi, hd]
        simp only [batch_of_unanswered hunanswered]
      | some table =>
        have hsingle : processSingleStatement G l stmt resultFormat =
            (table.respond G.crates (G.trino.getAll l.requests table.sql), l.request (.lookup table.sql)) := by
          rw [processSingleStatement, hi, hd]
        cases hg : G.trino.getAll l.requests table.sql with
        | error message =>
          obtain ⟨e, he⟩ := (@respond_error_iff G.crates table _).mpr ⟨message, hg⟩
          rw [he] at hsingle
          simp only [processBatch_stop hsingle, submitted_request_lookup, hg]
        | ok rows =>
          obtain ⟨response, hok, _⟩ | ⟨e, he⟩ := respond_cases G.crates table (G.trino.getAll l.requests table.sql)
          · rw [hok] at hsingle
            rw [processBatch_go hsingle, ← submitted_request_lookup l table.sql, ih]
            simp only [hg]
            rfl
          · obtain ⟨message, hmessage⟩ := respond_error_iff.mp ⟨_, he⟩
            rw [hg] at hmessage
            cases hmessage

/-- A text of one statement is a batch of it, as far as Trino is concerned. -/
theorem query_submits_nothing (l : Link) (query : Text) :
    (processQuery G l query resultFormat).2.submitted = l.submitted ↔ AnswersAll G l.requests (splitStatements G query) := by
  by_cases hmany : 1 < (splitStatements G query).length
  · rw [processQuery_batch hmany, batch_submits_nothing]
  · have hone : splitStatements G query = [query] := by
      obtain ⟨stmt, rest, hpieces⟩ := List.exists_cons_of_ne_nil (splitStatements_ne_nil (G := G) query)
      rw [hpieces, List.length_cons] at hmany
      obtain rfl := List.length_eq_zero_iff.mp (by omega : rest.length = 0)
      rw [hpieces, splitStatements_single hpieces]
    have hsame : (processQuery G l query resultFormat).2 = (processBatch G resultFormat [] l [query]).2 := by
      rw [processQuery, hone]
      rcases hs : processSingleStatement G l query resultFormat with ⟨e | responses, l'⟩
      · rw [processBatch_stop hs]
        rfl
      · rw [processBatch_go hs]
        rfl
    rw [hsame, hone, batch_submits_nothing]

theorem returnsRows_iff (query : Text) :
    (parse G query).returnsRows = true ↔ ∃ q stmts, G.parser.parseSql query = some (.query q :: stmts) := by
  unfold parse ParsedQuery.returnsRows
  cases hparse : G.parser.parseSql query with
  | none => simp
  | some stmts =>
    cases stmts with
    | nil => simp
    | cons stmt stmts => cases stmt <;> simp

theorem describe_submits_nothing_iff (G : Gateway) (s : Session) (query : Text) :
    (¬ PureText G query → (doDescribeStatement G s query).2.link.submitted = s.link.submitted) ↔
      PureText G query ∨ (∀ q stmts, G.parser.parseSql query ≠ some (.query q :: stmts)) ∨
        AnswersAll G s.link.requests (splitStatements G query) := by
  have hsame : (doDescribeStatement G s query).2.link.submitted = s.link.submitted ↔
      (∀ q stmts, G.parser.parseSql query ≠ some (.query q :: stmts)) ∨
        AnswersAll G s.link.requests (splitStatements G query) := by
    have hrows := returnsRows_iff (G := G) query
    rw [describeStatement_session]
    by_cases h : (parse G query).returnsRows = true
    · obtain ⟨q, stmts, hparse⟩ := hrows.mp h
      rw [if_pos h, query_submits_nothing, or_iff_right]
      exact fun hno => hno q stmts hparse
    · rw [if_neg h]
      refine iff_of_true rfl (.inl fun q stmts hparse => h (hrows.mpr ⟨q, stmts, hparse⟩))
  rw [hsame]
  exact or_iff_not_imp_left.symm

/-- `SELECT a` -/
def selectA : Query :=
  .mk [] (.select (.mk [] [.unnamedExpr (.identifier ⟨['a'], none⟩)] [] none [] none [] [] [] none [])) [] .absent .absent
    []

def selectThenInsert : Text := "SELECT a;INSERT INTO orders VALUES (1)".toList

/-- The gateway knows a select, an insert and the text of both. -/
def selectInsertGateway : Gateway where
  crates := plainCrates
  parser :=
    { parseSql := fun sql =>
        if sql = selectThenInsert then some [.query selectA, insertInto "orders".toList]
        else if sql = insertOrders then some [insertInto "orders".toList]
        else some [.query selectA]
      toString := fun
        | .write .. => insertOrders
        | _ => "SELECT a".toList }
  config := ⟨"memory".toList, "default".toList⟩
  trino := (knowing [] (.query selectA)).trino
  clientIsSecure := false

def withInsert : Text := "WITH c AS (SELECT a) INSERT INTO orders VALUES (1)".toList

/-- `WITH c AS (SELECT a) INSERT INTO orders VALUES (1)`, which parses as a query. -/
def withInsertStatement : Statement :=
  .query (.mk [selectA] (.statement (insertInto "orders".toList)) [] .absent .absent [])

/-- Preparing a statement is enough to insert, behind a query or as the body of one. -/
theorem describe_inserts :
    ¬ PureText selectInsertGateway selectThenInsert ∧
      (doDescribeStatement selectInsertGateway Session.fresh selectThenInsert).2.link.submitted =
        ["SELECT a".toList, insertOrders] ∧
      ¬ PureText (knowing withInsert withInsertStatement) withInsert ∧
      (doDescribeStatement (knowing withInsert withInsertStatement) Session.fresh withInsert).2.link.submitted =
        [withInsert] := by
  refine ⟨?_, by decide +kernel, ?_, by decide +kernel⟩
  · rintro ⟨stmts, hparse, hpure⟩
    cases hparse
    exact Bool.false_ne_true (hpure (insertInto "orders".toList) (by simp))
  · rintro ⟨stmts, hparse, hpure⟩
    cases hparse
    exact Bool.false_ne_true (hpure withInsertStatement (by simp))

end TrinoGateway.Batches
