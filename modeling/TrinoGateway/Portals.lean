/-
  TrinoGateway.Portals — the extended query protocol (`src/query_extended.rs`,
  `src/session.rs`). Describe runs the pipeline and stashes its first response under the
  portal's name; Execute takes the stash if it was made for the same text, and runs the
  pipeline otherwise. The stash holds at most 64 responses, and a Describe that finds it
  full drops its response without an error.

  Proved: `pair_runs`, for any sequence of Describes and Executes in which all runs succeed:
  a Describe and the Execute after it run the pipeline once between them if and only if the
  Describe found room and no Describe of the same portal for another text came between, and
  twice otherwise (`full_stash_runs_twice`).
  `failure_reported_iff`: of the statements of one text only the first can report a failure,
  since the handlers keep one response (`second_failure_lost`).
-/

import TrinoGateway.Lib.Run
import TrinoGateway.Pipeline

namespace TrinoGateway.Portals

open TrinoGateway.Lib
open TrinoGateway.Types
open TrinoGateway.Sql
open TrinoGateway.Pipeline
open TrinoGateway.ErrorMapping (trinoErrorToPg)

/-! ## Sessions -/

structure Portal where
  name : Text
  query : Text
  resultColumnFormat : Format
  deriving DecidableEq

structure CachedPortalResponse where
  query : Text
  response : Response

abbrev PortalCache := AList fun _ : Text => CachedPortalResponse

def maxCachedPortals : ℕ := 64

/-- The state of a connection, with the texts `process_query` was called with so far. -/
structure Session where
  link : Link
  portals : PortalCache
  runs : List Text

def Session.fresh : Session := ⟨⟨none, []⟩, ∅, []⟩

variable (G : Gateway)

def runPipeline (s : Session) (query : Text) (resultFormat : Option Format) : PgWireResult (List Response) × Session :=
  let (result, link) := processQuery G s.link query resultFormat
  (result, { s with link, runs := s.runs ++ [query] })

/-- `responses.into_iter().next()`; the other responses are dropped. -/
def firstResponse : PgWireResult (List Response) → PgWireResult Response
  | .ok (response :: _) => .ok response
  | .ok [] => .error (.apiError "Empty pipeline response".toList)
  | .error e => .error e

/-- The entry may be inserted. -/
def Room (cache : PortalCache) (name : Text) : Prop := cache.keys.length < maxCachedPortals ∨ name ∈ cache

instance (cache : PortalCache) (name : Text) : Decidable (Room cache name) := inferInstanceAs (Decidable (_ ∨ _))

def insertCached (cache : PortalCache) (name : Text) (entry : CachedPortalResponse) : PortalCache :=
  if Room cache name then cache.insert name entry else cache

/-- Execute. -/
def doQuery (s : Session) (portal : Portal) : PgWireResult Response × Session :=
  let taken := { s with portals := s.portals.erase portal.name }
  let afresh :=
    let (result, s) := runPipeline G taken portal.query (some portal.resultColumnFormat)
    (firstResponse result, s)
  match s.portals.lookup portal.name with
  | some entry => if entry.query = portal.query then (.ok entry.response, taken) else afresh
  | none => afresh

/-- The columns a Describe announces. -/
def fieldsOf : Response → Schema
  | .query schema _ => schema
  | _ => []

def doDescribePortal (s : Session) (portal : Portal) : PgWireResult Schema × Session :=
  let (result, s) := runPipeline G s portal.query (some portal.resultColumnFormat)
  match firstResponse result with
  | .error e => (.error e, s)
  | .ok response =>
    (.ok (fieldsOf response), { s with portals := insertCached s.portals portal.name ⟨portal.query, response⟩ })

/-- The columns of a prepared statement, or none; a statement that returns no rows is not run. -/
def doDescribeStatement (s : Session) (query : Text) : PgWireResult (Option Schema) × Session :=
  if !(parse G query).returnsRows then (.ok none, s)
  else
    let (result, s) := runPipeline G s query none
    match firstResponse result with
    | .error e => (.error e, s)
    | .ok response => (.ok (some (fieldsOf response)), s)

/-! ## What a handler leaves in the stash -/

/-- An Execute of the portal with this name and text is served from the stash. -/
def Serves (s : Session) (name query : Text) : Prop := ∃ entry, s.portals.lookup name = some entry ∧ entry.query = query

variable {G} {s : Session} {portal : Portal}

theorem doQuery_served {entry : CachedPortalResponse} (h : s.portals.lookup portal.name = some entry)
    (hq : entry.query = portal.query) :
    doQuery G s portal = (.ok entry.response, { s with portals := s.portals.erase portal.name }) := by
  simp [doQuery, h, hq]

theorem doQuery_afresh (h : ¬ Serves s portal.name portal.query) :
    doQuery G s portal =
      (firstResponse (processQuery G s.link portal.query (some portal.resultColumnFormat)).1,
        ⟨(processQuery G s.link portal.query (some portal.resultColumnFormat)).2, s.portals.erase portal.name,
          s.runs ++ [portal.query]⟩) := by
  rw [doQuery]
  cases hl : s.portals.lookup portal.name with
  | none => rfl
  | some entry => exact if_neg fun hq => h ⟨entry, hl, hq⟩

/-- Describe of a statement changes what the run of the pipeline changes, if there is one. -/
theorem describeStatement_session (s : Session) (query : Text) : (doDescribeStatement G s query).2 =
    if (parse G query).returnsRows then ⟨(processQuery G s.link query none).2, s.portals, s.runs ++ [query]⟩ else s := by
  unfold doDescribeStatement runPipeline
  cases (parse G query).returnsRows with
  | false => rfl
  | true =>
    rcases processQuery G s.link query none with ⟨result, link⟩
    cases hfirst : firstResponse result <;> simp [hfirst]

/-! ## A run of the pipeline has a first response -/

/-- A statement that succeeds has one response, and it is no error. -/
theorem single_ok {l l' : Link} {stmt : Text} {resultFormat : Option Format} {responses : List Response}
    (h : processSingleStatement G l stmt resultFormat = (.ok responses, l')) :
    ∃ response, responses = [response] ∧ ∀ info, response ≠ .error info := by
  have hspec := processSingleStatement_spec G l stmt resultFormat
  rw [h] at hspec
  cases hspec with
  | built hlocal => exact ⟨_, rfl, by rintro info rfl; exact hlocal⟩
  | looked _ hlocal => exact ⟨_, rfl, by rintro info rfl; exact hlocal⟩
  | submitted hsub =>
    cases hsub with
    | executed _ => exact ⟨_, rfl, by rintro info ⟨⟩⟩
    | forwarded hf =>
      cases hf
      exact ⟨_, rfl, by rintro info ⟨⟩⟩

/-- The first response of statements that all succeed is that of the first one. -/
theorem succeeds_head {l l' : Link} {stmt : Text} {stmts : List Text} {resultFormat : Option Format}
    {responses : List Response} (h : Succeeds G resultFormat l (stmt :: stmts) responses l') :
    ∃ response rest, responses = response :: rest ∧ ∀ info, response ≠ .error info := by
  cases h with
  | cons hs _ =>
    obtain ⟨response, rfl, hne⟩ := single_ok hs
    exact ⟨response, _, rfl, hne⟩

theorem splitStatements_ne_nil (query : Text) : splitStatements G query ≠ [] := by
  rw [splitStatements]
  split
  · split_ifs with h
    · rw [Ne, List.map_eq_nil_iff, ← List.length_eq_zero_iff]
      omega
    · exact List.cons_ne_nil _ _
  · exact List.cons_ne_nil _ _

/-- A text of one statement is that statement. -/
theorem splitStatements_single {query stmt : Text} (h : splitStatements G query = [stmt]) : stmt = query := by
  rw [splitStatements] at h
  split at h
  · split_ifs at h with hl
    · have := congrArg List.length h
      rw [List.length_map, List.length_singleton] at this
      omega
    · exact (List.cons.inj h).1.symm
  · exact (List.cons.inj h).1.symm

theorem processQuery_ok {l : Link} {query : Text} {resultFormat : Option Format} {responses : List Response}
    (h : (processQuery G l query resultFormat).1 = .ok responses) : ∃ response rest, responses = response :: rest := by
  rw [processQuery] at h
  split_ifs at h with hone
  · rcases hs : processSingleStatement G l query resultFormat with ⟨r, l'⟩
    rw [hs] at h
    obtain rfl : r = .ok responses := h
    obtain ⟨response, rfl, -⟩ := single_ok hs
    exact ⟨response, [], rfl⟩
  · obtain ⟨stmt, stmts, hp⟩ := List.exists_cons_of_ne_nil (splitStatements_ne_nil (G := G) query)
    rw [hp] at h
    rcases processBatch_spec (G := G) l [] (stmt :: stmts) with ⟨more, l', hm, hb⟩ | ⟨_, _, _, more, _, e, _, _, _, _, hb⟩
    · obtain ⟨response, rest, rfl, -⟩ := succeeds_head hm
      rw [hb] at h
      exact ⟨response, rest, (Except.ok.inj h).symm⟩
    · rw [hb] at h
      cases e with
      | userError info => exact List.exists_cons_of_ne_nil (by rw [← Except.ok.inj h]; simp)
      | apiError _ => cases h

/-! ## Describes and Executes -/

inductive Call where
  | describe (portal : Portal)
  | execute (portal : Portal)

variable (G) in
def call (s : Session) : Call → Session
  | .describe portal => (doDescribePortal G s portal).2
  | .execute portal => (doQuery G s portal).2

variable (G) in
/-- The pipeline succeeds on the portal. -/
def PipelineOk (s : Session) (portal : Portal) : Prop :=
  ∃ responses, (processQuery G s.link portal.query (some portal.resultColumnFormat)).1 = .ok responses

variable (G) in
/-- If the call runs the pipeline, the run succeeds. -/
def RunSucceeds (s : Session) : Call → Prop
  | .describe portal => PipelineOk G s portal
  | .execute portal => Serves s portal.name portal.query ∨ PipelineOk G s portal

/-- A Describe runs the pipeline, and stashes the first response if there is one. -/
theorem describe_cases (s : Session) (portal : Portal) :
    (∃ e, (processQuery G s.link portal.query (some portal.resultColumnFormat)).1 = .error e ∧
      doDescribePortal G s portal =
        (.error e, ⟨(processQuery G s.link portal.query (some portal.resultColumnFormat)).2, s.portals,
          s.runs ++ [portal.query]⟩)) ∨
    ∃ response rest, (processQuery G s.link portal.query (some portal.resultColumnFormat)).1 = .ok (response :: rest) ∧
      doDescribePortal G s portal = (.ok (fieldsOf response),
        ⟨(processQuery G s.link portal.query (some portal.resultColumnFormat)).2,
          insertCached s.portals portal.name ⟨portal.query, response⟩, s.runs ++ [portal.query]⟩) := by
  cases hr : (processQuery G s.link portal.query (some portal.resultColumnFormat)).1 with
  | error e => exact Or.inl ⟨e, rfl, by simp [doDescribePortal, runPipeline, hr, firstResponse]⟩
  | ok responses =>
    obtain ⟨response, rest, rfl⟩ := processQuery_ok hr
    exact Or.inr ⟨response, rest, rfl, by simp [doDescribePortal, runPipeline, hr, firstResponse]⟩

theorem describe_spec (h : PipelineOk G s portal) : ∃ response,
    (doDescribePortal G s portal).2 =
      ⟨(processQuery G s.link portal.query (some portal.resultColumnFormat)).2,
        insertCached s.portals portal.name ⟨portal.query, response⟩, s.runs ++ [portal.query]⟩ := by
  obtain ⟨responses, hok⟩ := h
  rcases describe_cases (G := G) s portal with ⟨e, hr, -⟩ | ⟨response, rest, -, hd⟩
  · rw [hok] at hr
    cases hr
  · exact ⟨response, by rw [hd]⟩

theorem lookup_insertCached_ne {cache : PortalCache} {name other : Text} (h : other ≠ name) (entry : CachedPortalResponse) :
    (insertCached cache name entry).lookup other = cache.lookup other := by
  rw [insertCached]
  split_ifs
  · exact AList.lookup_insert_ne h
  · rfl

theorem lookup_insertCached {cache : PortalCache} {name : Text} (entry : CachedPortalResponse) :
    (insertCached cache name entry).lookup name = if Room cache name then some entry else none := by
  rw [insertCached]
  split_ifs with h
  · exact AList.lookup_insert _
  · exact AList.lookup_eq_none.mpr fun hm => h (Or.inr hm)

theorem execute_portals (s : Session) (portal : Portal) : (doQuery G s portal).2.portals = s.portals.erase portal.name := by
  by_cases h : Serves s portal.name portal.query
  · obtain ⟨entry, hl, hq⟩ := h
    rw [doQuery_served hl hq]
  · rw [doQuery_afresh h]

/-- Calls on other portals leave an entry alone. -/
theorem serves_of_lookup_eq {t : Session} {name query : Text} (h : t.portals.lookup name = s.portals.lookup name) :
    Serves t name query ↔ Serves s name query := by
  rw [Serves, Serves, h]

theorem serves_describe_ne {name query : Text} (hok : PipelineOk G s portal) (h : portal.name ≠ name) :
    Serves (call G s (.describe portal)) name query ↔ Serves s name query := by
  obtain ⟨response, hd⟩ := describe_spec hok
  apply serves_of_lookup_eq
  rw [call, hd]
  exact lookup_insertCached_ne h.symm _

theorem serves_execute_ne {name query : Text} (h : portal.name ≠ name) :
    Serves (call G s (.execute portal)) name query ↔ Serves s name query := by
  apply serves_of_lookup_eq
  rw [call, execute_portals]
  exact AList.lookup_erase_ne h.symm

theorem serves_describe (hok : PipelineOk G s portal) :
    Serves (call G s (.describe portal)) portal.name portal.query ↔ Room s.portals portal.name := by
  obtain ⟨response, hd⟩ := describe_spec hok
  rw [Serves, call, hd]
  simp only [lookup_insertCached]
  split_ifs with h <;> simp [h]

/-- After a Describe for another text the stash does not serve the old one. -/
theorem not_serves_describe_other {query : Text} (hok : PipelineOk G s portal) (h : portal.query ≠ query) :
    ¬ Serves (call G s (.describe portal)) portal.name query := by
  obtain ⟨response, hd⟩ := describe_spec hok
  rw [Serves, call, hd]
  simp only [lookup_insertCached]
  split_ifs <;> simp [h]

/-- What the stash serves after calls that neither execute the portal nor describe it for the same text. -/
theorem serves_run_iff {name query : Text} {mid : List Call} (hok : Along (call G) (RunSucceeds G) s mid)
    (hexec : ∀ p, .execute p ∈ mid → p.name ≠ name)
    (hdesc : ∀ p, .describe p ∈ mid → p.name = name → p.query ≠ query) :
    Serves (run (call G) s mid) name query ↔ Serves s name query ∧ ∀ p, .describe p ∈ mid → p.name ≠ name := by
  induction mid generalizing s with
  | nil => simp
  | cons c mid ih =>
    obtain ⟨hc, hrest⟩ := hok
    rw [run_cons, ih hrest (fun p hp => hexec p (List.mem_cons_of_mem _ hp))
      (fun p hp => hdesc p (List.mem_cons_of_mem _ hp))]
    cases c with
    | execute p =>
      rw [serves_execute_ne (hexec p List.mem_cons_self)]
      simp
    | describe p =>
      by_cases hn : p.name = name
      · have hnot : ¬ Serves (call G s (.describe p)) name query := by
          rw [← hn]
          exact not_serves_describe_other hc (hdesc p List.mem_cons_self hn)
        simp only [hnot, false_and, false_iff, not_and, not_forall]
        exact fun _ => ⟨p, List.mem_cons_self, fun hne => hne hn⟩
      · rw [serves_describe_ne hc hn]
        simp [hn]

variable (G) in
/-- How often a call runs the pipeline. -/
def runsOf (s : Session) (c : Call) : ℕ := (call G s c).runs.length - s.runs.length

theorem runsOf_describe (hok : PipelineOk G s portal) : runsOf G s (.describe portal) = 1 := by
  obtain ⟨response, hd⟩ := describe_spec hok
  simp [runsOf, call, hd]

theorem runsOf_execute_served (h : Serves s portal.name portal.query) :
    runsOf G s (.execute portal) = 0 ∧ (call G s (.execute portal)).link = s.link := by
  obtain ⟨entry, hl, hq⟩ := h
  simp [runsOf, call, doQuery_served hl hq]

theorem runsOf_execute_afresh (h : ¬ Serves s portal.name portal.query) : runsOf G s (.execute portal) = 1 := by
  simp [runsOf, call, doQuery_afresh h]

theorem pair_runs (G : Gateway) (s : Session) (before mid after : List Call) (d e : Portal) (hname : e.name = d.name)
    (hquery : e.query = d.query)
    (hok : Along (call G) (RunSucceeds G) s (before ++ (.describe d :: mid) ++ .execute e :: after))
    (hexec : ∀ p, .execute p ∈ mid → p.name ≠ d.name)
    (hdesc : ∀ p, .describe p ∈ mid → p.name = d.name → p.query ≠ d.query) :
    let atDescribe := run (call G) s before
    let atExecute := run (call G) s (before ++ .describe d :: mid)
    let undisturbed := Room atDescribe.portals d.name ∧ ∀ p, .describe p ∈ mid → p.name ≠ d.name
    (undisturbed → runsOf G atDescribe (.describe d) + runsOf G atExecute (.execute e) = 1 ∧
      (call G atExecute (.execute e)).link = atExecute.link) ∧
    (¬ undisturbed → runsOf G atDescribe (.describe d) + runsOf G atExecute (.execute e) = 2) := by
  intro atDescribe atExecute undisturbed
  obtain ⟨hpair, -⟩ := along_append.mp hok
  obtain ⟨hd, hmid⟩ := (along_append.mp hpair).2
  have hserves : Serves atExecute e.name e.query ↔ undisturbed := by
    rw [hname, hquery]
    show Serves (run (call G) s (before ++ .describe d :: mid)) d.name d.query ↔ _
    rw [run_append, run_cons, serves_run_iff hmid hexec hdesc, serves_describe hd]
  have hone : runsOf G atDescribe (.describe d) = 1 := runsOf_describe hd
  constructor
  · intro hu
    obtain ⟨hzero, hlink⟩ := runsOf_execute_served (G := G) (hserves.mpr hu)
    exact ⟨by rw [hone, hzero], hlink⟩
  · intro hu
    rw [hone, runsOf_execute_afresh fun h => hu (hserves.mp h)]

def ordersGateway : Gateway := knowing insertOrders (insertInto "orders".toList)

def ordersPortal (name : Text) : Portal := ⟨name, insertOrders, .unifiedText⟩

theorem ordersGateway_ok (s : Session) (name : Text) : PipelineOk ordersGateway s (ordersPortal name) := by
  have hone : (splitStatements ordersGateway insertOrders).length ≤ 1 := by decide +kernel
  have hsent : ¬ AnswersItself ordersGateway insertOrders := by decide +kernel
  refine ⟨[.execution "OK".toList], ?_⟩
  rw [ordersPortal, processQuery, if_pos hone, single_of_not_answers hsent]
  rfl

theorem pair_runs_orders :
    runsOf ordersGateway .fresh (.describe (ordersPortal "p".toList)) +
      runsOf ordersGateway (call ordersGateway .fresh (.describe (ordersPortal "p".toList)))
        (.execute (ordersPortal "p".toList)) = 1 := by
  have hroom : Room Session.fresh.portals "p".toList := by decide
  have hserves := (serves_describe (ordersGateway_ok .fresh "p".toList)).mpr hroom
  exact ((pair_runs ordersGateway .fresh [] [] [] (ordersPortal "p".toList) (ordersPortal "p".toList) rfl rfl
    ⟨ordersGateway_ok _ _, Or.inl hserves, trivial⟩ (by simp) (by simp)).1 ⟨hroom, by simp⟩).1

/-! ## A full stash -/

theorem keys_insertCached {cache : PortalCache} {name : Text} (hroom : cache.keys.length < maxCachedPortals)
    (hnew : name ∉ cache) (entry : CachedPortalResponse) : (insertCached cache name entry).keys = name :: cache.keys := by
  have hr : Room cache name := Or.inl hroom
  rw [insertCached, if_pos hr, AList.keys_insert]
  exact congrArg _ (@List.erase_of_not_mem Text instBEqOfDecidableEq _ _ _ hnew)

/-- Describes of new portals fill the stash as long as there is room. -/
theorem keys_describes {names : List Text} {portal : Text → Portal} (hportal : ∀ n, (portal n).name = n)
    (hok : ∀ s n, PipelineOk G s (portal n)) (hnodup : names.Nodup) (hnew : ∀ n ∈ names, n ∉ s.portals)
    (hfit : s.portals.keys.length + names.length ≤ maxCachedPortals) :
    (run (call G) s (names.map fun n => .describe (portal n))).portals.keys = names.reverse ++ s.portals.keys := by
  induction names generalizing s with
  | nil => rfl
  | cons n names ih =>
    obtain ⟨response, hd⟩ := describe_spec (hok s n)
    rw [List.length_cons] at hfit
    have hkeys : (call G s (.describe (portal n))).portals.keys = n :: s.portals.keys := by
      rw [call, hd, hportal]
      exact keys_insertCached (by omega) (hnew n List.mem_cons_self) _
    obtain ⟨hn, hnodup⟩ := List.nodup_cons.mp hnodup
    rw [List.map_cons, run_cons, ih hnodup ?_ (by rw [hkeys, List.length_cons]; omega), hkeys]
    · simp
    · intro m hm
      rw [AList.mem_keys, hkeys, List.mem_cons, ← AList.mem_keys]
      rintro (rfl | h)
      · exact hn hm
      · exact hnew m (List.mem_cons_of_mem _ hm) h

/-- A Describe without room and its Execute run the pipeline twice. -/
theorem runs_twice (hok : PipelineOk G s portal) (hfull : ¬ Room s.portals portal.name) :
    runsOf G s (.describe portal) + runsOf G (call G s (.describe portal)) (.execute portal) = 2 := by
  rw [runsOf_describe hok, runsOf_execute_afresh fun h => hfull ((serves_describe hok).mp h)]

/-- Sixty-four portals are described and none executed. -/
def sixtyFour : List Call := ((List.range 64).map natText).map fun n => .describe (ordersPortal n)

theorem sixtyFour_full : ¬ Room (run (call ordersGateway) .fresh sixtyFour).portals "p".toList := by
  have hkeys : (run (call ordersGateway) .fresh sixtyFour).portals.keys = ((List.range 64).map natText).reverse ++ [] :=
    keys_describes (fun _ => rfl) ordersGateway_ok (by decide) (fun _ _ h => nomatch h) (by decide)
  rw [Room, AList.mem_keys, hkeys]
  decide

/-- The next portal's statement runs twice. -/
theorem full_stash_runs_twice :
    runsOf ordersGateway (run (call ordersGateway) .fresh sixtyFour) (.describe (ordersPortal "p".toList)) +
      runsOf ordersGateway (run (call ordersGateway) .fresh (sixtyFour ++ [.describe (ordersPortal "p".toList)]))
        (.execute (ordersPortal "p".toList)) = 2 := by
  rw [run_append, run_cons, run_nil]
  exact runs_twice (ordersGateway_ok _ _) sixtyFour_full

/-! ## Failures -/

variable (G) in
/-- A run of the pipeline on `query` reaches a statement that fails with a user error, after `before`. -/
def FailsAfter (l : Link) (query : Text) (resultFormat : Option Format) (before : List Text) (info : ErrorInfo) : Prop :=
  ∃ stmt after responses l₁ l', splitStatements G query = before ++ stmt :: after ∧
    Succeeds G resultFormat l before responses l₁ ∧
    processSingleStatement G l₁ stmt resultFormat = (.error (.userError info), l')

/-- The client is told of an error. -/
def Reports (result : PgWireResult Response) : Prop := (∃ e, result = .error e) ∨ ∃ info, result = .ok (.error info)

variable {l : Link} {query : Text} {resultFormat : Option Format} {before : List Text} {info : ErrorInfo}

/-- The first response of a run in which a statement fails is an error if and only if it is the first statement. -/
theorem firstResponse_reports_iff (h : FailsAfter G l query resultFormat before info) :
    Reports (firstResponse (processQuery G l query resultFormat).1) ↔ before = [] := by
  obtain ⟨stmt, after, responses, l₁, l', hpieces, hsucc, hfail⟩ := h
  rw [processQuery]
  cases before with
  | nil =>
    cases hsucc
    simp only [iff_true]
    split_ifs with hone
    · -- One statement: its error is returned as it is.
      rw [hpieces, List.nil_append, List.length_cons] at hone
      have hnil : after = [] := List.length_eq_zero_iff.mp (by omega)
      rw [hnil, List.nil_append] at hpieces
      rw [← splitStatements_single hpieces, hfail]
      exact Or.inl ⟨_, rfl⟩
    · rw [hpieces, List.nil_append, processBatch_stop hfail]
      exact Or.inr ⟨info, rfl⟩
  | cons first before =>
    obtain ⟨response, rest, rfl, hne⟩ := succeeds_head hsucc
    have hmany : ¬ (splitStatements G query).length ≤ 1 := by
      rw [hpieces, List.cons_append, List.length_cons, List.length_append, List.length_cons]
      omega
    rw [if_neg hmany, hpieces, processBatch_append hsucc, processBatch_stop hfail]
    simp [Reports, stopped, firstResponse, hne]

theorem failure_reported_iff (G : Gateway) (s t : Session) (portal : Portal) {before : List Text} {info : ErrorInfo}
    (hfail : FailsAfter G s.link portal.query (some portal.resultColumnFormat) before info) :
    (¬ Serves s portal.name portal.query → (Reports (doQuery G s portal).1 ↔ before = [])) ∧
    ((∀ response, firstResponse (processQuery G s.link portal.query (some portal.resultColumnFormat)).1 = .ok response →
        t.portals.lookup portal.name = some ⟨portal.query, response⟩) →
      ((∃ e, (doDescribePortal G s portal).1 = .error e) ∨ Reports (doQuery G t portal).1 ↔ before = [])) := by
  have hfirst := firstResponse_reports_iff hfail
  constructor
  · intro hmiss
    rw [doQuery_afresh hmiss]
    exact hfirst
  · intro hstash
    rw [← hfirst]
    cases hr : firstResponse (processQuery G s.link portal.query (some portal.resultColumnFormat)).1 with
    | error e => simp [doDescribePortal, runPipeline, hr, Reports]
    | ok response =>
      rw [doQuery_served (hstash response hr) rfl]
      simp [doDescribePortal, runPipeline, hr, Reports]

def badSelect : Text := "SELECT bad".toList

/-- Trino knows every statement but one. -/
def pickyTrino : Trino where
  reply _ sql :=
    if sql = badSelect then .failed "no such table".toList
    else .last ⟨"q0".toList, some [⟨"x".toList, "integer".toList⟩], none, none⟩
  getAll _ _ := .ok []

theorem badSelect_fails (l : Link) : processSingleStatement (splitting pickyTrino) l badSelect (some .unifiedText) =
    (.error (trinoError "no such table".toList), l.request (.statement badSelect)) := by
  have hsent : ¬ AnswersItself (splitting pickyTrino) badSelect := by decide +kernel
  have hsql : rewritten (splitting pickyTrino) badSelect = badSelect := by decide +kernel
  rw [single_of_not_answers hsent, hsql]
  rfl

theorem failure_reported_alone :
    Reports (doQuery (splitting pickyTrino) .fresh ⟨"p".toList, badSelect, .unifiedText⟩).1 :=
  ((failure_reported_iff (splitting pickyTrino) .fresh .fresh ⟨"p".toList, badSelect, .unifiedText⟩
    ⟨badSelect, [], [], _, _, by decide +kernel, .nil _, badSelect_fails _⟩).1 (by rintro ⟨_, h, -⟩; cases h)).mpr rfl

theorem goodSelect_succeeds : ∃ responses l', Succeeds (splitting pickyTrino) (some .unifiedText) ⟨none, []⟩
    ["SELECT a".toList] responses l' := by
  have hsent : ¬ AnswersItself (splitting pickyTrino) "SELECT a".toList := by decide +kernel
  have hsql : rewritten (splitting pickyTrino) "SELECT a".toList = "SELECT a".toList := by decide +kernel
  have hcolumns : firstColumns ((splitting pickyTrino).trino.reply (⟨none, []⟩ : Link).requests "SELECT a".toList).pages =
      some [⟨"x".toList, "integer".toList⟩] := by decide +kernel
  obtain ⟨schema, rows, hsub, -⟩ := submit_of_columns (some .unifiedText) hcolumns
  rw [← hsql, ← single_of_not_answers hsent] at hsub
  exact ⟨_, _, .cons hsub (.nil _)⟩

def twoSelects : Portal := ⟨"p".toList, "SELECT a;SELECT bad".toList, .unifiedText⟩

theorem twoSelects_fails : FailsAfter (splitting pickyTrino) Session.fresh.link twoSelects.query
    (some twoSelects.resultColumnFormat) ["SELECT a".toList] (trinoErrorToPg "no such table".toList) := by
  obtain ⟨responses, l', hsucc⟩ := goodSelect_succeeds
  exact ⟨badSelect, [], responses, l', _, by decide +kernel, hsucc, badSelect_fails l'⟩

/-- The second of two statements fails, and Execute returns the rows of the first. -/
theorem second_failure_lost :
    FailsAfter (splitting pickyTrino) Session.fresh.link twoSelects.query (some twoSelects.resultColumnFormat)
      ["SELECT a".toList] (trinoErrorToPg "no such table".toList) ∧
    ¬ Reports (doQuery (splitting pickyTrino) .fresh twoSelects).1 := by
  refine ⟨twoSelects_fails, ?_⟩
  have hmiss : ¬ Serves .fresh twoSelects.name twoSelects.query := by
    rintro ⟨_, h, -⟩
    cases h
  rw [doQuery_afresh hmiss, firstResponse_reports_iff twoSelects_fails]
  exact List.cons_ne_nil _ _

end TrinoGateway.Portals
