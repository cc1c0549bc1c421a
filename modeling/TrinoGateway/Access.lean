/-
  TrinoGateway.Access — the start of a connection and its queries together. The startup
  handler puts the client for Trino into the state of the connection (`src/startup.rs`); the
  query handlers take it from there and fail if there is none (`src/query_simple.rs`,
  `src/query_extended.rs`). `pgwire` forwards the messages of each phase to the handlers of
  the phase; nothing of that is assumed here, messages of both kinds come in any order, also
  after the connection was refused or a second session established.

  The state has a trace of what was done and sent, in order: the statements and lookups of the
  handlers, and the pages that are fetched for them, before the columns are known and whenever
  `pgwire` polls a stream. Proved, over every sequence of messages and polls:
  `requests_authorised`. Each of them is sent with a client that a session was established with
  before. If the client has a password, it is that of its user, the connection sent it, and Trino
  returned a page to a check with it before (whatever the page says, see `Startup`); if it has
  none, authentication is off and the user is the configured one. The check itself is the only
  other request of these handlers, and it is made with a password the connection sent.

  A lookup is one request here; its pages are collected by the client library. A CancelRequest
  comes on a connection of its own (`CancelRaces`).
-/

import TrinoGateway.Idle
import TrinoGateway.Paging
import TrinoGateway.Startup

namespace TrinoGateway.Access

open TrinoGateway.Lib
open TrinoGateway.Types
open TrinoGateway.Pipeline
open TrinoGateway.Portals
open TrinoGateway.Startup

/-! ## A connection -/

/-- What does not change while a connection lives; Trino may behave differently to every client. -/
structure Server where
  crates : Crates
  parser : Sql.Parser
  config : Policy.Config
  peers : Peers
  trino : ClientBuilder → Trino

structure ConnectionState where
  trinoClient : ClientBuilder
  session : Session

inductive Effect where
  | startup (action : Action)
  | request (client : ClientBuilder) (r : Request)
  /-- A page is fetched from its URI. -/
  | fetch (client : ClientBuilder) (page : Reply)

/-- The client a request of the handlers or of a stream is sent with. -/
def Effect.sender : Effect → Option ClientBuilder
  | .startup _ => none
  | .request client _ => some client
  | .fetch client _ => some client

structure Client where
  info : ClientInfo
  /-- The session extension the startup handler inserts. -/
  state : Option ConnectionState
  /-- The streams handed to `pgwire`, each with the client it fetches its pages with. -/
  streams : List (ClientBuilder × RowStream)
  trace : List Effect

def Client.connect (isSecure : Bool) : Client := ⟨.connect isSecure, none, [], []⟩

inductive Event where
  | startup (message : FrontendMessage)
  | query (text : Text)
  | describeStatement (text : Text)
  | describePortal (portal : Portal)
  | execute (portal : Portal)
  /-- `pgwire` polls one of the streams, of this or of an earlier session. -/
  | poll (stream : ℕ)

variable (S : Server)

/-- The gateway as a session with this client for Trino sees it. -/
def gateway (trinoClient : ClientBuilder) (isSecure : Bool) : Gateway where
  crates := S.crates
  parser := S.parser
  config := S.config.toConfig
  trino := S.trino trinoClient
  clientIsSecure := isSecure

def Action.established : Action → Option ClientBuilder
  | .establishSession client => some client
  | _ => none

/-- Establishing a session replaces the state of the connection. -/
def onStartupMessage (c : Client) (message : FrontendMessage) : Client :=
  let (actions, info) := onStartup S.peers S.config c.info message
  { c with
    info
    state := ((actions.findSome? Action.established).map fun trinoClient => ⟨trinoClient, .fresh⟩).or c.state
    trace := c.trace ++ actions.map .startup }

def stateNotFound : PgWireError := .apiError "Connection state not found".toList

/-- What goes out for the requests after `sent`: each one, and the pages that are fetched until columns appear. -/
def sendEffects (trino : Trino) (client : ClientBuilder) (sent : List Request) : List Request → List Effect
  | [] => []
  | .statement sql :: rest =>
    .request client (.statement sql) :: ((discoverRequests (trino.reply sent sql)).tail.map (.fetch client) ++
      sendEffects trino client (sent ++ [.statement sql]) rest)
  | .lookup sql :: rest => .request client (.lookup sql) :: sendEffects trino client (sent ++ [.lookup sql]) rest

/-- A handler that takes the state of the connection; its requests go out with the client it finds there. The streams
    among what it returns go to `pgwire`. -/
def handle {α : Type} (c : Client) (handler : Gateway → Session → PgWireResult α × Session)
    (responses : α → List Response) : PgWireResult α × Client :=
  match c.state with
  | none => (.error stateNotFound, c)
  | some state =>
    let (result, session) := handler (gateway S state.trinoClient c.info.isSecure) state.session
    let sent := state.session.link.requests
    let rows := Connection.forwarded (result.toOption.elim [] responses)
    (result,
      { c with
        state := some { state with session }
        streams := c.streams ++ rows.map fun rows => (state.trinoClient, rows.stream)
        trace := c.trace ++
          sendEffects (S.trino state.trinoClient) state.trinoClient sent (session.link.requests.drop sent.length) })

/-- A statement that returns no rows is described without looking for the state. -/
def describeStatement (c : Client) (text : Text) : PgWireResult (Option Schema) × Client :=
  if !(⟨S.parser.parseSql text⟩ : Sql.ParsedQuery).returnsRows then (.ok none, c)
  else handle S c (fun G session => doDescribeStatement G session text) fun _ => []

def pollStream (c : Client) (stream : ℕ) : Client :=
  match c.streams[stream]? with
  | none => c
  | some (client, rows) =>
    { c with
      streams := c.streams.set stream (client, (rows.poll S.crates).2)
      trace := c.trace ++ rows.requests.map (.fetch client) }

def step (c : Client) : Event → Client
  | .startup message => onStartupMessage S c message
  | .query text => (handle S c (fun G session => runPipeline G session text none) id).2
  | .describeStatement text => (describeStatement S c text).2
  | .describePortal portal => (handle S c (fun G session => doDescribePortal G session portal) fun _ => []).2
  | .execute portal => (handle S c (fun G session => doQuery G session portal) fun response => [response]).2
  | .poll stream => pollStream S c stream

/-! ## What authorises a request -/

/-- The client for Trino has been let in by what is in the trace. -/
structure Authorised (trace : List Effect) (b : ClientBuilder) : Prop where
  established : .startup (.establishSession b) ∈ trace
  open_ : b.auth = none → S.config.auth = false ∧ b.user = S.config.trinoUser
  checked : ∀ user password, b.auth = some (user, password) →
    b.user = user ∧ ∃ reply page, .startup (.checkQuery b checkQuerySql reply) ∈ trace ∧ reply.get = .ok page

/-- Everything the trace sends is authorised by what comes before it. -/
def Ordered (trace : List Effect) : Prop :=
  ∀ before e b, before ++ [e] <+: trace → e.sender = some b → Authorised S before b

variable {S} {trace more : List Effect} {b : ClientBuilder}

theorem Authorised.mono (h : Authorised S trace b) (hsub : trace ⊆ more) : Authorised S more b := by
  refine ⟨hsub h.established, h.open_, fun user password hauth => ?_⟩
  obtain ⟨huser, reply, page, hcheck, hget⟩ := h.checked user password hauth
  exact ⟨huser, reply, page, hsub hcheck, hget⟩

theorem Ordered.append (h : Ordered S trace) (hmore : ∀ e ∈ more, ∀ b, e.sender = some b → Authorised S trace b) :
    Ordered S (trace ++ more) := by
  intro before e b hprefix hsender
  rcases List.prefix_or_prefix_of_prefix hprefix (List.prefix_append trace more) with hold | hlong
  · exact h before e b hold hsender
  · -- What is sent is past `trace`, so it is in `more`, or it is the last of `trace`.
    obtain ⟨rest, hrest⟩ := hlong
    rcases List.eq_nil_or_concat rest with rfl | ⟨init, last, rfl⟩
    · rw [List.append_nil] at hrest
      exact h before e b (by rw [hrest]) hsender
    · rw [List.concat_eq_append, ← List.append_assoc] at hrest
      obtain ⟨hbefore, hlast⟩ := List.append_inj' hrest rfl
      cases hlast
      have hmem : e ∈ more := by
        rw [← hbefore, List.append_assoc] at hprefix
        exact ((List.prefix_append_right_inj trace).mp hprefix).subset (by simp)
      exact (hmore e hmem b hsender).mono (hbefore ▸ List.subset_append_left trace init)

theorem sendEffects_sender {trino : Trino} {sent requests : List Request} {e : Effect}
    (h : e ∈ sendEffects trino b sent requests) : e.sender = some b := by
  induction requests generalizing sent with
  | nil => cases h
  | cons r rest ih =>
    cases r with
    | statement sql =>
      rw [sendEffects, List.mem_cons, List.mem_append] at h
      rcases h with rfl | h | h
      · rfl
      · obtain ⟨page, -, rfl⟩ := List.mem_map.mp h
        rfl
      · exact ih h
    | lookup sql =>
      rw [sendEffects, List.mem_cons] at h
      rcases h with rfl | h
      · rfl
      · exact ih h

theorem sendEffects_request {trino : Trino} {sent requests : List Request} {r : Request} (h : r ∈ requests) :
    .request b r ∈ sendEffects trino b sent requests := by
  induction requests generalizing sent with
  | nil => cases h
  | cons first rest ih =>
    cases first with
    | statement sql =>
      rw [sendEffects]
      rcases List.mem_cons.mp h with rfl | h
      · exact List.mem_cons_self
      · exact List.mem_cons_of_mem _ (List.mem_append_right _ (ih h))
    | lookup sql =>
      rw [sendEffects]
      rcases List.mem_cons.mp h with rfl | h
      · exact List.mem_cons_self
      · exact List.mem_cons_of_mem _ (ih h)

/-! ## Messages of the startup -/

theorem buildTrinoClient_user {P : Peers} {config : Policy.Config} {user password : Option Text} {c : ClientBuilder}
    (h : buildTrinoClient P config user password = .ok c) : c.user = user.getD config.trinoUser := by
  unfold buildTrinoClient at h
  dsimp only at h
  split at h
  · cases h
  · cases h
    rfl

theorem establishSession_mem {actions : List Action} (h : actions.findSome? Action.established = some b) :
    .establishSession b ∈ actions := by
  obtain ⟨action, hmem, hestablished⟩ := List.exists_of_findSome?_eq_some h
  cases action with
  | establishSession client =>
    cases hestablished
    exact hmem
  | _ => cases hestablished

/-- A session that a message establishes is authorised by what the message led to. -/
theorem Acts.authorised {client : ClientInfo} {m : FrontendMessage} {actions : List Action}
    (h : Acts S.peers S.config client m actions) (hsession : .establishSession b ∈ actions) :
    Authorised S (actions.map .startup) b := by
  cases h with
  | opened hauth hbuild =>
    obtain rfl : b = _ := by simpa using hsession
    have hnone := buildTrinoClient_auth hbuild
    refine ⟨List.mem_map_of_mem hsession, fun _ => ⟨hauth, buildTrinoClient_user hbuild⟩, fun user password hsome => ?_⟩
    rw [hnone] at hsome
    cases hsome
  | passed hbuild hcheck =>
    obtain rfl : b = _ := by simpa using hsession
    have hsome := buildTrinoClient_auth hbuild
    refine ⟨List.mem_map_of_mem hsession, fun hnone => ?_, fun user password hauth => ?_⟩
    · rw [hnone] at hsome
      cases hsome
    · rw [hauth] at hsome
      cases hsome
      exact ⟨buildTrinoClient_user hbuild, _, _, List.mem_cons_self, hcheck⟩
  | _ => simp at hsession

/-- A check is made with the password of the message. -/
theorem Acts.check_sent {client : ClientInfo} {m : FrontendMessage} {actions : List Action} {sql : Text} {reply : Reply}
    (h : Acts S.peers S.config client m actions) (hcheck : .checkQuery b sql reply ∈ actions) :
    sql = checkQuerySql ∧ ∃ password, m = .password (.ok password) ∧ b.auth = some (b.user, password) := by
  cases h with
  | @failed password c hbuild =>
    obtain ⟨rfl, rfl, -⟩ : b = c ∧ sql = checkQuerySql ∧ _ := by simpa using hcheck
    refine ⟨rfl, password, rfl, ?_⟩
    rw [buildTrinoClient_auth hbuild, buildTrinoClient_user hbuild]
    rfl
  | @passed password c result hbuild hget =>
    obtain ⟨rfl, rfl, -⟩ : b = c ∧ sql = checkQuerySql ∧ _ := by simpa using hcheck
    refine ⟨rfl, password, rfl, ?_⟩
    rw [buildTrinoClient_auth hbuild, buildTrinoClient_user hbuild]
    rfl
  | _ => simp at hcheck

/-! ## Handlers only add requests -/

theorem runPipeline_grows (G : Gateway) (s : Session) (text : Text) (resultFormat : Option Format) :
    s.link.requests <+: (runPipeline G s text resultFormat).2.link.requests :=
  (Idle.processQuery_leaves G s.link text resultFormat).grows

theorem describeStatement_grows (G : Gateway) (s : Session) (text : Text) :
    s.link.requests <+: (doDescribeStatement G s text).2.link.requests := by
  rw [describeStatement_session]
  split_ifs
  · exact (Idle.processQuery_leaves G s.link text none).grows
  · exact List.prefix_rfl

theorem describePortal_grows (G : Gateway) (s : Session) (portal : Portal) :
    s.link.requests <+: (doDescribePortal G s portal).2.link.requests := by
  have hgrows := (Idle.processQuery_leaves G s.link portal.query (some portal.resultColumnFormat)).grows
  rcases describe_cases (G := G) s portal with ⟨e, -, hd⟩ | ⟨response, rest, -, hd⟩
  · rw [hd]
    exact hgrows
  · rw [hd]
    exact hgrows

theorem execute_grows (G : Gateway) (s : Session) (portal : Portal) :
    s.link.requests <+: (doQuery G s portal).2.link.requests := by
  by_cases hserves : Serves s portal.name portal.query
  · obtain ⟨entry, hlookup, hquery⟩ := hserves
    rw [doQuery_served hlookup hquery]
  · rw [doQuery_afresh hserves]
    exact (Idle.processQuery_leaves G s.link portal.query (some portal.resultColumnFormat)).grows

/-! ## Runs -/

/-- What every message keeps, if the passwords that come are `Sent`. -/
structure Inv (S : Server) (Sent : Text → Prop) (c : Client) : Prop where
  ordered : Ordered S c.trace
  state : ∀ state, c.state = some state → Authorised S c.trace state.trinoClient
  streams : ∀ s ∈ c.streams, Authorised S c.trace s.1
  told : ∀ state, c.state = some state → ∀ r ∈ state.session.link.requests, .request state.trinoClient r ∈ c.trace
  checks : ∀ b sql reply, .startup (.checkQuery b sql reply) ∈ c.trace →
    sql = checkQuerySql ∧ ∃ password, b.auth = some (b.user, password) ∧ Sent password

variable {c : Client} {Sent : Text → Prop}

theorem onStartupMessage_inv (h : Inv S Sent c) (message : FrontendMessage)
    (hsent : ∀ password, message = .password (.ok password) → Sent password) :
    Inv S Sent (onStartupMessage S c message) := by
  have hacts : Acts S.peers S.config c.info message (onStartup S.peers S.config c.info message).1 :=
    onStartup_acts c.info message
  unfold onStartupMessage
  generalize onStartup S.peers S.config c.info message = out at hacts
  obtain ⟨actions, info⟩ := out
  have hordered : Ordered S (c.trace ++ actions.map .startup) := by
    refine h.ordered.append fun e he b hsender => ?_
    obtain ⟨action, -, rfl⟩ := List.mem_map.mp he
    cases hsender
  have hstreams : ∀ s ∈ c.streams, Authorised S (c.trace ++ actions.map .startup) s.1 := fun s hs =>
    (h.streams s hs).mono (List.subset_append_left _ _)
  have hchecks : ∀ b sql reply, .startup (.checkQuery b sql reply) ∈ c.trace ++ actions.map .startup →
      sql = checkQuerySql ∧ ∃ password, b.auth = some (b.user, password) ∧ Sent password := by
    intro b sql reply hmem
    rcases List.mem_append.mp hmem with hold | hnew
    · exact h.checks b sql reply hold
    · obtain ⟨action, haction, heq⟩ := List.mem_map.mp hnew
      cases heq
      obtain ⟨hsql, password, hm, hauth⟩ := Acts.check_sent hacts haction
      exact ⟨hsql, password, hauth, hsent password hm⟩
  dsimp only
  cases hfound : actions.findSome? Action.established with
  | none =>
    refine ⟨hordered, fun state hstate => ?_, hstreams, fun state hstate r hr => ?_, hchecks⟩
    · exact (h.state state hstate).mono (List.subset_append_left _ _)
    · exact List.mem_append_left _ (h.told state hstate r hr)
  | some b =>
    refine ⟨hordered, fun state hstate => ?_, hstreams, fun state hstate r hr => ?_, hchecks⟩
    · cases hstate
      exact (Acts.authorised hacts (establishSession_mem hfound)).mono (List.subset_append_right _ _)
    · cases hstate
      cases hr

/-- What is sent with one client makes no check. -/
theorem checks_append (h : Inv S Sent c) (hmore : ∀ e ∈ more, e.sender = some b) (b' : ClientBuilder) (sql : Text)
    (reply : Reply) (hmem : .startup (.checkQuery b' sql reply) ∈ c.trace ++ more) :
    sql = checkQuerySql ∧ ∃ password, b'.auth = some (b'.user, password) ∧ Sent password := by
  rcases List.mem_append.mp hmem with hold | hnew
  · exact h.checks b' sql reply hold
  · cases hmore _ hnew

theorem handle_inv {α : Type} {handler : Gateway → Session → PgWireResult α × Session} {responses : α → List Response}
    (hgrows : ∀ G s, s.link.requests <+: (handler G s).2.link.requests) (h : Inv S Sent c) :
    Inv S Sent (handle S c handler responses).2 := by
  unfold handle
  cases hstate : c.state with
  | none => exact h
  | some state =>
    have hauthorised := h.state state hstate
    have htold := h.told state hstate
    have hprefix := hgrows (gateway S state.trinoClient c.info.isSecure) state.session
    dsimp only
    generalize handler (gateway S state.trinoClient c.info.isSecure) state.session = out at hprefix
    obtain ⟨result, session⟩ := out
    obtain ⟨requests, hrequests⟩ := hprefix
    change _ = session.link.requests at hrequests
    have hdrop : session.link.requests.drop state.session.link.requests.length = requests := by
      rw [← hrequests, List.drop_left]
    rw [hdrop]
    have hsender : ∀ e ∈ sendEffects (S.trino state.trinoClient) state.trinoClient state.session.link.requests requests,
        e.sender = some state.trinoClient := fun e he => sendEffects_sender he
    refine ⟨h.ordered.append fun e he b hb => ?_, fun state' hstate' => ?_, fun s hs => ?_,
      fun state' hstate' r hr => ?_, checks_append h hsender⟩
    · cases (hsender e he).symm.trans hb
      exact hauthorised
    · cases hstate'
      exact hauthorised.mono (List.subset_append_left _ _)
    · rcases List.mem_append.mp hs with hold | hnew
      · exact (h.streams s hold).mono (List.subset_append_left _ _)
      · obtain ⟨rows, -, rfl⟩ := List.mem_map.mp hnew
        exact hauthorised.mono (List.subset_append_left _ _)
    · cases hstate'
      change r ∈ session.link.requests at hr
      rw [← hrequests] at hr
      rcases List.mem_append.mp hr with hold | hnew
      · exact List.mem_append_left _ (htold r hold)
      · exact List.mem_append_right _ (sendEffects_request hnew)

theorem pollStream_inv (h : Inv S Sent c) (stream : ℕ) : Inv S Sent (pollStream S c stream) := by
  unfold pollStream
  cases hs : c.streams[stream]? with
  | none => exact h
  | some entry =>
    obtain ⟨client, rows⟩ := entry
    have hauthorised := h.streams (client, rows) (List.mem_of_getElem? hs)
    have hsender : ∀ e ∈ rows.requests.map (Effect.fetch client), e.sender = some client := by
      intro e he
      obtain ⟨page, -, rfl⟩ := List.mem_map.mp he
      rfl
    refine ⟨h.ordered.append fun e he b hb => ?_, fun state hstate => ?_, fun s hmem => ?_, fun state hstate r hr => ?_,
      checks_append h hsender⟩
    · cases (hsender e he).symm.trans hb
      exact hauthorised
    · exact (h.state state hstate).mono (List.subset_append_left _ _)
    · rcases List.mem_or_eq_of_mem_set hmem with hold | rfl
      · exact (h.streams s hold).mono (List.subset_append_left _ _)
      · exact hauthorised.mono (List.subset_append_left _ _)
    · exact List.mem_append_left _ (h.told state hstate r hr)

theorem step_inv (c : Client) (event : Event) (h : Inv S Sent c)
    (hsent : ∀ password, event = .startup (.password (.ok password)) → Sent password) : Inv S Sent (step S c event) := by
  cases event with
  | startup message => exact onStartupMessage_inv h message fun password hm => hsent password (by rw [hm])
  | query text => exact handle_inv (fun G s => runPipeline_grows G s text none) h
  | describeStatement text =>
    show Inv S Sent (describeStatement S c text).2
    unfold describeStatement
    split_ifs
    · exact h
    · exact handle_inv (fun G s => describeStatement_grows G s text) h
  | describePortal portal => exact handle_inv (fun G s => describePortal_grows G s portal) h
  | execute portal => exact handle_inv (fun G s => execute_grows G s portal) h
  | poll stream => exact pollStream_inv h stream

theorem connect_inv (isSecure : Bool) : Inv S Sent (.connect isSecure) := by
  refine ⟨fun before e b hprefix => ?_, fun state hstate => ?_, fun s hs => ?_, fun state hstate => ?_,
    fun b sql reply hmem => ?_⟩
  · exact absurd (List.append_eq_nil_iff.mp (List.prefix_nil.mp hprefix)).2 (List.cons_ne_nil _ _)
  · cases hstate
  · cases hs
  · cases hstate
  · cases hmem

/-- Every request of a session is in the trace; everything the handlers and the streams send is authorised by what
    comes before it in the trace; and a check is made with a password that came with a message. -/
theorem requests_authorised (S : Server) (isSecure : Bool) (events : List Event) :
    let c := run (step S) (.connect isSecure) events
    (∀ state, c.state = some state → ∀ r ∈ state.session.link.requests, .request state.trinoClient r ∈ c.trace) ∧
      (∀ before e b, before ++ [e] <+: c.trace → e.sender = some b →
        .startup (.establishSession b) ∈ before ∧
        (b.auth = none → S.config.auth = false ∧ b.user = S.config.trinoUser) ∧
        ∀ user password, b.auth = some (user, password) → b.user = user ∧
          ∃ reply page, .startup (.checkQuery b checkQuerySql reply) ∈ before ∧ reply.get = .ok page) ∧
      ∀ b sql reply, .startup (.checkQuery b sql reply) ∈ c.trace → sql = checkQuerySql ∧
        ∃ password, b.auth = some (b.user, password) ∧ .startup (.password (.ok password)) ∈ events := by
  intro c
  have halong : Along (step S) (fun _ event => event ∈ events) (.connect isSecure) events :=
    along_of_forall fun event hmem => hmem
  have hinv : Inv S (fun password => .startup (.password (.ok password)) ∈ events) c :=
    halong.invariant (fun c event h hmem => step_inv c event h fun password hm => hm ▸ hmem) (connect_inv isSecure)
  refine ⟨hinv.told, fun before e b hprefix hsender => ?_, hinv.checks⟩
  have hauthorised := hinv.ordered before e b hprefix hsender
  exact ⟨hauthorised.established, hauthorised.open_, hauthorised.checked⟩

/-- Trino answers every statement with a page of columns, and a second one with a row. -/
def twoPageTrino : Trino where
  reply _ _ :=
    .more ⟨"q0".toList, some [⟨"x".toList, "integer".toList⟩], none, none⟩
      (.last ⟨"q0".toList, none, some (.direct [[.null]]), none⟩)
  getAll _ _ := .ok []

/-- Passwords are asked for. -/
def passwordServer : Server where
  crates := plainCrates
  parser := (splitting twoPageTrino).parser
  config := localConfig
  peers := friendlyPeers
  trino _ := twoPageTrino

/-- A query comes too early and is lost; the next one is sent with the password, and a page of it is fetched. -/
def earlyThenLate : List Event :=
  [.query "SELECT early".toList, .startup clientStarts, .startup (.password (.ok "pw".toList)),
    .query "SELECT a".toList, .poll 0]

theorem late_page_authorised : ∃ before b page,
    before ++ [.fetch b page] <+: (run (step passwordServer) (.connect false) earlyThenLate).trace ∧
      b.auth = some ("etl".toList, "pw".toList) ∧
      ∃ reply result, .startup (.checkQuery b checkQuerySql reply) ∈ before ∧ reply.get = .ok result := by
  obtain ⟨-, hordered, -⟩ := requests_authorised passwordServer false earlyThenLate
  have hfetch : ((run (step passwordServer) (.connect false) earlyThenLate).trace.findSome? fun
      | .fetch b _ => some b.auth
      | _ => none) = some (some ("etl".toList, "pw".toList)) := by decide +kernel
  obtain ⟨e, hmem, heq⟩ := List.exists_of_findSome?_eq_some hfetch
  cases e with
  | fetch b page =>
    have hauth := Option.some.inj heq
    obtain ⟨before, after, htrace⟩ := List.append_of_mem hmem
    have hprefix : before ++ [.fetch b page] <+: (run (step passwordServer) (.connect false) earlyThenLate).trace := by
      rw [htrace]
      exact ⟨after, by rw [List.append_assoc, List.singleton_append]⟩
    exact ⟨before, b, page, hprefix, hauth, ((hordered before _ b hprefix rfl).2.2 _ _ hauth).2⟩
  | _ => cases heq

end TrinoGateway.Access
