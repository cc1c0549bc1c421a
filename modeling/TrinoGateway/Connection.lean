/-
  TrinoGateway.Connection — one connection, message by message. `pgwire` keeps the bound
  portals and pulls the row streams; the handlers keep the stash and the slot
  (`src/query_simple.rs`, `src/query_extended.rs`, `src/trino_stream.rs`). A stream that has
  been handed to `pgwire` may be polled and dropped at any time and in any order.

  Proved: `execute_format_iff`, over every run. A forwarded result set has the formats of the
  latest Bind if and only if it does not come from a stash that was made, for the same text,
  with formats that differ on one of its columns (`stale_formats`): a Bind leaves the stash
  alone, and Execute compares only the text. What a run keeps is `StashFrom`: each stashed
  response has the formats of the Describe it stems from.
-/

import TrinoGateway.Lib.Registry
import TrinoGateway.Portals

namespace TrinoGateway.Connection

open TrinoGateway.Lib
open TrinoGateway.Types
open TrinoGateway.Sql
open TrinoGateway.Pipeline
open TrinoGateway.Portals

inductive Message where
  /-- Bind, with the text of the statement it names. -/
  | bind (portal : Portal)
  | describePortal (name : Text)
  | execute (name : Text)
  | describeStatement (query : Text)
  | query (text : Text)
  /-- `pgwire` pulls the next row of a statement. -/
  | poll (statement : ℕ)
  | drop (statement : ℕ)

structure Conn where
  session : Session
  bound : Text → Option Portal
  /-- The streams handed to `pgwire` that are neither finished nor dropped. -/
  streams : ℕ → Option TrinoRows
  /-- The portal as it was when the response in its stash was made. -/
  stashedFor : Text → Option Portal

def Conn.fresh : Conn := ⟨.fresh, fun _ => none, fun _ => none, fun _ => none⟩

def forwarded (responses : List Response) : List TrinoRows := responses.filterMap Response.trinoRows?

/-- Hand the streams of the responses to `pgwire`. -/
def deliver (streams : ℕ → Option TrinoRows) (responses : List Response) : ℕ → Option TrinoRows :=
  (forwarded responses).foldl (fun streams rows => Function.update streams rows.number (some rows)) streams

def clearSlot (c : Conn) : Conn :=
  { c with session := { c.session with link := { c.session.link with activeQueryId := none } } }

variable (G : Gateway)

/-- One poll; the guard clears the slot when the body ends. -/
def pollStream (c : Conn) (n : ℕ) : Conn :=
  match c.streams n with
  | none => c
  | some rows =>
    let stream := (rows.stream.poll G.crates).2
    match stream.phase with
    | .finished => clearSlot { c with streams := Function.update c.streams n none }
    | _ => { c with streams := Function.update c.streams n (some { rows with stream }) }

/-- Dropping a stream runs its guard if the body has started. -/
def dropStream (c : Conn) (n : ℕ) : Conn :=
  match c.streams n with
  | none => c
  | some rows =>
    let c := { c with streams := Function.update c.streams n none }
    if rows.stream.guarded then clearSlot c else c

def describe (c : Conn) (portal : Portal) : Conn :=
  let (result, session) := doDescribePortal G c.session portal
  let stashed := result.isOk ∧ Room c.session.portals portal.name
  { c with
    session
    stashedFor := if stashed then Function.update c.stashedFor portal.name (some portal) else c.stashedFor }

def execute (c : Conn) (portal : Portal) : Conn :=
  let (result, session) := doQuery G c.session portal
  { c with
    session
    streams := deliver c.streams result.toOption.toList
    stashedFor := Function.update c.stashedFor portal.name none }

def query (c : Conn) (text : Text) : Conn :=
  let (result, session) := runPipeline G c.session text none
  { c with session, streams := deliver c.streams (result.toOption.getD []) }

def step (c : Conn) : Message → Conn
  | .bind portal => { c with bound := Function.update c.bound portal.name (some portal) }
  | .describePortal name => (c.bound name).elim c (describe G c)
  | .execute name => (c.bound name).elim c (execute G c)
  | .describeStatement text => { c with session := (doDescribeStatement G c.session text).2 }
  | .query text => query G c text
  | .poll n => pollStream G c n
  | .drop n => dropStream c n

/-! ## Polls and drops -/

/-- A poll ends a stream or changes it. -/
theorem pollStream_cases (c : Conn) (n : ℕ) : c.streams n = none ∧ pollStream G c n = c ∨
    ∃ rows, c.streams n = some rows ∧
      ((rows.stream.poll G.crates).2.phase = .finished ∧
          pollStream G c n = clearSlot { c with streams := Function.update c.streams n none } ∨
        (rows.stream.poll G.crates).2.phase ≠ .finished ∧
          pollStream G c n =
            { c with
              streams := Function.update c.streams n (some { rows with stream := (rows.stream.poll G.crates).2 }) }) := by
  rw [pollStream]
  cases hs : c.streams n with
  | none => exact Or.inl ⟨rfl, rfl⟩
  | some rows =>
    refine Or.inr ⟨rows, rfl, ?_⟩
    cases hp : (rows.stream.poll G.crates).2.phase <;> simp [hp]

theorem dropStream_cases (c : Conn) (n : ℕ) : c.streams n = none ∧ dropStream c n = c ∨
    ∃ rows, c.streams n = some rows ∧
      (rows.stream.guarded = true ∧ dropStream c n = clearSlot { c with streams := Function.update c.streams n none } ∨
        rows.stream.guarded = false ∧ dropStream c n = { c with streams := Function.update c.streams n none }) := by
  rw [dropStream]
  cases hs : c.streams n with
  | none => exact Or.inl ⟨rfl, rfl⟩
  | some rows =>
    refine Or.inr ⟨rows, rfl, ?_⟩
    cases hg : rows.stream.guarded <;> simp [hg]

/-! ## Streams with the client -/

/-- The responses a message hands to `pgwire`. -/
def handed (c : Conn) : Message → List Response
  | .execute name => (c.bound name).elim [] fun portal => (doQuery G c.session portal).1.toOption.toList
  | .query text => (runPipeline G c.session text none).1.toOption.getD []
  | _ => []

theorem deliver_cases {streams : ℕ → Option TrinoRows} {responses : List Response} {n : ℕ} {rows : TrinoRows}
    (h : deliver streams responses n = some rows) :
    streams n = some rows ∨ rows ∈ forwarded responses ∧ rows.number = n := by
  rw [deliver] at h
  generalize forwarded responses = all at h ⊢
  induction all generalizing streams with
  | nil => exact Or.inl h
  | cons first all ih =>
    rcases ih h with hold | ⟨hmem, hnumber⟩
    · rcases update_eq_some hold with ⟨hn, hfirst⟩ | ⟨-, hold⟩
      · cases hfirst
        exact Or.inr ⟨List.mem_cons_self, hn.symm⟩
      · exact Or.inl hold
    · exact Or.inr ⟨List.mem_cons_of_mem first hmem, hnumber⟩

variable {G} in
/-- A stream that is with the client after a message was there before, has just been polled, or is handed over. -/
theorem step_live {c : Conn} {m : Message} {n : ℕ} {rows : TrinoRows} (h : (step G c m).streams n = some rows) :
    c.streams n = some rows ∨
      (∃ earlier, c.streams n = some earlier ∧ rows = { earlier with stream := (earlier.stream.poll G.crates).2 }) ∨
      rows ∈ forwarded (handed G c m) ∧ rows.number = n := by
  cases m with
  | bind portal => exact Or.inl h
  | describePortal name =>
    cases hb : c.bound name with
    | none => exact Or.inl (by simpa [step, hb] using h)
    | some portal => exact Or.inl (by simpa [step, hb, describe] using h)
  | execute name =>
    cases hb : c.bound name with
    | none => exact Or.inl (by simpa [step, hb] using h)
    | some portal =>
      have hdelivered : deliver c.streams (handed G c (.execute name)) n = some rows := by
        simpa [step, hb, execute, handed] using h
      exact (deliver_cases hdelivered).imp_right Or.inr
  | describeStatement text => exact Or.inl h
  | query text => exact (deliver_cases h).imp_right Or.inr
  | poll k =>
    rcases pollStream_cases G c k with ⟨-, hp⟩ | ⟨earlier, hs, ⟨-, hp⟩ | ⟨-, hp⟩⟩
    all_goals rw [step, hp] at h
    · exact Or.inl h
    · rcases update_eq_some h with ⟨-, hnone⟩ | ⟨-, hold⟩
      · cases hnone
      · exact Or.inl hold
    · rcases update_eq_some h with ⟨rfl, hpolled⟩ | ⟨-, hold⟩
      · exact Or.inr (Or.inl ⟨earlier, hs, (Option.some.inj hpolled).symm⟩)
      · exact Or.inl hold
  | drop k =>
    rcases dropStream_cases c k with ⟨-, hp⟩ | ⟨gone, -, ⟨-, hp⟩ | ⟨-, hp⟩⟩
    all_goals rw [step, hp] at h
    · exact Or.inl h
    all_goals
      rcases update_eq_some h with ⟨-, hnone⟩ | ⟨-, hold⟩
      · cases hnone
      · exact Or.inl hold

/-! ## From statements to texts -/

/-- What is told of the connection to Trino before and after statements, and of their responses, carries over from
    single statements to a text. -/
structure Runs (R : Link → Link → List Response → Prop) : Prop where
  nil : ∀ l, R l l []
  error : ∀ l info, R l l [.error info]
  append : ∀ {l l₁ l₂ responses more}, R l l₁ responses → R l₁ l₂ more → R l l₂ (responses ++ more)
  sublist : ∀ {l l₁ responses more}, R l l₁ responses → more.Sublist responses → R l l₁ more

section runs

variable {G} {R : Link → Link → List Response → Prop} {resultFormat : Option Format}

theorem Runs.succeeds (h : Runs R) (hsingle : ∀ l stmt, R l (processSingleStatement G l stmt resultFormat).2
      ((processSingleStatement G l stmt resultFormat).1.toOption.getD []))
    {l l' : Link} {stmts : List Text} {responses : List Response} (hs : Succeeds G resultFormat l stmts responses l') :
    R l l' responses := by
  induction hs with
  | nil l => exact h.nil l
  | @cons l _ _ stmt _ _ _ hs _ ih =>
    have hfirst := hsingle l stmt
    rw [hs] at hfirst
    exact h.append hfirst ih

theorem Runs.processQuery (h : Runs R) (hsingle : ∀ l stmt, R l (processSingleStatement G l stmt resultFormat).2
      ((processSingleStatement G l stmt resultFormat).1.toOption.getD [])) (l : Link) (text : Text) :
    R l (processQuery G l text resultFormat).2 ((processQuery G l text resultFormat).1.toOption.getD []) := by
  rw [Pipeline.processQuery]
  split_ifs
  · exact hsingle l text
  · rcases processBatch_spec l [] (splitStatements G text) with ⟨responses, l', hm, hb⟩ |
      ⟨_, stmt, _, responses, l₁, e, l', _, hm, hf, hb⟩
    · rw [hb]
      exact h.succeeds hsingle hm
    · have hlast := hsingle l₁ stmt
      rw [hf] at hlast
      have hall := h.append (h.succeeds hsingle hm) hlast
      rw [hb]
      cases e with
      | userError info =>
        rw [stopped, List.nil_append]
        exact h.append (h.sublist hall (List.sublist_append_left _ _)) (h.error l' info)
      | apiError message => exact h.sublist hall (List.nil_sublist _)

/-- What the handlers of the extended protocol keep of a run. -/
theorem Runs.firstResponse (h : Runs R) (hsingle : ∀ l stmt, R l (processSingleStatement G l stmt resultFormat).2
      ((processSingleStatement G l stmt resultFormat).1.toOption.getD [])) (l : Link) (text : Text) :
    R l (Pipeline.processQuery G l text resultFormat).2
      (Portals.firstResponse (Pipeline.processQuery G l text resultFormat).1).toOption.toList := by
  refine h.sublist (h.processQuery hsingle l text) ?_
  rcases (Pipeline.processQuery G l text resultFormat).1 with e | (_ | ⟨response, rest⟩)
  · exact List.nil_sublist _
  · exact List.nil_sublist _
  · exact List.singleton_sublist.mpr List.mem_cons_self

end runs

/-! ## What a run of the pipeline adds -/

/-- The columns of a forwarded result set, announced and used for its rows, have the formats that were asked for. -/
def Formatted (resultFormat : Option Format) (response : Response) : Prop :=
  ∀ schema rows, response = .query schema (.trino rows) → rows.stream.schema = schema ∧
    ∀ idx field, schema[idx]? = some field → field.format = resultFormat.elim .text (·.formatFor idx)

/-- What the connection to Trino and the responses tell of the statements submitted between `l` and `l'`: result
    sets are numbered in order, and the slot holds the id of the last statement if it has one. -/
structure Adds (resultFormat : Option Format) (l l' : Link) (responses : List Response) : Prop where
  grows : l.submitted.length ≤ l'.submitted.length
  quiet : l'.submitted.length = l.submitted.length → l'.activeQueryId = l.activeQueryId
  formats : ∀ r ∈ responses, Formatted resultFormat r
  numbers : ∀ rows ∈ forwarded responses, l.submitted.length ≤ rows.number ∧ rows.number < l'.submitted.length
  ordered : (forwarded responses).Pairwise fun rows rows' => rows.number < rows'.number
  slot : ∀ rows ∈ forwarded responses, rows.number + 1 = l'.submitted.length → l'.activeQueryId = some rows.id

variable {G} {resultFormat : Option Format} {l l₁ l₂ : Link} {responses more : List Response}

theorem forwarded_append : forwarded (responses ++ more) = forwarded responses ++ forwarded more := List.filterMap_append

theorem trinoRows?_of_local {response : Response} (h : IsLocal response) : response.trinoRows? = none := by
  cases response with
  | query schema rows =>
    cases rows with
    | static rows => rfl
    | trino rows => exact h.elim
  | execution tag => rfl
  | error info => rfl

theorem formatted_of_none {response : Response} (h : response.trinoRows? = none) : Formatted resultFormat response := by
  rintro schema rows rfl
  cases h

/-- Nothing is forwarded and nothing is submitted, but the connection may have been used otherwise. -/
theorem Adds.idle (hsub : l₁.submitted = l.submitted) (hslot : l₁.activeQueryId = l.activeQueryId)
    (hnone : ∀ r ∈ responses, r.trinoRows? = none) : Adds resultFormat l l₁ responses := by
  have hnil : forwarded responses = [] := List.filterMap_eq_nil_iff.mpr hnone
  refine ⟨by rw [hsub], fun _ => hslot, fun r hr => formatted_of_none (hnone r hr), ?_, ?_, ?_⟩
  all_goals simp [hnil]

/-- A statement was submitted and nothing is forwarded. -/
theorem Adds.sent (hsub : l₁.submitted.length = l.submitted.length + 1) (hnone : ∀ r ∈ responses, r.trinoRows? = none) :
    Adds resultFormat l l₁ responses := by
  have hnil : forwarded responses = [] := List.filterMap_eq_nil_iff.mpr hnone
  refine ⟨by omega, fun h => by omega, fun r hr => formatted_of_none (hnone r hr), ?_, ?_, ?_⟩
  all_goals simp [hnil]

/-- A statement was submitted and its result set is forwarded. -/
theorem Adds.forward {response : Response} {rows : TrinoRows} (hsub : l₁.submitted.length = l.submitted.length + 1)
    (hfmt : Formatted resultFormat response) (hrows : response.trinoRows? = some rows)
    (hnumber : rows.number = l.submitted.length) (hslot : l₁.activeQueryId = some rows.id) :
    Adds resultFormat l l₁ [response] := by
  have hone : forwarded [response] = [rows] := by simp [forwarded, hrows]
  refine ⟨by omega, fun h => by omega, List.forall_mem_singleton.mpr hfmt, ?_, ?_, ?_⟩ <;> rw [hone]
  · exact List.forall_mem_singleton.mpr (by omega)
  · exact List.pairwise_singleton _ _
  · exact List.forall_mem_singleton.mpr fun _ => hslot

theorem Adds.sublist (h : Adds resultFormat l l₁ responses) (hsub : more.Sublist responses) : Adds resultFormat l l₁ more := by
  have hf : (forwarded more).Sublist (forwarded responses) := hsub.filterMap _
  exact ⟨h.grows, h.quiet, fun r hr => h.formats r (hsub.subset hr), fun rows hr => h.numbers rows (hf.subset hr),
    h.ordered.sublist hf, fun rows hr => h.slot rows (hf.subset hr)⟩

theorem Adds.append (h : Adds resultFormat l l₁ responses) (h' : Adds resultFormat l₁ l₂ more) :
    Adds resultFormat l l₂ (responses ++ more) := by
  have hle := h.grows
  have hle' := h'.grows
  refine ⟨hle.trans hle', ?_, ?_, ?_, ?_, ?_⟩
  · intro heq
    rw [h'.quiet (by omega), h.quiet (by omega)]
  · intro r hr
    exact (List.mem_append.mp hr).elim (h.formats r) (h'.formats r)
  · intro rows hr
    rw [forwarded_append, List.mem_append] at hr
    rcases hr with hr | hr
    · have := h.numbers rows hr
      omega
    · have := h'.numbers rows hr
      omega
  · rw [forwarded_append, List.pairwise_append]
    refine ⟨h.ordered, h'.ordered, fun a ha b hb => ?_⟩
    have := h.numbers a ha
    have := h'.numbers b hb
    omega
  · intro rows hr hlast
    rw [forwarded_append, List.mem_append] at hr
    rcases hr with hr | hr
    · -- The last statement is an earlier one, so nothing was submitted after it.
      have := h.numbers rows hr
      rw [h'.quiet (by omega)]
      exact h.slot rows hr (by omega)
    · exact h'.slot rows hr hlast

theorem buildPgSchema_format {X : Crates} {columns : List TrinoColumn} {idx : ℕ} {field : FieldInfo}
    (h : (buildPgSchema X columns resultFormat)[idx]? = some field) :
    field.format = resultFormat.elim .text (·.formatFor idx) := by
  rw [buildPgSchema, List.getElem?_mapIdx] at h
  obtain ⟨col, -, rfl⟩ := Option.map_eq_some_iff.mp h
  rfl

theorem single_adds (G : Gateway) (l : Link) (stmt : Text) (resultFormat : Option Format) :
    Adds resultFormat l (processSingleStatement G l stmt resultFormat).2
      ((processSingleStatement G l stmt resultFormat).1.toOption.getD []) := by
  have hspec := processSingleStatement_spec G l stmt resultFormat
  generalize processSingleStatement G l stmt resultFormat = out at hspec
  cases hspec with
  | built hlocal => exact .idle rfl rfl (List.forall_mem_singleton.mpr (trinoRows?_of_local hlocal))
  | looked sql hlocal =>
    exact .idle (submitted_request_lookup l sql) rfl (List.forall_mem_singleton.mpr (trinoRows?_of_local hlocal))
  | failed e sql => exact .idle (submitted_request_lookup l sql) rfl (List.forall_mem_nil _)
  | submitted hsub =>
    cases hsub with
    | refused info slot => exact .sent (submitted_request_statement l _ slot) (List.forall_mem_nil _)
    | executed slot => exact .sent (submitted_request_statement l _ slot) (List.forall_mem_singleton.mpr rfl)
    | @forwarded _ id hf =>
      cases hf
      refine .forward (submitted_request_statement l _ (some id)) ?_ rfl rfl rfl
      rintro schema rows ⟨⟩
      exact ⟨rfl, fun idx field => buildPgSchema_format⟩

theorem adds_runs : Runs (Adds resultFormat) where
  nil _ := .idle rfl rfl (List.forall_mem_nil _)
  error _ _ := .idle rfl rfl (List.forall_mem_singleton.mpr rfl)
  append h h' := h.append h'
  sublist h hsub := h.sublist hsub

theorem processQuery_adds (G : Gateway) (l : Link) (text : Text) (resultFormat : Option Format) :
    Adds resultFormat l (processQuery G l text resultFormat).2 ((processQuery G l text resultFormat).1.toOption.getD []) :=
  adds_runs.processQuery (fun l stmt => single_adds G l stmt resultFormat) l text

theorem firstResponse_adds (G : Gateway) (l : Link) (text : Text) (resultFormat : Option Format) :
    Adds resultFormat l (processQuery G l text resultFormat).2
      (firstResponse (processQuery G l text resultFormat).1).toOption.toList :=
  adds_runs.firstResponse (fun l stmt => single_adds G l stmt resultFormat) l text

/-! ## Where a stashed response comes from -/

/-- The response was made for the portal as it was then. -/
def StemsFrom (entry : CachedPortalResponse) (portal : Portal) : Prop :=
  portal.query = entry.query ∧ Formatted (some portal.resultColumnFormat) entry.response

def StashFrom (c : Conn) : Prop := ∀ name, Option.Rel StemsFrom (c.session.portals.lookup name) (c.stashedFor name)

variable {c : Conn} {portal : Portal}

theorem StashFrom.stashed (h : StashFrom c) {name : Text} {entry : CachedPortalResponse}
    (hl : c.session.portals.lookup name = some entry) : ∃ d, c.stashedFor name = some d ∧ StemsFrom entry d := by
  have hrel := h name
  rw [hl] at hrel
  generalize c.stashedFor name = found at hrel
  cases hrel with
  | some hstems => exact ⟨_, rfl, hstems⟩

theorem StashFrom.entry (h : StashFrom c) {name : Text} {d : Portal} (hd : c.stashedFor name = some d) :
    ∃ entry, c.session.portals.lookup name = some entry ∧ StemsFrom entry d := by
  have hrel := h name
  rw [hd] at hrel
  generalize c.session.portals.lookup name = found at hrel
  cases hrel with
  | some hstems => exact ⟨_, rfl, hstems⟩

theorem describe_stash (h : StashFrom c) (portal : Portal) : StashFrom (describe G c portal) := by
  intro name
  rcases describe_cases (G := G) c.session portal with ⟨e, -, hd⟩ | ⟨response, rest, hr, hd⟩
  · simpa [describe, hd, Except.isOk, Except.toBool] using h name
  · have hfmt : Formatted (some portal.resultColumnFormat) response := by
      refine (processQuery_adds G c.session.link portal.query (some portal.resultColumnFormat)).formats _ ?_
      rw [hr]
      exact List.mem_cons_self
    simp only [describe, hd, Except.isOk, Except.toBool, true_and]
    by_cases hn : name = portal.name
    · subst hn
      rw [lookup_insertCached]
      split_ifs with hroom
      · rw [Function.update_self]
        exact .some ⟨rfl, hfmt⟩
      · have hnone : c.session.portals.lookup portal.name = none := AList.lookup_eq_none.mpr fun hm => hroom (Or.inr hm)
        have hrel := h portal.name
        rwa [hnone] at hrel
    · rw [lookup_insertCached_ne hn]
      split_ifs
      · rw [Function.update_of_ne hn]
        exact h name
      · exact h name

theorem execute_stash (h : StashFrom c) (portal : Portal) : StashFrom (execute G c portal) := by
  intro name
  show Option.Rel StemsFrom ((doQuery G c.session portal).2.portals.lookup name) _
  rw [execute_portals]
  by_cases hn : name = portal.name
  · subst hn
    rw [AList.lookup_erase]
    simp only [execute, Function.update_self]
    exact .none
  · rw [AList.lookup_erase_ne hn]
    simp only [execute, Function.update_of_ne hn]
    exact h name

theorem describeStatement_portals (s : Session) (text : Text) : (doDescribeStatement G s text).2.portals = s.portals := by
  rw [describeStatement_session]
  split_ifs <;> rfl

theorem step_stash (h : StashFrom c) (m : Message) : StashFrom (step G c m) := by
  cases m with
  | bind portal => exact h
  | describePortal name =>
    cases hb : c.bound name with
    | none => simpa [step, hb] using h
    | some portal => simpa [step, hb] using describe_stash h portal
  | execute name =>
    cases hb : c.bound name with
    | none => simpa [step, hb] using h
    | some portal => simpa [step, hb] using execute_stash h portal
  | describeStatement text =>
    intro name
    show Option.Rel StemsFrom ((doDescribeStatement G c.session text).2.portals.lookup name) _
    rw [describeStatement_portals]
    exact h name
  | query text => exact h
  | poll n =>
    rcases pollStream_cases G c n with ⟨-, hp⟩ | ⟨rows, -, ⟨-, hp⟩ | ⟨-, hp⟩⟩ <;> rw [step, hp] <;> exact h
  | drop n =>
    rcases dropStream_cases c n with ⟨-, hp⟩ | ⟨rows, -, ⟨-, hp⟩ | ⟨-, hp⟩⟩ <;> rw [step, hp] <;> exact h

theorem run_stash (ms : List Message) : StashFrom (run (step G) .fresh ms) :=
  run_invariant (fun _ m h => step_stash h m) fun _ => .none

/-! ## The formats of what an Execute returns -/

def Message.binds (name : Text) : Message → Option Portal
  | .bind portal => if portal.name = name then some portal else none
  | _ => none

def latestBind (ms : List Message) (name : Text) : Option Portal := ms.reverse.findSome? (·.binds name)

theorem step_bound (c : Conn) (m : Message) (name : Text) :
    (step G c m).bound name = (m.binds name).or (c.bound name) := by
  cases m with
  | bind portal =>
    by_cases h : portal.name = name
    · simp [step, Message.binds, h]
    · simp [step, Message.binds, h, Function.update_of_ne (Ne.symm h)]
  | describePortal other => cases hb : c.bound other <;> simp [step, Message.binds, hb, describe]
  | execute other => cases hb : c.bound other <;> simp [step, Message.binds, hb, execute]
  | describeStatement text => rfl
  | query text => rfl
  | poll n =>
    rcases pollStream_cases G c n with ⟨-, hp⟩ | ⟨rows, -, ⟨-, hp⟩ | ⟨-, hp⟩⟩ <;> rw [step, hp] <;> rfl
  | drop n =>
    rcases dropStream_cases c n with ⟨-, hp⟩ | ⟨rows, -, ⟨-, hp⟩ | ⟨-, hp⟩⟩ <;> rw [step, hp] <;> rfl

theorem bound_run (ms : List Message) (name : Text) : (run (step G) .fresh ms).bound name = latestBind ms name := by
  induction ms using List.reverseRecOn with
  | nil => rfl
  | append_singleton ms m ih =>
    rw [run_append, run_cons, run_nil, step_bound, ih, latestBind, latestBind, List.reverse_append]
    cases hm : m.binds name <;> simp [hm]

theorem latestBind_name {ms : List Message} {name : Text} (h : latestBind ms name = some portal) : portal.name = name := by
  obtain ⟨m, -, hm⟩ := List.exists_of_findSome?_eq_some h
  cases m with
  | bind p =>
    rw [Message.binds] at hm
    split_ifs at hm with hn
    rw [← Option.some.inj hm, hn]
  | _ => cases hm

/-- An Execute returns the response of the Describe its stash stems from, if that was for the same text, and
    otherwise one made for the portal it executes. -/
theorem execute_formatted (h : StashFrom c) {response : Response} (hexec : (doQuery G c.session portal).1 = .ok response) :
    (∃ d, c.stashedFor portal.name = some d ∧ d.query = portal.query ∧ Formatted (some d.resultColumnFormat) response) ∨
    (∀ d, c.stashedFor portal.name = some d → d.query ≠ portal.query) ∧
      Formatted (some portal.resultColumnFormat) response := by
  by_cases hs : Serves c.session portal.name portal.query
  · obtain ⟨entry, hl, hq⟩ := hs
    rw [doQuery_served hl hq] at hexec
    cases hexec
    obtain ⟨d, hd, hdq, hfmt⟩ := h.stashed hl
    exact Or.inl ⟨d, hd, hdq.trans hq, hfmt⟩
  · rw [doQuery_afresh hs] at hexec
    dsimp only at hexec
    refine Or.inr ⟨fun d hd hq => ?_, ?_⟩
    · obtain ⟨entry, hl, hdq, -⟩ := h.entry hd
      exact hs ⟨entry, hl, hdq.symm.trans hq⟩
    · refine (firstResponse_adds G c.session.link portal.query (some portal.resultColumnFormat)).formats response ?_
      rw [hexec]
      exact List.mem_singleton_self _

variable (G) in
/-- What an Execute returns, if there is such a portal. -/
def executed (c : Conn) (name : Text) : Option (PgWireResult Response) :=
  (c.bound name).map fun portal => (doQuery G c.session portal).1

theorem execute_format_iff (G : Gateway) (ms : List Message) (name : Text) {portal : Portal} {schema : Schema}
    {rows : TrinoRows} (hbind : latestBind ms name = some portal)
    (hexec : executed G (run (step G) .fresh ms) name = some (.ok (.query schema (.trino rows)))) :
    (rows.stream.schema = schema ∧
      ∀ idx field, schema[idx]? = some field → field.format = portal.resultColumnFormat.formatFor idx) ↔
    ∀ d, (run (step G) .fresh ms).stashedFor name = some d → d.query = portal.query →
      ∀ idx < schema.length, d.resultColumnFormat.formatFor idx = portal.resultColumnFormat.formatFor idx := by
  rw [executed, bound_run, hbind] at hexec
  obtain rfl := latestBind_name hbind
  rcases execute_formatted (run_stash ms) (Option.some.inj hexec) with ⟨d, hd, hq, hfmt⟩ | ⟨hother, hfmt⟩
  · obtain ⟨hschema, hfields⟩ := hfmt schema rows rfl
    constructor
    · rintro ⟨-, h⟩ d' hd' - idx hidx
      obtain rfl : d = d' := Option.some.inj (hd.symm.trans hd')
      have hfield := List.getElem?_eq_getElem hidx
      exact (hfields idx _ hfield).symm.trans (h idx _ hfield)
    · intro h
      refine ⟨hschema, fun idx field hfield => ?_⟩
      rw [hfields idx field hfield]
      exact h d hd hq idx (List.getElem?_eq_some_iff.mp hfield).1
  · exact ⟨fun _ d hd hq => absurd hq (hother d hd), fun _ => hfmt schema rows rfl⟩

/-- The formats of a forwarded result set. -/
def forwardedFormats : Option (PgWireResult Response) → Option (List FieldFormat)
  | some (.ok (.query schema (.trino _))) => some (schema.map (·.format))
  | _ => none

theorem exists_of_forwardedFormats {result : Option (PgWireResult Response)} {formats : List FieldFormat}
    (h : forwardedFormats result = some formats) :
    ∃ schema rows, result = some (.ok (.query schema (.trino rows))) ∧ schema.map (·.format) = formats := by
  rcases result with _ | e | (⟨schema, rows | rows⟩ | tag | info)
  · cases h
  · cases h
  · cases h
  · exact ⟨schema, rows, rfl, Option.some.inj h⟩
  · cases h
  · cases h

/-- The same portal, bound with one format or the other. -/
def selectPortal (format : Format) : Portal := ⟨"p".toList, "SELECT a".toList, format⟩

/-- Bound for binary and described. -/
def bindDescribe : List Message := [.bind (selectPortal .unifiedBinary), .describePortal "p".toList]

/-- Bound for text and described, and bound again for binary. -/
def bindDescribeBind : List Message :=
  [.bind (selectPortal .unifiedText), .describePortal "p".toList, .bind (selectPortal .unifiedBinary)]

theorem described_format_kept : ∃ schema rows,
    executed (splitting pickyTrino) (run (step (splitting pickyTrino)) .fresh bindDescribe) "p".toList =
      some (.ok (.query schema (.trino rows))) ∧
    rows.stream.schema = schema ∧
    ∀ idx field, schema[idx]? = some field → field.format = Format.unifiedBinary.formatFor idx := by
  have hfmt : forwardedFormats (executed (splitting pickyTrino)
      (run (step (splitting pickyTrino)) .fresh bindDescribe) "p".toList) = some [.binary] := by decide +kernel
  have hstash : (run (step (splitting pickyTrino)) .fresh bindDescribe).stashedFor "p".toList =
      some (selectPortal .unifiedBinary) := by decide +kernel
  have hbind : latestBind bindDescribe "p".toList = some (selectPortal .unifiedBinary) := by decide
  obtain ⟨schema, rows, hexec, -⟩ := exists_of_forwardedFormats hfmt
  refine ⟨schema, rows, hexec, (execute_format_iff _ bindDescribe "p".toList hbind hexec).mpr ?_⟩
  intro d hd _ idx _
  rw [hstash] at hd
  rw [← Option.some.inj hd]

/-- The Execute after it returns text. -/
theorem stale_formats :
    latestBind bindDescribeBind "p".toList = some (selectPortal .unifiedBinary) ∧
    ∃ schema rows,
      executed (splitting pickyTrino) (run (step (splitting pickyTrino)) .fresh bindDescribeBind) "p".toList =
        some (.ok (.query schema (.trino rows))) ∧
      schema.map (·.format) = [.text] := by
  refine ⟨by decide, exists_of_forwardedFormats ?_⟩
  decide +kernel

end TrinoGateway.Connection
