/-
  TrinoGateway.CancelRaces — the cancel registry under the interleavings of its users.

  `CancelRegistry` takes an establishment and a CancelRequest in one step each. Here they are
  what the threads do between two locks. A session takes its pid, registers, and is then put
  among the connection's extensions, whose drop removes the state it replaces; there is no
  await between these, so a connection is not closed in the midst of them, but other threads
  run, and sessions may register in another order than they took their pids in. A handler of
  a CancelRequest looks the pair up and lets go of the registry, locks the cell it found and
  clones the query id, and sends the cancel; anything may happen in between.

  The last four fields of `World` are a history and decide nothing: the pairs taken, the
  sessions registered, what was recorded in the cells, and the cancels sent with the pairs
  they named.

  Proved: `serial_run`: a run in which each operation takes its steps together is the run of
  `CancelRegistry`.
  `cancels_routed`, over every run: a cancel goes by the Trino client of a session whose pair
  was named, and for a query that was recorded in the cell of that session, which no other
  session has; and an entry of the registry is one of a session that is live or is being
  established, so none is left behind.
-/

import TrinoGateway.Lib.Registry
import TrinoGateway.CancelRegistry

namespace TrinoGateway.CancelRaces

open TrinoGateway.Lib TrinoGateway.CancelRegistry

/-! ## The steps -/

/-- A session on its way to the connection's extensions. -/
inductive Establishing (Client : Type) where
  | allocated (trinoClient : Client) (key : CancelKey)
  | registered (state : ConnectionState Client)

/-- A CancelRequest on its way to Trino. -/
inductive Handler (Client : Type) where
  | idle
  | found (key : CancelKey) (trinoClient : Client) (activeQueryId : ℕ)
  | cancelling (key : CancelKey) (trinoClient : Client) (queryId : Text)

structure World (Client : Type) where
  process : Process Client
  establishing : ℕ → Option (Establishing Client)
  handlers : ℕ → Handler Client
  keys : List CancelKey
  sessions : List (ConnectionState Client)
  recorded : List (ℕ × Text)
  sent : List (CancelKey × Client × Text)

variable {Client : Type}

def World.start : World Client := ⟨.start, fun _ => none, fun _ => .idle, [], [], [], []⟩

inductive Event (Client : Type) where
  | allocate (conn : ℕ) (trinoClient : Client) (secret : BitVec 32)
  | register (conn : ℕ)
  | store (conn : ℕ)
  | close (conn : ℕ)
  | record (slot : ℕ) (queryId : Option Text)
  | request (handler : ℕ) (pid : BitVec 32) (secretKey : SecretKey)
  | read (handler : ℕ)
  | send (handler : ℕ)

def allocate (w : World Client) (conn : ℕ) (trinoClient : Client) (secret : BitVec 32) : World Client :=
  match w.establishing conn with
  | some _ => w
  | none =>
    let allocated := newPidAndSecretKey w.process secret
    { w with
      process := allocated.2
      establishing := Function.update w.establishing conn (some (.allocated trinoClient allocated.1))
      keys := w.keys ++ [allocated.1] }

def register (w : World Client) (conn : ℕ) : World Client :=
  match w.establishing conn with
  | some (.allocated trinoClient key) =>
    let registered := registerCancel w.process key trinoClient
    let state : ConnectionState Client := ⟨trinoClient, registered.1, key⟩
    { w with
      process := registered.2
      establishing := Function.update w.establishing conn (some (.registered state))
      sessions := w.sessions ++ [state] }
  | _ => w

def store (w : World Client) (conn : ℕ) : World Client :=
  match w.establishing conn with
  | some (.registered state) =>
    let stored := { w.process with connections := Function.update w.process.connections conn (some state) }
    { w with
      process := dropState stored (w.process.connections conn)
      establishing := Function.update w.establishing conn none }
  | _ => w

def close (w : World Client) (conn : ℕ) : World Client :=
  match w.establishing conn with
  | some _ => w
  | none => { w with process := closeConnection w.process conn }

def record (w : World Client) (slot : ℕ) (queryId : Option Text) : World Client :=
  { w with
    process := { w.process with slots := w.process.slots.set slot queryId }
    recorded := w.recorded ++ if slot < w.process.slots.length then queryId.toList.map (slot, ·) else [] }

def setHandler (w : World Client) (handler : ℕ) (now : Handler Client) : World Client :=
  { w with handlers := Function.update w.handlers handler now }

def request (w : World Client) (handler : ℕ) (pid : BitVec 32) (secretKey : SecretKey) : World Client :=
  match w.handlers handler, lookupCancel w.process pid secretKey with
  | .idle, some (trinoClient, activeQueryId) =>
    setHandler w handler (.found (pid, secretKey) trinoClient activeQueryId)
  | _, _ => w

def read (w : World Client) (handler : ℕ) : World Client :=
  match w.handlers handler with
  | .found key trinoClient activeQueryId =>
    match w.process.slots.getD activeQueryId none with
    | none => setHandler w handler .idle
    | some qid => setHandler w handler (.cancelling key trinoClient qid)
  | _ => w

def send (w : World Client) (handler : ℕ) : World Client :=
  match w.handlers handler with
  | .cancelling key trinoClient qid =>
    { setHandler w handler .idle with
      process := { w.process with cancelled := w.process.cancelled ++ [(trinoClient, qid)] }
      sent := w.sent ++ [(key, trinoClient, qid)] }
  | _ => w

def step (w : World Client) : Event Client → World Client
  | .allocate conn trinoClient secret => allocate w conn trinoClient secret
  | .register conn => register w conn
  | .store conn => store w conn
  | .close conn => close w conn
  | .record slot queryId => record w slot queryId
  | .request handler pid secretKey => request w handler pid secretKey
  | .read handler => read w handler
  | .send handler => send w handler

/-! ## What the steps of a handler do -/

variable {w : World Client} {handler : ℕ} {pid : BitVec 32} {secretKey : SecretKey} {key : CancelKey}
  {trinoClient : Client} {cell : ℕ} {qid : Text}

@[simp] theorem setHandler_self (w : World Client) (handler : ℕ) (now : Handler Client) :
    (setHandler w handler now).handlers handler = now :=
  Function.update_self ..

theorem request_found (hidle : w.handlers handler = .idle)
    (hfound : lookupCancel w.process pid secretKey = some (trinoClient, cell)) :
    request w handler pid secretKey = setHandler w handler (.found (pid, secretKey) trinoClient cell) := by
  simp only [request, hidle, hfound]

theorem request_unknown (hfound : lookupCancel w.process pid secretKey = none) :
    request w handler pid secretKey = w := by
  unfold request
  cases w.handlers handler <;> simp [hfound]

theorem read_running (h : w.handlers handler = .found key trinoClient cell)
    (hslot : w.process.slots.getD cell none = some qid) :
    read w handler = setHandler w handler (.cancelling key trinoClient qid) := by
  simp only [read, h, hslot]

theorem read_idle (h : w.handlers handler = .found key trinoClient cell)
    (hslot : w.process.slots.getD cell none = none) : read w handler = setHandler w handler .idle := by
  simp only [read, h, hslot]

theorem send_cancelling (h : w.handlers handler = .cancelling key trinoClient qid) :
    send w handler =
      { setHandler w handler .idle with
        process := { w.process with cancelled := w.process.cancelled ++ [(trinoClient, qid)] }
        sent := w.sent ++ [(key, trinoClient, qid)] } := by
  simp only [send, h]

theorem send_idle (h : w.handlers handler = .idle) : send w handler = w := by
  simp only [send, h]

/-! ## Steps taken together -/

/-- With no other thread in between, the three steps of a session are the one of `CancelRegistry`. -/
theorem establish_together (conn : ℕ) (trinoClient : Client) (secret : BitVec 32) (h : w.establishing conn = none) :
    (run step w [.allocate conn trinoClient secret, .register conn, .store conn]).process =
      establishSession w.process conn trinoClient secret := by
  simp [step, allocate, register, store, h, establishSession, newPidAndSecretKey, registerCancel]

theorem cancel_together (handler : ℕ) (pid : BitVec 32) (secretKey : SecretKey) (h : w.handlers handler = .idle) :
    (run step w [.request handler pid secretKey, .read handler, .send handler]).process =
      onCancelRequest w.process pid secretKey := by
  unfold onCancelRequest
  simp only [run_cons, run_nil, step]
  cases hfound : lookupCancel w.process pid secretKey with
  | none =>
    have hread : read w handler = w := by simp only [read, h]
    rw [request_unknown hfound, hread, send_idle h]
  | some entry =>
    obtain ⟨trinoClient, cell⟩ := entry
    rw [request_found h hfound]
    cases hslot : w.process.slots.getD cell none with
    | none =>
      rw [read_idle (setHandler_self ..) hslot, send_idle (setHandler_self ..)]
      simp only [hslot, setHandler]
    | some qid =>
      rw [read_running (setHandler_self ..) hslot, send_cancelling (setHandler_self ..)]
      simp only [hslot, setHandler]

/-- Nobody is in the midst of an operation. -/
def AtRest (w : World Client) : Prop := (∀ conn, w.establishing conn = none) ∧ ∀ handler, w.handlers handler = .idle

/-- The steps of an operation of `CancelRegistry`. -/
def serial : CancelRegistry.Event Client → List (Event Client)
  | .establish conn trinoClient secret => [.allocate conn trinoClient secret, .register conn, .store conn]
  | .close conn => [.close conn]
  | .record slot queryId => [.record slot queryId]
  | .cancelRequest pid secretKey => [.request 0 pid secretKey, .read 0, .send 0]

theorem atRest_establish (conn : ℕ) (trinoClient : Client) (secret : BitVec 32) (h : AtRest w) :
    AtRest (run step w [.allocate conn trinoClient secret, .register conn, .store conn]) := by
  refine ⟨?_, ?_⟩
  · intro c
    by_cases hc : c = conn
    · simp [step, allocate, register, store, h.1 conn, hc]
    · simp [step, allocate, register, store, h.1, hc]
  · intro handler
    simp [step, allocate, register, store, h.1 conn, h.2 handler]

theorem setHandler_idle (h : ∀ handler, w.handlers handler = .idle) (now : Handler Client) (other : ℕ) :
    (setHandler (setHandler w handler now) handler .idle).handlers other = .idle := by
  by_cases hother : other = handler
  · rw [hother, setHandler_self]
  · simp only [setHandler, Function.update_of_ne hother]
    exact h other

theorem atRest_cancel (h : AtRest w) :
    AtRest (run step w [.request handler pid secretKey, .read handler, .send handler]) := by
  simp only [run_cons, run_nil, step]
  cases hfound : lookupCancel w.process pid secretKey with
  | none =>
    have hread : read w handler = w := by simp only [read, h.2 handler]
    rw [request_unknown hfound, hread, send_idle (h.2 handler)]
    exact h
  | some entry =>
    obtain ⟨trinoClient, cell⟩ := entry
    rw [request_found (h.2 handler) hfound]
    cases hslot : w.process.slots.getD cell none with
    | none =>
      rw [read_idle (setHandler_self ..) hslot, send_idle (setHandler_self ..)]
      exact ⟨h.1, setHandler_idle h.2 _⟩
    | some qid =>
      rw [read_running (setHandler_self ..) hslot, send_cancelling (setHandler_self ..)]
      refine ⟨h.1, ?_⟩
      intro other
      by_cases hother : other = handler
      · rw [hother]
        exact Function.update_self ..
      · simp only [setHandler, Function.update_of_ne hother]
        exact h.2 other

theorem serial_step (h : AtRest w) (e : CancelRegistry.Event Client) :
    (run step w (serial e)).process = CancelRegistry.step w.process e ∧ AtRest (run step w (serial e)) := by
  cases e with
  | establish conn trinoClient secret =>
    exact ⟨establish_together conn trinoClient secret (h.1 conn), atRest_establish conn trinoClient secret h⟩
  | close conn =>
    have hclose : close w conn = { w with process := closeConnection w.process conn } := by
      simp only [close, h.1 conn]
    simp only [serial, run_cons, run_nil, step, hclose]
    exact ⟨rfl, h⟩
  | record slot queryId => exact ⟨rfl, h⟩
  | cancelRequest pid secretKey => exact ⟨cancel_together 0 pid secretKey (h.2 0), atRest_cancel h⟩

theorem serial_run (events : List (CancelRegistry.Event Client)) (h : AtRest w) :
    (run step w (events.flatMap serial)).process = run CancelRegistry.step w.process events := by
  induction events generalizing w with
  | nil => rfl
  | cons e events ih =>
    obtain ⟨hprocess, hrest⟩ := serial_step h e
    rw [List.flatMap_cons, run_append, ih hrest, hprocess, run_cons]

/-! ## Who holds a session -/

def found (w : World Client) (key : CancelKey) : Option (CancelEntry Client) := w.process.cancelRegistry.lookup key

/-- What a connection registered: `.inl conn` has the live session, and `.inr conn` the one
    that is about to take its place. -/
def holds (w : World Client) : ℕ ⊕ ℕ → Option (CancelKey × CancelEntry Client)
  | .inl conn => (w.process.connections conn).map fun state => (state.cancelKey, state.entry)
  | .inr conn =>
    match w.establishing conn with
    | some (.registered state) => some (state.cancelKey, state.entry)
    | _ => none

variable {conn : ℕ} {secret : BitVec 32} {state old : ConnectionState Client}

theorem allocate_eq (h : w.establishing conn = none) : allocate w conn trinoClient secret =
    { w with
      process := { w.process with connectionPid := w.process.connectionPid + 1 }
      establishing := Function.update w.establishing conn
        (some (.allocated trinoClient (w.process.connectionPid, .i32 secret)))
      keys := w.keys ++ [(w.process.connectionPid, .i32 secret)] } := by
  simp only [allocate, h, newPidAndSecretKey]

theorem holds_allocate (h : w.establishing conn = none) : holds (allocate w conn trinoClient secret) = holds w := by
  rw [allocate_eq h]
  funext i
  cases i with
  | inl c => rfl
  | inr c =>
    by_cases hc : c = conn
    · simp [holds, hc, h]
    · simp [holds, hc]

theorem holds_allocated (h : w.establishing conn = some (.allocated trinoClient key)) : holds w (.inr conn) = none := by
  simp only [holds, h]

theorem found_register (h : w.establishing conn = some (.allocated trinoClient key)) :
    found (register w conn) = Function.update (found w) key (some ⟨trinoClient, w.process.slots.length⟩) := by
  simp only [register, h, registerCancel]
  exact lookup_insert_eq _ _ _

theorem holds_register (h : w.establishing conn = some (.allocated trinoClient key)) :
    holds (register w conn) =
      Function.update (holds w) (.inr conn) (some (key, ⟨trinoClient, w.process.slots.length⟩)) := by
  funext i
  cases i with
  | inl c => simp [holds, register, h, registerCancel]
  | inr c =>
    by_cases hc : c = conn
    · simp [holds, register, h, registerCancel, hc, ConnectionState.entry]
    · simp [holds, register, h, registerCancel, hc]

theorem holds_registered (h : w.establishing conn = some (.registered state)) :
    holds w (.inr conn) = some (state.cancelKey, state.entry) := by
  simp only [holds, h]

theorem holds_live (h : w.process.connections conn = some state) :
    holds w (.inl conn) = some (state.cancelKey, state.entry) := by
  simp only [holds, h, Option.map_some]

/-- The connection lets its session go. -/
def letGo (w : World Client) (conn : ℕ) : World Client := { w with process := closeConnection w.process conn }

theorem found_letGo (h : w.process.connections conn = some old) :
    found (letGo w conn) = Function.update (found w) old.cancelKey none := by
  simp only [letGo, closeConnection, h, dropState, unregisterCancel]
  exact lookup_erase_eq _ _

theorem holds_letGo : holds (letGo w conn) = Function.update (holds w) (.inl conn) none := by
  funext i
  cases i with
  | inl c =>
    by_cases hc : c = conn
    · simp [holds, letGo, closeConnection_connections, hc]
    · simp [holds, letGo, closeConnection_connections, hc]
  | inr c => simp [holds, letGo]

theorem letGo_none (h : w.process.connections conn = none) : letGo w conn = w := by
  have hsame : Function.update w.process.connections conn none = w.process.connections := by
    rw [← h, Function.update_eq_self]
  simp only [letGo, closeConnection, h, dropState, hsame]

/-- Storing a session is letting go of the old one, and then a change of hands. -/
theorem found_store (h : w.establishing conn = some (.registered state)) :
    found (store w conn) = found (letGo w conn) := by
  simp only [store, h, letGo, closeConnection]
  cases w.process.connections conn <;> rfl

theorem holds_store (h : w.establishing conn = some (.registered state)) :
    holds (store w conn) =
      Function.update (Function.update (holds (letGo w conn)) (.inr conn) none) (.inl conn)
        (some (state.cancelKey, state.entry)) := by
  rw [holds_letGo]
  funext i
  cases i with
  | inl c =>
    by_cases hc : c = conn
    · simp [holds, store, h, hc]
    · simp [holds, store, h, hc]
  | inr c =>
    by_cases hc : c = conn
    · simp [holds, store, h, hc]
    · simp [holds, store, h, hc]

/-- What a step can do. -/
inductive Steps (w : World Client) : World Client → Prop
  | idle : Steps w w
  | allocated (conn : ℕ) (trinoClient : Client) (secret : BitVec 32) : w.establishing conn = none →
      Steps w (allocate w conn trinoClient secret)
  | registered (conn : ℕ) (trinoClient : Client) (key : CancelKey) :
      w.establishing conn = some (.allocated trinoClient key) → Steps w (register w conn)
  | stored (conn : ℕ) (state : ConnectionState Client) : w.establishing conn = some (.registered state) →
      Steps w (store w conn)
  | closed (conn : ℕ) : w.establishing conn = none → Steps w (letGo w conn)
  | recorded (slot : ℕ) (queryId : Option Text) : Steps w (record w slot queryId)
  | found (handler : ℕ) (pid : BitVec 32) (secretKey : SecretKey) (trinoClient : Client) (cell : ℕ) :
      w.handlers handler = .idle → lookupCancel w.process pid secretKey = some (trinoClient, cell) →
      Steps w (setHandler w handler (.found (pid, secretKey) trinoClient cell))
  | running (handler : ℕ) (key : CancelKey) (trinoClient : Client) (cell : ℕ) (qid : Text) :
      w.handlers handler = .found key trinoClient cell → w.process.slots.getD cell none = some qid →
      Steps w (setHandler w handler (.cancelling key trinoClient qid))
  | ignored (handler : ℕ) : Steps w (setHandler w handler .idle)
  | sent (handler : ℕ) (key : CancelKey) (trinoClient : Client) (qid : Text) :
      w.handlers handler = .cancelling key trinoClient qid → Steps w (send w handler)

theorem allocate_steps (w : World Client) (conn : ℕ) (trinoClient : Client) (secret : BitVec 32) :
    Steps w (allocate w conn trinoClient secret) := by
  cases hstage : w.establishing conn with
  | none => exact .allocated conn trinoClient secret hstage
  | some stage =>
    simp only [allocate, hstage]
    exact .idle

theorem register_steps (w : World Client) (conn : ℕ) : Steps w (register w conn) := by
  rcases hstage : w.establishing conn with _ | ⟨trinoClient, key⟩ | state
  · simp only [register, hstage]
    exact .idle
  · exact .registered conn trinoClient key hstage
  · simp only [register, hstage]
    exact .idle

theorem store_steps (w : World Client) (conn : ℕ) : Steps w (store w conn) := by
  rcases hstage : w.establishing conn with _ | ⟨trinoClient, key⟩ | state
  · simp only [store, hstage]
    exact .idle
  · simp only [store, hstage]
    exact .idle
  · exact .stored conn state hstage

theorem close_steps (w : World Client) (conn : ℕ) : Steps w (close w conn) := by
  cases hstage : w.establishing conn with
  | none =>
    simp only [close, hstage]
    exact .closed conn hstage
  | some stage =>
    simp only [close, hstage]
    exact .idle

theorem request_steps (w : World Client) (handler : ℕ) (pid : BitVec 32) (secretKey : SecretKey) :
    Steps w (request w handler pid secretKey) := by
  unfold request
  split
  · exact .found handler pid secretKey _ _ ‹_› ‹_›
  · exact .idle

theorem read_steps (w : World Client) (handler : ℕ) : Steps w (read w handler) := by
  unfold read
  split
  · split
    · exact .ignored handler
    · exact .running handler _ _ _ _ ‹_› ‹_›
  · exact .idle

theorem send_steps (w : World Client) (handler : ℕ) : Steps w (send w handler) := by
  rcases hstage : w.handlers handler with _ | ⟨key, trinoClient, cell⟩ | ⟨key, trinoClient, qid⟩
  · rw [send_idle hstage]
    exact .idle
  · simp only [send, hstage]
    exact .idle
  · exact .sent handler key trinoClient qid hstage

theorem step_steps (w : World Client) (e : Event Client) : Steps w (step w e) := by
  cases e with
  | allocate conn trinoClient secret => exact allocate_steps w conn trinoClient secret
  | register conn => exact register_steps w conn
  | store conn => exact store_steps w conn
  | close conn => exact close_steps w conn
  | record slot queryId => exact .recorded slot queryId
  | request handler pid secretKey => exact request_steps w handler pid secretKey
  | read handler => exact read_steps w handler
  | send handler => exact send_steps w handler

/-! ## Sessions and their cells -/

/-- The sessions are numbered by their cells, and what is found is held by one of them. -/
structure Sourced (w : World Client) : Prop where
  backed : Backed (found w) (holds w)
  cells : w.process.slots.length = w.sessions.length
  numbered : ∀ (i : ℕ) (state : ConnectionState Client), w.sessions[i]? = some state → state.activeQueryId = i
  held : ∀ i key entry, holds w i = some (key, entry) → ⟨entry.trinoClient, entry.activeQueryId, key⟩ ∈ w.sessions

variable {w' : World Client}

theorem Sourced.same (h : Sourced w) (hfound : found w' = found w) (hholds : holds w' = holds w)
    (hsessions : w'.sessions = w.sessions) (hslots : w'.process.slots.length = w.process.slots.length) :
    Sourced w' where
  backed := by rw [hfound, hholds]; exact h.backed
  cells := by rw [hslots, hsessions]; exact h.cells
  numbered := by rw [hsessions]; exact h.numbered
  held := by rw [hholds, hsessions]; exact h.held

theorem register_sessions (h : w.establishing conn = some (.allocated trinoClient key)) :
    (register w conn).sessions = w.sessions ++ [⟨trinoClient, w.process.slots.length, key⟩] := by
  simp only [register, h, registerCancel]

theorem register_slots (h : w.establishing conn = some (.allocated trinoClient key)) :
    (register w conn).process.slots = w.process.slots ++ [none] := by
  simp only [register, h, registerCancel]

theorem sourced_register (hstage : w.establishing conn = some (.allocated trinoClient key)) (h : Sourced w) :
    Sourced (register w conn) := by
  refine ⟨?_, ?_, ?_, ?_⟩
  · rw [found_register hstage, holds_register hstage]
    exact h.backed.add (holds_allocated hstage)
  · rw [register_sessions hstage, register_slots hstage, List.length_append, List.length_append, h.cells]
    rfl
  · intro i state hi
    rw [register_sessions hstage, List.getElem?_append] at hi
    split_ifs at hi with hold
    · exact h.numbered i state hi
    · obtain ⟨hlast, hstate⟩ := List.getElem?_eq_some_iff.mp hi
      rw [List.length_singleton] at hlast
      rw [← hstate, List.getElem_singleton]
      show w.process.slots.length = i
      rw [h.cells]
      omega
  · intro i key' entry hi
    rw [holds_register hstage] at hi
    rw [register_sessions hstage]
    rcases update_eq_some hi with ⟨_, hnew⟩ | ⟨_, hold⟩
    · cases hnew
      exact List.mem_append_right _ (List.mem_singleton_self _)
    · exact List.mem_append_left _ (h.held i key' entry hold)

/-- What is held when a session is let go was held before. -/
theorem holds_of_letGo {i : ℕ ⊕ ℕ} {entry : CancelKey × CancelEntry Client} (h : holds (letGo w conn) i = some entry) :
    holds w i = some entry := by
  rw [holds_letGo] at h
  rcases update_eq_some h with ⟨_, hnone⟩ | ⟨_, hheld⟩
  · cases hnone
  · exact hheld

theorem sourced_letGo (conn : ℕ) (h : Sourced w) : Sourced (letGo w conn) := by
  cases hold : w.process.connections conn with
  | none =>
    rw [letGo_none hold]
    exact h
  | some old =>
    refine ⟨?_, ?_, h.numbered, fun i key entry hi => h.held i key entry (holds_of_letGo hi)⟩
    · rw [found_letGo hold, holds_letGo]
      exact h.backed.remove (holds_live hold)
    · simpa [letGo, closeConnection] using h.cells

theorem holds_letGo_registered (h : w.establishing conn = some (.registered state)) :
    holds (letGo w conn) (.inr conn) = some (state.cancelKey, state.entry) := by
  simp only [holds, letGo, h]

theorem holds_letGo_live : holds (letGo w conn) (.inl conn) = none := by
  rw [holds_letGo, Function.update_self]

/-- What is held when a session is stored was held before, if not by the same holder. -/
theorem holds_of_store (h : w.establishing conn = some (.registered state)) {i : ℕ ⊕ ℕ}
    {entry : CancelKey × CancelEntry Client} (hi : holds (store w conn) i = some entry) :
    ∃ j, holds w j = some entry := by
  rw [holds_store h] at hi
  rcases update_eq_some hi with ⟨_, hnew⟩ | ⟨_, hi⟩
  · exact ⟨.inr conn, by rw [holds_registered h, hnew]⟩
  · rcases update_eq_some hi with ⟨_, hnone⟩ | ⟨_, hheld⟩
    · cases hnone
    · exact ⟨i, holds_of_letGo hheld⟩

theorem sourced_store (hstage : w.establishing conn = some (.registered state)) (h : Sourced w) :
    Sourced (store w conn) := by
  have hsessions : (store w conn).sessions = w.sessions := by simp only [store, hstage]
  refine ⟨?_, ?_, by rw [hsessions]; exact h.numbered, ?_⟩
  · rw [found_store hstage, holds_store hstage]
    exact (sourced_letGo conn h).backed.move (holds_letGo_registered hstage) holds_letGo_live
  · rw [hsessions, ← h.cells]
    simp [store, hstage]
  · intro i key entry hi
    obtain ⟨j, hj⟩ := holds_of_store hstage hi
    rw [hsessions]
    exact h.held j key entry hj

theorem sourced_step (w : World Client) (e : Event Client) (h : Sourced w) : Sourced (step w e) := by
  have hsteps := step_steps w e
  generalize step w e = w' at hsteps ⊢
  cases hsteps with
  | idle => exact h
  | allocated conn trinoClient secret hstage =>
    exact h.same (by rw [allocate_eq hstage]; rfl) (holds_allocate hstage) (by rw [allocate_eq hstage])
      (by rw [allocate_eq hstage])
  | registered conn trinoClient key hstage => exact sourced_register hstage h
  | stored conn state hstage => exact sourced_store hstage h
  | closed conn => exact sourced_letGo conn h
  | recorded slot queryId => exact h.same rfl rfl rfl (List.length_set ..)
  | found => exact h.same rfl rfl rfl rfl
  | running => exact h.same rfl rfl rfl rfl
  | ignored => exact h.same rfl rfl rfl rfl
  | sent handler key trinoClient qid hstage =>
    rw [send_cancelling hstage]
    exact h.same rfl rfl rfl rfl

/-! ## Cancels -/

/-- A query recorded in the cell of a session with that pair and client. -/
def Stems (w : World Client) (cancel : CancelKey × Client × Text) : Prop :=
  ∃ cell, ⟨cancel.2.1, cell, cancel.1⟩ ∈ w.sessions ∧ (cell, cancel.2.2) ∈ w.recorded

structure Traced (w : World Client) : Prop where
  slots : ∀ cell qid, w.process.slots.getD cell none = some qid → (cell, qid) ∈ w.recorded
  found : ∀ handler key trinoClient cell, w.handlers handler = .found key trinoClient cell →
    ⟨trinoClient, cell, key⟩ ∈ w.sessions
  cancelling : ∀ handler key trinoClient qid, w.handlers handler = .cancelling key trinoClient qid →
    Stems w (key, trinoClient, qid)
  sent : ∀ cancel ∈ w.sent, Stems w cancel
  cancelled : w.process.cancelled = w.sent.map Prod.snd

/-- The steps of the sessions: they send nothing and leave the handlers alone. -/
theorem Traced.mono (h : Traced w) (hsessions : w.sessions ⊆ w'.sessions) (hrecorded : w.recorded ⊆ w'.recorded)
    (hslots : ∀ cell qid, w'.process.slots.getD cell none = some qid → (cell, qid) ∈ w'.recorded)
    (hhandlers : w'.handlers = w.handlers) (hsent : w'.sent = w.sent)
    (hcancelled : w'.process.cancelled = w.process.cancelled) : Traced w' := by
  have hstems : ∀ cancel, Stems w cancel → Stems w' cancel := by
    intro cancel hcancel
    obtain ⟨cell, hsession, hcell⟩ := hcancel
    exact ⟨cell, hsessions hsession, hrecorded hcell⟩
  refine ⟨hslots, ?_, ?_, ?_, by rw [hcancelled, hsent, h.cancelled]⟩
  · intro handler key trinoClient cell hfound
    rw [hhandlers] at hfound
    exact hsessions (h.found handler key trinoClient cell hfound)
  · intro handler key trinoClient qid hcancelling
    rw [hhandlers] at hcancelling
    exact hstems _ (h.cancelling handler key trinoClient qid hcancelling)
  · intro cancel hmem
    rw [hsent] at hmem
    exact hstems _ (h.sent cancel hmem)

theorem traced_register (hstage : w.establishing conn = some (.allocated trinoClient key)) (h : Traced w) :
    Traced (register w conn) := by
  have hrest : (register w conn).recorded = w.recorded ∧ (register w conn).handlers = w.handlers ∧
      (register w conn).sent = w.sent ∧ (register w conn).process.cancelled = w.process.cancelled := by
    simp [register, hstage, registerCancel]
  obtain ⟨hrecorded, hhandlers, hsent, hcancelled⟩ := hrest
  refine h.mono ?_ (by rw [hrecorded]; exact fun _ => id) ?_ hhandlers hsent hcancelled
  · rw [register_sessions hstage]
    exact List.subset_append_left _ _
  · intro cell qid hslot
    rw [hrecorded]
    apply h.slots
    -- The new cell holds nothing yet.
    rw [register_slots hstage] at hslot
    simp only [List.getD_eq_getElem?_getD, List.getElem?_append] at hslot ⊢
    split_ifs at hslot with hold
    · exact hslot
    · rcases hlast : cell - w.process.slots.length with _ | n <;> simp [hlast] at hslot

theorem traced_record (slot : ℕ) (queryId : Option Text) (h : Traced w) : Traced (record w slot queryId) := by
  refine h.mono (fun _ => id) (List.subset_append_left _ _) ?_ rfl rfl rfl
  intro cell qid hslot
  simp only [record, List.getD_eq_getElem?_getD, List.getElem?_set] at hslot ⊢
  split_ifs at hslot with hsame hin
  · have hqid : queryId = some qid := by simpa using hslot
    rw [if_pos hin]
    exact List.mem_append_right _ (by simp [hqid, hsame])
  · simp at hslot
  · exact List.mem_append_left _ (h.slots cell qid (by simpa using hslot))

theorem dropState_cancelled (p : Process Client) (dropped : Option (ConnectionState Client)) :
    (dropState p dropped).cancelled = p.cancelled := by
  cases dropped <;> rfl

/-- A handler moves on. -/
theorem traced_setHandler (handler : ℕ) (now : Handler Client) (h : Traced w)
    (hfound : ∀ key trinoClient cell, now = .found key trinoClient cell → ⟨trinoClient, cell, key⟩ ∈ w.sessions)
    (hcancelling : ∀ key trinoClient qid, now = .cancelling key trinoClient qid → Stems w (key, trinoClient, qid)) :
    Traced (setHandler w handler now) := by
  refine ⟨h.slots, ?_, ?_, h.sent, h.cancelled⟩
  · intro other key trinoClient cell hother
    by_cases hsame : other = handler
    · rw [hsame, setHandler_self] at hother
      exact hfound key trinoClient cell hother
    · have hold : (setHandler w handler now).handlers other = w.handlers other := Function.update_of_ne hsame _ _
      rw [hold] at hother
      exact h.found other key trinoClient cell hother
  · intro other key trinoClient qid hother
    by_cases hsame : other = handler
    · rw [hsame, setHandler_self] at hother
      exact hcancelling key trinoClient qid hother
    · have hold : (setHandler w handler now).handlers other = w.handlers other := Function.update_of_ne hsame _ _
      rw [hold] at hother
      exact h.cancelling other key trinoClient qid hother

theorem session_of_lookup (hsourced : Sourced w)
    (hlookup : lookupCancel w.process pid secretKey = some (trinoClient, cell)) :
    ⟨trinoClient, cell, (pid, secretKey)⟩ ∈ w.sessions := by
  unfold lookupCancel at hlookup
  obtain ⟨entry, hentry, heq⟩ := Option.map_eq_some_iff.mp hlookup
  cases heq
  obtain ⟨i, hi⟩ := hsourced.backed (pid, secretKey) entry hentry
  exact hsourced.held i (pid, secretKey) entry hi

theorem traced_step (w : World Client) (e : Event Client) (hsourced : Sourced w) (h : Traced w) :
    Traced (step w e) := by
  have hsteps := step_steps w e
  generalize step w e = w' at hsteps ⊢
  cases hsteps with
  | idle => exact h
  | allocated conn trinoClient secret hstage =>
    rw [allocate_eq hstage]
    exact h.mono (fun _ => id) (fun _ => id) h.slots rfl rfl rfl
  | registered conn trinoClient key hstage => exact traced_register hstage h
  | stored conn state hstage =>
    simp only [store, hstage]
    refine h.mono (fun _ => id) (fun _ => id) ?_ rfl rfl (dropState_cancelled ..)
    simpa only [dropState_slots] using h.slots
  | closed conn =>
    refine h.mono (fun _ => id) (fun _ => id) ?_ rfl rfl (dropState_cancelled ..)
    simpa only [letGo, closeConnection, dropState_slots] using h.slots
  | recorded slot queryId => exact traced_record slot queryId h
  | found handler pid secretKey trinoClient cell _ hlookup =>
    refine traced_setHandler handler _ h ?_ (fun _ _ _ hnow => by cases hnow)
    intro key trinoClient' cell' hnow
    cases hnow
    exact session_of_lookup hsourced hlookup
  | running handler key trinoClient cell qid hfound hslot =>
    refine traced_setHandler handler _ h (fun _ _ _ hnow => by cases hnow) ?_
    intro key' trinoClient' qid' hnow
    cases hnow
    exact ⟨cell, h.found handler key trinoClient cell hfound, h.slots cell qid hslot⟩
  | ignored handler =>
    exact traced_setHandler handler _ h (fun _ _ _ hnow => by cases hnow) (fun _ _ _ hnow => by cases hnow)
  | sent handler key trinoClient qid hcancelling =>
    have hidle := traced_setHandler handler .idle h (fun _ _ _ hnow => by cases hnow) (fun _ _ _ hnow => by cases hnow)
    rw [send_cancelling hcancelling]
    refine ⟨h.slots, hidle.found, hidle.cancelling, ?_, ?_⟩
    · intro cancel hmem
      rcases List.mem_append.mp hmem with hold | hnew
      · exact h.sent cancel hold
      · rw [List.mem_singleton.mp hnew]
        exact h.cancelling handler key trinoClient qid hcancelling
    · simp [h.cancelled]

/-- The world after a run. -/
def reached (events : List (Event Client)) : World Client := run step World.start events

theorem sourced_start : Sourced (World.start : World Client) where
  backed := by
    intro key entry hfound
    cases hfound
  cells := rfl
  numbered := by
    intro i state hi
    simp [World.start] at hi
  held := by
    intro i key entry hi
    cases i <;> cases hi

theorem traced_start : Traced (World.start : World Client) where
  slots := by
    intro cell qid hslot
    simp [World.start, Process.start] at hslot
  found := by
    intro handler key trinoClient cell hfound
    cases hfound
  cancelling := by
    intro handler key trinoClient qid hcancelling
    cases hcancelling
  sent := List.forall_mem_nil _
  cancelled := rfl

theorem invariants_run (events : List (Event Client)) : Sourced (reached events) ∧ Traced (reached events) := by
  apply run_invariant (P := fun w => Sourced w ∧ Traced w)
  · intro w e h
    exact ⟨sourced_step w e h.1, traced_step w e h.1 h.2⟩
  · exact ⟨sourced_start, traced_start⟩

theorem holder_of_holds {i : ℕ ⊕ ℕ} {held : CancelKey × CancelEntry Client} (h : holds w i = some held) :
    ∃ conn state, (state.cancelKey, state.entry) = held ∧
      (w.process.connections conn = some state ∨ w.establishing conn = some (.registered state)) := by
  cases i with
  | inl conn =>
    obtain ⟨state, hstate, heq⟩ := Option.map_eq_some_iff.mp h
    exact ⟨conn, state, heq, .inl hstate⟩
  | inr conn =>
    rcases hstage : w.establishing conn with _ | ⟨trinoClient, key⟩ | state
    · simp [holds, hstage] at h
    · simp [holds, hstage] at h
    · exact ⟨conn, state, by simpa [holds, hstage] using h, .inr hstage⟩

/-- A session is the only one of its cell. -/
theorem Sourced.only (h : Sourced w) {state state' : ConnectionState Client} (hstate : state ∈ w.sessions)
    (hstate' : state' ∈ w.sessions) (hcell : state'.activeQueryId = state.activeQueryId) : state' = state := by
  obtain ⟨i, hi⟩ := List.mem_iff_getElem?.mp hstate
  obtain ⟨j, hj⟩ := List.mem_iff_getElem?.mp hstate'
  have hsame : j = i := by rw [← h.numbered i state hi, ← h.numbered j state' hj, hcell]
  rw [hsame, hi] at hj
  exact (Option.some.inj hj).symm

/-- Whatever the order of the steps: each cancel Trino was sent is one that a request asked
    for, by the client of a session with the pair it named and for a query recorded in the
    cell of that session alone; and what the registry holds belongs to a session that is
    live, or about to be. -/
theorem cancels_routed (events : List (Event Client)) :
    (reached events).process.cancelled = (reached events).sent.map Prod.snd ∧
    (∀ key trinoClient qid, (key, trinoClient, qid) ∈ (reached events).sent →
      ∃ state ∈ (reached events).sessions, state.cancelKey = key ∧ state.trinoClient = trinoClient ∧
        (state.activeQueryId, qid) ∈ (reached events).recorded ∧
        ∀ other ∈ (reached events).sessions, other.activeQueryId = state.activeQueryId → other = state) ∧
    ∀ key entry, (reached events).process.cancelRegistry.lookup key = some entry →
      ∃ conn state, state.cancelKey = key ∧ state.entry = entry ∧
        ((reached events).process.connections conn = some state ∨
          (reached events).establishing conn = some (.registered state)) := by
  obtain ⟨hsourced, htraced⟩ := invariants_run events
  refine ⟨htraced.cancelled, ?_, ?_⟩
  · intro key trinoClient qid hsent
    obtain ⟨cell, hsession, hrecorded⟩ := htraced.sent _ hsent
    exact ⟨_, hsession, rfl, rfl, hrecorded, fun other hother hcell => hsourced.only hsession hother hcell⟩
  · intro key entry hlookup
    obtain ⟨i, hi⟩ := hsourced.backed key entry hlookup
    obtain ⟨conn, state, heq, hheld⟩ := holder_of_holds hi
    obtain ⟨hkey, hentry⟩ := Prod.mk.inj heq
    exact ⟨conn, state, hkey, hentry, hheld⟩

end TrinoGateway.CancelRaces
