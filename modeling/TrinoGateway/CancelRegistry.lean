/-
  TrinoGateway.CancelRegistry — the registry a CancelRequest is routed by (`src/session.rs`,
  `new_pid_and_secret_key` and `establish_session` of `src/startup.rs`, `src/cancel.rs`).

  A CancelRequest comes on a connection of its own and names the pair `(pid, secret_key)` of
  another one. The registry is one map for the whole process: a session that is established
  inserts under its pair, overwriting, and a `ConnectionState` that is dropped removes by its
  pair. The pid is a counter that wraps at 32 bits, the secret is random.

  `active_query_id` is a cell shared by the connection, its row streams and the registry; a
  cell is its index in `slots`, and anyone who holds it may write it, after the connection is
  closed as well. A connection that is established again loses the state it had.

  Proved: `cancel_isolated`, over every run of fewer than 2^32 establishments. The cell of an
  establishment is numbered as its pid, so pairs are told apart by cells (`Isolated`).
-/

import TrinoGateway.Lib.Registry
import TrinoGateway.Lib.Run
import TrinoGateway.Lib.Text

namespace TrinoGateway.CancelRegistry

open TrinoGateway.Lib

/-! ## The registry -/

inductive SecretKey where
  | i32 (secret : BitVec 32)
  | bytes (secret : List UInt8)
  deriving DecidableEq, Repr

abbrev CancelKey := BitVec 32 × SecretKey

structure CancelEntry (Client : Type) where
  trinoClient : Client
  activeQueryId : ℕ
  deriving DecidableEq, Repr

structure ConnectionState (Client : Type) where
  trinoClient : Client
  activeQueryId : ℕ
  cancelKey : CancelKey
  deriving DecidableEq, Repr

/-- The process: its statics, the cells, the connections' states and the cancels Trino was sent. -/
structure Process (Client : Type) where
  connectionPid : BitVec 32
  cancelRegistry : AList fun _ : CancelKey => CancelEntry Client
  slots : List (Option Text)
  connections : ℕ → Option (ConnectionState Client)
  cancelled : List (Client × Text)

variable {Client : Type}

def Process.start : Process Client where
  connectionPid := 1
  cancelRegistry := ∅
  slots := []
  connections := fun _ => none
  cancelled := []

/-- `fetch_add` wraps; the secret is what the generator gives. -/
def newPidAndSecretKey (p : Process Client) (secret : BitVec 32) : CancelKey × Process Client :=
  ((p.connectionPid, .i32 secret), { p with connectionPid := p.connectionPid + 1 })

def registerCancel (p : Process Client) (key : CancelKey) (trinoClient : Client) : ℕ × Process Client :=
  (p.slots.length,
    { p with
      slots := p.slots ++ [none]
      cancelRegistry := p.cancelRegistry.insert key ⟨trinoClient, p.slots.length⟩ })

def lookupCancel (p : Process Client) (pid : BitVec 32) (secretKey : SecretKey) : Option (Client × ℕ) :=
  (p.cancelRegistry.lookup (pid, secretKey)).map fun e => (e.trinoClient, e.activeQueryId)

def unregisterCancel (p : Process Client) (key : CancelKey) : Process Client :=
  { p with cancelRegistry := p.cancelRegistry.erase key }

/-- `Drop for ConnectionState`, if the connection had one. -/
def dropState (p : Process Client) : Option (ConnectionState Client) → Process Client
  | none => p
  | some state => unregisterCancel p state.cancelKey

def establishSession (p : Process Client) (conn : ℕ) (trinoClient : Client) (secret : BitVec 32) : Process Client :=
  let allocated := newPidAndSecretKey p secret
  let registered := registerCancel allocated.2 allocated.1 trinoClient
  let state : ConnectionState Client := ⟨trinoClient, registered.1, allocated.1⟩
  -- The map of extensions drops the state it replaces.
  dropState { registered.2 with connections := Function.update p.connections conn (some state) } (p.connections conn)

def closeConnection (p : Process Client) (conn : ℕ) : Process Client :=
  dropState { p with connections := Function.update p.connections conn none } (p.connections conn)

def onCancelRequest (p : Process Client) (pid : BitVec 32) (secretKey : SecretKey) : Process Client :=
  match lookupCancel p pid secretKey with
  | none => p
  | some (trinoClient, activeQueryId) =>
    match p.slots.getD activeQueryId none with
    | none => p
    | some qid => { p with cancelled := p.cancelled ++ [(trinoClient, qid)] }

inductive Event (Client : Type) where
  | establish (conn : ℕ) (trinoClient : Client) (secret : BitVec 32)
  | close (conn : ℕ)
  /-- A query id recorded in a cell, or cleared. -/
  | record (slot : ℕ) (queryId : Option Text)
  | cancelRequest (pid : BitVec 32) (secretKey : SecretKey)

def Event.isEstablish : Event Client → Bool
  | .establish .. => true
  | _ => false

def step (p : Process Client) : Event Client → Process Client
  | .establish conn trinoClient secret => establishSession p conn trinoClient secret
  | .close conn => closeConnection p conn
  | .record slot queryId => { p with slots := p.slots.set slot queryId }
  | .cancelRequest pid secretKey => onCancelRequest p pid secretKey

/-- The process after a run. -/
def reached (events : List (Event Client)) : Process Client := run step Process.start events

/-! ## What a step does to each part -/

section parts

variable (p : Process Client) (conn : ℕ) (trinoClient : Client) (secret : BitVec 32) (pid : BitVec 32)
  (secretKey : SecretKey) (dropped : Option (ConnectionState Client))

@[simp] theorem dropState_connectionPid : (dropState p dropped).connectionPid = p.connectionPid := by
  cases dropped <;> rfl

@[simp] theorem dropState_slots : (dropState p dropped).slots = p.slots := by
  cases dropped <;> rfl

@[simp] theorem dropState_connections : (dropState p dropped).connections = p.connections := by
  cases dropped <;> rfl

/-- A CancelRequest only sends cancels to Trino. -/
theorem onCancelRequest_eq :
    onCancelRequest p pid secretKey = { p with cancelled := (onCancelRequest p pid secretKey).cancelled } := by
  unfold onCancelRequest
  split
  · rfl
  · split <;> rfl

theorem step_slots (e : Event Client) :
    (step p e).slots.length = p.slots.length + if e.isEstablish then 1 else 0 := by
  cases e with
  | establish conn trinoClient secret =>
    simp [step, establishSession, registerCancel, newPidAndSecretKey, Event.isEstablish]
  | close conn => simp [step, closeConnection, Event.isEstablish]
  | record slot queryId => simp [step, Event.isEstablish]
  | cancelRequest pid secretKey =>
    rw [step, onCancelRequest_eq]
    rfl

end parts

/-! ## The registry is the live connections, by key -/

def ConnectionState.entry (state : ConnectionState Client) : CancelEntry Client :=
  ⟨state.trinoClient, state.activeQueryId⟩

/-- What each live connection has in the registry. -/
def holdings (live : ℕ → Option (ConnectionState Client)) (c : ℕ) : Option (CancelKey × CancelEntry Client) :=
  (live c).map fun st => (st.cancelKey, st.entry)

/-- What is found is the entries of the live connections by their keys, and no two share a cell. -/
structure Owned (found : CancelKey → Option (CancelEntry Client)) (live : ℕ → Option (ConnectionState Client)) :
    Prop where
  mirrors : Mirrors found (holdings live)
  cells : ∀ c c' st st', live c = some st → live c' = some st' → st.activeQueryId = st'.activeQueryId → c = c'

variable {found : CancelKey → Option (CancelEntry Client)} {live : ℕ → Option (ConnectionState Client)} {c : ℕ}
  {st : ConnectionState Client} {p : Process Client}

theorem holdings_of_live (h : live c = some st) : holdings live c = some (st.cancelKey, st.entry) := by
  rw [holdings, h]
  rfl

theorem holdings_update (o : Option (ConnectionState Client)) : holdings (Function.update live c o) =
    Function.update (holdings live) c (o.map fun st => (st.cancelKey, st.entry)) := by
  funext c'
  exact Function.apply_update (fun _ => Option.map fun st : ConnectionState Client => (st.cancelKey, st.entry)) live c o c'

theorem Owned.found_self (h : Owned found live) (hst : live c = some st) : found st.cancelKey = some st.entry :=
  h.mirrors.listed c _ _ (holdings_of_live hst)

theorem Owned.found_iff (h : Owned found live) (key : CancelKey) (entry : CancelEntry Client) :
    found key = some entry ↔ ∃ c st, live c = some st ∧ st.cancelKey = key ∧ st.entry = entry := by
  constructor
  · intro hfound
    obtain ⟨c, hc⟩ := h.mirrors.backed key entry hfound
    obtain ⟨st, hst, hpair⟩ := Option.map_eq_some_iff.mp hc
    cases hpair
    exact ⟨c, st, hst, rfl, rfl⟩
  · rintro ⟨c, st, hst, rfl, rfl⟩
    exact h.found_self hst

theorem Owned.remove (h : Owned found live) (hst : live c = some st) :
    Owned (Function.update found st.cancelKey none) (Function.update live c none) := by
  refine ⟨?_, fun a b sa sb ha hb hcell => ?_⟩
  · rw [holdings_update]
    exact h.mirrors.remove (holdings_of_live hst)
  · rcases update_eq_some ha with ⟨-, hnone⟩ | ⟨-, ha⟩
    · cases hnone
    · rcases update_eq_some hb with ⟨-, hnone⟩ | ⟨-, hb⟩
      · cases hnone
      · exact h.cells a b sa sb ha hb hcell

theorem Owned.add (h : Owned found live) (hfree : live c = none)
    (hfresh : ∀ c' st', live c' = some st' → st'.cancelKey ≠ st.cancelKey)
    (hslot : ∀ c' st', live c' = some st' → st'.activeQueryId ≠ st.activeQueryId) :
    Owned (Function.update found st.cancelKey (some st.entry)) (Function.update live c (some st)) := by
  refine ⟨?_, fun a b sa sb ha hb hcell => ?_⟩
  · rw [holdings_update]
    refine h.mirrors.add (by rw [holdings, hfree]; rfl) fun c' entry hheld => ?_
    obtain ⟨st', hst', hpair⟩ := Option.map_eq_some_iff.mp hheld
    exact hfresh c' st' hst' (congrArg Prod.fst hpair)
  · rcases update_eq_some ha with ⟨hac, hnew⟩ | ⟨-, ha⟩ <;> rcases update_eq_some hb with ⟨hbc, hnew'⟩ | ⟨-, hb⟩
    · rw [hac, hbc]
    · cases hnew
      exact absurd hcell.symm (hslot b sb hb)
    · cases hnew'
      exact absurd hcell (hslot a sa ha)
    · exact h.cells a b sa sb ha hb hcell

/-! ## Pids tell establishments apart -/

/-- The state of one of the first `n` establishments: its cell and its pid count them. -/
def Numbered (n : ℕ) (st : ConnectionState Client) : Prop :=
  st.activeQueryId < n ∧ st.cancelKey.1 = BitVec.ofNat 32 (st.activeQueryId + 1)

theorem Numbered.mono {n m : ℕ} (h : Numbered n st) (hnm : n ≤ m) : Numbered m st :=
  ⟨h.1.trans_le hnm, h.2⟩

theorem Numbered.cell_eq {n : ℕ} {st' : ConnectionState Client} (h : Numbered n st) (h' : Numbered n st')
    (hn : n ≤ 2 ^ 32) (hpid : st.cancelKey.1 = st'.cancelKey.1) : st.activeQueryId = st'.activeQueryId := by
  obtain ⟨hlt, hcount⟩ := h
  obtain ⟨hlt', hcount'⟩ := h'
  rw [hcount, hcount'] at hpid
  have hmod := congrArg BitVec.toNat hpid
  simp only [BitVec.toNat_ofNat] at hmod
  omega

structure Isolated (p : Process Client) : Prop where
  counter : p.connectionPid = BitVec.ofNat 32 (p.slots.length + 1)
  numbered : ∀ c st, p.connections c = some st → Numbered p.slots.length st
  owned : Owned (fun key => p.cancelRegistry.lookup key) p.connections

theorem isolated_start : Isolated (Process.start : Process Client) :=
  ⟨rfl, nofun, ⟨⟨nofun, nofun, nofun⟩, nofun⟩⟩

theorem lookup_erase_eq (r : AList fun _ : CancelKey => CancelEntry Client) (key : CancelKey) :
    (fun k => (r.erase key).lookup k) = Function.update (fun k => r.lookup k) key none := by
  funext k
  by_cases h : k = key
  · rw [h, Function.update_self, AList.lookup_erase]
  · rw [Function.update_of_ne h, AList.lookup_erase_ne h]

theorem lookup_insert_eq (r : AList fun _ : CancelKey => CancelEntry Client) (key : CancelKey) (e : CancelEntry Client) :
    (fun k => (r.insert key e).lookup k) = Function.update (fun k => r.lookup k) key (some e) := by
  funext k
  by_cases h : k = key
  · rw [h, Function.update_self, AList.lookup_insert]
  · rw [Function.update_of_ne h, AList.lookup_insert_ne h]

theorem Isolated.close (h : Isolated p) (conn : ℕ) : Isolated (closeConnection p conn) := by
  unfold closeConnection
  refine ⟨?_, fun c st hst => ?_, ?_⟩
  · simpa only [dropState_connectionPid, dropState_slots] using h.counter
  · simp only [dropState_connections] at hst
    rw [dropState_slots]
    rcases update_eq_some hst with ⟨-, hnone⟩ | ⟨-, hst⟩
    · cases hnone
    · exact h.numbered c st hst
  · rw [dropState_connections]
    cases hold : p.connections conn with
    | none =>
      have hsame : Function.update p.connections conn none = p.connections := by rw [← hold, Function.update_eq_self]
      rw [dropState, hsame]
      exact h.owned
    | some old =>
      rw [dropState, unregisterCancel, lookup_erase_eq]
      exact h.owned.remove hold

section establish

variable {conn : ℕ} {trinoClient : Client} {secret : BitVec 32}

/-- The state a session starts with. -/
def established (p : Process Client) (trinoClient : Client) (secret : BitVec 32) : ConnectionState Client :=
  ⟨trinoClient, p.slots.length, (p.connectionPid, .i32 secret)⟩

theorem established_numbered (h : Isolated p) :
    Numbered (p.slots.length + 1) (established p trinoClient secret) :=
  ⟨Nat.lt_succ_self _, h.counter⟩

theorem Isolated.fresh_key (h : Isolated p) (hroom : p.slots.length < 2 ^ 32) (hst : p.connections c = some st) :
    st.cancelKey ≠ (established p trinoClient secret).cancelKey := by
  intro hkey
  have hnum := h.numbered c st hst
  have hcell := (hnum.mono (Nat.le_succ _)).cell_eq (established_numbered h) hroom (congrArg Prod.fst hkey)
  exact hnum.1.ne hcell

@[simp] theorem establishSession_slots :
    (establishSession p conn trinoClient secret).slots = p.slots ++ [none] := by
  simp only [establishSession, dropState_slots, registerCancel, newPidAndSecretKey]

@[simp] theorem establishSession_connections : (establishSession p conn trinoClient secret).connections =
    Function.update p.connections conn (some (established p trinoClient secret)) := by
  simp only [establishSession, dropState_connections, registerCancel, newPidAndSecretKey, established]

@[simp] theorem establishSession_connectionPid :
    (establishSession p conn trinoClient secret).connectionPid = p.connectionPid + 1 := by
  simp only [establishSession, dropState_connectionPid, registerCancel, newPidAndSecretKey]

theorem closeConnection_connections :
    (closeConnection p conn).connections = Function.update p.connections conn none := by
  simp only [closeConnection, dropState_connections]

/-- The registry after the session: that of the closed connection, with the new entry. -/
theorem establishSession_lookup (h : Isolated p) (hroom : p.slots.length < 2 ^ 32) :
    (fun k => (establishSession p conn trinoClient secret).cancelRegistry.lookup k) =
      Function.update (fun k => (closeConnection p conn).cancelRegistry.lookup k)
        (established p trinoClient secret).cancelKey (some (established p trinoClient secret).entry) := by
  cases hold : p.connections conn with
  | none =>
    simp only [establishSession, closeConnection, hold, dropState, registerCancel, newPidAndSecretKey]
    rw [lookup_insert_eq]
    rfl
  | some old =>
    simp only [establishSession, closeConnection, hold, dropState, registerCancel, newPidAndSecretKey, unregisterCancel]
    rw [lookup_erase_eq, lookup_erase_eq, lookup_insert_eq]
    exact Function.update_comm (h.fresh_key hroom hold).symm _ _ _

theorem Isolated.establish (h : Isolated p) (hroom : p.slots.length < 2 ^ 32) :
    Isolated (establishSession p conn trinoClient secret) := by
  refine ⟨?_, fun c st hst => ?_, ?_⟩
  · rw [establishSession_connectionPid, establishSession_slots, h.counter, List.length_append, List.length_singleton,
      BitVec.ofNat_add (p.slots.length + 1) 1]
    rfl
  · rw [establishSession_slots, List.length_append, List.length_singleton]
    rw [establishSession_connections] at hst
    rcases update_eq_some hst with ⟨-, hnew⟩ | ⟨-, hst⟩
    · cases hnew
      exact established_numbered h
    · exact (h.numbered c st hst).mono (Nat.le_succ _)
  · have hclosed := (h.close conn).owned
    have hlive : ∀ c' st', (closeConnection p conn).connections c' = some st' → p.connections c' = some st' := by
      intro c' st' hst'
      rw [closeConnection_connections] at hst'
      rcases update_eq_some hst' with ⟨-, hnone⟩ | ⟨-, hst'⟩
      · cases hnone
      · exact hst'
    have hfree : (closeConnection p conn).connections conn = none := by
      rw [closeConnection_connections, Function.update_self]
    have hadd : Owned _ (Function.update _ conn (some (established p trinoClient secret))) :=
      hclosed.add hfree (fun c' st' hst' => h.fresh_key hroom (hlive c' st' hst'))
        (fun c' st' hst' => (h.numbered c' st' (hlive c' st' hst')).1.ne)
    rw [closeConnection_connections, Function.update_idem] at hadd
    rw [establishSession_lookup h hroom, establishSession_connections]
    exact hadd

end establish

/-! ## Runs -/

/-- A session is established only while fewer than 2^32 were. -/
def Room (p : Process Client) (e : Event Client) : Prop := e.isEstablish = true → p.slots.length < 2 ^ 32

theorem Isolated.step (h : Isolated p) {e : Event Client} (hroom : Room p e) : Isolated (step p e) := by
  cases e with
  | establish conn trinoClient secret => exact h.establish (hroom rfl)
  | close conn => exact h.close conn
  | record slot queryId =>
    refine ⟨?_, fun c st hst => ?_, h.owned⟩
    · simpa only [CancelRegistry.step, List.length_set] using h.counter
    · simpa only [CancelRegistry.step, List.length_set] using h.numbered c st hst
  | cancelRequest pid secretKey =>
    rw [CancelRegistry.step, onCancelRequest_eq]
    exact ⟨h.counter, h.numbered, h.owned⟩

theorem slots_run (p : Process Client) (events : List (Event Client)) :
    (run step p events).slots.length = p.slots.length + events.countP Event.isEstablish := by
  induction events generalizing p with
  | nil => rfl
  | cons e events ih =>
    rw [run_cons, ih, step_slots, List.countP_cons]
    omega

theorem along_room {events : List (Event Client)} (h : p.slots.length + events.countP Event.isEstablish < 2 ^ 32) :
    Along step Room p events := by
  induction events generalizing p with
  | nil => trivial
  | cons e events ih =>
    rw [List.countP_cons] at h
    refine ⟨fun _ => by omega, ih ?_⟩
    rw [step_slots]
    omega

theorem isolated_run {events : List (Event Client)} (h : events.countP Event.isEstablish < 2 ^ 32) :
    Isolated (reached events) := by
  have halong : Along step Room (Process.start : Process Client) events := by
    apply along_room
    simpa [Process.start] using h
  exact halong.invariant (fun p e hp hroom => hp.step hroom) isolated_start

/-! ## A state once live -/

/-- The cell of `st` is taken, and only the connection `c` in the state `st` can have it. -/
def Settled (c : ℕ) (st : ConnectionState Client) (p : Process Client) : Prop :=
  Numbered p.slots.length st ∧
    ∀ c' st', p.connections c' = some st' → st'.activeQueryId = st.activeQueryId → c' = c ∧ st' = st

theorem Isolated.settled (h : Isolated p) (hst : p.connections c = some st) : Settled c st p := by
  refine ⟨h.numbered c st hst, fun c' st' hst' hcell => ?_⟩
  have hc := h.owned.cells c' c st' st hst' hst hcell
  rw [hc, hst] at hst'
  exact ⟨hc, (Option.some.inj hst').symm⟩

theorem Settled.step (h : Settled c st p) (e : Event Client) : Settled c st (step p e) := by
  obtain ⟨hnum, honly⟩ := h
  refine ⟨hnum.mono (by rw [step_slots]; omega), fun c' st' hst' hcell => ?_⟩
  cases e with
  | establish conn trinoClient secret =>
    rw [CancelRegistry.step, establishSession_connections] at hst'
    rcases update_eq_some hst' with ⟨-, hnew⟩ | ⟨-, hst'⟩
    · -- A new cell is none that was taken.
      cases hnew
      exact absurd hcell.symm hnum.1.ne
    · exact honly c' st' hst' hcell
  | close conn =>
    rw [CancelRegistry.step, closeConnection_connections] at hst'
    rcases update_eq_some hst' with ⟨-, hnone⟩ | ⟨-, hst'⟩
    · cases hnone
    · exact honly c' st' hst' hcell
  | record slot queryId => exact honly c' st' hst' hcell
  | cancelRequest pid secretKey =>
    rw [CancelRegistry.step, onCancelRequest_eq] at hst'
    exact honly c' st' hst' hcell

theorem Isolated.lookup_gone (h : Isolated p) (hbound : p.slots.length ≤ 2 ^ 32) (hset : Settled c st p)
    (hgone : p.connections c ≠ some st) : lookupCancel p st.cancelKey.1 st.cancelKey.2 = none := by
  rw [lookupCancel, Option.map_eq_none_iff, Option.eq_none_iff_forall_ne_some]
  intro entry hfound
  obtain ⟨c', st', hlive, hkey, -⟩ := (h.owned.found_iff _ entry).mp hfound
  have hcell := (h.numbered c' st' hlive).cell_eq hset.1 hbound (congrArg Prod.fst hkey)
  obtain ⟨rfl, rfl⟩ := hset.2 c' st' hlive hcell
  exact hgone hlive

theorem Isolated.lookup_live (h : Isolated p) (hst : p.connections c = some st) :
    lookupCancel p st.cancelKey.1 st.cancelKey.2 = some (st.trinoClient, st.activeQueryId) := by
  show (p.cancelRegistry.lookup st.cancelKey).map _ = _
  rw [h.owned.found_self hst]
  rfl

theorem Isolated.one_entry (h : Isolated p) (hst : p.connections c = some st) :
    ∃! key, ∃ entry, p.cancelRegistry.lookup key = some entry ∧ entry.activeQueryId = st.activeQueryId := by
  refine ⟨st.cancelKey, ⟨st.entry, h.owned.found_self hst, rfl⟩, ?_⟩
  rintro key ⟨entry, hfound, hcell⟩
  obtain ⟨c', st', hlive, rfl, rfl⟩ := (h.owned.found_iff _ entry).mp hfound
  have hc := h.owned.cells c' c st' st hlive hst hcell
  rw [hc, hst] at hlive
  rw [Option.some.inj hlive]

/-! ## CancelRequests -/

section cancelRequest

variable {pid : BitVec 32} {secretKey : SecretKey}

theorem Isolated.cancel_running (h : Isolated p) {qid : Text} (hst : p.connections c = some st)
    (hkey : st.cancelKey = (pid, secretKey)) (hslot : p.slots.getD st.activeQueryId none = some qid) :
    onCancelRequest p pid secretKey = { p with cancelled := p.cancelled ++ [(st.trinoClient, qid)] } := by
  have hlookup := h.lookup_live hst
  rw [hkey] at hlookup
  rw [onCancelRequest, hlookup]
  show (match p.slots.getD st.activeQueryId none with | none => p | some qid => _) = _
  rw [hslot]

theorem Isolated.cancel_ignored (h : Isolated p)
    (hidle : ∀ c st, p.connections c = some st → st.cancelKey = (pid, secretKey) →
      p.slots.getD st.activeQueryId none = none) : onCancelRequest p pid secretKey = p := by
  rw [onCancelRequest, lookupCancel]
  cases hfound : p.cancelRegistry.lookup (pid, secretKey) with
  | none => rfl
  | some entry =>
    obtain ⟨c, st, hlive, hkey, rfl⟩ := (h.owned.found_iff _ entry).mp hfound
    show (match p.slots.getD st.activeQueryId none with | none => p | some qid => _) = p
    rw [hidle c st hlive hkey]

end cancelRequest

/-- Every live connection has its entry and no other, the keys of connections that are gone find
nothing, and a CancelRequest cancels the query in the cell of the live connection it names. -/
theorem cancel_isolated (events : List (Event Client)) (hfew : events.countP Event.isEstablish < 2 ^ 32) :
    (∀ c st, (reached events).connections c = some st →
      (∃! key, ∃ entry, (reached events).cancelRegistry.lookup key = some entry ∧
        entry.activeQueryId = st.activeQueryId) ∧
      lookupCancel (reached events) st.cancelKey.1 st.cancelKey.2 = some (st.trinoClient, st.activeQueryId)) ∧
    (∀ before after c st, events = before ++ after → (reached before).connections c = some st →
      (reached events).connections c ≠ some st →
      lookupCancel (reached events) st.cancelKey.1 st.cancelKey.2 = none) ∧
    ∀ pid secretKey,
      (∀ c st qid, (reached events).connections c = some st → st.cancelKey = (pid, secretKey) →
        (reached events).slots.getD st.activeQueryId none = some qid →
        step (reached events) (.cancelRequest pid secretKey) =
          { reached events with cancelled := (reached events).cancelled ++ [(st.trinoClient, qid)] }) ∧
      ((∀ c st, (reached events).connections c = some st → st.cancelKey = (pid, secretKey) →
        (reached events).slots.getD st.activeQueryId none = none) →
        step (reached events) (.cancelRequest pid secretKey) = reached events) := by
  have hiso := isolated_run hfew
  refine ⟨fun c st hst => ⟨hiso.one_entry hst, hiso.lookup_live hst⟩, fun before after c st hsplit hborn hgone => ?_, ?_⟩
  · have hbefore : Isolated (reached before) := by
      apply isolated_run
      rw [hsplit, List.countP_append] at hfew
      omega
    have hset : Settled c st (reached events) := by
      rw [reached, hsplit, run_append]
      exact run_invariant (fun p e hp => Settled.step hp e) (hbefore.settled hborn)
    refine hiso.lookup_gone ?_ hset hgone
    rw [reached, slots_run, Process.start, List.length_nil]
    omega
  · intro pid secretKey
    exact ⟨fun c st qid hst hkey hslot => hiso.cancel_running hst hkey hslot, fun hidle => hiso.cancel_ignored hidle⟩

/-- Two sessions with one secret; the first is closed while a query of its stays recorded. -/
def sameSecret : List (Event ℕ) :=
  [.establish 0 10 5, .record 0 (some "q0".toList), .establish 1 11 5, .record 1 (some "q1".toList), .close 0]

theorem sameSecret_isolated :
    lookupCancel (reached sameSecret) 1 (.i32 5) = none ∧
      lookupCancel (reached sameSecret) 2 (.i32 5) = some (11, 1) ∧
      (step (reached sameSecret) (.cancelRequest 2 (.i32 5))).cancelled = [(11, "q1".toList)] := by
  have hall := cancel_isolated sameSecret (by decide)
  refine ⟨hall.2.1 (sameSecret.take 1) (sameSecret.drop 1) 0 ⟨10, 0, (1, .i32 5)⟩ rfl rfl (by decide), ?_, ?_⟩
  · exact (hall.1 1 ⟨11, 1, (2, .i32 5)⟩ rfl).2
  · rw [(hall.2.2 2 (.i32 5)).1 1 ⟨11, 1, (2, .i32 5)⟩ "q1".toList rfl rfl rfl]
    rfl

end TrinoGateway.CancelRegistry
