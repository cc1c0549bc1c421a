/-
  TrinoGateway.CancelDelivery — CancelRequests that have to find their session, over the
  interleavings of `CancelRaces`. Pids wrap, so this is about fewer than 2^32 sessions; they
  may register in another order than they took their pids in, so a cell does not tell the
  pid here, and the pairs are told apart by when they were taken (`Keyed`).

  Proved: `cancel_not_lost`: the pair of a session that is registered finds it, and the
  handler cancels the query it reads in the session's cell, whatever other threads do between
  its steps, the end of the session included.
-/

import TrinoGateway.CancelRaces

namespace TrinoGateway.CancelRaces

open TrinoGateway.Lib TrinoGateway.CancelRegistry

variable {Client : Type} {w w' : World Client} {conn handler cell : ℕ} {trinoClient : Client} {key : CancelKey}
  {state : ConnectionState Client} {secret : BitVec 32}

/-! ## Pairs of fewer than 2^32 sessions -/

/-- The pairs are numbered by their pids. A pair that is taken and not registered is nobody
    else's, and the registry is what the sessions hold. -/
structure Keyed (w : World Client) : Prop where
  counter : w.process.connectionPid = BitVec.ofNat 32 (w.keys.length + 1)
  numbered : ∀ (i : ℕ) (key : CancelKey), w.keys[i]? = some key → key.1 = BitVec.ofNat 32 (i + 1)
  taken : ∀ conn trinoClient key, w.establishing conn = some (.allocated trinoClient key) →
    key ∈ w.keys ∧ (∀ i entry, holds w i ≠ some (key, entry)) ∧
      ∀ other trinoClient', w.establishing other = some (.allocated trinoClient' key) → other = conn
  held : ∀ i key entry, holds w i = some (key, entry) → key ∈ w.keys
  mirrors : Mirrors (found w) (holds w)

theorem Keyed.same (h : Keyed w) (hpid : w'.process.connectionPid = w.process.connectionPid) (hkeys : w'.keys = w.keys)
    (hstages : w'.establishing = w.establishing) (hfound : found w' = found w) (hholds : holds w' = holds w) :
    Keyed w' where
  counter := by rw [hpid, hkeys]; exact h.counter
  numbered := by rw [hkeys]; exact h.numbered
  taken := by rw [hkeys, hstages, hholds]; exact h.taken
  held := by rw [hkeys, hholds]; exact h.held
  mirrors := by rw [hfound, hholds]; exact h.mirrors

/-- The next pair is none of the ones taken. -/
theorem Keyed.fresh (h : Keyed w) (hroom : w.keys.length < 2 ^ 32) (secretKey : SecretKey) :
    (w.process.connectionPid, secretKey) ∉ w.keys := by
  intro hmem
  obtain ⟨i, hi⟩ := List.mem_iff_getElem?.mp hmem
  have hlt : i < w.keys.length := (List.getElem?_eq_some_iff.mp hi).1
  have hpid := h.numbered i _ hi
  rw [h.counter] at hpid
  have hmod := congrArg BitVec.toNat hpid
  simp only [BitVec.toNat_ofNat] at hmod
  omega

theorem keyed_allocate (hstage : w.establishing conn = none) (hroom : w.keys.length < 2 ^ 32) (h : Keyed w) :
    Keyed (allocate w conn trinoClient secret) := by
  have hfresh := h.fresh hroom (.i32 secret)
  have hholds : holds (allocate w conn trinoClient secret) = holds w := holds_allocate hstage
  have hold : ∀ key ∈ w.keys, key ∈ (allocate w conn trinoClient secret).keys := by
    intro key hkey
    rw [allocate_eq hstage]
    exact List.mem_append_left _ hkey
  refine ⟨?_, ?_, ?_, ?_, ?_⟩
  · rw [allocate_eq hstage]
    simp only [h.counter, List.length_append, List.length_singleton]
    rw [BitVec.ofNat_add (w.keys.length + 1) 1]
    rfl
  · intro i key hi
    rw [allocate_eq hstage] at hi
    simp only [List.getElem?_append] at hi
    split_ifs at hi with hbefore
    · exact h.numbered i key hi
    · obtain ⟨hlast, hkey⟩ := List.getElem?_eq_some_iff.mp hi
      rw [List.length_singleton] at hlast
      have hi : i = w.keys.length := by omega
      rw [← hkey, List.getElem_singleton, h.counter, hi]
  · intro c client key hc
    rw [hholds]
    rw [allocate_eq hstage] at hc
    rcases update_eq_some hc with ⟨hcc, hnew⟩ | ⟨hcc, hc⟩
    · -- The new pair is held by nobody, since a pair that is held was taken.
      cases hnew
      refine ⟨by rw [allocate_eq hstage]; exact List.mem_append_right _ (List.mem_singleton_self _), ?_, ?_⟩
      · intro i entry hi
        exact hfresh (h.held i _ entry hi)
      · intro other client' hother
        rw [allocate_eq hstage] at hother
        rcases update_eq_some hother with ⟨hsame, _⟩ | ⟨_, hother⟩
        · rw [hsame, hcc]
        · exact absurd (h.taken other client' _ hother).1 hfresh
    · obtain ⟨hkey, hnobody, honly⟩ := h.taken c client key hc
      refine ⟨hold key hkey, hnobody, ?_⟩
      intro other client' hother
      rw [allocate_eq hstage] at hother
      rcases update_eq_some hother with ⟨_, hnew⟩ | ⟨_, hother⟩
      · cases hnew
        exact absurd hkey hfresh
      · exact honly other client' hother
  · intro i key entry hi
    rw [hholds] at hi
    exact hold key (h.held i key entry hi)
  · rw [hholds]
    have hfound : found (allocate w conn trinoClient secret) = found w := by
      rw [allocate_eq hstage]
      rfl
    rw [hfound]
    exact h.mirrors

theorem register_establishing (h : w.establishing conn = some (.allocated trinoClient key)) :
    (register w conn).establishing =
      Function.update w.establishing conn (some (.registered ⟨trinoClient, w.process.slots.length, key⟩)) := by
  simp only [register, h, registerCancel]

theorem keyed_register (hstage : w.establishing conn = some (.allocated trinoClient key)) (h : Keyed w) :
    Keyed (register w conn) := by
  have hrest : (register w conn).process.connectionPid = w.process.connectionPid ∧ (register w conn).keys = w.keys := by
    simp [register, hstage, registerCancel]
  obtain ⟨hpid, hkeys⟩ := hrest
  obtain ⟨htaken, hnobody, honly⟩ := h.taken conn trinoClient key hstage
  refine ⟨by rw [hpid, hkeys]; exact h.counter, by rw [hkeys]; exact h.numbered, ?_, ?_, ?_⟩
  · intro c client key' hc
    rw [register_establishing hstage] at hc
    rcases update_eq_some hc with ⟨_, hnew⟩ | ⟨hne, hc⟩
    · cases hnew
    · obtain ⟨htaken', hnobody', honly'⟩ := h.taken c client key' hc
      refine ⟨by rw [hkeys]; exact htaken', ?_, ?_⟩
      · intro i entry hi
        rw [holds_register hstage] at hi
        rcases update_eq_some hi with ⟨_, hnew⟩ | ⟨_, hi⟩
        · cases hnew
          exact hne (honly c client hc)
        · exact hnobody' i entry hi
      · intro other client' hother
        rw [register_establishing hstage] at hother
        rcases update_eq_some hother with ⟨_, hnew⟩ | ⟨_, hother⟩
        · cases hnew
        · exact honly' other client' hother
  · intro i key' entry hi
    rw [holds_register hstage] at hi
    rw [hkeys]
    rcases update_eq_some hi with ⟨_, hnew⟩ | ⟨_, hi⟩
    · cases hnew
      exact htaken
    · exact h.held i key' entry hi
  · rw [found_register hstage, holds_register hstage]
    exact h.mirrors.add (holds_allocated hstage) hnobody

theorem mirrors_letGo (h : Mirrors (found w) (holds w)) : Mirrors (found (letGo w conn)) (holds (letGo w conn)) := by
  cases hold : w.process.connections conn with
  | none =>
    rw [letGo_none hold]
    exact h
  | some old =>
    rw [found_letGo hold, holds_letGo]
    exact h.remove (holds_live hold)

/-- Sessions that end or change hands take no pair from anyone. -/
theorem Keyed.shrink (h : Keyed w) (hpid : w'.process.connectionPid = w.process.connectionPid)
    (hkeys : w'.keys = w.keys)
    (hstages : ∀ c trinoClient key, w'.establishing c = some (.allocated trinoClient key) →
      w.establishing c = some (.allocated trinoClient key))
    (hholds : ∀ i held, holds w' i = some held → ∃ j, holds w j = some held)
    (hmirrors : Mirrors (found w') (holds w')) : Keyed w' := by
  refine ⟨by rw [hpid, hkeys]; exact h.counter, by rw [hkeys]; exact h.numbered, ?_, ?_, hmirrors⟩
  · intro c client key hc
    obtain ⟨htaken, hnobody, honly⟩ := h.taken c client key (hstages c client key hc)
    refine ⟨by rw [hkeys]; exact htaken, ?_, fun other client' hother => honly other client' (hstages _ _ _ hother)⟩
    intro i entry hi
    obtain ⟨j, hj⟩ := hholds i _ hi
    exact hnobody j entry hj
  · intro i key entry hi
    obtain ⟨j, hj⟩ := hholds i _ hi
    rw [hkeys]
    exact h.held j key entry hj

theorem keyed_store (hstage : w.establishing conn = some (.registered state)) (h : Keyed w) : Keyed (store w conn) := by
  have hrest : (store w conn).process.connectionPid = w.process.connectionPid ∧ (store w conn).keys = w.keys ∧
      (store w conn).establishing = Function.update w.establishing conn none := by
    simp [store, hstage]
  obtain ⟨hpid, hkeys, hstages⟩ := hrest
  refine h.shrink hpid hkeys ?_ (fun i held hi => holds_of_store hstage hi) ?_
  · intro c client key hc
    rw [hstages] at hc
    rcases update_eq_some hc with ⟨_, hnone⟩ | ⟨_, hc⟩
    · cases hnone
    · exact hc
  · rw [found_store hstage, holds_store hstage]
    exact (mirrors_letGo h.mirrors).move (holds_letGo_registered hstage) holds_letGo_live

/-- While fewer than 2^32 pairs are taken. -/
theorem keyed_step (w : World Client) (e : Event Client) (h : w.keys.length ≤ 2 ^ 32 → Keyed w) :
    (step w e).keys.length ≤ 2 ^ 32 → Keyed (step w e) := by
  have hsteps := step_steps w e
  generalize step w e = w' at hsteps ⊢
  intro hfew
  cases hsteps with
  | idle => exact h hfew
  | allocated conn trinoClient secret hstage =>
    have hroom : w.keys.length + 1 ≤ 2 ^ 32 := by
      simpa [allocate_eq hstage] using hfew
    exact keyed_allocate hstage hroom (h (by omega))
  | registered conn trinoClient key hstage =>
    exact keyed_register hstage (h (by simpa [register, hstage] using hfew))
  | stored conn state hstage => exact keyed_store hstage (h (by simpa [store, hstage] using hfew))
  | closed conn =>
    refine (h hfew).shrink (dropState_connectionPid ..) rfl (fun _ _ _ => id) ?_ (mirrors_letGo (h hfew).mirrors)
    exact fun i held hi => ⟨i, holds_of_letGo hi⟩
  | recorded slot queryId => exact (h hfew).same rfl rfl rfl rfl rfl
  | found => exact (h hfew).same rfl rfl rfl rfl rfl
  | running => exact (h hfew).same rfl rfl rfl rfl rfl
  | ignored => exact (h hfew).same rfl rfl rfl rfl rfl
  | sent handler key trinoClient qid hcancelling =>
    rw [send_cancelling hcancelling] at hfew ⊢
    exact (h hfew).same rfl rfl rfl rfl rfl

def Event.isAllocate : Event Client → Bool
  | .allocate .. => true
  | _ => false

theorem step_keys (w : World Client) (e : Event Client) :
    (step w e).keys.length ≤ w.keys.length + if e.isAllocate then 1 else 0 := by
  cases e with
  | allocate conn trinoClient secret =>
    simp only [step, allocate, Event.isAllocate]
    split <;> simp
  | register conn =>
    simp only [step, register]
    split <;> simp
  | store conn =>
    simp only [step, store]
    split <;> simp
  | close conn =>
    simp only [step, close]
    split <;> simp
  | record slot queryId => exact Nat.le_add_right _ _
  | request handler pid secretKey =>
    simp only [step, request]
    split <;> exact Nat.le_add_right _ _
  | read handler =>
    simp only [step, read]
    split
    · split <;> exact Nat.le_add_right _ _
    · exact Nat.le_add_right _ _
  | send handler =>
    simp only [step, send]
    split <;> exact Nat.le_add_right _ _

theorem keys_run (w : World Client) (events : List (Event Client)) :
    (run step w events).keys.length ≤ w.keys.length + events.countP Event.isAllocate := by
  induction events generalizing w with
  | nil => exact le_rfl
  | cons e events ih =>
    have hstep := step_keys w e
    have hrest := ih (step w e)
    rw [run_cons, List.countP_cons]
    omega

theorem keyed_start : Keyed (World.start : World Client) where
  counter := rfl
  numbered := by
    intro i key hi
    simp [World.start] at hi
  taken := by
    intro conn trinoClient key hstage
    cases hstage
  held := by
    intro i key entry hi
    cases i <;> cases hi
  mirrors := by
    refine ⟨sourced_start.backed, ?_, ?_⟩
    · intro i key entry hi
      cases i <;> cases hi
    · intro i j key entry entry' hi
      cases i <;> cases hi

theorem keyed_run (events : List (Event Client)) (hfew : events.countP Event.isAllocate ≤ 2 ^ 32) :
    Keyed (reached events) := by
  have hkeyed : (reached events).keys.length ≤ 2 ^ 32 → Keyed (reached events) :=
    run_invariant (P := fun w : World Client => w.keys.length ≤ 2 ^ 32 → Keyed w) keyed_step fun _ => keyed_start
  have hkeys := keys_run (World.start : World Client) events
  apply hkeyed
  simp only [World.start, List.length_nil, Nat.zero_add] at hkeys
  exact hkeys.trans hfew

/-! ## A request whose steps are far apart -/

/-- The steps of one handler. -/
def Event.concerns (handler : ℕ) : Event Client → Bool
  | .request other _ _ | .read other | .send other => other == handler
  | _ => false

theorem step_handlers {e : Event Client} (h : e.concerns handler = false) :
    (step w e).handlers handler = w.handlers handler := by
  cases e with
  | allocate conn trinoClient secret =>
    simp only [step, allocate]
    split <;> rfl
  | register conn =>
    simp only [step, register]
    split <;> rfl
  | store conn =>
    simp only [step, store]
    split <;> rfl
  | close conn =>
    simp only [step, close]
    split <;> rfl
  | record slot queryId => rfl
  | request other pid secretKey =>
    have hne : handler ≠ other := by
      rintro rfl
      simp [Event.concerns] at h
    simp only [step, request]
    split
    · exact Function.update_of_ne hne _ _
    · rfl
  | read other =>
    have hne : handler ≠ other := by
      rintro rfl
      simp [Event.concerns] at h
    simp only [step, read]
    split
    · split <;> exact Function.update_of_ne hne _ _
    · rfl
  | send other =>
    have hne : handler ≠ other := by
      rintro rfl
      simp [Event.concerns] at h
    simp only [step, send]
    split
    · exact Function.update_of_ne hne _ _
    · rfl

theorem run_handlers {events : List (Event Client)} (h : ∀ e ∈ events, e.concerns handler = false) :
    (run step w events).handlers handler = w.handlers handler := by
  induction events generalizing w with
  | nil => rfl
  | cons e events ih =>
    rw [run_cons, ih fun e' he' => h e' (List.mem_cons_of_mem e he'), step_handlers (h e List.mem_cons_self)]

theorem Keyed.lookup_held (h : Keyed w)
    (hheld : w.process.connections conn = some state ∨ w.establishing conn = some (.registered state)) :
    lookupCancel w.process state.cancelKey.1 state.cancelKey.2 = some (state.trinoClient, state.activeQueryId) := by
  have hfound : found w state.cancelKey = some state.entry := by
    rcases hheld with hlive | hregistered
    · exact h.mirrors.listed _ _ _ (holds_live hlive)
    · exact h.mirrors.listed _ _ _ (holds_registered hregistered)
  unfold found at hfound
  simp only [lookupCancel, hfound, Option.map_some, ConnectionState.entry]

/-- A handler that found a session sends what it reads in its cell, and nothing if that is empty. -/
theorem read_then_send {after : List (Event Client)} (hfound : w.handlers handler = .found key trinoClient cell)
    (hafter : ∀ e ∈ after, e.concerns handler = false) :
    (send (run step (read w handler) after) handler).process.cancelled =
      (run step (read w handler) after).process.cancelled ++
        (w.process.slots.getD cell none).toList.map (trinoClient, ·) := by
  cases hslot : w.process.slots.getD cell none with
  | none =>
    have hidle : (run step (read w handler) after).handlers handler = .idle := by
      rw [run_handlers hafter, read_idle hfound hslot, setHandler_self]
    rw [send_idle hidle]
    simp
  | some qid =>
    have hcancelling : (run step (read w handler) after).handlers handler = .cancelling key trinoClient qid := by
      rw [run_handlers hafter, read_running hfound hslot, setHandler_self]
    rw [send_cancelling hcancelling]
    simp

/-- A session that is registered is found by its pair, and the handler cancels the query that
    is in the session's cell when it reads it, with the session's client; whatever other
    threads do meanwhile. -/
theorem cancel_not_lost (events between after : List (Event Client)) (conn handler : ℕ)
    (state : ConnectionState Client) (hfew : events.countP Event.isAllocate ≤ 2 ^ 32)
    (hheld : (reached events).process.connections conn = some state ∨
      (reached events).establishing conn = some (.registered state))
    (hidle : (reached events).handlers handler = .idle) (hbetween : ∀ e ∈ between, e.concerns handler = false)
    (hafter : ∀ e ∈ after, e.concerns handler = false) :
    let found := step (reached events) (.request handler state.cancelKey.1 state.cancelKey.2)
    let reading := run step found between
    let sending := run step (step reading (.read handler)) after
    (step sending (.send handler)).process.cancelled =
      sending.process.cancelled ++
        (reading.process.slots.getD state.activeQueryId none).toList.map (state.trinoClient, ·) := by
  intro found reading sending
  have hlookup := (keyed_run events hfew).lookup_held hheld
  have hfound : found.handlers handler = .found state.cancelKey state.trinoClient state.activeQueryId := by
    show (request _ handler state.cancelKey.1 state.cancelKey.2).handlers handler = _
    rw [request_found hidle hlookup, setHandler_self]
  have hreading : reading.handlers handler = .found state.cancelKey state.trinoClient state.activeQueryId := by
    rw [run_handlers hbetween, hfound]
  exact read_then_send hreading hafter

/-- Two sessions that register in the other order than they took their pids in. A request for
    the first finds it before it is stored, and reads its cell after the session has ended. -/
def overtaken : List (Event ℕ) :=
  [.allocate 0 10 5, .allocate 1 11 5, .register 1, .register 0, .record 1 (some "q".toList)]

theorem overtaken_cancelled :
    (run step (reached overtaken)
      [.request 7 1 (.i32 5), .store 0, .close 0, .read 7, .record 1 none, .send 7]).process.cancelled =
      [(10, "q".toList)] :=
  cancel_not_lost overtaken [.store 0, .close 0] [.record 1 none] 0 7 ⟨10, 1, (1, .i32 5)⟩ (by decide) (.inr rfl) rfl
    (by decide) (by decide)

end TrinoGateway.CancelRaces
