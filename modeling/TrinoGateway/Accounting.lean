/-
  TrinoGateway.Accounting — the sockets a server has accepted, and the set of tasks it keeps.

  `connections_accounted`: in every run of the server each socket is refused, live, ended or
  aborted, and only one of these, and the set holds every live connection; if `accept` does
  not fail and the drain does not time out, none is aborted; and a server that stops with
  none aborted has its permits back. An aborted connection is one that is asked to end: `Shutdown` has
  what it does then.
-/

import TrinoGateway.Server

namespace TrinoGateway.Server

open TrinoGateway.Lib

/-- The lists the sockets are in, taken together. -/
def accounts (s : State) : List ℕ := s.refused ++ s.running ++ s.completed ++ s.aborted

/-- Every socket is in one of the lists, once. -/
def Accounted (s : State) : Prop := (accounts s).Perm (List.range s.sockets)

/-- The steps that cancel connections. -/
def Aborts (s : State) (e : Event) : Prop :=
  s.phase = .serving ∧ e = .acceptFailed ∨ s.phase = .draining ∧ e = .drainTimedOut

/-- The set holds what runs, and holds nothing at the end; nothing runs once it is aborted. -/
structure Holding (s : State) : Prop where
  held : ∀ task ∈ s.running, task ∈ s.tasks
  unwound : s.phase = .aborting → s.running = []
  ended : s.phase = .stopped → s.tasks = []

variable {s : State}

theorem accounted_iff (s : State) :
    Accounted s ↔ ∀ socket, s.refused.count socket + s.running.count socket + s.completed.count socket
      + s.aborted.count socket = (List.range s.sockets).count socket := by
  unfold Accounted accounts
  rw [List.perm_iff_count]
  simp only [List.count_append]

theorem accounted_accept (h : Accounted s) : Accounted (accept s) := by
  rw [accounted_iff] at h ⊢
  intro socket
  have hsocket := h socket
  obtain ⟨_, heq⟩ | ⟨permits, _, heq⟩ := accept_cases s
  · simp only [heq, List.range_succ, List.count_append]
    omega
  · simp only [heq, List.range_succ, List.count_append]
    omega

theorem accounted_exit (task : ℕ) (h : Accounted s) : Accounted (exit s task) := by
  obtain heq | ⟨hrunning, heq⟩ := exit_cases s task
  · rw [heq]
    exact h
  · rw [accounted_iff] at h ⊢
    intro socket
    have hsocket := h socket
    have hmoved : (s.running.erase task).count socket + [task].count socket = s.running.count socket := by
      rw [(List.perm_cons_erase hrunning).count_eq socket]
      simp only [List.count_cons, List.count_nil, Nat.zero_add]
    simp only [heq, List.count_append]
    omega

theorem accounted_abortAll (h : Accounted s) : Accounted (abortAll s) := by
  rw [accounted_iff] at h ⊢
  intro socket
  have hsocket := h socket
  have hsplit := (List.filter_append_perm s.tasks.contains s.running).count_eq socket
  rw [List.count_append] at hsplit
  simp only [abortAll, List.count_append]
  omega

theorem accounted_joinAll (task : ℕ) (h : Accounted s) : Accounted (joinAll s task) := by
  have hjoin : Accounted (join s task) := by
    unfold join
    split_ifs <;> exact h
  unfold joinAll
  dsimp only
  split_ifs <;> exact hjoin

theorem accounted_step (s : State) (e : Event) (h : Accounted s) : Accounted (step s e) := by
  have hsteps := step_steps s e
  generalize step s e = s' at hsteps ⊢
  cases hsteps with
  | idle => exact h
  | exited task how => exact accounted_exit task h
  | accepted => exact accounted_accept h
  | acceptFailed => exact accounted_abortAll h
  | joined task =>
    unfold join
    split_ifs <;> exact h
  | shutdown => exact h
  | drained task => exact accounted_joinAll task h
  | drainTimedOut => exact accounted_abortAll h
  | graceTimedOut => exact h

/-- The two timeouts happen in their own phases only. -/
theorem step_drainTimedOut (s : State) :
    step s .drainTimedOut = s ∨
      s.phase = .draining ∧ step s .drainTimedOut = { abortAll s with phase := .aborting } := by
  unfold step
  cases hphase : s.phase <;> simp

theorem step_graceTimedOut (s : State) :
    step s .graceTimedOut = s ∨
      s.phase = .aborting ∧ step s .graceTimedOut = { s with phase := .stopped, tasks := [] } := by
  unfold step
  cases hphase : s.phase <;> simp

theorem holding_accept (hserving : s.phase = .serving) (h : Holding s) : Holding (accept s) := by
  obtain ⟨_, heq⟩ | ⟨permits, _, heq⟩ := accept_cases s
  · rw [heq]
    exact ⟨h.held, h.unwound, h.ended⟩
  · rw [heq]
    refine ⟨?_, fun haborting => by simp [hserving] at haborting, fun hstopped => by simp [hserving] at hstopped⟩
    intro task htask
    rcases List.mem_append.mp htask with hold | hnew
    · exact List.mem_append_left _ (h.held task hold)
    · exact List.mem_append_right _ hnew

theorem holding_exit (task : ℕ) (h : Holding s) : Holding (exit s task) := by
  obtain heq | ⟨hrunning, heq⟩ := exit_cases s task
  · rw [heq]
    exact h
  · rw [heq]
    refine ⟨fun other hother => h.held other (List.mem_of_mem_erase hother), ?_, h.ended⟩
    intro haborting
    rw [h.unwound haborting] at hrunning
    cases hrunning

theorem holding_join (task : ℕ) (h : Holding s) : Holding (join s task) := by
  obtain heq | ⟨hended, heq⟩ := join_cases s task
  · rw [heq]
    exact h
  · rw [heq]
    refine ⟨?_, h.unwound, fun hstopped => by simp [h.ended hstopped]⟩
    intro other hother
    have hne : other ≠ task := fun hsame => hended (hsame ▸ hother)
    exact (List.mem_erase_of_ne hne).mpr (h.held other hother)

theorem holding_joinAll (task : ℕ) (h : Holding s) : Holding (joinAll s task) := by
  have hjoin := holding_join task h
  unfold joinAll
  dsimp only
  split_ifs with hempty
  · exact ⟨hjoin.held, fun haborting => by simp at haborting, fun _ => List.isEmpty_iff.mp hempty⟩
  · exact hjoin

theorem abortAll_running (h : Holding s) : (abortAll s).running = [] := by
  unfold abortAll
  simp only [List.filter_eq_nil_iff, Bool.not_eq_true', Bool.not_eq_false, List.contains_iff_mem]
  exact h.held

theorem holding_handOver (h : Holding s) : Holding (handOver s) := by
  unfold handOver
  by_cases hempty : s.tasks = []
  · exact ⟨h.held, fun haborting => by simp [hempty] at haborting, fun _ => hempty⟩
  · exact ⟨h.held, fun haborting => by simp [hempty] at haborting, fun hstopped => by simp [hempty] at hstopped⟩

theorem holding_step (s : State) (e : Event) (h : Holding s) : Holding (step s e) := by
  by_cases hgrace : e = .graceTimedOut
  · rw [hgrace]
    obtain heq | ⟨haborting, heq⟩ := step_graceTimedOut s
    · rw [heq]
      exact h
    · rw [heq]
      exact ⟨by simp [h.unwound haborting], fun _ => h.unwound haborting, fun _ => rfl⟩
  · have hsteps := step_steps s e
    generalize step s e = s' at hsteps ⊢
    cases hsteps with
    | idle => exact h
    | exited task how => exact holding_exit task h
    | accepted hserving => exact holding_accept hserving h
    | acceptFailed =>
      have hnone : (fail s).running = [] := abortAll_running h
      exact ⟨by simp [hnone], fun _ => hnone, fun _ => rfl⟩
    | joined task => exact holding_join task h
    | shutdown => exact holding_handOver h
    | drained task => exact holding_joinAll task h
    | drainTimedOut =>
      have hnone := abortAll_running h
      exact ⟨by simp [hnone], fun _ => hnone, fun hstopped => by simp at hstopped⟩
    | graceTimedOut => exact absurd rfl hgrace

theorem accept_aborted (s : State) : (accept s).aborted = s.aborted := by
  obtain ⟨_, heq⟩ | ⟨permits, _, heq⟩ := accept_cases s <;> rw [heq]

theorem exit_aborted (s : State) (task : ℕ) : (exit s task).aborted = s.aborted := by
  obtain heq | ⟨_, heq⟩ := exit_cases s task <;> rw [heq]

theorem join_aborted (s : State) (task : ℕ) : (join s task).aborted = s.aborted := by
  obtain heq | ⟨_, heq⟩ := join_cases s task <;> rw [heq]

theorem joinAll_aborted (s : State) (task : ℕ) : (joinAll s task).aborted = s.aborted := by
  unfold joinAll
  dsimp only
  split_ifs <;> exact join_aborted s task

theorem aborted_step (s : State) (e : Event) (h : s.aborted = []) (he : ¬ Aborts s e) : (step s e).aborted = [] := by
  by_cases hdrain : e = .drainTimedOut
  · rw [hdrain]
    obtain heq | ⟨hdraining, _⟩ := step_drainTimedOut s
    · rw [heq]
      exact h
    · exact absurd (.inr ⟨hdraining, hdrain⟩) he
  · have hsteps := step_steps s e
    generalize step s e = s' at hsteps ⊢
    cases hsteps with
    | idle => exact h
    | exited task how => rw [exit_aborted, h]
    | accepted => rw [accept_aborted, h]
    | acceptFailed hserving => exact absurd (.inl ⟨hserving, rfl⟩) he
    | joined task => rw [join_aborted, h]
    | shutdown => exact h
    | drained task => rw [joinAll_aborted, h]
    | drainTimedOut => exact absurd rfl hdrain
    | graceTimedOut => exact h

theorem holding_run (maxConnections : ℕ) (events : List Event) : Holding (run step (start maxConnections) events) :=
  run_invariant holding_step ⟨List.forall_mem_nil _, fun _ => rfl, fun _ => rfl⟩

/-- No socket is lost and none is in two places, whatever the order of the events; the set
    holds every connection that lives; and if none is aborted, as when no step aborts, a server
    that has stopped has refused a connection or seen it end. -/
theorem connections_accounted (maxConnections : ℕ) (events : List Event) :
    let s := run step (start maxConnections) events
    (s.refused ++ s.running ++ s.completed ++ s.aborted).Perm (List.range s.sockets) ∧
      (∀ task ∈ s.running, task ∈ s.tasks) ∧
      (Along step (fun s e => ¬ Aborts s e) (start maxConnections) events → s.aborted = []) ∧
      (s.aborted = [] → s.phase = .stopped →
        (s.refused ++ s.completed).Perm (List.range s.sockets) ∧ s.permits = maxConnections) := by
  intro s
  have haccounted : Accounted s := run_invariant accounted_step (.refl [])
  have hholding : Holding s := holding_run maxConnections events
  have hcounted : Counted maxConnections s := counted_run maxConnections events
  refine ⟨haccounted, hholding.held, fun hgraceful => hgraceful.invariant aborted_step rfl, ?_⟩
  intro haborted hstopped
  have hrunning : s.running = [] := by
    have hheld := hholding.held
    rw [hholding.ended hstopped] at hheld
    exact List.eq_nil_iff_forall_not_mem.mpr fun task htask => List.not_mem_nil (hheld task htask)
  unfold Accounted accounts at haccounted
  rw [haborted, hrunning, List.append_nil, List.append_nil] at haccounted
  unfold Counted at hcounted
  rw [hrunning] at hcounted
  exact ⟨haccounted, hcounted⟩

/-- One of three sockets is refused, the others end before the drain and in it: the server stops with both permits. -/
theorem connections_accounted_three :
    let s := run step (start 2) [.accepted, .accepted, .accepted, .exited 1 .error, .shutdown, .joined 1,
      .exited 0 .ok, .joined 0]
    (s.refused ++ s.completed).Perm (List.range 3) ∧ s.permits = 2 := by
  intro s
  have haccounted := connections_accounted 2 [.accepted, .accepted, .accepted, .exited 1 .error, .shutdown, .joined 1,
    .exited 0 .ok, .joined 0]
  exact haccounted.2.2.2 (haccounted.2.2.1 (by simp only [Along, Aborts]; decide)) (by decide)

/-- The set holds a task once, and no task that is still to come. -/
def Distinct (s : State) : Prop := s.tasks.Nodup ∧ ∀ task ∈ s.tasks, task < s.sockets

theorem distinct_accept (h : Distinct s) : Distinct (accept s) := by
  obtain ⟨hnodup, hbelow⟩ := h
  obtain ⟨_, heq⟩ | ⟨permits, _, heq⟩ := accept_cases s
  · rw [heq]
    exact ⟨hnodup, fun task htask => Nat.lt_succ_of_lt (hbelow task htask)⟩
  · rw [heq]
    have hnew : s.sockets ∉ s.tasks := fun hmem => absurd (hbelow _ hmem) (Nat.lt_irrefl _)
    refine ⟨by simpa using hnodup.concat hnew, ?_⟩
    intro task htask
    rcases List.mem_append.mp htask with hold | hadded
    · exact Nat.lt_succ_of_lt (hbelow task hold)
    · rw [List.mem_singleton.mp hadded]
      exact Nat.lt_succ_self _

theorem distinct_join (task : ℕ) (h : Distinct s) : Distinct (join s task) := by
  obtain heq | ⟨_, heq⟩ := join_cases s task
  · rw [heq]
    exact h
  · rw [heq]
    exact ⟨h.1.erase task, fun other hother => h.2 other (List.mem_of_mem_erase hother)⟩

theorem distinct_step (s : State) (e : Event) (h : Distinct s) : Distinct (step s e) := by
  have hsteps := step_steps s e
  generalize step s e = s' at hsteps ⊢
  cases hsteps with
  | idle => exact h
  | exited task how =>
    obtain heq | ⟨_, heq⟩ := exit_cases s task <;> rw [heq] <;> exact h
  | accepted => exact distinct_accept h
  | acceptFailed => exact ⟨List.nodup_nil, List.forall_mem_nil _⟩
  | joined task => exact distinct_join task h
  | shutdown => exact h
  | drained task =>
    have hjoin := distinct_join task h
    unfold joinAll
    dsimp only
    split_ifs <;> exact hjoin
  | drainTimedOut => exact h
  | graceTimedOut => exact ⟨List.nodup_nil, List.forall_mem_nil _⟩

theorem step_shutdown (h : s.phase = .serving) : step s .shutdown = handOver s := by
  unfold step
  rw [h]

end TrinoGateway.Server
