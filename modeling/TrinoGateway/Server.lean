/-
  TrinoGateway.Server — the accept loop (`src/server.rs`) and what `main` does when it ends
  (`src/main.rs`).

  A connection's task owns a permit of the semaphore as long as its future lives, and is
  tracked by the `JoinSet` until it is joined: three things that change at different times.
  The events come in any order; the loop prefers a shutdown to a join and a join to an
  accept, but the tasks end on other threads, between any two of its polls. Aborting a task
  drops its future, and dropping a `JoinSet` aborts its tasks.

  Proved, for every run: `permits_counted`: the free permits are the cap less the tasks that
  live, and a socket is refused exactly if the cap is reached.
  `connections_kept_iff`: the loop ends by a shutdown only, and until then a connection ends
  and leaves the set of its own accord only, if and only if no accept fails
  (`accept_failure_aborts`).
-/

import TrinoGateway.Lib.Run

namespace TrinoGateway.Server

open TrinoGateway.Lib

/-! ## The server -/

/-- How `process_socket` ends. -/
inductive Exit where
  | ok
  | error
  | panic
  deriving DecidableEq, Repr

inductive Event where
  | accepted
  | acceptFailed
  | exited (task : ℕ) (how : Exit)
  | joined (task : ℕ)
  | shutdown
  | drainTimedOut
  | graceTimedOut
  deriving DecidableEq, Repr

inductive Phase where
  | serving
  | draining
  /-- `drain` has aborted the tasks and waits for them once more. -/
  | aborting
  | stopped
  /-- `serve` has returned an error. -/
  | failed
  deriving DecidableEq, Repr

/-- A task has the number of its socket. -/
structure State where
  phase : Phase
  permits : ℕ
  sockets : ℕ
  refused : List ℕ
  /-- The tasks whose futures live. -/
  running : List ℕ
  /-- The `JoinSet`. -/
  tasks : List ℕ
  /-- The tasks that ended of their own accord. -/
  completed : List ℕ
  aborted : List ℕ
  /-- The set `drain` was called with. -/
  handed : Option (List ℕ)
  deriving DecidableEq, Repr

def start (maxConnections : ℕ) : State := ⟨.serving, maxConnections, 0, [], [], [], [], [], none⟩

/-- `Semaphore::try_acquire_owned`, with the permits that are left. -/
def tryAcquire : ℕ → Option ℕ
  | 0 => none
  | n + 1 => some n

def accept (s : State) : State :=
  match tryAcquire s.permits with
  | none => { s with sockets := s.sockets + 1, refused := s.refused ++ [s.sockets] }
  | some permits =>
    { s with
      sockets := s.sockets + 1
      permits
      running := s.running ++ [s.sockets]
      tasks := s.tasks ++ [s.sockets] }

/-- The future is dropped, and its permit with it. -/
def exit (s : State) (task : ℕ) : State :=
  if s.running.contains task then
    { s with
      permits := s.permits + 1
      running := s.running.erase task
      completed := s.completed ++ [task] }
  else s

/-- The tasks of the set that still run are cancelled. -/
def abortAll (s : State) : State :=
  { s with
    permits := s.permits + (s.running.filter s.tasks.contains).length
    running := s.running.filter fun task => !s.tasks.contains task
    aborted := s.aborted ++ s.running.filter s.tasks.contains }

/-- `join_next` gives a task of the set that has ended. -/
def join (s : State) (task : ℕ) : State :=
  if s.tasks.contains task && !s.running.contains task then { s with tasks := s.tasks.erase task } else s

/-- `while let Some(res) = tasks.join_next().await`. -/
def joinAll (s : State) (task : ℕ) : State :=
  let joined := join s task
  if joined.tasks.isEmpty then { joined with phase := .stopped } else joined

/-- An error of `accept` leaves `serve` and drops the set. -/
def fail (s : State) : State := { abortAll s with phase := .failed, tasks := [] }

/-- `main` calls `drain`, which returns at once if there is nothing to wait for. -/
def handOver (s : State) : State :=
  { s with handed := some s.tasks, phase := if s.tasks.isEmpty then .stopped else .draining }

/-- One event of `serve` and, after it, of `drain`; what a phase does not wait for does not happen in it. -/
def step (s : State) (e : Event) : State :=
  match s.phase, e with
  | _, .exited task _ => exit s task
  | .serving, .accepted => accept s
  | .serving, .acceptFailed => fail s
  | .serving, .joined task => join s task
  | .serving, .shutdown => handOver s
  | .draining, .joined task => joinAll s task
  | .draining, .drainTimedOut => { abortAll s with phase := .aborting }
  | .aborting, .joined task => joinAll s task
  | .aborting, .graceTimedOut => { s with phase := .stopped, tasks := [] }
  | _, _ => s

/-- What an event can do. -/
inductive Steps (s : State) : Event → State → Prop
  | idle (e : Event) : Steps s e s
  | exited (task : ℕ) (how : Exit) : Steps s (.exited task how) (exit s task)
  | accepted : s.phase = .serving → Steps s .accepted (accept s)
  | acceptFailed : s.phase = .serving → Steps s .acceptFailed (fail s)
  | joined (task : ℕ) : s.phase = .serving → Steps s (.joined task) (join s task)
  | shutdown : s.phase = .serving → Steps s .shutdown (handOver s)
  | drained (task : ℕ) : s.phase ≠ .serving → Steps s (.joined task) (joinAll s task)
  | drainTimedOut : s.phase ≠ .serving → Steps s .drainTimedOut { abortAll s with phase := .aborting }
  | graceTimedOut : s.phase ≠ .serving → Steps s .graceTimedOut { s with phase := .stopped, tasks := [] }

theorem step_steps (s : State) (e : Event) : Steps s e (step s e) := by
  unfold step
  split
  · exact .exited _ _
  · exact .accepted ‹_›
  · exact .acceptFailed ‹_›
  · exact .joined _ ‹_›
  · exact .shutdown ‹_›
  · rename_i hphase
    exact .drained _ (by rw [hphase]; decide)
  · rename_i hphase
    exact .drainTimedOut (by rw [hphase]; decide)
  · rename_i hphase
    exact .drained _ (by rw [hphase]; decide)
  · rename_i hphase
    exact .graceTimedOut (by rw [hphase]; decide)
  · exact .idle _

/-! ## Permits -/

/-- The free permits and the tasks that live make up the cap. -/
def Counted (maxConnections : ℕ) (s : State) : Prop := s.permits + s.running.length = maxConnections

variable {maxConnections : ℕ} {s : State}

theorem accept_cases (s : State) :
    (s.permits = 0 ∧ accept s = { s with sockets := s.sockets + 1, refused := s.refused ++ [s.sockets] }) ∨
      ∃ permits, s.permits = permits + 1 ∧ accept s =
        { s with
          sockets := s.sockets + 1
          permits
          running := s.running ++ [s.sockets]
          tasks := s.tasks ++ [s.sockets] } := by
  unfold accept
  cases hpermits : s.permits with
  | zero => exact .inl ⟨rfl, rfl⟩
  | succ permits => exact .inr ⟨permits, rfl, rfl⟩

theorem counted_accept (h : Counted maxConnections s) : Counted maxConnections (accept s) := by
  unfold Counted at h ⊢
  obtain ⟨_, heq⟩ | ⟨permits, hpermits, heq⟩ := accept_cases s
  · rw [heq]
    exact h
  · rw [heq]
    simp only [List.length_append, List.length_singleton]
    omega

theorem counted_exit (task : ℕ) (h : Counted maxConnections s) : Counted maxConnections (exit s task) := by
  unfold Counted at h ⊢
  unfold exit
  split_ifs with hrunning
  · have hmem : task ∈ s.running := by simpa using hrunning
    have := List.length_pos_of_mem hmem
    simp only [List.length_erase_of_mem hmem]
    omega
  · exact h

theorem counted_abortAll (h : Counted maxConnections s) : Counted maxConnections (abortAll s) := by
  unfold Counted at h ⊢
  have hsplit := List.length_eq_length_filter_add (l := s.running) s.tasks.contains
  simp only [abortAll]
  omega

theorem counted_join (task : ℕ) (h : Counted maxConnections s) : Counted maxConnections (join s task) := by
  unfold join
  split_ifs <;> exact h

theorem counted_joinAll (task : ℕ) (h : Counted maxConnections s) : Counted maxConnections (joinAll s task) := by
  have hjoin := counted_join task h
  unfold joinAll
  dsimp only
  split_ifs <;> exact hjoin

theorem counted_step (s : State) (e : Event) (h : Counted maxConnections s) : Counted maxConnections (step s e) := by
  have hsteps := step_steps s e
  generalize step s e = s' at hsteps ⊢
  cases hsteps with
  | idle => exact h
  | exited task how => exact counted_exit task h
  | accepted => exact counted_accept h
  | acceptFailed => exact counted_abortAll h
  | joined task => exact counted_join task h
  | shutdown => exact h
  | drained task => exact counted_joinAll task h
  | drainTimedOut => exact counted_abortAll h
  | graceTimedOut => exact h

theorem counted_run (maxConnections : ℕ) (events : List Event) :
    Counted maxConnections (run step (start maxConnections) events) :=
  run_invariant counted_step (Nat.add_zero maxConnections)

theorem accept_refused_iff (s : State) : (accept s).refused = s.refused ++ [s.sockets] ↔ s.permits = 0 := by
  obtain ⟨hpermits, heq⟩ | ⟨permits, hpermits, heq⟩ := accept_cases s
  · rw [heq]
    exact iff_of_true rfl hpermits
  · rw [heq]
    exact iff_of_false (by simp) (by omega)

theorem accept_running_iff (s : State) : (accept s).running = s.running ++ [s.sockets] ↔ s.permits ≠ 0 := by
  obtain ⟨hpermits, heq⟩ | ⟨permits, hpermits, heq⟩ := accept_cases s
  · rw [heq]
    exact iff_of_false (by simp) (by omega)
  · rw [heq]
    exact iff_of_true rfl (by omega)

theorem step_accepted (h : s.phase = .serving) : step s .accepted = accept s := by
  unfold step
  rw [h]

/-- The tasks that live never exceed the cap, the rest of it is free, and a socket accepted
    by the loop is refused exactly if there is none free, and served otherwise. -/
theorem permits_counted (maxConnections : ℕ) (events : List Event) :
    let s := run step (start maxConnections) events
    s.running.length ≤ maxConnections ∧ s.permits = maxConnections - s.running.length ∧
      (s.phase = .serving →
        ((step s .accepted).refused = s.refused ++ [s.sockets] ↔ s.running.length = maxConnections) ∧
        ((step s .accepted).running = s.running ++ [s.sockets] ↔ s.running.length ≠ maxConnections)) := by
  intro s
  have hcount : s.permits + s.running.length = maxConnections := counted_run maxConnections events
  refine ⟨by omega, by omega, ?_⟩
  intro hserving
  rw [step_accepted hserving, accept_refused_iff, accept_running_iff]
  constructor <;> omega

/-- Two connections, of which one ends and is not joined yet: the next socket is served. -/
theorem permits_counted_two :
    (step (run step (start 2) [.accepted, .accepted, .exited 0 .panic]) .accepted).running = [1, 2] := by
  have hcounted := permits_counted 2 [.accepted, .accepted, .exited 0 .panic]
  exact (hcounted.2.2 (by decide)).2.mpr (by decide)

/-! ## Connections -/

/-- Until the shutdown: what runs is in the set, and what is in the set runs or has ended of itself. -/
def Tracked (s : State) : Prop :=
  s.phase = .serving → (∀ task ∈ s.running, task ∈ s.tasks) ∧ ∀ task ∈ s.tasks, task ∈ s.running ∨ task ∈ s.completed

theorem exit_cases (s : State) (task : ℕ) :
    exit s task = s ∨ task ∈ s.running ∧ exit s task =
      { s with
        permits := s.permits + 1
        running := s.running.erase task
        completed := s.completed ++ [task] } := by
  unfold exit
  split_ifs with hrunning
  · exact .inr ⟨by simpa using hrunning, rfl⟩
  · exact .inl rfl

theorem join_cases (s : State) (task : ℕ) :
    join s task = s ∨ task ∉ s.running ∧ join s task = { s with tasks := s.tasks.erase task } := by
  unfold join
  split_ifs with hended
  · exact .inr ⟨by simpa using (Bool.and_eq_true_iff.mp hended).2, rfl⟩
  · exact .inl rfl

theorem tracked_accept (hserving : s.phase = .serving) (h : Tracked s) : Tracked (accept s) := by
  obtain ⟨hrunning, htasks⟩ := h hserving
  obtain ⟨_, heq⟩ | ⟨permits, _, heq⟩ := accept_cases s
  · rw [heq]
    exact h
  · rw [heq]
    refine fun _ => ⟨?_, ?_⟩
    · intro task htask
      rcases List.mem_append.mp htask with hold | hnew
      · exact List.mem_append_left _ (hrunning task hold)
      · exact List.mem_append_right _ hnew
    · intro task htask
      rcases List.mem_append.mp htask with hold | hnew
      · exact (htasks task hold).imp_left (List.mem_append_left _)
      · exact .inl (List.mem_append_right _ hnew)

theorem tracked_exit (task : ℕ) (h : Tracked s) : Tracked (exit s task) := by
  obtain heq | ⟨_, heq⟩ := exit_cases s task
  · rw [heq]
    exact h
  · rw [heq]
    intro hserving
    obtain ⟨hrunning, htasks⟩ := h hserving
    refine ⟨fun other hother => hrunning other (List.mem_of_mem_erase hother), ?_⟩
    intro other hother
    by_cases hsame : other = task
    · exact .inr (by rw [hsame]; exact List.mem_append_right _ (List.mem_singleton_self task))
    · rcases htasks other hother with hlive | hdone
      · exact .inl ((List.mem_erase_of_ne hsame).mpr hlive)
      · exact .inr (List.mem_append_left _ hdone)

theorem tracked_join (task : ℕ) (hserving : s.phase = .serving) (h : Tracked s) : Tracked (join s task) := by
  obtain heq | ⟨hended, heq⟩ := join_cases s task
  · rw [heq]
    exact h
  · obtain ⟨hrunning, htasks⟩ := h hserving
    rw [heq]
    refine fun _ => ⟨?_, fun other hother => htasks other (List.mem_of_mem_erase hother)⟩
    intro other hother
    have hne : other ≠ task := by
      rintro rfl
      exact hended hother
    exact (List.mem_erase_of_ne hne).mpr (hrunning other hother)

theorem joinAll_phase (task : ℕ) (h : s.phase ≠ .serving) : (joinAll s task).phase ≠ .serving := by
  unfold joinAll
  obtain heq | ⟨_, heq⟩ := join_cases s task <;> rw [heq] <;> dsimp only <;> split_ifs <;> simp [h]

theorem tracked_of_phase {s : State} (h : s.phase ≠ .serving) : Tracked s := fun hserving => absurd hserving h

theorem tracked_step (s : State) (e : Event) (h : Tracked s) : Tracked (step s e) := by
  have hsteps := step_steps s e
  generalize step s e = s' at hsteps ⊢
  cases hsteps with
  | idle => exact h
  | exited task how => exact tracked_exit task h
  | accepted hserving => exact tracked_accept hserving h
  | acceptFailed => exact tracked_of_phase (by simp [fail])
  | joined task hserving => exact tracked_join task hserving h
  | shutdown => exact tracked_of_phase (by unfold handOver; dsimp only; split_ifs <;> simp)
  | drained task hphase => exact tracked_of_phase (joinAll_phase task hphase)
  | drainTimedOut => exact tracked_of_phase (by simp)
  | graceTimedOut => exact tracked_of_phase (by simp)

/-- What an event before the shutdown may do: end the loop if it is the shutdown, and then
    with every live connection in the set that `drain` gets; end a connection if it is its
    own end; and take a connection from the set if it has ended. -/
structure Orderly (s : State) (e : Event) (s' : State) : Prop where
  loop : s.phase = .serving → s'.phase ≠ .serving →
    e = .shutdown ∧ ∃ handed, s'.handed = some handed ∧ ∀ task ∈ s.running, task ∈ handed
  live : s.phase = .serving → ∀ task ∈ s.running, task ∉ s'.running → ∃ how, e = .exited task how
  tracked : s.phase = .serving → ∀ task ∈ s.tasks, task ∉ s'.tasks → task ∈ s.completed

theorem orderly_idle (s : State) (e : Event) : Orderly s e s where
  loop hserving hended := absurd hserving hended
  live _ _ hold hnew := absurd hold hnew
  tracked _ _ hold hnew := absurd hold hnew

theorem orderly_of_phase {s s' : State} {e : Event} (h : s.phase ≠ .serving) : Orderly s e s' where
  loop hserving := absurd hserving h
  live hserving := absurd hserving h
  tracked hserving := absurd hserving h

theorem orderly_accept (s : State) : Orderly s .accepted (accept s) := by
  obtain ⟨_, heq⟩ | ⟨permits, _, heq⟩ := accept_cases s
  · rw [heq]
    exact ⟨fun h hne => absurd h hne, fun _ _ hold hnew => absurd hold hnew, fun _ _ hold hnew => absurd hold hnew⟩
  · rw [heq]
    exact ⟨fun h hne => absurd h hne, fun _ _ hold hnew => absurd (List.mem_append_left _ hold) hnew,
      fun _ _ hold hnew => absurd (List.mem_append_left _ hold) hnew⟩

theorem orderly_exit (s : State) (task : ℕ) (how : Exit) : Orderly s (.exited task how) (exit s task) := by
  obtain heq | ⟨_, heq⟩ := exit_cases s task
  · rw [heq]
    exact orderly_idle s _
  · rw [heq]
    refine ⟨fun h hne => absurd h hne, ?_, fun _ _ hold hnew => absurd hold hnew⟩
    intro _ other hold hnew
    by_cases hsame : other = task
    · exact ⟨how, by rw [hsame]⟩
    · exact absurd ((List.mem_erase_of_ne hsame).mpr hold) hnew

theorem orderly_join (task : ℕ) (h : Tracked s) : Orderly s (.joined task) (join s task) := by
  obtain heq | ⟨hended, heq⟩ := join_cases s task
  · rw [heq]
    exact orderly_idle s _
  · rw [heq]
    refine ⟨fun h hne => absurd h hne, fun _ _ hold hnew => absurd hold hnew, ?_⟩
    intro hserving other hold hnew
    by_cases hsame : other = task
    · rw [hsame] at hold ⊢
      exact ((h hserving).2 task hold).resolve_left hended
    · exact absurd ((List.mem_erase_of_ne hsame).mpr hold) hnew

theorem orderly_handOver (h : Tracked s) : Orderly s .shutdown (handOver s) where
  loop hserving _ := ⟨rfl, s.tasks, rfl, (h hserving).1⟩
  live _ _ hold hnew := absurd hold hnew
  tracked _ _ hold hnew := absurd hold hnew

theorem orderly_step {e : Event} (h : Tracked s) (he : s.phase = .serving → e ≠ .acceptFailed) :
    Orderly s e (step s e) := by
  have hsteps := step_steps s e
  generalize step s e = s' at hsteps ⊢
  cases hsteps with
  | idle => exact orderly_idle s e
  | exited task how => exact orderly_exit s task how
  | accepted => exact orderly_accept s
  | acceptFailed hserving => exact absurd rfl (he hserving)
  | joined task => exact orderly_join task h
  | shutdown => exact orderly_handOver h
  | drained task hphase => exact orderly_of_phase hphase
  | drainTimedOut hphase => exact orderly_of_phase hphase
  | graceTimedOut hphase => exact orderly_of_phase hphase

/-- A failed accept ends the loop without a shutdown. -/
theorem no_failure_of_orderly {e : Event} (h : Orderly s e (step s e)) (hserving : s.phase = .serving) :
    e ≠ .acceptFailed := by
  rintro rfl
  have hfail : step s .acceptFailed = fail s := by
    unfold step
    rw [hserving]
  rw [hfail] at h
  cases (h.loop hserving (by simp [fail])).1

theorem connections_kept_iff (maxConnections : ℕ) (events : List Event) :
    Along step (fun s e => Orderly s e (step s e)) (start maxConnections) events ↔
      Along step (fun s e => s.phase = .serving → e ≠ .acceptFailed) (start maxConnections) events := by
  constructor
  · intro h
    exact h.imp (P := fun _ => True) (fun _ _ _ => trivial) (fun _ _ _ => no_failure_of_orderly) trivial
  · intro h
    have hstart : Tracked (start maxConnections) := fun _ => ⟨List.forall_mem_nil _, List.forall_mem_nil _⟩
    exact h.imp tracked_step (fun _ _ => orderly_step) hstart

/-- One connection, and an accept that fails: the connection is aborted, and `drain` is not called. -/
theorem accept_failure_aborts :
    run step (start 1) [.accepted, .acceptFailed] = ⟨.failed, 1, 1, [], [], [], [], [0], none⟩ ∧
      ¬ Along step (fun s e => Orderly s e (step s e)) (start 1) [.accepted, .acceptFailed] := by
  refine ⟨by decide, ?_⟩
  intro h
  exact no_failure_of_orderly h.2.1 (by decide) rfl

end TrinoGateway.Server
