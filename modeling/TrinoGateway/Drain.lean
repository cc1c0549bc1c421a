/-
  TrinoGateway.Drain — how `main` waits for the connections after a shutdown (`src/main.rs`).

  `Server` lets an aborted task go in the same step. In truth `abort_all` only asks: a task
  that is being polled runs on to its next await and may even end of its own accord, and the
  grace period is there to wait for it. The drain of this module has that stage, and a clock
  whose tick is a millisecond. The timers are punctual, and the future is polled after each
  event it waits for: it joins what is over, and looks at its timer only if there is
  something left. A timeout the clock cannot add to the present is thirty years for tokio;
  that is left out.

  Proved: `drain_in_time`: whatever the tasks do, the drain is over when the timeout and the
  grace have passed; it is over earlier exactly if there is nothing left to wait for; and no
  task is cancelled before the timeout.
-/

import TrinoGateway.Server
import TrinoGateway.Lib.Numeral

namespace TrinoGateway

open TrinoGateway.Lib

/-! ## The timeout -/

/-- `Duration::from_secs`, in the ticks of the clock. -/
def fromSecs (secs : ℕ) : ℕ := secs * 1000

def defaultShutdownDrainTimeout : ℕ := fromSecs 25

def abortUnwindGrace : ℕ := fromSecs 1

/-- `str::parse::<u64>`: a sign is a plus, and the number has to fit. -/
def parseU64 (s : Text) : Option ℕ :=
  if (splitSign s).1 then none else (readNat (splitSign s).2).filter (· < 2 ^ 64)

def parseDrainTimeout (raw : Option Text) : ℕ :=
  match raw with
  | none => defaultShutdownDrainTimeout
  | some v =>
    match parseU64 v with
    | some secs => fromSecs secs
    | none => defaultShutdownDrainTimeout

/-! ## The drain -/

namespace Drain

/-- What has become of a task. -/
inductive Fate where
  | running
  /-- `abort_all` has asked for its end, and its future is not dropped yet. -/
  | unwinding
  | ended
  | cancelled
  deriving DecidableEq, Repr

def Fate.over : Fate → Bool
  | .running | .unwinding => false
  | .ended | .cancelled => true

inductive Stage where
  | waiting
  | unwinding
  | returned
  deriving DecidableEq, Repr

structure State where
  stage : Stage
  /-- The ticks since the call, up to the return. -/
  now : ℕ
  deadline : ℕ
  /-- The `JoinSet`; dropped with what is left in it. -/
  tasks : List (ℕ × Fate)
  joined : List (ℕ × Fate)
  deriving DecidableEq, Repr

/-- What the future waits for. -/
inductive Event where
  | tick
  | ended (task : ℕ)
  /-- The future of a cancelled task is dropped. -/
  | dropped (task : ℕ)
  deriving DecidableEq, Repr

def Fate.onEnd : Fate → Fate
  | .running | .unwinding => .ended
  | fate => fate

def Fate.onDrop : Fate → Fate
  | .unwinding => .cancelled
  | fate => fate

def Fate.onAbort : Fate → Fate
  | .running => .unwinding
  | fate => fate

def become (change : Fate → Fate) (task : ℕ) (entry : ℕ × Fate) : ℕ × Fate :=
  if entry.1 = task then (entry.1, change entry.2) else entry

def occur (d : State) : Event → State
  | .tick => { d with now := d.now + 1 }
  | .ended task => { d with tasks := d.tasks.map (become .onEnd task) }
  | .dropped task => { d with tasks := d.tasks.map (become .onDrop task) }

/-- `while let Some(res) = tasks.join_next().await`, until it has to wait. -/
def reap (d : State) : State :=
  { d with
    tasks := d.tasks.filter fun entry => !entry.2.over
    joined := d.joined ++ d.tasks.filter fun entry => entry.2.over }

def abortAll (d : State) : State := { d with tasks := d.tasks.map fun entry => (entry.1, entry.2.onAbort) }

/-- The timer of the stage has run out. -/
def timedOut (d : State) : State :=
  match d.stage with
  | .waiting => { abortAll d with stage := .unwinding, deadline := d.now + abortUnwindGrace }
  | .unwinding => { d with stage := .returned }
  | .returned => d

/-- `timeout` polls the loop before its timer. -/
def poll (d : State) : State :=
  let reaped := reap d
  if reaped.tasks.isEmpty then { reaped with stage := .returned }
  else if reaped.deadline ≤ reaped.now then timedOut reaped
  else reaped

def step (d : State) (e : Event) : State :=
  match d.stage with
  | .returned => d
  | _ => poll (occur d e)

/-- The call, and the first poll of its future. -/
def drain (tasks : List (ℕ × Fate)) (timeout : ℕ) : State := poll ⟨.waiting, 0, timeout, tasks, []⟩

/-- The set `serve` returns: a task of it may be over and not joined yet. -/
def handedOver (s : Server.State) : List (ℕ × Fate) :=
  s.tasks.map fun task => (task, if s.running.contains task then .running else .ended)

variable {d : State}

/-- What a poll can do. -/
theorem poll_cases (d : State) :
    ((reap d).tasks = [] ∧ poll d = { reap d with stage := .returned }) ∨
      ((reap d).tasks ≠ [] ∧ d.deadline ≤ d.now ∧ poll d = timedOut (reap d)) ∨
      (reap d).tasks ≠ [] ∧ d.now < d.deadline ∧ poll d = reap d := by
  unfold poll
  dsimp only
  simp only [List.isEmpty_iff]
  split_ifs with hempty hdue
  · exact .inl ⟨hempty, rfl⟩
  · exact .inr (.inl ⟨hempty, hdue, rfl⟩)
  · exact .inr (.inr ⟨hempty, Nat.lt_of_not_le hdue, rfl⟩)

/-! ## The time it takes -/

/-- A fate before the timeout. -/
def Fate.undisturbed : Fate → Bool
  | .running | .ended => true
  | .unwinding | .cancelled => false

/-- The state the future is polled in. -/
structure Due (timeout ticks : ℕ) (d : State) : Prop where
  live : d.stage ≠ .returned
  clock : d.now = ticks
  waiting : d.stage = .waiting →
    d.now ≤ timeout ∧ d.deadline = timeout ∧ ∀ entry ∈ d.tasks ++ d.joined, entry.2.undisturbed
  unwinding : d.stage = .unwinding →
    timeout ≤ d.now ∧ d.now ≤ timeout + abortUnwindGrace ∧ d.deadline = timeout + abortUnwindGrace
  joined : ∀ entry ∈ d.joined, entry.2.over

/-- The state a poll leaves. -/
structure Punctual (timeout ticks : ℕ) (d : State) : Prop where
  bound : d.now ≤ timeout + abortUnwindGrace
  live : d.stage ≠ .returned →
    d.now = ticks ∧ d.now < d.deadline ∧ d.tasks ≠ [] ∧ ∀ entry ∈ d.tasks, entry.2.over = false
  waiting : d.stage = .waiting → d.deadline = timeout
  unwinding : d.stage = .unwinding → timeout ≤ d.now ∧ d.deadline = timeout + abortUnwindGrace
  early : d.stage = .returned → d.now < timeout + abortUnwindGrace → d.tasks = []
  undisturbed : d.now < timeout → ∀ entry ∈ d.tasks ++ d.joined, entry.2.undisturbed
  joined : ∀ entry ∈ d.joined, entry.2.over

variable {timeout ticks : ℕ}

/-- Joining moves entries and changes none. -/
theorem reap_perm (d : State) : ((reap d).tasks ++ (reap d).joined).Perm (d.tasks ++ d.joined) := by
  have hsplit := List.filter_append_perm (fun entry : ℕ × Fate => entry.2.over) d.tasks
  rw [List.perm_iff_count] at hsplit ⊢
  intro entry
  have hentry := hsplit entry
  simp only [reap, List.count_append] at hentry ⊢
  omega

theorem reap_tasks {entry : ℕ × Fate} (h : entry ∈ (reap d).tasks) : entry.2.over = false := by
  unfold reap at h
  simpa using (List.mem_filter.mp h).2

theorem due_reap (h : Due timeout ticks d) : Due timeout ticks (reap d) where
  live := h.live
  clock := h.clock
  waiting hwaiting := by
    obtain ⟨hnow, hdeadline, hentries⟩ := h.waiting hwaiting
    exact ⟨hnow, hdeadline, fun entry hentry => hentries entry ((reap_perm d).mem_iff.mp hentry)⟩
  unwinding := h.unwinding
  joined := by
    intro entry hentry
    rcases List.mem_append.mp hentry with hold | hnew
    · exact h.joined entry hold
    · exact (List.mem_filter.mp hnew).2

theorem Due.stages (h : Due timeout ticks d) : d.stage = .waiting ∨ d.stage = .unwinding := by
  cases hstage : d.stage with
  | waiting => exact .inl rfl
  | unwinding => exact .inr rfl
  | returned => exact absurd hstage h.live

theorem Due.bound (h : Due timeout ticks d) : d.now ≤ timeout + abortUnwindGrace := by
  rcases h.stages with hwaiting | hunwinding
  · have := (h.waiting hwaiting).1
    omega
  · exact (h.unwinding hunwinding).2.1

theorem Due.undisturbed (h : Due timeout ticks d) (hearly : d.now < timeout) :
    ∀ entry ∈ d.tasks ++ d.joined, entry.2.undisturbed := by
  rcases h.stages with hwaiting | hunwinding
  · exact (h.waiting hwaiting).2.2
  · have := (h.unwinding hunwinding).1
    omega

theorem punctual_returned (h : Due timeout ticks d) (hempty : d.tasks = []) :
    Punctual timeout ticks { d with stage := .returned } where
  bound := h.bound
  live hlive := absurd rfl hlive
  waiting hwaiting := by cases hwaiting
  unwinding hunwinding := by cases hunwinding
  early _ _ := hempty
  undisturbed := h.undisturbed
  joined := h.joined

theorem Fate.onAbort_over (fate : Fate) : fate.onAbort.over = fate.over := by
  cases fate <;> rfl

theorem abortAll_ne_nil (h : d.tasks ≠ []) : (abortAll d).tasks ≠ [] := by
  unfold abortAll
  simpa using h

theorem abortAll_over (h : ∀ entry ∈ d.tasks, entry.2.over = false) :
    ∀ entry ∈ (abortAll d).tasks, entry.2.over = false := by
  intro entry hentry
  obtain ⟨before, hbefore, rfl⟩ := List.mem_map.mp hentry
  rw [Fate.onAbort_over]
  exact h before hbefore

theorem punctual_timedOut (h : Due timeout ticks d) (hopen : d.tasks ≠ [])
    (hover : ∀ entry ∈ d.tasks, entry.2.over = false) (hdue : d.deadline ≤ d.now) :
    Punctual timeout ticks (timedOut d) := by
  unfold timedOut
  rcases h.stages with hwaiting | hunwinding
  · obtain ⟨hnow, hdeadline, _⟩ := h.waiting hwaiting
    -- The timer of the first stage runs out at the timeout, not later.
    have htimeout : d.now = timeout := by omega
    have hgrace : 0 < abortUnwindGrace := by decide
    rw [hwaiting]
    exact
      { bound := h.bound
        live := fun _ => ⟨h.clock, by simp only [abortAll]; omega, abortAll_ne_nil hopen, abortAll_over hover⟩
        waiting := fun hstage => by cases hstage
        unwinding := fun _ => ⟨htimeout.ge, by simp only [htimeout]⟩
        early := fun hstage => by cases hstage
        undisturbed := fun hearly => absurd htimeout hearly.ne
        joined := h.joined }
  · obtain ⟨htimeout, hnow, hdeadline⟩ := h.unwinding hunwinding
    rw [hunwinding]
    exact
      { bound := h.bound
        live := fun hlive => absurd rfl hlive
        waiting := fun hstage => by cases hstage
        unwinding := fun hstage => by cases hstage
        early := fun _ hearly => by
          dsimp only at hearly
          omega
        undisturbed := h.undisturbed
        joined := h.joined }

theorem punctual_poll (h : Due timeout ticks d) : Punctual timeout ticks (poll d) := by
  have hreaped := due_reap h
  have hover : ∀ entry ∈ (reap d).tasks, entry.2.over = false := fun entry => reap_tasks
  obtain ⟨hempty, heq⟩ | ⟨hopen, hdue, heq⟩ | ⟨hopen, hearly, heq⟩ := poll_cases d
  · rw [heq]
    exact punctual_returned hreaped hempty
  · rw [heq]
    exact punctual_timedOut hreaped hopen hover hdue
  · rw [heq]
    exact
      { bound := hreaped.bound
        live := fun _ => ⟨hreaped.clock, hearly, hopen, hover⟩
        waiting := fun hwaiting => (hreaped.waiting hwaiting).2.1
        unwinding := fun hunwinding => ⟨(hreaped.unwinding hunwinding).1, (hreaped.unwinding hunwinding).2.2⟩
        early := fun hreturned => absurd hreturned hreaped.live
        undisturbed := hreaped.undisturbed
        joined := hreaped.joined }

theorem Fate.onEnd_undisturbed {fate : Fate} (h : fate.undisturbed) : fate.onEnd.undisturbed := by
  cases fate <;> simp_all [Fate.onEnd, Fate.undisturbed]

theorem Fate.onDrop_undisturbed {fate : Fate} (h : fate.undisturbed) : fate.onDrop.undisturbed := by
  cases fate <;> simp_all [Fate.onDrop, Fate.undisturbed]

/-- A change of fates that disturbs nobody. -/
theorem undisturbed_become {change : Fate → Fate}
    (hchange : ∀ fate : Fate, fate.undisturbed → (change fate).undisturbed) (task : ℕ)
    (h : ∀ entry ∈ d.tasks ++ d.joined, entry.2.undisturbed) :
    ∀ entry ∈ d.tasks.map (become change task) ++ d.joined, entry.2.undisturbed := by
  intro entry hentry
  rcases List.mem_append.mp hentry with htask | hjoined
  · obtain ⟨before, hbefore, rfl⟩ := List.mem_map.mp htask
    have hundisturbed := h before (List.mem_append_left _ hbefore)
    unfold become
    split_ifs
    · exact hchange _ hundisturbed
    · exact hundisturbed
  · exact h entry (List.mem_append_right _ hjoined)

/-- Time passes, and the entries stay undisturbed if they are so before the timeout. -/
theorem due_of_punctual (d' : State) (h : Punctual timeout ticks d) (hlive : d.stage ≠ .returned)
    (hstage : d'.stage = d.stage) (hdeadline : d'.deadline = d.deadline) (hjoined : d'.joined = d.joined)
    (hnow : d'.now ≤ d.now + 1)
    (hentries : (∀ entry ∈ d.tasks ++ d.joined, entry.2.undisturbed) →
      ∀ entry ∈ d'.tasks ++ d'.joined, entry.2.undisturbed)
    (hmono : d.now ≤ d'.now) : Due timeout d'.now d' where
  live := by rw [hstage]; exact hlive
  clock := rfl
  waiting := by
    intro hwaiting
    rw [hstage] at hwaiting
    have htimeout := h.waiting hwaiting
    have hbefore := (h.live hlive).2.1
    exact ⟨by omega, by omega, hentries (h.undisturbed (by omega))⟩
  unwinding := by
    intro hunwinding
    rw [hstage] at hunwinding
    have hgrace := h.unwinding hunwinding
    have hbefore := (h.live hlive).2.1
    exact ⟨by omega, by omega, by omega⟩
  joined := by rw [hjoined]; exact h.joined

theorem due_occur (e : Event) (hlive : d.stage ≠ .returned) (h : Punctual timeout ticks d) :
    Due timeout (ticks + [e].count .tick) (occur d e) := by
  have hclock : (occur d e).now = ticks + [e].count .tick := by
    cases e <;> simp [occur, (h.live hlive).1]
  rw [← hclock]
  cases e with
  | tick => exact due_of_punctual (occur d .tick) h hlive rfl rfl rfl le_rfl id (Nat.le_succ _)
  | ended task =>
    exact due_of_punctual (occur d (.ended task)) h hlive rfl rfl rfl (Nat.le_succ _)
      (undisturbed_become (fun _ => Fate.onEnd_undisturbed) task) le_rfl
  | dropped task =>
    exact due_of_punctual (occur d (.dropped task)) h hlive rfl rfl rfl (Nat.le_succ _)
      (undisturbed_become (fun _ => Fate.onDrop_undisturbed) task) le_rfl

theorem step_returned (e : Event) (h : d.stage = .returned) : step d e = d := by
  unfold step
  rw [h]

theorem step_live (e : Event) (h : d.stage ≠ .returned) : step d e = poll (occur d e) := by
  unfold step
  split
  · exact absurd ‹_› h
  · rfl

/-- A drain that has returned keeps what it has. -/
theorem Punctual.later {later : ℕ} (h : Punctual timeout ticks d) (hreturned : d.stage = .returned) :
    Punctual timeout later d where
  bound := h.bound
  live hlive := absurd hreturned hlive
  waiting := h.waiting
  unwinding := h.unwinding
  early := h.early
  undisturbed := h.undisturbed
  joined := h.joined

theorem punctual_step (e : Event) (h : Punctual timeout ticks d) :
    Punctual timeout (ticks + [e].count .tick) (step d e) := by
  by_cases hreturned : d.stage = .returned
  · rw [step_returned e hreturned]
    exact h.later hreturned
  · rw [step_live e hreturned]
    exact punctual_poll (due_occur e hreturned h)

theorem punctual_run (events : List Event) (h : Punctual timeout ticks d) :
    Punctual timeout (ticks + events.count .tick) (run step d events) := by
  induction events generalizing d ticks with
  | nil => exact h
  | cons e events ih =>
    have hrest := ih (punctual_step e h)
    rw [Nat.add_assoc, ← List.count_append] at hrest
    exact hrest

theorem handedOver_undisturbed (s : Server.State) : ∀ entry ∈ handedOver s, entry.2.undisturbed := by
  intro entry hentry
  obtain ⟨task, _, rfl⟩ := List.mem_map.mp hentry
  dsimp only
  split_ifs <;> rfl

theorem punctual_drain (s : Server.State) (timeout : ℕ) : Punctual timeout 0 (drain (handedOver s) timeout) := by
  apply punctual_poll
  exact
    { live := by simp
      clock := rfl
      waiting := fun _ => ⟨Nat.zero_le _, rfl, by simpa using handedOver_undisturbed s⟩
      unwinding := fun hunwinding => by cases hunwinding
      joined := List.forall_mem_nil _ }

/-! ## The tasks it waits for -/

def ids (d : State) : List ℕ := (d.tasks ++ d.joined).map Prod.fst

theorem ids_become (change : Fate → Fate) (task : ℕ) (entries : List (ℕ × Fate)) :
    (entries.map (become change task)).map Prod.fst = entries.map Prod.fst := by
  rw [List.map_map]
  refine List.map_congr_left fun entry _ => ?_
  simp only [Function.comp_apply, become]
  split_ifs <;> rfl

theorem ids_occur (d : State) (e : Event) : ids (occur d e) = ids d := by
  unfold ids
  cases e <;> simp only [occur, List.map_append, ids_become]

theorem ids_timedOut (d : State) : ids (timedOut d) = ids d := by
  unfold timedOut
  split
  · simp [ids, abortAll, Function.comp_def]
  · rfl
  · rfl

theorem ids_poll (d : State) : (ids (poll d)).Perm (ids d) := by
  have hreap : (ids (reap d)).Perm (ids d) := (reap_perm d).map _
  obtain ⟨_, heq⟩ | ⟨_, _, heq⟩ | ⟨_, _, heq⟩ := poll_cases d
  · rw [heq]
    exact hreap
  · rw [heq, ids_timedOut]
    exact hreap
  · rw [heq]
    exact hreap

theorem ids_step (e : Event) (d : State) : (ids (step d e)).Perm (ids d) := by
  by_cases hreturned : d.stage = .returned
  · rw [step_returned e hreturned]
  · rw [step_live e hreturned]
    exact (ids_poll _).trans (.of_eq (ids_occur d e))

theorem ids_drain (s : Server.State) (timeout : ℕ) : (ids (drain (handedOver s) timeout)).Perm s.tasks := by
  apply (ids_poll _).trans
  simp [ids, handedOver, Function.comp_def]

theorem ids_run (s : Server.State) (timeout : ℕ) (events : List Event) :
    (ids (run step (drain (handedOver s) timeout) events)).Perm s.tasks :=
  run_invariant (P := fun d => (ids d).Perm s.tasks) (fun d e h => (ids_step e d).trans h) (ids_drain s timeout)

/-- Whatever happens after the shutdown: each task of the set is waited for or joined; the
    drain is over once the timeout and the grace have passed, and before that it is over
    exactly if every task is joined; until then it misses no task that is over, and no task
    is cancelled before the timeout. -/
theorem drain_in_time (s : Server.State) (raw : Option Text) (events : List Event) :
    let timeout := parseDrainTimeout raw
    let d := run step (drain (handedOver s) timeout) events
    (ids d).Perm s.tasks ∧ (∀ entry ∈ d.joined, entry.2.over) ∧
      d.now ≤ timeout + abortUnwindGrace ∧
      (timeout + abortUnwindGrace ≤ events.count .tick → d.stage = .returned) ∧
      (d.now < timeout + abortUnwindGrace → (d.stage = .returned ↔ d.tasks = [])) ∧
      (d.stage ≠ .returned → d.now = events.count .tick ∧ ∀ entry ∈ d.tasks, entry.2.over = false) ∧
      (d.now < timeout → ∀ entry ∈ d.tasks ++ d.joined, entry.2.undisturbed) := by
  intro timeout d
  have hpunctual : Punctual timeout (events.count .tick) d := by
    simpa using punctual_run events (punctual_drain s timeout)
  refine ⟨ids_run s timeout events, hpunctual.joined, hpunctual.bound, ?_, ?_, ?_, hpunctual.undisturbed⟩
  · intro hticks
    by_contra hlive
    obtain ⟨hnow, hbefore, _⟩ := hpunctual.live hlive
    have hdeadline : d.deadline ≤ timeout + abortUnwindGrace := by
      cases hstage : d.stage with
      | waiting =>
        have := hpunctual.waiting hstage
        omega
      | unwinding => exact (hpunctual.unwinding hstage).2.le
      | returned => exact absurd hstage hlive
    omega
  · intro hearly
    refine ⟨fun hreturned => hpunctual.early hreturned hearly, ?_⟩
    intro hempty
    by_contra hlive
    exact (hpunctual.live hlive).2.2.1 hempty
  · intro hlive
    obtain ⟨hnow, _, _, hover⟩ := hpunctual.live hlive
    exact ⟨hnow, hover⟩

/-- A connection that does not end, and a timeout of one second: the drain is over after two. -/
theorem drain_in_time_stuck :
    let s := Server.step (run Server.step (Server.start 1) [.accepted]) .shutdown
    (run step (drain (handedOver s) (parseDrainTimeout (some ['1']))) (List.replicate 2000 .tick)).stage =
      .returned := by
  intro s
  have htime := drain_in_time s (some ['1']) (List.replicate 2000 .tick)
  exact htime.2.2.2.1 (by rw [List.count_replicate_self]; decide)

end Drain

end TrinoGateway
