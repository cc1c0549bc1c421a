/-
  TrinoGateway.Shutdown — the drain seen from the server. To `Server` a task is gone once it
  is aborted; to `Drain` it unwinds, and is cancelled or ends.

  Proved: `drain_follows`: after any run of the accept loop and a shutdown, whatever happens
  to the drain is what happens to the server in some order of its events: the phases agree,
  the same tasks are waited for, and a task is where its fate says.
-/

import TrinoGateway.Accounting
import TrinoGateway.Drain

namespace TrinoGateway.Drain

open TrinoGateway.Lib

variable {d : State} {timeout ticks : ℕ}

def Stage.phase : Stage → Server.Phase
  | .waiting => .draining
  | .unwinding => .aborting
  | .returned => .stopped

/-- Where the server has a task of that fate: one that ended while it unwound is an aborted one to it. -/
def Matches (s : Server.State) (entry : ℕ × Fate) : Prop :=
  (entry.1 ∈ s.running ↔ entry.2 = .running) ∧
    match entry.2 with
    | .running => True
    | .ended => entry.1 ∈ s.completed ∨ entry.1 ∈ s.aborted
    | .unwinding | .cancelled => entry.1 ∈ s.aborted

structure Follows (d : State) (s : Server.State) : Prop where
  phase : s.phase = d.stage.phase
  tasks : s.tasks = if d.stage = .returned then [] else d.tasks.map Prod.fst
  entries : ∀ entry ∈ d.tasks ++ d.joined, Matches s entry
  joined : ∀ entry ∈ d.joined, entry.2.over
  distinct : (ids d).Nodup

variable {s : Server.State} {entry : ℕ × Fate} {task : ℕ}

theorem running_nodup (h : Server.Accounted s) : s.running.Nodup := by
  have hnodup : (Server.accounts s).Nodup := h.nodup_iff.mpr List.nodup_range
  unfold Server.accounts at hnodup
  rw [List.append_assoc, List.append_assoc, List.nodup_append] at hnodup
  exact hnodup.2.1.of_append_left

theorem matches_exit_other (hother : entry.1 ≠ task) (h : Matches s entry) : Matches (Server.exit s task) entry := by
  obtain heq | ⟨_, heq⟩ := Server.exit_cases s task
  · rw [heq]
    exact h
  · obtain ⟨hrunning, hfate⟩ := h
    rw [heq]
    refine ⟨(List.mem_erase_of_ne hother).trans hrunning, ?_⟩
    cases hentry : entry.2 with
    | running => trivial
    | ended =>
      rw [hentry] at hfate
      exact hfate.imp_left (List.mem_append_left _)
    | unwinding =>
      rw [hentry] at hfate
      exact hfate
    | cancelled =>
      rw [hentry] at hfate
      exact hfate

/-- The end of a task that does not run is no event to the server. -/
theorem exit_of_not_running (h : task ∉ s.running) : Server.exit s task = s := by
  obtain heq | ⟨hrunning, _⟩ := Server.exit_cases s task
  · exact heq
  · exact absurd hrunning h

theorem Fate.onEnd_ne_running (fate : Fate) : fate.onEnd ≠ .running := by
  cases fate <;> decide

theorem matches_exit_same {fate : Fate} (haccounted : Server.Accounted s) (h : Matches s (task, fate)) :
    Matches (Server.exit s task) (task, fate.onEnd) := by
  obtain ⟨hrunning, hfate⟩ := h
  by_cases hlive : fate = .running
  · have hmem := hrunning.mpr hlive
    have heq : Server.exit s task =
        { s with
          permits := s.permits + 1
          running := s.running.erase task
          completed := s.completed ++ [task] } := by
      unfold Server.exit
      rw [if_pos (by simpa using hmem)]
    rw [heq, hlive]
    have hended : task ∉ s.running.erase task := (running_nodup haccounted).not_mem_erase
    exact ⟨iff_of_false hended (Fate.onEnd_ne_running .running),
      .inl (List.mem_append_right _ (List.mem_singleton_self task))⟩
  · rw [exit_of_not_running fun hmem => hlive (hrunning.mp hmem)]
    refine ⟨iff_of_false (fun hmem => hlive (hrunning.mp hmem)) (Fate.onEnd_ne_running _), ?_⟩
    cases fate with
    | running => exact absurd rfl hlive
    | ended => exact hfate
    | unwinding => exact .inr hfate
    | cancelled => exact hfate

theorem follows_ended (task : ℕ) (haccounted : Server.Accounted s) (h : Follows d s) :
    Follows (occur d (.ended task)) (Server.exit s task) := by
  have hphase : (Server.exit s task).phase = s.phase ∧ (Server.exit s task).tasks = s.tasks := by
    obtain heq | ⟨_, heq⟩ := Server.exit_cases s task <;> simp [heq]
  refine ⟨hphase.1.trans h.phase, ?_, ?_, h.joined, by rw [ids_occur]; exact h.distinct⟩
  · rw [hphase.2, h.tasks]
    simp only [occur, ids_become]
  · intro entry hentry
    rcases List.mem_append.mp hentry with htask | hjoined
    · obtain ⟨before, hbefore, rfl⟩ := List.mem_map.mp htask
      have hmatches := h.entries before (List.mem_append_left _ hbefore)
      unfold become
      split_ifs with hsame
      · rw [← hsame]
        exact matches_exit_same haccounted hmatches
      · exact matches_exit_other hsame hmatches
    · have hmatches := h.entries entry (List.mem_append_right _ hjoined)
      by_cases hsame : entry.1 = task
      · have hended : task ∉ s.running := by
          intro hmem
          have hover := h.joined entry hjoined
          rw [hmatches.1.mp (hsame ▸ hmem)] at hover
          cases hover
        rw [exit_of_not_running hended]
        exact hmatches
      · exact matches_exit_other hsame hmatches

theorem matches_onDrop {fate : Fate} (h : Matches s (task, fate)) : Matches s (task, fate.onDrop) := by
  cases fate with
  | unwinding => exact ⟨iff_of_false (fun hmem => by cases h.1.mp hmem) (by simp [Fate.onDrop]), h.2⟩
  | running => exact h
  | ended => exact h
  | cancelled => exact h

theorem follows_dropped (task : ℕ) (h : Follows d s) : Follows (occur d (.dropped task)) s := by
  refine ⟨h.phase, ?_, ?_, h.joined, by rw [ids_occur]; exact h.distinct⟩
  · rw [h.tasks]
    simp only [occur, ids_become]
  · intro entry hentry
    rcases List.mem_append.mp hentry with htask | hjoined
    · obtain ⟨before, hbefore, rfl⟩ := List.mem_map.mp htask
      have hmatches := h.entries before (List.mem_append_left _ hbefore)
      unfold become
      split_ifs
      · exact matches_onDrop hmatches
      · exact hmatches
    · exact h.entries entry (List.mem_append_right _ hjoined)

/-- What happens to the drain, as events of the server. -/
def asServer : Event → List Server.Event
  | .tick | .dropped _ => []
  | .ended task => [.exited task .ok]

theorem follows_occur (e : Event) (haccounted : Server.Accounted s) (h : Follows d s) :
    Follows (occur d e) (run Server.step s (asServer e)) := by
  cases e with
  | tick => exact ⟨h.phase, h.tasks, h.entries, h.joined, h.distinct⟩
  | ended task =>
    have hstep : Server.step s (.exited task .ok) = Server.exit s task := by
      unfold Server.step
      cases s.phase <;> rfl
    simp only [asServer, run_cons, run_nil, hstep]
    exact follows_ended task haccounted h
  | dropped task => exact follows_dropped task h

theorem join_ended (hheld : task ∈ s.tasks) (hended : task ∉ s.running) :
    Server.join s task = { s with tasks := s.tasks.erase task } := by
  unfold Server.join
  rw [if_pos (by simp [hheld, hended])]

theorem step_joined (hphase : s.phase = .draining ∨ s.phase = .aborting) :
    Server.step s (.joined task) = Server.joinAll s task := by
  unfold Server.step
  rcases hphase with hdraining | haborting
  · rw [hdraining]
  · rw [haborting]

/-- Joining tasks of the set one after the other, up to its last one. -/
theorem run_joined {gone : List ℕ} (hphase : s.phase = .draining ∨ s.phase = .aborting) (hopen : s.tasks ≠ [])
    (hgone : ∀ task ∈ gone, task ∈ s.tasks ∧ task ∉ s.running) (hdistinct : gone.Nodup) :
    run Server.step s (gone.map .joined) =
      { s with tasks := s.tasks.diff gone, phase := if s.tasks.diff gone = [] then .stopped else s.phase } := by
  induction gone generalizing s with
  | nil => simp [hopen]
  | cons task gone ih =>
    obtain ⟨hheld, hended⟩ := hgone task List.mem_cons_self
    obtain ⟨hnew, hrest⟩ := List.nodup_cons.mp hdistinct
    have hothers : ∀ other ∈ gone, other ∈ s.tasks.erase task ∧ other ∉ s.running := by
      intro other hother
      obtain ⟨hin, hout⟩ := hgone other (List.mem_cons_of_mem task hother)
      have hne : other ≠ task := fun hsame => hnew (hsame ▸ hother)
      exact ⟨(List.mem_erase_of_ne hne).mpr hin, hout⟩
    rw [List.map_cons, run_cons, step_joined hphase, List.diff_cons]
    unfold Server.joinAll
    rw [join_ended hheld hended]
    by_cases hlast : s.tasks.erase task = []
    · -- Nothing is left to be joined after the last task.
      have hnone : gone = [] := by
        rw [List.eq_nil_iff_forall_not_mem]
        intro other hother
        have hin := (hothers other hother).1
        rw [hlast] at hin
        cases hin
      simp [hnone, hlast]
    · simp only [List.isEmpty_iff, hlast, if_false]
      exact ih (s := { s with tasks := s.tasks.erase task }) hphase hlast hothers hrest

theorem diff_over {entries : List (ℕ × Fate)} (h : (entries.map Prod.fst).Nodup) :
    (entries.map Prod.fst).diff ((entries.filter fun entry => entry.2.over).map Prod.fst) =
      (entries.filter fun entry => !entry.2.over).map Prod.fst := by
  rw [h.sdiff_eq_filter, List.filter_map]
  congr 1
  apply List.filter_congr
  intro entry hentry
  have hinj := List.inj_on_of_nodup_map h
  cases hover : entry.2.over with
  | true =>
    have hmem : entry.1 ∈ (entries.filter fun entry => entry.2.over).map Prod.fst :=
      List.mem_map_of_mem (List.mem_filter.mpr ⟨hentry, hover⟩)
    simp only [Function.comp_apply, hmem, not_true_eq_false, decide_false, Bool.not_true]
  | false =>
    have hmem : entry.1 ∉ (entries.filter fun entry => entry.2.over).map Prod.fst := by
      intro hmem
      obtain ⟨other, hother, hsame⟩ := List.mem_map.mp hmem
      obtain ⟨hin, hother⟩ := List.mem_filter.mp hother
      rw [hinj hin hentry hsame, hover] at hother
      cases hother
    simp only [Function.comp_apply, hmem, not_false_eq_true, decide_true, Bool.not_false]

theorem matches_abortAll (h : Matches s entry) (hheld : entry.1 ∈ s.tasks) (hlive : entry.2.over = false) :
    Matches (Server.abortAll s) (entry.1, entry.2.onAbort) := by
  have hgone : entry.1 ∉ (Server.abortAll s).running := by
    simp [Server.abortAll, hheld]
  obtain ⟨task, fate⟩ := entry
  cases fate with
  | running =>
    refine ⟨iff_of_false hgone (by simp [Fate.onAbort]), ?_⟩
    have hrunning : task ∈ s.running := h.1.mpr rfl
    exact List.mem_append_right _ (List.mem_filter.mpr ⟨hrunning, by simpa using hheld⟩)
  | unwinding => exact ⟨iff_of_false hgone (by simp [Fate.onAbort]), List.mem_append_left _ h.2⟩
  | ended => cases hlive
  | cancelled => cases hlive

theorem matches_abortAll_over (h : Matches s entry) (hover : entry.2.over) : Matches (Server.abortAll s) entry := by
  obtain ⟨task, fate⟩ := entry
  have hgone : fate ≠ .running := by
    rintro rfl
    cases hover
  have hended : task ∉ (Server.abortAll s).running := by
    intro hmem
    exact hgone (h.1.mp (List.mem_of_mem_filter hmem))
  refine ⟨iff_of_false hended hgone, ?_⟩
  cases fate with
  | running => exact absurd rfl hgone
  | unwinding => cases hover
  | ended => exact h.2.imp_right (List.mem_append_left _)
  | cancelled => exact List.mem_append_left _ h.2

theorem follows_aborting (hwaiting : d.stage = .waiting) (hover : ∀ entry ∈ d.tasks, entry.2.over = false)
    (h : Follows d s) :
    Follows { abortAll d with stage := .unwinding, deadline := d.now + abortUnwindGrace }
      { Server.abortAll s with phase := .aborting } := by
  have htasks : s.tasks = d.tasks.map Prod.fst := by
    rw [h.tasks, hwaiting]
    rfl
  have hids : (abortAll d).tasks.map Prod.fst = d.tasks.map Prod.fst := by
    simp [abortAll, Function.comp_def]
  refine ⟨rfl, ?_, ?_, h.joined, ?_⟩
  · show s.tasks = (abortAll d).tasks.map Prod.fst
    rw [htasks, hids]
  · intro entry hentry
    rcases List.mem_append.mp hentry with htask | hjoined
    · obtain ⟨before, hbefore, rfl⟩ := List.mem_map.mp htask
      have hheld : before.1 ∈ s.tasks := by
        rw [htasks]
        exact List.mem_map_of_mem hbefore
      exact matches_abortAll (h.entries before (List.mem_append_left _ hbefore)) hheld (hover before hbefore)
    · exact matches_abortAll_over (h.entries entry (List.mem_append_right _ hjoined)) (h.joined entry hjoined)
  · have hdistinct := h.distinct
    unfold ids at hdistinct ⊢
    rw [List.map_append] at hdistinct ⊢
    show ((abortAll d).tasks.map Prod.fst ++ d.joined.map Prod.fst).Nodup
    rw [hids]
    exact hdistinct

theorem Stage.phase_live {stage : Stage} (h : stage ≠ .returned) :
    stage.phase = .draining ∨ stage.phase = .aborting := by
  cases stage with
  | waiting => exact .inl rfl
  | unwinding => exact .inr rfl
  | returned => exact absurd rfl h

/-- What a poll joins, as events of the server. -/
def joins (d : State) : List Server.Event := ((d.tasks.filter fun entry => entry.2.over).map Prod.fst).map .joined

theorem run_joins (hlive : d.stage ≠ .returned) (hopen : d.tasks ≠ []) (h : Follows d s) :
    run Server.step s (joins d) =
      { s with
        tasks := (reap d).tasks.map Prod.fst
        phase := if (reap d).tasks.map Prod.fst = [] then .stopped else s.phase } := by
  have htasks : s.tasks = d.tasks.map Prod.fst := by rw [h.tasks, if_neg hlive]
  have hdistinct : (d.tasks.map Prod.fst).Nodup := by
    have hids := h.distinct
    unfold ids at hids
    rw [List.map_append] at hids
    exact hids.of_append_left
  have hgone : ∀ task ∈ (d.tasks.filter fun entry => entry.2.over).map Prod.fst,
      task ∈ s.tasks ∧ task ∉ s.running := by
    intro task htask
    obtain ⟨entry, hentry, rfl⟩ := List.mem_map.mp htask
    obtain ⟨hin, hover⟩ := List.mem_filter.mp hentry
    refine ⟨by rw [htasks]; exact List.mem_map_of_mem hin, ?_⟩
    intro hrunning
    rw [(h.entries entry (List.mem_append_left _ hin)).1.mp hrunning] at hover
    cases hover
  have hrun := run_joined (by rw [h.phase]; exact Stage.phase_live hlive) (by simpa [htasks] using hopen) hgone
    (hdistinct.sublist (List.filter_sublist.map _))
  rw [htasks, diff_over hdistinct] at hrun
  exact hrun

theorem follows_reap (hlive : d.stage ≠ .returned) (h : Follows d s) :
    Follows (reap d) { s with tasks := (reap d).tasks.map Prod.fst } := by
  refine ⟨h.phase, ?_, ?_, ?_, ?_⟩
  · show (reap d).tasks.map Prod.fst = if d.stage = .returned then [] else (reap d).tasks.map Prod.fst
    rw [if_neg hlive]
  · intro entry hentry
    exact h.entries entry ((reap_perm d).mem_iff.mp hentry)
  · intro entry hentry
    rcases List.mem_append.mp hentry with hold | hnew
    · exact h.joined entry hold
    · exact (List.mem_filter.mp hnew).2
  · exact ((reap_perm d).map Prod.fst).nodup_iff.mpr h.distinct

theorem follows_timedOut (hlive : d.stage ≠ .returned) (hover : ∀ entry ∈ d.tasks, entry.2.over = false)
    (h : Follows d s) : ∃ events, Follows (timedOut d) (run Server.step s events) := by
  have hphase := h.phase
  cases hstage : d.stage with
  | waiting =>
    refine ⟨[.drainTimedOut], ?_⟩
    have hstep : Server.step s .drainTimedOut = { Server.abortAll s with phase := .aborting } := by
      unfold Server.step
      rw [hphase, hstage]
      rfl
    simp only [run_cons, run_nil, hstep, timedOut, hstage]
    exact follows_aborting hstage hover h
  | unwinding =>
    refine ⟨[.graceTimedOut], ?_⟩
    have hstep : Server.step s .graceTimedOut = { s with phase := .stopped, tasks := [] } := by
      unfold Server.step
      rw [hphase, hstage]
      rfl
    simp only [run_cons, run_nil, hstep, timedOut, hstage]
    exact ⟨rfl, rfl, h.entries, h.joined, h.distinct⟩
  | returned => exact absurd hstage hlive

theorem follows_poll (hlive : d.stage ≠ .returned) (hopen : d.tasks ≠ []) (h : Follows d s) :
    ∃ events, Follows (poll d) (run Server.step s events) := by
  have hrun := run_joins hlive hopen h
  have hreaped := follows_reap hlive h
  by_cases hempty : (reap d).tasks = []
  · refine ⟨joins d, ?_⟩
    have heq : poll d = { reap d with stage := .returned } := by
      simp [poll, hempty]
    rw [hrun, heq, if_pos (by simp [hempty])]
    exact ⟨rfl, by simp [hempty], hreaped.entries, hreaped.joined, hreaped.distinct⟩
  · rw [if_neg (by simpa using hempty)] at hrun
    obtain ⟨hnone, _⟩ | ⟨_, _, heq⟩ | ⟨_, _, heq⟩ := poll_cases d
    · exact absurd hnone hempty
    · obtain ⟨events, hevents⟩ := follows_timedOut (d := reap d) hlive (fun entry => reap_tasks) hreaped
      refine ⟨joins d ++ events, ?_⟩
      rw [run_append, hrun, heq]
      exact hevents
    · refine ⟨joins d, ?_⟩
      rw [hrun, heq]
      exact hreaped

theorem follows_step (e : Event) (hopen : d.stage ≠ .returned → d.tasks ≠ []) (haccounted : Server.Accounted s)
    (h : Follows d s) : ∃ events, Follows (step d e) (run Server.step s events) := by
  by_cases hreturned : d.stage = .returned
  · refine ⟨[], ?_⟩
    rw [step_returned e hreturned]
    exact h
  · have hoccur := follows_occur e haccounted h
    have hstage : (occur d e).stage ≠ .returned := by cases e <;> exact hreturned
    have hleft : (occur d e).tasks ≠ [] := by
      have hsome := hopen hreturned
      cases e <;> simpa [occur] using hsome
    obtain ⟨events, hevents⟩ := follows_poll hstage hleft hoccur
    refine ⟨asServer e ++ events, ?_⟩
    rw [run_append, step_live e hreturned]
    exact hevents

theorem follows_run (events : List Event) (hpunctual : Punctual timeout ticks d) (haccounted : Server.Accounted s)
    (h : Follows d s) : ∃ after, Follows (run step d events) (run Server.step s after) := by
  induction events generalizing d s ticks with
  | nil => exact ⟨[], h⟩
  | cons e events ih =>
    obtain ⟨first, hfirst⟩ := follows_step e (fun hlive => (hpunctual.live hlive).2.2.1) haccounted h
    have hrest : Server.Accounted (run Server.step s first) := run_invariant Server.accounted_step haccounted
    obtain ⟨rest, hfollows⟩ := ih (punctual_step e hpunctual) hrest hfirst
    refine ⟨first ++ rest, ?_⟩
    rw [run_append]
    exact hfollows

theorem handedOver_fst (s : Server.State) : (handedOver s).map Prod.fst = s.tasks := by
  simp [handedOver, Function.comp_def]

/-- The call, after a shutdown that left something to wait for. -/
theorem follows_called (timeout : ℕ) (hphase : s.phase = .draining) (hdistinct : s.tasks.Nodup)
    (hended : ∀ task ∈ s.tasks, task ∈ s.running ∨ task ∈ s.completed) :
    Follows ⟨.waiting, 0, timeout, handedOver s, []⟩ s := by
  refine ⟨hphase, (handedOver_fst s).symm, ?_, List.forall_mem_nil _, ?_⟩
  · rw [List.append_nil]
    intro entry hentry
    obtain ⟨task, htask, rfl⟩ := List.mem_map.mp hentry
    by_cases hrunning : task ∈ s.running
    · simp [Matches, hrunning]
    · have hcompleted := (hended task htask).resolve_left hrunning
      simp [Matches, hrunning, hcompleted]
  · unfold ids
    rw [List.append_nil, handedOver_fst]
    exact hdistinct

theorem follows_handOver (timeout : ℕ) (hserving : s.phase = .serving) (htracked : Server.Tracked s)
    (hdistinct : Server.Distinct s) :
    ∃ after,
      Follows (drain (handedOver (Server.handOver s)) timeout) (run Server.step (Server.handOver s) after) := by
  by_cases hempty : s.tasks = []
  · refine ⟨[], ?_⟩
    have hcall : drain (handedOver (Server.handOver s)) timeout = ⟨.returned, 0, timeout, [], []⟩ := by
      simp [drain, poll, reap, handedOver, Server.handOver, hempty]
    rw [hcall]
    exact ⟨by simp [Server.handOver, hempty, Stage.phase], hempty, List.forall_mem_nil _, List.forall_mem_nil _,
      List.nodup_nil⟩
  · have hphase : (Server.handOver s).phase = .draining := by simp [Server.handOver, hempty]
    have hcalled := follows_called timeout hphase hdistinct.1 (htracked hserving).2
    exact follows_poll (by simp) (by simpa [handedOver, Server.handOver] using hempty) hcalled

/-- After any run of the accept loop and a shutdown, whatever happens to the drain is what
    happens to the server in some order of its events. -/
theorem drain_follows (maxConnections : ℕ) (served : List Server.Event) (raw : Option Text) (events : List Event)
    (hserving : (run Server.step (Server.start maxConnections) served).phase = .serving) :
    let s := Server.step (run Server.step (Server.start maxConnections) served) .shutdown
    ∃ after, Follows (run step (drain (handedOver s) (parseDrainTimeout raw)) events) (run Server.step s after) := by
  intro s
  have htracked : Server.Tracked (run Server.step (Server.start maxConnections) served) :=
    run_invariant Server.tracked_step fun _ => ⟨List.forall_mem_nil _, List.forall_mem_nil _⟩
  have hdistinct : Server.Distinct (run Server.step (Server.start maxConnections) served) :=
    run_invariant Server.distinct_step ⟨List.nodup_nil, List.forall_mem_nil _⟩
  have haccounted : Server.Accounted (run Server.step (Server.start maxConnections) served) :=
    run_invariant Server.accounted_step (.refl [])
  have hs : s = Server.handOver (run Server.step (Server.start maxConnections) served) := Server.step_shutdown hserving
  obtain ⟨first, hfirst⟩ := follows_handOver (parseDrainTimeout raw) hserving htracked hdistinct
  rw [hs]
  -- The sockets stay accounted for in whatever the server does.
  have hrest : Server.Accounted (run Server.step (Server.handOver _) first) :=
    run_invariant Server.accounted_step haccounted
  obtain ⟨rest, hfollows⟩ := follows_run events (punctual_drain _ _) hrest hfirst
  refine ⟨first ++ rest, ?_⟩
  rw [run_append]
  exact hfollows

/-- One connection, which ends after a tick. -/
theorem drain_follows_one :
    ∃ after, Follows ⟨.returned, 1, 25000, [], [(0, .ended)]⟩
      (run Server.step (Server.step (run Server.step (Server.start 1) [.accepted]) .shutdown) after) :=
  drain_follows 1 [.accepted] none [.tick, .ended 0] rfl

end TrinoGateway.Drain
