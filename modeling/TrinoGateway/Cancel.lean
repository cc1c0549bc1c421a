/-
  TrinoGateway.Cancel — the slot `active_query_id`, which names the query a CancelRequest
  cancels (`src/cancel.rs`). Every submission writes it, and the guard of every row stream
  clears it (`ClearOnDrop`, `src/trino_stream.rs`), whoever wrote it last.

  A live stream waits in the stash of a portal or has been handed to `pgwire` (`Place`).
  Proved: `cancel_hits_latest`, over every run. As long as a guard runs only while the stream
  of the latest statement is not alive elsewhere (`Harmless`), the slot names the latest
  statement whenever its stream is alive. The first step that is not harmless leaves the slot
  empty with that stream alive. A batch of two `SELECT`s is enough (`cancel_ignored`): its
  streams are consumed in order, and the first one's end clears the id of the second.
-/

import TrinoGateway.Connection

namespace TrinoGateway.Cancel

open TrinoGateway.Lib
open TrinoGateway.Types
open TrinoGateway.Pipeline
open TrinoGateway.Portals
open TrinoGateway.Connection

/-- The query a CancelRequest with the key of this connection cancels. -/
def onCancelRequest (c : Conn) : Option Text := c.session.link.activeQueryId

/-- Where a live stream is. -/
inductive Place where
  | stash (name : Text)
  | client (n : ℕ)
  deriving DecidableEq

def rowsAt (portals : PortalCache) (streams : ℕ → Option TrinoRows) : Place → Option TrinoRows
  | .stash name => (portals.lookup name).bind (·.response.trinoRows?)
  | .client n => streams n

def live (c : Conn) : Place → Option TrinoRows := rowsAt c.session.portals c.streams

/-! ## The invariant -/

/-- Live streams are numbered apart, and the slot names the latest statement if its stream is one of them. -/
structure Tracked (l : Link) (held : Place → Option TrinoRows) : Prop where
  numbered : ∀ n rows, held (.client n) = some rows → rows.number = n
  submitted : ∀ p rows, held p = some rows → rows.number < l.submitted.length
  apart : ∀ p q rows rows', held p = some rows → held q = some rows' → rows.number = rows'.number → p = q
  slot : ∀ p rows, held p = some rows → rows.number + 1 = l.submitted.length → l.activeQueryId = some rows.id

variable {l l' : Link} {held held' : Place → Option TrinoRows} {resultFormat : Option Format}
  {responses : List Response} {portals : PortalCache} {streams : ℕ → Option TrinoRows} {p : Place} {rows : TrinoRows}

theorem Tracked.mono (h : Tracked l held) (hsub : ∀ p rows, held' p = some rows → held p = some rows) : Tracked l held' :=
  ⟨fun n rows hr => h.numbered n rows (hsub _ _ hr), fun p rows hr => h.submitted p rows (hsub _ _ hr),
    fun p q rows rows' hp hq => h.apart p q rows rows' (hsub _ _ hp) (hsub _ _ hq),
    fun p rows hr => h.slot p rows (hsub _ _ hr)⟩

theorem Tracked.remove (h : Tracked l held) (p : Place) : Tracked l (Function.update held p none) := by
  refine h.mono fun q rows hq => ?_
  rcases update_eq_some hq with ⟨-, hnone⟩ | ⟨-, hq⟩
  · cases hnone
  · exact hq

/-- A run of the pipeline makes the statements before it old, or leaves the slot alone. -/
theorem Tracked.grow (h : Tracked l held) (ha : Adds resultFormat l l' responses) : Tracked l' held := by
  have hle := ha.grows
  refine ⟨h.numbered, fun p rows hr => (h.submitted p rows hr).trans_le hle, h.apart, fun p rows hr hlast => ?_⟩
  have hold := h.submitted p rows hr
  rw [ha.quiet (by omega)]
  exact h.slot p rows hr (by omega)

/-- Put a stream where no other one has its number. -/
theorem Tracked.place (h : Tracked l held) (hclient : ∀ n, p = .client n → rows.number = n)
    (hsub : rows.number < l.submitted.length)
    (hslot : rows.number + 1 = l.submitted.length → l.activeQueryId = some rows.id)
    (hnew : ∀ q rows', held q = some rows' → rows'.number = rows.number → q = p) :
    Tracked l (Function.update held p (some rows)) := by
  have hcases : ∀ q rows', Function.update held p (some rows) q = some rows' →
      q = p ∧ rows' = rows ∨ q ≠ p ∧ held q = some rows' := by
    intro q rows' hq
    rcases update_eq_some hq with ⟨hqp, hplaced⟩ | hold
    · exact Or.inl ⟨hqp, (Option.some.inj hplaced).symm⟩
    · exact Or.inr hold
  refine ⟨fun n x hx => ?_, fun q x hx => ?_, fun q q' x x' hx hx' heq => ?_, fun q x hx hlast => ?_⟩
  · rcases hcases _ x hx with ⟨hp, rfl⟩ | ⟨-, hx⟩
    · exact hclient n hp.symm
    · exact h.numbered n x hx
  · rcases hcases q x hx with ⟨-, rfl⟩ | ⟨-, hx⟩
    · exact hsub
    · exact h.submitted q x hx
  · rcases hcases q x hx with ⟨hp, rfl⟩ | ⟨hq, hold⟩ <;> rcases hcases q' x' hx' with ⟨hp', rfl⟩ | ⟨hq', hold'⟩
    · rw [hp, hp']
    · exact absurd (hnew q' x' hold' heq.symm) hq'
    · exact absurd (hnew q x hold heq) hq
    · exact h.apart q q' x x' hold hold' heq
  · rcases hcases q x hx with ⟨-, rfl⟩ | ⟨-, hx⟩
    · exact hslot hlast
    · exact h.slot q x hx hlast

/-- The slot may be cleared when no live stream is that of the latest statement. -/
theorem Tracked.clear (h : Tracked l held) (hno : ∀ p rows, held p = some rows → rows.number + 1 ≠ l.submitted.length) :
    Tracked { l with activeQueryId := none } held :=
  ⟨h.numbered, h.submitted, h.apart, fun p rows hr hlast => absurd hlast (hno p rows hr)⟩

/-! ## Places -/

theorem rowsAt_update (portals : PortalCache) (streams : ℕ → Option TrinoRows) (n : ℕ) (found : Option TrinoRows) :
    rowsAt portals (Function.update streams n found) = Function.update (rowsAt portals streams) (.client n) found := by
  funext p
  cases p with
  | stash name => rw [Function.update_of_ne (by simp), rowsAt, rowsAt]
  | client m =>
    by_cases h : m = n
    · rw [h, rowsAt, Function.update_self, Function.update_self]
    · rw [rowsAt, Function.update_of_ne h, Function.update_of_ne (by simpa using h), rowsAt]

theorem rowsAt_erase (portals : PortalCache) (streams : ℕ → Option TrinoRows) (name : Text) :
    rowsAt (portals.erase name) streams = Function.update (rowsAt portals streams) (.stash name) none := by
  funext p
  cases p with
  | client m => rw [Function.update_of_ne (by simp), rowsAt, rowsAt]
  | stash other =>
    by_cases h : other = name
    · rw [h, rowsAt, AList.lookup_erase, Function.update_self, Option.bind_none]
    · rw [rowsAt, AList.lookup_erase_ne h, Function.update_of_ne (by simpa using h), rowsAt]

theorem rowsAt_insert (portals : PortalCache) (streams : ℕ → Option TrinoRows) (name : Text)
    (entry : CachedPortalResponse) : rowsAt (portals.insert name entry) streams =
      Function.update (rowsAt portals streams) (.stash name) entry.response.trinoRows? := by
  funext p
  cases p with
  | client m => rw [Function.update_of_ne (by simp), rowsAt, rowsAt]
  | stash other =>
    by_cases h : other = name
    · rw [h, rowsAt, AList.lookup_insert, Function.update_self, Option.bind_some]
    · rw [rowsAt, AList.lookup_insert_ne h, Function.update_of_ne (by simpa using h), rowsAt]

/-! ## Streams are delivered and stashed -/

/-- Streams whose numbers are new and in order go to the client one by one. -/
theorem Tracked.deliver (h : Tracked l (rowsAt portals streams))
    (hordered : (forwarded responses).Pairwise fun rows rows' => rows.number < rows'.number)
    (hnew : ∀ rows ∈ forwarded responses, rows.number < l.submitted.length ∧
      (rows.number + 1 = l.submitted.length → l.activeQueryId = some rows.id) ∧
      ∀ q rows', rowsAt portals streams q = some rows' → rows'.number ≠ rows.number) :
    Tracked l (rowsAt portals (deliver streams responses)) := by
  rw [Connection.deliver]
  generalize forwarded responses = all at hordered hnew
  induction all generalizing streams with
  | nil => exact h
  | cons rows rest ih =>
    obtain ⟨hfirst, hordered⟩ := List.pairwise_cons.mp hordered
    obtain ⟨hsub, hslot, hfresh⟩ := hnew rows List.mem_cons_self
    rw [List.foldl_cons]
    have hplaced : Tracked l (rowsAt portals (Function.update streams rows.number (some rows))) := by
      rw [rowsAt_update]
      exact h.place (fun n hn => Place.client.inj hn) hsub hslot fun q x hx heq => absurd heq (hfresh q x hx)
    refine ih hplaced hordered fun rows' hr => ?_
    obtain ⟨hsub', hslot', hfresh'⟩ := hnew rows' (List.mem_cons_of_mem _ hr)
    refine ⟨hsub', hslot', fun q x hx heq => ?_⟩
    rw [rowsAt_update] at hx
    rcases update_eq_some hx with ⟨-, hplaced⟩ | ⟨-, hx⟩
    · have := hfirst rows' hr
      rw [← heq, ← Option.some.inj hplaced] at this
      exact lt_irrefl _ this
    · exact hfresh' q x hx heq

/-- The numbers a run of the pipeline gives out are new. -/
theorem Tracked.new (h : Tracked l held) (ha : Adds resultFormat l l' responses) (hr : rows ∈ forwarded responses)
    (q : Place) (rows' : TrinoRows) (hq : held q = some rows') : rows'.number ≠ rows.number := by
  have := h.submitted q rows' hq
  have := ha.numbers rows hr
  omega

theorem Tracked.run (h : Tracked l (rowsAt portals streams)) (ha : Adds resultFormat l l' responses) :
    Tracked l' (rowsAt portals (Connection.deliver streams responses)) :=
  (h.grow ha).deliver ha.ordered fun rows hr => ⟨(ha.numbers rows hr).2, ha.slot rows hr, h.new ha hr⟩

theorem Tracked.insertCached {name query : Text} {response : Response} (h : Tracked l (rowsAt portals streams))
    (ha : Adds resultFormat l l' [response]) :
    Tracked l' (rowsAt (insertCached portals name ⟨query, response⟩) streams) := by
  rw [Portals.insertCached]
  split_ifs
  · rw [rowsAt_insert]
    cases hr : response.trinoRows? with
    | none => exact (h.grow ha).remove _
    | some rows =>
      have hmem : rows ∈ forwarded [response] := by simp [forwarded, hr]
      have hstash : ∀ n, Place.stash name = .client n → rows.number = n := by
        intro n hn
        cases hn
      exact (h.grow ha).place hstash (ha.numbers rows hmem).2 (ha.slot rows hmem)
        fun q x hx heq => absurd heq (h.new ha hmem q x hx)
  · exact h.grow ha

/-- A stashed response goes to the client. -/
theorem Tracked.serve {name : Text} {entry : CachedPortalResponse} (h : Tracked l (rowsAt portals streams))
    (hl : portals.lookup name = some entry) :
    Tracked l (rowsAt (portals.erase name) (Connection.deliver streams [entry.response])) := by
  have hgone : Tracked l (rowsAt (portals.erase name) streams) := by
    rw [rowsAt_erase]
    exact h.remove _
  refine hgone.deliver ?_ fun rows hr => ?_
  · rw [forwarded]
    cases hr : entry.response.trinoRows? <;> simp [hr]
  · have hat : rowsAt portals streams (.stash name) = some rows := by
      simpa [forwarded, rowsAt, hl] using hr
    refine ⟨h.submitted _ _ hat, h.slot _ _ hat, fun q rows' hq heq => ?_⟩
    rw [rowsAt_erase] at hq
    rcases update_eq_some hq with ⟨-, hnone⟩ | ⟨hn, hq⟩
    · cases hnone
    · exact hn (h.apart q (.stash name) rows' rows hq hat heq)

/-! ## Steps -/

variable (G : Gateway)

/-- The guard of statement `n` runs. -/
def GuardRuns (c : Conn) : Message → ℕ → Prop
  | .poll k, n => n = k ∧ ∃ rows, c.streams n = some rows ∧ (rows.stream.poll G.crates).2.phase = .finished
  | .drop k, n => n = k ∧ ∃ rows, c.streams n = some rows ∧ rows.stream.guarded = true
  | _, _ => False

/-- The number of a live stream of the latest statement. -/
def LiveLatest (c : Conn) (n : ℕ) : Prop :=
  n + 1 = c.session.link.submitted.length ∧ ∃ p rows, live c p = some rows ∧ rows.number = n

/-- A guard runs only if the latest statement's stream is its own or is not alive. -/
def Harmless (c : Conn) (m : Message) : Prop := ∀ n k, GuardRuns G c m n → LiveLatest c k → k = n

variable {G} {c : Conn}

/-- The guard of a stream runs and the stream is gone. -/
theorem guard_tracked {n : ℕ} (h : Tracked c.session.link (live c)) (hs : c.streams n = some rows)
    (hown : ∀ k, LiveLatest c k → k = n) :
    Tracked (clearSlot { c with streams := Function.update c.streams n none }).session.link
      (live (clearSlot { c with streams := Function.update c.streams n none })) := by
  show Tracked { c.session.link with activeQueryId := none }
    (rowsAt c.session.portals (Function.update c.streams n none))
  rw [rowsAt_update]
  refine (h.remove (.client n)).clear fun p rows' hp hlast => ?_
  rcases update_eq_some hp with ⟨-, hnone⟩ | ⟨hpn, hp⟩
  · cases hnone
  · have hn : rows'.number = n := hown _ ⟨hlast, p, rows', hp, rfl⟩
    exact hpn (h.apart p (.client n) rows' rows hp hs (hn.trans (h.numbered n rows hs).symm))

theorem poll_tracked (h : Tracked c.session.link (live c)) {n : ℕ} (hm : Harmless G c (.poll n)) :
    Tracked (pollStream G c n).session.link (live (pollStream G c n)) := by
  rcases pollStream_cases G c n with ⟨-, hp⟩ | ⟨rows, hs, ⟨hphase, hp⟩ | ⟨-, hp⟩⟩ <;> rw [hp]
  · exact h
  · exact guard_tracked h hs fun k => hm n k ⟨rfl, rows, hs, hphase⟩
  · show Tracked c.session.link (rowsAt c.session.portals (Function.update c.streams n _))
    rw [rowsAt_update]
    have hn : rows.number = n := h.numbered n rows hs
    refine h.place (fun k hk => hn.trans (Place.client.inj hk)) (h.submitted (.client n) rows hs)
      (h.slot (.client n) rows hs) fun q x hx heq => ?_
    exact h.apart q (.client n) x rows hx hs heq

theorem drop_tracked (h : Tracked c.session.link (live c)) {n : ℕ} (hm : Harmless G c (.drop n)) :
    Tracked (dropStream c n).session.link (live (dropStream c n)) := by
  rcases dropStream_cases c n with ⟨-, hp⟩ | ⟨rows, hs, ⟨hg, hp⟩ | ⟨-, hp⟩⟩ <;> rw [hp]
  · exact h
  · exact guard_tracked h hs fun k => hm n k ⟨rfl, rows, hs, hg⟩
  · show Tracked c.session.link (rowsAt c.session.portals (Function.update c.streams n none))
    rw [rowsAt_update]
    exact h.remove _

theorem describe_tracked (h : Tracked c.session.link (live c)) (portal : Portal) :
    Tracked (describe G c portal).session.link (live (describe G c portal)) := by
  show Tracked (doDescribePortal G c.session portal).2.link
    (rowsAt (doDescribePortal G c.session portal).2.portals c.streams)
  have ha := firstResponse_adds G c.session.link portal.query (some portal.resultColumnFormat)
  rcases describe_cases (G := G) c.session portal with ⟨e, -, hd⟩ | ⟨response, rest, hr, hd⟩
  · rw [hd]
    exact h.grow ha
  · rw [hr] at ha
    rw [hd]
    exact h.insertCached ha

theorem execute_tracked (h : Tracked c.session.link (live c)) (portal : Portal) :
    Tracked (execute G c portal).session.link (live (execute G c portal)) := by
  show Tracked (doQuery G c.session portal).2.link (rowsAt (doQuery G c.session portal).2.portals
    (Connection.deliver c.streams (doQuery G c.session portal).1.toOption.toList))
  by_cases hs : Serves c.session portal.name portal.query
  · obtain ⟨entry, hl, hq⟩ := hs
    rw [doQuery_served hl hq]
    exact h.serve hl
  · rw [doQuery_afresh hs]
    have hgone : Tracked c.session.link (rowsAt (c.session.portals.erase portal.name) c.streams) := by
      rw [rowsAt_erase]
      exact h.remove _
    exact hgone.run (firstResponse_adds G c.session.link portal.query (some portal.resultColumnFormat))

theorem describeStatement_tracked (h : Tracked c.session.link (live c)) (text : Text) :
    Tracked (doDescribeStatement G c.session text).2.link
      (rowsAt (doDescribeStatement G c.session text).2.portals c.streams) := by
  rw [describeStatement_session]
  split_ifs
  · exact h.grow (processQuery_adds G c.session.link text none)
  · exact h

theorem step_tracked (c : Conn) (m : Message) (h : Tracked c.session.link (live c)) (hm : Harmless G c m) :
    Tracked (step G c m).session.link (live (step G c m)) := by
  cases m with
  | bind portal => exact h
  | describePortal name =>
    cases hb : c.bound name with
    | none => simpa [step, hb] using h
    | some portal => simpa [step, hb] using describe_tracked h portal
  | execute name =>
    cases hb : c.bound name with
    | none => simpa [step, hb] using h
    | some portal => simpa [step, hb] using execute_tracked h portal
  | describeStatement text => exact describeStatement_tracked h text
  | query text => exact Tracked.run h (processQuery_adds G c.session.link text none)
  | poll n => exact poll_tracked h hm
  | drop n => exact drop_tracked h hm

theorem run_tracked {ms : List Message} (h : Along (step G) (Harmless G) .fresh ms) :
    Tracked (run (step G) .fresh ms).session.link (live (run (step G) .fresh ms)) := by
  have hfresh : ∀ p, live .fresh p = none := by rintro (_ | _) <;> rfl
  refine h.invariant (fun c m => step_tracked c m) ⟨?_, ?_, ?_, ?_⟩ <;> simp [hfresh]

theorem step_of_guardRuns {m : Message} {n : ℕ} (h : GuardRuns G c m n) :
    step G c m = clearSlot { c with streams := Function.update c.streams n none } := by
  cases m with
  | poll k =>
    obtain ⟨rfl, rows, hs, hphase⟩ := h
    simp [step, pollStream, hs, hphase]
  | drop k =>
    obtain ⟨rfl, rows, hs, hguarded⟩ := h
    simp [step, dropStream, hs, hguarded]
  | _ => exact h.elim

/-- The guard of one stream runs and the stream of a later statement lives on. -/
theorem latest_survives {m : Message} {n k : ℕ} (h : Tracked c.session.link (live c)) (hg : GuardRuns G c m n)
    (hk : LiveLatest c k) (hne : k ≠ n) : onCancelRequest (step G c m) = none ∧ LiveLatest (step G c m) k := by
  obtain ⟨hlast, p, rows, hp, rfl⟩ := hk
  rw [step_of_guardRuns hg]
  refine ⟨rfl, hlast, p, rows, ?_, rfl⟩
  show rowsAt c.session.portals (Function.update c.streams n none) p = some rows
  have hpn : p ≠ .client n := by
    rintro rfl
    exact hne (h.numbered n rows hp)
  rw [rowsAt_update, Function.update_of_ne hpn]
  exact hp

theorem cancel_hits_latest (G : Gateway) (ms : List Message) (h : Along (step G) (Harmless G) .fresh ms) :
    let c := run (step G) .fresh ms
    (∀ n rows, c.streams n = some rows → n + 1 = c.session.link.submitted.length → onCancelRequest c = some rows.id) ∧
    ∀ m, ¬ Harmless G c m → onCancelRequest (step G c m) = none ∧ ∃ k, LiveLatest (step G c m) k := by
  intro c
  have htracked : Tracked c.session.link (live c) := run_tracked h
  constructor
  · intro n rows hs hlast
    have hn : rows.number = n := htracked.numbered n rows hs
    exact htracked.slot (.client n) rows hs (by omega)
  · intro m hm
    simp only [Harmless, not_forall] at hm
    obtain ⟨n, k, hg, hk, hne⟩ := hm
    obtain ⟨hnone, hlive⟩ := latest_survives htracked hg hk hne
    exact ⟨hnone, k, hlive⟩

/-- Trino answers every statement with one row, under an id of its own. -/
def rowTrino : Trino where
  reply requests _ :=
    .last ⟨natText requests.length, some [⟨"x".toList, "integer".toList⟩], some (.direct [[.null]]), none⟩
  getAll _ _ := .ok []

def oneSelect : List Message := [.query "SELECT a".toList, .poll 0]

theorem cancel_hits_only_statement :
    let c := run (step (splitting rowTrino)) .fresh oneSelect
    ∃ rows, c.streams 0 = some rows ∧ rows.stream.guarded = true ∧ onCancelRequest c = some rows.id := by
  have hbefore : (step (splitting rowTrino) .fresh (.query "SELECT a".toList)).session.link.submitted.length = 1 := by
    decide +kernel
  have hafter : (run (step (splitting rowTrino)) .fresh oneSelect).session.link.submitted.length = 1 := by decide +kernel
  have hstarted : ((run (step (splitting rowTrino)) .fresh oneSelect).streams 0).map (·.stream.guarded) = some true := by
    decide +kernel
  have hharmless : Along (step (splitting rowTrino)) (Harmless (splitting rowTrino)) .fresh oneSelect := by
    refine ⟨fun n k hg => hg.elim, ?_, trivial⟩
    rintro n k ⟨rfl, -⟩ ⟨hk, -⟩
    omega
  obtain ⟨rows, hs, hguarded⟩ := Option.map_eq_some_iff.mp hstarted
  exact ⟨rows, hs, hguarded, (cancel_hits_latest (splitting rowTrino) oneSelect hharmless).1 0 rows hs hafter.symm⟩

/-- The first stream of a batch has ended and the second one has started: a CancelRequest finds no query. -/
theorem cancel_ignored :
    let c := run (step (splitting rowTrino)) .fresh [.query "SELECT a;SELECT b".toList, .poll 0, .poll 0, .poll 1]
    c.session.link.submitted = ["SELECT a".toList, "SELECT b".toList] ∧
    (∃ rows, c.streams 1 = some rows ∧ rows.stream.guarded = true) ∧ onCancelRequest c = none := by
  intro c
  have hstarted : (c.streams 1).map (·.stream.guarded) = some true := by decide +kernel
  exact ⟨by decide +kernel, Option.map_eq_some_iff.mp hstarted, by decide +kernel⟩

end TrinoGateway.Cancel
