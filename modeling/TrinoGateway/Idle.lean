/-
  TrinoGateway.Idle — the slot `active_query_id` of an idle connection. A statement that Trino
  accepts writes its id there and gets a row stream; the guard that clears the slot is in the
  stream's body, and the body does not run before the first poll (`src/trino_stream.rs`). So
  a stream that is dropped before its first poll leaves the id behind: the stream of a
  statement without columns (`process_single_statement`), of a Describe of a statement, of a
  portal the stash has no room for or discards, and of every statement of a text but the first.

  Proved: `idle_slot_empty`, over every run. If no step drops, before its first poll, the
  stream of the statement whose id the slot holds (`DropsUnpolled`), the slot is empty
  whenever no stream is alive. The condition is needed: after such a run a step that leaves
  no stream alive leaves the slot empty if and only if it meets the condition. A stream may
  be dropped unpolled while the slot holds another id (`overtaken_slot_empty`); an `INSERT`
  drops its own (`insert_keeps_id`).
-/

import TrinoGateway.Cancel

namespace TrinoGateway.Idle

open TrinoGateway.Lib
open TrinoGateway.Types
open TrinoGateway.Pipeline
open TrinoGateway.Portals
open TrinoGateway.Connection
open TrinoGateway.Cancel

variable (G : Gateway)

/-! ## Streams that are made and dropped -/

/-- Trino answers the statement it is sent after `requests`: `execute_trino_query` writes the slot. -/
def Answers (requests : List Request) (sql : Text) : Prop := ∃ page, (G.trino.reply requests sql).get = .ok page

/-- Trino accepts it: `execute_trino_query` returns a stream and leaves the id in the slot. -/
def Accepts (requests : List Request) (sql : Text) : Prop :=
  ∃ found, discoverFrom [] (G.trino.reply requests sql) = .ok found

/-- `sql` was submitted after `sent`. -/
def SentAfter (l : Link) (sent : List Request) (sql : Text) : Prop := sent ++ [.statement sql] <+: l.requests

/-- The `n`-th statement of the connection is submitted between `l` and `l'`, and Trino accepts it. -/
def Created (l l' : Link) (n : ℕ) : Prop :=
  ∃ sent sql, SentAfter l' sent sql ∧ l.requests.length ≤ sent.length ∧
    (sent.filterMap Request.statement?).length = n ∧ Accepts G sent sql

/-- The `n`-th statement is the last one that Trino answered, it was accepted, and `id` is its id. -/
def Latest (l : Link) (n : ℕ) (id : Text) : Prop :=
  ∃ sent sql, SentAfter l sent sql ∧ (sent.filterMap Request.statement?).length = n ∧ Accepts G sent sql ∧
    (G.trino.reply sent sql).queryId = id ∧
    ∀ later sql', SentAfter l later sql' → sent.length < later.length → ¬ Answers G later sql'

def Alive (c : Conn) (n : ℕ) : Prop := ∃ p rows, live c p = some rows ∧ rows.number = n

def Unpolled (c : Conn) (n : ℕ) : Prop := ∃ p rows, live c p = some rows ∧ rows.number = n ∧ rows.stream.guarded = false

/-- The step drops a stream that was never polled: one from before the step whose statement's id is in the slot, or
    one it made; and no later statement has written the slot. -/
def DropsUnpolled (c : Conn) (m : Message) : Prop :=
  ∃ n id, Latest G (step G c m).session.link n id ∧
    (Unpolled c n ∧ c.session.link.activeQueryId = some id ∨ Created G c.session.link (step G c m).session.link n) ∧
    (∀ k, m = .poll k → k ≠ n) ∧ ¬ Alive (step G c m) n

def IsIdle (c : Conn) : Prop := ∀ p, live c p = none

/-! ## What a run of the pipeline leaves in the slot -/

variable {G}

theorem Accepts.answers {requests : List Request} {sql : Text} (h : Accepts G requests sql) : Answers G requests sql := by
  obtain ⟨found, hfound⟩ := h
  cases hr : G.trino.reply requests sql with
  | failed message =>
    rw [hr] at hfound
    cases hfound
  | last result => exact ⟨_, by rw [hr]; rfl⟩
  | more result nextUri => exact ⟨_, by rw [hr]; rfl⟩

/-- An error leaves the slot empty, unless Trino did not answer at all. -/
theorem execute_slot_of_error {X : Crates} {reply : Reply} {slot : Option Text} {resultFormat : Option Format}
    {e : PgWireError} (h : (executeTrinoQuery X reply slot resultFormat).1 = .error e) :
    (∃ page, reply.get = .ok page) ∧ (executeTrinoQuery X reply slot resultFormat).2 = none ∨
      (∀ page, reply.get ≠ .ok page) ∧ (executeTrinoQuery X reply slot resultFormat).2 = slot := by
  unfold executeTrinoQuery at h ⊢
  split
  · next hget =>
    refine Or.inr ⟨fun page hpage => ?_, rfl⟩
    rw [hget] at hpage
    cases hpage
  · next hget =>
    refine Or.inl ⟨⟨_, hget⟩, ?_⟩
    split
    · rfl
    · split
      · rfl
      · simp_all

variable {l l₁ l₂ : Link} {n : ℕ} {id : Text} {before : List Request} {sql : Text} {responses more : List Response}
  {resultFormat : Option Format} {text : Text}

theorem SentAfter.later (h : SentAfter l before sql) (hgrows : l.requests <+: l₁.requests) : SentAfter l₁ before sql :=
  h.trans hgrows

/-- A statement is sent before the link has grown, or after. -/
theorem SentAfter.split (h : SentAfter l₁ before sql) (hgrows : l.requests <+: l₁.requests) :
    SentAfter l before sql ∨ l.requests.length ≤ before.length := by
  by_cases hle : l.requests.length ≤ before.length
  · exact Or.inr hle
  · exact Or.inl (List.prefix_of_prefix_length_le h hgrows (by simpa using hle))

theorem SentAfter.number_lt (h : SentAfter l before sql) :
    (before.filterMap Request.statement?).length < l.submitted.length := by
  obtain ⟨rest, hrest⟩ := h
  rw [Link.submitted, ← hrest]
  simp [Request.statement?]

theorem SentAfter.number_le (h : SentAfter l₁ before sql) (hgrows : l.requests <+: l₁.requests)
    (hlen : l.requests.length ≤ before.length) : l.submitted.length ≤ (before.filterMap Request.statement?).length := by
  have hsent : l.requests <+: before :=
    List.prefix_of_prefix_length_le hgrows ((List.prefix_append _ _).trans h) hlen
  exact (hsent.filterMap _).length_le

/-- Only the last request is new. -/
theorem SentAfter.of_request {slot : Option Text} {sql' : Text}
    (h : SentAfter { l.request (.statement sql') with activeQueryId := slot } before sql)
    (hlen : l.requests.length ≤ before.length) : before = l.requests ∧ sql = sql' := by
  have heq : before ++ [.statement sql] = l.requests ++ [.statement sql'] := by
    refine List.IsPrefix.eq_of_length h ?_
    have := h.length_le
    simp only [Link.request, List.length_append, List.length_singleton] at this ⊢
    omega
  obtain ⟨rfl, hlast⟩ := List.append_inj' heq rfl
  cases hlast
  exact ⟨rfl, rfl⟩

theorem Created.lt (h : Created G l l₁ n) (hgrows : l.requests <+: l₁.requests) :
    l.submitted.length < l₁.submitted.length := by
  obtain ⟨sent, sql, hsent, hlen, -, -⟩ := h
  exact (hsent.number_le hgrows hlen).trans_lt hsent.number_lt

theorem Created.later (h : Created G l l₁ n) (hgrows : l₁.requests <+: l₂.requests) : Created G l l₂ n := by
  obtain ⟨sent, sql, hsent, hrest⟩ := h
  exact ⟨sent, sql, hsent.later hgrows, hrest⟩

theorem Created.earlier (h : Created G l₁ l₂ n) (hgrows : l.requests <+: l₁.requests) : Created G l l₂ n := by
  obtain ⟨sent, sql, hsent, hlen, hrest⟩ := h
  exact ⟨sent, sql, hsent, hgrows.length_le.trans hlen, hrest⟩

theorem Latest.number_lt (h : Latest G l n id) : n < l.submitted.length := by
  obtain ⟨sent, sql, hsent, rfl, -⟩ := h
  exact hsent.number_lt

/-- No statement that Trino answered comes later. -/
theorem Latest.le_number (h : Latest G l n id) (hsent : SentAfter l before sql) (hanswers : Answers G before sql) :
    (before.filterMap Request.statement?).length ≤ n := by
  obtain ⟨first, sql', hfirst, rfl, -, -, hlast⟩ := h
  by_contra hlt
  refine hlast before sql hsent ?_ hanswers
  by_contra hle
  have hpre : before <+: first := List.prefix_of_prefix_length_le ((List.prefix_append _ _).trans hsent)
    ((List.prefix_append _ _).trans hfirst) (by omega)
  exact hlt (hpre.filterMap _).length_le

variable (G) in
/-- No statement submitted between `l` and `l'` is answered. -/
def Quiet (l l' : Link) : Prop :=
  ∀ sent sql, SentAfter l' sent sql → l.requests.length ≤ sent.length → ¬ Answers G sent sql

theorem Quiet.trans (h : Quiet G l l₁) (h' : Quiet G l₁ l₂) (hgrows : l₁.requests <+: l₂.requests) : Quiet G l l₂ := by
  intro sent sql hsent hlen
  rcases hsent.split hgrows with hearly | hlate
  · exact h sent sql hearly hlen
  · exact h' sent sql hsent hlate

/-- The latest statement stays so as long as no other one is answered. -/
theorem Latest.quiet_iff (hgrows : l.requests <+: l₁.requests) (hquiet : Quiet G l l₁) :
    Latest G l₁ n id ↔ Latest G l n id := by
  constructor
  · rintro ⟨sent, sql, hsent, hn, haccepts, hid, hlast⟩
    have hearly := (hsent.split hgrows).resolve_right fun hlate => hquiet sent sql hsent hlate haccepts.answers
    exact ⟨sent, sql, hearly, hn, haccepts, hid, fun later sql' hlater => hlast later sql' (hlater.later hgrows)⟩
  · rintro ⟨sent, sql, hsent, hn, haccepts, hid, hlast⟩
    refine ⟨sent, sql, hsent.later hgrows, hn, haccepts, hid, fun later sql' hlater hlt => ?_⟩
    rcases hlater.split hgrows with hearly | hlate
    · exact hlast later sql' hearly hlt
    · exact hquiet later sql' hlater hlate

variable (G) in
/-- What becomes of the slot: it gets the id of a statement submitted between `l` and `l'`, is left alone, or is
    cleared because the last statement that was answered failed. -/
inductive Writes (l l' : Link) : Prop
  | named {n : ℕ} {id : Text} : Created G l l' n → Latest G l' n id → l'.activeQueryId = some id → Writes l l'
  | kept : Quiet G l l' → l'.activeQueryId = l.activeQueryId → Writes l l'
  | cleared : (∀ n id, ¬ Latest G l' n id) → l'.activeQueryId = none → Writes l l'

theorem Writes.trans (h : Writes G l l₁) (h' : Writes G l₁ l₂) (hgrows : l.requests <+: l₁.requests)
    (hgrows' : l₁.requests <+: l₂.requests) : Writes G l l₂ := by
  cases h' with
  | named hcreated hlatest hslot => exact .named (hcreated.earlier hgrows) hlatest hslot
  | cleared hnone hslot => exact .cleared hnone hslot
  | kept hquiet hslot =>
    cases h with
    | named hcreated hlatest hslot' =>
      exact .named (hcreated.later hgrows') ((Latest.quiet_iff hgrows' hquiet).mpr hlatest) (hslot.trans hslot')
    | kept hquiet' hslot' => exact .kept (hquiet'.trans hquiet hgrows') (hslot.trans hslot')
    | cleared hnone hslot' =>
      exact .cleared (fun n id hlatest => hnone n id ((Latest.quiet_iff hgrows' hquiet).mp hlatest)) (hslot.trans hslot')

/-- The slot is set if it was and its statement is still the latest, or if the latest statement is new. -/
theorem Writes.slot_ne_none (h : Writes G l l₁) (hlatest : Latest G l₁ n id)
    (hn : l.activeQueryId ≠ none ∨ Created G l l₁ n) : l₁.activeQueryId ≠ none := by
  cases h with
  | named _ _ hslot =>
    rw [hslot]
    exact Option.some_ne_none _
  | kept hquiet hslot =>
    rw [hslot]
    refine hn.resolve_right ?_
    rintro ⟨sent, sql, hsent, hlen, -, haccepts⟩
    exact hquiet sent sql hsent hlen haccepts.answers
  | cleared hnone _ => exact absurd hlatest (hnone _ _)

/-- The slot after a run, and the streams it hands over. -/
structure Leaves (G : Gateway) (l l' : Link) (responses : List Response) : Prop where
  grows : l.requests <+: l'.requests
  unpolled : ∀ rows ∈ forwarded responses, rows.stream.guarded = false
  slot : Writes G l l'

theorem Leaves.append (h : Leaves G l l₁ responses) (h' : Leaves G l₁ l₂ more) : Leaves G l l₂ (responses ++ more) := by
  refine ⟨h.grows.trans h'.grows, fun rows hr => ?_, h.slot.trans h'.slot h.grows h'.grows⟩
  rw [forwarded_append, List.mem_append] at hr
  exact hr.elim (h.unpolled rows) (h'.unpolled rows)

theorem Leaves.sublist (h : Leaves G l l₁ responses) (hsub : more.Sublist responses) : Leaves G l l₁ more :=
  { h with unpolled := fun rows hr => h.unpolled rows ((hsub.filterMap _).subset hr) }

/-- Nothing is submitted. -/
theorem Leaves.idle (hgrows : l.requests <+: l₁.requests) (hsub : l₁.submitted = l.submitted)
    (hslot : l₁.activeQueryId = l.activeQueryId) (hnone : ∀ r ∈ responses, r.trinoRows? = none) :
    Leaves G l l₁ responses := by
  have hnil : forwarded responses = [] := List.filterMap_eq_nil_iff.mpr hnone
  refine ⟨hgrows, by simp [hnil], .kept (fun sent sql hsent hlen _ => ?_) hslot⟩
  have hlt := (hsent.number_le hgrows hlen).trans_lt hsent.number_lt
  rw [hsub] at hlt
  exact lt_irrefl _ hlt

/-- A statement is submitted. If Trino accepts it, its id is left; if Trino does not answer, the slot is left alone. -/
theorem Leaves.sent {slot : Option Text} (hunpolled : ∀ rows ∈ forwarded responses, rows.stream.guarded = false)
    (hslot : Accepts G l.requests sql ∧ slot = some (G.trino.reply l.requests sql).queryId ∨
      ¬ Accepts G l.requests sql ∧ Answers G l.requests sql ∧ slot = none ∨
      ¬ Answers G l.requests sql ∧ slot = l.activeQueryId) :
    Leaves G l { l.request (.statement sql) with activeQueryId := slot } responses := by
  refine ⟨List.prefix_append _ _, hunpolled, ?_⟩
  have hsent : SentAfter { l.request (.statement sql) with activeQueryId := slot } l.requests sql := List.prefix_rfl
  rcases hslot with ⟨haccepts, rfl⟩ | ⟨hrefused, hanswers, rfl⟩ | ⟨hno, rfl⟩
  · refine .named ⟨l.requests, sql, hsent, le_rfl, rfl, haccepts⟩ ⟨l.requests, sql, hsent, rfl, haccepts, rfl, ?_⟩ rfl
    intro later sql' hlater hlt
    have := (hlater.of_request hlt.le).1
    exact absurd hlt (by rw [this]; exact lt_irrefl _)
  · refine .cleared ?_ rfl
    rintro n id ⟨sent, sql', hsent', rfl, haccepts, -, hlast⟩
    by_cases hlen : l.requests.length ≤ sent.length
    · obtain ⟨rfl, rfl⟩ := hsent'.of_request hlen
      exact hrefused haccepts
    · exact hlast l.requests sql hsent (by omega) hanswers
  · refine .kept (fun sent sql' hsent' hlen => ?_) rfl
    obtain ⟨rfl, rfl⟩ := hsent'.of_request hlen
    exact hno

theorem submit_leaves (l : Link) (sql : Text) (resultFormat : Option Format) :
    Leaves G l (submit G l sql resultFormat).2 ((submit G l sql resultFormat).1.toOption.getD []) := by
  have hresult := execute_result (X := G.crates) (G.trino.reply l.requests sql) l.activeQueryId resultFormat
  rcases he : executeTrinoQuery G.crates (G.trino.reply l.requests sql) l.activeQueryId resultFormat with ⟨r, slot⟩
  rw [he] at hresult
  cases hd : discoverFrom [] (G.trino.reply l.requests sql) with
  | error message =>
    rw [hd] at hresult
    obtain rfl : r = .error (trinoError message) := hresult
    have hslot := execute_slot_of_error (X := G.crates) (by rw [he])
    rw [he] at hslot
    have hrefused : ¬ Accepts G l.requests sql := by
      rintro ⟨found, hfound⟩
      rw [hd] at hfound
      cases hfound
    simp only [submit, he]
    refine .sent (List.forall_mem_nil _) (Or.inr ?_)
    rcases hslot with h | ⟨hsilent, h⟩
    · exact Or.inl ⟨hrefused, h⟩
    · refine Or.inr ⟨?_, h⟩
      rintro ⟨page, hpage⟩
      exact hsilent page hpage
  | ok found =>
    obtain ⟨columns, initialRows, nextUri⟩ := found
    rw [hd] at hresult
    have hslot := execute_slot (X := G.crates) (by rw [he]; exact hresult)
    rw [he] at hslot
    obtain rfl : slot = some (G.trino.reply l.requests sql).queryId := hslot
    obtain rfl : r = .ok (_, _) := hresult
    have haccepts : Accepts G l.requests sql := ⟨_, hd⟩
    simp only [submit, he]
    refine .sent (fun rows hr => ?_) (Or.inl ⟨haccepts, rfl⟩)
    rw [Except.toOption, Option.getD_some] at hr
    split_ifs at hr
    · cases hr
    · obtain rfl := List.mem_singleton.mp hr
      rfl

theorem single_leaves (G : Gateway) (l : Link) (stmt : Text) (resultFormat : Option Format) :
    Leaves G l (processSingleStatement G l stmt resultFormat).2
      ((processSingleStatement G l stmt resultFormat).1.toOption.getD []) := by
  rw [processSingleStatement]
  cases hi : intercepted G stmt with
  | some result =>
    obtain ⟨response, rfl, hlocal⟩ := intercepted_built G hi
    exact .idle List.prefix_rfl rfl rfl (List.forall_mem_singleton.mpr (trinoRows?_of_local hlocal))
  | none =>
    cases hd : Catalog.dynamicTable (parse G stmt) with
    | some table =>
      have hgrows : l.requests <+: (l.request (.lookup table.sql)).requests := List.prefix_append _ _
      have hsub := submitted_request_lookup l table.sql
      rcases respond_cases G.crates table (G.trino.getAll l.requests table.sql) with ⟨response, h, hlocal⟩ | ⟨e, h⟩
      · simp only [h]
        exact .idle hgrows hsub rfl (List.forall_mem_singleton.mpr (trinoRows?_of_local hlocal))
      · simp only [h]
        exact .idle hgrows hsub rfl (List.forall_mem_nil _)
    | none => exact submit_leaves l _ _

theorem leaves_runs : Runs (Leaves G) where
  nil _ := .idle List.prefix_rfl rfl rfl (List.forall_mem_nil _)
  error _ _ := .idle List.prefix_rfl rfl rfl (List.forall_mem_singleton.mpr rfl)
  append h h' := h.append h'
  sublist h hsub := h.sublist hsub

theorem processQuery_leaves (G : Gateway) (l : Link) (text : Text) (resultFormat : Option Format) :
    Leaves G l (processQuery G l text resultFormat).2 ((processQuery G l text resultFormat).1.toOption.getD []) :=
  leaves_runs.processQuery (fun l stmt => single_leaves G l stmt resultFormat) l text

/-! ## Steps -/

variable (G) in
/-- A slot that is set has the id of the latest statement, whose stream is alive; streams stand under their numbers,
    and none in the stash was polled. -/
structure Attended (c : Conn) : Prop where
  slot : ∀ id, c.session.link.activeQueryId = some id → ∃ n, Latest G c.session.link n id ∧ Alive c n
  numbered : ∀ n rows, c.streams n = some rows → rows.number = n
  stash : ∀ name rows, live c (.stash name) = some rows → rows.stream.guarded = false

variable {c : Conn} {m : Message}

theorem deliver_keeps {streams : ℕ → Option TrinoRows} (h : streams n ≠ none) : deliver streams responses n ≠ none := by
  rw [deliver]
  generalize forwarded responses = all
  induction all generalizing streams with
  | nil => exact h
  | cons rows all ih =>
    apply ih
    show Function.update streams rows.number (some rows) n ≠ none
    by_cases hn : n = rows.number
    · rw [hn, Function.update_self]
      exact Option.some_ne_none rows
    · rwa [Function.update_of_ne hn]

theorem deliver_numbered {streams : ℕ → Option TrinoRows} (h : ∀ n rows, streams n = some rows → rows.number = n) :
    ∀ n rows, deliver streams responses n = some rows → rows.number = n :=
  fun n rows hrows => (deliver_cases hrows).elim (h n rows) And.right

/-- A step that keeps the streams of the client. -/
theorem Attended.slot_step (h : Attended G c) (hm : ¬ DropsUnpolled G c m) (hpoll : ∀ k, m ≠ .poll k)
    (hgrows : c.session.link.requests <+: (step G c m).session.link.requests)
    (hwrites : Writes G c.session.link (step G c m).session.link)
    (hkeep : ∀ n, c.streams n ≠ none → (step G c m).streams n ≠ none)
    (hnumbered : ∀ n rows, (step G c m).streams n = some rows → rows.number = n) :
    ∀ id, (step G c m).session.link.activeQueryId = some id →
      ∃ n, Latest G (step G c m).session.link n id ∧ Alive (step G c m) n := by
  intro id hset
  have halive : ∀ n, Latest G (step G c m).session.link n id →
      (Unpolled c n ∧ c.session.link.activeQueryId = some id ∨
        Created G c.session.link (step G c m).session.link n) → Alive (step G c m) n := by
    intro n hlatest hn
    by_contra hdead
    exact hm ⟨n, id, hlatest, hn, fun k hk => absurd hk (hpoll k), hdead⟩
  cases hwrites with
  | named hcreated hlatest hslot =>
    obtain rfl := Option.some.inj (hslot.symm.trans hset)
    exact ⟨_, hlatest, halive _ hlatest (Or.inr hcreated)⟩
  | cleared _ hslot =>
    rw [hslot] at hset
    cases hset
  | kept hquiet hslot =>
    rw [hslot] at hset
    obtain ⟨n, hlatest, p, rows, hp, rfl⟩ := h.slot id hset
    have hlatest' := (Latest.quiet_iff hgrows hquiet).mpr hlatest
    refine ⟨rows.number, hlatest', ?_⟩
    by_cases hguarded : rows.stream.guarded = true
    · -- A stream that was polled is with the client, and stays there.
      cases p with
      | stash name =>
        rw [h.stash name rows hp] at hguarded
        cases hguarded
      | client k =>
        have hk : c.streams k = some rows := hp
        obtain ⟨rows', hrows'⟩ := Option.ne_none_iff_exists'.mp (hkeep k (by rw [hk]; exact Option.some_ne_none _))
        exact ⟨.client k, rows', hrows', (hnumbered k rows' hrows').trans (h.numbered k rows hk).symm⟩
    · exact halive _ hlatest' (Or.inl ⟨⟨p, rows, hp, rfl, by simpa using hguarded⟩, hset⟩)

theorem update_numbered {streams : ℕ → Option TrinoRows} (h : ∀ n rows, streams n = some rows → rows.number = n)
    (k : ℕ) : ∀ n rows, Function.update streams k none n = some rows → rows.number = n := by
  intro n rows hrows
  rcases update_eq_some hrows with ⟨-, hnone⟩ | ⟨-, hrows⟩
  · cases hnone
  · exact h n rows hrows

theorem clearSlot_attended (h : Attended G c) (n : ℕ) :
    Attended G (clearSlot { c with streams := Function.update c.streams n none }) := by
  refine ⟨fun id hset => ?_, update_numbered h.numbered n, h.stash⟩
  cases hset

theorem poll_portals (c : Conn) (k : ℕ) : (pollStream G c k).session.portals = c.session.portals := by
  rcases pollStream_cases G c k with ⟨-, hp⟩ | ⟨rows, -, ⟨-, hp⟩ | ⟨-, hp⟩⟩ <;> simp only [hp, clearSlot]

theorem poll_requests (c : Conn) (k : ℕ) : (pollStream G c k).session.link.requests = c.session.link.requests := by
  rcases pollStream_cases G c k with ⟨-, hp⟩ | ⟨rows, -, ⟨-, hp⟩ | ⟨-, hp⟩⟩ <;> simp only [hp, clearSlot]

theorem poll_streams (c : Conn) {k : ℕ} (h : n ≠ k) : (pollStream G c k).streams n = c.streams n := by
  rcases pollStream_cases G c k with ⟨-, hp⟩ | ⟨rows, -, ⟨-, hp⟩ | ⟨-, hp⟩⟩ <;>
    simp only [hp, clearSlot, Function.update_of_ne h]

/-- A poll leaves the other streams alone. -/
theorem poll_alive (h : Attended G c) {k : ℕ} (hn : n ≠ k) (halive : Alive c n) : Alive (pollStream G c k) n := by
  obtain ⟨p, rows, hp, rfl⟩ := halive
  cases p with
  | stash name =>
    refine ⟨.stash name, rows, ?_, rfl⟩
    show ((pollStream G c k).session.portals.lookup name).bind _ = _
    rw [poll_portals]
    exact hp
  | client n =>
    have hne : n ≠ k := by rwa [h.numbered n rows hp] at hn
    exact ⟨.client n, rows, (poll_streams c hne).trans hp, rfl⟩

theorem poll_drops_none (h : Attended G c) {k : ℕ} : ¬ DropsUnpolled G c (.poll k) := by
  rintro ⟨n, id, -, ⟨⟨p, rows, hp, hrows, -⟩, -⟩ | hn, hother, hdead⟩
  · exact hdead (poll_alive h (hother k rfl).symm ⟨p, rows, hp, hrows⟩)
  · have hlt := hn.lt (by rw [step, poll_requests])
    rw [Link.submitted, Link.submitted, step, poll_requests] at hlt
    exact lt_irrefl _ hlt

theorem poll_attended (h : Attended G c) (k : ℕ) : Attended G (pollStream G c k) := by
  rcases pollStream_cases G c k with ⟨-, hp⟩ | ⟨rows, hs, ⟨-, hp⟩ | ⟨-, hp⟩⟩
  · rw [hp]
    exact h
  · rw [hp]
    exact clearSlot_attended h k
  · have hnumber := h.numbered k rows hs
    refine ⟨fun id hset => ?_, ?_, ?_⟩
    · rw [hp] at hset
      obtain ⟨n, hlatest, halive⟩ := h.slot id hset
      refine ⟨n, by rw [hp]; exact hlatest, ?_⟩
      by_cases hn : n = k
      · rw [hp]
        exact ⟨.client k, _, Function.update_self .., hnumber.trans hn.symm⟩
      · exact poll_alive h hn halive
    · rw [hp]
      intro n rows' hrows'
      rcases update_eq_some hrows' with ⟨hn, hpolled⟩ | ⟨-, hrows'⟩
      · rw [hn, ← Option.some.inj hpolled, hnumber]
      · exact h.numbered n rows' hrows'
    · rw [hp]
      exact h.stash

/-- Dropping the stream of statement `k` leaves the other streams alone. -/
theorem drop_alive (h : Attended G c) {k : ℕ} (hn : n ≠ k) (halive : Alive c n) : Alive (dropStream c k) n := by
  obtain ⟨p, rows, hp, rfl⟩ := halive
  rcases dropStream_cases c k with ⟨-, hd⟩ | ⟨gone, hs, ⟨-, hd⟩ | ⟨-, hd⟩⟩ <;> rw [hd]
  · exact ⟨p, rows, hp, rfl⟩
  all_goals
    cases p with
    | stash name => exact ⟨.stash name, rows, hp, rfl⟩
    | client j =>
      have hne : j ≠ k := by rwa [h.numbered j rows hp] at hn
      exact ⟨.client j, rows, (Function.update_of_ne hne _ _).trans hp, rfl⟩

theorem drop_attended (h : Attended G c) (hm : ¬ DropsUnpolled G c (.drop n)) : Attended G (dropStream c n) := by
  rcases dropStream_cases c n with ⟨-, hp⟩ | ⟨rows, hs, ⟨-, hp⟩ | ⟨hguarded, hp⟩⟩
  · rw [hp]
    exact h
  · rw [hp]
    exact clearSlot_attended h n
  · have hlink : (dropStream c n).session.link = c.session.link := by rw [hp]
    refine ⟨fun id hset => ?_, by rw [hp]; exact update_numbered h.numbered n, by rw [hp]; exact h.stash⟩
    rw [hlink] at hset
    obtain ⟨k, hlatest, halive⟩ := h.slot id hset
    rw [hlink]
    refine ⟨k, hlatest, ?_⟩
    by_contra hdead
    by_cases hk : k = n
    · subst hk
      have hunpolled : Unpolled c k := ⟨.client k, rows, hs, h.numbered k rows hs, hguarded⟩
      refine hm ⟨k, id, by rwa [step, hlink], Or.inl ⟨hunpolled, hset⟩, fun j hj => ?_, hdead⟩
      cases hj
    · exact hdead (drop_alive h hk halive)

theorem describe_link (c : Conn) (portal : Portal) : (describe G c portal).session.link =
    (processQuery G c.session.link portal.query (some portal.resultColumnFormat)).2 := by
  show (doDescribePortal G c.session portal).2.link = _
  rcases describe_cases (G := G) c.session portal with ⟨e, -, hd⟩ | ⟨response, rest, -, hd⟩ <;> rw [hd]

theorem describe_stash_unpolled (h : Attended G c) (portal : Portal) (name : Text) (rows : TrinoRows)
    (hrows : live (describe G c portal) (.stash name) = some rows) : rows.stream.guarded = false := by
  have hleaves := processQuery_leaves G c.session.link portal.query (some portal.resultColumnFormat)
  change rowsAt (doDescribePortal G c.session portal).2.portals c.streams (.stash name) = some rows at hrows
  rcases describe_cases (G := G) c.session portal with ⟨e, -, hd⟩ | ⟨response, rest, hr, hd⟩
  · rw [hd] at hrows
    exact h.stash name rows hrows
  · rw [hd] at hrows
    simp only [insertCached] at hrows
    split_ifs at hrows
    · rw [rowsAt_insert] at hrows
      rcases update_eq_some hrows with ⟨-, hinserted⟩ | ⟨-, hrows⟩
      · apply hleaves.unpolled
        rw [hr]
        exact List.mem_filterMap.mpr ⟨response, List.mem_cons_self, hinserted⟩
      · exact h.stash name rows hrows
    · exact h.stash name rows hrows

/-- A handler leaves the slot to the statements it submits and the streams of the client alone, or adds to them. -/
theorem Attended.handler (h : Attended G c) (hm : ¬ DropsUnpolled G c m) (hpoll : ∀ k, m ≠ .poll k)
    {responses : List Response} (hleaves : Leaves G c.session.link (step G c m).session.link responses)
    {delivered : List Response} (hstreams : (step G c m).streams = deliver c.streams delivered)
    (hstash : ∀ name rows, live (step G c m) (.stash name) = some rows → rows.stream.guarded = false) :
    Attended G (step G c m) := by
  have hnumbered : ∀ n rows, (step G c m).streams n = some rows → rows.number = n := by
    rw [hstreams]
    exact deliver_numbered h.numbered
  have hkeep : ∀ n, c.streams n ≠ none → (step G c m).streams n ≠ none := by
    intro n hn
    rw [hstreams]
    exact deliver_keeps hn
  exact ⟨h.slot_step hm hpoll hleaves.grows hleaves.slot hkeep hnumbered, hnumbered, hstash⟩

theorem describe_attended (h : Attended G c) {name : Text} {portal : Portal} (hb : c.bound name = some portal)
    (hm : ¬ DropsUnpolled G c (.describePortal name)) : Attended G (step G c (.describePortal name)) := by
  have hstep : step G c (.describePortal name) = describe G c portal := by rw [step, hb, Option.elim_some]
  have hleaves := processQuery_leaves G c.session.link portal.query (some portal.resultColumnFormat)
  rw [← describe_link, ← hstep] at hleaves
  have hstreams : (step G c (.describePortal name)).streams = deliver c.streams [] := by
    rw [hstep]
    rfl
  refine h.handler hm (fun k hk => ?_) hleaves hstreams ?_
  · cases hk
  · rw [hstep]
    exact describe_stash_unpolled h portal

theorem same_leaves (l : Link) : Leaves G l l [] := .idle List.prefix_rfl rfl rfl (List.forall_mem_nil _)

theorem execute_leaves (c : Conn) (portal : Portal) :
    ∃ responses, Leaves G c.session.link (execute G c portal).session.link responses := by
  show ∃ responses, Leaves G c.session.link (doQuery G c.session portal).2.link responses
  by_cases hs : Serves c.session portal.name portal.query
  · obtain ⟨entry, hl, hq⟩ := hs
    rw [doQuery_served hl hq]
    exact ⟨[], same_leaves _⟩
  · rw [doQuery_afresh hs]
    exact ⟨_, processQuery_leaves G c.session.link portal.query _⟩

theorem execute_attended (h : Attended G c) {name : Text} {portal : Portal} (hb : c.bound name = some portal)
    (hm : ¬ DropsUnpolled G c (.execute name)) : Attended G (step G c (.execute name)) := by
  have hstep : step G c (.execute name) = execute G c portal := by rw [step, hb, Option.elim_some]
  obtain ⟨responses, hleaves⟩ := execute_leaves (G := G) c portal
  have hstreams : (step G c (.execute name)).streams =
      deliver c.streams (doQuery G c.session portal).1.toOption.toList := by
    rw [hstep]
    rfl
  rw [← hstep] at hleaves
  refine h.handler hm (fun k hk => ?_) hleaves hstreams ?_
  · cases hk
  · rw [hstep]
    intro other rows hrows
    change ((doQuery G c.session portal).2.portals.lookup other).bind (·.response.trinoRows?) = some rows at hrows
    rw [execute_portals] at hrows
    by_cases hname : other = portal.name
    · rw [hname, AList.lookup_erase] at hrows
      cases hrows
    · rw [AList.lookup_erase_ne hname] at hrows
      exact h.stash other rows hrows

theorem describeStatement_leaves (s : Session) (query : Text) :
    (doDescribeStatement G s query).2.portals = s.portals ∧
      ∃ responses, Leaves G s.link (doDescribeStatement G s query).2.link responses := by
  rw [describeStatement_session]
  split_ifs
  · exact ⟨rfl, _, processQuery_leaves G s.link query none⟩
  · exact ⟨rfl, [], same_leaves _⟩

theorem describeStatement_attended (h : Attended G c) (hm : ¬ DropsUnpolled G c (.describeStatement text)) :
    Attended G (step G c (.describeStatement text)) := by
  obtain ⟨hportals, responses, hleaves⟩ := describeStatement_leaves (G := G) c.session text
  have hstreams : (step G c (.describeStatement text)).streams = deliver c.streams [] := rfl
  refine h.handler hm (fun k hk => ?_) hleaves hstreams fun name rows hrows => ?_
  · cases hk
  · change ((doDescribeStatement G c.session text).2.portals.lookup name).bind _ = some rows at hrows
    rw [hportals] at hrows
    exact h.stash name rows hrows

theorem query_attended (h : Attended G c) (hm : ¬ DropsUnpolled G c (.query text)) :
    Attended G (step G c (.query text)) := by
  have hleaves := processQuery_leaves G c.session.link text none
  have hstreams : (step G c (.query text)).streams =
      deliver c.streams ((runPipeline G c.session text none).1.toOption.getD []) := rfl
  refine h.handler hm (fun k hk => ?_) hleaves hstreams h.stash
  cases hk

theorem step_attended (c : Conn) (m : Message) (h : Attended G c) (hm : ¬ DropsUnpolled G c m) :
    Attended G (step G c m) := by
  cases m with
  | bind portal => exact ⟨h.slot, h.numbered, h.stash⟩
  | describePortal name =>
    cases hb : c.bound name with
    | none => simpa [step, hb] using h
    | some portal => exact describe_attended h hb hm
  | execute name =>
    cases hb : c.bound name with
    | none => simpa [step, hb] using h
    | some portal => exact execute_attended h hb hm
  | describeStatement text => exact describeStatement_attended h hm
  | query text => exact query_attended h hm
  | poll n => exact poll_attended h n
  | drop n => exact drop_attended h hm

theorem fresh_attended : Attended G .fresh := by
  refine ⟨fun id hset => ?_, fun n rows hrows => ?_, fun name rows hrows => ?_⟩
  · cases hset
  · cases hrows
  · cases hrows

theorem run_attended {ms : List Message} (h : Along (step G) (fun c m => ¬ DropsUnpolled G c m) .fresh ms) :
    Attended G (run (step G) .fresh ms) :=
  h.invariant step_attended fresh_attended

theorem Attended.empty_of_idle (h : Attended G c) (hidle : IsIdle c) : onCancelRequest c = none := by
  by_contra hset
  obtain ⟨id, hid⟩ := Option.ne_none_iff_exists'.mp hset
  obtain ⟨n, -, p, rows, hp, -⟩ := h.slot id hid
  rw [hidle p] at hp
  cases hp

/-! ## The condition is needed -/

theorem step_leaves (c : Conn) (m : Message) (hpoll : ∀ k, m ≠ .poll k) (hdrop : ∀ k, m ≠ .drop k) :
    ∃ responses, Leaves G c.session.link (step G c m).session.link responses := by
  cases m with
  | bind portal => exact ⟨[], same_leaves _⟩
  | describePortal name =>
    cases hb : c.bound name with
    | none =>
      rw [step, hb]
      exact ⟨[], same_leaves _⟩
    | some portal =>
      rw [step, hb, Option.elim_some, describe_link]
      exact ⟨_, processQuery_leaves G c.session.link portal.query _⟩
  | execute name =>
    cases hb : c.bound name with
    | none =>
      rw [step, hb]
      exact ⟨[], same_leaves _⟩
    | some portal =>
      rw [step, hb]
      exact execute_leaves c portal
  | describeStatement text => exact (describeStatement_leaves c.session text).2
  | query text => exact ⟨_, processQuery_leaves G c.session.link text none⟩
  | poll n => exact absurd rfl (hpoll n)
  | drop n => exact absurd rfl (hdrop n)

theorem drop_requests (c : Conn) (k : ℕ) : (dropStream c k).session.link.requests = c.session.link.requests := by
  rcases dropStream_cases c k with ⟨-, hp⟩ | ⟨rows, -, ⟨-, hp⟩ | ⟨-, hp⟩⟩ <;> simp only [hp, clearSlot]

/-- Requests are only added. -/
theorem step_grows (c : Conn) (m : Message) : c.session.link.requests <+: (step G c m).session.link.requests := by
  by_cases hpoll : ∃ k, m = .poll k
  · obtain ⟨k, rfl⟩ := hpoll
    rw [step, poll_requests]
  · by_cases hdrop : ∃ k, m = .drop k
    · obtain ⟨k, rfl⟩ := hdrop
      rw [step, drop_requests]
    · obtain ⟨responses, hleaves⟩ := step_leaves (G := G) c m (not_exists.mp hpoll) (not_exists.mp hdrop)
      exact hleaves.grows

/-- Dropping an unpolled stream leaves the slot alone. -/
theorem drop_slot (h : Attended G c) {k : ℕ} (hd : DropsUnpolled G c (.drop k)) :
    onCancelRequest (dropStream c k) ≠ none := by
  obtain ⟨n, id, -, hn, -, hdead⟩ := hd
  rcases hn with ⟨⟨p, rows, hp, hnumber, hguarded⟩, hset⟩ | hn
  · have hk : n = k := by
      by_contra hk
      exact hdead (drop_alive h hk ⟨p, rows, hp, hnumber⟩)
    rcases dropStream_cases c k with ⟨-, hd⟩ | ⟨gone, hs, ⟨hgone, hd⟩ | ⟨-, hd⟩⟩
    · rw [hd, onCancelRequest, hset]
      exact Option.some_ne_none _
    · -- The stream that is dropped is the unpolled one, or that one is still alive.
      exfalso
      apply hdead
      rw [step, hd]
      cases p with
      | stash name => exact ⟨.stash name, rows, hp, hnumber⟩
      | client j =>
        have hj : j = k := by rw [← h.numbered j rows hp, hnumber, hk]
        subst hj
        obtain rfl := Option.some.inj (hs.symm.trans hp)
        rw [hguarded] at hgone
        cases hgone
    · rw [hd, onCancelRequest]
      show c.session.link.activeQueryId ≠ none
      rw [hset]
      exact Option.some_ne_none _
  · have hlt := hn.lt (by rw [step, drop_requests])
    rw [Link.submitted, Link.submitted, step, drop_requests] at hlt
    exact absurd hlt (lt_irrefl _)

/-- A step that drops the stream leaves the id behind. -/
theorem slot_of_drops (h : Attended G c) (hd : DropsUnpolled G c m) : onCancelRequest (step G c m) ≠ none := by
  by_cases hpoll : ∃ k, m = .poll k
  · obtain ⟨k, rfl⟩ := hpoll
    exact absurd hd (poll_drops_none h)
  by_cases hdrop : ∃ k, m = .drop k
  · obtain ⟨k, rfl⟩ := hdrop
    exact drop_slot h hd
  obtain ⟨responses, hleaves⟩ := step_leaves (G := G) c m (not_exists.mp hpoll) (not_exists.mp hdrop)
  obtain ⟨n, id, hlatest, hn, -, -⟩ := hd
  refine hleaves.slot.slot_ne_none hlatest (hn.imp_left fun hold => ?_)
  rw [hold.2]
  exact Option.some_ne_none _

theorem idle_slot_empty (G : Gateway) (ms : List Message)
    (h : Along (step G) (fun c m => ¬ DropsUnpolled G c m) .fresh ms) :
    let c := run (step G) .fresh ms
    (IsIdle c → onCancelRequest c = none) ∧
    ∀ m, IsIdle (step G c m) → (onCancelRequest (step G c m) = none ↔ ¬ DropsUnpolled G c m) := by
  intro c
  have hattended : Attended G c := run_attended h
  refine ⟨hattended.empty_of_idle, fun m hidle => ⟨fun hempty hdrops => ?_, fun hm => ?_⟩⟩
  · exact slot_of_drops hattended hdrops hempty
  · exact (step_attended c m hattended hm).empty_of_idle hidle

theorem alive_of_number {k : ℕ} (h : (c.streams k).map (·.number) = some n) : Alive c n := by
  obtain ⟨rows, hrows, hnumber⟩ := Option.map_eq_some_iff.mp h
  exact ⟨.client k, rows, hrows, hnumber⟩

theorem drops_none_of_alive (h : ∀ n id, Latest G (step G c m).session.link n id → Alive (step G c m) n) :
    ¬ DropsUnpolled G c m := by
  rintro ⟨n, id, hlatest, -, -, hdead⟩
  exact hdead (h n id hlatest)

/-- Two `SELECT`s of one row each, the first stream dropped before its first poll, the second read to its end. -/
def overtaking : List Message := [.query "SELECT a".toList, .query "SELECT b".toList, .drop 0, .poll 1, .poll 1]

@[irreducible] def selected : Conn := step (splitting rowTrino) .fresh (.query "SELECT a".toList)

@[irreducible] def selectedTwo : Conn := step (splitting rowTrino) selected (.query "SELECT b".toList)

@[irreducible] def droppedFirst : Conn := step (splitting rowTrino) selectedTwo (.drop 0)

@[irreducible] def polledOnce : Conn := step (splitting rowTrino) droppedFirst (.poll 1)

@[irreducible] def readToEnd : Conn := step (splitting rowTrino) polledOnce (.poll 1)

theorem readToEnd_eq : run (step (splitting rowTrino)) .fresh overtaking = readToEnd := by
  rw [readToEnd, polledOnce, droppedFirst, selectedTwo, selected, overtaking, run_cons, run_cons, run_cons, run_cons,
    run_cons, run_nil]

theorem overtaking_along {P : Conn → Message → Prop} (h1 : P .fresh (.query "SELECT a".toList))
    (h2 : P selected (.query "SELECT b".toList)) (h3 : P selectedTwo (.drop 0)) (h4 : P droppedFirst (.poll 1))
    (h5 : P polledOnce (.poll 1)) : Along (step (splitting rowTrino)) P .fresh overtaking := by
  rw [overtaking, Along, Along, Along, Along, Along, Along, ← selected, ← selectedTwo, ← droppedFirst, ← polledOnce]
  exact ⟨h1, h2, h3, h4, h5, trivial⟩

/-- A poll of the second stream harms no other one. -/
theorem second_harmless (h : c.session.link.submitted.length = 2) : Harmless (splitting rowTrino) c (.poll 1) := by
  rintro n k ⟨rfl, -⟩ ⟨hk, -⟩
  exact Nat.succ_injective (hk.trans h)

theorem readToEnd_tracked : Tracked readToEnd.session.link (live readToEnd) := by
  rw [← readToEnd_eq]
  refine run_tracked (overtaking_along (fun n k hg => hg.elim) (fun n k hg => hg.elim) ?_
    (second_harmless (by decide +kernel)) (second_harmless (by decide +kernel)))
  have hunpolled : (selectedTwo.streams 0).map (·.stream.guarded) = some false := by decide +kernel
  rintro n k ⟨rfl, rows, hrows, hguarded⟩
  rw [hrows, Option.map_some, hguarded] at hunpolled
  cases hunpolled

theorem selected_drops_none : ¬ DropsUnpolled (splitting rowTrino) .fresh (.query "SELECT a".toList) := by
  have hone : selected.session.link.submitted.length = 1 := by decide +kernel
  refine drops_none_of_alive fun n id hlatest => ?_
  rw [← selected] at hlatest ⊢
  have hlt := hlatest.number_lt
  obtain rfl : n = 0 := by omega
  exact alive_of_number (k := 0) (by decide +kernel)

theorem selectedTwo_drops_none : ¬ DropsUnpolled (splitting rowTrino) selected (.query "SELECT b".toList) := by
  have htwo : selectedTwo.session.link.submitted.length = 2 := by decide +kernel
  refine drops_none_of_alive fun n id hlatest => ?_
  rw [← selectedTwo] at hlatest ⊢
  have hlt := hlatest.number_lt
  obtain rfl | rfl : n = 0 ∨ n = 1 := by omega
  · exact alive_of_number (k := 0) (by decide +kernel)
  · exact alive_of_number (k := 1) (by decide +kernel)

/-- The stream that is dropped is not that of the latest statement. -/
theorem droppedFirst_drops_none : ¬ DropsUnpolled (splitting rowTrino) selectedTwo (.drop 0) := by
  have htwo : droppedFirst.session.link.submitted.length = 2 := by decide +kernel
  have hsent : SentAfter droppedFirst.session.link [.statement "SELECT a".toList] "SELECT b".toList := by
    rw [SentAfter]
    decide +kernel
  refine drops_none_of_alive fun n id hlatest => ?_
  rw [← droppedFirst] at hlatest ⊢
  have hlt := hlatest.number_lt
  have hle := hlatest.le_number hsent ⟨_, rfl⟩
  obtain rfl : n = 1 := by
    simp only [List.filterMap_cons, Request.statement?, List.filterMap_nil, List.length_singleton] at hle
    omega
  exact alive_of_number (k := 1) (by decide +kernel)

theorem droppedFirst_attended : Attended (splitting rowTrino) droppedFirst := by
  rw [droppedFirst, selectedTwo, selected]
  refine step_attended _ _ (step_attended _ _ (step_attended _ _ fresh_attended ?_) ?_) ?_
  · exact selected_drops_none
  · rw [← selected]
    exact selectedTwo_drops_none
  · rw [← selected, ← selectedTwo]
    exact droppedFirst_drops_none

theorem polledOnce_attended : Attended (splitting rowTrino) polledOnce := by
  rw [polledOnce]
  exact poll_attended droppedFirst_attended 1

theorem readToEnd_idle : IsIdle readToEnd := by
  have htwo : readToEnd.session.link.submitted.length = 2 := by decide +kernel
  have hfirst : (readToEnd.streams 0).isNone = true := by decide +kernel
  have hsecond : (readToEnd.streams 1).isNone = true := by decide +kernel
  intro p
  by_contra hlive
  obtain ⟨rows, hrows⟩ := Option.ne_none_iff_exists'.mp hlive
  have hlt := readToEnd_tracked.submitted p rows hrows
  cases p with
  | stash name =>
    have hportals : readToEnd.session.portals.entries = [] := by decide +kernel
    have hnone : readToEnd.session.portals.lookup name = none := by
      rw [AList.lookup, hportals, List.dlookup_nil]
    rw [live, rowsAt, hnone] at hrows
    cases hrows
  | client n =>
    rw [readToEnd_tracked.numbered n rows hrows, htwo] at hlt
    obtain rfl | rfl : n = 0 ∨ n = 1 := by omega
    · exact hlive (Option.isNone_iff_eq_none.mp hfirst)
    · exact hlive (Option.isNone_iff_eq_none.mp hsecond)

/-- A stream is dropped before its first poll while the slot holds the id of a later one: the slot ends empty. -/
theorem overtaken_slot_empty :
    IsIdle (run (step (splitting rowTrino)) .fresh overtaking) ∧
      onCancelRequest (run (step (splitting rowTrino)) .fresh overtaking) = none := by
  have halong : Along (step (splitting rowTrino)) (fun c m => ¬ DropsUnpolled (splitting rowTrino) c m) .fresh overtaking :=
    overtaking_along selected_drops_none selectedTwo_drops_none droppedFirst_drops_none
      (poll_drops_none droppedFirst_attended) (poll_drops_none polledOnce_attended)
  have hidle : IsIdle (run (step (splitting rowTrino)) .fresh overtaking) := by
    rw [readToEnd_eq]
    exact readToEnd_idle
  exact ⟨hidle, (idle_slot_empty (splitting rowTrino) overtaking halong).1 hidle⟩

/-- An `INSERT` is done, no stream is alive, and a CancelRequest would cancel it. -/
theorem insert_keeps_id :
    let c := run (step ordersGateway) .fresh [.query insertOrders]
    IsIdle c ∧ onCancelRequest c = some "q0".toList := by
  intro c
  have hone : (splitStatements ordersGateway insertOrders).length ≤ 1 := by decide +kernel
  have hsent : ¬ AnswersItself ordersGateway insertOrders := by decide +kernel
  have hrun : (processQuery ordersGateway Session.fresh.link insertOrders none).1 = .ok [.execution "OK".toList] := by
    rw [processQuery, if_pos hone, single_of_not_answers hsent]
    rfl
  refine ⟨fun p => ?_, by decide +kernel⟩
  cases p with
  | stash name => rfl
  | client n =>
    show deliver (fun _ => none) ((processQuery ordersGateway Session.fresh.link insertOrders none).1.toOption.getD []) n = none
    rw [hrun]
    rfl

end TrinoGateway.Idle
