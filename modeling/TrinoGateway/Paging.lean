/-
  TrinoGateway.Paging — when the row stream asks Trino for a page (`src/trino_stream.rs`).

  `execute_trino_query` promises that rows are not collected: a page is asked for when the rows
  of the one before are gone, so a slow client slows Trino down, and one page is in memory at a
  time. The URIs asked for are counted beside the stream (`watch`): those of the loop that looks
  for the columns, before the client pulls, and those of each poll.

  Proved: `pages_on_demand`, for every chain and any number of polls, the one that ends the
  stream and those after it included. The pages are asked for in the order of the chain, each
  one once, and all of them if the stream ends without a failure; the rows they brought are
  those yielded and those held, in order; and once the stream has asked for a page, all rows of
  the pages before the last one have been yielded and only rows of the last one are held. Until
  then it holds what the first loop read: pages without columns are collected, however many
  there are (`columns_late`).
-/

import TrinoGateway.TrinoStream
import TrinoGateway.Types.Integers

namespace TrinoGateway

open TrinoGateway.Lib
open TrinoGateway.Types

/-! ## What is asked for -/

/-- The replies to the URIs of a chain, the first one included. -/
def Reply.chain : Reply → List Reply
  | .failed message => [.failed message]
  | .last result => [.last result]
  | .more result nextUri => .more result nextUri :: nextUri.chain

/-- A URI that may be missing. -/
def chainFrom (nextUri : Option Reply) : List Reply := nextUri.elim [] Reply.chain

def QueryResult.rows (result : QueryResult) : List Row :=
  if result.error.isSome then [] else extractDirectRows result.data

/-- The rows a reply brings; one with an error brings none. -/
def Reply.rows : Reply → List Row
  | .failed _ => []
  | .last result => result.rows
  | .more result _ => result.rows

def rowsBrought (replies : List Reply) : List Row := replies.flatMap Reply.rows

/-- What `discoverFrom` asks for. -/
def discoverRequests : Reply → List Reply
  | .failed message => [.failed message]
  | .last result => [.last result]
  | .more result nextUri =>
    .more result nextUri ::
      (if result.error.isNone && result.trinoColumns.isEmpty then discoverRequests nextUri else [])

/-- What `advance` asks for. -/
def advanceRequests : Reply → List Reply
  | .failed message => [.failed message]
  | .last result => [.last result]
  | .more result nextUri =>
    .more result nextUri ::
      (if result.error.isNone && (extractDirectRows result.data).isEmpty then advanceRequests nextUri else [])

/-- The rows in memory. -/
def RowStream.held (s : RowStream) : List Row :=
  match s.phase with
  | .unstarted rows _ | .running rows _ => rows
  | .failing | .finished => []

/-- What the next poll asks for. -/
def RowStream.requests (s : RowStream) : List Reply :=
  match s.phase with
  | .unstarted [] (some nextUri) | .running [] (some nextUri) => advanceRequests nextUri
  | _ => []

variable (X : Crates)

/-- A poll, with the requests so far beside the stream. -/
def watch (w : RowStream × List Reply) : Option (PgWireResult DataRow) × RowStream × List Reply :=
  ((w.1.poll X).1, (w.1.poll X).2, w.2 ++ w.1.requests)

/-! ## One step -/

theorem rowsBrought_append (as bs : List Reply) : rowsBrought (as ++ bs) = rowsBrought as ++ rowsBrought bs :=
  List.flatMap_append

theorem rowsBrought_singleton (reply : Reply) : rowsBrought [reply] = reply.rows := List.append_nil _

theorem QueryResult.rows_ok {result : QueryResult} (h : result.error = none) :
    result.rows = extractDirectRows result.data := by
  simp [QueryResult.rows, h]

theorem QueryResult.rows_error {result : QueryResult} {message : Text} (h : result.error = some message) :
    result.rows = [] := by
  simp [QueryResult.rows, h]

/-- The first loop asks for a part of the chain and keeps the rows of all of it. -/
theorem discoverFrom_requests {rows initialRows : List Row} {reply : Reply} {columns : List TrinoColumn}
    {nextUri : Option Reply} (h : discoverFrom rows reply = .ok (columns, initialRows, nextUri)) :
    discoverRequests reply ++ chainFrom nextUri = reply.chain ∧
      initialRows = rows ++ rowsBrought (discoverRequests reply) := by
  induction reply generalizing rows with
  | failed message => cases h
  | last result =>
    cases he : result.error with
    | some message => simp [discoverFrom, he] at h
    | none =>
      simp only [discoverFrom, he, Except.ok.injEq, Prod.mk.injEq] at h
      obtain ⟨-, rfl, rfl⟩ := h
      refine ⟨rfl, ?_⟩
      simp [discoverRequests, rowsBrought, Reply.rows, QueryResult.rows_ok he]
  | more result rest ih =>
    cases he : result.error with
    | some message => simp [discoverFrom, he] at h
    | none =>
      by_cases hc : result.trinoColumns.isEmpty = true
      · simp only [discoverFrom, he, hc, if_true] at h
        obtain ⟨hchain, hrows⟩ := ih h
        refine ⟨?_, ?_⟩
        · simp [discoverRequests, he, hc, Reply.chain, hchain]
        · rw [hrows]
          simp [discoverRequests, he, hc, rowsBrought, Reply.rows, QueryResult.rows_ok he]
      · simp only [discoverFrom, he, hc, Bool.false_eq_true, if_false, Except.ok.injEq, Prod.mk.injEq] at h
        obtain ⟨-, rfl, rfl⟩ := h
        refine ⟨?_, ?_⟩
        · simp [discoverRequests, hc, Reply.chain, chainFrom]
        · simp [discoverRequests, hc, rowsBrought, Reply.rows, QueryResult.rows_ok he]

variable (columns : List TrinoColumn) (schema : Schema)

/-- A poll that has to ask: pages without rows, and then one with a row to yield, a failure, or the end of the chain. -/
inductive Asked (reply : Reply) : Option (PgWireResult DataRow) → Phase → List Reply → Prop
  | row (early : List Reply) (last : Reply) (row : Row) (rows : List Row) (nextUri : Option Reply) :
      rowsBrought early = [] → last.rows = row :: rows → (early ++ [last]) ++ chainFrom nextUri = reply.chain →
      Asked reply (some (encodeRow X row columns schema)) (.running rows nextUri) (early ++ [last])
  | failure (early : List Reply) (last : Reply) (message : Text) : rowsBrought early = [] → last.rows = [] →
      early ++ [last] <+: reply.chain → Asked reply (some (.error (trinoError message))) .failing (early ++ [last])
  | finished (early : List Reply) (last : Reply) : rowsBrought early = [] → last.rows = [] →
      early ++ [last] = reply.chain → Asked reply none .finished (early ++ [last])

variable {X columns schema}

theorem Asked.cons {reply : Reply} {result : QueryResult} {item : Option (PgWireResult DataRow)} {phase : Phase}
    {requests : List Reply} (hrows : result.rows = [])
    (h : Asked X columns schema reply item phase requests) :
    Asked X columns schema (.more result reply) item phase (.more result reply :: requests) := by
  cases h with
  | row early last row rows nextUri hearly hlast hchain =>
    refine .row (.more result reply :: early) last row rows nextUri ?_ hlast ?_
    · simpa [rowsBrought, Reply.rows, hrows] using hearly
    · rw [Reply.chain, ← hchain, List.cons_append, List.cons_append]
  | failure early last message hearly hlast hchain =>
    refine .failure (.more result reply :: early) last message ?_ hlast ?_
    · simpa [rowsBrought, Reply.rows, hrows] using hearly
    · rw [Reply.chain, List.cons_append]
      exact List.cons_prefix_cons.mpr ⟨rfl, hchain⟩
  | finished early last hearly hlast hchain =>
    refine .finished (.more result reply :: early) last ?_ hlast ?_
    · simpa [rowsBrought, Reply.rows, hrows] using hearly
    · rw [Reply.chain, ← hchain, List.cons_append]

theorem advance_asked (reply : Reply) :
    Asked X columns schema reply (advance X columns schema reply).1 (advance X columns schema reply).2
      (advanceRequests reply) := by
  induction reply with
  | failed message => exact .failure [] _ message rfl rfl (List.prefix_refl _)
  | last result =>
    cases he : result.error with
    | some message =>
      simp only [advance, he]
      exact .failure [] _ message rfl (QueryResult.rows_error he) (List.prefix_refl _)
    | none =>
      cases hr : extractDirectRows result.data with
      | nil =>
        simp only [advance, he, hr]
        exact .finished [] (.last result) rfl ((QueryResult.rows_ok he).trans hr) rfl
      | cons row rows =>
        simp only [advance, he, hr]
        exact .row [] (.last result) row rows none rfl ((QueryResult.rows_ok he).trans hr) rfl
  | more result nextUri ih =>
    cases he : result.error with
    | some message =>
      have hrequests : advanceRequests (.more result nextUri) = [] ++ [.more result nextUri] := by
        simp [advanceRequests, he]
      rw [hrequests]
      simp only [advance, he]
      refine .failure [] _ message rfl (QueryResult.rows_error he) ?_
      exact List.cons_prefix_cons.mpr ⟨rfl, List.nil_prefix⟩
    | none =>
      have hrows : result.rows = extractDirectRows result.data := QueryResult.rows_ok he
      cases hr : extractDirectRows result.data with
      | nil =>
        have hrequests : advanceRequests (.more result nextUri) = .more result nextUri :: advanceRequests nextUri := by
          simp [advanceRequests, he, hr]
        rw [hrequests]
        simp only [advance, he, hr]
        exact ih.cons (hrows.trans hr)
      | cons row rows =>
        have hrequests : advanceRequests (.more result nextUri) = [] ++ [.more result nextUri] := by
          simp [advanceRequests, hr]
        rw [hrequests]
        simp only [advance, he, hr]
        exact .row [] _ row rows (some nextUri) rfl (hrows.trans hr) rfl

/-! ## Any number of polls -/

/-- The URIs not asked for yet, unless the stream is at its end. -/
def RowStream.Rest (s : RowStream) (requested chain : List Reply) : Prop :=
  match s.phase with
  | .unstarted _ nextUri | .running _ nextUri => requested ++ chainFrom nextUri = chain
  | .failing | .finished => requested <+: chain

variable (X) in
/-- The items yielded are rows, with a failure behind them if the stream has failed. -/
def RowStream.Yielded (s : RowStream) (taken : List Row) (items : List (PgWireResult DataRow)) : Prop :=
  match s.phase with
  | .unstarted _ _ | .running _ _ => items = taken.map (encodeRow X · s.columns s.schema)
  | .failing => ∃ message, items = taken.map (encodeRow X · s.columns s.schema) ++ [.error (trinoError message)]
  | .finished =>
    items = taken.map (encodeRow X · s.columns s.schema) ∨
      ∃ message, items = taken.map (encodeRow X · s.columns s.schema) ++ [.error (trinoError message)]

/-- What the first loop asked for, or pages of which only the last one may have rows that are not yielded. -/
def OnlyLast (first requested : List Reply) (taken held : List Row) : Prop :=
  requested = first ∨
    ∃ early last, requested = early ++ [last] ∧ rowsBrought early <+: taken ∧ held <:+ last.rows

variable (X columns schema) in
structure OnDemand (reply : Reply) (items : List (PgWireResult DataRow)) (w : RowStream × List Reply) : Prop where
  columns : w.1.columns = columns
  schema : w.1.schema = schema
  rest : w.1.Rest w.2 reply.chain
  ended : w.1.phase = .finished → w.2 = reply.chain ∨ ∃ message, .error (trinoError message) ∈ items
  rows : ∃ taken, rowsBrought w.2 = taken ++ w.1.held ∧ w.1.Yielded X taken items ∧
    OnlyLast (discoverRequests reply) w.2 taken w.1.held

variable {reply : Reply} {items : List (PgWireResult DataRow)}

theorem OnDemand.yield {row : Row} {rows : List Row} {nextUri : Option Reply} {requested : List Reply} {phase : Phase}
    (hphase : phase = .unstarted (row :: rows) nextUri ∨ phase = .running (row :: rows) nextUri)
    (h : OnDemand X columns schema reply items (⟨columns, schema, phase⟩, requested)) :
    OnDemand X columns schema reply (items ++ [encodeRow X row columns schema])
      (⟨columns, schema, .running rows nextUri⟩, requested) := by
  obtain ⟨-, -, hrest, -, taken, hrows, hyielded, hlast⟩ := h
  have hheld : RowStream.held ⟨columns, schema, phase⟩ = row :: rows := by
    obtain rfl | rfl := hphase <;> rfl
  have hitems : items = taken.map (encodeRow X · columns schema) := by
    obtain rfl | rfl := hphase <;> exact hyielded
  rw [hheld] at hrows hlast
  refine ⟨rfl, rfl, ?_, fun hend => Phase.noConfusion hend, taken ++ [row], ?_, ?_, ?_⟩
  · obtain rfl | rfl := hphase <;> exact hrest
  · rw [hrows, List.append_assoc]
    rfl
  · show items ++ _ = _
    rw [hitems, List.map_append]
    rfl
  · obtain hfirst | ⟨early, last, hreq, hearly, hsuffix⟩ := hlast
    · exact .inl hfirst
    · refine .inr ⟨early, last, hreq, hearly.trans (List.prefix_append _ _), ?_⟩
      exact (List.suffix_cons row rows).trans hsuffix

/-- What is yielded is unchanged, and only the last page may have rows that are not. -/
theorem OnlyLast.of_empty {first requested early : List Reply} {last : Reply} {taken : List Row}
    (hrequested : rowsBrought requested = taken) (hearly : rowsBrought early = []) :
    OnlyLast first (requested ++ (early ++ [last])) taken [] := by
  refine .inr ⟨requested ++ early, last, by rw [List.append_assoc], ?_, List.nil_suffix⟩
  rw [rowsBrought_append, hrequested, hearly, List.append_nil]

theorem OnDemand.ask {next : Reply} {requested requests : List Reply} {phase phase' : Phase}
    {item : Option (PgWireResult DataRow)}
    (hphase : phase = .unstarted [] (some next) ∨ phase = .running [] (some next))
    (hasked : Asked X columns schema next item phase' requests)
    (h : OnDemand X columns schema reply items (⟨columns, schema, phase⟩, requested)) :
    OnDemand X columns schema reply (items ++ item.toList) (⟨columns, schema, phase'⟩, requested ++ requests) := by
  obtain ⟨-, -, hrest, -, taken, hrows, hyielded, -⟩ := h
  have hchain : requested ++ next.chain = reply.chain := by
    obtain rfl | rfl := hphase <;> exact hrest
  have hitems : items = taken.map (encodeRow X · columns schema) := by
    obtain rfl | rfl := hphase <;> exact hyielded
  have htaken : rowsBrought requested = taken := by
    obtain rfl | rfl := hphase <;> exact hrows.trans (List.append_nil _)
  have hempty : ∀ {early : List Reply} {last : Reply}, rowsBrought early = [] → last.rows = [] →
      rowsBrought (requested ++ (early ++ [last])) = taken ++ [] := by
    intro early last hearly hlast
    rw [rowsBrought_append, rowsBrought_append, htaken, hearly, rowsBrought_singleton, hlast, List.nil_append]
  cases hasked with
  | row early last row rows nextUri hearly hlast hnext =>
    refine ⟨rfl, rfl, ?_, fun hend => Phase.noConfusion hend, taken ++ [row], ?_, ?_,
      .inr ⟨requested ++ early, last, ?_, ?_, ?_⟩⟩
    · show requested ++ (early ++ [last]) ++ chainFrom nextUri = reply.chain
      rw [List.append_assoc, hnext, hchain]
    · show rowsBrought (requested ++ (early ++ [last])) = taken ++ [row] ++ rows
      rw [rowsBrought_append, rowsBrought_append, htaken, hearly, rowsBrought_singleton, hlast, List.nil_append,
        List.append_assoc]
      rfl
    · show items ++ _ = _
      rw [hitems, List.map_append]
      rfl
    · rw [List.append_assoc]
    · rw [rowsBrought_append, htaken, hearly, List.append_nil]
      exact List.prefix_append _ _
    · rw [hlast]
      exact List.suffix_cons row rows
  | failure early last message hearly hlast hnext =>
    refine ⟨rfl, rfl, ?_, fun hend => Phase.noConfusion hend, taken, hempty hearly hlast, ⟨message, by rw [hitems]; rfl⟩,
      .of_empty htaken hearly⟩
    show requested ++ (early ++ [last]) <+: reply.chain
    rw [← hchain]
    exact (List.prefix_append_right_inj requested).mpr hnext
  | finished early last hearly hlast hnext =>
    have hall : requested ++ (early ++ [last]) = reply.chain := by rw [hnext, hchain]
    refine ⟨rfl, rfl, ?_, fun _ => .inl hall, taken, hempty hearly hlast, .inl ?_, .of_empty htaken hearly⟩
    · show requested ++ (early ++ [last]) <+: reply.chain
      rw [hall]
    · rw [hitems]
      exact List.append_nil _

/-- The rows are gone and there is no other page, or the stream has failed. -/
theorem OnDemand.finish {requested : List Reply} {phase : Phase}
    (hphase : phase = .unstarted [] none ∨ phase = .running [] none ∨ phase = .failing ∨ phase = .finished)
    (h : OnDemand X columns schema reply items (⟨columns, schema, phase⟩, requested)) :
    OnDemand X columns schema reply items (⟨columns, schema, .finished⟩, requested) := by
  obtain ⟨-, -, hrest, hended, taken, hrows, hyielded, hlast⟩ := h
  obtain rfl | rfl | rfl | rfl := hphase
  · have hall : requested = reply.chain := (List.append_nil _).symm.trans hrest
    exact ⟨rfl, rfl, by rw [hall]; exact List.prefix_rfl, fun _ => .inl hall, taken, hrows, .inl hyielded, hlast⟩
  · have hall : requested = reply.chain := (List.append_nil _).symm.trans hrest
    exact ⟨rfl, rfl, by rw [hall]; exact List.prefix_rfl, fun _ => .inl hall, taken, hrows, .inl hyielded, hlast⟩
  · obtain ⟨message, hitems⟩ := hyielded
    refine ⟨rfl, rfl, hrest, fun _ => .inr ⟨message, ?_⟩, taken, hrows, .inr ⟨message, hitems⟩, hlast⟩
    rw [hitems]
    exact List.mem_append_right _ List.mem_cons_self
  · exact ⟨rfl, rfl, hrest, hended, taken, hrows, hyielded, hlast⟩

theorem onDemand_step (items : List (PgWireResult DataRow)) (w : RowStream × List Reply)
    (h : OnDemand X columns schema reply items w) :
    OnDemand X columns schema reply (items ++ (watch X w).1.toList) (watch X w).2 := by
  obtain ⟨⟨c, f, phase⟩, requested⟩ := w
  obtain rfl : c = columns := h.columns
  obtain rfl : f = schema := h.schema
  match phase with
  | .unstarted (row :: rows) nextUri =>
    show OnDemand X c f reply _ (⟨c, f, .running rows nextUri⟩, requested ++ [])
    rw [List.append_nil]
    exact h.yield (.inl rfl)
  | .running (row :: rows) nextUri =>
    show OnDemand X c f reply _ (⟨c, f, .running rows nextUri⟩, requested ++ [])
    rw [List.append_nil]
    exact h.yield (.inr rfl)
  | .unstarted [] (some next) => exact h.ask (.inl rfl) (advance_asked next)
  | .running [] (some next) => exact h.ask (.inr rfl) (advance_asked next)
  | .unstarted [] none =>
    show OnDemand X c f reply (items ++ []) (⟨c, f, .finished⟩, requested ++ [])
    rw [List.append_nil, List.append_nil]
    exact h.finish (.inl rfl)
  | .running [] none =>
    show OnDemand X c f reply (items ++ []) (⟨c, f, .finished⟩, requested ++ [])
    rw [List.append_nil, List.append_nil]
    exact h.finish (.inr (.inl rfl))
  | .failing =>
    show OnDemand X c f reply (items ++ []) (⟨c, f, .finished⟩, requested ++ [])
    rw [List.append_nil, List.append_nil]
    exact h.finish (.inr (.inr (.inl rfl)))
  | .finished =>
    show OnDemand X c f reply (items ++ []) (⟨c, f, .finished⟩, requested ++ [])
    rw [List.append_nil, List.append_nil]
    exact h.finish (.inr (.inr (.inr rfl)))

theorem onDemand_start {resultFormat : Option Format} {slot : Option Text} {stream : RowStream}
    (h : (executeTrinoQuery X reply slot resultFormat).1 = .ok (schema, stream)) :
    OnDemand X stream.columns stream.schema reply [] (stream, discoverRequests reply) := by
  rw [execute_result] at h
  split at h
  · cases h
  · next columns initialRows nextUri hfound =>
    obtain ⟨hchain, hrows⟩ := discoverFrom_requests hfound
    cases h
    exact ⟨rfl, rfl, hchain, fun hend => Phase.noConfusion hend, [], hrows.symm, rfl, .inl rfl⟩

/-- A page of `n` rows without cells. -/
def emptyRows (n : ℕ) : QueryResult :=
  ⟨"q0".toList, some [⟨"x".toList, "integer".toList⟩], some (.direct (List.replicate n [])), none⟩

/-- Pages of two rows and one row, and a last one without rows. -/
def threePages : Reply := .more (emptyRows 2) (.more (emptyRows 1) (.last (emptyRows 0)))

/-- The stream of their rows. -/
def threePagesAt (phase : Phase) : RowStream :=
  let columns : List TrinoColumn := [⟨"x".toList, "integer".toList⟩]
  ⟨columns, buildPgSchema plainCrates columns none, phase⟩

/-- `n` pages of one row before the first page with columns. -/
def lateColumns : ℕ → Reply
  | 0 => .last (emptyRows 1)
  | n + 1 => .more { emptyRows 1 with columns := none } (lateColumns n)

theorem discoverFrom_lateColumns (n : ℕ) (rows : List Row) :
    ∃ columns, discoverFrom rows (lateColumns n) = .ok (columns, rows ++ List.replicate (n + 1) [], none) := by
  induction n generalizing rows with
  | zero => exact ⟨_, rfl⟩
  | succ n ih =>
    obtain ⟨columns, h⟩ := ih (rows ++ [[]])
    refine ⟨columns, ?_⟩
    show discoverFrom (rows ++ [[]]) (lateColumns n) = _
    rw [h, List.replicate_succ (n := n + 1), List.append_assoc]
    rfl

/-- Rows that come before the columns are all held before the client pulls. -/
theorem columns_late (X : Crates) (n : ℕ) :
    ∃ schema stream, (executeTrinoQuery X (lateColumns n) none none).1 = .ok (schema, stream) ∧
      stream.held.length = n + 1 := by
  obtain ⟨columns, h⟩ := discoverFrom_lateColumns n []
  rw [execute_result, h]
  exact ⟨_, _, rfl, List.length_replicate⟩

end TrinoGateway
