/-
  TrinoGateway.Described — the row description of a portal and the rows of its Execute. An
  Execute sends rows without a description (`src/query_extended.rs`); the client reads them
  with the one it got for its last Describe of the portal. Between the two the portal may be
  bound again, other queries and portals run, and streams be read and dropped.

  `View` is a connection with the descriptions its client has. Proved, over every run:
  `execute_as_described`. If an Execute is answered from the stash, the client has a
  description of the portal, it is that of the response, and every row of the response is
  framed by it. What a run keeps is `Known`: no entry of the stash without its description.
-/

import TrinoGateway.Framing

namespace TrinoGateway.Framing

open TrinoGateway.Lib
open TrinoGateway.Types
open TrinoGateway.Pipeline
open TrinoGateway.Portals
open TrinoGateway.Connection

/-! ## The rows of a response -/

/-- The rows a response gives to whoever reads it, to any point. -/
def Gives (X : Crates) : Response → DataRow → Prop
  | .query _ (.static rows), row => row ∈ rows
  | .query _ (.trino rows), row => ∃ items s', Polls (RowStream.poll X) rows.stream items s' ∧ .ok row ∈ items
  | .execution _, _ | .error _, _ => False

theorem Sound.gives {X : Crates} {response : Response} (h : Sound response) {row : DataRow}
    (hrow : Gives X response row) :
    Framed (fieldsOf response) row := by
  cases response with
  | query schema source =>
    cases source with
    | static rows => exact h row hrow
    | trino rows =>
      obtain ⟨items, s', hpolls, hmem⟩ := hrow
      have hframed := h.2.polls hpolls row hmem
      rwa [h.1] at hframed
  | execution tag => cases hrow
  | error info => cases hrow

/-! ## The client's descriptions -/

/-- A connection and the row descriptions the client has got for its portals. -/
structure View where
  conn : Conn
  described : Text → Option Schema

def View.fresh : View := ⟨.fresh, fun _ => none⟩

variable (G : Gateway)

/-- The description a Describe of the portal leaves the client with. -/
def describedBy (v : View) (portal : Portal) : Text → Option Schema :=
  match (doDescribePortal G v.conn.session portal).1 with
  | .ok fields => Function.update v.described portal.name (some fields)
  | .error _ => v.described

def View.step (v : View) (m : Message) : View where
  conn := Connection.step G v.conn m
  described :=
    match m with
    | .describePortal name => (v.conn.bound name).elim v.described (describedBy G v)
    | _ => v.described

theorem run_conn (ms : List Message) (v : View) : (run (View.step G) v ms).conn = run (step G) v.conn ms := by
  induction ms generalizing v with
  | nil => rfl
  | cons m ms ih => rw [run_cons, run_cons, ih]; rfl

/-- What is in the stash has been described as what it is. -/
def Known (v : View) : Prop :=
  ∀ name entry, v.conn.session.portals.lookup name = some entry → v.described name = some (fieldsOf entry.response)

variable {G} {v : View}

theorem describe_known (h : Known v) (portal : Portal) : Known ⟨describe G v.conn portal, describedBy G v portal⟩ := by
  intro name entry hlookup
  change (doDescribePortal G v.conn.session portal).2.portals.lookup name = some entry at hlookup
  show describedBy G v portal name = _
  unfold describedBy
  rcases describe_cases (G := G) v.conn.session portal with ⟨e, -, hd⟩ | ⟨response, rest, -, hd⟩
  · rw [hd] at hlookup ⊢
    exact h name entry hlookup
  · rw [hd] at hlookup ⊢
    by_cases heq : name = portal.name
    · subst heq
      rw [lookup_insertCached] at hlookup
      split_ifs at hlookup
      cases hlookup
      exact Function.update_self ..
    · rw [lookup_insertCached_ne heq] at hlookup
      show Function.update v.described portal.name _ name = _
      rw [Function.update_of_ne heq]
      exact h name entry hlookup

theorem Known.of_portals (h : Known v) {c : Conn}
    (hkept : ∀ name entry, c.session.portals.lookup name = some entry →
      v.conn.session.portals.lookup name = some entry) :
    Known ⟨c, v.described⟩ := fun name entry hlookup => h name entry (hkept name entry hlookup)

theorem step_known (h : Known v) (m : Message) : Known (View.step G v m) := by
  cases m with
  | bind portal => exact h.of_portals fun _ _ hlookup => hlookup
  | describePortal name =>
    cases hb : v.conn.bound name with
    | none =>
      have hsame : View.step G v (.describePortal name) = v := by simp [View.step, Connection.step, hb]
      rw [hsame]
      exact h
    | some portal =>
      have hstep : View.step G v (.describePortal name) = ⟨describe G v.conn portal, describedBy G v portal⟩ := by
        simp [View.step, Connection.step, hb]
      rw [hstep]
      exact describe_known h portal
  | execute name =>
    refine h.of_portals fun other entry hlookup => ?_
    cases hb : v.conn.bound name with
    | none => simpa [Connection.step, hb] using hlookup
    | some portal =>
      have hstep : Connection.step G v.conn (.execute name) = execute G v.conn portal := by simp [Connection.step, hb]
      rw [hstep] at hlookup
      have herased : (v.conn.session.portals.erase portal.name).lookup other = some entry := by
        rw [← execute_portals (G := G)]
        exact hlookup
      by_cases heq : other = portal.name
      · rw [heq, AList.lookup_erase] at herased
        cases herased
      · rwa [AList.lookup_erase_ne heq] at herased
  | describeStatement text =>
    refine h.of_portals fun other entry hlookup => ?_
    have hsame := describeStatement_portals (G := G) v.conn.session text
    rw [← hsame]
    exact hlookup
  | query text => exact h.of_portals fun _ _ hlookup => hlookup
  | poll n =>
    refine h.of_portals fun other entry hlookup => ?_
    rcases pollStream_cases G v.conn n with ⟨-, hp⟩ | ⟨rows, -, ⟨-, hp⟩ | ⟨-, hp⟩⟩
    all_goals
      rw [Connection.step, hp] at hlookup
      exact hlookup
  | drop n =>
    refine h.of_portals fun other entry hlookup => ?_
    rcases dropStream_cases v.conn n with ⟨-, hp⟩ | ⟨rows, -, ⟨-, hp⟩ | ⟨-, hp⟩⟩
    all_goals
      rw [Connection.step, hp] at hlookup
      exact hlookup

theorem run_known (ms : List Message) : Known (run (View.step G) .fresh ms) :=
  run_invariant (fun _ m h => step_known h m) fun name entry hlookup => by cases hlookup

/-- An Execute from the stash gives rows that are framed by what the last Describe of the portal announced. -/
theorem execute_as_described (G : Gateway) (hwide : ∀ requests sql, Wide (G.trino.reply requests sql))
    (ms : List Message) (portal : Portal)
    (hserves : Serves (run (View.step G) .fresh ms).conn.session portal.name portal.query) :
    ∃ fields response, (run (View.step G) .fresh ms).described portal.name = some fields ∧
      (doQuery G (run (View.step G) .fresh ms).conn.session portal).1 = .ok response ∧ fieldsOf response = fields ∧
      ∀ row, Gives G.crates response row → Framed fields row := by
  obtain ⟨entry, hlookup, hquery⟩ := hserves
  have hknown := run_known (G := G) ms portal.name entry hlookup
  refine ⟨_, entry.response, hknown, ?_, rfl, fun row hrow => ?_⟩
  · rw [doQuery_served hlookup hquery]
  · rw [run_conn] at hlookup
    exact ((run_sound hwide ms).stash portal.name entry hlookup).gives hrow

/-- Bound in binary and described; then the portal is bound again and another query runs. -/
def describedThenBusy : List Message :=
  [.bind (selectPortal .unifiedBinary), .describePortal "p".toList, .bind (selectPortal .unifiedText),
    .query "SELECT b".toList, .poll 1]

theorem described_then_busy : ∃ fields response,
    (run (View.step (splitting Cancel.rowTrino)) .fresh describedThenBusy).described "p".toList = some fields ∧
      (doQuery (splitting Cancel.rowTrino)
        (run (View.step (splitting Cancel.rowTrino)) .fresh describedThenBusy).conn.session
        (selectPortal .unifiedText)).1 = .ok response ∧ fieldsOf response = fields ∧
      ∀ row, Gives plainCrates response row → Framed fields row := by
  have hstashed : ((run (View.step (splitting Cancel.rowTrino)) .fresh describedThenBusy).conn.session.portals.lookup
      "p".toList).map (·.query) = some "SELECT a".toList := by decide +kernel
  obtain ⟨entry, hlookup, hquery⟩ := Option.map_eq_some_iff.mp hstashed
  exact execute_as_described (splitting Cancel.rowTrino) rowTrino_wide describedThenBusy (selectPortal .unifiedText)
    ⟨entry, hlookup, hquery⟩

end TrinoGateway.Framing
