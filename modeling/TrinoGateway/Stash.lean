/-
  TrinoGateway.Stash — where the responses an Execute takes from the stash come from
  (`take_cached`, `insert_cached`, `src/query_extended.rs`), over every sequence of Describes
  and Executes on one connection.

  A call is its position in the sequence, and a stashed response is told from an equal one by
  the position of the Describe that made it. `Origin` is the provenance of an entry: the
  Describe that stashed it, with no Execute of the portal and no successful Describe of it
  since. Every entry has one (`stash_origin`).

  Proved: `stash_served_once`. The stash stays within its cap, an Execute served from it gets
  the response of its portal's last Describe that succeeded, for its own text, and no other
  Execute gets that response.
-/

import TrinoGateway.Portals

namespace TrinoGateway.Stash

open TrinoGateway.Lib
open TrinoGateway.Types
open TrinoGateway.Pipeline
open TrinoGateway.Portals

variable (G : Gateway) (s : Session) (calls : List Call)

/-- The session before the call at position `n`. -/
def before (n : ℕ) : Session := run (call G) s (calls.take n)

/-- What a run of the pipeline for the portal answers. -/
def answer (t : Session) (portal : Portal) : PgWireResult Response :=
  firstResponse (processQuery G t.link portal.query (some portal.resultColumnFormat)).1

/-- The call leaves the portal's entry alone: it is no Execute of it, and no Describe of it that succeeds. -/
def Spares (t : Session) (name : Text) : Call → Prop
  | .execute portal => portal.name ≠ name
  | .describe portal => portal.name = name → ∃ e, answer G t portal = .error e

/-- The Describe of `portal` at position `i` stashed `response`, and the entry is there at position `n`. -/
structure Origin (i n : ℕ) (portal : Portal) (response : Response) : Prop where
  lt : i < n
  described : calls[i]? = some (.describe portal)
  room : Room (before G s calls i).portals portal.name
  answered : answer G (before G s calls i) portal = .ok response
  spared : ∀ k c, i < k → k < n → calls[k]? = some c → Spares G (before G s calls k) portal.name c

/-- The Execute at position `j` returns `response` without a run of the pipeline. -/
structure ServedAt (j : ℕ) (portal : Portal) (response : Response) : Prop where
  executed : calls[j]? = some (.execute portal)
  returned : (doQuery G (before G s calls j) portal).1 = .ok response
  quiet : (doQuery G (before G s calls j) portal).2.runs = (before G s calls j).runs

/-- The Execute at position `j` returns what the Describe at position `i` stashed for its name and text. -/
structure ServedFrom (i j : ℕ) (d e : Portal) (response : Response) : Prop where
  served : ServedAt G s calls j e response
  origin : Origin G s calls i j d response
  name : d.name = e.name
  query : d.query = e.query

variable {G s calls}

theorem before_succ {n : ℕ} {c : Call} (h : calls[n]? = some c) :
    before G s calls (n + 1) = call G (before G s calls n) c := by
  rw [before, List.take_add_one, h, run_append]
  rfl

theorem Origin.extend {i n : ℕ} {portal : Portal} {response : Response} (h : Origin G s calls i n portal response)
    (hspared : ∀ c, calls[n]? = some c → Spares G (before G s calls n) portal.name c) :
    Origin G s calls i (n + 1) portal response := by
  refine ⟨h.lt.trans (Nat.lt_succ_self n), h.described, h.room, h.answered, fun k c hik hkn hc => ?_⟩
  by_cases hk : k = n
  · subst hk
    exact hspared c hc
  · exact h.spared k c hik (by omega) hc

/-! ## Every entry has an origin -/

/-- The entry of a portal was stashed by a Describe of it for the entry's text. -/
def HasOrigin (G : Gateway) (s : Session) (calls : List Call) (n : ℕ) : Prop :=
  ∀ name entry, (before G s calls n).portals.lookup name = some entry →
    ∃ i portal, Origin G s calls i n portal entry.response ∧ portal.name = name ∧ portal.query = entry.query

theorem hasOrigin_execute {n : ℕ} {portal : Portal} (hcall : calls[n]? = some (.execute portal))
    (h : HasOrigin G s calls n) : HasOrigin G s calls (n + 1) := by
  intro name entry hentry
  rw [before_succ hcall, call, execute_portals] at hentry
  by_cases hname : name = portal.name
  · rw [hname, AList.lookup_erase] at hentry
    cases hentry
  · rw [AList.lookup_erase_ne hname] at hentry
    obtain ⟨i, p, horigin, rfl, hquery⟩ := h name entry hentry
    refine ⟨i, p, horigin.extend fun c hc => ?_, rfl, hquery⟩
    cases hcall.symm.trans hc
    exact Ne.symm hname

theorem hasOrigin_describe {n : ℕ} {portal : Portal} (hcall : calls[n]? = some (.describe portal))
    (h : HasOrigin G s calls n) : HasOrigin G s calls (n + 1) := by
  -- An entry the Describe did not write keeps its origin, if the Describe spares it.
  have hkeep : ∀ name entry, (before G s calls n).portals.lookup name = some entry →
      (portal.name = name → ∃ e, answer G (before G s calls n) portal = .error e) →
      ∃ i p, Origin G s calls i (n + 1) p entry.response ∧ p.name = name ∧ p.query = entry.query := by
    intro name entry hentry hspared
    obtain ⟨i, p, horigin, rfl, hquery⟩ := h name entry hentry
    refine ⟨i, p, horigin.extend fun c hc => ?_, rfl, hquery⟩
    cases hcall.symm.trans hc
    exact hspared
  intro name entry hentry
  rw [before_succ hcall, call] at hentry
  rcases describe_cases (G := G) (before G s calls n) portal with ⟨e, hfail, hd⟩ | ⟨response, rest, hok, hd⟩
  · rw [hd] at hentry
    exact hkeep name entry hentry fun _ => ⟨e, by rw [answer, hfail]; rfl⟩
  · rw [hd] at hentry
    by_cases hname : name = portal.name
    · subst hname
      rw [lookup_insertCached] at hentry
      split_ifs at hentry with hroom
      cases hentry
      have hanswer : answer G (before G s calls n) portal = .ok response := by
        rw [answer, hok]
        rfl
      exact ⟨n, portal, ⟨Nat.lt_succ_self n, hcall, hroom, hanswer, fun k c hnk hk => by omega⟩, rfl, rfl⟩
    · rw [lookup_insertCached_ne hname] at hentry
      exact hkeep name entry hentry fun hsame => absurd hsame.symm hname

theorem stash_origin (hempty : s.portals = ∅) (n : ℕ) : HasOrigin G s calls n := by
  induction n with
  | zero =>
    intro name entry hentry
    rw [before, List.take_zero, run_nil, hempty] at hentry
    cases hentry
  | succ n ih =>
    cases hcall : calls[n]? with
    | none =>
      -- Past the last call nothing changes.
      have hsame : before G s calls (n + 1) = before G s calls n := by
        rw [before, List.take_add_one, hcall, Option.toList_none, List.append_nil, before]
      intro name entry hentry
      rw [hsame] at hentry
      obtain ⟨i, p, horigin, hrest⟩ := ih name entry hentry
      exact ⟨i, p, horigin.extend fun c hc => (by rw [hcall] at hc; cases hc), hrest⟩
    | some c =>
      cases c with
      | describe portal => exact hasOrigin_describe hcall ih
      | execute portal => exact hasOrigin_execute hcall ih

/-! ## The cap -/

theorem keys_length_insertCached {cache : PortalCache} (h : cache.keys.length ≤ maxCachedPortals) (name : Text)
    (entry : CachedPortalResponse) : (insertCached cache name entry).keys.length ≤ maxCachedPortals := by
  by_cases hmem : name ∈ cache
  · have hroom : Room cache name := Or.inr hmem
    have hlength := @List.length_erase_of_mem Text instBEqOfDecidableEq _ _ _ hmem
    have hpos := List.length_pos_of_mem hmem
    rw [insertCached, if_pos hroom, AList.keys_insert, List.length_cons, hlength]
    omega
  · by_cases hfull : cache.keys.length < maxCachedPortals
    · rw [keys_insertCached hfull hmem, List.length_cons]
      exact hfull
    · have hroom : ¬ Room cache name := not_or.mpr ⟨hfull, hmem⟩
      rw [insertCached, if_neg hroom]
      exact h

theorem keys_length_call (t : Session) (c : Call) (h : t.portals.keys.length ≤ maxCachedPortals) :
    (call G t c).portals.keys.length ≤ maxCachedPortals := by
  cases c with
  | execute portal =>
    rw [call, execute_portals, AList.keys_erase]
    exact (@List.length_erase_le Text instBEqOfDecidableEq _ _).trans h
  | describe portal =>
    rw [call]
    rcases describe_cases (G := G) t portal with ⟨e, -, hd⟩ | ⟨response, rest, -, hd⟩
    · rw [hd]
      exact h
    · rw [hd]
      exact keys_length_insertCached h _ _

/-! ## Executes that are served -/

theorem ServedAt.lookup {j : ℕ} {e : Portal} {response : Response} (h : ServedAt G s calls j e response) :
    (before G s calls j).portals.lookup e.name = some ⟨e.query, response⟩ := by
  by_cases hserves : Serves (before G s calls j) e.name e.query
  · obtain ⟨⟨query, stashed⟩, hlookup, rfl⟩ := hserves
    have hreturned := h.returned
    rw [doQuery_served hlookup rfl] at hreturned
    obtain rfl : stashed = response := Except.ok.inj hreturned
    exact hlookup
  · have hquiet := h.quiet
    rw [doQuery_afresh hserves] at hquiet
    simp at hquiet

theorem Origin.not_lt {i i' n : ℕ} {d d' : Portal} {response response' : Response}
    (h : Origin G s calls i n d response) (h' : Origin G s calls i' n d' response') (hname : d'.name = d.name) :
    ¬ i < i' := by
  intro hlt
  obtain ⟨e, herror⟩ := h.spared i' _ hlt h'.lt h'.described hname
  rw [h'.answered] at herror
  cases herror

theorem ServedFrom.not_lt {i j j' : ℕ} {d d' e e' : Portal} {response response' : Response}
    (h : ServedFrom G s calls i j d e response) (h' : ServedFrom G s calls i j' d' e' response') : ¬ j < j' := by
  intro hlt
  have hspared := h'.origin.spared j _ h.origin.lt hlt h.served.executed
  have hsame : d = d' := by
    have hcalls := h.origin.described.symm.trans h'.origin.described
    cases hcalls
    rfl
  exact hspared (by rw [← h.name, hsame])

/-- The stash keeps its cap, a served Execute gets the response of one Describe, of its portal and
text and not replaced since, and no two Executes get the response of one Describe. -/
theorem stash_served_once (G : Gateway) (s : Session) (hempty : s.portals = ∅) (calls : List Call) :
    (run (call G) s calls).portals.keys.length ≤ maxCachedPortals ∧
      (∀ j e response, ServedAt G s calls j e response → ∃! i, ∃ d, ServedFrom G s calls i j d e response) ∧
      ∀ i j j' d d' e e' response response', ServedFrom G s calls i j d e response →
        ServedFrom G s calls i j' d' e' response' → j = j' := by
  refine ⟨?_, fun j e response hserved => ?_, fun i j j' d d' e e' response response' h h' => ?_⟩
  · apply run_invariant keys_length_call
    rw [hempty]
    decide
  · obtain ⟨i, d, horigin, hname, hquery⟩ := stash_origin hempty j _ _ hserved.lookup
    refine ⟨i, ⟨d, hserved, horigin, hname, hquery⟩, ?_⟩
    rintro i' ⟨d', h'⟩
    have hsame : d'.name = d.name := h'.name.trans hname.symm
    have := horigin.not_lt h'.origin hsame
    have := h'.origin.not_lt horigin hsame.symm
    omega
  · have := h.not_lt h'
    have := h'.not_lt h
    omega

/-- A Describe and an Execute of one portal. -/
def ordersPair : List Call := [.describe (ordersPortal "p".toList), .execute (ordersPortal "p".toList)]

theorem ordersPair_served : ∃ response, ServedAt ordersGateway .fresh ordersPair 1 (ordersPortal "p".toList) response := by
  obtain ⟨response, hd⟩ := describe_spec (ordersGateway_ok .fresh "p".toList)
  have hlookup : (before ordersGateway .fresh ordersPair 1).portals.lookup "p".toList = some ⟨insertOrders, response⟩ := by
    show (call ordersGateway .fresh (.describe (ordersPortal "p".toList))).portals.lookup "p".toList = _
    rw [call, hd]
    exact lookup_insertCached _
  have hserved : doQuery ordersGateway (before ordersGateway .fresh ordersPair 1) (ordersPortal "p".toList) = _ :=
    doQuery_served hlookup rfl
  exact ⟨response, rfl, by rw [hserved], by rw [hserved]⟩

theorem ordersPair_served_once :
    ∃ response, ∃! i, ∃ d, ServedFrom ordersGateway .fresh ordersPair i 1 d (ordersPortal "p".toList) response := by
  obtain ⟨response, hserved⟩ := ordersPair_served
  exact ⟨response, (stash_served_once ordersGateway .fresh rfl ordersPair).2.1 1 _ response hserved⟩

end TrinoGateway.Stash
