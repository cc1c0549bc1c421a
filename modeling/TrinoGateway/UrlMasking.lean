/-
  TrinoGateway.UrlMasking — `mask_url_hosts` (`src/error_mapping.rs`), which hides the hosts of
  URLs in a message before the client sees it.

  The loop looks for `https://` in all that is left before it looks for `http://`, and copies
  what stands before the hit. So an `http://` URL is masked only if no `https://` URL comes
  after it. Proved: `hosts_masked_iff`. Nothing but hosts is ever taken out (`Masks`), and
  every URL of the output is masked exactly if the texts before the `https://` URLs
  (`beforeHttps`) have no `http://` with a host of its own. `http_before_https_kept` is the
  leak.
-/

import TrinoGateway.ErrorMapping

namespace TrinoGateway.UrlMasking

open TrinoGateway.Lib
open TrinoGateway.ErrorMapping

def https : Text := "https://".toList

def http : Text := "http://".toList

def mask : Text := "<trino>".toList

/-- Every scheme in the text is followed by the mask. -/
def Masked (s : Text) : Prop := ∀ scheme ∈ [https, http], ∀ a b, s = a ++ scheme ++ b → mask <+: b

/-- The output is the message with hosts replaced: each after a scheme and up to where a host ends. -/
inductive Masks : Text → Text → Prop
  | kept (s : Text) : Masks s s
  | url {scheme host rest out : Text} (before : Text) : scheme ∈ [https, http] → (∀ c ∈ host, endsHost c = false) →
      (∀ c ∈ rest.head?, endsHost c = true) → Masks rest out →
      Masks (before ++ scheme ++ host ++ rest) (before ++ scheme ++ mask ++ out)

/-! ## Where schemes can stand in a text that is put together -/

theorem prefix_of_append_cons {w b t : Text} {c : Char} (hc : c ∉ w) (h : w <+: b ++ c :: t) : w <+: b := by
  rcases List.prefix_or_prefix_of_prefix h (List.prefix_append b (c :: t)) with hw | ⟨rest, hrest⟩
  · exact hw
  · cases rest with
    | nil => rw [← hrest, List.append_nil]
    | cons d rest =>
      rw [← hrest, List.prefix_append_right_inj] at h
      rw [← hrest, (List.cons_prefix_cons.mp h).1] at hc
      exact absurd (by simp) hc

/-- No scheme reaches over the beginning of another one. -/
theorem masked_append_iff (p t : Text) : Masked (p ++ 'h' :: t) ↔ Masked p ∧ Masked ('h' :: t) := by
  have htail : ∀ scheme ∈ [https, http], 'h' ∉ scheme.tail := by decide
  constructor
  · intro h
    constructor
    · rintro scheme hscheme a b rfl
      have hmask := h scheme hscheme a (b ++ 'h' :: t) (by simp only [List.append_assoc])
      exact prefix_of_append_cons (by decide) hmask
    · intro scheme hscheme a b hab
      exact h scheme hscheme (p ++ a) b (by rw [hab]; simp only [List.append_assoc])
  · rintro ⟨hp, ht⟩ scheme hscheme a b hab
    rw [List.append_assoc] at hab
    rcases List.append_eq_append_iff.mp hab with ⟨a', rfl, hrest⟩ | ⟨c, rfl, hrest⟩
    · exact ht scheme hscheme a' b (by rw [hrest, List.append_assoc])
    · rcases List.append_eq_append_iff.mp hrest with ⟨d, rfl, rfl⟩ | ⟨d, hd, htb⟩
      · have hmask := hp scheme hscheme a d (by rw [List.append_assoc])
        exact hmask.trans (List.prefix_append d _)
      · -- The scheme begins in `p` and ends after it.
        cases c with
        | nil => exact ht scheme hscheme [] b (by rw [htb, hd, List.nil_append, List.nil_append])
        | cons x c =>
          cases d with
          | nil =>
            have hmask := hp scheme hscheme a [] (by rw [hd, List.append_nil, List.append_nil])
            exact absurd (List.prefix_nil.mp hmask) (by decide)
          | cons y d =>
            have hy : 'h' = y := (List.cons.inj htb).1
            refine absurd ?_ (htail scheme hscheme)
            rw [hd, hy, List.cons_append, List.tail_cons]
            exact List.mem_append_right c List.mem_cons_self

theorem masked_url_iff {scheme : Text} (hscheme : scheme ∈ [https, http]) (out : Text) :
    Masked (scheme ++ mask ++ out) ↔ Masked out := by
  have htail : ∀ scheme ∈ [https, http], 'h' ∉ (scheme ++ mask).tail := by decide
  have hhead : ∀ scheme ∈ [https, http], ∃ rest, scheme = 'h' :: rest := by
    intro scheme h
    rcases List.mem_pair.mp h with rfl | rfl
    · exact ⟨_, rfl⟩
    · exact ⟨_, rfl⟩
  have hone : ∀ s ∈ [https, http], ∀ t ∈ [https, http], s <+: t → s = t := by decide
  constructor
  · intro h found hfound a b hab
    exact h found hfound (scheme ++ mask ++ a) b (by rw [hab]; simp only [List.append_assoc])
  · intro h found hfound a b hab
    rw [List.append_assoc a] at hab
    rcases List.append_eq_append_iff.mp hab with ⟨a', -, hrest⟩ | ⟨c, hc, hrest⟩
    · exact h found hfound a' b (by rw [hrest, List.append_assoc])
    · obtain ⟨rest, hfirst⟩ := hhead found hfound
      cases a with
      | nil =>
        rw [List.nil_append] at hc
        rw [← hc, List.append_assoc] at hrest
        -- Neither scheme begins the other, so the one found is the one that stands there.
        have hsame : found = scheme := by
          rcases List.prefix_or_prefix_of_prefix (List.prefix_append found b) (hrest ▸ List.prefix_append scheme _)
            with hs | hs
          · exact hone found hfound scheme hscheme hs
          · exact (hone scheme hscheme found hfound hs).symm
        rw [hsame, List.append_cancel_left_eq] at hrest
        rw [hrest]
        exact List.prefix_append mask out
      | cons x a =>
        cases c with
        | nil => exact h found hfound [] b (by rw [List.nil_append] at hrest; rw [List.nil_append, hrest])
        | cons y c =>
          rw [hfirst, List.cons_append, List.cons_append] at hrest
          have hy : 'h' = y := (List.cons.inj hrest).1
          refine absurd ?_ (htail scheme hscheme)
          rw [hc, hy, List.cons_append, List.tail_cons]
          exact List.mem_append_right a List.mem_cons_self

/-! ## The loop, one URL at a time -/

theorem maskUrlHosts_found {m scheme : Text} {i : ℕ} (h : findScheme m = some (scheme, i)) :
    maskUrlHosts m = m.take i ++ scheme ++ mask ++ maskUrlHosts (afterHost m scheme i) := by
  rw [maskUrlHosts]
  split
  · next hnone =>
    rw [h] at hnone
    cases hnone
  · next found idx hsome =>
    rw [h] at hsome
    cases hsome
    rfl

theorem maskUrlHosts_not_found {m : Text} (h : findScheme m = none) : maskUrlHosts m = m := by
  rw [maskUrlHosts]
  split
  · rfl
  · next scheme idx hsome =>
    rw [h] at hsome
    cases hsome

theorem maskUrlHosts_https {m : Text} {i : ℕ} (h : find? https m = some i) :
    maskUrlHosts m = m.take i ++ https ++ mask ++ maskUrlHosts (afterHost m https i) := by
  apply maskUrlHosts_found
  show List.findSome? _ (https :: _) = _
  rw [List.findSome?_cons, h, Option.map_some]

theorem maskUrlHosts_http {m : Text} {i : ℕ} (hno : find? https m = none) (h : find? http m = some i) :
    maskUrlHosts m = m.take i ++ http ++ mask ++ maskUrlHosts (afterHost m http i) := by
  apply maskUrlHosts_found
  show List.findSome? _ [https, http] = _
  rw [List.findSome?_cons, hno, Option.map_none, List.findSome?_cons, h, Option.map_some]

theorem findScheme_cons {c : Char} (hc : c ≠ 'h') (s : Text) :
    findScheme (c :: s) = (findScheme s).map fun found => (found.1, found.2 + 1) := by
  have hhttps : find? "https://".toList (c :: s) = (find? "https://".toList s).map (· + 1) :=
    find?_cons_of_ne hc "ttps://".toList s
  have hhttp : find? "http://".toList (c :: s) = (find? "http://".toList s).map (· + 1) :=
    find?_cons_of_ne hc "ttp://".toList s
  simp only [findScheme, List.findSome?_cons, List.findSome?_nil, hhttps, hhttp]
  cases find? "https://".toList s with
  | some i => rfl
  | none => cases find? "http://".toList s <;> rfl

/-- White space in front is copied. -/
theorem maskUrlHosts_blank {space : Text} (h : Blank space) (s : Text) :
    maskUrlHosts (space ++ s) = space ++ maskUrlHosts s := by
  induction space with
  | nil => rfl
  | cons c space ih =>
    have hc : c ≠ 'h' := by
      rintro rfl
      exact absurd (h 'h' List.mem_cons_self) (by decide)
    have hrest : maskUrlHosts (c :: (space ++ s)) = c :: maskUrlHosts (space ++ s) := by
      cases hfound : findScheme (space ++ s) with
      | none =>
        rw [maskUrlHosts_not_found hfound, maskUrlHosts_not_found]
        rw [findScheme_cons hc, hfound, Option.map_none]
      | some found =>
        have hcons : findScheme (c :: (space ++ s)) = some (found.1, found.2 + 1) := by
          rw [findScheme_cons hc, hfound, Option.map_some]
        have hafter : afterHost (c :: (space ++ s)) found.1 (found.2 + 1) = afterHost (space ++ s) found.1 found.2 := by
          rw [afterHost, afterHost, Nat.add_right_comm, List.drop_succ_cons]
        rw [maskUrlHosts_found hfound, maskUrlHosts_found hcons, hafter]
        rfl
    rw [List.cons_append, hrest, ih fun d hd => h d (List.mem_cons_of_mem c hd), List.cons_append]

theorem maskUrlHosts_none {m : Text} (hhttps : find? https m = none) (hhttp : find? http m = none) :
    maskUrlHosts m = m := by
  apply maskUrlHosts_not_found
  show List.findSome? _ [https, http] = _
  rw [List.findSome?_cons, hhttps, Option.map_none, List.findSome?_cons, hhttp, Option.map_none, List.findSome?_nil]

theorem afterHost_suffix (m scheme : Text) (i : ℕ) : afterHost m scheme i <:+ m :=
  (List.dropWhile_suffix _).trans (List.drop_suffix _ m)

/-- A found URL, with its host cut out of the message. -/
theorem url_parts {m scheme : Text} {i : ℕ} (h : find? scheme m = some i) :
    m = m.take i ++ scheme ++ (m.drop (i + scheme.length)).takeWhile (!endsHost ·) ++ afterHost m scheme i := by
  conv_lhs => rw [(find?_occurs h).1]
  rw [List.append_assoc _ _ (afterHost m scheme i), afterHost, List.takeWhile_append_dropWhile]

theorem masks_url {m scheme out : Text} {i : ℕ} (hscheme : scheme ∈ [https, http]) (h : find? scheme m = some i)
    (hrest : Masks (afterHost m scheme i) out) : Masks m (m.take i ++ scheme ++ mask ++ out) := by
  have hhost : ∀ c ∈ (m.drop (i + scheme.length)).takeWhile (!endsHost ·), endsHost c = false := by
    intro c hc
    simpa using List.mem_takeWhile_imp hc
  have hend : ∀ c ∈ (afterHost m scheme i).head?, endsHost c = true := by
    intro c hc
    have hstop := List.head?_dropWhile_not (!endsHost ·) (m.drop (i + scheme.length))
    rw [Option.mem_def, afterHost] at hc
    rw [hc] at hstop
    simpa using hstop
  have hmasks := Masks.url (m.take i) hscheme hhost hend hrest
  rwa [← url_parts h] at hmasks

/-- Nothing but hosts is taken out, whatever the order of the URLs. -/
theorem masks_maskUrlHosts (m : Text) : Masks m (maskUrlHosts m) := by
  induction hn : m.length using Nat.strong_induction_on generalizing m with
  | _ n ih =>
    cases hhttps : find? https m with
    | some i =>
      rw [maskUrlHosts_https hhttps]
      have hlt := afterHost_length (by decide) hhttps
      exact masks_url (by simp) hhttps (ih _ (hn ▸ hlt) _ rfl)
    | none =>
      cases hhttp : find? http m with
      | some i =>
        rw [maskUrlHosts_http hhttps hhttp]
        have hlt := afterHost_length (by decide) hhttp
        exact masks_url (by simp) hhttp (ih _ (hn ▸ hlt) _ rfl)
      | none =>
        rw [maskUrlHosts_none hhttps hhttp]
        exact .kept m

/-! ## Which URLs are masked -/

/-- The texts before the `https://` URLs of a message, outside their hosts. -/
def beforeHttps (m : Text) : List Text :=
  match _h : find? https m with
  | none => []
  | some i => m.take i :: beforeHttps (afterHost m https i)
termination_by m.length
decreasing_by exact afterHost_length (List.cons_ne_nil _ _) _h

theorem beforeHttps_none {m : Text} (h : find? https m = none) : beforeHttps m = [] := by
  rw [beforeHttps]
  split
  · rfl
  · next i hsome =>
    rw [h] at hsome
    cases hsome

theorem beforeHttps_some {m : Text} {i : ℕ} (h : find? https m = some i) :
    beforeHttps m = m.take i :: beforeHttps (afterHost m https i) := by
  rw [beforeHttps]
  split
  · next hnone =>
    rw [h] at hnone
    cases hnone
  · next j hsome =>
    rw [h] at hsome
    cases hsome
    rfl

theorem masked_step {p out scheme : Text} (hscheme : scheme ∈ [https, http]) :
    Masked (p ++ scheme ++ mask ++ out) ↔ Masked p ∧ Masked out := by
  have hhead : ∃ rest, scheme ++ mask ++ out = 'h' :: rest := by
    rcases List.mem_pair.mp hscheme with rfl | rfl
    · exact ⟨_, rfl⟩
    · exact ⟨_, rfl⟩
  obtain ⟨rest, hrest⟩ := hhead
  rw [List.append_assoc, List.append_assoc, ← List.append_assoc scheme, hrest, masked_append_iff, ← hrest,
    masked_url_iff hscheme]

theorem masked_of_no_scheme {m : Text} (hhttps : ∀ a b, m ≠ a ++ https ++ b) (hhttp : ∀ a b, m ≠ a ++ http ++ b) :
    Masked m := by
  intro scheme hscheme a b hab
  rcases List.mem_pair.mp hscheme with rfl | rfl
  · exact absurd hab (hhttps a b)
  · exact absurd hab (hhttp a b)

/-- Without `https://`, the first `http://` is the first URL, and every one is found. -/
theorem masked_of_no_https (m : Text) (hno : find? https m = none) : Masked (maskUrlHosts m) := by
  induction hn : m.length using Nat.strong_induction_on generalizing m with
  | _ n ih =>
    have hhttps := not_occurs_of_find?_none (by decide) hno
    cases hhttp : find? http m with
    | none =>
      rw [maskUrlHosts_none hno hhttp]
      exact masked_of_no_scheme hhttps (not_occurs_of_find?_none (by decide) hhttp)
    | some i =>
      rw [maskUrlHosts_http hno hhttp, masked_step (by simp)]
      constructor
      · refine masked_of_no_scheme ?_ (not_in_before (by decide) hhttp)
        intro a b hab
        apply hhttps a (b ++ m.drop i)
        rw [← List.append_assoc, ← hab, List.take_append_drop]
      · have hrest := find?_none_of_suffix (by decide) hno (afterHost_suffix m http i)
        exact ih _ (hn ▸ afterHost_length (by decide) hhttp) _ hrest rfl

theorem masked_maskUrlHosts_iff (m : Text) :
    Masked (maskUrlHosts m) ↔ ∀ before ∈ beforeHttps m, ∀ a b, before = a ++ http ++ b → mask <+: b := by
  induction hn : m.length using Nat.strong_induction_on generalizing m with
  | _ n ih =>
    cases hhttps : find? https m with
    | none =>
      rw [beforeHttps_none hhttps]
      exact iff_of_true (masked_of_no_https m hhttps) (by simp)
    | some i =>
      have hbefore : Masked (m.take i) ↔ ∀ a b, m.take i = a ++ http ++ b → mask <+: b := by
        constructor
        · intro h
          exact h http (by simp)
        · intro h scheme hscheme a b hab
          rcases List.mem_pair.mp hscheme with rfl | rfl
          · exact absurd hab (not_in_before (by decide) hhttps a b)
          · exact h a b hab
      rw [maskUrlHosts_https hhttps, masked_step (by simp), hbefore, beforeHttps_some hhttps, List.forall_mem_cons,
        ih _ (hn ▸ afterHost_length (by decide) hhttps) _ rfl]

theorem hosts_masked_iff (m : Text) :
    Masks m (maskUrlHosts m) ∧
    (Masked (maskUrlHosts m) ↔ ∀ before ∈ beforeHttps m, ∀ a b, before = a ++ http ++ b → mask <+: b) :=
  ⟨masks_maskUrlHosts m, masked_maskUrlHosts_iff m⟩

def retried : Text := "fetch from http://worker-1:8080/x failed, retried via https://worker-2:8443/x".toList

/-- The host of the first URL reaches the client. -/
theorem http_before_https_kept :
    maskUrlHosts retried = "fetch from http://worker-1:8080/x failed, retried via https://<trino>/x".toList ∧
    ¬Masked (maskUrlHosts retried) := by
  have hfirst : find? https retried = some 54 := by decide +kernel
  have hrest : afterHost retried https 54 = "/x".toList := by decide +kernel
  have hlast : maskUrlHosts "/x".toList = "/x".toList := maskUrlHosts_none (by decide) (by decide)
  have hout : maskUrlHosts retried =
      "fetch from http://worker-1:8080/x failed, retried via https://<trino>/x".toList := by
    rw [maskUrlHosts_https hfirst, hrest, hlast]
    decide +kernel
  refine ⟨hout, ?_⟩
  intro h
  have hmask := h http (by simp) "fetch from ".toList
    "worker-1:8080/x failed, retried via https://<trino>/x".toList (by rw [hout]; decide +kernel)
  exact absurd hmask (by decide)

end TrinoGateway.UrlMasking
