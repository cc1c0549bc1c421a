/-
  TrinoGateway.ClientMessage — what of a Trino message reaches the client, and under which
  SQLSTATE (`src/error_mapping.rs`).

  The stages run once, in a fixed order: the stack trace is cut off, then class names are
  stripped, then hosts are masked, then white space is trimmed, then the text is cut to its
  budget. `Shown` says what the text begins with after that. Each stage can uncover what an
  earlier one looks for.

  Proved:
  - `frames_removed_iff`: the cut is at the first frame with a tab if there is one, so a
    frame with two spaces before it stays (`space_frame_kept`); where none stands before it
    no frame is left (`frames_removed_of_ordered`).
  - `class_stripped_iff`: the loop ends, and the text has no class name left unless the message
    begins with white space before one (`class_behind_space_kept`), or a host that is masked
    uncovers one behind the names that were stripped. Without white space in front and without
    a URL that ends in a colon none is left (`class_stripped_of_plain`).
  - `position_kept_iff`: a position `line a:b: ` in front makes every message a syntax
    error, so that no other class is kept (`missing_table_position`).
-/

import TrinoGateway.ErrorSlices
import TrinoGateway.Lib.Numeral

namespace TrinoGateway.ClientMessage

open TrinoGateway.Lib
open TrinoGateway.ErrorMapping
open TrinoGateway.UrlMasking (https http mask Masks masks_maskUrlHosts maskUrlHosts_none maskUrlHosts_blank)
open TrinoGateway.ErrorSlices (tabFrame spaceFrame beforeStackTrace clientText sanitiseForClient_clientText
  truncateWithEllipsis_cut stripJavaExceptionPrefix_length stripJavaExceptionPrefixes_eq)

/-! ## What is shown -/

/-- What trimming and cutting `u` leaves begins with `w`: `w` is there behind white space, more than
    white space follows, and the cut comes after it. -/
def Shown (u w : Text) : Prop :=
  ∃ rest, trimStart u = w ++ rest ∧ ¬ Blank rest ∧ (byteLength (trim u) ≤ 512 ∨ byteLength w ≤ 509)

/-- A text that ends in white space begins the trimmed text if it does not end it. -/
theorem prefix_trim_iff {w : Text} {c : Char} (hc : isWhitespace c = true) (u : Text) :
    w ++ [c] <+: trim u ↔ ∃ rest, trimStart u = w ++ [c] ++ rest ∧ ¬ Blank rest := by
  constructor
  · intro h
    obtain ⟨rest, hrest⟩ := h
    obtain ⟨tail, htail, -⟩ := trimEnd_parts (trimStart u)
    refine ⟨rest ++ tail, ?_, ?_⟩
    · rw [← List.append_assoc, hrest]
      exact htail
    · intro hblank
      -- Otherwise the trimmed text would end in white space.
      have hfixed : trimEnd (trim u) = trim u := by
        rw [trim, trimEnd, trimEnd, List.rdropWhile_idempotent]
      have hrestBlank : Blank rest := fun d hd => hblank d (List.mem_append_left tail hd)
      have hshort : trimEnd (trim u) = trimEnd w := by
        rw [← hrest, List.append_assoc, trimEnd_blank]
        intro d hd
        rcases List.mem_append.mp hd with hd | hd
        · rw [List.mem_singleton.mp hd]
          exact hc
        · exact hrestBlank d hd
      have hlen := (List.rdropWhile_prefix isWhitespace w).length_le
      have hsame := congrArg List.length (hfixed.symm.trans hshort)
      rw [← hrest, List.length_append, List.length_append, List.length_singleton] at hsame
      rw [trimEnd] at hsame
      omega
  · intro h
    obtain ⟨rest, hu, hrest⟩ := h
    rw [trim, hu, trimEnd_append hrest]
    exact List.prefix_append _ _

theorem prefix_truncate_iff {w : Text} {c : Char} (hc : c ≠ '…') (t : Text) :
    w ++ [c] <+: truncateWithEllipsis t maxClientErrorLen ↔
      w ++ [c] <+: t ∧ (byteLength t ≤ 512 ∨ byteLength (w ++ [c]) ≤ 509) := by
  by_cases hfits : byteLength t ≤ 512
  · have hsame : truncateWithEllipsis t maxClientErrorLen = t := if_pos hfits
    rw [hsame]
    exact ⟨fun h => ⟨h, .inl hfits⟩, fun h => h.1⟩
  · have hover : maxClientErrorLen < byteLength t := Nat.lt_of_not_le hfits
    obtain ⟨kept, hkept, hcut, -⟩ := truncateWithEllipsis_cut hover
    rw [hcut, List.prefix_concat_iff]
    constructor
    · intro h
      rcases h with h | h
      · exact absurd (List.append_inj_right' h rfl) (by simpa using hc)
      · exact ⟨h.trans hkept.start, .inr ((byteLength_mono h).trans hkept.fits)⟩
    · intro h
      obtain ⟨h, hle⟩ := h
      rcases hle with hle | hle
      · exact absurd hle hfits
      · exact .inr (hkept.longest _ h hle)

/-- What the last three stages are given. -/
def stripped (msg : Text) : Text := stripJavaExceptionPrefixes (beforeStackTrace msg)

theorem prefix_sanitise_iff {w : Text} {c : Char} (hc : isWhitespace c = true) (msg : Text) :
    w ++ [c] <+: sanitiseForClient msg ↔ Shown (maskUrlHosts (stripped msg)) (w ++ [c]) := by
  have hne : c ≠ '…' := by
    intro h
    rw [h] at hc
    exact absurd hc (by decide)
  rw [sanitiseForClient_clientText, prefix_truncate_iff hne, clientText, ← stripped, prefix_trim_iff hc]
  constructor
  · intro h
    obtain ⟨⟨rest, hu, hrest⟩, hfits⟩ := h
    exact ⟨rest, hu, hrest, hfits⟩
  · intro h
    obtain ⟨rest, hu, hrest, hfits⟩ := h
    exact ⟨⟨rest, hu, hrest⟩, hfits⟩

/-! ## Stack frames -/

/-- Masking makes no text that has a newline, and neither an `h` nor a `>`. -/
theorem infix_of_masks {needle m out : Text} (hh : 'h' ∉ needle) (hend : '>' ∉ needle) (hline : '\n' ∈ needle)
    (h : Masks m out) (hout : needle <:+: out) : needle <:+: m := by
  induction h with
  | kept s => exact hout
  | @url scheme host rest out before hscheme _ _ _ ih =>
    -- The scheme starts with an `h` and the mask ends in a `>`.
    obtain ⟨t, ht, hline'⟩ : ∃ t, scheme ++ mask ++ out = 'h' :: (t ++ '>' :: out) ∧ '\n' ∉ t := by
      rcases List.mem_pair.mp hscheme with rfl | rfl
      · exact ⟨"ttps://<trino".toList, rfl, by decide⟩
      · exact ⟨"ttp://<trino".toList, rfl, by decide⟩
    rw [List.append_assoc, List.append_assoc, ← List.append_assoc scheme, ht] at hout
    rcases infix_of_append_cons hh hout with hbefore | hrest
    · refine hbefore.trans ?_
      rw [List.append_assoc, List.append_assoc]
      exact (List.prefix_append before _).isInfix
    · rcases infix_of_append_cons hend hrest with hurl | hrest
      · exact absurd (hurl.subset hline) hline'
      · exact (ih hrest).trans (List.suffix_append _ rest).isInfix

theorem strip_suffix (s : Text) : stripJavaExceptionPrefix s <:+ s := by
  rcases stripJavaExceptionPrefix_length s with hsame | ⟨a, -, hs⟩
  · rw [hsame]
  · exact ⟨a, hs.symm⟩

/-- What holds of a text with nothing to strip and itself, and goes over from the text after a round to the one before,
    holds of a text and what the loop makes of it. -/
theorem strips_induction {motive : Text → Text → Prop} (stop : ∀ s, stripJavaExceptionPrefix s = s → motive s s)
    (next : ∀ s t, motive (stripJavaExceptionPrefix s) t → motive s t) (s : Text) :
    motive s (stripJavaExceptionPrefixes s) := by
  induction hn : s.length using Nat.strong_induction_on generalizing s with
  | _ n ih =>
    rw [stripJavaExceptionPrefixes]
    split_ifs with hmoved
    · exact next s _ (ih _ (hn ▸ hmoved) _ rfl)
    · exact stop s ((strip_suffix s).eq_of_length_le (not_lt.mp hmoved))

theorem strips_suffix (s : Text) : stripJavaExceptionPrefixes s <:+ s := by
  refine strips_induction (motive := fun s t => t <:+ s) ?_ ?_ s
  · intro s _
    exact List.suffix_refl s
  · intro s t h
    exact h.trans (strip_suffix s)

/-- No stage after the first makes a frame. -/
theorem frame_before {frame msg : Text} (hframe : frame = tabFrame ∨ frame = spaceFrame)
    (h : frame <:+: maskUrlHosts (stripped msg)) : frame <:+: beforeStackTrace msg := by
  have hstripped : frame <:+: stripped msg := by
    rcases hframe with rfl | rfl
    · exact infix_of_masks (by decide) (by decide) (by decide) (masks_maskUrlHosts _) h
    · exact infix_of_masks (by decide) (by decide) (by decide) (masks_maskUrlHosts _) h
  exact hstripped.trans (strips_suffix _).isInfix

theorem infix_of_shown {u w : Text} (h : Shown u w) : w <:+: u := by
  obtain ⟨rest, hu, -⟩ := h
  have hw : w <:+: trimStart u := by
    rw [hu]
    exact (List.prefix_append w rest).isInfix
  exact hw.trans (List.dropWhile_suffix _).isInfix

theorem no_tabFrame_before (msg : Text) : ¬ tabFrame <:+: beforeStackTrace msg := by
  unfold beforeStackTrace
  cases htab : find? tabFrame msg with
  | some i => exact not_infix_take (by decide) htab
  | none =>
    have hno : ¬ tabFrame <:+: msg := (find?_eq_none_iff (by decide)).mp htab
    cases hspace : find? spaceFrame msg with
    | some i => exact fun hin => hno (hin.trans (List.take_prefix i msg).isInfix)
    | none => exact hno

/-- Without a frame with a tab, the first frame with two spaces is where the trace starts. -/
theorem no_spaceFrame_before {msg : Text} (htab : find? tabFrame msg = none) :
    ¬ spaceFrame <:+: beforeStackTrace msg := by
  unfold beforeStackTrace
  rw [htab, Option.none_or]
  cases hspace : find? spaceFrame msg with
  | some i => exact not_infix_take (by decide) hspace
  | none => exact (find?_eq_none_iff (by decide)).mp hspace

theorem frame_sanitise_iff {frame : Text} (hframe : frame = tabFrame ∨ frame = spaceFrame) (msg : Text) :
    frame <:+: sanitiseForClient msg ↔ ∃ p, Shown (maskUrlHosts (stripped msg)) (p ++ frame) := by
  obtain ⟨body, rfl⟩ : ∃ body, frame = body ++ [' '] := by
    rcases hframe with rfl | rfl
    · exact ⟨"\n\tat".toList, rfl⟩
    · exact ⟨"\n  at".toList, rfl⟩
  rw [infix_iff_begins]
  refine exists_congr fun p => ?_
  rw [← List.append_assoc]
  exact prefix_sanitise_iff (by decide) msg

theorem frame_kept {frame msg : Text} (hframe : frame = tabFrame ∨ frame = spaceFrame)
    (h : frame <:+: sanitiseForClient msg) : frame <:+: beforeStackTrace msg := by
  obtain ⟨p, hp⟩ := (frame_sanitise_iff hframe msg).mp h
  exact frame_before hframe ((List.suffix_append p frame).isInfix.trans (infix_of_shown hp))

theorem no_tabFrame (msg : Text) : ¬ tabFrame <:+: sanitiseForClient msg :=
  fun h => no_tabFrame_before msg (frame_kept (.inl rfl) h)

/-- In a message where the frames with a tab come first, none is left. -/
theorem frames_removed_of_ordered {msg : Text} (h : ∀ i, find? tabFrame msg = some i → ¬ spaceFrame <:+: msg.take i) :
    ¬ tabFrame <:+: sanitiseForClient msg ∧ ¬ spaceFrame <:+: sanitiseForClient msg := by
  refine ⟨no_tabFrame msg, ?_⟩
  intro hspace
  have hbefore := frame_kept (.inr rfl) hspace
  cases htab : find? tabFrame msg with
  | some i =>
    rw [beforeStackTrace, htab, Option.some_or] at hbefore
    exact h i htab hbefore
  | none => exact no_spaceFrame_before htab hbefore

theorem frames_removed_iff (msg : Text) :
    (¬ tabFrame <:+: sanitiseForClient msg ∧ ¬ spaceFrame <:+: sanitiseForClient msg) ↔
      ¬ ∃ i p, find? tabFrame msg = some i ∧
        Shown (maskUrlHosts (stripJavaExceptionPrefixes (msg.take i))) (p ++ spaceFrame) := by
  have hbefore : ∀ i, find? tabFrame msg = some i → stripped msg = stripJavaExceptionPrefixes (msg.take i) := by
    intro i hi
    rw [stripped, beforeStackTrace, hi, Option.some_or]
  rw [and_iff_right (no_tabFrame msg), not_iff_not]
  constructor
  · intro h
    cases htab : find? tabFrame msg with
    | some i =>
      obtain ⟨p, hp⟩ := (frame_sanitise_iff (.inr rfl) msg).mp h
      rw [hbefore i htab] at hp
      exact ⟨i, p, rfl, hp⟩
    | none => exact absurd (frame_kept (.inr rfl) h) (no_spaceFrame_before htab)
  · intro h
    obtain ⟨i, p, hi, hp⟩ := h
    rw [← hbefore i hi] at hp
    exact (frame_sanitise_iff (.inr rfl) msg).mpr ⟨p, hp⟩

/-- A frame of a worker, then one of the coordinator. -/
def mixedTrace : Text := "Query failed\n  at worker.run\n\tat coordinator.run".toList

theorem space_frame_kept : spaceFrame <:+: sanitiseForClient mixedTrace := by
  rw [frame_sanitise_iff (.inr rfl)]
  have hbefore : beforeStackTrace mixedTrace = "Query failed\n  at worker.run".toList := by decide +kernel
  have hstrip : stripped mixedTrace = "Query failed\n  at worker.run".toList := by
    rw [stripped, hbefore, stripJavaExceptionPrefixes]
    decide +kernel
  have hmask : maskUrlHosts "Query failed\n  at worker.run".toList = "Query failed\n  at worker.run".toList :=
    maskUrlHosts_none (by decide +kernel) (by decide +kernel)
  rw [hstrip, hmask]
  exact ⟨"Query failed".toList, "worker.run".toList, by decide +kernel, by decide, .inr (by decide)⟩

/-! ## Class names -/

/-- The name of an exception, as the code tells it. -/
structure JavaClass (cls : Text) : Prop where
  single : ¬ ": ".toList <:+: cls
  package : javaPackages.any (·.isPrefixOf cls) = true
  kind : ("Exception".toList.isSuffixOf cls || "Error".toList.isSuffixOf cls) = true

/-- The separator after the name is the first one. -/
theorem find?_javaClass {cls : Text} (h : ¬ ": ".toList <:+: cls) (rest : Text) :
    find? ": ".toList (cls ++ ": ".toList ++ rest) = some cls.length := by
  obtain ⟨i, hi, hfind⟩ := find?_first (by decide : ": ".toList ≠ []) cls rest
  rcases Nat.lt_or_ge i cls.length with hlt | hge
  · exfalso
    have hoccurs := (find?_occurs hfind).1
    rw [List.append_assoc cls, List.take_append_of_le_length hi, List.append_assoc] at hoccurs
    conv_lhs at hoccurs => rw [← List.take_append_drop i cls, List.append_assoc]
    have hdrop := List.append_cancel_left hoccurs
    have hlen : 0 < (cls.drop i).length := by
      rw [List.length_drop]
      omega
    -- What is left of the name starts with the colon; the space after it is in the name too.
    obtain ⟨c, t, ht⟩ := List.exists_cons_of_ne_nil (List.length_pos_iff.mp hlen)
    rw [ht] at hdrop
    have hc : c = ':' := (List.cons.inj hdrop).1
    have htail := (List.cons.inj hdrop).2
    cases t with
    | nil => exact absurd (List.cons.inj htail).1 (by decide)
    | cons d t =>
      have hd : d = ' ' := (List.cons.inj htail).1
      refine h ⟨cls.take i, t, ?_⟩
      rw [List.append_assoc]
      conv_rhs => rw [← List.take_append_drop i cls, ht, hc, hd]
      rfl
  · rw [hfind, le_antisymm hi hge]

theorem strip_fixed_iff (s : Text) :
    stripJavaExceptionPrefix s = s ↔ ¬ ∃ cls, JavaClass cls ∧ cls ++ ": ".toList <+: s := by
  unfold stripJavaExceptionPrefix
  cases hcolon : find? ": ".toList s with
  | none =>
    refine iff_of_true rfl ?_
    intro h
    obtain ⟨cls, -, hprefix⟩ := h
    have hcolon := (find?_eq_none_iff (by decide)).mp hcolon
    exact hcolon ((List.suffix_append cls _).isInfix.trans hprefix.isInfix)
  | some colon =>
    obtain ⟨hs, hlen⟩ := find?_occurs hcolon
    simp only
    split_ifs with hcls
    · obtain ⟨hpackage, hkind⟩ := Bool.and_eq_true_iff.mp hcls
      refine iff_of_false ?_ ?_
      · intro hsame
        have hle := (List.dropWhile_sublist isWhitespace (l := s.drop (colon + 2))).length_le
        have hall := congrArg List.length hs
        rw [← trimStart, hsame] at hle
        simp only [List.length_append, hlen] at hall
        have htwo : ": ".toList.length = 2 := rfl
        rw [htwo] at hall
        omega
      · rw [not_not]
        refine ⟨s.take colon, ⟨not_infix_take (by decide) hcolon, hpackage, hkind⟩, s.drop (colon + 2), hs.symm⟩
    · refine iff_of_true rfl ?_
      intro h
      obtain ⟨cls, hclass, rest, rfl⟩ := h
      rw [find?_javaClass hclass.single] at hcolon
      obtain rfl := Option.some.inj hcolon
      rw [List.append_assoc, List.take_left] at hcls
      exact hcls (Bool.and_eq_true_iff.mpr ⟨hclass.package, hclass.kind⟩)

/-- The loop ends where nothing is left to strip. -/
theorem strip_strips (s : Text) :
    stripJavaExceptionPrefix (stripJavaExceptionPrefixes s) = stripJavaExceptionPrefixes s := by
  refine strips_induction (motive := fun _ t => stripJavaExceptionPrefix t = t) ?_ ?_ s
  · intro s h
    exact h
  · intro s t h
    exact h

theorem class_sanitise_iff (cls msg : Text) :
    cls ++ ": ".toList <+: sanitiseForClient msg ↔ Shown (maskUrlHosts (stripped msg)) (cls ++ ": ".toList) := by
  have hsplit : cls ++ ": ".toList = (cls ++ [':']) ++ [' '] := by
    rw [List.append_assoc]
    rfl
  rw [hsplit]
  exact prefix_sanitise_iff (by decide) msg

theorem class_kept_iff (msg : Text) :
    stripJavaExceptionPrefix (sanitiseForClient msg) = sanitiseForClient msg ↔
      ¬ ∃ cls, JavaClass cls ∧ Shown (maskUrlHosts (stripped msg)) (cls ++ ": ".toList) := by
  rw [strip_fixed_iff]
  simp only [class_sanitise_iff]

/-! ### Where a name is hidden from the loop -/

def BeginsWithClass (s : Text) : Prop := ∃ cls, JavaClass cls ∧ cls ++ ": ".toList <+: s

/-- With its hosts masked the text begins with a class name that reaches the client. -/
def ShowsClass (s : Text) : Prop := ∃ cls, JavaClass cls ∧ Shown (maskUrlHosts s) (cls ++ ": ".toList)

/-- Class names one after the other, each with its colon and white space. -/
inductive Wrappers : Text → Prop
  | nil : Wrappers []
  | cons {cls space rest : Text} : JavaClass cls → Blank space → Wrappers rest →
      Wrappers (cls ++ ": ".toList ++ space ++ rest)

/-- A class name the loop does not see, and that comes to light when hosts are masked and white space is trimmed. -/
inductive Hidden (message : Text) : Prop
  | indented (space text : Text) : message = space ++ text → space ≠ [] → Blank space → ShowsClass text → Hidden message
  | masked (wrappers text : Text) : message = wrappers ++ text → Wrappers wrappers → trimStart text = text →
      ¬ BeginsWithClass text → ShowsClass text → Hidden message

theorem trimStart_strip {s : Text} (h : trimStart s = s) :
    trimStart (stripJavaExceptionPrefix s) = stripJavaExceptionPrefix s := by
  unfold stripJavaExceptionPrefix
  split
  · exact h
  · simp only
    split_ifs
    · exact List.dropWhile_idempotent _ _
    · exact h

/-- The loop leaves no white space in front that was not there. -/
theorem trimStart_strips {s : Text} (h : trimStart s = s) :
    trimStart (stripJavaExceptionPrefixes s) = stripJavaExceptionPrefixes s := by
  refine strips_induction (motive := fun s t => trimStart s = s → trimStart t = t) ?_ ?_ s h
  · intro s _ hs
    exact hs
  · intro s t ih hs
    exact ih (trimStart_strip hs)

theorem beforeStackTrace_begins (msg : Text) : beforeStackTrace msg <+: msg := by
  unfold beforeStackTrace
  split
  · exact List.take_prefix _ msg
  · exact List.prefix_refl msg

/-- What a round takes off a text that begins with a class name. -/
theorem strip_class {cls : Text} (h : JavaClass cls) (rest : Text) :
    stripJavaExceptionPrefix (cls ++ ": ".toList ++ rest) = trimStart rest := by
  have hcolon := find?_javaClass h.single rest
  have hcls : (cls ++ ": ".toList ++ rest).take cls.length = cls := by rw [List.append_assoc, List.take_left]
  have hrest : (cls ++ ": ".toList ++ rest).drop (cls.length + 2) = rest := List.drop_left' (by simp)
  simp only [stripJavaExceptionPrefix, hcolon, hcls, hrest, h.package, h.kind, Bool.and_self, if_true]

theorem strips_fixed {s : Text} (h : ¬ BeginsWithClass s) : stripJavaExceptionPrefixes s = s := by
  rw [stripJavaExceptionPrefixes, (strip_fixed_iff s).mpr h, dif_neg (Nat.lt_irrefl _)]

theorem strips_class {cls : Text} (h : JavaClass cls) (rest : Text) :
    stripJavaExceptionPrefixes (cls ++ ": ".toList ++ rest) = stripJavaExceptionPrefixes (trimStart rest) := by
  rw [stripJavaExceptionPrefixes, strip_class h, dif_pos]
  have hle := (List.dropWhile_sublist isWhitespace (l := rest)).length_le
  have htwo : ": ".toList.length = 2 := rfl
  rw [← trimStart] at hle
  rw [List.length_append, List.length_append, htwo]
  omega

theorem javaClass_head {cls : Text} (h : JavaClass cls) (rest : Text) : trimStart (cls ++ rest) = cls ++ rest := by
  obtain ⟨package, hmem, hprefix⟩ := List.any_eq_true.mp h.package
  obtain ⟨t, rfl⟩ := List.isPrefixOf_iff_prefix.mp hprefix
  rw [List.append_assoc]
  simp only [javaPackages, List.mem_cons, List.not_mem_nil, or_false] at hmem
  rcases hmem with rfl | rfl | rfl | rfl <;> rfl

theorem trimStart_wrappers {wrappers text : Text} (h : Wrappers wrappers) (htext : trimStart text = text) :
    trimStart (wrappers ++ text) = wrappers ++ text := by
  cases h with
  | nil => exact htext
  | cons hclass hspace hrest =>
    simp only [List.append_assoc]
    exact javaClass_head hclass _

/-- The loop takes off the class names in front, and nothing else. -/
theorem strips_wrappers {wrappers text : Text} (h : Wrappers wrappers) (htext : trimStart text = text)
    (hclass : ¬ BeginsWithClass text) : stripJavaExceptionPrefixes (wrappers ++ text) = text := by
  induction h with
  | nil => exact strips_fixed hclass
  | @cons cls space rest hcls hspace hrest ih =>
    have hsplit : cls ++ ": ".toList ++ space ++ rest ++ text = cls ++ ": ".toList ++ (space ++ (rest ++ text)) := by
      simp only [List.append_assoc]
    rw [hsplit, strips_class hcls, trimStart_blank hspace, trimStart_wrappers hrest htext, ih]

theorem exists_wrappers {s : Text} (h : trimStart s = s) :
    ∃ wrappers, Wrappers wrappers ∧ s = wrappers ++ stripJavaExceptionPrefixes s := by
  refine strips_induction (motive := fun s t => trimStart s = s → ∃ wrappers, Wrappers wrappers ∧ s = wrappers ++ t)
    ?_ ?_ s h
  · intro s _ _
    exact ⟨[], .nil, rfl⟩
  · intro s t ih hs
    obtain ⟨wrappers, hwrappers, heq⟩ := ih (trimStart_strip hs)
    by_cases hclass : BeginsWithClass s
    · obtain ⟨cls, hcls, rest, rfl⟩ := hclass
      rw [strip_class hcls] at heq
      have hblank : Blank (rest.takeWhile isWhitespace) := fun c hc => List.mem_takeWhile_imp hc
      refine ⟨_, .cons hcls hblank hwrappers, ?_⟩
      rw [List.append_assoc _ wrappers, ← heq, List.append_assoc _ (rest.takeWhile isWhitespace), trimStart,
        List.takeWhile_append_dropWhile]
    · rw [(strip_fixed_iff s).mpr hclass] at heq
      exact ⟨wrappers, hwrappers, heq⟩

theorem strips_indented {space : Text} (hne : space ≠ []) (hspace : Blank space) (text : Text) :
    stripJavaExceptionPrefixes (space ++ text) = space ++ text := by
  refine strips_fixed ?_
  intro h
  obtain ⟨cls, hcls, rest, hrest⟩ := h
  have hsame : trimStart (space ++ text) = space ++ text := by
    rw [← hrest, List.append_assoc]
    exact javaClass_head hcls _
  rw [trimStart_blank hspace] at hsame
  have hle := (List.dropWhile_sublist isWhitespace (l := text)).length_le
  have hpos := List.length_pos_iff.mpr hne
  rw [← trimStart, hsame, List.length_append] at hle
  omega

theorem shown_blank {space : Text} (h : Blank space) (u w : Text) : Shown (space ++ u) w ↔ Shown u w := by
  rw [Shown, Shown, trim, trim, trimStart_blank h]

theorem showsClass_blank {space : Text} (h : Blank space) (text : Text) : ShowsClass (space ++ text) ↔ ShowsClass text := by
  simp only [ShowsClass, maskUrlHosts_blank h, shown_blank h]

theorem class_stripped_iff (msg : Text) :
    ErrorSlices.stripJavaExceptionPrefixes ((beforeStackTrace msg).length + 1) (beforeStackTrace msg) =
      some (stripped msg) ∧
    (stripJavaExceptionPrefix (sanitiseForClient msg) = sanitiseForClient msg ↔ ¬ Hidden (beforeStackTrace msg)) := by
  refine ⟨stripJavaExceptionPrefixes_eq _ (Nat.lt_succ_self _), ?_⟩
  rw [class_kept_iff, not_iff_not]
  show ShowsClass (stripJavaExceptionPrefixes (beforeStackTrace msg)) ↔ Hidden (beforeStackTrace msg)
  generalize beforeStackTrace msg = message
  constructor
  · intro h
    by_cases htrim : trimStart message = message
    · obtain ⟨wrappers, hwrappers, hsplit⟩ := exists_wrappers htrim
      exact .masked wrappers _ hsplit hwrappers (trimStart_strips htrim) ((strip_fixed_iff _).mp (strip_strips message)) h
    · have hsplit : message = message.takeWhile isWhitespace ++ trimStart message :=
        List.takeWhile_append_dropWhile.symm
      have hblank : Blank (message.takeWhile isWhitespace) := fun c hc => List.mem_takeWhile_imp hc
      have hne : message.takeWhile isWhitespace ≠ [] := by
        intro hnil
        rw [hnil, List.nil_append] at hsplit
        exact htrim hsplit.symm
      rw [hsplit, strips_indented hne hblank, showsClass_blank hblank] at h
      exact .indented _ _ hsplit hne hblank h
  · intro h
    cases h with
    | indented space text hsplit hne hblank hshows =>
      rw [hsplit, strips_indented hne hblank, showsClass_blank hblank]
      exact hshows
    | masked wrappers text hsplit hwrappers htrim hclass hshows =>
      rw [hsplit, strips_wrappers hwrappers htrim hclass]
      exact hshows

/-! ### What masking uncovers -/

/-- No URL of the text has a host that ends in a colon with a space behind it. -/
def PlainHosts (s : Text) : Prop :=
  ∀ scheme ∈ [https, http], ∀ a host b, s = a ++ scheme ++ host ++ ": ".toList ++ b → ∃ c ∈ host, endsHost c = true

theorem PlainHosts.of_infix {s t : Text} (h : PlainHosts s) (ht : t <:+: s) : PlainHosts t := by
  obtain ⟨p, q, rfl⟩ := ht
  rintro scheme hscheme a host b rfl
  exact h scheme hscheme (p ++ a) host (b ++ q) (by simp only [List.append_assoc])

/-- A text without the separator that does not end in a colon stands before the first separator. -/
theorem append_of_separator {x w y : Text} (h : w ++ ": ".toList <+: x ++ y) (hx : ¬ ": ".toList <:+: x)
    (hlast : x.getLast? ≠ some ':') : ∃ w', w = x ++ w' ∧ w' ++ ": ".toList <+: y := by
  have hle : x.length ≤ w.length := by
    by_contra hlt
    rcases Nat.lt_or_ge (w.length + 1) x.length with hlong | hshort
    · refine hx ?_
      have hwx : w ++ ": ".toList <+: x :=
        List.prefix_of_prefix_length_le h (List.prefix_append x y) (by simp; omega)
      exact (List.suffix_append w _).isInfix.trans hwx.isInfix
    · have hxw : x <+: w ++ [':'] := by
        refine List.prefix_of_prefix_length_le (List.prefix_append x y) (List.IsPrefix.trans ?_ h) (by simp; omega)
        exact ⟨" ".toList, by simp⟩
      have hsame : x = w ++ [':'] := hxw.eq_of_length (by simp; omega)
      exact hlast (by rw [hsame, List.getLast?_concat])
  obtain ⟨w', rfl⟩ := List.prefix_of_prefix_length_le (List.prefix_append x y)
    ((List.prefix_append w _).trans h) hle
  refine ⟨w', rfl, ?_⟩
  rwa [List.append_assoc, List.prefix_append_right_inj] at h

/-- The separator that follows `w` is the first, so a text that has one reaches as far. -/
theorem begins_of_separator {x w y : Text} (h : w ++ ": ".toList <+: x ++ y) (hw : ¬ ": ".toList <:+: w)
    (hx : ": ".toList <:+: x) : w ++ ": ".toList <+: x := by
  rcases List.prefix_or_prefix_of_prefix h (List.prefix_append x y) with hwx | hxw
  · exact hwx
  · have hsplit : w ++ ": ".toList = w ++ [':'] ++ [' '] := by simp
    rw [hsplit, List.prefix_concat_iff] at hxw
    rcases hxw with hsame | hshort
    · rw [hsplit, hsame]
    · exfalso
      rcases List.infix_concat_iff.mp (hx.trans hshort.isInfix) with ⟨p, hp⟩ | hin
      · have hlast : p ++ [':'] ++ [' '] = w ++ [':'] := by simpa using hp
        exact absurd (List.append_inj_right' hlast rfl) (by decide)
      · exact hw hin

theorem suffix_of_append_cons {t a b : Text} {c : Char} (hc : c ∉ t) (h : t <:+ a ++ c :: b) : t <:+ b := by
  rcases List.suffix_or_suffix_of_suffix h (List.suffix_append a (c :: b)) with ht | ht
  · rcases List.suffix_cons_iff.mp ht with rfl | ht
    · exact absurd List.mem_cons_self hc
    · exact ht
  · exact absurd (ht.subset List.mem_cons_self) hc

/-- A URL of which the host has been kept has no separator in it. -/
theorem no_separator_url {scheme host v : Text} (hscheme : scheme ∈ [https, http]) (hhost : ∀ c ∈ host, endsHost c = false)
    (hcolon : ∀ host' v', host = host' ++ [':'] → v ≠ ' ' :: v') (hv : ¬ ": ".toList <:+: v) :
    ¬ ": ".toList <:+: scheme ++ host ++ v := by
  have hspace : ' ' ∉ scheme ++ host := by
    intro hmem
    rcases List.mem_append.mp hmem with hmem | hmem
    · have hno : ∀ scheme ∈ [https, http], ' ' ∉ scheme := by decide
      exact hno scheme hscheme hmem
    · exact absurd (hhost ' ' hmem) (by decide)
  have hslash : scheme.getLast? = some '/' := by
    rcases List.mem_pair.mp hscheme with rfl | rfl <;> rfl
  intro hin
  rcases List.infix_append_iff.mp hin with hfront | hback | ⟨w₁, w₂, hsplit, h₁, h₂⟩
  · exact hspace (hfront.subset (by decide))
  · exact hv hback
  · cases w₁ with
    | nil =>
      rw [List.nil_append] at hsplit
      rw [← hsplit] at h₂
      exact hv h₂.isInfix
    | cons c w₁ =>
      obtain ⟨rfl, htail⟩ := List.cons.inj (show ':' :: [' '] = c :: (w₁ ++ w₂) from hsplit)
      cases w₁ with
      | cons d w₁ =>
        have hd : ' ' = d := (List.cons.inj htail).1
        exact hspace (h₁.subset (by rw [hd]; simp))
      | nil =>
        -- The colon is the last character of the host.
        rw [List.nil_append] at htail
        rw [← htail] at h₂
        obtain ⟨v', rfl⟩ := h₂
        obtain ⟨p, hp⟩ := h₁
        rcases List.eq_nil_or_concat host with rfl | ⟨host', d, rfl⟩
        · rw [List.append_nil] at hp
          rw [← hp, List.getLast?_concat] at hslash
          exact absurd hslash (by decide)
        · rw [List.concat_eq_append, ← List.append_assoc] at hp
          have hd : [':'] = [d] := List.append_inj_right' hp rfl
          exact hcolon host' v' (by rw [List.concat_eq_append, hd]) rfl

/-- A separator does not go over the first letter of a URL. -/
theorem no_separator_append {a b : Text} (ha : ¬ ": ".toList <:+: a) (hb : ¬ ": ".toList <:+: b) :
    ¬ ": ".toList <:+: a ++ 'h' :: b := by
  intro hin
  rcases infix_of_append_cons (by decide) hin with hin | hin
  · exact ha hin
  · exact hb hin

theorem no_separator_before {before scheme host v q : Text} (hscheme : scheme ∈ [https, http])
    (hhost : ∀ c ∈ host, endsHost c = false) (hplain : PlainHosts (before ++ scheme ++ host ++ (v ++ ": ".toList ++ q)))
    (hbefore : ¬ ": ".toList <:+: before) (hv : ¬ ": ".toList <:+: v) :
    ¬ ": ".toList <:+: before ++ (scheme ++ host ++ v) := by
  have hurl : ¬ ": ".toList <:+: scheme ++ host ++ v := by
    refine no_separator_url hscheme hhost ?_ hv
    rintro host' v' rfl rfl
    obtain ⟨c, hc, hends⟩ := hplain scheme hscheme before host' (v' ++ ": ".toList ++ q) (by simp)
    rw [hhost c (List.mem_append_left _ hc)] at hends
    cases hends
  obtain ⟨u, hu⟩ : ∃ u, scheme ++ host ++ v = 'h' :: u := by
    rcases List.mem_pair.mp hscheme with rfl | rfl <;> exact ⟨_, rfl⟩
  rw [hu] at hurl ⊢
  exact no_separator_append hbefore fun hin => hurl (hin.trans (List.suffix_cons 'h' u).isInfix)

/-- What stands before the first separator of the masked text stands, unmasked, before the first separator of the text. -/
theorem unmasked {s out : Text} (h : Masks s out) (hplain : PlainHosts s) {w : Text} (hw : w ++ ": ".toList <+: out)
    (hsingle : ¬ ": ".toList <:+: w) :
    ∃ v, v ++ ": ".toList <+: s ∧ (¬ ": ".toList <:+: v) ∧ (∀ p, 'h' ∉ p → p <+: w → p <+: v) ∧
      ∀ t, '>' ∉ t → t <:+ w → t <:+ v := by
  induction h generalizing w with
  | kept s => exact ⟨w, hw, hsingle, fun _ _ hp => hp, fun _ _ ht => ht⟩
  | @url scheme host rest out before hscheme hhost hrest _ ih =>
    obtain ⟨t, ht, hclean⟩ : ∃ t, scheme ++ mask = 'h' :: (t ++ ['>']) ∧ ¬ ": ".toList <:+: t ++ ['>'] := by
      rcases List.mem_pair.mp hscheme with rfl | rfl
      · exact ⟨"ttps://<trino".toList, rfl, by decide⟩
      · exact ⟨"ttp://<trino".toList, rfl, by decide⟩
    by_cases hbefore : ": ".toList <:+: before
    · have hw : w ++ ": ".toList <+: before := by
        refine begins_of_separator (y := scheme ++ mask ++ out) ?_ hsingle hbefore
        simpa only [List.append_assoc] using hw
      refine ⟨w, hw.trans ?_, hsingle, fun _ _ hp => hp, fun _ _ ht => ht⟩
      simp only [List.append_assoc]
      exact List.prefix_append _ _
    · have hx : ¬ ": ".toList <:+: before ++ (scheme ++ mask) := by
        rw [ht]
        exact no_separator_append hbefore hclean
      have hlast : (before ++ (scheme ++ mask)).getLast? = some '>' := by
        rw [ht, ← List.cons_append, ← List.append_assoc, List.getLast?_concat]
      obtain ⟨w, rfl, hrestw⟩ := append_of_separator (x := before ++ (scheme ++ mask)) (w := w) (y := out)
        (by simpa only [List.append_assoc] using hw) hx (by rw [hlast]; decide)
      have hout : ¬ ": ".toList <:+: w := fun hin => hsingle (hin.trans (List.suffix_append _ w).isInfix)
      have hinside : rest <:+: before ++ scheme ++ host ++ rest := (List.suffix_append _ rest).isInfix
      obtain ⟨v, hv, hnone, -, htail⟩ := ih (hplain.of_infix hinside) hrestw hout
      refine ⟨before ++ (scheme ++ host ++ v), ?_, ?_, ?_, ?_⟩
      · simpa only [List.append_assoc, List.prefix_append_right_inj] using hv
      · obtain ⟨q, rfl⟩ := hv
        exact no_separator_before hscheme hhost hplain hbefore hnone
      · intro p hp hpw
        rw [ht, List.append_assoc, List.cons_append] at hpw
        exact (UrlMasking.prefix_of_append_cons hp hpw).trans (List.prefix_append _ _)
      · intro tail hend hsuffix
        have hw : before ++ (scheme ++ mask) ++ w = before ++ ('h' :: t) ++ '>' :: w := by
          rw [ht]
          simp
        rw [hw] at hsuffix
        have hv := htail tail hend (suffix_of_append_cons hend hsuffix)
        exact hv.trans ((List.suffix_append _ v).trans (List.suffix_append _ _))

theorem class_of_masks {s out cls : Text} (h : Masks s out) (hplain : PlainHosts s) (hclass : JavaClass cls)
    (hout : cls ++ ": ".toList <+: out) : BeginsWithClass s := by
  obtain ⟨v, hv, hsingle, hhead, htail⟩ := unmasked h hplain hout hclass.single
  refine ⟨v, ⟨hsingle, ?_, ?_⟩, hv⟩
  · obtain ⟨package, hmem, hprefix⟩ := List.any_eq_true.mp hclass.package
    have hno : ∀ package ∈ javaPackages, 'h' ∉ package := by decide
    have hbegins := hhead package (hno package hmem) (List.isPrefixOf_iff_prefix.mp hprefix)
    exact List.any_eq_true.mpr ⟨package, hmem, List.isPrefixOf_iff_prefix.mpr hbegins⟩
  · have hkind := hclass.kind
    simp only [Bool.or_eq_true, List.isSuffixOf_iff_suffix] at hkind ⊢
    exact hkind.imp (htail _ (by decide)) (htail _ (by decide))

/-- Masking puts no white space in front. -/
theorem trimStart_masks {s out : Text} (h : Masks s out) (hs : trimStart s = s) : trimStart out = out := by
  cases h with
  | kept => exact hs
  | url before hscheme =>
    cases before with
    | nil => rcases List.mem_pair.mp hscheme with rfl | rfl <;> rfl
    | cons c before =>
      have hc : trimStart [c] = [c] := by
        refine trimStart_of_begins ?_ hs
        simp only [List.append_assoc, List.cons_append]
        exact List.prefix_append [c] _
      have hsolid : isWhitespace c = false := by
        by_contra hspace
        simp [trimStart, hspace] at hc
      simp [trimStart, hsolid]

/-- White space in front and hosts that end in a colon are the only things that hide a class name. -/
theorem class_stripped_of_plain {msg : Text} (hspace : trimStart msg = msg) (hplain : PlainHosts msg) :
    stripJavaExceptionPrefix (sanitiseForClient msg) = sanitiseForClient msg := by
  have hinfix : stripped msg <:+: msg := (strips_suffix _).isInfix.trans (beforeStackTrace_begins msg).isInfix
  have htrim : trimStart (stripped msg) = stripped msg :=
    trimStart_strips (trimStart_of_begins (beforeStackTrace_begins msg) hspace)
  have hmasks := masks_maskUrlHosts (stripped msg)
  rw [class_kept_iff]
  intro h
  obtain ⟨cls, hclass, rest, hrest, -⟩ := h
  rw [trimStart_masks hmasks htrim] at hrest
  have hbegins := class_of_masks hmasks (hplain.of_infix hinfix) hclass ⟨rest, hrest.symm⟩
  exact (strip_fixed_iff _).mp (strip_strips _) hbegins

def indented : Text := " io.trino.spi.TrinoException: Table foo does not exist".toList

theorem class_behind_space_kept :
    sanitiseForClient indented = "io.trino.spi.TrinoException: Table foo does not exist".toList ∧
    stripJavaExceptionPrefix (sanitiseForClient indented) = "Table foo does not exist".toList := by
  have hbefore : beforeStackTrace indented = indented := by decide +kernel
  have hstrip : stripped indented = indented := by
    rw [stripped, hbefore, stripJavaExceptionPrefixes]
    decide +kernel
  have hmask : maskUrlHosts indented = indented := maskUrlHosts_none (by decide +kernel) (by decide +kernel)
  have hout : sanitiseForClient indented = "io.trino.spi.TrinoException: Table foo does not exist".toList := by
    rw [sanitiseForClient_clientText, clientText, ← stripped, hstrip, hmask]
    decide +kernel
  refine ⟨hout, ?_⟩
  rw [hout]
  decide +kernel

/-! ## SQLSTATE -/

/-- `line a:b: ` in front of a message. -/
def positioned (line column : ℕ) (msg : Text) : Text :=
  "line ".toList ++ natText line ++ ':' :: natText column ++ ": ".toList ++ msg

/-- What the code takes for a syntax error. -/
def SyntaxError (msg : Text) : Prop :=
  contains (msg.map Char.toUpper) "SYNTAX_ERROR".toList = true ∨ isSyntaxPosition (msg.map Char.toUpper) = true

/-- Undefined table, undefined column, type mismatch, insufficient privilege and division by zero. -/
def otherStates : List Text := ["42P01".toList, "42703".toList, "42846".toList, "42501".toList, "22012".toList]

theorem map_toUpper_natText (n : ℕ) : (natText n).map Char.toUpper = natText n := by
  have hdigit : ∀ c : Char, c.isDigit = true → c.toUpper = c := by
    intro c hc
    have hascii : isAscii c = true := by
      simp only [Char.isDigit, Bool.and_eq_true, decide_eq_true_eq] at hc
      have hle : c.toNat ≤ 57 := hc.2
      simp only [isAscii, decide_eq_true_eq]
      omega
    exact ascii_cases (P := fun c => c.isDigit = true → c.toUpper = c) (by decide) c hascii hc
  conv_rhs => rw [← List.map_id (natText n)]
  apply List.map_congr_left
  intro c hc
  exact hdigit c (natText_isDigit hc)

theorem isSyntaxPosition_line {x : Text} (hx : ':' ∉ x) (y z : Text) :
    isSyntaxPosition ("LINE ".toList ++ (x ++ ':' :: (y ++ ':' :: z))) = true := by
  have hcolon : ':' ∉ "LINE ".toList ++ x := by
    intro h
    rcases List.mem_append.mp h with h | h
    · exact absurd h (by decide)
    · exact hx h
  have hprefix : "LINE ".toList.isPrefixOf ("LINE ".toList ++ (x ++ ':' :: (y ++ ':' :: z))) = true :=
    List.isPrefixOf_iff_prefix.mpr (List.prefix_append _ _)
  rw [isSyntaxPosition, hprefix, ← List.append_assoc, idxOf?_append hcolon, Bool.true_and]
  show List.contains (List.drop (_ + 1) _) ':' = true
  rw [← List.drop_drop, List.drop_left]
  simp

theorem positioned_syntaxError (line column : ℕ) (msg : Text) : SyntaxError (positioned line column msg) := by
  have hline : ':' ∉ natText line := fun h => absurd (natText_isDigit h) (by decide)
  have hposition := isSyntaxPosition_line hline (natText column) (' ' :: msg.map Char.toUpper)
  have hupper : (positioned line column msg).map Char.toUpper =
      "LINE ".toList ++ (natText line ++ ':' :: (natText column ++ ':' :: ' ' :: msg.map Char.toUpper)) := by
    have hfirst := map_toUpper_natText line
    have hsecond := map_toUpper_natText column
    unfold positioned
    generalize natText line = x at *
    generalize natText column = y at *
    simp only [List.map_append, List.map_cons, hfirst, hsecond, List.append_assoc, List.cons_append]
    rfl
  rw [← hupper] at hposition
  exact .inr hposition

theorem sqlstate_syntax_iff (msg : Text) : (trinoErrorToPg msg).code = "42601".toList ↔ SyntaxError msg := by
  rw [SyntaxError, ← Bool.or_eq_true]
  show (sqlstate (msg.map Char.toUpper)).toList = _ ↔ _
  unfold sqlstate
  by_cases h : (contains (msg.map Char.toUpper) "SYNTAX_ERROR".toList || isSyntaxPosition (msg.map Char.toUpper)) = true
  · rw [if_pos h]
    exact iff_of_true rfl h
  · rw [if_neg h]
    refine iff_of_false ?_ h
    split_ifs <;> decide

theorem position_kept_iff (line column : ℕ) (msg : Text) :
    ((trinoErrorToPg (positioned line column msg)).code = (trinoErrorToPg msg).code ↔ SyntaxError msg) ∧
    ¬ ((trinoErrorToPg msg).code ∈ otherStates ∧ SyntaxError msg) := by
  have hposition := (sqlstate_syntax_iff _).mpr (positioned_syntaxError line column msg)
  constructor
  · rw [hposition, eq_comm]
    exact sqlstate_syntax_iff msg
  · intro h
    obtain ⟨hother, hsyntax⟩ := h
    rw [(sqlstate_syntax_iff msg).mpr hsyntax] at hother
    exact absurd hother (by decide)

def missingTable : Text := "Table 'memory.default.missing' does not exist".toList

theorem missing_table_position :
    (trinoErrorToPg missingTable).code = "42P01".toList ∧
    (trinoErrorToPg (positioned 1 15 missingTable)).code = "42601".toList :=
  ⟨by decide +kernel, (sqlstate_syntax_iff _).mpr (positioned_syntaxError 1 15 missingTable)⟩

end TrinoGateway.ClientMessage
