/-
  TrinoGateway.ErrorSlices — `sanitise_for_client` (`src/error_mapping.rs`) with the byte
  offsets it works on. Each function here is the one of `ErrorMapping` with its slices:
  offsets come from `find`, from lengths of what was found and from a walk down to a
  boundary, a slice inside a character is a panic (`none`), and so is a loop that has not
  ended after the rounds it is given.

  Proved: `sanitise_slices`. No slice panics and both loops end, so the two models agree
  on every message (`sanitiseForClient_eq`); what is returned has at most 512 bytes, and is
  the text the stages before leave (`clientText`) or the longest prefix of it that leaves
  room for the ellipsis.
-/

import TrinoGateway.Lib.Slice
import TrinoGateway.UrlMasking

namespace TrinoGateway.ErrorSlices

open TrinoGateway.Lib
open TrinoGateway.ErrorMapping (maxClientErrorLen javaPackages endsHost isCharBoundary charBoundaryBelow truncate
  afterHost findScheme_some afterHost_length)
open TrinoGateway.UrlMasking (maskUrlHosts_found maskUrlHosts_not_found)

/-! ## The stages -/

def tabFrame : Text := "\n\tat ".toList

def spaceFrame : Text := "\n  at ".toList

def cutStackTrace (msg : Text) : Option Text :=
  match (byteFind tabFrame msg).or (byteFind spaceFrame msg) with
  | some idx => sliceTo idx msg
  | none => some msg

def stripJavaExceptionPrefix (s : Text) : Option Text :=
  match byteFind ": ".toList s with
  | none => some s
  | some colon =>
    (sliceTo colon s).bind fun cls =>
      let looksLikePackage := javaPackages.any (·.isPrefixOf cls)
      let looksLikeException := "Exception".toList.isSuffixOf cls || "Error".toList.isSuffixOf cls
      if looksLikePackage && looksLikeException then (sliceFrom (colon + 2) s).map trimStart else some s

/-- The loop, for at most so many rounds. All slices end where the message does, so two of
    them are the same slice if they are as long. -/
def stripJavaExceptionPrefixes : ℕ → Text → Option Text
  | 0, _ => none
  | rounds + 1, s =>
    (stripJavaExceptionPrefix s).bind fun next =>
      if byteLength next = byteLength s then some s else stripJavaExceptionPrefixes rounds next

def findScheme (rest : Text) : Option (Text × ℕ) :=
  ["https://".toList, "http://".toList].findSome? fun scheme => (byteFind scheme rest).map fun idx => (scheme, idx)

def maskUrlHosts : ℕ → Text → Option Text
  | 0, _ => none
  | rounds + 1, rest =>
    if rest.isEmpty then some []
    else
      match findScheme rest with
      | none => some rest
      | some (scheme, idx) =>
        (sliceTo idx rest).bind fun before =>
          (sliceFrom (idx + byteLength scheme) rest).bind fun after =>
            (sliceFrom ((byteFindChar endsHost after).getD (byteLength after)) after).bind fun rest =>
              (maskUrlHosts rounds rest).map fun out => before ++ scheme ++ "<trino>".toList ++ out

def truncateWithEllipsis (s : Text) (max : ℕ) : Option Text :=
  if byteLength s ≤ max then some s else (sliceTo (charBoundaryBelow s (max - 3)) s).map fun kept => kept ++ ['…']

def sanitiseForClient (msg : Text) : Option Text :=
  (cutStackTrace msg).bind fun truncated =>
    (stripJavaExceptionPrefixes (truncated.length + 1) truncated).bind fun stripped =>
      (maskUrlHosts (stripped.length + 1) stripped).bind fun urlsMasked =>
        truncateWithEllipsis (trim urlsMasked) maxClientErrorLen

/-! ## What the stages leave -/

/-- The message before its stack trace. -/
def beforeStackTrace (msg : Text) : Text :=
  match (find? tabFrame msg).or (find? spaceFrame msg) with
  | some idx => msg.take idx
  | none => msg

/-- The message without stack trace and class names, its hosts masked, trimmed. -/
def clientText (msg : Text) : Text :=
  trim (ErrorMapping.maskUrlHosts (ErrorMapping.stripJavaExceptionPrefixes (beforeStackTrace msg)))

theorem sanitiseForClient_clientText (msg : Text) :
    ErrorMapping.sanitiseForClient msg = ErrorMapping.truncateWithEllipsis (clientText msg) maxClientErrorLen := rfl

theorem cutStackTrace_eq (msg : Text) : cutStackTrace msg = some (beforeStackTrace msg) := by
  unfold cutStackTrace beforeStackTrace byteFind
  cases htab : find? tabFrame msg with
  | some i => exact sliceTo_take i msg
  | none =>
    cases hspace : find? spaceFrame msg with
    | some i => exact sliceTo_take i msg
    | none => rfl

theorem stripJavaExceptionPrefix_eq (s : Text) :
    stripJavaExceptionPrefix s = some (ErrorMapping.stripJavaExceptionPrefix s) := by
  unfold stripJavaExceptionPrefix ErrorMapping.stripJavaExceptionPrefix
  cases hcolon : find? ": ".toList s with
  | none => rw [byteFind_eq_none.mpr hcolon]
  | some colon =>
    -- The colon and the space are one byte each.
    have hafter : sliceFrom (byteLength (s.take colon) + 2) s = some (s.drop (colon + 2)) := sliceFrom_match hcolon
    rw [byteFind_of_find? hcolon]
    simp only [sliceTo_take, Option.bind_some, hafter, Option.map_some]
    split_ifs <;> rfl

/-- A slice that moved is shorter. -/
theorem stripJavaExceptionPrefix_length (s : Text) :
    ErrorMapping.stripJavaExceptionPrefix s = s ∨
      ∃ a, a ≠ [] ∧ s = a ++ ErrorMapping.stripJavaExceptionPrefix s := by
  unfold ErrorMapping.stripJavaExceptionPrefix
  cases hcolon : find? ": ".toList s with
  | none => exact .inl rfl
  | some colon =>
    simp only
    split_ifs
    · refine .inr ⟨s.take colon ++ ": ".toList ++ (s.drop (colon + 2)).takeWhile isWhitespace, by simp, ?_⟩
      have hs := (find?_occurs hcolon).1
      rw [List.append_assoc, trimStart, List.takeWhile_append_dropWhile]
      exact hs
    · exact .inl rfl

theorem stripJavaExceptionPrefixes_eq (s : Text) {rounds : ℕ} (h : s.length < rounds) :
    stripJavaExceptionPrefixes rounds s = some (ErrorMapping.stripJavaExceptionPrefixes s) := by
  induction rounds generalizing s with
  | zero => omega
  | succ rounds ih =>
    rw [stripJavaExceptionPrefixes, stripJavaExceptionPrefix_eq, Option.bind_some, ErrorMapping.stripJavaExceptionPrefixes]
    rcases stripJavaExceptionPrefix_length s with hsame | ⟨a, hne, hs⟩
    · rw [hsame, if_pos rfl]
      simp
    · have hpos := List.length_pos_iff.mpr hne
      have hlen := congrArg List.length hs
      have hbytes := congrArg byteLength hs
      have hmoved : byteLength a ≠ 0 := fun h => hne (byteLength_eq_zero h)
      rw [List.length_append] at hlen
      rw [byteLength_append] at hbytes
      rw [if_neg (by omega), ih _ (by omega), dif_pos (by omega)]

theorem findScheme_eq (rest : Text) :
    findScheme rest = (ErrorMapping.findScheme rest).map fun p => (p.1, byteLength (rest.take p.2)) := by
  have hone : ∀ scheme : Text, ((byteFind scheme rest).map fun idx => (scheme, idx)) =
      ((find? scheme rest).map fun idx => (scheme, idx)).map fun p => (p.1, byteLength (rest.take p.2)) := by
    intro scheme
    rw [byteFind, Option.map_map, Option.map_map]
    rfl
  simp only [findScheme, ErrorMapping.findScheme, hone, List.map_findSome?]
  rfl

theorem maskUrlHosts_eq (rest : Text) {rounds : ℕ} (h : rest.length < rounds) :
    maskUrlHosts rounds rest = some (ErrorMapping.maskUrlHosts rest) := by
  induction rounds generalizing rest with
  | zero => omega
  | succ rounds ih =>
    rw [maskUrlHosts, findScheme_eq]
    cases hscheme : ErrorMapping.findScheme rest with
    | none =>
      rw [maskUrlHosts_not_found hscheme]
      cases rest <;> rfl
    | some found =>
      obtain ⟨hne, hfind⟩ := findScheme_some hscheme
      have hshort := afterHost_length hne hfind
      have hrest : ¬ rest.isEmpty = true := by
        intro hempty
        rw [List.isEmpty_iff.mp hempty] at hshort
        exact Nat.not_lt_zero _ hshort
      rw [if_neg hrest, maskUrlHosts_found hscheme]
      simp only [Option.map_some, sliceTo_take, Option.bind_some, sliceFrom_match hfind, sliceFrom_findChar]
      rw [← afterHost, ih _ (by omega), Option.map_some]
      rfl

/-! ## The cut -/

theorem isCharBoundary_iff (s : Text) (i : ℕ) : isCharBoundary s i = true ↔ ∃ a, a <+: s ∧ byteLength a = i := by
  rw [isCharBoundary, List.any_eq_true]
  constructor
  · intro h
    obtain ⟨k, -, hk⟩ := h
    exact ⟨s.take k, List.take_prefix k s, eq_of_beq hk⟩
  · intro h
    obtain ⟨a, ⟨b, rfl⟩, ha⟩ := h
    refine ⟨a.length, List.mem_range.mpr ?_, ?_⟩
    · rw [List.length_append]
      omega
    · rw [List.take_left, ha]
      exact beq_self_eq_true i

/-- The longest prefix of at most `n` bytes. -/
structure Longest (kept s : Text) (n : ℕ) : Prop where
  start : kept <+: s
  fits : byteLength kept ≤ n
  longest : ∀ b, b <+: s → byteLength b ≤ n → b <+: kept

/-- The walk down ends at the end of the longest prefix. -/
theorem charBoundaryBelow_longest (s : Text) (n : ℕ) :
    ∃ kept, Longest kept s n ∧ byteLength kept = charBoundaryBelow s n := by
  induction n with
  | zero =>
    refine ⟨[], ⟨List.nil_prefix, le_rfl, ?_⟩, rfl⟩
    intro b _ hlen
    rw [byteLength_eq_zero (by omega : byteLength b = 0)]
  | succ n ih =>
    rw [charBoundaryBelow]
    by_cases hbound : isCharBoundary s (n + 1) = true
    · obtain ⟨a, ha, hlen⟩ := (isCharBoundary_iff s (n + 1)).mp hbound
      refine ⟨a, ⟨ha, le_of_eq hlen, ?_⟩, by rw [if_pos hbound, hlen]⟩
      intro b hb hle
      exact prefix_of_byteLength_le hb ha (by omega)
    · obtain ⟨a, ha, hlen⟩ := ih
      refine ⟨a, ⟨ha.start, Nat.le_succ_of_le ha.fits, ?_⟩, by rw [if_neg hbound, hlen]⟩
      intro b hb hle
      -- No prefix has exactly `n + 1` bytes.
      have hne : byteLength b ≠ n + 1 := by
        intro he
        exact hbound ((isCharBoundary_iff s (n + 1)).mpr ⟨b, hb, he⟩)
      exact ha.longest b hb (by omega)

theorem truncate_byteLength (a b : Text) : truncate (byteLength a) (a ++ b) = a := by
  induction a with
  | nil =>
    cases b with
    | nil => rfl
    | cons c b =>
      have hpos := c.utf8Size_pos
      rw [List.nil_append, byteLength_nil, truncate, if_neg (by omega)]
  | cons c a ih =>
    have hrest : c.utf8Size + byteLength a - c.utf8Size = byteLength a := by omega
    rw [List.cons_append, byteLength_cons, truncate, if_pos (by omega), hrest, ih]

/-- A text that is too long is cut at the longest prefix that leaves room for the ellipsis. -/
theorem truncateWithEllipsis_cut {s : Text} {max : ℕ} (h : max < byteLength s) :
    ∃ kept, Longest kept s (max - 3) ∧ ErrorMapping.truncateWithEllipsis s max = kept ++ ['…'] ∧
      truncateWithEllipsis s max = some (kept ++ ['…']) := by
  obtain ⟨kept, hkept, hlen⟩ := charBoundaryBelow_longest s (max - 3)
  obtain ⟨rest, rfl⟩ := hkept.start
  refine ⟨kept, hkept, ?_, ?_⟩
  · rw [ErrorMapping.truncateWithEllipsis, if_neg (by omega), ← hlen, truncate_byteLength]
  · rw [truncateWithEllipsis, if_neg (by omega), ← hlen, sliceTo_append, Option.map_some]

theorem truncateWithEllipsis_eq (s : Text) (max : ℕ) :
    truncateWithEllipsis s max = some (ErrorMapping.truncateWithEllipsis s max) := by
  by_cases hfits : byteLength s ≤ max
  · rw [truncateWithEllipsis, ErrorMapping.truncateWithEllipsis, if_pos hfits, if_pos hfits]
  · obtain ⟨kept, -, hcut, hslice⟩ := truncateWithEllipsis_cut (Nat.lt_of_not_le hfits)
    rw [hcut, hslice]

/-! ## The whole function -/

theorem sanitiseForClient_eq (msg : Text) : sanitiseForClient msg = some (ErrorMapping.sanitiseForClient msg) := by
  rw [sanitiseForClient, cutStackTrace_eq, Option.bind_some, stripJavaExceptionPrefixes_eq _ (Nat.lt_succ_self _),
    Option.bind_some, maskUrlHosts_eq _ (Nat.lt_succ_self _), Option.bind_some, truncateWithEllipsis_eq,
    sanitiseForClient_clientText, clientText]

theorem sanitise_slices (msg : Text) :
    sanitiseForClient msg = some (ErrorMapping.sanitiseForClient msg) ∧
    byteLength (ErrorMapping.sanitiseForClient msg) ≤ 512 ∧
    if byteLength (clientText msg) ≤ 512 then ErrorMapping.sanitiseForClient msg = clientText msg
    else ∃ kept, Longest kept (clientText msg) 509 ∧ ErrorMapping.sanitiseForClient msg = kept ++ ['…'] := by
  refine ⟨sanitiseForClient_eq msg, ?_⟩
  rw [sanitiseForClient_clientText]
  by_cases hfits : byteLength (clientText msg) ≤ 512
  · have hsame : ErrorMapping.truncateWithEllipsis (clientText msg) maxClientErrorLen = clientText msg := if_pos hfits
    rw [hsame, if_pos hfits]
    exact ⟨hfits, rfl⟩
  · have hover : maxClientErrorLen < byteLength (clientText msg) := Nat.lt_of_not_le hfits
    obtain ⟨kept, hkept, hcut, -⟩ := truncateWithEllipsis_cut hover
    have hlong := hkept.fits
    have hmax : maxClientErrorLen - 3 = 509 := rfl
    have hellipsis : byteLength ['…'] = 3 := by decide
    rw [hcut, if_neg hfits, byteLength_append, hellipsis]
    exact ⟨by omega, kept, hkept, rfl⟩

end TrinoGateway.ErrorSlices
