/-
  TrinoGateway.Lib.Slice — byte offsets into a text, as Rust's `str` has them.

  `find` returns the byte where a match starts, and a slice at a byte that is not the
  boundary of a character is a panic (`none`). `sliceTo_append` and `sliceFrom_append`: at
  the end of `a`, the text `a ++ b` is cut into `a` and `b`. Every offset a program computes
  from matches and from lengths of what it matched is such an end; ASCII case does not move
  it (`byteLength_map_toUpper`).
-/

import TrinoGateway.Lib.Text

namespace TrinoGateway.Lib

/-! ## Lengths -/

@[simp] theorem byteLength_nil : byteLength [] = 0 := rfl

@[simp] theorem byteLength_cons (c : Char) (s : Text) : byteLength (c :: s) = c.utf8Size + byteLength s := by
  simp [byteLength]

@[simp] theorem byteLength_append (a b : Text) : byteLength (a ++ b) = byteLength a + byteLength b := by
  simp [byteLength]

theorem length_le_byteLength (s : Text) : s.length ≤ byteLength s := by
  induction s with
  | nil => simp
  | cons c s ih =>
    have hpos := c.utf8Size_pos
    simp only [List.length_cons, byteLength_cons]
    omega

theorem byteLength_eq_zero {s : Text} (h : byteLength s = 0) : s = [] := by
  have hlen := length_le_byteLength s
  exact List.length_eq_zero_iff.mp (by omega)

theorem byteLength_mono {a s : Text} (h : a <+: s) : byteLength a ≤ byteLength s := by
  obtain ⟨b, rfl⟩ := h
  rw [byteLength_append]
  omega

/-- Of two prefixes the shorter one begins the longer one. -/
theorem prefix_of_byteLength_le {a b s : Text} (ha : a <+: s) (hb : b <+: s) (h : byteLength a ≤ byteLength b) :
    a <+: b := by
  rcases List.prefix_or_prefix_of_prefix ha hb with hab | ⟨t, rfl⟩
  · exact hab
  · rw [byteLength_append] at h
    have ht : t = [] := byteLength_eq_zero (by omega)
    rw [ht, List.append_nil]

theorem utf8Size_of_ascii {c : Char} (hc : isAscii c = true) : c.utf8Size = 1 := by
  rw [Char.utf8Size_eq_one_iff, UInt32.le_iff_toNat_le]
  simp only [isAscii, decide_eq_true_eq] at hc
  exact Nat.le_of_lt_succ hc

theorem byteLength_map_toUpper (s : Text) : byteLength (s.map Char.toUpper) = byteLength s := by
  have hsize : ∀ c : Char, c.toUpper.utf8Size = c.utf8Size := by
    intro c
    cases hc : isAscii c with
    | true =>
      have hupper : isAscii c.toUpper = true :=
        ascii_cases (P := fun c => isAscii c.toUpper = true) (by decide) c hc
      rw [utf8Size_of_ascii hc, utf8Size_of_ascii hupper]
    | false => rw [toUpper_of_not_ascii hc]
  induction s with
  | nil => rfl
  | cons c s ih => rw [List.map_cons, byteLength_cons, byteLength_cons, ih, hsize]

/-! ## Slices -/

/-- `&s[..n]` -/
def sliceTo : ℕ → Text → Option Text
  | 0, _ => some []
  | _ + 1, [] => none
  | n + 1, c :: s => if c.utf8Size ≤ n + 1 then (sliceTo (n + 1 - c.utf8Size) s).map (c :: ·) else none

/-- `&s[n..]` -/
def sliceFrom : ℕ → Text → Option Text
  | 0, s => some s
  | _ + 1, [] => none
  | n + 1, c :: s => if c.utf8Size ≤ n + 1 then sliceFrom (n + 1 - c.utf8Size) s else none

/-- A text that is not empty, cut after its first character. -/
theorem byteLength_cons_succ (c : Char) (s : Text) :
    ∃ n, byteLength (c :: s) = n + 1 ∧ c.utf8Size ≤ n + 1 ∧ n + 1 - c.utf8Size = byteLength s := by
  have hpos := c.utf8Size_pos
  rw [byteLength_cons]
  exact ⟨c.utf8Size + byteLength s - 1, by omega, by omega, by omega⟩

theorem sliceTo_append (a b : Text) : sliceTo (byteLength a) (a ++ b) = some a := by
  induction a with
  | nil => rw [byteLength_nil, sliceTo]
  | cons c a ih =>
    obtain ⟨n, hn, hfits, hrest⟩ := byteLength_cons_succ c a
    rw [hn, List.cons_append, sliceTo, if_pos hfits, hrest, ih, Option.map_some]

theorem sliceFrom_append (a b : Text) : sliceFrom (byteLength a) (a ++ b) = some b := by
  induction a with
  | nil => rw [byteLength_nil, sliceFrom, List.nil_append]
  | cons c a ih =>
    obtain ⟨n, hn, hfits, hrest⟩ := byteLength_cons_succ c a
    rw [hn, List.cons_append, sliceFrom, if_pos hfits, hrest, ih]

/-! ## Searches -/

/-- `str::find` of a string: the byte where the first match starts. -/
def byteFind (needle s : Text) : Option ℕ := (find? needle s).map fun i => byteLength (s.take i)

/-- `str::find` of a character with a property. -/
def byteFindChar (p : Char → Bool) (s : Text) : Option ℕ :=
  if s.any p then some (byteLength (s.takeWhile (!p ·))) else none

theorem byteFind_eq_none {needle s : Text} : byteFind needle s = none ↔ find? needle s = none := Option.map_eq_none_iff

theorem byteFind_of_find? {needle s : Text} {i : ℕ} (h : find? needle s = some i) :
    byteFind needle s = some (byteLength (s.take i)) := by
  rw [byteFind, h, Option.map_some]

/-- The text before a match. -/
theorem sliceTo_take (i : ℕ) (s : Text) : sliceTo (byteLength (s.take i)) s = some (s.take i) := by
  have h := sliceTo_append (s.take i) (s.drop i)
  rwa [List.take_append_drop] at h

/-- The text from a match on. -/
theorem sliceFrom_take (i : ℕ) (s : Text) : sliceFrom (byteLength (s.take i)) s = some (s.drop i) := by
  have h := sliceFrom_append (s.take i) (s.drop i)
  rwa [List.take_append_drop] at h

/-- The text after a match. -/
theorem sliceFrom_match {needle s : Text} {i : ℕ} (h : find? needle s = some i) :
    sliceFrom (byteLength (s.take i) + byteLength needle) s = some (s.drop (i + needle.length)) := by
  have hcut := sliceFrom_append (s.take i ++ needle) (s.drop (i + needle.length))
  rwa [← (find?_occurs h).1, byteLength_append] at hcut

theorem sliceFrom_findChar (p : Char → Bool) (s : Text) :
    sliceFrom ((byteFindChar p s).getD (byteLength s)) s = some (s.dropWhile (!p ·)) := by
  have hcut := sliceFrom_append (s.takeWhile (!p ·)) (s.dropWhile (!p ·))
  rw [List.takeWhile_append_dropWhile] at hcut
  unfold byteFindChar
  split_ifs with hany
  · exact hcut
  · -- No character has the property: all of the text is before the match.
    have hall : ∀ c ∈ s, (!p c) = true := by
      intro c hc
      by_contra hp
      exact hany (List.any_eq_true.mpr ⟨c, hc, by simpa using hp⟩)
    rw [List.takeWhile_eq_self_iff.mpr hall] at hcut
    exact hcut

end TrinoGateway.Lib
