/-
  TrinoGateway.Lib.Text — text as a list of characters, with the operations of Rust's
  `str` that a text-driven program uses: `trim`, `find` and `rfind` of a character,
  `split`, ASCII case and the full Unicode case maps.

  The case maps beyond ASCII come from the Unicode character database. They are a
  parameter (`UnicodeCase`) whose fields carry the facts of that database the lemmas
  use: a character outside ASCII never maps to a bracket, white space appears in no
  image but its own, and no image consists of ASCII characters other than `k` only
  (U+212A maps to `k`, U+0130 to `i` and a combining dot, every other image has no
  ASCII character at all).

  - `trim_surrounded`: trimming takes off exactly the white space around a text whose
    own ends are not white space.
  - `lastIdxOf?_append`, `idxOf?_append`: the last and the first occurrence of a
    character in a text cut there.
  - `find?_occurs`, `find?_first`: `find?` gives the first place where a text occurs.
  - `toLowercase_lowersTo`: lower-casing goes character by character (`LowersTo`), so
    it can be cut wherever the text can (`LowersTo.append_inv`).
-/

import Mathlib

namespace TrinoGateway.Lib

abbrev Text := List Char

/-! ## White space -/

/-- `char::is_whitespace`: the characters with the Unicode property White_Space. -/
def isWhitespace (c : Char) : Bool :=
  let n := c.toNat
  (9 ≤ n && n ≤ 13) || n == 32 || n == 0x85 || n == 0xA0 || n == 0x1680 || (0x2000 ≤ n && n ≤ 0x200A) ||
    n == 0x2028 || n == 0x2029 || n == 0x202F || n == 0x205F || n == 0x3000

/-- `w` is nothing but white space. -/
def Blank (w : Text) : Prop := ∀ c ∈ w, isWhitespace c = true

instance (w : Text) : Decidable (Blank w) := decidable_of_iff (w.all isWhitespace = true) List.all_eq_true

def trimStart (s : Text) : Text := s.dropWhile isWhitespace

def trimEnd (s : Text) : Text := s.rdropWhile isWhitespace

def trim (s : Text) : Text := trimEnd (trimStart s)

/-- A text that starts and ends with a character that is not white space. -/
structure Solid (s : Text) : Prop where
  nonempty : s ≠ []
  head : ∀ c ∈ s.head?, isWhitespace c = false
  last : ∀ c ∈ s.getLast?, isWhitespace c = false

/-- What stands in front of an element that is kept stays. -/
theorem rdropWhile_append_cons {α : Type*} {p : α → Bool} {x : α} (h : p x = false) (l r : List α) :
    (l ++ x :: r).rdropWhile p = l ++ x :: r.rdropWhile p := by
  induction r using List.reverseRecOn with
  | nil => exact List.rdropWhile_concat_neg p l x (by simp [h])
  | append_singleton r y ih =>
    rw [← List.cons_append, ← List.append_assoc]
    by_cases hy : p y = true
    · rw [List.rdropWhile_concat_pos _ _ _ hy, List.rdropWhile_concat_pos _ _ _ hy, ih]
    · rw [List.rdropWhile_concat_neg _ _ _ hy, List.rdropWhile_concat_neg _ _ _ hy, List.append_assoc, List.cons_append]

theorem trimStart_blank {w : Text} (hw : Blank w) (s : Text) : trimStart (w ++ s) = trimStart s := by
  induction w with
  | nil => rfl
  | cons c w ih =>
    have hc : isWhitespace c = true := hw c (by simp)
    have ih' := ih fun d hd => hw d (by simp [hd])
    simpa [trimStart, hc] using ih'

theorem trimEnd_blank {w : Text} (hw : Blank w) (s : Text) : trimEnd (s ++ w) = trimEnd s := by
  induction w using List.reverseRecOn with
  | nil => simp
  | append_singleton w c ih =>
    have hc : isWhitespace c = true := hw c (by simp)
    rw [← List.append_assoc, trimEnd, List.rdropWhile_concat_pos _ _ _ hc]
    exact ih fun d hd => hw d (by simp [hd])

theorem trimStart_solid {s : Text} (hs : Solid s) (t : Text) : trimStart (s ++ t) = s ++ t := by
  obtain ⟨c, s', rfl⟩ := List.exists_cons_of_ne_nil hs.nonempty
  have hc := hs.head c (by simp)
  simp [trimStart, hc]

theorem trimEnd_solid {s : Text} (hs : Solid s) : trimEnd s = s := by
  rw [trimEnd, List.rdropWhile_eq_self_iff]
  intro hne
  simp [hs.last _ (List.getLast?_eq_some_getLast hne)]

theorem trim_surrounded {w s w' : Text} (hw : Blank w) (hs : Solid s) (hw' : Blank w') : trim (w ++ s ++ w') = s := by
  rw [trim, List.append_assoc, trimStart_blank hw, trimStart_solid hs, trimEnd_blank hw', trimEnd_solid hs]

theorem trim_sublist (s : Text) : (trim s).Sublist s :=
  (List.rdropWhile_prefix _ _).sublist.trans (List.dropWhile_suffix _).sublist

theorem trim_solid {s : Text} (hs : Solid s) : trim s = s := by
  have h := trim_surrounded (w := []) (by simp [Blank]) hs (List.forall_mem_nil _ : Blank [])
  simpa using h

theorem solid_of_ends {a m b : Text} (ha : a ≠ []) (hb : b ≠ []) (hwa : ∀ c ∈ a, isWhitespace c = false)
    (hwb : ∀ c ∈ b, isWhitespace c = false) : Solid (a ++ m ++ b) := by
  refine ⟨by simp [ha], ?_, ?_⟩
  · intro c hc
    obtain ⟨d, a', rfl⟩ := List.exists_cons_of_ne_nil ha
    exact hwa c (by simp_all)
  · intro c hc
    rw [List.getLast?_append_of_ne_nil _ hb] at hc
    exact hwb c (List.mem_of_getLast? hc)

theorem trim_of_no_whitespace {s : Text} (hs : ∀ c ∈ s, isWhitespace c = false) : trim s = s := by
  by_cases hne : s = []
  · rw [hne]; rfl
  · exact trim_solid ⟨hne, fun c hc => hs c (List.mem_of_mem_head? hc), fun c hc => hs c (List.mem_of_getLast? hc)⟩

theorem trim_parts (s : Text) : ∃ lead tail, s = lead ++ trim s ++ tail ∧ Blank lead ∧ Blank tail := by
  refine ⟨s.takeWhile isWhitespace, (trimStart s).rtakeWhile isWhitespace, ?_, ?_, ?_⟩
  · rw [List.append_assoc, trim, trimEnd, List.rdropWhile_append_rtakeWhile]
    exact List.takeWhile_append_dropWhile.symm
  · intro c hc
    exact List.mem_takeWhile_imp hc
  · intro c hc
    exact List.mem_rtakeWhile_imp hc

/-- Trimming starts at the first character that is not white space. -/
theorem trim_cons {c : Char} (hc : isWhitespace c = false) (s : Text) : ∃ t, trim (c :: s) = c :: t := by
  have hs : trimStart (c :: s) = c :: s := by simp [trimStart, hc]
  exact ⟨trimEnd s, by rw [trim, hs]; exact rdropWhile_append_cons hc [] s⟩

theorem trimEnd_append {a b : Text} (hb : ¬ Blank b) : trimEnd (a ++ b) = a ++ trimEnd b := by
  obtain ⟨c, hmem, hc⟩ : ∃ c ∈ b, isWhitespace c ≠ true := by simpa [Blank] using hb
  obtain ⟨front, back, rfl⟩ := List.append_of_mem hmem
  have hsolid := Bool.eq_false_of_not_eq_true hc
  rw [trimEnd, trimEnd, ← List.append_assoc, rdropWhile_append_cons hsolid, rdropWhile_append_cons hsolid, List.append_assoc]

theorem trimEnd_parts (s : Text) : ∃ tail, s = trimEnd s ++ tail ∧ Blank tail :=
  ⟨s.rtakeWhile isWhitespace, List.rdropWhile_append_rtakeWhile.symm, fun _ hc => List.mem_rtakeWhile_imp hc⟩

theorem trimStart_of_begins {a s : Text} (h : a <+: s) (hs : trimStart s = s) : trimStart a = a := by
  cases a with
  | nil => rfl
  | cons c a =>
    obtain ⟨b, rfl⟩ := h
    by_cases hc : isWhitespace c = true
    · have hlen := (List.dropWhile_sublist isWhitespace (l := a ++ b)).length_le
      have hsame := congrArg List.length hs
      rw [List.cons_append, trimStart, List.dropWhile_cons_of_pos hc, List.length_cons] at hsame
      omega
    · exact List.dropWhile_cons_of_neg hc

/-! ## First and last occurrence -/

/-- `str::rfind` of a character, as a count of characters. -/
def lastIdxOf? (c : Char) : Text → Option Nat
  | [] => none
  | d :: s =>
    match lastIdxOf? c s with
    | some i => some (i + 1)
    | none => if d = c then some 0 else none

theorem lastIdxOf?_eq_none {c : Char} {s : Text} (h : c ∉ s) : lastIdxOf? c s = none := by
  induction s with
  | nil => rfl
  | cons d s ih =>
    simp only [List.mem_cons, not_or] at h
    simp [lastIdxOf?, ih h.2, Ne.symm h.1]

theorem lastIdxOf?_append {c : Char} (a : Text) {b : Text} (h : c ∉ b) : lastIdxOf? c (a ++ c :: b) = some a.length := by
  induction a with
  | nil => simp [lastIdxOf?, lastIdxOf?_eq_none h]
  | cons d a ih => simp [lastIdxOf?, ih]

theorem idxOf?_append {c : Char} {a : Text} (h : c ∉ a) (b : Text) : (a ++ c :: b).idxOf? c = some a.length := by
  induction a with
  | nil => simp [List.idxOf?_cons]
  | cons d a ih =>
    simp only [List.mem_cons, not_or] at h
    simp [List.idxOf?_cons, Ne.symm h.1, ih h.2]

/-- `str::find` of a string, as a count of characters. -/
def find? (needle : Text) : Text → Option Nat
  | [] => if needle.isEmpty then some 0 else none
  | c :: s => if needle.isPrefixOf (c :: s) then some 0 else (find? needle s).map (· + 1)

theorem find?_cons_of_ne {c d : Char} (h : c ≠ d) (needle s : Text) :
    find? (d :: needle) (c :: s) = (find? (d :: needle) s).map (· + 1) := by
  rw [find?, if_neg]
  simp [List.isPrefixOf, h.symm]

theorem find?_occurs {needle s : Text} {i : ℕ} (h : find? needle s = some i) :
    s = s.take i ++ needle ++ s.drop (i + needle.length) ∧ (s.take i).length = i := by
  induction s generalizing i with
  | nil =>
    rw [find?] at h
    split at h
    · next hempty =>
      cases h
      rw [List.isEmpty_iff.mp hempty]
      exact ⟨rfl, rfl⟩
    · cases h
  | cons c s ih =>
    rw [find?] at h
    split at h
    · next hprefix =>
      cases h
      obtain ⟨t, ht⟩ := List.isPrefixOf_iff_prefix.mp hprefix
      rw [← ht]
      simp
    · obtain ⟨j, hj, rfl⟩ := Option.map_eq_some_iff.mp h
      obtain ⟨hs, hlen⟩ := ih hj
      refine ⟨?_, by rw [List.take_succ_cons, List.length_cons, hlen]⟩
      rw [List.take_succ_cons, Nat.add_right_comm, List.drop_succ_cons, List.cons_append, List.cons_append, ← hs]

theorem take_match {needle s : Text} {i : ℕ} (h : find? needle s = some i) :
    s.take (i + needle.length) = s.take i ++ needle := by
  obtain ⟨hsplit, hlength⟩ := find?_occurs h
  have hfront : (s.take i ++ needle).length = i + needle.length := by rw [List.length_append, hlength]
  calc s.take (i + needle.length)
      = (s.take i ++ needle ++ s.drop (i + needle.length)).take (i + needle.length) := by rw [← hsplit]
    _ = s.take i ++ needle := List.take_left' hfront

theorem prefix_drop_of_find? {needle s : Text} {i : ℕ} (h : find? needle s = some i) : needle <+: s.drop i := by
  obtain ⟨hsplit, hlength⟩ := find?_occurs h
  refine ⟨s.drop (i + needle.length), ?_⟩
  calc needle ++ s.drop (i + needle.length)
      = (s.take i ++ (needle ++ s.drop (i + needle.length))).drop i := (List.drop_left' hlength).symm
    _ = s.drop i := by rw [← List.append_assoc, ← hsplit]

/-- What is found is the first occurrence. -/
theorem find?_first {needle : Text} (hne : needle ≠ []) (a b : Text) :
    ∃ i ≤ a.length, find? needle (a ++ needle ++ b) = some i := by
  induction a with
  | nil =>
    obtain ⟨c, n, rfl⟩ := List.exists_cons_of_ne_nil hne
    have hprefix : (c :: n).isPrefixOf (c :: (n ++ b)) = true := List.isPrefixOf_iff_prefix.mpr ⟨b, rfl⟩
    exact ⟨0, Nat.le_refl 0, by rw [List.nil_append, List.cons_append, find?, if_pos hprefix]⟩
  | cons d a ih =>
    obtain ⟨i, hi, hfind⟩ := ih
    rw [List.cons_append, List.cons_append, find?]
    split
    · exact ⟨0, Nat.zero_le _, rfl⟩
    · exact ⟨i + 1, Nat.succ_le_succ hi, by rw [hfind, Option.map_some]⟩

theorem find?_eq_none_iff {needle s : Text} (hne : needle ≠ []) : find? needle s = none ↔ ¬ needle <:+: s := by
  constructor
  · intro h hin
    obtain ⟨a, b, rfl⟩ := hin
    obtain ⟨i, -, hi⟩ := find?_first hne a b
    rw [h] at hi
    cases hi
  · intro h
    cases hfind : find? needle s with
    | none => rfl
    | some i => exact absurd ⟨s.take i, s.drop (i + needle.length), (find?_occurs hfind).1.symm⟩ h

theorem not_occurs_of_find?_none {needle s : Text} (hne : needle ≠ []) (h : find? needle s = none) (a b : Text) :
    s ≠ a ++ needle ++ b := by
  intro hs
  exact (find?_eq_none_iff hne).mp h ⟨a, b, hs.symm⟩

theorem find?_none_of_suffix {needle s t : Text} (hne : needle ≠ []) (h : find? needle s = none) (ht : t <:+ s) :
    find? needle t = none := by
  rw [find?_eq_none_iff hne] at h ⊢
  intro hin
  exact h (hin.trans ht.isInfix)

/-- Before the first occurrence there is none. -/
theorem not_in_before {needle m : Text} {i : ℕ} (hne : needle ≠ []) (h : find? needle m = some i) (a b : Text) :
    m.take i ≠ a ++ needle ++ b := by
  intro hab
  obtain ⟨hm, hlen⟩ := find?_occurs h
  rw [hab] at hm hlen
  have hshape : m = a ++ needle ++ (b ++ needle ++ m.drop (i + needle.length)) := by
    conv_lhs => rw [hm]
    simp only [List.append_assoc]
  obtain ⟨j, hj, hfind⟩ := find?_first hne a (b ++ needle ++ m.drop (i + needle.length))
  rw [← hshape, h] at hfind
  cases hfind
  have hpos := List.length_pos_iff.mpr hne
  simp only [List.length_append] at hlen
  omega

theorem not_infix_take {needle m : Text} {i : ℕ} (hne : needle ≠ []) (h : find? needle m = some i) :
    ¬ needle <:+: m.take i := by
  intro hin
  obtain ⟨a, b, hab⟩ := hin
  exact not_in_before hne h a b hab.symm

theorem infix_of_append_cons {w a b : Text} {c : Char} (hc : c ∉ w) (h : w <:+: a ++ c :: b) : w <:+: a ∨ w <:+: b := by
  rcases List.infix_append_iff.mp h with ha | hb | ⟨w₁, w₂, rfl, h₁, h₂⟩
  · exact .inl ha
  · rcases List.infix_cons_iff.mp hb with hp | hb
    · cases w with
      | nil => exact .inl (List.nil_infix)
      | cons d w =>
        rw [(List.cons_prefix_cons.mp hp).1] at hc
        exact absurd List.mem_cons_self hc
    · exact .inr hb
  · cases w₂ with
    | nil =>
      rw [List.append_nil]
      exact .inl h₁.isInfix
    | cons d w₂ =>
      rw [(List.cons_prefix_cons.mp h₂).1] at hc
      exact absurd (List.mem_append_right w₁ List.mem_cons_self) hc

theorem infix_iff_begins {w s : Text} : w <:+: s ↔ ∃ p, p ++ w <+: s := by
  constructor
  · intro h
    obtain ⟨p, q, h⟩ := h
    exact ⟨p, q, h⟩
  · intro h
    obtain ⟨p, q, h⟩ := h
    exact ⟨p, q, h⟩

def contains (s needle : Text) : Bool := (find? needle s).isSome

theorem mem_intercalate {c sep : Char} : ∀ ts : List Text, c ∈ List.intercalate [sep] ts → c = sep ∨ ∃ t ∈ ts, c ∈ t
  | [], h => by cases h
  | [t], h => Or.inr ⟨t, List.mem_cons_self, by simpa [List.intercalate] using h⟩
  | t :: u :: ts, h => by
    have hcons : List.intercalate [sep] (t :: u :: ts) = t ++ sep :: List.intercalate [sep] (u :: ts) := by
      simp [List.intercalate]
    rw [hcons, List.mem_append, List.mem_cons] at h
    rcases h with h | rfl | h
    · exact Or.inr ⟨t, List.mem_cons_self, h⟩
    · exact Or.inl rfl
    · rcases mem_intercalate (u :: ts) h with rfl | ⟨v, hv, hc⟩
      · exact Or.inl rfl
      · exact Or.inr ⟨v, List.mem_cons_of_mem t hv, hc⟩

/-- The number of bytes of the UTF-8 encoding. -/
def byteLength (s : Text) : Nat := (s.map Char.utf8Size).sum

/-- `str::rsplit_once` at a character: what stands before and after its last occurrence. -/
def rsplitOnce (c : Char) (s : Text) : Option (Text × Text) :=
  (lastIdxOf? c s).map fun i => (s.take i, s.drop (i + 1))

theorem rsplitOnce_append {c : Char} (a : Text) {b : Text} (h : c ∉ b) : rsplitOnce c (a ++ c :: b) = some (a, b) := by
  have hd : (a ++ c :: b).drop (a.length + 1) = b := by
    rw [← List.drop_drop, List.drop_left]
    rfl
  rw [rsplitOnce, lastIdxOf?_append a h, Option.map_some, List.take_left, hd]

/-- What has no `c` at the end of a text stays together after the last `c`. -/
theorem suffix_of_rsplitOnce {c : Char} {x o a b : Text} (ho : c ∉ o) (h : rsplitOnce c (x ++ o) = some (a, b)) :
    o <:+ b := by
  obtain ⟨i, hi, hab⟩ := Option.map_eq_some_iff.mp h
  rw [← (Prod.mk.inj hab).2]
  clear h hab
  induction x generalizing i with
  | nil =>
    rw [List.nil_append, lastIdxOf?_eq_none ho] at hi
    cases hi
  | cons d x ih =>
    rw [List.cons_append, lastIdxOf?] at hi
    rw [List.cons_append, List.drop_succ_cons]
    cases hl : lastIdxOf? c (x ++ o) with
    | some j =>
      rw [hl] at hi
      rw [← Option.some.inj hi]
      exact ih j hl
    | none =>
      simp only [hl] at hi
      split_ifs at hi
      rw [← Option.some.inj hi, List.drop_zero]
      exact List.suffix_append x o

/-! ## Letter case -/

/-- A character of ASCII. -/
def isAscii (c : Char) : Bool := c.toNat < 128

theorem ascii_cases {P : Char → Prop} (h : ∀ n < 128, P (Char.ofNat n)) (c : Char) (hc : isAscii c = true) : P c := by
  have := h c.toNat (by simpa [isAscii] using hc)
  simpa using this

/-- Two texts that differ only in the case of their ASCII letters. -/
def CaseVariant (s t : Text) : Prop := s.map Char.toLower = t.map Char.toLower

instance (s t : Text) : Decidable (CaseVariant s t) := inferInstanceAs (Decidable (_ = _))

/-- Not ASCII, or the letter `k` of either case: what the image of a character outside
    ASCII always has one of. -/
def isForeign (c : Char) : Bool := !isAscii c || c == 'k' || c == 'K'

/-- The Unicode case maps outside ASCII. The lower-case map sees the characters before
    and after (a final sigma maps to another letter than an inner one). -/
structure UnicodeCase where
  lower : Text → Char → Text → Text
  upper : Char → Text
  /-- No character outside ASCII maps to a bracket. -/
  lower_bracket : ∀ b c a, isAscii c = false → '(' ∉ lower b c a ∧ ')' ∉ lower b c a
  lower_solid : ∀ b c a, isAscii c = false → isWhitespace c = false → ∀ d ∈ lower b c a, isWhitespace d = false
  /-- U+212A maps to `k`; every other image has a character outside ASCII. -/
  lower_foreign : ∀ b c a, isAscii c = false → ∃ d ∈ lower b c a, isForeign d = true

/-- `str::to_lowercase`, with the characters already read in front (last one first). -/
def toLowercaseAfter (U : UnicodeCase) : Text → Text → Text
  | _, [] => []
  | b, c :: s => (if isAscii c then [c.toLower] else U.lower b c s) ++ toLowercaseAfter U (c :: b) s

def toLowercase (U : UnicodeCase) (s : Text) : Text := toLowercaseAfter U [] s

/-- `str::to_uppercase`. -/
def toUppercase (U : UnicodeCase) (s : Text) : Text := s.flatMap fun c => if isAscii c then [c.toUpper] else U.upper c

/-- `d` can be the image of the character `c`, which is not ASCII. -/
structure Image (c : Char) (d : Text) : Prop where
  bracket : '(' ∉ d ∧ ')' ∉ d
  solid : isWhitespace c = false → ∀ e ∈ d, isWhitespace e = false
  foreign : ∃ e ∈ d, isForeign e = true

/-- What lower-casing can do to a text, one character at a time. -/
inductive LowersTo : Text → Text → Prop
  | nil : LowersTo [] []
  | ascii {c : Char} {s t : Text} : isAscii c = true → LowersTo s t → LowersTo (c :: s) (c.toLower :: t)
  | other {c : Char} {d s t : Text} : isAscii c = false → Image c d → LowersTo s t → LowersTo (c :: s) (d ++ t)

theorem toLowercase_lowersTo (U : UnicodeCase) (s : Text) : LowersTo s (toLowercase U s) := by
  suffices ∀ b, LowersTo s (toLowercaseAfter U b s) from this []
  induction s with
  | nil => intro b; exact .nil
  | cons c s ih =>
    intro b
    simp only [toLowercaseAfter]
    cases hc : isAscii c with
    | true => exact .ascii hc (ih _)
    | false =>
      exact .other hc ⟨U.lower_bracket b c s hc, U.lower_solid b c s hc, U.lower_foreign b c s hc⟩ (ih _)

theorem LowersTo.append_inv {a b t : Text} (h : LowersTo (a ++ b) t) :
    ∃ ta tb, t = ta ++ tb ∧ LowersTo a ta ∧ LowersTo b tb := by
  induction a generalizing t with
  | nil => exact ⟨[], t, rfl, .nil, h⟩
  | cons c a ih =>
    cases h with
    | ascii hc h =>
      obtain ⟨ta, tb, rfl, ha, hb⟩ := ih h
      exact ⟨_ :: ta, tb, rfl, .ascii hc ha, hb⟩
    | other hc hd h =>
      obtain ⟨ta, tb, rfl, ha, hb⟩ := ih h
      exact ⟨_ ++ ta, tb, by simp, .other hc hd ha, hb⟩

theorem LowersTo.append {a b ta tb : Text} (ha : LowersTo a ta) (hb : LowersTo b tb) : LowersTo (a ++ b) (ta ++ tb) := by
  induction ha with
  | nil => exact hb
  | ascii hc _ ih => exact .ascii hc ih
  | other hc hd _ ih => rw [List.append_assoc]; exact .other hc hd ih

/-- ASCII text has one image. -/
theorem LowersTo.ascii_eq {s t : Text} (h : LowersTo s t) (hs : ∀ c ∈ s, isAscii c = true) : t = s.map Char.toLower := by
  induction h with
  | nil => rfl
  | ascii _ _ ih => rw [ih fun d hd => hs d (by simp [hd])]; rfl
  | other hc _ _ _ => rw [hs _ (by simp)] at hc; cases hc

theorem toLowercase_ascii (U : UnicodeCase) {s : Text} (hs : s.all isAscii = true) : toLowercase U s = s.map Char.toLower :=
  (toLowercase_lowersTo U s).ascii_eq (List.all_eq_true.mp hs)

/-- A bracket in the image is one of the text. -/
theorem LowersTo.bracket {s t : Text} (h : LowersTo s t) {c : Char} (hc : c = '(' ∨ c = ')') : c ∈ t → c ∈ s := by
  have hlow : ∀ d : Char, isAscii d = true → d.toLower = c → d = c := by
    intro d hd
    refine ascii_cases (P := fun d => d.toLower = c → d = c) ?_ d hd
    rcases hc with rfl | rfl <;> decide
  induction h with
  | nil => exact id
  | ascii hd _ ih =>
    intro hm
    rcases List.mem_cons.mp hm with e | hm
    · exact List.mem_cons.mpr (Or.inl (hlow _ hd e.symm).symm)
    · exact List.mem_cons_of_mem _ (ih hm)
  | other _ hd _ ih =>
    intro hm
    rcases List.mem_append.mp hm with hm | hm
    · rcases hc with rfl | rfl
      · exact absurd hm hd.bracket.1
      · exact absurd hm hd.bracket.2
    · exact List.mem_cons_of_mem _ (ih hm)

/-- An opening bracket stays where it is, and no other comes in. -/
theorem LowersTo.count_open {s t : Text} (h : LowersTo s t) : t.count '(' = s.count '(' := by
  have hlow : ∀ d : Char, isAscii d = true → (d.toLower = '(' ↔ d = '(') := ascii_cases (by decide)
  induction h with
  | nil => rfl
  | ascii hd _ ih => simp [List.count_cons, ih, hlow _ hd]
  | @other c d s t hc hd _ ih =>
    have hne : c ≠ '(' := by rintro rfl; exact absurd hc (by decide)
    rw [List.count_append, List.count_eq_zero.mpr hd.bracket.1, ih, List.count_cons_of_ne hne, Nat.zero_add]

/-- The image of a text in brackets is in brackets. -/
theorem LowersTo.bracketed {a q t : Text} (h : LowersTo (a ++ '(' :: q ++ [')']) t) :
    ∃ ta tq, t = ta ++ '(' :: tq ++ [')'] ∧ LowersTo a ta ∧ LowersTo q tq := by
  obtain ⟨t1, t2, rfl, h1, h2⟩ := h.append_inv
  obtain ⟨ta, tq, rfl, ha, hq⟩ := h1.append_inv
  have hclose : t2 = [')'] := by rw [h2.ascii_eq (by simp [isAscii])]; decide
  obtain ⟨ts, tq', rfl, hs, hq'⟩ := LowersTo.append_inv (a := ['(']) hq
  have hopen : ts = ['('] := by rw [hs.ascii_eq (by simp [isAscii])]; decide
  exact ⟨ta, tq', by simp [hopen, hclose], ha, hq'⟩

/-- Lower-casing brings in no white space. -/
theorem LowersTo.solid {s t : Text} (h : LowersTo s t) (hs : ∀ c ∈ s, isWhitespace c = false) :
    ∀ c ∈ t, isWhitespace c = false := by
  have hlow : ∀ d : Char, isAscii d = true → isWhitespace d = false → isWhitespace d.toLower = false :=
    ascii_cases (by decide)
  induction h with
  | nil => exact hs
  | ascii hd _ ih =>
    intro c hc
    rcases List.mem_cons.mp hc with rfl | hc
    · exact hlow _ hd (hs _ (by simp))
    · exact ih (fun d hd => hs d (by simp [hd])) c hc
  | other _ hd _ ih =>
    intro c hc
    rcases List.mem_append.mp hc with hc | hc
    · exact hd.solid (hs _ (by simp)) c hc
    · exact ih (fun d hd => hs d (by simp [hd])) c hc

theorem LowersTo.ne_nil {s t : Text} (h : LowersTo s t) (hs : s ≠ []) : t ≠ [] := by
  cases h with
  | nil => exact hs
  | ascii _ _ => simp
  | other _ hd _ =>
    obtain ⟨e, he, -⟩ := hd.foreign
    intro h0
    rw [(List.append_eq_nil_iff.mp h0).1] at he
    cases he

/-- Lower-casing leaves the last character solid. -/
theorem LowersTo.last_solid {s t : Text} (h : LowersTo s t) (hs : ∀ c ∈ s.getLast?, isWhitespace c = false) :
    ∀ c ∈ t.getLast?, isWhitespace c = false := by
  rcases List.eq_nil_or_concat s with rfl | ⟨s0, d, rfl⟩
  · cases h; simp
  · rw [List.concat_eq_append] at h hs
    obtain ⟨t0, td, rfl, -, hd⟩ := h.append_inv
    have htd := hd.solid (by simpa using hs)
    intro c hc
    rw [List.getLast?_append_of_ne_nil _ (hd.ne_nil (by simp))] at hc
    exact htd c (List.mem_of_getLast? hc)

/-- A foreign character leaves a foreign one behind. -/
theorem LowersTo.foreign {s t : Text} (h : LowersTo s t) (hs : ∃ c ∈ s, isForeign c = true) :
    ∃ c ∈ t, isForeign c = true := by
  have hlow : ∀ d : Char, isAscii d = true → isForeign d = true → isForeign d.toLower = true := ascii_cases (by decide)
  induction h with
  | nil => exact hs
  | ascii hd _ ih =>
    obtain ⟨c, hc, hf⟩ := hs
    rcases List.mem_cons.mp hc with rfl | hc
    · exact ⟨_, by simp, hlow _ hd hf⟩
    · obtain ⟨e, he, hf⟩ := ih ⟨c, hc, hf⟩
      exact ⟨e, by simp [he], hf⟩
  | other _ hd _ _ =>
    obtain ⟨e, he, hf⟩ := hd.foreign
    exact ⟨e, by simp [he], hf⟩

theorem toLower_of_not_ascii {c : Char} (hc : isAscii c = false) : c.toLower = c := by
  have hn : ¬ (c.val ≥ 'A'.val ∧ c.val ≤ 'Z'.val) := by
    rintro ⟨-, h⟩
    have : c.toNat ≤ 90 := h
    simp only [isAscii, decide_eq_false_iff_not] at hc
    omega
  simp only [Char.toLower, hn, dite_false]

theorem toUppercase_cons (U : UnicodeCase) (c : Char) (s : Text) :
    toUppercase U (c :: s) = (if isAscii c then [c.toUpper] else U.upper c) ++ toUppercase U s := by
  rw [toUppercase, List.flatMap_cons, ← toUppercase]

theorem toUpper_of_not_ascii {c : Char} (hc : isAscii c = false) : c.toUpper = c := by
  have hn : ¬ (c.val ≥ 'a'.val ∧ c.val ≤ 'z'.val) := by
    rintro ⟨-, h⟩
    have : c.toNat ≤ 122 := h
    simp only [isAscii, decide_eq_false_iff_not] at hc
    omega
  simp only [Char.toUpper, hn, dite_false]

theorem toUppercase_map_toUpper (U : UnicodeCase) (s : Text) : toUppercase U (s.map Char.toUpper) = toUppercase U s := by
  induction s with
  | nil => rfl
  | cons c s ih =>
    rw [List.map_cons, toUppercase_cons, toUppercase_cons, ih]
    cases hc : isAscii c with
    | false => simp only [toUpper_of_not_ascii hc, hc, Bool.false_eq_true, if_false]
    | true =>
      have hupper : ∀ c, isAscii c = true → isAscii c.toUpper = true := ascii_cases (by decide)
      rw [hupper c hc, Char.toUpper_toUpper_eq_toUpper, if_pos rfl, if_pos rfl]

/-- A fact about characters that the case of an ASCII letter does not change. -/
theorem toLower_invariant {f : Char → Bool} (h : ∀ n < 128, f (Char.ofNat n).toLower = f (Char.ofNat n)) (c : Char) :
    f c.toLower = f c := by
  cases hc : isAscii c with
  | true => exact ascii_cases (P := fun c => f c.toLower = f c) h c hc
  | false => rw [toLower_of_not_ascii hc]

theorem CaseVariant.forall_mem {f : Char → Bool} (h : ∀ n < 128, f (Char.ofNat n).toLower = f (Char.ofNat n))
    {s t : Text} (hst : CaseVariant s t) (ht : ∀ c ∈ t, f c = true) : ∀ c ∈ s, f c = true := by
  intro c hc
  have hm : c.toLower ∈ t.map Char.toLower := hst ▸ List.mem_map_of_mem hc
  obtain ⟨d, hd, e⟩ := List.mem_map.mp hm
  rw [← toLower_invariant h c, ← e, toLower_invariant h d]
  exact ht d hd

theorem CaseVariant.ne_nil {s t : Text} (h : CaseVariant s t) (ht : t ≠ []) : s ≠ [] := by
  rintro rfl
  exact ht (List.map_eq_nil_iff.mp h.symm)

theorem CaseVariant.last {f : Char → Bool} (h : ∀ n < 128, f (Char.ofNat n).toLower = f (Char.ofNat n))
    {s t : Text} (hst : CaseVariant s t) (ht : ∀ c ∈ t.getLast?, f c = true) : ∀ c ∈ s.getLast?, f c = true := by
  intro c hc
  have hl : (t.map Char.toLower).getLast? = some c.toLower := by rw [← hst, List.getLast?_map, hc]; rfl
  rw [List.getLast?_map] at hl
  obtain ⟨d, hd, e⟩ := Option.map_eq_some_iff.mp hl
  rw [← toLower_invariant h c, ← e, toLower_invariant h d]
  exact ht d hd

theorem CaseVariant.append_inv {s a b : Text} (h : CaseVariant s (a ++ b)) :
    ∃ sa sb, s = sa ++ sb ∧ CaseVariant sa a ∧ CaseVariant sb b := by
  rw [CaseVariant, List.map_append] at h
  obtain ⟨sa, sb, rfl, ha, hb⟩ := List.map_eq_append_iff.mp h
  exact ⟨sa, sb, rfl, ha, hb⟩

/-- The brackets of a text stand in every variant of it. -/
theorem CaseVariant.bracketed {s a q : Text} (h : CaseVariant s (a ++ '(' :: q ++ [')'])) :
    ∃ sa sq, s = sa ++ '(' :: sq ++ [')'] ∧ CaseVariant sa a ∧ CaseVariant sq q := by
  have single : ∀ {t : Text} (b : Char), (∀ n < 128, ((Char.ofNat n).toLower == b) = (Char.ofNat n == b)) →
      CaseVariant t [b] → t = [b] := by
    intro t b hb ht
    obtain ⟨c, rfl⟩ : ∃ c, t = [c] := List.length_eq_one_iff.mp (by simpa using congrArg List.length ht)
    have hc : ∀ d ∈ [c], (d == b) = true := ht.forall_mem hb (by simp)
    simpa using hc c (by simp)
  obtain ⟨s1, s2, rfl, h1, h2⟩ := h.append_inv
  obtain ⟨sa, s3, rfl, ha, h3⟩ := h1.append_inv
  obtain ⟨so, sq, rfl, ho, hq⟩ := CaseVariant.append_inv (a := ['(']) h3
  rw [single '(' (by decide) ho, single ')' (by decide) h2]
  exact ⟨sa, sq, by simp, ha, hq⟩

/-- Lower-casing gives the same text as the ASCII letters' alone, on a variant of an ASCII text. -/
theorem LowersTo.variant {s t n : Text} (h : LowersTo s t) (hs : CaseVariant s n) (hn : n.all isAscii = true) :
    t = n.map Char.toLower := by
  rw [h.ascii_eq (hs.forall_mem (by decide) (List.all_eq_true.mp hn))]
  exact hs

theorem CaseVariant.lower {s t n : Text} (h : CaseVariant s n) (hn : n.all isAscii = true) (hl : LowersTo s t) :
    CaseVariant t n := by
  rw [hl.variant h hn, CaseVariant, List.map_map]
  simp [Function.comp_def]

/-- Text with no foreign character is ASCII. -/
theorem ascii_of_not_foreign {s : Text} (h : ¬ ∃ c ∈ s, isForeign c = true) : ∀ c ∈ s, isAscii c = true := by
  intro c hc
  by_contra hn
  exact h ⟨c, hc, by simp [isForeign, hn]⟩

end TrinoGateway.Lib
