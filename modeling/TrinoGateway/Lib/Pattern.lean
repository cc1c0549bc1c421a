/-
  TrinoGateway.Lib.Pattern — patterns of `LIKE` with an escape character, read as tokens:
  any text, any one character, a character.

  Two readings of an escape: the lenient one, where it makes a literal of whatever follows
  (`readPattern`), and the strict one, where a wildcard or the escape character has to follow
  (`readStrict`). `match_differ`: a text that tells two token lists apart exists as soon as a
  character stands in one of them as a literal more often than in the other.

  Folding the case of a pattern may move its escapes. `inStep` says that the lenient reading
  of a pattern and the strict reading of the folded pattern stay in step; then they give the
  same tokens (`read_of_inStep`), and if both readings come to an end they do so only then
  (`balanced_read`).
-/

import TrinoGateway.Lib.Like

namespace TrinoGateway.Lib

/-! ## Tokens -/

inductive Token where
  | any
  | one
  | lit (c : Char)
  deriving DecidableEq, Repr

def token (c : Char) : Token := if c = '%' then .any else if c = '_' then .one else .lit c

def matchTokens : List Token → Text → Bool
  | [], s => s.isEmpty
  | .any :: ts, s => s.tails.any (matchTokens ts)
  | .one :: _, [] => false
  | .one :: ts, _ :: s => matchTokens ts s
  | .lit _ :: _, [] => false
  | .lit c :: ts, d :: s => c == d && matchTokens ts s

theorem matchTokens_any {ts : List Token} {s : Text} :
    matchTokens (.any :: ts) s = true ↔ ∃ a b, s = a ++ b ∧ matchTokens ts b = true := by
  rw [matchTokens, List.any_eq_true]
  constructor
  · rintro ⟨b, hb, hmatch⟩
    obtain ⟨a, rfl⟩ := (List.mem_tails _ _).mp hb
    exact ⟨a, b, rfl, hmatch⟩
  · rintro ⟨a, b, rfl, hmatch⟩
    exact ⟨b, (List.mem_tails _ _).mpr (List.suffix_append a b), hmatch⟩

/-- Without an escape every character is a token. -/
theorem like_eq_matchTokens (pattern s : Text) : like pattern s = matchTokens (pattern.map token) s := by
  induction pattern generalizing s with
  | nil => cases s <;> rfl
  | cons p pattern ih =>
    by_cases hany : p = '%'
    · subst hany
      rw [Bool.eq_iff_iff, List.map_cons, like_percent]
      show _ ↔ matchTokens (.any :: pattern.map token) s = true
      simp only [matchTokens_any, ih]
    · cases s with
      | nil =>
        rw [like_cons_nil hany]
        by_cases hone : p = '_' <;> simp [token, hany, hone, matchTokens]
      | cons c s =>
        rw [like_cons_cons hany, ih]
        by_cases hone : p = '_'
        · simp [token, hone, matchTokens]
        · simp [token, hany, hone, beq_eq_false_iff_ne.mpr hone, matchTokens]

/-! ## Telling token lists apart -/

/-- A shortest text that matches. -/
def sample (filler : Char) : List Token → Text
  | [] => []
  | .any :: ts => sample filler ts
  | .one :: ts => filler :: sample filler ts
  | .lit c :: ts => c :: sample filler ts

theorem matchTokens_sample (filler : Char) (ts : List Token) : matchTokens ts (sample filler ts) = true := by
  induction ts with
  | nil => rfl
  | cons t ts ih =>
    cases t with
    | any => exact matchTokens_any.mpr ⟨[], _, rfl, ih⟩
    | one => exact ih
    | lit c => rw [sample, matchTokens, ih, beq_self_eq_true, Bool.and_true]

theorem count_sample {filler z : Char} (h : filler ≠ z) (ts : List Token) :
    (sample filler ts).count z = ts.count (.lit z) := by
  induction ts with
  | nil => rfl
  | cons t ts ih =>
    cases t with
    | any => simp [sample, ih]
    | one => simp [sample, ih, h]
    | lit c => simp [sample, ih, List.count_cons]

theorem count_le_of_match {ts : List Token} {s : Text} (z : Char) (h : matchTokens ts s = true) :
    ts.count (.lit z) ≤ s.count z := by
  induction ts generalizing s with
  | nil => exact Nat.zero_le _
  | cons t ts ih =>
    cases t with
    | any =>
      obtain ⟨a, b, rfl, hb⟩ := matchTokens_any.mp h
      have := ih hb
      rw [List.count_append, List.count_cons_of_ne (by simp)]
      omega
    | one =>
      cases s with
      | nil => cases h
      | cons d s =>
        have := ih h
        rw [List.count_cons_of_ne (by simp), List.count_cons]
        omega
    | lit c =>
      cases s with
      | nil => cases h
      | cons d s =>
        rw [matchTokens, Bool.and_eq_true, beq_iff_eq] at h
        obtain ⟨rfl, hs⟩ := h
        have := ih hs
        simp only [List.count_cons, beq_iff_eq, Token.lit.injEq]
        omega

theorem match_differ {ts ts' : List Token} {z filler : Char} (h : ts.count (.lit z) < ts'.count (.lit z))
    (hfiller : filler ≠ z) :
    matchTokens ts (sample filler ts) = true ∧ matchTokens ts' (sample filler ts) = false := by
  refine ⟨matchTokens_sample filler ts, ?_⟩
  rw [Bool.eq_false_iff]
  intro hmatch
  have := count_le_of_match z hmatch
  rw [count_sample hfiller] at this
  omega

/-! ## Escapes -/

/-- The tokens of a pattern, and whether it ends in an escape with nothing behind; `escaped` is
    set after an escape. -/
def readPattern (e : Char) : Bool → Text → List Token × Bool
  | escaped, [] => ([], escaped)
  | true, c :: p => (.lit c :: (readPattern e false p).1, (readPattern e false p).2)
  | false, c :: p =>
    if c = e then readPattern e true p else (token c :: (readPattern e false p).1, (readPattern e false p).2)

def readStrict (e : Char) : Bool → Text → Option (List Token)
  | false, [] => some []
  | true, [] => none
  | true, c :: p => if isWildcard c || c == e then (readStrict e false p).map (.lit c :: ·) else none
  | false, c :: p => if c = e then readStrict e true p else (readStrict e false p).map (token c :: ·)

theorem readStrict_plain {e : Char} {p : Text} (h : e ∉ p) : readStrict e false p = some (p.map token) := by
  induction p with
  | nil => rfl
  | cons c p ih =>
    obtain ⟨hc, hp⟩ := not_or.mp (List.mem_cons.not.mp h)
    rw [readStrict, if_neg (Ne.symm hc), ih hp, Option.map_some, List.map_cons]

theorem readPattern_plain {e : Char} {p : Text} (h : e ∉ p) : readPattern e false p = (p.map token, false) := by
  induction p with
  | nil => rfl
  | cons c p ih =>
    obtain ⟨hc, hp⟩ := not_or.mp (List.mem_cons.not.mp h)
    rw [readPattern, if_neg (Ne.symm hc), ih hp, List.map_cons]

/-! ## Folding the case -/

/-- A case fold of characters; the characters `LIKE` gives a meaning are no letters. -/
structure CaseFold where
  fold : Char → Char
  fold_fold : ∀ c, fold (fold c) = fold c
  special : ∀ c d, d ∈ ['%', '_', '\\'] → (fold c = d ↔ c = d)

variable (F : CaseFold)

def CaseFold.token : Token → Token
  | .lit c => .lit (F.fold c)
  | t => t

theorem CaseFold.isWildcard_fold (c : Char) : isWildcard (F.fold c) = isWildcard c := by
  have hpercent := F.special c '%' (by decide)
  have hunderscore := F.special c '_' (by decide)
  rw [Bool.eq_iff_iff]
  simp only [isWildcard, Bool.or_eq_true, beq_iff_eq, hpercent, hunderscore]

theorem CaseFold.fold_wildcard {c : Char} (h : isWildcard c = true) : F.fold c = c := by
  simp only [isWildcard, Bool.or_eq_true, beq_iff_eq] at h
  obtain rfl | rfl := h
  · exact (F.special '%' '%' (by decide)).mpr rfl
  · exact (F.special '_' '_' (by decide)).mpr rfl

theorem CaseFold.token_token (c : Char) : F.token (Lib.token c) = Lib.token (F.fold c) := by
  have hpercent := F.special c '%' (by decide)
  have hunderscore := F.special c '_' (by decide)
  unfold Lib.token
  simp only [hpercent, hunderscore]
  split_ifs <;> rfl

/-- The lenient reading of the pattern and the strict reading of the folded pattern go together;
    `escaped` and `escaped'` are set where the one and the other are after an escape. -/
def inStep (e : Char) : (escaped escaped' : Bool) → Text → Bool
  | escaped, escaped', [] => !escaped && !escaped'
  | false, false, c :: p =>
    if c = e then inStep e true true p else if F.fold c = e then inStep e false true p else inStep e false false p
  | true, true, c :: p => (isWildcard c || F.fold c == e) && inStep e false false p
  -- The folded pattern has an escape before `c`, and the pattern a literal.
  | false, true, c :: p => c == e && inStep e true false p
  -- The pattern has an escape before `c`, and the folded pattern a literal.
  | true, false, c :: p =>
    if F.fold c = e then inStep e false true p else !isWildcard c && inStep e false false p

/-- The tokens of the lenient reading, folded. -/
def foldedTokens (e : Char) (escaped : Bool) (p : Text) : List Token := (readPattern e escaped p).1.map F.token

section
variable {F} {e c : Char} {p : Text}

theorem foldedTokens_escaped : foldedTokens F e true (c :: p) = .lit (F.fold c) :: foldedTokens F e false p := rfl

theorem foldedTokens_escape : foldedTokens F e false (e :: p) = foldedTokens F e true p := by
  rw [foldedTokens, readPattern, if_pos rfl, foldedTokens]

theorem foldedTokens_plain (h : c ≠ e) :
    foldedTokens F e false (c :: p) = token (F.fold c) :: foldedTokens F e false p := by
  rw [foldedTokens, readPattern, if_neg h, List.map_cons, F.token_token, foldedTokens]

theorem readPattern_end_escaped : (readPattern e true (c :: p)).2 = (readPattern e false p).2 := rfl

theorem readPattern_end_escape : (readPattern e false (e :: p)).2 = (readPattern e true p).2 := by
  rw [readPattern, if_pos rfl]

theorem readPattern_end_plain (h : c ≠ e) : (readPattern e false (c :: p)).2 = (readPattern e false p).2 := by
  rw [readPattern, if_neg h]

theorem token_of_not_wildcard (h : isWildcard c = false) : token c = .lit c := by
  simp only [isWildcard, Bool.or_eq_false_iff, beq_eq_false_iff_ne] at h
  rw [token, if_neg h.1, if_neg h.2]

theorem token_ne_lit (h : isWildcard c = true) (z : Char) : token c ≠ .lit z := by
  simp only [isWildcard, Bool.or_eq_true, beq_iff_eq] at h
  obtain rfl | rfl := h <;> simp [token]

/-- Only letters fold to another character. -/
theorem CaseFold.not_wildcard (h : F.fold c = e) (hne : c ≠ e) : isWildcard e = false := by
  by_contra hwild
  have hc : isWildcard c = true := by
    rw [← F.isWildcard_fold, h]
    exact Bool.eq_true_of_not_eq_false hwild
  rw [F.fold_wildcard hc] at h
  exact hne h

theorem readStrict_escape : readStrict e false (e :: p) = readStrict e true p := by
  rw [readStrict, if_pos rfl]

theorem readStrict_plain_cons (h : c ≠ e) : readStrict e false (c :: p) = (readStrict e false p).map (token c :: ·) := by
  rw [readStrict, if_neg h]

theorem readStrict_escaped (h : (isWildcard c || c == e) = true) :
    readStrict e true (c :: p) = (readStrict e false p).map (.lit c :: ·) := by
  rw [readStrict, if_pos h]

theorem readStrict_escaped_some {ts : List Token} (h : readStrict e true (c :: p) = some ts) :
    (isWildcard c || c == e) = true ∧ ∃ rest, readStrict e false p = some rest ∧ ts = .lit c :: rest := by
  rw [readStrict] at h
  split_ifs at h with hescapable
  obtain ⟨rest, hrest, rfl⟩ := Option.map_eq_some_iff.mp h
  exact ⟨hescapable, rest, hrest, rfl⟩

theorem read_of_inStep (he : F.fold e = e) {a b : Bool} (h : inStep F e a b p = true) :
    (readPattern e a p).2 = false ∧ readStrict e b (p.map F.fold) =
      some (if b && !a then .lit e :: foldedTokens F e a p else foldedTokens F e a p) := by
  induction p generalizing a b with
  | nil =>
    cases a <;> cases b <;> first | exact ⟨rfl, rfl⟩ | cases h
  | cons c p ih =>
    match a, b with
    | false, false =>
      rw [inStep] at h
      by_cases hc : c = e
      · subst hc
        rw [if_pos rfl] at h
        obtain ⟨hend, hread⟩ := ih h
        rw [readPattern_end_escape, foldedTokens_escape, List.map_cons, he, readStrict_escape]
        exact ⟨hend, hread⟩
      · rw [if_neg hc] at h
        by_cases hfold : F.fold c = e
        · rw [if_pos hfold] at h
          obtain ⟨hend, hread⟩ := ih h
          rw [readPattern_end_plain hc, foldedTokens_plain hc, List.map_cons, hfold, readStrict_escape,
            token_of_not_wildcard (CaseFold.not_wildcard hfold hc)]
          exact ⟨hend, hread⟩
        · rw [if_neg hfold] at h
          obtain ⟨hend, hread⟩ := ih h
          rw [readPattern_end_plain hc, foldedTokens_plain hc, List.map_cons, readStrict_plain_cons hfold, hread]
          exact ⟨hend, rfl⟩
    | true, true =>
      rw [inStep, Bool.and_eq_true] at h
      obtain ⟨hend, hread⟩ := ih h.2
      rw [readPattern_end_escaped, foldedTokens_escaped, List.map_cons,
        readStrict_escaped (by rw [F.isWildcard_fold]; exact h.1), hread]
      exact ⟨hend, rfl⟩
    | false, true =>
      rw [inStep, Bool.and_eq_true, beq_iff_eq] at h
      obtain ⟨rfl, h⟩ := h
      obtain ⟨hend, hread⟩ := ih h
      rw [readPattern_end_escape, foldedTokens_escape, List.map_cons, he, readStrict_escaped (by simp), hread]
      exact ⟨hend, rfl⟩
    | true, false =>
      rw [inStep] at h
      rw [readPattern_end_escaped, foldedTokens_escaped, List.map_cons]
      by_cases hfold : F.fold c = e
      · rw [if_pos hfold] at h
        obtain ⟨hend, hread⟩ := ih h
        rw [hfold, readStrict_escape]
        exact ⟨hend, hread⟩
      · rw [if_neg hfold, Bool.and_eq_true, Bool.not_eq_true'] at h
        obtain ⟨hend, hread⟩ := ih h.2
        rw [readStrict_plain_cons hfold, hread, token_of_not_wildcard (by rw [F.isWildcard_fold]; exact h.1)]
        exact ⟨hend, rfl⟩

/-! ## Out of step -/

/-- The strict tokens `ts'` against the lenient ones `ts`, of which `lead` escapes have been read:
    there are not more escape characters; with as many there are not more wildcards as
    literals; and with as many of these, `ok`. -/
structure Balanced (e : Char) (lead : ℕ) (ok : Prop) (ts ts' : List Token) : Prop where
  le : ts'.count (.lit e) ≤ ts.count (.lit e) + lead
  wild : ts'.count (.lit e) = ts.count (.lit e) + lead → ∀ z, isWildcard z = true →
    ts'.count (.lit z) ≤ ts.count (.lit z)
  ok : ts'.count (.lit e) = ts.count (.lit e) + lead →
    (∀ z, isWildcard z = true → ts'.count (.lit z) = ts.count (.lit z)) → ok

variable {lead : ℕ} {ok ok' : Prop} {ts ts' : List Token}

theorem Balanced.same (t : Token) (h : Balanced e lead ok ts ts') : Balanced e lead ok (t :: ts) (t :: ts') := by
  obtain ⟨hle, hwild, hok⟩ := h
  refine ⟨?_, ?_, ?_⟩ <;> simp only [List.count_cons]
  · omega
  · intro heq z hz
    have := hwild (by omega) z hz
    omega
  · intro heq hall
    exact hok (by omega) fun z hz => by have := hall z hz; omega

theorem count_lit_ne {z : Char} (h : c ≠ z) (ts : List Token) : (Token.lit c :: ts).count (.lit z) = ts.count (.lit z) :=
  List.count_cons_of_ne (by rw [Ne, Token.lit.injEq]; exact h)

theorem ne_of_wildcard {z : Char} (he : isWildcard e = false) (hz : isWildcard z = true) : e ≠ z := by
  rintro rfl
  rw [he] at hz
  cases hz

/-- The strict reading is after an escape that the lenient one takes for a literal. -/
theorem Balanced.ahead (he : isWildcard e = false) (h : Balanced e 1 ok ts ts') : Balanced e 0 ok (.lit e :: ts) ts' := by
  obtain ⟨hle, hwild, hok⟩ := h
  refine ⟨?_, ?_, ?_⟩ <;> rw [List.count_cons_self]
  · exact hle
  · intro heq z hz
    rw [count_lit_ne (ne_of_wildcard he hz)]
    exact hwild heq z hz
  · intro heq hall
    refine hok heq fun z hz => ?_
    rw [hall z hz, count_lit_ne (ne_of_wildcard he hz)]

/-- The strict reading has its literal too. -/
theorem Balanced.even (he : isWildcard e = false) (h : Balanced e 0 ok ts ts') : Balanced e 1 ok ts (.lit e :: ts') := by
  obtain ⟨hle, hwild, hok⟩ := h
  refine ⟨?_, ?_, ?_⟩ <;> rw [List.count_cons_self]
  · omega
  · intro heq z hz
    rw [count_lit_ne (ne_of_wildcard he hz)]
    exact hwild (by omega) z hz
  · intro heq hall
    refine hok (by omega) fun z hz => ?_
    rw [← hall z hz, count_lit_ne (ne_of_wildcard he hz)]

/-- An escape that is a literal of its own in the lenient reading is lost in the strict one. -/
theorem Balanced.lost {t t' : Token} (ht : (t = .lit e ↔ t' = .lit e)) (h : Balanced e 0 ok ts ts') :
    Balanced e 1 ok' (t :: ts) (t' :: ts') := by
  have hle := h.le
  have hlt : (t' :: ts').count (.lit e) < (t :: ts).count (.lit e) + 1 := by
    simp only [List.count_cons, beq_iff_eq, ht]
    omega
  exact ⟨hlt.le, fun heq => absurd heq hlt.ne, fun heq => absurd heq hlt.ne⟩

/-- A wildcard that is a literal in the lenient reading only. -/
theorem Balanced.freed (he : isWildcard e = false) (hc : isWildcard c = true) (h : Balanced e 0 ok ts ts') :
    Balanced e 0 ok' (.lit c :: ts) (token c :: ts') := by
  obtain ⟨hle, hwild, _⟩ := h
  have hcount : ∀ z, (token c :: ts').count (.lit z) = ts'.count (.lit z) :=
    fun z => List.count_cons_of_ne (token_ne_lit hc z)
  have hcount' : (Token.lit c :: ts).count (.lit e) = ts.count (.lit e) := count_lit_ne (ne_of_wildcard he hc).symm ts
  refine ⟨?_, ?_, ?_⟩ <;> rw [hcount, hcount']
  · exact hle
  · intro heq z hz
    rw [hcount]
    exact (hwild heq z hz).trans (List.count_le_count_cons)
  · intro heq hall
    have hone := hall c hc
    have htwo := hwild heq c hc
    rw [hcount, List.count_cons_self] at hone
    omega

theorem balanced_read (he : F.fold e = e) {a b : Bool} (hab : isWildcard e = true → a = b)
    (hend : (readPattern e a p).2 = false) (hread : readStrict e b (p.map F.fold) = some ts') :
    Balanced e (if b && !a then 1 else 0) (inStep F e a b p = true) (foldedTokens F e a p) ts' := by
  induction p generalizing a b ts' with
  | nil =>
    cases hend
    cases b with
    | true => cases hread
    | false =>
      cases hread
      exact ⟨le_rfl, fun _ _ _ => le_rfl, fun _ _ => rfl⟩
  | cons c p ih =>
    match a, b with
    | false, false =>
      rw [inStep]
      by_cases hc : c = e
      · subst hc
        rw [readPattern_end_escape] at hend
        rw [List.map_cons, he, readStrict_escape] at hread
        rw [if_pos rfl, foldedTokens_escape]
        exact ih (fun _ => rfl) hend hread
      · rw [readPattern_end_plain hc] at hend
        rw [if_neg hc, foldedTokens_plain hc]
        by_cases hfold : F.fold c = e
        · have hwild := CaseFold.not_wildcard hfold hc
          rw [List.map_cons, hfold, readStrict_escape] at hread
          rw [if_pos hfold, hfold, token_of_not_wildcard hwild]
          exact (ih (fun h => absurd (hwild.symm.trans h) Bool.false_ne_true) hend hread).ahead hwild
        · rw [List.map_cons, readStrict_plain_cons hfold] at hread
          obtain ⟨rest, hrest, rfl⟩ := Option.map_eq_some_iff.mp hread
          rw [if_neg hfold]
          exact (ih (fun _ => rfl) hend hrest).same _
    | true, true =>
      rw [List.map_cons] at hread
      obtain ⟨hescapable, rest, hrest, rfl⟩ := readStrict_escaped_some hread
      rw [F.isWildcard_fold] at hescapable
      rw [inStep, hescapable, Bool.true_and, foldedTokens_escaped]
      exact (ih (fun _ => rfl) hend hrest).same _
    | false, true =>
      have hwild : isWildcard e = false := Bool.eq_false_of_not_eq_true fun h => Bool.false_ne_true (hab h)
      rw [List.map_cons] at hread
      obtain ⟨hescapable, rest, hrest, rfl⟩ := readStrict_escaped_some hread
      by_cases hc : c = e
      · subst hc
        rw [readPattern_end_escape] at hend
        rw [inStep, beq_self_eq_true, Bool.true_and, foldedTokens_escape, he]
        exact (ih (fun h => absurd (hwild.symm.trans h) Bool.false_ne_true) hend hrest).even hwild
      · rw [readPattern_end_plain hc] at hend
        rw [foldedTokens_plain hc]
        refine (ih (fun _ => rfl) hend hrest).lost ?_
        by_cases hfold : F.fold c = e
        · rw [hfold, token_of_not_wildcard hwild]
        · have hwildcard : isWildcard (F.fold c) = true := by simpa [hfold] using hescapable
          exact iff_of_false (token_ne_lit hwildcard e) (by rw [Token.lit.injEq]; exact hfold)
    | true, false =>
      have hwild : isWildcard e = false := Bool.eq_false_of_not_eq_true fun h => Bool.false_ne_true (hab h).symm
      rw [List.map_cons] at hread
      rw [inStep, foldedTokens_escaped]
      by_cases hfold : F.fold c = e
      · rw [hfold, readStrict_escape] at hread
        rw [if_pos hfold, hfold]
        exact (ih (fun h => absurd (hwild.symm.trans h) Bool.false_ne_true) hend hread).ahead hwild
      · rw [readStrict_plain_cons hfold] at hread
        obtain ⟨rest, hrest, rfl⟩ := Option.map_eq_some_iff.mp hread
        rw [if_neg hfold]
        have hbalanced := ih (fun _ => rfl) hend hrest
        cases hc : isWildcard c with
        | true => exact hbalanced.freed hwild (by rw [F.isWildcard_fold, hc])
        | false =>
          rw [token_of_not_wildcard (by rw [F.isWildcard_fold, hc]), Bool.not_false, Bool.true_and]
          exact hbalanced.same _

/-! ## Escapes of one reading only -/

/-- The tokens of a pattern without escapes. -/
def plainTokens (F : CaseFold) (p : Text) : List Token := (p.map F.fold).map token

theorem plainTokens_cons : plainTokens F (c :: p) = token (F.fold c) :: plainTokens F p := rfl

theorem count_escape_le (he : isWildcard (F.fold e) = false) (a : Bool) (p : Text) :
    (foldedTokens F e a p).count (.lit (F.fold e)) ≤ (plainTokens F p).count (.lit (F.fold e)) := by
  induction p generalizing a with
  | nil => cases a <;> exact le_rfl
  | cons c p ih =>
    rw [plainTokens_cons]
    cases a with
    | true =>
      rw [foldedTokens_escaped]
      have hrest := ih false
      by_cases hc : F.fold c = F.fold e
      · rw [hc, token_of_not_wildcard he, List.count_cons_self, List.count_cons_self]
        omega
      · rw [count_lit_ne hc]
        exact hrest.trans List.count_le_count_cons
    | false =>
      by_cases hc : c = e
      · rw [hc, foldedTokens_escape]
        exact (ih true).trans List.count_le_count_cons
      · rw [foldedTokens_plain hc, List.count_cons, List.count_cons]
        exact Nat.add_le_add_right (ih false) _

/-- An escape is a literal in the pattern without escapes. -/
theorem count_escape_lt (he : isWildcard (F.fold e) = false) (h : e ∈ p) :
    (foldedTokens F e false p).count (.lit (F.fold e)) < (plainTokens F p).count (.lit (F.fold e)) := by
  induction p with
  | nil => cases h
  | cons c p ih =>
    rw [plainTokens_cons]
    by_cases hc : c = e
    · rw [hc, foldedTokens_escape, token_of_not_wildcard he, List.count_cons_self]
      exact Nat.lt_succ_of_le (count_escape_le he true p)
    · rw [foldedTokens_plain hc, List.count_cons, List.count_cons]
      exact Nat.add_lt_add_right (ih (List.mem_of_ne_of_mem (Ne.symm hc) h)) _

theorem foldedTokens_of_not_mem (h : e ∉ p) : foldedTokens F e false p = plainTokens F p := by
  rw [foldedTokens, readPattern_plain h, plainTokens, List.map_map, List.map_map]
  exact List.map_congr_left fun c _ => F.token_token c

/-! ## Folded texts -/

/-- The literals are folded. -/
def CaseFold.Fixed (F : CaseFold) (ts : List Token) : Prop := ∀ c, .lit c ∈ ts → F.fold c = c

/-- A character that is no `z`, and its own fold. -/
def otherThan (z : Char) : Char := if z = '%' then '_' else '%'

theorem otherThan_ne (z : Char) : otherThan z ≠ z := by
  unfold otherThan
  split_ifs with h
  · rw [h]
    decide
  · exact Ne.symm h

theorem fold_otherThan (F : CaseFold) (z : Char) : F.fold (otherThan z) = otherThan z := by
  unfold otherThan
  split_ifs <;> exact F.fold_wildcard (by decide)

theorem sample_fixed {filler : Char} (hfiller : F.fold filler = filler) (h : F.Fixed ts) :
    (sample filler ts).map F.fold = sample filler ts := by
  induction ts with
  | nil => rfl
  | cons t ts ih =>
    have hts := ih fun c hc => h c (List.mem_cons_of_mem t hc)
    cases t with
    | any => exact hts
    | one => rw [sample, List.map_cons, hfiller, hts]
    | lit c => rw [sample, List.map_cons, h c List.mem_cons_self, hts]

theorem lit_mem_token {c d : Char} (h : Token.lit d = token c) : d = c := by
  unfold token at h
  split_ifs at h
  exact Token.lit.inj h

theorem foldedTokens_fixed (F : CaseFold) (e : Char) (a : Bool) (p : Text) : F.Fixed (foldedTokens F e a p) := by
  intro d hd
  obtain ⟨t, _, ht⟩ := List.mem_map.mp hd
  cases t with
  | any => cases ht
  | one => cases ht
  | lit c =>
    cases ht
    exact F.fold_fold c

theorem plainTokens_fixed (F : CaseFold) (p : Text) : F.Fixed (plainTokens F p) := by
  intro d hd
  obtain ⟨c, hc, ht⟩ := List.mem_map.mp hd
  obtain ⟨c, _, rfl⟩ := List.mem_map.mp hc
  rw [lit_mem_token ht.symm]
  exact F.fold_fold c

theorem readStrict_fixed {b : Bool} (h : readStrict e b (p.map F.fold) = some ts) : F.Fixed ts := by
  induction p generalizing b ts with
  | nil =>
    cases b with
    | true => cases h
    | false =>
      cases h
      exact fun c hc => by cases hc
  | cons c p ih =>
    rw [List.map_cons] at h
    have hcons : ∀ t rest, (∀ d, .lit d = t → d = F.fold c) → F.Fixed rest → F.Fixed (t :: rest) := by
      intro t rest ht hrest d hd
      rcases List.mem_cons.mp hd with hd | hd
      · rw [ht d hd]
        exact F.fold_fold c
      · exact hrest d hd
    cases b with
    | true =>
      obtain ⟨_, rest, hrest, rfl⟩ := readStrict_escaped_some h
      exact hcons _ _ (fun d hd => Token.lit.inj hd) (ih hrest)
    | false =>
      by_cases hc : F.fold c = e
      · rw [hc, readStrict_escape] at h
        exact ih h
      · rw [readStrict_plain_cons hc] at h
        obtain ⟨rest, hrest, rfl⟩ := Option.map_eq_some_iff.mp h
        exact hcons _ _ (fun d hd => lit_mem_token hd) (ih hrest)

/-- Tokens that no folded text tells apart have the same literals, each as often. -/
theorem count_eq_of_agree (hts : F.Fixed ts) (hts' : F.Fixed ts')
    (h : ∀ s : Text, matchTokens ts (s.map F.fold) = matchTokens ts' (s.map F.fold)) (z : Char) :
    ts.count (.lit z) = ts'.count (.lit z) := by
  rcases Nat.lt_trichotomy (ts.count (.lit z)) (ts'.count (.lit z)) with hlt | heq | hlt
  · have hdiffer := match_differ hlt (otherThan_ne z)
    have hagree := h (sample (otherThan z) ts)
    rw [sample_fixed (fold_otherThan F z) hts, hdiffer.1, hdiffer.2] at hagree
    cases hagree
  · exact heq
  · have hdiffer := match_differ hlt (otherThan_ne z)
    have hagree := h (sample (otherThan z) ts')
    rw [sample_fixed (fold_otherThan F z) hts', hdiffer.1, hdiffer.2] at hagree
    cases hagree

end

end TrinoGateway.Lib
