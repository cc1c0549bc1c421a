/-
  TrinoGateway.Types.JsonText — cells of nested values. An array, a map or a row arrives as a
  JSON value and goes to the client as its JSON text (`encode_value`, `src/types.rs`). Where the
  column is announced with an array type, `pgwire` takes the text for an element of an array
  literal, and puts it in quotes if it needs them.

  A reader of such texts is defined here. It takes the rest of a text along, as the texts of
  the parts of a value follow each other without marks of their length; its fuel is bounded
  by the length of the text. How the crate prints a float is not known, only that it prints
  number characters with a point or an exponent and that they read back (`FloatTexts`).

  Proved: `nested_reads_back`. The text cell of an array or an object, taken out of its quotes,
  reads back as the value Trino sent; only a column of an array type has quotes. The cell of an
  array is never a literal of a PostgreSQL array type, though its column is announced with one:
  those end in a brace, and the cell ends in a bracket or a quote.
-/
import TrinoGateway.Lib.ByteText
import TrinoGateway.Types.Integers
import TrinoGateway.Types.Floats

namespace TrinoGateway.Types

open TrinoGateway.Lib

/-! ## Strings -/

/-- The characters with an escape of one letter. -/
def shortEscapes : List (Char × Char) :=
  [('"', '"'), ('\\', '\\'), ('/', '/'), ('b', Char.ofNat 8), ('t', Char.ofNat 9), ('n', Char.ofNat 10),
   ('f', Char.ofNat 12), ('r', Char.ofNat 13)]

/-- Four hexadecimal digits. -/
def readHex (s : Text) : Option ℕ := ((s.take 4).mapM hexValue).map fun digits => digits.foldl (16 * · + ·) 0

/-- What an escape stands for, after the backslash, and the text after it. -/
def readEscape : Text → Option (Option Char × Text)
  | [] => none
  | c :: s =>
    if c = 'u' then (readHex s).map fun code => (some (Char.ofNat code), s.drop 4)
    else (shortEscapes.lookup c).map fun d => (some d, s)

/-- The next character of a string, or its end. -/
def readChar : Text → Option (Option Char × Text)
  | [] => none
  | c :: s => if c = '"' then some (none, s) else if c = '\\' then readEscape s else some (some c, s)

/-- A string after its opening quote. -/
def readString : ℕ → Text → Option (Text × Text)
  | 0, _ => none
  | n + 1, s =>
    (readChar s).bind fun next =>
      match next.1 with
      | none => some ([], next.2)
      | some c => (readString n next.2).map fun found => (c :: found.1, found.2)

theorem hexValue_digitChar : ∀ d < 16, hexValue (Nat.digitChar d) = some d := by decide

theorem readChar_escapeChar (c : Char) (rest : Text) : readChar (escapeChar c ++ rest) = some (some c, rest) := by
  have hcode : ∀ n, c.toNat = n → c = Char.ofNat n := by
    intro n hn
    rw [← hn, Char.ofNat_toNat]
  unfold escapeChar
  split_ifs with hquote hback h8 h9 h10 h12 h13 hlow
  · rw [hquote]
    rfl
  · rw [hback]
    rfl
  · rw [hcode 8 h8]
    rfl
  · rw [hcode 9 h9]
    rfl
  · rw [hcode 10 h10]
    rfl
  · rw [hcode 12 h12]
    rfl
  · rw [hcode 13 h13]
    rfl
  · have hhex : readHex ('0' :: '0' :: Nat.digitChar (c.toNat / 16) :: Nat.digitChar (c.toNat % 16) :: rest) =
        some c.toNat := by
      have hhigh := hexValue_digitChar (c.toNat / 16) (by omega)
      have hlast := hexValue_digitChar (c.toNat % 16) (by omega)
      have hzero : hexValue '0' = some 0 := by decide
      unfold readHex
      simp only [List.take_succ_cons, List.take_zero, List.mapM_cons, List.mapM_nil, hzero, hhigh, hlast,
        Option.pure_def, Option.bind_eq_bind, Option.bind_some, Option.map_some, List.foldl_cons, List.foldl_nil]
      congr 1
      omega
    show (readHex ('0' :: '0' :: Nat.digitChar (c.toNat / 16) :: Nat.digitChar (c.toNat % 16) :: rest)).map _ = _
    rw [hhex, Option.map_some, Char.ofNat_toNat]
    rfl
  · show readChar (c :: rest) = _
    simp only [readChar, if_neg hquote, if_neg hback]

theorem escapeChar_length (c : Char) : 1 ≤ (escapeChar c).length := by
  unfold escapeChar
  split_ifs <;> simp

/-- A printed string is read back, with fuel for each of its characters and the end. -/
theorem readString_flatMap (s rest : Text) (n : ℕ) (hn : (s.flatMap escapeChar).length < n) :
    readString n (s.flatMap escapeChar ++ '"' :: rest) = some (s, rest) := by
  induction s generalizing n with
  | nil =>
    obtain ⟨n, rfl⟩ : ∃ k, n = k + 1 := ⟨n - 1, by omega⟩
    rfl
  | cons c s ih =>
    have hlength := escapeChar_length c
    rw [List.flatMap_cons, List.length_append] at hn
    obtain ⟨n, rfl⟩ : ∃ k, n = k + 1 := ⟨n - 1, by omega⟩
    rw [List.flatMap_cons, List.append_assoc, readString, readChar_escapeChar, Option.bind_some]
    show (readString n (s.flatMap escapeChar ++ '"' :: rest)).map _ = _
    rw [ih n (by omega)]
    rfl

/-! ## Numbers -/

def isNumberChar (c : Char) : Bool := c.isDigit || c == '-' || c == '+' || c == '.' || c == 'e' || c == 'E'

/-- What makes a number a float. -/
def isFloatChar (c : Char) : Bool := c == '.' || c == 'e' || c == 'E'

def floatNumber (s : Text) : Option Number :=
  match parseF64 s with
  | some (.finite x) => some (.float x)
  | _ => none

/-- An integer of 64 bits stays one, any other number is a float. -/
def numberOf (s : Text) : Option Number :=
  if s.any isFloatChar then floatNumber s
  else (readInt s).bind fun k =>
    if h : 0 ≤ k ∧ k < 2 ^ 64 then some (.posInt k.toNat (by omega))
    else if h : -2 ^ 63 ≤ k ∧ k < 0 then some (.negInt k h)
    else floatNumber s

def readNumber (s : Text) : Option (Number × Text) :=
  (numberOf (s.takeWhile isNumberChar)).map fun n => (n, s.dropWhile isNumberChar)

/-- What is known of the floats `serde_json` prints. -/
structure FloatTexts (X : Crates) : Prop where
  chars : ∀ x, ∀ c ∈ X.floatText x, isNumberChar c = true
  marked : ∀ x, (X.floatText x).any isFloatChar = true
  reads : ∀ x, parseF64 (X.floatText x) = some (.finite x)

theorem isDigit_not_float {c : Char} (h : c.isDigit = true) : isFloatChar c = false := by
  have hpoint : c ≠ '.' := by rintro rfl; exact absurd h (by decide)
  have hlower : c ≠ 'e' := by rintro rfl; exact absurd h (by decide)
  have hupper : c ≠ 'E' := by rintro rfl; exact absurd h (by decide)
  simp [isFloatChar, hpoint, hlower, hupper]

theorem intText_chars {k : ℤ} {c : Char} (h : c ∈ intText k) : c = '-' ∨ c.isDigit = true := by
  unfold intText at h
  split_ifs at h with hneg
  · rcases List.mem_cons.mp h with hsign | hdigit
    · exact .inl hsign
    · exact .inr (natText_isDigit hdigit)
  · exact .inr (natText_isDigit h)

theorem intText_not_float (k : ℤ) : (intText k).any isFloatChar = false := by
  rw [List.any_eq_false]
  intro c hc
  rcases intText_chars hc with hsign | hdigit
  · rw [hsign]
    decide
  · simp [isDigit_not_float hdigit]

variable {X : Crates}

theorem number_chars (hX : FloatTexts X) (n : Number) : ∀ c ∈ n.text X, isNumberChar c = true := by
  have hint : ∀ k : ℤ, ∀ c ∈ intText k, isNumberChar c = true := by
    intro k c hc
    rcases intText_chars hc with hsign | hdigit
    · rw [hsign]
      decide
    · simp [isNumberChar, hdigit]
  cases n with
  | posInt n h =>
    show ∀ c ∈ natText n, _
    rw [natText_eq_intText]
    exact hint n
  | negInt k h => exact hint k
  | float x => exact hX.chars x

theorem numberOf_text (hX : FloatTexts X) (n : Number) : numberOf (n.text X) = some n := by
  cases n with
  | posInt n h =>
    show numberOf (natText n) = _
    rw [natText_eq_intText, numberOf, intText_not_float, readInt_intText]
    have hrange : 0 ≤ (n : ℤ) ∧ (n : ℤ) < 2 ^ 64 := by omega
    rw [if_neg Bool.false_ne_true, Option.bind_some, dif_pos hrange]
    rfl
  | negInt k h =>
    show numberOf (intText k) = _
    rw [numberOf, intText_not_float, readInt_intText]
    have hneg : ¬ (0 ≤ k ∧ k < 2 ^ 64) := by omega
    rw [if_neg Bool.false_ne_true, Option.bind_some, dif_neg hneg, dif_pos h]
  | float x =>
    show numberOf (X.floatText x) = _
    rw [numberOf, if_pos (hX.marked x), floatNumber, hX.reads x]

/-- What follows a number and is no part of it. -/
def Ends (rest : Text) : Prop := ∀ c ∈ rest.head?, isNumberChar c = false

theorem takeWhile_ends {rest : Text} (h : Ends rest) : rest.takeWhile isNumberChar = [] := by
  cases rest with
  | nil => rfl
  | cons c rest => simp [h c rfl]

theorem dropWhile_ends {rest : Text} (h : Ends rest) : rest.dropWhile isNumberChar = rest := by
  cases rest with
  | nil => rfl
  | cons c rest => simp [h c rfl]

theorem readNumber_text (hX : FloatTexts X) (n : Number) {rest : Text} (hrest : Ends rest) :
    readNumber (n.text X ++ rest) = some (n, rest) := by
  have hchars := number_chars hX n
  rw [readNumber, List.takeWhile_append_of_pos hchars, List.dropWhile_append_of_pos hchars, takeWhile_ends hrest,
    dropWhile_ends hrest, List.append_nil, numberOf_text hX, Option.map_some]

theorem number_head (hX : FloatTexts X) (n : Number) : ∃ c t, n.text X = c :: t ∧ isNumberChar c = true := by
  have hne : n.text X ≠ [] := by
    cases n with
    | posInt n h => exact natText_ne_nil n
    | negInt k h =>
      show intText k ≠ []
      simp [intText, h.2]
    | float x =>
      show X.floatText x ≠ []
      intro hnil
      have hmarked := hX.marked x
      rw [hnil] at hmarked
      cases hmarked
  obtain ⟨c, t, hcons⟩ := List.exists_cons_of_ne_nil hne
  refine ⟨c, t, hcons, number_chars hX n c ?_⟩
  rw [hcons]
  exact List.mem_cons_self

/-! ## Values -/

/-- The text after a word. -/
def afterWord (word s : Text) : Option Text := if word.isPrefixOf s then some (s.drop word.length) else none

mutual
/-- The value a text begins with, and the text after it. -/
def readValue : ℕ → Text → Option (Value × Text)
  | 0, _ => none
  | _ + 1, [] => none
  | n + 1, c :: s =>
    if c = 'n' then (afterWord "ull".toList s).map fun rest => (.null, rest)
    else if c = 't' then (afterWord "rue".toList s).map fun rest => (.bool true, rest)
    else if c = 'f' then (afterWord "alse".toList s).map fun rest => (.bool false, rest)
    else if c = '"' then (readString n s).map fun found => (.string found.1, found.2)
    else if c = '[' then
      if s.head? = some ']' then some (.array [], s.tail)
      else (readElements n s).map fun found => (.array found.1, found.2)
    else if c = '\x7b' then
      if s.head? = some '\x7d' then some (.object [], s.tail)
      else (readMembers n s).map fun found => (.object found.1, found.2)
    else (readNumber (c :: s)).map fun found => (.number found.1, found.2)
/-- The elements of an array up to its bracket, one at least. -/
def readElements : ℕ → Text → Option (List Value × Text)
  | 0, _ => none
  | n + 1, s =>
    (readValue n s).bind fun found =>
      if found.2.head? = some ',' then (readElements n found.2.tail).map fun more => (found.1 :: more.1, more.2)
      else (afterWord "]".toList found.2).map fun rest => ([found.1], rest)
/-- The members of an object up to its brace, one at least. -/
def readMembers : ℕ → Text → Option (List (Text × Value) × Text)
  | 0, _ => none
  | n + 1, s =>
    (afterWord "\"".toList s).bind fun s =>
      (readString n s).bind fun key =>
        (afterWord ":".toList key.2).bind fun s =>
          (readValue n s).bind fun found =>
            if found.2.head? = some ',' then
              (readMembers n found.2.tail).map fun more => ((key.1, found.1) :: more.1, more.2)
            else (afterWord "\x7d".toList found.2).map fun rest => ([(key.1, found.1)], rest)
end

/-- A whole text. -/
def readJson (s : Text) : Option Value :=
  (readValue (2 * s.length) s).bind fun found => if found.2 = [] then some found.1 else none

/-! ## Reading back -/

theorem number_char_ne {c d : Char} (h : isNumberChar c = true) (hd : isNumberChar d = false) : c ≠ d := by
  rintro rfl
  rw [h] at hd
  cases hd

theorem text_length (hX : FloatTexts X) (v : Value) : 1 ≤ (v.text X).length := by
  cases v with
  | null => simp [Value.text]
  | bool b => cases b <;> simp [Value.text]
  | number n =>
    obtain ⟨c, t, hcons, _⟩ := number_head hX n
    rw [Value.text, hcons]
    simp
  | string s => simp [Value.text, quoted]
  | array vs => simp [Value.text]
  | object fs => simp [Value.text]

/-- No value begins as an array or an object ends. -/
theorem text_head (hX : FloatTexts X) (v : Value) (rest : Text) :
    (v.text X ++ rest).head? ≠ some ']' ∧ (v.text X ++ rest).head? ≠ some '\x7d' := by
  cases v with
  | null => simp [Value.text]
  | bool b => cases b <;> simp [Value.text]
  | number n =>
    obtain ⟨c, t, hcons, hc⟩ := number_head hX n
    have hbracket := number_char_ne hc (d := ']') (by decide)
    have hbrace := number_char_ne hc (d := '\x7d') (by decide)
    simp [Value.text, hcons, hbracket, hbrace]
  | string s => simp [Value.text, quoted]
  | array vs => simp [Value.text]
  | object fs => simp [Value.text]

/-- The elements after the first, with the comma before them. -/
theorem elements_cons (v : Value) (vs : List Value) :
    elements X (v :: vs) = v.text X ++ if vs = [] then [] else ',' :: elements X vs := by
  cases vs with
  | nil => simp [elements]
  | cons w vs => simp [elements]

theorem members_cons (k : Text) (v : Value) (fs : List (Text × Value)) :
    members X ((k, v) :: fs) =
      '"' :: (k.flatMap escapeChar ++ '"' :: ':' :: (v.text X ++ if fs = [] then [] else ',' :: members X fs)) := by
  cases fs with
  | nil => simp [members, quoted]
  | cons f fs => simp [members, quoted]

theorem ends_cons {c : Char} (h : isNumberChar c = false) (rest : Text) : Ends (c :: rest) := by
  intro d hd
  cases hd
  exact h

section Reads

variable (X)

/-- With this fuel, every value is read from its text. -/
def ReadsValue (n : ℕ) : Prop :=
  ∀ v rest, 2 * (v.text X).length ≤ n → Ends rest → readValue n (v.text X ++ rest) = some (v, rest)

def ReadsElements (n : ℕ) : Prop :=
  ∀ vs rest, vs ≠ [] → 2 * (elements X vs).length < n → readElements n (elements X vs ++ ']' :: rest) = some (vs, rest)

def ReadsMembers (n : ℕ) : Prop :=
  ∀ fs rest, fs ≠ [] → 2 * (members X fs).length < n → readMembers n (members X fs ++ '\x7d' :: rest) = some (fs, rest)

end Reads

theorem reads_value (hX : FloatTexts X) {n : ℕ} (helements : ReadsElements X n) (hmembers : ReadsMembers X n) :
    ReadsValue X (n + 1) := by
  intro v rest hn hrest
  cases v with
  | null => rfl
  | bool b => cases b <;> rfl
  | number k =>
    obtain ⟨c, t, hcons, hc⟩ := number_head hX k
    have hread := readNumber_text hX k hrest
    have hnot : ∀ d, isNumberChar d = false → c ≠ d := fun d hd => number_char_ne hc hd
    rw [Value.text]
    rw [hcons, List.cons_append] at hread ⊢
    rw [readValue, if_neg (hnot _ (by decide)), if_neg (hnot _ (by decide)), if_neg (hnot _ (by decide)),
      if_neg (hnot _ (by decide)), if_neg (hnot _ (by decide)), if_neg (hnot _ (by decide)), hread]
    rfl
  | string s =>
    have hlength : (s.flatMap escapeChar).length < n := by
      simp only [Value.text, quoted, List.length_append, List.length_cons, List.length_nil] at hn
      omega
    have hread := readString_flatMap s rest n hlength
    show (readString n (s.flatMap escapeChar ++ ['"'] ++ rest)).map _ = _
    rw [List.append_assoc, List.singleton_append, hread]
    rfl
  | array vs =>
    cases vs with
    | nil => rfl
    | cons v vs =>
      have hlength : 2 * (elements X (v :: vs)).length < n := by
        simp only [Value.text, List.length_append, List.length_cons, List.length_nil] at hn
        omega
      have hread := helements (v :: vs) rest (List.cons_ne_nil _ _) hlength
      have hhead : (elements X (v :: vs) ++ ']' :: rest).head? ≠ some ']' := by
        rw [elements_cons, List.append_assoc]
        exact (text_head hX v _).1
      show (if (elements X (v :: vs) ++ [']'] ++ rest).head? = some ']' then _ else
        (readElements n (elements X (v :: vs) ++ [']'] ++ rest)).map _) = _
      rw [List.append_assoc, List.singleton_append, if_neg hhead, hread]
      rfl
  | object fs =>
    cases fs with
    | nil => rfl
    | cons f fs =>
      have hlength : 2 * (members X (f :: fs)).length < n := by
        simp only [Value.text, List.length_append, List.length_cons, List.length_nil] at hn
        omega
      have hread := hmembers (f :: fs) rest (List.cons_ne_nil _ _) hlength
      have hhead : (members X (f :: fs) ++ '\x7d' :: rest).head? ≠ some '\x7d' := by
        rw [members_cons]
        simp
      show (if (members X (f :: fs) ++ ['\x7d'] ++ rest).head? = some '\x7d' then _ else
        (readMembers n (members X (f :: fs) ++ ['\x7d'] ++ rest)).map _) = _
      rw [List.append_assoc, List.singleton_append, if_neg hhead, hread]
      rfl

theorem reads_elements {n : ℕ} (hvalue : ReadsValue X n) (helements : ReadsElements X n) : ReadsElements X (n + 1) := by
  intro vs rest hne hn
  cases vs with
  | nil => exact absurd rfl hne
  | cons v vs =>
    rw [elements_cons, List.length_append] at hn
    rw [elements_cons, List.append_assoc, readElements]
    by_cases hlast : vs = []
    · subst hlast
      have hread := hvalue v (']' :: rest) (by omega) (ends_cons (by decide) _)
      rw [if_pos rfl, List.nil_append, hread]
      simp [afterWord]
    · rw [if_neg hlast, List.length_cons] at hn
      have hread := hvalue v (',' :: (elements X vs ++ ']' :: rest)) (by omega) (ends_cons (by decide) _)
      have hmore := helements vs rest hlast (by omega)
      rw [if_neg hlast, List.cons_append, hread]
      simp [hmore]

theorem reads_members {n : ℕ} (hvalue : ReadsValue X n) (hmembers : ReadsMembers X n) : ReadsMembers X (n + 1) := by
  intro fs rest hne hn
  cases fs with
  | nil => exact absurd rfl hne
  | cons f fs =>
    obtain ⟨k, v⟩ := f
    rw [members_cons] at hn ⊢
    simp only [List.length_cons, List.length_append] at hn
    have hkey : ∀ after, readString n (k.flatMap escapeChar ++ '"' :: after) = some (k, after) := fun after =>
      readString_flatMap k after n (by omega)
    rw [readMembers]
    simp only [List.cons_append, List.append_assoc]
    by_cases hlast : fs = []
    · subst hlast
      have hread := hvalue v ('\x7d' :: rest) (by omega) (ends_cons (by decide) _)
      simp [afterWord, hkey, hread]
    · rw [if_neg hlast, List.length_cons] at hn
      have hread := hvalue v (',' :: (members X fs ++ '\x7d' :: rest)) (by omega) (ends_cons (by decide) _)
      have hmore := hmembers fs rest hlast (by omega)
      simp [afterWord, hkey, hlast, hread, hmore]

/-- By induction on the fuel: each reader calls the others with less of it. -/
theorem reads_all (hX : FloatTexts X) (n : ℕ) : ReadsValue X n ∧ ReadsElements X n ∧ ReadsMembers X n := by
  induction n with
  | zero =>
    refine ⟨?_, ?_, ?_⟩
    · intro v rest hn _
      have := text_length hX v
      omega
    · intro vs rest _ hn
      omega
    · intro fs rest _ hn
      omega
  | succ n ih =>
    obtain ⟨hvalue, helements, hmembers⟩ := ih
    exact ⟨reads_value hX helements hmembers, reads_elements hvalue helements, reads_members hvalue hmembers⟩

theorem readJson_text (hX : FloatTexts X) (v : Value) : readJson (v.text X) = some v := by
  have hread := (reads_all hX _).1 v [] (Nat.le_refl _) (fun c hc => by cases hc)
  rw [List.append_nil] at hread
  rw [readJson, hread]
  rfl

/-! ## Cells -/

/-- Arrays, maps and rows. -/
def Nested : Value → Prop
  | .array _ => True
  | .object _ => True
  | _ => False

theorem textValue_nested {v : Value} (hv : Nested v) (pgType : PgType) (trinoType : Text) :
    textValue X v pgType trinoType = some (v.text X) := by
  have hstr : v.asStr = none := by cases v <;> first | rfl | exact hv.elim
  have hencode : encodeValue X v trinoType = some (v.text X) := by cases v <;> first | rfl | exact hv.elim
  simp [textValue, hstr, hencode]

/-- A text in quotes after its opening quote, without the backslashes that escape. -/
def unescape : Text → Text
  | [] => []
  | '\\' :: c :: s => c :: unescape s
  | c :: s => if c = '"' then [] else c :: unescape s

/-- What a cell holds, without the quotes it may stand in. -/
def unquote : Text → Text
  | [] => []
  | c :: s => if c = '"' then unescape s else c :: s

theorem unescape_flatMap (s : Text) : unescape (s.flatMap escapeQuote ++ ['"']) = s := by
  induction s with
  | nil => rfl
  | cons c s ih =>
    rw [List.flatMap_cons, List.append_assoc, escapeQuote]
    split_ifs with hc
    · exact congrArg (c :: ·) ih
    · obtain ⟨hquote, hslash⟩ := not_or.mp hc
      rw [List.singleton_append, unescape, if_neg hquote, ih]
      intro d t hd _
      exact hslash hd

theorem unquote_toSqlText {pgType : PgType} {s : Text} (h : s.head? ≠ some '"') : unquote (toSqlText X pgType s) = s := by
  unfold toSqlText
  split_ifs
  · exact unescape_flatMap s
  · cases s with
    | nil => rfl
    | cons c s => exact if_neg fun hc => h (by rw [hc, List.head?_cons])

theorem nested_head {v : Value} (hv : Nested v) : (v.text X).head? ≠ some '"' := by
  cases v with
  | array vs => simp [Value.text]
  | object fs => simp [Value.text]
  | _ => exact hv.elim

/-- A nested value reaches the client in the text format whatever the type of its column; taken
    out of its quotes the cell reads back as the value, and that of an array does not end as an
    array literal of PostgreSQL does. -/
theorem nested_reads_back (X : Crates) (hX : FloatTexts X) {v : Value} (hv : Nested v) (pgType : PgType)
    (trinoType : Text) :
    ∃ t, encodeCell X v pgType trinoType .text = .ok (.text t) ∧ readJson (unquote t) = some v ∧
      (pgType.isArray = false → readJson t = some v) ∧
      ∀ vs, v = .array vs → t.getLast? = some ']' ∨ t.getLast? = some '"' := by
  refine ⟨toSqlText X pgType (v.text X), ?_, ?_, ?_, ?_⟩
  · have hnull : v ≠ .null := by
      intro hnull
      rw [hnull] at hv
      exact hv
    rw [encodeCell_text X hnull, textValue_nested hv]
    rfl
  · rw [unquote_toSqlText (nested_head hv)]
    exact readJson_text hX v
  · intro hscalar
    rw [toSqlText, hscalar, Bool.false_and, if_neg Bool.false_ne_true]
    exact readJson_text hX v
  · intro vs hvs
    unfold toSqlText
    split_ifs
    · exact .inr List.getLast?_concat
    · rw [hvs, Value.text]
      exact .inl List.getLast?_concat

/-- `d * 10 ^ k` with a point and a digit after it at least. -/
def pointText (d : ℕ) (k : ℤ) : Text :=
  let j := (max 1 (-k)).toNat
  let m := d * 10 ^ (k + j).toNat
  natText (m / 10 ^ j) ++ '.' :: pad j (m % 10 ^ j)

/-- A crate that prints every float with a point. -/
def pointCrates : Crates :=
  { plainCrates with
    floatText := fun x =>
      (if x.neg then ['-'] else []) ++ pointText (binary64.shortest x.mag).1 (binary64.shortest x.mag).2 }

theorem readUnsigned_pointText (d : ℕ) (k : ℤ) : readUnsigned (pointText d k) = some ((d : ℚ) * 10 ^ k) := by
  obtain ⟨j, hj⟩ : ∃ j : ℕ, j = (max 1 (-k)).toNat := ⟨_, rfl⟩
  obtain ⟨e, he⟩ : ∃ e : ℕ, e = (k + j).toNat := ⟨_, rfl⟩
  have hexp : k = (e : ℤ) - j := by omega
  have hpad := pad_length (w := j) (by omega) (Nat.mod_lt (d * 10 ^ e) (pow_pos (by norm_num : 0 < 10) j))
  have hvalue : Nat.ofDigitChars 10 (natText (d * 10 ^ e / 10 ^ j) ++ pad j (d * 10 ^ e % 10 ^ j)) 0 = d * 10 ^ e := by
    rw [Nat.ofDigitChars_append, ofDigitChars_natText, Nat.ofDigitChars_eq_ofDigitChars_zero, ofDigitChars_pad, hpad]
    exact Nat.div_add_mod _ _
  have htext : pointText d k = natText (d * 10 ^ e / 10 ^ j) ++ '.' :: pad j (d * 10 ^ e % 10 ^ j) := by
    subst he hj
    rfl
  rw [htext, readUnsigned_point (natText_isNumeral _) (fun c hc => pad_isDigit hc), hvalue, hpad, hexp,
    zpow_sub₀ (by norm_num), zpow_neg]
  push_cast
  rw [zpow_natCast, zpow_natCast, mul_assoc, div_eq_mul_inv]

theorem pointCrates_floatTexts : FloatTexts pointCrates := by
  refine ⟨?_, ?_, ?_⟩
  · intro x c hc
    rcases List.mem_append.mp hc with hsign | hbody
    · split_ifs at hsign with hneg
      · cases List.mem_singleton.mp hsign
        decide
      · cases hsign
    · rcases List.mem_append.mp hbody with hwhole | hfraction
      · simp [isNumberChar, natText_isDigit hwhole]
      · rcases List.mem_cons.mp hfraction with hpoint | hdigit
        · rw [hpoint]
          decide
        · simp [isNumberChar, pad_isDigit hdigit]
  · intro x
    show ((if x.neg then ['-'] else []) ++ pointText _ _).any isFloatChar = true
    simp [pointText, isFloatChar]
  · intro x
    show readFloat binary64 ((if x.neg then ['-'] else []) ++ pointText _ _) = _
    rw [readFloat_signed _ _ (readUnsigned_pointText _ _), ofRat_shortest]

/-- A row in an array of rows, with a quote and a line feed in it. -/
def nestedSample : Value :=
  .array [.object [("say".toList, .string "\"hi\"\n".toList), ("half".toList, .number (.float halfPast))], .null]

theorem nestedSample_quoted : pointCrates.quoteCheck (nestedSample.text pointCrates) = true := by
  have hcomma : ',' ∈ nestedSample.text pointCrates := by simp [nestedSample, Value.text, elements]
  simp only [pointCrates, plainCrates, Bool.or_eq_true, List.any_eq_true]
  exact .inr ⟨',', hcomma, .inl (by decide)⟩

theorem nestedSample_reads_back :
    ∃ t, encodeCell pointCrates nestedSample .jsonbArray "array(row(say varchar, half double))".toList .text =
        .ok (.text t) ∧
      readJson (unquote t) = some nestedSample ∧ t.head? = some '"' := by
  obtain ⟨t, ht, hread, -⟩ := nested_reads_back pointCrates pointCrates_floatTexts (v := nestedSample) trivial .jsonbArray
    "array(row(say varchar, half double))".toList
  refine ⟨t, ht, hread, ?_⟩
  rw [encodeCell_text pointCrates (by simp [nestedSample]), textValue_nested (v := nestedSample) trivial, Option.map_some, toSqlText,
    nestedSample_quoted] at ht
  cases ht
  rfl

end TrinoGateway.Types
