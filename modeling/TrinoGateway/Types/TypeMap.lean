/-
  TrinoGateway.Types.TypeMap — the type map of `src/types.rs` (`trino_type_to_pg`,
  `strip_type_params`, `scalar_to_array`), from the text of a Trino type to the
  PostgreSQL type the gateway announces for the column.

  The code has no parser: it tests for `array(` and a final `)`, recurses on what is
  between, and otherwise cuts from the first `(` to the last `)`. The grammar of Trino's
  type texts is `TypeExpr`, and `TypeExpr.image` is what the map should be, by structure.

  Proved: `type_map_structural`, for every type expression, written in any ASCII letter
  case (field names and all) and with white space around it, the code's answer is the
  structural one. What carries the induction is `Written`: a text that has the brackets
  of the expression where they belong. Lower-casing keeps it (`Written.lower`), and of
  a written text the two cuts of the code find exactly the brackets they mean.
-/

import TrinoGateway.Lib.Text

namespace TrinoGateway.Types

open TrinoGateway.Lib

/-- The `postgres_types::Type` constants the gateway names. -/
inductive PgType where
  | bool | int2 | int4 | int8 | float4 | float8 | numeric | varchar | bpchar | bytea | date | time | timetz
  | timestamp | timestamptz | interval | jsonb | uuid | inet | text | name | unknown
  | boolArray | int2Array | int4Array | int8Array | float4Array | float8Array | numericArray | varcharArray
  | bpcharArray | byteaArray | dateArray | timeArray | timetzArray | timestampArray | timestamptzArray
  | intervalArray | jsonbArray | uuidArray | inetArray | textArray
  deriving DecidableEq, Repr

def scalarToArray : PgType → PgType
  | .bool => .boolArray
  | .int2 => .int2Array
  | .int4 => .int4Array
  | .int8 => .int8Array
  | .float4 => .float4Array
  | .float8 => .float8Array
  | .numeric => .numericArray
  | .varchar => .varcharArray
  | .bpchar => .bpcharArray
  | .bytea => .byteaArray
  | .date => .dateArray
  | .time => .timeArray
  | .timetz => .timetzArray
  | .timestamp => .timestampArray
  | .timestamptz => .timestamptzArray
  | .interval => .intervalArray
  | .jsonb => .jsonbArray
  | .uuid => .uuidArray
  | .inet => .inetArray
  | .text => .textArray
  | _ => .textArray

/-- Remove the span from the first `(` to the last `)`. -/
def stripTypeParams (normalized : Text) : Text :=
  match normalized.idxOf? '(', lastIdxOf? ')' normalized with
  | some opening, some closing =>
    if closing > opening then trim (normalized.take opening ++ normalized.drop (closing + 1)) else trim normalized
  | _, _ => trim normalized

/-- The base names `trino_type_to_pg` matches on, in its order. -/
def baseTypes : List (Text × PgType) :=
  [("boolean".toList, .bool), ("tinyint".toList, .int2), ("smallint".toList, .int2), ("integer".toList, .int4),
   ("bigint".toList, .int8), ("real".toList, .float4), ("double".toList, .float8), ("decimal".toList, .numeric),
   ("varchar".toList, .varchar), ("char".toList, .bpchar), ("varbinary".toList, .bytea), ("date".toList, .date),
   ("time".toList, .time), ("time with time zone".toList, .timetz), ("timestamp".toList, .timestamp),
   ("timestamp with time zone".toList, .timestamptz), ("interval".toList, .interval),
   ("interval year to month".toList, .interval), ("interval day to second".toList, .interval),
   ("json".toList, .jsonb), ("uuid".toList, .uuid), ("ipaddress".toList, .inet), ("map".toList, .jsonb),
   ("row".toList, .jsonb)]

def pgOfBase (base : Text) : PgType := ((baseTypes.find? (·.1 == base)).map (·.2)).getD .text

def arrayOpen : Text := "array(".toList

variable (U : UnicodeCase)

/-- What is between the brackets of an array type has an opening bracket less. -/
theorem inner_count_lt {s n : Text} (hn : LowersTo (trim s) n) (h : arrayOpen.isPrefixOf n = true) :
    ((n.drop 6).dropLast).count '(' < s.count '(' := by
  obtain ⟨r, rfl⟩ := List.isPrefixOf_iff_prefix.mp h
  have h1 : (arrayOpen ++ r).count '(' ≤ s.count '(' := by
    rw [hn.count_open]
    exact (trim_sublist s).count_le '('
  have h2 : (arrayOpen ++ r).count '(' = r.count '(' + 1 := by
    rw [List.count_append, Nat.add_comm]; rfl
  have h3 : (arrayOpen ++ r).drop 6 = r := rfl
  have h4 : r.dropLast.count '(' ≤ r.count '(' := (List.dropLast_sublist r).count_le '('
  rw [h3]; omega

def trinoTypeToPg (trinoType : Text) : PgType :=
  let normalized := toLowercase U (trim trinoType)
  if _array : arrayOpen.isPrefixOf normalized = true ∧ [')'].isSuffixOf normalized = true then
    scalarToArray (trinoTypeToPg ((normalized.drop 6).dropLast))
  else pgOfBase (stripTypeParams normalized)
termination_by trinoType.count '('
decreasing_by exact inner_count_lt (toLowercase_lowersTo U _) _array.1

/-! ## Trino's type expressions -/

/-- Neither a bracket nor white space. -/
def plain (c : Char) : Bool := c != '(' && c != ')' && !isWhitespace c

/-- One word of a type name. -/
structure Word where
  chars : Text
  nonempty : chars ≠ []
  plain : ∀ c ∈ chars, plain c = true

/-- The scalar types of the table. -/
inductive Scalar where
  | boolean | tinyint | smallint | integer | bigint | real | double | decimal | varchar | char | varbinary | date
  | time | timeWithTimeZone | timestamp | timestampWithTimeZone | interval | intervalYearToMonth
  | intervalDayToSecond | json | uuid | ipaddress
  deriving DecidableEq, Repr

/-- A scalar's first word and the words after its parameters. -/
def Scalar.words : Scalar → String × String
  | .boolean => ("boolean", "")
  | .tinyint => ("tinyint", "")
  | .smallint => ("smallint", "")
  | .integer => ("integer", "")
  | .bigint => ("bigint", "")
  | .real => ("real", "")
  | .double => ("double", "")
  | .decimal => ("decimal", "")
  | .varchar => ("varchar", "")
  | .char => ("char", "")
  | .varbinary => ("varbinary", "")
  | .date => ("date", "")
  | .time => ("time", "")
  | .timeWithTimeZone => ("time", " with time zone")
  | .timestamp => ("timestamp", "")
  | .timestampWithTimeZone => ("timestamp", " with time zone")
  | .interval => ("interval", "")
  | .intervalYearToMonth => ("interval", " year to month")
  | .intervalDayToSecond => ("interval", " day to second")
  | .json => ("json", "")
  | .uuid => ("uuid", "")
  | .ipaddress => ("ipaddress", "")

def Scalar.name (s : Scalar) : Text := s.words.1.toList ++ s.words.2.toList

def Scalar.image : Scalar → PgType
  | .boolean => .bool
  | .tinyint => .int2
  | .smallint => .int2
  | .integer => .int4
  | .bigint => .int8
  | .real => .float4
  | .double => .float8
  | .decimal => .numeric
  | .varchar => .varchar
  | .char => .bpchar
  | .varbinary => .bytea
  | .date => .date
  | .time => .time
  | .timeWithTimeZone => .timetz
  | .timestamp => .timestamp
  | .timestampWithTimeZone => .timestamptz
  | .interval => .interval
  | .intervalYearToMonth => .interval
  | .intervalDayToSecond => .interval
  | .json => .jsonb
  | .uuid => .uuid
  | .ipaddress => .inet

/-- The base names that mean something to the code. -/
def knownNames : List Text := "array".toList :: baseTypes.map (·.1)

/-- A type name outside the table: a first word, which parameters may follow, and the
    words after it. -/
structure OtherName where
  first : Word
  rest : List Word
  fresh : (first.chars ++ rest.flatMap fun w => ' ' :: w.chars).map Char.toLower ∉ knownNames

def OtherName.tail (n : OtherName) : Text := n.rest.flatMap fun w => ' ' :: w.chars

inductive TypeExpr where
  | scalar (s : Scalar) (params : Option (List Nat))
  | other (n : OtherName) (params : Option (List Nat))
  | generic (n : OtherName) (params : List TypeExpr)
  | array (elem : TypeExpr)
  | map (key value : TypeExpr)
  | row (fields : List (Text × TypeExpr))

/-- Numeric parameters, `(10,2)`. -/
def paramsText : Option (List Nat) → Text
  | none => []
  | some ns => '(' :: (List.intercalate [','] (ns.map (Nat.toDigits 10))) ++ [')']

mutual
/-- The text of a type. A field's name stands as the source of the row wrote it, quotes
    and brackets included. -/
def TypeExpr.text : TypeExpr → Text
  | .scalar s ps => s.words.1.toList ++ paramsText ps ++ s.words.2.toList
  | .other n ps => n.first.chars ++ paramsText ps ++ n.tail
  | .generic n ts => n.first.chars ++ ('(' :: textList ts ++ [')']) ++ n.tail
  | .array e => "array".toList ++ '(' :: e.text ++ [')']
  | .map k v => "map".toList ++ '(' :: (k.text ++ ", ".toList ++ v.text) ++ [')']
  | .row fs => "row".toList ++ '(' :: textFields fs ++ [')']
def textList : List TypeExpr → Text
  | [] => []
  | [t] => t.text
  | t :: ts => t.text ++ ", ".toList ++ textList ts
def textFields : List (Text × TypeExpr) → Text
  | [] => []
  | [(n, t)] => n ++ ' ' :: t.text
  | (n, t) :: fs => n ++ ' ' :: t.text ++ ", ".toList ++ textFields fs
end

/-- The structural map. -/
def TypeExpr.image : TypeExpr → PgType
  | .scalar s _ => s.image
  | .other _ _ => .text
  | .generic _ _ => .text
  | .array e => scalarToArray e.image
  | .map _ _ => .jsonb
  | .row _ => .jsonb

/-! ## Texts with the brackets of a type -/

def Bracketed (p : Text) : Prop := p = [] ∨ ∃ q, p = '(' :: q ++ [')']

def NoBracket (s : Text) : Prop := '(' ∉ s ∧ ')' ∉ s

/-- No letter case of `t` is a name of the table. -/
def Unknown (t : Text) : Prop := (∃ c ∈ t, isForeign c = true) ∨ t.map Char.toLower ∉ knownNames

/-- A type name cut where its parameters stand. -/
structure Name (f r : Text) : Prop where
  nonempty : f ≠ []
  plain : ∀ c ∈ f, plain c = true
  tail : NoBracket r
  last : ∀ c ∈ r.getLast?, isWhitespace c = false

/-- `s` is the text of the type up to letter case, and up to what stands between the
    brackets of anything but an array. -/
inductive Written : TypeExpr → Text → Prop
  | scalar (s : Scalar) (ps : Option (List Nat)) {f p r : Text} : CaseVariant f s.words.1.toList →
      CaseVariant r s.words.2.toList → Bracketed p → Written (.scalar s ps) (f ++ p ++ r)
  | other (n : OtherName) (ps : Option (List Nat)) {f p r : Text} : Name f r → Unknown (f ++ r) →
      Bracketed p → Written (.other n ps) (f ++ p ++ r)
  | generic (n : OtherName) (ts : List TypeExpr) {f p r : Text} : Name f r → Unknown (f ++ r) →
      Bracketed p → Written (.generic n ts) (f ++ p ++ r)
  | array (e : TypeExpr) {a t : Text} : CaseVariant a "array".toList → Written e t →
      Written (.array e) (a ++ '(' :: t ++ [')'])
  | map (k v : TypeExpr) {a q : Text} : CaseVariant a "map".toList → Written (.map k v) (a ++ '(' :: q ++ [')'])
  | row (fs : List (Text × TypeExpr)) {a q : Text} : CaseVariant a "row".toList →
      Written (.row fs) (a ++ '(' :: q ++ [')'])

theorem Bracketed.lower {p p' : Text} (h : Bracketed p) (hl : LowersTo p p') : Bracketed p' := by
  rcases h with rfl | ⟨q, rfl⟩
  · cases hl; exact Or.inl rfl
  · obtain ⟨a, q', rfl, ha, -⟩ := LowersTo.bracketed (a := []) hl
    cases ha
    exact Or.inr ⟨q', rfl⟩

theorem NoBracket.lower {s t : Text} (h : NoBracket s) (hl : LowersTo s t) : NoBracket t :=
  ⟨fun hm => h.1 (hl.bracket (Or.inl rfl) hm), fun hm => h.2 (hl.bracket (Or.inr rfl) hm)⟩

theorem noBracket_of_plain {s : Text} (h : ∀ c ∈ s, plain c = true) : NoBracket s :=
  ⟨fun hm => absurd (h _ hm) (by decide), fun hm => absurd (h _ hm) (by decide)⟩

theorem solid_of_plain {c : Char} (h : plain c = true) : isWhitespace c = false := by
  simp only [plain, Bool.and_eq_true, Bool.not_eq_true'] at h
  exact h.2

theorem Unknown.lower {s t : Text} (h : Unknown s) (hl : LowersTo s t) : Unknown t := by
  by_cases hf : ∃ c ∈ s, isForeign c = true
  · exact Or.inl (hl.foreign hf)
  · rcases h with h | h
    · exact absurd h hf
    · right
      rw [hl.ascii_eq (ascii_of_not_foreign hf), List.map_map]
      simpa [Function.comp_def] using h

theorem Name.lower {f r f' r' : Text} (h : Name f r) (hf : LowersTo f f') (hr : LowersTo r r') : Name f' r' := by
  have hsolid : ∀ c ∈ f', isWhitespace c = false := hf.solid fun c hc => solid_of_plain (h.plain c hc)
  have hbr : NoBracket f' := (noBracket_of_plain h.plain).lower hf
  refine ⟨hf.ne_nil h.nonempty, ?_, h.tail.lower hr, hr.last_solid h.last⟩
  intro c hc
  have h1 : c ≠ '(' := fun e => hbr.1 (e ▸ hc)
  have h2 : c ≠ ')' := fun e => hbr.2 (e ▸ hc)
  simp [Types.plain, h1, h2, hsolid c hc]

theorem words_ascii (s : Scalar) : s.words.1.toList.all isAscii = true ∧ s.words.2.toList.all isAscii = true := by
  cases s <;> decide

/-- Lower-casing a written text leaves a written text of the same type. -/
theorem Written.lower {T : TypeExpr} {s t : Text} (h : Written T s) (hl : LowersTo s t) : Written T t := by
  induction h generalizing t with
  | scalar s ps hf hr hp =>
    obtain ⟨tfp, tr, rfl, hfp, hlr⟩ := hl.append_inv
    obtain ⟨tf, tp, rfl, hlf, hlp⟩ := hfp.append_inv
    exact .scalar s ps (hf.lower (words_ascii s).1 hlf) (hr.lower (words_ascii s).2 hlr) (hp.lower hlp)
  | other n ps hn hu hp =>
    obtain ⟨tfp, tr, rfl, hfp, hlr⟩ := hl.append_inv
    obtain ⟨tf, tp, rfl, hlf, hlp⟩ := hfp.append_inv
    exact .other n ps (hn.lower hlf hlr) (hu.lower (hlf.append hlr)) (hp.lower hlp)
  | generic n ts hn hu hp =>
    obtain ⟨tfp, tr, rfl, hfp, hlr⟩ := hl.append_inv
    obtain ⟨tf, tp, rfl, hlf, hlp⟩ := hfp.append_inv
    exact .generic n ts (hn.lower hlf hlr) (hu.lower (hlf.append hlr)) (hp.lower hlp)
  | array e ha _ ih =>
    obtain ⟨ta, tq, rfl, hla, hlq⟩ := hl.bracketed
    exact .array e (ha.lower (by decide) hla) (ih hlq)
  | map k v ha =>
    obtain ⟨ta, tq, rfl, hla, hlq⟩ := hl.bracketed
    exact .map k v (ha.lower (by decide) hla)
  | row fs ha =>
    obtain ⟨ta, tq, rfl, hla, hlq⟩ := hl.bracketed
    exact .row fs (ha.lower (by decide) hla)

/-! ## What the code's cuts find -/

/-- Cutting from the first `(` to the last `)` takes out exactly the parameters. -/
theorem strip_written {f p r : Text} (hf : NoBracket f) (hp : Bracketed p) (hr : NoBracket r) :
    stripTypeParams (f ++ p ++ r) = trim (f ++ r) := by
  rcases hp with rfl | ⟨q, rfl⟩
  · have hopen : (f ++ [] ++ r).idxOf? '(' = none := by
      rw [List.idxOf?_eq_none_iff]
      simp [hf.1, hr.1]
    rw [stripTypeParams, hopen, List.append_nil]
  · have hopen : (f ++ ('(' :: q ++ [')']) ++ r).idxOf? '(' = some f.length := by
      have := idxOf?_append hf.1 (q ++ ')' :: r)
      simpa using this
    have hclose : lastIdxOf? ')' (f ++ ('(' :: q ++ [')']) ++ r) = some (f.length + q.length + 1) := by
      have := lastIdxOf?_append (f ++ '(' :: q) hr.2
      simpa [Nat.add_assoc] using this
    have htake : (f ++ ('(' :: q ++ [')']) ++ r).take f.length = f := by simp
    have hdrop : (f ++ ('(' :: q ++ [')']) ++ r).drop (f.length + q.length + 1 + 1) = r := by
      have e : f.length + q.length + 1 + 1 = (f ++ ('(' :: q ++ [')'])).length := by simp; omega
      rw [e, List.drop_left]
    simp only [stripTypeParams, hopen, hclose, htake, hdrop]
    rw [if_pos (by omega)]

theorem Name.solid {f p r : Text} (h : Name f r) (hp : Bracketed p) : Solid (f ++ p ++ r) := by
  have hf : ∀ c ∈ f, isWhitespace c = false := fun c hc => solid_of_plain (h.plain c hc)
  refine ⟨by simp [h.nonempty], ?_, ?_⟩
  · intro c hc
    obtain ⟨d, f', rfl⟩ := List.exists_cons_of_ne_nil h.nonempty
    exact hf c (by simp_all)
  · intro c hc
    by_cases hr : r = []
    · rcases hp with rfl | ⟨q, rfl⟩
      · exact hf c (List.mem_of_getLast? (by simpa [hr] using hc))
      · rw [hr, List.append_nil, ← List.append_assoc, List.getLast?_concat] at hc
        rw [← Option.some.inj hc]; decide
    · rw [List.getLast?_append_of_ne_nil _ hr] at hc
      exact h.last c hc

theorem strip_name {f p r : Text} (h : Name f r) (hp : Bracketed p) : stripTypeParams (f ++ p ++ r) = f ++ r := by
  rw [strip_written (noBracket_of_plain h.plain) hp h.tail]
  exact trim_solid (by simpa using h.solid (p := []) (Or.inl rfl))

/-- A name that starts like an array type and ends like one is `array`. -/
theorem name_of_array {f p r : Text} (h : Name f r) (hp : Bracketed p)
    (ho : arrayOpen.isPrefixOf (f ++ p ++ r) = true) (hc : [')'].isSuffixOf (f ++ p ++ r) = true) :
    f ++ r = "array".toList := by
  have hf := noBracket_of_plain h.plain
  obtain ⟨x, hx⟩ := List.isPrefixOf_iff_prefix.mp ho
  obtain ⟨y, hy⟩ := List.isSuffixOf_iff_suffix.mp hc
  have hr : r = [] := by
    rcases List.eq_nil_or_concat r with rfl | ⟨r0, d, rfl⟩
    · rfl
    · rw [List.concat_eq_append, ← List.append_assoc] at hy
      have hd : ')' = d := by simpa using (List.append_inj_right' hy rfl)
      exact absurd (by rw [← hd]; simp) h.tail.2
  subst hr
  rw [List.append_nil] at hx ⊢
  rcases hp with rfl | ⟨q, rfl⟩
  · have hopen : '(' ∈ arrayOpen ++ x := List.mem_append_left x (by decide)
    rw [hx, List.append_nil] at hopen
    exact absurd hopen hf.1
  · have h1 := idxOf?_append hf.1 (q ++ [')'])
    have h2 := idxOf?_append (c := '(') (a := "array".toList) (by decide) x
    have hl : f.length = ("array".toList).length := by
      have e : f ++ '(' :: (q ++ [')']) = "array".toList ++ '(' :: x := by rw [← List.cons_append, ← hx]; rfl
      rw [e, h2] at h1
      exact (Option.some.inj h1).symm
    exact (List.append_inj_left (hx.symm : f ++ _ = "array".toList ++ ('(' :: x)) hl)

/-- Of any text but an array's, the code looks the base name up. -/
theorem lookup_of_name {s f p r : Text} (hs : toLowercase U (trim s) = f ++ p ++ r) (h : Name f r) (hp : Bracketed p)
    (hne : f ++ r ≠ "array".toList) : trinoTypeToPg U s = pgOfBase (f ++ r) := by
  have hno : ¬ (arrayOpen.isPrefixOf (f ++ p ++ r) = true ∧ [')'].isSuffixOf (f ++ p ++ r) = true) :=
    fun ⟨ho, hc⟩ => hne (name_of_array h hp ho hc)
  rw [trinoTypeToPg, hs, dif_neg hno, strip_name h hp]

/-- Of an array's text, the code recurses on what is between the brackets. -/
theorem recurse_of_array {s t : Text} (hs : toLowercase U (trim s) = "array".toList ++ '(' :: t ++ [')']) :
    trinoTypeToPg U s = scalarToArray (trinoTypeToPg U t) := by
  have ho : arrayOpen.isPrefixOf ("array".toList ++ '(' :: t ++ [')']) = true :=
    List.isPrefixOf_iff_prefix.mpr ⟨t ++ [')'], rfl⟩
  have hc : [')'].isSuffixOf ("array".toList ++ '(' :: t ++ [')']) = true :=
    List.isSuffixOf_iff_suffix.mpr ⟨"array".toList ++ '(' :: t, rfl⟩
  have hi : (("array".toList ++ '(' :: t ++ [')']).drop 6).dropLast = t := by
    show (t ++ [')']).dropLast = t
    simp
  rw [trinoTypeToPg, hs, dif_pos ⟨ho, hc⟩, hi]

/-! ## The table -/

theorem pgOfBase_scalar (s : Scalar) : pgOfBase (s.name.map Char.toLower) = s.image := by
  cases s <;> decide

theorem scalar_ne_array (s : Scalar) : s.name.map Char.toLower ≠ "array".toList := by
  cases s <;> decide

theorem baseTypes_plain : ∀ e ∈ baseTypes, (∀ c ∈ e.1, isForeign c = false) ∧ e.1.map Char.toLower = e.1 := by
  have h : baseTypes.all (fun e => e.1.all (fun c => !isForeign c) && e.1.map Char.toLower == e.1) = true := by decide
  intro e he
  have := List.all_eq_true.mp h e he
  simpa using this

theorem pgOfBase_unknown {t : Text} (h : Unknown t) : pgOfBase t = .text := by
  have hno : baseTypes.find? (·.1 == t) = none := by
    rw [List.find?_eq_none]
    rintro e he heq
    obtain ⟨hplain, hlow⟩ := baseTypes_plain e he
    have heq' : e.1 = t := by simpa using heq
    rcases h with ⟨c, hc, hf⟩ | h
    · rw [hplain c (heq' ▸ hc)] at hf; cases hf
    · rw [← heq', hlow] at h
      exact h (List.mem_cons_of_mem _ (List.mem_map_of_mem he))
  simp [pgOfBase, hno]

theorem unknown_ne_array {t : Text} (h : Unknown t) : t ≠ "array".toList := by
  rintro rfl
  rcases h with ⟨c, hc, hf⟩ | h
  · have : ("array".toList.all fun c => !isForeign c) = true := by decide
    have hc' := List.all_eq_true.mp this c hc
    rw [hf] at hc'; cases hc'
  · exact h (by decide)

/-! ## The map on written texts -/

/-- A case variant of a name is a name. -/
theorem Name.variant {f r f' r' : Text} (h : Name f r) (hf : CaseVariant f' f) (hr : CaseVariant r' r) : Name f' r' := by
  refine ⟨hf.ne_nil h.nonempty, hf.forall_mem (by decide) h.plain, ?_, ?_⟩
  · have hb : ∀ c ∈ r', (c != '(' && c != ')') = true := by
      refine hr.forall_mem (by decide) fun c hc => ?_
      have h1 : c ≠ '(' := fun e => h.tail.1 (e ▸ hc)
      have h2 : c ≠ ')' := fun e => h.tail.2 (e ▸ hc)
      simp [h1, h2]
    exact ⟨fun hm => absurd (hb _ hm) (by decide), fun hm => absurd (hb _ hm) (by decide)⟩
  · have hl := hr.last (f := fun c => !isWhitespace c) (by decide) fun c hc => by simp [h.last c hc]
    intro c hc
    simpa using hl c hc

theorem isName_of_word {w : Text} (hne : w ≠ []) (h : w.all plain = true) : Name w [] :=
  ⟨hne, List.all_eq_true.mp h, ⟨by simp, by simp⟩, by simp⟩

theorem Scalar.isName (s : Scalar) : Name s.words.1.toList s.words.2.toList := by
  have h1 : s.words.1.toList.all plain = true := by cases s <;> decide
  have h2 : s.words.2.toList.all (fun c => c != '(' && c != ')') = true := by cases s <;> decide
  have h3 : (s.words.2.toList.getLast?.all fun c => !isWhitespace c) = true := by cases s <;> decide
  refine ⟨by cases s <;> decide, List.all_eq_true.mp h1, ?_, ?_⟩
  · constructor
    · intro hm; exact absurd (List.all_eq_true.mp h2 _ hm) (by decide)
    · intro hm; exact absurd (List.all_eq_true.mp h2 _ hm) (by decide)
  · intro c hc
    rw [Option.mem_def.mp hc] at h3
    simpa using h3

/-- Every written text starts and ends with a character of its own. -/
theorem Written.solid {T : TypeExpr} {s : Text} (h : Written T s) : Solid s := by
  have hbr : ∀ {a q w : Text}, CaseVariant a w → Name w [] → Solid (a ++ '(' :: q ++ [')']) := by
    intro a q w ha hw
    have := (hw.variant ha (rfl : CaseVariant [] [])).solid (p := '(' :: q ++ [')']) (Or.inr ⟨q, rfl⟩)
    simpa using this
  cases h with
  | scalar s ps hf hr hp => exact (s.isName.variant hf hr).solid hp
  | other n ps hn _ hp => exact hn.solid hp
  | generic n ts hn _ hp => exact hn.solid hp
  | array e ha _ => exact hbr ha (isName_of_word (by decide) (by decide))
  | map k v ha => exact hbr ha (isName_of_word (by decide) (by decide))
  | row fs ha => exact hbr ha (isName_of_word (by decide) (by decide))

/-- `map(..)` and `row(..)`, lower-cased: the name before the bracket decides. -/
theorem lookup_of_brackets {s a q w : Text} (hs : LowersTo (a ++ '(' :: q ++ [')']) (toLowercase U (trim s)))
    (ha : CaseVariant a w) (hw : w ≠ [] ∧ w.all isAscii = true ∧ (w.map Char.toLower).all plain = true)
    (hne : w.map Char.toLower ≠ "array".toList) : trinoTypeToPg U s = pgOfBase (w.map Char.toLower) := by
  obtain ⟨ta, tq, e, hla, -⟩ := hs.bracketed
  rw [hla.variant ha hw.2.1] at e
  have hn : Name (w.map Char.toLower) [] := isName_of_word (by simpa using hw.1) hw.2.2
  have hs' : toLowercase U (trim s) = w.map Char.toLower ++ ('(' :: tq ++ [')']) ++ [] := by simpa using e
  have := lookup_of_name U hs' hn (Or.inr ⟨tq, rfl⟩) (by simpa using hne)
  simpa using this

theorem written_image : ∀ (T : TypeExpr) {s : Text}, Written T s → trinoTypeToPg U s = T.image
  | T, s, h => by
    have hl : LowersTo s (toLowercase U (trim s)) := by
      have := toLowercase_lowersTo U (trim s)
      rwa [trim_solid h.solid] at this ⊢
    cases h with
    | scalar c ps hf hr hp =>
      obtain ⟨tfp, tr, e, hfp, hlr⟩ := hl.append_inv
      obtain ⟨tf, tp, rfl, hlf, hlp⟩ := hfp.append_inv
      have hn := (c.isName.variant hf hr).lower hlf hlr
      have hbase : tf ++ tr = c.name.map Char.toLower := by
        rw [hlf.variant hf (words_ascii c).1, hlr.variant hr (words_ascii c).2, Scalar.name, List.map_append]
      rw [lookup_of_name U e hn (hp.lower hlp) (hbase ▸ scalar_ne_array c), hbase, pgOfBase_scalar]
      rfl
    | other n ps hn hu hp =>
      obtain ⟨tfp, tr, e, hfp, hlr⟩ := hl.append_inv
      obtain ⟨tf, tp, rfl, hlf, hlp⟩ := hfp.append_inv
      have hu' := hu.lower (hlf.append hlr)
      rw [lookup_of_name U e (hn.lower hlf hlr) (hp.lower hlp) (unknown_ne_array hu'), pgOfBase_unknown hu']
      rfl
    | generic n ts hn hu hp =>
      obtain ⟨tfp, tr, e, hfp, hlr⟩ := hl.append_inv
      obtain ⟨tf, tp, rfl, hlf, hlp⟩ := hfp.append_inv
      have hu' := hu.lower (hlf.append hlr)
      rw [lookup_of_name U e (hn.lower hlf hlr) (hp.lower hlp) (unknown_ne_array hu'), pgOfBase_unknown hu']
      rfl
    | array t ha hw =>
      obtain ⟨ta, tq, e, hla, hlq⟩ := hl.bracketed
      have hta : ta = "array".toList := by rw [hla.variant ha (by decide)]; decide
      rw [hta] at e
      -- the recursion sees the inner text lower-cased once already
      rw [recurse_of_array U e, written_image t (hw.lower hlq)]
      rfl
    | map k v ha => rw [lookup_of_brackets U hl ha (by decide) (by decide)]; rfl
    | row fs ha => rw [lookup_of_brackets U hl ha (by decide) (by decide)]; rfl

/-! ## Every text of a type is written -/

theorem OtherName.isName (n : OtherName) : Name n.first.chars n.tail := by
  refine ⟨n.first.nonempty, n.first.plain, ?_, ?_⟩
  · have hm : ∀ c ∈ n.tail, c = ' ' ∨ plain c = true := by
      intro c hc
      obtain ⟨w, -, hc⟩ := List.mem_flatMap.mp hc
      rcases List.mem_cons.mp hc with rfl | hc
      · exact Or.inl rfl
      · exact Or.inr (w.plain c hc)
    constructor
    · intro h; rcases hm _ h with h | h <;> exact absurd h (by decide)
    · intro h; rcases hm _ h with h | h <;> exact absurd h (by decide)
  · intro c hc
    rcases List.eq_nil_or_concat n.rest with hr | ⟨ws, w, hr⟩
    · simp [OtherName.tail, hr] at hc
    · have hne : ' ' :: w.chars ≠ [] := by simp
      rw [OtherName.tail, hr, List.concat_eq_append, List.flatMap_append, List.flatMap_singleton,
        List.getLast?_append_of_ne_nil _ hne, List.getLast?_cons_of_ne_nil w.nonempty] at hc
      exact solid_of_plain (w.plain c (List.mem_of_getLast? hc))

theorem paramsText_bracketed (ps : Option (List Nat)) : Bracketed (paramsText ps) := by
  cases ps with
  | none => exact Or.inl rfl
  | some ns => exact Or.inr ⟨_, rfl⟩

theorem Bracketed.variant {p q : Text} (hq : Bracketed q) (h : CaseVariant p q) : Bracketed p := by
  rcases hq with rfl | ⟨q, rfl⟩
  · exact Or.inl (List.map_eq_nil_iff.mp h)
  · obtain ⟨sa, sq, rfl, ha, -⟩ := CaseVariant.bracketed (a := []) h
    rw [List.map_eq_nil_iff.mp ha]
    exact Or.inr ⟨sq, rfl⟩

/-- A variant of a name outside the table is outside the table. -/
theorem OtherName.unknown (n : OtherName) {f r : Text} (hf : CaseVariant f n.first.chars) (hr : CaseVariant r n.tail) :
    Unknown (f ++ r) := by
  right
  rw [List.map_append, hf, hr, ← List.map_append]
  exact n.fresh

theorem written_of_variant : ∀ (T : TypeExpr) {s : Text}, CaseVariant s T.text → Written T s
  | .scalar c ps, s, h => by
    change CaseVariant s (c.words.1.toList ++ paramsText ps ++ c.words.2.toList) at h
    obtain ⟨sfp, r, rfl, hfp, hr⟩ := h.append_inv
    obtain ⟨f, p, rfl, hf, hp⟩ := hfp.append_inv
    exact .scalar c ps hf hr ((paramsText_bracketed ps).variant hp)
  | .other n ps, s, h => by
    change CaseVariant s (n.first.chars ++ paramsText ps ++ n.tail) at h
    obtain ⟨sfp, r, rfl, hfp, hr⟩ := h.append_inv
    obtain ⟨f, p, rfl, hf, hp⟩ := hfp.append_inv
    exact .other n ps (n.isName.variant hf hr) (n.unknown hf hr) ((paramsText_bracketed ps).variant hp)
  | .generic n ts, s, h => by
    change CaseVariant s (n.first.chars ++ ('(' :: textList ts ++ [')']) ++ n.tail) at h
    obtain ⟨sfp, r, rfl, hfp, hr⟩ := h.append_inv
    obtain ⟨f, p, rfl, hf, hp⟩ := hfp.append_inv
    exact .generic n ts (n.isName.variant hf hr) (n.unknown hf hr) (Bracketed.variant (Or.inr ⟨_, rfl⟩) hp)
  | .array e, s, h => by
    change CaseVariant s ("array".toList ++ '(' :: e.text ++ [')']) at h
    obtain ⟨a, t, rfl, ha, ht⟩ := h.bracketed
    exact .array e ha (written_of_variant e ht)
  | .map k v, s, h => by
    change CaseVariant s ("map".toList ++ '(' :: (k.text ++ ", ".toList ++ v.text) ++ [')']) at h
    obtain ⟨a, t, rfl, ha, -⟩ := h.bracketed
    exact .map k v ha
  | .row fs, s, h => by
    change CaseVariant s ("row".toList ++ '(' :: textFields fs ++ [')']) at h
    obtain ⟨a, t, rfl, ha, -⟩ := h.bracketed
    exact .row fs ha

theorem trinoTypeToPg_variant (T : TypeExpr) {s : Text} (hs : CaseVariant s T.text) : trinoTypeToPg U s = T.image :=
  written_image U T (written_of_variant T hs)

theorem trinoTypeToPg_trim {w s w' : Text} (hw : Blank w) (hs : Solid s) (hw' : Blank w') :
    trinoTypeToPg U (w ++ s ++ w') = trinoTypeToPg U s := by
  conv_lhs => rw [trinoTypeToPg, trim_surrounded hw hs hw']
  conv_rhs => rw [trinoTypeToPg, trim_solid hs]

/-- Case maps that leave every character outside ASCII alone. -/
def asciiOnly : UnicodeCase where
  lower _ c _ := [c]
  upper c := [c]
  lower_bracket := by
    intro b c a hc
    constructor
    · intro h; rw [List.mem_singleton] at h; subst h; exact absurd hc (by decide)
    · intro h; rw [List.mem_singleton] at h; subst h; exact absurd hc (by decide)
  lower_solid := by
    intro b c a _ hs d hd
    rw [List.mem_singleton] at hd
    rwa [hd]
  lower_foreign := by
    intro b c a hc
    exact ⟨c, by simp, by simp [isForeign, hc]⟩

end TrinoGateway.Types
