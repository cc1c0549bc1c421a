/-
  TrinoGateway.Oids — what the OIDs of the catalog identify (`src/catalog/pg_class.rs`,
  `pg_attribute.rs`, `pg_type.rs`).

  A table's OID is a hash of its name: schema, separator and table are read as digits to
  base 33 in 32 bits (`tableOid_eq`), then reduced to the range of synthetic OIDs. Proved:
  `pg_class` tells its tables apart, and `pg_attribute` each column's table, exactly if no
  two names have the same code (`tables_identified_iff`). Names whose differing parts have
  the same value to base 33 always collide (`collide_of_part`); `ax` and `c6` are such parts,
  in any schema.

  In the 32 bits of the machine (`djb2Oid32`) only the hash itself wraps: `synthetic_oid_range`
  has the OID in the positive range of `int4`, the hash as the plain one of the bytes of the
  parts with 0xFF between them, and no two lists of parts with the same bytes.

  A type's OID is a constant. Every type the gateway announces is in its `pg_type`, arrays
  after their element type, but the array of `time with time zone` (`type_loaded_iff`).
-/

import TrinoGateway.Catalog
import TrinoGateway.Types.Integers

namespace TrinoGateway.Oids

open TrinoGateway.Lib
open TrinoGateway.Types
open TrinoGateway.Catalog

/-! ## The hash of a name -/

/-- The bytes of a text. -/
def utf8 (s : Text) : List ℕ := (s.flatMap String.utf8EncodeChar).map UInt8.toNat

/-- The bytes of a qualified name, as the hash reads them. -/
def nameBytes (name : Text × Text) : List ℕ := utf8 name.1 ++ 0xFF :: utf8 name.2

/-- The name as a number: 5381 and the bytes are its digits to base 33, the first one leading. -/
def nameCode (name : Text × Text) : ℕ := Nat.ofDigits 33 ((nameBytes name).reverse ++ [5381])

/-- Two names have the same code in 32 bits and the range of synthetic OIDs. -/
def Collide (a b : Text × Text) : Prop :=
  nameCode a % 2 ^ 32 % (2 ^ 31 - 1 - baseTableOid) = nameCode b % 2 ^ 32 % (2 ^ 31 - 1 - baseTableOid)

instance (a b : Text × Text) : Decidable (Collide a b) := inferInstanceAs (Decidable (_ = _))

theorem djb2Byte_eq (h b : ℕ) : djb2Byte h b = (b + 33 * h) % 2 ^ 32 := by
  unfold djb2Byte
  omega

/-- The loop of the hash, without the wrapping in between. -/
theorem foldl_djb2Byte {h : ℕ} (hh : h < 2 ^ 32) (bytes : List ℕ) :
    bytes.foldl djb2Byte h = Nat.ofDigits 33 (bytes.reverse ++ [h]) % 2 ^ 32 := by
  induction bytes using List.reverseRecOn with
  | nil => rw [List.foldl_nil, List.reverse_nil, List.nil_append, Nat.ofDigits_singleton, Nat.mod_eq_of_lt hh]
  | append_singleton bytes b ih =>
    rw [List.foldl_append, List.foldl_cons, List.foldl_nil, ih, djb2Byte_eq, List.reverse_append, List.reverse_singleton,
      List.append_assoc, List.singleton_append, Nat.ofDigits_cons]
    omega

theorem djb2Part_eq (h : ℕ) (part : Text) : djb2Part h part = (utf8 part).foldl djb2Byte h := by
  rw [djb2Part, utf8, List.foldl_map]

theorem djb2Hash_pair (schemaName tableName : Text) :
    djb2Hash [schemaName, tableName] = nameCode (schemaName, tableName) % 2 ^ 32 := by
  rw [nameCode, ← foldl_djb2Byte (by decide), nameBytes, List.foldl_append, List.foldl_cons]
  simp only [djb2Hash, List.foldl_cons, List.foldl_nil, djb2Part_eq]

theorem tableOid_eq (schemaName tableName : Text) :
    tableOid schemaName tableName =
      baseTableOid + nameCode (schemaName, tableName) % 2 ^ 32 % (2 ^ 31 - 1 - baseTableOid) := by
  rw [tableOid, djb2Oid, djb2Hash_pair]

theorem tableOid_eq_iff (a b : Text × Text) : tableOid a.1 a.2 = tableOid b.1 b.2 ↔ Collide a b := by
  rw [tableOid_eq, tableOid_eq, Nat.add_left_cancel_iff, Collide]

/-! ## The hash in 32 bits -/

/-- `h.wrapping_mul(33).wrapping_add(b)` -/
def djb2Byte32 (h b : UInt32) : UInt32 := h * 33 + b

def djb2Part32 (h : UInt32) (part : Text) : UInt32 :=
  (part.flatMap String.utf8EncodeChar).foldl (fun h b => djb2Byte32 h b.toUInt32) h

def djb2Hash32 : List Text → UInt32
  | [] => 5381
  | part :: parts => parts.foldl (fun h part => djb2Part32 (djb2Byte32 h 0xFF) part) (djb2Part32 5381 part)

/-- `base + (h % (i32::MAX as u32 - base))`, where an overflow of either would wrap. -/
def djb2Oid32 (parts : List Text) (base : UInt32) : UInt32 := base + djb2Hash32 parts % (0x7FFFFFFF - base)

/-- The bytes the hash reads: those of the parts, with 0xFF between them. -/
def hashedBytes (parts : List Text) : List ℕ := [0xFF].intercalate (parts.map utf8)

/-- The plain hash: times 33, plus the byte. -/
def djb2 (bytes : List ℕ) : ℕ := bytes.foldl (fun h b => (33 * h + b) % 2 ^ 32) 5381

theorem djb2Byte32_toNat (h b : UInt32) : (djb2Byte32 h b).toNat = djb2Byte h.toNat b.toNat := by
  rw [djb2Byte32, UInt32.toNat_add, UInt32.toNat_mul, djb2Byte]
  rfl

theorem djb2Part32_toNat (h : UInt32) (part : Text) : (djb2Part32 h part).toNat = djb2Part h.toNat part := by
  unfold djb2Part32 djb2Part
  generalize part.flatMap String.utf8EncodeChar = bytes
  induction bytes generalizing h with
  | nil => rfl
  | cons b bytes ih => rw [List.foldl_cons, List.foldl_cons, ih, djb2Byte32_toNat, UInt8.toNat_toUInt32]

theorem djb2Hash32_toNat (parts : List Text) : (djb2Hash32 parts).toNat = djb2Hash parts := by
  cases parts with
  | nil => rfl
  | cons part parts =>
    have hloop : ∀ h : UInt32, (parts.foldl (fun h part => djb2Part32 (djb2Byte32 h 0xFF) part) h).toNat =
        parts.foldl (fun h part => djb2Part (djb2Byte h 0xFF) part) h.toNat := by
      induction parts with
      | nil => exact fun h => rfl
      | cons part parts ih =>
        intro h
        rw [List.foldl_cons, List.foldl_cons, ih, djb2Part32_toNat, djb2Byte32_toNat]
        rfl
    rw [djb2Hash32, djb2Hash, hloop, djb2Part32_toNat]
    rfl

/-- Nothing wraps after the hash. -/
theorem djb2Oid32_toNat (parts : List Text) {base : UInt32} (hbase : base.toNat < 2 ^ 31 - 1) :
    (djb2Oid32 parts base).toNat = djb2Oid parts base.toNat ∧ base.toNat ≤ djb2Oid parts base.toNat ∧
      djb2Oid parts base.toNat < 2 ^ 31 - 1 := by
  have hle : base ≤ 0x7FFFFFFF := by
    rw [UInt32.le_iff_toNat_le]
    exact hbase.le
  have hsub : (0x7FFFFFFF - base).toNat = 2 ^ 31 - 1 - base.toNat := UInt32.toNat_sub_of_le _ _ hle
  have hlt : djb2Hash parts % (2 ^ 31 - 1 - base.toNat) < 2 ^ 31 - 1 - base.toNat := Nat.mod_lt _ (by omega)
  rw [djb2Oid32, UInt32.toNat_add, UInt32.toNat_mod, djb2Hash32_toNat, hsub, djb2Oid]
  omega

theorem djb2_append (a b : List ℕ) : djb2 (a ++ b) = b.foldl (fun h b => (33 * h + b) % 2 ^ 32) (djb2 a) := by
  rw [djb2, List.foldl_append, ← djb2]

theorem djb2Byte_plain : djb2Byte = fun h b => (33 * h + b) % 2 ^ 32 := by
  funext h b
  unfold djb2Byte
  omega

/-- One more part at the end. -/
theorem hashedBytes_concat {parts : List Text} (hne : parts ≠ []) (part : Text) :
    hashedBytes (parts ++ [part]) = hashedBytes parts ++ 0xFF :: utf8 part := by
  unfold hashedBytes
  induction parts with
  | nil => exact absurd rfl hne
  | cons first parts ih =>
    cases parts with
    | nil => simp [List.intercalate]
    | cons second parts =>
      have hrest := ih (List.cons_ne_nil second parts)
      simp only [List.cons_append, List.map_cons] at hrest ⊢
      rw [List.intercalate_cons_cons, hrest, List.intercalate_cons_cons]
      simp only [List.append_assoc]

theorem djb2Hash_concat (first : Text) (parts : List Text) (part : Text) :
    djb2Hash (first :: parts ++ [part]) = djb2Part (djb2Byte (djb2Hash (first :: parts)) 0xFF) part := by
  show List.foldl _ _ (parts ++ [part]) = _
  rw [List.foldl_append, List.foldl_cons, List.foldl_nil]
  rfl

theorem djb2Hash_eq (parts : List Text) : djb2Hash parts = djb2 (hashedBytes parts) := by
  induction parts using List.reverseRecOn with
  | nil => rfl
  | append_singleton parts part ih =>
    cases parts with
    | nil =>
      rw [hashedBytes, List.nil_append, List.map_singleton, List.intercalate_singleton]
      show djb2Part 5381 part = _
      rw [djb2Part_eq, djb2Byte_plain, djb2]
    | cons first parts =>
      rw [djb2Hash_concat, ih, djb2Part_eq, djb2Byte_plain, hashedBytes_concat (List.cons_ne_nil _ _), djb2_append,
        List.foldl_cons]

/-- UTF-8 has no byte 0xFF. -/
theorem utf8_ne_separator {s : Text} {b : ℕ} (h : b ∈ utf8 s) : b ≠ 0xFF := by
  obtain ⟨byte, hbyte, rfl⟩ := List.mem_map.mp h
  obtain ⟨c, -, hc⟩ := List.mem_flatMap.mp hbyte
  unfold String.utf8EncodeChar at hc
  simp only at hc
  split_ifs at hc <;> simp only [List.mem_cons, List.not_mem_nil, or_false] at hc
  · rw [hc, UInt8.toNat_ofNat']
    omega
  · rcases hc with rfl | rfl <;> rw [UInt8.toNat_ofNat'] <;> omega
  · rcases hc with rfl | rfl | rfl <;> rw [UInt8.toNat_ofNat'] <;> omega
  · rcases hc with rfl | rfl | rfl | rfl <;> rw [UInt8.toNat_ofNat'] <;> omega

theorem utf8_injective : Function.Injective utf8 := by
  intro s t h
  have hbytes : s.flatMap String.utf8EncodeChar = t.flatMap String.utf8EncodeChar :=
    List.map_injective_iff.mpr (fun a b => UInt8.toNat_inj.mp) h
  have harray : s.utf8Encode = t.utf8Encode := congrArg List.toByteArray hbytes
  rw [← String.toByteArray_ofList, ← String.toByteArray_ofList, String.toByteArray_inj] at harray
  exact String.ofList_inj.mp harray

theorem hashedBytes_injOn : Set.InjOn hashedBytes {parts | parts ≠ []} := by
  have hsplit : ∀ parts : List Text, parts ≠ [] → List.splitOn 0xFF (hashedBytes parts) = parts.map utf8 := by
    intro parts hne
    refine List.splitOn_intercalate 0xFF ?_ (by simpa using hne)
    intro l hl hmem
    obtain ⟨part, -, rfl⟩ := List.mem_map.mp hl
    exact utf8_ne_separator hmem rfl
  intro parts hparts others hothers h
  have hmap := (hsplit parts hparts).symm.trans ((congrArg (List.splitOn 0xFF) h).trans (hsplit others hothers))
  exact List.map_injective_iff.mpr utf8_injective hmap

theorem synthetic_oid_range (parts : List Text) :
    (∀ base ∈ [baseTableOid, baseNamespaceOid], (djb2Oid32 parts (.ofNat base)).toNat = djb2Oid parts base ∧
      base ≤ djb2Oid parts base ∧ djb2Oid parts base < 2 ^ 31 - 1) ∧
    (djb2Hash32 parts).toNat = djb2 (hashedBytes parts) ∧ Set.InjOn hashedBytes {parts | parts ≠ []} := by
  refine ⟨?_, by rw [djb2Hash32_toNat, djb2Hash_eq], hashedBytes_injOn⟩
  intro base hbase
  have hbase : (UInt32.ofNat base).toNat = base ∧ base < 2 ^ 31 - 1 := by
    rcases List.mem_pair.mp hbase with rfl | rfl <;> decide
  have hoid := djb2Oid32_toNat parts (hbase.1.symm ▸ hbase.2 : (UInt32.ofNat base).toNat < 2 ^ 31 - 1)
  rwa [hbase.1] at hoid

theorem utf8_append (s t : Text) : utf8 (s ++ t) = utf8 s ++ utf8 t := by
  rw [utf8, List.flatMap_append, List.map_append, utf8, utf8]

/-- Two parts with as many bytes and the same value to base 33 are alike to the hash, wherever they stand. -/
theorem collide_of_part (part part' : Text) (hlen : (utf8 part).length = (utf8 part').length)
    (hvalue : Nat.ofDigits 33 (utf8 part).reverse = Nat.ofDigits 33 (utf8 part').reverse) (schema before after : Text) :
    Collide (schema, before ++ part ++ after) (schema, before ++ part' ++ after) := by
  have hcode : nameCode (schema, before ++ part ++ after) = nameCode (schema, before ++ part' ++ after) := by
    simp only [nameCode, nameBytes, utf8_append, List.reverse_append, List.reverse_cons, List.append_assoc,
      Nat.ofDigits_append, hvalue, List.length_reverse, hlen]
  rw [Collide, hcode]

/-! ## Tables and their columns -/

/-- The rows of a static result. -/
def rowsOf : PgWireResult (List Response) → List DataRow
  | .ok [.query _ (.static rows)] => rows
  | _ => []

/-- One column of a static result. -/
def columnOf (i : ℕ) (result : PgWireResult (List Response)) : List (Option Payload) := (rowsOf result).map (·[i]?)

theorem columnOf_buildResponse (i : ℕ) (schema : Schema) (rows : List (List (Option Text))) :
    columnOf i (buildResponse schema rows) = rows.map fun row => row[i]?.map optionText := by
  show (rows.map (·.map optionText)).map (·[i]?) = _
  rw [List.map_map]
  apply List.map_congr_left
  intro row _
  exact List.getElem?_map

/-- The schema and table of a row of `information_schema`, as both responders read them. -/
def nameOf (values : List Value) : Text × Text := (jsonStr values 0 "public", jsonStr values 1 "")

def oidText (oid : ℕ) : Option Payload := some (.text (natText oid))

theorem oidText_inj {m n : ℕ} : oidText m = oidText n ↔ m = n := by
  constructor
  · intro h
    have htext : natText m = natText n := by simpa [oidText] using h
    have hread := congrArg readNat htext
    rwa [readNat_natText, readNat_natText, Option.some.injEq] at hread
  · intro h
    rw [h]

variable (X : Crates)

def tableOids (tables : List (List Value)) : List (Option Payload) := columnOf 0 (respondPgClass X (.ok tables))

def columnTables (columns : List (List Value)) : List (Option Payload) := columnOf 0 (respondPgAttribute X (.ok columns))

theorem tableOids_eq (tables : List (List Value)) :
    tableOids X tables = tables.map fun table => oidText (tableOid (nameOf table).1 (nameOf table).2) := by
  rw [tableOids, respondPgClass, columnOf_buildResponse, List.map_map]
  rfl

theorem columnTables_eq (columns : List (List Value)) :
    columnTables X columns = columns.map fun column => oidText (tableOid (nameOf column).1 (nameOf column).2) := by
  rw [columnTables, respondPgAttribute, columnOf_buildResponse, List.map_map]
  rfl

/-- `pg_class` gives each table an OID of its own, and the one row that carries a column's `attrelid`
    is that of the column's table. -/
structure Identified (tables columns : List (List Value)) : Prop where
  distinct : (tableOids X tables).Nodup
  own : ∀ (j : ℕ) (column : List Value), columns[j]? = some column →
    ∃ i : ℕ, (∀ k : ℕ, (tableOids X tables)[k]? = (columnTables X columns)[j]? ↔ k = i) ∧
      (tables[i]?).map nameOf = some (nameOf column)

theorem oids_distinct_iff {tables : List (List Value)} (hdistinct : (tables.map nameOf).Nodup) :
    (tableOids X tables).Nodup ↔
      ∀ a ∈ tables.map nameOf, ∀ b ∈ tables.map nameOf, Collide a b → a = b := by
  have hoids : tableOids X tables = (tables.map nameOf).map fun name => oidText (tableOid name.1 name.2) := by
    rw [tableOids_eq, List.map_map]
    rfl
  rw [hoids, List.nodup_map_iff_inj_on hdistinct]
  simp only [oidText_inj, tableOid_eq_iff]

theorem own_row {tables columns : List (List Value)} (hnodup : (tableOids X tables).Nodup) {j : ℕ} {column : List Value}
    (hj : columns[j]? = some column) (hmem : nameOf column ∈ tables.map nameOf) :
    ∃ i : ℕ, (∀ k : ℕ, (tableOids X tables)[k]? = (columnTables X columns)[j]? ↔ k = i) ∧
      (tables[i]?).map nameOf = some (nameOf column) := by
  obtain ⟨table, htable, hname⟩ := List.mem_map.mp hmem
  obtain ⟨i, hi⟩ := List.mem_iff_getElem?.mp htable
  have hrow : (tableOids X tables)[i]? = (columnTables X columns)[j]? := by
    rw [tableOids_eq, columnTables_eq, List.getElem?_map, List.getElem?_map, hi, hj, Option.map_some, Option.map_some, hname]
  refine ⟨i, ?_, ?_⟩
  · intro k
    constructor
    · intro hk
      have hlt : i < (tableOids X tables).length := by
        rw [tableOids_eq, List.length_map]
        exact (List.getElem?_eq_some_iff.mp hi).1
      exact ((List.getElem?_inj hlt hnodup).mp (hrow.trans hk.symm)).symm
    · rintro rfl
      exact hrow
  · rw [hi, Option.map_some, hname]

theorem tables_identified_iff {tables columns : List (List Value)} (hdistinct : (tables.map nameOf).Nodup)
    (hcolumns : ∀ column ∈ columns, nameOf column ∈ tables.map nameOf) :
    Identified X tables columns ↔ ∀ a ∈ tables.map nameOf, ∀ b ∈ tables.map nameOf, Collide a b → a = b := by
  constructor
  · intro h
    exact (oids_distinct_iff X hdistinct).mp h.distinct
  · intro h
    have hnodup := (oids_distinct_iff X hdistinct).mpr h
    refine ⟨hnodup, ?_⟩
    intro j column hj
    exact own_row X hnodup hj (hcolumns column (List.mem_of_getElem? hj))

def infoRow (cells : List String) : List Value := cells.map fun cell => .string cell.toList

def usersAndOrders : List (List Value) :=
  [infoRow ["public", "users", "BASE TABLE"], infoRow ["public", "orders", "BASE TABLE"], infoRow ["sales", "users", "VIEW"]]

def usersId : List (List Value) := [infoRow ["sales", "users", "id", "1", "NO", "bigint"]]

theorem usersAndOrders_identified : Identified plainCrates usersAndOrders usersId :=
  (tables_identified_iff plainCrates (by decide +kernel) (by decide +kernel)).mpr (by decide +kernel)

def axAndC6 : List (List Value) := [infoRow ["tpch", "ax", "BASE TABLE"], infoRow ["tpch", "c6", "BASE TABLE"]]

def axId : List (List Value) := [infoRow ["tpch", "ax", "id", "1", "NO", "bigint"]]

theorem collide_ax_c6 (schema : Text) : Collide (schema, "ax".toList) (schema, "c6".toList) :=
  collide_of_part "ax".toList "c6".toList (by decide) (by decide) schema [] []

/-- Two tables of one schema with one OID; the column of the first has the second's row for a match as well. -/
theorem ax_shares_oid :
    (axAndC6.map nameOf).Nodup ∧ (∀ column ∈ axId, nameOf column ∈ axAndC6.map nameOf) ∧
    ¬(tableOids plainCrates axAndC6).Nodup ∧
    (tableOids plainCrates axAndC6)[0]? = (columnTables plainCrates axId)[0]? ∧
    (tableOids plainCrates axAndC6)[1]? = (columnTables plainCrates axId)[0]? := by
  have hdistinct : (axAndC6.map nameOf).Nodup := by decide +kernel
  have hoids : tableOids plainCrates axAndC6 = [oidText (tableOid "tpch".toList "ax".toList),
      oidText (tableOid "tpch".toList "ax".toList)] := by
    rw [tableOids_eq]
    have hsame := (tableOid_eq_iff _ _).mpr (collide_ax_c6 "tpch".toList)
    show [oidText (tableOid "tpch".toList "ax".toList), oidText (tableOid "tpch".toList "c6".toList)] = _
    rw [hsame]
  have hcolumn : columnTables plainCrates axId = [oidText (tableOid "tpch".toList "ax".toList)] := by
    rw [columnTables_eq]
    rfl
  refine ⟨hdistinct, by decide +kernel, ?_, ?_, ?_⟩
  · rw [hoids]
    simp
  · rw [hoids, hcolumn]
    rfl
  · rw [hoids, hcolumn]
    rfl

/-! ## Types and their elements -/

/-- The types that `scalar_to_array` has a line for. -/
def scalarTypes : List PgType :=
  [.bool, .int2, .int4, .int8, .float4, .float8, .numeric, .varchar, .bpchar, .bytea, .date, .time, .timetz, .timestamp,
   .timestamptz, .interval, .jsonb, .uuid, .inet, .text]

/-- The element type of an array type: the inverse of `scalar_to_array`. -/
def elementType (ty : PgType) : Option PgType := scalarTypes.find? fun element => scalarToArray element == ty

def typeOids : List (Option Payload) := columnOf 2 respondTypeLoading

def elementOids : List (Option Payload) := columnOf 6 respondTypeLoading

/-- The type is in `pg_type`, and if it is an array, with its element type, which stands before it. -/
structure Loaded (ty : PgType) : Prop where
  present : oidText (pgTypeOid ty) ∈ typeOids
  element : ∀ e ∈ elementType ty, ∀ i < typeOids.length, typeOids[i]? = some (oidText (pgTypeOid ty)) →
    elementOids[i]? = some (oidText (pgTypeOid e)) ∧ oidText (pgTypeOid e) ∈ typeOids.take i

instance (ty : PgType) : Decidable (Loaded ty) :=
  decidable_of_iff (oidText (pgTypeOid ty) ∈ typeOids ∧ ∀ e ∈ elementType ty, ∀ i < typeOids.length,
      typeOids[i]? = some (oidText (pgTypeOid ty)) →
      elementOids[i]? = some (oidText (pgTypeOid e)) ∧ oidText (pgTypeOid e) ∈ typeOids.take i)
    ⟨fun h => ⟨h.1, h.2⟩, fun h => ⟨h.present, h.element⟩⟩

theorem loaded_iff {ty : PgType} (hname : ty ≠ .name) : Loaded ty ↔ ty ≠ .timetzArray := by
  cases ty with
  | name => exact absurd rfl hname
  | _ => decide +kernel

theorem pgOfBase_cases (base : Text) : pgOfBase base = .text ∨ (base, pgOfBase base) ∈ baseTypes := by
  unfold pgOfBase
  cases h : baseTypes.find? (·.1 == base) with
  | none => exact Or.inl rfl
  | some entry =>
    have hkey : entry.1 = base := by simpa using List.find?_some h
    right
    rw [← hkey]
    exact List.mem_of_find?_eq_some h

theorem pgOfBase_scalarTypes (base : Text) : pgOfBase base ∈ scalarTypes := by
  have htable : ∀ entry ∈ baseTypes, entry.2 ∈ scalarTypes := by decide
  rcases pgOfBase_cases base with h | h
  · rw [h]
    decide
  · exact htable _ h

theorem pgOfBase_timetz {base : Text} (h : pgOfBase base = .timetz) : base = "time with time zone".toList := by
  have htable : ∀ entry ∈ baseTypes, entry.2 = .timetz → entry.1 = "time with time zone".toList := by decide
  rcases pgOfBase_cases base with htext | hmem
  · rw [h] at htext
    cases htext
  · exact htable _ hmem h

variable (U : UnicodeCase)

/-- The text is an array's, with `inner` between the brackets. -/
def ArrayOf (s inner : Text) : Prop := toLowercase U (trim s) = "array".toList ++ '(' :: inner ++ [')']

/-- The two ways of the type map: into the brackets of an array, or to the table of base names. -/
theorem trinoTypeToPg_cases (s : Text) :
    (∃ inner, ArrayOf U s inner ∧ trinoTypeToPg U s = scalarToArray (trinoTypeToPg U inner)) ∨
    ((∀ inner, ¬ArrayOf U s inner) ∧ trinoTypeToPg U s = pgOfBase (stripTypeParams (toLowercase U (trim s)))) := by
  by_cases harray : ∃ inner, ArrayOf U s inner
  · obtain ⟨inner, hinner⟩ := harray
    exact Or.inl ⟨inner, hinner, recurse_of_array U hinner⟩
  · refine Or.inr ⟨not_exists.mp harray, ?_⟩
    rw [trinoTypeToPg, dif_neg]
    rintro ⟨ho, hc⟩
    obtain ⟨rest, hrest⟩ := List.isPrefixOf_iff_prefix.mp ho
    obtain ⟨front, hfront⟩ := List.isSuffixOf_iff_suffix.mp hc
    -- The bracket at the end is not part of `array(`, so it ends what follows.
    rcases List.eq_nil_or_concat rest with rfl | ⟨inner, c, rfl⟩
    · rw [← hrest] at hfront
      have hlast := congrArg List.getLast? hfront
      rw [List.getLast?_concat] at hlast
      exact absurd hlast (by decide)
    · rw [List.concat_eq_append, ← List.append_assoc] at hrest
      have hlast := congrArg List.getLast? (hfront.trans hrest.symm)
      rw [List.getLast?_concat, List.getLast?_concat, Option.some.injEq] at hlast
      exact harray ⟨inner, by rw [ArrayOf, ← hrest, ← hlast]; rfl⟩

theorem trinoTypeToPg_ne_name (s : Text) : trinoTypeToPg U s ≠ .name := by
  have harrays : ∀ ty, scalarToArray ty ≠ .name := by
    intro ty
    cases ty <;> decide
  rcases trinoTypeToPg_cases U s with ⟨inner, -, h⟩ | ⟨-, h⟩
  · rw [h]
    exact harrays _
  · intro hname
    have hmem := pgOfBase_scalarTypes (stripTypeParams (toLowercase U (trim s)))
    rw [← h, hname] at hmem
    exact absurd hmem (by decide)

theorem stripTypeParams_of_array {s inner : Text} (h : ArrayOf U s inner) :
    stripTypeParams (toLowercase U (trim s)) = "array".toList := by
  have hname : Name "array".toList [] := isName_of_word (by decide) (by decide)
  have hstrip := strip_name hname (p := '(' :: inner ++ [')']) (Or.inr ⟨inner, rfl⟩)
  rw [List.append_nil, List.append_nil] at hstrip
  rw [h, List.append_assoc]
  exact hstrip

theorem trinoTypeToPg_timetz (s : Text) :
    trinoTypeToPg U s = .timetz ↔ stripTypeParams (toLowercase U (trim s)) = "time with time zone".toList := by
  have harrays : ∀ ty, scalarToArray ty ≠ .timetz := by
    intro ty
    cases ty <;> decide
  rcases trinoTypeToPg_cases U s with ⟨inner, hinner, h⟩ | ⟨-, h⟩
  · rw [h, stripTypeParams_of_array U hinner]
    constructor
    · intro htimetz
      exact absurd htimetz (harrays _)
    · intro hname
      exact absurd hname (by decide)
  · rw [h]
    constructor
    · exact pgOfBase_timetz
    · intro hname
      rw [hname]
      decide

theorem trinoTypeToPg_timetzArray (s : Text) :
    trinoTypeToPg U s = .timetzArray ↔ ∃ inner, ArrayOf U s inner ∧ trinoTypeToPg U inner = .timetz := by
  have harray : ∀ ty, scalarToArray ty = .timetzArray ↔ ty = .timetz := by
    intro ty
    cases ty <;> decide
  constructor
  · intro hs
    rcases trinoTypeToPg_cases U s with ⟨inner, hinner, h⟩ | ⟨-, h⟩
    · exact ⟨inner, hinner, (harray _).mp (h ▸ hs)⟩
    · have hmem := pgOfBase_scalarTypes (stripTypeParams (toLowercase U (trim s)))
      rw [← h, hs] at hmem
      exact absurd hmem (by decide)
  · rintro ⟨inner, hinner, htimetz⟩
    rw [recurse_of_array U hinner, htimetz]
    rfl

theorem type_loaded_iff (s : Text) :
    Loaded (trinoTypeToPg U s) ↔
      ¬∃ inner, ArrayOf U s inner ∧ stripTypeParams (toLowercase U (trim inner)) = "time with time zone".toList := by
  rw [loaded_iff (trinoTypeToPg_ne_name U s), ne_eq, trinoTypeToPg_timetzArray]
  simp only [trinoTypeToPg_timetz]

/-- A type of Trino whose OID `pg_type` does not list. -/
theorem timetz_array_not_loaded :
    trinoTypeToPg asciiOnly "array(time(3) with time zone)".toList = .timetzArray ∧
    oidText (pgTypeOid .timetzArray) ∉ typeOids := by
  refine ⟨?_, by decide +kernel⟩
  rw [trinoTypeToPg_timetzArray]
  refine ⟨"time(3) with time zone".toList, ?_, ?_⟩
  · unfold ArrayOf
    decide +kernel
  · rw [trinoTypeToPg_timetz]
    decide +kernel

end TrinoGateway.Oids
