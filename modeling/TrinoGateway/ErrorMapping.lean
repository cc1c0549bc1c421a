/-
  TrinoGateway.ErrorMapping — how a message of Trino becomes an error of PostgreSQL
  (`src/error_mapping.rs`): the SQLSTATE is chosen by keywords of the whole message, and
  what the client sees is the message without stack trace, without Java class names, with
  the hosts of URLs masked, and cut to 512 bytes.
-/

import TrinoGateway.Pgwire

namespace TrinoGateway.ErrorMapping

open TrinoGateway.Lib

def maxClientErrorLen : ℕ := 512

/-- Trino reports syntax errors as `line <N>:<N>: ...`. -/
def isSyntaxPosition (upper : Text) : Bool :=
  "LINE ".toList.isPrefixOf upper &&
    match upper.idxOf? ':' with
    | some first => (upper.drop (first + 1)).contains ':'
    | none => false

def sqlstate (upper : Text) : String :=
  if contains upper "SYNTAX_ERROR".toList || isSyntaxPosition upper then "42601"
  else if contains upper "TABLE_NOT_FOUND".toList || contains upper "DOES NOT EXIST".toList then "42P01"
  else if contains upper "COLUMN_NOT_FOUND".toList || contains upper "CANNOT BE RESOLVED".toList then "42703"
  else if contains upper "TYPE_MISMATCH".toList then "42846"
  else if contains upper "PERMISSION_DENIED".toList || contains upper "ACCESS DENIED".toList then "42501"
  else if contains upper "DIVISION_BY_ZERO".toList then "22012"
  else "42000"

/-! ## What the client sees -/

/-- The packages a Java class name starts with. -/
def javaPackages : List Text := ["io.".toList, "com.".toList, "java.".toList, "org.".toList]

def stripJavaExceptionPrefix (s : Text) : Text :=
  match find? ": ".toList s with
  | none => s
  | some colon =>
    let cls := s.take colon
    let looksLikePackage := javaPackages.any (·.isPrefixOf cls)
    let looksLikeException := "Exception".toList.isSuffixOf cls || "Error".toList.isSuffixOf cls
    if looksLikePackage && looksLikeException then trimStart (s.drop (colon + 2)) else s

/-- The loop ends when the slice stays where it is; a slice that moved is shorter. -/
def stripJavaExceptionPrefixes (s : Text) : Text :=
  let next := stripJavaExceptionPrefix s
  if _moved : next.length < s.length then stripJavaExceptionPrefixes next else s
termination_by s.length

/-- Where the host of a URL ends. -/
def endsHost (c : Char) : Bool := c == '/' || c == ')' || c == ',' || isWhitespace c

/-- The first scheme that occurs, in the order of the table, with where it starts. -/
def findScheme (rest : Text) : Option (Text × ℕ) :=
  ["https://".toList, "http://".toList].findSome? fun scheme => (find? scheme rest).map fun idx => (scheme, idx)

/-- What is left of `rest` after the host of the URL whose scheme starts at `idx`. -/
def afterHost (rest scheme : Text) (idx : ℕ) : Text := (rest.drop (idx + scheme.length)).dropWhile (!endsHost ·)

theorem findScheme_some {rest scheme : Text} {idx : ℕ} (h : findScheme rest = some (scheme, idx)) :
    scheme ≠ [] ∧ find? scheme rest = some idx := by
  simp only [findScheme, List.findSome?_eq_some_iff, Option.map_eq_some_iff, Prod.mk.injEq] at h
  obtain ⟨l, s, r, hl, ⟨i, hi, rfl, rfl⟩, -⟩ := h
  have hs : s ∈ ["https://".toList, "http://".toList] := by rw [hl]; simp
  refine ⟨?_, hi⟩
  rcases List.mem_pair.mp hs with rfl | rfl <;> decide

theorem afterHost_length {rest scheme : Text} {idx : ℕ} (hne : scheme ≠ []) (h : find? scheme rest = some idx) :
    (afterHost rest scheme idx).length < rest.length := by
  have hle := (List.dropWhile_sublist (!endsHost ·) (l := rest.drop (idx + scheme.length))).length_le
  have hrest := congrArg List.length (find?_occurs h).1
  have hpos := List.length_pos_iff.mpr hne
  simp only [List.length_append] at hrest
  rw [afterHost]
  omega

def maskUrlHosts (rest : Text) : Text :=
  match _h : findScheme rest with
  | none => rest
  | some (scheme, idx) =>
    rest.take idx ++ scheme ++ "<trino>".toList ++ maskUrlHosts (afterHost rest scheme idx)
termination_by rest.length
decreasing_by exact afterHost_length (findScheme_some _h).1 (findScheme_some _h).2

def isCharBoundary (s : Text) (i : ℕ) : Bool :=
  (List.range (s.length + 1)).any fun k => byteLength (s.take k) == i

/-- `while cut > 0 && !s.is_char_boundary(cut) { cut -= 1 }` -/
def charBoundaryBelow (s : Text) : ℕ → ℕ
  | 0 => 0
  | cut + 1 => if isCharBoundary s (cut + 1) then cut + 1 else charBoundaryBelow s cut

/-- `String::truncate` at a boundary. -/
def truncate : ℕ → Text → Text
  | _, [] => []
  | cut, c :: s => if c.utf8Size ≤ cut then c :: truncate (cut - c.utf8Size) s else []

def truncateWithEllipsis (s : Text) (max : ℕ) : Text :=
  if byteLength s ≤ max then s else truncate (charBoundaryBelow s (max - 3)) s ++ ['…']

def sanitiseForClient (msg : Text) : Text :=
  let truncated :=
    match (find? "\n\tat ".toList msg).or (find? "\n  at ".toList msg) with
    | some idx => msg.take idx
    | none => msg
  truncateWithEllipsis (trim (maskUrlHosts (stripJavaExceptionPrefixes truncated))) maxClientErrorLen

def trinoErrorToPg (errorMsg : Text) : ErrorInfo :=
  ⟨"ERROR".toList, (sqlstate (errorMsg.map Char.toUpper)).toList, sanitiseForClient errorMsg⟩

end TrinoGateway.ErrorMapping
