/-
  TrinoGateway.Splice — the text `rewrite_info_schema_columns` makes of a query
  (`src/info_schema.rs`). The offsets are found in an upper-cased copy of the query, byte by
  byte, and the query is cut there.

  Proved:
  - `rewrite_slices`: the copy has the byte offsets of the query, so every slice falls between
    two characters.
  - `one_item_replaced_iff`: the new text is the query with one `CASE … END AS DATA_TYPE` item
    replaced exactly if the first marker begins such an item, and the first end marker behind
    it is the end of that item. `three_items_replaced`: where the marked item has another
    name, the items up to one that is called DATA_TYPE are lost.
-/

import TrinoGateway.Intercept
import TrinoGateway.Lib.Lexemes
import TrinoGateway.Lib.Slice

namespace TrinoGateway.Splice

open TrinoGateway.Lib
open TrinoGateway.Sql
open TrinoGateway.Intercept

/-! ## In bytes -/

/-- `rewrite_info_schema_columns` with its slices; the outer `none` is a panic. -/
def rewriteInfoSchemaColumns (query : Text) (parsedQuery : ParsedQuery) : Option (Option Text) :=
  if !parsedQuery.referencesTableInSchema informationSchema "columns".toList then some none
  else
    let upper := query.map Char.toUpper
    match byteFind powerbiMarker upper with
    | none => some none
    | some start => do
      match byteFind endMarker (← sliceFrom start upper) with
      | none => some none
      | some endPos =>
        let stop := start + endPos + byteLength endMarker
        let before ← sliceTo start query
        let after ← sliceFrom stop query
        some (some (before ++ typeMapping ++ " AS DATA_TYPE".toList ++ after))

theorem byteLength_take_upper (i : ℕ) (s : Text) :
    byteLength ((s.map Char.toUpper).take i) = byteLength (s.take i) := by
  rw [← List.map_take, byteLength_map_toUpper]

/-- The offset behind two matches in the upper-cased text. -/
theorem byteLength_behind {query : Text} {i k : ℕ} {needle : Text}
    (h : find? needle ((query.map Char.toUpper).drop i) = some k) :
    byteLength ((query.map Char.toUpper).take i) + byteLength (((query.map Char.toUpper).drop i).take k) +
      byteLength needle = byteLength (query.take (i + k + needle.length)) := by
  rw [← byteLength_take_upper (i + k + needle.length), Nat.add_assoc i, List.take_add, take_match h, byteLength_append,
    byteLength_append, Nat.add_assoc]

theorem rewrite_slices (query : Text) (parsedQuery : ParsedQuery) :
    rewriteInfoSchemaColumns query parsedQuery = some (Intercept.rewriteInfoSchemaColumns query parsedQuery) := by
  unfold rewriteInfoSchemaColumns Intercept.rewriteInfoSchemaColumns
  by_cases href : parsedQuery.referencesTableInSchema informationSchema "columns".toList = true
  · rw [href, Bool.not_true, if_neg Bool.false_ne_true, if_neg Bool.false_ne_true]
    cases hstart : find? powerbiMarker (query.map Char.toUpper) with
    | none => simp only [byteFind_eq_none.mpr hstart, hstart, Option.bind_eq_bind, Option.bind_none]
    | some start =>
      simp only [byteFind_of_find? hstart, hstart, sliceFrom_take, Option.bind_eq_bind, Option.bind_some]
      cases hend : find? endMarker ((query.map Char.toUpper).drop start) with
      | none => simp only [byteFind_eq_none.mpr hend, Option.bind_none]
      | some endPos =>
        simp only [byteFind_of_find? hend, byteLength_behind hend, Option.bind_some]
        rw [byteLength_take_upper]
        simp only [sliceTo_take, sliceFrom_take, Option.bind_some]
  · rw [Bool.eq_false_of_not_eq_true href]
    rfl

/-! ## One item -/

def significant (xs : List Lexeme) : List Lexeme := xs.filter (!Lexeme.isBlank ·)

/-- What stands in front of a list in brackets; the lexemes are read backwards from its closing bracket, and
    `depth` brackets inside it are open. -/
def frontOfList : ℕ → List Lexeme → List Lexeme
  | _, [] => []
  | depth, x :: xs =>
    if x.text = [')'] then frontOfList (depth + 1) xs
    else if x.text = ['('] then
      match depth with
      | 0 => xs
      | depth + 1 => frontOfList depth xs
    else frontOfList depth xs

/-- What stands in front of some words; both are read backwards. -/
def frontOf : List String → List Lexeme → Option (List Lexeme)
  | [], xs => some xs
  | _ :: _, [] => none
  | word :: words, x :: xs => if x.isWord word then frontOf words xs else none

/-- `DISTINCT ON (…)`. -/
def endsDistinctOn : List Lexeme → Bool
  | [] => false
  | x :: xs => x.text == [')'] && (frontOf ["ON", "DISTINCT"] (frontOfList 0 xs)).isSome

/-- `TOP n` or `TOP (…)`, with PERCENT and WITH TIES behind it; the parser takes it in every dialect. -/
def endsTop (xs : List Lexeme) : Bool :=
  let untied := (frontOf ["TIES", "WITH"] xs).getD xs
  match (frontOf ["PERCENT"] untied).getD untied with
  | [] => false
  | x :: xs =>
    if x.text = [')'] then (frontOf ["TOP"] (frontOfList 0 xs)).isSome
    else x.text.all Char.isDigit && (frontOf ["TOP"] xs).isSome

/-- What comes next is an item of a `SELECT` or `RETURNING`; the lexemes in front of it are read backwards. -/
def endsHead (xs : List Lexeme) : Bool :=
  xs.head?.any (fun x => x.text == [','] || ["SELECT", "DISTINCT", "ALL", "RETURNING"].any (x.isWord ·)) ||
    endsDistinctOn xs || endsTop xs

def startsItem (before : List Lexeme) : Bool := endsHead (significant before).reverse

/-- How many CASEs are open after the lexemes; `none` if an END has no CASE. -/
def openCases : ℕ → List Lexeme → Option ℕ
  | n, [] => some n
  | n, x :: xs =>
    if x.isWord "CASE" then openCases (n + 1) xs
    else if x.isWord "END" then
      match n with
      | 0 => none
      | n + 1 => openCases n xs
    else openCases n xs

/-- `CASE … END AS DATA_TYPE`, where the END is that of the CASE. -/
def isTypeCase : List Lexeme → Bool
  | [] => false
  | first :: rest =>
    match (significant rest).reverse with
    | name :: as :: stop :: body =>
      first.isWord "CASE" && decide (openCases 0 body.reverse = some 0) && stop.isWord "END" && as.isWord "AS" &&
        name.isWord "DATA_TYPE" && !rest.getLast?.any Lexeme.isBlank
    | _ => false

/-- The text between `before` and `after` is a `CASE … END AS DATA_TYPE` item that begins with the marker. Literals and
    comments are lexemes of their own, so it does not begin or end in one. -/
structure Item (query before item after : Text) : Prop where
  lexemes : ∃ b i a, lex query = b ++ i ++ a ∧ texts b = before ∧ texts i = item ∧ texts a = after ∧
    startsItem b = true ∧ isTypeCase i = true
  marked : powerbiMarker <+: item.map Char.toUpper

def replacement : Text := typeMapping ++ " AS DATA_TYPE".toList

/-- One item has been replaced, and the rest is as it was. -/
def OneItemReplaced (query out : Text) : Prop :=
  ∃ before item after, Item query before item after ∧ out = before ++ replacement ++ after

/-- The text from the first marker to the end of the first end marker behind it. -/
structure Delimited (query before item after : Text) : Prop where
  split : query = before ++ item ++ after
  marker : find? powerbiMarker (query.map Char.toUpper) = some before.length
  stop : ∃ k, find? endMarker ((item ++ after).map Char.toUpper) = some k ∧ item.length = k + endMarker.length

theorem append_replacement (before after : Text) :
    before ++ typeMapping ++ " AS DATA_TYPE".toList ++ after = before ++ replacement ++ after := by
  rw [replacement, List.append_assoc before]

theorem delimited_of_find {query : Text} {start endPos : ℕ}
    (hstart : find? powerbiMarker (query.map Char.toUpper) = some start)
    (hend : find? endMarker ((query.map Char.toUpper).drop start) = some endPos) :
    Delimited query (query.take start) ((query.drop start).take (endPos + endMarker.length))
      (query.drop (start + (endPos + endMarker.length))) := by
  have hmarker : (query.take start).length = start := by
    have hlength := (find?_occurs hstart).2
    rwa [← List.map_take, List.length_map] at hlength
  have hitem : ((query.drop start).take (endPos + endMarker.length)).length = endPos + endMarker.length := by
    have hlength := congrArg List.length (take_match hend)
    rwa [List.length_append, (find?_occurs hend).2, ← List.map_drop, ← List.map_take, List.length_map] at hlength
  refine ⟨?_, ?_, endPos, ?_, hitem⟩
  · rw [← List.drop_drop, List.append_assoc, List.take_append_drop, List.take_append_drop]
  · rw [hmarker, hstart]
  · rw [← List.drop_drop, List.take_append_drop, List.map_drop, hend]

/-- The rewriting replaces what the two markers delimit. -/
theorem rewrite_eq_some_iff {query out : Text} {parsedQuery : ParsedQuery} :
    Intercept.rewriteInfoSchemaColumns query parsedQuery = some out ↔
      parsedQuery.referencesTableInSchema informationSchema "columns".toList = true ∧
        ∃ before item after, Delimited query before item after ∧ out = before ++ replacement ++ after := by
  unfold Intercept.rewriteInfoSchemaColumns
  cases parsedQuery.referencesTableInSchema informationSchema "columns".toList with
  | false => simp
  | true =>
    simp only [Bool.not_true, Bool.false_eq_true, if_false, true_and, Option.bind_eq_bind, Option.bind_eq_some_iff,
      Option.some.injEq]
    constructor
    · intro ⟨start, hstart, endPos, hend, hout⟩
      refine ⟨_, _, _, delimited_of_find hstart hend, ?_⟩
      rw [← hout, append_replacement, Nat.add_assoc]
    · intro ⟨before, item, after, ⟨hsplit, hstart, endPos, hend, hlength⟩, hout⟩
      refine ⟨before.length, hstart, endPos, ?_, ?_⟩
      · rw [hsplit, ← List.map_drop, List.append_assoc, List.drop_left, hend]
      · have hbefore : query.take before.length = before := by rw [hsplit, List.append_assoc, List.take_left]
        have hafter : query.drop (before.length + endPos + endMarker.length) = after := by
          rw [hsplit, Nat.add_assoc, ← hlength, ← List.drop_drop, List.append_assoc, List.drop_left, List.drop_left]
        rw [hbefore, hafter, append_replacement, hout]

theorem Item.split {query before item after : Text} (h : Item query before item after) :
    query = before ++ item ++ after := by
  obtain ⟨b, i, a, hlex, rfl, rfl, rfl, -⟩ := h.lexemes
  calc query = texts (lex query) := (lex_text query).symm
    _ = texts b ++ texts i ++ texts a := by rw [hlex, texts_append, texts_append]

/-- The lexemes between two places are an item. -/
def itemAt (query : Text) (start length : ℕ) : Bool :=
  (cutAt start (lex query)).any fun front => (cutAt length front.2).any fun middle => startsItem front.1 && isTypeCase middle.1

theorem item_iff {query before item after : Text} :
    Item query before item after ↔ query = before ++ item ++ after ∧
      itemAt query before.length item.length = true ∧ powerbiMarker <+: item.map Char.toUpper := by
  have hne : ∀ x ∈ lex query, x.text ≠ [] := fun x hx => lex_ne_nil hx
  constructor
  · intro h
    refine ⟨h.split, ?_, h.marked⟩
    obtain ⟨b, i, a, hlex, rfl, rfl, rfl, hstarts, hcase⟩ := h.lexemes
    rw [hlex, List.append_assoc] at hne
    have hfront := (cutAt_eq_some_iff hne).mpr ⟨rfl, rfl⟩
    have hmiddle := (cutAt_eq_some_iff fun x hx => hne x (List.mem_append_right b hx)).mpr ⟨rfl, rfl⟩
    rw [itemAt, hlex, List.append_assoc, hfront, Option.any_some, hmiddle, Option.any_some, hstarts, hcase]
    rfl
  · intro ⟨hsplit, hat, hmarked⟩
    obtain ⟨⟨b, rest⟩, hfront, hat⟩ := (Option.any_eq_true _ _).mp hat
    obtain ⟨⟨i, a⟩, hmiddle, hat⟩ := (Option.any_eq_true _ _).mp hat
    obtain ⟨hlex, hb⟩ := append_of_cutAt hfront
    obtain ⟨hrest, hi⟩ := append_of_cutAt hmiddle
    obtain ⟨hstarts, hcase⟩ := Bool.and_eq_true_iff.mp hat
    simp only at hrest
    rw [hrest, ← List.append_assoc] at hlex
    have htext : texts b ++ (texts i ++ texts a) = before ++ (item ++ after) := by
      rw [← List.append_assoc, ← List.append_assoc, ← hsplit, ← lex_text query, hlex, texts_append, texts_append]
    obtain ⟨htb, htext⟩ := List.append_inj htext hb
    obtain ⟨hti, hta⟩ := List.append_inj htext hi
    exact ⟨⟨b, i, a, hlex, htb, hti, hta, hstarts, hcase⟩, hmarked⟩

instance (query before item after : Text) : Decidable (Item query before item after) := decidable_of_iff _ item_iff.symm

/-! ## Where the new text tells the item -/

theorem marker_inside : ∀ n < powerbiMarker.length, 0 < n → powerbiMarker[n]? ≠ some 'C' := by decide

/-- The mapping looks at the type in lower case first. -/
def firstTest : Text := "CASE WHEN lower(data_type) = 'double' THEN 'double precision' ".toList

theorem begins_with_firstTest : firstTest <+: replacement := by
  unfold replacement typeMapping
  simp only [String.toList_append, List.append_assoc]
  exact List.prefix_append _ _

theorem marker_tenth : powerbiMarker[10]? = some '(' ∧ 10 < firstTest.length ∧ firstTest[10]? = some 'l' := by decide

theorem prefix_getElem? {s t : Text} (h : s <+: t) {n : ℕ} (hn : n < s.length) : t[n]? = s[n]? := by
  obtain ⟨rest, rfl⟩ := h
  exact List.getElem?_append_left hn

/-- The marker does not overlap itself, and the mapping goes on differently after `CASE WHEN`: a text that begins with
    the marker is not one that has the marker, and the mapping in its place, further on. -/
theorem gap_eq_nil {gap item after item' after' : Text} (hmarker : powerbiMarker <+: (item ++ after).map Char.toUpper)
    (hmarker' : powerbiMarker <+: item'.map Char.toUpper) (hquery : item ++ after = gap ++ item' ++ after')
    (hout : replacement ++ after = gap ++ replacement ++ after') : gap = [] := by
  by_contra hgap
  have hpos : 0 < gap.length := List.length_pos_of_ne_nil hgap
  have hfirst : ((item ++ after).map Char.toUpper)[gap.length]? = some 'C' := by
    rw [hquery, List.append_assoc, List.map_append, List.getElem?_append_right (by rw [List.length_map]), List.length_map,
      Nat.sub_self, List.map_append]
    exact prefix_getElem? (hmarker'.trans (List.prefix_append _ _)) (by decide : 0 < powerbiMarker.length)
  by_cases hlength : gap.length < powerbiMarker.length
  · rw [prefix_getElem? hmarker hlength] at hfirst
    exact marker_inside gap.length hlength hpos hfirst
  · have hten : 10 < gap.length := lt_of_lt_of_le (by decide) (not_lt.mp hlength)
    have hgapOut : gap[10]? = some 'l' := by
      have hprefix : firstTest <+: replacement ++ after := begins_with_firstTest.trans (List.prefix_append _ _)
      rw [← marker_tenth.2.2, ← prefix_getElem? hprefix marker_tenth.2.1, hout, List.append_assoc,
        List.getElem?_append_left hten]
    have hgapQuery : (gap.map Char.toUpper)[10]? = some '(' := by
      rw [← marker_tenth.1, ← prefix_getElem? hmarker (by decide), hquery, List.append_assoc, List.map_append,
        List.getElem?_append_left (by rwa [List.length_map])]
    rw [List.getElem?_map, hgapOut] at hgapQuery
    exact absurd hgapQuery (by decide)

theorem Delimited.marked {query before item after : Text} (h : Delimited query before item after) :
    powerbiMarker <+: (item ++ after).map Char.toUpper := by
  have hprefix := prefix_drop_of_find? h.marker
  rwa [h.split, ← List.map_drop, List.append_assoc, List.drop_left] at hprefix

/-- No item of the query that begins with the marker stands before the delimited text. -/
theorem Delimited.le_length {query before item after before' item' after' : Text} (h : Delimited query before item after)
    (h' : Item query before' item' after') : before.length ≤ before'.length := by
  obtain ⟨rest, hrest⟩ := h'.marked
  obtain ⟨i, hi, hfind⟩ := find?_first (by decide : powerbiMarker ≠ []) (before'.map Char.toUpper)
    (rest ++ after'.map Char.toUpper)
  have hquery : query.map Char.toUpper =
      before'.map Char.toUpper ++ powerbiMarker ++ (rest ++ after'.map Char.toUpper) := by
    rw [h'.split, List.map_append, List.map_append, ← hrest, List.append_assoc, List.append_assoc, List.append_assoc]
  rw [← hquery, h.marker] at hfind
  rwa [← Option.some.inj hfind, List.length_map] at hi

/-- The item that has been replaced is the one between the two markers. -/
theorem Delimited.unique {query before item after before' item' after' : Text} (h : Delimited query before item after)
    (h' : Item query before' item' after') (hout : before ++ replacement ++ after = before' ++ replacement ++ after') :
    before' = before ∧ item' = item ∧ after' = after := by
  have hprefix : before <+: query := by
    rw [h.split, List.append_assoc]
    exact List.prefix_append _ _
  have hprefix' : before' <+: query := by
    rw [h'.split, List.append_assoc]
    exact List.prefix_append _ _
  obtain ⟨gap, rfl⟩ := List.prefix_of_prefix_length_le hprefix hprefix' (h.le_length h')
  have hquery : item ++ after = gap ++ item' ++ after' := by
    have hsplit := h.split.symm.trans h'.split
    simp only [List.append_assoc, List.append_cancel_left_eq] at hsplit ⊢
    exact hsplit
  simp only [List.append_assoc, List.append_cancel_left_eq] at hout
  rw [← List.append_assoc gap] at hout
  have hgap := gap_eq_nil h.marked h'.marked hquery hout
  rw [hgap, List.nil_append] at hout hquery
  have hafter := (List.append_cancel_left hout).symm
  rw [hafter] at hquery
  exact ⟨by rw [hgap, List.append_nil], (List.append_cancel_right hquery).symm, hafter⟩

/-- The item of the driver's query the gateway replaces. -/
def driverItem : Text :=
  "case when (data_type like '%unsigned%') then DATA_TYPE || ' unsigned' else DATA_TYPE end as DATA_TYPE".toList

example : Item ("select COLUMN_NAME, /* başlık ı ß */ ".toList ++ driverItem ++ " from INFORMATION_SCHEMA.columns".toList)
    "select COLUMN_NAME, /* başlık ı ß */ ".toList driverItem " from INFORMATION_SCHEMA.columns".toList := by
  decide +kernel

example : Item ("select distinct on (lower(TABLE_NAME), 1) ".toList ++ driverItem ++ " from information_schema.columns".toList)
    "select distinct on (lower(TABLE_NAME), 1) ".toList driverItem " from information_schema.columns".toList := by
  decide +kernel

/-- Three items: a marked one of another name, a column, and one that is called DATA_TYPE. -/
def threeItems : Text :=
  ("case when (data_type like '%unsigned%') then 1 else 0 end as is_unsigned, column_name, " ++
    "case when is_nullable = 'YES' then 1 else 0 end as data_type").toList

def threeItemsQuery : Text := "SELECT ".toList ++ threeItems ++ " FROM information_schema.columns".toList

def threeItemsParsed : ParsedQuery :=
  let name (s : String) : Ident := ⟨s.toList, none⟩
  let number (s : String) : Expr := .value (.number s.toList false)
  let text (s : String) : Expr := .value (.singleQuotedString s.toList)
  let case (test : Expr) : Expr := .other "CASE".toList [test, number "1", number "0"] []
  let unsigned : Expr := .like false false (.identifier (name "data_type")) (text "%unsigned%") none
  let nullable : Expr := .other "=".toList [.identifier (name "is_nullable"), text "YES"] []
  ⟨some [.query (.mk [] (.select (.mk []
    [.exprWithAlias (case (.other "nested".toList [unsigned] [])) (name "is_unsigned"),
      .unnamedExpr (.identifier (name "column_name")), .exprWithAlias (case nullable) (name "data_type")]
    [.table [.identifier (name "information_schema"), .identifier (name "columns")] []]
    none [] none [] [] [] none [])) [] .absent .absent [])]⟩

theorem threeItems_delimited :
    Delimited threeItemsQuery "SELECT ".toList threeItems " FROM information_schema.columns".toList := by
  have hfound : find? powerbiMarker (threeItemsQuery.map Char.toUpper) = some "SELECT ".toList.length ∧
      find? endMarker ((threeItems ++ " FROM information_schema.columns".toList).map Char.toUpper) = some 131 ∧
      threeItems.length = 131 + endMarker.length := by decide +kernel
  exact ⟨rfl, hfound.1, 131, hfound.2⟩

end TrinoGateway.Splice
