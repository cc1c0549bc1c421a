/-
  TrinoGateway.Routing — which branch of `try_intercept` answers a query, and how far the
  layout of the text decides it. Session commands are told by comparing the upper-cased text
  with literals that hold a single space; everything else is told by the parsed query.

  `route` names the branch (`intercepted_eq`: the response is the branch's). Two texts with
  the same tokens take the same branch exactly if both or neither are written the way the
  literals are (`same_tokens_same_branch`). `SET` and a tab is not: it is sent to Trino
  (`tab_reaches_trino`).

  `sqlparser`'s tokenizer is a parameter, with the facts used of it as fields. White space
  outside ASCII, which `try_intercept` trims, may be words or parts of words to it. Two texts
  whose keywords differ in letter case parse to trees that differ in letter case only
  (`ReadsTokens`).
-/

import TrinoGateway.Pipeline
import TrinoGateway.Sql.LetterCase

namespace TrinoGateway.Routing

open TrinoGateway.Lib
open TrinoGateway.Types
open TrinoGateway.Sql
open TrinoGateway.Catalog
open TrinoGateway.Intercept
open TrinoGateway.Pipeline

/-! ## Branches -/

inductive Branch where
  | setParameter
  | startTransaction
  | commit
  | rollback
  | resetSession
  | showParameter
  | version
  | currentDatabase
  | currentSchema
  | pgIsInRecovery
  | currentSetting (value : String)
  | pgStatSsl
  | compositeFields
  | enumLabels
  | typeLoading
  | pgRange
  | pgNamespace
  | characterSets
  | missingInformationSchema
  deriving DecidableEq, Repr

/-- The branches that are told by the text. -/
def Branch.isCommand : Branch → Bool
  | .setParameter | .startTransaction | .commit | .rollback | .resetSession | .showParameter => true
  | _ => false

def commandBranch (upper : Text) : Option Branch :=
  let starts (word : String) : Bool := word.toList.isPrefixOf upper
  let is (word : String) : Bool := upper == word.toList
  if starts "SET " then some .setParameter
  else if is "BEGIN" || starts "BEGIN " || starts "START TRANSACTION" then some .startTransaction
  else if is "COMMIT" || is "END" then some .commit
  else if is "ROLLBACK" || starts "ROLLBACK " then some .rollback
  else if starts "DISCARD " || starts "DEALLOCATE " || is "CLOSE ALL" then some .resetSession
  else if starts "SHOW " then some .showParameter
  else none

def functionBranch (query : ParsedQuery) : Option Branch :=
  if !query.isBareScalarSelect then none
  else if query.callsFunction "version".toList then some .version
  else if query.callsFunction "current_database".toList then some .currentDatabase
  else if query.callsFunctionOrKeyword "current_schema".toList then some .currentSchema
  else if query.callsFunction "pg_is_in_recovery".toList then some .pgIsInRecovery
  else ((query.functionStringArg "current_setting".toList).bind Intercept.currentSetting).map .currentSetting

def catalogBranch (query : ParsedQuery) : Option Branch :=
  if query.referencesTable "pg_attribute".toList && query.referencesTable "pg_type".toList then some .compositeFields
  else if query.referencesTable "pg_enum".toList then some .enumLabels
  else if query.referencesTable "pg_type".toList then some .typeLoading
  else if query.referencesTable "pg_range".toList then some .pgRange
  else if query.referencesTable "pg_namespace".toList then some .pgNamespace
  else none

def tableBranch (query : ParsedQuery) : Option Branch :=
  if query.referencesTable "pg_stat_ssl".toList then some .pgStatSsl
  else
    (catalogBranch query).or
      (if query.referencesTableInSchema informationSchema "character_sets".toList then some .characterSets
      else if missingTables.any (query.referencesTableInSchema informationSchema) then some .missingInformationSchema
      else none)

def treeBranch (query : ParsedQuery) : Option Branch := (functionBranch query).or (tableBranch query)

variable (G : Gateway)

/-- The branch of `try_intercept` that answers the query; `none` if it is passed on. -/
def route (query : Text) : Option Branch :=
  if (trim query).isEmpty then none
  else (commandBranch (toUppercase G.crates.unicode (withoutTerminator query))).or (treeBranch (parse G query))

def Branch.response (query : Text) : Branch → PgWireResult (List Response)
  | .setParameter => executed "SET"
  | .startTransaction => executed "BEGIN"
  | .commit => executed "COMMIT"
  | .rollback => executed "ROLLBACK"
  | .resetSession => executed "OK"
  | .showParameter => interceptShow G.crates (withoutTerminator query)
  | .version =>
    singleTextResponse "version".toList "PostgreSQL 16.6 on x86_64-pc-linux-gnu, compiled by gcc 12.2.0, 64-bit".toList
  | .currentDatabase => singleTextResponse "current_database".toList G.config.trinoCatalog
  | .currentSchema => singleTextResponse "current_schema".toList G.config.trinoSchema
  | .pgIsInRecovery => singleTextResponse "pg_is_in_recovery".toList "false".toList
  | .currentSetting value => singleTextResponse "current_setting".toList value.toList
  | .pgStatSsl => singleBoolResponse "ssl".toList G.clientIsSecure
  | .compositeFields => emptyCompositeFields
  | .enumLabels => emptyEnumLabels
  | .typeLoading => respondTypeLoading
  | .pgRange => emptyPgRange
  | .pgNamespace => respondPgNamespace
  | .characterSets => singleTextResponse "character_set_name".toList "UTF8".toList
  | .missingInformationSchema => emptyQueryResponse (parse G query)

theorem sessionCommand_eq (query : Text) :
    sessionCommand G.crates (withoutTerminator query) =
      (commandBranch (toUppercase G.crates.unicode (withoutTerminator query))).map (Branch.response G query) := by
  unfold sessionCommand commandBranch
  simp only [apply_ite (Option.map (Branch.response G query)), Option.map_some, Option.map_none, Branch.response]

theorem interceptServerFunctions_eq (query : Text) :
    interceptServerFunctions (parse G query) G.config =
      (functionBranch (parse G query)).map (Branch.response G query) := by
  unfold interceptServerFunctions functionBranch
  simp only [apply_ite (Option.map (Branch.response G query)), Option.map_some, Option.map_none, Option.map_map,
    Branch.response, Function.comp_def]

theorem tableIntercept_eq (query : Text) :
    tableIntercept (parse G query) G.clientIsSecure = (tableBranch (parse G query)).map (Branch.response G query) := by
  unfold tableIntercept tableBranch interceptMissingInformationSchema handleCatalogQuery catalogBranch
  simp only [apply_ite (Option.map (Branch.response G query)), Option.map_or, Option.map_some, Option.map_none,
    Branch.response]

/-- The response of `try_intercept` is the one of the branch that `route` names. -/
theorem intercepted_eq (query : Text) : intercepted G query = (route G query).map (Branch.response G query) := by
  unfold intercepted tryIntercept route treeBranch
  rw [sessionCommand_eq, interceptServerFunctions_eq, tableIntercept_eq, apply_ite (Option.map (Branch.response G query)),
    Option.map_or, Option.map_or, Option.or_assoc, Option.map_none]

theorem functionBranch_recase (query : ParsedQuery) : functionBranch query.recase = functionBranch query := by
  simp only [functionBranch, query.isBareScalarSelect_recase, query.callsFunction_recase,
    query.callsFunctionOrKeyword_recase, query.functionStringArg_recase]

theorem tableBranch_recase (query : ParsedQuery) : tableBranch query.recase = tableBranch query := by
  have hmissing : query.recase.referencesTableInSchema informationSchema = query.referencesTableInSchema informationSchema :=
    funext (query.referencesTableInSchema_recase informationSchema)
  simp only [tableBranch, catalogBranch, query.referencesTable_recase, hmissing]

/-- The letter case of names does not decide between the branches that look at the tree. -/
theorem treeBranch_recase (query : ParsedQuery) : treeBranch query.recase = treeBranch query := by
  rw [treeBranch, functionBranch_recase, tableBranch_recase, treeBranch]

theorem functionBranch_not_command {query : ParsedQuery} {b : Branch} (h : functionBranch query = some b) :
    b.isCommand = false := by
  unfold functionBranch at h
  split_ifs at h
  · cases h; rfl
  · cases h; rfl
  · cases h; rfl
  · cases h; rfl
  · obtain ⟨value, -, rfl⟩ := Option.map_eq_some_iff.mp h
    rfl

theorem catalogBranch_not_command {query : ParsedQuery} {b : Branch} (h : catalogBranch query = some b) :
    b.isCommand = false := by
  unfold catalogBranch at h
  split_ifs at h <;> (cases h; rfl)

theorem tableBranch_not_command {query : ParsedQuery} {b : Branch} (h : tableBranch query = some b) :
    b.isCommand = false := by
  unfold tableBranch at h
  split at h
  · cases h; rfl
  · rcases Option.or_eq_some_iff.mp h with h | ⟨-, h⟩
    · exact catalogBranch_not_command h
    · split_ifs at h <;> (cases h; rfl)

theorem treeBranch_not_command {query : ParsedQuery} {b : Branch} (h : treeBranch query = some b) :
    b.isCommand = false := by
  rcases Option.or_eq_some_iff.mp h with h | ⟨-, h⟩
  · exact functionBranch_not_command h
  · exact tableBranch_not_command h

/-! ## The first word -/

/-- What stands before the first space. -/
def firstWord (s : Text) : Text := s.takeWhile (· != ' ')

/-- The command a first word stands for. -/
def commandOf (word : Text) : Option Branch :=
  if word = "SET".toList then some .setParameter
  else if word = "BEGIN".toList ∨ word = "START".toList then some .startTransaction
  else if word = "COMMIT".toList ∨ word = "END".toList then some .commit
  else if word = "ROLLBACK".toList then some .rollback
  else if word = "DISCARD".toList ∨ word = "DEALLOCATE".toList ∨ word = "CLOSE".toList then some .resetSession
  else if word = "SHOW".toList then some .showParameter
  else none

def commandWords : List Text :=
  ["SET".toList, "BEGIN".toList, "START".toList, "COMMIT".toList, "END".toList, "ROLLBACK".toList, "DISCARD".toList,
   "DEALLOCATE".toList, "CLOSE".toList, "SHOW".toList]

/-- The upper-cased text reads as a command: a word and a space, or the whole command with single spaces. -/
def ReadsAsCommand (upper : Text) : Prop :=
  (∃ word ∈ ["SET ", "BEGIN ", "ROLLBACK ", "DISCARD ", "DEALLOCATE ", "SHOW ", "START TRANSACTION"],
    word.toList <+: upper) ∨
  upper ∈ ["BEGIN".toList, "COMMIT".toList, "END".toList, "ROLLBACK".toList, "CLOSE ALL".toList]

instance (upper : Text) : Decidable (ReadsAsCommand upper) := inferInstanceAs (Decidable (_ ∨ _))

theorem firstWord_append {word : Text} (hspace : ' ' ∈ word) (rest : Text) : firstWord (word ++ rest) = firstWord word := by
  unfold firstWord
  rw [List.takeWhile_append, if_neg]
  intro hlen
  have hall := List.takeWhile_eq_self_iff.mp ((List.takeWhile_prefix _).eq_of_length hlen)
  exact absurd (hall ' ' hspace) (by decide)

theorem reads_of_starts {word : String} {upper : Text} {b : Branch}
    (hword : word ∈ ["SET ", "BEGIN ", "ROLLBACK ", "DISCARD ", "DEALLOCATE ", "SHOW ", "START TRANSACTION"])
    (hspace : ' ' ∈ word.toList) (hb : commandOf (firstWord word.toList) = some b)
    (h : word.toList.isPrefixOf upper = true) : ReadsAsCommand upper ∧ commandOf (firstWord upper) = some b := by
  have hprefix := List.isPrefixOf_iff_prefix.mp h
  refine ⟨Or.inl ⟨word, hword, hprefix⟩, ?_⟩
  obtain ⟨rest, rfl⟩ := hprefix
  rw [firstWord_append hspace, hb]

theorem reads_of_is {word : String} {upper : Text} {b : Branch}
    (hword : word.toList ∈ ["BEGIN".toList, "COMMIT".toList, "END".toList, "ROLLBACK".toList, "CLOSE ALL".toList])
    (hb : commandOf (firstWord word.toList) = some b)
    (h : (upper == word.toList) = true) : ReadsAsCommand upper ∧ commandOf (firstWord upper) = some b := by
  rw [beq_iff_eq] at h
  subst h
  exact ⟨Or.inr hword, hb⟩

theorem commandBranch_some {upper : Text} {b : Branch} (h : commandBranch upper = some b) :
    ReadsAsCommand upper ∧ commandOf (firstWord upper) = some b := by
  unfold commandBranch at h
  simp only [Bool.or_eq_true] at h
  split_ifs at h with hset hbegin hcommit hrollback hreset hshow
  · cases h
    exact reads_of_starts (by decide) (by decide) (by decide) hset
  · cases h
    rcases hbegin with (hbegin | hbegin) | hbegin
    · exact reads_of_is (by decide) (by decide) hbegin
    · exact reads_of_starts (by decide) (by decide) (by decide) hbegin
    · exact reads_of_starts (by decide) (by decide) (by decide) hbegin
  · cases h
    rcases hcommit with hcommit | hcommit
    · exact reads_of_is (by decide) (by decide) hcommit
    · exact reads_of_is (by decide) (by decide) hcommit
  · cases h
    rcases hrollback with hrollback | hrollback
    · exact reads_of_is (by decide) (by decide) hrollback
    · exact reads_of_starts (by decide) (by decide) (by decide) hrollback
  · cases h
    rcases hreset with (hreset | hreset) | hreset
    · exact reads_of_starts (by decide) (by decide) (by decide) hreset
    · exact reads_of_starts (by decide) (by decide) (by decide) hreset
    · exact reads_of_is (by decide) (by decide) hreset
  · cases h
    exact reads_of_starts (by decide) (by decide) (by decide) hshow

theorem not_reads_of_commandBranch {upper : Text} (h : commandBranch upper = none) : ¬ReadsAsCommand upper := by
  unfold commandBranch at h
  simp only [Bool.or_eq_true] at h
  split_ifs at h with hset hbegin hcommit hrollback hreset hshow
  simp only [not_or, List.isPrefixOf_iff_prefix, beq_iff_eq] at hset hbegin hcommit hrollback hreset hshow
  rintro (⟨word, hword, hprefix⟩ | hword)
  · simp only [List.mem_cons, List.not_mem_nil, or_false] at hword
    rcases hword with rfl | rfl | rfl | rfl | rfl | rfl | rfl
    · exact hset hprefix
    · exact hbegin.1.2 hprefix
    · exact hrollback.2 hprefix
    · exact hreset.1.1 hprefix
    · exact hreset.1.2 hprefix
    · exact hshow hprefix
    · exact hbegin.2 hprefix
  · simp only [List.mem_cons, List.not_mem_nil, or_false] at hword
    rcases hword with h | h | h | h | h
    · exact hbegin.1.1 h
    · exact hcommit.1 h
    · exact hcommit.2 h
    · exact hrollback.1 h
    · exact hreset.2 h

/-- The tests on the text, in two steps: does it read as a command, and which one is its first word. -/
theorem commandBranch_eq (upper : Text) :
    commandBranch upper = if ReadsAsCommand upper then commandOf (firstWord upper) else none := by
  cases h : commandBranch upper with
  | none => rw [if_neg (not_reads_of_commandBranch h)]
  | some b =>
    obtain ⟨hreads, hb⟩ := commandBranch_some h
    rw [if_pos hreads, hb]

/-- No character outside ASCII has a space in its upper-case image. -/
def SpaceFree (U : UnicodeCase) : Prop := ∀ c, isAscii c = false → ' ' ∉ U.upper c

theorem image_no_space {U : UnicodeCase} (hU : SpaceFree U) {c : Char} (hc : c ≠ ' ') :
    ∀ d ∈ (if isAscii c then [c.toUpper] else U.upper c), (d != ' ') = true := by
  intro d hd
  cases hascii : isAscii c with
  | false =>
    rw [hascii] at hd
    rw [bne_iff_ne]
    rintro rfl
    exact hU c hascii hd
  | true =>
    have hupper : ∀ c, isAscii c = true → c ≠ ' ' → (c.toUpper != ' ') = true := ascii_cases (by decide)
    rw [hascii, if_pos rfl, List.mem_singleton] at hd
    rw [hd]
    exact hupper c hascii hc

/-- Upper-casing keeps the spaces where they are, so it can be done on the first word alone. -/
theorem firstWord_toUppercase {U : UnicodeCase} (hU : SpaceFree U) (s : Text) :
    firstWord (toUppercase U s) = toUppercase U (firstWord s) := by
  induction s with
  | nil => rfl
  | cons c s ih =>
    by_cases hc : c = ' '
    · subst hc
      rfl
    · have hfirst : firstWord (c :: s) = c :: firstWord s := List.takeWhile_cons_of_pos (by simpa using hc)
      rw [hfirst, toUppercase_cons, toUppercase_cons, ← ih]
      exact List.takeWhile_append_of_pos (image_no_space hU hc)

/-- White space as the tokenizer knows it; outside ASCII it may be part of a word. -/
def isSpace (c : Char) : Bool := isAscii c && isWhitespace c

def endsWord (c : Char) : Bool := isSpace c || c == ';'

/-- White space of any kind, and then the end of the word or of the text. -/
def EndsWord (rest : Text) : Prop := ∃ gap after, rest = gap ++ after ∧ Blank gap ∧ ∀ c ∈ after.head?, endsWord c = true

theorem withoutTerminator_parts (s : Text) :
    ∃ lead tail, s = lead ++ withoutTerminator s ++ tail ∧ Blank lead ∧
      ∀ c ∈ tail, isWhitespace c = true ∨ (c == ';') = true := by
  obtain ⟨lead, tail, hs, hlead, htail⟩ := trim_parts s
  obtain ⟨lead', tail', hs', hlead', htail'⟩ := trim_parts ((trim s).rdropWhile (· == ';'))
  refine ⟨lead ++ lead', tail' ++ (trim s).rtakeWhile (· == ';') ++ tail, ?_, ?_, ?_⟩
  · calc s = lead ++ trim s ++ tail := hs
      _ = lead ++ ((trim s).rdropWhile (· == ';') ++ (trim s).rtakeWhile (· == ';')) ++ tail := by
        rw [List.rdropWhile_append_rtakeWhile]
      _ = lead ++ (lead' ++ withoutTerminator s ++ tail' ++ (trim s).rtakeWhile (· == ';')) ++ tail := by
        rw [withoutTerminator, ← hs']
      _ = _ := by simp only [List.append_assoc]
  · intro c hc
    rcases List.mem_append.mp hc with hc | hc
    · exact hlead c hc
    · exact hlead' c hc
  · intro c hc
    simp only [List.mem_append] at hc
    rcases hc with (hc | hc) | hc
    · exact Or.inl (htail' c hc)
    · exact Or.inr (List.mem_rtakeWhile_imp (p := (· == ';')) hc)
    · exact Or.inl (htail c hc)

theorem endsWord_terminator {tail : Text} (h : ∀ c ∈ tail, isWhitespace c = true ∨ (c == ';') = true) : EndsWord tail := by
  refine ⟨tail.takeWhile isWhitespace, tail.dropWhile isWhitespace, List.takeWhile_append_dropWhile.symm,
    fun c hc => List.mem_takeWhile_imp hc, fun c hc => ?_⟩
  have hstop := List.head?_dropWhile_not isWhitespace tail
  rw [Option.mem_def] at hc
  rw [hc] at hstop
  have hsemicolon := (h c ((List.dropWhile_suffix _).subset (List.mem_of_mem_head? hc))).resolve_left (by simp [hstop])
  rw [endsWord, hsemicolon, Bool.or_true]

/-! ## Tokens -/

inductive Token where
  | word (value : Text) (keyword : Bool)
  | semicolon
  | other (text : Text)
  deriving DecidableEq, Repr

/-- A keyword is the same in any letter case; another word is not. -/
def Token.canonical : Token → Token
  | .word value true => .word (value.map Char.toUpper) true
  | token => token

/-- A word of white space outside ASCII. -/
def Token.isBlank : Token → Bool
  | .word value _ => value.all isWhitespace
  | _ => false

/-- The tokens that make up the statement: without the semicolons after it. -/
def canonical (tokens : List Token) : List Token := (tokens.map Token.canonical).rdropWhile (· == .semicolon)

/-- `sqlparser`'s tokenizer, which leaves out white space and comments. -/
structure Tokenizer (U : UnicodeCase) where
  tokenize : Text → Option (List Token)
  blank : ∀ w tokens, Blank w → tokenize w = some tokens → ∀ token ∈ tokens, token.isBlank = true
  /-- A word that upper-cases to a command is a token, if nothing but white space stands before
      it and what follows ends it. White space outside ASCII may be words of its own before it,
      and may be part of it. -/
  command : ∀ lead word rest tokens, Blank lead → toUppercase U word ∈ commandWords → EndsWord rest →
    tokenize (lead ++ word ++ rest) = some tokens →
    ∃ blanks value keyword others, tokens = blanks ++ .word value keyword :: others ∧
      (∀ token ∈ blanks, token.isBlank = true) ∧ trim value = word

/-- Texts that differ only in white space, comments, the letter case of keywords and semicolons at the end. -/
def SameTokens {U : UnicodeCase} (T : Tokenizer U) (a b : Text) : Prop :=
  ∃ ta tb, T.tokenize a = some ta ∧ T.tokenize b = some tb ∧ canonical ta = canonical tb

/-- There is a statement in the text. -/
def HasStatement {U : UnicodeCase} (T : Tokenizer U) (a : Text) : Prop :=
  ∃ ta, T.tokenize a = some ta ∧ ∃ token ∈ canonical ta, token.isBlank = false

/-- What is parsed depends on the tokens alone, but for the letter case of names. -/
def ReadsTokens {U : UnicodeCase} (T : Tokenizer U) (P : Parser) : Prop :=
  ∀ a b, SameTokens T a b → (⟨P.parseSql a⟩ : ParsedQuery).recase = (⟨P.parseSql b⟩ : ParsedQuery).recase

/-- The command is written the way the literals of `try_intercept` are. -/
def CommandLayout (U : UnicodeCase) (query : Text) : Prop := ReadsAsCommand (toUppercase U (withoutTerminator query))

instance (U : UnicodeCase) (query : Text) : Decidable (CommandLayout U query) :=
  inferInstanceAs (Decidable (ReadsAsCommand _))

theorem SameTokens.hasStatement {U : UnicodeCase} {T : Tokenizer U} {a b : Text} (h : SameTokens T a b)
    (hone : HasStatement T a) : HasStatement T b := by
  obtain ⟨ta, tb, ha, hb, hab⟩ := h
  obtain ⟨ta', ha', hsome⟩ := hone
  rw [ha] at ha'
  cases ha'
  exact ⟨tb, hb, hab ▸ hsome⟩

theorem isWhitespace_toUpper (c : Char) : isWhitespace c.toUpper = isWhitespace c := by
  cases hc : isAscii c with
  | true =>
    have hupper : ∀ c, isAscii c = true → isWhitespace c.toUpper = isWhitespace c := ascii_cases (by decide +kernel)
    exact hupper c hc
  | false => rw [toUpper_of_not_ascii hc]

theorem isBlank_canonical (token : Token) : token.canonical.isBlank = token.isBlank := by
  unfold Token.canonical
  split
  · simp only [Token.isBlank, List.all_map, Function.comp_def, isWhitespace_toUpper]
  · rfl

theorem HasStatement.not_blank {U : UnicodeCase} {T : Tokenizer U} {a : Text} (h : HasStatement T a) :
    (trim a).isEmpty = false := by
  by_contra hempty
  rw [Bool.not_eq_false, List.isEmpty_iff] at hempty
  obtain ⟨lead, tail, ha, hlead, htail⟩ := trim_parts a
  have hblank : Blank a := by
    intro c hc
    rw [ha, hempty, List.append_nil] at hc
    rcases List.mem_append.mp hc with hc | hc
    · exact hlead c hc
    · exact htail c hc
  obtain ⟨ta, hta, token, htoken, hsolid⟩ := h
  obtain ⟨original, horiginal, rfl⟩ := List.mem_map.mp ((List.rdropWhile_prefix _ _).subset htoken)
  rw [isBlank_canonical, T.blank a ta hblank hta original horiginal] at hsolid
  cases hsolid

theorem mem_commandWords_of_commandOf {word : Text} (h : commandOf word ≠ none) : word ∈ commandWords := by
  contrapose! h
  unfold commandWords at h
  simp only [List.mem_cons, List.not_mem_nil, or_false, not_or] at h
  obtain ⟨hset, hbegin, hstart, hcommit, hend, hrollback, hdiscard, hdeallocate, hclose, hshow⟩ := h
  simp only [commandOf, hset, hbegin, hstart, hcommit, hend, hrollback, hdiscard, hdeallocate, hclose, hshow, or_self,
    if_false]

theorem commandOf_of_reads {upper : Text} (h : ReadsAsCommand upper) : commandOf (firstWord upper) ≠ none := by
  cases hb : commandBranch upper with
  | none => exact absurd h (not_reads_of_commandBranch hb)
  | some b =>
    rw [(commandBranch_some hb).2]
    simp

theorem firstWord_parts (s : Text) : ∃ rest, s = firstWord s ++ rest ∧ ∀ c ∈ rest.head?, c = ' ' := by
  refine ⟨s.dropWhile (· != ' '), List.takeWhile_append_dropWhile.symm, ?_⟩
  intro c hc
  have hstop := List.head?_dropWhile_not (· != ' ') s
  rw [Option.mem_def] at hc
  rw [hc] at hstop
  simpa using hstop

/-- A text laid out as a command has the first word of its upper-cased form as its first token, blank words aside. -/
theorem first_token {U : UnicodeCase} (hU : SpaceFree U) (T : Tokenizer U) {query : Text} {tokens : List Token}
    (hlayout : CommandLayout U query) (htokens : T.tokenize query = some tokens) :
    ∃ blanks value keyword others, tokens = blanks ++ .word value keyword :: others ∧
      (∀ token ∈ blanks, token.isBlank = true) ∧ (Token.word value keyword).isBlank = false ∧
      toUppercase U (trim value) = firstWord (toUppercase U (withoutTerminator query)) := by
  obtain ⟨lead, tail, hquery, hlead, htail⟩ := withoutTerminator_parts query
  obtain ⟨rest, hparts, hrest⟩ := firstWord_parts (withoutTerminator query)
  have hends : EndsWord (rest ++ tail) := by
    cases rest with
    | nil => exact endsWord_terminator htail
    | cons d rest =>
      obtain rfl : d = ' ' := hrest d rfl
      exact ⟨[], _, rfl, List.forall_mem_nil _, fun c hc => by cases hc; rfl⟩
  have hsplit : query = lead ++ firstWord (withoutTerminator query) ++ (rest ++ tail) := by
    conv_lhs => rw [hquery, hparts]
    simp only [List.append_assoc]
  have hword : toUppercase U (firstWord (withoutTerminator query)) ∈ commandWords := by
    rw [← firstWord_toUppercase hU]
    exact mem_commandWords_of_commandOf (commandOf_of_reads hlayout)
  rw [hsplit] at htokens
  obtain ⟨blanks, value, keyword, others, hfirst, hblanks, htrim⟩ := T.command lead _ _ tokens hlead hword hends htokens
  refine ⟨blanks, value, keyword, others, hfirst, hblanks, ?_, by rw [htrim, firstWord_toUppercase hU]⟩
  have hne : trim value ≠ [] := by
    intro hempty
    rw [← htrim, hempty, show toUppercase U [] = [] from rfl] at hword
    exact absurd hword (by decide)
  by_contra hblank
  rw [Bool.not_eq_false, Token.isBlank, List.all_eq_true] at hblank
  have hnil := trimStart_blank hblank []
  rw [List.append_nil] at hnil
  exact hne (by rw [trim, hnil]; rfl)

theorem find_canonical {blanks : List Token} {value : Text} {keyword : Bool}
    (hblanks : ∀ token ∈ blanks, token.isBlank = true) (hvalue : (Token.word value keyword).isBlank = false)
    (others : List Token) :
    (canonical (blanks ++ .word value keyword :: others)).find? (!Token.isBlank ·) =
      some (Token.word value keyword).canonical := by
  have hne : ((Token.word value keyword).canonical == Token.semicolon) = false := by cases keyword <;> rfl
  have hnone : (blanks.map Token.canonical).find? (!Token.isBlank ·) = none := by
    rw [List.find?_eq_none]
    intro token htoken
    obtain ⟨original, horiginal, rfl⟩ := List.mem_map.mp htoken
    rw [isBlank_canonical, hblanks original horiginal]
    decide
  rw [canonical, List.map_append, List.map_cons, rdropWhile_append_cons (p := (· == Token.semicolon)) hne, List.find?_append,
    hnone, Option.none_or, List.find?_cons_of_pos]
  rw [isBlank_canonical, hvalue]
  rfl

theorem trim_map_toUpper (s : Text) : trim (s.map Char.toUpper) = (trim s).map Char.toUpper := by
  have hwhite : isWhitespace ∘ Char.toUpper = isWhitespace := funext isWhitespace_toUpper
  simp only [trim, trimStart, trimEnd, List.rdropWhile, List.dropWhile_map, ← List.map_reverse, hwhite]

theorem upper_of_canonical {U : UnicodeCase} {v w : Text} {k l : Bool}
    (h : (Token.word v k).canonical = (Token.word w l).canonical) : toUppercase U (trim v) = toUppercase U (trim w) := by
  cases k <;> cases l <;> simp only [Token.canonical, Token.word.injEq] at h
  · rw [h.1]
  · exact absurd h.2 (by decide)
  · exact absurd h.2 (by decide)
  · rw [← toUppercase_map_toUpper U (trim v), ← trim_map_toUpper, h.1, trim_map_toUpper, toUppercase_map_toUpper]

/-- Two texts with the same tokens that are both laid out as commands are the same command. -/
theorem same_command {U : UnicodeCase} (hU : SpaceFree U) {T : Tokenizer U} {a b : Text} (hab : SameTokens T a b)
    (ha : CommandLayout U a) (hb : CommandLayout U b) :
    firstWord (toUppercase U (withoutTerminator a)) = firstWord (toUppercase U (withoutTerminator b)) := by
  obtain ⟨ta, tb, hta, htb, hcanonical⟩ := hab
  obtain ⟨blanks, v, k, others, rfl, hblanks, hsolid, hv⟩ := first_token hU T ha hta
  obtain ⟨blanks', w, l, others', rfl, hblanks', hsolid', hw⟩ := first_token hU T hb htb
  have hfind := congrArg (List.find? (!Token.isBlank ·)) hcanonical
  rw [find_canonical hblanks hsolid, find_canonical hblanks' hsolid', Option.some.injEq] at hfind
  rw [← hv, ← hw, upper_of_canonical hfind]

/-! ## The same branch -/

theorem route_of_layout {T : Tokenizer G.crates.unicode} {query : Text} (hone : HasStatement T query)
    (h : CommandLayout G.crates.unicode query) :
    route G query = commandOf (firstWord (toUppercase G.crates.unicode (withoutTerminator query))) := by
  have hsome := Option.isSome_iff_ne_none.mpr (commandOf_of_reads h)
  unfold CommandLayout at h
  unfold route
  rw [hone.not_blank, commandBranch_eq, if_pos h, Option.or_of_isSome hsome, if_neg Bool.false_ne_true]

theorem route_of_no_layout {T : Tokenizer G.crates.unicode} {query : Text} (hone : HasStatement T query)
    (h : ¬CommandLayout G.crates.unicode query) : route G query = treeBranch (parse G query) := by
  unfold CommandLayout at h
  unfold route
  rw [hone.not_blank, commandBranch_eq, if_neg h, Option.none_or, if_neg Bool.false_ne_true]

theorem isCommand_of_commandOf {word : Text} {b : Branch} (h : commandOf word = some b) : b.isCommand = true := by
  unfold commandOf at h
  split_ifs at h <;> (cases h; rfl)

/-- The two kinds of branches never meet. -/
theorem route_ne {T : Tokenizer G.crates.unicode} {a b : Text} (ha : HasStatement T a) (hb : HasStatement T b)
    (hla : CommandLayout G.crates.unicode a) (hlb : ¬CommandLayout G.crates.unicode b) : route G a ≠ route G b := by
  rw [route_of_layout G ha hla, route_of_no_layout G hb hlb]
  intro heq
  obtain ⟨branch, hbranch⟩ := Option.ne_none_iff_exists'.mp (commandOf_of_reads hla)
  have hcommand := isCommand_of_commandOf hbranch
  rw [hbranch] at heq
  rw [treeBranch_not_command heq.symm] at hcommand
  cases hcommand

theorem same_tokens_same_branch (T : Tokenizer G.crates.unicode) (hspace : SpaceFree G.crates.unicode)
    (hparser : ReadsTokens T G.parser) {a b : Text} (hab : SameTokens T a b) (hone : HasStatement T a) :
    (∀ query, intercepted G query = (route G query).map (Branch.response G query)) ∧
    (route G a = route G b ↔ (CommandLayout G.crates.unicode a ↔ CommandLayout G.crates.unicode b)) := by
  have honeb := hab.hasStatement hone
  refine ⟨intercepted_eq G, ?_⟩
  by_cases hla : CommandLayout G.crates.unicode a
  · by_cases hlb : CommandLayout G.crates.unicode b
    · have hroute : route G a = route G b := by
        rw [route_of_layout G hone hla, route_of_layout G honeb hlb, same_command hspace hab hla hlb]
      simp only [hroute, hla, hlb]
    · simp [route_ne G hone honeb hla hlb, hla, hlb]
  · by_cases hlb : CommandLayout G.crates.unicode b
    · simp [(route_ne G honeb hone hlb hla).symm, hla, hlb]
    · have hroute : route G a = route G b := by
        rw [route_of_no_layout G hone hla, route_of_no_layout G honeb hlb, ← treeBranch_recase, parse, hparser a b hab,
          treeBranch_recase, parse]
      simp only [hroute, hla, hlb]

/-! ## A tab after `SET` -/

def Token.text : Token → Text
  | .word value _ => value
  | .semicolon => [';']
  | .other text => text

/-- The word read so far, as a token. -/
def flush (pending : Text) : List Token :=
  if pending.isEmpty then [] else [.word pending (commandWords.contains (pending.map Char.toUpper))]

/-- Words between white space and semicolons. -/
def wordTokens : Text → Text → List Token
  | pending, [] => flush pending
  | pending, c :: s =>
    if isSpace c then flush pending ++ wordTokens [] s
    else if c = ';' then flush pending ++ .semicolon :: wordTokens [] s
    else wordTokens (pending ++ [c]) s

theorem flush_blank {pending : Text} (h : Blank pending) : ∀ token ∈ flush pending, token.isBlank = true := by
  intro token htoken
  unfold flush at htoken
  split_ifs at htoken
  · cases htoken
  · cases List.mem_singleton.mp htoken
    exact List.all_eq_true.mpr h

/-- White space gives blank words, and maybe the beginning of one. -/
theorem wordTokens_blank {lead pending : Text} (hlead : Blank lead) (hpending : Blank pending) (s : Text) :
    ∃ blanks pending', wordTokens pending (lead ++ s) = blanks ++ wordTokens pending' s ∧
      (∀ token ∈ blanks, token.isBlank = true) ∧ Blank pending' := by
  induction lead generalizing pending with
  | nil => exact ⟨[], pending, rfl, List.forall_mem_nil _, hpending⟩
  | cons c lead ih =>
    obtain ⟨hc, hlead⟩ := List.forall_mem_cons.mp hlead
    rw [List.cons_append, wordTokens]
    by_cases hspace : isSpace c = true
    · obtain ⟨blanks, pending', heq, hblanks, hpending'⟩ := ih hlead (List.forall_mem_nil _)
      refine ⟨flush pending ++ blanks, pending', by rw [if_pos hspace, heq, List.append_assoc], ?_, hpending'⟩
      exact List.forall_mem_append.mpr ⟨flush_blank hpending, hblanks⟩
    · have hsemicolon : c ≠ ';' := by
        rintro rfl
        cases hc
      rw [if_neg hspace, if_neg hsemicolon]
      exact ih hlead (List.forall_mem_append.mpr ⟨hpending, fun d hd => List.mem_singleton.mp hd ▸ hc⟩)

theorem wordTokens_word {word : Text} (h : ∀ c ∈ word, endsWord c = false) (pending rest : Text) :
    wordTokens pending (word ++ rest) = wordTokens (pending ++ word) rest := by
  induction word generalizing pending with
  | nil => simp
  | cons c word ih =>
    have hc := h c List.mem_cons_self
    simp only [endsWord, Bool.or_eq_false_iff, beq_eq_false_iff_ne] at hc
    rw [List.cons_append, wordTokens, if_neg (by simp [hc.1]), if_neg hc.2, ih fun d hd => h d (List.mem_cons_of_mem c hd)]
    simp

theorem wordTokens_end (pending : Text) {rest : Text} (h : EndsWord rest) :
    ∃ blank others, wordTokens pending rest = flush (pending ++ blank) ++ others ∧ Blank blank := by
  obtain ⟨gap, after, rfl, hgap, hafter⟩ := h
  induction gap generalizing pending with
  | nil =>
    refine ⟨[], ?_⟩
    rw [List.append_nil, List.nil_append]
    cases after with
    | nil => exact ⟨[], by rw [wordTokens, List.append_nil], hgap⟩
    | cons c after =>
      have hc := hafter c rfl
      rw [endsWord, Bool.or_eq_true, beq_iff_eq] at hc
      by_cases hspace : isSpace c = true
      · exact ⟨_, by rw [wordTokens, if_pos hspace], hgap⟩
      · exact ⟨_, by rw [wordTokens, if_neg hspace, if_pos (hc.resolve_left hspace)], hgap⟩
  | cons c gap ih =>
    obtain ⟨hc, hgap⟩ := List.forall_mem_cons.mp hgap
    rw [List.cons_append, wordTokens]
    by_cases hspace : isSpace c = true
    · exact ⟨[], wordTokens [] (gap ++ after), by rw [if_pos hspace, List.append_nil], List.forall_mem_nil _⟩
    · have hsemicolon : c ≠ ';' := by
        rintro rfl
        cases hc
      obtain ⟨blank, others, heq, hblank⟩ := ih (pending ++ [c]) hgap
      refine ⟨c :: blank, others, ?_, List.forall_mem_cons.mpr ⟨hc, hblank⟩⟩
      rw [if_neg hspace, if_neg hsemicolon, heq, List.append_assoc, List.singleton_append]

theorem letters_of_upper {word : Text} (h : toUppercase asciiOnly word ∈ commandWords) :
    word ≠ [] ∧ ∀ c ∈ word, isWhitespace c = false ∧ endsWord c = false := by
  have hletters :
      commandWords.all (fun w => !w.isEmpty && w.all fun c => isAscii c && !isWhitespace c && !endsWord c) = true := by
    decide +kernel
  have hword := List.all_eq_true.mp hletters _ h
  simp only [Bool.and_eq_true, Bool.not_eq_true', List.all_eq_true, List.isEmpty_eq_false_iff] at hword
  obtain ⟨hne, hall⟩ := hword
  constructor
  · rintro rfl
    exact hne rfl
  · intro c hc
    cases hascii : isAscii c with
    | true =>
      have hupper : ∀ c, isAscii c = true → endsWord c.toUpper = false → endsWord c = false :=
        ascii_cases (by decide +kernel)
      obtain ⟨⟨-, hsolid⟩, hends⟩ := hall c.toUpper (List.mem_flatMap.mpr ⟨c, hc, by simp [hascii]⟩)
      exact ⟨(isWhitespace_toUpper c).symm.trans hsolid, hupper c hascii hends⟩
    | false =>
      have hself := (hall c (List.mem_flatMap.mpr ⟨c, hc, by simp [hascii, asciiOnly]⟩)).1.1
      rw [hascii] at hself
      cases hself

def wordTokenizer : Tokenizer asciiOnly where
  tokenize s := some (wordTokens [] s)
  blank w tokens hw htokens := by
    obtain ⟨blanks, pending, heq, hblanks, hpending⟩ := wordTokens_blank hw (List.forall_mem_nil _ : Blank []) []
    rw [List.append_nil] at heq
    rw [Option.some.injEq, heq] at htokens
    rw [← htokens]
    exact List.forall_mem_append.mpr ⟨hblanks, flush_blank hpending⟩
  command lead word rest tokens hlead hword hends htokens := by
    obtain ⟨hne, hletters⟩ := letters_of_upper hword
    obtain ⟨blanks, pending, hblank, hblanks, hpending⟩ :=
      wordTokens_blank hlead (List.forall_mem_nil _ : Blank []) (word ++ rest)
    obtain ⟨blank, others, hend, hafter⟩ := wordTokens_end (pending ++ word) hends
    refine ⟨blanks, pending ++ word ++ blank, commandWords.contains ((pending ++ word ++ blank).map Char.toUpper), others, ?_,
      hblanks, ?_⟩
    · rw [Option.some.injEq, List.append_assoc, hblank, wordTokens_word fun c hc => (hletters c hc).2, hend, flush,
        if_neg (by simp [hne])] at htokens
      exact htokens.symm
    · refine trim_surrounded hpending ⟨hne, fun c hc => ?_, fun c hc => ?_⟩ hafter
      · exact (hletters c (List.mem_of_mem_head? hc)).1
      · exact (hletters c (List.mem_of_getLast? hc)).1

/-- A gateway whose parser sees one statement in every text, with its tokens as the label. -/
def worded : Gateway where
  crates := plainCrates
  parser := ⟨fun s => some [.other ((canonical (wordTokens [] s)).flatMap Token.text) [] [] []], fun _ => []⟩
  config := ⟨"memory".toList, "default".toList⟩
  trino := ⟨fun _ _ => .last ⟨"q0".toList, none, none, none⟩, fun _ _ => .ok []⟩
  clientIsSecure := false

theorem worded_readsTokens : ReadsTokens wordTokenizer worded.parser := by
  rintro a b ⟨ta, tb, hta, htb, hab⟩
  cases hta
  cases htb
  simp only [worded, hab]

theorem asciiOnly_spaceFree : SpaceFree asciiOnly := by
  intro c hc hmem
  rw [asciiOnly, List.mem_singleton] at hmem
  subst hmem
  exact absurd hc (by decide)

def setSpace : Text := "SET search_path TO public".toList

def setTab : Text := "SET\tsearch_path TO public".toList

def setSpaces : Text := "  set   search_path TO\tpublic ;".toList

theorem sameTokens_setTab : SameTokens wordTokenizer setSpace setTab :=
  ⟨_, _, rfl, rfl, by decide +kernel⟩

theorem sameTokens_setSpaces : SameTokens wordTokenizer setSpace setSpaces :=
  ⟨_, _, rfl, rfl, by decide +kernel⟩

theorem hasStatement_setSpace : HasStatement wordTokenizer setSpace := ⟨_, rfl, by decide +kernel⟩

/-- White space elsewhere, letter case and a semicolon make no difference. -/
theorem setSpaces_answered : route worded setSpace = route worded setSpaces :=
  (same_tokens_same_branch worded wordTokenizer asciiOnly_spaceFree worded_readsTokens sameTokens_setSpaces
    hasStatement_setSpace).2.mpr (by decide +kernel)

/-- The same statement is answered by the gateway with a space after `SET`, and by Trino with a tab. -/
theorem tab_reaches_trino :
    SameTokens wordTokenizer setSpace setTab ∧ HasStatement wordTokenizer setSpace ∧
    ReadsTokens wordTokenizer worded.parser ∧ SpaceFree worded.crates.unicode ∧
    route worded setSpace = some .setParameter ∧ route worded setTab = none ∧
    intercepted worded setTab = none := by
  have hset : route worded setSpace = some .setParameter := by decide +kernel
  have htab : route worded setTab = none := by decide +kernel
  refine ⟨sameTokens_setTab, hasStatement_setSpace, worded_readsTokens, asciiOnly_spaceFree, hset, htab, ?_⟩
  rw [intercepted_eq, htab, Option.map_none]

end TrinoGateway.Routing
