/-
  TrinoGateway.Lib.Lexemes — the lexical structure of an SQL text, as PostgreSQL reads it:
  white space and comments (the ones in `/* */` nest), literals in single quotes, with the
  backslash escapes of E'…', and between dollar signs, names in double quotes, words, and
  single characters for the rest. A comment or a literal that is not closed goes to the end.

  `lex_text`: nothing is lost. `cutAt_eq_some_iff`: a list of lexemes is cut at a number of
  characters in at most one way, and `cutAt` finds it.
-/

import TrinoGateway.Lib.Text

namespace TrinoGateway.Lib

inductive LexemeKind where
  /-- White space or a comment. -/
  | blank
  | literal
  | quotedName
  | word
  | symbol
  deriving DecidableEq, Repr

structure Lexeme where
  kind : LexemeKind
  text : Text
  deriving DecidableEq, Repr

namespace Lexeme

def isBlank (x : Lexeme) : Bool := decide (x.kind = .blank)

def isWord (word : String) (x : Lexeme) : Bool := decide (x.kind = .word ∧ CaseVariant x.text word.toList)

end Lexeme

/-- The text of a run of lexemes. -/
def texts (xs : List Lexeme) : Text := xs.flatMap Lexeme.text

theorem texts_append (a b : List Lexeme) : texts (a ++ b) = texts a ++ texts b := List.flatMap_append

/-! ## The lexer -/

def isSqlSpace (c : Char) : Bool := " \t\n\r\x0b\x0c".toList.contains c

def isWordChar (c : Char) : Bool := c.isAlphanum || c == '_' || c == '$' || !isAscii c

def isLineEnd (c : Char) : Bool := c == '\n' || c == '\r'

/-- The characters of a quoted text after its first quote; a quote that is doubled does not end it. -/
def quotedLength (quote : Char) (escapes : Bool) : Text → ℕ
  | [] => 0
  | [_] => 1
  | c :: d :: s =>
    if c = quote then
      if d = quote then 2 + quotedLength quote escapes s else 1
    else if escapes && c == '\\' then 2 + quotedLength quote escapes s
    else 1 + quotedLength quote escapes (d :: s)

/-- The characters of a comment in `/* */` after its first two; `depth` comments are open around it. -/
def commentLength (depth : ℕ) : Text → ℕ
  | [] => 0
  | [_] => 1
  | c :: d :: s =>
    if c = '*' ∧ d = '/' then
      match depth with
      | 0 => 2
      | depth + 1 => 2 + commentLength depth s
    else if c = '/' ∧ d = '*' then 2 + commentLength (depth + 1) s
    else 1 + commentLength depth (d :: s)

/-- The characters of a literal between `$tag$` and `$tag$`, after the first dollar sign. -/
def dollarLength (s : Text) : Option ℕ :=
  let tag := s.takeWhile fun c => isWordChar c && c != '$'
  let delimiter := '$' :: tag ++ ['$']
  if tag.head?.any Char.isDigit || (s.drop tag.length).head? != some '$' then none
  else
    let body := s.drop (tag.length + 1)
    match find? delimiter body with
    | some i => some (tag.length + 1 + i + delimiter.length)
    | none => some s.length

/-- The kind of the lexeme that begins with `c`, and how much of the text after `c` belongs to it. -/
def scan (c : Char) (s : Text) : LexemeKind × ℕ :=
  let quote := Char.ofNat 39
  if isSqlSpace c then (.blank, (s.takeWhile isSqlSpace).length)
  else if c = '-' ∧ s.head? = some '-' then (.blank, (s.takeWhile (!isLineEnd ·)).length)
  else if c = '/' ∧ s.head? = some '*' then (.blank, 1 + commentLength 0 (s.drop 1))
  else if c = quote then (.literal, quotedLength quote false s)
  else if c.toUpper = 'E' ∧ s.head? = some quote then (.literal, 1 + quotedLength quote true (s.drop 1))
  else if c = '"' then (.quotedName, quotedLength '"' false s)
  else if c = '$' then
    match dollarLength s with
    | some n => (.literal, n)
    | none => (.symbol, 0)
  else if isWordChar c then (.word, (s.takeWhile isWordChar).length)
  else (.symbol, 0)

def lexFuel : ℕ → Text → List Lexeme
  | 0, _ => []
  | _ + 1, [] => []
  | n + 1, c :: s => ⟨(scan c s).1, c :: s.take (scan c s).2⟩ :: lexFuel n (s.drop (scan c s).2)

/-- The lexemes of a text. -/
def lex (s : Text) : List Lexeme := lexFuel s.length s

theorem lexFuel_text (n : ℕ) : ∀ s : Text, s.length ≤ n → texts (lexFuel n s) = s := by
  induction n with
  | zero =>
    intro s hs
    rw [List.length_eq_zero_iff.mp (Nat.le_zero.mp hs)]
    rfl
  | succ n ih =>
    intro s hs
    cases s with
    | nil => rfl
    | cons c s =>
      have hrest : (s.drop (scan c s).2).length ≤ n := by
        rw [List.length_drop]
        rw [List.length_cons] at hs
        omega
      show c :: s.take (scan c s).2 ++ texts (lexFuel n (s.drop (scan c s).2)) = c :: s
      rw [ih _ hrest, List.cons_append, List.take_append_drop]

theorem lex_text (s : Text) : texts (lex s) = s := lexFuel_text s.length s le_rfl

theorem lexFuel_ne_nil (n : ℕ) : ∀ s : Text, ∀ x ∈ lexFuel n s, x.text ≠ [] := by
  induction n with
  | zero =>
    intro s x hx
    cases hx
  | succ n ih =>
    intro s x hx
    cases s with
    | nil => cases hx
    | cons c s =>
      rcases List.mem_cons.mp hx with rfl | hx
      · exact List.cons_ne_nil _ _
      · exact ih _ x hx

theorem lex_ne_nil {s : Text} {x : Lexeme} (h : x ∈ lex s) : x.text ≠ [] := lexFuel_ne_nil s.length s x h

/-! ## Cutting -/

/-- The lexemes of the first `n` characters, and the others. -/
def cutAt : ℕ → List Lexeme → Option (List Lexeme × List Lexeme)
  | 0, xs => some ([], xs)
  | _ + 1, [] => none
  | n + 1, x :: xs =>
    if x.text.length ≤ n + 1 then (cutAt (n + 1 - x.text.length) xs).map fun cut => (x :: cut.1, cut.2) else none

theorem cutAt_append {a b : List Lexeme} (h : ∀ x ∈ a, x.text ≠ []) : cutAt (texts a).length (a ++ b) = some (a, b) := by
  induction a with
  | nil => rw [texts, List.flatMap_nil, List.length_nil, List.nil_append, cutAt]
  | cons x a ih =>
    have hpos : 0 < x.text.length := List.length_pos_of_ne_nil (h x List.mem_cons_self)
    have hlength : (texts (x :: a)).length = x.text.length + (texts a).length := by
      rw [texts, List.flatMap_cons, List.length_append, texts]
    obtain ⟨n, hn⟩ : ∃ n, x.text.length + (texts a).length = n + 1 := ⟨x.text.length + (texts a).length - 1, by omega⟩
    have hrest : n + 1 - x.text.length = (texts a).length := by omega
    rw [hlength, hn, List.cons_append, cutAt, if_pos (by omega), hrest, ih fun y hy => h y (List.mem_cons_of_mem _ hy),
      Option.map_some]

theorem append_of_cutAt {xs : List Lexeme} : ∀ {n : ℕ} {a b : List Lexeme}, cutAt n xs = some (a, b) →
    xs = a ++ b ∧ (texts a).length = n := by
  induction xs with
  | nil =>
    intro n a b h
    cases n with
    | zero =>
      cases h
      exact ⟨rfl, rfl⟩
    | succ n => cases h
  | cons x xs ih =>
    intro n a b h
    cases n with
    | zero =>
      cases h
      exact ⟨rfl, rfl⟩
    | succ n =>
      rw [cutAt] at h
      split_ifs at h with hfits
      obtain ⟨cut, hcut, heq⟩ := Option.map_eq_some_iff.mp h
      cases heq
      obtain ⟨hxs, hlength⟩ := ih hcut
      refine ⟨by rw [hxs, List.cons_append], ?_⟩
      rw [texts, List.flatMap_cons, List.length_append, ← texts, hlength]
      omega

theorem cutAt_eq_some_iff {xs a b : List Lexeme} {n : ℕ} (h : ∀ x ∈ xs, x.text ≠ []) :
    cutAt n xs = some (a, b) ↔ xs = a ++ b ∧ (texts a).length = n := by
  constructor
  · exact append_of_cutAt
  · intro ⟨hxs, hlength⟩
    rw [← hlength, hxs]
    exact cutAt_append fun x hx => h x (by rw [hxs]; exact List.mem_append_left b hx)

end TrinoGateway.Lib
