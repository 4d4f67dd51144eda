import TurbineProxy.LockingReads

/-!
# A lexer for the two dialects

What a text is made of for the server that gets it: comments, texts in quotes, words, signs. Numbers are words here, and
nothing is lost: the lexemes of a text are the text. The dialects are those of the servers the proxy speaks to, MySQL
with backslash escapes and PostgreSQL with `standard_conforming_strings`.

An executable comment of MySQL is code, if the server is recent enough; the lexer passes its marks and remembers that
it is inside.
-/

namespace TurbineProxy

open Str

/-! ## Lexemes -/

/-- The lexical rules of a server. -/
inductive SqlDialect : Type where
  /-- MySQL, and its version as in `/*!80036 … */` -/
  | mysql (version : Nat)
  /-- PostgreSQL -/
  | postgres
  deriving DecidableEq

/-- A piece of an SQL text. -/
inductive Lexeme : Type where
  /-- a blank -/
  | blank (c : Char)
  /-- a comment up to the end of its line -/
  | line (text : Str)
  /-- a comment between marks, or the mark of an executable one -/
  | block (text : Str)
  /-- a literal or a name in quotes -/
  | quoted (text : Str)
  /-- a keyword, a name or a number -/
  | word (w : Str)
  /-- any other character -/
  | sign (c : Char)
  /-- a comment or quotes without an end -/
  | unfinished (text : Str)
  deriving DecidableEq

namespace Lexeme

/-- The text of a lexeme. -/
def text : Lexeme → Str
  | blank c | sign c => [c]
  | line text | block text | quoted text | word text | unfinished text => text

/-- What the grammar sees of it. -/
def token : Lexeme → Option Token
  | blank _ | line _ | block _ | unfinished _ => none
  | quoted _ => some .literal
  | word w => some (.word w)
  | sign c => some (.sign c)

/-- It does not go on with whatever comes next. -/
def closed : Lexeme → Bool
  | line _ | unfinished _ => false
  | _ => true

end Lexeme

/-! ## Comments -/

/-- Up to the end of a comment between marks. `nests`: at this depth another one may begin. -/
def splitBlock (nests : Nat → Bool) : Nat → Str → Option (Str × Str)
  | _, [] | _, [_] => none
  | depth, c :: d :: rest =>
    if c = '*' ∧ d = '/' then
      match depth with
      | 0 => some ([c, d], rest)
      | depth + 1 => (splitBlock nests depth rest).map fun r => (c :: d :: r.1, r.2)
    else if nests depth = true ∧ c = '/' ∧ d = '*' then
      (splitBlock nests (depth + 1) rest).map fun r => (c :: d :: r.1, r.2)
    else (splitBlock nests depth (d :: rest)).map fun r => (c :: r.1, r.2)

theorem splitBlock_text {nests : Nat → Bool} {depth : Nat} {a t r : Str}
    (h : splitBlock nests depth a = some (t, r)) : a = t ++ r := by
  fun_induction splitBlock nests depth a generalizing t with
  | case1 | case2 => cases h
  | case3 c d rest hend =>
    cases h
    rfl
  | case4 c d rest hend depth ih | case5 depth c d rest hend hnest ih =>
    obtain ⟨⟨t', r'⟩, hrest, heq⟩ := Option.map_eq_some_iff.mp h
    cases heq
    rw [List.cons_append, List.cons_append, ← ih hrest]
  | case6 depth c d rest hend hnest ih =>
    obtain ⟨⟨t', r'⟩, hrest, heq⟩ := Option.map_eq_some_iff.mp h
    cases heq
    rw [List.cons_append, ← ih hrest]

namespace SqlDialect

/-- A comment to the end of the line begins. Two hyphens are one for MySQL only before a blank. -/
def opensLine (c : Char) (rest : Str) : SqlDialect → Bool
  | mysql _ =>
    c == '#' || c == '-' && rest.head? == some '-' && (rest.drop 1).head?.all fun k => k.toNat ≤ 32 || k.toNat == 127
  | postgres => c == '-' && rest.head? == some '-'

/-- The end of such a comment. -/
def endsLine : SqlDialect → Char → Bool
  | mysql _, c => c == '\n'
  | postgres, c => c == '\n' || c == '\r'

end SqlDialect

/-- A comment between marks, behind its first mark. -/
def readComment (nests : Nat → Bool) (inside : Bool) (rest : Str) : Lexeme × Str × Bool :=
  match splitBlock nests 0 rest with
  | some (body, after) => (.block ("/*".toList ++ body), after, inside)
  | none => (.unfinished ("/*".toList ++ rest), [], inside)

/-- The version that an executable comment asks for. -/
def commentVersion (rest : Str) : Option Nat :=
  let digits := rest.take 5
  if digits.length = 5 ∧ digits.all Char.isDigit = true then
    some (digits.foldl (fun n c => 10 * n + (c.toNat - 48)) 0)
  else none

/-- What begins with the mark of a comment. In a comment that is not executed there may be another one. -/
def SqlDialect.readBlock (inside : Bool) (rest : Str) : SqlDialect → Lexeme × Str × Bool
  | postgres => readComment (fun _ => true) inside rest
  | mysql version =>
    if rest.head? = some '!' then
      match commentVersion (rest.drop 1) with
      | none => (.block "/*!".toList, rest.drop 1, true)
      | some asked =>
        if asked ≤ version then (.block ("/*".toList ++ rest.take 6), rest.drop 6, true)
        else readComment (· == 0) inside rest
    else readComment (fun _ => false) inside rest

/-!
## Quotes

What ends a token in quotes differs between the two servers, and for PostgreSQL also by the letter in front of the
quote.
-/

/-- Up to the closing quote. Two quotes in a row are one, and a backslash may escape a character. -/
def splitQuote (escapes : Bool) (q : Char) : Str → Option (Str × Str)
  | [] => none
  | [c] => if c = q then some ([c], []) else none
  | c :: d :: rest =>
    if c = q then
      if d = q then (splitQuote escapes q rest).map fun r => (c :: d :: r.1, r.2)
      else some ([c], d :: rest)
    else if escapes = true ∧ c = '\\' then (splitQuote escapes q rest).map fun r => (c :: d :: r.1, r.2)
    else (splitQuote escapes q (d :: rest)).map fun r => (c :: r.1, r.2)

theorem splitQuote_text {escapes : Bool} {q : Char} {a t r : Str} (h : splitQuote escapes q a = some (t, r)) :
    a = t ++ r := by
  fun_induction splitQuote escapes q a generalizing t with
  | case1 | case3 => cases h
  | case2 | case5 =>
    cases h
    rfl
  | case4 rest ih | case6 c d rest hq hescape ih =>
    obtain ⟨⟨t', r'⟩, hrest, heq⟩ := Option.map_eq_some_iff.mp h
    cases heq
    rw [List.cons_append, List.cons_append, ← ih hrest]
  | case7 c d rest hq hescape ih =>
    obtain ⟨⟨t', r'⟩, hrest, heq⟩ := Option.map_eq_some_iff.mp h
    cases heq
    rw [List.cons_append, ← ih hrest]

/-- How a text in quotes begins. -/
inductive Opening : Type where
  /-- a quote, perhaps with a letter before it -/
  | quote (escapes : Bool) (q : Char) (mark : Str)
  /-- `$tag$` -/
  | dollar (mark : Str)

namespace Opening

/-- The text of the beginning. -/
def mark : Opening → Str
  | quote _ _ mark | dollar mark => mark

/-- Up to the end. -/
def close : Opening → Str → Option (Str × Str)
  | quote escapes q _, rest => splitQuote escapes q rest
  | dollar mark, rest => (splitFirst mark rest).map fun r => (r.1 ++ mark, r.2)

end Opening

/-- Characters of the tag between two dollars. -/
def isTagChar (c : Char) : Bool := isLexWordChar c && c != '$'

/-- The tag of a dollar quote, behind its first dollar. -/
def dollarTag (rest : Str) : Option Str :=
  let tag := rest.takeWhile isTagChar
  if tag.head?.any Char.isDigit = false ∧ (rest.dropWhile isTagChar).head? = some '$' then some tag else none

/-- The quote behind `U&`: a string or a name with characters by their codes. -/
def unicodeQuote (rest : Str) : Option Char :=
  if rest.head? = some '&' then (rest.drop 1).head?.filter fun q => q == Char.ofNat 0x27 || q == '"' else none

/-- A text in quotes begins. -/
def SqlDialect.opening (c : Char) (rest : Str) : SqlDialect → Option Opening
  | mysql _ =>
    if c = Char.ofNat 0x27 ∨ c = '"' then some (.quote true c [c])
    else if c = Char.ofNat 0x60 then some (.quote false c [c])
    else none
  | postgres =>
    if c = Char.ofNat 0x27 ∨ c = '"' then some (.quote false c [c])
    else if (c = 'E' ∨ c = 'e') ∧ rest.head? = some (Char.ofNat 0x27) then
      some (.quote true (Char.ofNat 0x27) [c, Char.ofNat 0x27])
    else if c = 'U' ∨ c = 'u' then (unicodeQuote rest).map fun q => .quote false q [c, '&', q]
    else if c = '$' then (dollarTag rest).map fun tag => .dollar ('$' :: (tag ++ ['$']))
    else none

/-! ## The lexer -/

/-- The characters of a word, after its first one. A number of PostgreSQL ends before a dollar. -/
def SqlDialect.inWord (first : Char) : SqlDialect → Char → Bool
  | postgres => if first.isDigit then isTagChar else isLexWordChar
  | mysql _ => isLexWordChar

/-- The first lexeme, what is left, and whether that is inside an executable comment. -/
def readLexeme (d : SqlDialect) (inside : Bool) (c : Char) (rest : Str) : Lexeme × Str × Bool :=
  if isSqlBlank c then (.blank c, rest, inside)
  else if d.opensLine c rest then
    (.line ((c :: rest).takeWhile fun k => !d.endsLine k), (c :: rest).dropWhile fun k => !d.endsLine k, inside)
  else if c = '/' ∧ rest.head? = some '*' then d.readBlock inside (rest.drop 1)
  else if inside = true ∧ c = '*' ∧ rest.head? = some '/' then (.block "*/".toList, rest.drop 1, false)
  else
    match d.opening c rest with
    | some opening =>
      match opening.close ((c :: rest).drop opening.mark.length) with
      | some (body, after) => (.quoted (opening.mark ++ body), after, inside)
      | none => (.unfinished (c :: rest), [], inside)
    | none =>
      -- a dollar begins no word of PostgreSQL
      if isLexWordChar c = true ∧ (d = .postgres → c ≠ '$') then
        (.word (c :: rest.takeWhile (d.inWord c)), rest.dropWhile (d.inWord c), inside)
      else (.sign c, rest, inside)

/-- The lexemes of a text, and whether an executable comment is left open. Every round takes one character at
least. -/
def lexemesLoop (d : SqlDialect) : Nat → Bool → Str → List Lexeme × Bool
  | 0, inside, _ => ([], inside)
  | _ + 1, inside, [] => ([], inside)
  | n + 1, inside, c :: rest =>
    let r := readLexeme d inside c rest
    let more := lexemesLoop d n r.2.2 r.2.1
    (r.1 :: more.1, more.2)

/-- The lexemes of a text, and whether an executable comment is left open. -/
def lexemes (d : SqlDialect) (sql : Str) : List Lexeme × Bool := lexemesLoop d (sql.length + 1) false sql

/-- The tokens of a text. -/
def sqlTokens (d : SqlDialect) (sql : Str) : List Token := (lexemes d sql).1.filterMap Lexeme.token

example : sqlTokens (.mysql 80036) "SELECT `a`, 'it\\'s' /*!50000 LIMIT */ 5 -- x".toList =
    [.word "SELECT".toList, .literal, .sign ',', .literal, .word "LIMIT".toList, .word "5".toList] := by
  decide +kernel
example : sqlTokens .postgres "SELECT $q$it's$q$, E'\\'', u&'\\0441', $1 /* /* */ */ --x".toList =
    [.word "SELECT".toList, .literal, .sign ',', .literal, .sign ',', .literal, .sign ',', .sign '$',
      .word "1".toList] := by
  decide +kernel

end TurbineProxy
