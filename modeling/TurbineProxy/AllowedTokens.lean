import TurbineProxy.FingerprintTexts

/-!
# Tokens of allowed queries

The allowlist should let through what differs from an allowed query in its literals only. What a literal is decides the
server. Its lexer is completed here: numbers and the letters in front of a string belong to literals, and what is left
are the other tokens of a query (`tokens`).

The scanner of `fingerprint` has rules of its own. A text is read alike by both (`readsAlike`) if the scanner takes for
a literal what the lexer takes for one, and nothing else.
-/

namespace TurbineProxy

open Str

/-! ## Numbers -/

/-- Digits. PostgreSQL lets an underscore stand in front of one. -/
def splitDigits (d : SqlDialect) (p : Char → Bool) : Str → Str × Str
  | [] => ([], [])
  | c :: s =>
    if p c = true ∨ d = .postgres ∧ c = '_' ∧ s.head?.any p = true then
      let r := splitDigits d p s
      (c :: r.1, r.2)
    else ([], c :: s)

/-- Decimal digits, perhaps none; the first is no underscore. -/
def splitDecimal (d : SqlDialect) (s : Str) : Str × Str :=
  if s.head?.any Char.isDigit then splitDigits d Char.isDigit s else ([], s)

/-- An exponent, with its sign. -/
def splitExponent (d : SqlDialect) : Str → Option (Str × Str)
  | [] => none
  | e :: s =>
    let sign := (s.take 1).filter fun k => k == '+' || k == '-'
    let digits := splitDecimal d (s.drop sign.length)
    if (e = 'e' ∨ e = 'E') ∧ digits.1 ≠ [] then some (e :: (sign ++ digits.1), digits.2) else none

/-- What follows a decimal point, perhaps nothing. -/
def splitFraction (d : SqlDialect) (s : Str) : Str × Str :=
  let digits := splitDecimal d s
  match splitExponent d digits.2 with
  | some e => (digits.1 ++ e.1, e.2)
  | none => digits

/-- The digits behind a zero and this letter. -/
def SqlDialect.radix : SqlDialect → Char → Option (Char → Bool)
  | mysql _, k =>
    if k = 'x' then some isHexDigit else if k = 'b' then some fun c => c == '0' || c == '1' else none
  | postgres, k =>
    if k = 'x' ∨ k = 'X' then some isHexDigit
    else if k = 'o' ∨ k = 'O' then some fun c => '0' ≤ c && c ≤ '7'
    else if k = 'b' ∨ k = 'B' then some fun c => c == '0' || c == '1'
    else none
where
  /-- `0` to `9` and `a` to `f` -/
  isHexDigit (c : Char) : Bool := c.isDigit || "abcdefABCDEF".toList.contains c

/-- Digits that are part of a name. For PostgreSQL what comes behind a number is another token. -/
def SqlDialect.startsName : SqlDialect → Str → Bool
  | mysql _, s => s.head?.any isLexWordChar
  | postgres, _ => false

/-- A number that is not decimal, behind its zero. -/
def splitRadix (d : SqlDialect) : Str → Option (Str × Str)
  | [] => none
  | k :: s =>
    (d.radix k).bind fun p =>
      let digits := splitDigits d p s
      if digits.1 = [] ∨ d.startsName digits.2 = true then none else some (k :: digits.1, digits.2)

/-- The number a text begins with. -/
def readNumber (d : SqlDialect) (c : Char) (rest : Str) : Option (Str × Str) :=
  match (if c = '0' then splitRadix d rest else none) with
  | some r => some (c :: r.1, r.2)
  | none =>
    if c.isDigit then
      let whole := splitDigits d Char.isDigit (c :: rest)
      match splitExponent d whole.2 with
      | some e => some (whole.1 ++ e.1, e.2)
      | none =>
        if d.startsName whole.2 then none
        -- two points are an operator of PostgreSQL
        else if whole.2.head? = some '.' ∧ (d = .postgres → (whole.2.drop 1).head? ≠ some '.') then
          let fraction := splitFraction d (whole.2.drop 1)
          some (whole.1 ++ '.' :: fraction.1, fraction.2)
        else some whole
    else if c = '.' ∧ rest.head?.any Char.isDigit = true then
      let fraction := splitFraction d rest
      some (c :: fraction.1, fraction.2)
    else none

/-! ## Pieces -/

/-- A lexeme, with numbers among them. -/
inductive SqlPiece : Type where
  /-- a number -/
  | number (text : Str)
  /-- any other lexeme -/
  | other (l : Lexeme)
  deriving DecidableEq

namespace SqlDialect

/-- A letter that belongs to the string behind it. -/
def introduces (c : Char) : SqlDialect → Bool
  | mysql _ => "bBnNxX".toList.contains c
  | postgres => "bBnNxXeE".toList.contains c

/-- A backslash in such a string escapes a character. -/
def introducesEscapes (c : Char) : SqlDialect → Bool
  | mysql _ => true
  | postgres => c == 'e' || c == 'E'

/-- What comes next belongs to a name, even if it begins with a digit: a name of MySQL behind another one and a point,
or behind an at sign. -/
def namesNext (named : Bool) (p : SqlPiece) (rest : Str) : SqlDialect → Bool
  | postgres => false
  | mysql _ =>
    match p with
    | .other (.word _) => rest.head? == some '.' && (rest.drop 1).head?.any isLexWordChar
    | .other (.sign c) => c == '@' || named && c == '.'
    | _ => false

/-- A parameter of PostgreSQL begins here, as in `$1`; MySQL has none. -/
def startsParameter (c : Char) (rest : Str) (d : SqlDialect) : Bool :=
  d == postgres && c == '$' && rest.head?.any Char.isDigit

end SqlDialect

/-- The first piece, what is left, and whether that is inside an executable comment. -/
def readPiece (d : SqlDialect) (named inside : Bool) (c : Char) (rest : Str) : SqlPiece × Str × Bool :=
  match (if named then none else readNumber d c rest) with
  | some r => (.number r.1, r.2, inside)
  | none =>
    if d.introduces c = true ∧ rest.head? = some (Char.ofNat 0x27) then
      match splitQuote (d.introducesEscapes c) (Char.ofNat 0x27) (rest.drop 1) with
      | some (body, after) => (.other (.quoted (c :: Char.ofNat 0x27 :: body)), after, inside)
      | none => (.other (.unfinished (c :: rest)), [], inside)
    else if d.startsParameter c rest = true then
      (.other (.word (c :: rest.takeWhile Char.isDigit)), rest.dropWhile Char.isDigit, inside)
    else
      let r := readLexeme d inside c rest
      (.other r.1, r.2.1, r.2.2)

/-! ## Tokens -/

/-- A token that is no literal. -/
inductive SqlToken : Type where
  /-- a keyword or a name -/
  | word (w : Str)
  /-- a name in quotes -/
  | name (text : Str)
  /-- a sign, and whether there is another one directly before it: then they may be one operator -/
  | sign (c : Char) (joined : Bool)
  deriving DecidableEq

/-- A name in quotes, for PostgreSQL perhaps with `U&` before it. The other quotes are around literals. -/
def SqlDialect.isName (text : Str) : SqlDialect → Bool
  | mysql _ => text.head? == some (Char.ofNat 0x60)
  | postgres => text.head? == some '"' ||
    (text.head? == some 'U' || text.head? == some 'u') && unicodeQuote (text.drop 1) == some '"'

namespace Lexeme

/-- A sign. -/
def isSign : Lexeme → Bool
  | sign _ => true
  | _ => false

/-- The token of a lexeme, if it is not a literal. -/
def named (d : SqlDialect) (joined : Bool) : Lexeme → List SqlToken
  | word w => [.word w]
  | quoted text => if d.isName text then [.name text] else []
  | sign c => [.sign c joined]
  | blank _ | line _ | block _ | unfinished _ => []

end Lexeme

namespace SqlPiece

/-- A sign. -/
def isSign : SqlPiece → Bool
  | number _ => false
  | other l => l.isSign

/-- The token of a piece, if it is not a literal. -/
def named (d : SqlDialect) (joined : Bool) : SqlPiece → List SqlToken
  | number _ => []
  | other l => l.named d joined

end SqlPiece

/-- The tokens of a text, without its literals. Every round takes one character at least. -/
def tokensLoop (d : SqlDialect) : Nat → (named inside joined : Bool) → Str → List SqlToken
  | 0, _, _, _, _ => []
  | _ + 1, _, _, _, [] => []
  | n + 1, named, inside, joined, c :: rest =>
    let r := readPiece d named inside c rest
    r.1.named d joined ++ tokensLoop d n (d.namesNext named r.1 r.2.1) r.2.2 r.1.isSign r.2.1

/-- The keywords, names, operators and punctuation of a text, in their order. -/
def tokens (d : SqlDialect) (sql : Str) : List SqlToken := tokensLoop d (sql.length + 1) false false false sql

/-! ## Reading alike -/

/-- The scanner keeps the text as it is: there are no quotes in it, a digit only stands behind a letter, a digit or an
underscore, and blanks are single spaces. -/
def isKept : (named : Bool) → Str → Bool
  | _, [] => true
  | named, c :: s =>
    c != Char.ofNat 0x27 && c != '"' && (!c.isDigit || named) &&
      (!isBlankChar c || c == ' ' && s.head?.any fun k => !isAsciiWhitespace k) && isKept (isWordChar c) s

/-- The scanner takes the piece at the beginning of `c :: rest` for what it is, and sees `after` behind it. -/
def SqlPiece.isAlike (d : SqlDialect) (c : Char) (rest after : Str) : SqlPiece → Bool
  | number _ => c.isDigit && rest.dropWhile isNumberChar == after
  | other (.blank _) | other (.line _) => true
  -- no quotes, and no version that makes it executable
  | other (.block text) =>
    text.all (fun k => k != Char.ofNat 0x27 && k != '"') &&
      (d == .postgres || text.take 3 != "/*!".toList || text == "/*!".toList)
  | other (.quoted text) =>
    if c = Char.ofNat 0x27 then (splitQuote true c rest).map Prod.snd == some after
    else if c = '"' then
      (splitQuote false c rest).map Prod.snd == some after && (d != .postgres || !text.any isAsciiWhitespace)
    else if d.introduces c = true then (splitQuote true (Char.ofNat 0x27) (rest.drop 1)).map Prod.snd == some after
    -- the scanner keeps `U&`, and knows no dollar quotes
    else if d = .postgres then unicodeQuote rest == some '"' && !text.any isAsciiWhitespace
    else d.isName text && isKept false text
  -- a letter alone that seems to introduce a string
  | other (.word w) => isKept false w && !(w == [c] && d.introduces c && (scanText false after).head? == some '?')
  | other (.sign k) => k != '?' && (d != .postgres || k != '$')
  | other (.unfinished _) => false

end TurbineProxy
