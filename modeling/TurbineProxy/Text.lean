import Mathlib.Algebra.Ring.Int.Defs
import Mathlib.Algebra.Ring.Nat
import Mathlib.Data.List.Basic

/-!
# Text: the `str` operations the proxy decides with

Wire data is `Bytes`, decoded text is `Str` (a list of scalar values). The case mappings are those of
`str::to_uppercase` / `to_lowercase` as far as ASCII can see them: every character whose mapping
contains an ASCII letter is in the table, every other one stays as it is. The proxy only ever
compares the result with ASCII patterns, so a character that maps outside ASCII may stay unmapped.
-/

namespace TurbineProxy

/-- Raw bytes of a packet or a statement. -/
abbrev Bytes : Type := List UInt8

/-- Decoded text. -/
abbrev Str : Type := List Char

instance : LawfulBEq Str := inferInstance

/-- What is found in a table is in it. -/
theorem mem_of_lookup {α β : Type} [BEq α] [LawfulBEq α] {l : List (α × β)} {a : α} {b : β}
    (h : l.lookup a = some b) : (a, b) ∈ l := by
  obtain ⟨l₁, l₂, hsplit, -⟩ := List.lookup_eq_some_iff.mp h
  rw [hsplit]
  exact List.mem_append_right _ (.head _)

namespace Str

/-! ## Whitespace -/

/-- `char::is_whitespace`: the `White_Space` property. -/
def isWhitespace (c : Char) : Bool :=
  let n := c.toNat
  (9 ≤ n && n ≤ 13) || n == 0x20 || n == 0x85 || n == 0xA0 || n == 0x1680 ||
    (0x2000 ≤ n && n ≤ 0x200A) || n == 0x2028 || n == 0x2029 || n == 0x202F || n == 0x205F ||
    n == 0x3000

/-- `str::trim_start` -/
def trimStart (s : Str) : Str := s.dropWhile isWhitespace

/-- `str::trim` -/
def trim (s : Str) : Str := ((trimStart s).reverse.dropWhile isWhitespace).reverse

/-- `str::trim_end` -/
def trimEnd (s : Str) : Str := (s.reverse.dropWhile isWhitespace).reverse

/-- `str::trim_end_matches` with one character -/
def trimEndMatches (c : Char) (s : Str) : Str := (s.reverse.dropWhile (· == c)).reverse

/-- `str::trim_matches` with one character -/
def trimMatches (c : Char) (s : Str) : Str := trimEndMatches c (s.dropWhile (· == c))

/-! ## Case -/

/-- `to_ascii_uppercase` of one character -/
def asciiUpper (c : Char) : Char :=
  if 'a' ≤ c ∧ c ≤ 'z' then Char.ofNat (c.toNat - 32) else c

/-- `to_ascii_lowercase` of one character -/
def asciiLower (c : Char) : Char :=
  if 'A' ≤ c ∧ c ≤ 'Z' then Char.ofNat (c.toNat + 32) else c

/-- `str::to_ascii_uppercase` -/
def toAsciiUppercase (s : Str) : Str := s.map asciiUpper

/-- The characters outside ASCII whose upper case contains an ASCII letter, with that upper case
(dotless i, long s, sharp s, the letters with a combining mark, the Latin ligatures). -/
def upperSpecial : List (Nat × List Nat) :=
  [(0x131, [0x49]), (0x17F, [0x53]), (0xDF, [0x53, 0x53]), (0x149, [0x2BC, 0x4E]),
   (0x1F0, [0x4A, 0x30C]), (0x1E96, [0x48, 0x331]), (0x1E97, [0x54, 0x308]),
   (0x1E98, [0x57, 0x30A]), (0x1E99, [0x59, 0x30A]), (0x1E9A, [0x41, 0x2BE]),
   (0xFB00, [0x46, 0x46]), (0xFB01, [0x46, 0x49]), (0xFB02, [0x46, 0x4C]),
   (0xFB03, [0x46, 0x46, 0x49]), (0xFB04, [0x46, 0x46, 0x4C]), (0xFB05, [0x53, 0x54]),
   (0xFB06, [0x53, 0x54])]

/-- The characters outside ASCII whose lower case contains an ASCII letter (dotted capital I, the
Kelvin sign). -/
def lowerSpecial : List (Nat × List Nat) := [(0x130, [0x69, 0x307]), (0x212A, [0x6B])]

/-- One character of `str::to_uppercase` -/
def upperChar (c : Char) : Str :=
  match upperSpecial.lookup c.toNat with
  | some ns => ns.map Char.ofNat
  | none => [asciiUpper c]

/-- One character of `str::to_lowercase` -/
def lowerChar (c : Char) : Str :=
  match lowerSpecial.lookup c.toNat with
  | some ns => ns.map Char.ofNat
  | none => [asciiLower c]

/-- `str::to_uppercase` -/
def toUppercase (s : Str) : Str := s.flatMap upperChar

/-- `str::to_lowercase` -/
def toLowercase (s : Str) : Str := s.flatMap lowerChar

/-! ## Searching -/

/-- `str::starts_with`, the pattern given as a literal -/
def startsWith (s : Str) (pat : String) : Bool := pat.toList.isPrefixOf s

/-- `str::ends_with`, the pattern given as a literal -/
def endsWith (s : Str) (pat : String) : Bool := pat.toList.isSuffixOf s

/-- Split at the first occurrence of a pattern: what precedes it and what follows it
(`str::find` together with the two slices the callers take). -/
def splitFirst (pat : Str) : Str → Option (Str × Str)
  | [] => if pat.isEmpty then some ([], []) else none
  | c :: s =>
    if pat.isPrefixOf (c :: s) then some ([], (c :: s).drop pat.length)
    else (splitFirst pat s).map fun p => (c :: p.1, p.2)

/-- `str::contains` -/
def contains (s : Str) (pat : String) : Bool := (splitFirst pat.toList s).isSome

/-- The order of strings, by code points. -/
def le (s t : Str) : Bool := !(t.lex s fun c d => c.toNat < d.toNat)

end Str

/-! ## Decoding -/

/-- A continuation byte of a UTF-8 sequence. -/
def isContinuation (b : UInt8) : Bool := 0x80 ≤ b && b ≤ 0xBF

/-- The bytes allowed after the first byte of a sequence of three: no overlong form, no surrogate. -/
def isSecondOfThree (a b : UInt8) : Bool :=
  if a == 0xE0 then 0xA0 ≤ b && b ≤ 0xBF
  else if a == 0xED then 0x80 ≤ b && b ≤ 0x9F
  else isContinuation b

/-- The bytes allowed after the first byte of a sequence of four: no overlong form, at most
`U+10FFFF`. -/
def isSecondOfFour (a b : UInt8) : Bool :=
  if a == 0xF0 then 0x90 ≤ b && b ≤ 0xBF
  else if a == 0xF4 then 0x80 ≤ b && b ≤ 0x8F
  else isContinuation b

/-- Six more bits of a code point. -/
def addBits (n : Nat) (b : UInt8) : Nat := n * 64 + (b.toNat - 0x80)

/-- Decode one chunk that starts with `a`: a character, or `none` for an ill-formed chunk (the longest
prefix of a well-formed sequence, at least one byte), and the bytes after it. -/
def utf8Next (a : UInt8) (s : Bytes) : Option Char × Bytes :=
  if a < 0x80 then (some (Char.ofNat a.toNat), s)
  else if 0xC2 ≤ a && a ≤ 0xDF then
    match s with
    | b :: s₁ =>
      if isContinuation b then (some (Char.ofNat (addBits (a.toNat - 0xC0) b)), s₁) else (none, s)
    | [] => (none, [])
  else if 0xE0 ≤ a && a ≤ 0xEF then
    match s with
    | b :: s₁ =>
      if isSecondOfThree a b then
        match s₁ with
        | c :: s₂ =>
          if isContinuation c then
            (some (Char.ofNat (addBits (addBits (a.toNat - 0xE0) b) c)), s₂)
          else (none, s₁)
        | [] => (none, [])
      else (none, s)
    | [] => (none, [])
  else if 0xF0 ≤ a && a ≤ 0xF4 then
    match s with
    | b :: s₁ =>
      if isSecondOfFour a b then
        match s₁ with
        | c :: s₂ =>
          if isContinuation c then
            match s₂ with
            | d :: s₃ =>
              if isContinuation d then
                (some (Char.ofNat (addBits (addBits (addBits (a.toNat - 0xF0) b) c) d)), s₃)
              else (none, s₂)
            | [] => (none, [])
          else (none, s₁)
        | [] => (none, [])
      else (none, s)
    | [] => (none, [])
  else (none, s)

/-- The chunks of a byte string; every chunk has at least one byte, so its length is enough fuel. -/
def utf8Chunks : Nat → Bytes → List (Option Char)
  | 0, _ => []
  | _ + 1, [] => []
  | n + 1, a :: s => (utf8Next a s).1 :: utf8Chunks n (utf8Next a s).2

/-- `std::str::from_utf8`: the decoded text, `none` unless the bytes are well-formed UTF-8. -/
def fromUtf8 (bytes : Bytes) : Option Str :=
  let chunks := utf8Chunks bytes.length bytes
  if chunks.all Option.isSome then some (chunks.filterMap id) else none

/-- `String::from_utf8_lossy`: every ill-formed chunk becomes `U+FFFD`. -/
def fromUtf8Lossy (bytes : Bytes) : Str :=
  (utf8Chunks bytes.length bytes).map fun c => c.getD (Char.ofNat 0xFFFD)

/-- `str::as_bytes` of one character -/
def utf8Char (c : Char) : Bytes :=
  let n := c.toNat
  if n < 0x80 then [UInt8.ofNat n]
  else if n < 0x800 then [UInt8.ofNat (0xC0 + n / 64), UInt8.ofNat (0x80 + n % 64)]
  else if n < 0x10000 then
    [UInt8.ofNat (0xE0 + n / 4096), UInt8.ofNat (0x80 + n / 64 % 64), UInt8.ofNat (0x80 + n % 64)]
  else
    [UInt8.ofNat (0xF0 + n / 262144), UInt8.ofNat (0x80 + n / 4096 % 64),
     UInt8.ofNat (0x80 + n / 64 % 64), UInt8.ofNat (0x80 + n % 64)]

/-- `str::as_bytes` -/
def toUtf8 (s : Str) : Bytes := s.flatMap utf8Char

/-- `std::str::from_utf8(bytes).unwrap_or("")`, the text view every decision is made on. -/
def textOf (bytes : Bytes) : Str := (fromUtf8 bytes).getD []

/-- The bytes of an ASCII literal, as a client would send them. -/
def asciiBytes (s : String) : Bytes := s.toList.map fun c => UInt8.ofNat c.toNat

example : textOf (asciiBytes "BEGIN") = "BEGIN".toList := by decide

end TurbineProxy
