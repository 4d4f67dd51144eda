import TurbineProxy.Rules
import TurbineProxy.TextSearch
import TurbineProxy.Utf8

/-!
# Fingerprints

What `fingerprint` makes of a text, without its fuel: `scan`, with an equation for each branch of the loop and an
induction over its rounds (`scan_induction`). The literals of a query leave no trace but their mark (`Template`), unless
one begins with its decimal point.
-/

namespace TurbineProxy

open Str

/-! ## The loop -/

theorem skipQuoted_length (s : Bytes) : (skipQuoted s).length ≤ s.length := by
  induction s using skipQuoted.induct with
  | case1 a s ih =>
    rw [skipQuoted, List.length_cons, List.length_cons]
    omega
  | case2 s ih =>
    rw [skipQuoted, List.length_cons, List.length_cons]
    omega
  | case3 s h => simp [skipQuoted]
  | case4 b s h₁ h₂ h₃ ih =>
    rw [skipQuoted, List.length_cons]
    · omega
    all_goals assumption
  | case5 => exact Nat.le.refl

theorem readDoubleQuoted_append (s : Bytes) : (readDoubleQuoted s).1 ++ (readDoubleQuoted s).2 = s := by
  induction s using readDoubleQuoted.induct with
  | case1 s ih => simp [readDoubleQuoted, ih]
  | case2 s h => simp [readDoubleQuoted]
  | case3 b s h₁ h₂ ih => simp [readDoubleQuoted, ih]
  | case4 => rfl

theorem readDoubleQuoted_length (s : Bytes) : (readDoubleQuoted s).2.length ≤ s.length := by
  have h := congrArg List.length (readDoubleQuoted_append s)
  rw [List.length_append] at h
  omega

/-- Bytes that are collapsed, with the whitespace behind them. -/
def isBlankByte (b : UInt8) : Prop := b = 0x20 ∨ b = 0x09 ∨ b = 0x0A ∨ b = 0x0D

instance (b : UInt8) : Decidable (isBlankByte b) := inferInstanceAs (Decidable (_ ∨ _))

/-- The character pushed last is part of a name. -/
def inWord (last : Option Char) : Bool := last.elim false isWordChar

/-- What a double-quoted token leaves, read from behind its opening quote. -/
def doubleQuotedOut (s : Bytes) : Str :=
  if (readDoubleQuoted s).1.any isWhitespaceByte then ['?'] else textOf (0x22 :: (readDoubleQuoted s).1)

/-- Fuel beyond the length of the text makes no difference. -/
theorem fingerprintLoop_fuel {n m : Nat} {last : Option Char} {s : Bytes} (hn : s.length ≤ n) (hm : s.length ≤ m) :
    fingerprintLoop n last s = fingerprintLoop m last s := by
  induction n generalizing m last s with
  | zero =>
    obtain rfl : s = [] := List.eq_nil_of_length_eq_zero (by omega)
    cases m with
    | zero => rfl
    | succ m => rfl
  | succ n ih =>
    cases s with
    | nil =>
      cases m with
      | zero => rfl
      | succ m => rfl
    | cons b s =>
      rw [List.length_cons] at hn hm
      obtain ⟨m, rfl⟩ : ∃ k, m = k + 1 := ⟨m - 1, by omega⟩
      have hrest {t : Bytes} (last : Option Char) (ht : t.length ≤ s.length) :
          fingerprintLoop n last t = fingerprintLoop m last t := ih (by omega) (by omega)
      simp only [fingerprintLoop, hrest _ (skipQuoted_length s), hrest _ (readDoubleQuoted_length s),
        hrest _ (List.length_dropWhile_le _ s), hrest _ Nat.le.refl]

/-- The loop of `fingerprint` behind the character `last`. -/
def scan (last : Option Char) (s : Bytes) : Str := fingerprintLoop s.length last s

theorem fingerprint_eq (sql : Str) : fingerprint sql = scan none (toUtf8 sql) := rfl

theorem scan_eq {n : Nat} {last : Option Char} {s : Bytes} (h : s.length ≤ n) :
    fingerprintLoop n last s = scan last s := fingerprintLoop_fuel h Nat.le.refl

section Equations

variable (last : Option Char) (s : Bytes) {b : UInt8}

@[simp] theorem scan_nil : scan last [] = [] := rfl

theorem scan_cons (b : UInt8) : scan last (b :: s) =
    if b = 0x27 then '?' :: scan (some '?') (skipQuoted s)
    else if b = 0x22 then doubleQuotedOut s ++ scan (doubleQuotedOut s).getLast? (readDoubleQuoted s).2
    else if isDigitByte b then
      if inWord last then byteChar b :: scan (some (byteChar b)) s
      else '?' :: scan (some '?') (s.dropWhile isNumberByte)
    else if isBlankByte b then ' ' :: scan (some ' ') (s.dropWhile isWhitespaceByte)
    else byteChar b :: scan (some (byteChar b)) s := by
  rw [scan, List.length_cons, fingerprintLoop]
  simp only [scan_eq (skipQuoted_length s), scan_eq (readDoubleQuoted_length s),
    scan_eq (List.length_dropWhile_le _ s), scan_eq (Nat.le_refl s.length)]
  rfl

theorem scan_quoted : scan last (0x27 :: s) = '?' :: scan (some '?') (skipQuoted s) := by
  rw [scan_cons, if_pos rfl]

theorem scan_doubleQuoted : scan last (0x22 :: s) =
    doubleQuotedOut s ++ scan (doubleQuotedOut s).getLast? (readDoubleQuoted s).2 := by
  rw [scan_cons, if_neg (by decide), if_pos rfl]

theorem digit_not_quote (hb : isDigitByte b = true) : b ≠ 0x27 ∧ b ≠ 0x22 := by
  constructor
  · rintro rfl
    exact absurd hb (by decide)
  · rintro rfl
    exact absurd hb (by decide)

theorem scan_kept (hb : isDigitByte b = true) (hlast : inWord last = true) :
    scan last (b :: s) = byteChar b :: scan (some (byteChar b)) s := by
  obtain ⟨h₁, h₂⟩ := digit_not_quote hb
  rw [scan_cons, if_neg h₁, if_neg h₂, if_pos hb, if_pos hlast]

theorem scan_number (hb : isDigitByte b = true) (hlast : inWord last = false) :
    scan last (b :: s) = '?' :: scan (some '?') (s.dropWhile isNumberByte) := by
  obtain ⟨h₁, h₂⟩ := digit_not_quote hb
  rw [scan_cons, if_neg h₁, if_neg h₂, if_pos hb, if_neg (by rw [hlast]; decide)]

theorem scan_blank (hb : isBlankByte b) :
    scan last (b :: s) = ' ' :: scan (some ' ') (s.dropWhile isWhitespaceByte) := by
  have h : b ≠ 0x27 ∧ b ≠ 0x22 ∧ isDigitByte b = false := by
    rcases hb with rfl | rfl | rfl | rfl <;> decide
  rw [scan_cons, if_neg h.1, if_neg h.2.1, if_neg (by rw [h.2.2]; decide), if_pos hb]

/-- Bytes that pass through as they are. -/
structure Plain (b : UInt8) : Prop where
  notQuote : b ≠ 0x27
  notDoubleQuote : b ≠ 0x22
  notDigit : isDigitByte b = false
  notBlank : ¬isBlankByte b

theorem scan_plain (hb : Plain b) : scan last (b :: s) = byteChar b :: scan (some (byteChar b)) s := by
  rw [scan_cons, if_neg hb.notQuote, if_neg hb.notDoubleQuote, if_neg (by rw [hb.notDigit]; decide),
    if_neg hb.notBlank]

end Equations

/-- Induction over the rounds of the loop. -/
theorem scan_induction {P : Option Char → Bytes → Prop} (nil : ∀ last, P last [])
    (quoted : ∀ last s, P (some '?') (skipQuoted s) → P last (0x27 :: s))
    (doubleQuoted : ∀ last s, P (doubleQuotedOut s).getLast? (readDoubleQuoted s).2 → P last (0x22 :: s))
    (kept : ∀ last b s, isDigitByte b = true → inWord last = true → P (some (byteChar b)) s → P last (b :: s))
    (number : ∀ last b s, isDigitByte b = true → inWord last = false →
      P (some '?') (s.dropWhile isNumberByte) → P last (b :: s))
    (blank : ∀ last b s, isBlankByte b → P (some ' ') (s.dropWhile isWhitespaceByte) → P last (b :: s))
    (plain : ∀ last b s, Plain b → P (some (byteChar b)) s → P last (b :: s))
    (last : Option Char) (s : Bytes) : P last s := by
  generalize hn : s.length = n
  induction n using Nat.strongRecOn generalizing last s with
  | _ n ih =>
    cases s with
    | nil => exact nil last
    | cons b s =>
      have hrest (last : Option Char) {t : Bytes} (ht : t.length ≤ s.length) : P last t := by
        apply ih t.length _ last t rfl
        rw [← hn, List.length_cons]
        omega
      by_cases h₁ : b = 0x27
      · subst h₁
        exact quoted last s (hrest _ (skipQuoted_length s))
      by_cases h₂ : b = 0x22
      · subst h₂
        exact doubleQuoted last s (hrest _ (readDoubleQuoted_length s))
      by_cases h₃ : isDigitByte b = true
      · cases hlast : inWord last with
        | true => exact kept last b s h₃ hlast (hrest _ Nat.le.refl)
        | false => exact number last b s h₃ hlast (hrest _ (List.length_dropWhile_le _ s))
      by_cases h₄ : isBlankByte b
      · exact blank last b s h₄ (hrest _ (List.length_dropWhile_le _ s))
      · exact plain last b s ⟨h₁, h₂, Bool.eq_false_iff.mpr h₃, h₄⟩ (hrest _ Nat.le.refl)

/-! ## Bytes of characters -/

/-- The byte of an ASCII character. -/
def asciiByte (c : Char) : UInt8 := UInt8.ofNat c.toNat

theorem utf8Char_of_ascii {c : Char} (h : c.toNat < 128) : utf8Char c = [asciiByte c] := if_pos h

theorem byteChar_asciiByte {c : Char} (h : c.toNat < 128) : byteChar (asciiByte c) = c := by
  rw [byteChar, asciiByte, byte_ofNat (by omega), Char.ofNat_toNat]

theorem utf8Char_beyond {c : Char} (h : 128 ≤ c.toNat) : ∀ b ∈ utf8Char c, 128 ≤ b.toNat := by
  intro b hb
  have hvalid := char_valid c
  rw [utf8Char, if_neg (by omega)] at hb
  have hbyte {n : Nat} (hn : 128 ≤ n ∧ n < 256) (hbn : b = UInt8.ofNat n) : 128 ≤ b.toNat := by
    rw [hbn, byte_ofNat hn.2]
    exact hn.1
  split at hb
  · rcases List.mem_cons.mp hb with hb | hb
    · exact hbyte (by omega) hb
    · exact hbyte (by omega) (List.mem_singleton.mp hb)
  · split at hb
    · simp only [List.mem_cons, List.not_mem_nil, or_false] at hb
      rcases hb with hb | hb | hb <;> exact hbyte (by omega) hb
    · simp only [List.mem_cons, List.not_mem_nil, or_false] at hb
      rcases hb with hb | hb | hb | hb <;> exact hbyte (by omega) hb

theorem toUtf8_append (s t : Str) : toUtf8 (s ++ t) = toUtf8 s ++ toUtf8 t := List.flatMap_append

theorem toUtf8_cons (c : Char) (s : Str) : toUtf8 (c :: s) = utf8Char c ++ toUtf8 s := rfl

theorem toUtf8_of_ascii {s : Str} (h : ∀ c ∈ s, c.toNat < 128) : toUtf8 s = s.map asciiByte := by
  induction s with
  | nil => rfl
  | cons c s ih =>
    rw [toUtf8_cons, utf8Char_of_ascii (h c List.mem_cons_self), ih fun d hd => h d (List.mem_cons_of_mem c hd)]
    rfl

/-! ## A literal in its place -/

/-- Nothing behind a literal goes on with it. -/
def Closes (r : Bytes) : Prop := ∀ b ∈ r.head?, b ≠ 0x27 ∧ isNumberByte b = false

/-- A text that leaves `mark` wherever it stands, as long as no name goes on there. -/
structure IsHole (text mark : Str) : Prop where
  scan_append (last : Option Char) (r : Bytes) : inWord last = false → Closes r →
    scan last (toUtf8 text ++ r) = mark ++ scan (some '?') r
  notBlank : ∃ b s, toUtf8 text = b :: s ∧ isWhitespaceByte b = false

/-- A mark is its own mark. -/
theorem isHole_mark : IsHole ['?'] ['?'] where
  scan_append last r _ _ := scan_plain last r ⟨by decide, by decide, by decide, by decide⟩
  notBlank := ⟨0x3F, [], rfl, by decide⟩

theorem skipQuoted_other {b : UInt8} (h₁ : b ≠ 0x5C) (h₂ : b ≠ 0x27) (s : Bytes) :
    skipQuoted (b :: s) = skipQuoted s := by
  rw [skipQuoted]
  · rintro _ _ rfl
    exact absurd rfl h₁
  · rintro _ rfl
    exact absurd rfl h₂
  · exact h₂

theorem skipQuoted_others {bytes : Bytes} (h : ∀ b ∈ bytes, 128 ≤ b.toNat) (s : Bytes) :
    skipQuoted (bytes ++ s) = skipQuoted s := by
  induction bytes with
  | nil => rfl
  | cons b bytes ih =>
    have hb := h b List.mem_cons_self
    rw [List.cons_append, skipQuoted_other, ih fun a ha => h a (List.mem_cons_of_mem b ha)]
    · rintro rfl
      exact absurd hb (by decide)
    · rintro rfl
      exact absurd hb (by decide)

/-- The character that encloses a string. -/
def singleQuote : Char := Char.ofNat 0x27

/-- A piece of the inside of a string. -/
inductive StringPiece : Type where
  /-- a character that stands for itself -/
  | plain (c : Char) (h : c ≠ singleQuote ∧ c ≠ '\\')
  /-- a quote, written twice -/
  | doubled
  /-- any character behind a backslash -/
  | escaped (c : Char)

/-- The text of a piece. -/
def StringPiece.text : StringPiece → Str
  | .plain c _ => [c]
  | .doubled => [singleQuote, singleQuote]
  | .escaped c => ['\\', c]

/-- The reader of a string passes over its pieces. -/
theorem skipQuoted_piece (p : StringPiece) (s : Bytes) : skipQuoted (toUtf8 p.text ++ s) = skipQuoted s := by
  cases p with
  | plain c h =>
    rw [StringPiece.text, toUtf8_cons, List.append_assoc]
    by_cases hc : c.toNat < 128
    · rw [utf8Char_of_ascii hc]
      apply skipQuoted_other
      · rintro hb
        exact h.2 (by rw [← byteChar_asciiByte hc, hb]; rfl)
      · rintro hb
        exact h.1 (by rw [← byteChar_asciiByte hc, hb]; rfl)
    · exact skipQuoted_others (utf8Char_beyond (by omega)) s
  | doubled => exact skipQuoted.eq_2 s
  | escaped c =>
    rw [StringPiece.text, toUtf8_cons, toUtf8_cons, List.append_assoc, List.append_assoc]
    by_cases hc : c.toNat < 128
    · rw [utf8Char_of_ascii hc]
      exact skipQuoted.eq_1 _ s
    · -- only the first byte of the character is escaped, and the others are no quotes
      obtain ⟨a, tail, hbytes⟩ := List.exists_cons_of_ne_nil (utf8Char_ne_nil c)
      have hbeyond := utf8Char_beyond (c := c) (by omega)
      rw [hbytes] at hbeyond ⊢
      exact (skipQuoted.eq_1 a _).trans
        (skipQuoted_others (fun b hb => hbeyond b (List.mem_cons_of_mem a hb)) s)

theorem skipQuoted_pieces (pieces : List StringPiece) (s : Bytes) :
    skipQuoted (toUtf8 (pieces.flatMap StringPiece.text) ++ s) = skipQuoted s := by
  induction pieces with
  | nil => rfl
  | cons p pieces ih => rw [List.flatMap_cons, toUtf8_append, List.append_assoc, skipQuoted_piece, ih]

theorem skipQuoted_end {r : Bytes} (hr : Closes r) : skipQuoted (0x27 :: r) = r := by
  cases r with
  | nil => rfl
  | cons b r =>
    rw [skipQuoted]
    rintro _ h
    exact (hr b rfl).1 (List.cons.inj h).1

/-- A digit as a character. -/
def digitChar (d : Fin 10) : Char := Char.ofNat (0x30 + d)

theorem asciiByte_digitChar (d : Fin 10) : (digitChar d).toNat < 128 ∧ isDigitByte (asciiByte (digitChar d)) = true := by
  revert d
  decide

/-- The literals a query may have where a template has a hole. -/
inductive SqlLiteral : Type where
  /-- a string in single quotes -/
  | quoted (pieces : List StringPiece)
  /-- an unsigned integer -/
  | integer (digits : List (Fin 10)) (h : digits ≠ [])
  /-- an unsigned number with a decimal point -/
  | decimal (whole fraction : List (Fin 10)) (h : whole ≠ [] ∨ fraction ≠ [])

namespace SqlLiteral

/-- The literal as it is written. -/
def text : SqlLiteral → Str
  | quoted pieces => singleQuote :: (pieces.flatMap StringPiece.text ++ [singleQuote])
  | integer digits _ => digits.map digitChar
  | decimal whole fraction _ => whole.map digitChar ++ '.' :: fraction.map digitChar

/-- The literal begins with its decimal point. -/
def startsWithPoint : SqlLiteral → Bool
  | decimal [] _ _ => true
  | _ => false

/-- What a fingerprint has for the literal. -/
def mark (l : SqlLiteral) : Str := if l.startsWithPoint then ['.', '?'] else ['?']

end SqlLiteral

theorem dropWhile_digits (digits : List (Fin 10)) (r : Bytes) :
    (toUtf8 (digits.map digitChar) ++ r).dropWhile isNumberByte = r.dropWhile isNumberByte := by
  induction digits with
  | nil => rfl
  | cons d digits ih =>
    obtain ⟨hascii, hdigit⟩ := asciiByte_digitChar d
    rw [List.map_cons, toUtf8_cons, utf8Char_of_ascii hascii, List.append_assoc, List.singleton_append,
      List.dropWhile_cons_of_pos (by rw [isNumberByte, hdigit]; rfl), ih]

theorem dropWhile_closed {r : Bytes} (hr : Closes r) : r.dropWhile isNumberByte = r := by
  cases r with
  | nil => rfl
  | cons b r => exact List.dropWhile_cons_of_neg (by rw [(hr b rfl).2]; decide)

/-- A number that begins with a digit leaves one mark, whatever number bytes `s` it goes on with. -/
theorem scan_digit {last : Option Char} (hlast : inWord last = false) (d : Fin 10) {s r : Bytes}
    (h : s.dropWhile isNumberByte = r) : scan last (utf8Char (digitChar d) ++ s) = '?' :: scan (some '?') r := by
  obtain ⟨hascii, hdigit⟩ := asciiByte_digitChar d
  rw [utf8Char_of_ascii hascii, List.singleton_append, scan_number last s hdigit hlast, h]

theorem digit_notBlank (d : Fin 10) (s : Bytes) :
    ∃ b t, utf8Char (digitChar d) ++ s = b :: t ∧ isWhitespaceByte b = false :=
  ⟨asciiByte (digitChar d), s, by rw [utf8Char_of_ascii (asciiByte_digitChar d).1]; rfl, by revert d; decide⟩

theorem dropWhile_fraction (fraction : List (Fin 10)) {r : Bytes} (hr : Closes r) :
    (toUtf8 ('.' :: fraction.map digitChar) ++ r).dropWhile isNumberByte = r :=
  (dropWhile_digits fraction r).trans (dropWhile_closed hr)

/-- Every literal leaves its mark. -/
theorem SqlLiteral.isHole (l : SqlLiteral) : IsHole l.text l.mark := by
  cases l with
  | quoted pieces =>
    refine ⟨fun last r _ hr => ?_, 0x27, _, rfl, by decide⟩
    rw [SqlLiteral.text, toUtf8_cons, toUtf8_append, List.append_assoc, List.append_assoc]
    refine (scan_quoted last _).trans (congrArg ('?' :: scan (some '?') ·) ?_)
    exact (skipQuoted_pieces pieces _).trans (skipQuoted_end hr)
  | integer digits h =>
    obtain ⟨d, digits, rfl⟩ := List.exists_cons_of_ne_nil h
    refine ⟨fun last r hlast hr => ?_, digit_notBlank d _⟩
    rw [SqlLiteral.text, List.map_cons, toUtf8_cons, List.append_assoc]
    exact scan_digit hlast d ((dropWhile_digits digits r).trans (dropWhile_closed hr))
  | decimal whole fraction h =>
    cases whole with
    | cons d whole =>
      refine ⟨fun last r hlast hr => ?_, digit_notBlank d _⟩
      rw [SqlLiteral.text, List.map_cons, List.cons_append, toUtf8_cons, toUtf8_append, List.append_assoc,
        List.append_assoc]
      exact scan_digit hlast d ((dropWhile_digits whole _).trans (dropWhile_fraction fraction hr))
    | nil =>
      -- the point passes through, and what follows it is the number
      obtain ⟨d, fraction, rfl⟩ := List.exists_cons_of_ne_nil (h.resolve_left fun hwhole => hwhole rfl)
      refine ⟨fun last r _ hr => ?_, 0x2E, _, rfl, by decide⟩
      refine (scan_plain last _ ⟨by decide, by decide, by decide, by decide⟩).trans (congrArg ('.' :: ·) ?_)
      change scan (some '.') (utf8Char (digitChar d) ++ toUtf8 (fraction.map digitChar) ++ r) = _
      rw [List.append_assoc]
      exact scan_digit rfl d ((dropWhile_digits fraction r).trans (dropWhile_closed hr))

/-! ## The text between literals -/

/-- The last character of `f`, or `last` when there is none. -/
def lastOf (last : Option Char) (f : Bytes) : Option Char := (f.getLast?.map byteChar).or last

@[simp] theorem lastOf_nil (last : Option Char) : lastOf last [] = last := rfl

theorem lastOf_append (last : Option Char) (f g : Bytes) : lastOf last (f ++ g) = lastOf (lastOf last f) g := by
  rw [lastOf, lastOf, lastOf, List.getLast?_append]
  cases g.getLast? with
  | none => rfl
  | some b => rfl

theorem lastOf_cons (last : Option Char) (b : UInt8) (f : Bytes) :
    lastOf last (b :: f) = lastOf (some (byteChar b)) f := lastOf_append last [b] f

theorem inWord_lastOf {last last' : Option Char} (h : inWord last = false) (h' : inWord last' = false) (f : Bytes) :
    inWord (lastOf last f) = inWord (lastOf last' f) := by
  rw [lastOf, lastOf]
  cases f.getLast? with
  | none => exact h.trans h'.symm
  | some b => rfl

theorem inWord_of_whitespace {b : UInt8} (h : isWhitespaceByte b = true) : inWord (some (byteChar b)) = false := by
  have hb : (byteChar b).toNat = 32 ∨ (byteChar b).toNat = 9 ∨ (byteChar b).toNat = 10 ∨
      (byteChar b).toNat = 12 ∨ (byteChar b).toNat = 13 := by
    simpa [isWhitespaceByte, isAsciiWhitespace, or_assoc] using h
  rw [← Char.ofNat_toNat (byteChar b)]
  rcases hb with hb | hb | hb | hb | hb <;> rw [hb] <;> decide

theorem inWord_lastOf_whitespace {last : Option Char} {f : Bytes} (hlast : inWord last = false)
    (h : ∀ b ∈ f, isWhitespaceByte b = true) : inWord (lastOf last f) = false := by
  rw [lastOf]
  cases hf : f.getLast? with
  | none => exact hlast
  | some b => exact inWord_of_whitespace (h b (List.mem_of_getLast? hf))

/-- Every digit of the text stands behind a part of a name; `last` is what the text follows. -/
def DigitsInWords (last : Option Char) (f : Bytes) : Prop :=
  ∀ before d after, f = before ++ d :: after → isDigitByte d = true → inWord (lastOf last before) = true

theorem DigitsInWords.of_append {last : Option Char} {f g : Bytes} (h : DigitsInWords last (f ++ g)) :
    DigitsInWords (lastOf last f) g := by
  intro before d after hg hd
  rw [← lastOf_append]
  exact h (f ++ before) d after (by rw [hg, List.append_assoc]) hd

/-- Between two characters of no name there is no difference. -/
theorem DigitsInWords.congr {last last' : Option Char} {f : Bytes} (hlast : inWord last = false)
    (hlast' : inWord last' = false) (h : DigitsInWords last f) : DigitsInWords last' f := by
  intro before d after hf hd
  rw [inWord_lastOf hlast' hlast]
  exact h before d after hf hd

/-- No round that begins in `f` reads beyond it, where no blank follows. -/
theorem scan_fragment (last : Option Char) (f : Bytes) {r : Bytes} (hquotes : 0x27 ∉ f ∧ 0x22 ∉ f)
    (hdigits : DigitsInWords last f) (hend : inWord (lastOf last f) = false)
    (hblank : ∀ b ∈ r.head?, isWhitespaceByte b = false)
    (hlook : ∀ last, inWord last = false → scan last r = scan none r) :
    scan last (f ++ r) = scan last f ++ scan none r := by
  induction last, f using scan_induction with
  | nil last => exact hlook last hend
  | quoted last s => exact absurd List.mem_cons_self hquotes.1
  | doubleQuoted last s => exact absurd List.mem_cons_self hquotes.2
  | number last b s hb hlast =>
    have h := hdigits [] b s rfl hb
    rw [lastOf_nil, hlast] at h
    cases h
  | kept last b s hb hlast ih =>
    rw [List.cons_append, scan_kept last _ hb hlast, scan_kept last _ hb hlast, List.cons_append]
    rw [lastOf_cons] at hend
    refine congrArg (byteChar b :: ·) (ih ⟨?_, ?_⟩ (hdigits.of_append (f := [b])) hend)
    · exact fun h => hquotes.1 (List.mem_cons_of_mem b h)
    · exact fun h => hquotes.2 (List.mem_cons_of_mem b h)
  | plain last b s hb ih =>
    rw [List.cons_append, scan_plain last _ hb, scan_plain last _ hb, List.cons_append]
    rw [lastOf_cons] at hend
    refine congrArg (byteChar b :: ·) (ih ⟨?_, ?_⟩ (hdigits.of_append (f := [b])) hend)
    · exact fun h => hquotes.1 (List.mem_cons_of_mem b h)
    · exact fun h => hquotes.2 (List.mem_cons_of_mem b h)
  | blank last b s hb ih =>
    have hsplit : [b] ++ s.takeWhile isWhitespaceByte ++ s.dropWhile isWhitespaceByte = b :: s := by
      rw [List.append_assoc, List.takeWhile_append_dropWhile]
      rfl
    have hdrop : (s ++ r).dropWhile isWhitespaceByte = s.dropWhile isWhitespaceByte ++ r := by
      rw [List.dropWhile_append]
      split
      · next hnil =>
        rw [List.isEmpty_iff.mp hnil, List.nil_append]
        cases r with
        | nil => rfl
        | cons a r => exact List.dropWhile_cons_of_neg (by rw [hblank a rfl]; decide)
      · rfl
    have hspace : inWord (lastOf (some (byteChar b)) (s.takeWhile isWhitespaceByte)) = false := by
      apply inWord_lastOf_whitespace
      · rcases hb with rfl | rfl | rfl | rfl <;> decide
      · exact fun a ha => List.mem_takeWhile_imp ha
    rw [← hsplit, lastOf_append, List.singleton_append, lastOf_cons] at hend
    rw [← hsplit, List.singleton_append] at hdigits
    have hrest := hdigits.of_append
    rw [lastOf_cons] at hrest
    rw [List.cons_append, scan_blank last _ hb, scan_blank last _ hb, hdrop, List.cons_append]
    refine congrArg (' ' :: ·) (ih ⟨?_, ?_⟩ (hrest.congr hspace rfl) ?_)
    · exact fun h => hquotes.1 (List.mem_cons_of_mem b ((List.dropWhile_suffix _).subset h))
    · exact fun h => hquotes.2 (List.mem_cons_of_mem b ((List.dropWhile_suffix _).subset h))
    · rwa [inWord_lastOf rfl hspace]

/-! ## Templates -/

/-- A text without literals. -/
structure IsFragment (f : Str) : Prop where
  ascii : ∀ c ∈ f, c.toNat < 128
  unquoted : singleQuote ∉ f ∧ '"' ∉ f
  /-- digits only directly behind a letter, a digit or an underscore -/
  digits : ∀ before d after, f = before ++ d :: after → d.isDigit = true →
    before.getLast?.elim false isWordChar = true

/-- Without quotes and digits a text in ASCII is a fragment. -/
theorem isFragment_of_all {f : Str}
    (h : (f.all fun c => c.toNat < 128 && c != singleQuote && c != '"' && !c.isDigit) = true) : IsFragment f := by
  simp only [List.all_eq_true, Bool.and_eq_true, decide_eq_true_eq, bne_iff_ne, Bool.not_eq_true'] at h
  refine ⟨fun c hc => (h c hc).1.1.1, ⟨fun hc => (h _ hc).1.1.2 rfl, fun hc => (h _ hc).1.2 rfl⟩, ?_⟩
  rintro before d after rfl hd
  have hnot := (h d (List.mem_append_right _ List.mem_cons_self)).2
  rw [hd] at hnot
  cases hnot

/-- A query with holes for literals: a fragment before the first one, and one behind each. -/
structure Template : Type where
  /-- before the first hole -/
  head : Str
  /-- behind each hole -/
  rest : List Str
  fragments : ∀ f ∈ head :: rest, IsFragment f
  /-- no two literals are next to each other -/
  apart : ∀ f ∈ rest.dropLast, f ≠ []
  /-- before a hole no name goes on -/
  endings : ∀ f ∈ (head :: rest).dropLast, f.getLast?.elim false isWordChar = false
  /-- behind a hole no number goes on -/
  starts : ∀ f ∈ rest, ∀ c ∈ f.head?, isNumberByte (asciiByte c) = false

/-- The fragments with `texts` in the holes between them, from the hole with index `i` on. -/
def fillFrom (texts : Nat → Str) : Nat → List Str → Str
  | _, [] => []
  | i, f :: rest => texts i ++ (f ++ fillFrom texts (i + 1) rest)

/-- The query with `texts` in its holes. -/
def Template.fill (t : Template) (texts : Nat → Str) : Str := t.head ++ fillFrom texts 0 t.rest

namespace IsFragment

variable {f : Str} (hf : IsFragment f)

include hf

theorem toUtf8_eq : toUtf8 f = f.map asciiByte := toUtf8_of_ascii hf.ascii

theorem mem_toUtf8 {b : UInt8} (h : b ∈ toUtf8 f) : byteChar b ∈ f := by
  rw [hf.toUtf8_eq] at h
  obtain ⟨c, hc, rfl⟩ := List.mem_map.mp h
  rwa [byteChar_asciiByte (hf.ascii c hc)]

theorem lastOf_toUtf8 (last : Option Char) : lastOf last (toUtf8 f) = f.getLast?.or last := by
  rw [lastOf, hf.toUtf8_eq, List.getLast?_map]
  cases h : f.getLast? with
  | none => rfl
  | some c =>
    exact congrArg (some · |>.or last) (byteChar_asciiByte (hf.ascii c (List.mem_of_getLast? h)))

theorem digitsInWords (last : Option Char) : DigitsInWords last (toUtf8 f) := by
  intro before d after heq hd
  rw [hf.toUtf8_eq] at heq
  obtain ⟨before', tail, hsplit, rfl, htail⟩ := List.map_eq_append_iff.mp heq
  obtain ⟨d', after', rfl, rfl, rfl⟩ := List.map_eq_cons_iff.mp htail
  have hascii : ∀ c ∈ before', c.toNat < 128 := fun c hc => hf.ascii c (hsplit ▸ List.mem_append_left _ hc)
  have hd' : d'.toNat < 128 := hf.ascii d' (hsplit ▸ List.mem_append_right _ List.mem_cons_self)
  have hdigit : d'.isDigit = true := by
    have hnat : (asciiByte d').toNat = d'.toNat := byte_ofNat (by omega)
    simp only [isDigitByte, Bool.and_eq_true, decide_eq_true_eq, UInt8.le_iff_toNat_le, hnat] at hd
    simpa [Char.isDigit, UInt32.le_iff_toNat_le] using hd
  have hword := hf.digits before' d' after' hsplit hdigit
  rw [lastOf, List.getLast?_map]
  cases h : before'.getLast? with
  | none =>
    rw [h] at hword
    cases hword
  | some c =>
    rw [h] at hword
    simpa [byteChar_asciiByte (hascii c (List.mem_of_getLast? h)), inWord] using hword

theorem no_quotes : 0x27 ∉ toUtf8 f ∧ 0x22 ∉ toUtf8 f :=
  ⟨fun h => hf.unquoted.1 (hf.mem_toUtf8 h), fun h => hf.unquoted.2 (hf.mem_toUtf8 h)⟩

end IsFragment

/-- What goes before a hole may be read on its own. -/
theorem IsHole.scan_before {text mark : Str} (h : IsHole text mark) {f : Str} (hf : IsFragment f)
    {last : Option Char} (hend : inWord (f.getLast?.or last) = false) {r : Bytes} (hr : Closes r) :
    scan last (toUtf8 f ++ (toUtf8 text ++ r)) = scan last (toUtf8 f) ++ scan none (toUtf8 text ++ r) := by
  apply scan_fragment last _ hf.no_quotes (hf.digitsInWords last)
  · rwa [hf.lastOf_toUtf8]
  · obtain ⟨b, s, hb, hblank⟩ := h.notBlank
    rw [hb]
    intro a ha
    obtain rfl := Option.some.inj ha
    exact hblank
  · intro last hlast
    rw [h.scan_append last r hlast hr, h.scan_append none r rfl hr]

/-- What follows a hole does not go on with the literal. -/
theorem closes_rest {texts : Nat → Str} {i : Nat} {f : Str} {rest : List Str} (hf : IsFragment f)
    (hapart : ∀ g ∈ (f :: rest).dropLast, g ≠ []) (hstart : ∀ c ∈ f.head?, isNumberByte (asciiByte c) = false) :
    Closes (toUtf8 f ++ toUtf8 (fillFrom texts i rest)) := by
  cases f with
  | nil =>
    -- only the last fragment may be empty
    cases rest with
    | nil => exact fun _ h => nomatch h
    | cons g rest => exact absurd rfl (hapart [] List.mem_cons_self)
  | cons c f =>
    intro b hb
    rw [hf.toUtf8_eq] at hb
    obtain rfl : asciiByte c = b := Option.some.inj hb
    refine ⟨fun hquote => hf.unquoted.1 ?_, hstart c rfl⟩
    rw [show singleQuote = c by rw [← byteChar_asciiByte (hf.ascii c List.mem_cons_self), hquote]; rfl]
    exact List.mem_cons_self

/-- What the holes leave is independent of what the fragments leave. -/
theorem scan_fillFrom {texts marks : Nat → Str} (hholes : ∀ i, IsHole (texts i) (marks i)) (rest : List Str)
    (hfragments : ∀ f ∈ rest, IsFragment f) (hapart : ∀ f ∈ rest.dropLast, f ≠ [])
    (hendings : ∀ f ∈ rest.dropLast, f.getLast?.elim false isWordChar = false)
    (hstarts : ∀ f ∈ rest, ∀ c ∈ f.head?, isNumberByte (asciiByte c) = false) (i : Nat) {last : Option Char}
    (hlast : inWord last = false) : scan last (toUtf8 (fillFrom texts i rest)) =
      fillFrom marks i (rest.map fun f => scan (some '?') (toUtf8 f)) := by
  induction rest generalizing i last with
  | nil => rfl
  | cons f rest ih =>
    have hf := hfragments f List.mem_cons_self
    have hstart := hstarts f List.mem_cons_self
    rw [fillFrom, toUtf8_append, toUtf8_append,
      (hholes i).scan_append last _ hlast (closes_rest hf hapart hstart), List.map_cons, fillFrom]
    refine congrArg (marks i ++ ·) ?_
    cases rest with
    | nil =>
      rw [fillFrom, List.map_nil, fillFrom, List.append_nil]
      exact congrArg (scan (some '?')) (List.append_nil (toUtf8 f))
    | cons g rest =>
      have hg := hfragments g (List.mem_cons_of_mem f List.mem_cons_self)
      have hapart' : ∀ x ∈ (g :: rest).dropLast, x ≠ [] := fun x hx => hapart x (List.mem_cons_of_mem f hx)
      have hend : inWord (f.getLast?.or (some '?')) = false := by
        have h := hendings f List.mem_cons_self
        cases hf' : f.getLast? with
        | none => rfl
        | some c => rwa [hf'] at h
      have hclosed : Closes (toUtf8 g ++ toUtf8 (fillFrom texts (i + 1 + 1) rest)) :=
        closes_rest hg hapart' (hstarts g (List.mem_cons_of_mem f List.mem_cons_self))
      rw [fillFrom, toUtf8_append, toUtf8_append, (hholes (i + 1)).scan_before hf hend hclosed, ← toUtf8_append,
        ← toUtf8_append]
      refine congrArg (scan (some '?') (toUtf8 f) ++ ·) ?_
      exact ih (fun x hx => hfragments x (List.mem_cons_of_mem f hx)) hapart'
        (fun x hx => hendings x (List.mem_cons_of_mem f hx)) (fun x hx => hstarts x (List.mem_cons_of_mem f hx)) (i + 1) rfl

namespace Template

variable (t : Template)

/-- Every hole leaves its mark, whatever the fragments leave around it. -/
theorem fingerprint_fill {texts marks : Nat → Str} (hholes : ∀ i, IsHole (texts i) (marks i)) :
    fingerprint (t.fill texts) =
      scan none (toUtf8 t.head) ++ fillFrom marks 0 (t.rest.map fun f => scan (some '?') (toUtf8 f)) := by
  have hfragments := t.fragments
  have hstarts := t.starts
  have hapart := t.apart
  have hendings := t.endings
  rw [fingerprint_eq, fill, toUtf8_append]
  cases hrest : t.rest with
  | nil =>
    rw [fillFrom, List.map_nil, fillFrom, List.append_nil]
    exact congrArg (scan none) (List.append_nil _)
  | cons f rest =>
    rw [hrest] at hfragments hstarts hapart hendings
    have hf := hfragments f (List.mem_cons_of_mem _ List.mem_cons_self)
    have hend : inWord (t.head.getLast?.or none) = false := by
      rw [Option.or_none]
      exact hendings t.head List.mem_cons_self
    have hclosed : Closes (toUtf8 f ++ toUtf8 (fillFrom texts (0 + 1) rest)) :=
      closes_rest hf hapart (hstarts f List.mem_cons_self)
    rw [← scan_fillFrom hholes (f :: rest) (fun x hx => hfragments x (List.mem_cons_of_mem _ hx)) hapart
      (fun x hx => hendings x (List.mem_cons_of_mem _ hx)) hstarts 0 (show inWord none = false from rfl), fillFrom,
      toUtf8_append, toUtf8_append]
    exact (hholes 0).scan_before (hfragments t.head List.mem_cons_self) hend hclosed

/-- The marks of literals without a leading point are all alike. -/
theorem fillFrom_mark_iff (literals : Nat → SqlLiteral) (i : Nat) (rest : List Str) :
    fillFrom (fun i => (literals i).mark) i rest = fillFrom (fun _ => ['?']) i rest ↔
      ∀ j < rest.length, (literals (i + j)).startsWithPoint = false := by
  induction rest generalizing i with
  | nil => simp [fillFrom]
  | cons f rest ih =>
    rw [fillFrom, fillFrom, List.length_cons]
    cases hpoint : (literals i).startsWithPoint with
    | true =>
      rw [SqlLiteral.mark, if_pos hpoint]
      constructor
      · intro h
        exact absurd (List.cons.inj h).1 (by decide)
      · intro h
        exact absurd (hpoint.symm.trans (h 0 (Nat.succ_pos _))) (by decide)
    | false =>
      rw [SqlLiteral.mark, if_neg (by rw [hpoint]; decide), List.append_cancel_left_eq, List.append_cancel_left_eq, ih]
      constructor
      · intro h j hj
        cases j with
        | zero => exact hpoint
        | succ j =>
          rw [← Nat.add_assoc, Nat.add_right_comm]
          exact h j (by omega)
      · intro h j hj
        rw [Nat.add_assoc, Nat.add_comm 1 j]
        exact h (j + 1) (by omega)

/-- The literals of a query do not show in its fingerprint if, and only if, none begins with its decimal point. -/
theorem fingerprint_literals_iff (literals : Nat → SqlLiteral) :
    fingerprint (t.fill fun i => (literals i).text) = fingerprint (t.fill fun _ => ['?']) ↔
      ∀ i < t.rest.length, (literals i).startsWithPoint = false := by
  rw [t.fingerprint_fill fun i => (literals i).isHole, t.fingerprint_fill fun _ => isHole_mark,
    List.append_cancel_left_eq, fillFrom_mark_iff, List.length_map]
  simp only [Nat.zero_add]

/-- `SELECT a FROM t WHERE b > ◻;` -/
def comparison : Template where
  head := "SELECT a FROM t WHERE b > ".toList
  rest := [";".toList]
  fragments := by
    intro f hf
    simp only [List.mem_cons, List.not_mem_nil, or_false] at hf
    rcases hf with rfl | rfl
    · exact isFragment_of_all (by decide)
    · exact isFragment_of_all (by decide)
  apart := by decide
  endings := by decide
  starts := by
    intro f hf c hc
    obtain rfl := List.mem_singleton.mp hf
    obtain rfl : ';' = c := Option.some.inj hc
    decide

/-- A decimal without an integer part leaves its point behind. -/
theorem fingerprint_point_ne :
    fingerprint (comparison.fill fun _ => (SqlLiteral.decimal [] [5] (.inr (by decide))).text) ≠
      fingerprint (comparison.fill fun _ => ['?']) := by
  decide +kernel

end Template

end TurbineProxy
