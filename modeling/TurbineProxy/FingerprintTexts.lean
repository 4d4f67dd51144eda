import TurbineProxy.FingerprintFixpoints
import TurbineProxy.SqlBoundaries

/-!
# Fingerprints of characters

The scanner of `fingerprint` reads bytes. Here are its rounds for the characters of a text: characters beyond ASCII
pass as several ones, and everything else is decided by ASCII characters.
-/

namespace TurbineProxy

open Str

/-! ## Characters and bytes -/

/-- What holds of the ASCII characters one by one. -/
theorem forall_ascii {P : Char → Prop} (h : ∀ n < 128, P (Char.ofNat n)) {c : Char} (hc : c.toNat < 128) : P c := by
  have hc := h _ hc
  rwa [Char.ofNat_toNat] at hc

/-- A text whose bytes are taken for characters. -/
def byteText (s : Str) : Str := (toUtf8 s).map byteChar

theorem byteText_beyond {c : Char} (hc : 128 ≤ c.toNat) : ∀ k ∈ byteText [c], 128 ≤ k.toNat := by
  intro k hk
  obtain ⟨b, hb, rfl⟩ := List.mem_map.mp hk
  rw [toUtf8_cons] at hb
  rw [toNat_byteChar]
  rcases List.mem_append.mp hb with hb | hb
  · exact utf8Char_beyond hc b hb
  · cases hb

theorem byteText_ne_nil (c : Char) : byteText [c] ≠ [] := by
  rw [byteText, toUtf8_cons]
  intro h
  rw [List.map_eq_nil_iff, List.append_eq_nil_iff] at h
  exact utf8Char_ne_nil c h.1

/-- The characters a numeric literal is read over, once it has begun. -/
def isNumberChar (c : Char) : Bool := decide (c.toNat < 128) && isNumberByte (asciiByte c)

/-- Characters that are collapsed, with the whitespace behind them. -/
def isBlankChar (c : Char) : Bool := c == ' ' || c == '\t' || c == '\n' || c == '\r'

/-- Going over bytes of ASCII characters is going over characters. -/
theorem dropWhile_toUtf8 {p : UInt8 → Bool} {q : Char → Bool} (hlow : ∀ c, c.toNat < 128 → p (asciiByte c) = q c)
    (hp : ∀ b, p b = true → b.toNat < 128) (hq : ∀ c, q c = true → c.toNat < 128) (s : Str) :
    (toUtf8 s).dropWhile p = toUtf8 (s.dropWhile q) := by
  induction s with
  | nil => rfl
  | cons c s ih =>
    by_cases hc : c.toNat < 128
    · rw [toUtf8_cons, utf8Char_of_ascii hc, List.singleton_append]
      cases hcase : q c with
      | true => rw [List.dropWhile_cons_of_pos ((hlow c hc).trans hcase), List.dropWhile_cons_of_pos hcase, ih]
      | false =>
        have hb : p (asciiByte c) = false := (hlow c hc).trans hcase
        rw [List.dropWhile_cons_of_neg (by rw [hb]; exact Bool.false_ne_true),
          List.dropWhile_cons_of_neg (by rw [hcase]; exact Bool.false_ne_true), toUtf8_cons, utf8Char_of_ascii hc]
        rfl
    · have hcase : ¬q c = true := fun h => hc (hq c h)
      rw [List.dropWhile_cons_of_neg hcase]
      obtain ⟨b, bs, hbs⟩ := List.exists_cons_of_ne_nil (utf8Char_ne_nil c)
      have hb : 128 ≤ b.toNat := utf8Char_beyond (Nat.le_of_not_lt hc) b (by rw [hbs]; exact .head _)
      rw [toUtf8_cons, hbs, List.cons_append, List.dropWhile_cons_of_neg]
      intro h
      have hlow := hp b h
      omega

theorem dropWhile_number (s : Str) : (toUtf8 s).dropWhile isNumberByte = toUtf8 (s.dropWhile isNumberChar) := by
  refine dropWhile_toUtf8 (fun c hc => ?_) (fun b hb => (isNumberByte_ascii b hb).2.2) (fun c hc => ?_) s
  · rw [isNumberChar, decide_eq_true hc, Bool.true_and]
  · rw [isNumberChar, Bool.and_eq_true, decide_eq_true_eq] at hc
    exact hc.1

theorem ascii_of_whitespace {c : Char} (h : isAsciiWhitespace c = true) : c.toNat < 128 := by
  simp only [isAsciiWhitespace, Bool.or_eq_true, beq_iff_eq] at h
  omega

theorem dropWhile_whitespace (s : Str) :
    (toUtf8 s).dropWhile isWhitespaceByte = toUtf8 (s.dropWhile isAsciiWhitespace) := by
  refine dropWhile_toUtf8 (fun c hc => ?_) (fun b hb => (isWhitespaceByte_ascii b hb).2.2)
    (fun c hc => ascii_of_whitespace hc) s
  rw [isWhitespaceByte, byteChar_asciiByte hc]

/-! ## The rounds -/

theorem scan_congr {last last' : Option Char} (h : inWord last = inWord last') (s : Bytes) :
    scan last s = scan last' s := by
  cases s with
  | nil => rfl
  | cons b s => rw [scan_cons, scan_cons, h]

/-- The scanner on characters. `named`: a digit at the beginning is part of a name. -/
def scanText (named : Bool) (s : Str) : Str := scan (if named then some 'a' else none) (toUtf8 s)

theorem scan_toUtf8 (last : Option Char) (s : Str) : scan last (toUtf8 s) = scanText (inWord last) s := by
  apply scan_congr
  cases inWord last <;> rfl

section Rounds

variable {named : Bool} {c : Char} {s body r : Str}

theorem inWord_ite : inWord (if named then some 'a' else none) = named := by
  cases named <;> rfl

theorem scanText_ascii (hc : c.toNat < 128) :
    scanText named (c :: s) = scan (if named then some 'a' else none) (asciiByte c :: toUtf8 s) := by
  rw [scanText, toUtf8_cons, utf8Char_of_ascii hc]
  rfl

theorem ascii_of_digit (hc : c.isDigit = true) : c.toNat < 128 := by
  have hplain : ∀ k ∈ "-/*!'\"`#$0123456789".toList, k.toNat < 128 := forall_of_all (by decide)
  exact hplain c (mem_of_isDigit hc)

theorem isDigitByte_asciiByte (hc : c.toNat < 128) : isDigitByte (asciiByte c) = c.isDigit :=
  forall_ascii (P := fun c => isDigitByte (asciiByte c) = c.isDigit) (by decide) hc

/-- A number outside a name is shown as one mark, with everything behind it that may stand in a number. -/
theorem scanText_number (hc : c.isDigit = true) :
    scanText false (c :: s) = '?' :: scanText false (s.dropWhile isNumberChar) := by
  have hbyte : isDigitByte (asciiByte c) = true := (isDigitByte_asciiByte (ascii_of_digit hc)).trans hc
  rw [scanText_ascii (ascii_of_digit hc), scan_number _ _ hbyte inWord_ite, dropWhile_number, scan_toUtf8]
  rfl

/-- A run of blanks is shown as one space. -/
theorem scanText_blank (hc : isBlankChar c = true) :
    scanText named (c :: s) = ' ' :: scanText false (s.dropWhile isAsciiWhitespace) := by
  have hchars : c = ' ' ∨ c = '\t' ∨ c = '\n' ∨ c = '\r' := by
    simpa [isBlankChar, or_assoc] using hc
  have hbyte : c.toNat < 128 ∧ isBlankByte (asciiByte c) := by
    rcases hchars with rfl | rfl | rfl | rfl <;> decide
  rw [scanText_ascii hbyte.1, scan_blank _ _ hbyte.2, dropWhile_whitespace, scan_toUtf8]
  rfl

/-- any other character of ASCII, -/
theorem scanText_plain (hc : c.toNat < 128) (hquotes : c ≠ Char.ofNat 0x27 ∧ c ≠ '"') (hdigit : c.isDigit = false)
    (hblank : isBlankChar c = false) : scanText named (c :: s) = c :: scanText (isWordChar c) s := by
  have hbyte {b : UInt8} (h : asciiByte c = b) : c = byteChar b := by rw [← h, byteChar_asciiByte hc]
  have hplain : Plain (asciiByte c) := by
    refine ⟨fun h => hquotes.1 (hbyte h), fun h => hquotes.2 (hbyte h), ?_, ?_⟩
    · rw [isDigitByte_asciiByte hc, hdigit]
    · rintro (h | h | h | h) <;> rw [hbyte h] at hblank <;> exact absurd hblank (by decide)
  rw [scanText_ascii hc, scan_plain _ _ hplain, byteChar_asciiByte hc, scan_toUtf8]
  rfl

theorem scan_beyond {b : UInt8} {bytes : Bytes} (h : ∀ a ∈ b :: bytes, 128 ≤ a.toNat) (last : Option Char) :
    scan last (b :: bytes ++ toUtf8 s) = (b :: bytes).map byteChar ++ scanText false s := by
  induction bytes generalizing b last with
  | nil =>
    rw [List.singleton_append, scan_plain _ _ (plain_beyond (h b (.head _))), scan_toUtf8,
      inWord_beyond (h b (.head _))]
    rfl
  | cons a bytes ih =>
    rw [List.cons_append, scan_plain _ _ (plain_beyond (h b (.head _))), ih fun a ha => h a (.tail _ ha)]
    rfl

/-- and one beyond ASCII, which becomes several. -/
theorem scanText_beyond (hc : 128 ≤ c.toNat) : scanText named (c :: s) = byteText [c] ++ scanText false s := by
  obtain ⟨b, bytes, hbytes⟩ := List.exists_cons_of_ne_nil (utf8Char_ne_nil c)
  have hall : ∀ a ∈ b :: bytes, 128 ≤ a.toNat := by
    rw [← hbytes]
    exact utf8Char_beyond hc
  rw [scanText, toUtf8_cons, byteText, toUtf8_cons, hbytes, scan_beyond hall]
  exact congrArg (List.map byteChar · ++ _) (List.append_nil _).symm

/-- Behind a string, read from behind its opening quote. -/
theorem skipQuoted_toUtf8 (s : Str) :
    skipQuoted (toUtf8 s) = toUtf8 ((splitQuote true (Char.ofNat 0x27) s).elim [] Prod.snd) := by
  fun_induction splitQuote true (Char.ofNat 0x27) s with
  | case1 | case2 => rfl
  | case3 c hc =>
    by_cases hback : c = '\\'
    · subst hback
      rfl
    · exact (congrArg skipQuoted (List.append_nil _).symm).trans (skipQuoted_piece (.plain c ⟨hc, hback⟩) [])
  | case4 rest ih =>
    rw [Option.elim_map]
    exact (skipQuoted_piece .doubled (toUtf8 rest)).trans ih
  | case5 d rest hd =>
    refine skipQuoted.eq_3 _ fun s hs => hd ?_
    have hbytes : toUtf8 (d :: rest) = 0x27 :: s := hs
    by_cases hascii : d.toNat < 128
    · rw [toUtf8_cons, utf8Char_of_ascii hascii] at hbytes
      rw [← byteChar_asciiByte hascii, (List.cons.inj hbytes).1]
      rfl
    · obtain ⟨b, bytes, hchar⟩ := List.exists_cons_of_ne_nil (utf8Char_ne_nil d)
      have hbeyond := utf8Char_beyond (Nat.le_of_not_lt hascii) b (by rw [hchar]; exact .head _)
      rw [toUtf8_cons, hchar] at hbytes
      rw [(List.cons.inj hbytes).1] at hbeyond
      exact absurd hbeyond (by decide)
  | case6 c d rest hc hback ih =>
    obtain ⟨-, rfl⟩ := hback
    have hpiece := skipQuoted_piece (.escaped d) (toUtf8 rest)
    rw [StringPiece.text, ← toUtf8_append] at hpiece
    rw [Option.elim_map]
    exact hpiece.trans ih
  | case7 c d rest hc hback ih =>
    have hpiece := skipQuoted_piece (.plain c ⟨hc, fun h => hback ⟨rfl, h⟩⟩) (toUtf8 (d :: rest))
    rw [StringPiece.text, ← toUtf8_append] at hpiece
    rw [Option.elim_map]
    exact hpiece.trans ih

/-- A string in single quotes is shown as one mark, up to the quote that ends it with escapes taken into account. -/
theorem scanText_quoted :
    scanText named (Char.ofNat 0x27 :: s) =
      '?' :: scanText false ((splitQuote true (Char.ofNat 0x27) s).elim [] Prod.snd) := by
  rw [scanText_ascii (by decide)]
  change scan _ (0x27 :: toUtf8 s) = _
  rw [scan_quoted, skipQuoted_toUtf8, scan_toUtf8]
  rfl

theorem readDoubleQuoted_others {bytes : Bytes} (h : ∀ b ∈ bytes, b ≠ 0x22) (s : Bytes) :
    readDoubleQuoted (bytes ++ s) = (bytes ++ (readDoubleQuoted s).1, (readDoubleQuoted s).2) := by
  induction bytes with
  | nil => rfl
  | cons b bytes ih =>
    have hb := h b List.mem_cons_self
    rw [List.cons_append, readDoubleQuoted.eq_3 _ _ (fun _ heq _ => hb heq) hb,
      ih fun a ha => h a (List.mem_cons_of_mem b ha)]
    rfl

theorem utf8Char_ne_quote (hc : c ≠ '"') : ∀ b ∈ utf8Char c, b ≠ 0x22 := by
  rintro b hb rfl
  by_cases hascii : c.toNat < 128
  · rw [utf8Char_of_ascii hascii, List.mem_singleton] at hb
    exact hc (by rw [← byteChar_asciiByte hascii, ← hb]; rfl)
  · exact absurd (utf8Char_beyond (Nat.le_of_not_lt hascii) _ hb) (by decide)

/-- A token in double quotes, behind the first one, and what follows it. -/
def doubleQuoted (s : Str) : Str × Str := (splitQuote false '"' s).getD (s, [])

theorem readDoubleQuoted_toUtf8 (s : Str) :
    readDoubleQuoted (toUtf8 s) = Prod.map toUtf8 toUtf8 (doubleQuoted s) := by
  have hmap (o : Option (Str × Str)) (f : Str → Str) (s : Str) :
      (o.map fun r => (f r.1, r.2)).getD (f s, []) = Prod.map f id (o.getD (s, [])) := by
    cases o <;> rfl
  rw [doubleQuoted]
  fun_induction splitQuote false '"' s with
  | case1 | case2 => rfl
  | case3 c hc =>
    have hothers := readDoubleQuoted_others (utf8Char_ne_quote hc) []
    exact hothers
  | case4 rest ih =>
    rw [hmap _ (fun t => '"' :: '"' :: t)]
    change readDoubleQuoted (0x22 :: 0x22 :: toUtf8 rest) = _
    rw [readDoubleQuoted, ih]
    rfl
  | case5 d rest hd =>
    refine readDoubleQuoted.eq_2 _ fun s hs => ?_
    obtain ⟨b, bytes, hchar⟩ := List.exists_cons_of_ne_nil (utf8Char_ne_nil d)
    have hbytes : toUtf8 (d :: rest) = 0x22 :: s := hs
    rw [toUtf8_cons, hchar] at hbytes
    exact utf8Char_ne_quote hd b (by rw [hchar]; exact .head _) (List.cons.inj hbytes).1
  | case6 c d rest hc hback => cases hback.1
  | case7 c d rest hc hback ih =>
    rw [hmap _ (fun t => c :: t), toUtf8_cons, readDoubleQuoted_others (utf8Char_ne_quote hc), ih]
    rfl

theorem any_toUtf8 (s : Str) : (toUtf8 s).any isWhitespaceByte = s.any isAsciiWhitespace := by
  induction s with
  | nil => rfl
  | cons c s ih =>
    rw [toUtf8_cons, List.any_append, ih, List.any_cons]
    by_cases hc : c.toNat < 128
    · rw [utf8Char_of_ascii hc, List.any_cons, isWhitespaceByte, byteChar_asciiByte hc]
      simp only [List.any_nil, Bool.or_false]
    · have hbytes : (utf8Char c).any isWhitespaceByte = false := by
        refine List.any_eq_false.mpr fun b hb hblank => ?_
        have hbeyond := utf8Char_beyond (Nat.le_of_not_lt hc) b hb
        have hascii := (isWhitespaceByte_ascii b hblank).2.2
        omega
      rw [hbytes, Bool.eq_false_iff.mpr fun h => hc (ascii_of_whitespace h)]

/-- A token in double quotes. -/
theorem scanText_doubleQuoted :
    scanText named ('"' :: s) =
      (if (doubleQuoted s).1.any isAsciiWhitespace then ['?'] else '"' :: (doubleQuoted s).1) ++
        scanText false (doubleQuoted s).2 := by
  have hout : doubleQuotedOut (toUtf8 s) =
      if (doubleQuoted s).1.any isAsciiWhitespace then ['?'] else '"' :: (doubleQuoted s).1 := by
    have htext : textOf (0x22 :: toUtf8 (doubleQuoted s).1) = '"' :: (doubleQuoted s).1 :=
      textOf_toUtf8 ('"' :: (doubleQuoted s).1)
    rw [doubleQuotedOut, readDoubleQuoted_toUtf8, Prod.map_fst, any_toUtf8, htext]
  have hlast : (doubleQuoted s).2 ≠ [] → inWord (doubleQuotedOut (toUtf8 s)).getLast? = false := by
    intro hrest
    rw [hout]
    split
    · rfl
    · cases hsplit : splitQuote false '"' s with
      | none => simp [doubleQuoted, hsplit] at hrest
      | some r =>
        rw [doubleQuoted, hsplit, Option.getD_some, List.getLast?_cons, splitQuote_last (r := r.2) hsplit]
        rfl
  rw [scanText_ascii (by decide)]
  change scan _ (0x22 :: toUtf8 s) = _
  rw [scan_doubleQuoted, readDoubleQuoted_toUtf8, Prod.map_snd, scan_toUtf8, hout]
  cases hrest : (doubleQuoted s).2 with
  | nil => rfl
  | cons k t => rw [← hout, hlast (by rw [hrest]; exact List.cons_ne_nil _ _)]

end Rounds

/-- What follows a literal is no longer than what the literal is in. -/
theorem splitQuote_rest_le {escapes : Bool} {q : Char} {s : Str} {r : Str × Str} (h : splitQuote escapes q s = some r) :
    r.2.length ≤ s.length := by
  rw [splitQuote_text (r := r.2) h, List.length_append]
  omega

theorem quoted_rest_le (q : Char) (s : Str) : ((splitQuote true q s).elim [] Prod.snd).length ≤ s.length := by
  cases h : splitQuote true q s with
  | none => exact Nat.zero_le _
  | some r => exact splitQuote_rest_le h

theorem doubleQuoted_rest_le (s : Str) : (doubleQuoted s).2.length ≤ s.length := by
  rw [doubleQuoted]
  cases h : splitQuote false '"' s with
  | none => exact Nat.zero_le _
  | some r => exact splitQuote_rest_le h

/-- Induction over the rounds of the scanner, each of which is about a shorter text: a literal in either kind of quotes, a
digit of a name, a number, a run of blanks, and any other character, of ASCII or beyond it. -/
theorem scanText_induction {P : Bool → Str → Prop} (nil : ∀ named, P named [])
    (quoted : ∀ named s, P false ((splitQuote true (Char.ofNat 0x27) s).elim [] Prod.snd) →
      P named (Char.ofNat 0x27 :: s))
    (doubleQuoted : ∀ named s, P false (doubleQuoted s).2 → P named ('"' :: s))
    (kept : ∀ c s, c.isDigit = true → P true s → P true (c :: s))
    (number : ∀ c s, c.isDigit = true → P false (s.dropWhile isNumberChar) → P false (c :: s))
    (blank : ∀ named c s, isBlankChar c = true → P false (s.dropWhile isAsciiWhitespace) → P named (c :: s))
    (plain : ∀ named c s, c.toNat < 128 → c ≠ Char.ofNat 0x27 ∧ c ≠ '"' → c.isDigit = false →
      isBlankChar c = false → P (isWordChar c) s → P named (c :: s))
    (beyond : ∀ named c s, 128 ≤ c.toNat → P false s → P named (c :: s))
    (named : Bool) (s : Str) : P named s := by
  generalize hn : s.length = n
  induction n using Nat.strongRecOn generalizing named s with
  | _ n ih =>
    cases s with
    | nil => exact nil named
    | cons c s =>
      have hrest (named : Bool) {t : Str} (ht : t.length ≤ s.length) : P named t := by
        apply ih t.length _ named t rfl
        rw [← hn, List.length_cons]
        omega
      by_cases h₁ : c = Char.ofNat 0x27
      · subst h₁
        exact quoted named s (hrest false (quoted_rest_le _ s))
      by_cases h₂ : c = '"'
      · subst h₂
        exact doubleQuoted named s (hrest false (doubleQuoted_rest_le s))
      by_cases h₃ : 128 ≤ c.toNat
      · exact beyond named c s h₃ (hrest false Nat.le.refl)
      cases h₄ : c.isDigit with
      | true =>
        cases named with
        | true => exact kept c s h₄ (hrest true Nat.le.refl)
        | false => exact number c s h₄ (hrest false (List.length_dropWhile_le _ s))
      | false =>
        cases h₅ : isBlankChar c with
        | true => exact blank named c s h₅ (hrest false (List.length_dropWhile_le _ s))
        | false => exact plain named c s (Nat.lt_of_not_le h₃) ⟨h₁, h₂⟩ h₄ h₅ (hrest _ Nat.le.refl)

/-! ## What a text begins with -/

/-- How the scanner shows a character that is no digit of a name. -/
inductive ShownAs (c : Char) : Char → Prop
  /-- a literal -/
  | mark (h : c.isDigit = true ∨ c = Char.ofNat 0x27 ∨ c = '"') : ShownAs c '?'
  /-- blanks -/
  | blank (h : isBlankChar c = true) : ShownAs c ' '
  /-- anything else in ASCII -/
  | same (hc : c.toNat < 128) (hquote : c ≠ Char.ofNat 0x27) (hdigit : c.isDigit = false) : ShownAs c c
  /-- anything beyond it -/
  | beyond {k : Char} (hc : 128 ≤ c.toNat) (hk : 128 ≤ k.toNat) : ShownAs c k

theorem scanText_head {named : Bool} {c : Char} (s : Str) (h : named = true → c.isDigit = false) :
    ∃ k t, scanText named (c :: s) = k :: t ∧ ShownAs c k := by
  generalize htext : c :: s = text at *
  cases named, text using scanText_induction with
  | nil => cases htext
  | quoted named t ht =>
    cases htext
    exact ⟨_, _, scanText_quoted, .mark (.inr (.inl rfl))⟩
  | doubleQuoted named t ht =>
    cases htext
    rw [scanText_doubleQuoted]
    split
    · exact ⟨_, _, rfl, .mark (.inr (.inr rfl))⟩
    · exact ⟨_, _, rfl, .same (by decide) (by decide) (by decide)⟩
  | kept k t hk ht =>
    cases htext
    cases hk.symm.trans (h rfl)
  | number k t hk ht =>
    cases htext
    exact ⟨_, _, scanText_number hk, .mark (.inl hk)⟩
  | blank named k t hk ht =>
    cases htext
    exact ⟨_, _, scanText_blank hk, .blank hk⟩
  | plain named k t hk hquotes hdigit hblank ht =>
    cases htext
    exact ⟨_, _, scanText_plain hk hquotes hdigit hblank, .same hk hquotes.1 hdigit⟩
  | beyond named k t hk ht =>
    cases htext
    obtain ⟨b, bytes, hbytes⟩ := List.exists_cons_of_ne_nil (byteText_ne_nil c)
    refine ⟨b, bytes ++ scanText false s, ?_, .beyond hk (byteText_beyond hk b (by rw [hbytes]; exact .head _))⟩
    rw [scanText_beyond hk, hbytes]
    rfl

/-- Behind no name it can be any character. -/
theorem scanText_shown (c : Char) (s : Str) : ∃ k t, scanText false (c :: s) = k :: t ∧ ShownAs c k :=
  scanText_head s nofun

end TurbineProxy
