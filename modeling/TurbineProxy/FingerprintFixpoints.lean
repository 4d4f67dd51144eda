import TurbineProxy.Fingerprints

/-!
# Fingerprints of fingerprints

A fingerprint is its own fingerprint, unless the query has characters beyond ASCII outside of quotes: those are taken
byte by byte, and every byte beyond ASCII becomes a character of two bytes, so that the text grows each time.
-/

namespace TurbineProxy

open Str

/-! ## Suffixes of a text -/

/-- The bytes end a text. -/
def EndsText (s : Bytes) : Prop := ∃ t : Str, s <:+ toUtf8 t

theorem EndsText.of_suffix {s s' : Bytes} (h : EndsText s) (hs : s' <:+ s) : EndsText s' :=
  h.imp fun _ ht => hs.trans ht

/-- The bytes of a text may be divided at every ASCII byte. -/
theorem toUtf8_divide {t : Str} {x y : Bytes} {a : UInt8} (ha : a.toNat < 128) (h : x ++ a :: y = toUtf8 t) :
    ∃ t₁ t₂, x ++ [a] = toUtf8 t₁ ∧ y = toUtf8 t₂ := by
  induction t generalizing x with
  | nil => exact absurd h (List.append_ne_nil_of_right_ne_nil x (List.cons_ne_nil a y))
  | cons c t ih =>
    rw [toUtf8_cons] at h
    rcases List.append_eq_append_iff.mp h with ⟨m, hm, hrest⟩ | ⟨m, hm, hrest⟩
    · cases m with
      | nil =>
        rw [List.append_nil] at hm
        rw [List.nil_append] at hrest
        obtain ⟨t₁, t₂, ht₁, ht₂⟩ := ih (x := []) hrest
        refine ⟨c :: t₁, t₂, ?_, ht₂⟩
        rw [toUtf8_cons, ← ht₁, List.nil_append, hm]
      | cons d m =>
        obtain ⟨rfl, rfl⟩ := List.cons.inj hrest
        -- the byte is in the first character, which is then that byte alone
        have hmem : a ∈ utf8Char c := hm ▸ List.mem_append_right _ List.mem_cons_self
        have hc : c.toNat < 128 := by
          by_contra hc
          have h := utf8Char_beyond (by omega) a hmem
          omega
        rw [utf8Char_of_ascii hc] at hm
        have hx : x = [] ∧ m = [] := by
          have h := congrArg List.length hm
          simp only [List.length_append, List.length_cons, List.length_nil] at h
          exact ⟨List.eq_nil_of_length_eq_zero (by omega), List.eq_nil_of_length_eq_zero (by omega)⟩
        obtain ⟨rfl, rfl⟩ := hx
        refine ⟨[c], t, ?_, rfl⟩
        rw [toUtf8_cons, utf8Char_of_ascii hc, hm]
        rfl
    · obtain ⟨t₁, t₂, ht₁, ht₂⟩ := ih hrest.symm
      refine ⟨c :: t₁, t₂, ?_, ht₂⟩
      rw [toUtf8_cons, ← ht₁, hm, List.append_assoc]

theorem EndsText.cons {s : Bytes} {a : UInt8} (ha : a.toNat < 128) (h : EndsText (a :: s)) : ∃ t, s = toUtf8 t := by
  obtain ⟨t, x, hx⟩ := h
  obtain ⟨_, t₂, _, ht₂⟩ := toUtf8_divide ha hx
  exact ⟨t₂, ht₂⟩

/-! ## Double-quoted tokens -/

theorem readDoubleQuoted_closed {s : Bytes} (h : (readDoubleQuoted s).2 ≠ []) :
    ∃ tok, (readDoubleQuoted s).1 = tok ++ [0x22] := by
  induction s using readDoubleQuoted.induct with
  | case1 s ih =>
    obtain ⟨tok, htok⟩ := ih (by simpa [readDoubleQuoted] using h)
    exact ⟨0x22 :: 0x22 :: tok, by simp [readDoubleQuoted, htok]⟩
  | case2 s hs => exact ⟨[], by simp [readDoubleQuoted]⟩
  | case3 b s h₁ h₂ ih =>
    obtain ⟨tok, htok⟩ := ih (by simpa [readDoubleQuoted] using h)
    exact ⟨b :: tok, by simp [readDoubleQuoted, htok]⟩
  | case4 => exact absurd rfl h

theorem readDoubleQuoted_rest (s : Bytes) : ∀ b ∈ (readDoubleQuoted s).2.head?, b ≠ 0x22 := by
  induction s using readDoubleQuoted.induct with
  | case1 s ih => simpa [readDoubleQuoted] using ih
  | case2 s hs =>
    rw [readDoubleQuoted.eq_2 s hs]
    rintro b hb rfl
    cases s with
    | nil => cases hb
    | cons d s =>
      obtain rfl := Option.some.inj hb
      exact hs s rfl
  | case3 b s h₁ h₂ ih => simpa [readDoubleQuoted] using ih
  | case4 => rintro _ ⟨⟩

/-- The token is read again in front of what does not go on with it. -/
theorem readDoubleQuoted_again (s : Bytes) {r : Bytes} (hr : ∀ b ∈ r.head?, b ≠ 0x22)
    (hnil : (readDoubleQuoted s).2 = [] → r = []) :
    readDoubleQuoted ((readDoubleQuoted s).1 ++ r) = ((readDoubleQuoted s).1, r) := by
  induction s using readDoubleQuoted.induct with
  | case1 s ih =>
    rw [readDoubleQuoted] at hnil ⊢
    simp only [Prod.map, id] at hnil ⊢
    rw [List.cons_append, List.cons_append, readDoubleQuoted, ih hnil]
    rfl
  | case2 s hs =>
    rw [readDoubleQuoted.eq_2 s hs, List.singleton_append, readDoubleQuoted.eq_2]
    rintro s rfl
    exact hr 0x22 rfl rfl
  | case3 b s h₁ h₂ ih =>
    rw [readDoubleQuoted.eq_3 b s h₁ h₂] at hnil ⊢
    simp only [Prod.map, id] at hnil ⊢
    rw [List.cons_append, readDoubleQuoted.eq_3 _ _ (fun _ h _ => h₂ h) h₂, ih hnil]
    rfl
  | case4 =>
    rw [hnil rfl]
    rfl

/-- A token without whitespace is kept as it is. -/
theorem toUtf8_doubleQuotedOut {s : Bytes} (hs : EndsText (0x22 :: s))
    (hblank : (readDoubleQuoted s).1.any isWhitespaceByte = false) :
    toUtf8 (doubleQuotedOut s) = 0x22 :: (readDoubleQuoted s).1 := by
  have htext : ∃ t, (readDoubleQuoted s).1 = toUtf8 t := by
    obtain ⟨t, ht⟩ := hs.cons (by decide)
    have hsplit := readDoubleQuoted_append s
    by_cases hrest : (readDoubleQuoted s).2 = []
    · rw [hrest, List.append_nil] at hsplit
      exact ⟨t, hsplit.trans ht⟩
    · obtain ⟨tok, htok⟩ := readDoubleQuoted_closed hrest
      rw [htok, List.append_assoc, List.singleton_append, ht] at hsplit
      obtain ⟨t₁, _, ht₁, _⟩ := toUtf8_divide (by decide) hsplit
      exact ⟨t₁, htok.trans ht₁⟩
  obtain ⟨t, ht⟩ := htext
  have hcons : 0x22 :: (readDoubleQuoted s).1 = toUtf8 ('"' :: t) := by rw [ht]; rfl
  rw [doubleQuotedOut, if_neg (by rw [hblank]; decide), hcons, textOf_toUtf8]

theorem doubleQuotedOut_congr {r s : Bytes} (h : (readDoubleQuoted r).1 = (readDoubleQuoted s).1) :
    doubleQuotedOut r = doubleQuotedOut s := by
  rw [doubleQuotedOut, doubleQuotedOut, h]

theorem skipQuoted_suffix (s : Bytes) : skipQuoted s <:+ s := by
  induction s using skipQuoted.induct with
  | case1 a s ih =>
    rw [skipQuoted]
    exact ih.trans ((List.suffix_cons a s).trans (List.suffix_cons _ _))
  | case2 s ih =>
    rw [skipQuoted]
    exact ih.trans ((List.suffix_cons _ s).trans (List.suffix_cons _ _))
  | case3 s h =>
    rw [skipQuoted.eq_3 s h]
    exact List.suffix_cons _ s
  | case4 b s h₁ h₂ h₃ ih =>
    rw [skipQuoted.eq_4 b s h₁ h₂ h₃]
    exact ih.trans (List.suffix_cons b s)
  | case5 => exact List.suffix_rfl

theorem readDoubleQuoted_suffix (s : Bytes) : (readDoubleQuoted s).2 <:+ s := ⟨_, readDoubleQuoted_append s⟩

/-! ## Bytes as characters -/

theorem toNat_byteChar (b : UInt8) : (byteChar b).toNat = b.toNat := by
  have h := b.toNat_lt
  exact toNat_char (.inl (by omega))

theorem utf8Char_byteChar {b : UInt8} (hb : b.toNat < 128) : utf8Char (byteChar b) = [b] := by
  rw [utf8Char_of_ascii (by rwa [toNat_byteChar]), asciiByte, toNat_byteChar, UInt8.ofNat_toNat]

/-- A byte beyond ASCII has become two. -/
theorem utf8Char_byteChar_beyond {b : UInt8} (hb : 128 ≤ b.toNat) :
    ∃ x y, utf8Char (byteChar b) = [x, y] ∧ 128 ≤ x.toNat ∧ 128 ≤ y.toNat := by
  have h := b.toNat_lt
  refine ⟨UInt8.ofNat (0xC0 + b.toNat / 64), UInt8.ofNat (0x80 + b.toNat % 64), ?_, ?_, ?_⟩
  · rw [utf8Char, toNat_byteChar, if_neg (by omega), if_pos (by omega)]
  · rw [byte_ofNat (by omega)]
    omega
  · rw [byte_ofNat (by omega)]
    omega

theorem plain_beyond {b : UInt8} (hb : 128 ≤ b.toNat) : Plain b := by
  refine ⟨?_, ?_, ?_, ?_⟩
  · rintro rfl
    exact absurd hb (by decide)
  · rintro rfl
    exact absurd hb (by decide)
  · simp only [isDigitByte, Bool.and_eq_false_iff, decide_eq_false_iff_not, UInt8.le_iff_toNat_le]
    right
    simp
    omega
  · rintro (rfl | rfl | rfl | rfl) <;> exact absurd hb (by decide)

theorem isWordChar_beyond {c : Char} (h : 128 ≤ c.toNat) : isWordChar c = false := by
  apply Bool.eq_false_iff.mpr
  intro hword
  rw [isWordChar, Bool.or_eq_true, beq_iff_eq] at hword
  rcases hword with hword | rfl
  · change (decide (c.val ≥ 'A'.val ∧ c.val ≤ 'Z'.val) || (c.val ≥ 'a'.val && c.val ≤ 'z'.val) ||
      (c.val ≥ '0'.val && c.val ≤ '9'.val)) = true at hword
    simp only [Bool.or_eq_true, Bool.and_eq_true, decide_eq_true_eq, UInt32.le_iff_toNat_le, ge_iff_le] at hword
    have hcode : c.toNat = c.val.toNat := rfl
    have hlast : 'Z'.val.toNat = 90 ∧ 'z'.val.toNat = 122 ∧ '9'.val.toNat = 57 := ⟨rfl, rfl, rfl⟩
    omega
  · exact absurd h (by decide)

theorem inWord_beyond {b : UInt8} (hb : 128 ≤ b.toNat) : inWord (some (byteChar b)) = false :=
  isWordChar_beyond (hb.trans_eq (toNat_byteChar b).symm)

/-! ## Characters outside of quotes -/

/-- Outside of quoted tokens the bytes are ASCII. Every round reads at least one byte. -/
def asciiOutsideLoop : Nat → Bytes → Bool
  | 0, _ | _, [] => true
  | n + 1, b :: s =>
    if b = 0x27 then asciiOutsideLoop n (skipQuoted s)
    else if b = 0x22 then asciiOutsideLoop n (readDoubleQuoted s).2
    else b < 0x80 && asciiOutsideLoop n s

theorem asciiOutsideLoop_fuel {n m : Nat} {s : Bytes} (hn : s.length ≤ n) (hm : s.length ≤ m) :
    asciiOutsideLoop n s = asciiOutsideLoop m s := by
  induction n generalizing m s with
  | zero =>
    obtain rfl : s = [] := List.eq_nil_of_length_eq_zero (by omega)
    cases m with
    | zero => rfl
    | succ m => rfl
  | succ n ih =>
    cases s with
    | nil =>
      cases m with
      | zero => rfl
      | succ m => rfl
    | cons b s =>
      rw [List.length_cons] at hn hm
      obtain ⟨m, rfl⟩ : ∃ k, m = k + 1 := ⟨m - 1, by omega⟩
      have hrest {t : Bytes} (ht : t.length ≤ s.length) : asciiOutsideLoop n t = asciiOutsideLoop m t :=
        ih (by omega) (by omega)
      simp only [asciiOutsideLoop, hrest (skipQuoted_length s), hrest (readDoubleQuoted_length s), hrest Nat.le.refl]

/-- Outside of quoted tokens the bytes are ASCII. -/
def asciiOutside (s : Bytes) : Bool := asciiOutsideLoop s.length s

theorem asciiOutside_cons (b : UInt8) (s : Bytes) : asciiOutside (b :: s) =
    if b = 0x27 then asciiOutside (skipQuoted s)
    else if b = 0x22 then asciiOutside (readDoubleQuoted s).2
    else b < 0x80 && asciiOutside s := by
  rw [asciiOutside, List.length_cons, asciiOutsideLoop]
  rw [asciiOutsideLoop_fuel (skipQuoted_length s) Nat.le.refl,
    asciiOutsideLoop_fuel (readDoubleQuoted_length s) Nat.le.refl]
  rfl

theorem asciiOutside_quoted (s : Bytes) : asciiOutside (0x27 :: s) = asciiOutside (skipQuoted s) := by
  rw [asciiOutside_cons, if_pos rfl]

theorem asciiOutside_doubleQuoted (s : Bytes) : asciiOutside (0x22 :: s) = asciiOutside (readDoubleQuoted s).2 := by
  rw [asciiOutside_cons, if_neg (by decide), if_pos rfl]

theorem asciiOutside_other {b : UInt8} (h₁ : b ≠ 0x27) (h₂ : b ≠ 0x22) (s : Bytes) :
    asciiOutside (b :: s) = (decide (b < 0x80) && asciiOutside s) := by
  rw [asciiOutside_cons, if_neg h₁, if_neg h₂]

theorem asciiOutside_ascii {b : UInt8} (h₁ : b ≠ 0x27) (h₂ : b ≠ 0x22) (hb : b.toNat < 128) (s : Bytes) :
    asciiOutside (b :: s) = asciiOutside s := by
  rw [asciiOutside_other h₁ h₂, decide_eq_true (UInt8.lt_iff_toNat_lt.mpr hb), Bool.true_and]

/-- What a round skips besides quoted tokens has no quotes in it, and is ASCII. -/
theorem asciiOutside_dropWhile {p : UInt8 → Bool} (hp : ∀ b, p b = true → b ≠ 0x27 ∧ b ≠ 0x22 ∧ b.toNat < 128)
    (s : Bytes) : asciiOutside (s.dropWhile p) = asciiOutside s := by
  induction s with
  | nil => rfl
  | cons b s ih =>
    cases hb : p b with
    | true =>
      obtain ⟨h₁, h₂, h₃⟩ := hp b hb
      rw [List.dropWhile_cons_of_pos hb, asciiOutside_ascii h₁ h₂ h₃, ih]
    | false => rw [List.dropWhile_cons_of_neg (by rw [hb]; decide)]

theorem isDigitByte_ascii {b : UInt8} (h : isDigitByte b = true) : b.toNat < 128 := by
  simp only [isDigitByte, Bool.and_eq_true, decide_eq_true_eq, UInt8.le_iff_toNat_le] at h
  simp at h
  omega

theorem isNumberByte_ascii (b : UInt8) (h : isNumberByte b = true) : b ≠ 0x27 ∧ b ≠ 0x22 ∧ b.toNat < 128 := by
  refine ⟨?_, ?_, ?_⟩
  · rintro rfl
    exact absurd h (by decide)
  · rintro rfl
    exact absurd h (by decide)
  · by_contra hb
    have hplain := (plain_beyond (b := b) (by omega)).notDigit
    simp only [isNumberByte, hplain, Bool.false_or, Bool.or_eq_true, Bool.and_eq_true, decide_eq_true_eq,
      UInt8.le_iff_toNat_le, List.contains_iff_mem, List.mem_cons, List.not_mem_nil, or_false] at h
    rcases h with (h | h) | h
    · rcases h with rfl | rfl | rfl | rfl | rfl | rfl | rfl <;> exact hb (by decide)
    · simp at h
      omega
    · simp at h
      omega

theorem isWhitespaceByte_ascii (b : UInt8) (h : isWhitespaceByte b = true) : b ≠ 0x27 ∧ b ≠ 0x22 ∧ b.toNat < 128 := by
  refine ⟨?_, ?_, ?_⟩
  · rintro rfl
    exact absurd h (by decide)
  · rintro rfl
    exact absurd h (by decide)
  · have hnat := toNat_byteChar b
    simp [isWhitespaceByte, isAsciiWhitespace, hnat] at h
    omega

/-! ## The second reading -/

/-- The first byte of what is left of a text comes from its first byte. -/
theorem scan_head {last : Option Char} {s : Bytes} (hs : EndsText s) {x : UInt8}
    (h : x ∈ (toUtf8 (scan last s)).head?) :
    ∃ b ∈ s.head?, x = b ∨ x = 0x3F ∨ x = 0x20 ∧ isWhitespaceByte b = true ∨ 128 ≤ x.toNat := by
  cases s with
  | nil => cases h
  | cons b s =>
    refine ⟨b, rfl, ?_⟩
    have hpass (t : Str) (hx : x ∈ (toUtf8 (byteChar b :: t)).head?) : x = b ∨ 128 ≤ x.toNat := by
      rw [toUtf8_cons] at hx
      by_cases hb : b.toNat < 128
      · rw [utf8Char_byteChar hb] at hx
        exact .inl (Option.some.inj hx).symm
      · obtain ⟨y, z, hyz, hy, _⟩ := utf8Char_byteChar_beyond (b := b) (by omega)
        rw [hyz] at hx
        obtain rfl := Option.some.inj hx
        exact .inr hy
    by_cases h₁ : b = 0x27
    · subst h₁
      rw [scan_quoted] at h
      exact .inr (.inl (Option.some.inj h).symm)
    by_cases h₂ : b = 0x22
    · subst h₂
      rw [scan_doubleQuoted, toUtf8_append] at h
      cases hblank : (readDoubleQuoted s).1.any isWhitespaceByte with
      | true =>
        rw [doubleQuotedOut, if_pos hblank] at h
        exact .inr (.inl (Option.some.inj h).symm)
      | false =>
        rw [toUtf8_doubleQuotedOut hs hblank] at h
        exact .inl (Option.some.inj h).symm
    by_cases h₃ : isDigitByte b = true
    · cases hlast : inWord last with
      | true =>
        rw [scan_kept last s h₃ hlast] at h
        exact (hpass _ h).imp id fun hx => .inr (.inr hx)
      | false =>
        rw [scan_number last s h₃ hlast] at h
        exact .inr (.inl (Option.some.inj h).symm)
    by_cases h₄ : isBlankByte b
    · rw [scan_blank last s h₄] at h
      refine .inr (.inr (.inl ⟨(Option.some.inj h).symm, ?_⟩))
      rcases h₄ with rfl | rfl | rfl | rfl <;> decide
    · rw [scan_plain last s ⟨h₁, h₂, Bool.eq_false_iff.mpr h₃, h₄⟩] at h
      exact (hpass _ h).imp id fun hx => .inr (.inr hx)

/-- A text that was read again: the same, or a longer one. -/
structure ReadAgain (same : Bool) (text again : Str) : Prop where
  eq : same = true → again = text
  grows : same = false → text.length < again.length

theorem ReadAgain.append {same : Bool} {text again : Str} (h : ReadAgain same text again) (front : Str) :
    ReadAgain same (front ++ text) (front ++ again) where
  eq hsame := by rw [h.eq hsame]
  grows hsame := by
    rw [List.length_append, List.length_append]
    exact Nat.add_lt_add_left (h.grows hsame) _

theorem ReadAgain.length_le {same : Bool} {text again : Str} (h : ReadAgain same text again) :
    text.length ≤ again.length := by
  cases same with
  | true => rw [h.eq rfl]
  | false => exact Nat.le_of_lt (h.grows rfl)

theorem dropWhile_of_head {p : UInt8 → Bool} {s : Bytes} (h : ∀ b ∈ s.head?, p b = false) : s.dropWhile p = s := by
  cases s with
  | nil => rfl
  | cons b s => exact List.dropWhile_cons_of_neg (by rw [h b rfl]; decide)

theorem head_dropWhile (p : UInt8 → Bool) (s : Bytes) {b : UInt8} (hb : b ∈ (s.dropWhile p).head?) : p b = false := by
  have h := List.head?_dropWhile_not p s
  rwa [Option.mem_def.mp hb] at h

theorem mark_again {same : Bool} {last : Option Char} {text : Str}
    (h : ReadAgain same text (scan (some '?') (toUtf8 text))) :
    ReadAgain same ('?' :: text) (scan last (toUtf8 ('?' :: text))) := by
  have hmark : scan last (toUtf8 ('?' :: text)) = '?' :: scan (some '?') (toUtf8 text) :=
    scan_plain last (toUtf8 text) ⟨by decide, by decide, by decide, by decide⟩
  rw [hmark]
  exact h.append ['?']

/-- What a text has become, read again, changes exactly where characters beyond ASCII passed through. -/
theorem scan_scan {last : Option Char} {s : Bytes} (hs : EndsText s) (last' : Option Char)
    (hlast : inWord last = inWord last') :
    ReadAgain (asciiOutside s) (scan last s) (scan last' (toUtf8 (scan last s))) := by
  induction last, s using scan_induction generalizing last' with
  | nil last => exact ⟨fun _ => rfl, fun h => absurd h (by decide)⟩
  | quoted last s ih =>
    rw [scan_quoted, asciiOutside_quoted]
    exact mark_again (ih (hs.of_suffix ((skipQuoted_suffix s).trans (List.suffix_cons _ s))) _ rfl)
  | doubleQuoted last s ih =>
    have hrest := hs.of_suffix ((readDoubleQuoted_suffix s).trans (List.suffix_cons _ s))
    have hagain := ih hrest (doubleQuotedOut s).getLast? rfl
    rw [scan_doubleQuoted, asciiOutside_doubleQuoted]
    cases hblank : (readDoubleQuoted s).1.any isWhitespaceByte with
    | true =>
      have hout : doubleQuotedOut s = ['?'] := if_pos hblank
      rw [hout] at hagain ⊢
      exact mark_again hagain
    | false =>
      -- the second reading finds the same token, as nothing that goes on with it follows
      have hread : readDoubleQuoted ((readDoubleQuoted s).1 ++
          toUtf8 (scan (doubleQuotedOut s).getLast? (readDoubleQuoted s).2)) =
          ((readDoubleQuoted s).1, toUtf8 (scan (doubleQuotedOut s).getLast? (readDoubleQuoted s).2)) := by
        apply readDoubleQuoted_again
        · intro x hx
          obtain ⟨b, hb, hx⟩ := scan_head hrest hx
          rcases hx with rfl | rfl | ⟨rfl, _⟩ | hx
          · exact readDoubleQuoted_rest s _ hb
          · decide
          · decide
          · rintro rfl
            exact absurd hx (by decide)
        · intro hnil
          rw [hnil]
          rfl
      have hout : doubleQuotedOut ((readDoubleQuoted s).1 ++
          toUtf8 (scan (doubleQuotedOut s).getLast? (readDoubleQuoted s).2)) = doubleQuotedOut s :=
        doubleQuotedOut_congr (by rw [hread])
      rw [toUtf8_append, toUtf8_doubleQuotedOut hs hblank, List.cons_append, scan_doubleQuoted,
        hout, hread]
      exact hagain.append _
  | kept last b s hb hword ih =>
    obtain ⟨h₁, h₂⟩ := digit_not_quote hb
    rw [scan_kept last s hb hword, asciiOutside_ascii h₁ h₂ (isDigitByte_ascii hb), toUtf8_cons,
      utf8Char_byteChar (isDigitByte_ascii hb), List.singleton_append, scan_kept last' _ hb (hlast ▸ hword)]
    exact (ih (hs.of_suffix (List.suffix_cons b s)) _ rfl).append [byteChar b]
  | number last b s hb hword ih =>
    obtain ⟨h₁, h₂⟩ := digit_not_quote hb
    have hagain := ih (hs.of_suffix ((List.dropWhile_suffix _).trans (List.suffix_cons b s))) (some '?') rfl
    rw [asciiOutside_dropWhile isNumberByte_ascii] at hagain
    rw [scan_number last s hb hword, asciiOutside_ascii h₁ h₂ (isDigitByte_ascii hb)]
    exact mark_again hagain
  | blank last b s hb ih =>
    have hb' : isWhitespaceByte b = true := by rcases hb with rfl | rfl | rfl | rfl <;> decide
    have hrest := hs.of_suffix ((List.dropWhile_suffix isWhitespaceByte).trans (List.suffix_cons b s))
    obtain ⟨h₁, h₂, h₃⟩ := isWhitespaceByte_ascii b hb'
    have hagain := ih hrest (some ' ') rfl
    rw [asciiOutside_dropWhile isWhitespaceByte_ascii] at hagain
    -- no whitespace is left behind the blank, so there is nothing to collapse
    have hdrop : (toUtf8 (scan (some ' ') (s.dropWhile isWhitespaceByte))).dropWhile isWhitespaceByte =
        toUtf8 (scan (some ' ') (s.dropWhile isWhitespaceByte)) := by
      apply dropWhile_of_head
      intro x hx
      obtain ⟨a, ha, hx⟩ := scan_head hrest hx
      have ha' := head_dropWhile isWhitespaceByte s ha
      rcases hx with rfl | rfl | ⟨_, hwhite⟩ | hx
      · exact ha'
      · decide
      · rw [ha'] at hwhite
        cases hwhite
      · cases hwhite : isWhitespaceByte x with
        | false => rfl
        | true =>
          have h := (isWhitespaceByte_ascii x hwhite).2.2
          omega
    have hblank : scan last' (toUtf8 (' ' :: scan (some ' ') (s.dropWhile isWhitespaceByte))) =
        ' ' :: scan (some ' ') (toUtf8 (scan (some ' ') (s.dropWhile isWhitespaceByte))) := by
      refine (scan_blank (b := 0x20) last' _ (.inl rfl)).trans (congrArg (' ' :: scan (some ' ') ·) hdrop)
    rw [scan_blank last s hb, asciiOutside_ascii h₁ h₂ h₃, hblank]
    exact hagain.append [' ']
  | plain last b s hb ih =>
    have hrest := hs.of_suffix (List.suffix_cons b s)
    rw [scan_plain last s hb, toUtf8_cons]
    by_cases hascii : b.toNat < 128
    · rw [utf8Char_byteChar hascii, List.singleton_append, scan_plain last' _ hb,
        asciiOutside_ascii hb.notQuote hb.notDoubleQuote hascii]
      exact (ih hrest _ rfl).append [byteChar b]
    · -- the byte has become a character of two bytes, which both pass through
      obtain ⟨x, y, hbytes, hx, hy⟩ := utf8Char_byteChar_beyond (b := b) (by omega)
      have hagain := ih hrest (some (byteChar y)) ((inWord_beyond (by omega)).trans (inWord_beyond hy).symm)
      have houtside : asciiOutside (b :: s) = false := by
        rw [asciiOutside_other hb.notQuote hb.notDoubleQuote,
          decide_eq_false (by rw [UInt8.lt_iff_toNat_lt]; exact hascii), Bool.false_and]
      rw [houtside, hbytes, List.cons_append, List.singleton_append, scan_plain last' _ (plain_beyond hx),
        scan_plain _ _ (plain_beyond hy)]
      refine ⟨fun h => absurd h (by decide), fun _ => ?_⟩
      have hle := hagain.length_le
      rw [List.length_cons, List.length_cons, List.length_cons]
      omega

/-! ## Fixed points -/

/-- `QueryWhitelist::is_allowed`, for the fingerprints it was made with. -/
def isAllowed (fingerprints : List Str) (sql : Str) : Bool :=
  if fingerprints.isEmpty then true else fingerprints.contains (fingerprint sql)

/-- Every character beyond ASCII is in a quoted token. -/
def quotesBeyondAscii (sql : Str) : Bool := asciiOutside (toUtf8 sql)

/-- A fingerprint is its own fingerprint if, and only if, the characters beyond ASCII are all in quoted tokens. -/
theorem fingerprint_again_iff (sql : Str) : fingerprint (fingerprint sql) = fingerprint sql ↔
    quotesBeyondAscii sql = true := by
  have h : ReadAgain (asciiOutside (toUtf8 sql)) (scan none (toUtf8 sql))
      (scan none (toUtf8 (scan none (toUtf8 sql)))) := scan_scan ⟨sql, List.suffix_rfl⟩ none rfl
  constructor
  · intro heq
    by_contra hbeyond
    have hgrows := h.grows (Bool.eq_false_iff.mpr hbeyond)
    rw [← fingerprint_eq, ← fingerprint_eq, heq] at hgrows
    exact Nat.lt_irrefl _ hgrows
  · exact h.eq

/-- Entries of the allowlist and digests of rules, copied from a fingerprint, accept it exactly then. -/
theorem copied_fingerprint_iff (sql : Str) :
    (fingerprint (fingerprint sql) = fingerprint sql ∧
      (∀ allowed, fingerprint sql ∈ allowed → isAllowed allowed (fingerprint sql) = true) ∧
      ∀ rule : QueryRule, rule.digest = some (fingerprint sql) → ∀ user schema,
        (rule.user = [] ∨ rule.user = user) → (rule.schema = [] ∨ rule.schema = schema) →
          rule.isFor (fingerprint sql) user schema = true) ↔
      quotesBeyondAscii sql = true := by
  rw [← fingerprint_again_iff]
  constructor
  · exact And.left
  · intro heq
    refine ⟨heq, fun allowed hmem => ?_, fun rule hdigest user schema huser hschema => ?_⟩
    · rw [isAllowed, heq, if_neg (by simpa using List.ne_nil_of_mem hmem)]
      exact List.contains_iff_mem.mpr hmem
    · have hfilter {a b : Str} (h : a = [] ∨ a = b) : (a.isEmpty || a == b) = true := by
        rcases h with rfl | rfl
        · rfl
        · rw [beq_self_eq_true, Bool.or_true]
      rw [QueryRule.isFor, hfilter huser, hfilter hschema, hdigest, heq]
      exact beq_self_eq_true (fingerprint sql)

/-- An accented column name is two characters after one reading, and four after two. -/
theorem fingerprint_accent_ne :
    fingerprint (fingerprint "SELECT prénom FROM t".toList) ≠ fingerprint "SELECT prénom FROM t".toList := by
  decide +kernel

end TurbineProxy
