import TurbineProxy.Text

/-!
# UTF-8 there and back

A library layer on the decoder and encoder of `Text`, independent of the proxy. Decoding the bytes of
a text gives the text (`fromUtf8_toUtf8`), and what decodes is the encoding of its text
(`toUtf8_of_fromUtf8`): on well-formed bytes a text view loses nothing. The lossy view agrees with the
strict one there (`fromUtf8Lossy_of_fromUtf8`).
-/

namespace TurbineProxy

/-! ## Bytes as numbers -/

theorem byte_ofNat {n : Nat} (h : n < 256) : (UInt8.ofNat n).toNat = n := by
  rw [UInt8.toNat_ofNat']
  exact Nat.mod_eq_of_lt h

theorem byte_eq {a : UInt8} {n : Nat} (h : n = a.toNat) : UInt8.ofNat n = a := by
  rw [h, UInt8.ofNat_toNat]

theorem isContinuation_iff {b : UInt8} : isContinuation b = true ↔ 128 ≤ b.toNat ∧ b.toNat ≤ 191 := by
  simp [isContinuation, UInt8.le_iff_toNat_le]

theorem isSecondOfThree_iff {a b : UInt8} :
    isSecondOfThree a b = true ↔ 128 ≤ b.toNat ∧ b.toNat ≤ 191 ∧
      (a.toNat = 0xE0 → 160 ≤ b.toNat) ∧ (a.toNat = 0xED → b.toNat ≤ 159) := by
  simp only [isSecondOfThree, beq_iff_eq, ← UInt8.toNat_inj]
  split
  · rename_i h
    simp [UInt8.le_iff_toNat_le] at h ⊢
    omega
  · split
    · rename_i h₁ h₂
      simp [UInt8.le_iff_toNat_le] at h₁ h₂ ⊢
      omega
    · rename_i h₁ h₂
      simp [isContinuation_iff] at h₁ h₂ ⊢
      omega

theorem isSecondOfFour_iff {a b : UInt8} :
    isSecondOfFour a b = true ↔ 128 ≤ b.toNat ∧ b.toNat ≤ 191 ∧
      (a.toNat = 0xF0 → 144 ≤ b.toNat) ∧ (a.toNat = 0xF4 → b.toNat ≤ 143) := by
  simp only [isSecondOfFour, beq_iff_eq, ← UInt8.toNat_inj]
  split
  · rename_i h
    simp [UInt8.le_iff_toNat_le] at h ⊢
    omega
  · split
    · rename_i h₁ h₂
      simp [UInt8.le_iff_toNat_le] at h₁ h₂ ⊢
      omega
    · rename_i h₁ h₂
      simp [isContinuation_iff] at h₁ h₂ ⊢
      omega

/-- The code point of a scalar value. -/
theorem toNat_char {n : Nat} (h : n < 0xD800 ∨ 0xDFFF < n ∧ n < 0x110000) : (Char.ofNat n).toNat = n := by
  have hv : n.isValidChar := h
  rw [Char.ofNat, dif_pos hv]
  rfl

theorem char_valid (c : Char) : c.toNat < 0xD800 ∨ 0xDFFF < c.toNat ∧ c.toNat < 0x110000 := c.valid

/-! ## One character -/

theorem utf8Next_one {a : UInt8} (ha : a.toNat < 128) (s : Bytes) :
    utf8Next a s = (some (Char.ofNat a.toNat), s) := by
  have h₁ : a < 0x80 := UInt8.lt_iff_toNat_lt.mpr ha
  unfold utf8Next
  rw [if_pos h₁]

theorem utf8Next_two {a b : UInt8} (ha : 0xC2 ≤ a.toNat ∧ a.toNat ≤ 0xDF)
    (hb : isContinuation b = true) {n : Nat} (hn : addBits (a.toNat - 0xC0) b = n) (s : Bytes) :
    utf8Next a (b :: s) = (some (Char.ofNat n), s) := by
  have h₁ : ¬a < 0x80 := by
    rw [UInt8.lt_iff_toNat_lt]
    exact Nat.not_lt.mpr (Nat.le_trans (by decide) ha.1)
  have h₂ : (0xC2 ≤ a && a ≤ 0xDF) = true := by
    simp only [Bool.and_eq_true, decide_eq_true_eq, UInt8.le_iff_toNat_le]
    exact ha
  unfold utf8Next
  rw [if_neg h₁, if_pos h₂]
  simp only [hb, hn, if_true]

theorem utf8Next_three {a b c : UInt8} (ha : 0xE0 ≤ a.toNat ∧ a.toNat ≤ 0xEF)
    (hb : isSecondOfThree a b = true) (hc : isContinuation c = true) {n : Nat}
    (hn : addBits (addBits (a.toNat - 0xE0) b) c = n) (s : Bytes) :
    utf8Next a (b :: c :: s) = (some (Char.ofNat n), s) := by
  have h₁ : ¬a < 0x80 := by
    rw [UInt8.lt_iff_toNat_lt]
    exact Nat.not_lt.mpr (Nat.le_trans (by decide) ha.1)
  have h₂ : ¬(0xC2 ≤ a && a ≤ 0xDF) = true := by
    simp only [Bool.and_eq_true, decide_eq_true_eq, UInt8.le_iff_toNat_le]
    exact fun h => absurd (Nat.le_trans ha.1 h.2) (by decide)
  have h₃ : (0xE0 ≤ a && a ≤ 0xEF) = true := by
    simp only [Bool.and_eq_true, decide_eq_true_eq, UInt8.le_iff_toNat_le]
    exact ha
  unfold utf8Next
  rw [if_neg h₁, if_neg h₂, if_pos h₃]
  simp only [hb, hc, hn, if_true]

theorem utf8Next_four {a b c d : UInt8} (ha : 0xF0 ≤ a.toNat ∧ a.toNat ≤ 0xF4)
    (hb : isSecondOfFour a b = true) (hc : isContinuation c = true) (hd : isContinuation d = true)
    {n : Nat} (hn : addBits (addBits (addBits (a.toNat - 0xF0) b) c) d = n) (s : Bytes) :
    utf8Next a (b :: c :: d :: s) = (some (Char.ofNat n), s) := by
  have h₁ : ¬a < 0x80 := by
    rw [UInt8.lt_iff_toNat_lt]
    exact Nat.not_lt.mpr (Nat.le_trans (by decide) ha.1)
  have h₂ : ¬(0xC2 ≤ a && a ≤ 0xDF) = true := by
    simp only [Bool.and_eq_true, decide_eq_true_eq, UInt8.le_iff_toNat_le]
    exact fun h => absurd (Nat.le_trans ha.1 h.2) (by decide)
  have h₃ : ¬(0xE0 ≤ a && a ≤ 0xEF) = true := by
    simp only [Bool.and_eq_true, decide_eq_true_eq, UInt8.le_iff_toNat_le]
    exact fun h => absurd (Nat.le_trans ha.1 h.2) (by decide)
  have h₄ : (0xF0 ≤ a && a ≤ 0xF4) = true := by
    simp only [Bool.and_eq_true, decide_eq_true_eq, UInt8.le_iff_toNat_le]
    exact ha
  rw [utf8Next]
  rw [if_neg h₁, if_neg h₂, if_neg h₃, if_pos h₄]
  simp only [hb, hc, hd, hn, if_true]

/-- Decoding what a character is encoded as gives the character. -/
theorem utf8Next_utf8Char (c : Char) (rest : Bytes) :
    ∃ a tail, utf8Char c = a :: tail ∧ utf8Next a (tail ++ rest) = (some c, rest) := by
  have hvalid := char_valid c
  have hc : Char.ofNat c.toNat = c := Char.ofNat_toNat c
  simp only [utf8Char]
  split_ifs with h₁ h₂ h₃
  · have ha := byte_ofNat (n := c.toNat) (by omega)
    refine ⟨_, _, rfl, ?_⟩
    rw [List.nil_append, utf8Next_one (by omega), ha, hc]
  · have ha := byte_ofNat (n := 0xC0 + c.toNat / 64) (by omega)
    have hb := byte_ofNat (n := 0x80 + c.toNat % 64) (by omega)
    refine ⟨_, _, rfl, ?_⟩
    rw [List.singleton_append, utf8Next_two (n := c.toNat), hc]
    · omega
    · exact isContinuation_iff.mpr (by omega)
    · unfold addBits
      omega
  · have ha := byte_ofNat (n := 0xE0 + c.toNat / 4096) (by omega)
    have hb := byte_ofNat (n := 0x80 + c.toNat / 64 % 64) (by omega)
    have hd := byte_ofNat (n := 0x80 + c.toNat % 64) (by omega)
    refine ⟨_, _, rfl, ?_⟩
    rw [List.cons_append, List.singleton_append, utf8Next_three (n := c.toNat), hc]
    · omega
    · exact isSecondOfThree_iff.mpr (by omega)
    · exact isContinuation_iff.mpr (by omega)
    · unfold addBits
      omega
  · have ha := byte_ofNat (n := 0xF0 + c.toNat / 262144) (by omega)
    have hb := byte_ofNat (n := 0x80 + c.toNat / 4096 % 64) (by omega)
    have hd := byte_ofNat (n := 0x80 + c.toNat / 64 % 64) (by omega)
    have he := byte_ofNat (n := 0x80 + c.toNat % 64) (by omega)
    refine ⟨_, _, rfl, ?_⟩
    rw [List.cons_append, List.cons_append, List.singleton_append, utf8Next_four (n := c.toNat), hc]
    · omega
    · exact isSecondOfFour_iff.mpr (by omega)
    · exact isContinuation_iff.mpr (by omega)
    · exact isContinuation_iff.mpr (by omega)
    · unfold addBits
      omega

/-- The encoding of a code point. -/
theorem utf8Char_ofNat {n : Nat} (h : n < 0xD800 ∨ 0xDFFF < n ∧ n < 0x110000) :
    utf8Char (Char.ofNat n) =
      if n < 0x80 then [UInt8.ofNat n]
      else if n < 0x800 then [UInt8.ofNat (0xC0 + n / 64), UInt8.ofNat (0x80 + n % 64)]
      else if n < 0x10000 then
        [UInt8.ofNat (0xE0 + n / 4096), UInt8.ofNat (0x80 + n / 64 % 64), UInt8.ofNat (0x80 + n % 64)]
      else
        [UInt8.ofNat (0xF0 + n / 262144), UInt8.ofNat (0x80 + n / 4096 % 64),
         UInt8.ofNat (0x80 + n / 64 % 64), UInt8.ofNat (0x80 + n % 64)] := by
  rw [utf8Char, toNat_char h]

/-- A chunk that decodes is the encoding of its character. -/
theorem utf8Char_of_utf8Next {a : UInt8} {s rest : Bytes} {c : Char}
    (h : utf8Next a s = (some c, rest)) : utf8Char c ++ rest = a :: s := by
  have hlt := a.toNat_lt
  unfold utf8Next at h
  -- by the first byte, which says how many follow
  split at h
  case isTrue h₁ =>
    rw [UInt8.lt_iff_toNat_lt] at h₁
    change a.toNat < 128 at h₁
    obtain ⟨hc, rfl⟩ := Prod.mk.inj h
    obtain rfl := Option.some.inj hc
    rw [utf8Char_ofNat (by omega), if_pos h₁, UInt8.ofNat_toNat, List.singleton_append]
  split at h
  case isTrue h₁ h₂ =>
    simp only [Bool.and_eq_true, decide_eq_true_eq, UInt8.le_iff_toNat_le] at h₂
    change 194 ≤ a.toNat ∧ a.toNat ≤ 223 at h₂
    split at h
    case h_2 => cases h
    case h_1 b s₁ =>
      split at h
      case isFalse => cases h
      case isTrue hb =>
        rw [isContinuation_iff] at hb
        obtain ⟨hc, rfl⟩ := Prod.mk.inj h
        obtain rfl := Option.some.inj hc
        unfold addBits
        rw [utf8Char_ofNat (by omega), if_neg (by omega), if_pos (by omega),
          byte_eq (a := a) (by omega), byte_eq (a := b) (by omega)]
        rfl
  split at h
  case isTrue h₁ h₂ h₃ =>
    simp only [Bool.and_eq_true, decide_eq_true_eq, UInt8.le_iff_toNat_le] at h₃
    change 224 ≤ a.toNat ∧ a.toNat ≤ 239 at h₃
    split at h
    case h_2 => cases h
    case h_1 b s₁ =>
      split at h
      case isFalse => cases h
      case isTrue hb =>
        rw [isSecondOfThree_iff] at hb
        split at h
        case h_2 => cases h
        case h_1 d s₂ =>
          split at h
          case isFalse => cases h
          case isTrue hd =>
            rw [isContinuation_iff] at hd
            obtain ⟨hc, rfl⟩ := Prod.mk.inj h
            obtain rfl := Option.some.inj hc
            unfold addBits
            rw [utf8Char_ofNat (by omega), if_neg (by omega), if_neg (by omega),
              if_pos (by omega), byte_eq (a := a) (by omega), byte_eq (a := b) (by omega),
              byte_eq (a := d) (by omega)]
            rfl
  split at h
  case isFalse => cases h
  case isTrue h₁ h₂ h₃ h₄ =>
    simp only [Bool.and_eq_true, decide_eq_true_eq, UInt8.le_iff_toNat_le] at h₄
    change 240 ≤ a.toNat ∧ a.toNat ≤ 244 at h₄
    split at h
    case h_2 => cases h
    case h_1 b s₁ =>
      split at h
      case isFalse => cases h
      case isTrue hb =>
        rw [isSecondOfFour_iff] at hb
        split at h
        case h_2 => cases h
        case h_1 d s₂ =>
          split at h
          case isFalse => cases h
          case isTrue hd =>
            rw [isContinuation_iff] at hd
            split at h
            case h_2 => cases h
            case h_1 e s₃ =>
              split at h
              case isFalse => cases h
              case isTrue he =>
                rw [isContinuation_iff] at he
                obtain ⟨hc, rfl⟩ := Prod.mk.inj h
                obtain rfl := Option.some.inj hc
                unfold addBits
                rw [utf8Char_ofNat (by omega), if_neg (by omega),
                  if_neg (by omega), if_neg (by omega), byte_eq (a := a) (by omega),
                  byte_eq (a := b) (by omega), byte_eq (a := d) (by omega), byte_eq (a := e) (by omega)]
                rfl

/-! ## Whole texts -/

theorem utf8Char_ne_nil (c : Char) : utf8Char c ≠ [] := by
  obtain ⟨a, tail, h, -⟩ := utf8Next_utf8Char c []
  rw [h]
  exact List.cons_ne_nil a tail

/-- The chunks of an encoded text are its characters. -/
theorem utf8Chunks_toUtf8 (s : Str) (n : Nat) (h : (toUtf8 s).length ≤ n) :
    utf8Chunks n (toUtf8 s) = s.map some := by
  induction s generalizing n with
  | nil =>
    cases n with
    | zero => rfl
    | succ n => rfl
  | cons c s ih =>
    obtain ⟨a, tail, hc, hnext⟩ := utf8Next_utf8Char c (toUtf8 s)
    have hbytes : toUtf8 (c :: s) = a :: (tail ++ toUtf8 s) := by
      change utf8Char c ++ toUtf8 s = _
      rw [hc, List.cons_append]
    rw [hbytes] at h ⊢
    rw [List.length_cons, List.length_append] at h
    cases n with
    | zero => omega
    | succ n =>
      rw [utf8Chunks, hnext, ih n (by omega), List.map_cons]

/-- Decoding the bytes of a text gives the text. -/
theorem fromUtf8_toUtf8 (s : Str) : fromUtf8 (toUtf8 s) = some s := by
  simp [fromUtf8, utf8Chunks_toUtf8 s _ Nat.le.refl]

/-- Chunks that all decode spell the bytes. -/
theorem toUtf8_utf8Chunks {n : Nat} {bytes : Bytes} (hn : bytes.length ≤ n)
    (h : (utf8Chunks n bytes).all Option.isSome = true) :
    toUtf8 ((utf8Chunks n bytes).filterMap id) = bytes := by
  induction n generalizing bytes with
  | zero =>
    obtain rfl := List.eq_nil_of_length_eq_zero (Nat.le_zero.mp hn)
    rfl
  | succ n ih =>
    rcases bytes with _ | ⟨a, s⟩
    · rfl
    · rw [utf8Chunks] at h ⊢
      rw [List.all_cons, Bool.and_eq_true, Option.isSome_iff_exists] at h
      obtain ⟨⟨c, hc⟩, hrest⟩ := h
      have hchar : utf8Char c ++ (utf8Next a s).2 = a :: s :=
        utf8Char_of_utf8Next (Prod.ext hc rfl)
      have hlen := congrArg List.length hchar
      have hpos := List.length_pos_iff.mpr (utf8Char_ne_nil c)
      rw [List.length_append, List.length_cons] at hlen
      rw [List.length_cons] at hn
      rw [hc, List.filterMap_cons]
      change utf8Char c ++ toUtf8 _ = _
      rw [ih (by omega) hrest, hchar]

/-- Bytes that decode are the encoding of their text. -/
theorem toUtf8_of_fromUtf8 {bytes : Bytes} {s : Str} (h : fromUtf8 bytes = some s) :
    toUtf8 s = bytes := by
  obtain ⟨hall, hs⟩ := Option.ite_none_right_eq_some.mp h
  obtain rfl := Option.some.inj hs
  exact toUtf8_utf8Chunks Nat.le.refl hall

/-- On well-formed bytes the lossy view is the strict one. -/
theorem fromUtf8Lossy_of_fromUtf8 {bytes : Bytes} {s : Str} (h : fromUtf8 bytes = some s) :
    fromUtf8Lossy bytes = s := by
  have hs := toUtf8_of_fromUtf8 h
  rw [← hs, fromUtf8Lossy, utf8Chunks_toUtf8 s _ Nat.le.refl, List.map_map]
  exact List.map_id s

theorem fromUtf8Lossy_toUtf8 (s : Str) : fromUtf8Lossy (toUtf8 s) = s :=
  fromUtf8Lossy_of_fromUtf8 (fromUtf8_toUtf8 s)

theorem textOf_toUtf8 (s : Str) : textOf (toUtf8 s) = s := by
  rw [textOf, fromUtf8_toUtf8, Option.getD_some]

/-- The text view determines the bytes exactly when they are well-formed. -/
theorem toUtf8_textOf_iff (bytes : Bytes) : toUtf8 (textOf bytes) = bytes ↔ (fromUtf8 bytes).isSome := by
  constructor
  · intro h
    rw [← h, fromUtf8_toUtf8]
    rfl
  · intro h
    obtain ⟨s, hs⟩ := Option.isSome_iff_exists.mp h
    rw [textOf, hs, Option.getD_some, toUtf8_of_fromUtf8 hs]

/-- A literal is ASCII if its characters are. -/
theorem ascii_ofList {l : List Char} (h : (l.all fun c => decide (c.toNat < 128)) = true) :
    ∀ c ∈ (String.ofList l).toList, c.toNat < 128 := by
  rw [String.toList_ofList]
  simpa using h

/-- An ASCII literal is its own encoding. -/
theorem asciiBytes_eq {s : String} (h : ∀ c ∈ s.toList, c.toNat < 128) :
    asciiBytes s = toUtf8 s.toList := by
  rw [asciiBytes]
  generalize s.toList = l at h ⊢
  induction l with
  | nil => rfl
  | cons c l ih =>
    have hc : utf8Char c = [UInt8.ofNat c.toNat] := if_pos (h c (.head l))
    change _ = utf8Char c ++ toUtf8 l
    rw [hc, List.map_cons, ih fun c' hc' => h c' (.tail c hc'), List.singleton_append]

/-! ## Bytes that do not end a text -/

/-- What follows a chunk is part of the bytes. -/
theorem utf8Next_rest (a : UInt8) (s : Bytes) : (utf8Next a s).2 ⊆ s := by
  intro x hx
  unfold utf8Next at hx
  repeat' split at hx
  all_goals first | exact hx | exact List.mem_cons_of_mem _ hx |
    exact List.mem_cons_of_mem _ (List.mem_cons_of_mem _ hx) |
    exact List.mem_cons_of_mem _ (List.mem_cons_of_mem _ (List.mem_cons_of_mem _ hx))

/-- The bytes of a decoded character are among the bytes. -/
theorem utf8Char_subset {n : Nat} {bytes : Bytes} {c : Char} (h : some c ∈ utf8Chunks n bytes) :
    utf8Char c ⊆ bytes := by
  induction n generalizing bytes with
  | zero => cases h
  | succ n ih =>
    rcases bytes with _ | ⟨a, s⟩
    · cases h
    · rcases List.mem_cons.mp h with hc | hc
      · have hbytes := utf8Char_of_utf8Next (Prod.ext hc.symm rfl : utf8Next a s = (some c, (utf8Next a s).2))
        rw [← hbytes]
        exact List.subset_append_left _ _
      · exact List.Subset.trans (List.Subset.trans (ih hc) (utf8Next_rest a s)) (List.subset_cons_self a s)

/-- Only the NUL character has a NUL byte. -/
theorem zero_not_mem_utf8Char {c : Char} (h : c.toNat ≠ 0) : (0 : UInt8) ∉ utf8Char c := by
  have hvalid := char_valid c
  have hbyte : ∀ n, 0 < n → n < 256 → (0 : UInt8) ≠ UInt8.ofNat n := by
    intro n hpos hlt heq
    have hn := congrArg UInt8.toNat heq
    rw [byte_ofNat hlt] at hn
    exact Nat.ne_of_lt hpos hn
  simp only [utf8Char]
  split_ifs <;> simp only [List.mem_cons, List.not_mem_nil, or_false, not_or]
  · exact hbyte _ (by omega) (by omega)
  · exact ⟨hbyte _ (by omega) (by omega), hbyte _ (by omega) (by omega)⟩
  · exact ⟨hbyte _ (by omega) (by omega), hbyte _ (by omega) (by omega), hbyte _ (by omega) (by omega)⟩
  · exact ⟨hbyte _ (by omega) (by omega), hbyte _ (by omega) (by omega), hbyte _ (by omega) (by omega),
      hbyte _ (by omega) (by omega)⟩

/-- A text decoded from bytes without NUL has none. -/
theorem zero_not_mem_toUtf8_lossy {bytes : Bytes} (h : (0 : UInt8) ∉ bytes) :
    (0 : UInt8) ∉ toUtf8 (fromUtf8Lossy bytes) := by
  intro hmem
  obtain ⟨c, hc, hzero⟩ := List.mem_flatMap.mp hmem
  obtain ⟨chunk, hchunk, rfl⟩ := List.mem_map.mp hc
  rcases chunk with _ | c
  · exact zero_not_mem_utf8Char (by decide) hzero
  · exact h (utf8Char_subset hchunk hzero)

end TurbineProxy
