import TurbineProxy.Framing
import TurbineProxy.ResultSet

/-!
# Length-encoded integers

The one encoder (`lenenc`, for `encode_lenenc`) and its decoders: `read_lenenc` and `lenenc_size` of
`protocol/mysql/mod.rs`, `read_lenenc_int` of `handshake.rs`, and the one that `health.rs` and `group_replication.rs`
have a copy of (`readLenencInt`). Only the second of the four knows the class with eight bytes.
-/

namespace TurbineProxy

/-- `read_lenenc`: the value and how many bytes it takes. -/
def readLenenc : Bytes → Nat × Nat
  | [] => (0, 0)
  | b :: rest =>
    if b ≤ 250 then (b.toNat, 1)
    else if b = 0xFC then
      match rest with
      | b₀ :: b₁ :: _ => (leNat [b₀, b₁], 3)
      | _ => (0, 1)
    else if b = 0xFD then
      match rest with
      | b₀ :: b₁ :: b₂ :: _ => (leNat [b₀, b₁, b₂], 4)
      | _ => (0, 1)
    else (0, 1)

/-- `read_lenenc_int` of `handshake.rs`: the value, and the buffer behind it. -/
def Handshake.readLenencInt : Bytes → Option (Nat × Bytes)
  | [] => none
  | b :: rest =>
    if b = 0xFB then none
    else if b = 0xFC then
      if rest.length < 2 then none else some (leNat (rest.take 2), rest.drop 2)
    else if b = 0xFD then
      if rest.length < 3 then none else some (leNat (rest.take 3), rest.drop 3)
    else if b = 0xFE then
      if rest.length < 8 then none else some (leNat (rest.take 8), rest.drop 8)
    else some (b.toNat, rest)

/-- All decoders read this value, of so many bytes. -/
structure Decoded (bytes : Bytes) (v n : Nat) : Prop where
  readLenenc : readLenenc bytes = (v, n)
  lenencSize : bytes.head?.map lenencSize = some n
  handshake : Handshake.readLenencInt bytes = some (v, bytes.drop n)
  readLenencInt : readLenencInt bytes = some (v, bytes.drop n)

/-- A string begins with an encoding of one, three or four bytes. -/
inductive BeginsWhole : Bytes → Prop
  | one {b : UInt8} (h : b ≤ 250) (rest : Bytes) : BeginsWhole (b :: rest)
  | three (b₀ b₁ : UInt8) (rest : Bytes) : BeginsWhole (0xFC :: b₀ :: b₁ :: rest)
  | four (b₀ b₁ b₂ : UInt8) (rest : Bytes) : BeginsWhole (0xFD :: b₀ :: b₁ :: b₂ :: rest)

/-- A string has no value: it is empty, NULL, or too short for its first byte. -/
inductive BeginsShort : Bytes → Prop
  | empty : BeginsShort []
  | null (rest : Bytes) : BeginsShort (0xFB :: rest)
  | three (rest : Bytes) (h : rest.length < 2) : BeginsShort (0xFC :: rest)
  | four (rest : Bytes) (h : rest.length < 3) : BeginsShort (0xFD :: rest)

section Decoders

variable {bytes rest : Bytes} {v n : Nat}

theorem decoded_one {b : UInt8} (h : b ≤ 250) (rest : Bytes) : Decoded (b :: rest) b.toNat 1 where
  readLenenc := if_pos h
  lenencSize := congrArg some (if_pos h)
  handshake := by
    have hne : b ≠ 0xFB ∧ b ≠ 0xFC ∧ b ≠ 0xFD ∧ b ≠ 0xFE := by
      refine ⟨?_, ?_, ?_, ?_⟩ <;> rintro rfl <;> exact absurd h (by decide)
    rw [Handshake.readLenencInt, if_neg hne.1, if_neg hne.2.1, if_neg hne.2.2.1, if_neg hne.2.2.2]
    rfl
  readLenencInt := if_pos h

theorem decoded_three (b₀ b₁ : UInt8) (rest : Bytes) :
    Decoded (0xFC :: b₀ :: b₁ :: rest) (leNat [b₀, b₁]) 3 :=
  ⟨rfl, rfl, rfl, rfl⟩

theorem decoded_four (b₀ b₁ b₂ : UInt8) (rest : Bytes) :
    Decoded (0xFD :: b₀ :: b₁ :: b₂ :: rest) (leNat [b₀, b₁, b₂]) 4 where
  readLenenc := rfl
  lenencSize := rfl
  handshake := rfl
  readLenencInt := by
    refine congrArg (fun v => some (v, rest)) ?_
    simp only [leNat]
    omega

theorem BeginsWhole.decoded (h : BeginsWhole bytes) : ∃ v n, n ≤ bytes.length ∧ Decoded bytes v n := by
  cases h with
  | one h rest => exact ⟨_, 1, by simp, decoded_one h rest⟩
  | three b₀ b₁ rest => exact ⟨_, 3, by simp, decoded_three b₀ b₁ rest⟩
  | four b₀ b₁ b₂ rest => exact ⟨_, 4, by simp, decoded_four b₀ b₁ b₂ rest⟩

/-- Below 2^24 everybody reads what was encoded. -/
theorem decoded_lenenc (h : v < 2 ^ 24) (rest : Bytes) : Decoded (lenenc v ++ rest) v (lenenc v).length := by
  rw [lenenc]
  split
  · rename_i h₁
    have hnat : (UInt8.ofNat v).toNat = v := by
      rw [UInt8.toNat_ofNat']
      omega
    have hle : UInt8.ofNat v ≤ 250 := by
      rw [UInt8.le_iff_toNat_le, hnat]
      exact Nat.le_of_lt_succ h₁
    have hone := decoded_one hle rest
    rw [hnat] at hone
    exact hone
  split
  · rename_i h₂
    have hthree := decoded_three (UInt8.ofNat v) (UInt8.ofNat (v / 2 ^ 8)) rest
    rw [show leNat [UInt8.ofNat v, UInt8.ofNat (v / 2 ^ 8)] = v % 2 ^ (8 * 2) from leNat_leBytes 2 v,
      Nat.mod_eq_of_lt h₂] at hthree
    exact hthree
  · have hfour := decoded_four (UInt8.ofNat v) (UInt8.ofNat (v / 2 ^ 8)) (UInt8.ofNat (v / 2 ^ 8 / 2 ^ 8)) rest
    rw [show leNat [UInt8.ofNat v, UInt8.ofNat (v / 2 ^ 8), UInt8.ofNat (v / 2 ^ 8 / 2 ^ 8)] = v % 2 ^ (8 * 3) from
      leNat_leBytes 3 v, Nat.mod_eq_of_lt h] at hfour
    exact hfour

/-- `handshake.rs` reads eight bytes, too. -/
theorem handshake_lenenc (h : v < 2 ^ 64) (rest : Bytes) :
    Handshake.readLenencInt (lenenc v ++ rest) = some (v, rest) := by
  by_cases hlt : v < 2 ^ 24
  · have hdecoded := (decoded_lenenc hlt rest).handshake
    rw [List.drop_left] at hdecoded
    exact hdecoded
  · have height : lenenc v = 0xFE :: leBytes 8 v := by
      rw [lenenc, if_neg (by omega), if_neg (by omega), if_neg hlt]
    rw [height]
    refine (congrArg (fun v => some (v, rest)) (leNat_leBytes 8 v)).trans ?_
    rw [Nat.mod_eq_of_lt h]

/-- Nobody reads a value where there is none. -/
theorem BeginsShort.undecoded (h : BeginsShort bytes) :
    readLenenc bytes = (0, min 1 bytes.length) ∧ Handshake.readLenencInt bytes = none ∧ readLenencInt bytes = none := by
  cases h with
  | empty => exact ⟨rfl, rfl, rfl⟩
  | null rest => exact ⟨congrArg (0, ·) (by simp), rfl, rfl⟩
  | three rest h =>
    obtain _ | ⟨b₀, _ | ⟨b₁, rest⟩⟩ := rest
    · exact ⟨rfl, rfl, rfl⟩
    · exact ⟨rfl, rfl, rfl⟩
    · exact absurd h (by simp)
  | four rest h =>
    obtain _ | ⟨b₀, _ | ⟨b₁, _ | ⟨b₂, rest⟩⟩⟩ := rest
    · exact ⟨rfl, rfl, rfl⟩
    · exact ⟨rfl, rfl, rfl⟩
    · exact ⟨rfl, rfl, rfl⟩
    · exact absurd h (by simp)

end Decoders

/-- **Length-encoded integers**: what is encoded in at most four bytes is read by everybody, and in `handshake.rs` every
`u64`; strings that begin with such an encoding are read alike, and where there is no value `read_lenenc` has a zero for
it and the others have none. -/
theorem lenenc_decoders :
    (∀ v rest, v < 2 ^ 24 → Decoded (lenenc v ++ rest) v (lenenc v).length) ∧
    (∀ v rest, v < 2 ^ 64 → Handshake.readLenencInt (lenenc v ++ rest) = some (v, rest)) ∧
    (∀ bytes, BeginsWhole bytes → ∃ v n, n ≤ bytes.length ∧ Decoded bytes v n) ∧
    ∀ bytes, BeginsShort bytes → readLenenc bytes = (0, min 1 bytes.length) ∧
      Handshake.readLenencInt bytes = none ∧ readLenencInt bytes = none :=
  ⟨fun _ rest h => decoded_lenenc h rest, fun _ rest h => handshake_lenenc h rest, fun _ h => h.decoded,
    fun _ h => h.undecoded⟩

theorem lenenc_decoders_thousand : Decoded (lenenc 1000 ++ [7]) 1000 (lenenc 1000).length :=
  lenenc_decoders.1 1000 [7] (by decide)

/-- All decoders say the same of a string. -/
def DecodersAgree (bytes : Bytes) : Prop :=
  Handshake.readLenencInt bytes = readLenencInt bytes ∧
    readLenencInt bytes = some ((readLenenc bytes).1, bytes.drop (readLenenc bytes).2)

/-- Not everybody reads a number of eight bytes, and NULL is a zero for one decoder and nothing for the others. -/
theorem lenenc_decoders_differ :
    (¬ ∀ v rest, v < 2 ^ 64 → Decoded (lenenc v ++ rest) v (lenenc v).length) ∧ ¬ ∀ bytes, DecodersAgree bytes := by
  refine ⟨fun h => ?_, fun h => ?_⟩
  · exact absurd (h (2 ^ 24) [] (by decide)).readLenenc (by decide)
  · exact absurd (h [0xFB]).2 (by decide)

end TurbineProxy
