import TurbineProxy.MysqlWire
import TurbineProxy.Utf8

/-!
# Text result sets, as the checkers read them

`health.rs` and `group_replication.rs` each have a copy of the same packet helpers; here they stand
once, with the reply of `execute_query` that they are applied to. A cursor into a slice is the part of the
slice that it has not passed yet.
-/

namespace TurbineProxy

/-! ## Packets and fields -/

/-- `next_packet` -/
def nextPacket (bytes : Bytes) : Option (Bytes × Bytes) :=
  (readRaw bytes).map fun (_, payload, rest) => (payload, rest)

/-- `read_lenenc_int` -/
def readLenencInt : Bytes → Option (Nat × Bytes)
  | [] => none
  | b :: rest =>
    if b ≤ 250 then some (b.toNat, rest)
    else if b = 0xFC then
      match rest with
      | lo :: hi :: rest => some (lo.toNat + 2 ^ 8 * hi.toNat, rest)
      | _ => none
    else if b = 0xFD then
      match rest with
      | b₀ :: b₁ :: b₂ :: rest => some (b₀.toNat + 2 ^ 8 * b₁.toNat + 2 ^ 16 * b₂.toNat, rest)
      | _ => none
    else none

/-- `read_lenenc_str`: `none` inside stands for NULL. -/
def readLenencStr (bytes : Bytes) : Option (Option Bytes × Bytes) := do
  let b ← bytes.head?
  if b = 0xFB then some (none, bytes.tail)
  else
    let (len, rest) ← readLenencInt bytes
    let (s, rest) ← readExact len rest
    some (some s, rest)

/-- Rust's `str::parse` for an unsigned integer of so many bits. -/
def parseUnsigned (bits : Nat) (s : Str) : Option Nat :=
  let digits := if s.head? = some '+' then s.tail else s
  if digits ≠ [] ∧ digits.all Char.isDigit ∧ Nat.ofDigitChars 10 digits 0 < 2 ^ bits then
    some (Nat.ofDigitChars 10 digits 0)
  else none

/-! ## Replies -/

/-- What `execute_query` returns. -/
structure StatusReply where
  /-- `bytes` -/
  bytes : Bytes
  /-- `is_error` -/
  isError : Bool
  deriving DecidableEq

/-- `execute_query`, and what the server sends after it; `none` when the connection breaks. -/
def executeStatus (stream : Bytes) : Option (StatusReply × Bytes) :=
  (collectResponse stream).map fun (bytes, rest) => (⟨bytes, bytes[4]? == some 0xFF⟩, rest)

/-! ## The packets of a reply -/

/-- A reply begins with these packets, and that is what is left of it. -/
inductive Framed : Bytes → List Bytes → Bytes → Prop where
  /-- no packet -/
  | nil (bytes : Bytes) : Framed bytes [] bytes
  /-- one more packet -/
  | cons {bytes payload rest left : Bytes} {packets : List Bytes} :
      nextPacket bytes = some (payload, rest) → Framed rest packets left →
      Framed bytes (payload :: packets) left

section Framed

variable {bytes left left' : Bytes} {ps ps' qs : List Bytes}

/-- So many packets are read in one way only. -/
theorem Framed.unique (h : Framed bytes ps left) (h' : Framed bytes ps' left')
    (hlength : ps.length = ps'.length) : ps = ps' ∧ left = left' := by
  induction h generalizing ps' with
  | nil bytes =>
    cases h' with
    | nil => exact ⟨rfl, rfl⟩
    | cons => simp at hlength
  | cons hnext _ ih =>
    cases h' with
    | nil => simp at hlength
    | cons hnext' hrest' =>
      obtain ⟨rfl, rfl⟩ := Prod.mk.inj (Option.some.inj (hnext.symm.trans hnext'))
      obtain ⟨rfl, rfl⟩ := ih hrest' (Nat.succ.inj hlength)
      exact ⟨rfl, rfl⟩

/-- Packets one after the other. -/
theorem Framed.append (h : Framed bytes ps left) (h' : Framed left qs left') :
    Framed bytes (ps ++ qs) left' := by
  induction h with
  | nil => exact h'
  | cons hnext _ ih => exact .cons hnext (ih h')

/-- What begins with more packets begins with the first of them. -/
theorem Framed.split (h : Framed bytes (ps ++ qs) left') :
    ∃ left, Framed bytes ps left ∧ Framed left qs left' := by
  induction ps generalizing bytes with
  | nil => exact ⟨bytes, .nil bytes, h⟩
  | cons p ps ih =>
    obtain _ | ⟨hnext, hrest⟩ := h
    obtain ⟨left, hfirst, hlast⟩ := ih hrest
    exact ⟨left, .cons hnext hfirst, hlast⟩

end Framed

/-- Two packets that are read one after the other are framed as a pair. -/
theorem framed_pair {bytes p q rest left : Bytes} (hp : nextPacket bytes = some (p, rest))
    (hq : nextPacket rest = some (q, left)) : Framed bytes [p, q] left :=
  .cons hp (.cons hq (.nil left))

end TurbineProxy
