import TurbineProxy.Text

/-!
# Reading replies from a MySQL server

The part of `protocol/mysql/mod.rs` that decides where a reply ends: `collect_response` with
`ok_status_flags` and `collect_result_set`. The stream is the bytes the server has sent; a read that
wants more of them never returns.

Loops are counted down from the length of the stream: every round reads a header.
-/

namespace TurbineProxy

/-! ## Packets -/

/-- A number in little-endian bytes. -/
def leBytes : Nat → Nat → Bytes
  | 0, _ => []
  | k + 1, n => UInt8.ofNat n :: leBytes k (n / 2 ^ 8)

/-- The number in little-endian bytes. -/
def leNat : Bytes → Nat
  | [] => 0
  | b :: rest => b.toNat + 2 ^ 8 * leNat rest

/-- A packet: the length of the payload, a sequence id, the payload. -/
def packet (seq : UInt8) (payload : Bytes) : Bytes := leBytes 3 payload.length ++ seq :: payload

/-- Packets in sequence. -/
def wire (seq : UInt8) : List Bytes → Bytes
  | [] => []
  | payload :: rest => packet seq payload ++ wire (seq + 1) rest

/-- `u24_le` -/
def u24Le : Bytes → Nat
  | a :: b :: c :: _ => a.toNat + 2 ^ 8 * b.toNat + 2 ^ 16 * c.toNat
  | _ => 0

/-- `read_exact`: what was read, and what is left. -/
def readExact (n : Nat) (stream : Bytes) : Option (Bytes × Bytes) :=
  if n ≤ stream.length then some (stream.take n, stream.drop n) else none

/-- A header and the payload it announces, and what is left. -/
def readRaw (stream : Bytes) : Option (Bytes × Bytes × Bytes) := do
  let (header, stream) ← readExact 4 stream
  let (payload, stream) ← readExact (u24Le header) stream
  some (header, payload, stream)

/-! ## Status flags -/

/-- `lenenc_size` -/
def lenencSize (firstByte : UInt8) : Nat :=
  if firstByte ≤ 250 then 1
  else if firstByte = 0xFC then 3
  else if firstByte = 0xFD then 4
  else 1

/-- `ok_status_flags` -/
def okStatusFlags (payload : Bytes) : Option Nat := do
  if payload.head? ≠ some 0x00 then none
  else
    let affectedRows ← payload[1]?
    let pos := 1 + lenencSize affectedRows
    let lastInsertId ← payload[pos]?
    let pos := pos + lenencSize lastInsertId
    let low ← payload[pos]?
    let high ← payload[pos + 1]?
    some (low.toNat + 2 ^ 8 * high.toNat)

/-- `SERVER_MORE_RESULTS_EXISTS` is set. -/
def moreResultsExist (flags : Nat) : Bool := flags &&& 0x0008 != 0

/-! ## Collecting -/

/-- `collect_raw_packet`, so many times -/
def collectRawPackets : Nat → Bytes → Bytes → Option (Bytes × Bytes)
  | 0, stream, buf => some (buf, stream)
  | k + 1, stream, buf => do
    let (header, payload, stream) ← readRaw stream
    collectRawPackets k stream (buf ++ header ++ payload)

/-- The test for the end of the rows: an EOF packet, or an error. -/
def endsRows (payload : Bytes) : Bool :=
  (payload.head? == some 0xFE && payload.length < 9) || payload.head? == some 0xFF

/-- The loop of `collect_result_set` over the row packets. -/
def collectRows : Nat → Bytes → Bytes → Option (Bytes × Bytes)
  | 0, _, _ => none
  | n + 1, stream, buf => do
    let (header, payload, stream) ← readRaw stream
    let buf := buf ++ header ++ payload
    if endsRows payload then some (buf, stream) else collectRows n stream buf

/-- `collect_result_set`: column definitions, their EOF, rows. -/
def collectResultSet (colCountByte : UInt8) (stream buf : Bytes) : Option (Bytes × Bytes) := do
  let (buf, stream) ← collectRawPackets (colCountByte.toNat + 1) stream buf
  collectRows (stream.length + 1) stream buf

/-- The loop of `collect_response`. -/
def collectLoop : Nat → Bytes → Bytes → Option (Bytes × Bytes)
  | 0, _, _ => none
  | n + 1, stream, buf => do
    let (header, payload, stream) ← readRaw stream
    let buf := buf ++ header ++ payload
    match payload with
    | [] => some (buf, stream)
    | first :: _ =>
      -- an error, or LOCAL INFILE
      if first = 0xFF ∨ first = 0xFB then some (buf, stream)
      else if first = 0x00 then
        if (okStatusFlags payload).any moreResultsExist then collectLoop n stream buf
        else some (buf, stream)
      else collectResultSet first stream buf

/-- `collect_response`: the bytes of the reply, and what is left of the stream. -/
def collectResponse (stream : Bytes) : Option (Bytes × Bytes) := collectLoop (stream.length + 1) stream []

/-! ## Packets are read as they were written -/

theorem length_leBytes (k n : Nat) : (leBytes k n).length = k := by
  induction k generalizing n with
  | zero => rfl
  | succ k ih => rw [leBytes, List.length_cons, ih]

/-- Bytes keep what they have room for. -/
theorem leNat_leBytes (k n : Nat) : leNat (leBytes k n) = n % 2 ^ (8 * k) := by
  induction k generalizing n with
  | zero => rw [leBytes, leNat, Nat.mul_zero, Nat.pow_zero, Nat.mod_one]
  | succ k ih =>
    rw [leBytes, leNat, ih, UInt8.toNat_ofNat', Nat.mul_succ, Nat.add_comm (8 * k), Nat.pow_add, Nat.mod_mul]

theorem length_packet (seq : UInt8) (payload : Bytes) : (packet seq payload).length = payload.length + 4 := by
  rw [packet, List.length_append, length_leBytes, List.length_cons, Nat.add_comm, Nat.add_assoc]

/-- A header tells the length of its payload. -/
theorem u24Le_header {n : Nat} (h : n < 2 ^ 24) (seq : UInt8) : u24Le (leBytes 3 n ++ [seq]) = n := by
  simp only [leBytes, List.cons_append, u24Le, UInt8.toNat_ofNat']
  omega

theorem u24Le_lt (header : Bytes) : u24Le header < 2 ^ 24 := by
  rw [u24Le.eq_def]
  split
  · rename_i a b c _
    have ha := a.toNat_lt
    have hb := b.toNat_lt
    have hc := c.toNat_lt
    omega
  · decide

/-- Reading exactly what is there. -/
theorem readExact_append (bytes rest : Bytes) : readExact bytes.length (bytes ++ rest) = some (bytes, rest) := by
  rw [readExact, if_pos (List.length_append ▸ Nat.le_add_right _ _), List.take_left, List.drop_left]

/-- A packet that is short enough for its header is read back. -/
theorem readRaw_packet {seq : UInt8} {payload : Bytes} (h : payload.length < 2 ^ 24) (rest : Bytes) :
    ∃ header, readRaw (packet seq payload ++ rest) = some (header, payload, rest) ∧
      header ++ payload = packet seq payload := by
  refine ⟨leBytes 3 payload.length ++ [seq], ?_, by rw [packet, List.append_assoc, List.singleton_append]⟩
  have hheader : readExact 4 (packet seq payload ++ rest) =
      some (leBytes 3 payload.length ++ [seq], payload ++ rest) := by
    have hread := readExact_append (leBytes 3 payload.length ++ [seq]) (payload ++ rest)
    rwa [List.length_append, length_leBytes, List.append_assoc, List.singleton_append,
      ← List.cons_append, ← List.append_assoc] at hread
  rw [readRaw, hheader]
  dsimp only [Option.bind_eq_bind, Option.bind_some]
  rw [u24Le_header h, readExact_append]
  rfl

/-- What is read exactly is what the stream begins with. -/
theorem readExact_eq_some {n : Nat} {stream bytes rest : Bytes} (h : readExact n stream = some (bytes, rest)) :
    stream = bytes ++ rest ∧ bytes.length = n := by
  obtain ⟨hle, heq⟩ := Option.ite_none_right_eq_some.mp h
  obtain ⟨rfl, rfl⟩ := Prod.mk.inj (Option.some.inj heq)
  exact ⟨(List.take_append_drop n stream).symm, List.length_take_of_le hle⟩

/-- What is read is what was in the stream. -/
theorem readRaw_eq_some {stream header payload rest : Bytes}
    (h : readRaw stream = some (header, payload, rest)) :
    stream = header ++ payload ++ rest ∧ header.length = 4 := by
  obtain ⟨⟨header', stream'⟩, hheader, h⟩ := Option.bind_eq_some_iff.mp h
  obtain ⟨⟨payload', rest'⟩, hpayload, h⟩ := Option.bind_eq_some_iff.mp h
  obtain ⟨rfl, heq⟩ := Prod.mk.inj (Option.some.inj h)
  obtain ⟨rfl, rfl⟩ := Prod.mk.inj heq
  obtain ⟨rfl, hlength⟩ := readExact_eq_some hheader
  obtain ⟨rfl, -⟩ := readExact_eq_some hpayload
  exact ⟨(List.append_assoc ..).symm, hlength⟩

/-- Packets one after the other. -/
theorem wire_append (seq : UInt8) (ps qs : List Bytes) :
    wire seq (ps ++ qs) = wire seq ps ++ wire (seq + UInt8.ofNat ps.length) qs := by
  induction ps generalizing seq with
  | nil => exact congrArg (wire · qs) (UInt8.add_zero seq).symm
  | cons p ps ih =>
    have hseq : seq + 1 + UInt8.ofNat ps.length = seq + UInt8.ofNat (ps.length + 1) := by
      rw [UInt8.add_assoc, Nat.add_comm, UInt8.ofNat_add]
      rfl
    rw [List.cons_append, wire, wire, ih, hseq, List.append_assoc, List.length_cons]

/-- Every packet takes some bytes. -/
theorem length_le_wire (seq : UInt8) (ps : List Bytes) : ps.length ≤ (wire seq ps).length := by
  induction ps generalizing seq with
  | nil => exact Nat.le_refl 0
  | cons p ps ih =>
    have h := ih (seq + 1)
    rw [wire, List.length_append, length_packet, List.length_cons]
    omega

end TurbineProxy
