import TurbineProxy.MysqlWire

/-!
# The packet codec

`PacketCodec` of `protocol/mysql/packet.rs`: the writer makes one frame of a payload, the reader puts frames together
until one of them is not full. The sequence id is a byte and wraps.

The read buffer is left out: it is empty between two calls. The sink of the writer is the bytes written so far.
-/

namespace TurbineProxy

/-- `CompressAlgo` -/
inductive CompressAlgo : Type where
  | none
  | zlib
  | zstd
  deriving DecidableEq

/-- `ProtocolError`, as far as the codec raises it. -/
inductive ProtocolError : Type where
  /-- of the stream, or of a compressor -/
  | io
  | packetTooLarge (length : Nat)
  | outOfSequence (expected got : UInt8)
  deriving DecidableEq

/-- `PacketCodec` -/
structure PacketCodec where
  /-- of the next frame -/
  sequenceId : UInt8
  /-- packets that are not flushed yet -/
  writeBuf : Bytes
  /-- compression is enabled -/
  compressed : Bool
  /-- of the next compressed frame -/
  compressedSeq : UInt8
  /-- used when compression is enabled -/
  compressionAlgo : CompressAlgo
  deriving DecidableEq

/-- A computation that goes through goes through in both of its parts. -/
theorem bind_eq_ok {ε α β : Type} {x : Except ε α} {f : α → Except ε β} {b : β} (h : (x >>= f) = .ok b) :
    ∃ a, x = .ok a ∧ f a = .ok b := by
  cases x with
  | error e => cases h
  | ok a => exact ⟨a, rfl, h⟩

/-- `read_exact` of a reader whose stream ends. -/
def ioReadExact (n : Nat) (stream : Bytes) : Except ProtocolError (Bytes × Bytes) :=
  (readExact n stream).elim (.error .io) .ok

namespace PacketCodec

/-- `PacketCodec::new` -/
def new : PacketCodec := ⟨0, [], false, 0, .none⟩

variable (codec : PacketCodec)

/-- `reset_sequence` -/
def resetSequence : PacketCodec := { codec with sequenceId := 0 }

/-- `set_sequence` -/
def setSequence (seq : UInt8) : PacketCodec := { codec with sequenceId := seq }

/-- `advance_seq` -/
def advanceSeq (n : UInt8) : PacketCodec := { codec with sequenceId := codec.sequenceId + n }

/-! ## Reading -/

/-- The header of a frame: the length of the payload, if the sequence id is the right one. -/
def readHeader (stream : Bytes) : Except ProtocolError (Nat × Bytes) := do
  let (header, stream) ← ioReadExact 4 stream
  let seq := header.getD 3 0
  if seq ≠ codec.sequenceId then .error (.outOfSequence codec.sequenceId seq) else .ok (u24Le header, stream)

/-- The loop of `read_packet` over the frames that follow. Each of them takes a header. -/
def readFrames : Nat → PacketCodec → Bytes → Bytes → Except ProtocolError (Bytes × PacketCodec × Bytes)
  | 0, _, _, _ => .error .io
  | n + 1, codec, readBuf, stream => do
    let (length, stream) ← codec.readHeader stream
    let (payload, stream) ← ioReadExact length stream
    if length = 0xFFFFFF then readFrames n (codec.advanceSeq 1) (readBuf ++ payload) stream
    else .ok (readBuf ++ payload, codec.advanceSeq 1, stream)

/-- `read_packet`: the payload, the codec after it, and what is left of the stream. -/
def readPacket (stream : Bytes) : Except ProtocolError (Bytes × PacketCodec × Bytes) := do
  let n := stream.length
  let (length, stream) ← codec.readHeader stream
  if 0xFFFFFF < length then .error (.packetTooLarge length)
  else
    let (payload, stream) ← ioReadExact length stream
    if length = 0xFFFFFF then readFrames n (codec.advanceSeq 1) payload stream
    else .ok (payload, codec.advanceSeq 1, stream)

/-- So many packets read one after the other, or the error of the first that cannot be read. -/
def readPackets : Nat → PacketCodec → Bytes → Except ProtocolError (List Bytes × PacketCodec × Bytes)
  | 0, codec, stream => .ok ([], codec, stream)
  | n + 1, codec, stream => do
    let (payload, codec, stream) ← codec.readPacket stream
    let (payloads, codec, stream) ← readPackets n codec stream
    .ok (payload :: payloads, codec, stream)

/-! ## Writing -/

/-- `write_packet` -/
def writePacket (payload written : Bytes) : Except ProtocolError (PacketCodec × Bytes) :=
  if 0xFFFFFF < payload.length then .error (.packetTooLarge payload.length)
  else .ok (codec.advanceSeq 1, written ++ packet codec.sequenceId payload)

/-- `buffer_packet` -/
def bufferPacket (payload : Bytes) : Except ProtocolError PacketCodec :=
  if 0xFFFFFF < payload.length then .error (.packetTooLarge payload.length)
  else .ok ({ codec with writeBuf := codec.writeBuf ++ packet codec.sequenceId payload }.advanceSeq 1)

/-- `buffer_raw` -/
def bufferRaw (raw : Bytes) : PacketCodec := { codec with writeBuf := codec.writeBuf ++ raw }

/-- `flush` -/
def flush (written : Bytes) : PacketCodec × Bytes :=
  if codec.writeBuf.isEmpty then (codec, written) else ({ codec with writeBuf := [] }, written ++ codec.writeBuf)

end PacketCodec

/-- What is sent at once: a packet by `write_packet`, or some by `buffer_packet` and a `flush`. -/
inductive Send : Type where
  | write (payload : Bytes)
  | batch (payloads : List Bytes)

/-- What it sends. -/
def Send.payloads : Send → List Bytes
  | write payload => [payload]
  | batch payloads => payloads

namespace PacketCodec

/-- Some packets into the buffer. -/
def bufferPackets : List Bytes → PacketCodec → Except ProtocolError PacketCodec
  | [], codec => .ok codec
  | payload :: payloads, codec => do bufferPackets payloads (← codec.bufferPacket payload)

/-- Sends, one after the other. -/
def sendAll : List Send → PacketCodec → Bytes → Except ProtocolError (PacketCodec × Bytes)
  | [], codec, written => .ok (codec, written)
  | .write payload :: sends, codec, written => do
    let (codec, written) ← codec.writePacket payload written
    sendAll sends codec written
  | .batch payloads :: sends, codec, written => do
    let (codec, written) := (← codec.bufferPackets payloads).flush written
    sendAll sends codec written

/-! ## Frames -/

section Frames

variable {n k : Nat} {codec codec' : PacketCodec} {seq : UInt8} {bytes payload readBuf stream rest : Bytes}

theorem advanceSeq_advanceSeq (a b : UInt8) : (codec.advanceSeq a).advanceSeq b = codec.advanceSeq (a + b) := by
  rw [advanceSeq, advanceSeq, advanceSeq, UInt8.add_assoc]

theorem ioReadExact_append (bytes rest : Bytes) : ioReadExact bytes.length (bytes ++ rest) = .ok (bytes, rest) := by
  rw [ioReadExact, readExact_append]
  rfl

theorem ioReadExact_eq_ok (h : ioReadExact n stream = .ok (bytes, rest)) :
    stream = bytes ++ rest ∧ bytes.length = n := by
  cases hread : readExact n stream with
  | none =>
    rw [ioReadExact, hread] at h
    cases h
  | some read =>
    rw [ioReadExact, hread] at h
    cases h
    exact readExact_eq_some hread

/-- The header of a frame is accepted for its sequence id. -/
theorem readHeader_packet (h : payload.length < 2 ^ 24) (rest : Bytes) :
    codec.readHeader (packet seq payload ++ rest) =
      if seq ≠ codec.sequenceId then .error (.outOfSequence codec.sequenceId seq)
      else .ok (payload.length, payload ++ rest) := by
  have hread : ioReadExact 4 (packet seq payload ++ rest) =
      .ok (leBytes 3 payload.length ++ [seq], payload ++ rest) := by
    rw [packet, List.append_assoc, List.cons_append, List.append_cons]
    exact ioReadExact_append (leBytes 3 payload.length ++ [seq]) (payload ++ rest)
  rw [readHeader, hread]
  change (if _ then _ else _) = _
  rw [u24Le_header h]
  rfl

/-- A frame with the right sequence id. -/
theorem readFrames_frame (h : payload.length < 2 ^ 24) (n : Nat) (rest : Bytes) :
    readFrames (n + 1) codec readBuf (packet codec.sequenceId payload ++ rest) =
      if payload.length = 0xFFFFFF then readFrames n (codec.advanceSeq 1) (readBuf ++ payload) rest
      else .ok (readBuf ++ payload, codec.advanceSeq 1, rest) := by
  rw [readFrames, readHeader_packet h, if_neg (not_not_intro rfl)]
  change (do let (payload, stream) ← ioReadExact payload.length (payload ++ rest); _) = _
  rw [ioReadExact_append]
  rfl

theorem readHeader_eq_ok (h : codec.readHeader stream = .ok (n, rest)) :
    n < 2 ^ 24 ∧ stream.length = rest.length + 4 := by
  obtain ⟨⟨header, left⟩, hread, haccepted⟩ := bind_eq_ok h
  obtain ⟨rfl, hlength⟩ := ioReadExact_eq_ok hread
  dsimp only at haccepted
  split at haccepted
  · cases haccepted
  · cases haccepted
    exact ⟨u24Le_lt header, by rw [List.length_append, hlength, Nat.add_comm]⟩

/-- The first frame is read as the others: its length is never too large. -/
theorem readPacket_eq (stream : Bytes) : codec.readPacket stream = readFrames (stream.length + 1) codec [] stream := by
  rw [readPacket, readFrames]
  cases hheader : codec.readHeader stream with
  | error e => rfl
  | ok read =>
    obtain ⟨length, left⟩ := read
    have hle : ¬0xFFFFFF < length := by
      have hlt := (readHeader_eq_ok hheader).1
      omega
    change (if _ then _ else _) = _
    rw [if_neg hle]
    rfl

/-- What the loop reads: so many frames, of which all but the last are full. -/
theorem length_readFrames (h : readFrames n codec readBuf stream = .ok (payload, codec', rest)) :
    ∃ k, stream.length + readBuf.length = 4 * (k + 1) + payload.length + rest.length ∧
      codec' = codec.advanceSeq (UInt8.ofNat (k + 1)) ∧
      (k = 0 → payload.length < readBuf.length + 0xFFFFFF) := by
  induction n generalizing codec readBuf stream with
  | zero => cases h
  | succ n ih =>
    obtain ⟨⟨length, left⟩, hheader, hbody⟩ := bind_eq_ok h
    obtain ⟨⟨body, left'⟩, hread, hnext⟩ := bind_eq_ok hbody
    obtain ⟨hlt, hstream⟩ := readHeader_eq_ok hheader
    obtain ⟨rfl, hlength⟩ := ioReadExact_eq_ok hread
    rw [List.length_append] at hstream
    dsimp only at hnext
    split at hnext
    · obtain ⟨k, hk, hcodec, -⟩ := ih hnext
      rw [List.length_append] at hk
      refine ⟨k + 1, by omega, ?_, nofun⟩
      rw [hcodec, advanceSeq_advanceSeq, ← UInt8.ofNat_one, ← UInt8.ofNat_add, Nat.add_comm 1]
    · cases hnext
      rw [List.length_append]
      exact ⟨0, by omega, rfl, fun _ => by omega⟩

theorem readFrames_wrong (hseq : seq ≠ codec.sequenceId) (h : payload.length < 2 ^ 24) (n : Nat) (rest : Bytes) :
    readFrames (n + 1) codec readBuf (packet seq payload ++ rest) =
      .error (.outOfSequence codec.sequenceId seq) := by
  rw [readFrames, readHeader_packet h, if_pos hseq]
  rfl

end Frames

end PacketCodec

/-!
## Large payloads

A payload of `0xFFFFFF` bytes or more goes over the wire in several frames, with one sequence id after the other, and
ends with one that is not full.
-/

/-- The frames of a payload by the rule of MySQL: full ones and a shorter one, which may be empty. -/
def cutFrames (payload : Bytes) : List Bytes :=
  if payload.length < 0xFFFFFF then [payload]
  else payload.take 0xFFFFFF :: cutFrames (payload.drop 0xFFFFFF)
termination_by payload.length
decreasing_by
  rw [List.length_drop]
  omega

/-- The sequence ids of so many frames. -/
def sequenceIds (seq : UInt8) : Nat → List UInt8
  | 0 => []
  | n + 1 => seq :: sequenceIds (seq + 1) n

/-- Frames with these sequence ids. -/
def stamped (ids : List UInt8) (payloads : List Bytes) : Bytes := (List.zipWith packet ids payloads).flatten

theorem stamped_cons (id : UInt8) (ids : List UInt8) (payload : Bytes) (payloads : List Bytes) :
    stamped (id :: ids) (payload :: payloads) = packet id payload ++ stamped ids payloads :=
  rfl

theorem length_sequenceIds (seq : UInt8) (n : Nat) : (sequenceIds seq n).length = n := by
  induction n generalizing seq with
  | zero => rfl
  | succ n ih => rw [sequenceIds, List.length_cons, ih]

/-- In sequence, frames are what the writer makes of them. -/
theorem stamped_sequenceIds (seq : UInt8) (payloads : List Bytes) :
    stamped (sequenceIds seq payloads.length) payloads = wire seq payloads := by
  induction payloads generalizing seq with
  | nil => rfl
  | cons payload payloads ih => rw [List.length_cons, sequenceIds, stamped_cons, ih, wire]

theorem length_le_stamped {ids : List UInt8} {payloads : List Bytes} (h : ids.length = payloads.length) :
    payloads.length ≤ (stamped ids payloads).length := by
  induction ids generalizing payloads with
  | nil => exact h ▸ Nat.zero_le _
  | cons id ids ih =>
    cases payloads with
    | nil => exact Nat.zero_le _
    | cons payload payloads =>
      have hle := ih (Nat.succ.inj h)
      rw [stamped_cons, List.length_append, length_packet, List.length_cons]
      omega

namespace PacketCodec

variable {codec : PacketCodec} {readBuf : Bytes} {ids : List UInt8}

/-- In sequence, the frames of a payload are put together again. -/
theorem readFrames_cutFrames (payload rest : Bytes) {n : Nat} (hn : (cutFrames payload).length ≤ n) :
    readFrames n codec readBuf (wire codec.sequenceId (cutFrames payload) ++ rest) =
      .ok (readBuf ++ payload, codec.advanceSeq (UInt8.ofNat (cutFrames payload).length), rest) := by
  fun_induction cutFrames payload generalizing n codec readBuf with
  | case1 payload hshort =>
    obtain ⟨n, rfl⟩ := Nat.exists_eq_add_one_of_ne_zero (Nat.ne_zero_of_lt hn)
    rw [wire, wire, List.append_nil, readFrames_frame (by omega), if_neg (Nat.ne_of_lt hshort)]
    rfl
  | case2 payload hfull ih =>
    obtain ⟨n, rfl⟩ := Nat.exists_eq_add_one_of_ne_zero (Nat.ne_zero_of_lt hn)
    have hlength : (payload.take 0xFFFFFF).length = 0xFFFFFF := List.length_take_of_le (Nat.le_of_not_lt hfull)
    rw [wire, List.append_assoc, readFrames_frame (by omega), if_pos hlength,
      ← show (codec.advanceSeq 1).sequenceId = codec.sequenceId + 1 from rfl, ih (Nat.le_of_succ_le_succ hn),
      List.append_assoc, List.take_append_drop, advanceSeq_advanceSeq, List.length_cons, Nat.add_comm,
      UInt8.ofNat_add]
    rfl

/-- With another sequence id somewhere, the first such frame is an error. -/
theorem readFrames_stamped (payload rest : Bytes) {n : Nat} (hn : (cutFrames payload).length ≤ n)
    (hlength : ids.length = (cutFrames payload).length) (hids : ids ≠ sequenceIds codec.sequenceId ids.length) :
    ∃ expected got, got ∈ ids ∧ got ≠ expected ∧
      readFrames n codec readBuf (stamped ids (cutFrames payload) ++ rest) = .error (.outOfSequence expected got) := by
  fun_induction cutFrames payload generalizing n codec readBuf ids with
  | case1 payload hshort =>
    obtain ⟨n, rfl⟩ := Nat.exists_eq_add_one_of_ne_zero (Nat.ne_zero_of_lt hn)
    obtain ⟨id, rfl⟩ := List.length_eq_one_iff.mp hlength
    have hid : id ≠ codec.sequenceId := fun h => hids (h ▸ rfl)
    rw [stamped_cons, List.append_assoc]
    exact ⟨_, id, List.mem_cons_self, hid, readFrames_wrong hid (by omega) n _⟩
  | case2 payload hfull ih =>
    obtain ⟨n, rfl⟩ := Nat.exists_eq_add_one_of_ne_zero (Nat.ne_zero_of_lt hn)
    obtain ⟨id, ids, rfl⟩ := List.exists_cons_of_length_eq_add_one hlength
    have htake : (payload.take 0xFFFFFF).length = 0xFFFFFF := List.length_take_of_le (Nat.le_of_not_lt hfull)
    rw [stamped_cons, List.append_assoc]
    by_cases hid : id = codec.sequenceId
    · subst hid
      have hrest : ids ≠ sequenceIds (codec.advanceSeq 1).sequenceId ids.length := by
        rintro h
        exact hids (congrArg (codec.sequenceId :: ·) h)
      rw [readFrames_frame (by omega), if_pos htake]
      obtain ⟨expected, got, hmem, hne, hread⟩ := ih (Nat.le_of_succ_le_succ hn) (Nat.succ.inj hlength) hrest
      exact ⟨expected, got, List.mem_cons_of_mem _ hmem, hne, hread⟩
    · exact ⟨_, id, List.mem_cons_self, hid, readFrames_wrong hid (by omega) n _⟩

/-- **Reassembly**: a payload of any length, cut into frames in sequence, is read as it was and with exactly its
frames; with another sequence id on any of them it is not read. -/
theorem readPacket_reassembles (codec : PacketCodec) (payload rest : Bytes) :
    codec.readPacket
        (stamped (sequenceIds codec.sequenceId (cutFrames payload).length) (cutFrames payload) ++ rest) =
      .ok (payload, codec.advanceSeq (UInt8.ofNat (cutFrames payload).length), rest) ∧
    ∀ ids : List UInt8, ids.length = (cutFrames payload).length →
      ids ≠ sequenceIds codec.sequenceId ids.length →
      ∃ expected got, got ∈ ids ∧ got ≠ expected ∧
        codec.readPacket (stamped ids (cutFrames payload) ++ rest) = .error (.outOfSequence expected got) := by
  have hfuel : ∀ ids : List UInt8, ids.length = (cutFrames payload).length →
      (cutFrames payload).length ≤ (stamped ids (cutFrames payload) ++ rest).length + 1 := by
    intro ids hlength
    have hle := length_le_stamped hlength
    rw [List.length_append]
    omega
  refine ⟨?_, fun ids hlength hids => ?_⟩
  · have hn := hfuel _ (length_sequenceIds codec.sequenceId (cutFrames payload).length)
    rw [stamped_sequenceIds] at hn ⊢
    rw [readPacket_eq, readFrames_cutFrames payload rest hn, List.nil_append]
  · rw [readPacket_eq]
    exact readFrames_stamped payload rest (hfuel ids hlength) hlength hids

/-- The shortest payload that takes two frames, the second of which is empty. -/
def twoFrames : Bytes := List.replicate 0xFFFFFF 7

theorem cutFrames_twoFrames : cutFrames twoFrames = [twoFrames, []] := by
  have hlength : twoFrames.length = 0xFFFFFF := List.length_replicate
  rw [cutFrames, if_neg (by omega), List.take_of_length_le (by omega), List.drop_of_length_le (by omega), cutFrames,
    if_pos (by decide)]

/-- Its frames are read in sequence, and not with another id on the second one. -/
theorem readPacket_reassembles_seven :
    new.readPacket (stamped [0, 1] (cutFrames twoFrames) ++ []) = .ok (twoFrames, new.advanceSeq 2, []) ∧
    ∃ expected got, got ∈ ([0, 7] : List UInt8) ∧ got ≠ expected ∧
      new.readPacket (stamped [0, 7] (cutFrames twoFrames) ++ []) = .error (.outOfSequence expected got) := by
  have hcount : (cutFrames twoFrames).length = 2 := congrArg List.length cutFrames_twoFrames
  obtain ⟨hread, hrefused⟩ := readPacket_reassembles new twoFrames []
  rw [hcount] at hread
  exact ⟨hread, hrefused [0, 7] hcount.symm (by decide)⟩

/-! ## What is written is read -/

section RoundTrip

variable {n : Nat} {codec codec' reader reader' : PacketCodec} {sends : List Send} {payload : Bytes}
  {payloads : List Bytes} {written bytes stream rest : Bytes}

theorem writePacket_eq_ok (h : codec.writePacket payload written = .ok (codec', bytes)) :
    payload.length ≤ 0xFFFFFF ∧ codec' = codec.advanceSeq 1 ∧ bytes = written ++ packet codec.sequenceId payload := by
  rw [writePacket] at h
  split at h
  · cases h
  · rename_i hle
    cases h
    exact ⟨Nat.le_of_not_lt hle, rfl, rfl⟩

theorem bufferPacket_eq_ok (h : codec.bufferPacket payload = .ok codec') :
    payload.length ≤ 0xFFFFFF ∧
      codec' = { codec with writeBuf := codec.writeBuf ++ packet codec.sequenceId payload }.advanceSeq 1 := by
  rw [bufferPacket] at h
  split at h
  · cases h
  · rename_i hle
    cases h
    exact ⟨Nat.le_of_not_lt hle, rfl⟩

theorem bufferPackets_eq_ok (h : codec.bufferPackets payloads = .ok codec') :
    (∀ p ∈ payloads, p.length ≤ 0xFFFFFF) ∧ codec'.writeBuf = codec.writeBuf ++ wire codec.sequenceId payloads ∧
      codec'.sequenceId = codec.sequenceId + UInt8.ofNat payloads.length := by
  induction payloads generalizing codec with
  | nil =>
    cases h
    exact ⟨List.forall_mem_nil _, (List.append_nil _).symm, (UInt8.add_zero _).symm⟩
  | cons payload payloads ih =>
    obtain ⟨next, hnext, h⟩ := bind_eq_ok h
    obtain ⟨hle, rfl⟩ := bufferPacket_eq_ok hnext
    obtain ⟨hall, hbuf, hseq⟩ := ih h
    refine ⟨List.forall_mem_cons.mpr ⟨hle, hall⟩, ?_, ?_⟩
    · rw [hbuf, wire, ← List.append_assoc]
      rfl
    · rw [hseq, List.length_cons, Nat.add_comm, UInt8.ofNat_add, ← UInt8.add_assoc]
      rfl

/-- Whether there is something in the buffer makes no difference. -/
theorem flush_eq (codec : PacketCodec) (written : Bytes) :
    codec.flush written = ({ codec with writeBuf := [] }, written ++ codec.writeBuf) := by
  rw [flush]
  split
  · rename_i hempty
    have hbuf : codec.writeBuf = [] := List.isEmpty_iff.mp hempty
    rw [hbuf, List.append_nil]
    exact congrArg (fun buf => ({ codec with writeBuf := buf }, written)) hbuf
  · rfl

/-- What goes through is written as one frame for each payload. -/
theorem sendAll_eq_ok (hbuf : codec.writeBuf = []) (h : sendAll sends codec written = .ok (codec', bytes)) :
    (∀ p ∈ sends.flatMap Send.payloads, p.length ≤ 0xFFFFFF) ∧
      bytes = written ++ wire codec.sequenceId (sends.flatMap Send.payloads) := by
  induction sends generalizing codec written with
  | nil =>
    cases h
    exact ⟨List.forall_mem_nil _, (List.append_nil _).symm⟩
  | cons send sends ih =>
    cases send with
    | write payload =>
      obtain ⟨⟨next, out⟩, hwrite, hrest⟩ := bind_eq_ok h
      obtain ⟨hle, rfl, rfl⟩ := writePacket_eq_ok hwrite
      obtain ⟨hall, hbytes⟩ := ih (show (codec.advanceSeq 1).writeBuf = [] from hbuf) hrest
      refine ⟨List.forall_mem_cons.mpr ⟨hle, hall⟩, ?_⟩
      rw [hbytes, List.append_assoc]
      rfl
    | batch payloads =>
      obtain ⟨next, hnext, hrest⟩ := bind_eq_ok h
      obtain ⟨hle, hbuf', hseq⟩ := bufferPackets_eq_ok hnext
      rw [hbuf, List.nil_append] at hbuf'
      rw [flush_eq, hbuf'] at hrest
      obtain ⟨hall, hbytes⟩ := ih (show ({ next with writeBuf := [] } : PacketCodec).writeBuf = [] from rfl) hrest
      refine ⟨?_, ?_⟩
      · rw [List.flatMap_cons]
        exact List.forall_mem_append.mpr ⟨hle, hall⟩
      · rw [hbytes, List.flatMap_cons, Send.payloads, wire_append, List.append_assoc]
        exact congrArg (fun seq => written ++ (wire codec.sequenceId payloads ++ wire seq _)) hseq

theorem length_wire (seq : UInt8) (payloads : List Bytes) :
    (wire seq payloads).length = 4 * payloads.length + payloads.flatten.length := by
  induction payloads generalizing seq with
  | nil => rfl
  | cons payload payloads ih =>
    rw [wire, List.length_append, length_packet, ih, List.length_cons, List.flatten_cons, List.length_append]
    omega

/-- Packets that are not full are read one by one. -/
theorem readPackets_wire (h : ∀ p ∈ payloads, p.length < 0xFFFFFF) (reader : PacketCodec) (rest : Bytes) :
    readPackets payloads.length reader (wire reader.sequenceId payloads ++ rest) =
      .ok (payloads, reader.advanceSeq (UInt8.ofNat payloads.length), rest) := by
  induction payloads generalizing reader with
  | nil =>
    exact congrArg (fun seq => Except.ok ([], reader.setSequence seq, rest)) (UInt8.add_zero reader.sequenceId).symm
  | cons payload payloads ih =>
    obtain ⟨hlt, hrest⟩ := List.forall_mem_cons.mp h
    rw [List.length_cons, readPackets, wire, List.append_assoc, readPacket_eq, readFrames_frame (by omega),
      if_neg (Nat.ne_of_lt hlt)]
    change (do let (payloads, codec, stream) ← readPackets payloads.length (reader.advanceSeq 1)
                (wire (reader.advanceSeq 1).sequenceId payloads ++ rest); _) = _
    rw [ih hrest, advanceSeq_advanceSeq, Nat.add_comm, UInt8.ofNat_add]
    rfl

/-- Every packet takes a frame, and a full one takes another. -/
theorem length_readPackets (h : readPackets n reader stream = .ok (payloads, reader', rest)) :
    payloads.length = n ∧ ∃ k, stream.length = 4 * k + payloads.flatten.length + rest.length ∧ n ≤ k ∧
      (k = n → ∀ p ∈ payloads, p.length < 0xFFFFFF) := by
  induction n generalizing reader stream payloads with
  | zero =>
    cases h
    exact ⟨rfl, 0, by simp, Nat.le_refl 0, fun _ => List.forall_mem_nil _⟩
  | succ n ih =>
    obtain ⟨⟨payload, next, left⟩, hread, h⟩ := bind_eq_ok h
    obtain ⟨⟨others, next', left'⟩, hreads, h⟩ := bind_eq_ok h
    cases h
    rw [readPacket_eq] at hread
    obtain ⟨j, hj, -, hshort⟩ := length_readFrames hread
    obtain ⟨hlength, k, hk, hle, hall⟩ := ih hreads
    refine ⟨congrArg (· + 1) hlength, j + 1 + k, ?_, by omega, fun heq => ?_⟩
    · rw [List.length_nil] at hj
      rw [List.flatten_cons, List.length_append]
      omega
    · have hj : j = 0 := by omega
      have hlt := hshort hj
      rw [List.length_nil, Nat.zero_add] at hlt
      exact List.forall_mem_cons.mpr ⟨hlt, hall (by omega)⟩

/-- The reader returns just these payloads, in order, and takes exactly these bytes. -/
def ReadsBack (reader : PacketCodec) (payloads : List Bytes) (bytes rest : Bytes) : Prop :=
  ∃ reader', readPackets payloads.length reader (bytes ++ rest) = .ok (payloads, reader', rest)

theorem readsBack_wire_iff (hle : ∀ p ∈ payloads, p.length ≤ 0xFFFFFF) (reader : PacketCodec) (rest : Bytes) :
    reader.ReadsBack payloads (wire reader.sequenceId payloads) rest ↔ ∀ p ∈ payloads, p.length ≠ 0xFFFFFF := by
  constructor
  · rintro ⟨reader', hread⟩ p hp
    obtain ⟨-, k, hk, -, hall⟩ := length_readPackets hread
    rw [List.length_append, length_wire] at hk
    exact Nat.ne_of_lt (hall (by omega) p hp)
  · exact fun h => ⟨_, readPackets_wire (fun p hp => Nat.lt_of_le_of_ne (hle p hp) (h p hp)) reader rest⟩

/-- **Round trip**: what the writer accepts and writes, a reader with the same sequence id reads, if and only if no
payload is as long as a full frame. -/
theorem readsBack_iff (hbuf : codec.writeBuf = []) (hseq : reader.sequenceId = codec.sequenceId)
    (hsent : sendAll sends codec [] = .ok (codec', bytes)) (rest : Bytes) :
    reader.ReadsBack (sends.flatMap Send.payloads) bytes rest ↔
      ∀ p ∈ sends.flatMap Send.payloads, p.length ≠ 0xFFFFFF := by
  obtain ⟨hle, rfl⟩ := sendAll_eq_ok hbuf hsent
  rw [List.nil_append, ← hseq]
  exact readsBack_wire_iff hle reader rest

theorem readsBack_iff_three :
    new.ReadsBack [[3], [1], []] ([1, 0, 0, 0, 3] ++ [1, 0, 0, 1, 1] ++ [0, 0, 0, 2]) [7] ↔
      ∀ p ∈ ([[3], [1], []] : List Bytes), p.length ≠ 0xFFFFFF := by
  have hsent : sendAll [.write [3], .batch [[1], []]] new [] =
      .ok (new.advanceSeq 3, [1, 0, 0, 0, 3] ++ [1, 0, 0, 1, 1] ++ [0, 0, 0, 2]) := rfl
  exact readsBack_iff rfl rfl hsent [7]

/-- A payload that makes a full frame is written without the empty frame that has to follow it. -/
theorem full_frame_not_read : ¬ ∀ (codec reader codec' : PacketCodec) (sends : List Send) (bytes rest : Bytes),
    codec.writeBuf = [] → reader.sequenceId = codec.sequenceId → sendAll sends codec [] = .ok (codec', bytes) →
    reader.ReadsBack (sends.flatMap Send.payloads) bytes rest := by
  intro h
  obtain ⟨payload, hlength⟩ : ∃ payload : Bytes, payload.length = 0xFFFFFF :=
    ⟨List.replicate 0xFFFFFF 0, List.length_replicate⟩
  have hsent : sendAll [.write payload] new [] = .ok (new.advanceSeq 1, packet 0 payload) := by
    rw [sendAll, writePacket, if_neg (by omega)]
    rfl
  have hread : new.ReadsBack [payload] (packet 0 payload) [] := h new new _ _ _ [] rfl rfl hsent
  rw [← List.append_nil (packet 0 payload)] at hread
  exact (readsBack_wire_iff (by simp [hlength]) new []).mp hread payload List.mem_cons_self hlength

end RoundTrip

end PacketCodec

end TurbineProxy
