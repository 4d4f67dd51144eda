import TurbineProxy.PacketCodec
import TurbineProxy.PgPipelines
import TurbineProxy.PgTransactions
import TurbineProxy.TextFields

/-!
# PostgreSQL messages on a stream

`read_pg_msg` of `protocol/postgres/mod.rs` and what is built on it: `read_command` gathers a pipeline for the client's
session, and `collect_until_ready` gathers a reply. Both put the messages together again with the lengths they count
themselves; `replies_verbatim` says that these are the bytes that came.
-/

namespace TurbineProxy

/-- `ProtocolError`, as far as handshakes and PostgreSQL messages raise it. -/
inductive WireError : Type where
  | io
  | invalidFormat (text : Str)
  | authFailed (text : Str)
  deriving DecidableEq

/-- `read_exact`, which fails at the end of the stream. -/
def wireRead (n : Nat) (stream : Bytes) : Except WireError (Bytes × Bytes) :=
  (readExact n stream).elim (.error .io) .ok

/-- `u32::from_be_bytes` -/
def beNat32 : Bytes → Nat
  | a :: b :: c :: d :: _ => le32 d c b a
  | _ => 0

/-- `read_pg_msg`: type byte, payload, and what is left of the stream. -/
def readPgMsg (stream : Bytes) : Except WireError (UInt8 × Bytes × Bytes) := do
  let (hdr, stream) ← wireRead 5 stream
  let fullLen := beNat32 (hdr.drop 1)
  if fullLen < 4 then .error (.invalidFormat ("PG msg too short: ".toList ++ decimal fullLen))
  else
    let (payload, stream) ← wireRead (fullLen - 4) stream
    .ok (hdr.headD 0, payload, stream)

/-! ## The client's session -/

/-- `Command` -/
inductive WireCommand : Type where
  | query (sql : Bytes)
  | quit
  | stmt (raw : Bytes)
  | other (raw : Bytes)
  deriving DecidableEq

/-- The loop of `read_command` up to `Sync`. Every message takes five bytes at least. -/
def readUntilSync : Nat → Bytes → Bytes → Except WireError (Bytes × Bytes)
  | 0, _, _ => .error .io
  | n + 1, buf, stream => do
    let (t, p, stream) ← readPgMsg stream
    let buf := buf ++ buildPgRaw t p
    if t = 0x53 then .ok (buf, stream) else readUntilSync n buf stream

/-- `PgClientSession::read_command`: the command, and what is left of the stream. -/
def readWireCommand (stream : Bytes) : Except WireError (WireCommand × Bytes) := do
  let (typeByte, payload, rest) ← readPgMsg stream
  if typeByte = 0x51 then .ok (.query (payload.takeWhile (· != 0)), rest)
  else if typeByte = 0x58 then .ok (.quit, rest)
  else if [0x50, 0x42, 0x44, 0x45, 0x43, 0x48].contains typeByte then
    let (buf, rest) ← readUntilSync stream.length (buildPgRaw typeByte payload) rest
    .ok (.stmt buf, rest)
  else .ok (.other (buildPgRaw typeByte payload), rest)

/-! ## The backend connection -/

/-- `BackendResponse` -/
structure BackendResponse extends Response where
  /-- from `CommandComplete` -/
  affectedRows : Option Nat
  deriving DecidableEq

/-- `PgBackendConnection` -/
structure PgBackendConnection where
  inTransaction : Bool
  healthy : Bool
  backendPid : UInt32
  deriving DecidableEq

/-- The number at the end of a command tag; a tag that is no text leaves what there was. -/
def commandRows (payload : Bytes) (affected : Option Nat) : Option Nat :=
  match fromUtf8 payload with
  | some tag => (Str.splitWhitespace (Str.trimEndMatches '\x00' tag)).getLast?.bind (Str.parseUnsigned (2 ^ 64))
  | none => affected

namespace PgBackendConnection

/-- The loop of `collect_until_ready`. Every message takes five bytes at least. -/
def collectLoop : Nat → PgBackendConnection → BackendResponse → Bytes →
    PgBackendConnection × Except WireError (BackendResponse × Bytes)
  | 0, conn, _, _ => ({ conn with healthy := false }, .error .io)
  | n + 1, conn, all, stream =>
    match readPgMsg stream with
    | .error e => ({ conn with healthy := false }, .error e)
    | .ok (t, payload, stream) =>
      let all := { all with bytes := all.bytes ++ buildPgRaw t payload }
      if t = 0x5A then
        ({ conn with inTransaction := inTxStatus (payload.head?.getD 0x49) }, .ok (all, stream))
      else if t = 0x45 then collectLoop n conn { all with isError := true } stream
      else if t = 0x43 then
        collectLoop n conn { all with affectedRows := commandRows payload all.affectedRows } stream
      else collectLoop n conn all stream

/-- `collect_until_ready`: the connection, the response and what is left of the stream. -/
def collectUntilReady (conn : PgBackendConnection) (stream : Bytes) :
    PgBackendConnection × Except WireError (BackendResponse × Bytes) :=
  collectLoop (stream.length + 1) conn ⟨⟨[], false, [], none⟩, none⟩ stream

end PgBackendConnection

/-! ## Messages are read as they were sent -/

section Frames

variable {n : Nat} {t : UInt8} {p stream rest : Bytes}

theorem wireRead_append (bytes rest : Bytes) : wireRead bytes.length (bytes ++ rest) = .ok (bytes, rest) := by
  rw [wireRead, readExact_append]
  rfl

theorem wireRead_eq_ok {bytes : Bytes} (h : wireRead n stream = .ok (bytes, rest)) :
    stream = bytes ++ rest ∧ bytes.length = n := by
  cases hread : readExact n stream with
  | none =>
    rw [wireRead, hread] at h
    cases h
  | some read =>
    rw [wireRead, hread] at h
    cases h
    exact readExact_eq_some hread

/-- The length of a message, whatever it is. -/
theorem be32_beNat32 (n : Nat) (rest : Bytes) : beNat32 (be32 n ++ rest) = n % 2 ^ 32 := by
  change le32 (UInt8.ofNat n) (UInt8.ofNat (n / 2 ^ 8)) (UInt8.ofNat (n / 2 ^ 16)) (UInt8.ofNat (n / 2 ^ 24)) = _
  simp only [le32, UInt8.toNat_ofNat']
  omega

/-- Four bytes are those of the number that they make. -/
theorem beNat32_be32 {a b c d : UInt8} {n : Nat} (h : beNat32 [a, b, c, d] = n) : be32 n = [a, b, c, d] := by
  subst h
  have ha := a.toNat_lt
  have hb := b.toNat_lt
  have hc := c.toNat_lt
  have hd := d.toNat_lt
  simp only [be32, beNat32, le32, List.cons.injEq, ← UInt8.toNat_inj, UInt8.toNat_ofNat', and_true]
  omega

theorem readPgMsg_frame (hsmall : p.length + 4 < 2 ^ 32) (rest : Bytes) :
    readPgMsg (buildPgRaw t p ++ rest) = .ok (t, p, rest) := by
  have hhdr : wireRead 5 (buildPgRaw t p ++ rest) = .ok (t :: be32 (p.length + 4), p ++ rest) :=
    wireRead_append (t :: be32 (p.length + 4)) (p ++ rest)
  have hlen : beNat32 ((t :: be32 (p.length + 4)).drop 1) = p.length + 4 := by
    have hbe := be32_beNat32 (p.length + 4) []
    rw [List.append_nil, Nat.mod_eq_of_lt hsmall] at hbe
    exact hbe
  rw [readPgMsg, hhdr]
  change (if _ then _ else _) = _
  rw [hlen, if_neg (by omega), Nat.add_sub_cancel, wireRead_append]
  rfl

theorem readPgMsg_eq_ok (h : readPgMsg stream = .ok (t, p, rest)) :
    stream = buildPgRaw t p ++ rest ∧ p.length + 4 < 2 ^ 32 := by
  obtain ⟨⟨hdr, stream₁⟩, hhdr, h⟩ := bind_eq_ok h
  obtain ⟨rfl, hfive⟩ := wireRead_eq_ok hhdr
  obtain ⟨tag, a, b, c, d, rfl⟩ : ∃ tag a b c d, hdr = [tag, a, b, c, d] := by
    match hdr, hfive with
    | [tag, a, b, c, d], _ => exact ⟨tag, a, b, c, d, rfl⟩
  have hlt : beNat32 [a, b, c, d] < 2 ^ 32 := le32_lt d c b a
  change (if beNat32 [a, b, c, d] < 4 then _ else _) = _ at h
  split at h
  · cases h
  rename_i hlong
  obtain ⟨⟨payload, stream₂⟩, hpayload, h⟩ := bind_eq_ok h
  cases h
  change wireRead (beNat32 [a, b, c, d] - 4) stream₁ = _ at hpayload
  obtain ⟨rfl, hlength⟩ := wireRead_eq_ok hpayload
  have hfull : beNat32 [a, b, c, d] = p.length + 4 := by omega
  refine ⟨?_, by omega⟩
  rw [buildPgRaw, beNat32_be32 hfull]
  simp

theorem pipelineBytes_cons (m : PgMsg) (msgs : List PgMsg) :
    pipelineBytes (m :: msgs) = buildPgRaw m.tag m.payload ++ pipelineBytes msgs := rfl

end Frames

/-! ## Pipelines -/

section Pipelines

variable {n : Nat} {buf raw stream rest : Bytes}

/-- What is gathered is a sequence of messages, as it came. -/
theorem readUntilSync_eq_ok (h : readUntilSync n buf stream = .ok (raw, rest)) :
    ∃ msgs : List PgMsg, raw = buf ++ pipelineBytes msgs ∧ stream = pipelineBytes msgs ++ rest := by
  induction n generalizing buf stream with
  | zero => cases h
  | succ n ih =>
    rw [readUntilSync] at h
    obtain ⟨⟨t, p, stream₁⟩, hread, hnext⟩ := bind_eq_ok h
    obtain ⟨rfl, hsmall⟩ := readPgMsg_eq_ok hread
    change (if t = 0x53 then _ else _) = _ at hnext
    split at hnext
    · cases hnext
      exact ⟨[⟨t, p, hsmall⟩], by simp [pipelineBytes], by simp [pipelineBytes]⟩
    · obtain ⟨msgs, rfl, rfl⟩ := ih hnext
      exact ⟨⟨t, p, hsmall⟩ :: msgs, by simp [pipelineBytes], by simp [pipelineBytes]⟩

/-- A pipeline that `read_command` returns is one. -/
theorem pipeline_of_readWireCommand (h : readWireCommand stream = .ok (.stmt raw, rest)) :
    ∃ msgs : List PgMsg, raw = pipelineBytes msgs ∧ stream = raw ++ rest := by
  obtain ⟨⟨t, p, stream₁⟩, hread, hnext⟩ := bind_eq_ok h
  obtain ⟨rfl, hsmall⟩ := readPgMsg_eq_ok hread
  change (if t = 0x51 then _ else if t = 0x58 then _ else if _ then _ else _) = _ at hnext
  split at hnext
  · cases hnext
  split at hnext
  · cases hnext
  split at hnext
  · obtain ⟨⟨buf, stream₂⟩, hsync, hlast⟩ := bind_eq_ok hnext
    cases hlast
    obtain ⟨msgs, rfl, rfl⟩ := readUntilSync_eq_ok hsync
    exact ⟨⟨t, p, hsmall⟩ :: msgs, rfl, by simp⟩
  · cases hnext

end Pipelines

/-! ## Replies -/

/-- The messages of a reply. -/
def PgReply.messages (r : PgReply) : List PgMsg := r.before ++ [⟨0x5A, [r.status], by simp⟩]

theorem PgReply.wire_eq (r : PgReply) :
    pipelineBytes r.messages = pipelineBytes r.before ++ buildPgRaw 0x5A [r.status] := by
  simp [messages, pipelineBytes]

theorem PgReply.bytes_response (r : PgReply) : (Reply.postgres r).response.bytes = pipelineBytes r.messages :=
  r.wire_eq.symm

theorem PgReply.isError_response (r : PgReply) :
    (Reply.postgres r).response.isError = true ↔ ∃ m ∈ r.messages, m.tag = 0x45 := by
  simp [Reply.response, messages]

namespace PgBackendConnection

variable {conn : PgBackendConnection} {n : Nat} {rest : Bytes}

/-- One message that is no `ReadyForQuery`. -/
theorem collectLoop_message (conn : PgBackendConnection) {m : PgMsg} (hm : m.tag ≠ 0x5A) (n : Nat)
    (all : BackendResponse) (stream : Bytes) :
    ∃ affected, collectLoop (n + 1) conn all (buildPgRaw m.tag m.payload ++ stream) =
      collectLoop n conn ⟨⟨all.bytes ++ buildPgRaw m.tag m.payload, all.isError || m.tag == 0x45,
        all.sessionChanges, all.writeGtid⟩, affected⟩ stream := by
  rw [collectLoop, readPgMsg_frame m.small]
  dsimp only
  rw [if_neg hm]
  by_cases herror : m.tag = 0x45
  · refine ⟨all.affectedRows, ?_⟩
    rw [if_pos herror, herror]
    simp
  rw [if_neg herror, beq_false_of_ne herror, Bool.or_false]
  split
  · exact ⟨_, rfl⟩
  · exact ⟨_, rfl⟩

/-- The messages before `ReadyForQuery`. -/
theorem collectLoop_before (conn : PgBackendConnection) (before : List PgMsg)
    (hbefore : ∀ m ∈ before, m.tag ≠ 0x5A) (n : Nat) (all : BackendResponse) (stream : Bytes) :
    ∃ affected, collectLoop (before.length + n) conn all (pipelineBytes before ++ stream) =
      collectLoop n conn ⟨⟨all.bytes ++ pipelineBytes before, all.isError || before.any fun m => m.tag == 0x45,
        all.sessionChanges, all.writeGtid⟩, affected⟩ stream := by
  induction before generalizing all with
  | nil => exact ⟨all.affectedRows, by simp [pipelineBytes]⟩
  | cons m before ih =>
    obtain ⟨hm, hbefore⟩ := List.forall_mem_cons.mp hbefore
    rw [List.length_cons, Nat.add_right_comm, pipelineBytes_cons, List.append_assoc]
    obtain ⟨affected, hstep⟩ :=
      collectLoop_message conn hm (before.length + n) all (pipelineBytes before ++ stream)
    obtain ⟨affected', hrest⟩ := ih hbefore ⟨⟨all.bytes ++ buildPgRaw m.tag m.payload,
      all.isError || m.tag == 0x45, all.sessionChanges, all.writeGtid⟩, affected⟩
    refine ⟨affected', ?_⟩
    rw [hstep, hrest]
    simp [Bool.or_assoc]

/-- A reply is collected up to its end, as it was sent. -/
theorem collectUntilReady_reply (r : PgReply) (rest : Bytes) :
    ∃ affected, conn.collectUntilReady (pipelineBytes r.messages ++ rest) =
      ({ conn with inTransaction := inTxStatus r.status },
        .ok (⟨(Reply.postgres r).response, affected⟩, rest)) := by
  have hlen := length_le_pipeline r.before
  obtain ⟨n, hn⟩ : ∃ n, (pipelineBytes r.messages ++ rest).length + 1 = r.before.length + (n + 1) := by
    refine ⟨(pipelineBytes r.messages ++ rest).length - r.before.length, ?_⟩
    simp only [r.wire_eq, List.length_append]
    omega
  obtain ⟨affected, hbefore⟩ := collectLoop_before conn r.before r.noReady (n + 1)
    ⟨⟨[], false, [], none⟩, none⟩ (buildPgRaw 0x5A [r.status] ++ rest)
  refine ⟨affected, ?_⟩
  rw [collectUntilReady, hn, r.wire_eq, List.append_assoc, hbefore, collectLoop,
    readPgMsg_frame (by simp)]
  dsimp only
  rw [if_pos rfl]
  rfl

end PgBackendConnection

/-- The messages up to the first `ReadyForQuery` are a reply. -/
theorem exists_reply {msgs : List PgMsg} (hstatus : ∀ m ∈ msgs, m.tag = 0x5A → m.payload.length = 1)
    (hready : ∃ m ∈ msgs, m.tag = 0x5A) : ∃ (r : PgReply) (after : List PgMsg), msgs = r.messages ++ after := by
  induction msgs with
  | nil => simp at hready
  | cons m msgs ih =>
    obtain ⟨hm, hmsgs⟩ := List.forall_mem_cons.mp hstatus
    by_cases htag : m.tag = 0x5A
    · obtain ⟨status, hpayload⟩ := List.length_eq_one_iff.mp (hm htag)
      obtain ⟨tag, payload, hsmall⟩ := m
      subst htag hpayload
      exact ⟨⟨[], nofun, status⟩, msgs, rfl⟩
    · have hlater : ∃ m ∈ msgs, m.tag = 0x5A := by
        obtain ⟨m', hmem, htag'⟩ := hready
        rcases List.mem_cons.mp hmem with rfl | hmem
        · exact absurd htag' htag
        · exact ⟨m', hmem, htag'⟩
      obtain ⟨r, after, rfl⟩ := ih hmsgs hlater
      exact ⟨⟨m :: r.before, List.forall_mem_cons.mpr ⟨htag, r.noReady⟩, r.status⟩, after, rfl⟩

/-- **Replies go through as they are**: of a stream of messages, those up to the first `ReadyForQuery` are collected,
and no byte more. The response is an error if one of them is, and the status that is read from it again is the one that
the connection has taken its own from. -/
theorem replies_verbatim (conn : PgBackendConnection) (msgs : List PgMsg) (rest : Bytes)
    (hstatus : ∀ m ∈ msgs, m.tag = 0x5A → m.payload.length = 1) (hready : ∃ m ∈ msgs, m.tag = 0x5A) :
    ∃ (r : PgReply) (after : List PgMsg) (response : BackendResponse), msgs = r.messages ++ after ∧
      conn.collectUntilReady (pipelineBytes msgs ++ rest) =
        ({ conn with inTransaction := inTxStatus r.status }, .ok (response, pipelineBytes after ++ rest)) ∧
      response.bytes = pipelineBytes r.messages ∧
      (response.isError = true ↔ ∃ m ∈ r.messages, m.tag = 0x45) ∧
      extractReadyStatus response.bytes = some r.status := by
  obtain ⟨r, after, rfl⟩ := exists_reply hstatus hready
  obtain ⟨affected, hcollect⟩ := conn.collectUntilReady_reply r (pipelineBytes after ++ rest)
  refine ⟨r, after, ⟨(Reply.postgres r).response, affected⟩, rfl, ?_, r.bytes_response, r.isError_response,
    extractReadyStatus_reply r⟩
  rw [← hcollect, ← List.append_assoc]
  simp [pipelineBytes]

/-- `CommandComplete`, then `ReadyForQuery` in a transaction. -/
theorem replies_verbatim_commandComplete :
    ∃ (r : PgReply) (after : List PgMsg) (response : BackendResponse),
      [⟨0x43, asciiBytes "UPDATE 3" ++ [0], by decide⟩, ⟨0x5A, [0x54], by decide⟩] = r.messages ++ after ∧
      (⟨false, true, 7⟩ : PgBackendConnection).collectUntilReady (pipelineBytes
        [⟨0x43, asciiBytes "UPDATE 3" ++ [0], by decide⟩, ⟨0x5A, [0x54], by decide⟩] ++ [0x4E]) =
        (⟨inTxStatus r.status, true, 7⟩, .ok (response, pipelineBytes after ++ [0x4E])) ∧
      response.bytes = pipelineBytes r.messages ∧
      (response.isError = true ↔ ∃ m ∈ r.messages, m.tag = 0x45) ∧
      extractReadyStatus response.bytes = some r.status :=
  replies_verbatim ⟨false, true, 7⟩ [⟨0x43, asciiBytes "UPDATE 3" ++ [0], by decide⟩, ⟨0x5A, [0x54], by decide⟩] [0x4E]
    (by simp) ⟨_, List.mem_cons_of_mem _ (List.mem_singleton_self _), rfl⟩

end TurbineProxy
