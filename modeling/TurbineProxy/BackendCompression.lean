import TurbineProxy.CompressedWriter

/-!
# Compression on a backend connection

The end of `mysql_connect` of `protocol/mysql/mod.rs`, from the OK of the authentication on, and the four ways in
which a `MySQLBackendConnection` sends something. All of them but `ping` buffer their packet and call
`flush_maybe_compressed`; what `mysql_connect` itself sends goes through a codec of its own.
-/

namespace TurbineProxy

/-- `BackendCompression` -/
inductive BackendCompression : Type where
  | none
  | zlib
  | zstd
  deriving DecidableEq

namespace Capability

/-- `COMPRESS` -/
def compress : Nat := 2 ^ 5
/-- `ZSTD_COMPRESSION_ALGORITHM` -/
def zstdCompressionAlgorithm : Nat := 2 ^ 26

end Capability

/-- `compress_cap`: the capability that is requested, of those that the server has. -/
def compressCap (compression : BackendCompression) (serverCaps : Nat) : Nat :=
  if compression = .zstd ∧ serverCaps &&& Capability.zstdCompressionAlgorithm ≠ 0 then
    Capability.zstdCompressionAlgorithm
  else if (compression = .zlib ∨ compression = .zstd) ∧ serverCaps &&& Capability.compress ≠ 0 then
    Capability.compress
  else 0

/-- `negotiated_compress_algo` -/
def negotiatedCompressAlgo (cap : Nat) : CompressAlgo :=
  if cap = Capability.zstdCompressionAlgorithm then .zstd
  else if cap = Capability.compress then .zlib
  else .none

/-- What happens on the socket. -/
inductive Traffic : Type where
  /-- the bytes of one send -/
  | sent (bytes : Bytes)
  /-- a reply is read, through a `MysqlCompressedReader` or from the socket itself -/
  | reply (decompress : Option CompressAlgo)
  deriving DecidableEq

/-- `MySQLBackendConnection` -/
structure MysqlBackendConnection where
  /-- the reader decompresses -/
  reader : Option CompressAlgo
  codec : PacketCodec
  deriving DecidableEq

/-- The statement that asks for session tracking. -/
def trackSql : String := "SET SESSION session_track_system_variables='*', session_track_state_change=ON"

namespace MysqlBackendConnection

/-- `mysql_connect` behind the OK. The result of the statement is ignored. -/
def connect (compression : BackendCompression) (serverCaps : Nat) : MysqlBackendConnection × List Traffic :=
  let pkt := 0x03 :: asciiBytes trackSql
  let tracking :=
    match PacketCodec.new.writePacket pkt [] with
    | .ok (_, bytes) => [.sent bytes, .reply none]
    | .error _ => [.reply none]
  let algo := negotiatedCompressAlgo (compressCap compression serverCaps)
  (if algo ≠ .none then ⟨some algo, PacketCodec.new.enableCompression algo⟩ else ⟨none, .new⟩, tracking)

variable (cs : Compressors) (conn : MysqlBackendConnection)

/-- What `execute_query`, `send_raw` and `send_raw_no_response` have in common. -/
def submit (packet : Bytes) : MysqlBackendConnection × Option Bytes :=
  match conn.codec.resetSequence.bufferPacket packet with
  | .error _ => ({ conn with codec := conn.codec.resetSequence }, none)
  | .ok codec =>
    match codec.flushMaybeCompressed cs [] with
    | .error _ => ({ conn with codec := { codec with writeBuf := [] } }, none)
    | .ok (codec, bytes) => ({ conn with codec := codec }, some bytes)

/-- `send_raw`, up to what the reply says -/
def sendRaw (packet : Bytes) : MysqlBackendConnection × List Traffic :=
  match conn.submit cs packet with
  | (conn, none) => (conn, [])
  | (conn, some bytes) => (conn, [.sent bytes, .reply conn.reader])

/-- `execute_query` -/
def executeQuery (sql : Bytes) : MysqlBackendConnection × List Traffic := conn.sendRaw cs (0x03 :: sql)

/-- `send_raw_no_response` -/
def sendRawNoResponse (packet : Bytes) : MysqlBackendConnection × List Traffic :=
  match conn.submit cs packet with
  | (conn, none) => (conn, [])
  | (conn, some bytes) => (conn, [.sent bytes])

/-- `ping` -/
def ping : MysqlBackendConnection × List Traffic :=
  match conn.codec.resetSequence.writePacket [0x07] [] with
  | .error _ => ({ conn with codec := conn.codec.resetSequence }, [])
  | .ok (codec, bytes) => ({ conn with codec := codec }, [.sent bytes, .reply conn.reader])

end MysqlBackendConnection

/-- What is asked of a connection. -/
inductive BackendCall : Type where
  | executeQuery (sql : Bytes)
  | sendRaw (packet : Bytes)
  | sendRawNoResponse (packet : Bytes)
  | ping

namespace MysqlBackendConnection

/-- One call of the connection: what it leaves of the codec, and the traffic it adds. -/
def call (cs : Compressors) (conn : MysqlBackendConnection) : BackendCall → MysqlBackendConnection × List Traffic
  | .executeQuery sql => conn.executeQuery cs sql
  | .sendRaw packet => conn.sendRaw cs packet
  | .sendRawNoResponse packet => conn.sendRawNoResponse cs packet
  | .ping => conn.ping

/-- Calls in any order. -/
def callAll (cs : Compressors) : List BackendCall → MysqlBackendConnection → List Traffic
  | [], _ => []
  | c :: calls, conn => (conn.call cs c).2 ++ callAll cs calls (conn.call cs c).1

/-- All that happens behind the OK of the authentication. -/
def traffic (cs : Compressors) (compression : BackendCompression) (serverCaps : Nat) (calls : List BackendCall) :
    List Traffic :=
  (connect compression serverCaps).2 ++ callAll cs calls (connect compression serverCaps).1

end MysqlBackendConnection

/-! ## What is compressed -/

/-- Some bytes and the header of a compressed frame before them, which counts them, as far as it can. -/
def HasCompressedHeader (bytes : Bytes) : Prop :=
  ∃ seq uncompLen body, bytes = compressedHeader body.length seq uncompLen ++ body

/-- It happens in compressed frames. -/
def Traffic.Compressed : Traffic → Prop
  | sent bytes => HasCompressedHeader bytes
  | reply decompress => decompress ≠ none

/-- A packet as it is has no such header: its length would be that of the bytes behind the header. -/
theorem not_hasCompressedHeader {seq : UInt8} {payload : Bytes} (h : payload.length < 2 ^ 24) :
    ¬HasCompressedHeader (packet seq payload) := by
  rintro ⟨seq', uncompLen, body, heq⟩
  have hlength := congrArg List.length heq
  have hcount := congrArg u24Le heq
  rw [length_packet, List.length_append, length_compressedHeader] at hlength
  rw [u24Le_append (by rw [length_compressedHeader]; decide), (u24Le_compressedHeader ..).1, packet, List.append_cons,
    u24Le_append (by simp [length_leBytes]), u24Le_header h] at hcount
  omega

namespace MysqlBackendConnection

open PacketCodec

variable {cs : Compressors} {conn : MysqlBackendConnection} {algo : CompressAlgo} {t : Traffic}

/-- The statement for session tracking goes out as it is, and so does its reply come in. -/
theorem traffic_connect (compression : BackendCompression) (serverCaps : Nat) :
    (connect compression serverCaps).2 =
      [.sent (packet 0 (0x03 :: asciiBytes trackSql)), .reply none] := by
  have hlength : ¬0xFFFFFF < (0x03 :: asciiBytes trackSql : Bytes).length := by decide
  rw [connect, writePacket, if_neg hlength]
  rfl

/-- What is flushed has the header. -/
theorem hasCompressedHeader_flush {codec codec' : PacketCodec} {bytes : Bytes}
    (h : codec.flushMaybeCompressed cs [] = .ok (codec', bytes)) (henabled : codec.compressed = true)
    (hne : codec.writeBuf ≠ []) :
    codec' = codec.flushed ∧ HasCompressedHeader bytes := by
  by_cases hlong : 50 < codec.writeBuf.length
  · cases hcompress : (cs.of codec.compressionAlgo).compress codec.writeBuf with
    | none =>
      rw [flushMaybeCompressed, if_neg (by simp [henabled, hne])] at h
      dsimp only at h
      rw [if_pos hlong, hcompress] at h
      cases h
    | some compressed =>
      rw [flushMaybeCompressed_long henabled hlong hcompress] at h
      cases h
      exact ⟨rfl, _, _, compressed, rfl⟩
  · rw [flushMaybeCompressed_short henabled hne (Nat.le_of_not_lt hlong)] at h
    cases h
    exact ⟨rfl, _, _, codec.writeBuf, rfl⟩

/-- Compression is enabled, and nothing is left in the buffer. -/
structure Enabled (conn : MysqlBackendConnection) : Prop where
  reader : conn.reader ≠ none
  compressed : conn.codec.compressed = true
  writeBuf : conn.codec.writeBuf = []

theorem enabled_connect {compression : BackendCompression} {serverCaps : Nat}
    (h : negotiatedCompressAlgo (compressCap compression serverCaps) ≠ .none) :
    (connect compression serverCaps).1.Enabled := by
  rw [connect]
  dsimp only
  rw [if_pos h]
  exact ⟨nofun, rfl, rfl⟩

theorem Enabled.submit (cs : Compressors) (h : conn.Enabled) (pkt : Bytes) :
    (conn.submit cs pkt).1.Enabled ∧ ∀ bytes, (conn.submit cs pkt).2 = some bytes → HasCompressedHeader bytes := by
  rw [MysqlBackendConnection.submit]
  cases hbuffer : conn.codec.resetSequence.bufferPacket pkt with
  | error e => exact ⟨⟨h.reader, h.compressed, h.writeBuf⟩, nofun⟩
  | ok codec =>
    obtain ⟨-, rfl⟩ := bufferPacket_eq_ok hbuffer
    dsimp only
    split
    · exact ⟨⟨h.reader, h.compressed, rfl⟩, nofun⟩
    · rename_i codec bytes hflush
      obtain ⟨rfl, hheader⟩ := hasCompressedHeader_flush hflush h.compressed (by simp [advanceSeq, packet])
      refine ⟨⟨h.reader, h.compressed, rfl⟩, fun bytes' heq => ?_⟩
      exact Option.some.inj heq ▸ hheader

theorem Enabled.sendRaw (cs : Compressors) (h : conn.Enabled) (pkt : Bytes) :
    (conn.sendRaw cs pkt).1.Enabled ∧ ∀ t ∈ (conn.sendRaw cs pkt).2, t.Compressed := by
  obtain ⟨henabled, hheader⟩ := h.submit cs pkt
  rw [MysqlBackendConnection.sendRaw]
  rcases hsubmit : conn.submit cs pkt with ⟨conn', _ | bytes⟩
  · rw [hsubmit] at henabled
    exact ⟨henabled, nofun⟩
  · rw [hsubmit] at henabled hheader
    refine ⟨henabled, List.forall_mem_cons.mpr ⟨hheader bytes rfl, List.forall_mem_cons.mpr ⟨?_, nofun⟩⟩⟩
    exact henabled.reader

theorem Enabled.sendRawNoResponse (cs : Compressors) (h : conn.Enabled) (pkt : Bytes) :
    (conn.sendRawNoResponse cs pkt).1.Enabled ∧ ∀ t ∈ (conn.sendRawNoResponse cs pkt).2, t.Compressed := by
  obtain ⟨henabled, hheader⟩ := h.submit cs pkt
  rw [MysqlBackendConnection.sendRawNoResponse]
  rcases hsubmit : conn.submit cs pkt with ⟨conn', _ | bytes⟩
  · rw [hsubmit] at henabled
    exact ⟨henabled, nofun⟩
  · rw [hsubmit] at henabled hheader
    exact ⟨henabled, List.forall_mem_cons.mpr ⟨hheader bytes rfl, nofun⟩⟩

/-- But for the packet of a ping, calls use compressed frames only. -/
theorem Enabled.call (cs : Compressors) (h : conn.Enabled) (c : BackendCall) :
    (conn.call cs c).1.Enabled ∧ ∀ t ∈ (conn.call cs c).2, t.Compressed ∨ t = .sent (packet 0 [0x07]) := by
  cases c with
  | executeQuery sql =>
    obtain ⟨henabled, hall⟩ := h.sendRaw cs (0x03 :: sql)
    exact ⟨henabled, fun t ht => .inl (hall t ht)⟩
  | sendRaw pkt =>
    obtain ⟨henabled, hall⟩ := h.sendRaw cs pkt
    exact ⟨henabled, fun t ht => .inl (hall t ht)⟩
  | sendRawNoResponse pkt =>
    obtain ⟨henabled, hall⟩ := h.sendRawNoResponse cs pkt
    exact ⟨henabled, fun t ht => .inl (hall t ht)⟩
  | ping =>
    refine ⟨⟨h.reader, h.compressed, h.writeBuf⟩, List.forall_mem_cons.mpr ⟨.inr rfl, ?_⟩⟩
    exact List.forall_mem_cons.mpr ⟨.inl h.reader, nofun⟩

theorem Enabled.callAll (h : conn.Enabled) (calls : List BackendCall) :
    ∀ t ∈ conn.callAll cs calls, t.Compressed ∨ t = .sent (packet 0 [0x07]) := by
  induction calls generalizing conn with
  | nil => exact nofun
  | cons c calls ih =>
    obtain ⟨henabled, hcall⟩ := h.call cs c
    exact List.forall_mem_append.mpr ⟨hcall, ih henabled⟩

/-- **Compression is never all**: whatever is asked of a connection on which it was negotiated, its first send is not
compressed and the reply to that is not decompressed. Of the rest, only the pings are not compressed. -/
theorem traffic_not_compressed (cs : Compressors) {compression : BackendCompression} {serverCaps : Nat}
    (hnegotiated : negotiatedCompressAlgo (compressCap compression serverCaps) ≠ .none) (calls : List BackendCall) :
    (¬∀ t ∈ traffic cs compression serverCaps calls, t.Compressed) ∧
      ∀ t ∈ (traffic cs compression serverCaps calls).drop 2, t.Compressed ∨ t = .sent (packet 0 [0x07]) := by
  rw [traffic, traffic_connect]
  refine ⟨fun h => ?_, (enabled_connect hnegotiated).callAll calls⟩
  exact not_hasCompressedHeader (by decide) (h _ List.mem_cons_self)

theorem traffic_not_compressed_zlib :
    (¬∀ t ∈ traffic ⟨runCoder, runCoder⟩ .zlib 0x20 [.ping], t.Compressed) ∧
      ∀ t ∈ (traffic ⟨runCoder, runCoder⟩ .zlib 0x20 [.ping]).drop 2,
        t.Compressed ∨ t = .sent (packet 0 [0x07]) :=
  traffic_not_compressed ⟨runCoder, runCoder⟩ (by decide) [.ping]

/-- The statement for session tracking is sent before compression is enabled. -/
theorem tracking_not_compressed : ¬ ∀ (cs : Compressors) (compression : BackendCompression) (serverCaps : Nat)
    (calls : List BackendCall), negotiatedCompressAlgo (compressCap compression serverCaps) ≠ .none →
    ∀ t ∈ traffic cs compression serverCaps calls, t.Compressed := by
  intro h
  have hfirst := h ⟨runCoder, runCoder⟩ .zlib 0x20 [] (by decide) (.sent (packet 0 (0x03 :: asciiBytes trackSql)))
    (by rw [traffic, traffic_connect]; exact List.mem_cons_self)
  exact not_hasCompressedHeader (by decide) hfirst

end MysqlBackendConnection

end TurbineProxy
