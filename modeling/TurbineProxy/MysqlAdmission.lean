import TurbineProxy.MysqlConnect
import TurbineProxy.PgAdmission

/-!
# Who is let in over MySQL

`accept_client` of `protocol/mysql/mod.rs`, which lets clients in, as a `Party` that talks to whatever is at the other
end of the connection: it sends its greeting, reads the response, and answers as `AuthCache::verify` says. Packets are
read from a peer as they are read from a stream (`against_receiveFrames`).
-/

namespace TurbineProxy

/-- One end of a connection. A panic ends the task, and with it the connection. -/
abbrev MysqlEnd (α : Type) := Party UInt8 (Abort ConnectError) α

/-- The stream ends. -/
abbrev mysqlIo : Abort ConnectError := .err (.codec .io)

/-! ## Packets -/

namespace PacketCodec

variable (codec : PacketCodec)

/-- The loop of `read_packet` over the frames that follow, for as many of them. -/
def receiveFrames : Nat → PacketCodec → Bytes → MysqlEnd (Bytes × PacketCodec)
  | 0, _, _ => Party.fail mysqlIo
  | n + 1, codec, readBuf => do
    let nextHeader ← Party.receive 4
    if nextHeader.getD 3 0 ≠ codec.sequenceId then
      Party.fail (.err (.codec (.outOfSequence codec.sequenceId (nextHeader.getD 3 0))))
    else
      let payload ← Party.receive (u24Le nextHeader)
      if u24Le nextHeader = 0xFFFFFF then receiveFrames n (codec.advanceSeq 1) (readBuf ++ payload)
      else pure (readBuf ++ payload, codec.advanceSeq 1)

/-- `read_packet`, from a peer: the payload, and the codec after it. -/
def receivePacket (n : Nat) : MysqlEnd (Bytes × PacketCodec) := do
  let header ← Party.receive 4
  if header.getD 3 0 ≠ codec.sequenceId then
    Party.fail (.err (.codec (.outOfSequence codec.sequenceId (header.getD 3 0))))
  else if 0xFFFFFF < u24Le header then Party.fail (.err (.codec (.packetTooLarge (u24Le header))))
  else
    let payload ← Party.receive (u24Le header)
    if u24Le header = 0xFFFFFF then receiveFrames n (codec.advanceSeq 1) payload
    else pure (payload, codec.advanceSeq 1)

/-- `write_packet`, to a peer. -/
def sendPacket (payload : Bytes) : MysqlEnd PacketCodec :=
  if 0xFFFFFF < payload.length then Party.fail (.err (.codec (.packetTooLarge payload.length)))
  else do
    Party.send (packet codec.sequenceId payload)
    pure (codec.advanceSeq 1)

end PacketCodec

/-- `encode_ok_packet` -/
def encodeOkPacket (affectedRows lastInsertId : UInt64) (status warnings : UInt16) : Bytes :=
  0x00 :: (lenenc affectedRows.toNat ++ lenenc lastInsertId.toNat ++ leBytes 2 status.toNat ++ leBytes 2 warnings.toNat)

/-- `encode_err_packet` -/
def encodeErrPacket (code : UInt16) (state msg : Str) : Bytes :=
  0xFF :: (leBytes 2 code.toNat ++ 0x23 :: (toUtf8 state ++ toUtf8 msg))

/-! ## Letting clients in -/

namespace Capability

/-- What `accept_client` advertises, but for `SSL`. -/
def advertised : UInt32 :=
  -- PROTOCOL_41, SECURE_CONNECTION, PLUGIN_AUTH, CONNECT_WITH_DB, TRANSACTIONS, MULTI_STATEMENTS, MULTI_RESULTS
  0x200 ||| 0x8000 ||| 0x80000 ||| 0x8 ||| 0x2000 ||| 0x10000 ||| 0x20000

end Capability

/-- `MySQLClientSession`, without its streams. -/
structure MySQLClientSession where
  codec : PacketCodec
  inTransaction : Bool
  username : Str
  allowWrites : Bool
  appName : Option Str
  deriving DecidableEq

/-- `MySQLProtocol` -/
structure MySQLProtocol where
  /-- what the TLS library makes of the rest of a connection -/
  frontendTls : Option (MysqlEnd MySQLClientSession → MysqlEnd MySQLClientSession)
  authCache : AuthCache

/-- What `accept_client` draws, and the time it looks the user up. -/
structure MysqlDraw where
  challenge1 : Bytes
  challenge2 : Bytes
  /-- in nanoseconds -/
  now : Nat
  length_challenge1 : challenge1.length = 8
  length_challenge2 : challenge2.length = 12

/-- The challenge as one. -/
def MysqlDraw.challenge (draw : MysqlDraw) : Bytes := draw.challenge1 ++ draw.challenge2

/-- What panics when a response is decoded, or fails. -/
def decodedOr : Except (Abort WireError) HandshakeResponse41 → MysqlEnd HandshakeResponse41
  | .ok clientHs => pure clientHs
  | .error (.err e) => Party.fail (.err (.wire e))
  | .error (.panics fault) => Party.fail (.panics fault)

/-- Who is told that access is denied. -/
def accessDenied (username : Str) : Str := "Access denied for user '".toList ++ username ++ "'".toList

namespace MySQLProtocol

section Accept

variable (h : Sha) (self : MySQLProtocol) (config : ClientAuthConfig) (draw : MysqlDraw)

/-- The `HandshakeV10`. -/
def handshake : HandshakeV10 where
  protocolVersion := 10
  serverVersion := config.serverVersion
  connectionId := config.connectionId
  authPluginData1 := draw.challenge1
  authPluginData2 := draw.challenge2
  capabilityFlags := Capability.advertised ||| if self.frontendTls.isSome then UInt32.ofNat Capability.ssl else 0
  characterSet := 0x21
  statusFlags := 2
  authPluginName := "mysql_native_password".toList
  length_data1 := draw.length_challenge1
  length_data2 := draw.length_challenge2

/-- The end of `accept_client`, with and without TLS: the response is decoded, and the user looked up. -/
def checkResponse (codec : PacketCodec) (response : Bytes) : MysqlEnd MySQLClientSession := do
  let clientHs ← decodedOr (HandshakeResponse41.decode response)
  match self.authCache.verify h clientHs.username draw.challenge clientHs.authResponse draw.now with
  | none => do
    let text := "Authentication failed: ".toList ++ accessDenied clientHs.username
    Party.send (packet codec.sequenceId (encodeErrPacket 1045 "28000".toList text))
    Party.fail (.err (.wire (.authFailed (accessDenied clientHs.username))))
  | some rules => do
    Party.send (packet codec.sequenceId (encodeOkPacket 0 0 2 0))
    pure ⟨PacketCodec.new, false, clientHs.username, rules.allowWrites, clientHs.appName⟩

/-- An SSL request: thirty-two bytes, and the flag. -/
def IsSslRequest (response : Bytes) : Prop :=
  response.length = 32 ∧ leNat (response.take 4) &&& Capability.ssl ≠ 0

instance (response : Bytes) : Decidable (IsSslRequest response) := inferInstanceAs (Decidable (_ ∧ _))

/-- What follows the first packet of the client. -/
def acceptResponse (n : Nat) (codec : PacketCodec) (response : Bytes) : MysqlEnd MySQLClientSession :=
  if IsSslRequest response then
    match self.frontendTls with
    | none => do
      Party.send (packet 1 (encodeErrPacket 1045 "28000".toList "SSL not supported by TurbineProxy".toList))
      Party.fail (.err (.wire (.authFailed "SSL not supported".toList)))
    | some acceptor => acceptor do
      let (fullResponse, codec) ← codec.receivePacket n
      checkResponse h self draw codec fullResponse
  else checkResponse h self draw codec response

/-- `accept_client` -/
def acceptClient (n : Nat) : MysqlEnd MySQLClientSession := do
  let codec ← PacketCodec.new.sendPacket (handshake self config draw).encode
  let (response, codec) ← codec.receivePacket n
  acceptResponse h self draw n codec response

end Accept

end MySQLProtocol

/-! ## A packet is read from a peer as it is from a stream -/

section Against

variable {n m : Nat} {codec : PacketCodec} {readBuf stream : Bytes}

namespace PacketCodec

theorem ioReadExact_eq (n : Nat) (stream : Bytes) :
    ioReadExact n stream = if n ≤ stream.length then .ok (stream.take n, stream.drop n) else .error .io := by
  rw [ioReadExact, readExact]
  split <;> rfl

theorem against_receiveFrames (n : Nat) (codec : PacketCodec) (readBuf stream : Bytes) :
    (receiveFrames n codec readBuf).against mysqlIo stream =
      ([], (orCodec (readFrames n codec readBuf stream)).map fun r => ((r.1, r.2.1), r.2.2)) := by
  induction n generalizing codec readBuf stream with
  | zero => rfl
  | succ n ih =>
    rw [receiveFrames, Party.receive_bind, Party.against_read, readFrames, readHeader, ioReadExact_eq]
    split
    · change _ = ([], Except.map _ (orCodec ((if (stream.take 4).getD 3 0 ≠ codec.sequenceId then _ else _) >>= _)))
      split
      · rfl
      · change _ = ([], Except.map _ (orCodec (ioReadExact (u24Le (stream.take 4)) (stream.drop 4) >>= _)))
        rw [ioReadExact_eq, Party.receive_bind, Party.against_read]
        split
        · dsimp only
          change _ = ([], Except.map _ (orCodec (if u24Le (stream.take 4) = 0xFFFFFF then _ else _)))
          split
          · exact ih ..
          · rfl
        · rfl
    · rfl

/-- The length of a frame is never too large. -/
theorem receivePacket_eq (codec : PacketCodec) (n : Nat) : codec.receivePacket n = receiveFrames (n + 1) codec [] := by
  rw [receivePacket, receiveFrames]
  refine congrArg (Party.receive 4 >>= ·) (funext fun header => ?_)
  have hle : ¬0xFFFFFF < u24Le header := by
    have hlt := u24Le_lt header
    omega
  rw [if_neg hle]
  rfl

end PacketCodec

end Against

end TurbineProxy
