import TurbineProxy.Greeting

/-!
# Connecting to a MySQL server

`mysql_connect` of `protocol/mysql/mod.rs`, from the first packet of the server on. What the server sends is a stream
that ends somewhere; the TLS library is a parameter. Nothing but the greeting can make it panic: `mysqlConnect_iff`.
-/

namespace TurbineProxy

/-- `ProtocolError`, as `mysql_connect` returns it: from the codec, or one of its own. -/
inductive ConnectError : Type where
  | codec (e : ProtocolError)
  | wire (e : WireError)
  deriving DecidableEq

/-- The arguments of `mysql_connect`. -/
structure ConnectParams where
  user : Str
  password : Str
  database : Option Str
  compression : BackendCompression
  /-- what TLS makes of the stream, unless `tls_mode` is off -/
  tls : Option (Bytes → Except WireError Bytes)

/-- `MySQLBackendConnection`, as it is at first. -/
structure MysqlConnected where
  conn : MysqlBackendConnection
  backendConnId : Nat
  sessionTrackingEnabled : Bool
  deriving DecidableEq

/-- An error of the codec. -/
def orCodec {α : Type} : Except ProtocolError α → Except (Abort ConnectError) α
  | .ok a => .ok a
  | .error e => .error (.err (.codec e))

/-- An error of the TLS library. -/
def orWire {α : Type} : Except WireError α → Except (Abort ConnectError) α
  | .ok a => .ok a
  | .error e => .error (.err (.wire e))

namespace MysqlConnect

/-- The SSL request: flags, packet size, character set, filler. -/
def sslRequest : Bytes :=
  leBytes 4 (2 ^ 0 ||| 2 ^ 2 ||| 2 ^ 9 ||| 2 ^ 15 ||| Capability.ssl) ++ leBytes 4 (16 * 1024 * 1024) ++
    (0x21 :: List.replicate 23 0)

/-- The TLS upgrade, which goes without if the server does not advertise it. -/
def upgrade (tls : Option (Bytes → Except WireError Bytes)) (serverCaps : Nat) (codec : PacketCodec)
    (stream : Bytes) : Except (Abort ConnectError) (PacketCodec × Bytes) :=
  match tls with
  | none => .ok (codec, stream)
  | some connector =>
    if serverCaps &&& Capability.ssl = 0 then .ok (codec, stream)
    else do
      let (codec, _) ← orCodec (codec.writePacket sslRequest [])
      .ok (codec, ← orWire (connector stream))

/-- The flags of the response: those of any connection, session tracking, the compression that is requested. -/
def responseFlags (params : ConnectParams) (serverCaps : Nat) : Nat :=
  2 ^ 0 ||| 2 ^ 2 ||| 2 ^ 9 ||| 2 ^ 13 ||| 2 ^ 15 ||| 2 ^ 16 ||| 2 ^ 17 ||| Capability.pluginAuth ||| 2 ^ 23 |||
    compressCap params.compression serverCaps |||
    if params.database.isSome then Capability.connectWithDb else 0

/-- The `HandshakeResponse41` that is sent. -/
def response (h : Sha) (params : ConnectParams) (greeting : Greeting) : Bytes :=
  let authResponse := if params.password.isEmpty then [] else computeNativeAuth h greeting.challenge params.password
  leBytes 4 (responseFlags params greeting.serverCaps) ++ leBytes 4 (16 * 1024 * 1024) ++
    ((0x21 : UInt8) :: (List.replicate 23 0 ++ toUtf8 params.user ++
    (0 :: UInt8.ofNat authResponse.length :: authResponse))) ++
    (params.database.elim [] fun db => toUtf8 db ++ [0]) ++ asciiBytes "mysql_native_password" ++ [0]

/-- What follows the greeting: TLS, the response, the answer to it, the statement for session tracking. -/
def authenticate (h : Sha) (params : ConnectParams) (greeting : Greeting) (codec : PacketCodec) (stream : Bytes) :
    Except (Abort ConnectError) MysqlConnected := do
  let (codec, stream) ← upgrade params.tls greeting.serverCaps codec stream
  let (codec, _) ← orCodec (codec.writePacket (response h params greeting) [])
  let (authResult, _, stream) ← orCodec (codec.readPacket stream)
  if authResult.head? = some 0xFF then
    .error (.err (.wire (.authFailed ("Backend auth failed: ".toList ++ fromUtf8Lossy (authResult.drop 9)))))
  else
    .ok ⟨(MysqlBackendConnection.connect params.compression greeting.serverCaps).1, greeting.backendConnId,
      (collectResponse stream).any fun r => r.1[4]? != some 0xFF⟩

end MysqlConnect

/-- `mysql_connect`, once the server is reached. -/
def mysqlConnect (h : Sha) (params : ConnectParams) (stream : Bytes) :
    Except (Abort ConnectError) MysqlConnected := do
  let (hsPacket, codec, stream) ← orCodec (PacketCodec.new.readPacket stream)
  MysqlConnect.authenticate h params (← orPanic (parseGreeting hsPacket)) codec stream

/-! ## Where it may panic -/

theorem noPanic_orCodec {α : Type} (x : Except ProtocolError α) : NoPanic (orCodec x) := by
  cases x with
  | ok a => exact noPanic_ok a
  | error e => exact noPanic_err _

theorem noPanic_orWire {α : Type} (x : Except WireError α) : NoPanic (orWire x) := by
  cases x with
  | ok a => exact noPanic_ok a
  | error e => exact noPanic_err _

namespace MysqlConnect

theorem noPanic_upgrade (tls : Option (Bytes → Except WireError Bytes)) (serverCaps : Nat) (codec : PacketCodec)
    (stream : Bytes) : NoPanic (upgrade tls serverCaps codec stream) := by
  cases tls with
  | none => exact noPanic_ok _
  | some connector =>
    rw [upgrade]
    split
    · exact noPanic_ok _
    · exact (noPanic_orCodec _).bind fun _ _ => (noPanic_orWire _).bind fun _ _ => noPanic_ok _

/-- Nothing behind the greeting panics. -/
theorem noPanic_authenticate (h : Sha) (params : ConnectParams) (greeting : Greeting) (codec : PacketCodec)
    (stream : Bytes) : NoPanic (authenticate h params greeting codec stream) := by
  refine (noPanic_upgrade _ _ _ _).bind fun upgraded _ => ?_
  refine (noPanic_orCodec _).bind fun written _ => ?_
  refine (noPanic_orCodec _).bind fun ⟨authResult, _, left⟩ _ => ?_
  dsimp only
  split
  · exact noPanic_err _
  · exact noPanic_ok _

end MysqlConnect

/-- A packet is shorter than the stream that it is read from. -/
theorem length_readPacket {codec codec' : PacketCodec} {stream p rest : Bytes}
    (h : codec.readPacket stream = .ok (p, codec', rest)) : p.length < stream.length := by
  rw [PacketCodec.readPacket_eq] at h
  obtain ⟨k, hk, -⟩ := PacketCodec.length_readFrames h
  rw [List.length_nil] at hk
  omega

/-- A greeting that is not parsed ends it all. -/
theorem mysqlConnect_panics {h : Sha} {params : ConnectParams} {stream p rest : Bytes} {codec : PacketCodec}
    {fault : TrackFault} (hread : PacketCodec.new.readPacket stream = .ok (p, codec, rest))
    (hgreeting : parseGreeting p = .error fault) : mysqlConnect h params stream = .error (.panics fault) := by
  rw [mysqlConnect, hread]
  change (do MysqlConnect.authenticate h params (← orPanic (parseGreeting p)) codec rest) = _
  rw [hgreeting]
  rfl

/-- **The greeting of a server**: a first packet is parsed just if it has a protocol version, a server version that ends
in NUL, and thirty-one bytes behind that; and `mysql_connect` ends with a value or an error just if it is so, or if
there is no first packet. -/
theorem mysqlConnect_iff (h : Sha) (params : ConnectParams) :
    (∀ p : Slice, (∃ greeting, parseGreeting p.1 = .ok greeting) ↔ Greets p.1) ∧
    ∀ stream : Slice, NoPanic (mysqlConnect h params stream.1) ↔
      ∀ p codec rest, PacketCodec.new.readPacket stream.1 = .ok (p, codec, rest) → Greets p := by
  refine ⟨parseGreeting_iff, fun ⟨stream, hlen⟩ => ?_⟩
  dsimp only
  cases hread : PacketCodec.new.readPacket stream with
  | error e =>
    refine iff_of_true ?_ fun p codec rest heq => by cases heq
    rw [mysqlConnect, hread]
    exact noPanic_err _
  | ok read =>
    obtain ⟨p, codec, rest⟩ := read
    have hslice : p.length < 2 ^ 63 := Nat.lt_trans (length_readPacket hread) hlen
    have hparsed := parseGreeting_iff ⟨p, hslice⟩
    dsimp only at hparsed
    constructor
    · intro hends p' codec' rest' heq
      cases heq
      rw [← hparsed]
      cases hgreeting : parseGreeting p with
      | ok greeting => exact ⟨greeting, rfl⟩
      | error fault => exact absurd (mysqlConnect_panics hread hgreeting) (hends fault)
    · intro hgreets
      obtain ⟨greeting, hgreeting⟩ := hparsed.mpr (hgreets p codec rest rfl)
      rw [mysqlConnect, hread]
      change NoPanic (do MysqlConnect.authenticate h params (← orPanic (parseGreeting p)) codec rest)
      rw [hgreeting]
      exact MysqlConnect.noPanic_authenticate h params greeting codec rest

/-- The error packet of a server that has too many connections. -/
def tooManyConnections : Bytes := 0xFF :: 0x10 :: 0x04 :: asciiBytes "Too many connections"

/-- A server that is full takes the task down. -/
theorem tooManyConnections_panics :
    (¬ ∀ p : Slice, ∃ greeting, parseGreeting p.1 = .ok greeting) ∧
    ¬ ∀ (h : Sha) (params : ConnectParams) (stream : Slice), NoPanic (mysqlConnect h params stream.1) := by
  have hpanic : parseGreeting tooManyConnections = .error .outOfRange := by decide
  constructor
  · intro hclaim
    obtain ⟨greeting, hgreeting⟩ := hclaim ⟨tooManyConnections, by decide⟩
    rw [hpanic] at hgreeting
    cases hgreeting
  · intro hclaim
    have hread : PacketCodec.new.readPacket (packet 0 tooManyConnections) =
        .ok (tooManyConnections, PacketCodec.new.advanceSeq 1, []) := by decide
    exact hclaim AuthCache.sampleSha ⟨"app".toList, [], none, .none, none⟩
      ⟨packet 0 tooManyConnections, by decide⟩ .outOfRange (mysqlConnect_panics hread hpanic)

end TurbineProxy
