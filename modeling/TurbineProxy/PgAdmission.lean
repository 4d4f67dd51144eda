import TurbineProxy.DashboardAuth
import TurbineProxy.Duplex
import TurbineProxy.PgScan

/-!
# Who is let in over PostgreSQL

`accept_client` of `protocol/postgres/mod.rs`, which lets clients in, as a `Party` that talks to whatever is at the other
end of the connection: it reads a startup message, perhaps behind an SSL request, asks for the password unless the mode
is open, and welcomes the client. TLS is what an acceptor makes of the rest of the connection.
-/

namespace TurbineProxy

/-- One end of a connection. -/
abbrev Wire (α : Type) := Party UInt8 WireError α

/-! ## Messages -/

/-- `read_pg_msg`, from a peer: type byte and payload. -/
def receivePgMsg : Wire (UInt8 × Bytes) := do
  let hdr ← Party.receive 5
  let fullLen := beNat32 (hdr.drop 1)
  if fullLen < 4 then Party.fail (.invalidFormat ("PG msg too short: ".toList ++ decimal fullLen))
  else
    let payload ← Party.receive (fullLen - 4)
    pure (hdr.headD 0, payload)

/-- `read_startup_bytes` -/
def readStartupBytes : Wire Bytes := do
  let lenBuf ← Party.receive 4
  let fullLen := beNat32 lenBuf
  if fullLen < 4 then Party.fail (.invalidFormat "startup msg too short".toList)
  else Party.receive (fullLen - 4)

/-- `write_pg_msg` -/
def writePgMsg (typeByte : UInt8) (payload : Bytes) : Wire Unit := Party.send (buildPgRaw typeByte payload)

/-- The loop of `parse_startup_params` over the parts. The parameter that is inserted last comes first. -/
def insertParams : List Str → List (Str × Str) → List (Str × Str)
  | [], map => map
  | [key], map => if key.isEmpty then map else (key, []) :: map
  | key :: val :: parts, map => if key.isEmpty then map else insertParams parts ((key, val) :: map)

/-- `parse_startup_params` -/
def parseStartupParams (payload : Bytes) : List (Str × Str) :=
  if 4 ≤ payload.length then insertParams (((payload.drop 4).splitOnP (· == 0)).map fromUtf8Lossy) [] else []

/-- The payload of an `ErrorResponse`, as it is put together wherever one is sent. -/
def errorPayload (severity sqlstate message : Str) : Bytes :=
  (0x53 : UInt8) :: toUtf8 severity ++ 0 :: (0x43 : UInt8) :: toUtf8 sqlstate ++
    0 :: (0x4D : UInt8) :: toUtf8 message ++ [0, 0]

/-! ## Letting clients in -/

/-- `ClientAuthConfig` -/
structure ClientAuthConfig where
  connectionId : UInt32
  /-- for MySQL clients -/
  serverVersion : Str
  deriving DecidableEq

/-- `PgClientSession`, without its streams. -/
structure PgClientSession where
  inTransaction : Bool
  username : Str
  database : Str
  allowWrites : Bool
  appName : Str
  deriving DecidableEq

/-- `PostgreSQLProtocol` -/
structure PostgreSQLProtocol where
  /-- none: open mode -/
  users : List Config.UserConfig
  /-- `tls_acceptor`, as what it makes of the rest of a connection -/
  tlsAcceptor : Option (Wire PgClientSession → Wire PgClientSession)

/-- `params_to_send` -/
def paramsToSend : List (String × String) :=
  [("server_version", "16.0"), ("server_encoding", "UTF8"), ("client_encoding", "UTF8"), ("DateStyle", "ISO, MDY"),
    ("TimeZone", "UTC"), ("integer_datetimes", "on"), ("standard_conforming_strings", "on")]

/-- The payload of a `ParameterStatus`. -/
def parameterStatus (kv : String × String) : Bytes := asciiBytes kv.1 ++ 0 :: asciiBytes kv.2 ++ [0]

/-- The payload of `BackendKeyData`. -/
def backendKeyData (connectionId : UInt32) : Bytes :=
  be32 connectionId.toNat ++ be32 (connectionId * 1103515245).toNat

/-- The messages that welcome a client: `AuthenticationOk`, the parameters, the key, `ReadyForQuery`. -/
def welcome (connectionId : UInt32) : List (UInt8 × Bytes) :=
  (0x52, be32 0) :: paramsToSend.map (fun kv => (0x53, parameterStatus kv)) ++
    [(0x4B, backendKeyData connectionId), (0x5A, [0x49])]

/-- Messages one after the other. -/
def writeMsgs {α : Type} (msgs : List (UInt8 × Bytes)) (next : Wire α) : Wire α :=
  msgs.foldr (fun m next => Party.write (buildPgRaw m.1 m.2) next) next

namespace PostgreSQLProtocol

/-- A client that has failed is told so. -/
def reject {α : Type} (sqlstate message text : Str) : Wire α := do
  writePgMsg 0x45 (errorPayload "FATAL".toList sqlstate message)
  Party.fail (.authFailed text)

section Accept

variable (sur : Surroundings) (self : PostgreSQLProtocol) (config : ClientAuthConfig)

/-- The password is asked for and compared, unless the mode is open. -/
def checkPassword (username : Str) : Wire Unit :=
  if self.users.isEmpty then pure ()
  else do
    let userPassword := ((self.users.find? (·.name = username)).map (·.resolvedPassword sur)).getD []
    writePgMsg 0x52 (be32 3)
    let (t, payload) ← receivePgMsg
    if t ≠ 0x70 then Party.fail (.authFailed "expected PasswordMessage".toList)
    else
      let received := fromUtf8Lossy (if payload.getLast? = some 0 then payload.dropLast else payload)
      if received ≠ userPassword then
        reject "28P01".toList "password authentication failed".toList "password mismatch".toList
      else pure ()

/-- `accept_startup` -/
def acceptStartup (startup : Bytes) : Wire PgClientSession := do
  let params := parseStartupParams startup
  let username := (params.lookup "user".toList).getD "postgres".toList
  let database := (params.lookup "database".toList).getD "postgres".toList
  let appName := (params.lookup "application_name".toList).getD []
  let found := self.users.find? (·.name = username)
  if !self.users.isEmpty && found.isNone then
    reject "28000".toList ("role \"".toList ++ username ++ "\" does not exist".toList)
      ("unknown user: ".toList ++ username)
  else
    let allowWrites := self.users.isEmpty || (found.map (·.allowWrites)).getD true
    checkPassword sur self username
    writeMsgs (welcome config.connectionId) (pure ⟨false, username, database, allowWrites, appName⟩)

/-- `accept_client` -/
def acceptClient : Wire PgClientSession := do
  let startup ← readStartupBytes
  if startup.length < 4 then Party.fail (.invalidFormat "startup too short".toList)
  else if beNat32 startup = 80877103 then
    match self.tlsAcceptor with
    | some acceptor => do
      Party.send [0x53]
      acceptor do
        let startup2 ← readStartupBytes
        acceptStartup sur self config startup2
    | none => do
      Party.send [0x4E]
      let startup2 ← readStartupBytes
      acceptStartup sur self config startup2
  else if beNat32 startup = 80877102 then Party.fail (.invalidFormat "cancel request not supported".toList)
  else acceptStartup sur self config startup

end Accept

end PostgreSQLProtocol

end TurbineProxy
