import TurbineProxy.Pool

/-!
# Backend connections

What sits behind a `Box<dyn BackendConnection>`. The database server is not part of the proxy, so it
is a parameter (`Server`): a state per connection, and for every command the next state and the reply
it sends. What the environment decides about one exchange is a `TalkInput`: whether the connection
dies and where (before the command is on the wire, or after, with or without it having executed), or
whether the proxy's own timer elapses first.

`Conn.talk` is `execute_query` / `send_raw` / `send_raw_no_response` of the two implementations:
`MySQLBackendConnection` never touches its `in_transaction` field, `PgBackendConnection` sets it from
the status byte of `ReadyForQuery` and clears `healthy` on a read error.
-/

namespace TurbineProxy

/-! ## Replies -/

/-- `BackendResponse`: what the proxy forwards to the client. -/
structure Response where
  /-- framed packets -/
  bytes : Bytes
  /-- the backend reported an SQL error -/
  isError : Bool
  /-- session variables the backend says it changed -/
  sessionChanges : List (Str × Str)
  /-- GTID of a write -/
  writeGtid : Option Str
  deriving DecidableEq

/-- A PostgreSQL backend message. Its length field is a `u32` that counts itself. -/
structure PgMsg where
  /-- type byte -/
  tag : UInt8
  /-- payload after the length field -/
  payload : Bytes
  /-- the length field can express it -/
  small : payload.length + 4 < 2 ^ 32

/-- `u32::to_be_bytes` -/
def be32 (n : Nat) : Bytes :=
  [UInt8.ofNat (n / 2 ^ 24), UInt8.ofNat (n / 2 ^ 16), UInt8.ofNat (n / 2 ^ 8), UInt8.ofNat n]

/-- `build_pg_raw`: type byte, length, payload -/
def buildPgRaw (tag : UInt8) (payload : Bytes) : Bytes := tag :: be32 (payload.length + 4) ++ payload

/-- What a PostgreSQL backend sends for one command: messages, then `ReadyForQuery`. -/
structure PgReply where
  /-- the messages before `ReadyForQuery` -/
  before : List PgMsg
  /-- `ReadyForQuery` comes once, at the end -/
  noReady : ∀ m ∈ before, m.tag ≠ 0x5A
  /-- its status byte: `I`, `T` or `E` -/
  status : UInt8

theorem noReady_nil : ∀ m ∈ ([] : List PgMsg), m.tag ≠ 0x5A := by simp

/-- What a server sends back for one command. -/
inductive Reply : Type where
  /-- MySQL: framed packets, with the session-track entries and the GTID they carry -/
  | mysql (bytes : Bytes) (sessionChanges : List (Str × Str)) (writeGtid : Option Str)
  /-- PostgreSQL -/
  | postgres (r : PgReply)

/-- The status bytes that mean an open transaction block: `T` and `E`. -/
def inTxStatus (status : UInt8) : Bool := status == 0x54 || status == 0x45

/-- The response the proxy builds from a reply (`collect_response_tracked`, `collect_until_ready`). -/
def Reply.response : Reply → Response
  | .mysql bytes changes gtid => ⟨bytes, bytes[4]? == some 0xFF, changes, gtid⟩
  | .postgres r =>
    ⟨(r.before.flatMap fun m => buildPgRaw m.tag m.payload) ++ buildPgRaw 0x5A [r.status],
      r.before.any fun m => m.tag == 0x45, [], none⟩

/-!
## Servers

A server is whatever it does with a command on a connection; nothing is assumed of it that a claim about it does not
name.
-/

/-- A command as it goes over the wire. -/
inductive Packet : Type where
  /-- `COM_QUERY` / simple query -/
  | text (sql : Bytes)
  /-- a command packet that is answered -/
  | raw (bytes : Bytes)
  /-- a command packet without an answer (`COM_STMT_CLOSE`, `COM_STMT_SEND_LONG_DATA`) -/
  | silent (bytes : Bytes)
  deriving DecidableEq

/-- A database server as seen from one connection. The last argument of `exec` stands for everything
else its behaviour depends on (data, other connections, time). -/
structure Server where
  /-- the server's state for one connection -/
  Sess : Type
  /-- a connection that has just been opened -/
  fresh : Sess
  /-- execute a command -/
  exec : Sess → Packet → Nat → Sess × Reply
  /-- a transaction is open on the connection -/
  txOpen : Sess → Bool
  /-- the statement prepared under an id on the connection -/
  stmt : Sess → Nat → Option Bytes

/-- How an exchange with the backend goes wrong. -/
inductive Fault : Type where
  /-- the command could not be written; the server never saw it whole -/
  | unsent (e : Str)
  /-- the command was written, the reply could not be read; the server may have executed it -/
  | lost (e : Str) (executed : Bool)
  /-- the proxy's timer elapsed first -/
  | elapsed (executed : Bool)
  deriving DecidableEq

/-- What the environment decides about one exchange. -/
structure TalkInput where
  /-- a fault, if one happens -/
  fault : Option Fault
  /-- the rest of what the server's answer depends on -/
  choice : Nat

/-- Whether the server executes the command of an exchange. -/
def TalkInput.executed (inp : TalkInput) : Bool :=
  match inp.fault with
  | none => true
  | some (.unsent _) => false
  | some (.lost _ executed) => executed
  | some (.elapsed executed) => executed

/-- Why an exchange gave no response. -/
inductive TalkError : Type where
  /-- a `ProtocolError`, as it is displayed -/
  | protocol (e : Str)
  /-- the per-query timer -/
  | elapsed
  deriving DecidableEq

/-! ## Connections -/

/-- The pools of a `BackendPool`. -/
inductive Slot : Type where
  /-- the configured primary -/
  | primary
  /-- a replica, by index -/
  | replica (i : Nat)
  deriving DecidableEq

/-- A `ConnectionPool`: the `BackendPool` it belongs to (by the order of installation) and its slot. -/
structure Origin where
  /-- which `BackendPool` -/
  gen : Nat
  /-- which pool of it -/
  slot : Slot
  deriving DecidableEq

/-- Where a connection is. -/
inductive Place : Type where
  /-- checked out by a session -/
  | held (session : Nat)
  /-- in an idle bucket of a pool -/
  | idle (o : Origin)
  /-- dropped -/
  | closed
  deriving DecidableEq

/-- A backend connection: the proxy's record of it together with the server's end. -/
structure Conn (srv : Server) where
  /-- the pool that opened it, hence the server it leads to -/
  opened : Origin
  /-- the pool that handed it out last -/
  lender : Origin
  /-- where it is now -/
  place : Place
  /-- the server's state -/
  sess : srv.Sess
  /-- the connection's own `in_transaction` field -/
  inTransaction : Bool
  /-- the connection's own `healthy` field -/
  healthy : Bool
  /-- the session whose command opened the transaction that is open now -/
  opener : Option Nat

namespace Conn

variable {srv : Server}

/-- A transaction is open on the server's side. -/
def txOpen (c : Conn srv) : Bool := srv.txOpen c.sess

/-- The server's end after a command: its state, and whose transaction is open. -/
def afterExec (c : Conn srv) (session : Nat) (p : Packet) (choice : Nat) : Conn srv :=
  let sess := (srv.exec c.sess p choice).1
  { c with
    sess
    opener := if srv.txOpen sess then (if c.txOpen then c.opener else some session) else none }

/-- The connection's own fields after a reply has been read. -/
def noteReply (c : Conn srv) : Reply → Conn srv
  | .mysql .. => c
  | .postgres r => { c with inTransaction := inTxStatus r.status }

/-- The connection's own fields after a fault: only a failed read marks it, and only for
PostgreSQL. -/
def noteFault (c : Conn srv) (reply : Reply) : Fault → Conn srv
  | .lost .. => match reply with
    | .mysql .. => c
    | .postgres _ => { c with healthy := false }
  | _ => c

/-- One exchange on a connection by a session. -/
def talk (c : Conn srv) (session : Nat) (p : Packet) (inp : TalkInput) :
    Conn srv × Except TalkError Response :=
  let reply := (srv.exec c.sess p inp.choice).2
  let c' := if inp.executed then c.afterExec session p inp.choice else c
  match inp.fault with
  | none =>
    match p with
    | .silent _ => (c', .ok ⟨[], false, [], none⟩)
    | _ => (c'.noteReply reply, .ok reply.response)
  | some f =>
    (c'.noteFault reply f, .error (match f with
      | .unsent e => .protocol e
      | .lost e _ => .protocol e
      | .elapsed _ => .elapsed))

/-- An exchange moves neither the connection nor its origin. -/
theorem talk_frame (c : Conn srv) (session : Nat) (p : Packet) (inp : TalkInput) :
    (c.talk session p inp).1.place = c.place ∧ (c.talk session p inp).1.lender = c.lender ∧
      (c.talk session p inp).1.opened = c.opened := by
  have hexec : ∀ ch, (c.afterExec session p ch).place = c.place ∧
      (c.afterExec session p ch).lender = c.lender ∧
      (c.afterExec session p ch).opened = c.opened := fun ch => ⟨rfl, rfl, rfl⟩
  unfold talk noteReply noteFault
  cases inp.executed <;> rcases inp.fault with _ | _ | _ | _ <;> rcases p with _ | _ | _ <;>
    dsimp only <;> (try split) <;> simp_all

end Conn

end TurbineProxy
