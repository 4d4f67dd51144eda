import TurbineProxy.Gauges
import TurbineProxy.UserAdmission

/-!
# Who is connected

The counters for each user, address and application: `proxy/app_analytics.rs`, and the `UserRegistry` beside it. Every
call of `AppAnalyticsStore` takes the locks of its maps one after the other, so what a session does is a list of calls,
one for each `BookKey`, between which other sessions do theirs. A `usize` is taken as a number of 64 bits.
-/

namespace TurbineProxy

/-- `DimStats` -/
structure DimStats where
  queriesTotal : UInt64
  queriesRead : UInt64
  queriesWrite : UInt64
  connectionsActive : UInt64
  connectionsTotal : UInt64
  firstSeenMs : Nat
  lastSeenMs : Nat
  deriving DecidableEq

/-- `DimStats::new` -/
def DimStats.new (nowMs : Nat) : DimStats := ⟨0, 0, 0, 0, 0, nowMs, nowMs⟩

/-- One of the maps of the store. -/
abbrev DimMap : Type := Str → Option DimStats

namespace DimMap

variable (m : DimMap) (key : Str)

/-- `conn_open` -/
def connOpen (now : Nat) : DimMap :=
  let e := (m key).getD (.new now)
  Function.update m key (some { e with
    connectionsActive := e.connectionsActive + 1
    connectionsTotal := e.connectionsTotal + 1
    lastSeenMs := now })

/-- `conn_close` -/
def connClose : DimMap :=
  match m key with
  | some e => Function.update m key (some { e with
      connectionsActive := UserRegistry.saturatingPred e.connectionsActive })
  | none => m

/-- `query` -/
def query (isRead isWrite : Bool) (now : Nat) : DimMap :=
  match m key with
  | some e => Function.update m key (some { e with
      queriesTotal := e.queriesTotal + 1
      queriesRead := if isRead then e.queriesRead + 1 else e.queriesRead
      queriesWrite := if isWrite then e.queriesWrite + 1 else e.queriesWrite
      lastSeenMs := now })
  | none => m

/-- The connections that are counted. -/
def active : UInt64 := (m key).elim 0 (·.connectionsActive)

end DimMap

/-- The maps of `AppAnalyticsStore`. -/
inductive Dim : Type where
  | byUser
  | byIp
  | byApp
  deriving DecidableEq

/-- `AppAnalyticsStore` -/
abbrev AppAnalyticsStore : Type := Dim → DimMap

/-- Where a session is counted: in the registry, or in a map of the store. -/
inductive BookKey : Type where
  | registry (user : Str)
  | dim (d : Dim) (key : Str)
  deriving DecidableEq

/-- Whose session it is. -/
structure Peer where
  user : Str
  ip : Str
  /-- empty if it is not known -/
  app : Str
  allowWrites : Bool
  deriving DecidableEq

/-- Where it is counted, in the order of the calls. -/
def Peer.keys (p : Peer) : List BookKey :=
  .registry p.user :: .dim .byUser p.user :: .dim .byIp p.ip :: if p.app.isEmpty then [] else [.dim .byApp p.app]

/-- `UserRegistry` and `AppAnalyticsStore` -/
structure Books where
  registry : UserRegistry
  analytics : AppAnalyticsStore

namespace Books

/-- The books before anybody has connected: no counter has an entry. -/
def empty : Books := ⟨fun _ => none, fun _ _ => none⟩

variable (b : Books)

/-- One lock of `on_connect`. -/
def connect (allowWrites : Bool) (now : Nat) : BookKey → Books
  | .registry user => { b with registry := b.registry.onConnect user allowWrites }
  | .dim d key => { b with analytics := Function.update b.analytics d ((b.analytics d).connOpen key now) }

/-- One lock of `on_disconnect`. -/
def disconnect : BookKey → Books
  | .registry user => { b with registry := b.registry.onDisconnect user }
  | .dim d key => { b with analytics := Function.update b.analytics d ((b.analytics d).connClose key) }

/-- One lock of `on_query`. The queries of the registry are not counted here. -/
def query (isRead isWrite : Bool) (now : Nat) : BookKey → Books
  | .registry _ => b
  | .dim d key => { b with analytics := Function.update b.analytics d ((b.analytics d).query key isRead isWrite now) }

/-- `connections_active` -/
def active : BookKey → UInt64
  | .registry user => b.registry.activeConnections user
  | .dim d key => (b.analytics d).active key

end Books

/-! ## What a call does to the gauges -/

namespace DimMap

variable (m : DimMap) (key key' : Str)

theorem active_connOpen (now : Nat) : (m.connOpen key now).active key' =
    if key' = key then m.active key' + 1 else m.active key' := by
  rw [connOpen, active, Function.update_apply]
  split
  · rename_i heq
    subst heq
    rw [active]
    cases m key' <;> rfl
  · rfl

theorem active_connClose : (m.connClose key).active key' =
    if key' = key then UserRegistry.saturatingPred (m.active key') else m.active key' := by
  rw [connClose]
  cases hkey : m key with
  | none =>
    dsimp only
    split
    · rename_i heq
      rw [heq, active, hkey]
      rfl
    · rfl
  | some e =>
    dsimp only
    rw [active, Function.update_apply]
    split
    · rename_i heq
      rw [heq, active, hkey]
      rfl
    · rfl

theorem active_query (isRead isWrite : Bool) (now : Nat) :
    (m.query key isRead isWrite now).active key' = m.active key' := by
  rw [query]
  cases hkey : m key with
  | none => rfl
  | some e =>
    dsimp only
    rw [active, Function.update_apply]
    split
    · rename_i heq
      rw [heq, active, hkey]
      rfl
    · rfl

end DimMap

namespace Books

variable (b : Books) (k k' : BookKey)

theorem active_connect (allowWrites : Bool) (now : Nat) : (b.connect allowWrites now k).active k' =
    if k' = k then b.active k' + 1 else b.active k' := by
  cases k with
  | registry user =>
    cases k' with
    | registry user' =>
      simpa [connect, active] using UserServer.activeConnections_onConnect b.registry user user' allowWrites
    | dim d key => simp [connect, active]
  | dim d key =>
    cases k' with
    | registry user' => simp [connect, active]
    | dim d' key' =>
      rw [connect, active, active]
      by_cases hd : d' = d
      · subst hd
        simpa using DimMap.active_connOpen (b.analytics d') key key' now
      · simp [hd]

theorem active_disconnect : (b.disconnect k).active k' =
    if k' = k then UserRegistry.saturatingPred (b.active k') else b.active k' := by
  cases k with
  | registry user =>
    cases k' with
    | registry user' => simpa [disconnect, active] using UserServer.activeConnections_onDisconnect b.registry user user'
    | dim d key => simp [disconnect, active]
  | dim d key =>
    cases k' with
    | registry user' => simp [disconnect, active]
    | dim d' key' =>
      rw [disconnect, active, active]
      by_cases hd : d' = d
      · subst hd
        simpa using DimMap.active_connClose (b.analytics d') key key'
      · simp [hd]

theorem active_query (isRead isWrite : Bool) (now : Nat) : (b.query isRead isWrite now k).active k' = b.active k' := by
  cases k with
  | registry user => rfl
  | dim d key =>
    cases k' with
    | registry user' => rfl
    | dim d' key' =>
      rw [query, active, active]
      by_cases hd : d' = d
      · subst hd
        simpa using DimMap.active_query (b.analytics d') key key' isRead isWrite now
      · simp [hd]

end Books

end TurbineProxy
