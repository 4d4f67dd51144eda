import Mathlib.Data.Char
import TurbineProxy.ConfigTypes
import TurbineProxy.Sql

/-!
# The configuration store

`config/store.rs`: the tables of the SQLite database, the statements that write them and the queries that
read them back. Every function of `ConfigStore` takes the lock of the one connection, so its statements
are executed in a row; none of them opens a transaction.

The JSON texts and time stamps of `config_changes` are left out: nothing reads them but the history page.
-/

namespace TurbineProxy.Config

open Sql

/-! ## Rows -/

/-- `config_backends.protocol` -/
inductive Protocol : Type where
  | mysql
  | pgsql
  deriving DecidableEq

/-- A row of `config_rules`. -/
structure RuleRow where
  priority : Int
  matchPattern : Option Str
  matchDigest : Option Str
  user : Str
  schemaName : Str
  destination : Str
  destinationHostgroup : Option Int64
  cacheTtlSecs : Int64
  comment : Str
  mirrorTo : Option Str
  rolloutPct : Option Int64
  enabled : Bool
  deriving DecidableEq

/-- A row of `config_rewrite_rules`. -/
structure RewriteRuleRow where
  priority : Int
  matchPattern : Str
  replaceWith : Option Str
  addLimit : Option Int64
  addTimeoutMs : Option Int64
  block : Bool
  comment : Str
  enabled : Bool
  deriving DecidableEq

/-- A row of `config_backends`. -/
structure BackendRow where
  protocol : Protocol
  addr : Str
  user : Str
  password : Str
  database : Option Str
  role : Str
  weight : Int64
  backup : Bool
  tlsMode : Str
  enabled : Bool
  deriving DecidableEq

/-- A row of `config_users`. -/
structure UserRow where
  name : Str
  password : Str
  allowWrites : Bool
  maxConnections : Int64
  enabled : Bool
  deriving DecidableEq

/-- A row of `config_changes`. -/
structure ChangeRow where
  entity : Str
  entityId : Option Int
  action : Str
  authorIp : Str
  deriving DecidableEq

/-- The tables of the SQLite database: the configuration, and the log of its changes. -/
structure Db where
  rules : Table RuleRow
  rewriteRules : Table RewriteRuleRow
  backends : Table BackendRow
  users : Table UserRow
  changes : Table ChangeRow
  /-- `name TEXT NOT NULL UNIQUE` -/
  unique : (users.contents.map UserRow.name).Nodup

/-- A database that was just created. -/
def Db.empty : Db := ⟨.empty, .empty, .empty, .empty, .empty, List.nodup_nil⟩

/-! ## Rows of a configuration -/

/-- `destination` as text -/
def RuleDestination.text : RuleDestination → Str
  | .any => "any".toList
  | .primary => "primary".toList
  | .replica => "replica".toList

/-- `tls_mode` as text -/
def TlsMode.text : TlsMode → Str
  | .off => "off".toList
  | .required => "required".toList
  | .verifyCa => "verify-ca".toList
  | .verifyIdentity => "verify-identity".toList

/-- The row both writers make of the query rule at an index. -/
def QueryRuleConfig.row (i : Nat) (r : QueryRuleConfig) : RuleRow where
  priority := i
  matchPattern := r.matchPattern
  matchDigest := r.matchDigest
  user := r.user
  schemaName := r.schema
  destination := r.destination.text
  destinationHostgroup := r.destinationHostgroup.map fun v => v.toUInt64.toInt64
  cacheTtlSecs := r.cacheTtlSecs.toInt64
  comment := r.comment
  mirrorTo := r.mirrorTo
  rolloutPct := r.rolloutPct.map fun v => v.toUInt64.toInt64
  enabled := true

/-- The row both writers make of the rewrite rule at an index. -/
def QueryRewriteConfig.row (i : Nat) (r : QueryRewriteConfig) : RewriteRuleRow where
  priority := i
  matchPattern := r.matchPattern
  replaceWith := r.replaceWith
  addLimit := r.addLimit.map fun v => v.toUInt64.toInt64
  addTimeoutMs := r.addTimeoutMs.map fun v => v.toInt64
  block := r.block
  comment := r.comment
  enabled := true

/-- The row `insert_backend_inner` makes of a backend. -/
def BackendConfig.row (sur : Surroundings) (nonce : Nonce) (role : Str) (b : BackendConfig) :
    BackendRow where
  protocol := .mysql
  addr := b.addr
  user := b.user
  password := prepareForStorage sur b.password (loadEncryptionKey sur) nonce
  database := b.database
  role
  weight := b.weight.toUInt64.toInt64
  backup := b.backup
  tlsMode := b.tlsMode.text
  enabled := true

/-- The row of a user, with the password as it is to be stored. -/
def UserConfig.row (password : Str) (u : UserConfig) : UserRow where
  name := u.name
  password
  allowWrites := u.allowWrites
  maxConnections := u.maxConnections.toInt64
  enabled := true

/-! ## Statements -/

namespace Db

variable (db : Db)

/-- `INSERT INTO config_rules` -/
def insertRule (row : RuleRow) : Db := { db with rules := db.rules.insert row }

/-- `INSERT INTO config_rewrite_rules` -/
def insertRewriteRule (row : RewriteRuleRow) : Db := { db with rewriteRules := db.rewriteRules.insert row }

/-- `INSERT INTO config_backends` -/
def insertBackend (row : BackendRow) : Db := { db with backends := db.backends.insert row }

/-- `INSERT INTO config_users` -/
def insertUser (row : UserRow) : Option Db :=
  if h : row.name ∈ db.users.contents.map UserRow.name then none
  else some { db with
    users := db.users.insert row
    unique := by
      rw [Table.contents_insert, List.map_append, List.nodup_append]
      refine ⟨db.unique, List.nodup_singleton _, fun name hold name' hnew hsame => h ?_⟩
      obtain rfl := List.mem_singleton.1 hnew
      rwa [← hsame] }

/-- `INSERT OR IGNORE INTO config_users` -/
def insertUserOrIgnore (row : UserRow) : Db := (db.insertUser row).getD db

/-- `log_change_inner` -/
def logChange (entity : String) (entityId : Option Int) (action : String) (authorIp : Str) : Db :=
  { db with changes := db.changes.insert ⟨entity.toList, entityId, action.toList, authorIp⟩ }

/-- `DELETE FROM config_rules` -/
def clearRules : Db := { db with rules := db.rules.deleteWhere fun _ => true }

/-- `DELETE FROM config_rewrite_rules` -/
def clearRewriteRules : Db := { db with rewriteRules := db.rewriteRules.deleteWhere fun _ => true }

/-- `DELETE FROM config_backends WHERE protocol='mysql'` -/
def clearBackends : Db :=
  { db with backends := db.backends.deleteWhere fun r => r.2.protocol = .mysql }

/-- `DELETE FROM config_users` -/
def clearUsers : Db :=
  { db with
    users := db.users.deleteWhere fun _ => true
    unique := by simp [Table.contents, Table.deleteWhere] }

end Db

/-! ## Changing single rules -/

/-- `create_rule` -/
def createRule (row : RuleRow) (authorIp : Str) : List (Stmt Db) :=
  [fun db => some (db.insertRule row),
   fun db => some (db.logChange "rule" (some db.rules.seq) "create" authorIp)]

/-- `update_rule`: `get_rule`, the update, the log -/
def updateRule (id : Int) (row : RuleRow) (authorIp : Str) : List (Stmt Db) :=
  [some,
   fun db => some { db with rules := db.rules.updateWhere (fun r => r.1 = id) fun _ => row },
   fun db => some (db.logChange "rule" (some id) "update" authorIp)]

/-- `delete_rule`: `get_rule`, the deletion, the log -/
def deleteRule (id : Int) (authorIp : Str) : List (Stmt Db) :=
  [some,
   fun db => some { db with rules := db.rules.deleteWhere fun r => r.1 = id },
   fun db => some (db.logChange "rule" (some id) "delete" authorIp)]

/-- `create_rewrite_rule` -/
def createRewriteRule (row : RewriteRuleRow) (authorIp : Str) : List (Stmt Db) :=
  [fun db => some (db.insertRewriteRule row),
   fun db => some (db.logChange "rewrite_rule" (some db.rewriteRules.seq) "create" authorIp)]

/-- `update_rewrite_rule` -/
def updateRewriteRule (id : Int) (row : RewriteRuleRow) (authorIp : Str) : List (Stmt Db) :=
  [some,
   fun db => some { db with rewriteRules := db.rewriteRules.updateWhere (fun r => r.1 = id) fun _ => row },
   fun db => some (db.logChange "rewrite_rule" (some id) "update" authorIp)]

/-- `delete_rewrite_rule` -/
def deleteRewriteRule (id : Int) (authorIp : Str) : List (Stmt Db) :=
  [some,
   fun db => some { db with rewriteRules := db.rewriteRules.deleteWhere fun r => r.1 = id },
   fun db => some (db.logChange "rewrite_rule" (some id) "delete" authorIp)]

/-! ## Writing a whole configuration -/

/-- What `seed_if_empty` and `replace_all` are called with. -/
structure Records where
  rules : List QueryRuleConfig
  rewriteRules : List QueryRewriteConfig
  primary : BackendConfig
  replicas : List BackendConfig
  users : List UserConfig

namespace Records

variable (c : Records) (sur : Surroundings) (nonces : Nat → Nonce)

/-- The rows of the query rules. -/
def ruleRows : List RuleRow := c.rules.mapIdx QueryRuleConfig.row

/-- The rows of the rewrite rules. -/
def rewriteRows : List RewriteRuleRow := c.rewriteRules.mapIdx QueryRewriteConfig.row

/-- The rows of the replicas. -/
def replicaRows : List BackendRow :=
  c.replicas.mapIdx fun i b => b.row sur (nonces (i + 1)) "replica".toList

/-- The rows of the backends; each gets its own nonce. -/
def backendRows : List BackendRow :=
  c.primary.row sur (nonces 0) "primary".toList :: c.replicaRows sur nonces

/-- The rows of the users in `replace_all`: the passwords as they are. -/
def userRows : List UserRow := c.users.map fun u => u.row u.password

/-- The rows of the users in `seed_if_empty`. -/
def seededUserRows : List UserRow :=
  c.users.mapIdx fun i u => u.row (prepareForStorage sur u.password (loadEncryptionKey sur) (nonces i))

end Records

/-- A statement that no constraint refuses. -/
def total (f : Db → Db) : Stmt Db := fun db => some (f db)

/-- A row for which one of a table's statements is executed. -/
def each {α : Type} (insert : Db → α → Db) (rows : List α) : List (Stmt Db) :=
  rows.map fun row => total fun db => insert db row

/-- `replace_all` -/
def replaceAll (sur : Surroundings) (nonces : Nat → Nonce) (c : Records) (authorIp : Str) :
    List (Stmt Db) :=
  [total Db.clearRules, total Db.clearRewriteRules, total Db.clearBackends, total Db.clearUsers] ++
  each Db.insertRule c.ruleRows ++
  each Db.insertRewriteRule c.rewriteRows ++
  each Db.insertBackend (c.backendRows sur nonces) ++
  (c.userRows.map fun row db => db.insertUser row) ++
  [total fun db => db.logChange "all" none "import" authorIp]

/-- The statements of one table, if it is empty when the rows are counted. -/
def ifEmpty (isEmpty : Db → Bool) (db : Db) (stmts : List (Stmt Db)) : List (Stmt Db) :=
  some :: if isEmpty db then stmts else []

/-- `seed_if_empty`. The statements of one table do not change the others, so all counts may be taken
from the database it starts with. -/
def seedIfEmpty (sur : Surroundings) (nonces userNonces : Nat → Nonce) (c : Records) (db : Db) :
    List (Stmt Db) :=
  ifEmpty (fun db => db.rules.rows.isEmpty) db (each Db.insertRule c.ruleRows) ++
  ifEmpty (fun db => db.rewriteRules.rows.isEmpty) db (each Db.insertRewriteRule c.rewriteRows) ++
  ifEmpty (fun db => (db.backends.rows.filter fun r => r.2.protocol = .mysql).isEmpty) db
    (each Db.insertBackend (c.backendRows sur nonces)) ++
  ifEmpty (fun db => db.users.rows.isEmpty) db
    (each Db.insertUserOrIgnore (c.seededUserRows sur userNonces))

/-! ## Reading -/

/-- `i64 as u32` -/
def asU32 (v : Int64) : UInt32 := v.toUInt64.toUInt32

/-- `i64 as u8` -/
def asU8 (v : Int64) : UInt8 := v.toUInt64.toUInt8

section Readers

variable (db : Db)

/-- `list_rules` -/
def listRules : List (Int × RuleRow) := orderBy RuleRow.priority db.rules.rows

/-- `list_rewrite_rules` -/
def listRewriteRules : List (Int × RewriteRuleRow) := orderBy RewriteRuleRow.priority db.rewriteRules.rows

/-- `list_backends_by_protocol`: `ORDER BY role DESC, id` -/
def listBackends (protocol : Protocol) : List (Int × BackendRow) :=
  orderBy (fun r => OrderDual.toDual r.role) (db.backends.rows.filter fun r => r.2.protocol = protocol)

/-- `list_users` -/
def listUsers : List (Int × UserRow) := orderBy UserRow.name db.users.rows

/-- The configuration of a rule's row. -/
def RuleRow.config (r : RuleRow) : QueryRuleConfig where
  matchPattern := r.matchPattern
  matchDigest := r.matchDigest
  user := r.user
  schema := r.schemaName
  destination :=
    if r.destination = "primary".toList then .primary
    else if r.destination = "replica".toList then .replica
    else .any
  cacheTtlSecs := r.cacheTtlSecs.toUInt64
  comment := r.comment
  mirrorTo := r.mirrorTo
  destinationHostgroup := r.destinationHostgroup.map asU32
  rolloutPct := r.rolloutPct.map asU8
  qpsLimit := none
  dryRun := false
  fastForward := false

/-- The configuration of a rewrite rule's row. -/
def RewriteRuleRow.config (r : RewriteRuleRow) : QueryRewriteConfig where
  matchPattern := r.matchPattern
  replaceWith := r.replaceWith
  addLimit := r.addLimit.map asU32
  addTimeoutMs := r.addTimeoutMs.map fun v => v.toUInt64
  block := r.block
  comment := r.comment

/-- The configuration of a backend's row. -/
def BackendRow.config (r : BackendRow) : BackendConfig where
  addr := r.addr
  user := r.user
  password := r.password
  database := r.database
  tlsMode :=
    if r.tlsMode = "required".toList then .required
    else if r.tlsMode = "verify-ca".toList then .verifyCa
    else if r.tlsMode = "verify-identity".toList then .verifyIdentity
    else .off
  tlsCa := none
  tlsCert := none
  tlsKey := none
  weight := asU32 r.weight
  backup := r.backup
  initConnect := []
  compression := .none
  resolutionFamily := "system".toList
  sslKeylogFile := []
  maxConnections := none

/-- The configuration of a user's row. -/
def UserRow.config (r : UserRow) : UserConfig where
  name := r.name
  password := r.password
  allowWrites := r.allowWrites
  maxConnections := r.maxConnections.toUInt64
  defaultSchema := []
  transactionIsolation := []

/-- `active_query_rules` -/
def activeQueryRules : List QueryRuleConfig :=
  ((listRules db).filter fun r => r.2.enabled).map fun r => r.2.config

/-- `active_rewrite_rules` -/
def activeRewriteRules : List QueryRewriteConfig :=
  ((listRewriteRules db).filter fun r => r.2.enabled).map fun r => r.2.config

/-- The loop of `active_backends_for_protocol`: the last primary, and the others. -/
def splitRoles : List (Int × BackendRow) → Option BackendConfig × List BackendConfig →
    Option BackendConfig × List BackendConfig
  | [], found => found
  | r :: rest, found =>
    if r.2.role = "primary".toList then splitRoles rest (some r.2.config, found.2)
    else splitRoles rest (found.1, found.2 ++ [r.2.config])

/-- `active_backends_for_protocol` -/
def activeBackends (protocol : Protocol) : Option BackendConfig × List BackendConfig :=
  splitRoles ((listBackends db protocol).filter fun r => r.2.enabled) (none, [])

/-- `active_users` -/
def activeUsers : List UserConfig :=
  ((listUsers db).filter fun r => r.2.enabled).map fun r => r.2.config

end Readers

end TurbineProxy.Config
