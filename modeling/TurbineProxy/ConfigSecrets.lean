import TurbineProxy.ConfigReplace
import TurbineProxy.Threads

/-!
# Passwords in the store

Backends and users are written by several functions of the store, each with its own `INSERT` or `UPDATE`.
`secrets_encrypted` says in which runs of writes no password is stored in clear: those in which no user
with a literal password is imported, since `replace_all` stores the passwords of users as they are.
-/

namespace TurbineProxy.Config

open Sql Str

/-! ## Changing single backends and users -/

namespace Db

variable (db : Db)

/-- `UPDATE config_users … WHERE id` -/
def updateUser (id : Int) (row : UserRow) : Option Db :=
  let users := db.users.updateWhere (fun r => r.1 = id) fun _ => row
  if h : (users.contents.map UserRow.name).Nodup then some { db with users, unique := h } else none

/-- `DELETE FROM config_users WHERE id` -/
def deleteUser (id : Int) : Db :=
  { db with
    users := db.users.deleteWhere fun r => r.1 = id
    unique := db.unique.sublist ((List.filter_sublist.map _).map _) }

end Db

section Writers

variable (sur : Surroundings) (nonce : Nonce)

/-- `create_backend_with_protocol` -/
def createBackend (row : BackendRow) (authorIp : Str) : List (Stmt Db) :=
  let storedPw := prepareForStorage sur row.password (loadEncryptionKey sur) nonce
  [fun db => some (db.insertBackend { row with password := storedPw }),
   fun db => some (db.logChange "backend" (some db.backends.seq) "create" authorIp)]

/-- `update_backend_with_protocol` -/
def updateBackend (id : Int) (row : BackendRow) (authorIp : Str) : List (Stmt Db) :=
  let storedPw := prepareForStorage sur row.password (loadEncryptionKey sur) nonce
  [fun db => some { db with
     backends := db.backends.updateWhere (fun r => r.1 = id && r.2.protocol = row.protocol)
       fun _ => { row with password := storedPw } },
   fun db => some (db.logChange "backend" (some id) "update" authorIp)]

/-- `delete_backend_with_protocol` -/
def deleteBackend (id : Int) (protocol : Protocol) (authorIp : Str) : List (Stmt Db) :=
  [fun db => some { db with
     backends := db.backends.deleteWhere fun r => r.1 = id && r.2.protocol = protocol },
   fun db => some (db.logChange "backend" (some id) "delete" authorIp)]

/-- `create_user` -/
def createUser (row : UserRow) (authorIp : Str) : List (Stmt Db) :=
  let storedPw := prepareForStorage sur row.password (loadEncryptionKey sur) nonce
  [fun db => db.insertUser { row with password := storedPw },
   fun db => some (db.logChange "user" (some db.users.seq) "create" authorIp)]

/-- `update_user` -/
def updateUser (id : Int) (row : UserRow) (authorIp : Str) : List (Stmt Db) :=
  let storedPw := prepareForStorage sur row.password (loadEncryptionKey sur) nonce
  [fun db => db.updateUser id { row with password := storedPw },
   fun db => some (db.logChange "user" (some id) "update" authorIp)]

/-- `delete_user` -/
def deleteUser (id : Int) (authorIp : Str) : List (Stmt Db) :=
  [fun db => some (db.deleteUser id),
   fun db => some (db.logChange "user" (some id) "delete" authorIp)]

end Writers

/-! ## Runs of writes -/

/-- The functions that write the store, with the nonces they draw. -/
inductive StoreWrite : Type where
  | seedIfEmpty (nonces userNonces : Nat → Nonce) (c : Records)
  | replaceAll (nonces : Nat → Nonce) (c : Records)
  | createBackend (nonce : Nonce) (row : BackendRow)
  | updateBackend (nonce : Nonce) (id : Int) (row : BackendRow)
  | deleteBackend (id : Int) (protocol : Protocol)
  | createUser (nonce : Nonce) (row : UserRow)
  | updateUser (nonce : Nonce) (id : Int) (row : UserRow)
  | deleteUser (id : Int)
  | createRule (row : RuleRow)
  | updateRule (id : Int) (row : RuleRow)
  | deleteRule (id : Int)
  | createRewriteRule (row : RewriteRuleRow)
  | updateRewriteRule (id : Int) (row : RewriteRuleRow)
  | deleteRewriteRule (id : Int)

/-- A call: what is written, for whom, and which of its statements fail for a reason of their own. -/
structure StoreCall where
  write : StoreWrite
  authorIp : Str
  fails : Nat → Bool

/-- The statements of a write. -/
def StoreWrite.script (sur : Surroundings) (authorIp : Str) (db : Db) : StoreWrite → List (Stmt Db)
  | .seedIfEmpty nonces userNonces c => Config.seedIfEmpty sur nonces userNonces c db
  | .replaceAll nonces c => Config.replaceAll sur nonces c authorIp
  | .createBackend nonce row => Config.createBackend sur nonce row authorIp
  | .updateBackend nonce id row => Config.updateBackend sur nonce id row authorIp
  | .deleteBackend id protocol => Config.deleteBackend id protocol authorIp
  | .createUser nonce row => Config.createUser sur nonce row authorIp
  | .updateUser nonce id row => Config.updateUser sur nonce id row authorIp
  | .deleteUser id => Config.deleteUser id authorIp
  | .createRule row => Config.createRule row authorIp
  | .updateRule id row => Config.updateRule id row authorIp
  | .deleteRule id => Config.deleteRule id authorIp
  | .createRewriteRule row => Config.createRewriteRule row authorIp
  | .updateRewriteRule id row => Config.updateRewriteRule id row authorIp
  | .deleteRewriteRule id => Config.deleteRewriteRule id authorIp

/-- The database after a call, whether it succeeded or not. -/
def writeStore (sur : Surroundings) (db : Db) (call : StoreCall) : Option Db :=
  some (exec call.fails 0 (call.write.script sur call.authorIp db) db).1

/-- A password that is neither empty nor a reference, nor encrypted. -/
def Literal (password : Str) : Prop :=
  password ≠ [] ∧ startsWith password "env:" = false ∧ startsWith password "file:" = false ∧
    startsWith password "enc:" = false

instance (password : Str) : Decidable (Literal password) := inferInstanceAs (Decidable (_ ∧ _))

/-- No user with a literal password is imported. -/
def WithoutLiterals (_ : Db) (call : StoreCall) : Prop :=
  match call.write with
  | .replaceAll _ c => ∀ u ∈ c.users, ¬ Literal u.password
  | _ => True

/-- No password is stored in clear. -/
structure Sealed (db : Db) : Prop where
  /-- of backends -/
  backends : ∀ row ∈ db.backends.contents, ¬ Literal row.password
  /-- of users -/
  users : ∀ row ∈ db.users.contents, ¬ Literal row.password

/-! ## What statements keep -/

variable {sur : Surroundings} {db db' : Db}

/-- With a key, what is prepared for storage is not literal. -/
theorem not_literal_prepareForStorage (value : Str) (key : Bytes) (nonce : Nonce) :
    ¬ Literal (prepareForStorage sur value (some key) nonce) := by
  rintro ⟨hempty, henv, hfile, henc⟩
  unfold prepareForStorage at hempty henv hfile henc
  split at henc
  · rename_i href
    rw [if_pos href] at henv hfile
    simp [henv, hfile, henc] at href
  · rename_i href
    rw [if_neg href] at hempty
    split at henc
    · rename_i hnil
      rw [if_pos hnil] at hempty
      exact hempty (List.isEmpty_iff.mp hnil)
    · -- an encrypted value has its prefix
      have hpre : startsWith (encrypt sur value key nonce) "enc:" = true := rfl
      exact Bool.false_ne_true (henc.symm.trans hpre)

namespace Sealed

/-- Statements about other tables leave the secrets as they are stored. -/
theorem frame (h : Sealed db) (hbackends : db'.backends = db.backends) (husers : db'.users = db.users) :
    Sealed db' :=
  ⟨hbackends ▸ h.backends, husers ▸ h.users⟩

theorem insertBackend (h : Sealed db) {row : BackendRow} (hrow : ¬ Literal row.password) :
    Sealed (db.insertBackend row) := by
  refine ⟨fun row' hrow' => ?_, h.users⟩
  rcases List.mem_append.mp (Table.contents_insert _ _ ▸ hrow') with hold | hnew
  · exact h.backends row' hold
  · obtain rfl := List.mem_singleton.mp hnew
    exact hrow

theorem insertUser (h : Sealed db) {row : UserRow} (hrow : ¬ Literal row.password)
    (hinsert : db.insertUser row = some db') : Sealed db' := by
  obtain ⟨husers, -, -, hbackends⟩ := Db.insertUser_eq hinsert
  refine ⟨hbackends ▸ h.backends, fun row' hrow' => ?_⟩
  rw [husers, Table.contents_insert] at hrow'
  rcases List.mem_append.mp hrow' with hold | hnew
  · exact h.users row' hold
  · obtain rfl := List.mem_singleton.mp hnew
    exact hrow

theorem insertUserOrIgnore (h : Sealed db) {row : UserRow} (hrow : ¬ Literal row.password) :
    Sealed (db.insertUserOrIgnore row) := by
  rw [Db.insertUserOrIgnore]
  cases hinsert : db.insertUser row with
  | none => exact h
  | some db' => exact h.insertUser hrow hinsert

end Sealed

/-- Rows that stay when others are deleted. -/
theorem mem_contents_deleteWhere {α : Type} {t : Table α} {p : Int × α → Bool} {a : α}
    (h : a ∈ (t.deleteWhere p).contents) : a ∈ t.contents := by
  obtain ⟨r, hr, rfl⟩ := List.mem_map.mp h
  exact List.mem_map_of_mem (List.mem_of_mem_filter hr)

/-- A row after an update was there before, or is an updated one. -/
theorem mem_contents_updateWhere {α : Type} {t : Table α} {p : Int × α → Bool} {row a : α}
    (h : a ∈ (t.updateWhere p fun _ => row).contents) : a = row ∨ a ∈ t.contents := by
  obtain ⟨r, hr, rfl⟩ := List.mem_map.mp h
  obtain ⟨r', hr', rfl⟩ := List.mem_map.mp hr
  split
  · exact .inl rfl
  · exact .inr (List.mem_map_of_mem hr')

namespace Sealed

theorem updateUser (h : Sealed db) {id : Int} {row : UserRow} (hrow : ¬ Literal row.password)
    (hupdate : db.updateUser id row = some db') : Sealed db' := by
  unfold Db.updateUser at hupdate
  dsimp only at hupdate
  split at hupdate
  · obtain rfl := Option.some.inj hupdate
    refine ⟨h.backends, fun row' hrow' => ?_⟩
    rcases mem_contents_updateWhere hrow' with rfl | hold
    · exact hrow
    · exact h.users row' hold
  · cases hupdate

theorem updateBackend (h : Sealed db) {p : Int × BackendRow → Bool} {row : BackendRow}
    (hrow : ¬ Literal row.password) :
    Sealed { db with backends := db.backends.updateWhere p fun _ => row } := by
  refine ⟨fun row' hrow' => ?_, h.users⟩
  rcases mem_contents_updateWhere hrow' with rfl | hold
  · exact hrow
  · exact h.backends row' hold

end Sealed

/-! ## What writes keep -/

/-- Statements that keep passwords sealed. -/
def Seals (stmts : List (Stmt Db)) : Prop :=
  ∀ stmt ∈ stmts, ∀ db db', stmt db = some db' → Sealed db → Sealed db'

theorem Seals.append {first rest : List (Stmt Db)} (h : Seals first) (h' : Seals rest) :
    Seals (first ++ rest) := by
  intro stmt hstmt
  rcases List.mem_append.mp hstmt with hstmt | hstmt
  · exact h stmt hstmt
  · exact h' stmt hstmt

theorem Seals.cons {stmt : Stmt Db} {rest : List (Stmt Db)}
    (h : ∀ db db', stmt db = some db' → Sealed db → Sealed db') (h' : Seals rest) : Seals (stmt :: rest) := by
  intro s hs
  rcases List.mem_cons.mp hs with rfl | hs
  · exact h
  · exact h' s hs

theorem Seals.nil : Seals [] := fun _ h => absurd h List.not_mem_nil

/-- A statement that is not refused. -/
theorem Seals.total {f : Db → Db} {rest : List (Stmt Db)} (h : ∀ db, Sealed db → Sealed (f db))
    (h' : Seals rest) : Seals ((fun db => some (f db)) :: rest) := by
  refine Seals.cons (fun db db' hstmt hdb => ?_) h'
  obtain rfl := Option.some.inj hstmt
  exact h db hdb

/-- A statement that does not touch the two tables. -/
theorem Seals.frame {f : Db → Db} {rest : List (Stmt Db)} (hbackends : ∀ db, (f db).backends = db.backends)
    (husers : ∀ db, (f db).users = db.users) (h' : Seals rest) : Seals ((fun db => some (f db)) :: rest) :=
  Seals.total (fun db hdb => hdb.frame (hbackends db) (husers db)) h'

theorem Seals.each {α : Type} {insert : Db → α → Db} {rows : List α}
    (h : ∀ row ∈ rows, ∀ db, Sealed db → Sealed (insert db row)) : Seals (Config.each insert rows) := by
  intro stmt hstmt db db' hrun hdb
  obtain ⟨row, hrow, rfl⟩ := List.mem_map.mp hstmt
  obtain rfl := Option.some.inj hrun
  exact h row hrow db hdb

/-- The log is another table. -/
theorem Seals.log (entity : String) (id : Db → Option Int) (action : String) (authorIp : Str) :
    Seals [fun db => some (db.logChange entity (id db) action authorIp)] :=
  Seals.frame (fun _ => rfl) (fun _ => rfl) Seals.nil

theorem Seals.ifEmpty {isEmpty : Db → Bool} {stmts : List (Stmt Db)} (h : Seals stmts) :
    Seals (Config.ifEmpty isEmpty db stmts) := by
  refine Seals.total (f := fun db => db) (fun _ hdb => hdb) ?_
  split
  · exact h
  · exact Seals.nil

/-! ## The writers -/

theorem seals_ruleRows (c : Records) : Seals (each Db.insertRule c.ruleRows) :=
  .each fun _ _ _ h => h.frame rfl rfl

theorem seals_rewriteRows (c : Records) : Seals (each Db.insertRewriteRule c.rewriteRows) :=
  .each fun _ _ _ h => h.frame rfl rfl

section Key

variable {key : Bytes} (hkey : loadEncryptionKey sur = some key)

include hkey

theorem not_literal_stored (value : Str) (nonce : Nonce) :
    ¬ Literal (prepareForStorage sur value (loadEncryptionKey sur) nonce) := by
  rw [hkey]
  exact not_literal_prepareForStorage value key nonce

/-- Both writers of whole configurations prepare the passwords of backends. -/
theorem not_literal_backendRows (c : Records) (nonces : Nat → Nonce) :
    ∀ row ∈ c.backendRows sur nonces, ¬ Literal row.password := by
  intro row hrow
  rcases List.mem_cons.mp hrow with rfl | hreplica
  · exact not_literal_stored hkey _ _
  · obtain ⟨i, hi, rfl⟩ := List.mem_mapIdx.mp hreplica
    exact not_literal_stored hkey _ _

theorem seals_backendRows (c : Records) (nonces : Nat → Nonce) :
    Seals (each Db.insertBackend (c.backendRows sur nonces)) :=
  .each fun row hrow _ h => h.insertBackend (not_literal_backendRows hkey c nonces row hrow)

theorem seals_seedIfEmpty (nonces userNonces : Nat → Nonce) (c : Records) :
    Seals (seedIfEmpty sur nonces userNonces c db) := by
  have husers : Seals (each Db.insertUserOrIgnore (c.seededUserRows sur userNonces)) := by
    refine .each fun row hrow _ h => h.insertUserOrIgnore ?_
    obtain ⟨i, hi, rfl⟩ := List.mem_mapIdx.mp hrow
    exact not_literal_stored hkey _ _
  exact (((seals_ruleRows c).ifEmpty.append (seals_rewriteRows c).ifEmpty).append
    (seals_backendRows hkey c nonces).ifEmpty).append husers.ifEmpty

/-- `replace_all` prepares the passwords of backends only. -/
theorem seals_replaceAll (nonces : Nat → Nonce) {c : Records} (authorIp : Str)
    (husers : ∀ u ∈ c.users, ¬ Literal u.password) : Seals (replaceAll sur nonces c authorIp) := by
  have hinsert : Seals (c.userRows.map fun row db => db.insertUser row) := by
    intro stmt hstmt db db' hrun h
    obtain ⟨row, hrow, rfl⟩ := List.mem_map.mp hstmt
    obtain ⟨u, hu, rfl⟩ := List.mem_map.mp hrow
    exact h.insertUser (husers u hu) hrun
  have hdelete : Seals [total Db.clearRules, total Db.clearRewriteRules, total Db.clearBackends,
      total Db.clearUsers] := by
    refine .frame (fun _ => rfl) (fun _ => rfl) (.frame (fun _ => rfl) (fun _ => rfl) ?_)
    refine .total (fun db h => ?_) (.total (fun db h => ?_) .nil)
    · exact ⟨fun row hrow => h.backends row (mem_contents_deleteWhere hrow), h.users⟩
    · exact ⟨h.backends, fun row hrow => h.users row (mem_contents_deleteWhere hrow)⟩
  exact ((((hdelete.append (seals_ruleRows c)).append (seals_rewriteRows c)).append
    (seals_backendRows hkey c nonces)).append hinsert).append (.log "all" (fun _ => none) "import" authorIp)

/-- Every writer keeps passwords sealed. -/
theorem seals_script {call : StoreCall} (hok : WithoutLiterals db call) :
    Seals (call.write.script sur call.authorIp db) := by
  obtain ⟨write, authorIp, fails⟩ := call
  cases write with
  | seedIfEmpty nonces userNonces c => exact seals_seedIfEmpty hkey nonces userNonces c
  | replaceAll nonces c => exact seals_replaceAll hkey nonces authorIp hok
  | createBackend nonce row =>
    exact .total (fun _ h => h.insertBackend (not_literal_stored hkey _ _)) (.log _ _ _ _)
  | updateBackend nonce id row =>
    exact .total (fun _ h => h.updateBackend (not_literal_stored hkey _ _)) (.log _ (fun _ => _) _ _)
  | deleteBackend id protocol =>
    refine .total (fun _ h => ⟨fun row hrow => ?_, h.users⟩) (.log _ (fun _ => _) _ _)
    exact h.backends row (mem_contents_deleteWhere hrow)
  | createUser nonce row =>
    exact .cons (fun _ _ hrun h => h.insertUser (not_literal_stored hkey _ _) hrun) (.log _ _ _ _)
  | updateUser nonce id row =>
    exact .cons (fun _ _ hrun h => h.updateUser (not_literal_stored hkey _ _) hrun) (.log _ (fun _ => _) _ _)
  | deleteUser id =>
    refine .total (fun _ h => ⟨h.backends, fun row hrow => ?_⟩) (.log _ (fun _ => _) _ _)
    exact h.users row (mem_contents_deleteWhere hrow)
  | createRule row => exact .frame (fun _ => rfl) (fun _ => rfl) (.log _ _ _ _)
  | updateRule id row | deleteRule id | updateRewriteRule id row | deleteRewriteRule id =>
    exact .total (fun _ h => h) (.frame (fun _ => rfl) (fun _ => rfl) (.log _ (fun _ => _) _ _))
  | createRewriteRule row => exact .frame (fun _ => rfl) (fun _ => rfl) (.log _ _ _ _)

/-- **Secrets at rest**: with a key, no password is stored in clear, along every run of writes in which no
user with a literal password is imported. -/
theorem secrets_encrypted {calls : List StoreCall}
    (h : Steps (writeStore sur) WithoutLiterals Db.empty calls db) : Sealed db := by
  have hempty : Sealed Db.empty :=
    ⟨fun _ hrow => absurd hrow List.not_mem_nil, fun _ hrow => absurd hrow List.not_mem_nil⟩
  refine h.induct (fun db call db' hdb hok hstep => ?_) hempty
  obtain rfl := Option.some.inj hstep
  exact exec_preserves (seals_script hkey hok) call.fails 0 hdb

end Key

/-! ## Runs -/

/-- A write that no statement of fails. -/
def storeCall (write : StoreWrite) : StoreCall := ⟨write, [], fun _ => false⟩

/-- A user. -/
def userNamed (name password : String) : UserConfig := ⟨name.toList, password.toList, true, 0, [], []⟩

/-- A configuration with one user. -/
def oneUser (password : String) : Records := ⟨[], [], backendAt "db:3306", [], [userNamed "app" password]⟩

/-- The store is seeded, a user is created, and a configuration with a reference is imported. -/
def seededWrites : List StoreCall :=
  [storeCall (.seedIfEmpty (fun _ => zeroNonce) (fun _ => zeroNonce) (oneUser "apppass")),
    storeCall (.createUser zeroNonce ((userNamed "ops" "opspass").row "opspass".toList)),
    storeCall (.replaceAll (fun _ => zeroNonce) (oneUser "env:APP_PASSWORD")),
    storeCall (.createUser zeroNonce ((userNamed "ops" "opspass").row "opspass".toList))]

/-- What is checked on the way. -/
def withoutLiterals (_ : Db) (call : StoreCall) : Bool :=
  match call.write with
  | .replaceAll _ c => c.users.all fun u => !decide (Literal u.password)
  | _ => true

theorem withoutLiterals_of_checked (db : Db) (call : StoreCall) (h : withoutLiterals db call = true) :
    WithoutLiterals db call := by
  obtain ⟨write, authorIp, fails⟩ := call
  cases write with
  | replaceAll nonces c =>
    intro u hu
    simpa using List.all_eq_true.mp h u hu
  | _ => trivial

theorem secrets_encrypted_seeded : ∃ db,
    run (writeStore keyedSurroundings) Db.empty seededWrites = some db ∧
    db.users.contents.map UserRow.name = ["app".toList, "ops".toList] ∧ Sealed db := by
  have hkey : loadEncryptionKey keyedSurroundings = some (List.replicate 32 0xAA) := by decide +kernel
  have hrun : (run (fun db call => if withoutLiterals db call then writeStore keyedSurroundings db call else none)
      Db.empty seededWrites).map (·.users.contents.map UserRow.name) =
        some ["app".toList, "ops".toList] := by
    decide +kernel
  obtain ⟨db, hdb, hnames⟩ := Option.map_eq_some_iff.mp hrun
  have hsteps := steps_of_checked withoutLiterals_of_checked hdb
  exact ⟨db, hsteps.run, hnames, secrets_encrypted hkey hsteps⟩

/-- An imported user has the password in clear. -/
theorem imported_in_clear : ¬ ∀ (sur : Surroundings) (key : Bytes), loadEncryptionKey sur = some key →
    ∀ (calls : List StoreCall) (db : Db), run (writeStore sur) Db.empty calls = some db → Sealed db := by
  intro h
  have hkey : loadEncryptionKey keyedSurroundings = some (List.replicate 32 0xAA) := by decide +kernel
  have hrun : (run (writeStore keyedSurroundings) Db.empty
      [storeCall (.replaceAll (fun _ => zeroNonce) (oneUser "apppass"))]).map
      (·.users.contents.map UserRow.password) = some ["apppass".toList] := by decide +kernel
  obtain ⟨db, hdb, hpasswords⟩ := Option.map_eq_some_iff.mp hrun
  have hsealed := h _ _ hkey _ db hdb
  have hmem : "apppass".toList ∈ db.users.contents.map UserRow.password :=
    hpasswords ▸ List.mem_singleton_self _
  obtain ⟨row, hrow, hpassword⟩ := List.mem_map.mp hmem
  exact hsealed.users row hrow (hpassword ▸ by decide)

end TurbineProxy.Config
