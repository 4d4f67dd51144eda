import TurbineProxy.ConfigStore

/-!
# Replacing the whole configuration

`replace_all` deletes the rows of the four tables and inserts the imported ones, statement by statement
and outside a transaction. `allOrNothing_iff` says when an error leaves the tables as they were: only
while nothing has been deleted or inserted yet.
-/

namespace TurbineProxy.Config

open Sql

/-! ## Numbered rows -/

theorem map_mapIdx {α β γ : Type} (f : Nat → α → β) (g : β → γ) (h : α → γ) {l : List α}
    (heq : ∀ a ∈ l, ∀ i, g (f i a) = h a) : (l.mapIdx f).map g = l.map h := by
  refine List.ext_getElem (by simp) fun i hi hi' => ?_
  rw [List.getElem_map, List.getElem_mapIdx, List.getElem_map]
  exact heq _ (List.getElem_mem _) i

theorem mapIdx_map {α β γ : Type} (f : Nat → β → γ) (g : α → β) (l : List α) :
    (l.map g).mapIdx f = l.mapIdx fun i a => f i (g a) :=
  List.ext_getElem (by simp) fun i hi hi' => by
    rw [List.getElem_mapIdx, List.getElem_mapIdx, List.getElem_map]

/-! ## What statements do -/

theorem runAll_each {α : Type} (insert : Db → α → Db) (rows : List α) (db : Db) :
    runAll (each insert rows) db = some (rows.foldl insert db) := by
  induction rows generalizing db with
  | nil => rfl
  | cons row rows ih =>
    rw [each, List.map_cons, runAll_cons, total, Option.bind_some, ← each, ih, List.foldl_cons]

theorem foldl_insertRule (rows : List RuleRow) (db : Db) :
    rows.foldl Db.insertRule db = { db with rules := db.rules.insertAll rows } := by
  induction rows generalizing db with
  | nil => rfl
  | cons row rows ih =>
    rw [List.foldl_cons, ih]
    rfl

theorem foldl_insertRewriteRule (rows : List RewriteRuleRow) (db : Db) :
    rows.foldl Db.insertRewriteRule db = { db with rewriteRules := db.rewriteRules.insertAll rows } := by
  induction rows generalizing db with
  | nil => rfl
  | cons row rows ih =>
    rw [List.foldl_cons, ih]
    rfl

theorem foldl_insertBackend (rows : List BackendRow) (db : Db) :
    rows.foldl Db.insertBackend db = { db with backends := db.backends.insertAll rows } := by
  induction rows generalizing db with
  | nil => rfl
  | cons row rows ih =>
    rw [List.foldl_cons, ih]
    rfl

theorem Db.insertUser_eq {db db' : Db} {row : UserRow} (h : db.insertUser row = some db') :
    db'.users = db.users.insert row ∧ db'.rules = db.rules ∧ db'.rewriteRules = db.rewriteRules ∧
      db'.backends = db.backends := by
  rw [Db.insertUser] at h
  split at h
  · cases h
  · cases h
    exact ⟨rfl, rfl, rfl, rfl⟩

theorem Db.insertUser_isSome_iff (db : Db) (row : UserRow) :
    (db.insertUser row).isSome ↔ row.name ∉ db.users.contents.map UserRow.name := by
  rw [Db.insertUser]
  split
  · rename_i htaken
    exact iff_of_false Bool.false_ne_true (not_not.2 htaken)
  · rename_i hfree
    exact iff_of_true rfl hfree

/-- Users are inserted as long as their names are new. -/
theorem runAll_insertUser (rows : List UserRow) (db : Db) :
    (∀ db', runAll (rows.map fun row db => db.insertUser row) db = some db' →
      db'.users = db.users.insertAll rows ∧ db'.rules = db.rules ∧ db'.rewriteRules = db.rewriteRules ∧
        db'.backends = db.backends) ∧
    ((runAll (rows.map fun row db => db.insertUser row) db).isSome ↔
      (db.users.contents.map UserRow.name ++ rows.map UserRow.name).Nodup) := by
  induction rows generalizing db with
  | nil =>
    refine ⟨fun db' h => ?_, ?_⟩
    · obtain rfl := Option.some.inj h
      exact ⟨rfl, rfl, rfl, rfl⟩
    · rw [List.map_nil, List.map_nil, List.append_nil]
      exact iff_of_true rfl db.unique
  | cons row rows ih =>
    rw [List.map_cons, runAll_cons]
    have hfree := db.insertUser_isSome_iff row
    cases hinsert : db.insertUser row with
    | none =>
      rw [hinsert] at hfree
      refine ⟨(fun db' h => by cases h), iff_of_false Bool.false_ne_true fun hnodup => ?_⟩
      have htaken : row.name ∈ db.users.contents.map UserRow.name :=
        not_not.1 fun hnew => Bool.false_ne_true (hfree.2 hnew)
      exact (List.nodup_append.1 hnodup).2.2 _ htaken _ List.mem_cons_self rfl
    | some next =>
      obtain ⟨husers, hrules, hrewrites, hbackends⟩ := Db.insertUser_eq hinsert
      obtain ⟨hrun, hnodup⟩ := ih next
      rw [Option.bind_some]
      refine ⟨fun db' h => ?_, ?_⟩
      · obtain ⟨h1, h2, h3, h4⟩ := hrun db' h
        exact ⟨by rw [h1, husers]; rfl, h2.trans hrules, h3.trans hrewrites, h4.trans hbackends⟩
      · rw [hnodup, husers, Table.contents_insert, List.map_append, List.append_assoc]
        rfl

/-- The tables have the same rows, ids included. -/
structure Db.SameRows (db db' : Db) : Prop where
  rules : db.rules.rows = db'.rules.rows
  rewriteRules : db.rewriteRules.rows = db'.rewriteRules.rows
  backends : db.backends.rows = db'.backends.rows
  users : db.users.rows = db'.users.rows

/-- Nothing was deleted between two states. -/
structure Db.Extends (db db' : Db) : Prop where
  rules : db.rules.rows <+: db'.rules.rows
  rewriteRules : db.rewriteRules.rows <+: db'.rewriteRules.rows
  backends : db.backends.rows <+: db'.backends.rows

theorem Db.Extends.refl (db : Db) : db.Extends db :=
  ⟨List.prefix_refl _, List.prefix_refl _, List.prefix_refl _⟩

theorem Db.Extends.trans {db db' db'' : Db} (h : db.Extends db') (h' : db'.Extends db'') :
    db.Extends db'' :=
  ⟨h.rules.trans h'.rules, h.rewriteRules.trans h'.rewriteRules, h.backends.trans h'.backends⟩

theorem Db.extends_insertRule (db : Db) (row : RuleRow) : db.Extends (db.insertRule row) :=
  ⟨List.prefix_append _ _, List.prefix_refl _, List.prefix_refl _⟩

theorem Db.extends_insertRewriteRule (db : Db) (row : RewriteRuleRow) :
    db.Extends (db.insertRewriteRule row) :=
  ⟨List.prefix_refl _, List.prefix_append _ _, List.prefix_refl _⟩

theorem Db.extends_insertBackend (db : Db) (row : BackendRow) : db.Extends (db.insertBackend row) :=
  ⟨List.prefix_refl _, List.prefix_refl _, List.prefix_append _ _⟩

theorem Db.extends_insertUser {db db' : Db} {row : UserRow} (h : db.insertUser row = some db') :
    db.Extends db' := by
  obtain ⟨-, hrules, hrewrites, hbackends⟩ := Db.insertUser_eq h
  exact ⟨hrules ▸ List.prefix_refl _, hrewrites ▸ List.prefix_refl _, hbackends ▸ List.prefix_refl _⟩

/-! ## The statements of `replace_all` -/

section Replace

variable (sur : Surroundings) (nonces : Nat → Nonce) (c : Records) (authorIp : Str)

/-- `replace_all` first deletes every row of the four tables it is about to fill, with a statement for each table. -/
def deletions : List (Stmt Db) :=
  [total Db.clearRules, total Db.clearRewriteRules, total Db.clearBackends, total Db.clearUsers]

/-- Then it inserts what the imported configuration has, with a statement for each row, and logs the change. -/
def insertions : List (Stmt Db) :=
  each Db.insertRule c.ruleRows ++ each Db.insertRewriteRule c.rewriteRows ++
  each Db.insertBackend (c.backendRows sur nonces) ++
  (c.userRows.map fun row db => db.insertUser row) ++
  [total fun db => db.logChange "all" none "import" authorIp]

theorem replaceAll_eq :
    replaceAll sur nonces c authorIp = deletions ++ insertions sur nonces c authorIp := by
  simp only [replaceAll, deletions, insertions, List.append_assoc]

/-- The database without the rows that are replaced. -/
def Db.cleared (db : Db) : Db := db.clearRules.clearRewriteRules.clearBackends.clearUsers

theorem runAll_deletions (db : Db) : runAll deletions db = some db.cleared := rfl

/-- No insertion deletes anything. -/
theorem extends_of_mem_insertions {stmt : Stmt Db} (hstmt : stmt ∈ insertions sur nonces c authorIp)
    {db db' : Db} (h : stmt db = some db') : db.Extends db' := by
  simp only [insertions, List.mem_append, each, List.mem_map, List.mem_singleton] at hstmt
  rcases hstmt with (((⟨row, -, rfl⟩ | ⟨row, -, rfl⟩) | ⟨row, -, rfl⟩) | ⟨row, -, rfl⟩) | rfl
  · cases h
    exact db.extends_insertRule row
  · cases h
    exact db.extends_insertRewriteRule row
  · cases h
    exact db.extends_insertBackend row
  · exact Db.extends_insertUser h
  · cases h
    exact ⟨List.prefix_refl _, List.prefix_refl _, List.prefix_refl _⟩

/-- A statement that inserts a row into one of the first three tables. -/
inductive InsertsRow (f : Db → Db) : Prop where
  | rule (row : RuleRow) (h : f = fun db => db.insertRule row)
  | rewriteRule (row : RewriteRuleRow) (h : f = fun db => db.insertRewriteRule row)
  | backend (row : BackendRow) (h : f = fun db => db.insertBackend row)

/-- The first insertion is one that no constraint refuses: there is always a primary to insert. -/
theorem insertions_eq_cons :
    ∃ first rest, insertions sur nonces c authorIp = total first :: rest ∧ InsertsRow first := by
  rw [insertions]
  cases hrules : c.ruleRows with
  | cons row rows => exact ⟨_, _, rfl, .rule row rfl⟩
  | nil =>
    cases hrewrites : c.rewriteRows with
    | cons row rows => exact ⟨_, _, rfl, .rewriteRule row rfl⟩
    | nil => exact ⟨_, _, rfl, .backend _ rfl⟩

/-- After an insertion the tables are not what they were before the deletions. -/
theorem not_sameRows_of_inserted {db db' : Db} {first : Db → Db} (hfirst : InsertsRow first)
    (hext : (first db.cleared).Extends db') : ¬ db'.SameRows db := by
  intro hsame
  cases hfirst with
  | rule row h =>
    subst h
    exact Table.ne_of_insert_prefix (u := db.rules) (v := db.cleared.rules) _ rfl hext.rules
      hsame.rules
  | rewriteRule row h =>
    subst h
    exact Table.ne_of_insert_prefix (u := db.rewriteRules) (v := db.cleared.rewriteRules) _ rfl hext.rewriteRules
      hsame.rewriteRules
  | backend row h =>
    subst h
    exact Table.ne_of_insert_prefix (u := db.backends) (v := db.cleared.backends) _ rfl hext.backends
      hsame.backends

/-! ## Success -/

/-- The tables hold the imported rows. Backends of PostgreSQL, which an import has none of, are left
alone. -/
structure Holds (before db : Db) : Prop where
  rules : db.rules.contents = c.ruleRows
  rewriteRules : db.rewriteRules.contents = c.rewriteRows
  backends : (db.backends.rows.filter fun r => r.2.protocol = .mysql).map Prod.snd =
    c.backendRows sur nonces
  pgsql : (db.backends.rows.filter fun r => r.2.protocol = .pgsql) =
    before.backends.rows.filter fun r => r.2.protocol = .pgsql
  users : db.users.contents = c.userRows

theorem backendRows_mysql : ∀ row ∈ c.backendRows sur nonces, row.protocol = .mysql := by
  intro row hrow
  rcases List.mem_cons.1 hrow with rfl | hreplica
  · rfl
  · obtain ⟨i, hi, rfl⟩ := List.mem_mapIdx.1 hreplica
    rfl

theorem userRows_name : c.userRows.map UserRow.name = c.users.map UserConfig.name := by
  simp [Records.userRows, UserConfig.row, Function.comp_def]

/-- Once the old rows are deleted only the names of the users can be refused. -/
theorem runAll_replaceAll (db : Db) :
    (∀ db', runAll (replaceAll sur nonces c authorIp) db = some db' → Holds sur nonces c db db') ∧
    ((runAll (replaceAll sur nonces c authorIp) db).isSome ↔ (c.users.map UserConfig.name).Nodup) := by
  -- only the insertion of users can fail, and it comes last
  let db₁ : Db := { db.cleared with
    rules := db.cleared.rules.insertAll c.ruleRows
    rewriteRules := db.cleared.rewriteRules.insertAll c.rewriteRows
    backends := db.cleared.backends.insertAll (c.backendRows sur nonces) }
  have hbefore : runAll (replaceAll sur nonces c authorIp) db =
      (runAll (c.userRows.map fun row db => db.insertUser row) db₁).bind
        (runAll [total fun db => db.logChange "all" none "import" authorIp]) := by
    simp only [replaceAll_eq, insertions, runAll_append, runAll_deletions, runAll_each, Option.bind_some,
      foldl_insertRule, foldl_insertRewriteRule, foldl_insertBackend]
    rfl
  obtain ⟨hrun, hnodup⟩ := runAll_insertUser c.userRows db₁
  have hnone : db₁.users.contents = [] := db.users.contents_deleteAll
  rw [hnone, List.map_nil, List.nil_append, userRows_name] at hnodup
  rw [hbefore]
  refine ⟨fun db' h => ?_, ?_⟩
  · obtain ⟨db₂, hdb₂, hlog⟩ := Option.bind_eq_some_iff.1 h
    obtain rfl := Option.some.inj hlog
    obtain ⟨husers, hrules, hrewrites, hbackends⟩ := hrun db₂ hdb₂
    obtain ⟨new, hrows, hnew⟩ := db.cleared.backends.insertAll_rows (c.backendRows sur nonces)
    have hbackendRows : db₂.backends.rows =
        (db.backends.rows.filter fun r => !decide (r.2.protocol = .mysql)) ++ new := by
      rw [hbackends]
      exact hrows
    have hmysql : ∀ r ∈ new, r.2.protocol = .mysql := fun r hr =>
      backendRows_mysql sur nonces c r.2 (hnew ▸ List.mem_map_of_mem hr)
    refine ⟨?_, ?_, ?_, ?_, ?_⟩
    · show db₂.rules.contents = _
      have hempty : db.cleared.rules.contents = [] := db.rules.contents_deleteAll
      rw [hrules, Table.contents_insertAll, hempty, List.nil_append]
    · show db₂.rewriteRules.contents = _
      have hempty : db.cleared.rewriteRules.contents = [] := db.rewriteRules.contents_deleteAll
      rw [hrewrites, Table.contents_insertAll, hempty, List.nil_append]
    · show (db₂.backends.rows.filter _).map Prod.snd = _
      rw [hbackendRows, List.filter_append, List.filter_filter]
      have hold : (db.backends.rows.filter fun r =>
          decide (r.2.protocol = .mysql) && !decide (r.2.protocol = .mysql)) = [] := by simp
      have hall : (new.filter fun r => decide (r.2.protocol = .mysql)) = new :=
        List.filter_eq_self.2 fun r hr => decide_eq_true (hmysql r hr)
      rw [hold, hall, List.nil_append, hnew]
    · show db₂.backends.rows.filter _ = _
      rw [hbackendRows, List.filter_append, List.filter_filter]
      have hno : (new.filter fun r => decide (r.2.protocol = .pgsql)) = [] := by
        refine List.filter_eq_nil_iff.2 fun r hr => ?_
        rw [hmysql r hr]
        decide
      rw [hno, List.append_nil]
      refine List.filter_congr fun r hr => ?_
      cases r.2.protocol with
      | mysql => rfl
      | pgsql => rfl
    · show db₂.users.contents = _
      rw [husers, Table.contents_insertAll, hnone, List.nil_append]
  · rw [← hnodup]
    cases runAll (c.userRows.map fun row db => db.insertUser row) db₁ with
    | none => exact Iff.rfl
    | some db₂ => exact iff_of_true rfl rfl

/-! ## Failure -/

/-- How many statements there are. -/
def Records.statements : Nat :=
  4 + c.rules.length + c.rewriteRules.length + (1 + c.replicas.length) + c.users.length + 1

theorem length_replaceAll : (replaceAll sur nonces c authorIp).length = c.statements := by
  simp only [replaceAll, each, Records.ruleRows, Records.rewriteRows, Records.backendRows,
    Records.replicaRows, Records.userRows, Records.statements, List.length_append, List.length_cons,
    List.length_nil, List.length_map, List.length_mapIdx]
  omega

/-- The tables of the first `k` deletions are empty anyway. -/
structure NothingDeleted (k : Nat) (db : Db) : Prop where
  rules : 0 < k → db.rules.rows = []
  rewriteRules : 1 < k → db.rewriteRules.rows = []
  backends : 2 < k → (db.backends.rows.filter fun r => r.2.protocol = .mysql) = []
  users : 3 < k → db.users.rows = []

/-- The database after the first `k` deletions. -/
def Db.clearFirst (db : Db) : Nat → Db
  | 0 => db
  | 1 => db.clearRules
  | 2 => db.clearRules.clearRewriteRules
  | 3 => db.clearRules.clearRewriteRules.clearBackends
  | _ => db.cleared

theorem runAll_take_deletions (db : Db) (k : Nat) : runAll (deletions.take k) db = some (db.clearFirst k) := by
  match k with
  | 0 => rfl
  | 1 => rfl
  | 2 => rfl
  | 3 => rfl
  | k + 4 =>
    rw [List.take_of_length_le (Nat.le_add_left 4 k), runAll_deletions]
    rfl

theorem filter_not_eq_self_iff {α : Type} (l : List α) (p : α → Bool) :
    (l.filter fun a => !p a) = l ↔ l.filter p = [] := by
  rw [List.filter_eq_self, List.filter_eq_nil_iff]
  simp

theorem clearFirst_sameRows_iff (db : Db) (k : Nat) :
    (db.clearFirst k).SameRows db ↔ NothingDeleted k db := by
  have hrules : db.clearRules.rules.rows = db.rules.rows ↔ db.rules.rows = [] := by
    simp [Db.clearRules, Table.deleteWhere, eq_comm]
  have hrewrites : db.clearRewriteRules.rewriteRules.rows = db.rewriteRules.rows ↔
      db.rewriteRules.rows = [] := by
    simp [Db.clearRewriteRules, Table.deleteWhere, eq_comm]
  have hbackends : db.clearBackends.backends.rows = db.backends.rows ↔
      (db.backends.rows.filter fun r => r.2.protocol = .mysql) = [] := filter_not_eq_self_iff _ _
  have husers : db.clearUsers.users.rows = db.users.rows ↔ db.users.rows = [] := by
    simp [Db.clearUsers, Table.deleteWhere, eq_comm]
  constructor
  · rintro ⟨h1, h2, h3, h4⟩
    match k with
    | 0 => exact ⟨nofun, nofun, nofun, nofun⟩
    | 1 => exact ⟨fun _ => hrules.1 h1, by omega, by omega, by omega⟩
    | 2 => exact ⟨fun _ => hrules.1 h1, fun _ => hrewrites.1 h2, by omega, by omega⟩
    | 3 => exact ⟨fun _ => hrules.1 h1, fun _ => hrewrites.1 h2, fun _ => hbackends.1 h3, by omega⟩
    | k + 4 =>
      exact ⟨fun _ => hrules.1 h1, fun _ => hrewrites.1 h2, fun _ => hbackends.1 h3, fun _ => husers.1 h4⟩
  · rintro ⟨h1, h2, h3, h4⟩
    match k with
    | 0 => exact ⟨rfl, rfl, rfl, rfl⟩
    | 1 => exact ⟨hrules.2 (h1 (by omega)), rfl, rfl, rfl⟩
    | 2 => exact ⟨hrules.2 (h1 (by omega)), hrewrites.2 (h2 (by omega)), rfl, rfl⟩
    | 3 => exact ⟨hrules.2 (h1 (by omega)), hrewrites.2 (h2 (by omega)), hbackends.2 (h3 (by omega)), rfl⟩
    | k + 4 =>
      exact ⟨hrules.2 (h1 (by omega)), hrewrites.2 (h2 (by omega)), hbackends.2 (h3 (by omega)),
        husers.2 (h4 (by omega))⟩

/-- All or nothing: an error leaves the tables as they were, success leaves the imported rows. -/
def AllOrNothing (before : Db) (r : Db × Bool) : Prop :=
  (r.2 = false → r.1.SameRows before) ∧ (r.2 = true → Holds sur nonces c before r.1)

/-- The first five statements are not refused. -/
theorem replaceAll_total {k : Nat} (hk : k ≤ 4) {stmt : Stmt Db}
    (hstmt : (replaceAll sur nonces c authorIp)[k]? = some stmt) (db : Db) : stmt db ≠ none := by
  obtain ⟨first, rest, hcons, -⟩ := insertions_eq_cons sur nonces c authorIp
  rw [replaceAll_eq, hcons] at hstmt
  match k with
  | 0 => obtain rfl := Option.some.inj hstmt; exact Option.some_ne_none _
  | 1 => obtain rfl := Option.some.inj hstmt; exact Option.some_ne_none _
  | 2 => obtain rfl := Option.some.inj hstmt; exact Option.some_ne_none _
  | 3 => obtain rfl := Option.some.inj hstmt; exact Option.some_ne_none _
  | 4 => obtain rfl := Option.some.inj hstmt; exact Option.some_ne_none _

/-- Once a row has been inserted an error cannot leave the tables as they were. -/
theorem not_sameRows_of_five {k : Nat} (hk : 4 < k) {db db' : Db}
    (hrun : runAll ((replaceAll sur nonces c authorIp).take k) db = some db') : ¬ db'.SameRows db := by
  obtain ⟨first, rest, hcons, hfirst⟩ := insertions_eq_cons sur nonces c authorIp
  obtain ⟨n, rfl⟩ : ∃ n, k = 4 + (n + 1) := ⟨k - 5, by omega⟩
  have htake : (replaceAll sur nonces c authorIp).take (4 + (n + 1)) =
      deletions ++ total first :: rest.take n := by
    rw [replaceAll_eq, hcons, show 4 + (n + 1) = deletions.length + (n + 1) from rfl,
      List.take_length_add_append, List.take_succ_cons]
  rw [htake, runAll_append, runAll_deletions, Option.bind_some, runAll_cons, total, Option.bind_some] at hrun
  refine not_sameRows_of_inserted hfirst ?_
  refine runAll_preserves (fun stmt hstmt db₁ db₂ h hext => ?_) hrun (Db.Extends.refl _)
  have hmem : stmt ∈ insertions sur nonces c authorIp := by
    rw [hcons]
    exact List.mem_cons_of_mem _ (List.mem_of_mem_take hstmt)
  exact hext.trans (extends_of_mem_insertions sur nonces c authorIp hmem h)

theorem take_replaceAll {k : Nat} (hk : k ≤ 4) :
    (replaceAll sur nonces c authorIp).take k = deletions.take k := by
  rw [replaceAll_eq]
  exact List.take_append_of_le_length hk

/-- An early failure leaves the database with some tables empty. -/
theorem exec_replaceAll_early {fails : Nat → Bool} (db : Db) {k : Nat} (hk : k ≤ 4)
    (hfails : fails k = true) (hbefore : ∀ j < k, fails j = false) :
    exec fails 0 (replaceAll sur nonces c authorIp) db = (db.clearFirst k, false) := by
  have hlen : k < (replaceAll sur nonces c authorIp).length := by
    rw [length_replaceAll, Records.statements]
    omega
  refine (exec_eq_false_iff _ _ _ _ _).2 ⟨k, _, List.getElem?_eq_getElem hlen, fun j hj => ?_, ?_, ?_⟩
  · rw [Nat.zero_add]
    exact hbefore j hj
  · rw [take_replaceAll sur nonces c authorIp hk, runAll_take_deletions]
  · rw [Nat.zero_add]
    exact Or.inl hfails

/-- Without a failure and with distinct names the import succeeds. -/
theorem exec_replaceAll_smooth {fails : Nat → Bool} (db : Db)
    (hnone : ∀ k < c.statements, fails k = false) (hnames : (c.users.map UserConfig.name).Nodup) :
    ∃ db', exec fails 0 (replaceAll sur nonces c authorIp) db = (db', true) ∧ Holds sur nonces c db db' := by
  obtain ⟨hholds, hnodup⟩ := runAll_replaceAll sur nonces c authorIp db
  obtain ⟨db', hrun⟩ := Option.isSome_iff_exists.1 (hnodup.2 hnames)
  refine ⟨db', (exec_eq_true_iff _ _ _ _ _).2 ⟨fun k hk => ?_, hrun⟩, hholds db' hrun⟩
  rw [Nat.zero_add]
  exact hnone k (length_replaceAll sur nonces c authorIp ▸ hk)

/-- `replace_all` is all or nothing exactly when no statement fails and the imported users have distinct
names, or a statement fails before anything is inserted and the deletions before it had nothing to
delete. -/
theorem allOrNothing_iff (fails : Nat → Bool) (db : Db) :
    AllOrNothing sur nonces c db (exec fails 0 (replaceAll sur nonces c authorIp) db) ↔
      ((∀ k < c.statements, fails k = false) ∧ (c.users.map UserConfig.name).Nodup) ∨
      ∃ k ≤ 4, fails k = true ∧ (∀ j < k, fails j = false) ∧ NothingDeleted k db := by
  obtain ⟨-, hnodup⟩ := runAll_replaceAll sur nonces c authorIp db
  constructor
  · intro hatomic
    cases hexec : exec fails 0 (replaceAll sur nonces c authorIp) db with
    | mk db' succeeded =>
      rw [hexec] at hatomic
      cases succeeded with
      | true =>
        obtain ⟨hnone, hrun⟩ := (exec_eq_true_iff _ _ _ _ _).1 hexec
        refine Or.inl ⟨fun k hk => ?_, hnodup.1 (Option.isSome_of_eq_some hrun)⟩
        rw [← Nat.zero_add k]
        exact hnone k (length_replaceAll sur nonces c authorIp ▸ hk)
      | false =>
        obtain ⟨k, stmt, hstmt, hbefore, hrun, hstop⟩ := (exec_eq_false_iff _ _ _ _ _).1 hexec
        have hsame : db'.SameRows db := hatomic.1 rfl
        have hk : k ≤ 4 := by
          by_contra hlate
          exact not_sameRows_of_five sur nonces c authorIp (Nat.lt_of_not_le hlate) hrun hsame
        simp only [Nat.zero_add] at hbefore hstop
        refine Or.inr ⟨k, hk, ?_, hbefore, ?_⟩
        · exact hstop.resolve_right (replaceAll_total sur nonces c authorIp hk hstmt db')
        · rw [take_replaceAll sur nonces c authorIp hk, runAll_take_deletions] at hrun
          obtain rfl := Option.some.inj hrun
          exact (clearFirst_sameRows_iff db k).1 hsame
  · rintro (⟨hnone, hnames⟩ | ⟨k, hk, hfails, hbefore, hnothing⟩)
    · obtain ⟨db', hexec, hholds⟩ := exec_replaceAll_smooth sur nonces c authorIp db hnone hnames
      rw [hexec]
      exact ⟨nofun, fun _ => hholds⟩
    · rw [exec_replaceAll_early sur nonces c authorIp db hk hfails hbefore]
      exact ⟨fun _ => (clearFirst_sameRows_iff db k).2 hnothing, nofun⟩

end Replace

/-! ## An import with a name twice -/

/-- A plain backend. -/
def backendAt (addr : String) : BackendConfig where
  addr := addr.toList
  user := []
  password := []
  database := none
  tlsMode := .off
  tlsCa := none
  tlsCert := none
  tlsKey := none
  weight := 100
  backup := false
  initConnect := []
  compression := .none
  resolutionFamily := "system".toList
  sslKeylogFile := []
  maxConnections := none

/-- A rule for one fingerprint. -/
def digestRule : QueryRuleConfig where
  matchPattern := none
  matchDigest := some "SELECT ?".toList
  user := []
  schema := []
  destination := .replica
  cacheTtlSecs := 0
  comment := []
  mirrorTo := none
  destinationHostgroup := none
  rolloutPct := none
  qpsLimit := none
  dryRun := false
  fastForward := false

/-- A nonce, of zeros. -/
def zeroNonce : Nonce := ⟨List.replicate 12 0, rfl⟩

/-- A configuration with two users of one name. -/
def nameTwice : Records where
  rules := []
  rewriteRules := []
  primary := backendAt "db:3306"
  replicas := []
  users := List.replicate 2 ⟨"app".toList, "apppass".toList, true, 0, [], []⟩

/-- The import fails, and the rule that was there is gone. -/
theorem nameTwice_loses_rule :
    ¬ ∀ (c : Records) (db : Db), AllOrNothing bareSurroundings (fun _ => zeroNonce) c db
      (exec (fun _ => false) 0 (replaceAll bareSurroundings (fun _ => zeroNonce) c []) db) := by
  intro hclaim
  have hsame := (hclaim nameTwice (Db.empty.insertRule (digestRule.row 0))).1 rfl
  have hgone : (exec (fun _ => false) 0 (replaceAll bareSurroundings (fun _ => zeroNonce) nameTwice [])
      (Db.empty.insertRule (digestRule.row 0))).1.rules.rows = [] := rfl
  rw [hsame.rules] at hgone
  cases hgone

end TurbineProxy.Config
