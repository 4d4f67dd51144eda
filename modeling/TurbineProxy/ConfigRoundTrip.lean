import TurbineProxy.ConfigReplace

/-!
# What the store gives back

The two writers of the store, `seed_if_empty` and `replace_all`, against its readers. `lossless_iff` says
which configurations come back as they were written: those that use none of the fields the tables have no
column for, with the users in the order of their names.
-/

namespace TurbineProxy.Config

open Sql

/-! ## The property -/

/-- The same backend; the password may be stored in another way. -/
structure SameBackend (sur : Surroundings) (b b' : BackendConfig) : Prop where
  fields : { b with password := b'.password } = b'
  password : b.resolvedPassword sur = b'.resolvedPassword sur

/-- The same user; the password may be stored in another way. -/
structure SameUser (sur : Surroundings) (u u' : UserConfig) : Prop where
  fields : { u with password := u'.password } = u'
  password : u.resolvedPassword sur = u'.resolvedPassword sur

/-- The store gives back what was configured. -/
structure Lossless (sur : Surroundings) (c : Records) (db : Db) : Prop where
  rules : activeQueryRules db = c.rules
  rewriteRules : activeRewriteRules db = c.rewriteRules
  primary : ∃ b, (activeBackends db .mysql).1 = some b ∧ SameBackend sur b c.primary
  replicas : List.Forall₂ (SameBackend sur) (activeBackends db .mysql).2 c.replicas
  users : List.Forall₂ (SameUser sur) (activeUsers db) c.users

/-- A rule without the fields that have no column. -/
structure QueryRuleConfig.Plain (r : QueryRuleConfig) : Prop where
  qpsLimit : r.qpsLimit = none
  dryRun : r.dryRun = false
  fastForward : r.fastForward = false

/-- A backend without the fields that have no column. -/
structure BackendConfig.Plain (b : BackendConfig) : Prop where
  tlsCa : b.tlsCa = none
  tlsCert : b.tlsCert = none
  tlsKey : b.tlsKey = none
  initConnect : b.initConnect = []
  compression : b.compression = .none
  resolutionFamily : b.resolutionFamily = "system".toList
  sslKeylogFile : b.sslKeylogFile = []
  maxConnections : b.maxConnections = none

/-- A user without the fields that have no column. -/
structure UserConfig.Plain (u : UserConfig) : Prop where
  defaultSchema : u.defaultSchema = []
  transactionIsolation : u.transactionIsolation = []

/-- The configurations the store can hold. -/
structure Storable (c : Records) : Prop where
  rules : ∀ r ∈ c.rules, r.Plain
  backends : ∀ b ∈ c.primary :: c.replicas, b.Plain
  users : ∀ u ∈ c.users, u.Plain
  /-- every user once, in the order of the names -/
  names : (c.users.map UserConfig.name).Pairwise (· < ·)

/-- The tables `seed_if_empty` and `replace_all` write have no rows. -/
structure Db.NoRows (db : Db) : Prop where
  rules : db.rules.rows = []
  rewriteRules : db.rewriteRules.rows = []
  backends : (db.backends.rows.filter fun r => r.2.protocol = .mysql) = []
  users : db.users.rows = []

/-- The databases one of the writers leaves when all its statements succeed. -/
inductive Written (sur : Surroundings) (c : Records) (db : Db) : Prop where
  | seeded (nonces userNonces : Nat → Nonce) (fails : Nat → Bool) (before : Db) (hempty : before.NoRows)
    (h : exec fails 0 (seedIfEmpty sur nonces userNonces c before) before = (db, true))
  | replaced (nonces : Nat → Nonce) (authorIp : Str) (fails : Nat → Bool) (before : Db)
    (h : exec fails 0 (replaceAll sur nonces c authorIp) before = (db, true))

/-! ## What is always lost -/

theorem RuleRow.config_plain (r : RuleRow) : r.config.Plain := ⟨rfl, rfl, rfl⟩

theorem BackendRow.config_plain (r : BackendRow) : r.config.Plain := ⟨rfl, rfl, rfl, rfl, rfl, rfl, rfl, rfl⟩

theorem UserRow.config_plain (r : UserRow) : r.config.Plain := ⟨rfl, rfl⟩

theorem SameBackend.plain {sur : Surroundings} {b b' : BackendConfig} (h : SameBackend sur b b')
    (hb : b.Plain) : b'.Plain := by
  rw [← h.fields]
  exact ⟨hb.tlsCa, hb.tlsCert, hb.tlsKey, hb.initConnect, hb.compression, hb.resolutionFamily,
    hb.sslKeylogFile, hb.maxConnections⟩

theorem SameUser.plain {sur : Surroundings} {u u' : UserConfig} (h : SameUser sur u u')
    (hu : u.Plain) : u'.Plain := by
  rw [← h.fields]
  exact ⟨hu.defaultSchema, hu.transactionIsolation⟩

theorem SameUser.name {sur : Surroundings} {u u' : UserConfig} (h : SameUser sur u u') :
    u.name = u'.name := by
  rw [← h.fields]

theorem forall₂_mem_right {α β : Type} {R : α → β → Prop} {l : List α} {l' : List β}
    (h : List.Forall₂ R l l') {b : β} (hb : b ∈ l') : ∃ a ∈ l, R a b := by
  induction h with
  | nil => cases hb
  | cons hhead _ ih =>
    rcases List.mem_cons.1 hb with rfl | htail
    · exact ⟨_, List.mem_cons_self, hhead⟩
    · obtain ⟨a, ha, hR⟩ := ih htail
      exact ⟨a, List.mem_cons_of_mem _ ha, hR⟩

/-- The primary is the last of its role, the replicas are the others. -/
theorem splitRoles_eq (l : List (Int × BackendRow)) (found : Option BackendConfig × List BackendConfig) :
    splitRoles l found =
      (((l.filter fun r => r.2.role = "primary".toList).getLast?.map fun r => r.2.config).or found.1,
        found.2 ++ (l.filter fun r => !decide (r.2.role = "primary".toList)).map fun r => r.2.config) := by
  induction l generalizing found with
  | nil => simp [splitRoles]
  | cons r rest ih =>
    rw [splitRoles]
    by_cases hrole : r.2.role = "primary".toList
    · rw [if_pos hrole, ih]
      simp only [List.filter_cons, hrole, decide_true, if_true, Bool.not_true, Bool.false_eq_true, if_false,
        List.getLast?_cons, Option.map_some, Option.some_or, Prod.mk.injEq, and_true]
      cases rest.filter (fun r => decide (r.2.role = "primary".toList)) |>.getLast? with
      | none => rfl
      | some last => rfl
    · rw [if_neg hrole, ih]
      simp only [List.filter_cons, hrole, decide_false, Bool.false_eq_true, if_false, Bool.not_false,
        if_true, List.map_cons, List.append_assoc, List.singleton_append]

theorem activeBackends_plain (db : Db) (protocol : Protocol) :
    (∀ b, (activeBackends db protocol).1 = some b → b.Plain) ∧
      ∀ b ∈ (activeBackends db protocol).2, b.Plain := by
  rw [activeBackends, splitRoles_eq]
  refine ⟨fun b hb => ?_, fun b hb => ?_⟩
  · rw [Option.or_none] at hb
    obtain ⟨r, -, rfl⟩ := Option.map_eq_some_iff.1 hb
    exact r.2.config_plain
  · rw [List.nil_append] at hb
    obtain ⟨r, -, rfl⟩ := List.mem_map.1 hb
    exact r.2.config_plain

/-- The names the store gives back are in order, each once. -/
theorem activeUsers_ascending (db : Db) : ((activeUsers db).map UserConfig.name).Pairwise (· < ·) := by
  have hnames : (activeUsers db).map UserConfig.name =
      ((listUsers db).filter fun r => r.2.enabled).map fun r => r.2.name := by
    simp only [activeUsers, List.map_map]
    rfl
  have hsorted : (listUsers db).Pairwise fun r r' => r.2.name ≤ r'.2.name :=
    (orderBy_pairwise UserRow.name db.users.rows).imp fun {r r'} hle => by
      rcases (rank_le_iff _ r r').1 hle with hlt | ⟨heq, -⟩
      · exact le_of_lt hlt
      · exact le_of_eq heq
  have hunique : (listUsers db).Pairwise fun r r' => r.2.name ≠ r'.2.name := by
    have hnodup : ((listUsers db).map fun r => r.2.name).Nodup := by
      rw [listUsers, ((orderBy_perm UserRow.name db.users.rows).map fun r => r.2.name).nodup_iff]
      have := db.unique
      rwa [Table.contents, List.map_map] at this
    exact List.pairwise_map.1 hnodup
  rw [hnames, List.pairwise_map]
  exact (hsorted.and hunique).filter _ |>.imp fun h => lt_of_le_of_ne h.1 h.2

theorem Lossless.storable {sur : Surroundings} {c : Records} {db : Db} (h : Lossless sur c db) :
    Storable c := by
  have hbackends := activeBackends_plain db .mysql
  refine ⟨fun r hr => ?_, fun b hb => ?_, fun u hu => ?_, ?_⟩
  · rw [← h.rules] at hr
    obtain ⟨row, -, rfl⟩ := List.mem_map.1 hr
    exact row.2.config_plain
  · rcases List.mem_cons.1 hb with rfl | hreplica
    · obtain ⟨b', hb', hsame⟩ := h.primary
      exact hsame.plain (hbackends.1 b' hb')
    · obtain ⟨b', hb', hsame⟩ := forall₂_mem_right h.replicas hreplica
      exact hsame.plain (hbackends.2 b' hb')
  · obtain ⟨u', hu', hsame⟩ := forall₂_mem_right h.users hu
    obtain ⟨row, -, rfl⟩ := List.mem_map.1 hu'
    exact hsame.plain row.2.config_plain
  · have hnames : (activeUsers db).map UserConfig.name = c.users.map UserConfig.name := by
      refine List.forall₂_eq_eq_eq ▸ ?_
      exact List.forall₂_map_left_iff.2 (List.forall₂_map_right_iff.2 (h.users.imp fun _ _ hu => hu.name))
    rw [← hnames]
    exact activeUsers_ascending db

/-! ## What is written -/

/-- A row that keeps the user, with a password of the same worth. -/
def Keeps (sur : Surroundings) (row : UserRow) (u : UserConfig) : Prop :=
  ∃ password, row = u.row password ∧ resolveSecret sur password = resolveSecret sur u.password

/-- The tables hold the rows of a configuration. -/
structure Wrote (sur : Surroundings) (c : Records) (db : Db) : Prop where
  rules : db.rules.contents = c.ruleRows
  rewriteRules : db.rewriteRules.contents = c.rewriteRows
  backends : ∃ nonces, (db.backends.rows.filter fun r => r.2.protocol = .mysql).map Prod.snd =
    c.backendRows sur nonces
  users : List.Forall₂ (Keeps sur) db.users.contents c.users

theorem userRows_keep (sur : Surroundings) (c : Records) : List.Forall₂ (Keeps sur) c.userRows c.users := by
  rw [Records.userRows, List.forall₂_map_left_iff, List.forall₂_same]
  exact fun u _ => ⟨u.password, rfl, rfl⟩

theorem seededUserRows_keep (sur : Surroundings) (userNonces : Nat → Nonce) (c : Records) :
    List.Forall₂ (Keeps sur) (c.seededUserRows sur userNonces) c.users := by
  refine List.forall₂_iff_get.2 ⟨List.length_mapIdx, fun i hrow hu => ?_⟩
  simp only [Records.seededUserRows, List.get_eq_getElem, List.getElem_mapIdx]
  exact ⟨_, rfl, resolveSecret_prepareForStorage sur _ _⟩

theorem foldl_insertUserOrIgnore (rows : List UserRow) (db : Db)
    (hnodup : (db.users.contents.map UserRow.name ++ rows.map UserRow.name).Nodup) :
    (rows.foldl Db.insertUserOrIgnore db).users.contents = db.users.contents ++ rows ∧
      (rows.foldl Db.insertUserOrIgnore db).rules = db.rules ∧
      (rows.foldl Db.insertUserOrIgnore db).rewriteRules = db.rewriteRules ∧
      (rows.foldl Db.insertUserOrIgnore db).backends = db.backends := by
  induction rows generalizing db with
  | nil => exact ⟨(List.append_nil _).symm, rfl, rfl, rfl⟩
  | cons row rows ih =>
    have hnew : row.name ∉ db.users.contents.map UserRow.name := fun hold =>
      (List.nodup_append.1 hnodup).2.2 _ hold _ List.mem_cons_self rfl
    obtain ⟨next, hnext⟩ := Option.isSome_iff_exists.1 ((db.insertUser_isSome_iff row).2 hnew)
    obtain ⟨husers, hrules, hrewrites, hbackends⟩ := Db.insertUser_eq hnext
    have hstep : db.insertUserOrIgnore row = next := by rw [Db.insertUserOrIgnore, hnext, Option.getD_some]
    have hcontents : next.users.contents = db.users.contents ++ [row] := by
      rw [husers, Table.contents_insert]
    obtain ⟨h1, h2, h3, h4⟩ := ih next (by
      rw [hcontents, List.map_append, List.append_assoc]
      exact hnodup)
    rw [List.foldl_cons, hstep]
    refine ⟨?_, h2.trans hrules, h3.trans hrewrites, h4.trans hbackends⟩
    rw [h1, hcontents, List.append_assoc, List.singleton_append]

theorem wrote_of_seeded {sur : Surroundings} {nonces userNonces : Nat → Nonce} {c : Records}
    {before db : Db} (hempty : before.NoRows) (hnames : (c.users.map UserConfig.name).Nodup)
    (hrun : runAll (seedIfEmpty sur nonces userNonces c before) before = some db) : Wrote sur c db := by
  let db₁ : Db := { before with
    rules := before.rules.insertAll c.ruleRows
    rewriteRules := before.rewriteRules.insertAll c.rewriteRows
    backends := before.backends.insertAll (c.backendRows sur nonces) }
  have hrows : before.rules.contents = [] ∧ before.rewriteRules.contents = [] ∧
      before.users.contents = [] := by
    refine ⟨?_, ?_, ?_⟩
    · rw [Table.contents, hempty.rules, List.map_nil]
    · rw [Table.contents, hempty.rewriteRules, List.map_nil]
    · rw [Table.contents, hempty.users, List.map_nil]
  have hseeded : db = (c.seededUserRows sur userNonces).foldl Db.insertUserOrIgnore db₁ := by
    simp only [seedIfEmpty, ifEmpty, hempty.rules, hempty.rewriteRules, hempty.backends, hempty.users,
      List.isEmpty_nil, if_true, List.cons_append, List.append_assoc, runAll_cons, runAll_append,
      Option.bind_some, runAll_each, foldl_insertRule, foldl_insertRewriteRule, foldl_insertBackend] at hrun
    exact (Option.some.inj hrun).symm
  have hnodup : (db₁.users.contents.map UserRow.name ++
      (c.seededUserRows sur userNonces).map UserRow.name).Nodup := by
    have hsame : (c.seededUserRows sur userNonces).map UserRow.name = c.users.map UserConfig.name :=
      map_mapIdx _ _ _ fun _ _ _ => rfl
    rw [show db₁.users.contents = [] from hrows.2.2, hsame]
    exact hnames
  obtain ⟨husers, hrules, hrewrites, hbackends⟩ := foldl_insertUserOrIgnore _ _ hnodup
  rw [← hseeded] at husers hrules hrewrites hbackends
  refine ⟨?_, ?_, ⟨nonces, ?_⟩, ?_⟩
  · rw [hrules, Table.contents_insertAll, hrows.1, List.nil_append]
  · rw [hrewrites, Table.contents_insertAll, hrows.2.1, List.nil_append]
  · obtain ⟨new, hnew, hcontents⟩ := before.backends.insertAll_rows (c.backendRows sur nonces)
    have hmysql : ∀ r ∈ new, r.2.protocol = .mysql := fun r hr =>
      backendRows_mysql sur nonces c r.2 (hcontents ▸ List.mem_map_of_mem hr)
    have hall : (new.filter fun r => decide (r.2.protocol = .mysql)) = new :=
      List.filter_eq_self.2 fun r hr => decide_eq_true (hmysql r hr)
    rw [hbackends, hnew, List.filter_append, hempty.backends, hall, List.nil_append, hcontents]
  · rw [husers, show db₁.users.contents = [] from hrows.2.2, List.nil_append]
    exact seededUserRows_keep sur userNonces c

/-- A configuration with distinct user names is written whole. -/
theorem Written.wrote {sur : Surroundings} {c : Records} {db : Db} (h : Written sur c db)
    (hnames : (c.users.map UserConfig.name).Nodup) : Wrote sur c db := by
  cases h with
  | seeded nonces userNonces fails before hempty h =>
    exact wrote_of_seeded hempty hnames ((exec_eq_true_iff _ _ _ _ _).1 h).2
  | replaced nonces authorIp fails before h =>
    have hholds := (runAll_replaceAll sur nonces c authorIp before).1 db ((exec_eq_true_iff _ _ _ _ _).1 h).2
    refine ⟨hholds.rules, hholds.rewriteRules, ⟨nonces, hholds.backends⟩, ?_⟩
    rw [hholds.users]
    exact userRows_keep sur c

/-! ## What is read back -/

theorem mapIdx_pairwise {α β : Type} (f : Nat → α → β) (key : β → Int) (hkey : ∀ i a, key (f i a) = i)
    (l : List α) : (l.mapIdx f).Pairwise fun b b' => key b < key b' := by
  refine List.pairwise_iff_getElem.2 fun i j hi hj hij => ?_
  rw [List.getElem_mapIdx, List.getElem_mapIdx, hkey, hkey]
  exact Int.ofNat_lt.2 hij

theorem QueryRuleConfig.config_row (i : Nat) {r : QueryRuleConfig} (h : r.Plain) : (r.row i).config = r := by
  obtain ⟨pattern, digest, user, schema, destination, ttl, comment, mirror, hostgroup, rollout, qps, dry,
    fast⟩ := r
  obtain ⟨rfl, rfl, rfl⟩ := h
  have hdest : (QueryRuleConfig.row i ⟨pattern, digest, user, schema, destination, ttl, comment, mirror,
      hostgroup, rollout, none, false, false⟩).config.destination = destination := by
    cases destination with
    | any => rfl
    | primary => rfl
    | replica => rfl
  have hgroup : ((hostgroup.map fun v => v.toUInt64.toInt64).map asU32) = hostgroup := by
    simp [asU32, Function.comp_def]
  have hrollout : ((rollout.map fun v => v.toUInt64.toInt64).map asU8) = rollout := by
    simp [asU8, Function.comp_def]
  simp only [RuleRow.config, QueryRuleConfig.row] at hdest ⊢
  rw [hdest, hgroup, hrollout]
  rfl

theorem QueryRewriteConfig.config_row (i : Nat) (r : QueryRewriteConfig) : (r.row i).config = r := by
  obtain ⟨pattern, replacement, limit, timeout, block, comment⟩ := r
  simp [RewriteRuleRow.config, QueryRewriteConfig.row, asU32, Function.comp_def]

theorem activeQueryRules_eq {db : Db} {c : Records} (hrows : db.rules.contents = c.ruleRows)
    (hplain : ∀ r ∈ c.rules, r.Plain) : activeQueryRules db = c.rules := by
  have hcontents : db.rules.contents.Pairwise fun b b' => b.priority < b'.priority := by
    rw [hrows]
    exact mapIdx_pairwise QueryRuleConfig.row RuleRow.priority (fun _ _ => rfl) _
  have hkeys : db.rules.rows.Pairwise fun r r' => r.2.priority < r'.2.priority := by
    rwa [Table.contents, List.pairwise_map] at hcontents
  have henabled : ∀ r ∈ db.rules.rows, r.2.enabled = true := fun r hr => by
    have hmem : r.2 ∈ c.ruleRows := hrows ▸ List.mem_map_of_mem hr
    obtain ⟨i, hi, hrow⟩ := List.mem_mapIdx.1 hmem
    rw [← hrow]
    rfl
  rw [activeQueryRules, listRules, orderBy_of_ascending _ hkeys, List.filter_eq_self.2 henabled]
  calc db.rules.rows.map (fun r => r.2.config) = db.rules.contents.map RuleRow.config := by
        rw [Table.contents, List.map_map]
        rfl
    _ = c.rules := by
        rw [hrows]
        exact (map_mapIdx _ _ id fun r hr i => QueryRuleConfig.config_row i (hplain r hr)).trans
          (List.map_id _)

theorem activeRewriteRules_eq {db : Db} {c : Records} (hrows : db.rewriteRules.contents = c.rewriteRows) :
    activeRewriteRules db = c.rewriteRules := by
  have hcontents : db.rewriteRules.contents.Pairwise fun b b' => b.priority < b'.priority := by
    rw [hrows]
    exact mapIdx_pairwise QueryRewriteConfig.row RewriteRuleRow.priority (fun _ _ => rfl) _
  have hkeys : db.rewriteRules.rows.Pairwise fun r r' => r.2.priority < r'.2.priority := by
    rwa [Table.contents, List.pairwise_map] at hcontents
  have henabled : ∀ r ∈ db.rewriteRules.rows, r.2.enabled = true := fun r hr => by
    have hmem : r.2 ∈ c.rewriteRows := hrows ▸ List.mem_map_of_mem hr
    obtain ⟨i, hi, hrow⟩ := List.mem_mapIdx.1 hmem
    rw [← hrow]
    rfl
  rw [activeRewriteRules, listRewriteRules, orderBy_of_ascending _ hkeys, List.filter_eq_self.2 henabled]
  calc db.rewriteRules.rows.map (fun r => r.2.config) = db.rewriteRules.contents.map RewriteRuleRow.config := by
        rw [Table.contents, List.map_map]
        rfl
    _ = c.rewriteRules := by
        rw [hrows]
        exact (map_mapIdx _ _ id fun r _ i => QueryRewriteConfig.config_row i r).trans (List.map_id _)

theorem BackendConfig.config_row {sur : Surroundings} (nonce : Nonce) (role : Str) {b : BackendConfig}
    (h : b.Plain) : SameBackend sur (b.row sur nonce role).config b := by
  obtain ⟨addr, user, password, database, tls, ca, cert, key, weight, backup, init, compression, family,
    keylog, cap⟩ := b
  obtain ⟨rfl, rfl, rfl, rfl, rfl, rfl, rfl, rfl⟩ := h
  refine ⟨?_, resolveSecret_prepareForStorage sur _ _⟩
  simp only [BackendRow.config, BackendConfig.row, asU32, UInt64.toUInt64_toInt64,
    UInt32.toUInt32_toUInt64]
  cases tls with
  | off => rfl
  | required => rfl
  | verifyCa => rfl
  | verifyIdentity => rfl

theorem UserConfig.config_row {sur : Surroundings} {row : UserRow} {u : UserConfig}
    (hkeeps : Keeps sur row u) (h : u.Plain) : SameUser sur row.config u := by
  obtain ⟨password, rfl, hworth⟩ := hkeeps
  obtain ⟨name, own, writes, cap, schema, isolation⟩ := u
  obtain ⟨rfl, rfl⟩ := h
  exact ⟨rfl, hworth⟩

/-- The rows of the backends are the one of the primary and those of the replicas. -/
theorem activeBackends_eq {db : Db} {sur : Surroundings} {nonces : Nat → Nonce} {c : Records}
    (hrows : (db.backends.rows.filter fun r => r.2.protocol = .mysql).map Prod.snd =
      c.backendRows sur nonces) :
    activeBackends db .mysql = (some (c.primary.row sur (nonces 0) "primary".toList).config,
      (c.replicaRows sur nonces).map BackendRow.config) := by
  obtain ⟨first, rest, hsplit, hfirst, hrest⟩ := List.map_eq_cons_iff.1 hrows
  have hids : (first :: rest).Pairwise fun r r' => r.1 < r'.1 := hsplit ▸ db.backends.ascending.filter _
  have hreplica : ∀ r ∈ rest, r.2.role = "replica".toList ∧ r.2.enabled = true := fun r hr => by
    have hmem : r.2 ∈ c.replicaRows sur nonces := hrest ▸ List.mem_map_of_mem hr
    obtain ⟨i, hi, hrow⟩ := List.mem_mapIdx.1 hmem
    rw [← hrow]
    exact ⟨rfl, rfl⟩
  have hprimary : first.2.role = "primary".toList := by rw [hfirst]; rfl
  have henabled : (listBackends db .mysql).filter (fun r => r.2.enabled) = listBackends db .mysql := by
    refine List.filter_eq_self.2 fun r hr => ?_
    rw [listBackends, hsplit, mem_orderBy] at hr
    rcases List.mem_cons.1 hr with rfl | hr
    · rw [hfirst]
      rfl
    · exact (hreplica r hr).2
  have hnot : ∀ r ∈ rest, decide (r.2.role = "primary".toList) = false := fun r hr => by
    rw [(hreplica r hr).1]
    rfl
  have hprimaries : (listBackends db .mysql).filter (fun r => r.2.role = "primary".toList) = [first] := by
    rw [listBackends, hsplit, filter_orderBy _ hids, List.filter_cons, if_pos (decide_eq_true hprimary),
      List.filter_eq_nil_iff.2 fun r hr => by rw [hnot r hr]; exact Bool.false_ne_true]
    rfl
  have hreplicas : (listBackends db .mysql).filter (fun r => !decide (r.2.role = "primary".toList)) =
      rest := by
    rw [listBackends, hsplit, filter_orderBy _ hids, List.filter_cons, hprimary,
      List.filter_eq_self.2 fun r hr => by rw [hnot r hr]; rfl]
    exact orderBy_of_constant _ (List.pairwise_cons.1 hids).2 fun r hr =>
      congrArg OrderDual.toDual (hreplica r hr).1
  rw [activeBackends, henabled, splitRoles_eq, hprimaries, hreplicas, ← hrest, List.map_map]
  rw [← hfirst]
  rfl

theorem activeUsers_keep {db : Db} {sur : Surroundings} {c : Records}
    (hrows : List.Forall₂ (Keeps sur) db.users.contents c.users)
    (hnames : (c.users.map UserConfig.name).Pairwise (· < ·)) (hplain : ∀ u ∈ c.users, u.Plain) :
    List.Forall₂ (SameUser sur) (activeUsers db) c.users := by
  have hsame : db.users.contents.map UserRow.name = c.users.map UserConfig.name := by
    refine List.forall₂_eq_eq_eq ▸ List.forall₂_map_left_iff.2 (List.forall₂_map_right_iff.2 ?_)
    refine hrows.imp fun row u hkeeps => ?_
    obtain ⟨password, rfl, -⟩ := hkeeps
    rfl
  have hkeys : db.users.rows.Pairwise fun r r' => r.2.name < r'.2.name := by
    rw [← hsame, Table.contents, List.map_map, List.pairwise_map] at hnames
    exact hnames
  have henabled : ∀ r ∈ db.users.rows, r.2.enabled = true := fun r hr => by
    obtain ⟨u, -, password, hrow, -⟩ :=
      forall₂_mem_right (List.Forall₂.flip (R := flip (Keeps sur)) hrows) (List.mem_map_of_mem hr)
    rw [hrow]
    rfl
  have hactive : activeUsers db = db.users.contents.map UserRow.config := by
    rw [activeUsers, listUsers, orderBy_of_ascending _ hkeys, List.filter_eq_self.2 henabled, Table.contents,
      List.map_map]
    rfl
  rw [hactive, List.forall₂_map_left_iff]
  refine List.forall₂_iff_zip.2 ⟨hrows.length_eq, fun {row u} hmem => ?_⟩
  exact UserConfig.config_row (List.forall₂_zip hrows hmem) (hplain u (List.of_mem_zip hmem).2)

/-- The store gives back exactly the configurations that use no field without a column and have their
users in the order of their names. -/
theorem lossless_iff {sur : Surroundings} {c : Records} {db : Db} (h : Written sur c db) :
    Lossless sur c db ↔ Storable c := by
  refine ⟨Lossless.storable, fun hstorable => ?_⟩
  have hnodup : (c.users.map UserConfig.name).Nodup := hstorable.names.imp fun hlt => ne_of_lt hlt
  obtain ⟨hrules, hrewrites, ⟨nonces, hbackends⟩, husers⟩ := h.wrote hnodup
  have hactive := activeBackends_eq hbackends
  refine ⟨activeQueryRules_eq hrules hstorable.rules, activeRewriteRules_eq hrewrites, ?_, ?_, ?_⟩
  · refine ⟨_, congrArg Prod.fst hactive, ?_⟩
    exact BackendConfig.config_row _ _ (hstorable.backends _ List.mem_cons_self)
  · rw [hactive, List.forall₂_map_left_iff, Records.replicaRows]
    refine List.forall₂_iff_get.2 ⟨List.length_mapIdx, fun i hrow hb => ?_⟩
    simp only [List.get_eq_getElem, List.getElem_mapIdx]
    exact BackendConfig.config_row _ _
      (hstorable.backends _ (List.mem_cons_of_mem _ (List.getElem_mem _)))
  · exact activeUsers_keep husers hstorable.names hstorable.users

/-! ## A rate limit -/

/-- A configuration with the plain rule and the plain backend. -/
def plainRecords : Records := ⟨[digestRule], [], backendAt "db:3306", [], []⟩

/-- The same with ten queries per second for the rule. -/
def limitedRecords : Records := { plainRecords with rules := [{ digestRule with qpsLimit := some 10 }] }

theorem written_plainRecords : ∃ db, Written bareSurroundings plainRecords db :=
  ⟨_, .replaced (fun _ => zeroNonce) [] (fun _ => false) Db.empty rfl⟩

theorem lossless_iff_plainRecords : ∃ db, Lossless bareSurroundings plainRecords db := by
  obtain ⟨db, hdb⟩ := written_plainRecords
  refine ⟨db, (lossless_iff hdb).2 ⟨?_, ?_, ?_, List.Pairwise.nil⟩⟩
  · intro r hr
    obtain rfl := List.mem_singleton.1 hr
    exact ⟨rfl, rfl, rfl⟩
  · intro b hb
    obtain rfl := List.mem_singleton.1 hb
    exact ⟨rfl, rfl, rfl, rfl, rfl, rfl, rfl, rfl⟩
  · exact fun u hu => absurd hu List.not_mem_nil

/-- The limit does not survive an import. -/
theorem qpsLimit_lost :
    ¬ ∀ (c : Records) (db : Db), Written bareSurroundings c db → Lossless bareSurroundings c db := by
  intro hclaim
  have hwritten : Written bareSurroundings limitedRecords
      (exec (fun _ => false) 0 (replaceAll bareSurroundings (fun _ => zeroNonce) limitedRecords []) Db.empty).1 :=
    .replaced (fun _ => zeroNonce) [] (fun _ => false) Db.empty rfl
  have hrules := (hclaim _ _ hwritten).storable.rules _ (List.mem_singleton_self _)
  exact absurd hrules.qpsLimit (by decide)

end TurbineProxy.Config
