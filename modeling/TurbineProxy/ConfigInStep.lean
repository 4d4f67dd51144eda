import TurbineProxy.ConfigApi

/-!
# Store and engines in step

`InStep` is the property: the rules that decide on queries are the compilation of the enabled rows of the
store. `step_answered` is one request, `inStep_run` a whole run.
-/

namespace TurbineProxy.Config

open Sql

variable {Rest PgRest : Type} (pf : Platform Rest PgRest)

/-! ## The property -/

/-- The engines are the compilation of the enabled rows, in order. -/
structure InStep (s : Dashboard) : Prop where
  rules : compileRules pf.regex (activeQueryRules s.store) = some (s.ruleEngine.map unused)
  rewriteRules : compileRewriteRules pf.regex (activeRewriteRules s.store) = some s.rewriter

/-- Neither the store nor the engines have changed. -/
structure Unchanged (s s' : Dashboard) : Prop where
  rows : s'.store.SameRows s.store
  changes : s'.store.changes.rows = s.store.changes.rows
  ruleEngine : s'.ruleEngine = s.ruleEngine
  rewriter : s'.rewriter = s.rewriter

/-- What a request must leave: engines in step, and nothing changed if it is answered with an error. -/
def Answered (s : Dashboard) (r : Dashboard × Bool) : Prop :=
  InStep pf r.1 ∧ (r.2 = false → Unchanged s r.1)

/-- None of the first `n` statements fails, or the first that does is one of the queries before the first
write, or this write. -/
def Smooth (fails : Nat → Bool) (queries n : Nat) : Prop :=
  (∀ k < n, fails k = false) ∨ ∃ k ≤ queries, fails k = true ∧ ∀ j < k, fails j = false

/-- The same for an import, whose first writes are deletions: they may have had nothing to delete. -/
def SmoothImport (fails : Nat → Bool) (c : Records) (store : Db) : Prop :=
  ((∀ k < c.statements + 2, fails k = false) ∧ (c.users.map UserConfig.name).Nodup) ∨
  ∃ k ≤ 4, fails k = true ∧ (∀ j < k, fails j = false) ∧ NothingDeleted k store

/-- The requests that are handled well: the query rules they enable compile. -/
def Request.Sound (env : Circumstances) (store : Db) : Request → Prop
  | .createRule row => (row.enabled = true → Valid pf.regex row.matchPattern) ∧ Smooth env.fails 0 3
  | .updateRule id row =>
    (row.enabled = true → (∃ r ∈ store.rules.rows, r.1 = id) → Valid pf.regex row.matchPattern) ∧
      Smooth env.fails 1 4
  | .deleteRule _ => Smooth env.fails 1 4
  | .createRewriteRule row => (pf.regex row.matchPattern).isSome → Smooth env.fails 0 3
  | .updateRewriteRule _ row => (pf.regex row.matchPattern).isSome → Smooth env.fails 1 4
  | .deleteRewriteRule _ => Smooth env.fails 1 4
  | .importText body => ∀ cfg, Reader.importConfig.read pf.serde pf.toml body = some cfg →
      (∀ r ∈ cfg.rewriteRules, (pf.regex r.matchPattern).isSome) →
        (∀ r ∈ cfg.queryRules, Valid pf.regex r.matchPattern) ∧
          SmoothImport env.fails cfg.records store

/-- A step of a run is sound. -/
def Happening.Sound (s : Dashboard) : Happening → Prop
  | .request r env => r.Sound pf env s.store
  | .query .. => True

/-- Every step of a run from `s` on is sound. -/
def SoundRun : Dashboard → List Happening → Prop
  | _, [] => True
  | s, h :: rest => h.Sound pf s ∧ SoundRun (h.step pf s).1 rest

/-- Every step of a run from `s` on leaves what it must. -/
def AnsweredRun : Dashboard → List Happening → Prop
  | _, [] => True
  | s, h :: rest => Answered pf s (h.step pf s) ∧ AnsweredRun (h.step pf s).1 rest

/-! ## Rows -/

theorem mem_activeQueryRules {db : Db} {cfg : QueryRuleConfig} :
    cfg ∈ activeQueryRules db ↔ ∃ r ∈ db.rules.rows, r.2.enabled = true ∧ r.2.config = cfg := by
  simp only [activeQueryRules, listRules, List.mem_map, List.mem_filter, mem_orderBy, and_assoc]

theorem mem_activeRewriteRules {db : Db} {cfg : QueryRewriteConfig} :
    cfg ∈ activeRewriteRules db ↔ ∃ r ∈ db.rewriteRules.rows, r.2.enabled = true ∧ r.2.config = cfg := by
  simp only [activeRewriteRules, listRewriteRules, List.mem_map, List.mem_filter, mem_orderBy, and_assoc]

/-- Every enabled query rule of the store compiles. -/
def ValidRules (db : Db) : Prop :=
  ∀ r ∈ db.rules.rows, r.2.enabled = true → Valid pf.regex r.2.matchPattern

/-- Every enabled rewrite rule of the store compiles. -/
def ValidRewriteRules (db : Db) : Prop :=
  ∀ r ∈ db.rewriteRules.rows, r.2.enabled = true → (pf.regex r.2.matchPattern).isSome

theorem validRules_iff (db : Db) :
    (compileRules pf.regex (activeQueryRules db)).isSome ↔ ValidRules pf db := by
  rw [compileRules_isSome_iff]
  constructor
  · intro h r hr henabled
    exact h r.2.config (mem_activeQueryRules.2 ⟨r, hr, henabled, rfl⟩)
  · intro h cfg hcfg
    obtain ⟨r, hr, henabled, rfl⟩ := mem_activeQueryRules.1 hcfg
    exact h r hr henabled

theorem validRewriteRules_iff (db : Db) :
    (compileRewriteRules pf.regex (activeRewriteRules db)).isSome ↔ ValidRewriteRules pf db := by
  rw [compileRewriteRules_isSome_iff]
  constructor
  · intro h r hr henabled
    exact h r.2.config (mem_activeRewriteRules.2 ⟨r, hr, henabled, rfl⟩)
  · intro h cfg hcfg
    obtain ⟨r, hr, henabled, rfl⟩ := mem_activeRewriteRules.1 hcfg
    exact h r hr henabled

variable {pf}

theorem InStep.validRules {s : Dashboard} (h : InStep pf s) : ValidRules pf s.store :=
  (validRules_iff pf s.store).1 (Option.isSome_of_eq_some h.rules)

theorem InStep.validRewriteRules {s : Dashboard} (h : InStep pf s) : ValidRewriteRules pf s.store :=
  (validRewriteRules_iff pf s.store).1 (Option.isSome_of_eq_some h.rewriteRules)

/-- What is in step depends on the rows only. -/
theorem InStep.congr {s s' : Dashboard} (h : InStep pf s) (hsame : Unchanged s s') : InStep pf s' := by
  have hrules : activeQueryRules s'.store = activeQueryRules s.store := by
    simp only [activeQueryRules, listRules, hsame.rows.rules]
  have hrewrites : activeRewriteRules s'.store = activeRewriteRules s.store := by
    simp only [activeRewriteRules, listRewriteRules, hsame.rows.rewriteRules]
  refine ⟨?_, ?_⟩
  · rw [hrules, hsame.ruleEngine]
    exact h.rules
  · rw [hrewrites, hsame.rewriter]
    exact h.rewriteRules

theorem Unchanged.refl (s : Dashboard) : Unchanged s s := ⟨⟨rfl, rfl, rfl, rfl⟩, rfl, rfl, rfl⟩

/-- A request that has changed nothing is answered well, whatever the answer is. -/
theorem answered_of_unchanged {s : Dashboard} {r : Dashboard × Bool} (h : InStep pf s)
    (hsame : Unchanged s r.1) : Answered pf s r := ⟨h.congr hsame, fun _ => hsame⟩

/-! ## Handlers -/

variable {env : Circumstances}

/-- `apply_rules` succeeds on valid rows. -/
theorem applyRules_eq (env : Circumstances) {n : Nat} {s : Dashboard} (hn : env.fails n = false)
    (hvalid : ValidRules pf s.store) :
    ∃ rules, compileRules pf.regex (activeQueryRules s.store) = some (rules.map unused) ∧
      applyRules pf env n s = ({ s with ruleEngine := rules }, true) := by
  obtain ⟨rules, hrules⟩ := Option.isSome_iff_exists.1 ((validRules_iff pf s.store).2 hvalid)
  refine ⟨rules, ?_, ?_⟩
  · rw [map_unused_of_compileRules pf.regex hrules]
    exact hrules
  · simp only [applyRules, hn, Bool.false_eq_true, if_false, hrules]

/-- `apply_rewrite_rules` succeeds on valid rows. -/
theorem applyRewriteRules_eq (env : Circumstances) {n : Nat} {s : Dashboard} (hn : env.fails n = false)
    (hvalid : ValidRewriteRules pf s.store) :
    ∃ rules, compileRewriteRules pf.regex (activeRewriteRules s.store) = some rules ∧
      applyRewriteRules pf env n s = ({ s with rewriter := rules }, true) := by
  obtain ⟨rules, hrules⟩ := Option.isSome_iff_exists.1 ((validRewriteRules_iff pf s.store).2 hvalid)
  exact ⟨rules, hrules, by simp only [applyRewriteRules, hn, Bool.false_eq_true, if_false, hrules]⟩

theorem runAll_queries {stmts : List (Stmt Db)} (hqueries : ∀ stmt ∈ stmts, stmt = some) (db : Db) :
    runAll stmts db = some db := by
  induction stmts with
  | nil => rfl
  | cons stmt stmts ih =>
    rw [runAll_cons, hqueries stmt List.mem_cons_self, Option.bind_some]
    exact ih fun stmt' hstmt' => hqueries stmt' (List.mem_cons_of_mem _ hstmt')

/-- Some queries and then writes that are not refused: all succeed, or nothing has been written. -/
theorem exec_of_smooth {fails : Nat → Bool} {queries writes : List (Stmt Db)} {db db' : Db}
    (hqueries : ∀ stmt ∈ queries, stmt = some) (hwrites : writes ≠ [])
    (hrun : runAll (queries ++ writes) db = some db')
    (h : Smooth fails queries.length ((queries ++ writes).length + 1)) :
    (exec fails 0 (queries ++ writes) db = (db', true) ∧ fails (queries ++ writes).length = false) ∨
      exec fails 0 (queries ++ writes) db = (db, false) := by
  rcases h with hnone | ⟨k, hk, hfails, hbefore⟩
  · refine Or.inl ⟨(exec_eq_true_iff _ _ _ _ _).2 ⟨fun k hk => ?_, hrun⟩, hnone _ (Nat.lt_succ_self _)⟩
    rw [Nat.zero_add]
    exact hnone k (Nat.lt_succ_of_lt hk)
  · right
    have hlen : k < (queries ++ writes).length := by
      rw [List.length_append]
      have := List.length_pos_iff.2 hwrites
      omega
    refine (exec_eq_false_iff _ _ _ _ _).2 ⟨k, _, List.getElem?_eq_getElem hlen, fun j hj => ?_, ?_, ?_⟩
    · rw [Nat.zero_add]
      exact hbefore j hj
    · rw [List.take_append_of_le_length hk]
      exact runAll_queries (fun stmt hstmt => hqueries stmt (List.mem_of_mem_take hstmt)) db
    · rw [Nat.zero_add]
      exact Or.inl hfails

/-- A change of query rules: the enabled rows still compile, and the rewrite rules are not touched. -/
theorem writeThen_applyRules (queries : List (Stmt Db)) {writes : List (Stmt Db)} {s : Dashboard} {db' : Db}
    (hstep : InStep pf s) (hqueries : ∀ stmt ∈ queries, stmt = some) (hwrites : writes ≠ [])
    (hrun : runAll (queries ++ writes) s.store = some db')
    (hsmooth : Smooth env.fails queries.length ((queries ++ writes).length + 1))
    (hvalid : ValidRules pf db') (hsame : db'.rewriteRules = s.store.rewriteRules) :
    Answered pf s (writeThen env (queries ++ writes) (applyRules pf env) s) := by
  rcases exec_of_smooth hqueries hwrites hrun hsmooth with ⟨hexec, hlast⟩ | hexec
  · obtain ⟨rules, hrules, happly⟩ := applyRules_eq env (s := { s with store := db' }) hlast hvalid
    simp only [writeThen, hexec, if_true, happly]
    refine ⟨⟨hrules, ?_⟩, nofun⟩
    have hrewrites : activeRewriteRules db' = activeRewriteRules s.store := by
      simp only [activeRewriteRules, listRewriteRules, hsame]
    exact (congrArg (compileRewriteRules pf.regex) hrewrites).trans hstep.rewriteRules
  · simp only [writeThen, hexec, Bool.false_eq_true, if_false]
    exact answered_of_unchanged hstep (Unchanged.refl s)

/-- A change of rewrite rules. -/
theorem writeThen_applyRewriteRules (queries : List (Stmt Db)) {writes : List (Stmt Db)} {s : Dashboard}
    {db' : Db} (hstep : InStep pf s) (hqueries : ∀ stmt ∈ queries, stmt = some) (hwrites : writes ≠ [])
    (hrun : runAll (queries ++ writes) s.store = some db')
    (hsmooth : Smooth env.fails queries.length ((queries ++ writes).length + 1))
    (hvalid : ValidRewriteRules pf db') (hsame : db'.rules = s.store.rules) :
    Answered pf s (writeThen env (queries ++ writes) (applyRewriteRules pf env) s) := by
  rcases exec_of_smooth hqueries hwrites hrun hsmooth with ⟨hexec, hlast⟩ | hexec
  · obtain ⟨rules, hrules, happly⟩ := applyRewriteRules_eq env (s := { s with store := db' }) hlast hvalid
    simp only [writeThen, hexec, if_true, happly]
    refine ⟨⟨?_, hrules⟩, nofun⟩
    have hquery : activeQueryRules db' = activeQueryRules s.store := by
      simp only [activeQueryRules, listRules, hsame]
    exact (congrArg (compileRules pf.regex) hquery).trans hstep.rules
  · simp only [writeThen, hexec, Bool.false_eq_true, if_false]
    exact answered_of_unchanged hstep (Unchanged.refl s)

/-- No queries before the first write. -/
theorem noQueries : ∀ stmt ∈ ([] : List (Stmt Db)), stmt = some := fun _ h => absurd h List.not_mem_nil

/-- One query, for the row as it was. -/
theorem oneQuery : ∀ stmt ∈ ([some] : List (Stmt Db)), stmt = some := fun _ h => List.mem_singleton.1 h

theorem validRules_insert {db : Db} {row : RuleRow} (h : ValidRules pf db)
    (hrow : row.enabled = true → Valid pf.regex row.matchPattern) : ValidRules pf (db.insertRule row) := by
  intro r hr henabled
  rcases List.mem_append.1 hr with hold | hnew
  · exact h r hold henabled
  · obtain rfl := List.mem_singleton.1 hnew
    exact hrow henabled

theorem validRewriteRules_insert {db : Db} {row : RewriteRuleRow} (h : ValidRewriteRules pf db)
    (hrow : (pf.regex row.matchPattern).isSome) : ValidRewriteRules pf (db.insertRewriteRule row) := by
  intro r hr henabled
  rcases List.mem_append.1 hr with hold | hnew
  · exact h r hold henabled
  · obtain rfl := List.mem_singleton.1 hnew
    exact hrow

/-- An updated table has the old rows, but for the new one under its id. -/
theorem mem_updateWhere {α : Type} {t : Table α} {id : Int} {row : α} {r : Int × α}
    (hr : r ∈ (t.updateWhere (fun r => r.1 = id) fun _ => row).rows) :
    r ∈ t.rows ∨ r.2 = row ∧ ∃ r' ∈ t.rows, r'.1 = id := by
  obtain ⟨r', hr', rfl⟩ := List.mem_map.1 hr
  by_cases hid : r'.1 = id
  · rw [if_pos (decide_eq_true hid)]
    exact Or.inr ⟨rfl, r', hr', hid⟩
  · rw [if_neg (by simpa using hid)]
    exact Or.inl hr'

theorem createConfigRule_answered {s : Dashboard} (hstep : InStep pf s) {row : RuleRow}
    (hrow : row.enabled = true → Valid pf.regex row.matchPattern) (hsmooth : Smooth env.fails 0 3) :
    Answered pf s (createConfigRule pf env row s) :=
  writeThen_applyRules [] hstep noQueries (List.cons_ne_nil _ _) rfl hsmooth
    (validRules_insert hstep.validRules hrow) rfl

theorem updateConfigRule_answered {s : Dashboard} (hstep : InStep pf s) {id : Int} {row : RuleRow}
    (hrow : row.enabled = true → (∃ r ∈ s.store.rules.rows, r.1 = id) → Valid pf.regex row.matchPattern)
    (hsmooth : Smooth env.fails 1 4) : Answered pf s (updateConfigRule pf env id row s) := by
  refine writeThen_applyRules [some] hstep oneQuery (List.cons_ne_nil _ _) rfl hsmooth ?_ rfl
  intro r hr henabled
  rcases mem_updateWhere hr with hold | ⟨hnew, hid⟩
  · exact hstep.validRules r hold henabled
  · rw [hnew] at henabled ⊢
    exact hrow henabled hid

theorem deleteConfigRule_answered {s : Dashboard} (hstep : InStep pf s) {id : Int}
    (hsmooth : Smooth env.fails 1 4) : Answered pf s (deleteConfigRule pf env id s) := by
  refine writeThen_applyRules [some] hstep oneQuery (List.cons_ne_nil _ _) rfl hsmooth ?_ rfl
  exact fun r hr => hstep.validRules r (List.mem_of_mem_filter hr)

theorem createConfigRewriteRule_answered {s : Dashboard} (hstep : InStep pf s) {row : RewriteRuleRow}
    (hsmooth : (pf.regex row.matchPattern).isSome → Smooth env.fails 0 3) :
    Answered pf s (createConfigRewriteRule pf env row s) := by
  rw [createConfigRewriteRule]
  split
  · exact answered_of_unchanged hstep (Unchanged.refl s)
  · rename_i hvalid
    rw [Option.isNone_iff_eq_none, ← ne_eq, ← Option.isSome_iff_ne_none] at hvalid
    exact writeThen_applyRewriteRules [] hstep noQueries (List.cons_ne_nil _ _) rfl
      (hsmooth hvalid) (validRewriteRules_insert hstep.validRewriteRules hvalid) rfl

theorem updateConfigRewriteRule_answered {s : Dashboard} (hstep : InStep pf s) {id : Int}
    {row : RewriteRuleRow} (hsmooth : (pf.regex row.matchPattern).isSome → Smooth env.fails 1 4) :
    Answered pf s (updateConfigRewriteRule pf env id row s) := by
  rw [updateConfigRewriteRule]
  split
  · exact answered_of_unchanged hstep (Unchanged.refl s)
  · rename_i hvalid
    rw [Option.isNone_iff_eq_none, ← ne_eq, ← Option.isSome_iff_ne_none] at hvalid
    refine writeThen_applyRewriteRules [some] hstep oneQuery (List.cons_ne_nil _ _) rfl
      (hsmooth hvalid) ?_ rfl
    intro r hr henabled
    rcases mem_updateWhere hr with hold | ⟨hnew, -⟩
    · exact hstep.validRewriteRules r hold henabled
    · rw [hnew]
      exact hvalid

theorem deleteConfigRewriteRule_answered {s : Dashboard} (hstep : InStep pf s) {id : Int}
    (hsmooth : Smooth env.fails 1 4) : Answered pf s (deleteConfigRewriteRule pf env id s) := by
  refine writeThen_applyRewriteRules [some] hstep oneQuery (List.cons_ne_nil _ _) rfl
    hsmooth ?_ rfl
  exact fun r hr => hstep.validRewriteRules r (List.mem_of_mem_filter hr)

/-- The rules of an import compile as its rows do. -/
theorem Holds.valid {sur : Surroundings} {nonces : Nat → Nonce} {c : Records} {before db : Db}
    (h : Holds sur nonces c before db) (hrules : ∀ r ∈ c.rules, Valid pf.regex r.matchPattern)
    (hrewrites : ∀ r ∈ c.rewriteRules, (pf.regex r.matchPattern).isSome) :
    ValidRules pf db ∧ ValidRewriteRules pf db := by
  refine ⟨fun r hr _ => ?_, fun r hr _ => ?_⟩
  · have hmem : r.2 ∈ c.ruleRows := h.rules ▸ List.mem_map_of_mem hr
    obtain ⟨i, hi, hrow⟩ := List.mem_mapIdx.1 hmem
    rw [← hrow]
    exact hrules _ (List.getElem_mem hi)
  · have hmem : r.2 ∈ c.rewriteRows := h.rewriteRules ▸ List.mem_map_of_mem hr
    obtain ⟨i, hi, hrow⟩ := List.mem_mapIdx.1 hmem
    rw [← hrow]
    exact hrewrites _ (List.getElem_mem hi)

/-- The deletions do not touch the log. -/
theorem Db.changes_clearFirst (db : Db) (k : Nat) : (db.clearFirst k).changes = db.changes := by
  match k with
  | 0 => rfl
  | 1 => rfl
  | 2 => rfl
  | 3 => rfl
  | _ + 4 => rfl

theorem importConfig_answered {s : Dashboard} (hstep : InStep pf s) {body : Str}
    (hsound : ∀ cfg, Reader.importConfig.read pf.serde pf.toml body = some cfg →
      (∀ r ∈ cfg.rewriteRules, (pf.regex r.matchPattern).isSome) →
        (∀ r ∈ cfg.queryRules, Valid pf.regex r.matchPattern) ∧
          SmoothImport env.fails cfg.records s.store) :
    Answered pf s (importConfig pf env body s) := by
  rw [importConfig]
  cases hread : Reader.importConfig.read pf.serde pf.toml body with
  | none => exact answered_of_unchanged hstep (Unchanged.refl s)
  | some cfg =>
    by_cases hchecked : (cfg.rewriteRules.all fun r => (pf.regex r.matchPattern).isSome) = true
    · have hrewrites := List.all_eq_true.1 hchecked
      simp only [hchecked, Bool.not_true, Bool.false_eq_true, if_false]
      obtain ⟨hrules, ⟨hnone, hnames⟩ | ⟨k, hk, hfails, hbefore, hnothing⟩⟩ := hsound cfg hread hrewrites
      · obtain ⟨db', hexec, hholds⟩ := exec_replaceAll_smooth pf.sur env.nonces cfg.records env.authorIp
          s.store (fun k hk => hnone k (Nat.lt_add_right 2 hk)) hnames
        obtain ⟨hvalid, hvalid'⟩ := hholds.valid hrules hrewrites
        obtain ⟨rules, hcompiled, happly⟩ := applyRules_eq env (s := { s with store := db' })
          (hnone cfg.records.statements (by omega)) hvalid
        obtain ⟨rewrites, hcompiled', happly'⟩ := applyRewriteRules_eq env
          (s := { s with store := db', ruleEngine := rules })
          (hnone (cfg.records.statements + 1) (by omega)) hvalid'
        simp only [writeThen, hexec, length_replaceAll, if_true, happly, happly']
        exact ⟨⟨hcompiled, hcompiled'⟩, nofun⟩
      · have hexec := exec_replaceAll_early pf.sur env.nonces cfg.records env.authorIp s.store hk hfails hbefore
        simp only [writeThen, hexec, Bool.false_eq_true, if_false]
        exact answered_of_unchanged hstep ⟨(clearFirst_sameRows_iff s.store k).2 hnothing,
          by rw [Db.changes_clearFirst], rfl, rfl⟩
    · simp only [Bool.not_eq_true] at hchecked
      simp only [hchecked, Bool.not_false, if_true]
      exact answered_of_unchanged hstep (Unchanged.refl s)

/-! ## Runs -/

/-- A step that is sound leaves what it must. -/
theorem step_answered {s : Dashboard} (hstep : InStep pf s) {h : Happening} (hsound : h.Sound pf s) :
    Answered pf s (h.step pf s) := by
  cases h with
  | query luck sql user schema =>
    refine ⟨⟨?_, hstep.rewriteRules⟩, nofun⟩
    exact hstep.rules.trans (congrArg some (map_unused_matchQuery s.ruleEngine luck sql user schema).symm)
  | request r env =>
    cases r with
    | createRule row => exact createConfigRule_answered hstep hsound.1 hsound.2
    | updateRule id row => exact updateConfigRule_answered hstep hsound.1 hsound.2
    | deleteRule id => exact deleteConfigRule_answered hstep hsound
    | createRewriteRule row => exact createConfigRewriteRule_answered hstep hsound
    | updateRewriteRule id row => exact updateConfigRewriteRule_answered hstep hsound
    | deleteRewriteRule id => exact deleteConfigRewriteRule_answered hstep hsound
    | importText body => exact importConfig_answered hstep hsound

/-- A process starts in step when the store gives back the rules of the configuration file. -/
theorem inStep_start {rules : List QueryRuleConfig} {rewriteRules : List QueryRewriteConfig} {store : Db}
    {s : Dashboard} (hstart : startDashboard pf rules rewriteRules store = some s)
    (hrules : activeQueryRules store = rules) (hrewrites : activeRewriteRules store = rewriteRules) :
    InStep pf s := by
  simp only [startDashboard, Option.bind_eq_bind, Option.bind_eq_some_iff] at hstart
  obtain ⟨ruleEngine, hengine, rewriter, hrewriter, hs⟩ := hstart
  obtain rfl := Option.some.inj hs
  refine ⟨?_, ?_⟩
  · rw [map_unused_of_compileRules pf.regex hengine, hrules]
    exact hengine
  · rw [hrewrites]
    exact hrewriter

/-- In a run whose steps are sound the engines are in step after each of them, and no error has changed
anything. -/
theorem inStep_run {rules : List QueryRuleConfig} {rewriteRules : List QueryRewriteConfig} {store : Db}
    {s : Dashboard} (hstart : startDashboard pf rules rewriteRules store = some s)
    (hrules : activeQueryRules store = rules) (hrewrites : activeRewriteRules store = rewriteRules)
    {run : List Happening} (hsound : SoundRun pf s run) : AnsweredRun pf s run := by
  have hstep := inStep_start hstart hrules hrewrites
  clear hstart
  induction run generalizing s with
  | nil => trivial
  | cons h rest ih =>
    have hanswered := step_answered hstep hsound.1
    exact ⟨hanswered, ih hsound.2 hanswered.1⟩

/-! ## A pattern that does not compile -/

/-- A process whose `regex` crate knows that a parenthesis must be closed. -/
def samplePlatform : Platform Unit Unit where
  regex p := if p = "(".toList then none else some ⟨fun sql => sql == p, fun sql _ => sql⟩
  serde := Serde.records
  toml := sampleToml
  sur := bareSurroundings

/-- A process with an empty store. -/
def emptyDashboard : Dashboard := ⟨Db.empty, [], []⟩

/-- The request to create an enabled rule with such a pattern. -/
def createsRule (pattern : String) : Happening :=
  .request (.createRule { digestRule.row 0 with matchPattern := some pattern.toList }) calmly

theorem smooth_calmly (queries n : Nat) : Smooth calmly.fails queries n := Or.inl fun _ _ => rfl

theorem inStep_run_select : AnsweredRun samplePlatform emptyDashboard [createsRule "SELECT 1"] := by
  have hstart : startDashboard samplePlatform [] [] Db.empty = some emptyDashboard := rfl
  refine inStep_run hstart rfl rfl ⟨⟨?_, ?_⟩, trivial⟩
  · intro _ p hp
    obtain rfl := Option.some.inj hp
    decide
  · exact smooth_calmly 0 3

/-- The bad rule stays in the store, though the answer is an error. -/
theorem badPattern_stored :
    ¬ ∀ (rules : List QueryRuleConfig) (rewriteRules : List QueryRewriteConfig) (store : Db) (s : Dashboard)
      (run : List Happening), startDashboard samplePlatform rules rewriteRules store = some s →
      activeQueryRules store = rules → activeRewriteRules store = rewriteRules →
        AnsweredRun samplePlatform s run := by
  intro hclaim
  obtain ⟨⟨hstep, -⟩, -⟩ := hclaim [] [] Db.empty emptyDashboard [createsRule "("] rfl rfl rfl
  have hrules := hstep.rules
  have hfails : compileRules samplePlatform.regex
      (activeQueryRules ((createsRule "(").step samplePlatform emptyDashboard).1.store) = none := rfl
  rw [hfails] at hrules
  cases hrules

end TurbineProxy.Config
