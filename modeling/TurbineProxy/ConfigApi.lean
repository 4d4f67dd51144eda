import TurbineProxy.ConfigFile
import TurbineProxy.ConfigReplace
import TurbineProxy.Rules

/-!
# Rule changes at run time

`dashboard/routes_config.rs`: a request writes the store and then compiles all its enabled rows into the
engine that is running. `inStep_run` says which requests keep the two in step, and leave both alone when
they are answered with an error: those whose query rules compile.

The `regex` crate is a parameter, as is what reads a configuration from the body of an import.
-/

namespace TurbineProxy.Config

open Sql

/-! ## Compilation -/

section Compilation

variable (regex : Str → Option Regex)

/-- A pattern that may be missing. -/
def compilePattern : Option Str → Option (Option Regex)
  | none => some none
  | some p => (regex p).map some

/-- `rules::compile_rules`, one rule -/
def compileRule (cfg : QueryRuleConfig) : Option QueryRule :=
  (compilePattern regex cfg.matchPattern).map fun pattern =>
  { pattern
    digest := cfg.matchDigest
    user := cfg.user
    schema := cfg.schema
    destination :=
      match cfg.destinationHostgroup with
      | some hg => .hostgroup hg.toNat
      | none =>
        match cfg.destination with
        | .any => .any
        | .primary => .primary
        | .replica => .replica
    cacheTtlSecs := cfg.cacheTtlSecs.toNat
    mirrorTo := cfg.mirrorTo
    rolloutPct := min (cfg.rolloutPct.getD 0).toNat 100
    dryRun := cfg.dryRun
    fastForward := cfg.fastForward
    qpsLimit := (cfg.qpsLimit.getD 0).toNat
    -- a full bucket
    tokenBucket := (cfg.qpsLimit.getD 0).toNat
    tokenBucketMs := 0
    hitCount := 0 }

/-- `rules::compile_rules` -/
def compileRules (configs : List QueryRuleConfig) : Option RuleEngine := configs.mapM (compileRule regex)

/-- `rewriter::compile_rules`, one rule -/
def compileRewriteRule (cfg : QueryRewriteConfig) : Option RewriteRule :=
  (regex cfg.matchPattern).map fun pattern =>
    { pattern
      replaceWith := cfg.replaceWith.filter fun s => !s.isEmpty
      addLimit := cfg.addLimit.map UInt32.toNat
      addTimeoutMs := cfg.addTimeoutMs.map UInt64.toNat
      block := cfg.block
      comment := cfg.comment }

/-- `rewriter::compile_rules` -/
def compileRewriteRules (configs : List QueryRewriteConfig) : Option Rewriter :=
  configs.mapM (compileRewriteRule regex)

/-- The pattern of a query rule, if it has one, is a regular expression. -/
def Valid (pattern : Option Str) : Prop := ∀ p, pattern = some p → (regex p).isSome

theorem mapM_isSome_iff {α β : Type} (f : α → Option β) (l : List α) :
    (l.mapM f).isSome ↔ ∀ a ∈ l, (f a).isSome := by
  induction l with
  | nil => simp
  | cons a l ih =>
    rw [List.mapM_cons, List.forall_mem_cons, ← ih]
    cases f a with
    | none => simp
    | some b => cases l.mapM f <;> simp

theorem compileRule_isSome_iff (cfg : QueryRuleConfig) :
    (compileRule regex cfg).isSome ↔ Valid regex cfg.matchPattern := by
  rw [compileRule, Option.isSome_map, Valid]
  cases cfg.matchPattern with
  | none => simp [compilePattern]
  | some p => simp [compilePattern]

theorem compileRules_isSome_iff (configs : List QueryRuleConfig) :
    (compileRules regex configs).isSome ↔ ∀ cfg ∈ configs, Valid regex cfg.matchPattern := by
  rw [compileRules, mapM_isSome_iff]
  exact forall₂_congr fun cfg _ => compileRule_isSome_iff regex cfg

theorem compileRewriteRules_isSome_iff (configs : List QueryRewriteConfig) :
    (compileRewriteRules regex configs).isSome ↔ ∀ cfg ∈ configs, (regex cfg.matchPattern).isSome := by
  rw [compileRewriteRules, mapM_isSome_iff]
  exact forall₂_congr fun cfg _ => by rw [compileRewriteRule, Option.isSome_map]

/-- The rule as it was compiled: no token used up, the bucket never refilled, and no hit. -/
def unused (rule : QueryRule) : QueryRule :=
  { rule with tokenBucket := rule.qpsLimit, tokenBucketMs := 0, hitCount := 0 }

theorem unused_of_compileRule {cfg : QueryRuleConfig} {rule : QueryRule}
    (h : compileRule regex cfg = some rule) : unused rule = rule := by
  obtain ⟨pattern, -, rfl⟩ := Option.map_eq_some_iff.1 h
  rfl

theorem map_unused_of_compileRules {configs : List QueryRuleConfig} {rules : RuleEngine}
    (h : compileRules regex configs = some rules) : rules.map unused = rules := by
  induction configs generalizing rules with
  | nil =>
    obtain rfl := Option.some.inj h
    rfl
  | cons cfg configs ih =>
    simp only [compileRules, List.mapM_cons, Option.bind_eq_bind, Option.bind_eq_some_iff] at h
    obtain ⟨rule, hrule, rest, hrest, h⟩ := h
    obtain rfl := Option.some.inj h
    rw [List.map_cons, unused_of_compileRule regex hrule, ih hrest]

theorem unused_charge (rule : QueryRule) (nowMs : Nat) :
    unused (rule.charge nowMs).1 = unused rule := by
  unfold QueryRule.charge QueryRule.tryConsumeToken QueryRule.refill
  by_cases hlimit : rule.qpsLimit = 0
  · rw [if_pos hlimit]
    rfl
  · rw [if_neg hlimit]
    dsimp only
    split_ifs <;> rfl

/-- Traffic only uses up tokens and counts hits. -/
theorem map_unused_matchQuery (rules : RuleEngine) (luck : Luck) (sql user schema : Str) :
    (rules.matchQuery luck sql user schema).1.map unused = rules.map unused := by
  suffices h : ∀ i, (RuleEngine.matchFrom luck sql user schema i rules).1.map unused = rules.map unused from
    h 0
  induction rules with
  | nil => exact fun _ => rfl
  | cons rule rules ih =>
    intro i
    rw [RuleEngine.matchFrom]
    split
    · rw [List.map_cons, List.map_cons, unused_charge]
    · rw [List.map_cons, List.map_cons, ih (i + 1)]

end Compilation

/-! ## The handlers -/

/-- What the handlers change: the store and the two engines. -/
structure Dashboard where
  store : Db
  ruleEngine : RuleEngine
  rewriter : Rewriter

/-- What a request brings with it: the address of its sender, the random nonces of its passwords, and the
numbers of its SQL statements that fail. -/
structure Circumstances where
  authorIp : Str
  nonces : Nat → Nonce
  fails : Nat → Bool

/-- No statement fails. -/
def calmly : Circumstances := ⟨"unknown".toList, fun _ => zeroNonce, fun _ => false⟩

section Handlers

variable {Rest PgRest : Type}

/-- What the process uses: regular expressions, the deserialiser, its surroundings. -/
structure Platform (Rest PgRest : Type) where
  regex : Str → Option Regex
  serde : Serde Rest PgRest
  toml : Str → Option Toml.Table
  sur : Surroundings

variable (pf : Platform Rest PgRest) (env : Circumstances)

/-- `apply_rules`; its query is the statement number `n` of the request -/
def applyRules (n : Nat) (s : Dashboard) : Dashboard × Bool :=
  if env.fails n then (s, false)
  else
    match compileRules pf.regex (activeQueryRules s.store) with
    | none => (s, false)
    | some rules => ({ s with ruleEngine := rules }, true)

/-- `apply_rewrite_rules` -/
def applyRewriteRules (n : Nat) (s : Dashboard) : Dashboard × Bool :=
  if env.fails n then (s, false)
  else
    match compileRewriteRules pf.regex (activeRewriteRules s.store) with
    | none => (s, false)
    | some rules => ({ s with rewriter := rules }, true)

/-- A call of the store, and what follows when it returns `Ok`. -/
def writeThen (script : List (Stmt Db)) (next : Nat → Dashboard → Dashboard × Bool) (s : Dashboard) :
    Dashboard × Bool :=
  let r := exec env.fails 0 script s.store
  if r.2 then next script.length { s with store := r.1 } else ({ s with store := r.1 }, false)

/-- `create_config_rule` -/
def createConfigRule (row : RuleRow) : Dashboard → Dashboard × Bool :=
  writeThen env (createRule row env.authorIp) (applyRules pf env)

/-- `update_config_rule` -/
def updateConfigRule (id : Int) (row : RuleRow) : Dashboard → Dashboard × Bool :=
  writeThen env (updateRule id row env.authorIp) (applyRules pf env)

/-- `delete_config_rule` -/
def deleteConfigRule (id : Int) : Dashboard → Dashboard × Bool :=
  writeThen env (deleteRule id env.authorIp) (applyRules pf env)

/-- `create_config_rewrite_rule`: the pattern is checked before anything is written -/
def createConfigRewriteRule (row : RewriteRuleRow) (s : Dashboard) : Dashboard × Bool :=
  if (pf.regex row.matchPattern).isNone then (s, false)
  else writeThen env (createRewriteRule row env.authorIp) (applyRewriteRules pf env) s

/-- `update_config_rewrite_rule` -/
def updateConfigRewriteRule (id : Int) (row : RewriteRuleRow) (s : Dashboard) : Dashboard × Bool :=
  if (pf.regex row.matchPattern).isNone then (s, false)
  else writeThen env (updateRewriteRule id row env.authorIp) (applyRewriteRules pf env) s

/-- `delete_config_rewrite_rule` -/
def deleteConfigRewriteRule (id : Int) : Dashboard → Dashboard × Bool :=
  writeThen env (deleteRewriteRule id env.authorIp) (applyRewriteRules pf env)

/-- What `import_config` hands to `replace_all`. -/
def ProxyConfig.records (cfg : ProxyConfig Rest PgRest) : Records :=
  ⟨cfg.queryRules, cfg.rewriteRules, cfg.primary, cfg.replicas, cfg.users⟩

/-- `import_config` -/
def importConfig (body : Str) (s : Dashboard) : Dashboard × Bool :=
  match Reader.importConfig.read pf.serde pf.toml body with
  | none => (s, false)
  | some cfg =>
    -- only the rewrite patterns are checked before the store is replaced
    if !cfg.rewriteRules.all fun r => (pf.regex r.matchPattern).isSome then (s, false)
    else
      writeThen env (replaceAll pf.sur env.nonces cfg.records env.authorIp) (fun n s =>
        let r := applyRules pf env n s
        if r.2 then applyRewriteRules pf env (n + 1) r.1 else r) s

/-- A request that changes rules. -/
inductive Request : Type where
  | createRule (row : RuleRow)
  | updateRule (id : Int) (row : RuleRow)
  | deleteRule (id : Int)
  | createRewriteRule (row : RewriteRuleRow)
  | updateRewriteRule (id : Int) (row : RewriteRuleRow)
  | deleteRewriteRule (id : Int)
  | importText (body : Str)

/-- The handler of a request: the state afterwards, and whether the answer is `ok`. -/
def Request.handle : Request → Dashboard → Dashboard × Bool
  | .createRule row => createConfigRule pf env row
  | .updateRule id row => updateConfigRule pf env id row
  | .deleteRule id => deleteConfigRule pf env id
  | .createRewriteRule row => createConfigRewriteRule pf env row
  | .updateRewriteRule id row => updateConfigRewriteRule pf env id row
  | .deleteRewriteRule id => deleteConfigRewriteRule pf env id
  | .importText body => importConfig pf env body

/-- What happens to a running process: a request, or a query that uses up a token. -/
inductive Happening : Type where
  | request (r : Request) (env : Circumstances)
  | query (luck : Luck) (sql user schema : Str)

/-- One step of the dashboard, and whether its request succeeded. -/
def Happening.step : Happening → Dashboard → Dashboard × Bool
  | .request r env, s => r.handle pf env s
  | .query luck sql user schema, s =>
    ({ s with ruleEngine := (s.ruleEngine.matchQuery luck sql user schema).1 }, true)

/-- `main`: the engines are compiled from the configuration file, whatever the store holds. -/
def startDashboard (rules : List QueryRuleConfig) (rewriteRules : List QueryRewriteConfig) (store : Db) :
    Option Dashboard := do
  let ruleEngine ← compileRules pf.regex rules
  let rewriter ← compileRewriteRules pf.regex rewriteRules
  some { store, ruleEngine, rewriter }

end Handlers

end TurbineProxy.Config
