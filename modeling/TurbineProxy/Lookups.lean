import TurbineProxy.Policy

/-!
# The rule look-ups of one query

`match_query` is called in two places: before the pipeline, to see whether a rule fast-forwards the
query, and behind it, to route the query. The second call of the MySQL session, and the only one of the
PostgreSQL session, is made with an empty schema.

`lookups` is what a session asks about a query, without anything else it does. `query_within` says that
it never asks more, `within_query` that it asks no less when every backend is gone, so a query meets a
contract about look-ups exactly when its look-ups do (`wp_query_iff`).
-/

namespace TurbineProxy

open Str

/-! ## The rule that is hit -/

namespace RuleEngine

/-- The index of the rule that decides on a query, from index `i` on. -/
def hitFrom (luck : Luck) (sql user schema : Str) : Nat → RuleEngine → Option Nat
  | _, [] => none
  | i, rule :: rest =>
    if rule.applies (luck.roll i) sql user schema then some i
    else hitFrom luck sql user schema (i + 1) rest

/-- The index of the rule whose counter a look-up increments, and whose token it takes. -/
def hit (rules : RuleEngine) (luck : Luck) (sql user schema : Str) : Option Nat :=
  hitFrom luck sql user schema 0 rules

/-- The index of the first rule whose filters accept a query. -/
def firstFor (rules : RuleEngine) (sql user schema : Str) : Option Nat :=
  rules.findIdx? fun rule => rule.isFor sql user schema

/-- No rule is on trial: no rollout, no dry run. -/
def Steady (rules : RuleEngine) : Prop :=
  ∀ rule ∈ rules, (rule.rolloutPct = 0 ∨ 100 ≤ rule.rolloutPct) ∧ rule.dryRun = false

/-- The same rules, however much they have been used. -/
def SameButUse (rules engine : RuleEngine) : Prop :=
  List.Forall₂ (fun rule rule' => rule' =
    { rule with
      tokenBucket := rule'.tokenBucket, tokenBucketMs := rule'.tokenBucketMs, hitCount := rule'.hitCount })
    rules engine

variable {rules engine : RuleEngine} {luck : Luck} {sql user schema : Str}

theorem hitFrom_ge {i j : Nat} (h : hitFrom luck sql user schema i rules = some j) : i ≤ j := by
  induction rules generalizing i with
  | nil => cases h
  | cons rule rest ih =>
    rw [hitFrom] at h
    split at h
    · exact Nat.le_of_eq (Option.some.inj h)
    · exact Nat.le_of_succ_le (ih h)

/-- The clock has no say in it. -/
theorem hit_roll (nowMs : Nat) : rules.hit ⟨luck.roll, nowMs⟩ sql user schema =
    rules.hit luck sql user schema := by
  suffices h : ∀ i, hitFrom ⟨luck.roll, nowMs⟩ sql user schema i rules = hitFrom luck sql user schema i rules
    from h 0
  induction rules with
  | nil => exact fun _ => rfl
  | cons rule rest ih =>
    intro i
    rw [hitFrom, hitFrom, ih (i + 1)]

theorem ruleFrom_eq (i : Nat) : ruleFrom luck sql user schema i rules =
    (hitFrom luck sql user schema i rules).bind fun j => rules[j - i]? := by
  induction rules generalizing i with
  | nil => rfl
  | cons rule rest ih =>
    rw [ruleFrom, hitFrom]
    split
    · rw [Option.bind_some, Nat.sub_self]
      rfl
    · rw [ih (i + 1)]
      refine Option.bind_congr fun j hj => ?_
      have hle := hitFrom_ge hj
      rw [show j - i = j - (i + 1) + 1 by omega, List.getElem?_cons_succ]

/-- The rule that decides is the one that is hit. -/
theorem ruleFor_eq : rules.ruleFor luck sql user schema =
    (rules.hit luck sql user schema).bind fun j => rules[j]? := ruleFrom_eq 0

/-- A look-up changes the rule that is hit, and no other one. -/
theorem matchQuery_fst : (rules.matchQuery luck sql user schema).1 =
    (rules.hit luck sql user schema).elim rules fun j =>
      rules.modify j fun rule => (rule.charge luck.nowMs).1 := by
  suffices h : ∀ i, (matchFrom luck sql user schema i rules).1 =
      (hitFrom luck sql user schema i rules).elim rules fun j =>
        rules.modify (j - i) fun rule => (rule.charge luck.nowMs).1 from h 0
  induction rules with
  | nil => exact fun _ => rfl
  | cons rule rest ih =>
    intro i
    rw [matchFrom, hitFrom]
    split
    · rw [Option.elim_some, Nat.sub_self]
      rfl
    · dsimp only
      rw [ih (i + 1)]
      cases hhit : hitFrom luck sql user schema (i + 1) rest with
      | none => rfl
      | some j =>
        have hle := hitFrom_ge hhit
        rw [Option.elim_some, Option.elim_some, show j - i = j - (i + 1) + 1 by omega]
        rfl

/-- Without trials luck has no say. -/
theorem Steady.hit_eq (h : rules.Steady) (luck : Luck) (sql user schema : Str) :
    rules.hit luck sql user schema = rules.firstFor sql user schema := by
  suffices hfrom : ∀ i, hitFrom luck sql user schema i rules =
      (rules.firstFor sql user schema).map (· + i) by
    rw [hit, hfrom 0]
    exact Option.map_id'
  induction rules with
  | nil => exact fun _ => rfl
  | cons rule rest ih =>
    intro i
    obtain ⟨hpct, hdry⟩ := h rule List.mem_cons_self
    have hroll : rule.rollsOut (luck.roll i) = false := by
      rw [QueryRule.rollsOut]
      rcases hpct with hpct | hpct
      · simp [hpct]
      · simp [Nat.not_lt.2 hpct]
    have happlies : rule.applies (luck.roll i) sql user schema = rule.isFor sql user schema := by
      rw [QueryRule.applies, hroll, hdry, Bool.not_false, Bool.and_true, Bool.and_true]
    rw [hitFrom, happlies, firstFor, List.findIdx?_cons]
    split
    · rw [Option.map_some, Nat.zero_add]
    · rw [ih (fun r hr => h r (List.mem_cons_of_mem _ hr)) (i + 1), Option.map_map]
      refine congrArg (fun f => Option.map f (firstFor rest sql user schema)) (funext fun n => ?_)
      show n + (i + 1) = n + 1 + i
      omega

theorem Steady.forall_hit (h : rules.Steady) {picked : Option Nat} :
    (∀ luck, rules.hit luck sql user schema = picked) ↔ rules.firstFor sql user schema = picked :=
  ⟨fun hhit => h.hit_eq ⟨fun _ => 0, 0⟩ sql user schema ▸ hhit _, fun hfirst luck =>
    (h.hit_eq luck sql user schema).trans hfirst⟩

theorem SameButUse.refl (rules : RuleEngine) : rules.SameButUse rules := by
  induction rules with
  | nil => exact .nil
  | cons rule rest ih => exact .cons rfl ih

theorem SameButUse.hit_eq (h : rules.SameButUse engine) (luck : Luck) (sql user schema : Str) :
    engine.hit luck sql user schema = rules.hit luck sql user schema := by
  suffices hfrom : ∀ i, hitFrom luck sql user schema i engine = hitFrom luck sql user schema i rules from
    hfrom 0
  induction h with
  | nil => exact fun _ => rfl
  | @cons rule rule' rest rest' hrule _ ih =>
    intro i
    have happlies : rule'.applies (luck.roll i) sql user schema = rule.applies (luck.roll i) sql user schema := by
      rw [hrule]
      rfl
    rw [hitFrom, hitFrom, happlies, ih (i + 1)]

theorem SameButUse.getElem? (h : rules.SameButUse engine) (j : Nat) :
    (engine[j]?).map (fun rule => (rule.fastForward, rule.qpsLimit)) =
      (rules[j]?).map fun rule => (rule.fastForward, rule.qpsLimit) := by
  induction h generalizing j with
  | nil => rfl
  | @cons rule rule' rest rest' hrule _ ih =>
    cases j with
    | zero =>
      rw [hrule]
      rfl
    | succ j => exact ih j

end RuleEngine

/-- A rule that fast-forwards whether or not it has tokens: it has no limit. -/
def QueryRule.forwardsAlways (rule : QueryRule) : Bool := rule.fastForward && rule.qpsLimit == 0

namespace RuleEngine

variable {rules engine : RuleEngine} {luck : Luck} {sql user schema : Str}

/-- The rule with this index is there, and fast-forwards in any case. -/
def forwardsAlways (rules : RuleEngine) (picked : Option Nat) : Bool :=
  (picked.bind fun j => rules[j]?).elim false (·.forwardsAlways)

theorem forwards_of_forwardsAlways (h : rules.SameButUse engine)
    (hrule : rules.forwardsAlways (rules.hit luck sql user schema) = true) :
    (engine.matchQuery luck sql user schema).2.elim false (·.fastForward) = true := by
  rw [forwardsAlways] at hrule
  rw [matchQuery_snd, ruleFor_eq, h.hit_eq]
  cases hhit : rules.hit luck sql user schema with
  | none => rw [hhit] at hrule; cases hrule
  | some j =>
    rw [hhit, Option.bind_some] at hrule
    have hsame := h.getElem? j
    cases hr : rules[j]? with
    | none => rw [hr] at hrule; cases hrule
    | some rule =>
      rw [hr] at hrule hsame
      obtain ⟨rule', hr', hrule'⟩ := Option.map_eq_some_iff.1 hsame
      obtain ⟨hff, hlimit⟩ := Prod.mk.inj hrule'
      have hboth : rule.fastForward = true ∧ rule.qpsLimit = 0 := by
        simpa [QueryRule.forwardsAlways] using hrule
      simp [hr', QueryRule.asMatch, QueryRule.exhausted, hff, hlimit, hboth]

/-- The rules with empty buckets, at time zero. -/
def drained (rules : RuleEngine) : RuleEngine :=
  rules.map fun rule => { rule with tokenBucket := 0, tokenBucketMs := 0 }

theorem sameButUse_drained (rules : RuleEngine) : rules.SameButUse rules.drained := by
  induction rules with
  | nil => exact .nil
  | cons rule rest ih => exact .cons rfl ih

/-- With empty buckets no other rule forwards. -/
theorem drained_forwards (hrule : rules.forwardsAlways (rules.hit luck sql user schema) = false)
    (htime : luck.nowMs = 0) :
    (rules.drained.matchQuery luck sql user schema).2.elim false (·.fastForward) = false := by
  rw [forwardsAlways] at hrule
  rw [matchQuery_snd, ruleFor_eq, rules.sameButUse_drained.hit_eq]
  cases hhit : rules.hit luck sql user schema with
  | none => rfl
  | some j =>
    rw [hhit, Option.bind_some] at hrule
    rw [Option.bind_some, drained, List.getElem?_map]
    cases hr : rules[j]? with
    | none => rfl
    | some rule =>
      rw [hr] at hrule
      by_cases hlimit : rule.qpsLimit = 0
      · have hff : rule.fastForward = false := by simpa [QueryRule.forwardsAlways, hlimit] using hrule
        simp [QueryRule.asMatch, QueryRule.exhausted, hlimit, hff]
      · simp [QueryRule.asMatch, QueryRule.exhausted, QueryRule.refill, hlimit, htime]

end RuleEngine

/-! ## What a query asks -/

/-- Operations that ask no rule. -/
def Op.unasked : Op → Bool
  | .rewrite _ | .matchQuery .. => false
  | _ => true

/-- The operations that ask no rule. -/
abbrev Unasked (o : Op) : Prop := o.unasked = true

section Unasked

variable {α : Type}

theorem unasked_silent {p : Task α} (h : p.Only Silent) : p.Only Unasked := by
  refine h.mono fun o ho => ?_
  cases o <;> first | rfl | cases ho

theorem unasked_pool {p : Task α} (h : p.Only OfPool) : p.Only Unasked :=
  unasked_silent (silent_pool h)

theorem unasked_carries {text : Str} {bytes : Bytes} {sqls : List Str} {p : Task α}
    (h : p.Only (Carries text bytes sqls)) : p.Only Unasked := by
  refine h.mono fun o ho => ?_
  cases o <;> first | rfl | cases ho

theorem unasked_hands {bytes : Bytes} {sqls : List Str} {p : Task α} (h : p.Only (Hands bytes sqls)) :
    p.Only Unasked :=
  unasked_carries (carries_hands h : p.Only (Carries [] bytes sqls))

/-- A step of a session that has no text. -/
theorem unasked_does {p : Task α} {R : α → Prop} (h : p.Does Silent R) : p.Does Unasked R := by
  refine h.mono (fun o ho => ?_) fun _ h => h
  cases o <;> first | rfl | cases ho

end Unasked

/-- The router asks the rewrite rules, then the query rules about the text they leave. -/
def routerLookups (text user schema : Str) : Task Unit := do
  let outcome : RewriteOutcome ← act (.rewrite text)
  match outcome with
  | .blocked _ => pure ()
  | .rewritten s => do
    let _ : Option RuleMatch ← act (.matchQuery s user schema)
    pure ()
  | .unchanged => do
    let _ : Option RuleMatch ← act (.matchQuery text user schema)
    pure ()

section Router

variable {pool : PoolRef} {rt : Route} {text : Str} {bytes sql : Bytes} {timeoutMs : Nat}
  {txConn : Option ConnId}

variable (pool rt text bytes timeoutMs) in
/-- What follows the look-up asks no rule. -/
theorem dispatch_eq : ∃ k : Option RuleMatch → Task (Except Str Response),
    dispatch pool text bytes timeoutMs rt = .op (.matchQuery text rt.user rt.schema) k ∧
      ∀ m, (k m).Only Unasked := by
  refine ⟨_, rfl, fun m => ?_⟩
  rcases m with _ | m
  · exact unasked_carries routeSplit_carries
  · refine Prog.only_ite trivial ?_
    rcases m with ⟨_ | _ | _ | hg, ttl, mirror, limited, ff⟩
    · exact unasked_carries routeSplit_carries
    · exact unasked_carries routeSplit_carries
    · exact unasked_carries routeSplit_carries
    · exact unasked_carries (show Prog.Only (Carries text bytes []) _ from routeHostgroup_carries)

theorem autocommit_within :
    (routeAutocommit pool sql rt).Within Unasked (routerLookups (textOf sql) rt.user rt.schema) := by
  have hdispatch : ∀ (text : Str) (bytes : Bytes) (timeoutMs : Nat),
      (dispatch pool text bytes timeoutMs rt).Within Unasked ((do
        let _ : Option RuleMatch ← act (.matchQuery text rt.user rt.schema)
        pure ()) : Task Unit) := by
    intro text bytes timeoutMs
    obtain ⟨k, hk, honly⟩ := dispatch_eq pool rt text bytes timeoutMs
    rw [hk]
    exact Prog.within_op fun m => (honly m).within _
  rw [routeAutocommit]
  refine .inl ⟨rfl, fun timeoutMs => Prog.within_op fun outcome => ?_⟩
  rcases outcome with _ | s | msg
  · exact hdispatch _ _ _
  · exact hdispatch _ _ _
  · trivial

theorem routeInTx_unasked : (routeInTx pool sql txConn rt).Only Unasked :=
  unasked_hands routeInTx_hands

/-- Outside a transaction the router makes its look-ups, inside one it makes none. -/
theorem routeQueryInner_within {inTransaction : Bool} {p : Task Unit}
    (h : inTransaction = false → p = routerLookups (textOf sql) rt.user rt.schema) :
    (routeQueryInner sql txConn inTransaction rt).Within Unasked p := by
  rw [routeQueryInner]
  refine .inl ⟨rfl, fun pool => Prog.within_ite (fun _ => ?_) fun hout => ?_⟩
  · exact routeInTx_unasked.within p
  · rw [h (Bool.not_eq_true _ ▸ hout)]
    exact autocommit_within.bind fun _ => trivial

/-- Answers under which every backend is gone. -/
def goneAway : (o : Op) → Res o
  | .talk .. => Except.error (TalkError.protocol "gone away".toList)
  | o => atEase o

/-- Nothing is left out of them then. -/
theorem within_routeQueryInner (sql : Bytes) (txConn : Option ConnId) (rt : Route) :
    (routerLookups (textOf sql) rt.user rt.schema).Within (fun _ => False)
    ((routeQueryInner sql txConn false rt).residual Unasked goneAway) := by
  have hdispatch : ∀ (text : Str) (bytes : Bytes) (timeoutMs : Nat), ((do
        let _ : Option RuleMatch ← act (.matchQuery text rt.user rt.schema)
        pure ()) : Task Unit).Within (fun _ => False)
      ((dispatch ⟨0, []⟩ text bytes timeoutMs rt).residual Unasked goneAway) := by
    intro text bytes timeoutMs
    obtain ⟨k, hk, -⟩ := dispatch_eq ⟨0, []⟩ rt text bytes timeoutMs
    rw [hk]
    exact Prog.within_op fun _ => trivial
  have hinner : (routeQueryInner sql txConn false rt).residual Unasked goneAway =
      (routeAutocommit ⟨0, []⟩ sql rt).residual Unasked goneAway >>= fun r => .done (txConn, r) :=
    Prog.residual_bind (q := Unasked) (w := goneAway) (routeAutocommit ⟨0, []⟩ sql rt) fun r => .done (txConn, r)
  rw [hinner]
  refine Prog.Within.append (Prog.within_op fun outcome => ?_) _
  rcases outcome with _ | s | msg
  · exact hdispatch _ _ _
  · exact hdispatch _ _ _
  · trivial

end Router

/-! ## The look-ups of the MySQL session -/

theorem checkReplicaHasGtid_unasked {gtid : Str} : (checkReplicaHasGtid gtid).Only Unasked := by
  rw [checkReplicaHasGtid]
  refine ⟨rfl, fun pool => Prog.only_ite trivial ?_⟩
  refine Prog.only_bind (unasked_pool PoolRef.only_getReplica) fun got => ?_
  rcases got with e | ⟨c, idx⟩
  · trivial
  have hprobe : (executeQuery .probe .loan c (toUtf8 (gtidProbe gtid))).Only Unasked := ⟨rfl, fun _ => trivial⟩
  refine Prog.only_bind hprobe fun r => ?_
  rcases r with e | response
  · exact ⟨rfl, fun _ => trivial⟩
  · exact Prog.only_bind (unasked_pool (PoolRef.only_putReplica c idx)) fun _ => trivial

namespace MysqlSession

/-- What the choice of a route depends on is left alone. -/
structure Keeps (st st' : MysqlSession) : Prop where
  /-- the user -/
  user : st'.user = st.user
  /-- the right to write -/
  allowWrites : st'.allowWrites = st.allowWrites
  /-- the transaction flag -/
  inTransaction : st'.inTransaction = st.inTransaction
  /-- the pin -/
  userVarSticky : st'.userVarSticky = st.userVarSticky

variable {cfg : MysqlConfig} {st st' st'' : MysqlSession} {q : Query} {sql : Str} {bytes : Bytes}
  {ryow : Bool} {p : Task Unit}

theorem Keeps.refl (st : MysqlSession) : Keeps st st := ⟨rfl, rfl, rfl, rfl⟩

theorem Keeps.trans (h : Keeps st st') (h' : Keeps st' st'') : Keeps st st'' :=
  ⟨h'.1.trans h.1, h'.2.trans h.2, h'.3.trans h.3, h'.4.trans h.4⟩

theorem Keeps.effectiveInTx (h : Keeps st st') : st'.effectiveInTx = st.effectiveInTx := by
  rw [MysqlSession.effectiveInTx, MysqlSession.effectiveInTx, h.inTransaction, h.userVarSticky]

/-- The query is left to the router, outside a transaction. -/
def routes (cfg : MysqlConfig) (st : MysqlSession) (sql : Str) : Bool :=
  !(st.inTransaction || begins sql) && !(st.userVarSticky || needsHardPin sql) &&
    (st.localAnswer cfg ⟨sql, [], classify sql, false⟩).isNone

theorem not_inTransaction_of_routes (h : st.routes cfg sql = true) : st.inTransaction = false := by
  rw [routes, Bool.and_assoc, Bool.and_eq_true, Bool.not_eq_true', Bool.or_eq_false_iff] at h
  exact h.1.1

/-- What the session asks about a query. -/
def lookups (cfg : MysqlConfig) (st : MysqlSession) (bytes : Bytes) : Task Unit :=
  let sql := textOf bytes
  if cfg.fastForward || st.inTransaction then pure ()
  else do
    let ff ← isFastForwardRule sql st.user database
    if !ff && st.routes cfg sql then routerLookups sql st.user [] else pure ()

/-- The proxy's own answer depends on little of the session. -/
theorem localAnswer_congr {q' : Query} (hwrites : st'.allowWrites = st.allowWrites)
    (htx : st'.effectiveInTx = st.effectiveInTx) (hsql : q'.sql = q.sql) (hintent : q'.intent = q.intent) :
    st'.localAnswer cfg q' = st.localAnswer cfg q := by
  rw [localAnswer, localAnswer, hwrites, htx, hsql, hintent]

variable (st) in
theorem expireRyow_keeps : st.expireRyow.Does Silent (Keeps st) := by
  rw [expireRyow]
  split
  · refine ⟨rfl, fun now => ?_⟩
    change Keeps st (if _ then _ else _)
    split
    · exact ⟨rfl, rfl, rfl, rfl⟩
    · exact .refl st
  · exact Keeps.refl st

variable (cfg st q) in
theorem gtid_keeps : (st.gtidForcesPrimary cfg q).Does Unasked fun r => Keeps st r.1 := by
  rw [gtidForcesPrimary]
  split
  · refine Prog.does_bind checkReplicaHasGtid_unasked.does fun ready _ => ?_
    cases ready
    · exact Keeps.refl st
    · exact (⟨rfl, rfl, rfl, rfl⟩ : Keeps st { st with lastWriteGtid := none })
  · exact Keeps.refl st

variable (st sql) in
theorem applyHint_keeps : (st.applyHint sql).Does Silent (Keeps st) := by
  rw [applyHint]
  rcases extractStickyHint sql with _ | _ | _
  · exact Keeps.refl st
  · refine Prog.does_ite (fun _ => ?_) fun _ => Keeps.refl st
    refine releaseSticky_does.mono (fun _ h => h) fun st' h => ?_
    subst h
    exact ⟨rfl, rfl, rfl, rfl⟩
  · exact (⟨rfl, rfl, rfl, rfl⟩ : Keeps st { st with stickyHintActive := true })

variable (st sql) in
/-- A statement that pins the session pins it for itself already, one that begins a transaction is in
it. -/
theorem noted_does : ((st.noteSessionState sql).noteBegin sql).Does Silent fun st' =>
    st'.user = st.user ∧ st'.allowWrites = st.allowWrites ∧
      st'.effectiveInTx = (st.inTransaction || begins sql || (st.userVarSticky || needsHardPin sql)) := by
  have hnoted : (st.noteSessionState sql).user = st.user ∧
      (st.noteSessionState sql).allowWrites = st.allowWrites ∧
      (st.noteSessionState sql).inTransaction = st.inTransaction ∧
      (st.noteSessionState sql).userVarSticky = (st.userVarSticky || needsHardPin sql) := by
    unfold noteSessionState
    dsimp only
    split <;> split <;> simp_all
  refine (noteBegin_does sql).mono (fun _ h => h) fun st' h => ?_
  obtain ⟨hsame, htx⟩ := h
  obtain ⟨huser, hwrites, hin, hpin⟩ := hnoted
  refine ⟨hsame.user.trans huser, hsame.allowWrites.trans hwrites, ?_⟩
  rw [effectiveInTx, htx, hsame.userVarSticky, hin, hpin]

theorem afterRoute_unasked (r : Except Str Response) : (st.afterRoute cfg q r).Only Unasked := by
  have hopen : (st.openRyow cfg q r).Only Unasked := Prog.only_ite ⟨rfl, fun _ => trivial⟩ trivial
  refine Prog.only_bind hopen fun st₁ => Prog.only_bind (unasked_does touchTx_does).only fun st₂ => ?_
  rcases r with e | response
  · exact (unasked_does (afterError_does q e)).only
  · exact (unasked_does (afterResponse_does q response)).only

theorem fastForward_unasked : (st.fastForward sql bytes).Only Unasked := by
  refine Prog.only_bind (unasked_hands routeFast_hands) fun r => ?_
  refine Prog.only_ite ?_ (unasked_does (answer_does _)).only
  exact Prog.only_bind (unasked_does releaseTx_does).only fun _ => (unasked_does (answer_does _)).only

theorem ruleFastForward_unasked : (st.ruleFastForward bytes).Only Unasked :=
  Prog.only_bind (unasked_hands routeFast_hands) fun _ => (unasked_does (answer_does _)).only

/-! ### No more than that -/

theorem routeNormally_within
    (h : st.effectiveInTx = false → p = routerLookups (textOf q.bytes) st.user []) :
    (st.routeNormally cfg q ryow).Within Unasked p :=
  (routeQueryInner_within h).bind fun _ => afterRoute_unasked _

theorem routeAllowed_within
    (h : st.effectiveInTx = false → p = routerLookups (textOf q.bytes) st.user []) :
    (st.routeAllowed cfg q ryow).Within Unasked p := by
  refine (unasked_does (applyHint_keeps _ _)).within_bind fun st₁ h₁ => ?_
  have hnormal : ∀ st₂, Keeps st₁ st₂ → (st₂.routeNormally cfg q ryow).Within Unasked p := by
    intro st₂ h₂
    have hkeeps := h₁.trans h₂
    refine routeNormally_within fun hout => ?_
    rw [hkeeps.user]
    exact h (hkeeps.effectiveInTx ▸ hout)
  refine Prog.within_ite (fun _ => ?_) fun _ => hnormal st₁ (.refl st₁)
  refine (unasked_hands routeStickyQuery_hands).does.within_bind fun r _ => ?_
  obtain ⟨c, idx, e | response⟩ := r
  · refine Prog.within_ite (fun _ => ?_) fun _ => .inl ⟨rfl, fun _ => .inl ⟨rfl, fun _ => trivial⟩⟩
    rcases c with _ | c
    · exact hnormal _ ⟨rfl, rfl, rfl, rfl⟩
    · exact .inl ⟨rfl, fun _ => hnormal _ ⟨rfl, rfl, rfl, rfl⟩⟩
  · exact (unasked_does (answer_does _)).only.within p

theorem checkedQuery_within (h : st.effectiveInTx = false → st.localAnswer cfg q = none →
      p = routerLookups (textOf q.bytes) st.user []) :
    (st.checkedQuery cfg q ryow).Within Unasked p := by
  refine (unasked_silent overTime_only).does.within_bind fun late _ => ?_
  refine Prog.within_ite (fun _ => (unasked_does (killTx_does _ _)).only.within p) fun _ => ?_
  refine (unasked_silent overIdle_only).does.within_bind fun stale _ => ?_
  refine Prog.within_ite (fun _ => (unasked_does (killTx_does _ _)).only.within p) fun _ => ?_
  rcases hlocal : st.localAnswer cfg q with _ | ⟨m, strict⟩
  · exact routeAllowed_within fun hout => h hout hlocal
  · exact .inl ⟨rfl, fun _ => .inl ⟨rfl, fun _ => trivial⟩⟩

theorem slowQuery_within : (st.slowQuery cfg (textOf bytes) bytes).Within Unasked
    (if st.routes cfg (textOf bytes) then routerLookups (textOf bytes) st.user [] else pure ()) := by
  refine (unasked_does (expireRyow_keeps st)).within_bind fun st₁ h₁ => ?_
  refine (gtid_keeps cfg st₁ _).within_bind fun g hg => ?_
  refine (unasked_does (noted_does _ _)).within_bind fun st₂ h₂ => checkedQuery_within fun hout hlocal => ?_
  have hkeeps := h₁.trans hg
  obtain ⟨huser, hwrites, htx⟩ := h₂
  rw [hkeeps.inTransaction, hkeeps.userVarSticky] at htx
  rw [htx, Bool.or_eq_false_iff] at hout
  have hst : st.effectiveInTx = st₂.effectiveInTx := by
    rw [htx, hout.1, hout.2, effectiveInTx, (Bool.or_eq_false_iff.1 hout.1).1,
      (Bool.or_eq_false_iff.1 hout.2).1]
  have hanswer : st.localAnswer cfg ⟨textOf bytes, [], classify (textOf bytes), false⟩ = none :=
    (localAnswer_congr (hwrites.trans hkeeps.allowWrites).symm hst rfl rfl).trans hlocal
  have hroutes : st.routes cfg (textOf bytes) = true := by
    rw [routes, hout.1, hout.2, hanswer]
    rfl
  rw [if_pos hroutes, huser, hkeeps.user]

/-- The session asks no more than that, whatever it is answered. -/
theorem query_within : (st.query cfg bytes).Within Unasked (st.lookups cfg bytes) := by
  unfold query lookups
  dsimp only
  cases hff : cfg.fastForward with
  | true => exact fastForward_unasked.within _
  | false =>
    cases htx : st.inTransaction with
    | true =>
      have hroutes : st.routes cfg (textOf bytes) = false := by
        rw [routes, htx]
        rfl
      have hslow : (st.slowQuery cfg (textOf bytes) bytes).Within Unasked (if st.routes cfg (textOf bytes) then
          routerLookups (textOf bytes) st.user [] else pure ()) := slowQuery_within
      rw [hroutes] at hslow
      exact hslow
    | false =>
      refine Prog.within_op fun m => Prog.within_ite (fun _ => ruleFastForward_unasked.within _) fun hm => ?_
      rw [Bool.not_eq_true] at hm
      change (st.slowQuery cfg (textOf bytes) bytes).Within Unasked
        (if !m.elim false (·.fastForward) && st.routes cfg (textOf bytes) then
          routerLookups (textOf bytes) st.user [] else pure ())
      rw [hm]
      exact slowQuery_within

/-! ### No less -/

theorem within_routeNormally (hout : st.effectiveInTx = false) :
    (routerLookups (textOf q.bytes) st.user []).Within (fun _ => False)
      ((st.routeNormally cfg q ryow).residual Unasked goneAway) := by
  rw [routeNormally]
  rw [hout, Prog.residual_bind]
  exact (within_routeQueryInner q.bytes st.txConn
    ⟨q.wasRead && !st.userVarSticky && !ryow, st.user, [], st.sessionInitSqls, none⟩).append _

/-- The hint's connection is lost. -/
theorem routeStickyQuery_goneAway (sql : Bytes) (conn : Option ConnId) (idx : Option Nat) :
    ∃ c idx', (routeStickyQuery sql conn idx).result goneAway = (some c, idx', .error "gone away".toList) := by
  rcases conn with _ | c
  · exact ⟨0, none, rfl⟩
  · exact ⟨c, idx, rfl⟩

theorem within_routeAllowed (hout : st.effectiveInTx = false) :
    (routerLookups (textOf q.bytes) st.user []).Within (fun _ => False)
      ((st.routeAllowed cfg q ryow).residual Unasked goneAway) := by
  have hhint := (applyHint_keeps st q.sql).result (w := goneAway)
  rw [routeAllowed]
  rw [Prog.residual_bind, Prog.residual_of_only (unasked_does (applyHint_keeps _ _)).only, Prog.done_bind]
  generalize (st.applyHint q.sql).result goneAway = st₁ at hhint ⊢
  have hnormal : ∀ st₂, Keeps st₁ st₂ → (routerLookups (textOf q.bytes) st.user []).Within (fun _ => False)
      ((st₂.routeNormally cfg q ryow).residual Unasked goneAway) := by
    intro st₂ h₂
    have hkeeps := hhint.trans h₂
    rw [← hkeeps.user]
    exact within_routeNormally (hkeeps.effectiveInTx.trans hout)
  split
  · rw [routeHinted]
    rw [Prog.residual_bind, Prog.residual_of_only (unasked_hands routeStickyQuery_hands), Prog.done_bind]
    obtain ⟨c, idx, hlost⟩ := routeStickyQuery_goneAway q.bytes st₁.stickyHintConn st₁.stickyHintIdx
    rw [hlost]
    exact hnormal { st₁ with stickyHintConn := none, stickyHintIdx := none, stickyHintActive := false }
      ⟨rfl, rfl, rfl, rfl⟩
  · exact hnormal st₁ (.refl st₁)

variable (q) in
theorem within_checkedQuery (hout : st.effectiveInTx = false) (hlocal : st.localAnswer cfg q = none) :
    (routerLookups (textOf q.bytes) st.user []).Within (fun _ => False)
      ((st.checkedQuery cfg q ryow).residual Unasked goneAway) := by
  rw [checkedQuery]
  rw [Prog.residual_bind, Prog.residual_of_only (unasked_silent overTime_only), overTime_zero rfl,
    Prog.done_bind, if_neg Bool.false_ne_true, Prog.residual_bind,
    Prog.residual_of_only (unasked_silent overIdle_only), overIdle_zero rfl, Prog.done_bind,
    if_neg Bool.false_ne_true, hlocal]
  exact within_routeAllowed hout

theorem within_slowQuery :
    ((if st.routes cfg (textOf bytes) then routerLookups (textOf bytes) st.user [] else pure () :
      Task Unit)).Within (fun _ => False)
      ((st.slowQuery cfg (textOf bytes) bytes).residual Unasked goneAway) := by
  refine Prog.within_ite (fun hroutes => ?_) fun _ => trivial
  have hexpire := (expireRyow_keeps st).result (w := goneAway)
  rw [slowQuery]
  rw [Prog.residual_bind, Prog.residual_of_only (unasked_does (expireRyow_keeps st)).only, Prog.done_bind]
  generalize st.expireRyow.result goneAway = st₁ at hexpire ⊢
  have hgtid := (gtid_keeps cfg st₁ ⟨textOf bytes, bytes, classify (textOf bytes),
    classify (textOf bytes) == .read && !st.inTransaction⟩).result (w := goneAway)
  rw [Prog.residual_bind, Prog.residual_of_only (gtid_keeps _ _ _).only, Prog.done_bind]
  generalize (st₁.gtidForcesPrimary cfg _).result goneAway = g at hgtid ⊢
  have hnoted := (noted_does g.1 (textOf bytes)).result (w := goneAway)
  rw [Prog.residual_bind, Prog.residual_of_only (unasked_does (noted_does _ _)).only, Prog.done_bind]
  generalize ((g.1.noteSessionState (textOf bytes)).noteBegin (textOf bytes)).result goneAway = st₂ at hnoted ⊢
  obtain ⟨huser, hwrites, htx⟩ := hnoted
  have hkeeps := hexpire.trans hgtid
  rw [hkeeps.inTransaction, hkeeps.userVarSticky] at htx
  obtain ⟨hboth, hlocal⟩ := Bool.and_eq_true_iff.1 hroutes
  obtain ⟨hbegin, hpin⟩ := Bool.and_eq_true_iff.1 hboth
  rw [Bool.not_eq_true'] at hbegin hpin
  rw [hbegin, hpin] at htx
  have hst : st.effectiveInTx = st₂.effectiveInTx := by
    rw [htx, effectiveInTx, (Bool.or_eq_false_iff.1 hbegin).1, (Bool.or_eq_false_iff.1 hpin).1]
  rw [← hkeeps.user, ← huser]
  refine within_checkedQuery ⟨textOf bytes, bytes, classify (textOf bytes), _⟩ htx ?_
  exact (localAnswer_congr (hwrites.trans hkeeps.allowWrites) hst.symm rfl rfl).trans
    (Option.isNone_iff_eq_none.1 hlocal)

/-- When every backend is gone, it asks no less. -/
theorem within_query : (st.lookups cfg bytes).Within (fun _ => False)
    ((st.query cfg bytes).residual Unasked goneAway) := by
  unfold query lookups
  dsimp only
  cases hff : cfg.fastForward with
  | true => trivial
  | false =>
    cases htx : st.inTransaction with
    | true => trivial
    | false =>
      refine Prog.within_op fun m => ?_
      change (if !m.elim false (·.fastForward) && st.routes cfg (textOf bytes) then
          routerLookups (textOf bytes) st.user [] else pure () : Task Unit).Within (fun _ => False)
        ((if m.elim false (·.fastForward) then st.ruleFastForward bytes
          else st.slowQuery cfg (textOf bytes) bytes).residual Unasked goneAway)
      cases hm : m.elim false (·.fastForward) with
      | true => trivial
      | false => exact within_slowQuery

/-- A query meets a contract about look-ups exactly when its look-ups do. -/
theorem wp_query_iff {Γ : Type} {P : Protocol Op Res Γ}
    (hfree : ∀ g o, Unasked o → P.owes g o ∧ ∀ r g', P.step g o r g' → g' = g)
    (hgone : ∀ g o, Unasked o → P.step g o (goneAway o) g) {Post : Γ → Prop}
    (hback : ∀ g o, ∃ r g', P.step g o r g' ∧ (Post g' → Post g)) {g : Γ} :
    (st.query cfg bytes).wp P (fun _ => Post) g ↔ (st.lookups cfg bytes).wp P (fun _ => Post) g :=
  ⟨fun h => within_query.wp (fun _ _ h => h.elim) hback (Prog.wp_residual hgone h),
    query_within.wp hfree hback⟩

end MysqlSession

/-! ## The look-ups of the PostgreSQL session -/

namespace PgSession

variable {cfg : PgConfig} {st : PgSession} {sql : Str} {bytes : Bytes} {p : Task Unit}

/-- The query is left to the router, outside a transaction. -/
def routes (cfg : PgConfig) (st : PgSession) (bytes : Bytes) : Bool :=
  !st.inTransaction && ((metaOf bytes).isSome ||
    (st.refusal cfg (textAsSeen bytes)).isNone && !startsTx (textAsSeen bytes))

/-- What the session asks about a query. -/
def lookups (cfg : PgConfig) (st : PgSession) (bytes : Bytes) : Task Unit :=
  if st.routes cfg bytes then routerLookups (textOf ((metaOf bytes).getD bytes)) st.user [] else pure ()

/-- What follows routing asks no rule. -/
theorem settle_unasked (r : Except Str Response) : (st.settle cfg sql r).Only Unasked := by
  rw [settle]
  refine Prog.only_ite ?_ ?_
  · exact Prog.only_bind (unasked_does releaseTx_does).only fun _ => (unasked_does (outcome_does sql r)).only
  · exact Prog.only_bind (unasked_does (followStatus_does _)).only fun _ =>
      (unasked_does (outcome_does sql r)).only

theorem plainQuery_within (h : (st.inTransaction || startsTx sql) = false →
      p = routerLookups (textOf bytes) st.user []) :
    (st.plainQuery cfg sql bytes).Within Unasked p := by
  rw [plainQuery, raise_startsTx]
  refine (unasked_silent ryowActive_only).does.within_bind fun ryow _ => ?_
  exact (routeQueryInner_within h).bind fun r => settle_unasked r.2

theorem metaQuery_within {sql : Bytes}
    (h : st.inTransaction = false → p = routerLookups (textOf sql) st.user []) :
    (st.metaQuery sql).Within Unasked p :=
  (routeQueryInner_within h).bind fun _ => ⟨rfl, fun _ => ⟨rfl, fun _ => trivial⟩⟩

theorem query_eq : st.query cfg bytes = (metaOf bytes).elim
    ((st.refusal cfg (textAsSeen bytes)).elim (st.plainQuery cfg (textAsSeen bytes) bytes)
      (st.refuse "42501")) st.metaQuery := by
  have hmeta : metaOf bytes =
      if startsWith (trim (textOf bytes)) "\\" then translateMetaCommand (trim (textOf bytes)) else none := rfl
  have hseen : textAsSeen bytes = trim (textOf bytes) := rfl
  unfold query
  dsimp only
  rw [← hmeta, ← hseen]
  rcases metaOf bytes with _ | translated
  · rcases st.refusal cfg (textAsSeen bytes) with _ | msg
    · rfl
    · rfl
  · rfl

/-- The session asks no more than that, whatever it is answered. -/
theorem query_within : (st.query cfg bytes).Within Unasked (st.lookups cfg bytes) := by
  rw [query_eq, lookups, routes]
  rcases metaOf bytes with _ | translated
  · rcases st.refusal cfg (textAsSeen bytes) with _ | msg
    · refine plainQuery_within fun hout => ?_
      obtain ⟨htx, hstarts⟩ := Bool.or_eq_false_iff.1 hout
      rw [htx, hstarts]
      rfl
    · exact (unasked_does (refuse_does "42501" msg)).only.within _
  · refine metaQuery_within fun hout => ?_
    rw [hout]
    rfl

/-- When every backend is gone, it asks no less. -/
theorem within_query : (st.lookups cfg bytes).Within (fun _ => False)
    ((st.query cfg bytes).residual Unasked goneAway) := by
  rw [query_eq, lookups, routes]
  refine Prog.within_ite (fun hroutes => ?_) fun _ => trivial
  obtain ⟨htx, hroutes⟩ := Bool.and_eq_true_iff.1 hroutes
  rw [Bool.not_eq_true'] at htx
  generalize metaOf bytes = translation at hroutes ⊢
  generalize st.refusal cfg (textAsSeen bytes) = refused at hroutes ⊢
  rcases translation with _ | translated
  · rcases refused with _ | msg
    · have hstarts : startsTx (textAsSeen bytes) = false := by simpa using hroutes
      change Prog.Within _ _ (Prog.residual _ _ (st.plainQuery cfg (textAsSeen bytes) bytes))
      rw [plainQuery, raise_startsTx, htx, hstarts, Prog.residual_bind,
        Prog.residual_of_only (unasked_silent ryowActive_only), Prog.done_bind, Prog.residual_bind]
      exact (within_routeQueryInner bytes st.txConn ⟨_, st.user, [], [], some st.database⟩).append _
    · cases hroutes
  · change Prog.Within _ _ (Prog.residual _ _ (st.metaQuery translated))
    rw [metaQuery]
    rw [htx, Prog.residual_bind]
    exact (within_routeQueryInner translated st.txConn ⟨true, st.user, [], [], some st.database⟩).append _

/-- A query meets a contract about look-ups exactly when its look-ups do. -/
theorem wp_query_iff {Γ : Type} {P : Protocol Op Res Γ}
    (hfree : ∀ g o, Unasked o → P.owes g o ∧ ∀ r g', P.step g o r g' → g' = g)
    (hgone : ∀ g o, Unasked o → P.step g o (goneAway o) g) {Post : Γ → Prop}
    (hback : ∀ g o, ∃ r g', P.step g o r g' ∧ (Post g' → Post g)) {g : Γ} :
    (st.query cfg bytes).wp P (fun _ => Post) g ↔ (st.lookups cfg bytes).wp P (fun _ => Post) g :=
  ⟨fun h => within_query.wp (fun _ _ h => h.elim) hback (Prog.wp_residual hgone h),
    query_within.wp hfree hback⟩

end PgSession

end TurbineProxy
