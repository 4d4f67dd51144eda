import TurbineProxy.PoolOps

/-!
# Plain exchanges with the backends

What a route does besides its pools is to send something on a connection and wait for the answer. Most functions of
the routers do nothing else: they set no timer, they touch neither the cache nor the rules, and they tell the client
nothing. `route_query_inner` outside transactions is the one that does more.
-/

namespace TurbineProxy

/-- An exchange without a limit, or what it takes to have a connection for it. -/
def Op.exchanges : Op → Bool
  | .readPool | .talk _ _ _ _ none => true
  | o => o.lends

/-- The operations that look at the pool, lend a connection or exchange something on one under no timer. -/
abbrev Exchanges (o : Op) : Prop := o.exchanges = true

section Router

variable {α : Type} {pool : PoolRef} {c : ConnId}

theorem exchanges_lends {p : Task α} (h : p.Only Lends) : p.Only Exchanges := by
  refine h.mono fun o ho => ?_
  cases o <;> first | rfl | cases ho

theorem exchanges_act {o : Op} (ho : o.exchanges = true) : (act o).Only Exchanges := Prog.only_perform ho

theorem exchanges_executeQuery {who : Purpose} {via : Via} {sql : Bytes} :
    (executeQuery who via c sql).Only Exchanges := ⟨rfl, fun _ => trivial⟩

theorem exchanges_sendRaw {who : Purpose} {via : Via} {packet : Bytes} :
    (sendRaw who via c packet).Only Exchanges := ⟨rfl, fun _ => trivial⟩

theorem exchanges_sendRawNoResponse {via : Via} {packet : Bytes} :
    (sendRawNoResponse via c packet).Only Exchanges := ⟨rfl, fun _ => trivial⟩

theorem exchanges_replay {via : Via} (sqls : List Str) : (replaySessionVars via c sqls).Only Exchanges := by
  induction sqls with
  | nil => exact Prog.only_done _
  | cons sql rest ih => exact Prog.only_bind exchanges_executeQuery fun _ => ih

/-! ## Routes -/

theorem exchanges_routeInTx {sql : Bytes} {txConn : Option ConnId} {rt : Route} :
    (routeInTx pool sql txConn rt).Only Exchanges := by
  refine Prog.only_bind (exchanges_lends (PoolRef.lends_ensure txConn)) fun got => ?_
  cases got with
  | error e => exact Prog.only_done _
  | ok c =>
    refine Prog.only_ite_else (fun hsend => Prog.only_bind (exchanges_replay _) fun _ => hsend) ?_
    exact Prog.only_bind exchanges_executeQuery fun _ => Prog.only_done _

theorem exchanges_putBack {db : Option Str} : (putPrimary c db).Only Exchanges :=
  Prog.only_bind (exchanges_act rfl) fun _ => exchanges_lends (PoolRef.lends_putPrimary c)

theorem exchanges_putBackReplica {idx : Option Nat} : (putReplica c idx).Only Exchanges :=
  Prog.only_bind (exchanges_act rfl) fun _ => exchanges_lends (PoolRef.lends_giveBack c idx)

theorem exchanges_routeStickyQuery {sql : Bytes} {stickyConn : Option ConnId} {stickyIdx : Option Nat} :
    (routeStickyQuery sql stickyConn stickyIdx).Only Exchanges := by
  cases stickyConn with
  | some c => exact Prog.only_bind exchanges_executeQuery fun _ => Prog.only_done _
  | none =>
    refine Prog.only_bind (exchanges_act rfl) fun pool => ?_
    refine Prog.only_bind (exchanges_lends PoolRef.lends_getReplica) fun got => ?_
    cases got with
    | error e => exact Prog.only_done _
    | ok got => exact Prog.only_bind exchanges_executeQuery fun _ => Prog.only_done _

theorem exchanges_routeRawInner {packet : Bytes} {txConn : Option ConnId} {inTransaction : Bool}
    {database : Option Str} : (routeRawInner packet txConn inTransaction database).Only Exchanges := by
  refine Prog.only_bind (exchanges_act rfl) fun pool => Prog.only_ite ?_ ?_
  · refine Prog.only_bind (exchanges_lends (PoolRef.lends_ensure txConn)) fun got => ?_
    cases got with
    | error e => exact Prog.only_done _
    | ok c => exact Prog.only_bind exchanges_sendRaw fun _ => Prog.only_done _
  · refine Prog.only_bind (exchanges_lends PoolRef.lends_getPrimary) fun got => ?_
    cases got with
    | error e => exact Prog.only_done _
    | ok c =>
      refine Prog.only_bind exchanges_sendRaw fun r => ?_
      cases r with
      | error e => exact Prog.only_bind (exchanges_act rfl) fun _ => Prog.only_done _
      | ok response =>
        exact Prog.only_bind (exchanges_lends (PoolRef.lends_putPrimary c)) fun _ => Prog.only_done _

theorem exchanges_routeFast {sql : Bytes} {txConn : Option ConnId} {inTransaction : Bool} :
    (routeFast sql txConn inTransaction).Only Exchanges := by
  refine Prog.only_bind (exchanges_act rfl) fun pool => Prog.only_ite ?_ ?_
  · refine Prog.only_bind (exchanges_lends (PoolRef.lends_ensure txConn)) fun got => ?_
    cases got with
    | error e => exact Prog.only_done _
    | ok c => exact Prog.only_bind exchanges_executeQuery fun _ => Prog.only_done _
  · refine Prog.only_bind (exchanges_lends PoolRef.lends_getPrimary) fun got => ?_
    cases got with
    | error e => exact Prog.only_done _
    | ok c =>
      refine Prog.only_bind exchanges_executeQuery fun r => ?_
      cases r with
      | error e => exact Prog.only_bind (exchanges_act rfl) fun _ => Prog.only_done _
      | ok response =>
        exact Prog.only_bind (exchanges_lends (PoolRef.lends_putPrimary c)) fun _ => Prog.only_done _

theorem exchanges_checkReplicaHasGtid {gtid : Str} : (checkReplicaHasGtid gtid).Only Exchanges := by
  refine Prog.only_bind (exchanges_act rfl) fun pool => Prog.only_ite (Prog.only_done _) ?_
  refine Prog.only_bind (exchanges_lends PoolRef.lends_getReplica) fun got => ?_
  cases got with
  | error e => exact Prog.only_done _
  | ok got =>
    refine Prog.only_bind exchanges_executeQuery fun r => ?_
    cases r with
    | error e => exact Prog.only_bind (exchanges_act rfl) fun _ => Prog.only_done _
    | ok response => exact Prog.only_bind (exchanges_lends (PoolRef.lends_putReplica _ _)) fun _ => Prog.only_done _

/-! ## Prepared statements and pipelines -/

theorem exchanges_reprepare (jobs : List (Nat × Bytes)) : (reprepare c jobs).Only Exchanges := by
  induction jobs with
  | nil => exact Prog.only_done _
  | cons job rest ih =>
    refine Prog.only_bind exchanges_sendRaw fun r => Prog.only_bind ih fun others => ?_
    cases r with
    | error e => exact Prog.only_done _
    | ok resp =>
      dsimp only
      split <;> exact Prog.only_done _

variable {raw : Bytes} {st : MysqlStmtState} {inTransaction : Bool}

theorem exchanges_stmtPrepare {query : Bytes} :
    (stmtPrepare pool raw query c st inTransaction).Only Exchanges := by
  refine Prog.only_bind exchanges_sendRaw fun r => ?_
  cases r with
  | ok response => exact Prog.only_done _
  | error e =>
    refine Prog.only_ite ?_ (Prog.only_done _)
    refine Prog.only_bind (exchanges_lends PoolRef.lends_getPrimary) fun again => ?_
    cases again with
    | error e => exact Prog.only_done _
    | ok fresh =>
      refine Prog.only_bind (exchanges_act rfl) fun _ => Prog.only_bind exchanges_sendRaw fun r => ?_
      cases r <;> exact Prog.only_done _

theorem exchanges_executeAgain {proxyId backendId : Nat} :
    (executeAgain pool raw proxyId backendId c st).Only Exchanges := by
  refine Prog.only_bind (exchanges_lends PoolRef.lends_getPrimary) fun again => ?_
  cases again with
  | error e => exact Prog.only_done _
  | ok fresh =>
    refine Prog.only_bind (exchanges_reprepare _) fun newIds => ?_
    refine Prog.only_bind (exchanges_act rfl) fun _ => ?_
    exact Prog.only_bind exchanges_sendRaw fun _ => Prog.only_done _

theorem exchanges_stmtWithId {cmd : UInt8} :
    (stmtWithId pool cmd raw c st inTransaction).Only Exchanges := by
  rw [stmtWithId]
  split
  · exact Prog.only_bind exchanges_sendRaw fun _ => Prog.only_done _
  · refine Prog.only_ite (Prog.only_bind exchanges_sendRawNoResponse fun r => ?_)
      (Prog.only_bind exchanges_sendRaw fun r => ?_)
    · cases r <;> exact Prog.only_done _
    · cases r with
      | ok response => exact Prog.only_done _
      | error e => exact Prog.only_ite exchanges_executeAgain (Prog.only_done _)

theorem exchanges_routeStmt : (routeStmtMysqlShadow raw st inTransaction).Only Exchanges := by
  refine Prog.only_bind (exchanges_act rfl) fun pool => ?_
  cases raw with
  | nil => exact Prog.only_done _
  | cons cmd query =>
    refine Prog.only_bind (exchanges_lends (PoolRef.lends_ensure _)) fun got => ?_
    cases got with
    | error e => exact Prog.only_done _
    | ok c =>
      refine Prog.only_ite exchanges_stmtPrepare (Prog.only_ite exchanges_stmtWithId ?_)
      exact Prog.only_bind exchanges_sendRaw fun _ => Prog.only_done _

theorem exchanges_reprepareAll (jobs : List Bytes) : (reprepareAll c jobs).Only Exchanges := by
  induction jobs with
  | nil => exact Prog.only_done _
  | cons bytes rest ih => exact Prog.only_bind exchanges_sendRaw fun _ => ih

theorem exchanges_routePipeline {scan : PgPipelineScan} {shadow : PgStmtShadow}
    {stmtConn txConn : Option ConnId} {database : Option Str} :
    (routeStmtPgShadowInner raw scan shadow stmtConn txConn inTransaction database).Only Exchanges := by
  refine Prog.only_bind (exchanges_act rfl) fun pool => ?_
  refine Prog.only_bind (exchanges_lends (PoolRef.lends_ensure _)) fun got => ?_
  cases got with
  | error e => exact Prog.only_done _
  | ok c =>
    refine Prog.only_ite (Prog.only_bind exchanges_sendRaw fun _ => Prog.only_done _) ?_
    refine Prog.only_bind exchanges_sendRaw fun r => ?_
    cases r with
    | ok response => exact Prog.only_done _
    | error e =>
      refine Prog.only_ite ?_ (Prog.only_done _)
      refine Prog.only_bind (exchanges_lends PoolRef.lends_getPrimary) fun again => ?_
      cases again with
      | error e => exact Prog.only_done _
      | ok fresh =>
        refine Prog.only_bind (exchanges_reprepareAll _) fun _ => Prog.only_bind exchanges_sendRaw fun retry => ?_
        exact Prog.only_bind (exchanges_act rfl) fun _ => Prog.only_done _

end Router

end TurbineProxy
