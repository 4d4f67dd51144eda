import TurbineProxy.Exchanges
import TurbineProxy.World

/-!
# What only `route_query_inner` does

The per-query timer, the `KILL QUERY` after it and the records of the circuit breakers are all in one
function, `route_query_inner`, outside transactions. Every other function of the routers and of the two
session loops is `Routine`: it may check connections out, use them and return them, but it does none of
these three.

`Session.keeps_react` draws the consequence. What routine operations and `route_query_inner` keep, every
turn of every session keeps.
-/

namespace TurbineProxy

/-- Neither the record of a breaker nor anything of the per-query timer. -/
def Op.routine : Op → Bool
  | .primaryRecord .. | .replicaRecord .. | .spawnKill _ | .talk _ _ _ _ (some _) => false
  | _ => true

/-- The operations besides these. -/
abbrev Routine (o : Op) : Prop := o.routine = true

section Router

variable {α : Type} {pool : PoolRef} {c : ConnId}

theorem routine_lends {p : Task α} (h : p.Only Lends) : p.Only Routine := by
  refine h.mono fun o ho => ?_
  cases o <;> first | rfl | cases ho

theorem routine_act {o : Op} (ho : o.routine = true) : (act o).Only Routine := Prog.only_perform ho

theorem routine_exchanges {p : Task α} (h : p.Only Exchanges) : p.Only Routine := by
  refine h.mono fun o ho => ?_
  cases o with
  | talk who via c p limit => cases limit <;> first | rfl | cases ho
  | _ => first | rfl | cases ho

theorem routine_executeQuery {who : Purpose} {via : Via} {sql : Bytes} :
    (executeQuery who via c sql).Only Routine :=
  routine_exchanges exchanges_executeQuery

theorem routine_sendRaw {who : Purpose} {via : Via} {packet : Bytes} :
    (sendRaw who via c packet).Only Routine :=
  routine_exchanges exchanges_sendRaw

theorem routine_replay {via : Via} (sqls : List Str) : (replaySessionVars via c sqls).Only Routine :=
  routine_exchanges (exchanges_replay _)

/-! ## The other routes -/

theorem routine_routeInTx {sql : Bytes} {txConn : Option ConnId} {rt : Route} :
    (routeInTx pool sql txConn rt).Only Routine :=
  routine_exchanges exchanges_routeInTx

theorem routine_putBack {db : Option Str} : (putPrimary c db).Only Routine :=
  routine_exchanges exchanges_putBack

theorem routine_putBackReplica {idx : Option Nat} : (putReplica c idx).Only Routine :=
  routine_exchanges exchanges_putBackReplica

theorem routine_routeStickyQuery {sql : Bytes} {stickyConn : Option ConnId} {stickyIdx : Option Nat} :
    (routeStickyQuery sql stickyConn stickyIdx).Only Routine :=
  routine_exchanges exchanges_routeStickyQuery

theorem routine_routeRawInner {packet : Bytes} {txConn : Option ConnId} {inTransaction : Bool}
    {database : Option Str} : (routeRawInner packet txConn inTransaction database).Only Routine :=
  routine_exchanges exchanges_routeRawInner

theorem routine_routeFast {sql : Bytes} {txConn : Option ConnId} {inTransaction : Bool} :
    (routeFast sql txConn inTransaction).Only Routine :=
  routine_exchanges exchanges_routeFast

theorem routine_checkReplicaHasGtid {gtid : Str} : (checkReplicaHasGtid gtid).Only Routine :=
  routine_exchanges exchanges_checkReplicaHasGtid

/-! ## Prepared statements and pipelines -/

variable {raw : Bytes} {st : MysqlStmtState} {inTransaction : Bool}

theorem routine_routeStmt : (routeStmtMysqlShadow raw st inTransaction).Only Routine :=
  routine_exchanges exchanges_routeStmt

theorem routine_routePipeline {scan : PgPipelineScan} {shadow : PgStmtShadow}
    {stmtConn txConn : Option ConnId} {database : Option Str} :
    (routeStmtPgShadowInner raw scan shadow stmtConn txConn inTransaction database).Only Routine :=
  routine_exchanges exchanges_routePipeline

/-! ## `route_query_inner` in part -/

/-- The mirror copy, and then the response. -/
theorem routine_mirrored (m : Option RuleMatch) (sql : Str) (response : Response) :
    ((do
      fireMirror m sql
      pure (.ok response)) : Task (Except Str Response)).Only Routine := by
  refine Prog.only_bind ?_ fun _ => Prog.only_done _
  rw [fireMirror]
  split
  · exact routine_act rfl
  · exact Prog.only_done _

/-- Hostgroup routing records nothing; besides its one command it is routine. -/
theorem keeps_routeHostgroup {Γ : Type} {P : Protocol Op Res Γ} {I : Γ → Prop}
    (hroutine : ∀ o, Routine o → ∀ g, I g → P.owes g o ∧ ∀ r g', P.step g o r g' → I g')
    {bytes : Bytes} {timeoutMs : Nat} (hexecute : ∀ c, (execute c bytes timeoutMs).Keeps P I)
    {hg ttl : Nat} {sql : Str} {rt : Route} :
    (routeHostgroup pool hg ttl sql bytes timeoutMs rt).Keeps P I := by
  have hask : ∀ cached : Option Bytes,
      (askHostgroup pool hg ttl sql bytes timeoutMs rt cached).Keeps P I := by
    intro cached
    cases cached with
    | some b => exact Prog.keeps_done _
    | none =>
      refine Prog.keeps_bind (Prog.keeps_of_only hroutine (routine_lends (PoolRef.lends_getHostgroup hg)))
        fun got => ?_
      cases got with
      | error e => exact Prog.keeps_done _
      | ok got =>
        refine Prog.keeps_bind (hexecute got.1) fun r => Prog.keeps_of_only hroutine ?_
        cases r with
        | error e => exact Prog.only_bind (routine_act rfl) fun _ => Prog.only_done _
        | ok response =>
          refine Prog.only_bind (routine_lends (PoolRef.lends_giveBack got.1 got.2)) fun _ => ?_
          refine Prog.only_ite (Prog.only_bind (routine_act rfl) fun _ => Prog.only_done _) ?_
          exact Prog.only_ite (Prog.only_bind (routine_act rfl) fun _ => Prog.only_done _) (Prog.only_done _)
  have hmiss := hask none
  refine Prog.keeps_ite (Prog.keeps_bind (Prog.keeps_of_only hroutine ?_) hask) hmiss
  exact routine_act rfl

end Router

/-! ## A MySQL session -/

namespace MysqlSession

variable {cfg : MysqlConfig} {st : MysqlSession}

theorem routine_flush : st.flush.Only Routine := ⟨rfl, fun _ => trivial⟩

theorem routine_answer (r : Except Str Response) : (st.answer r).Only Routine := by
  cases r with
  | error e => exact Prog.only_bind (routine_act rfl) fun _ => routine_flush
  | ok response =>
    exact Prog.only_bind (routine_act rfl) fun _ => Prog.only_ite routine_flush (Prog.only_done _)

theorem routine_releaseTx : st.releaseTx.Only Routine := by
  rw [releaseTx]
  split
  · exact Prog.only_bind routine_putBack fun _ => Prog.only_done _
  · exact Prog.only_done _

theorem routine_releaseStmt : st.releaseStmt.Only Routine := by
  rw [releaseStmt]
  split
  · exact Prog.only_bind routine_putBack fun _ => Prog.only_done _
  · exact Prog.only_done _

theorem routine_releaseSticky : st.releaseSticky.Only Routine := by
  rw [releaseSticky]
  split
  · exact Prog.only_bind routine_putBackReplica fun _ => Prog.only_done _
  · exact Prog.only_done _

theorem routine_dropTx (exit : Exit) : (st.dropTx exit).Only Routine := by
  rw [dropTx]
  split
  · exact Prog.only_bind (routine_act rfl) fun _ => Prog.only_done _
  · exact Prog.only_done _

theorem routine_resetConnection : st.resetConnection.Only Routine := by
  refine Prog.only_bind routine_releaseStmt fun st₁ => Prog.only_bind routine_releaseTx fun st₂ => ?_
  refine Prog.only_bind routine_releaseSticky fun st₃ => ?_
  exact Prog.only_bind (routine_act rfl) fun _ => Prog.only_done _

theorem routine_cleanup : st.cleanup.Only Routine := by
  refine Prog.only_bind routine_releaseTx fun st₁ => Prog.only_bind routine_releaseStmt fun st₂ => ?_
  exact Prog.only_bind routine_releaseSticky fun _ => Prog.only_done _

theorem routine_fastForward (sql : Str) (bytes : Bytes) : (st.fastForward sql bytes).Only Routine := by
  refine Prog.only_bind routine_routeFast fun r => ?_
  refine Prog.only_ite (Prog.only_bind routine_releaseTx fun _ => routine_answer _) ?_
  exact routine_answer _

theorem routine_ruleFastForward (bytes : Bytes) : (st.ruleFastForward bytes).Only Routine :=
  Prog.only_bind routine_routeFast fun _ => routine_answer _

theorem routine_expireRyow : st.expireRyow.Only Routine := by
  rw [expireRyow]
  split
  · exact Prog.only_bind (routine_act rfl) fun _ => Prog.only_done _
  · exact Prog.only_done _

theorem routine_gtidForcesPrimary {q : Query} : (st.gtidForcesPrimary cfg q).Only Routine := by
  rw [gtidForcesPrimary]
  split
  · exact Prog.only_bind routine_checkReplicaHasGtid fun _ => Prog.only_done _
  · exact Prog.only_done _

theorem routine_noteBegin (sql : Str) : (st.noteBegin sql).Only Routine :=
  Prog.only_ite (Prog.only_bind (routine_act rfl) fun _ => Prog.only_done _) (Prog.only_done _)

theorem routine_overTime : (st.overTime cfg).Only Routine := by
  rw [overTime]
  split
  · exact Prog.only_bind (routine_act rfl) fun _ => Prog.only_done _
  · exact Prog.only_done _

theorem routine_overIdle : (st.overIdle cfg).Only Routine := by
  rw [overIdle]
  split
  · exact Prog.only_bind (routine_act rfl) fun _ => Prog.only_done _
  · exact Prog.only_done _

theorem routine_killTx (exit : Exit) (msg : Str) : (st.killTx exit msg).Only Routine :=
  Prog.only_bind (routine_dropTx exit) fun _ => Prog.only_bind (routine_act rfl) fun _ => routine_flush

theorem routine_applyHint (sql : Str) : (st.applyHint sql).Only Routine := by
  rw [applyHint]
  split
  · exact Prog.only_done _
  · exact Prog.only_ite routine_releaseSticky (Prog.only_done _)
  · exact Prog.only_done _

theorem routine_finishQuery (q : Query) : (st.finishQuery q).Only Routine :=
  Prog.only_ite (Prog.only_bind routine_releaseTx fun _ => routine_flush) routine_flush

theorem routine_afterResponse (q : Query) (response : Response) :
    (st.afterResponse cfg q response).Only Routine :=
  Prog.only_bind (routine_act rfl) fun _ => Prog.only_ite (routine_finishQuery q) (Prog.only_done _)

theorem routine_afterError (q : Query) (e : Str) : (st.afterError cfg q e).Only Routine := by
  have hlast : ∀ st₁ : MysqlSession, (st₁.tellError cfg q e).Only Routine := by
    intro st₁
    refine Prog.only_bind (routine_act rfl) fun _ => Prog.only_ite ?_ (routine_finishQuery q)
    refine Prog.only_bind (routine_act rfl) fun now => Prog.only_ite ?_ (routine_finishQuery q)
    exact Prog.only_bind (routine_act rfl) fun _ => Prog.only_done _
  exact Prog.only_ite (Prog.only_bind (routine_dropTx _) hlast) (hlast st)

theorem routine_openRyow (q : Query) (r : Except Str Response) : (st.openRyow cfg q r).Only Routine :=
  Prog.only_ite (Prog.only_bind (routine_act rfl) fun _ => Prog.only_done _) (Prog.only_done _)

theorem routine_touchTx : st.touchTx.Only Routine :=
  Prog.only_ite (Prog.only_bind (routine_act rfl) fun _ => Prog.only_done _) (Prog.only_done _)

theorem routine_afterRoute (q : Query) (r : Except Str Response) : (st.afterRoute cfg q r).Only Routine := by
  refine Prog.only_bind (routine_openRyow q r) fun st₁ => Prog.only_bind routine_touchTx fun st₂ => ?_
  cases r with
  | ok response => exact routine_afterResponse q response
  | error e => exact routine_afterError q e

theorem routine_other (raw : Bytes) : (st.other raw).Only Routine :=
  Prog.only_bind routine_routeRawInner fun _ => routine_answer _

theorem routine_settleStmt (r : Except Str Response) : (st.settleStmt r).Only Routine := by
  have hlast : ∀ sent : Bool, (st.flushStmt sent).Only Routine := by
    intro sent
    refine Prog.only_ite (Prog.only_bind (routine_act rfl) fun flushed => ?_) (Prog.only_done _)
    refine Prog.only_ite ?_ (Prog.only_done _)
    exact Prog.only_ite routine_releaseStmt (Prog.only_done _)
  cases r with
  | ok response => exact Prog.only_ite (hlast true) (Prog.only_bind (routine_act rfl) hlast)
  | error e => exact Prog.only_bind (routine_act rfl) fun _ => hlast true

theorem routine_stmt (raw : Bytes) : (st.stmt raw).Only Routine :=
  Prog.only_bind routine_routeStmt fun _ => routine_settleStmt _

/-! What its turns keep. -/

section Keeps

variable {Γ : Type} {P : Protocol Op Res Γ} {I : Γ → Prop}
  (hroutine : ∀ o, Routine o → ∀ g, I g → P.owes g o ∧ ∀ r g', P.step g o r g' → I g')
  (hroute : ∀ sql txConn inTransaction rt, (routeQueryInner sql txConn inTransaction rt).Keeps P I)

include hroutine hroute

theorem keeps_routeNormally (q : Query) (ryowActive : Bool) :
    (st.routeNormally cfg q ryowActive).Keeps P I :=
  Prog.keeps_bind (hroute _ _ _ _) fun _ => Prog.keeps_of_only hroutine (routine_afterRoute q _)

theorem keeps_routeHinted (q : Query) (ryowActive : Bool) : (st.routeHinted cfg q ryowActive).Keeps P I := by
  refine Prog.keeps_bind (Prog.keeps_of_only hroutine routine_routeStickyQuery) fun r => ?_
  dsimp only
  split
  · exact Prog.keeps_of_only hroutine (routine_answer _)
  · refine Prog.keeps_ite ?_ (Prog.keeps_of_only hroutine ⟨rfl, fun _ => ⟨rfl, fun _ => trivial⟩⟩)
    have hnormal : ∀ st₁ : MysqlSession, (st₁.routeNormally cfg q ryowActive).Keeps P I := fun _ =>
      keeps_routeNormally hroutine hroute q ryowActive
    split
    · exact Prog.keeps_bind (Prog.keeps_of_only hroutine (routine_act rfl)) fun _ => hnormal _
    · exact hnormal _

theorem keeps_routeAllowed (q : Query) (ryowActive : Bool) :
    (st.routeAllowed cfg q ryowActive).Keeps P I := by
  refine Prog.keeps_bind (Prog.keeps_of_only hroutine (routine_applyHint q.sql)) fun st₁ => ?_
  exact Prog.keeps_ite (keeps_routeHinted hroutine hroute q ryowActive)
    (keeps_routeNormally hroutine hroute q ryowActive)

theorem keeps_checkedQuery (q : Query) (ryowActive : Bool) :
    (st.checkedQuery cfg q ryowActive).Keeps P I := by
  refine Prog.keeps_bind (Prog.keeps_of_only hroutine routine_overTime) fun late => ?_
  refine Prog.keeps_ite (Prog.keeps_of_only hroutine (routine_killTx _ _)) ?_
  refine Prog.keeps_bind (Prog.keeps_of_only hroutine routine_overIdle) fun stale => ?_
  refine Prog.keeps_ite (Prog.keeps_of_only hroutine (routine_killTx _ _)) ?_
  split
  · exact Prog.keeps_of_only hroutine ⟨rfl, fun _ => ⟨rfl, fun _ => trivial⟩⟩
  · exact keeps_routeAllowed hroutine hroute q ryowActive

theorem keeps_slowQuery (sql : Str) (bytes : Bytes) : (st.slowQuery cfg sql bytes).Keeps P I := by
  refine Prog.keeps_bind (Prog.keeps_of_only hroutine routine_expireRyow) fun st₁ => ?_
  refine Prog.keeps_bind (Prog.keeps_of_only hroutine routine_gtidForcesPrimary) fun g => ?_
  refine Prog.keeps_bind (Prog.keeps_of_only hroutine (routine_noteBegin sql)) fun st₂ => ?_
  exact keeps_checkedQuery hroutine hroute _ _

theorem keeps_query (bytes : Bytes) : (st.query cfg bytes).Keeps P I := by
  refine Prog.keeps_ite (Prog.keeps_of_only hroutine (routine_fastForward _ bytes)) ?_
  have hslow : ∀ ff : Bool, (if ff then st.ruleFastForward bytes
      else st.slowQuery cfg (textOf bytes) bytes).Keeps P I := by
    intro ff
    exact Prog.keeps_ite (Prog.keeps_of_only hroutine (routine_ruleFastForward bytes))
      (keeps_slowQuery hroutine hroute _ bytes)
  refine Prog.keeps_ite (hslow false) (Prog.keeps_bind ?_ hslow)
  exact Prog.keeps_of_only hroutine ⟨rfl, fun _ => trivial⟩

theorem keeps_react {e : MysqlEvent} {p : Task MysqlSession} (h : st.react cfg e = some p) :
    p.Keeps P I := by
  obtain ⟨-, rfl⟩ := react_eq_some h
  cases e with
  | cleanup =>
    exact Prog.keeps_of_only hroutine routine_cleanup
  | quit =>
    exact Prog.keeps_done _
  | ping =>
    exact Prog.keeps_of_only hroutine ⟨rfl, fun _ => trivial⟩
  | resetConnection =>
    exact Prog.keeps_of_only hroutine routine_resetConnection
  | query bytes =>
    exact keeps_query hroutine hroute bytes
  | stmt raw =>
    exact Prog.keeps_of_only hroutine (routine_stmt raw)
  | other raw =>
    exact Prog.keeps_of_only hroutine (routine_other raw)

end Keeps

end MysqlSession

/-! ## A PostgreSQL session -/

namespace PgSession

variable {cfg : PgConfig} {st : PgSession}

theorem routine_flush : st.flush.Only Routine := ⟨rfl, fun _ => trivial⟩

theorem routine_refuse (code : String) (msg : Str) : (st.refuse code msg).Only Routine :=
  ⟨rfl, fun _ => ⟨rfl, fun _ => trivial⟩⟩

theorem routine_releaseTx : st.releaseTx.Only Routine := by
  rw [releaseTx]
  split
  · exact Prog.only_bind routine_putBack fun _ => Prog.only_done _
  · exact Prog.only_done _

theorem routine_releaseStmt : st.releaseStmt.Only Routine := by
  rw [releaseStmt]
  split
  · refine Prog.only_bind routine_executeQuery fun _ => ?_
    exact Prog.only_bind routine_putBack fun _ => Prog.only_done _
  · exact Prog.only_done _

theorem routine_dropTx : st.dropTx.Only Routine := by
  rw [dropTx]
  split
  · exact Prog.only_bind (routine_act rfl) fun _ => Prog.only_done _
  · exact Prog.only_done _

theorem routine_start : (st.start cfg).Only Routine := by
  refine Prog.only_ite (Prog.only_done _) ?_
  refine Prog.only_bind (routine_lends PoolRef.lends_getPrimary) fun got => ?_
  cases got with
  | error e => exact Prog.only_done _
  | ok c =>
    refine Prog.only_bind (routine_replay _) fun _ => ?_
    exact Prog.only_bind routine_putBack fun _ => Prog.only_done _

theorem routine_cleanup : st.cleanup.Only Routine :=
  Prog.only_bind routine_releaseTx fun _ => Prog.only_bind routine_releaseStmt fun _ => Prog.only_done _

theorem routine_ryowActive : (st.ryowActive cfg).Only Routine := by
  rw [ryowActive]
  split
  · exact Prog.only_bind (routine_act rfl) fun _ => Prog.only_done _
  · exact Prog.only_done _

theorem routine_followStatus (status : Option UInt8) : (st.followStatus status).Only Routine := by
  cases status with
  | none => exact Prog.only_done _
  | some status => exact Prog.only_ite (Prog.only_done _) routine_releaseTx

theorem routine_outcome (sql : Str) (r : Except Str Response) : (st.outcome cfg sql r).Only Routine := by
  cases r with
  | ok response =>
    have hsend : ∀ st₁ : PgSession, (st₁.forward response).Only Routine := fun st₁ =>
      Prog.only_bind (routine_act rfl) fun _ => Prog.only_ite routine_flush (Prog.only_done _)
    exact Prog.only_ite (Prog.only_bind (routine_act rfl) fun _ => hsend _) (hsend st)
  | error e =>
    refine Prog.only_ite (Prog.only_bind routine_dropTx fun st₁ => ?_) ?_
    · exact Prog.only_bind (routine_act rfl) fun _ => routine_flush
    · exact Prog.only_bind (routine_act rfl) fun _ => routine_flush

theorem routine_settleStmt (r : Except Str Response) : (st.settleStmt r).Only Routine := by
  have hlast : ∀ (st₁ : PgSession) (sent : Bool), (st₁.flushStmt sent).Only Routine := by
    intro st₁ sent
    refine Prog.only_ite (Prog.only_bind (routine_act rfl) fun flushed => ?_) (Prog.only_done _)
    refine Prog.only_ite ?_ (Prog.only_done _)
    exact Prog.only_ite routine_releaseStmt (Prog.only_done _)
  refine Prog.only_bind (routine_followStatus _) fun st₁ => ?_
  cases r with
  | ok response => exact Prog.only_bind (routine_act rfl) fun sent => hlast _ sent
  | error e => exact Prog.only_bind (routine_act rfl) fun _ => hlast _ true

theorem routine_stmt (raw : Bytes) : (st.stmt raw).Only Routine :=
  Prog.only_bind routine_routePipeline fun _ => routine_settleStmt _

theorem routine_other (raw : Bytes) : (st.other cfg raw).Only Routine := by
  refine Prog.only_bind (routine_lends PoolRef.lends_getPrimary) fun got => ?_
  cases got with
  | error e => exact Prog.only_bind (routine_refuse _ _) fun _ => Prog.only_done _
  | ok c =>
    refine Prog.only_bind routine_sendRaw fun r => ?_
    cases r with
    | ok response =>
      refine Prog.only_bind routine_putBack fun _ => Prog.only_bind (routine_act rfl) fun _ => ?_
      exact Prog.only_ite routine_flush (Prog.only_done _)
    | error e =>
      refine Prog.only_bind (routine_act rfl) fun _ => Prog.only_bind routine_flush fun _ => ?_
      exact Prog.only_bind (routine_act rfl) fun _ => Prog.only_done _

section Keeps

variable {Γ : Type} {P : Protocol Op Res Γ} {I : Γ → Prop}
  (hroutine : ∀ o, Routine o → ∀ g, I g → P.owes g o ∧ ∀ r g', P.step g o r g' → I g')
  (hroute : ∀ sql txConn inTransaction rt, (routeQueryInner sql txConn inTransaction rt).Keeps P I)

include hroutine hroute

theorem keeps_metaQuery (sql : Bytes) : (st.metaQuery sql).Keeps P I :=
  Prog.keeps_bind (hroute _ _ _ _) fun _ =>
    Prog.keeps_of_only hroutine ⟨rfl, fun _ => ⟨rfl, fun _ => trivial⟩⟩

theorem keeps_plainQuery (sql : Str) (bytes : Bytes) : (st.plainQuery cfg sql bytes).Keeps P I := by
  refine Prog.keeps_bind (Prog.keeps_of_only hroutine routine_ryowActive) fun ryow => ?_
  refine Prog.keeps_bind (hroute _ _ _ _) fun r => ?_
  -- what follows the routing is routine, whichever way the flag goes
  have hlast : ∀ st₁ : PgSession, (st₁.outcome cfg sql r.2).Keeps P I := fun st₁ =>
    Prog.keeps_of_only hroutine (routine_outcome sql r.2)
  refine Prog.keeps_ite ?_ ?_
  · exact Prog.keeps_bind (Prog.keeps_of_only hroutine routine_releaseTx) hlast
  · exact Prog.keeps_bind (Prog.keeps_of_only hroutine (routine_followStatus _)) hlast

theorem keeps_query (bytes : Bytes) : (st.query cfg bytes).Keeps P I := by
  unfold query
  dsimp only
  split
  · exact keeps_metaQuery hroutine hroute _
  · split
    · exact Prog.keeps_of_only hroutine (routine_refuse _ _)
    · exact keeps_plainQuery hroutine hroute _ bytes

theorem keeps_react {e : PgEvent} {p : Task PgSession} (h : st.react cfg e = some p) : p.Keeps P I := by
  obtain ⟨-, rfl⟩ := react_eq_some h
  cases e with
  | start =>
    exact Prog.keeps_of_only hroutine routine_start
  | cleanup =>
    exact Prog.keeps_of_only hroutine routine_cleanup
  | quit =>
    exact Prog.keeps_done _
  | query bytes =>
    exact keeps_query hroutine hroute bytes
  | stmt raw =>
    exact Prog.keeps_of_only hroutine (routine_stmt raw)
  | other raw =>
    exact Prog.keeps_of_only hroutine (routine_other raw)

end Keeps

end PgSession

/-- What the routine operations and `route_query_inner` keep, every turn of a session keeps. -/
theorem Session.keeps_react {Γ : Type} {P : Protocol Op Res Γ} {I : Γ → Prop} {cfg : ProxyConfig}
    {st : Session} {m : SessionEvent} {p : Task Session}
    (hroutine : ∀ o, Routine o → ∀ g, I g → P.owes g o ∧ ∀ r g', P.step g o r g' → I g')
    (hroute : ∀ sql txConn inTransaction rt, (routeQueryInner sql txConn inTransaction rt).Keeps P I)
    (h : st.react cfg m = some p) : p.Keeps P I := by
  cases st with
  | mysql st =>
    cases m with
    | pg e => cases h
    | mysql e =>
      obtain ⟨q, hq, rfl⟩ := Option.map_eq_some_iff.mp h
      exact Prog.keeps_bind (MysqlSession.keeps_react hroutine hroute hq) fun _ => Prog.keeps_done _
  | pg st =>
    cases m with
    | mysql e => cases h
    | pg e =>
      obtain ⟨q, hq, rfl⟩ := Option.map_eq_some_iff.mp h
      exact Prog.keeps_bind (PgSession.keeps_react hroutine hroute hq) fun _ => Prog.keeps_done _

end TurbineProxy
