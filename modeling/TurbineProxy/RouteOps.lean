import TurbineProxy.Exchanges

/-!
# What the routes carry

Once the text of a query is settled, a route only carries it: for the client it sends the bytes it was
given, it replays the remembered statements, and it names the text to cache and mirror. It asks neither
the rewrite rules nor the query rules again.
-/

namespace TurbineProxy

/-- An operation that hands a query to a backend. -/
def Hands (bytes : Bytes) (sqls : List Str) : Op → Prop
  | .talk .client _ _ p _ => p = .text bytes
  | .talk .replay _ _ p _ => ∃ sql ∈ sqls, p = .text (toUtf8 sql)
  | .talk .. | .rewrite _ | .matchQuery .. | .cacheGet _ | .cachePut .. | .cacheInvalidate _
  | .mirror .. => False
  | _ => True

/-- An operation of a route that carries a query: it may use the cache besides. -/
def Carries (text : Str) (bytes : Bytes) (sqls : List Str) : Op → Prop
  | .talk .client _ _ p _ => p = .text bytes
  | .talk .replay _ _ p _ => ∃ sql ∈ sqls, p = .text (toUtf8 sql)
  | .talk .. | .rewrite _ | .matchQuery .. => False
  | .cacheInvalidate sql | .mirror _ sql => sql = text
  | _ => True

section Routes

variable {text : Str} {bytes : Bytes} {sqls : List Str} {pool : PoolRef} {timeoutMs : Nat} {α : Type}

theorem hands_pool {p : Task α} (h : p.Only OfPool) : p.Only (Hands bytes sqls) := by
  refine h.mono fun o ho => ?_
  cases o <;> trivial

theorem hands_act {o : Op} (ho : o.ofPool = true) : (act o).Only (Hands bytes sqls) :=
  hands_pool (PoolRef.only_act ho)

theorem carries_hands {p : Task α} (h : p.Only (Hands bytes sqls)) :
    p.Only (Carries text bytes sqls) := by
  refine h.mono fun o ho => ?_
  cases o with
  | talk who via c p limit => cases who <;> exact ho
  | _ => trivial

/-! ## Handing over -/

/-- A failed exchange: the connection is dropped. -/
theorem drop_hands {exit : Exit} {c : ConnId} {a : α} :
    ((do
      let _ : Unit ← act (.drop exit c)
      pure a) : Task α).Only (Hands bytes sqls) :=
  ⟨trivial, fun _ => trivial⟩

theorem executeQuery_hands {via : Via} {c : ConnId} :
    (executeQuery .client via c bytes).Only (Hands bytes sqls) :=
  ⟨rfl, fun _ => trivial⟩

theorem execute_hands {c : ConnId} : (execute c bytes timeoutMs).Only (Hands bytes sqls) := by
  refine Prog.only_ite ⟨rfl, fun r => ?_⟩ executeQuery_hands
  rcases r with (e | _) | resp
  · trivial
  · exact ⟨trivial, fun _ => trivial⟩
  · trivial

theorem replay_hands {via : Via} {c : ConnId} {replayed : List Str} (h : ∀ sql ∈ replayed, sql ∈ sqls) :
    (replaySessionVars via c replayed).Only (Hands bytes sqls) := by
  induction replayed with
  | nil => trivial
  | cons sql rest ih =>
    exact ⟨⟨sql, h sql (.head _), rfl⟩, fun _ => ih fun s hs => h s (.tail _ hs)⟩

variable {rt : Route}

theorem retryReplica_hands {c : ConnId} {idx : Option Nat} {e : Str} :
    (retryReplica pool bytes rt c idx e).Only (Hands bytes rt.sessionInitSqls) := by
  rw [retryReplica]
  refine Prog.only_bind (hands_pool (PoolRef.only_recordReplica idx false)) fun _ => ?_
  refine Prog.only_ite (Prog.only_bind (hands_act rfl) fun _ => ?_) drop_hands
  refine Prog.only_bind (hands_pool PoolRef.only_getReplica) fun again => ?_
  rcases again with e | ⟨fresh, freshIdx⟩
  · trivial
  refine Prog.only_bind (replay_hands fun _ h => h) fun _ => ?_
  refine Prog.only_bind executeQuery_hands fun r => ?_
  rcases r with e | response
  · exact drop_hands
  refine Prog.only_bind (hands_pool (PoolRef.only_recordReplica freshIdx true)) fun _ => ?_
  exact Prog.only_bind (hands_pool (PoolRef.only_giveBack fresh freshIdx)) fun _ => trivial

theorem retryPrimary_hands : (retryPrimary pool bytes rt).Only (Hands bytes rt.sessionInitSqls) := by
  rw [retryPrimary]
  refine Prog.only_bind (hands_pool PoolRef.only_getPrimary) fun again => ?_
  rcases again with e | fresh
  · trivial
  refine Prog.only_bind (replay_hands fun _ h => h) fun _ => ?_
  refine Prog.only_bind executeQuery_hands fun r => ?_
  rcases r with e | response
  · exact drop_hands
  refine Prog.only_bind (hands_act rfl) fun _ => ?_
  exact Prog.only_bind (hands_pool (PoolRef.only_putPrimary fresh)) fun _ => trivial

theorem routeInTx_hands {txConn : Option ConnId} :
    (routeInTx pool bytes txConn rt).Only (Hands bytes rt.sessionInitSqls) := by
  rw [routeInTx]
  refine Prog.only_bind (hands_pool (pool.only_ensure txConn)) fun got => ?_
  rcases got with e | c
  · trivial
  refine Prog.only_ite_else (fun hsend => Prog.only_bind (replay_hands fun _ h => h) fun _ => hsend) ?_
  exact Prog.only_bind executeQuery_hands fun _ => trivial

theorem routeStickyQuery_hands {stickyConn : Option ConnId} {stickyIdx : Option Nat} :
    (routeStickyQuery bytes stickyConn stickyIdx).Only (Hands bytes []) := by
  unfold routeStickyQuery
  rcases stickyConn with _ | c
  · refine Prog.only_bind (Prog.only_perform trivial) fun pool => ?_
    refine Prog.only_bind (hands_pool PoolRef.only_getReplica) fun got => ?_
    rcases got with e | ⟨c, idx⟩
    · trivial
    · exact Prog.only_bind executeQuery_hands fun _ => trivial
  · exact Prog.only_bind executeQuery_hands fun _ => trivial

theorem routeFast_hands {txConn : Option ConnId} {inTransaction : Bool} :
    (routeFast bytes txConn inTransaction).Only (Hands bytes []) := by
  rw [routeFast]
  refine Prog.only_bind (Prog.only_perform trivial) fun pool => Prog.only_ite ?_ ?_
  · refine Prog.only_bind (hands_pool (pool.only_ensure txConn)) fun got => ?_
    rcases got with e | c
    · trivial
    · exact Prog.only_bind executeQuery_hands fun _ => trivial
  · refine Prog.only_bind (hands_pool PoolRef.only_getPrimary) fun got => ?_
    rcases got with e | c
    · trivial
    refine Prog.only_bind executeQuery_hands fun r => ?_
    rcases r with e | response
    · exact drop_hands
    · exact Prog.only_bind (hands_pool (PoolRef.only_putPrimary c)) fun _ => trivial

/-! ## Carrying -/

theorem carries_act {o : Op} (ho : o.silent = true) : (act o).Only (Carries text bytes sqls) := by
  refine Prog.only_perform ?_
  cases o <;> trivial

theorem carries_pool {p : Task α} (h : p.Only OfPool) : p.Only (Carries text bytes sqls) :=
  carries_hands (hands_pool h)

theorem fireMirror_carries {m : Option RuleMatch} :
    (fireMirror m text).Only (Carries text bytes sqls) := by
  rw [fireMirror]
  split
  · exact Prog.only_perform rfl
  · trivial

theorem routeHostgroup_carries {hg ttl : Nat} :
    (routeHostgroup pool hg ttl text bytes timeoutMs rt).Only (Carries text bytes sqls) := by
  rw [routeHostgroup]
  refine Prog.only_ite_else (fun hmiss => Prog.only_bind (carries_act rfl) fun cached => ?_) ?_
  · rcases cached with _ | b
    · exact hmiss
    · trivial
  dsimp only [Prog.pure_eq, Prog.done_bind]
  refine Prog.only_bind (carries_pool (PoolRef.only_getHostgroup hg)) fun got => ?_
  rcases got with e | ⟨c, putIdx⟩
  · trivial
  refine Prog.only_bind (carries_hands execute_hands) fun r => ?_
  rcases r with e | response
  · exact carries_hands drop_hands
  refine Prog.only_bind (carries_pool (PoolRef.only_giveBack c putIdx)) fun _ => ?_
  refine Prog.only_ite ⟨trivial, fun _ => trivial⟩ (Prog.only_ite ⟨rfl, fun _ => trivial⟩ trivial)

theorem routeReplica_carries {cacheAllowed : Bool} {m : Option RuleMatch} :
    (routeReplica pool text bytes timeoutMs cacheAllowed m rt).Only
      (Carries text bytes rt.sessionInitSqls) := by
  rw [routeReplica]
  refine Prog.only_bind (carries_pool PoolRef.only_getReplica) fun got => ?_
  rcases got with e | ⟨c, idx⟩
  · trivial
  refine Prog.only_bind (carries_hands (replay_hands fun _ h => h)) fun _ => ?_
  refine Prog.only_bind (carries_hands execute_hands) fun r => ?_
  rcases r with e | response
  · exact carries_hands retryReplica_hands
  · refine Prog.only_bind (carries_pool (PoolRef.only_recordReplica idx true)) fun _ => ?_
    refine Prog.only_bind (carries_pool (PoolRef.only_giveBack c idx)) fun _ => ?_
    refine Prog.only_ite_else (fun hmirror => Prog.only_bind (carries_act rfl) fun _ => hmirror) ?_
    exact Prog.only_bind fireMirror_carries fun _ => trivial

theorem routePrimary_carries {m : Option RuleMatch} :
    (routePrimary pool text bytes timeoutMs m rt).Only (Carries text bytes rt.sessionInitSqls) := by
  rw [routePrimary]
  refine Prog.only_bind (carries_pool PoolRef.only_getPrimary) fun got => ?_
  rcases got with e | c
  · trivial
  refine Prog.only_bind (carries_hands (replay_hands fun _ h => h)) fun _ => ?_
  refine Prog.only_bind (carries_hands execute_hands) fun r => ?_
  rcases r with e | response
  · refine Prog.only_bind (carries_act rfl) fun _ => Prog.only_ite ?_ (carries_hands drop_hands)
    exact Prog.only_bind (carries_act rfl) fun _ => carries_hands retryPrimary_hands
  · refine Prog.only_bind (carries_act rfl) fun _ => ?_
    refine Prog.only_bind (carries_pool (PoolRef.only_putPrimary c)) fun _ => ?_
    refine Prog.only_ite_then (fun hmirror => ⟨rfl, fun _ => hmirror⟩) ?_
    exact Prog.only_bind fireMirror_carries fun _ => trivial

theorem routeSplit_carries {m : Option RuleMatch} :
    (routeSplit pool text bytes timeoutMs m rt).Only (Carries text bytes rt.sessionInitSqls) := by
  rw [routeSplit]
  refine Prog.only_ite_else (fun hmiss => Prog.only_bind (carries_act rfl) fun cached => ?_) ?_
  · rcases cached with _ | b
    · exact hmiss
    · trivial
  · exact Prog.only_ite routeReplica_carries routePrimary_carries

end Routes

/-! ## Routes that do without the cache -/

/-- Operations besides the cache. -/
def Op.offCache : Op → Bool
  | .cacheGet _ | .cachePut .. | .cacheInvalidate _ => false
  | _ => true

/-- The operations besides the cache. -/
abbrev OffCache (o : Op) : Prop := o.offCache = true

section OffCache

variable {α : Type} {pool : PoolRef} {c : ConnId}

theorem offCache_hands {bytes : Bytes} {sqls : List Str} {p : Task α} (h : p.Only (Hands bytes sqls)) :
    p.Only OffCache := by
  refine h.mono fun o ho => ?_
  cases o <;> first | rfl | cases ho

theorem offCache_act {o : Op} (ho : o.offCache = true) : (act o).Only OffCache := Prog.only_perform ho

theorem offCache_exchanges {p : Task α} (h : p.Only Exchanges) : p.Only OffCache := by
  refine h.mono fun o ho => ?_
  cases o <;> first | rfl | cases ho

theorem offCache_routeRaw {packet : Bytes} {txConn : Option ConnId} {inTransaction : Bool}
    {database : Option Str} : (routeRawInner packet txConn inTransaction database).Only OffCache :=
  offCache_exchanges exchanges_routeRawInner

variable {raw : Bytes} {st : MysqlStmtState} {inTransaction : Bool}

theorem offCache_routeStmt : (routeStmtMysqlShadow raw st inTransaction).Only OffCache :=
  offCache_exchanges exchanges_routeStmt

theorem offCache_routePipeline {scan : PgPipelineScan} {shadow : PgStmtShadow}
    {stmtConn txConn : Option ConnId} {database : Option Str} :
    (routeStmtPgShadowInner raw scan shadow stmtConn txConn inTransaction database).Only OffCache :=
  offCache_exchanges exchanges_routePipeline

end OffCache

end TurbineProxy
