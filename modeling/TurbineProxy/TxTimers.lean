import TurbineProxy.Routine

/-!
# What a session does to the timers of its transaction

Error 1205 tells the client that its transaction was killed, for its length or for its idleness. Everything else that
a session does is `Mild`, and `Tame` if it sends no command of the client besides. What the functions of the session
loop do to `tx_start`, `last_query_in_tx` and the flag is stated with it: but for the BEGIN, the kills and the update
after a routed query they leave all three alone, or the transaction is over (`MysqlSession.Rests`).
-/

namespace TurbineProxy

open Str

/-! ## Mild and tame operations -/

/-- Not the error of a killed transaction. -/
def Op.mild : Op → Bool
  | .toClient (.error "1205" _) => false
  | _ => true

/-- Nor a command of the client. -/
def Op.tame : Op → Bool
  | .talk .client .. => false
  | o => o.mild

/-- The operations that kill nothing. -/
abbrev Mild (o : Op) : Prop := o.mild = true

/-- The operations that kill nothing and send no statement. -/
abbrev Tame (o : Op) : Prop := o.tame = true

theorem Tame.mild {o : Op} (h : Tame o) : Mild o := by
  cases o with
  | talk who via c p limit => rfl
  | _ => exact h

section Router

variable {α : Type} {pool : PoolRef} {c : ConnId} {sql : Str} {bytes : Bytes} {timeoutMs : Nat} {rt : Route}

theorem tame_act {o : Op} (ho : o.tame = true) : (act o).Only Tame := Prog.only_perform ho

theorem mild_act {o : Op} (ho : o.mild = true) : (act o).Only Mild := Prog.only_perform ho

theorem mild_tame {p : Task α} (h : p.Only Tame) : p.Only Mild := h.mono fun _ ho => ho.mild

theorem tame_pool {p : Task α} (h : p.Only OfPool) : p.Only Tame := by
  refine h.mono fun o ho => ?_
  cases o <;> first | rfl | cases ho

theorem mild_pool {p : Task α} (h : p.Only OfPool) : p.Only Mild := mild_tame (tame_pool h)

theorem mild_exchanges {p : Task α} (h : p.Only Exchanges) : p.Only Mild := by
  refine h.mono fun o ho => ?_
  cases o <;> first | rfl | cases ho

theorem mild_execute : (execute c bytes timeoutMs).Only Mild := by
  refine Prog.only_ite (Prog.only_bind (mild_act rfl) fun r => ?_) (mild_exchanges exchanges_executeQuery)
  rcases r with (e | _) | response
  · exact Prog.only_done _
  · exact Prog.only_bind (mild_act rfl) fun _ => Prog.only_done _
  · exact Prog.only_done _

theorem mild_drop {exit : Exit} {a : α} : ((do
    let _ : Unit ← act (.drop exit c)
    pure a) : Task α).Only Mild :=
  Prog.only_bind (mild_act rfl) fun _ => Prog.only_done _

/-! The routes send what they send to the backends. -/

theorem mild_fireMirror {m : Option RuleMatch} : (fireMirror m sql).Only Mild := by
  rw [fireMirror]
  split
  · exact mild_act rfl
  · exact Prog.only_done _

theorem mild_routeHostgroup {hg ttl : Nat} : (routeHostgroup pool hg ttl sql bytes timeoutMs rt).Only Mild := by
  rw [routeHostgroup]
  refine Prog.only_ite_else (fun hmiss => Prog.only_bind (mild_act rfl) fun cached => ?_) ?_
  · cases cached with
    | none => exact hmiss
    | some b => exact Prog.only_done _
  dsimp only [Prog.pure_eq, Prog.done_bind]
  refine Prog.only_bind (mild_pool (PoolRef.only_getHostgroup hg)) fun got => ?_
  cases got with
  | error e => exact Prog.only_done _
  | ok got =>
    refine Prog.only_bind mild_execute fun r => ?_
    cases r with
    | error e => exact mild_drop
    | ok response =>
      refine Prog.only_bind (mild_pool (PoolRef.only_giveBack _ _)) fun _ => ?_
      refine Prog.only_ite (Prog.only_bind (mild_act rfl) fun _ => Prog.only_done _) ?_
      exact Prog.only_ite (Prog.only_bind (mild_act rfl) fun _ => Prog.only_done _) (Prog.only_done _)

theorem mild_routeReplica {cacheAllowed : Bool} {m : Option RuleMatch} :
    (routeReplica pool sql bytes timeoutMs cacheAllowed m rt).Only Mild := by
  refine Prog.only_bind (mild_pool PoolRef.only_getReplica) fun got => ?_
  cases got with
  | error e => exact Prog.only_done _
  | ok got =>
    refine Prog.only_bind (mild_exchanges (exchanges_replay _)) fun _ => Prog.only_bind mild_execute fun r => ?_
    cases r with
    | ok response =>
      refine Prog.only_bind (mild_pool (PoolRef.only_recordReplica _ _)) fun _ => ?_
      refine Prog.only_bind (mild_pool (PoolRef.only_giveBack _ _)) fun _ => ?_
      refine Prog.only_ite_else (fun hmirror => Prog.only_bind (mild_act rfl) fun _ => hmirror) ?_
      exact Prog.only_bind mild_fireMirror fun _ => Prog.only_done _
    | error e =>
      refine Prog.only_bind (mild_pool (PoolRef.only_recordReplica _ _)) fun _ => ?_
      refine Prog.only_ite (Prog.only_bind (mild_act rfl) fun _ => ?_) mild_drop
      refine Prog.only_bind (mild_pool PoolRef.only_getReplica) fun again => ?_
      cases again with
      | error e => exact Prog.only_done _
      | ok fresh =>
        refine Prog.only_bind (mild_exchanges (exchanges_replay _)) fun _ => ?_
        refine Prog.only_bind (mild_exchanges exchanges_executeQuery) fun r => ?_
        cases r with
        | error e => exact mild_drop
        | ok response =>
          refine Prog.only_bind (mild_pool (PoolRef.only_recordReplica _ _)) fun _ => ?_
          exact Prog.only_bind (mild_pool (PoolRef.only_giveBack _ _)) fun _ => Prog.only_done _

theorem mild_retryPrimary : (retryPrimary pool bytes rt).Only Mild := by
  refine Prog.only_bind (mild_pool PoolRef.only_getPrimary) fun again => ?_
  cases again with
  | error e => exact Prog.only_done _
  | ok fresh =>
    refine Prog.only_bind (mild_exchanges (exchanges_replay _)) fun _ => ?_
    refine Prog.only_bind (mild_exchanges exchanges_executeQuery) fun r => ?_
    cases r with
    | error e => exact mild_drop
    | ok response =>
      refine Prog.only_bind (mild_act rfl) fun _ => ?_
      exact Prog.only_bind (mild_pool (PoolRef.only_putPrimary _)) fun _ => Prog.only_done _

theorem mild_routePrimary {m : Option RuleMatch} : (routePrimary pool sql bytes timeoutMs m rt).Only Mild := by
  refine Prog.only_bind (mild_pool PoolRef.only_getPrimary) fun got => ?_
  cases got with
  | error e => exact Prog.only_done _
  | ok c =>
    refine Prog.only_bind (mild_exchanges (exchanges_replay _)) fun _ => Prog.only_bind mild_execute fun r => ?_
    cases r with
    | error e =>
      refine Prog.only_bind (mild_act rfl) fun _ => Prog.only_ite ?_ mild_drop
      exact Prog.only_bind (mild_act rfl) fun _ => mild_retryPrimary
    | ok response =>
      refine Prog.only_bind (mild_act rfl) fun _ => ?_
      refine Prog.only_bind (mild_pool (PoolRef.only_putPrimary c)) fun _ => ?_
      refine Prog.only_ite_then (fun hmirror => Prog.only_bind (mild_act rfl) fun _ => hmirror) ?_
      exact Prog.only_bind mild_fireMirror fun _ => Prog.only_done _

theorem mild_routeSplit {m : Option RuleMatch} : (routeSplit pool sql bytes timeoutMs m rt).Only Mild := by
  rw [routeSplit]
  refine Prog.only_ite_else (fun hmiss => Prog.only_bind (mild_act rfl) fun cached => ?_) ?_
  · cases cached with
    | none => exact hmiss
    | some b => exact Prog.only_done _
  · exact Prog.only_ite mild_routeReplica mild_routePrimary

theorem mild_dispatch : (dispatch pool sql bytes timeoutMs rt).Only Mild := by
  refine Prog.only_bind (mild_act rfl) fun m => ?_
  cases m with
  | none => exact mild_routeSplit
  | some m =>
    refine Prog.only_ite (Prog.only_done _) ?_
    split
    · exact mild_routeHostgroup
    · exact mild_routeSplit

theorem mild_routeQueryInner {txConn : Option ConnId} {inTransaction : Bool} :
    (routeQueryInner bytes txConn inTransaction rt).Only Mild := by
  refine Prog.only_bind (mild_act rfl) fun pool => Prog.only_ite (mild_exchanges exchanges_routeInTx) ?_
  refine Prog.only_bind (Prog.only_bind (mild_act rfl) fun timeoutMs => ?_) fun r => Prog.only_done _
  refine Prog.only_bind (mild_act rfl) fun outcome => ?_
  cases outcome with
  | blocked msg => exact Prog.only_done _
  | rewritten s => exact mild_dispatch
  | unchanged => exact mild_dispatch

theorem tame_checkReplicaHasGtid {gtid : Str} : (checkReplicaHasGtid gtid).Only Tame := by
  refine Prog.only_bind (tame_act rfl) fun pool => Prog.only_ite (Prog.only_done _) ?_
  refine Prog.only_bind (tame_pool PoolRef.only_getReplica) fun got => ?_
  cases got with
  | error e => exact Prog.only_done _
  | ok got =>
    refine Prog.only_bind (Prog.only_bind (tame_act rfl) fun _ => Prog.only_done _) fun r => ?_
    cases r with
    | error e => exact Prog.only_bind (tame_act rfl) fun _ => Prog.only_done _
    | ok response => exact Prog.only_bind (tame_pool (PoolRef.only_putReplica _ _)) fun _ => Prog.only_done _

end Router

/-! ## The session's own steps -/

namespace MysqlSession

variable {cfg : MysqlConfig} {st : MysqlSession}

/-- What the limits are judged by. -/
def timers (st : MysqlSession) : Option Nat × Option Nat × Bool := (st.txStart, st.lastQueryInTx, st.inTransaction)

/-- The transaction goes on as before, or it is over. -/
def Rests (st st' : MysqlSession) : Prop := st'.timers = st.timers ∨ st'.txStart = none

namespace Rests

variable {st₁ st₂ st₃ : MysqlSession}

theorem refl (st : MysqlSession) : Rests st st := .inl rfl

theorem closed (h : Rests st₁ st₂) (hnone : st₁.txStart = none) : st₂.txStart = none := by
  rcases h with h | h
  · exact (congrArg Prod.fst h).trans hnone
  · exact h

theorem trans (h : Rests st₁ st₂) (h' : Rests st₂ st₃) : Rests st₁ st₃ := by
  rcases h with h | h
  · rcases h' with h' | h'
    · exact .inl (h'.trans h)
    · exact .inr h'
  · exact .inr (h'.closed h)

end Rests

theorem rests_flush : st.flush.Does Tame (Rests st) :=
  ⟨rfl, fun sent => by cases sent <;> exact .refl _⟩

theorem rests_answer (r : Except Str Response) : (st.answer r).Does Tame (Rests st) := by
  cases r with
  | error e => exact ⟨rfl, fun _ => rests_flush⟩
  | ok response =>
    refine ⟨rfl, fun sent => ?_⟩
    cases sent
    · exact .refl _
    · exact rests_flush

theorem tame_putPrimary (c : ConnId) : (putPrimary c none).Only Tame :=
  Prog.only_bind (tame_act rfl) fun _ => tame_pool (PoolRef.only_putPrimary c)

theorem tame_putReplica (c : ConnId) (idx : Option Nat) : (putReplica c idx).Only Tame :=
  Prog.only_bind (tame_act rfl) fun _ => tame_pool (PoolRef.only_giveBack c idx)

theorem rests_releaseTx : st.releaseTx.Does Tame (Rests st) := by
  rw [releaseTx]
  split
  · exact Prog.does_bind (tame_putPrimary _).does fun _ _ => .refl _
  · exact .refl _

theorem rests_releaseStmt : st.releaseStmt.Does Tame (Rests st) := by
  rw [releaseStmt]
  split
  · exact Prog.does_bind (tame_putPrimary _).does fun _ _ => .refl _
  · exact .refl _

theorem rests_releaseSticky : st.releaseSticky.Does Tame (Rests st) := by
  rw [releaseSticky]
  split
  · exact Prog.does_bind (tame_putReplica _ _).does fun _ _ => .refl _
  · exact .refl _

theorem rests_dropTx (exit : Exit) : (st.dropTx exit).Does Tame (Rests st) := by
  rw [dropTx]
  split
  · exact ⟨rfl, fun _ => .refl _⟩
  · exact .refl _

theorem rests_resetConnection : st.resetConnection.Does Tame (Rests st) := by
  refine Prog.does_bind rests_releaseStmt fun st₁ h₁ => ?_
  refine Prog.does_bind rests_releaseTx fun st₂ h₂ => ?_
  refine Prog.does_bind rests_releaseSticky fun st₃ h₃ => ?_
  have hnone : st₃.txStart = none := ((h₁.trans h₂).trans h₃).closed rfl
  exact ⟨rfl, fun sent => by cases sent <;> exact .inr hnone⟩

theorem rests_cleanup : st.cleanup.Does Tame (Rests st) := by
  refine Prog.does_bind rests_releaseTx fun st₁ h₁ => ?_
  refine Prog.does_bind rests_releaseStmt fun st₂ h₂ => ?_
  refine Prog.does_bind rests_releaseSticky fun st₃ h₃ => ?_
  exact (h₁.trans h₂).trans h₃

theorem rests_finishQuery (q : Query) : (st.finishQuery q).Does Tame (Rests st) := by
  refine Prog.does_ite (fun _ => Prog.does_bind rests_releaseTx fun st₁ h₁ => ?_) fun _ => rests_flush
  exact rests_flush.mono (fun _ h => h) fun st' h => .inr (h.closed (h₁.closed rfl))

theorem timers_noteChanges (changes : List (Str × Str)) : (st.noteChanges cfg changes).timers = st.timers := by
  obtain ⟨sqls, heq⟩ := noteChanges_eq cfg st changes
  rw [heq]
  rfl

theorem timers_noteGtid (q : Query) (response : Response) : (st.noteGtid cfg q response).timers = st.timers := by
  obtain ⟨gtid, heq⟩ := noteGtid_eq cfg st q response
  rw [heq]
  rfl

theorem rests_afterResponse (q : Query) (response : Response) :
    (st.afterResponse cfg q response).Does Tame (Rests st) := by
  have htimers : Rests st (({ st with consecutiveErrors := 0, errorWindowStart := none } : MysqlSession).noteGtid
      cfg q response |>.noteChanges cfg response.sessionChanges) :=
    .inl ((timers_noteChanges _).trans (timers_noteGtid _ _))
  refine ⟨rfl, fun sent => ?_⟩
  cases sent
  · exact htimers
  · exact (rests_finishQuery q).mono (fun _ h => h) fun st' h => htimers.trans h

theorem timers_countError (now : Nat) : (st.countError cfg now).timers = st.timers := by
  rw [countError]
  split <;> rfl

theorem rests_afterError (q : Query) (e : Str) : (st.afterError cfg q e).Does Tame (Rests st) := by
  have hrest : ∀ st₁, Rests st st₁ → (st₁.tellError cfg q e).Does Tame (Rests st) := by
    intro st₁ h₁
    refine ⟨rfl, fun _ => Prog.does_ite (fun _ => ⟨rfl, fun now => ?_⟩) fun _ => ?_⟩
    · have hcount : Rests st (st₁.countError cfg now) := h₁.trans (.inl (timers_countError now))
      refine Prog.does_ite (fun _ => ⟨rfl, fun _ => hcount⟩) fun _ => ?_
      exact (rests_finishQuery q).mono (fun _ h => h) fun _ h => hcount.trans h
    · exact (rests_finishQuery q).mono (fun _ h => h) fun _ h => h₁.trans h
  refine Prog.does_ite (fun _ => ?_) fun _ => hrest st (.refl st)
  -- the transaction has died with its backend
  exact Prog.does_bind (rests_dropTx .txBackendDied) fun st₁ h₁ => hrest st₁ (.inr (h₁.closed rfl))

theorem rests_applyHint (sql : Str) : (st.applyHint sql).Does Tame (Rests st) := by
  rw [applyHint]
  split
  · exact Prog.does_done (.refl _)
  · refine Prog.does_ite (fun _ => ?_) fun _ => .refl _
    exact rests_releaseSticky.mono (fun _ h => h) fun _ h => h
  · exact .refl _

theorem timers_expireRyow : st.expireRyow.Does Tame fun st' => st'.timers = st.timers := by
  rw [expireRyow]
  split
  · refine ⟨rfl, fun now => Prog.does_done ?_⟩
    split <;> rfl
  · exact rfl

theorem timers_gtidForcesPrimary (q : Query) :
    (st.gtidForcesPrimary cfg q).Does Tame fun g => g.1.timers = st.timers := by
  rw [gtidForcesPrimary]
  split
  · exact Prog.does_bind tame_checkReplicaHasGtid.does fun ready _ => by cases ready <;> rfl
  · exact rfl

theorem timers_noteSessionState (sql : Str) : (st.noteSessionState sql).timers = st.timers := by
  rw [noteSessionState]
  split <;> split <;> rfl

/-- Nothing the proxy answers by itself is the error of a kill. -/
theorem tame_localAnswer {q : Query} {m : ToClient} {strict : Bool} (h : st.localAnswer cfg q = some (m, strict)) :
    Tame (.toClient m) := by
  have hsome : ∀ {m' : ToClient} {strict' : Bool}, Tame (.toClient m') → some (m', strict') = some (m, strict) →
      Tame (.toClient m) := by
    rintro m' strict' htame ⟨⟩
    exact htame
  rw [localAnswer] at h
  split at h
  · exact hsome rfl h
  dsimp only at h
  split at h
  · exact hsome rfl h
  split at h
  · exact hsome rfl h
  split at h
  · exact hsome rfl h
  · cases h

theorem mild_other (raw : Bytes) : (st.other raw).Does Mild (Rests st) := by
  refine Prog.does_bind (mild_exchanges exchanges_routeRawInner).does fun r _ => ?_
  exact (rests_answer r.2).mono (fun _ h => h.mild) fun _ h => h

theorem mild_settleStmt (r : Except Str Response) : (st.settleStmt r).Does Mild (Rests st) := by
  have hlast : ∀ sent : Bool, (st.flushStmt sent).Does Mild (Rests st) := by
    intro sent
    refine Prog.does_ite (fun _ => ⟨rfl, fun flushed => ?_⟩) fun _ => .refl _
    refine Prog.does_ite (fun _ => Prog.does_ite (fun _ => ?_) fun _ => .refl _) fun _ => .refl _
    exact rests_releaseStmt.mono (fun _ h => h.mild) fun _ h => h
  cases r with
  | ok response => exact Prog.does_ite (fun _ => hlast true) fun _ => ⟨rfl, hlast⟩
  | error e => exact ⟨rfl, fun _ => hlast true⟩

theorem mild_stmt (raw : Bytes) : (st.stmt raw).Does Mild (Rests st) :=
  Prog.does_bind (mild_exchanges exchanges_routeStmt).does fun r _ =>
    (mild_settleStmt r.2).mono (fun _ h => h) fun _ h => h

theorem mild_fastForward (sql : Str) (bytes : Bytes) (hnone : st.txStart = none) :
    (st.fastForward sql bytes).Does Mild (Rests st) := by
  refine Prog.does_bind (mild_exchanges exchanges_routeFast).does fun r _ => ?_
  have hanswer : ∀ st₁ : MysqlSession, st₁.txStart = none → (st₁.answer r.2).Does Mild (Rests st) := fun st₁ h₁ =>
    (rests_answer r.2).mono (fun _ h => h.mild) fun _ h => .inr (h.closed h₁)
  refine Prog.does_ite (fun _ => ?_) fun _ => hanswer _ hnone
  refine Prog.does_bind (rests_releaseTx.mono (fun _ h => h.mild) fun _ h => h) fun st₁ h => ?_
  exact hanswer st₁ (h.closed hnone)

theorem mild_ruleFastForward (bytes : Bytes) : (st.ruleFastForward bytes).Does Mild (Rests st) := by
  refine Prog.does_bind (mild_exchanges exchanges_routeFast).does fun r _ => ?_
  exact (rests_answer r.2).mono (fun _ h => h.mild) fun _ h => h

end MysqlSession

end TurbineProxy
