import TurbineProxy.MysqlSession
import TurbineProxy.PoolOps

/-!
# The small steps of a MySQL session

What the helper functions of the session loop do besides routing: none of them has the text of a
statement in its operations, and each changes the session in the way stated (`Prog.Does`). The loop may
end in any of them, which is the phase `closing`.
-/

namespace TurbineProxy

namespace MysqlSession

variable {cfg : MysqlConfig} {st : MysqlSession}

/-- The session as it is, or past the loop. -/
def Stays (st st' : MysqlSession) : Prop := st' = st ∨ st' = st.close

/-- What checks, replays and routing choices depend on; the rest is blanked. -/
def core (st : MysqlSession) : MysqlSession :=
  { st with
    phase := .running, inTransaction := false, txConn := none, stmtConn := none, txStart := none,
    lastQueryInTx := none, consecutiveErrors := 0, errorWindowStart := none, stickyHintConn := none,
    stickyHintIdx := none, stickyHintActive := false }

/-- The core of a session is left alone; connections may have been given up, none is new. -/
structure Same (st st' : MysqlSession) : Prop where
  /-- the core -/
  core : st'.core = st.core
  /-- `tx_conn` -/
  txConn : ∀ c ∈ st'.txConn, c ∈ st.txConn
  /-- `stmt_conn` -/
  stmtConn : ∀ c ∈ st'.stmtConn, c ∈ st.stmtConn
  /-- the hint's connection -/
  stickyHintConn : ∀ c ∈ st'.stickyHintConn, c ∈ st.stickyHintConn

namespace Same

variable {st' st'' : MysqlSession}

theorem refl (st : MysqlSession) : Same st st := ⟨rfl, fun _ h => h, fun _ h => h, fun _ h => h⟩

theorem trans (h : Same st st') (h' : Same st' st'') : Same st st'' :=
  ⟨h'.core.trans h.core, fun c hc => h.txConn c (h'.txConn c hc),
    fun c hc => h.stmtConn c (h'.stmtConn c hc),
    fun c hc => h.stickyHintConn c (h'.stickyHintConn c hc)⟩

theorem close (h : Same st st') : Same st st'.close :=
  ⟨h.core, h.txConn, h.stmtConn, h.stickyHintConn⟩

theorem user (h : Same st st') : st'.user = st.user := (congrArg MysqlSession.user h.core :)

theorem allowWrites (h : Same st st') : st'.allowWrites = st.allowWrites :=
  (congrArg MysqlSession.allowWrites h.core :)

theorem shadow (h : Same st st') : st'.shadow = st.shadow := (congrArg MysqlSession.shadow h.core :)

theorem sessionInitSqls (h : Same st st') : st'.sessionInitSqls = st.sessionInitSqls :=
  (congrArg MysqlSession.sessionInitSqls h.core :)

theorem userVarSticky (h : Same st st') : st'.userVarSticky = st.userVarSticky :=
  (congrArg MysqlSession.userVarSticky h.core :)

theorem ryowUntil (h : Same st st') : st'.ryowUntil = st.ryowUntil :=
  (congrArg MysqlSession.ryowUntil h.core :)

theorem lastWriteGtid (h : Same st st') : st'.lastWriteGtid = st.lastWriteGtid :=
  (congrArg MysqlSession.lastWriteGtid h.core :)

end Same

theorem Stays.same {st' : MysqlSession} (h : Stays st st') : Same st st' := by
  rcases h with rfl | rfl
  · exact .refl _
  · exact (Same.refl st).close

/-! ## Answering the client -/

theorem flush_does : st.flush.Does Silent (Stays st) := by
  refine ⟨rfl, fun sent => ?_⟩
  cases sent
  · exact .inr rfl
  · exact .inl rfl

theorem answer_does (r : Except Str Response) : (st.answer r).Does Silent (Stays st) := by
  unfold answer
  rcases r with e | response
  · exact ⟨rfl, fun _ => flush_does⟩
  · refine ⟨rfl, fun sent => ?_⟩
    cases sent
    · exact .inr rfl
    · exact flush_does

/-! ## Giving connections up -/

theorem releaseTx_does : st.releaseTx.Does Silent (· = { st with txConn := none }) := by
  rw [releaseTx]
  rcases hc : st.txConn with _ | c
  · exact (by rw [← hc] : st = { st with txConn := none })
  · exact Prog.does_bind (silent_putPrimary c none).does fun _ _ => rfl

theorem releaseStmt_does : st.releaseStmt.Does Silent (· = { st with stmtConn := none }) := by
  rw [releaseStmt]
  rcases hc : st.stmtConn with _ | c
  · exact (by rw [← hc] : st = { st with stmtConn := none })
  · exact Prog.does_bind (silent_putPrimary c none).does fun _ _ => rfl

theorem releaseSticky_does :
    st.releaseSticky.Does Silent (· = { st with stickyHintConn := none, stickyHintIdx := none }) := by
  rw [releaseSticky]
  rcases hc : st.stickyHintConn with _ | c
  · refine Prog.does_done ?_
    cases st
    cases hc
    rfl
  · exact Prog.does_bind (silent_putReplica c st.stickyHintIdx).does fun _ _ => rfl

theorem dropTx_does (exit : Exit) : (st.dropTx exit).Does Silent (· = { st with txConn := none }) := by
  rw [dropTx]
  rcases hc : st.txConn with _ | c
  · exact (by rw [← hc] : st = { st with txConn := none })
  · exact ⟨rfl, fun _ => rfl⟩

theorem resetConnection_does :
    st.resetConnection.Does Silent fun st' =>
      st'.allowWrites = st.allowWrites ∧ st'.user = st.user ∧
        st'.sessionInitSqls = [] ∧ st'.shadow = .new := by
  rw [resetConnection]
  refine Prog.does_bind releaseStmt_does fun st₁ h₁ => ?_
  refine Prog.does_bind releaseTx_does fun st₂ h₂ => ?_
  refine Prog.does_bind releaseSticky_does fun st₃ h₃ => ?_
  subst h₁ h₂ h₃
  refine ⟨rfl, fun sent => ?_⟩
  cases sent
  · exact ⟨rfl, rfl, rfl, rfl⟩
  · exact ⟨rfl, rfl, rfl, rfl⟩

theorem cleanup_does : st.cleanup.Does Silent (Same st) := by
  rw [cleanup]
  refine Prog.does_bind releaseTx_does fun st₁ h₁ => ?_
  refine Prog.does_bind releaseStmt_does fun st₂ h₂ => ?_
  refine Prog.does_bind releaseSticky_does fun st₃ h₃ => ?_
  subst h₁ h₂ h₃
  exact ⟨rfl, fun _ h => (by cases h), fun _ h => (by cases h), fun _ h => (by cases h)⟩

/-! ## Around routing -/

theorem noteBegin_does (sql : Str) :
    (st.noteBegin sql).Does Silent fun st' =>
      Same st st' ∧ st'.inTransaction = (st.inTransaction || begins sql) := by
  refine Prog.does_ite (fun hb => ⟨rfl, fun now => ?_⟩) fun hb => ?_
  · rw [hb, Bool.or_true]
    exact ⟨⟨rfl, fun _ h => h, fun _ h => h, fun _ h => h⟩, rfl⟩
  · rw [Bool.not_eq_true] at hb
    rw [hb, Bool.or_false]
    exact ⟨.refl st, rfl⟩

theorem overTime_only : (st.overTime cfg).Only Silent := by
  rw [overTime]
  split
  · exact ⟨rfl, fun _ => trivial⟩
  · trivial

theorem overIdle_only : (st.overIdle cfg).Only Silent := by
  rw [overIdle]
  split
  · exact ⟨rfl, fun _ => trivial⟩
  · trivial

theorem killTx_does (exit : Exit) (msg : Str) : (st.killTx exit msg).Does Silent (Same st) := by
  refine Prog.does_bind (dropTx_does exit) fun st' h => ⟨rfl, fun _ => ?_⟩
  subst h
  refine flush_does.mono (fun _ h => h) fun st' h => Same.trans ?_ h.same
  exact ⟨rfl, fun _ h => (by cases h), fun _ h => h, fun _ h => h⟩

theorem finishQuery_does (q : Query) : (st.finishQuery q).Does Silent (Same st) := by
  have hflush : ∀ st₁, Same st st₁ → st₁.flush.Does Silent (Same st) := fun st₁ h =>
    flush_does.mono (fun _ h => h) fun st' h' => h.trans h'.same
  refine Prog.does_ite (fun _ => ?_) fun _ => hflush st (.refl st)
  refine Prog.does_bind releaseTx_does fun st₁ h => hflush st₁ ?_
  subst h
  exact ⟨rfl, fun _ h => (by cases h), fun _ h => h, fun _ h => h⟩

variable (cfg) in
theorem same_countError (now : Nat) : Same st (st.countError cfg now) := by
  unfold countError
  dsimp only
  split
  · exact ⟨rfl, fun _ h => h, fun _ h => h, fun _ h => h⟩
  · exact ⟨rfl, fun _ h => h, fun _ h => h, fun _ h => h⟩

theorem afterError_does (q : Query) (e : Str) : (st.afterError cfg q e).Does Silent (Same st) := by
  have hrest : ∀ st₁, Same st st₁ → (st₁.tellError cfg q e).Does Silent (Same st) := by
    intro st₁ h
    refine ⟨rfl, fun _ => Prog.does_ite (fun _ => ⟨rfl, fun now => ?_⟩) fun _ => ?_⟩
    · have hcount := h.trans (same_countError cfg now)
      refine Prog.does_ite (fun _ => ⟨rfl, fun _ => hcount.close⟩) fun _ => ?_
      exact (finishQuery_does q).mono (fun _ h => h) fun _ h' => hcount.trans h'
    · exact (finishQuery_does q).mono (fun _ h => h) fun _ h' => h.trans h'
  refine Prog.does_ite (fun _ => ?_) fun _ => hrest st (.refl st)
  refine Prog.does_bind (dropTx_does .txBackendDied) fun st₁ h => hrest st₁ ?_
  subst h
  exact ⟨rfl, fun _ h => (by cases h), fun _ h => h, fun _ h => h⟩

theorem touchTx_does : st.touchTx.Does Silent (Same st) := by
  refine Prog.does_ite (fun _ => ⟨rfl, fun now => ?_⟩) fun _ => Same.refl st
  exact ⟨rfl, fun _ h => h, fun _ h => h, fun _ h => h⟩

theorem applyHint_does (sql : Str) : (st.applyHint sql).Does Silent (Same st) := by
  rw [applyHint]
  split
  · exact ⟨rfl, fun _ h => h, fun _ h => h, fun _ h => h⟩
  · refine Prog.does_ite (fun _ => ?_) fun _ => Same.refl st
    refine releaseSticky_does.mono (fun _ h => h) fun st' h => ?_
    subst h
    exact ⟨rfl, fun _ h => h, fun _ h => h, fun _ h => (by cases h)⟩
  · exact Same.refl st

/-- A forwarded response leaves its traces, then the query is finished. -/
theorem afterResponse_does (q : Query) (response : Response) :
    (st.afterResponse cfg q response).Does Silent
      (Same ((st.noteGtid cfg q response).noteChanges cfg response.sessionChanges)) := by
  have hcounters : ∀ st₁ : MysqlSession, Same st₁
      { st₁ with consecutiveErrors := 0, errorWindowStart := none } := fun st₁ =>
    ⟨rfl, fun _ h => h, fun _ h => h, fun _ h => h⟩
  have hgtid : ({ st with consecutiveErrors := 0, errorWindowStart := none } : MysqlSession).noteGtid cfg q
      response = { st.noteGtid cfg q response with consecutiveErrors := 0, errorWindowStart := none } := by
    unfold noteGtid
    dsimp only
    split
    · split <;> rfl
    · rfl
  have hchanges : ∀ (changes : List (Str × Str)) (st₁ : MysqlSession),
      noteChanges cfg { st₁ with consecutiveErrors := 0, errorWindowStart := none } changes =
        { st₁.noteChanges cfg changes with consecutiveErrors := 0, errorWindowStart := none } := by
    intro changes
    induction changes with
    | nil => exact fun _ => rfl
    | cons c rest ih =>
      intro st₁
      unfold noteChanges at ih ⊢
      rw [List.foldl_cons, List.foldl_cons, ← ih]
      congr 1
      dsimp only
      split <;> rfl
  unfold afterResponse
  dsimp only
  rw [hgtid, hchanges]
  refine ⟨rfl, fun sent => ?_⟩
  refine Prog.does_ite (fun _ => ?_) fun _ => (hcounters _).close
  exact (finishQuery_does q).mono (fun _ h => h) fun _ h => (hcounters _).trans h

end MysqlSession

end TurbineProxy
