import TurbineProxy.RouterSpec

/-!
# A MySQL session meets its contract

One turn of the loop, function by function as in `MysqlSession.lean`. The invariant of a session
(`MysqlSession.Inv`) says what its variables hold: `tx_conn` a connection that is clean unless the
session's own flag says that a transaction is open, `stmt_conn` and the hint's connection clean ones.

The session's flag follows the text of the statements. `MysqlSession.keeps` is what the flag will say
once a statement is through; a turn keeps the invariant if the connection is clean whenever it says
that no transaction is open (`MysqlSession.Follows`).
-/

namespace TurbineProxy

variable {srv : Server}

/-- What is known of the sticky connections of a session beyond the contract. -/
structure Pins (R : Rules srv) where
  /-- of `stmt_conn` -/
  stmt : Conn srv → Prop
  /-- of `tx_conn` -/
  tx : Conn srv → Prop
  /-- of the statement map and of where `stmt_conn` is -/
  frame : MysqlStmtShadow → Option ConnId → Prop
  /-- `stmt_conn` may be returned at any time -/
  stmt_tidy : ∀ conn, stmt conn → R.Tidy R.primaryHome conn
  /-- exchanges keep what is known of `tx_conn` -/
  tx_stays : ∀ {p conn r conn'}, tx conn → R.after .txConn p conn r conn' → tx conn'

/-- Nothing beyond the contract. -/
def Pins.none (R : Rules srv) : Pins R where
  stmt := R.Tidy R.primaryHome
  tx _ := True
  frame _ _ := True
  stmt_tidy _ h := h
  tx_stays _ _ := trivial

namespace MysqlSession

variable {R : Rules srv} {P : Pins R} {g : Hold srv} {cfg : MysqlConfig} {st : MysqlSession}
  {K : Conn srv → Prop}

/-!
## The invariant

Between two turns a session holds what its variables say, and nothing else; the flag says whether a transaction may be
open on `tx_conn`.
-/

/-- What is known of `tx_conn` apart from the flag. -/
def Pinned (P : Pins R) (conn : Conn srv) : Prop :=
  (R.home → conn.lender = R.primaryHome) ∧ P.tx conn

/-- What is known of `tx_conn` while the session's flag is `flag`. -/
def TxKnown (P : Pins R) (flag : Bool) (conn : Conn srv) : Prop :=
  (flag = false → R.clean conn) ∧ Pinned P conn

/-- The variables of a session, with `K` known of `tx_conn`. -/
def varsWith (P : Pins R) (st : MysqlSession) (K : Conn srv → Prop) : Vars srv
  | .txConn => st.txConn.map fun c => ⟨c, K⟩
  | .stmtConn => st.stmtConn.map fun c => ⟨c, P.stmt⟩
  | .stickyConn => st.stickyHintConn.map fun c => ⟨c, R.Tidy (R.idxHome st.stickyHintIdx)⟩
  | .loan => none

/-- The variables of a session between two commands. -/
def vars (P : Pins R) (st : MysqlSession) : Vars srv := st.varsWith P (TxKnown P st.inTransaction)

/-- The invariant of a session that has not ended. -/
structure Inv (P : Pins R) (st : MysqlSession) (g : Hold srv) : Prop where
  /-- it has not ended -/
  live : st.phase ≠ .ended
  /-- the statement map is as it was -/
  frame : P.frame st.shadow st.stmtConn
  /-- the variables hold the session's connections -/
  owns : Owns (st.vars P) g

theorem keys_tx : (st.varsWith P K .txConn).map Claim.key = st.txConn := by
  simp [varsWith, Function.comp_def]

theorem keys_stmt : (st.varsWith P K .stmtConn).map Claim.key = st.stmtConn := by
  simp [varsWith, Function.comp_def]

theorem keys_sticky : (st.varsWith P K .stickyConn).map Claim.key = st.stickyHintConn := by
  simp [varsWith, Function.comp_def]

theorem varsWith_update_tx (x : Option ConnId) (K' : Conn srv → Prop) :
    Function.update (st.varsWith P K) .txConn (x.map fun c => ⟨c, K'⟩) =
      varsWith P { st with txConn := x } K' := by
  funext via
  cases via <;> simp [varsWith, Function.update]

theorem varsWith_update_stmt (x : Option ConnId) :
    Function.update (st.varsWith P K) .stmtConn (x.map fun c => ⟨c, P.stmt⟩) =
      varsWith P { st with stmtConn := x } K := by
  funext via
  cases via <;> simp [varsWith, Function.update]

theorem varsWith_update_sticky (x : Option ConnId) (idx : Option Nat) :
    Function.update (st.varsWith P K) .stickyConn
      (x.map fun c => ⟨c, R.Tidy (R.idxHome idx)⟩) =
      varsWith P { st with stickyHintConn := x, stickyHintIdx := idx } K := by
  funext via
  cases via <;> simp [varsWith, Function.update]

theorem varsWith_none (h : st.txConn = none) (K K' : Conn srv → Prop) :
    st.varsWith P K = st.varsWith P K' := by
  funext via
  cases via <;> simp [varsWith, h]

/-- Less may be known of `tx_conn`. -/
theorem owns_mono {K' : Conn srv → Prop} (h : Owns (st.varsWith P K) g)
    (himp : ∀ conn, K conn → K' conn) : Owns (st.varsWith P K') g := by
  refine h.mono (fun v hv => ?_) fun v a hv => ?_
  · cases v <;> simp_all [varsWith]
  · cases v with
    | txConn =>
      simp only [varsWith, Option.map_eq_some_iff] at hv ⊢
      obtain ⟨c, hc, rfl⟩ := hv
      exact ⟨K', ⟨c, hc, rfl⟩, himp⟩
    | stmtConn => exact ⟨a.known, hv, fun _ h => h⟩
    | stickyConn => exact ⟨a.known, hv, fun _ h => h⟩
    | loan => exact ⟨a.known, hv, fun _ h => h⟩

/-- Beside `tx_conn`, every connection of the session is clean. -/
theorem others_tx : Others R (st.varsWith P K) .txConn := by
  intro w b hw hb conn hknown
  cases w with
  | txConn => exact absurd rfl hw
  | stmtConn =>
    simp only [varsWith, Option.map_eq_some_iff] at hb
    obtain ⟨c, -, rfl⟩ := hb
    exact (P.stmt_tidy conn hknown).1
  | stickyConn =>
    simp only [varsWith, Option.map_eq_some_iff] at hb
    obtain ⟨c, -, rfl⟩ := hb
    exact hknown.1
  | loan => simp [varsWith] at hb

/-- Outside a transaction, `tx_conn` is clean as well. -/
theorem others_any (hK : ∀ conn, K conn → R.clean conn) (via : Via) :
    Others R (st.varsWith P K) via := by
  intro w b hw hb conn hknown
  by_cases htx : w = .txConn
  · subst htx
    simp only [varsWith, Option.map_eq_some_iff] at hb
    obtain ⟨c, -, rfl⟩ := hb
    exact hK conn hknown
  · exact others_tx w b htx hb conn hknown

/-! ## Returning connections -/

theorem wp_releaseTx (hσ : Owns (st.varsWith P K) g)
    (hK : ∀ conn, K conn → R.Tidy R.primaryHome conn) {Q : MysqlSession → Hold srv → Prop}
    (hQ : ∀ g', Owns (vars P { st with txConn := none }) g' → Q { st with txConn := none } g') :
    st.releaseTx.wp R.contract Q g := by
  rw [releaseTx]
  rcases hc : st.txConn with _ | c
  · have hsame : { st with txConn := none } = st := by rw [← hc]
    rw [hsame] at hQ
    refine hQ g ?_
    rw [vars, varsWith_none hc _ K]
    exact hσ
  · simp only [Prog.wp_bind]
    refine wp_putPrimary (v := .txConn) (a := ⟨c, K⟩) hσ (by simp [varsWith, hc]) hK fun g' h => hQ g' ?_
    rw [vars, varsWith_none rfl _ K]
    rw [← varsWith_update_tx none K]
    exact h

theorem wp_dropTx (hσ : Owns (st.varsWith P K) g) {exit : Exit}
    {Q : MysqlSession → Hold srv → Prop}
    (hQ : ∀ g', Owns (vars P { st with txConn := none }) g' → Q { st with txConn := none } g') :
    (st.dropTx exit).wp R.contract Q g := by
  rw [dropTx]
  rcases hc : st.txConn with _ | c
  · have hsame : { st with txConn := none } = st := by rw [← hc]
    rw [hsame] at hQ
    refine hQ g ?_
    rw [vars, varsWith_none hc _ K]
    exact hσ
  · simp only [Prog.wp_bind]
    refine wp_drop (v := .txConn) (a := ⟨c, K⟩) hσ (by simp [varsWith, hc]) fun g' h => hQ g' ?_
    rw [vars, varsWith_none rfl _ K]
    rw [← varsWith_update_tx none K]
    exact h

theorem wp_releaseStmt (hσ : Owns (st.varsWith P K) g) {Q : MysqlSession → Hold srv → Prop}
    (hQ : ∀ g', Owns (varsWith P { st with stmtConn := none } K) g' →
      Q { st with stmtConn := none } g') :
    st.releaseStmt.wp R.contract Q g := by
  rw [releaseStmt]
  rcases hc : st.stmtConn with _ | c
  · have hsame : { st with stmtConn := none } = st := by rw [← hc]
    rw [hsame] at hQ
    exact hQ g hσ
  · simp only [Prog.wp_bind]
    refine wp_putPrimary (v := .stmtConn) (a := ⟨c, P.stmt⟩) hσ (by simp [varsWith, hc])
      P.stmt_tidy fun g' h => hQ g' ?_
    rw [← varsWith_update_stmt none]
    exact h

theorem wp_releaseSticky (hσ : Owns (st.varsWith P K) g) {Q : MysqlSession → Hold srv → Prop}
    (hQ : ∀ g', Owns (varsWith P { st with stickyHintConn := none, stickyHintIdx := none } K) g' →
      Q { st with stickyHintConn := none, stickyHintIdx := none } g') :
    st.releaseSticky.wp R.contract Q g := by
  rw [releaseSticky]
  rcases hc : st.stickyHintConn with _ | c
  · refine hQ g ?_
    rw [← varsWith_update_sticky none none]
    rwa [Option.map_none, Function.update_eq_self_iff.mpr (by simp [varsWith, hc])]
  · simp only [Prog.wp_bind]
    refine wp_putReplica (v := .stickyConn) (a := ⟨c, R.Tidy (R.idxHome st.stickyHintIdx)⟩) hσ
      (by simp [varsWith, hc]) (fun _ h => h) fun g' h => hQ g' ?_
    rw [← varsWith_update_sticky none none]
    exact h

/-- No connection is in a variable of the session. -/
def Empty (st : MysqlSession) : Prop :=
  st.txConn = none ∧ st.stmtConn = none ∧ st.stickyHintConn = none

theorem Empty.vars (h : st.Empty) (P : Pins R) : st.vars P = fun _ => none := by
  obtain ⟨htx, hstmt, hsticky⟩ := h
  funext via
  cases via <;> simp [MysqlSession.vars, varsWith, htx, hstmt, hsticky]

/-- While every connection of the session is clean, `tx_conn` may be returned whatever the flag
says. -/
theorem owns_clean (hσ : Owns (st.vars P) g) (hclean : ∀ c conn, g c = some conn → R.clean conn) :
    Owns (st.varsWith P (R.Tidy R.primaryHome)) g := by
  refine (hσ.know hclean).mono (fun v hv => ?_) fun v a hv => ?_
  · cases v <;> simp_all [vars, varsWith]
  · obtain ⟨b, hb, rfl⟩ := Option.map_eq_some_iff.mp hv
    cases v with
    | txConn =>
      simp only [vars, varsWith, Option.map_eq_some_iff] at hb ⊢
      obtain ⟨c, hc, rfl⟩ := hb
      exact ⟨_, ⟨c, hc, rfl⟩, fun conn h => ⟨h.2, h.1.2.1⟩⟩
    | stmtConn => exact ⟨b.known, hb, fun _ h => h.1⟩
    | stickyConn => exact ⟨b.known, hb, fun _ h => h.1⟩
    | loan => exact ⟨b.known, hb, fun _ h => h.1⟩

theorem wp_resetConnection (hphase : st.phase ≠ .ended) (hσ : Owns (st.vars P) g)
    (hclean : ∀ c conn, g c = some conn → R.clean conn) :
    st.resetConnection.wp R.contract
      (fun st' g' => st'.phase ≠ .ended ∧ st'.Empty ∧ st'.shadow = .new ∧ Owns (st'.vars P) g') g := by
  have h₀ := owns_clean hσ hclean
  rw [resetConnection]
  simp only [Prog.wp_bind]
  refine wp_releaseStmt (P := P) (K := R.Tidy R.primaryHome) (by exact h₀) fun g₁ h₁ => ?_
  refine wp_releaseTx h₁ (fun _ h => h) fun g₂ h₂ => ?_
  refine wp_releaseSticky h₂ fun g₃ h₃ => ?_
  refine wp_quiet rfl fun sent => ?_
  cases sent
  · exact ⟨by simp [close], ⟨rfl, rfl, rfl⟩, rfl, h₃⟩
  · exact ⟨hphase, ⟨rfl, rfl, rfl⟩, rfl, h₃⟩

theorem wp_cleanup (hσ : Owns (st.vars P) g)
    (hclean : ∀ c conn, g c = some conn → R.clean conn) :
    st.cleanup.wp R.contract (fun st' g' => st'.Empty ∧ Owns (st'.vars P) g') g := by
  rw [cleanup]
  simp only [Prog.wp_bind]
  refine wp_releaseTx (owns_clean hσ hclean) (fun _ h => h) fun g₁ h₁ => ?_
  refine wp_releaseStmt h₁ fun g₂ h₂ => ?_
  refine wp_releaseSticky h₂ fun g₃ h₃ => ?_
  exact ⟨⟨rfl, rfl, rfl⟩, h₃⟩

/-! ## Answering the client -/

theorem Inv.close (h : Inv P st g) : Inv P st.close g :=
  ⟨by simp [MysqlSession.close], h.frame, h.owns⟩

theorem wp_flush (h : Inv P st g) : st.flush.wp R.contract (Inv P) g := by
  rw [flush]
  simp only [Prog.wp_bind]
  refine wp_quiet rfl fun sent => ?_
  cases sent
  · exact h.close
  · exact h

theorem wp_answer (h : Inv P st g) {r : Except Str Response} :
    (st.answer r).wp R.contract (Inv P) g := by
  unfold answer
  rcases r with e | response
  · simp only [Prog.wp_bind]
    exact wp_quiet rfl fun _ => wp_flush h
  · simp only [Prog.wp_bind]
    exact wp_quiet rfl fun sent => Prog.wp_ite (fun _ => wp_flush h) fun _ => h.close

/-! ## Routing -/

/-- A connection that the session is about to use for its transaction. -/
theorem Pinned.entry (hnew : st.txConn = none → ∀ conn, P.tx conn) (conn : Conn srv)
    (h : TurbineProxy.entry R (st.vars P) .txConn conn) : Pinned P conn := by
  rcases hc : st.txConn with _ | c
  · have hv : st.vars P .txConn = none := by simp [vars, varsWith, hc]
    rw [TurbineProxy.entry, hv] at h
    exact ⟨h.2, hnew hc conn⟩
  · have hv : st.vars P .txConn = some ⟨c, TxKnown P st.inTransaction⟩ := by
      simp [vars, varsWith, hc]
    rw [TurbineProxy.entry, hv] at h
    exact h.2

theorem Pinned.entryAfter {sqls : List Str} (hnew : st.txConn = none → ∀ conn, P.tx conn)
    (conn : Conn srv) (h : TurbineProxy.entryAfter R (st.vars P) sqls conn) : Pinned P conn := by
  rcases hc : st.txConn with _ | c
  · have hv : st.vars P .txConn = none := by simp [vars, varsWith, hc]
    rw [TurbineProxy.entryAfter, hv] at h
    exact ⟨h.2, hnew hc conn⟩
  · have hv : st.vars P .txConn = some ⟨c, TxKnown P st.inTransaction⟩ := by
      simp [vars, varsWith, hc]
    rw [TurbineProxy.entryAfter, hv] at h
    exact h.2

/-- Outside a transaction, or without a connection, nothing depends on the flag. -/
theorem owns_stay {flag : Bool} (hσ : Owns (st.vars P) g)
    (h : st.inTransaction = false ∨ st.txConn = none) :
    Owns (st.varsWith P (TxKnown P flag)) g := by
  rcases h with h | h
  · exact owns_mono hσ fun conn hk => ⟨fun _ => hk.1 h, hk.2⟩
  · rw [varsWith_none h _ (TxKnown P st.inTransaction)]
    exact hσ

section Routes

variable (kept : Except Str Response → Bool)
  (hkept : ∀ {p conn r conn'}, R.after .txConn p conn r conn' →
    kept (r.mapError TalkError.text) = false → R.clean conn')

include hkept in
/-- After an exchange, `tx_conn` is clean unless the session keeps it for a transaction. -/
theorem owns_exchanged {c : ConnId} {p : Packet} {r : Except Str Response} {g' : Hold srv}
    (h : Owns (Function.update (st.vars P) .txConn (some ⟨c, Exchanged R .txConn p K r⟩)) g')
    (hK : ∀ conn, K conn → Pinned P conn) :
    Owns (varsWith P { st with txConn := some c } (TxKnown P (kept r))) g' := by
  rw [← varsWith_update_tx (some c)]
  refine h.weaken ?_
  rintro conn' ⟨conn, r₀, hknown, rfl, hafter⟩
  refine ⟨hkept hafter, fun hhome => ?_, P.tx_stays (hK conn hknown).2 hafter⟩
  rw [R.after_lender hafter]
  exact (hK conn hknown).1 hhome

/-- A command goes out on `tx_conn`, or on a connection of its own while `tx_conn` is clean. -/
theorem others_route {inTx : Bool} (hin : inTx = false → st.inTransaction = false) :
    Others R (st.vars P) (if inTx then .txConn else .loan) := by
  rcases inTx with _ | _
  · exact others_any (fun conn h => h.1 (hin rfl)) _
  · exact others_tx

variable (hσ : Owns (st.vars P) g) (hnew : st.txConn = none → ∀ conn, P.tx conn)
  {inTx : Bool} (hin : inTx = false → st.inTransaction = false)
  {Q : Option ConnId × Except Str Response → Hold srv → Prop}
  (hQ : ∀ x r g', Owns (varsWith P { st with txConn := x } (TxKnown P (kept r))) g' → Q (x, r) g')

include hσ hnew hkept hin hQ

theorem wp_query_route {sql : Bytes} {rt : Route} :
    (routeQueryInner sql st.txConn inTx rt).wp R.contract Q g := by
  have hkeys : (st.vars P .txConn).map Claim.key = st.txConn := keys_tx
  rw [← hkeys]
  refine wp_routeQueryInner hσ rfl (others_route hin)
    (fun _ c r g' h => hQ _ r g' (owns_exchanged kept hkept h (Pinned.entryAfter hnew)))
    (fun _ hnone _ e => ?_) fun hi r g' h _ => ?_
  · rw [hnone] at hkeys
    have hstay := hQ st.txConn (.error e) g (owns_stay hσ (.inr hkeys.symm))
    rwa [← hkeys] at hstay
  · rw [hkeys]
    exact hQ _ r g' (owns_stay h (.inl (hin hi)))

theorem wp_raw_route {packet : Bytes} {db : Option Str} :
    (routeRawInner packet st.txConn inTx db).wp R.contract Q g := by
  have hkeys : (st.vars P .txConn).map Claim.key = st.txConn := keys_tx
  rw [← hkeys]
  refine wp_routeRawInner hσ rfl (others_route hin)
    (fun _ c r g' h => hQ _ r g' (owns_exchanged kept hkept h (Pinned.entry hnew)))
    (fun _ hnone e => ?_) fun hi r g' h => ?_
  · rw [hnone] at hkeys
    have hstay := hQ st.txConn (.error e) g (owns_stay hσ (.inr hkeys.symm))
    rwa [← hkeys] at hstay
  · rw [hkeys]
    exact hQ _ r g' (owns_stay h (.inl (hin hi)))

theorem wp_fast_route {sql : Bytes} : (routeFast sql st.txConn inTx).wp R.contract Q g := by
  have hkeys : (st.vars P .txConn).map Claim.key = st.txConn := keys_tx
  rw [← hkeys]
  refine wp_routeFast hσ rfl (others_route hin)
    (fun _ c r g' h => hQ _ r g' (owns_exchanged kept hkept h (Pinned.entry hnew)))
    (fun _ hnone e => ?_) fun hi r g' h => ?_
  · rw [hnone] at hkeys
    have hstay := hQ st.txConn (.error e) g (owns_stay hσ (.inr hkeys.symm))
    rwa [← hkeys] at hstay
  · rw [hkeys]
    exact hQ _ r g' (owns_stay h (.inl (hin hi)))

end Routes

/-! ## Fast-forward -/

/-- The error of an exchange says that the backend died. -/
def goneResult : Except Str Response → Bool
  | .ok _ => false
  | .error e => isGone e

/-- Whether the session still holds on to its transaction, or gives up the connection, after a
statement with outcome `r` has gone through `tx_conn`. -/
def keeps (cfg : MysqlConfig) (st : MysqlSession) (sql : Str) (r : Except Str Response) : Bool :=
  if cfg.fastForward then st.ffFlag sql && !ffEnds sql
  else (st.inTransaction || begins sql) && (!ends sql || goneResult r)

/-- The text tests agree with what is known of the connection: where they see no transaction, it is
clean. -/
def Follows (R : Rules srv) (cfg : MysqlConfig) (st : MysqlSession) (sql : Str) : Prop :=
  ∀ {p conn r conn'}, R.after .txConn p conn r conn' →
    st.keeps cfg sql (r.mapError TalkError.text) = false → R.clean conn'

theorem wp_fastForward (hff : cfg.fastForward = true) (h : Inv P st g) {sql : Str} {bytes : Bytes}
    (hnew : st.txConn = none → ∀ conn, P.tx conn) (hfollow : Follows R cfg st sql) :
    (st.fastForward sql bytes).wp R.contract (Inv P) g := by
  rw [fastForward]
  simp only [Prog.wp_bind]
  refine wp_fast_route (fun _ => st.ffFlag sql && !ffEnds sql)
    (fun hafter hk => hfollow hafter (by simpa [keeps, hff] using hk)) h.owns hnew (fun h => h)
    fun x r g₁ h₁ => ?_
  rcases hends : ffEnds sql with _ | _
  · simp only [hends, Bool.not_false, Bool.and_true] at h₁
    apply wp_answer
    exact ⟨h.live, h.frame, h₁⟩
  · simp only [hends, Bool.not_true, Bool.and_false] at h₁
    simp only [if_true, Prog.wp_bind]
    apply wp_releaseTx (P := P) (K := TxKnown P false)
    · exact h₁
    · intro conn hk
      exact ⟨hk.1 rfl, hk.2.1⟩
    · intro g₂ h₂
      apply wp_answer
      exact ⟨h.live, h.frame, h₂⟩

theorem wp_ruleFastForward (hflag : st.inTransaction = false) (h : Inv P st g) {bytes : Bytes} :
    (st.ruleFastForward bytes).wp R.contract (Inv P) g := by
  have hkeys : (st.vars P .txConn).map Claim.key = st.txConn := keys_tx
  rw [ruleFastForward]
  simp only [Prog.wp_bind]
  rw [← hkeys]
  refine wp_routeFast h.owns rfl (others_route fun _ => hflag) (fun h => by cases h)
    (fun h => by cases h) fun _ r g₁ h₁ => ?_
  rw [hkeys]
  apply wp_answer
  exact ⟨h.live, h.frame, h₁⟩

/-! ## The stages of a query -/

/-- Two states that differ in bookkeeping only. -/
structure Alike (st st' : MysqlSession) : Prop where
  /-- the phase -/
  phase : st'.phase = st.phase
  /-- the flag -/
  flag : st'.inTransaction = st.inTransaction
  /-- the transaction's connection -/
  txConn : st'.txConn = st.txConn
  /-- the statement map -/
  shadow : st'.shadow = st.shadow
  /-- the statements' connection -/
  stmtConn : st'.stmtConn = st.stmtConn
  /-- the hint's connection -/
  stickyHintConn : st'.stickyHintConn = st.stickyHintConn
  /-- and its index -/
  stickyHintIdx : st'.stickyHintIdx = st.stickyHintIdx

namespace Alike

variable {st' st'' : MysqlSession}

theorem refl (st : MysqlSession) : Alike st st := ⟨rfl, rfl, rfl, rfl, rfl, rfl, rfl⟩

theorem trans (h : Alike st st') (h' : Alike st' st'') : Alike st st'' :=
  ⟨h'.1.trans h.1, h'.2.trans h.2, h'.3.trans h.3, h'.4.trans h.4, h'.5.trans h.5, h'.6.trans h.6,
    h'.7.trans h.7⟩

theorem varsWith (h : Alike st st') : st'.varsWith P K = st.varsWith P K := by
  funext via
  cases via <;> simp [MysqlSession.varsWith, h.txConn, h.stmtConn, h.stickyHintConn, h.stickyHintIdx]

theorem vars (h : Alike st st') : st'.vars P = st.vars P := by
  rw [MysqlSession.vars, h.varsWith, h.flag, MysqlSession.vars]

theorem inv (h : Alike st st') (hi : Inv P st g) : Inv P st' g := by
  refine ⟨?_, ?_, ?_⟩
  · rw [h.phase]
    exact hi.live
  · rw [h.shadow, h.stmtConn]
    exact hi.frame
  · rw [h.vars]
    exact hi.owns

end Alike

section Stages

variable {Q : MysqlSession → Hold srv → Prop}

theorem wp_expireRyow (hQ : ∀ st', Alike st st' → Q st' g) : st.expireRyow.wp R.contract Q g := by
  rw [expireRyow]
  rcases st.ryowUntil with _ | limit
  · exact hQ st (.refl st)
  · simp only [Prog.wp_bind]
    refine wp_quiet rfl fun now => ?_
    by_cases hlate : limit ≤ now
    · rw [Prog.pure_eq, Prog.wp_done, if_pos hlate]
      exact hQ _ ⟨rfl, rfl, rfl, rfl, rfl, rfl, rfl⟩
    · rw [Prog.pure_eq, Prog.wp_done, if_neg hlate]
      exact hQ st (.refl st)

theorem wp_gtidForcesPrimary (hσ : Owns (st.vars P) g) {q : Query}
    {Q : MysqlSession × Bool → Hold srv → Prop}
    (hQ : ∀ st' b g', Alike st st' → Owns (st.vars P) g' → Q (st', b) g') :
    (st.gtidForcesPrimary cfg q).wp R.contract Q g := by
  rw [gtidForcesPrimary]
  split
  · simp only [Prog.wp_bind]
    refine wp_checkReplicaHasGtid hσ rfl fun ready g' h => ?_
    cases ready
    · exact hQ st true g' (.refl st) h
    · exact hQ _ false g' ⟨rfl, rfl, rfl, rfl, rfl, rfl, rfl⟩ h
  · exact hQ st false g (.refl st) hσ

theorem alike_noteSessionState (st : MysqlSession) (sql : Str) :
    Alike st (st.noteSessionState sql) := by
  unfold noteSessionState
  dsimp only
  split <;> split <;> exact ⟨rfl, rfl, rfl, rfl, rfl, rfl, rfl⟩

/-- A recognised BEGIN raises the flag. -/
theorem wp_noteBegin {sql : Str}
    (hQ : ∀ st', Alike { st with inTransaction := st.inTransaction || begins sql } st' → Q st' g) :
    (st.noteBegin sql).wp R.contract Q g := by
  rw [noteBegin]
  rcases hb : begins sql with _ | _
  · simp only [hb, Bool.or_false] at hQ
    exact hQ st (.refl st)
  · simp only [hb, Bool.or_true] at hQ
    simp only [if_true, Prog.wp_bind]
    exact wp_quiet rfl fun now => hQ _ ⟨rfl, rfl, rfl, rfl, rfl, rfl, rfl⟩

theorem wp_overTime {Q : Bool → Hold srv → Prop} (hQ : ∀ b, Q b g) :
    (st.overTime cfg).wp R.contract Q g := by
  rw [overTime]
  split
  · simp only [Prog.wp_bind]
    exact wp_quiet rfl fun now => hQ _
  · exact hQ false

theorem wp_overIdle {Q : Bool → Hold srv → Prop} (hQ : ∀ b, Q b g) :
    (st.overIdle cfg).wp R.contract Q g := by
  rw [overIdle]
  split
  · simp only [Prog.wp_bind]
    exact wp_quiet rfl fun now => hQ _
  · exact hQ false

theorem wp_killTx (h : Inv P st g) {exit : Exit} {msg : Str} :
    (st.killTx exit msg).wp R.contract (Inv P) g := by
  rw [killTx]
  simp only [Prog.wp_bind]
  apply wp_dropTx (P := P) (K := TxKnown P st.inTransaction)
  · exact h.owns
  · intro g₁ h₁
    refine wp_quiet rfl fun _ => ?_
    apply wp_flush
    exact ⟨h.live, h.frame, h₁⟩

/-! ## After routing -/

/-- The slow path: whether a statement leaves the session with a transaction, its flag being `flag`
while the statement runs. -/
def slowKeeps (flag : Bool) (sql : Str) (r : Except Str Response) : Bool :=
  flag && (!ends sql || goneResult r)

/-- A session after routing: what the flag will say is true of `tx_conn`. -/
structure Routed (P : Pins R) (st : MysqlSession) (flag : Bool) (g : Hold srv) : Prop where
  /-- it has not ended -/
  live : st.phase ≠ .ended
  /-- the statement map is as it was -/
  frame : P.frame st.shadow st.stmtConn
  /-- the variables hold the session's connections -/
  owns : Owns (st.varsWith P (TxKnown P flag)) g

theorem Alike.routed {st' : MysqlSession} {flag : Bool} (h : Alike st st') (hr : Routed P st flag g) :
    Routed P st' flag g := by
  refine ⟨?_, ?_, ?_⟩
  · rw [h.phase]
    exact hr.live
  · rw [h.shadow, h.stmtConn]
    exact hr.frame
  · rw [h.varsWith]
    exact hr.owns

theorem wp_finishQuery {q : Query} (h : Routed P st (st.inTransaction && !ends q.sql) g) :
    (st.finishQuery q).wp R.contract (Inv P) g := by
  obtain ⟨hlive, hframe, hσ⟩ := h
  rw [finishQuery]
  rcases hends : ends q.sql with _ | _
  · simp only [hends, Bool.not_false, Bool.and_true] at hσ
    apply wp_flush
    exact ⟨hlive, hframe, hσ⟩
  · simp only [hends, Bool.not_true, Bool.and_false] at hσ
    simp only [if_true, Prog.wp_bind]
    apply wp_releaseTx (P := P) (K := TxKnown P false)
    · exact hσ
    · intro conn hk
      exact ⟨hk.1 rfl, hk.2.1⟩
    · intro g₁ h₁
      apply wp_flush
      exact ⟨hlive, hframe, h₁⟩

theorem alike_noteChanges (st : MysqlSession) (changes : List (Str × Str)) :
    Alike st (st.noteChanges cfg changes) := by
  obtain ⟨sqls, heq⟩ := noteChanges_eq cfg st changes
  rw [heq]
  exact ⟨rfl, rfl, rfl, rfl, rfl, rfl, rfl⟩

theorem alike_noteGtid (st : MysqlSession) (q : Query) (response : Response) :
    Alike st (st.noteGtid cfg q response) := by
  obtain ⟨gtid, heq⟩ := noteGtid_eq cfg st q response
  rw [heq]
  exact ⟨rfl, rfl, rfl, rfl, rfl, rfl, rfl⟩

variable (cfg) in
theorem alike_countError (st : MysqlSession) (now : Nat) : Alike st (st.countError cfg now) := by
  unfold countError
  dsimp only
  split <;> exact ⟨rfl, rfl, rfl, rfl, rfl, rfl, rfl⟩

/-- Leaving early is fine: the flag says no more than before. -/
theorem Routed.inv {flag : Bool} (h : Routed P st flag g) (hflag : st.inTransaction = false → flag = false) :
    Inv P st g :=
  ⟨h.live, h.frame, owns_mono h.owns fun _ hk => ⟨fun hf => hk.1 (hflag hf), hk.2⟩⟩

theorem wp_afterResponse {q : Query} {response : Response}
    (h : Routed P st (st.inTransaction && !ends q.sql) g) :
    (st.afterResponse cfg q response).wp R.contract (Inv P) g := by
  have ha : Alike st ((noteGtid cfg { st with consecutiveErrors := 0, errorWindowStart := none } q
      response).noteChanges cfg response.sessionChanges) := by
    refine Alike.trans ?_ ((alike_noteGtid _ q response).trans (alike_noteChanges _ _))
    exact ⟨rfl, rfl, rfl, rfl, rfl, rfl, rfl⟩
  have h' := ha.routed h
  rw [afterResponse]
  simp only [Prog.wp_bind]
  refine wp_quiet rfl fun sent => Prog.wp_ite (fun _ => ?_) fun _ => ?_
  · apply wp_finishQuery
    rw [ha.flag]
    exact h'
  · refine (h'.inv fun hf => ?_).close
    rw [ha.flag] at hf
    simp [hf]

theorem wp_afterError {q : Query} {e : Str} (h : Routed P st (slowKeeps st.inTransaction q.sql
    (.error e)) g) : (st.afterError cfg q e).wp R.contract (Inv P) g := by
  -- once the connection of a dead backend is gone
  have hrest : ∀ st' g', Routed P st' (st'.inTransaction && !ends q.sql) g' →
      (st'.tellError cfg q e).wp R.contract (Inv P) g' := by
    intro st' g' h'
    rw [tellError, Prog.wp_bind]
    refine wp_quiet rfl fun _ => Prog.wp_ite (fun _ => ?_) fun _ => wp_finishQuery h'
    simp only [Prog.wp_bind]
    refine wp_quiet rfl fun now => ?_
    have ha := alike_countError cfg st' now
    have hcount := ha.routed h'
    refine Prog.wp_ite (fun _ => ?_) fun _ => ?_
    · simp only [Prog.wp_bind]
      refine wp_quiet rfl fun _ => (hcount.inv fun hf => ?_).close
      rw [ha.flag] at hf
      simp [hf]
    · apply wp_finishQuery
      rw [ha.flag]
      exact hcount
  rw [afterError]
  rcases hgone : isGone e && st.inTransaction with _ | _
  · simp only [Bool.false_eq_true, if_false]
    refine hrest st g ⟨h.live, h.frame, owns_mono h.owns fun conn hk => ⟨fun hf => hk.1 ?_, hk.2⟩⟩
    rcases hf' : st.inTransaction with _ | _ <;> simp_all [slowKeeps, goneResult]
  · simp only [if_true, Prog.wp_bind]
    apply wp_dropTx (P := P) (K := TxKnown P (slowKeeps st.inTransaction q.sql (.error e)))
    · exact h.owns
    · intro g₁ h₁
      have hr := hrest { st with
        inTransaction := false, txStart := none, lastQueryInTx := none, txConn := none } g₁ ⟨h.live, h.frame, h₁⟩
      rwa [tellError, Prog.wp_bind] at hr

theorem wp_openRyow {q : Query} {r : Except Str Response} (hQ : ∀ st', Alike st st' → Q st' g) :
    (st.openRyow cfg q r).wp R.contract Q g := by
  rw [openRyow]
  refine Prog.wp_ite (fun _ => ?_) fun _ => hQ st (.refl st)
  simp only [Prog.wp_bind]
  exact wp_quiet rfl fun now => hQ _ ⟨rfl, rfl, rfl, rfl, rfl, rfl, rfl⟩

theorem wp_touchTx (hQ : ∀ st', Alike st st' → Q st' g) : st.touchTx.wp R.contract Q g := by
  rw [touchTx]
  refine Prog.wp_ite (fun _ => ?_) fun _ => hQ st (.refl st)
  simp only [Prog.wp_bind]
  exact wp_quiet rfl fun now => hQ _ ⟨rfl, rfl, rfl, rfl, rfl, rfl, rfl⟩

theorem wp_afterRoute {q : Query} {r : Except Str Response}
    (h : Routed P st (slowKeeps st.inTransaction q.sql r) g) :
    (st.afterRoute cfg q r).wp R.contract (Inv P) g := by
  rw [afterRoute]
  simp only [Prog.wp_bind]
  refine wp_openRyow fun st₁ h₁ => wp_touchTx fun st₂ h₂ => ?_
  have ha := h₁.trans h₂
  have h' := ha.routed h
  rcases r with e | response
  · apply wp_afterError
    rw [ha.flag]
    exact h'
  · apply wp_afterResponse
    rw [ha.flag]
    simpa [slowKeeps, goneResult] using h'

section Slow

variable {q : Query}
  (hkept : ∀ {p conn r conn'}, R.after .txConn p conn r conn' →
    slowKeeps st.inTransaction q.sql (r.mapError TalkError.text) = false → R.clean conn')
  (hnew : st.txConn = none → ∀ conn, P.tx conn) (h : Inv P st g)

include hkept hnew h

theorem wp_routeNormally {ryow : Bool} :
    (st.routeNormally cfg q ryow).wp R.contract (Inv P) g := by
  rw [routeNormally]
  simp only [Prog.wp_bind]
  refine wp_query_route (slowKeeps st.inTransaction q.sql) hkept h.owns hnew (fun hin => ?_)
    fun x r g₁ h₁ => ?_
  · simp only [effectiveInTx, Bool.or_eq_false_iff] at hin
    exact hin.1
  · apply wp_afterRoute
    exact ⟨h.live, h.frame, h₁⟩

/-- The hint is only followed outside transactions. -/
theorem wp_routeHinted (hflag : st.inTransaction = false) {ryow : Bool} :
    (st.routeHinted cfg q ryow).wp R.contract (Inv P) g := by
  have hclean : ∀ via, Others R (st.vars P) via := others_any fun conn hk => hk.1 hflag
  have hkeys : (st.vars P .stickyConn).map Claim.key = st.stickyHintConn := keys_sticky
  rw [routeHinted]
  simp only [Prog.wp_bind]
  rw [← hkeys]
  refine wp_routeStickyQuery h.owns (hclean .stickyConn) (fun a ha conn hk => ?_)
    (fun c idx r g₁ h₁ => ?_) fun hnone e => ?_
  · simp only [vars, varsWith, Option.map_eq_some_iff] at ha
    obtain ⟨c, -, rfl⟩ := ha
    exact hk
  · have hσ : Owns (vars P { st with stickyHintConn := some c, stickyHintIdx := idx }) g₁ := by
      rw [vars, ← varsWith_update_sticky (some c) idx]
      exact h₁
    rcases r with e | response
    · refine Prog.wp_ite (fun _ => ?_) fun _ => ?_
      · simp only [Prog.wp_bind]
        refine wp_drop (v := .stickyConn) (a := ⟨c, R.Tidy (R.idxHome idx)⟩) hσ rfl fun g₂ h₂ => ?_
        apply wp_routeNormally
        · exact hkept
        · exact hnew
        · rw [vars, ← varsWith_update_sticky (some c) idx, Function.update_idem,
            ← Option.map_none, varsWith_update_sticky none none] at h₂
          exact ⟨h.live, h.frame, h₂⟩
      · simp only [Prog.wp_bind]
        refine wp_quiet rfl fun _ => wp_quiet rfl fun _ => ?_
        exact ⟨h.live, h.frame, hσ⟩
    · apply wp_answer
      exact ⟨h.live, h.frame, hσ⟩
  · have hσ : Owns (vars P { st with stickyHintConn := none, stickyHintIdx := none }) g := by
      rw [vars, ← varsWith_update_sticky none none, Option.map_none,
        Function.update_eq_self_iff.mpr hnone.symm]
      exact h.owns
    refine Prog.wp_ite (fun _ => ?_) fun _ => ?_
    · apply wp_routeNormally
      · exact hkept
      · exact hnew
      · exact ⟨h.live, h.frame, hσ⟩
    · simp only [Prog.wp_bind]
      refine wp_quiet rfl fun _ => wp_quiet rfl fun _ => ⟨h.live, h.frame, ?_⟩
      convert h.owns using 1
      funext via
      rw [hnone] at hkeys
      cases via <;> simp [vars, varsWith, ← hkeys]

theorem wp_routeAllowed {ryow : Bool} :
    (st.routeAllowed cfg q ryow).wp R.contract (Inv P) g := by
  -- the hint changes the sticky connection only
  have hgo : ∀ st' g', st'.inTransaction = st.inTransaction → st'.txConn = st.txConn →
      Inv P st' g' →
      (if st'.stickyHintActive && !st'.effectiveInTx && q.wasRead then st'.routeHinted cfg q ryow
        else st'.routeNormally cfg q ryow).wp R.contract (Inv P) g' := by
    intro st' g' hflag htx h'
    rw [← hflag] at hkept
    rw [← htx] at hnew
    refine Prog.wp_ite (fun hc => ?_) fun _ => wp_routeNormally hkept hnew h'
    refine wp_routeHinted hkept hnew h' ?_
    simp only [effectiveInTx, Bool.and_eq_true, Bool.not_eq_true', Bool.or_eq_false_iff] at hc
    exact hc.1.2.1
  unfold routeAllowed applyHint
  rcases extractStickyHint q.sql with _ | _ | _
  · exact hgo st g rfl rfl h
  · simp only [Prog.wp_bind]
    refine Prog.wp_ite (fun _ => ?_) fun _ => hgo st g rfl rfl h
    apply wp_releaseSticky (P := P) (K := TxKnown P st.inTransaction)
    · exact h.owns
    · intro g₁ h₁
      exact hgo _ g₁ rfl rfl ⟨h.live, h.frame, h₁⟩
  · exact hgo _ g rfl rfl ⟨h.live, h.frame, h.owns⟩

theorem wp_checkedQuery {ryow : Bool} :
    (st.checkedQuery cfg q ryow).wp R.contract (Inv P) g := by
  rw [checkedQuery]
  simp only [Prog.wp_bind]
  refine wp_overTime fun late => Prog.wp_ite (fun _ => wp_killTx h) fun _ => ?_
  simp only [Prog.wp_bind]
  refine wp_overIdle fun stale => Prog.wp_ite (fun _ => ?_) fun _ => ?_
  · apply wp_killTx
    exact ⟨h.live, h.frame, h.owns⟩
  · rcases st.localAnswer cfg q with _ | ⟨m, strict⟩
    · exact wp_routeAllowed hkept hnew h
    · simp only [Prog.wp_bind]
      refine wp_quiet rfl fun _ => wp_quiet rfl fun sent => ?_
      rcases strict && !sent with _ | _
      · exact h
      · exact h.close

end Slow

end Stages

/-! ## Commands -/

theorem wp_slowQuery (hff : cfg.fastForward = false) (h : Inv P st g) {sql : Str} {bytes : Bytes}
    (hnew : st.txConn = none → ∀ conn, P.tx conn) (hfollow : Follows R cfg st sql) :
    (st.slowQuery cfg sql bytes).wp R.contract (Inv P) g := by
  rw [slowQuery]
  simp only [Prog.wp_bind]
  refine wp_expireRyow fun st₁ ha₁ => ?_
  have h₁ := ha₁.inv h
  refine wp_gtidForcesPrimary h₁.owns fun st₂ force g₂ ha₂ hσ₂ => ?_
  have h₂ : Inv P st₂ g₂ := ha₂.inv ⟨h₁.live, h₁.frame, hσ₂⟩
  have ha₃ := alike_noteSessionState st₂ sql
  refine wp_noteBegin fun st₄ ha₄ => ?_
  have ha := (ha₁.trans ha₂).trans ha₃
  have h₃ := ha₃.inv h₂
  have hflag : st₄.inTransaction = (st.inTransaction || begins sql) := by
    rw [ha₄.flag, ← ha.flag]
  -- raising the flag takes nothing away from what is known
  have h₄ : Inv P st₄ g₂ := by
    refine ha₄.inv ⟨h₃.live, h₃.frame, ?_⟩
    refine owns_mono h₃.owns fun conn hk => ⟨fun hf => hk.1 ?_, hk.2⟩
    exact (Bool.or_eq_false_iff.mp hf).1
  apply wp_checkedQuery
  · intro p conn r conn' hafter hk
    refine hfollow hafter ?_
    rw [hflag] at hk
    simpa [keeps, hff, slowKeeps] using hk
  · intro hnone
    rw [ha₄.txConn] at hnone
    exact hnew (ha.txConn ▸ hnone)
  · exact h₄

theorem wp_query (h : Inv P st g) {bytes : Bytes}
    (hnew : st.txConn = none → ∀ conn, P.tx conn) (hfollow : Follows R cfg st (textOf bytes)) :
    (st.query cfg bytes).wp R.contract (Inv P) g := by
  rw [query]
  rcases hff : cfg.fastForward with _ | _
  · have hslow : (st.slowQuery cfg (textOf bytes) bytes).wp R.contract (Inv P) g :=
      wp_slowQuery hff h hnew hfollow
    simp only [Bool.false_eq_true, if_false]
    rcases hflag : st.inTransaction with _ | _
    · simp only [Bool.false_eq_true, if_false, Prog.wp_bind]
      refine wp_isFastForwardRule fun ff => Prog.wp_ite (fun _ => ?_) fun _ => hslow
      exact wp_ruleFastForward hflag h
    · exact hslow
  · exact wp_fastForward hff h hnew hfollow

theorem wp_other (h : Inv P st g) {raw : Bytes} (hnew : st.txConn = none → ∀ conn, P.tx conn) :
    (st.other raw).wp R.contract (Inv P) g := by
  have hkeys : (st.vars P .txConn).map Claim.key = st.txConn := keys_tx
  rw [other]
  simp only [Prog.wp_bind]
  by_cases hflag : st.inTransaction = true
  · refine wp_raw_route (fun _ => true) (fun _ hk => by cases hk) h.owns hnew (fun h => h)
      fun x r g₁ h₁ => ?_
    apply wp_answer
    refine ⟨h.live, h.frame, owns_mono h₁ fun conn hk => ⟨fun hf => ?_, hk.2⟩⟩
    rw [hflag] at hf
    cases hf
  · rw [← hkeys]
    refine wp_routeRawInner h.owns rfl (others_route fun h => h) (fun h => absurd h hflag)
      (fun h => absurd h hflag) fun _ r g₁ h₁ => ?_
    rw [hkeys]
    apply wp_answer
    exact ⟨h.live, h.frame, h₁⟩

/-- What is left of a prepared-statement command once it has been routed. -/
theorem wp_stmt_rest (h : Inv (Pins.none R) st g) {r : Except Str Response} :
    (st.settleStmt r).wp R.contract (Inv (Pins.none R)) g := by
  have hgo : ∀ sent : Bool, (st.flushStmt sent).wp R.contract (Inv (Pins.none R)) g := by
    intro sent
    refine Prog.wp_ite (fun _ => ?_) fun _ => h.close
    simp only [Prog.wp_bind]
    refine wp_quiet rfl fun flushed => Prog.wp_ite (fun _ => ?_) fun _ => h.close
    refine Prog.wp_ite (fun _ => ?_) fun _ => h
    exact wp_releaseStmt h.owns fun g₁ h₁ => ⟨h.live, trivial, h₁⟩
  rcases r with e | response
  · rw [settleStmt, Prog.wp_bind]
    exact wp_quiet rfl fun _ => hgo true
  · rw [settleStmt]
    refine Prog.wp_ite (fun _ => hgo true) fun _ => ?_
    exact wp_quiet rfl hgo

theorem wp_stmt (h : Inv (Pins.none R) st g) {raw : Bytes} :
    (st.stmt raw).wp R.contract (Inv (Pins.none R)) g := by
  have hkeys : (st.vars (Pins.none R) .txConn).map Claim.key = st.txConn := keys_tx
  have hkeys' : (st.vars (Pins.none R) .stmtConn).map Claim.key = st.stmtConn := keys_stmt
  rw [stmt, Prog.wp_bind, ← hkeys, ← hkeys']
  refine wp_routeStmtMysqlShadow h.owns rfl ?_ ?_ (fun hin sh c r g₁ h₁ => ?_)
    (fun hin sh c r g₁ h₁ => ?_) fun e => ?_
  · rw [activeVia]
    split
    · exact others_tx
    · rename_i hflag
      exact others_any (fun conn hk => hk.1 (by simpa using hflag)) _
  · intro conn hentry
    rcases hc : st.stmtConn with _ | c <;>
      simp only [entry, vars, varsWith, hc, Option.map_none, Option.map_some] at hentry
    · exact hentry.2
    · exact hentry.2
  · have hσ : Owns (vars (Pins.none R) { st with txConn := some c }) g₁ := by
      rw [vars, ← varsWith_update_tx (some c)]
      refine h₁.weaken ?_
      rintro conn' ⟨p, conn, r₀, hentry, hafter⟩
      refine ⟨fun hf => ?_, fun hhome => ?_, trivial⟩
      · rw [hin] at hf
        cases hf
      · rw [R.after_lender hafter]
        exact (Pinned.entry (fun _ _ => trivial) conn hentry).1 hhome
    rw [hkeys']
    apply wp_stmt_rest
    exact ⟨h.live, trivial, hσ⟩
  · have hσ : Owns (vars (Pins.none R) { st with stmtConn := some c }) g₁ := by
      rw [vars, ← varsWith_update_stmt (some c)]
      exact h₁
    rw [hkeys]
    apply wp_stmt_rest
    exact ⟨h.live, trivial, hσ⟩
  · rw [hkeys, hkeys']
    apply wp_stmt_rest (r := .error e)
    exact ⟨h.live, trivial, h.owns⟩

/-! ## A turn of the loop -/

/-- What a turn owes to what the proxy knows of the server's end: the text tests follow it, and the
session ends, or is reset, with clean connections. -/
def Agrees (R : Rules srv) (cfg : MysqlConfig) (st : MysqlSession) (g : Hold srv) :
    MysqlEvent → Prop
  | .query bytes => Follows R cfg st (textOf bytes)
  | .resetConnection | .cleanup => ∀ c conn, g c = some conn → R.clean conn
  | _ => True

/-- The invariant of a session between two commands. -/
def Idle (R : Rules srv) (g : Hold srv) (st : MysqlSession) : Prop :=
  Owns (st.vars (Pins.none R)) g ∧ (st.phase = .ended → st.Empty)

theorem Inv.idle (h : Inv (Pins.none R) st g) : Idle R g st :=
  ⟨h.owns, fun hend => absurd hend h.live⟩

/-- **A session keeps its contract**: every command starts a program that meets the contract and
leaves the session's connections in its variables. -/
theorem wp_react {e : MysqlEvent} {p : Task MysqlSession} (h : Idle R g st)
    (hreact : st.react cfg e = some p) (hagree : Agrees R cfg st g e) :
    p.wp R.contract (fun st' g' => Idle R g' st') g := by
  have hrun : st.phase = .running → Inv (Pins.none R) st g := fun hphase =>
    ⟨by rw [hphase]; decide, trivial, h.1⟩
  obtain ⟨hphase, rfl⟩ := react_eq_some hreact
  cases e with
  | cleanup =>
    refine Prog.wp_mono (wp_cleanup h.1 hagree) ?_
    rintro st' g' ⟨hempty, hσ⟩
    exact ⟨hσ, fun _ => hempty⟩
  | resetConnection =>
    refine Prog.wp_mono (wp_resetConnection (hrun hphase).live h.1 hagree) ?_
    rintro st' g' ⟨-, hempty, -, hσ⟩
    exact ⟨hσ, fun _ => hempty⟩
  | quit =>
    exact (hrun hphase).close.idle
  | ping =>
    rw [taskOf, Prog.wp_bind]
    refine wp_quiet rfl fun sent => ?_
    cases sent
    · exact (hrun hphase).close.idle
    · exact (hrun hphase).idle
  | query bytes =>
    exact Prog.wp_mono (wp_query (hrun hphase) (fun _ _ => trivial) hagree) fun _ _ h => h.idle
  | stmt raw =>
    exact Prog.wp_mono (wp_stmt (hrun hphase)) fun _ _ h => h.idle
  | other raw =>
    exact Prog.wp_mono (wp_other (hrun hphase) fun _ _ => trivial) fun _ _ h => h.idle

end MysqlSession

end TurbineProxy
