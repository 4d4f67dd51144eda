import TurbineProxy.RouterSpec

/-!
# A PostgreSQL session meets its contract

One turn of the loop, function by function as in `PgSession.lean`. A PostgreSQL session learns the
state of its transaction from the status byte of each response, so its invariant goes both ways: while
the flag is down every connection of the session is clean, while it is up `tx_conn` is there and
*busy*. What the flag will be after a command is a function of the response (`PgSession.flagAfter`).
-/

namespace TurbineProxy

variable {srv : Server}

/-- What is known of a session with a transaction. -/
structure PgPins (R : Rules srv) where
  /-- a connection that last reported an open transaction -/
  busy : Conn srv → Prop
  /-- whether the status is tracked at all -/
  strict : Prop
  /-- where it is not, nothing is asked of a connection -/
  loose : ¬strict → ∀ conn, R.clean conn ∧ busy conn
  /-- where it is, a plain response does not report a transaction -/
  plain : strict → ∀ {resp s}, R.plain resp → extractReadyStatus resp.bytes = some s →
    inTxStatus s = false

namespace PgSession

variable {R : Rules srv} {P : PgPins R} {g : Hold srv} {cfg : PgConfig} {st : PgSession}
  {K : Conn srv → Prop}

/-! ## The invariant -/

/-- What is known of `tx_conn` while the flag is `flag`; less if it is about to be dropped
(`gone`). -/
def TxKnown (P : PgPins R) (flag gone : Bool) (conn : Conn srv) : Prop :=
  (flag = false → R.clean conn) ∧ (flag = true → gone = false → P.busy conn) ∧
    (R.home → conn.lender = R.primaryHome)

theorem TxKnown.tidy {gone : Bool} {conn : Conn srv} (h : TxKnown P false gone conn) :
    R.Tidy R.primaryHome conn := ⟨h.1 rfl, h.2.2⟩

/-- The variables of a session, with `K` known of `tx_conn`. -/
def varsWith (R : Rules srv) (st : PgSession) (K : Conn srv → Prop) : Vars srv
  | .txConn => st.txConn.map fun c => ⟨c, K⟩
  | .stmtConn => st.stmtConn.map fun c => ⟨c, R.Tidy R.primaryHome⟩
  | .stickyConn => none
  | .loan => none

/-- A session in the course of a command, when `flag` is what its flag will say. -/
structure Routed (P : PgPins R) (st : PgSession) (flag gone : Bool) (g : Hold srv) : Prop where
  /-- it has not ended -/
  live : st.phase ≠ .ended
  /-- a transaction has its connection -/
  pinned : P.strict → flag = true → gone = false → st.txConn.isSome = true
  /-- the variables hold the session's connections -/
  owns : Owns (st.varsWith R (TxKnown P flag gone)) g

/-- The invariant of a session between two commands. -/
def Inv (P : PgPins R) (st : PgSession) (g : Hold srv) : Prop := Routed P st st.inTransaction false g

theorem keys_tx : (st.varsWith R K .txConn).map Claim.key = st.txConn := by
  simp [varsWith, Function.comp_def]

theorem keys_stmt : (st.varsWith R K .stmtConn).map Claim.key = st.stmtConn := by
  simp [varsWith, Function.comp_def]

theorem varsWith_update_tx (x : Option ConnId) (K' : Conn srv → Prop) :
    Function.update (st.varsWith R K) .txConn (x.map fun c => ⟨c, K'⟩) =
      varsWith R { st with txConn := x } K' := by
  funext via
  cases via <;> simp [varsWith, Function.update]

theorem varsWith_update_stmt (x : Option ConnId) :
    Function.update (st.varsWith R K) .stmtConn (x.map fun c => ⟨c, R.Tidy R.primaryHome⟩) =
      varsWith R { st with stmtConn := x } K := by
  funext via
  cases via <;> simp [varsWith, Function.update]

theorem varsWith_none (h : st.txConn = none) (K K' : Conn srv → Prop) :
    st.varsWith R K = st.varsWith R K' := by
  funext via
  cases via <;> simp [varsWith, h]

theorem owns_mono {K' : Conn srv → Prop} (h : Owns (st.varsWith R K) g)
    (himp : ∀ conn, K conn → K' conn) : Owns (st.varsWith R K') g := by
  refine h.mono (fun v hv => ?_) fun v a hv => ?_
  · cases v <;> simp_all [varsWith]
  · cases v with
    | txConn =>
      simp only [varsWith, Option.map_eq_some_iff] at hv ⊢
      obtain ⟨c, hc, rfl⟩ := hv
      exact ⟨K', ⟨c, hc, rfl⟩, himp⟩
    | stmtConn => exact ⟨a.known, hv, fun _ h => h⟩
    | stickyConn => exact ⟨a.known, hv, fun _ h => h⟩
    | loan => exact ⟨a.known, hv, fun _ h => h⟩

/-- Beside `tx_conn`, the connection of the session is clean. -/
theorem others_tx : Others R (st.varsWith R K) .txConn := by
  intro w b hw hb conn hknown
  cases w with
  | txConn => exact absurd rfl hw
  | stmtConn =>
    simp only [varsWith, Option.map_eq_some_iff] at hb
    obtain ⟨c, -, rfl⟩ := hb
    exact hknown.1
  | stickyConn => cases hb
  | loan => cases hb

/-- Outside a transaction, `tx_conn` is clean as well. -/
theorem others_any (hK : ∀ conn, K conn → R.clean conn) (via : Via) :
    Others R (st.varsWith R K) via := by
  intro w b hw hb conn hknown
  by_cases htx : w = .txConn
  · subst htx
    simp only [varsWith, Option.map_eq_some_iff] at hb
    obtain ⟨c, -, rfl⟩ := hb
    exact hK conn hknown
  · exact others_tx w b htx hb conn hknown

theorem Routed.close {flag gone : Bool} (h : Routed P st flag gone g) :
    Routed P st.close flag gone g :=
  ⟨by simp [PgSession.close], h.pinned, h.owns⟩

theorem Inv.close (h : Inv P st g) : Inv P st.close g := Routed.close h

/-! ## Answering the client -/

theorem wp_flush (h : Inv P st g) : st.flush.wp R.contract (Inv P) g := by
  rw [flush]
  simp only [Prog.wp_bind]
  refine wp_quiet rfl fun sent => ?_
  cases sent
  · exact h.close
  · exact h

theorem wp_refuse (h : Inv P st g) {code : String} {msg : Str} :
    (st.refuse code msg).wp R.contract (Inv P) g := by
  rw [refuse]
  simp only [Prog.wp_bind]
  exact wp_quiet rfl fun _ => wp_quiet rfl fun _ => h

/-! ## Returning connections -/

theorem wp_releaseTx (hσ : Owns (st.varsWith R K) g)
    (hK : ∀ conn, K conn → R.Tidy R.primaryHome conn) {Q : PgSession → Hold srv → Prop}
    (hQ : ∀ g', (∀ K', Owns (varsWith R { st with txConn := none } K') g') →
      Q { st with txConn := none } g') :
    st.releaseTx.wp R.contract Q g := by
  rw [releaseTx]
  rcases hc : st.txConn with _ | c
  · have hsame : { st with txConn := none } = st := by rw [← hc]
    rw [hsame] at hQ
    refine hQ g fun K' => ?_
    rw [varsWith_none hc _ K]
    exact hσ
  · simp only [Prog.wp_bind]
    refine wp_putPrimary (v := .txConn) (a := ⟨c, K⟩) hσ (by simp [varsWith, hc]) hK
      fun g' h => hQ g' fun K' => ?_
    rw [← varsWith_update_tx none K']
    exact h

theorem wp_dropTx (hσ : Owns (st.varsWith R K) g) {Q : PgSession → Hold srv → Prop}
    (hQ : ∀ g', (∀ K', Owns (varsWith R { st with txConn := none } K') g') →
      Q { st with txConn := none } g') :
    st.dropTx.wp R.contract Q g := by
  rw [dropTx]
  rcases hc : st.txConn with _ | c
  · have hsame : { st with txConn := none } = st := by rw [← hc]
    rw [hsame] at hQ
    refine hQ g fun K' => ?_
    rw [varsWith_none hc _ K]
    exact hσ
  · simp only [Prog.wp_bind]
    refine wp_drop (v := .txConn) (a := ⟨c, K⟩) hσ (by simp [varsWith, hc])
      fun g' h => hQ g' fun K' => ?_
    rw [← varsWith_update_tx none K']
    exact h

theorem wp_releaseStmt (hσ : Owns (st.varsWith R K) g) {Q : PgSession → Hold srv → Prop}
    (hQ : ∀ g', Owns (varsWith R { st with stmtConn := none } K) g' →
      Q { st with stmtConn := none } g') :
    st.releaseStmt.wp R.contract Q g := by
  rw [releaseStmt]
  rcases hc : st.stmtConn with _ | c
  · have hsame : { st with stmtConn := none } = st := by rw [← hc]
    rw [hsame] at hQ
    exact hQ g hσ
  · have hv : st.varsWith R K .stmtConn = some ⟨c, R.Tidy R.primaryHome⟩ := by simp [varsWith, hc]
    simp only [Prog.wp_bind]
    refine wp_executeQuery hσ hv (fun h => by cases h) fun r g₁ h₁ => ?_
    refine wp_putPrimary (v := .stmtConn) (a := ⟨c, Exchanged R .stmtConn
      (.text (asciiBytes "DEALLOCATE ALL")) (R.Tidy R.primaryHome) r⟩) h₁ (Function.update_self ..)
      (fun conn hex => hex.tidy (by simp) fun _ h => h.2) fun g₂ h₂ => hQ g₂ ?_
    rw [← varsWith_update_stmt none]
    rw [Function.update_idem] at h₂
    exact h₂

/-- No connection is in a variable of the session. -/
def Empty (st : PgSession) : Prop := st.txConn = none ∧ st.stmtConn = none

theorem wp_cleanup (hσ : Owns (st.varsWith R K) g)
    (hK : ∀ conn, K conn → R.Tidy R.primaryHome conn) :
    st.cleanup.wp R.contract (fun st' g' =>
      st'.phase = .ended ∧ st'.Empty ∧ Owns (fun _ : Via => none) g') g := by
  rw [cleanup]
  simp only [Prog.wp_bind]
  refine wp_releaseTx hσ hK fun g₁ h₁ => ?_
  refine wp_releaseStmt (h₁ K) fun g₂ h₂ => ⟨rfl, ⟨rfl, rfl⟩, ?_⟩
  convert h₂ using 1
  funext via
  cases via <;> rfl

/-- Before the loop: a connection of the server's own pool goes back to the pool of the router. -/
theorem wp_start (hσ : Owns (st.varsWith R K) g)
    (hown : st.sessionInitSqls.isEmpty = false → R.home → cfg.ownPool = R.cur)
    {Q : PgSession → Hold srv → Prop}
    (hQ : ∀ g', Owns (st.varsWith R K) g' → Q { st with phase := .running } g') :
    (st.start cfg).wp R.contract Q g := by
  rw [start]
  dsimp only
  refine Prog.wp_ite (fun _ => hQ g hσ) fun hsome => ?_
  simp only [Prog.wp_bind]
  refine wp_getPrimary (v := .loan) hσ rfl (hown (by simpa using hsome)) (fun c g₁ h₁ => ?_)
    fun _ e => hQ g hσ
  simp only [Prog.wp_bind]
  refine wp_replay_loan h₁ fun g₂ h₂ => ?_
  refine wp_putPrimary (v := .loan) (a := ⟨c, R.Tidy R.primaryHome⟩) h₂ (lend_loan c _)
    (fun _ h => h) fun g₃ h₃ => hQ g₃ ?_
  rw [lend, update_none rfl] at h₃
  exact h₃

/-! ## The flag -/

/-- The error of an exchange says that the backend died. -/
def goneResult : Except Str Response → Bool
  | .ok _ => false
  | .error e => isGone e

/-- The flag after a status, if there is one. -/
def statusFlag (flag : Bool) (r : Except Str Response) : Bool := (readyStatus r).elim flag inTxStatus

/-- The flag after a simple query, `flag` being what it was while the query ran. -/
def queryFlag (flag : Bool) (sql : Str) (r : Except Str Response) : Bool :=
  if endsTx sql then false else statusFlag flag r

/-- A plain response lowers the flag, where it is tracked. -/
theorem statusFlag_plain {r : Except Str Response} (hstrict : P.strict) (h : PlainResult R r) :
    statusFlag false r = false := by
  unfold statusFlag readyStatus
  rcases r with e | response
  · rfl
  · rcases hs : extractReadyStatus response.bytes with _ | s
    · simp [hs]
    · simp only [hs, Option.elim_some]
      exact P.plain hstrict (h response rfl) hs

/-- Where the status is not tracked, every state is as good as any other. -/
theorem Routed.loose {flag gone : Bool} (hloose : ¬P.strict) (h : Routed P st flag gone g)
    (flag' gone' : Bool) : Routed P st flag' gone' g :=
  ⟨h.live, fun hs => absurd hs hloose, owns_mono h.owns fun conn hk =>
    ⟨fun _ => (P.loose hloose conn).1, fun _ _ => (P.loose hloose conn).2, hk.2.2⟩⟩

theorem wp_followStatus {gone : Bool} {status : Option UInt8}
    (h : Routed P st (status.elim st.inTransaction inTxStatus) gone g)
    {Q : PgSession → Hold srv → Prop}
    (hQ : ∀ st' g', st'.inTransaction = status.elim st.inTransaction inTxStatus →
      Routed P st' st'.inTransaction gone g' → Q st' g') :
    (st.followStatus status).wp R.contract Q g := by
  unfold followStatus
  rcases status with _ | s
  · exact hQ st g rfl h
  · rcases hs : inTxStatus s with _ | _
    · simp only [Option.elim_some, hs] at h hQ
      simp only [hs, Bool.false_eq_true, if_false]
      apply wp_releaseTx (K := TxKnown P false gone)
      · exact h.owns
      · intro conn hk
        exact hk.tidy
      · intro g₁ h₁
        exact hQ _ g₁ rfl ⟨h.live, fun _ hf => (by cases hf), h₁ _⟩
    · simp only [Option.elim_some, hs] at h hQ
      simp only [hs, if_true]
      exact hQ _ g rfl ⟨h.live, h.pinned, h.owns⟩

/-! ## Routing -/

theorem txKnown_entry {flag : Bool} {conn : Conn srv}
    (h : entry R (st.varsWith R (TxKnown P flag false)) .txConn conn) :
    R.home → conn.lender = R.primaryHome := by
  rcases hc : st.txConn with _ | c <;>
    simp only [entry, varsWith, hc, Option.map_none, Option.map_some] at h
  · exact h.2
  · exact h.2.2

theorem txKnown_entryAfter {flag : Bool} {conn : Conn srv} {sqls : List Str}
    (h : entryAfter R (st.varsWith R (TxKnown P flag false)) sqls conn) :
    R.home → conn.lender = R.primaryHome := by
  rcases hc : st.txConn with _ | c <;>
    simp only [entryAfter, varsWith, hc, Option.map_none, Option.map_some] at h
  · exact h.2
  · exact h.2.2

/-- What a command through `tx_conn` owes to the responses: the flag it will leave is true of the
connection. -/
def Follows (P : PgPins R) (flag gone : Except Str Response → Bool) : Prop :=
  ∀ p conn r conn', R.after .txConn p conn r conn' →
    (flag (r.mapError TalkError.text) = false → R.clean conn') ∧
    (flag (r.mapError TalkError.text) = true → gone (r.mapError TalkError.text) = false →
      P.busy conn')

theorem owns_exchanged {flag gone : Except Str Response → Bool} (hfollow : Follows P flag gone)
    {c : ConnId} {p : Packet} {r : Except Str Response} {σ : Vars srv}
    (h : Owns (Function.update σ .txConn (some ⟨c, Exchanged R .txConn p K r⟩)) g)
    (hK : ∀ conn, K conn → R.home → conn.lender = R.primaryHome) :
    Owns (Function.update σ .txConn (some ⟨c, TxKnown P (flag r) (gone r)⟩)) g := by
  refine h.weaken ?_
  rintro conn' ⟨conn, r₀, hknown, rfl, hafter⟩
  obtain ⟨hclean, hbusy⟩ := hfollow _ _ _ _ hafter
  refine ⟨hclean, hbusy, fun hhome => ?_⟩
  rw [R.after_lender hafter]
  exact hK conn hknown hhome

/-- A simple query is routed: `tx_conn` will be as the flag says, whichever way it went. The flag may
have been raised just before (`was` is what it said between the commands). -/
theorem wp_query_route (flag gone : Except Str Response → Bool) {was : Bool} (hlive : st.phase ≠ .ended)
    (hσ : Owns (st.varsWith R (TxKnown P was false)) g)
    (hwas : st.inTransaction = false → was = false)
    (hsure : P.strict → st.inTransaction = true → st.txConn = none → R.sure)
    (hfollow : st.inTransaction = true → Follows P flag gone)
    (hplain : st.inTransaction = false → P.strict → ∀ r, PlainResult R r → flag r = false)
    {sql : Bytes} {rt : Route} {Q : Option ConnId × Except Str Response → Hold srv → Prop}
    (hQ : ∀ x r g', Routed P { st with txConn := x } (flag r) (gone r) g' → Q (x, r) g') :
    (routeQueryInner sql st.txConn st.inTransaction rt).wp R.contract Q g := by
  have hkeys : (st.varsWith R (TxKnown P was false) .txConn).map Claim.key = st.txConn := keys_tx
  have hloose : ∀ {r g'}, ¬P.strict → Owns (st.varsWith R (TxKnown P was false)) g' →
      Q (st.txConn, r) g' := fun {r g'} hs h' =>
    hQ _ r g' ⟨hlive, fun hs' => absurd hs' hs, owns_mono h' fun conn hk =>
      ⟨fun _ => (P.loose hs conn).1, fun _ _ => (P.loose hs conn).2, hk.2.2⟩⟩
  rw [← hkeys]
  refine wp_routeQueryInner hσ rfl ?_ (fun hin c r g' h' => ?_) (fun hin hnone hnot e => ?_)
    fun hin r g' h' hr => ?_
  · split
    · exact others_tx
    · rename_i hflag
      exact others_any (fun conn hk => hk.1 (hwas (by simpa using hflag))) _
  · refine hQ _ r g' ⟨hlive, fun _ _ _ => rfl, ?_⟩
    rw [← varsWith_update_tx (some c)]
    exact owns_exchanged (hfollow hin) h' fun conn hk => txKnown_entryAfter hk
  · -- the flag is up without a connection: only where it is not tracked
    rw [hnone, Option.map_none] at hkeys
    have hstay := hloose (r := .error e) (fun hs => hnot (hsure hs hin hkeys.symm)) hσ
    rwa [← hkeys] at hstay
  · rw [hkeys]
    by_cases hs : P.strict
    · refine hQ _ r g' ?_
      rw [hplain hin hs r hr]
      refine ⟨hlive, fun _ hf => (by cases hf), owns_mono h' fun conn hk => ?_⟩
      exact ⟨fun _ => hk.1 (hwas hin), fun hf => (by cases hf), hk.2.2⟩
    · exact hloose hs h'

/-! ## Simple queries -/

theorem wp_metaQuery (h : Inv P st g) {sql : Bytes}
    (hfollow : st.inTransaction = true → Follows P (fun _ => st.inTransaction) fun _ => false) :
    (st.metaQuery sql).wp R.contract (Inv P) g := by
  rw [metaQuery]
  simp only [Prog.wp_bind]
  refine wp_query_route (fun _ => st.inTransaction) (fun _ => false) h.live h.owns (fun hf => hf)
    (fun hs hf hnone => ?_) hfollow (fun hf _ _ _ => hf) fun x r g₁ h₁ => ?_
  · have hsome := h.pinned hs hf rfl
    rw [hnone] at hsome
    cases hsome
  · refine wp_quiet rfl fun _ => wp_quiet rfl fun _ => ?_
    exact h₁

theorem wp_afterResponse (h : Inv P st g) {sql : Str} {response : Response} :
    (st.afterResponse cfg sql response).wp R.contract (Inv P) g := by
  have hsend : ∀ st', Inv P st' g →
      (st'.forward response).wp R.contract (Inv P) g := by
    intro st' h'
    rw [forward, Prog.wp_bind]
    exact wp_quiet rfl fun sent => Prog.wp_ite (fun _ => wp_flush h') fun _ => h'.close
  rw [afterResponse]
  refine Prog.wp_ite (fun _ => ?_) fun _ => hsend st h
  simp only [Prog.wp_bind]
  refine wp_quiet rfl fun now => ?_
  exact hsend { st with ryowUntil := some (now + cfg.readYourOwnWritesMs) } ⟨h.live, h.pinned, h.owns⟩

theorem wp_afterError {e : Str} (h : Routed P st st.inTransaction (isGone e) g) :
    (st.afterError e).wp R.contract (Inv P) g := by
  rw [afterError]
  rcases hgone : isGone e && st.inTransaction with _ | _
  · have hinv : Inv P st g := by
      refine ⟨h.live, fun hs hf _ => h.pinned hs hf ?_, owns_mono h.owns fun conn hk =>
        ⟨hk.1, fun hf _ => hk.2.1 hf ?_, hk.2.2⟩⟩
      · simpa [hf] using hgone
      · simpa [hf] using hgone
    simp only [Bool.false_eq_true, if_false, Prog.wp_bind]
    exact wp_quiet rfl fun _ => wp_flush hinv
  · simp only [if_true, Prog.wp_bind]
    apply wp_dropTx (K := TxKnown P st.inTransaction (isGone e))
    · exact h.owns
    · intro g₁ h₁
      refine wp_quiet rfl fun _ => ?_
      apply wp_flush
      exact ⟨h.live, fun _ hf => (by cases hf), h₁ _⟩

/-- What a simple query asks of the responses, while the flag is `flag`. -/
def QueryFollows (P : PgPins R) (flag : Bool) (sql : Str) : Prop :=
  Follows P (queryFlag flag sql) fun r => !endsTx sql && goneResult r

theorem wp_ryowActive {Q : Bool → Hold srv → Prop} (hQ : ∀ b, Q b g) :
    (st.ryowActive cfg).wp R.contract Q g := by
  rw [ryowActive]
  split
  · simp only [Prog.wp_bind]
    exact wp_quiet rfl fun now => hQ _
  · exact hQ false

theorem wp_outcome {sql : Str} {r : Except Str Response}
    (h : Routed P st st.inTransaction (goneResult r) g) :
    (st.outcome cfg sql r).wp R.contract (Inv P) g := by
  rcases r with e | response
  · exact wp_afterError h
  · exact wp_afterResponse h

/-- The last steps of a simple query. -/
theorem wp_query_rest {sql : Str} {r : Except Str Response}
    (h : Routed P st (queryFlag st.inTransaction sql r) (!endsTx sql && goneResult r) g) :
    (st.settle cfg sql r).wp R.contract (Inv P) g := by
  rw [settle]
  refine Prog.wp_ite (fun hends => ?_) fun hends => ?_
  · simp only [queryFlag, hends, if_true] at h
    rw [Prog.wp_bind]
    apply wp_releaseTx (K := TxKnown P false (!true && goneResult r))
    · exact h.owns
    · intro conn hk
      exact hk.tidy
    · intro g₁ h₁
      apply wp_outcome
      exact ⟨h.live, fun _ hf => (by cases hf), h₁ _⟩
  · simp only [queryFlag, hends, Bool.false_eq_true, if_false, Bool.not_false, Bool.true_and] at h
    rw [Prog.wp_bind]
    exact wp_followStatus h fun st' g' _ h' => wp_outcome h'

theorem wp_plainQuery (h : Inv P st g) {sql : Str} {bytes : Bytes}
    (hsure : P.strict → st.inTransaction = false → startsTx sql = true → R.sure)
    (hfollow : (st.inTransaction || startsTx sql) = true →
      QueryFollows P (st.inTransaction || startsTx sql) sql) :
    (st.plainQuery cfg sql bytes).wp R.contract (Inv P) g := by
  rw [plainQuery, raise_startsTx, Prog.wp_bind]
  refine wp_ryowActive fun ryow => ?_
  rw [Prog.wp_bind]
  apply wp_query_route (P := P) (queryFlag (st.inTransaction || startsTx sql) sql)
    (fun r => !endsTx sql && goneResult r)
  · exact h.live
  · exact h.owns
  · intro hf
    exact (Bool.or_eq_false_iff.mp hf).1
  · intro hs hf hnone
    rcases hflag : st.inTransaction with _ | _
    · simp only [hflag, Bool.false_or] at hf
      exact hsure hs hflag hf
    · have hsome := h.pinned hs hflag rfl
      rw [show st.txConn = none from hnone] at hsome
      cases hsome
  · exact hfollow
  · intro hf hs r hr
    simp only [queryFlag, show (st.inTransaction || startsTx sql) = false from hf]
    split
    · rfl
    · exact statusFlag_plain hs hr
  · intro x r g₁ h₁
    exact wp_query_rest h₁

/-- What the session owes when a simple query arrives. -/
def QueryAgrees (P : PgPins R) (st : PgSession) (bytes : Bytes) : Prop :=
  let sql := Str.trim (textOf bytes)
  match (if Str.startsWith sql "\\" then translateMetaCommand sql else none) with
  | some _ => st.inTransaction = true → Follows P (fun _ => st.inTransaction) fun _ => false
  | none =>
    (P.strict → st.inTransaction = false → startsTx sql = true → R.sure) ∧
      ((st.inTransaction || startsTx sql) = true →
        QueryFollows P (st.inTransaction || startsTx sql) sql)

theorem wp_query (h : Inv P st g) {bytes : Bytes} (hagree : QueryAgrees P st bytes) :
    (st.query cfg bytes).wp R.contract (Inv P) g := by
  rw [query]
  unfold QueryAgrees at hagree
  dsimp only at hagree ⊢
  split
  · rename_i translated hmeta
    rw [hmeta] at hagree
    exact wp_metaQuery h hagree
  · rename_i hmeta
    rw [hmeta] at hagree
    rcases st.refusal cfg (Str.trim (textOf bytes)) with _ | msg
    · exact wp_plainQuery h hagree.1 hagree.2
    · exact wp_refuse h

/-! ## Pipelines and the rest -/

/-- The last steps of a pipeline. -/
theorem wp_stmt_rest {r : Except Str Response}
    (h : Routed P st (statusFlag st.inTransaction r) false g) :
    (st.settleStmt r).wp R.contract (Inv P) g := by
  rw [settleStmt, Prog.wp_bind]
  refine wp_followStatus h fun st₁ g₁ _ h₁ => ?_
  have hgo : ∀ sent : Bool, (st₁.flushStmt sent).wp R.contract (Inv P) g₁ := by
    intro sent
    refine Prog.wp_ite (fun _ => ?_) fun _ => h₁.close
    simp only [Prog.wp_bind]
    refine wp_quiet rfl fun flushed => Prog.wp_ite (fun _ => ?_) fun _ => h₁.close
    refine Prog.wp_ite (fun _ => ?_) fun _ => h₁
    exact wp_releaseStmt h₁.owns fun g₂ h₂ => ⟨h₁.live, h₁.pinned, h₂⟩
  rcases r with e | response
  · simp only [Prog.wp_bind]
    exact wp_quiet rfl fun _ => hgo true
  · exact wp_quiet rfl hgo

theorem wp_stmt (h : Inv P st g) {raw : Bytes}
    (hfollow : st.inTransaction = true → Follows P (statusFlag st.inTransaction) fun _ => false) :
    (st.stmt raw).wp R.contract (Inv P) g := by
  have hkeys : (st.varsWith R (TxKnown P st.inTransaction false) .txConn).map Claim.key =
      st.txConn := keys_tx
  have hkeys' : (st.varsWith R (TxKnown P st.inTransaction false) .stmtConn).map Claim.key =
      st.stmtConn := keys_stmt
  rw [stmt]
  dsimp only
  rw [Prog.wp_bind, ← hkeys, ← hkeys']
  refine wp_routeStmtPgShadowInner h.owns rfl ?_ (fun conn hk => ?_) (fun hin c r g₁ h₁ => ?_)
    (fun hin c r g₁ h₁ hr => ?_) fun hnone e => ?_
  · rw [activeVia]
    split
    · exact others_tx
    · rename_i hflag
      exact others_any (fun conn hk => hk.1 (by simpa using hflag)) _
  · rcases hc : st.stmtConn with _ | c <;>
      simp only [entry, varsWith, hc, Option.map_none, Option.map_some] at hk
    · exact hk.2
    · exact hk.2
  · rw [hkeys']
    have h₂ := owns_exchanged (hfollow hin) h₁ fun conn hk => txKnown_entry hk
    apply wp_stmt_rest
    refine ⟨h.live, fun _ _ _ => rfl, ?_⟩
    rw [← Option.map_some (f := fun c => (⟨c, TxKnown P (statusFlag st.inTransaction r) false⟩ :
      Claim ConnId (Conn srv))), varsWith_update_tx] at h₂
    exact h₂
  · rw [hkeys]
    have h₂ : Owns (varsWith R { st with stmtConn := some c } (TxKnown P st.inTransaction false))
        g₁ := by
      rw [← varsWith_update_stmt (some c)]
      exact h₁
    apply wp_stmt_rest
    by_cases hs : P.strict
    · have hflag : statusFlag st.inTransaction r = false := by
        rw [hin]
        exact statusFlag_plain hs hr
      refine ⟨h.live, fun _ hf => ?_, owns_mono h₂ fun conn hk => ?_⟩
      · rw [hflag] at hf
        cases hf
      · rw [hin] at hk
        rw [hflag]
        exact hk
    · have hr' : Routed P { st with stmtConn := some c } st.inTransaction false g₁ :=
        ⟨h.live, h.pinned, h₂⟩
      have hany := hr'.loose hs (statusFlag st.inTransaction r) false
      exact ⟨hany.live, hany.pinned, hany.owns⟩
  · rw [hkeys, hkeys']
    apply wp_stmt_rest (r := .error e)
    exact ⟨h.live, h.pinned, h.owns⟩

/-- A pass-through command takes a connection of the server's own pool. -/
theorem wp_other (h : Inv P st g) {raw : Bytes} (hown : R.home → cfg.ownPool = R.cur)
    (hflag : P.strict → st.inTransaction = false) :
    (st.other cfg raw).wp R.contract (Inv P) g := by
  have hclean : ∀ conn, TxKnown P st.inTransaction false conn → R.clean conn := by
    intro conn hk
    by_cases hs : P.strict
    · exact hk.1 (hflag hs)
    · exact (P.loose hs conn).1
  rw [other]
  simp only [Prog.wp_bind]
  refine wp_getPrimary (v := .loan) h.owns rfl hown (fun c g₁ h₁ => ?_) fun _ e => ?_
  · simp only [Prog.wp_bind]
    refine wp_sendRaw_loan h₁ (fun _ => others_any hclean _) fun r g₂ h₂ hr => ?_
    rcases r with e | response
    · simp only [flush, Prog.wp_bind]
      refine wp_quiet rfl fun _ => wp_quiet rfl fun sent => ?_
      refine wp_drop_loan h₂ rfl fun g₃ h₃ => ?_
      have h' : Inv P st g₃ := ⟨h.live, h.pinned, h₃⟩
      cases sent
      · exact h'.close
      · exact h'
    · -- the flag follows the status of a connection that is on its way back to the pool
      have hst : ∀ g', Owns (st.varsWith R (TxKnown P st.inTransaction false)) g' →
          Inv P (st.noteStatus response) g' := by
        intro g' h'
        unfold noteStatus
        rcases hstatus : extractReadyStatus response.bytes with _ | status
        · exact ⟨h.live, h.pinned, h'⟩
        · have hr' : Routed P st st.inTransaction false g' := ⟨h.live, h.pinned, h'⟩
          by_cases hs : P.strict
          · have hdown := P.plain hs (hr response rfl) hstatus
            rw [hflag hs] at hr'
            simp only [hdown]
            exact ⟨hr'.live, hr'.pinned, hr'.owns⟩
          · have hany := hr'.loose hs (inTxStatus status) false
            exact ⟨hany.live, hany.pinned, hany.owns⟩
      simp only [Prog.wp_bind]
      refine wp_putPrimary (v := .loan) (a := ⟨c, R.Tidy R.primaryHome⟩) h₂ (lend_loan c _)
        (fun _ h => h) fun g₃ h₃ => ?_
      rw [lend, update_none rfl] at h₃
      have h' := hst g₃ h₃
      exact wp_quiet rfl fun sent => Prog.wp_ite (fun _ => wp_flush h') fun _ => h'.close
  · simp only [Prog.wp_bind]
    exact Prog.wp_mono (wp_refuse h) fun st' g' h' => h'.close

/-! ## A turn of the loop -/

/-- What a turn of the loop owes to what the backends report. -/
def Agrees (P : PgPins R) (cfg : PgConfig) (st : PgSession) : PgEvent → Prop
  | .start => st.sessionInitSqls.isEmpty = false → R.home → cfg.ownPool = R.cur
  | .quit => True
  | .query bytes => QueryAgrees P st bytes
  | .stmt _ => st.inTransaction = true → Follows P (statusFlag st.inTransaction) fun _ => false
  | .other _ => (R.home → cfg.ownPool = R.cur) ∧ (P.strict → st.inTransaction = false)
  | .cleanup => False

/-- The invariant of a session between two commands. -/
structure Idle (P : PgPins R) (g : Hold srv) (st : PgSession) : Prop where
  /-- a transaction has its connection -/
  pinned : P.strict → st.phase ≠ .ended → st.inTransaction = true → st.txConn.isSome = true
  /-- the variables hold the session's connections -/
  owns : Owns (st.varsWith R (TxKnown P st.inTransaction false)) g
  /-- a session that has ended has none -/
  ended : st.phase = .ended → st.Empty

theorem Inv.idle (h : Inv P st g) : Idle P g st :=
  ⟨fun hs _ hf => h.pinned hs hf rfl, h.owns, fun hend => absurd hend h.live⟩

theorem Idle.inv (h : Idle P g st) (hlive : st.phase ≠ .ended) : Inv P st g :=
  ⟨hlive, fun hs hf _ => h.pinned hs hlive hf, h.owns⟩

/-- **A session keeps its contract**: every command starts a program that meets the contract and
leaves the session's connections in its variables, its flag as the backends report. -/
theorem wp_react {e : PgEvent} {p : Task PgSession} (h : Idle P g st)
    (hreact : st.react cfg e = some p) (hagree : Agrees P cfg st e) :
    p.wp R.contract (fun st' g' => Idle P g' st') g := by
  have hrun : st.phase = .running → Inv P st g := fun hphase => h.inv (by rw [hphase]; decide)
  obtain ⟨hphase, rfl⟩ := react_eq_some hreact
  cases e with
  | start =>
    refine wp_start h.owns hagree fun g' h' => Inv.idle ?_
    exact ⟨by simp, fun hs hf _ => h.pinned hs (by rw [hphase]; decide) hf, h'⟩
  | cleanup => exact hagree.elim
  | quit =>
    exact (hrun hphase).close.idle
  | query bytes =>
    exact Prog.wp_mono (wp_query (hrun hphase) hagree) fun _ _ h => h.idle
  | stmt raw =>
    exact Prog.wp_mono (wp_stmt (hrun hphase) hagree) fun _ _ h => h.idle
  | other raw =>
    exact Prog.wp_mono (wp_other (hrun hphase) hagree.1 hagree.2) fun _ _ h => h.idle

/-- The clean-up may be held to other rules `R'`, if every connection of the session may be returned
under them. -/
theorem wp_react_cleanup (R' : Rules srv) {p : Task PgSession} (h : Idle P g st)
    (hreact : st.react cfg .cleanup = some p)
    (htx : ∀ conn, TxKnown P st.inTransaction false conn → R'.Tidy R'.primaryHome conn)
    (hstmt : ∀ conn, R.Tidy R.primaryHome conn → R'.Tidy R'.primaryHome conn) :
    p.wp R'.contract (fun st' g' => Idle P g' st') g := by
  have hσ : Owns (st.varsWith R' (R'.Tidy R'.primaryHome)) g := by
    refine h.owns.mono (fun v hv => ?_) fun v a hv => ?_
    · cases v <;> simp_all [varsWith]
    · cases v with
      | txConn =>
        simp only [varsWith, Option.map_eq_some_iff] at hv ⊢
        obtain ⟨c, hc, rfl⟩ := hv
        exact ⟨_, ⟨c, hc, rfl⟩, htx⟩
      | stmtConn =>
        simp only [varsWith, Option.map_eq_some_iff] at hv ⊢
        obtain ⟨c, hc, rfl⟩ := hv
        exact ⟨_, ⟨c, hc, rfl⟩, hstmt⟩
      | stickyConn => cases hv
      | loan => cases hv
  obtain ⟨-, rfl⟩ := react_eq_some hreact
  refine Prog.wp_mono (wp_cleanup hσ fun _ h => h) ?_
  rintro st' g' ⟨hphase, hempty, hnone⟩
  refine ⟨fun _ hlive => absurd hphase hlive, ?_, fun _ => hempty⟩
  convert hnone using 1
  funext via
  cases via <;> simp [varsWith, hempty.1, hempty.2]

end PgSession

end TurbineProxy
