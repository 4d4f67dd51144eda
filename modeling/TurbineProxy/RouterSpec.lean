import TurbineProxy.Ownership

/-!
# The router meets its contract

One specification for every function of `Router.lean`, in the same order. A route that borrows a
connection for itself (`Via.loan`) leaves the session's variables as they were. A route through a
variable of the session says what is known of its connection afterwards (`Exchanged`).
-/

namespace TurbineProxy

variable {srv : Server} {R : Rules srv} {g : Hold srv} {σ : Vars srv} {pool : PoolRef}

/-! ## Exchanges -/

/-- What is known after an exchange of which `known` was known before and `r` is the outcome. -/
def Exchanged (R : Rules srv) (via : Via) (p : Packet) (known : Conn srv → Prop)
    (r : Except Str Response) (conn' : Conn srv) : Prop :=
  ∃ conn r₀, known conn ∧ r = r₀.mapError TalkError.text ∧ R.after via p conn r₀ conn'

theorem Exchanged.tidy {via : Via} {p : Packet} {known : Conn srv → Prop} {r : Except Str Response}
    {conn' : Conn srv} {o : Origin} (h : Exchanged R via p known r conn') (hvia : via ≠ .txConn)
    (hhome : ∀ conn, known conn → R.home → conn.lender = o) : R.Tidy o conn' := by
  obtain ⟨conn, r₀, hknown, -, hafter⟩ := h
  refine ⟨R.after_clean hafter hvia, fun hh => ?_⟩
  rw [R.after_lender hafter]
  exact hhome conn hknown hh

/-- A response, if there is one, is plain. -/
def PlainResult (R : Rules srv) (r : Except Str Response) : Prop := ∀ resp, r = .ok resp → R.plain resp

theorem plainResult_error (e : Str) : PlainResult R (.error e) := by
  intro resp h
  cases h

theorem Exchanged.plain {via : Via} {p : Packet} {known : Conn srv → Prop} {r : Except Str Response}
    {conn' : Conn srv} (h : Exchanged R via p known r conn') (hvia : via ≠ .txConn) :
    PlainResult R r := by
  obtain ⟨conn, r₀, -, rfl, hafter⟩ := h
  intro resp hresp
  rcases r₀ with e | resp₀
  · cases hresp
  · obtain rfl := Except.ok.inj hresp
    exact R.after_plain hafter hvia

theorem wp_executeQuery {via : Via} {a : Claim ConnId (Conn srv)} (hσ : Owns σ g)
    (hv : σ via = some a) {who : Purpose} (hothers : who = .client → Others R σ via) {sql : Bytes}
    {Q : Except Str Response → Hold srv → Prop}
    (hQ : ∀ r g', Owns (Function.update σ via
      (some ⟨a.key, Exchanged R via (.text sql) a.known r⟩)) g' → Q r g') :
    (executeQuery who via a.key sql).wp R.contract Q g := by
  rw [executeQuery]
  simp only [Prog.wp_bind]
  refine wp_talk hσ hv hothers fun r g' h => hQ _ g' (h.weaken ?_)
  rintro conn' ⟨conn, hknown, hafter⟩
  exact ⟨conn, r, hknown, rfl, hafter⟩

theorem wp_sendRaw {via : Via} {a : Claim ConnId (Conn srv)} (hσ : Owns σ g)
    (hv : σ via = some a) {who : Purpose} (hothers : who = .client → Others R σ via) {packet : Bytes}
    {Q : Except Str Response → Hold srv → Prop}
    (hQ : ∀ r g', Owns (Function.update σ via
      (some ⟨a.key, Exchanged R via (.raw packet) a.known r⟩)) g' → Q r g') :
    (sendRaw who via a.key packet).wp R.contract Q g := by
  rw [sendRaw]
  simp only [Prog.wp_bind]
  refine wp_talk hσ hv hothers fun r g' h => hQ _ g' (h.weaken ?_)
  rintro conn' ⟨conn, hknown, hafter⟩
  exact ⟨conn, r, hknown, rfl, hafter⟩

theorem wp_sendRawNoResponse {via : Via} {a : Claim ConnId (Conn srv)} (hσ : Owns σ g)
    (hv : σ via = some a) (hothers : Others R σ via) {packet : Bytes}
    {Q : Except Str Response → Hold srv → Prop}
    (hQ : ∀ r g', Owns (Function.update σ via
      (some ⟨a.key, Exchanged R via (.silent packet) a.known r⟩)) g' → Q r g') :
    (sendRawNoResponse via a.key packet).wp R.contract Q g := by
  rw [sendRawNoResponse]
  simp only [Prog.wp_bind]
  refine wp_talk hσ hv (fun _ => hothers) fun r g' h => hQ _ g' (h.weaken ?_)
  rintro conn' ⟨conn, hknown, hafter⟩
  exact ⟨conn, r, hknown, rfl, hafter⟩

/-! ## Connections on loan -/

/-- The variables, with connection `c` of pool `o` on loan. -/
def lend (R : Rules srv) (σ : Vars srv) (c : ConnId) (o : Origin) : Vars srv :=
  Function.update σ .loan (some ⟨c, R.Tidy o⟩)

theorem lend_loan (c : ConnId) (o : Origin) : lend R σ c o .loan = some ⟨c, R.Tidy o⟩ :=
  Function.update_self ..

theorem Others.lend {c : ConnId} {o : Origin} (h : Others R σ .loan) :
    Others R (lend R σ c o) .loan := by
  intro w b hw hb
  rw [TurbineProxy.lend, Function.update_of_ne hw] at hb
  exact h w b hw hb

/-- An exchange on a connection on loan leaves it on loan, clean, and gives a plain response. -/
theorem owns_lend_exchanged {c : ConnId} {o : Origin} {p : Packet} {r : Except Str Response}
    (h : Owns (Function.update (lend R σ c o) .loan
      (some ⟨c, Exchanged R .loan p (R.Tidy o) r⟩)) g) :
    Owns (lend R σ c o) g ∧ PlainResult R r := by
  have hplain : PlainResult R r := by
    obtain ⟨conn, -, hex⟩ := h.held .loan _ (Function.update_self ..)
    exact hex.plain (by simp)
  have hweak : Owns (Function.update (lend R σ c o) .loan (some ⟨c, R.Tidy o⟩)) g :=
    h.weaken fun conn hex => hex.tidy (by simp) fun conn₀ htidy => htidy.2
  rw [lend, Function.update_idem] at hweak
  exact ⟨hweak, hplain⟩

theorem wp_execute {c : ConnId} {o : Origin} (hσ : Owns (lend R σ c o) g)
    (hothers : Others R σ .loan) {sql : Bytes} {timeoutMs : Nat}
    {Q : Except Str Response → Hold srv → Prop}
    (hQ : ∀ r g', Owns (lend R σ c o) g' → PlainResult R r → Q r g') :
    (execute c sql timeoutMs).wp R.contract Q g := by
  rw [execute]
  refine Prog.wp_ite (fun _ => ?_) fun _ => ?_
  · rw [executeTimed]
    simp only [Prog.wp_bind]
    refine wp_talk (a := ⟨c, R.Tidy o⟩) hσ (lend_loan c o) (fun _ => hothers.lend) fun r g' h => ?_
    have hex : Owns (Function.update (lend R σ c o) .loan (some ⟨c,
        Exchanged R .loan (.text sql) (R.Tidy o) (r.mapError TalkError.text)⟩)) g' :=
      h.weaken fun conn' hc => by
        obtain ⟨conn, hknown, hafter⟩ := hc
        exact ⟨conn, r, hknown, rfl, hafter⟩
    obtain ⟨hlend, hplain⟩ := owns_lend_exchanged hex
    rcases r with e | resp
    · rcases e with e | _
      · exact hQ _ g' hlend (plainResult_error _)
      · simp only [Prog.wp_bind]
        exact wp_quiet rfl fun _ => hQ _ g' hlend (plainResult_error _)
    · exact hQ _ g' hlend hplain
  · refine wp_executeQuery (a := ⟨c, R.Tidy o⟩) hσ (lend_loan c o) (fun _ => hothers.lend)
      fun r g' h => ?_
    obtain ⟨hlend, hplain⟩ := owns_lend_exchanged h
    exact hQ r g' hlend hplain

/-- An untimed exchange on a connection on loan. -/
theorem wp_executeQuery_loan {c : ConnId} {o : Origin} (hσ : Owns (lend R σ c o) g) {who : Purpose}
    (hothers : who = .client → Others R σ .loan) {sql : Bytes}
    {Q : Except Str Response → Hold srv → Prop}
    (hQ : ∀ r g', Owns (lend R σ c o) g' → PlainResult R r → Q r g') :
    (executeQuery who .loan c sql).wp R.contract Q g := by
  refine wp_executeQuery (a := ⟨c, R.Tidy o⟩) hσ (lend_loan c o) (fun hw => (hothers hw).lend)
    fun r g' h => ?_
  obtain ⟨hlend, hplain⟩ := owns_lend_exchanged h
  exact hQ r g' hlend hplain

theorem wp_sendRaw_loan {c : ConnId} {o : Origin} (hσ : Owns (lend R σ c o) g) {who : Purpose}
    (hothers : who = .client → Others R σ .loan) {packet : Bytes}
    {Q : Except Str Response → Hold srv → Prop}
    (hQ : ∀ r g', Owns (lend R σ c o) g' → PlainResult R r → Q r g') :
    (sendRaw who .loan c packet).wp R.contract Q g := by
  refine wp_sendRaw (a := ⟨c, R.Tidy o⟩) hσ (lend_loan c o) (fun hw => (hothers hw).lend)
    fun r g' h => ?_
  obtain ⟨hlend, hplain⟩ := owns_lend_exchanged h
  exact hQ r g' hlend hplain

theorem wp_replay_loan {c : ConnId} {o : Origin} {sqls : List Str} (hσ : Owns (lend R σ c o) g)
    {Q : Unit → Hold srv → Prop} (hQ : ∀ g', Owns (lend R σ c o) g' → Q () g') :
    (replaySessionVars .loan c sqls).wp R.contract Q g := by
  induction sqls generalizing g with
  | nil => exact hQ g hσ
  | cons sql rest ih =>
    rw [replaySessionVars]
    simp only [Prog.wp_bind]
    exact wp_executeQuery_loan hσ (fun h => by cases h) fun r g' h _ => ih h

/-- Dropping the connection on loan. -/
theorem wp_drop_loan {c : ConnId} {o : Origin} (hσ : Owns (lend R σ c o) g) (hfree : σ .loan = none)
    {exit : Exit} {Q : Unit → Hold srv → Prop} (hQ : ∀ g', Owns σ g' → Q () g') :
    (act (.drop exit c)).wp R.contract Q g := by
  refine wp_drop (a := ⟨c, R.Tidy o⟩) hσ (lend_loan c o) fun g' h => hQ g' ?_
  rw [lend, update_none hfree] at h
  exact h

/-- Returning the connection on loan. -/
theorem wp_giveBack_loan {c : ConnId} {idx : Option Nat} (hσ : Owns (lend R σ c (R.idxHome idx)) g)
    (hfree : σ .loan = none) (hpool : R.home → pool = R.cur) {db : Option Str}
    {Q : Unit → Hold srv → Prop} (hQ : ∀ g', Owns σ g' → Q () g') :
    (pool.giveBack c idx db).wp R.contract Q g := by
  refine wp_giveBack (a := ⟨c, R.Tidy (R.idxHome idx)⟩) hσ (lend_loan c _) hpool
    (fun conn h => h) fun g' h => hQ g' ?_
  rw [lend, update_none hfree] at h
  exact h

/-- Returning a connection on loan from the primary. -/
theorem wp_putPrimary_loan {c : ConnId} (hσ : Owns (lend R σ c R.primaryHome) g)
    (hfree : σ .loan = none) (hpool : R.home → pool = R.cur) {db : Option Str}
    {Q : Unit → Hold srv → Prop} (hQ : ∀ g', Owns σ g' → Q () g') :
    (pool.putPrimaryForDatabase c db).wp R.contract Q g := by
  refine wp_putPrimaryForDatabase (a := ⟨c, R.Tidy R.primaryHome⟩) hσ (lend_loan c _) hpool
    (fun conn h => h) fun g' h => hQ g' ?_
  rw [lend, update_none hfree] at h
  exact h

/-! ## `route_query_inner` outside transactions -/

section Autocommit

variable (hσ : Owns σ g) (hfree : σ .loan = none) (hothers : Others R σ .loan)
  (hpool : R.home → pool = R.cur) {rt : Route} {Q : Except Str Response → Hold srv → Prop}
  (hQ : ∀ r g', Owns σ g' → PlainResult R r → Q r g')

include hσ hfree hothers hpool hQ

theorem wp_routeHostgroup {hg ttl timeoutMs : Nat} {sql : Str} {bytes : Bytes} :
    (routeHostgroup pool hg ttl sql bytes timeoutMs rt).wp R.contract Q g := by
  have hmiss : (askHostgroup pool hg ttl sql bytes timeoutMs rt none).wp R.contract Q g := by
    rw [askHostgroup]
    simp only [Prog.wp_bind]
    refine wp_getHostgroup hσ hfree hpool (fun c idx g₁ h₁ => ?_) fun e =>
      hQ _ g hσ (plainResult_error e)
    rw [runOnHostgroup]
    simp only [Prog.wp_bind]
    refine wp_execute h₁ hothers fun r g₂ h₂ hplain => ?_
    rcases r with e | response
    · simp only [Prog.wp_bind]
      exact wp_drop_loan h₂ hfree fun g₃ h₃ => hQ _ g₃ h₃ (plainResult_error e)
    · simp only [Prog.wp_bind]
      refine wp_giveBack_loan h₂ hfree hpool fun g₃ h₃ => ?_
      refine Prog.wp_ite (fun _ => wp_quiet rfl fun _ => hQ _ g₃ h₃ hplain) fun _ => ?_
      exact Prog.wp_ite (fun _ => wp_quiet rfl fun _ => hQ _ g₃ h₃ hplain)
        fun _ => hQ _ g₃ h₃ hplain
  rw [routeHostgroup]
  dsimp only
  refine Prog.wp_ite (fun _ => ?_) fun _ => hmiss
  exact wp_cacheGet (fun b hb => hQ _ g hσ fun resp h => Except.ok.inj h ▸ hb) hmiss

omit hσ hfree hothers hpool hQ in
theorem wp_fireMirror (m : Option RuleMatch) (sql : Str) {response : Response}
    {Q : Except Str Response → Hold srv → Prop} (hQ : Q (.ok response) g) :
    ((do
      fireMirror m sql
      pure (.ok response)) : Task (Except Str Response)).wp R.contract Q g := by
  simp only [Prog.wp_bind]
  rw [fireMirror]
  rcases m.bind (·.mirrorTo) with _ | addr
  · exact hQ
  · exact wp_quiet rfl fun _ => hQ

omit hσ in
theorem wp_retryReplica {c : ConnId} {o : Origin} {idx : Option Nat} {bytes : Bytes} {e : Str}
    (h : Owns (lend R σ c o) g) : (retryReplica pool bytes rt c idx e).wp R.contract Q g := by
  rw [retryReplica]
  simp only [Prog.wp_bind]
  refine wp_recordReplica ?_
  refine Prog.wp_ite (fun _ => ?_) fun _ => ?_
  · simp only [Prog.wp_bind]
    refine wp_drop_loan h hfree fun g₁ h₁ => ?_
    refine wp_getReplica h₁ hfree hpool (fun c' idx' g₂ h₂ => ?_) fun e =>
      hQ _ g₁ h₁ (plainResult_error e)
    simp only [Prog.wp_bind]
    refine wp_replay_loan h₂ fun g₃ h₃ => ?_
    refine wp_executeQuery_loan h₃ (fun _ => hothers) fun r g₄ h₄ hplain => ?_
    rcases r with e | response
    · simp only [Prog.wp_bind]
      exact wp_drop_loan h₄ hfree fun g₅ h₅ => hQ _ g₅ h₅ (plainResult_error e)
    · simp only [Prog.wp_bind]
      refine wp_recordReplica ?_
      exact wp_giveBack_loan h₄ hfree hpool fun g₅ h₅ => hQ _ g₅ h₅ hplain
  · simp only [Prog.wp_bind]
    exact wp_drop_loan h hfree fun g₁ h₁ => hQ _ g₁ h₁ (plainResult_error e)

theorem wp_routeReplica {timeoutMs : Nat} {sql : Str} {bytes : Bytes} {cacheAllowed : Bool}
    {m : Option RuleMatch} :
    (routeReplica pool sql bytes timeoutMs cacheAllowed m rt).wp R.contract Q g := by
  rw [routeReplica]
  simp only [Prog.wp_bind]
  refine wp_getReplica hσ hfree hpool (fun c idx g₁ h₁ => ?_) fun e =>
    hQ _ g hσ (plainResult_error e)
  simp only [Prog.wp_bind]
  refine wp_replay_loan h₁ fun g₂ h₂ => ?_
  refine wp_execute h₂ hothers fun r g₃ h₃ hplain => ?_
  rcases r with e | response
  · exact wp_retryReplica hfree hothers hpool hQ h₃
  · simp only [Prog.wp_bind]
    refine wp_recordReplica ?_
    refine wp_giveBack_loan h₃ hfree hpool fun g₄ h₄ => ?_
    have hlast := wp_fireMirror (R := R) m sql (hQ _ g₄ h₄ hplain)
    exact Prog.wp_ite (fun _ => wp_quiet rfl fun _ => hlast) fun _ => hlast

theorem wp_retryPrimary {bytes : Bytes} : (retryPrimary pool bytes rt).wp R.contract Q g := by
  rw [retryPrimary]
  simp only [Prog.wp_bind]
  refine wp_getPrimary hσ hfree hpool (fun c g₁ h₁ => ?_) fun _ e => hQ _ g hσ (plainResult_error e)
  simp only [Prog.wp_bind]
  refine wp_replay_loan h₁ fun g₂ h₂ => ?_
  refine wp_executeQuery_loan h₂ (fun _ => hothers) fun r g₃ h₃ hplain => ?_
  rcases r with e | response
  · simp only [Prog.wp_bind]
    exact wp_drop_loan h₃ hfree fun g₄ h₄ => hQ _ g₄ h₄ (plainResult_error e)
  · simp only [Prog.wp_bind]
    refine wp_quiet rfl fun _ => ?_
    exact wp_putPrimary_loan h₃ hfree hpool fun g₄ h₄ => hQ _ g₄ h₄ hplain

theorem wp_routePrimary {timeoutMs : Nat} {sql : Str} {bytes : Bytes} {m : Option RuleMatch} :
    (routePrimary pool sql bytes timeoutMs m rt).wp R.contract Q g := by
  rw [routePrimary]
  simp only [Prog.wp_bind]
  refine wp_getPrimary hσ hfree hpool (fun c g₁ h₁ => ?_) fun _ e => hQ _ g hσ (plainResult_error e)
  simp only [Prog.wp_bind]
  refine wp_replay_loan h₁ fun g₂ h₂ => ?_
  refine wp_execute h₂ hothers fun r g₃ h₃ hplain => ?_
  rcases r with e | response
  · simp only [Prog.wp_bind]
    refine wp_quiet rfl fun _ => ?_
    refine Prog.wp_ite (fun _ => ?_) fun _ => ?_
    · simp only [Prog.wp_bind]
      exact wp_drop_loan h₃ hfree fun g₄ h₄ => wp_retryPrimary h₄ hfree hothers hpool hQ
    · simp only [Prog.wp_bind]
      exact wp_drop_loan h₃ hfree fun g₄ h₄ => hQ _ g₄ h₄ (plainResult_error e)
  · simp only [Prog.wp_bind]
    refine wp_quiet rfl fun _ => ?_
    refine wp_putPrimary_loan h₃ hfree hpool fun g₄ h₄ => ?_
    have hlast := wp_fireMirror (R := R) m sql (hQ _ g₄ h₄ hplain)
    exact Prog.wp_ite (fun _ => hlast) fun _ => wp_quiet rfl fun _ => hlast

theorem wp_routeSplit {timeoutMs : Nat} {sql : Str} {bytes : Bytes} {m : Option RuleMatch} :
    (routeSplit pool sql bytes timeoutMs m rt).wp R.contract Q g := by
  have hmiss : (if (splitChoice m rt.useReplica).1 then
      routeReplica pool sql bytes timeoutMs (splitChoice m rt.useReplica).2 m rt
      else routePrimary pool sql bytes timeoutMs m rt).wp R.contract Q g :=
    Prog.wp_ite (fun _ => wp_routeReplica hσ hfree hothers hpool hQ)
      fun _ => wp_routePrimary hσ hfree hothers hpool hQ
  rw [routeSplit]
  dsimp only
  refine Prog.wp_ite (fun _ => ?_) fun _ => hmiss
  exact wp_cacheGet (fun b hb => hQ _ g hσ fun resp h => Except.ok.inj h ▸ hb) hmiss

theorem wp_dispatch {timeoutMs : Nat} {sql : Str} {bytes : Bytes} :
    (dispatch pool sql bytes timeoutMs rt).wp R.contract Q g := by
  rw [dispatch]
  simp only [Prog.wp_bind]
  refine wp_quiet rfl fun m => ?_
  rcases m with _ | m
  · exact wp_routeSplit hσ hfree hothers hpool hQ
  · refine Prog.wp_ite (fun _ => hQ _ g hσ (plainResult_error _)) fun _ => ?_
    rcases m.destination with _ | _ | _ | hg
    · exact wp_routeSplit hσ hfree hothers hpool hQ
    · exact wp_routeSplit hσ hfree hothers hpool hQ
    · exact wp_routeSplit hσ hfree hothers hpool hQ
    · exact wp_routeHostgroup hσ hfree hothers hpool hQ

theorem wp_routeAutocommit {sql : Bytes} : (routeAutocommit pool sql rt).wp R.contract Q g := by
  rw [routeAutocommit]
  simp only [Prog.wp_bind]
  refine wp_quiet rfl fun timeoutMs => ?_
  refine wp_quiet rfl fun outcome => ?_
  rcases outcome with _ | s | msg
  · exact wp_dispatch hσ hfree hothers hpool hQ
  · exact wp_dispatch hσ hfree hothers hpool hQ
  · exact hQ _ g hσ (plainResult_error msg)

end Autocommit

/-! ## Through a variable of the session -/

/-- What is known of the connection `PoolRef.ensure` finds in, or fetches for, a variable. -/
def entry (R : Rules srv) (σ : Vars srv) (v : Via) : Conn srv → Prop :=
  match σ v with
  | some a => a.known
  | none => R.Tidy R.primaryHome

theorem wp_ensure {v : Via} (hσ : Owns σ g) (hpool : R.home → pool = R.cur) {db : Option Str}
    {Q : Except Str ConnId → Hold srv → Prop}
    (hok : ∀ c g', Owns (Function.update σ v (some ⟨c, entry R σ v⟩)) g' → Q (.ok c) g')
    (herr : σ v = none → ¬R.sure → ∀ e, Q (.error e) g) :
    (pool.ensure ((σ v).map Claim.key) db).wp R.contract Q g := by
  rcases hv : σ v with _ | a
  · refine wp_getPrimary hσ hv hpool (fun c g' h => hok c g' ?_) (herr hv)
    rw [entry, hv]
    exact h
  · refine hok a.key g ?_
    rw [entry, hv, ← hv, Function.update_eq_self]
    exact hσ

theorem Others.update {v : Via} {x : Option (Claim ConnId (Conn srv))} (h : Others R σ v) :
    Others R (Function.update σ v x) v := by
  intro w b hw hb
  rw [Function.update_of_ne hw] at hb
  exact h w b hw hb

/-- An exchange through a variable that `PoolRef.ensure` has filled. -/
theorem wp_executeQuery_via {via : Via} {c : ConnId} {K : Conn srv → Prop}
    (hσ : Owns (Function.update σ via (some ⟨c, K⟩)) g) {who : Purpose}
    (hothers : who = .client → Others R σ via) {sql : Bytes}
    {Q : Except Str Response → Hold srv → Prop}
    (hQ : ∀ r g', Owns (Function.update σ via (some ⟨c, Exchanged R via (.text sql) K r⟩)) g' →
      Q r g') :
    (executeQuery who via c sql).wp R.contract Q g := by
  refine wp_executeQuery (a := ⟨c, K⟩) hσ (Function.update_self ..) (fun hw => (hothers hw).update)
    fun r g' h => hQ r g' ?_
  rw [Function.update_idem] at h
  exact h

theorem wp_sendRaw_via {via : Via} {c : ConnId} {K : Conn srv → Prop}
    (hσ : Owns (Function.update σ via (some ⟨c, K⟩)) g) {who : Purpose}
    (hothers : who = .client → Others R σ via) {packet : Bytes}
    {Q : Except Str Response → Hold srv → Prop}
    (hQ : ∀ r g', Owns (Function.update σ via (some ⟨c, Exchanged R via (.raw packet) K r⟩)) g' →
      Q r g') :
    (sendRaw who via c packet).wp R.contract Q g := by
  refine wp_sendRaw (a := ⟨c, K⟩) hσ (Function.update_self ..) (fun hw => (hothers hw).update)
    fun r g' h => hQ r g' ?_
  rw [Function.update_idem] at h
  exact h

theorem wp_sendRawNoResponse_via {via : Via} {c : ConnId} {K : Conn srv → Prop}
    (hσ : Owns (Function.update σ via (some ⟨c, K⟩)) g) (hothers : Others R σ via) {packet : Bytes}
    {Q : Except Str Response → Hold srv → Prop}
    (hQ : ∀ r g', Owns (Function.update σ via (some ⟨c, Exchanged R via (.silent packet) K r⟩)) g' →
      Q r g') :
    (sendRawNoResponse via c packet).wp R.contract Q g := by
  refine wp_sendRawNoResponse (a := ⟨c, K⟩) hσ (Function.update_self ..) hothers.update
    fun r g' h => hQ r g' ?_
  rw [Function.update_idem] at h
  exact h

/-- What is known of a transaction's connection after the replay: a new one has been through the
session's own statements, if there are any. -/
def entryAfter (R : Rules srv) (σ : Vars srv) (sqls : List Str) (conn : Conn srv) : Prop :=
  match σ .txConn with
  | some a => a.known conn
  | none => (sqls = [] → R.clean conn) ∧ (R.home → conn.lender = R.primaryHome)

theorem wp_replay_tx {c : ConnId} {K : Conn srv → Prop} {sqls : List Str}
    (hσ : Owns (Function.update σ .txConn (some ⟨c, K⟩)) g)
    (hstay : ∀ sql conn r conn', K conn → R.after .txConn (.text sql) conn r conn' → K conn')
    {Q : Unit → Hold srv → Prop}
    (hQ : ∀ g', Owns (Function.update σ .txConn (some ⟨c, K⟩)) g' → Q () g') :
    (replaySessionVars .txConn c sqls).wp R.contract Q g := by
  induction sqls generalizing g with
  | nil => exact hQ g hσ
  | cons sql rest ih =>
    rw [replaySessionVars]
    simp only [Prog.wp_bind]
    refine wp_executeQuery_via hσ (fun h => by cases h) fun r g' h => ih (h.weaken ?_)
    rintro conn' ⟨conn, r₀, hK, -, hafter⟩
    exact hstay _ conn r₀ conn' hK hafter

/-- The replay on a connection that was just fetched. -/
theorem wp_replay_entry {c : ConnId} {sqls : List Str} (hv : σ .txConn = none)
    (hσ : Owns (Function.update σ .txConn (some ⟨c, entry R σ .txConn⟩)) g)
    {Q : Unit → Hold srv → Prop}
    (hQ : ∀ g', Owns (Function.update σ .txConn (some ⟨c, entryAfter R σ sqls⟩)) g' → Q () g') :
    (replaySessionVars .txConn c sqls).wp R.contract Q g := by
  rcases sqls with _ | ⟨sql, rest⟩
  · refine hQ g (hσ.weaken fun conn h => ?_)
    rw [entry, hv] at h
    rw [entryAfter, hv]
    exact ⟨fun _ => h.1, h.2⟩
  · -- once a statement has run, only the lender is known
    have hlent : Owns (Function.update σ .txConn
        (some ⟨c, fun conn => R.home → conn.lender = R.primaryHome⟩)) g :=
      hσ.weaken fun conn h => by
        rw [entry, hv] at h
        exact h.2
    refine wp_replay_tx hlent (fun _ conn r conn' hK hafter hhome => ?_) fun g' h =>
      hQ g' (h.weaken fun conn hK => ?_)
    · rw [R.after_lender hafter]
      exact hK hhome
    · rw [entryAfter, hv]
      exact ⟨(by intro h; cases h), hK⟩

theorem wp_routeInTx (hσ : Owns σ g) (hothers : Others R σ .txConn)
    (hpool : R.home → pool = R.cur) {sql : Bytes} {rt : Route}
    {Q : Option ConnId × Except Str Response → Hold srv → Prop}
    (hok : ∀ c r g', Owns (Function.update σ .txConn (some ⟨c, Exchanged R .txConn (.text sql)
      (entryAfter R σ rt.sessionInitSqls) r⟩)) g' → Q (some c, r) g')
    (herr : σ .txConn = none → ¬R.sure → ∀ e, Q (none, .error e) g) :
    (routeInTx pool sql ((σ .txConn).map Claim.key) rt).wp R.contract Q g := by
  rw [routeInTx]
  simp only [Prog.wp_bind]
  refine wp_ensure hσ hpool (fun c g₁ h₁ => ?_) fun hnone hsure e => ?_
  · dsimp only
    have hgo : ∀ g₂, Owns (Function.update σ .txConn
        (some ⟨c, entryAfter R σ rt.sessionInitSqls⟩)) g₂ →
        (executeQuery .client .txConn c sql).wp R.contract (fun r g' => Q (some c, r) g') g₂ :=
      fun g₂ h₂ => wp_executeQuery_via h₂ (fun _ => hothers) fun r g₃ h₃ => hok c r g₃ h₃
    rcases hv : σ .txConn with _ | a
    · simp only [Option.map_none, Option.isNone_none, if_true, Prog.wp_bind]
      exact wp_replay_entry hv h₁ hgo
    · refine hgo g₁ (h₁.weaken fun conn h => ?_)
      rw [entry, hv] at h
      rw [entryAfter, hv]
      exact h
  · simp only [hnone]
    exact herr hnone hsure e

/-- Inside a transaction the statement goes through `tx_conn`; outside, the variables stay as they
are. -/
theorem wp_routeQueryInner (hσ : Owns σ g) (hfree : σ .loan = none) {inTransaction : Bool}
    (hothers : Others R σ (if inTransaction then .txConn else .loan)) {sql : Bytes} {rt : Route}
    {Q : Option ConnId × Except Str Response → Hold srv → Prop}
    (hin : inTransaction = true → ∀ c r g', Owns (Function.update σ .txConn (some ⟨c,
      Exchanged R .txConn (.text sql) (entryAfter R σ rt.sessionInitSqls) r⟩)) g' → Q (some c, r) g')
    (herr : inTransaction = true → σ .txConn = none → ¬R.sure → ∀ e, Q (none, .error e) g)
    (hout : inTransaction = false → ∀ r g', Owns σ g' → PlainResult R r →
      Q ((σ .txConn).map Claim.key, r) g') :
    (routeQueryInner sql ((σ .txConn).map Claim.key) inTransaction rt).wp R.contract Q g := by
  rw [routeQueryInner]
  simp only [Prog.wp_bind]
  refine wp_readPool fun pool hpool => ?_
  rcases inTransaction with _ | _
  · simp only [Bool.false_eq_true, if_false, Prog.wp_bind]
    exact wp_routeAutocommit hσ hfree hothers hpool fun r g' h hplain => hout rfl r g' h hplain
  · exact wp_routeInTx hσ hothers hpool (fun c r g' h => hin rfl c r g' h) (herr rfl)

/-! ## Returning connections -/

theorem wp_putPrimary {v : Via} {a : Claim ConnId (Conn srv)} (hσ : Owns σ g) (hv : σ v = some a)
    (htidy : ∀ conn, a.known conn → R.Tidy R.primaryHome conn) {db : Option Str}
    {Q : Unit → Hold srv → Prop} (hQ : ∀ g', Owns (Function.update σ v none) g' → Q () g') :
    (putPrimary a.key db).wp R.contract Q g := by
  rw [putPrimary]
  simp only [Prog.wp_bind]
  exact wp_readPool fun pool hpool => wp_putPrimaryForDatabase hσ hv hpool htidy hQ

theorem wp_putReplica {v : Via} {a : Claim ConnId (Conn srv)} (hσ : Owns σ g) (hv : σ v = some a)
    {idx : Option Nat} (htidy : ∀ conn, a.known conn → R.Tidy (R.idxHome idx) conn)
    {Q : Unit → Hold srv → Prop} (hQ : ∀ g', Owns (Function.update σ v none) g' → Q () g') :
    (putReplica a.key idx).wp R.contract Q g := by
  rw [putReplica]
  simp only [Prog.wp_bind]
  exact wp_readPool fun pool hpool => wp_giveBack hσ hv hpool htidy hQ

/-! ## The other routes -/

/-- The hint's connection is clean after every statement, and belongs where its index says. -/
theorem wp_routeStickyQuery (hσ : Owns σ g) (hothers : Others R σ .stickyConn)
    {idx : Option Nat}
    (hknown : ∀ a, σ .stickyConn = some a → ∀ conn, a.known conn → R.Tidy (R.idxHome idx) conn)
    {sql : Bytes} {Q : Option ConnId × Option Nat × Except Str Response → Hold srv → Prop}
    (hok : ∀ c idx' r g', Owns (Function.update σ .stickyConn
      (some ⟨c, R.Tidy (R.idxHome idx')⟩)) g' → Q (some c, idx', r) g')
    (herr : σ .stickyConn = none → ∀ e, Q (none, idx, .error e) g) :
    (routeStickyQuery sql ((σ .stickyConn).map Claim.key) idx).wp R.contract Q g := by
  rcases hv : σ .stickyConn with _ | a
  · simp only [routeStickyQuery, Option.map_none, Prog.wp_bind]
    refine wp_readPool fun pool hpool => ?_
    refine wp_getReplica hσ hv hpool (fun c idx' g₁ h₁ => ?_) fun e => herr hv e
    simp only [Prog.wp_bind]
    refine wp_executeQuery_via h₁ (fun _ => hothers) fun r g₂ h₂ => hok c idx' r g₂ (h₂.weaken ?_)
    exact fun conn hex => hex.tidy (by simp) fun conn₀ htidy => htidy.2
  · simp only [routeStickyQuery, Option.map_some, Prog.wp_bind]
    refine wp_executeQuery hσ hv (fun _ => hothers) fun r g₁ h₁ =>
      hok a.key idx r g₁ (h₁.weaken ?_)
    exact fun conn hex => hex.tidy (by simp) fun conn₀ h₀ => (hknown a hv conn₀ h₀).2

/-- A pass-through command: like a statement, without replay. -/
theorem wp_routeRawInner (hσ : Owns σ g) (hfree : σ .loan = none) {inTransaction : Bool}
    (hothers : Others R σ (if inTransaction then .txConn else .loan)) {packet : Bytes}
    {db : Option Str} {Q : Option ConnId × Except Str Response → Hold srv → Prop}
    (hin : inTransaction = true → ∀ c r g', Owns (Function.update σ .txConn (some ⟨c,
      Exchanged R .txConn (.raw packet) (entry R σ .txConn) r⟩)) g' → Q (some c, r) g')
    (herr : inTransaction = true → σ .txConn = none → ∀ e, Q (none, .error e) g)
    (hout : inTransaction = false → ∀ r g', Owns σ g' → Q ((σ .txConn).map Claim.key, r) g') :
    (routeRawInner packet ((σ .txConn).map Claim.key) inTransaction db).wp R.contract Q g := by
  rw [routeRawInner]
  simp only [Prog.wp_bind]
  refine wp_readPool fun pool hpool => ?_
  rcases inTransaction with _ | _
  · simp only [Bool.false_eq_true, if_false, Prog.wp_bind]
    refine wp_getPrimary hσ hfree hpool (fun c g₁ h₁ => ?_) fun _ e => hout rfl _ g hσ
    simp only [Prog.wp_bind]
    refine wp_sendRaw_loan h₁ (fun _ => hothers) fun r g₂ h₂ _ => ?_
    rcases r with e | response
    · simp only [Prog.wp_bind]
      exact wp_drop_loan h₂ hfree fun g₃ h₃ => hout rfl _ g₃ h₃
    · simp only [Prog.wp_bind]
      exact wp_putPrimary_loan h₂ hfree hpool fun g₃ h₃ => hout rfl _ g₃ h₃
  · simp only [if_true, Prog.wp_bind]
    refine wp_ensure hσ hpool (fun c g₁ h₁ => ?_) fun hnone _ e => ?_
    · simp only [Prog.wp_bind]
      exact wp_sendRaw_via h₁ (fun _ => hothers) fun r g₂ h₂ => hin rfl c r g₂ h₂
    · simp only [hnone]
      exact herr rfl hnone e

/-- Fast-forward: like a statement, without replay, rules or retry. -/
theorem wp_routeFast (hσ : Owns σ g) (hfree : σ .loan = none) {inTransaction : Bool}
    (hothers : Others R σ (if inTransaction then .txConn else .loan)) {sql : Bytes}
    {Q : Option ConnId × Except Str Response → Hold srv → Prop}
    (hin : inTransaction = true → ∀ c r g', Owns (Function.update σ .txConn (some ⟨c,
      Exchanged R .txConn (.text sql) (entry R σ .txConn) r⟩)) g' → Q (some c, r) g')
    (herr : inTransaction = true → σ .txConn = none → ∀ e, Q (none, .error e) g)
    (hout : inTransaction = false → ∀ r g', Owns σ g' → Q ((σ .txConn).map Claim.key, r) g') :
    (routeFast sql ((σ .txConn).map Claim.key) inTransaction).wp R.contract Q g := by
  rw [routeFast]
  simp only [Prog.wp_bind]
  refine wp_readPool fun pool hpool => ?_
  rcases inTransaction with _ | _
  · simp only [Bool.false_eq_true, if_false, Prog.wp_bind]
    refine wp_getPrimary hσ hfree hpool (fun c g₁ h₁ => ?_) fun _ e => hout rfl _ g hσ
    simp only [Prog.wp_bind]
    refine wp_executeQuery_loan h₁ (fun _ => hothers) fun r g₂ h₂ _ => ?_
    rcases r with e | response
    · simp only [Prog.wp_bind]
      exact wp_drop_loan h₂ hfree fun g₃ h₃ => hout rfl _ g₃ h₃
    · simp only [Prog.wp_bind]
      exact wp_putPrimary_loan h₂ hfree hpool fun g₃ h₃ => hout rfl _ g₃ h₃
  · simp only [if_true, Prog.wp_bind]
    refine wp_ensure hσ hpool (fun c g₁ h₁ => ?_) fun hnone _ e => ?_
    · simp only [Prog.wp_bind]
      exact wp_executeQuery_via h₁ (fun _ => hothers) fun r g₂ h₂ => hin rfl c r g₂ h₂
    · simp only [hnone]
      exact herr rfl hnone e

theorem wp_isFastForwardRule {sql user schema : Str} {Q : Bool → Hold srv → Prop}
    (hQ : ∀ ff, Q ff g) : (isFastForwardRule sql user schema).wp R.contract Q g := by
  rw [isFastForwardRule]
  simp only [Prog.wp_bind]
  exact wp_quiet rfl fun m => hQ _

/-- The GTID check gives its connection up, one way or the other. -/
theorem wp_checkReplicaHasGtid (hσ : Owns σ g) (hfree : σ .loan = none) {gtid : Str}
    {Q : Bool → Hold srv → Prop} (hQ : ∀ ready g', Owns σ g' → Q ready g') :
    (checkReplicaHasGtid gtid).wp R.contract Q g := by
  rw [checkReplicaHasGtid]
  simp only [Prog.wp_bind]
  refine wp_readPool fun pool hpool => ?_
  refine Prog.wp_ite (fun _ => hQ _ g hσ) fun _ => ?_
  simp only [Prog.wp_bind]
  refine wp_getReplica hσ hfree hpool (fun c idx g₁ h₁ => ?_) fun e => hQ _ g hσ
  simp only [Prog.wp_bind]
  refine wp_executeQuery_loan h₁ (fun h => by cases h) fun r g₂ h₂ _ => ?_
  rcases r with e | response
  · simp only [Prog.wp_bind]
    exact wp_drop_loan h₂ hfree fun g₃ h₃ => hQ _ g₃ h₃
  · simp only [Prog.wp_bind]
    refine wp_putReplicaForDatabase (a := ⟨c, R.Tidy (R.idxHome idx)⟩) h₂ (lend_loan c _) hpool
      (fun conn h => h) fun g₃ h₃ => hQ _ g₃ ?_
    rw [lend, update_none hfree] at h₃
    exact h₃

/-! ## Prepared statements -/

/-- What is known of a connection after some exchange. -/
def Touched (R : Rules srv) (via : Via) (known : Conn srv → Prop) (conn' : Conn srv) : Prop :=
  ∃ p conn r, known conn ∧ R.after via p conn r conn'

theorem Exchanged.touched {via : Via} {p : Packet} {known : Conn srv → Prop}
    {r : Except Str Response} {conn' : Conn srv} (h : Exchanged R via p known r conn') :
    Touched R via known conn' := by
  obtain ⟨conn, r₀, hknown, -, hafter⟩ := h
  exact ⟨p, conn, r₀, hknown, hafter⟩

/-- The old connection of a variable is dropped, the one on loan takes its place. -/
theorem wp_drop_replace {c fresh : ConnId} {K : Conn srv → Prop} {o : Origin}
    (hσ : Owns (lend R (Function.update σ .stmtConn (some ⟨c, K⟩)) fresh o) g)
    (hfree : σ .loan = none) {exit : Exit} {Q : Unit → Hold srv → Prop}
    (hQ : ∀ g', Owns (Function.update σ .stmtConn (some ⟨fresh, R.Tidy o⟩)) g' → Q () g') :
    (act (.drop exit c)).wp R.contract Q g := by
  have hv : lend R (Function.update σ .stmtConn (some ⟨c, K⟩)) fresh o .stmtConn = some ⟨c, K⟩ := by
    simp [lend]
  refine wp_drop (a := ⟨c, K⟩) hσ hv fun g' h => hQ g' ?_
  have hmove := h.move (v := .loan) (w := .stmtConn) (a := ⟨fresh, R.Tidy o⟩) (by simp [lend])
    (by simp)
  convert hmove using 1
  funext via
  cases via <;> simp [lend, Function.update, hfree]

theorem wp_reprepare {c : ConnId} {o : Origin} {jobs : List (Nat × Bytes)}
    (hσ : Owns (lend R σ c o) g) {Q : List (Nat × Nat) → Hold srv → Prop}
    (hQ : ∀ ids g', Owns (lend R σ c o) g' → Q ids g') :
    (reprepare c jobs).wp R.contract Q g := by
  induction jobs generalizing g Q with
  | nil => exact hQ [] g hσ
  | cons job rest ih =>
    obtain ⟨pid, prep⟩ := job
    rw [reprepare]
    simp only [Prog.wp_bind]
    refine wp_sendRaw_loan hσ (fun h => by cases h) fun r g₁ h₁ _ => ih h₁ fun ids g₂ h₂ => ?_
    rcases r with e | resp
    · exact hQ _ g₂ h₂
    · rcases hparse : mysqlParsePrepareOk resp.bytes with _ | ⟨newId, cols, params⟩
      · simp only [hparse]
        exact hQ _ g₂ h₂
      · simp only [hparse]
        exact hQ _ g₂ h₂

section Statements

/-- The state `route_stmt_mysql_shadow` works on once the active connection is there. -/
def activeState (inTransaction : Bool) (shadow : MysqlStmtShadow) (stmtConn txConn : Option ConnId)
    (c : ConnId) : MysqlStmtState :=
  if inTransaction then ⟨shadow, stmtConn, some c⟩ else ⟨shadow, some c, txConn⟩

theorem activeState_with (inTransaction : Bool) (shadow sh : MysqlStmtShadow)
    (stmtConn txConn : Option ConnId) (c : ConnId) :
    { activeState inTransaction shadow stmtConn txConn c with shadow := sh } =
      activeState inTransaction sh stmtConn txConn c := by
  cases inTransaction <;> rfl

omit R in
/-- Registering a statement changes the shadow only. -/
theorem registerPrepared_state {st : MysqlStmtState} {query : Bytes} {response : Response}
    {Q : MysqlStmtState × Except Str Response → Prop}
    (hQ : ∀ sh r, Q ({ st with shadow := sh }, r)) :
    Q (Prod.map id .ok (registerPrepared st query response)) := by
  rw [registerPrepared]
  split
  · exact hQ _ _
  · exact hQ st.shadow _

variable {inTransaction : Bool}
  (hlent : ∀ conn, entry R σ .stmtConn conn → R.home → conn.lender = R.primaryHome)
  {stmtConn txConn : Option ConnId} {c : ConnId}
  {Q : MysqlStmtState × Except Str Response → Hold srv → Prop}
  (hin : inTransaction = true → ∀ sh r g', Owns (Function.update σ .txConn
    (some ⟨c, Touched R .txConn (entry R σ .txConn)⟩)) g' → Q (⟨sh, stmtConn, some c⟩, r) g')
  (hout : inTransaction = false → ∀ sh c' r g', Owns (Function.update σ .stmtConn
    (some ⟨c', R.Tidy R.primaryHome⟩)) g' → Q (⟨sh, some c', txConn⟩, r) g')

include hlent hin hout

/-- A command that the active connection answers ends there. -/
theorem exchanged_active {p : Packet} {r₀ r : Except Str Response} {g' : Hold srv}
    {sh : MysqlStmtShadow}
    (h : Owns (Function.update σ (activeVia inTransaction) (some ⟨c,
      Exchanged R (activeVia inTransaction) p (entry R σ (activeVia inTransaction)) r₀⟩)) g') :
    Q (activeState inTransaction sh stmtConn txConn c, r) g' := by
  rcases inTransaction with _ | _
  · exact hout rfl sh c r g' (h.weaken fun conn hex => hex.tidy (by simp [activeVia]) hlent)
  · exact hin rfl sh r g' (h.weaken fun conn hex => hex.touched)

variable (hfree : σ .loan = none) (hothers : Others R σ (activeVia inTransaction))
  (hpool : R.home → pool = R.cur) {shadow : MysqlStmtShadow}
  (hσ : Owns (Function.update σ (activeVia inTransaction)
    (some ⟨c, entry R σ (activeVia inTransaction)⟩)) g)

include hothers hσ

theorem wp_sendRaw_active {raw : Bytes} :
    (do let r ← sendRaw .client (activeVia inTransaction) c raw
        pure (activeState inTransaction shadow stmtConn txConn c, r)).wp R.contract Q g := by
  simp only [Prog.wp_bind]
  exact wp_sendRaw_via hσ (fun _ => hothers) fun r g' h => exchanged_active hlent hin hout h

include hfree hpool

theorem wp_stmtPrepare {raw query : Bytes} :
    (stmtPrepare pool raw query c (activeState inTransaction shadow stmtConn txConn c)
      inTransaction).wp R.contract Q g := by
  rw [stmtPrepare]
  simp only [Prog.wp_bind]
  refine wp_sendRaw_via hσ (fun _ => hothers) fun r g₁ h₁ => ?_
  have hstay : ∀ {sh r'}, Q (activeState inTransaction sh stmtConn txConn c, r') g₁ :=
    exchanged_active hlent hin hout h₁
  rcases r with e | response
  · refine Prog.wp_ite (fun hlost => ?_) fun _ => hstay
    obtain rfl : inTransaction = false := by simpa using (Bool.and_eq_true_iff.mp hlost).2
    simp only [Prog.wp_bind]
    refine wp_getPrimary (v := .loan) h₁ (by simpa [activeVia] using hfree) hpool
      (fun fresh g₂ h₂ => ?_) fun _ e => hstay
    simp only [Prog.wp_bind]
    refine wp_drop_replace h₂ hfree fun g₃ h₃ => ?_
    refine wp_sendRaw_via h₃ (fun _ => hothers) fun r g₄ h₄ => ?_
    have hnew : ∀ {sh r'}, Q (⟨sh, some fresh, txConn⟩, r') g₄ := fun {sh r'} =>
      hout rfl sh fresh r' g₄ (h₄.weaken fun conn hex => hex.tidy (by simp) fun _ h => h.2)
    rcases r with e | response
    · exact hnew
    · exact registerPrepared_state (Q := fun x => Q x g₄) fun _ _ => hnew
  · refine registerPrepared_state (Q := fun x => Q x g₁) fun sh r' => ?_
    rw [activeState_with]
    exact hstay

theorem wp_stmtWithId {cmd : UInt8} {raw : Bytes} :
    (stmtWithId pool cmd raw c (activeState inTransaction shadow stmtConn txConn c)
      inTransaction).wp R.contract Q g := by
  rw [stmtWithId]
  rcases mysqlReadStmtId raw with _ | proxyId
  · exact wp_sendRaw_active hlent hin hout hothers hσ
  · dsimp only
    refine Prog.wp_ite (fun _ => ?_) fun _ => ?_
    · simp only [Prog.wp_bind]
      refine wp_sendRawNoResponse_via hσ hothers fun r g₁ h₁ => ?_
      have hstay : ∀ {sh r'}, Q (activeState inTransaction sh stmtConn txConn c, r') g₁ :=
        exchanged_active hlent hin hout h₁
      rcases r with e | response
      · exact hstay
      · by_cases hclose : cmd = Com.stmtClose
        · simp only [hclose, if_true, activeState_with]
          exact hstay
        · simp only [hclose, if_false]
          exact hstay
    · simp only [Prog.wp_bind]
      refine wp_sendRaw_via hσ (fun _ => hothers) fun r g₁ h₁ => ?_
      have hstay : ∀ {sh r'}, Q (activeState inTransaction sh stmtConn txConn c, r') g₁ :=
        exchanged_active hlent hin hout h₁
      rcases r with e | response
      · refine Prog.wp_ite (fun hlost => ?_) fun _ => hstay
        obtain rfl : inTransaction = false := hlost.2.2
        rw [executeAgain]
        simp only [Prog.wp_bind]
        refine wp_getPrimary (v := .loan) h₁ (by simpa [activeVia] using hfree) hpool
          (fun fresh g₂ h₂ => ?_) fun _ e => hstay
        simp only [Prog.wp_bind]
        refine wp_reprepare h₂ fun ids g₃ h₃ => ?_
        refine wp_drop_replace h₃ hfree fun g₄ h₄ => ?_
        refine wp_sendRaw_via h₄ (fun _ => hothers) fun r g₅ h₅ => ?_
        exact hout rfl _ fresh r g₅ (h₅.weaken fun conn hex => hex.tidy (by simp) fun _ h => h.2)
      · exact hstay

end Statements

/-- Prepared statements of a MySQL session: inside a transaction through `tx_conn`, outside through
`stmt_conn`, which may be replaced on the way. -/
theorem wp_routeStmtMysqlShadow (hσ : Owns σ g) (hfree : σ .loan = none) {inTransaction : Bool}
    (hothers : Others R σ (activeVia inTransaction))
    (hlent : ∀ conn, entry R σ .stmtConn conn → R.home → conn.lender = R.primaryHome)
    {shadow : MysqlStmtShadow} {raw : Bytes}
    {Q : MysqlStmtState × Except Str Response → Hold srv → Prop}
    (hin : inTransaction = true → ∀ sh c r g', Owns (Function.update σ .txConn
      (some ⟨c, Touched R .txConn (entry R σ .txConn)⟩)) g' →
      Q (⟨sh, (σ .stmtConn).map Claim.key, some c⟩, r) g')
    (hout : inTransaction = false → ∀ sh c r g', Owns (Function.update σ .stmtConn
      (some ⟨c, R.Tidy R.primaryHome⟩)) g' →
      Q (⟨sh, some c, (σ .txConn).map Claim.key⟩, r) g')
    (herr : ∀ e, Q (⟨shadow, (σ .stmtConn).map Claim.key, (σ .txConn).map Claim.key⟩, .error e) g) :
    (routeStmtMysqlShadow raw ⟨shadow, (σ .stmtConn).map Claim.key, (σ .txConn).map Claim.key⟩
      inTransaction).wp R.contract Q g := by
  rw [routeStmtMysqlShadow]
  simp only [Prog.wp_bind]
  refine wp_readPool fun pool hpool => ?_
  rcases raw with _ | ⟨cmd, query⟩
  · exact herr _
  · have hgo : ∀ c g₁, Owns (Function.update σ (activeVia inTransaction)
        (some ⟨c, entry R σ (activeVia inTransaction)⟩)) g₁ →
        (let st := activeState inTransaction shadow ((σ .stmtConn).map Claim.key)
          ((σ .txConn).map Claim.key) c
        if cmd = Com.stmtPrepare then stmtPrepare pool (cmd :: query) query c st inTransaction
        else if mysqlHasStmtId cmd then stmtWithId pool cmd (cmd :: query) c st inTransaction
        else do
          let r ← sendRaw .client (activeVia inTransaction) c (cmd :: query)
          pure (st, r)).wp R.contract Q g₁ := by
      intro c g₁ h₁
      have hin' := fun hi sh r g' h => hin hi sh c r g' h
      refine Prog.wp_ite (fun _ => ?_) fun _ => Prog.wp_ite (fun _ => ?_) fun _ => ?_
      · exact wp_stmtPrepare hlent hin' hout hfree hothers hpool h₁
      · exact wp_stmtWithId hlent hin' hout hfree hothers hpool h₁
      · exact wp_sendRaw_active hlent hin' hout hothers h₁
    rcases inTransaction with _ | _
    · simp only [Prog.wp_bind]
      exact wp_ensure hσ hpool (fun c g₁ h₁ => hgo c g₁ h₁) fun _ _ e => herr e
    · simp only [Prog.wp_bind]
      exact wp_ensure hσ hpool (fun c g₁ h₁ => hgo c g₁ h₁) fun _ _ e => herr e

/-! ## PostgreSQL pipelines -/

theorem wp_reprepareAll {c : ConnId} {o : Origin} {jobs : List Bytes}
    (hσ : Owns (lend R σ c o) g) {Q : Unit → Hold srv → Prop}
    (hQ : ∀ g', Owns (lend R σ c o) g' → Q () g') :
    (reprepareAll c jobs).wp R.contract Q g := by
  induction jobs generalizing g with
  | nil => exact hQ g hσ
  | cons job rest ih =>
    rw [reprepareAll]
    simp only [Prog.wp_bind]
    exact wp_sendRaw_loan hσ (fun h => by cases h) fun r g₁ h₁ _ => ih h₁

theorem wp_routeStmtPgShadowInner (hσ : Owns σ g) (hfree : σ .loan = none) {inTransaction : Bool}
    (hothers : Others R σ (activeVia inTransaction))
    (hlent : ∀ conn, entry R σ .stmtConn conn → R.home → conn.lender = R.primaryHome)
    {raw : Bytes} {scan : PgPipelineScan} {shadow : PgStmtShadow} {db : Option Str}
    {Q : Option ConnId × Option ConnId × Except Str Response → Hold srv → Prop}
    (hin : inTransaction = true → ∀ c r g', Owns (Function.update σ .txConn
      (some ⟨c, Exchanged R .txConn (.raw raw) (entry R σ .txConn) r⟩)) g' →
      Q ((σ .stmtConn).map Claim.key, some c, r) g')
    (hout : inTransaction = false → ∀ c r g', Owns (Function.update σ .stmtConn
      (some ⟨c, R.Tidy R.primaryHome⟩)) g' → PlainResult R r →
      Q (some c, (σ .txConn).map Claim.key, r) g')
    (herr : σ (activeVia inTransaction) = none → ∀ e,
      Q ((σ .stmtConn).map Claim.key, (σ .txConn).map Claim.key, .error e) g) :
    (routeStmtPgShadowInner raw scan shadow ((σ .stmtConn).map Claim.key)
      ((σ .txConn).map Claim.key) inTransaction db).wp R.contract Q g := by
  rw [routeStmtPgShadowInner]
  simp only [Prog.wp_bind]
  refine wp_readPool fun pool hpool => ?_
  rcases inTransaction with _ | _
  · simp only [Bool.false_eq_true, if_false]
    refine wp_ensure (v := .stmtConn) hσ hpool (fun c g₁ h₁ => ?_) fun hnone _ e => herr hnone e
    simp only [Prog.wp_bind]
    refine wp_sendRaw_via h₁ (fun _ => hothers) fun r g₂ h₂ => ?_
    have hplain : PlainResult R r := by
      obtain ⟨conn, -, hex⟩ := h₂.held .stmtConn _ (Function.update_self ..)
      exact hex.plain (by simp)
    have htidy : Owns (Function.update σ .stmtConn (some ⟨c, R.Tidy R.primaryHome⟩)) g₂ :=
      h₂.weaken fun conn hex => hex.tidy (by simp) hlent
    rcases r with e | response
    · refine Prog.wp_ite (fun _ => ?_) fun _ => hout rfl c _ g₂ htidy hplain
      simp only [Prog.wp_bind]
      refine wp_getPrimary (v := .loan) htidy (by simpa using hfree) hpool (fun fresh g₃ h₃ => ?_)
        fun _ e => hout rfl c _ g₂ htidy (plainResult_error e)
      simp only [Prog.wp_bind]
      refine wp_reprepareAll h₃ fun g₄ h₄ => ?_
      -- the pipeline runs on the new connection while the old one is still there
      have hothers' : Others R (Function.update σ .stmtConn (some ⟨c, R.Tidy R.primaryHome⟩))
          .loan := by
        intro w b _ hb conn hknown
        by_cases hw : w = .stmtConn
        · subst hw
          rw [Function.update_self] at hb
          obtain rfl := Option.some.inj hb
          exact hknown.1
        · rw [Function.update_of_ne hw] at hb
          exact hothers w b hw hb conn hknown
      refine wp_sendRaw_loan h₄ (fun _ => hothers') fun r g₅ h₅ hplain => ?_
      exact wp_drop_replace h₅ hfree fun g₆ h₆ => hout rfl fresh r g₆ h₆ hplain
    · exact hout rfl c _ g₂ htidy hplain
  · simp only [if_true]
    refine wp_ensure (v := .txConn) hσ hpool (fun c g₁ h₁ => ?_) fun hnone _ e => herr hnone e
    simp only [Prog.wp_bind]
    exact wp_sendRaw_via h₁ (fun _ => hothers) fun r g₂ h₂ => hin rfl c r g₂ h₂

end TurbineProxy
