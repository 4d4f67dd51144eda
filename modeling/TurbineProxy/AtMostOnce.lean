import TurbineProxy.PoolOps

/-!
# How often a statement is executed

`route_query_inner` sends the client's statement once more when the text of the error says that the
connection was lost. That text does not tell whether the server had executed the statement by then.

The world answers everything but the client's own exchanges as it pleases; the exchanges are a sequence
of `Attempt`s, each with what becomes of the connection and whether the server executes the statement.
`executed_at_most_once` says for which first attempts the statement is executed at most once, whatever
happens afterwards.
-/

namespace TurbineProxy

/-! ## Attempts -/

/-- One exchange of the client's statement with a backend. -/
structure Attempt where
  /-- what happens to the connection -/
  fault : Option Fault
  /-- the response, if it can be read -/
  response : Response

namespace Attempt

/-- The server executes the statement. -/
def executed (a : Attempt) : Bool := (TalkInput.mk a.fault 0).executed

/-- What the proxy sees. -/
def outcome (a : Attempt) : Except TalkError Response :=
  match a.fault with
  | none => .ok a.response
  | some (.unsent e) => .error (.protocol e)
  | some (.lost e _) => .error (.protocol e)
  | some (.elapsed _) => .error .elapsed

/-- The error text as the query path sees it, under a timer of `timeoutMs` (`0`: none). -/
def errorText (timeoutMs : Nat) (a : Attempt) : Option Str :=
  match a.outcome with
  | .ok _ => none
  | .error (.protocol e) => some e
  | .error .elapsed => some (if 0 < timeoutMs then killedError timeoutMs else [])

/-- The query path takes the outcome for a lost connection. -/
def looksLost (timeoutMs : Nat) (a : Attempt) : Bool := (a.errorText timeoutMs).any isConnectionLost

end Attempt

/-! ## The statement in its world -/

/-- What is counted while a statement is routed. -/
structure Tries where
  /-- operations performed so far -/
  steps : Nat
  /-- exchanges of the client's statement so far -/
  used : Nat
  /-- how often it was executed -/
  executed : Nat

/-- The answers of a world: the client's exchanges take the next attempt, everything else is answered
by `world`. -/
def Tries.handle (world : Nat → (o : Op) → Res o) (attempts : Nat → Attempt) (t : Tries) (o : Op) :
    Tries × Res o :=
  match o with
  | .talk .client _ _ _ _ =>
    (⟨t.steps + 1, t.used + 1, t.executed + (attempts t.used).executed.toNat⟩,
      (attempts t.used).outcome)
  | o => (⟨t.steps + 1, t.used, t.executed⟩, world t.steps o)

/-- How often a statement is executed while it is routed. -/
def executions (world : Nat → (o : Op) → Res o) (attempts : Nat → Attempt) (sql : Bytes)
    (txConn : Option ConnId) (inTransaction : Bool) (rt : Route) : Nat :=
  ((routeQueryInner sql txConn inTransaction rt).runWith (Tries.handle world attempts) ⟨0, 0, 0⟩).1.executed

/-! ## Everything but the client's exchanges -/

/-- Not an exchange on behalf of the client. -/
abbrev Aside (o : Op) : Prop := o.isClientTalk = false

/-- The pools are nobody's client. -/
theorem aside_pool {α : Type} {p : Task α} (h : p.Only OfPool) : p.Only Aside := by
  refine h.mono fun o ho => ?_
  cases o <;> first | rfl | cases ho

theorem only_act {o : Op} (ho : o.isClientTalk = false) : (act o).Only Aside := Prog.only_perform ho

theorem only_replay (via : Via) (c : ConnId) (sqls : List Str) :
    (replaySessionVars via c sqls).Only Aside := by
  induction sqls with
  | nil => trivial
  | cons sql rest ih =>
    unfold replaySessionVars executeQuery
    exact Prog.only_bind (Prog.only_bind (only_act rfl) fun _ => trivial) fun _ => ih

theorem only_fireMirror (m : Option RuleMatch) (sql : Str) : (fireMirror m sql).Only Aside := by
  rw [fireMirror]
  split
  · exact only_act rfl
  · trivial

/-- The answer, and a copy of the query to the mirror. -/
theorem only_mirrored (m : Option RuleMatch) (sql : Str) (response : Response) :
    (fireMirror m sql >>= fun _ => (pure (.ok response) : Task (Except Str Response))).Only Aside :=
  Prog.only_bind (only_fireMirror m sql) fun _ => Prog.only_done _

/-! ## The stages of a statement -/

/-- How far the exchanges of one statement have come. -/
inductive Stage : Type where
  /-- not sent yet -/
  | fresh
  /-- sent once; the error says that the connection was lost -/
  | lost
  /-- not to be sent again -/
  | done

/-- Whether the query path takes an answer for a lost connection. -/
def answersLost (limit : Option Nat) : Except TalkError Response → Bool
  | .ok _ => false
  | .error (.protocol e) => isConnectionLost e
  | .error .elapsed => limit.any fun ms => isConnectionLost (killedError ms)

/-- The stage after an exchange. -/
def Stage.next (limit : Option Nat) (r : Except TalkError Response) : Stage → Stage
  | fresh => if answersLost limit r then lost else done
  | _ => done

/-- The contract of a routed statement under `max_query_time_ms = T`: it is sent once, and once more
only where the route `retries` and the first answer looked like a lost connection. -/
def once (T : Nat) (retries : Bool) : Protocol Op Res Stage where
  owes g o := match o with
    | .talk .client _ _ _ limit =>
      (g = .fresh ∨ g = .lost ∧ retries = true) ∧ ∀ ms ∈ limit, ms = T ∧ 0 < T
    | _ => True
  step g o r g' := match o, r with
    | .talk .client _ _ _ limit, r => g' = g.next limit r
    | .maxQueryTime, (ms : Nat) => ms = T ∧ g' = g
    | _, _ => g' = g

section Once

variable {T : Nat} {retries : Bool} {α : Type}

/-- What is not an exchange of the client's is free and keeps the stage. -/
theorem once_aside (g : Stage) (o : Op) (ho : Aside o) :
    (once T retries).owes g o ∧ ∀ r g', (once T retries).step g o r g' → g' = g := by
  cases o with
  | talk who via c p limit =>
    cases who with
    | client => cases ho
    | _ => exact ⟨trivial, fun r g' h => h⟩
  | maxQueryTime => exact ⟨trivial, fun r g' h => h.2⟩
  | _ => exact ⟨trivial, fun r g' h => h⟩

theorem wp_aside {g : Stage} {p : Task α} (hp : p.Only Aside) {Q : α → Stage → Prop}
    (hQ : ∀ a, Q a g) : p.wp (once T retries) Q g :=
  Prog.wp_of_only (once_aside g) hp hQ

/-- The first exchange under no timer. -/
theorem wp_executeQuery_fresh {via : Via} {c : ConnId} {sql : Bytes}
    {Q : Except Str Response → Stage → Prop} (hok : ∀ resp, Q (.ok resp) .done)
    (herr : ∀ e, Q (.error e) (if isConnectionLost e then .lost else .done)) :
    (executeQuery .client via c sql).wp (once T retries) Q .fresh := by
  refine ⟨⟨.inl rfl, by simp⟩, ?_⟩
  rintro r g' rfl
  rcases r with (e | _) | resp
  · exact herr e
  · exact herr []
  · exact hok resp

/-- The exchange of a retry. -/
theorem wp_executeQuery_lost {via : Via} {c : ConnId} {sql : Bytes}
    {Q : Except Str Response → Stage → Prop} (hQ : ∀ r, Q r .done) :
    (executeQuery .client via c sql).wp (once T true) Q .lost := by
  refine ⟨⟨.inr ⟨rfl, rfl⟩, by simp⟩, ?_⟩
  rintro r g' rfl
  exact hQ _

/-- The first exchange of a query path, timed or not. -/
theorem wp_execute_fresh {c : ConnId} {sql : Bytes} {Q : Except Str Response → Stage → Prop}
    (hok : ∀ resp, Q (.ok resp) .done)
    (herr : ∀ e, Q (.error e) (if isConnectionLost e then .lost else .done)) :
    (execute c sql T).wp (once T retries) Q .fresh := by
  refine Prog.wp_ite (fun hT => ?_) fun _ => wp_executeQuery_fresh hok herr
  refine ⟨⟨.inl rfl, by simp [hT]⟩, ?_⟩
  rintro r g' rfl
  rcases r with (e | _) | resp
  · exact herr e
  · exact ⟨trivial, fun _ g' h => h ▸ herr (killedError T)⟩
  · exact hok resp

variable {pool : PoolRef} {bytes : Bytes} {m : Option RuleMatch} {rt : Route} {effectiveSql : Str}

theorem wp_once_inTx {sql : Bytes} {txConn : Option ConnId} :
    (routeInTx pool sql txConn rt).wp (once T retries) (fun _ _ => True) .fresh := by
  have hgot : (pool.ensure txConn rt.database).Only Aside := aside_pool (pool.only_ensure txConn)
  rw [routeInTx]
  simp only [Prog.wp_bind]
  refine wp_aside hgot fun got => ?_
  rcases got with e | c
  · trivial
  · have hsend : (executeQuery .client .txConn c sql).wp (once T retries) (fun _ _ => True) .fresh :=
      wp_executeQuery_fresh (fun _ => trivial) fun _ => trivial
    refine Prog.wp_ite (fun _ => ?_) fun _ => ?_
    · simp only [Prog.wp_bind]
      exact wp_aside (only_replay _ _ _) fun _ => hsend
    · simp only [Prog.wp_bind]
      exact hsend

/-- Once the statement is through, whatever follows is free. -/
theorem wp_through {g : Stage} {p : Task α} (hp : p.Only Aside) :
    p.wp (once T retries) (fun _ _ => True) g :=
  wp_aside hp fun _ => trivial

theorem wp_once_hostgroup {hg ttl : Nat} :
    (routeHostgroup pool hg ttl effectiveSql bytes T rt).wp (once T retries) (fun _ _ => True)
      .fresh := by
  have hmiss : (askHostgroup pool hg ttl effectiveSql bytes T rt none).wp (once T retries) (fun _ _ => True)
      .fresh := by
    rw [askHostgroup]
    simp only [Prog.wp_bind]
    refine wp_aside (aside_pool (PoolRef.only_getHostgroup hg)) fun got => ?_
    rcases got with e | ⟨c, putIdx⟩
    · trivial
    rw [runOnHostgroup]
    simp only [Prog.wp_bind]
    refine wp_execute_fresh (fun response => ?_) fun e => ?_
    · refine wp_through (Prog.only_bind (aside_pool (PoolRef.only_giveBack c putIdx)) fun _ => ?_)
      refine Prog.only_ite (Prog.only_bind (only_act rfl) fun _ => Prog.only_done _) ?_
      exact Prog.only_ite (Prog.only_bind (only_act rfl) fun _ => Prog.only_done _) (Prog.only_done _)
    · exact wp_through (Prog.only_bind (only_act rfl) fun _ => Prog.only_done _)
  rw [routeHostgroup]
  dsimp only
  refine Prog.wp_ite (fun _ => ⟨trivial, ?_⟩) fun _ => hmiss
  rintro cached g' rfl
  rcases cached with _ | b
  · exact hmiss
  · trivial

theorem wp_once_retryReplica {c : ConnId} {idx : Option Nat} {e : Str} :
    (retryReplica pool bytes rt c idx e).wp (once T true) (fun _ _ => True)
      (if isConnectionLost e then .lost else .done) := by
  rw [retryReplica]
  simp only [Prog.wp_bind]
  refine wp_aside (aside_pool (PoolRef.only_recordReplica idx false)) fun _ => Prog.wp_ite (fun he => ?_) fun _ => ?_
  · rw [if_pos he]
    simp only [Prog.wp_bind]
    refine wp_aside (only_act rfl) fun _ => wp_aside (aside_pool PoolRef.only_getReplica) fun again => ?_
    rcases again with e' | ⟨fresh, freshIdx⟩
    · trivial
    simp only [Prog.wp_bind]
    refine wp_aside (only_replay _ _ _) fun _ => wp_executeQuery_lost fun r => ?_
    rcases r with e' | response
    · exact wp_through (Prog.only_bind (only_act rfl) fun _ => Prog.only_done _)
    · exact wp_through (Prog.only_bind (aside_pool (PoolRef.only_recordReplica freshIdx true)) fun _ =>
        Prog.only_bind (aside_pool (PoolRef.only_giveBack fresh freshIdx)) fun _ => Prog.only_done _)
  · exact wp_through (Prog.only_bind (only_act rfl) fun _ => Prog.only_done _)

theorem wp_once_replica {cacheAllowed : Bool} :
    (routeReplica pool effectiveSql bytes T cacheAllowed m rt).wp (once T true) (fun _ _ => True)
      .fresh := by
  rw [routeReplica]
  simp only [Prog.wp_bind]
  refine wp_aside (aside_pool PoolRef.only_getReplica) fun got => ?_
  rcases got with e | ⟨c, idx⟩
  · trivial
  simp only [Prog.wp_bind]
  refine wp_aside (only_replay _ _ _) fun _ => wp_execute_fresh (fun response => ?_) fun e => ?_
  · refine wp_through (Prog.only_bind (aside_pool (PoolRef.only_recordReplica idx true)) fun _ =>
      Prog.only_bind (aside_pool (PoolRef.only_giveBack c idx)) fun _ => ?_)
    have hmirror := only_mirrored m effectiveSql response
    exact Prog.only_ite (Prog.only_bind (only_act rfl) fun _ => hmirror) hmirror
  · exact wp_once_retryReplica

theorem wp_once_retry : (retryPrimary pool bytes rt).wp (once T true) (fun _ _ => True) .lost := by
  rw [retryPrimary]
  simp only [Prog.wp_bind]
  refine wp_aside (aside_pool PoolRef.only_getPrimary) fun again => ?_
  rcases again with e | fresh
  · trivial
  simp only [Prog.wp_bind]
  refine wp_aside (only_replay _ _ _) fun _ => wp_executeQuery_lost fun r => ?_
  rcases r with e | response
  · exact wp_through (Prog.only_bind (only_act rfl) fun _ => Prog.only_done _)
  · exact wp_through (Prog.only_bind (only_act rfl) fun _ =>
      Prog.only_bind (aside_pool (PoolRef.only_putPrimary fresh)) fun _ => Prog.only_done _)

theorem wp_once_primary :
    (routePrimary pool effectiveSql bytes T m rt).wp (once T true) (fun _ _ => True) .fresh := by
  rw [routePrimary]
  simp only [Prog.wp_bind]
  refine wp_aside (aside_pool PoolRef.only_getPrimary) fun got => ?_
  rcases got with e | c
  · trivial
  simp only [Prog.wp_bind]
  refine wp_aside (only_replay _ _ _) fun _ => wp_execute_fresh (fun response => ?_) fun e => ?_
  · refine wp_through (Prog.only_bind (only_act rfl) fun _ =>
      Prog.only_bind (aside_pool (PoolRef.only_putPrimary c)) fun _ => ?_)
    have hmirror := only_mirrored m effectiveSql response
    exact Prog.only_ite hmirror (Prog.only_bind (only_act rfl) fun _ => hmirror)
  · simp only [Prog.wp_bind]
    refine wp_aside (only_act rfl) fun _ => Prog.wp_ite (fun he => ?_) fun _ => ?_
    · rw [if_pos he]
      simp only [Prog.wp_bind]
      exact wp_aside (only_act rfl) fun _ => wp_once_retry
    · exact wp_through (Prog.only_bind (only_act rfl) fun _ => Prog.only_done _)

theorem wp_once_split :
    (routeSplit pool effectiveSql bytes T m rt).wp (once T true) (fun _ _ => True) .fresh := by
  have hmiss : ((if (splitChoice m rt.useReplica).1 then
        routeReplica pool effectiveSql bytes T (splitChoice m rt.useReplica).2 m rt
      else routePrimary pool effectiveSql bytes T m rt) : Task (Except Str Response)).wp
        (once T true) (fun _ _ => True) .fresh :=
    Prog.wp_ite (fun _ => wp_once_replica) fun _ => wp_once_primary
  rw [routeSplit]
  dsimp only
  refine Prog.wp_ite (fun _ => ⟨trivial, ?_⟩) fun _ => hmiss
  rintro cached g' rfl
  rcases cached with _ | b
  · exact hmiss
  · trivial

theorem wp_once_dispatch :
    (dispatch pool effectiveSql bytes T rt).wp (once T true) (fun _ _ => True) .fresh := by
  rw [dispatch]
  simp only [Prog.wp_bind]
  refine wp_aside (only_act rfl) fun m => ?_
  rcases m with _ | r
  · exact wp_once_split
  · refine Prog.wp_ite (fun _ => trivial) fun _ => ?_
    split
    · exact wp_once_hostgroup
    · exact wp_once_split

/-- `route_query_inner` keeps the contract; only outside a transaction does it retry. -/
theorem wp_once_inner {sql : Bytes} {txConn : Option ConnId} {inTransaction : Bool} :
    (routeQueryInner sql txConn inTransaction rt).wp (once T !inTransaction) (fun _ _ => True)
      .fresh := by
  unfold routeQueryInner routeAutocommit
  simp only [Prog.wp_bind]
  refine wp_aside (only_act rfl) fun pool => ?_
  cases inTransaction with
  | true => exact wp_once_inTx
  | false =>
    simp only [Bool.false_eq_true, if_false, Prog.wp_bind]
    refine ⟨trivial, ?_⟩
    rintro timeoutMs g' ⟨rfl, rfl⟩
    refine wp_aside (only_act rfl) fun outcome => ?_
    cases outcome with
    | blocked msg => trivial
    | rewritten s => exact Prog.wp_mono wp_once_dispatch fun _ _ _ => trivial
    | unchanged => exact Prog.wp_mono wp_once_dispatch fun _ _ _ => trivial

end Once

/-! ## At most once -/

section AtMostOnce

variable {world : Nat → (o : Op) → Res o} {attempts : Nat → Attempt} {T : Nat}

variable (world attempts) in
/-- Only the client's exchanges are counted. -/
theorem handle_aside (t : Tries) (o : Op) (ho : Aside o) :
    (t.handle world attempts o).1.used = t.used ∧
      (t.handle world attempts o).1.executed = t.executed := by
  cases o with
  | talk who via c p limit =>
    cases who with
    | client => cases ho
    | _ => exact ⟨rfl, rfl⟩
  | _ => exact ⟨rfl, rfl⟩

/-- Under the timer the route uses, an answer counts as lost when its attempt looks lost. -/
theorem looksLost_of_answersLost {limit : Option Nat} {a : Attempt}
    (hlimit : ∀ ms ∈ limit, ms = T ∧ 0 < T) (h : answersLost limit a.outcome = true) :
    a.looksLost T = true := by
  unfold Attempt.looksLost Attempt.errorText
  rcases hout : a.outcome with (e | _) | resp
  · rw [hout] at h
    exact h
  · rw [hout] at h
    cases limit with
    | none => cases h
    | some ms =>
      obtain ⟨rfl, hT⟩ := hlimit ms rfl
      simpa [answersLost, hT] using h
  · rw [hout] at h
    cases h

/-- The count that goes with a stage. -/
def Tries.At (attempts : Nat → Attempt) (T : Nat) (t : Tries) : Stage → Prop
  | .fresh => t.used = 0 ∧ t.executed = 0
  | .lost => t.used = 1 ∧ t.executed = (attempts 0).executed.toNat ∧ (attempts 0).looksLost T = true
  | .done => t.executed ≤ 1

/-- One operation keeps the count that goes with the stage, unless a statement that was executed is
executed once more. -/
theorem Tries.At.handle {retries : Bool} {t : Tries} {g : Stage} {o : Op} (ht : t.At attempts T g)
    (hworld : ∀ n, world n .maxQueryTime = T)
    (honce : retries = true → (attempts 0).looksLost T = true → (attempts 0).executed = true →
      (attempts 1).executed = false)
    (howes : (once T retries).owes g o) :
    ∃ g', (once T retries).step g o (t.handle world attempts o).2 g' ∧
      (t.handle world attempts o).1.At attempts T g' := by
  have hkeep : Aside o → (t.handle world attempts o).1.At attempts T g := by
    intro ho
    obtain ⟨hused, hexec⟩ : (t.handle world attempts o).1.used = t.used ∧ _ := handle_aside world attempts t o ho
    cases g <;> simpa only [Tries.At, hused, hexec] using ht
  cases o with
  | talk who via c p limit =>
    cases who with
    | client =>
      refine ⟨_, rfl, ?_⟩
      obtain ⟨hstage, hlimit⟩ := howes
      rcases hstage with rfl | ⟨rfl, hretries⟩
      · obtain ⟨hused, hexec⟩ := ht
        have h0 : (attempts 0).executed.toNat ≤ 1 := Bool.toNat_le _
        rw [Stage.next]
        by_cases hlost : answersLost limit (t.handle world attempts (.talk .client via c p limit)).2 = true
        · rw [if_pos hlost]
          simp only [Tries.handle, hused] at hlost
          simp only [Tries.At, Tries.handle, hused, hexec]
          exact ⟨trivial, by omega, looksLost_of_answersLost hlimit hlost⟩
        · rw [if_neg hlost]
          simp only [Tries.At, Tries.handle, hused, hexec]
          omega
      · obtain ⟨hused, hexec, hlost⟩ := ht
        simp only [Stage.next, Tries.At, Tries.handle, hused, hexec]
        have h1 : (attempts 1).executed.toNat ≤ 1 := Bool.toNat_le _
        cases hfirst : (attempts 0).executed with
        | true => simp [honce hretries hlost hfirst]
        | false => simpa using h1
    | _ => exact ⟨g, rfl, hkeep rfl⟩
  | maxQueryTime => exact ⟨g, ⟨hworld _, rfl⟩, hkeep rfl⟩
  | _ => exact ⟨g, rfl, hkeep rfl⟩

/-- A world in which the statement goes to a healthy primary. -/
def steady (T : Nat) (_ : Nat) : (o : Op) → Res o
  | .maxQueryTime => T
  | .matchQuery .. => some ⟨.primary, 0, none, false, false⟩
  | o => atEase o

variable (world attempts) in
/-- The replayed statements are not counted. -/
theorem run_replay (via : Via) (c : ConnId) (sqls : List Str) (t : Tries) :
    ∃ n, (replaySessionVars via c sqls).runWith (Tries.handle world attempts) t =
      (⟨n, t.used, t.executed⟩, ()) := by
  refine ⟨_, Prod.ext (?_ : _ = Tries.mk
    ((replaySessionVars via c sqls).runWith (Tries.handle world attempts) t).1.steps _ _) rfl⟩
  have hused := Prog.runWith_of_only (f := Tries.used)
    (fun s o ho => (handle_aside world attempts s o ho).1)
    (only_replay via c sqls) t
  have hexec := Prog.runWith_of_only (f := Tries.executed)
    (fun s o ho => (handle_aside world attempts s o ho).2)
    (only_replay via c sqls) t
  rw [← hused, ← hexec]

variable (world) in
/-- An attempt that looks lost is taken for a lost connection. -/
theorem run_execute_lost (c : ConnId) (sql : Bytes) (t : Tries)
    (hlost : (attempts t.used).looksLost T = true) :
    ∃ n e, isConnectionLost e = true ∧
      (execute c sql T).runWith (Tries.handle world attempts) t =
        (⟨n, t.used + 1, t.executed + (attempts t.used).executed.toNat⟩, .error e) := by
  unfold Attempt.looksLost Attempt.errorText at hlost
  unfold execute executeTimed executeQuery
  by_cases hT : 0 < T
  · rw [if_pos hT]
    rcases hout : (attempts t.used).outcome with (e | _) | resp
    · rw [hout] at hlost
      exact ⟨_, e, hlost, by simp [Tries.handle, hout]; rfl⟩
    · rw [hout] at hlost
      exact ⟨_, killedError T, by simpa [hT] using hlost, by simp [Tries.handle, hout]; rfl⟩
    · rw [hout] at hlost
      cases hlost
  · rw [if_neg hT]
    rcases hout : (attempts t.used).outcome with (e | _) | resp
    · rw [hout] at hlost
      exact ⟨_, e, hlost, by simp [Tries.handle, hout, Except.mapError, TalkError.text]; rfl⟩
    · rw [hout] at hlost
      simp only [hT, if_false] at hlost
      cases hlost
    · rw [hout] at hlost
      cases hlost

/-- The retry of a steady world executes the statement as its attempt says. -/
theorem run_retry_steady {bytes : Bytes} {rt : Route} (t : Tries) :
    ((retryPrimary ⟨0, []⟩ bytes rt).runWith (Tries.handle (steady T) attempts) t).1.executed =
      t.executed + (attempts t.used).executed.toNat := by
  obtain ⟨n, hreplay⟩ := run_replay (steady T) attempts .loan 0
    rt.sessionInitSqls ⟨t.steps + 4, t.used, t.executed⟩
  have hget : (PoolRef.getPrimaryForDatabase ⟨0, []⟩ rt.database).runWith
      (Tries.handle (steady T) attempts) t = (⟨t.steps + 4, t.used, t.executed⟩, .ok 0) := rfl
  unfold retryPrimary executeQuery
  simp only [Prog.runWith_bind, hget, hreplay, Prog.runWith_perform, Tries.handle, Prog.pure_eq,
    Prog.runWith_done]
  rcases (attempts t.used).outcome with e | resp <;> rfl

/-- In a steady world a first exchange that looks lost is followed by a second one. -/
theorem run_primary_steady (effectiveSql : Str) (bytes : Bytes) (m : Option RuleMatch) (rt : Route)
    (t : Tries) (hlost : (attempts t.used).looksLost T = true) :
    ((routePrimary ⟨0, []⟩ effectiveSql bytes T m rt).runWith (Tries.handle (steady T) attempts)
      t).1.executed =
      t.executed + (attempts t.used).executed.toNat + (attempts (t.used + 1)).executed.toNat := by
  obtain ⟨n, hreplay⟩ := run_replay (steady T) attempts .loan 0
    rt.sessionInitSqls ⟨t.steps + 4, t.used, t.executed⟩
  obtain ⟨n', e, he, hexec⟩ := run_execute_lost (steady T) 0
    bytes ⟨n, t.used, t.executed⟩ hlost
  have hget : (PoolRef.getPrimaryForDatabase ⟨0, []⟩ rt.database).runWith
      (Tries.handle (steady T) attempts) t = (⟨t.steps + 4, t.used, t.executed⟩, .ok 0) := rfl
  rw [routePrimary]
  simp only [Prog.runWith_bind, hget, hreplay, hexec, he, if_true, Prog.runWith_perform]
  exact run_retry_steady _

theorem executions_steady {sql : Bytes} {txConn : Option ConnId} {rt : Route}
    (hlost : (attempts 0).looksLost T = true) :
    executions (steady T) attempts sql txConn false rt =
      (attempts 0).executed.toNat + (attempts 1).executed.toNat := by
  have hroute := run_primary_steady (textOf sql) sql (some ⟨.primary, 0, none, false, false⟩) rt ⟨4, 0, 0⟩
    hlost
  rw [Nat.zero_add] at hroute
  rw [← hroute]
  unfold executions routeQueryInner routeAutocommit
  simp only [Prog.runWith_bind, Prog.runWith_perform, Bool.false_eq_true, if_false, Prog.pure_eq,
    Prog.runWith_done]
  rfl

/-- For a given first and second attempt at the client's statement, the statement is executed at most
once whatever pool, rules and connections it meets, exactly unless it is outside a transaction, the
first attempt executes it, the error of that attempt reads like a lost connection, and the second
attempt executes it too. -/
theorem executed_at_most_once (attempts : Nat → Attempt) (T : Nat) (sql : Bytes)
    (txConn : Option ConnId) (inTransaction : Bool) (rt : Route) :
    (∀ world : Nat → (o : Op) → Res o, (∀ n, world n .maxQueryTime = T) →
      executions world attempts sql txConn inTransaction rt ≤ 1) ↔
    ¬(inTransaction = false ∧ (attempts 0).executed = true ∧ (attempts 0).looksLost T = true ∧
      (attempts 1).executed = true) := by
  constructor
  · rintro honce ⟨rfl, hfirst, hlost, hsecond⟩
    have htwice := honce (steady T) fun _ => rfl
    rw [executions_steady hlost, hfirst, hsecond] at htwice
    exact absurd htwice (by decide)
  · intro hnot world hworld
    have hsecond : (!inTransaction) = true → (attempts 0).looksLost T = true →
        (attempts 0).executed = true → (attempts 1).executed = false := by
      intro hin hlost hfirst
      by_contra h
      exact hnot ⟨by simpa using hin, hfirst, hlost, by simpa using h⟩
    have honce : (routeQueryInner sql txConn inTransaction rt).wp (once T !inTransaction)
        (fun _ _ => True) .fresh := wp_once_inner
    obtain ⟨g, -, hcount⟩ := Prog.wp_runWith
      (fun t g o (ht : Tries.At attempts T t g) howes => ht.handle hworld hsecond howes)
      honce (s := ⟨0, 0, 0⟩) ⟨rfl, rfl⟩
    have h0 : (attempts 0).executed.toNat ≤ 1 := Bool.toNat_le _
    cases g with
    | fresh => exact Nat.le_trans (Nat.le_of_eq hcount.2) (by decide)
    | lost => exact Nat.le_trans (Nat.le_of_eq hcount.2.1) h0
    | done => exact hcount

/-- An `INSERT` whose reply is cut off after the server executed it, and which goes through when it is
sent again. -/
def insertThenEof : Nat → Attempt
  | 0 => ⟨some (.lost "unexpected eof".toList true), ⟨[], false, [], none⟩⟩
  | _ => ⟨none, ⟨[], false, [], none⟩⟩

/-- The `INSERT` is executed twice. -/
theorem insert_executed_twice :
    classify "INSERT INTO t VALUES (1)".toList = .write ∧
      executions (steady 0) insertThenEof (asciiBytes "INSERT INTO t VALUES (1)") none false
        ⟨false, [], [], [], none⟩ = 2 := by
  decide +kernel

end AtMostOnce

end TurbineProxy
