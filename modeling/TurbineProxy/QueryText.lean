import TurbineProxy.RouteOps
import TurbineProxy.MysqlSteps
import TurbineProxy.PgSession
import TurbineProxy.Utf8

/-!
# The query in hand

What the sessions and the router do with the text of a query, whatever the pools, the rules, the cache
and the servers answer. The checks look at a text, the backends get bytes: `InHand` is the pair of the
two, and `Carriage.contract` says that every decision on the way is made on that text, that those bytes
are what is sent, and that only a rewrite changes the pair. Besides the query, only remembered
statements are sent.

`wp_carry_routeQueryInner` is that fact for the router, `MysqlSession.wp_carry_query` and
`PgSession.wp_carry_query` for the sessions: the query is sent only if it was `admitted`.
-/

namespace TurbineProxy

open Str

/-- A query on its way to a backend. -/
structure InHand where
  /-- what the checks look at -/
  text : Str
  /-- what is sent -/
  bytes : Bytes

/-- A query as it came from the client. -/
def InHand.received (bytes : Bytes) : InHand := ⟨textOf bytes, bytes⟩

/-- A query as a rewrite left it. -/
def InHand.rewritten (sql : Str) : InHand := ⟨sql, toUtf8 sql⟩

/-- What a session lets through. -/
structure Carriage where
  /-- the statements it may replay on a fresh connection -/
  replayed : Str → Prop
  /-- the query may be sent -/
  admitted : Prop

/-- The contract of a program with a query in hand. Only a query that may be sent is rewritten; a rule
that asks for fast-forward is only met by such a query. -/
def Carriage.contract (C : Carriage) : Protocol Op Res InHand where
  owes g o := match o with
    | .rewrite sql => C.admitted ∧ sql = g.text
    | .matchQuery sql _ _ => sql = g.text
    | .cacheInvalidate sql => sql = g.text
    | .mirror _ sql => C.admitted ∧ sql = g.text
    | .talk .client _ _ p _ => C.admitted ∧ p = .text g.bytes
    | .talk .replay _ _ p _ => ∃ sql, C.replayed sql ∧ p = .text (toUtf8 sql)
    | .talk .probe .. => True
    | .talk .. => False
    | _ => True
  step g o r g' := match o, r with
    | .rewrite _, (.rewritten sql : RewriteOutcome) => g' = .rewritten sql
    | .matchQuery .., (m : Option RuleMatch) =>
      g' = g ∧ (m.elim false (·.fastForward) = true → C.admitted)
    | _, _ => g' = g

section Carry

variable {C : Carriage} {g : InHand} {α : Type}

theorem carry_silent (C : Carriage) (g : InHand) (o : Op) (ho : Silent o) :
    C.contract.owes g o ∧ ∀ r g', C.contract.step g o r g' → g' = g := by
  cases o <;> first | exact ⟨trivial, fun r g' h => h⟩ | cases ho

/-- What says nothing of any statement is free. -/
theorem wp_silent {p : Task α} (hp : p.Only Silent) {Q : α → InHand → Prop} (hQ : ∀ a, Q a g) :
    p.wp C.contract Q g :=
  Prog.wp_of_only (carry_silent C g) hp hQ

/-- A route that carries the query in hand. -/
theorem wp_carried (hadm : C.admitted) {sqls : List Str} (hsqls : ∀ sql ∈ sqls, C.replayed sql)
    {p : Task α} (hp : p.Only (Carries g.text g.bytes sqls)) {Q : α → InHand → Prop} (hQ : ∀ a, Q a g) :
    p.wp C.contract Q g := by
  refine Prog.wp_of_only (fun o ho => ?_) hp hQ
  cases o with
  | talk who via c p limit =>
    refine ⟨?_, fun r g' h => h⟩
    cases who with
    | client => exact ⟨hadm, ho⟩
    | replay =>
      obtain ⟨sql, hsql, hp⟩ := ho
      exact ⟨sql, hsqls sql hsql, hp⟩
    | _ => cases ho
  | mirror addr sql => exact ⟨⟨hadm, ho⟩, fun r g' h => h⟩
  | cacheInvalidate sql => exact ⟨ho, fun r g' h => h⟩
  | rewrite sql => cases ho
  | matchQuery sql user schema => cases ho
  | _ => exact ⟨trivial, fun r g' h => h⟩

theorem wp_carry_probe {via : Via} {c : ConnId} {sql : Bytes} {Q : Except Str Response → InHand → Prop}
    (hQ : ∀ r, Q r g) : (executeQuery .probe via c sql).wp C.contract Q g := by
  refine ⟨trivial, fun r g' hg => ?_⟩
  rw [(hg : g' = g)]
  exact hQ _

/-! ## The router -/

section Routes

variable {pool : PoolRef} {rt : Route} {timeoutMs : Nat}
  (hadm : C.admitted) (hsqls : ∀ sql ∈ rt.sessionInitSqls, C.replayed sql)

include hadm hsqls in
theorem wp_carry_dispatch {Q : Except Str Response → InHand → Prop} (hQ : ∀ r, Q r g) :
    (dispatch pool g.text g.bytes timeoutMs rt).wp C.contract Q g := by
  rw [dispatch]
  simp only [Prog.wp_bind]
  refine ⟨rfl, fun m g' hg => ?_⟩
  rw [hg.1]
  rcases m with _ | m
  · exact wp_carried hadm hsqls routeSplit_carries hQ
  · refine Prog.wp_ite (fun _ => hQ _) fun _ => ?_
    rcases m with ⟨_ | _ | _ | hg, ttl, mirror, limited, ff⟩
    · exact wp_carried hadm hsqls routeSplit_carries hQ
    · exact wp_carried hadm hsqls routeSplit_carries hQ
    · exact wp_carried hadm hsqls routeSplit_carries hQ
    · exact wp_carried hadm hsqls routeHostgroup_carries hQ

include hadm hsqls in
theorem wp_carry_autocommit {sql : Bytes} {Q : Except Str Response → InHand → Prop}
    (hQ : ∀ r g', Q r g') : (routeAutocommit pool sql rt).wp C.contract Q (.received sql) := by
  rw [routeAutocommit]
  simp only [Prog.wp_bind]
  refine wp_silent (silent_act rfl) fun timeoutMs => ⟨⟨hadm, rfl⟩, fun outcome g' hg => ?_⟩
  rcases outcome with _ | s | msg
  · rw [(hg : g' = .received sql)]
    exact wp_carry_dispatch hadm hsqls fun r => hQ r _
  · rw [(hg : g' = .rewritten s)]
    exact wp_carry_dispatch hadm hsqls fun r => hQ r _
  · exact hQ _ _

include hadm hsqls in
/-- The router sends the query in hand, and decides on its text. -/
theorem wp_carry_routeQueryInner {sql : Bytes} {txConn : Option ConnId} {inTransaction : Bool}
    {Q : Option ConnId × Except Str Response → InHand → Prop} (hQ : ∀ r g', Q r g') :
    (routeQueryInner sql txConn inTransaction rt).wp C.contract Q (.received sql) := by
  rw [routeQueryInner]
  simp only [Prog.wp_bind]
  refine wp_silent (silent_act rfl) fun pool => Prog.wp_ite (fun _ => ?_) fun _ => ?_
  · exact wp_carried (g := .received sql) hadm hsqls (carries_hands routeInTx_hands) fun r => hQ r _
  · simp only [Prog.wp_bind]
    exact wp_carry_autocommit hadm hsqls fun r g' => hQ _ g'

end Routes

end Carry

/-! ## Refusals -/

/-- The checks of the MySQL session. -/
def MysqlConfig.refuses (cfg : MysqlConfig) (allowWrites : Bool) (sql : Str) : Bool :=
  !allowWrites && classify sql == .write || cfg.sqliMatches sql || !cfg.whitelistAllows sql

/-- The checks of the PostgreSQL session. -/
def PgConfig.refuses (cfg : PgConfig) (allowWrites : Bool) (sql : Str) : Bool :=
  !allowWrites && classify sql == .write || cfg.sqliMatches sql || !cfg.whitelistAllows sql

theorem MysqlSession.refuses_of_localAnswer {cfg : MysqlConfig} {st : MysqlSession} {q : Query}
    (hq : q.intent = classify q.sql) (h : st.localAnswer cfg q = none) :
    cfg.refuses st.allowWrites q.sql = false := by
  rw [localAnswer] at h
  rw [hq] at h
  dsimp only at h
  rw [MysqlConfig.refuses]
  split at h
  · cases h
  · rename_i hwrite
    split at h
    · cases h
    · split at h
      · cases h
      · rename_i hsqli
        split at h
        · cases h
        · rename_i hlist
          simp [Bool.not_eq_true] at hwrite hsqli hlist ⊢
          exact ⟨⟨hwrite, hsqli⟩, hlist⟩

theorem PgSession.refusal_eq_none {cfg : PgConfig} {st : PgSession} {sql : Str} :
    st.refusal cfg sql = none ↔ cfg.refuses st.allowWrites sql = false := by
  unfold refusal PgConfig.refuses
  cases h₁ : !st.allowWrites && classify sql == .write <;> cases h₂ : cfg.sqliMatches sql <;>
    cases h₃ : cfg.whitelistAllows sql <;> simp

/-! ## The MySQL session -/

namespace MysqlSession

/-- What a turn leaves: the right to write and the statement map as they were, and nothing remembered
that may not be replayed. -/
structure Carried (C : Carriage) (st st' : MysqlSession) : Prop where
  /-- the right to write -/
  allowWrites : st'.allowWrites = st.allowWrites
  /-- the statement map -/
  shadow : st'.shadow = st.shadow
  /-- the remembered statements -/
  remembered : ∀ sql ∈ st'.sessionInitSqls, C.replayed sql

variable {C : Carriage} {cfg : MysqlConfig} {st st₀ : MysqlSession} {g : InHand}

theorem Same.carried {st' : MysqlSession} (hs : Same st st') (h : Carried C st₀ st) :
    Carried C st₀ st' :=
  ⟨hs.allowWrites.trans h.allowWrites, hs.shadow.trans h.shadow, by
    rw [hs.sessionInitSqls]
    exact h.remembered⟩

/-- What the session may come to remember: the query, and the variables a backend reports. -/
structure Remembers (C : Carriage) (cfg : MysqlConfig) (sql : Str) : Prop where
  /-- the query -/
  query : (needsHardPin sql || isReplayableSessionStmt sql) = true → C.replayed sql
  /-- a reported variable -/
  change : ∀ name value : Str,
    C.replayed ("SET SESSION ".toList ++ name ++ "=".toList ++ cfg.debugStr value)

theorem Carried.noteSessionState (h : Carried C st₀ st) {sql : Str} (hr : Remembers C cfg sql) :
    Carried C st₀ (st.noteSessionState sql) := by
  have hmem : ∀ s ∈ st.sessionInitSqls ++ [sql],
      (needsHardPin sql || isReplayableSessionStmt sql) = true → C.replayed s := by
    intro s hs hnoted
    rcases List.mem_append.mp hs with hs | hs
    · exact h.remembered s hs
    · rw [List.mem_singleton.mp hs]
      exact hr.query hnoted
  have hinner : Carried C st₀
      (if (needsHardPin sql || (!needsHardPin sql && isReplayableSessionStmt sql)) &&
        !st.sessionInitSqls.contains sql then
        { st with sessionInitSqls := st.sessionInitSqls ++ [sql] } else st) := by
    split
    · rename_i hnoted
      refine ⟨h.allowWrites, h.shadow, fun s hs => hmem s hs ?_⟩
      cases hp : needsHardPin sql <;> simp_all
    · exact h
  rw [MysqlSession.noteSessionState]
  by_cases hp : needsHardPin sql = true
  · exact (if_pos hp).symm ▸ ⟨hinner.allowWrites, hinner.shadow, hinner.remembered⟩
  · exact (if_neg hp).symm ▸ hinner

theorem Carried.noteChanges (h : Carried C st₀ st) {sql : Str} (hr : Remembers C cfg sql)
    (changes : List (Str × Str)) : Carried C st₀ (st.noteChanges cfg changes) := by
  rw [MysqlSession.noteChanges]
  refine List.foldlRecOn changes _ h fun st₁ h₁ c _ => ?_
  dsimp only
  split
  · exact h₁
  · refine ⟨h₁.allowWrites, h₁.shadow, fun s hs => ?_⟩
    rcases List.mem_append.mp hs with hs | hs
    · exact h₁.remembered s hs
    · rw [List.mem_singleton.mp hs]
      exact hr.change c.1 c.2

theorem Carried.noteGtid (h : Carried C st₀ st) {q : Query} {response : Response} :
    Carried C st₀ (st.noteGtid cfg q response) := by
  rw [MysqlSession.noteGtid]
  split
  · split
    · exact h
    · exact ⟨h.allowWrites, h.shadow, h.remembered⟩
  · exact h

/-- A step without text keeps what is carried. -/
theorem wp_same {p : Task MysqlSession} (hp : p.Does Silent (Same st)) (h : Carried C st₀ st)
    {Q : MysqlSession → InHand → Prop} (hQ : ∀ st', Carried C st₀ st' → Q st' g) : p.wp C.contract Q g :=
  Prog.wp_of_does (carry_silent C g) hp fun st' hs => hQ st' (hs.carried h)

theorem wp_carry_afterRoute {q : Query} {r : Except Str Response} (h : Carried C st₀ st)
    (hr : Remembers C cfg q.sql) :
    (st.afterRoute cfg q r).wp C.contract (fun st' _ => Carried C st₀ st') g := by
  have hrest : ∀ st₁, Carried C st₀ st₁ → ((do
      let st ← st₁.touchTx
      st.settle cfg q r) : Task MysqlSession).wp C.contract
        (fun st' _ => Carried C st₀ st') g := by
    intro st₁ h₁
    simp only [Prog.wp_bind]
    refine wp_same touchTx_does h₁ fun st₂ h₂ => ?_
    rcases r with e | response
    · exact wp_same (afterError_does q e) h₂ fun _ h₃ => h₃
    · exact wp_same (afterResponse_does q response) ((h₂.noteGtid).noteChanges hr _) fun _ h₃ => h₃
  have hopen : (st.openRyow cfg q r).Does Silent (Carried C st₀) := by
    refine Prog.does_ite (fun _ => ⟨rfl, fun now => ?_⟩) fun _ => h
    exact ⟨h.allowWrites, h.shadow, h.remembered⟩
  rw [afterRoute]
  rw [Prog.wp_bind]
  exact Prog.wp_of_does (carry_silent C g) hopen hrest

section Query

variable {q : Query} (hadm : C.admitted) (hr : Remembers C cfg q.sql)

include hadm hr in
theorem wp_carry_routeNormally {ryow : Bool} (h : Carried C st₀ st) :
    (st.routeNormally cfg q ryow).wp C.contract (fun st' _ => Carried C st₀ st') (.received q.bytes) := by
  rw [routeNormally]
  simp only [Prog.wp_bind]
  refine wp_carry_routeQueryInner hadm ?_ fun r g' => wp_carry_afterRoute ?_ hr
  · exact h.remembered
  · exact ⟨h.allowWrites, h.shadow, h.remembered⟩

include hadm hr in
theorem wp_carry_routeAllowed {ryow : Bool} (h : Carried C st₀ st) :
    (st.routeAllowed cfg q ryow).wp C.contract (fun st' _ => Carried C st₀ st') (.received q.bytes) := by
  rw [routeAllowed]
  simp only [Prog.wp_bind]
  refine wp_same (applyHint_does q.sql) h fun st₁ h₁ => ?_
  refine Prog.wp_ite (fun _ => ?_) fun _ => wp_carry_routeNormally hadm hr h₁
  rw [routeHinted]
  simp only [Prog.wp_bind]
  refine wp_carried (g := .received q.bytes) hadm (List.forall_mem_nil _)
    (carries_hands routeStickyQuery_hands) fun r => ?_
  obtain ⟨c, idx, r⟩ := r
  have h₂ : Carried C st₀ { st₁ with stickyHintConn := c, stickyHintIdx := idx } :=
    ⟨h₁.allowWrites, h₁.shadow, h₁.remembered⟩
  rcases r with e | response <;> dsimp only
  · refine Prog.wp_ite (fun _ => ?_) fun _ => ?_
    · have hagain : (routeNormally cfg { st₁ with
          stickyHintConn := none, stickyHintIdx := none, stickyHintActive := false } q ryow).wp C.contract
            (fun st' _ => Carried C st₀ st') (.received q.bytes) :=
        wp_carry_routeNormally hadm hr ⟨h₁.allowWrites, h₁.shadow, h₁.remembered⟩
      rcases c with _ | c
      · exact hagain
      · simp only [Prog.wp_bind]
        exact wp_silent (silent_act rfl) fun _ => hagain
    · simp only [Prog.wp_bind]
      exact wp_silent (silent_act rfl) fun _ => wp_silent (silent_act rfl) fun _ => h₂
  · exact Prog.wp_of_does (carry_silent C _) (answer_does _) fun st' hs => hs.same.carried h₂

end Query

/-- The query is sent only if it is not refused. -/
theorem wp_carry_checkedQuery {q : Query} {ryow : Bool} (hq : q.intent = classify q.sql)
    (hadm : cfg.refuses st₀.allowWrites q.sql = false → C.admitted) (hr : Remembers C cfg q.sql)
    (h : Carried C st₀ st) :
    (st.checkedQuery cfg q ryow).wp C.contract (fun st' _ => Carried C st₀ st') (.received q.bytes) := by
  rw [checkedQuery]
  simp only [Prog.wp_bind]
  refine wp_silent overTime_only fun late => Prog.wp_ite (fun _ => ?_) fun _ => ?_
  · exact wp_same (killTx_does _ _) h fun _ h' => h'
  simp only [Prog.wp_bind]
  refine wp_silent overIdle_only fun stale => Prog.wp_ite (fun _ => ?_) fun _ => ?_
  · refine wp_same (killTx_does _ _) ?_ fun _ h' => h'
    exact ⟨h.allowWrites, h.shadow, h.remembered⟩
  · rcases hlocal : st.localAnswer cfg q with _ | ⟨m, strict⟩
    · refine wp_carry_routeAllowed (hadm ?_) hr h
      rw [← h.allowWrites]
      exact refuses_of_localAnswer hq hlocal
    · have hanswer : ((do
          let _ : Bool ← act (.toClient m)
          let sent : Bool ← act (.toClient .flush)
          pure (if strict && !sent then st.close else st)) : Task MysqlSession).Does Silent
            fun st' => ∃ b : Bool, st' = if b then st.close else st :=
        ⟨rfl, fun _ => ⟨rfl, fun sent => ⟨_, rfl⟩⟩⟩
      refine Prog.wp_of_does (carry_silent C _) hanswer fun st' hs => ?_
      obtain ⟨b, rfl⟩ := hs
      split
      · exact ⟨h.allowWrites, h.shadow, h.remembered⟩
      · exact h

theorem wp_carry_gtid {gtid : Str} {Q : Bool → InHand → Prop} (hQ : ∀ b, Q b g) :
    (checkReplicaHasGtid gtid).wp C.contract Q g := by
  rw [checkReplicaHasGtid]
  simp only [Prog.wp_bind]
  refine wp_silent (silent_act rfl) fun pool => Prog.wp_ite (fun _ => hQ _) fun _ => ?_
  simp only [Prog.wp_bind]
  refine wp_silent (silent_pool PoolRef.only_getReplica) fun got => ?_
  rcases got with e | ⟨c, idx⟩
  · exact hQ _
  simp only [Prog.wp_bind]
  refine wp_carry_probe fun r => ?_
  rcases r with e | response
  · exact wp_silent (silent_act rfl) fun _ => hQ _
  · simp only [Prog.wp_bind]
    exact wp_silent (silent_pool (PoolRef.only_putReplica c idx)) fun _ => hQ _

theorem wp_carry_slowQuery {bytes : Bytes}
    (hadm : cfg.refuses st.allowWrites (textOf bytes) = false → C.admitted)
    (hr : Remembers C cfg (textOf bytes)) (h : ∀ sql ∈ st.sessionInitSqls, C.replayed sql) :
    (st.slowQuery cfg (textOf bytes) bytes).wp C.contract (fun st' _ => Carried C st st')
      (.received bytes) := by
  have hstart : Carried C st st := ⟨rfl, rfl, h⟩
  have hrest : ∀ (q : Query) (st₁ : MysqlSession) (b : Bool), q.sql = textOf bytes → q.bytes = bytes →
      q.intent = classify q.sql → Carried C st st₁ → ((do
        let st ← (st₁.noteSessionState (textOf bytes)).noteBegin (textOf bytes)
        st.checkedQuery cfg q b) : Task MysqlSession).wp C.contract (fun st' _ => Carried C st st')
          (.received bytes) := by
    rintro q st₁ b hsql rfl hintent h₁
    simp only [Prog.wp_bind]
    refine Prog.wp_of_does (carry_silent C _) (noteBegin_does _) fun st₂ h₂ => ?_
    refine wp_carry_checkedQuery hintent ?_ ?_ (h₂.1.carried (h₁.noteSessionState hr))
    · rw [hsql]
      exact hadm
    · rw [hsql]
      exact hr
  have hgtid : ∀ (q : Query) (st₁ : MysqlSession), Carried C st st₁ →
      (st₁.gtidForcesPrimary cfg q).wp C.contract (fun r g => Carried C st r.1 ∧ g = .received bytes)
        (.received bytes) := by
    intro q st₁ h₁
    rw [gtidForcesPrimary]
    split
    · simp only [Prog.wp_bind]
      refine wp_carry_gtid fun ready => ?_
      cases ready
      · exact ⟨h₁, rfl⟩
      · exact ⟨⟨h₁.allowWrites, h₁.shadow, h₁.remembered⟩, rfl⟩
    · exact ⟨h₁, rfl⟩
  have hexpire : st.expireRyow.wp C.contract (fun st₁ g => Carried C st st₁ ∧ g = .received bytes)
      (.received bytes) := by
    rw [expireRyow]
    split
    · simp only [Prog.wp_bind]
      refine wp_silent (silent_act rfl) fun now => ⟨?_, rfl⟩
      split
      · exact ⟨hstart.allowWrites, hstart.shadow, hstart.remembered⟩
      · exact hstart
    · exact ⟨hstart, rfl⟩
  rw [slowQuery]
  simp only [Prog.wp_bind]
  refine Prog.wp_mono hexpire fun st₁ g₁ h₁ => ?_
  rw [h₁.2]
  refine Prog.wp_mono (hgtid _ st₁ h₁.1) fun r g₂ h₂ => ?_
  rw [h₂.2]
  have hfinal := hrest ⟨textOf bytes, bytes, classify (textOf bytes),
    classify (textOf bytes) == .read && !st.inTransaction⟩ r.1 (r.1.ryowUntil.isSome || r.2) rfl rfl rfl h₂.1
  simp only [Prog.wp_bind] at hfinal
  exact hfinal

/-- **The MySQL session and the query in hand**: a query is sent only if it is admitted, which it has to
be when the session does not refuse it or fast-forwards everything. -/
theorem wp_carry_query {bytes : Bytes} (hfast : cfg.fastForward = true → C.admitted)
    (hadm : cfg.refuses st.allowWrites (textOf bytes) = false → C.admitted)
    (hr : Remembers C cfg (textOf bytes)) (h : ∀ sql ∈ st.sessionInitSqls, C.replayed sql) :
    (st.query cfg bytes).wp C.contract (fun st' _ => Carried C st st') (.received bytes) := by
  have hstart : Carried C st st := ⟨rfl, rfl, h⟩
  have hslow := wp_carry_slowQuery hadm hr h
  rw [query]
  refine Prog.wp_ite (fun hff => ?_) fun _ => ?_
  · rw [fastForward]
    simp only [Prog.wp_bind]
    refine wp_carried (g := .received bytes) (hfast hff) (List.forall_mem_nil _)
      (carries_hands routeFast_hands) fun r => ?_
    have h₁ : Carried C st { st with inTransaction := st.ffFlag (textOf bytes), txConn := r.1 } :=
      ⟨rfl, rfl, h⟩
    refine Prog.wp_ite (fun _ => ?_) fun _ => ?_
    · simp only [Prog.wp_bind]
      refine Prog.wp_of_does (carry_silent C _) releaseTx_does fun st₂ h₂ => ?_
      subst h₂
      exact Prog.wp_of_does (carry_silent C _) (answer_does _) fun st' hs =>
        hs.same.carried ⟨rfl, rfl, h⟩
    · exact Prog.wp_of_does (carry_silent C _) (answer_does _) fun st' hs => hs.same.carried h₁
  · have hrule : ∀ ff : Bool, (ff = true → C.admitted) →
        (if ff then st.ruleFastForward bytes else st.slowQuery cfg (textOf bytes) bytes).wp C.contract
          (fun st' _ => Carried C st st') (.received bytes) := by
      intro ff hff
      refine Prog.wp_ite (fun h₁ => ?_) fun _ => hslow
      rw [ruleFastForward]
      simp only [Prog.wp_bind]
      refine wp_carried (g := .received bytes) (hff h₁) (List.forall_mem_nil _)
        (carries_hands routeFast_hands) fun r => ?_
      exact Prog.wp_of_does (carry_silent C _) (answer_does _) fun st' hs =>
        hs.same.carried ⟨rfl, rfl, h⟩
    refine Prog.wp_ite (fun _ => ?_) fun _ => ?_
    · exact hrule false fun h => by cases h
    · rw [isFastForwardRule]
      simp only [Prog.wp_bind]
      refine ⟨rfl, fun m g' hg => ?_⟩
      rw [hg.1]
      exact hrule _ hg.2

end MysqlSession

/-! ## The PostgreSQL session -/

namespace PgSession

/-- What a turn leaves alone. -/
structure Same (st st' : PgSession) : Prop where
  /-- the right to write -/
  allowWrites : st'.allowWrites = st.allowWrites
  /-- the statement map -/
  shadow : st'.shadow = st.shadow
  /-- the initial statements -/
  sessionInitSqls : st'.sessionInitSqls = st.sessionInitSqls

variable {C : Carriage} {cfg : PgConfig} {st st₀ : PgSession}

theorem Same.trans {st' st'' : PgSession} (h : Same st st') (h' : Same st' st'') : Same st st'' :=
  ⟨h'.1.trans h.1, h'.2.trans h.2, h'.3.trans h.3⟩

theorem flush_does : st.flush.Does Silent (Same st) := by
  refine ⟨rfl, fun sent => ?_⟩
  cases sent <;> exact ⟨rfl, rfl, rfl⟩

theorem refuse_does (code : String) (msg : Str) : (st.refuse code msg).Does Silent (Same st) :=
  ⟨rfl, fun _ => ⟨rfl, fun _ => ⟨rfl, rfl, rfl⟩⟩⟩

theorem releaseTx_does : st.releaseTx.Does Silent (Same st) := by
  rw [releaseTx]
  rcases st.txConn with _ | c
  · exact ⟨rfl, rfl, rfl⟩
  · exact Prog.does_bind (silent_putPrimary c (some st.database)).does fun _ _ => ⟨rfl, rfl, rfl⟩

theorem dropTx_does : st.dropTx.Does Silent (Same st) := by
  rw [dropTx]
  rcases st.txConn with _ | c
  · exact ⟨rfl, rfl, rfl⟩
  · exact ⟨rfl, fun _ => ⟨rfl, rfl, rfl⟩⟩

theorem followStatus_does (status : Option UInt8) : (st.followStatus status).Does Silent (Same st) := by
  unfold followStatus
  rcases status with _ | status
  · exact ⟨rfl, rfl, rfl⟩
  · refine Prog.does_ite (fun _ => ⟨rfl, rfl, rfl⟩) fun _ => ?_
    exact releaseTx_does.mono (fun _ h => h) fun st' h => ⟨h.1, h.2, h.3⟩

theorem ryowActive_only : (st.ryowActive cfg).Only Silent := by
  rw [ryowActive]
  split
  · exact ⟨rfl, fun _ => trivial⟩
  · trivial

theorem outcome_does (sql : Str) (r : Except Str Response) :
    (st.outcome cfg sql r).Does Silent (Same st) := by
  have hanswer : ∀ (st₁ : PgSession) (m : ToClient), Same st st₁ → ((do
      let sent : Bool ← act (.toClient m)
      if sent then st₁.flush else pure st₁.close) : Task PgSession).Does Silent (Same st) := by
    intro st₁ m h
    refine ⟨rfl, fun sent => Prog.does_ite (fun _ => ?_) fun _ => ⟨h.1, h.2, h.3⟩⟩
    exact flush_does.mono (fun _ h => h) fun _ h' => h.trans h'
  rcases r with e | response
  · refine Prog.does_ite (fun _ => ?_) fun _ => ⟨rfl, fun _ => flush_does⟩
    refine Prog.does_bind dropTx_does fun st₁ h => ⟨rfl, fun _ => ?_⟩
    refine flush_does.mono (fun _ h => h) fun _ h' => Same.trans ?_ (h.trans h')
    exact ⟨rfl, rfl, rfl⟩
  · refine Prog.does_ite (fun _ => ⟨rfl, fun now => ?_⟩) fun _ => hanswer st _ ⟨rfl, rfl, rfl⟩
    exact hanswer { st with ryowUntil := some (now + cfg.readYourOwnWritesMs) } _ ⟨rfl, rfl, rfl⟩

theorem wp_carry_metaQuery (hadm : C.admitted) {sql : Bytes} :
    (st.metaQuery sql).wp C.contract (fun st' _ => Same st st') (.received sql) := by
  rw [metaQuery]
  simp only [Prog.wp_bind]
  refine wp_carry_routeQueryInner hadm ?_ fun r g' => ?_
  · simp
  · exact wp_silent (silent_act rfl) fun _ => wp_silent (silent_act rfl) fun _ => ⟨rfl, rfl, rfl⟩

theorem wp_carry_settle {sql : Str} {r : Except Str Response} {g : InHand} :
    (st.settle cfg sql r).wp C.contract (fun st' _ => Same st st') g := by
  have hend : ∀ st₁, Same st st₁ → (st₁.outcome cfg sql r).wp C.contract (fun st' _ => Same st st') g :=
    fun st₁ h => Prog.wp_of_does (carry_silent C g) (outcome_does sql r) fun _ h' => h.trans h'
  rw [settle]
  refine Prog.wp_ite (fun _ => ?_) fun _ => ?_
  · simp only [Prog.wp_bind]
    exact Prog.wp_of_does (carry_silent C g) releaseTx_does fun st₁ h => hend st₁ ⟨h.1, h.2, h.3⟩
  · simp only [Prog.wp_bind]
    exact Prog.wp_of_does (carry_silent C g) (followStatus_does _) fun st₁ h => hend st₁ h

theorem wp_carry_plainQuery (hadm : C.admitted) {sql : Str} {bytes : Bytes} :
    (st.plainQuery cfg sql bytes).wp C.contract (fun st' _ => Same st st') (.received bytes) := by
  have hbegin : Same st (if startsTx sql then { st with inTransaction := true } else st) := by
    split <;> exact ⟨rfl, rfl, rfl⟩
  rw [plainQuery]
  generalize (if startsTx sql then { st with inTransaction := true } else st) = st₁ at hbegin ⊢
  simp only [Prog.wp_bind]
  refine wp_silent ryowActive_only fun ryow => ?_
  refine wp_carry_routeQueryInner hadm ?_ fun r g' => ?_
  · simp
  · exact Prog.wp_mono wp_carry_settle fun _ _ h => hbegin.trans ⟨h.1, h.2, h.3⟩

/-- **The PostgreSQL session and the query in hand**: a query is sent only if it is admitted, which it
has to be when the session does not refuse it or translates it. -/
theorem wp_carry_query {bytes : Bytes} (hmeta : (metaOf bytes).isSome = true → C.admitted)
    (hadm : cfg.refuses st.allowWrites (textAsSeen bytes) = false → C.admitted) :
    (st.query cfg bytes).wp C.contract (fun st' _ => Same st st')
      (.received ((metaOf bytes).getD bytes)) := by
  unfold query
  dsimp only
  rcases ht : metaOf bytes with _ | translated
  · rw [metaOf, textAsSeen] at ht
    rw [ht]
    dsimp only
    rcases hr : st.refusal cfg (trim (textOf bytes)) with _ | msg
    · exact wp_carry_plainQuery (hadm (refusal_eq_none.mp hr))
    · exact Prog.wp_of_does (carry_silent C _) (refuse_does "42501" msg) fun _ h => h
  · rw [ht] at hmeta
    rw [metaOf, textAsSeen] at ht
    rw [ht]
    exact wp_carry_metaQuery (hmeta rfl)

end PgSession

end TurbineProxy
