import TurbineProxy.CacheWorld
import TurbineProxy.Judged

/-!
# Coherence of the cache, one request after the other

`Coherent` is the property: whatever is returned from the cache was stored after the last successful
write to one of its tables. `coherent_of_careful` says under which condition on the requests it holds
along every sequence of them. The condition is about the path a write takes: `invalidates` is the text
whose tables a call invalidates when its first exchange succeeds, and no other path invalidates any.
-/

namespace TurbineProxy

variable {u : Casing}

/-! ## The property -/

/-- Since the last successful write to one of its tables, the response for this key has been stored. -/
def Fresh (u : Casing) (key : Str) : List CacheEvent → Prop
  | [] => True
  | .put _ k :: older => k = key ∨ Fresh u key older
  | .executed _ tables :: older => (∀ t ∈ tables, t ∉ extractTablesSimple u key) ∧ Fresh u key older
  | _ :: older => Fresh u key older

/-- Every response that was returned from the cache was fresh. -/
def Coherent (u : Casing) : List CacheEvent → Prop
  | [] => True
  | .hit key :: older => Fresh u key older ∧ Coherent u older
  | _ :: older => Coherent u older

instance decidableFresh (key : Str) : (log : List CacheEvent) → Decidable (Fresh u key log)
  | [] => inferInstanceAs (Decidable True)
  | .put _ k :: older =>
    have := decidableFresh key older
    inferInstanceAs (Decidable (k = key ∨ Fresh u key older))
  | .executed _ tables :: older =>
    have := decidableFresh key older
    inferInstanceAs (Decidable ((∀ t ∈ tables, t ∉ extractTablesSimple u key) ∧ Fresh u key older))
  | .invalidated .. :: older | .replied _ :: older | .hit _ :: older => decidableFresh key older

instance decidableCoherent : (log : List CacheEvent) → Decidable (Coherent u log)
  | [] => inferInstanceAs (Decidable True)
  | .hit key :: older =>
    have := decidableCoherent older
    inferInstanceAs (Decidable (Fresh u key older ∧ Coherent u older))
  | .put .. :: older | .executed .. :: older | .invalidated .. :: older | .replied _ :: older =>
    decidableCoherent older

/-! ## One request after the other -/

/-- What the environment decides during one call. -/
structure CallEnv where
  /-- `rewriter.apply` -/
  rewrite : Str → RewriteOutcome
  /-- `rules.match_query` -/
  rules : Str → Str → Str → Option RuleMatch
  /-- the exchanges of the client's own statement: the answer, and the tables it wrote -/
  exchanges : List (Except TalkError Response × List Str)
  /-- the time at the `n`-th operation -/
  now : Nat → Nat
  /-- every other answer at the `n`-th operation -/
  other : Nat → (o : Op) → Res o

namespace CallEnv

variable (E : CallEnv)

/-- What the `n`-th exchange of the client's own statement returns, and the tables that the statement wrote. -/
def exchange (n : Nat) : Except TalkError Response × List Str :=
  E.exchanges[n]?.getD (.error (.protocol []), [])

/-- The tables its statement wrote, if it succeeded. -/
def wroteBy (n : Nat) : List Str :=
  match (E.exchange n).1 with
  | .ok response => if response.isError then [] else (E.exchange n).2
  | .error _ => []

/-- The answer at the `n`-th operation, after `sent` exchanges. -/
def answer (n sent : Nat) : (o : Op) → Res o
  | .rewrite sql => E.rewrite sql
  | .matchQuery sql user schema => E.rules sql user schema
  | .talk .client .. => (E.exchange sent).1
  | o => E.other n o

/-- After dispatch, the text whose tables are invalidated once the first exchange has succeeded: only
the write path does so, and hostgroup 0 when it does not cache. -/
def invalidatedBy (text : Str) (rt : Route) : Option Str :=
  let m := E.rules text rt.user rt.schema
  match m.map RuleMatch.destination with
  | some (.hostgroup hg) => if hg = 0 ∧ m.elim 0 RuleMatch.cacheTtlSecs = 0 then some text else none
  | _ => if (splitChoice m rt.useReplica).1 then none else some text

/-- The text whose tables a call invalidates once its first exchange has succeeded. -/
def invalidates : RouterCall → Option Str
  | .query sql _ false rt =>
    match E.rewrite (textOf sql) with
    | .blocked _ => none
    | .rewritten text => E.invalidatedBy text rt
    | .unchanged => E.invalidatedBy (textOf sql) rt
  | _ => none

end CallEnv

/-- The world during a call: operations and exchanges are counted. -/
structure CallState (u : Casing) where
  /-- the cache and its log -/
  world : CacheWorld u
  /-- operations so far -/
  done : Nat
  /-- exchanges of the client's own statement so far -/
  sent : Nat

/-- Perform an operation of request `i`. -/
def CallEnv.handle (E : CallEnv) (i : Nat) (s : CallState u) (o : Op) : CallState u × Res o :=
  -- after a `put` that panics a request does nothing to the cache any more
  let r := (s.world.perform i o ⟨E.answer s.done s.sent o, E.now s.done, (E.exchange s.sent).2⟩).getD
    (s.world, E.answer s.done s.sent o)
  (⟨r.1, s.done + 1, if o.isClientTalk then s.sent + 1 else s.sent⟩, r.2)

/-- A request that runs from its call to its reply. -/
structure Turn where
  /-- which request -/
  id : Nat
  /-- the call -/
  call : RouterCall
  /-- what the environment decides on the way -/
  env : CallEnv

/-- The world after a request. -/
def Turn.run (t : Turn) (w : CacheWorld u) : CacheWorld u :=
  (t.call.request.runWith (t.env.handle t.id) ⟨w, 0, 0⟩).1.world

/-- A turn writes a table only if its first exchange does so on a path that invalidates the table, or
if the cache holds no response that depends on it. -/
def Turn.Careful (w : CacheWorld u) (t : Turn) : Prop :=
  ∀ n, ∀ table ∈ t.env.wroteBy n,
    (n = 0 ∧ ∃ text, t.env.invalidates t.call = some text ∧ table ∈ extractTablesSimple u text) ∨
      ∀ key ∈ w.cache.keys, table ∉ extractTablesSimple u key

/-! ## What is pending during a call -/

/-- The ghost state of a call. -/
structure Pending where
  /-- exchanges so far -/
  sent : Nat
  /-- tables written and not yet invalidated -/
  tables : List Str
  /-- a response has been stored -/
  stored : Bool

/-- A call looks things up before it writes, and stores a response after it. -/
def fills (u : Casing) (E : CallEnv) : Protocol Op Res Pending where
  owes g o := match o with
    | .cacheGet _ => g.tables = []
    | .talk .client .. => g.stored = false
    | _ => True
  step g o r g' := match o, r with
    | .rewrite sql, (outcome : RewriteOutcome) => outcome = E.rewrite sql ∧ g' = g
    | .matchQuery sql user schema, (m : Option RuleMatch) => m = E.rules sql user schema ∧ g' = g
    | .talk .client .., r => r = (E.exchange g.sent).1 ∧
      g' = { g with sent := g.sent + 1, tables := E.wroteBy g.sent ++ g.tables }
    | .cacheInvalidate sql, _ =>
      g' = { g with tables := g.tables.filter fun t => t ∉ extractTablesSimple u sql }
    | .cachePut .., _ => g' = { g with stored := true }
    | _, _ => g' = g

/-- The world during a call that began with these keys in the cache: a response is fresh, or it was
there and depends on a pending table. -/
structure Midway (keys : List Str) (s : CallState u) (g : Pending) : Prop where
  /-- the count of exchanges -/
  sent : s.sent = g.sent
  /-- nothing stale was returned -/
  coherent : Coherent u s.world.log
  /-- what is cached -/
  cached : ∀ key ∈ s.world.cache.keys, Fresh u key s.world.log ∨
    key ∈ keys ∧ ∃ t ∈ g.tables, t ∈ extractTablesSimple u key
  /-- before anything is stored -/
  old : g.stored = false → ∀ key ∈ s.world.cache.keys, key ∈ keys

variable {E : CallEnv} {keys : List Str} {s : CallState u} {g : Pending}

/-- An exchange makes the tables it writes pending. -/
theorem Midway.executed {i : Nat} {via : Via} {c : ConnId} {p : Packet} {limit : Option Nat}
    (h : Midway keys s g) (hstored : g.stored = false) :
    Midway keys (E.handle i s (.talk .client via c p limit)).1
      { g with sent := g.sent + 1, tables := E.wroteBy g.sent ++ g.tables } := by
  have hcached : ∀ key ∈ s.world.cache.keys, Fresh u key s.world.log ∨
      key ∈ keys ∧ ∃ t ∈ E.wroteBy g.sent ++ g.tables, t ∈ extractTablesSimple u key := by
    intro key hkey
    refine (h.cached key hkey).imp id ?_
    rintro ⟨hold, t, ht, htk⟩
    exact ⟨hold, t, List.mem_append_right _ ht, htk⟩
  have hsent : s.sent + 1 = g.sent + 1 := congrArg (· + 1) h.sent
  unfold CallEnv.handle CacheWorld.perform CallEnv.answer
  dsimp only [Op.isClientTalk, if_true, Option.getD_some]
  rcases hr : (E.exchange s.sent).1 with e | response
  · exact ⟨hsent, h.coherent, hcached, h.old⟩
  cases herror : response.isError with
  | true =>
    simp only [herror, if_true]
    exact ⟨hsent, h.coherent, hcached, h.old⟩
  | false =>
    have hwrote : E.wroteBy g.sent = (E.exchange s.sent).2 := by
      rw [CallEnv.wroteBy, ← h.sent, hr]
      dsimp only
      rw [herror]
      rfl
    simp only [herror, Bool.false_eq_true, if_false]
    refine ⟨hsent, h.coherent, fun key hkey => ?_, h.old⟩
    -- whatever is cached now was cached when the call began
    have hold := h.old hstored key hkey
    by_cases htouched : ∃ t ∈ (E.exchange s.sent).2, t ∈ extractTablesSimple u key
    · obtain ⟨t, ht, htk⟩ := htouched
      exact .inr ⟨hold, t, List.mem_append_left _ (hwrote ▸ ht), htk⟩
    · refine (hcached key hkey).imp (fun hfresh => ⟨fun t ht htk => ?_, hfresh⟩) id
      exact htouched ⟨t, ht, htk⟩

/-- A turn meets its protocol whatever it performs. -/
theorem Midway.handle {i : Nat} {o : Op} (h : Midway keys s g) (howes : (fills u E).owes g o) :
    ∃ g', (fills u E).step g o (E.handle i s o).2 g' ∧ Midway keys (E.handle i s o).1 g' := by
  have hsame : ∀ {w : CacheWorld u}, w.cache = s.world.cache →
      (w.log = s.world.log ∨ ∃ j, w.log = .replied j :: s.world.log) →
      Midway keys ⟨w, s.done + 1, s.sent⟩ g := by
    intro w hcache hlog
    have hfresh : ∀ key, Fresh u key s.world.log → Fresh u key w.log := by
      intro key hkey
      rcases hlog with hlog | ⟨j, hlog⟩ <;> rw [hlog] <;> exact hkey
    refine ⟨h.sent, ?_, fun key hkey => ?_, fun hs key hkey => h.old hs key (hcache ▸ hkey)⟩
    · rcases hlog with hlog | ⟨j, hlog⟩ <;> rw [hlog] <;> exact h.coherent
    · exact (h.cached key (hcache ▸ hkey)).imp (hfresh key) id
  cases o with
  | cacheGet key =>
    refine ⟨g, rfl, h.sent, ?_, fun k hk => ?_, fun hs k hk => h.old hs k (QueryCache.keys_get hk)⟩
    · change Coherent u (if (s.world.cache.get key (E.now s.done)).2.isSome then _ else _)
      split
      · rename_i hsome
        obtain ⟨bytes, hbytes⟩ := Option.isSome_iff_exists.mp hsome
        refine ⟨(h.cached key (QueryCache.mem_keys_of_get hbytes)).resolve_right ?_, h.coherent⟩
        rintro ⟨-, t, ht, -⟩
        rw [(howes : g.tables = [])] at ht
        cases ht
      · exact h.coherent
    · refine (h.cached k (QueryCache.keys_get hk)).imp (fun hfresh => ?_) id
      change Fresh u k (if (s.world.cache.get key (E.now s.done)).2.isSome then _ else _)
      split
      · exact hfresh
      · exact hfresh
  | cachePut key bytes =>
    have hlog : ∀ k, Fresh u k s.world.log →
        Fresh u k (if isCacheable key then CacheEvent.put i key :: s.world.log else s.world.log) := by
      intro k hk
      split
      · exact .inr hk
      · exact hk
    unfold CallEnv.handle CacheWorld.perform
    cases hput : s.world.cache.put key bytes (E.now s.done) with
    | none =>
      -- it panics, and nothing is stored
      dsimp only
      rw [hput]
      exact ⟨{ g with stored := true }, rfl, h.sent, h.coherent, h.cached, fun hs => by cases hs⟩
    | some cache =>
      dsimp only
      rw [hput]
      refine ⟨{ g with stored := true }, rfl, h.sent, ?_, fun k hk => ?_, fun hs => by cases hs⟩
      · change Coherent u (if isCacheable key then _ else _)
        split
        · exact h.coherent
        · exact h.coherent
      · rcases QueryCache.put_cases hput with ⟨-, rfl⟩ | ⟨hcacheable, -⟩
        · exact (h.cached k hk).imp (hlog k) id
        rcases QueryCache.keys_put hput hk with rfl | hk
        · refine .inl ?_
          change Fresh u k (if isCacheable k then _ else _)
          rw [if_pos hcacheable]
          exact .inl rfl
        · exact (h.cached k hk).imp (hlog k) id
  | cacheInvalidate sql =>
    refine ⟨_, rfl, h.sent, h.coherent, fun k hk => ?_, fun hs k hk => ?_⟩
    · obtain ⟨hk, hclear⟩ := QueryCache.keys_invalidateTables hk
      rcases h.cached k hk with hcached | ⟨hkey, t, ht, htk⟩
      · exact .inl hcached
      · exact .inr ⟨hkey, t, List.mem_filter.mpr ⟨ht, decide_eq_true fun hts => hclear t hts htk⟩, htk⟩
    · exact h.old hs k (QueryCache.keys_invalidateTables hk).1
  | talk who via c p limit =>
    cases who with
    | client =>
      refine ⟨_, ⟨by rw [← h.sent]; rfl, rfl⟩, h.executed howes⟩
    | _ => exact ⟨g, rfl, hsame rfl (.inl rfl)⟩
  | toClient m => exact ⟨g, rfl, hsame rfl (.inr ⟨i, rfl⟩)⟩
  | rewrite sql => exact ⟨g, ⟨rfl, rfl⟩, hsame rfl (.inl rfl)⟩
  | matchQuery sql user schema => exact ⟨g, ⟨rfl, rfl⟩, hsame rfl (.inl rfl)⟩
  | _ => exact ⟨g, rfl, hsame rfl (.inl rfl)⟩

/-! ## The paths of a statement -/

/-- Nothing in the cache at the start of the call depends on a table. -/
def Idle (u : Casing) (keys : List Str) (table : Str) : Prop :=
  ∀ key ∈ keys, table ∉ extractTablesSimple u key

/-- Before the first exchange. -/
def Pending.start : Pending := ⟨0, [], false⟩

/-- An operation that is neither on the cache nor an exchange. -/
def Beside (o : Op) : Prop := o.offCache = true ∧ o.isClientTalk = false

section Paths

variable {α : Type} {pool : PoolRef} {text : Str} {bytes : Bytes} {timeoutMs : Nat}
  {m : Option RuleMatch} {rt : Route}

theorem fills_beside {o : Op} (ho : Beside o) :
    (fills u E).owes g o ∧ ∀ r g', (fills u E).step g o r g' → g' = g := by
  obtain ⟨hcache, hexchange⟩ := ho
  cases o with
  | talk who via c p limit =>
    cases who with
    | client => cases hexchange
    | _ => exact ⟨trivial, fun _ _ h => h⟩
  | rewrite sql => exact ⟨trivial, fun _ _ h => h.2⟩
  | matchQuery sql user schema => exact ⟨trivial, fun _ _ h => h.2⟩
  | cacheGet key => cases hcache
  | cachePut key bytes => cases hcache
  | cacheInvalidate sql => cases hcache
  | _ => exact ⟨trivial, fun _ _ h => h⟩

theorem wp_beside {p : Task α} (hp : p.Only Beside) {Q : α → Pending → Prop} (hQ : ∀ a, Q a g) :
    p.wp (fills u E) Q g :=
  Prog.wp_of_only (fun _ ho => fills_beside ho) hp hQ

theorem beside_pool {p : Task α} (hp : p.Only OfPool) : p.Only Beside := by
  refine hp.mono fun o ho => ?_
  cases o <;> first | exact ⟨rfl, rfl⟩ | cases ho

theorem beside_replay {via : Via} {c : ConnId} (sqls : List Str) :
    (replaySessionVars via c sqls).Only Beside := by
  induction sqls with
  | nil => trivial
  | cons sql rest ih => exact ⟨⟨rfl, rfl⟩, fun _ => ih⟩

theorem beside_mirror : (fireMirror m text).Only Beside := by
  rw [fireMirror]
  split
  · exact Prog.only_perform ⟨rfl, rfl⟩
  · trivial

/-- Without the cache only idle tables may be written. -/
theorem wp_offCache {p : Task α} (hp : p.Only OffCache)
    (hwrites : ∀ n, g.sent ≤ n → ∀ t ∈ E.wroteBy n, Idle u keys t) (hidle : ∀ t ∈ g.tables, Idle u keys t)
    (hstored : g.stored = false) :
    p.wp (fills u E) (fun _ g' => (∀ t ∈ g'.tables, Idle u keys t) ∧ g'.stored = false) g := by
  induction p generalizing g with
  | done a => exact ⟨hidle, hstored⟩
  | op o k ih =>
    by_cases hexchange : o.isClientTalk = true
    · cases o with
      | talk who via c p limit =>
        cases who with
        | client =>
          refine ⟨hstored, fun r g' hg => ?_⟩
          rw [hg.2]
          refine ih r (hp.2 r) (fun n hn => hwrites n (Nat.le_of_succ_le hn)) (fun t ht => ?_) hstored
          rcases List.mem_append.mp ht with ht | ht
          · exact hwrites g.sent (Nat.le_refl _) t ht
          · exact hidle t ht
        | _ => cases hexchange
      | _ => cases hexchange
    · obtain ⟨howes, hsame⟩ := fills_beside (u := u) (E := E) (g := g) ⟨hp.1, Bool.not_eq_true _ ▸ hexchange⟩
      refine ⟨howes, fun r g' hg => ?_⟩
      rw [hsame r g' hg]
      exact ih r (hp.2 r) hwrites hidle hstored

/-- The first exchange of a call: it fails and writes nothing, or its tables are pending. -/
theorem wp_first {c : ConnId} :
    (execute c bytes timeoutMs).wp (fills u E) (fun r g => match r with
      | .error _ => g = ⟨1, [], false⟩
      | .ok response => g = ⟨1, E.wroteBy 0, false⟩ ∧ (response.isError = true → E.wroteBy 0 = [])) .start := by
  have hwrote : ∀ e, (E.exchange 0).1 = .error e → E.wroteBy 0 = [] := by
    intro e he
    rw [CallEnv.wroteBy, he]
  have hok : ∀ response : Response, (E.exchange 0).1 = .ok response → response.isError = true →
      E.wroteBy 0 = [] := by
    intro response hr herror
    rw [CallEnv.wroteBy, hr]
    exact if_pos herror
  refine Prog.wp_ite (fun _ => ⟨rfl, fun r g' hg => ?_⟩) fun _ => ⟨rfl, fun r g' hg => ?_⟩
  · obtain ⟨hr, rfl⟩ := hg
    rcases r with (e | _) | response
    · exact congrArg₂ (Pending.mk 1) (congrArg (· ++ []) (hwrote _ hr.symm)) rfl
    · refine ⟨trivial, fun _ g'' hg => ?_⟩
      rw [(hg : g'' = _)]
      exact congrArg₂ (Pending.mk 1) (congrArg (· ++ []) (hwrote _ hr.symm)) rfl
    · exact ⟨congrArg₂ (Pending.mk 1) (List.append_nil _) rfl, hok response hr.symm⟩
  · obtain ⟨hr, rfl⟩ := hg
    rcases r with e | response
    · exact congrArg₂ (Pending.mk 1) (congrArg (· ++ []) (hwrote _ hr.symm)) rfl
    · exact ⟨congrArg₂ (Pending.mk 1) (List.append_nil _) rfl, hok response hr.symm⟩

/-- The mirror copy at the end of a path. -/
theorem wp_mirrored (response : Response) (hidle : ∀ t ∈ g.tables, Idle u keys t) :
    ((do
      fireMirror m text
      pure (.ok response)) : Task (Except Str Response)).wp (fills u E)
      (fun _ g => ∀ t ∈ g.tables, Idle u keys t) g := by
  rw [Prog.wp_bind]
  exact wp_beside beside_mirror fun _ => hidle

variable (hretry : ∀ n, 1 ≤ n → ∀ t ∈ E.wroteBy n, Idle u keys t)

include hretry

/-- What comes after a failed first exchange. -/
theorem wp_afterFailure {p : Task α} (hp : p.Only OffCache) :
    p.wp (fills u E) (fun _ g => ∀ t ∈ g.tables, Idle u keys t) ⟨1, [], false⟩ :=
  Prog.wp_mono (wp_offCache hp hretry (List.forall_mem_nil _) rfl) fun _ _ h => h.1

/-- The write path invalidates what its first exchange wrote. -/
theorem wp_fill_primary
    (hfirst : ∀ t ∈ E.wroteBy 0, t ∈ extractTablesSimple u text ∨ Idle u keys t) :
    (routePrimary pool text bytes timeoutMs m rt).wp (fills u E)
      (fun _ g => ∀ t ∈ g.tables, Idle u keys t) .start := by
  rw [routePrimary]
  simp only [Prog.wp_bind]
  refine wp_beside (beside_pool PoolRef.only_getPrimary) fun got => ?_
  rcases got with e | c
  · exact List.forall_mem_nil _
  simp only [Prog.wp_bind]
  refine wp_beside (beside_replay _) fun _ => Prog.wp_mono wp_first fun r g hr => ?_
  rcases r with e | response
  · rw [(hr : g = _)]
    refine wp_afterFailure hretry (Prog.only_bind (offCache_act rfl) fun _ => Prog.only_ite ?_ ?_)
    · exact Prog.only_bind (offCache_act rfl) fun _ => offCache_hands retryPrimary_hands
    · exact ⟨rfl, fun _ => trivial⟩
  obtain ⟨rfl, herror⟩ := hr
  simp only [Prog.wp_bind]
  refine wp_beside (Prog.only_perform ⟨rfl, rfl⟩) fun _ => ?_
  refine wp_beside (beside_pool (PoolRef.only_putPrimary c)) fun _ => ?_
  refine Prog.wp_ite (fun hfailed => wp_mirrored response fun t ht => ?_) fun _ => ⟨trivial, fun _ g' hg => ?_⟩
  · rw [show E.wroteBy 0 = [] from herror hfailed] at ht
    cases ht
  · refine wp_mirrored response fun t ht => ?_
    rw [(hg : g' = _)] at ht
    obtain ⟨ht, hleft⟩ := List.mem_filter.mp ht
    exact (hfirst t ht).resolve_left (of_decide_eq_true hleft)

/-- The replica path may write idle tables only, and stores what it read. -/
theorem wp_fill_replica {cacheAllowed : Bool} (hfirst : ∀ t ∈ E.wroteBy 0, Idle u keys t) :
    (routeReplica pool text bytes timeoutMs cacheAllowed m rt).wp (fills u E)
      (fun _ g => ∀ t ∈ g.tables, Idle u keys t) .start := by
  rw [routeReplica]
  simp only [Prog.wp_bind]
  refine wp_beside (beside_pool PoolRef.only_getReplica) fun got => ?_
  rcases got with e | ⟨c, idx⟩
  · exact List.forall_mem_nil _
  simp only [Prog.wp_bind]
  refine wp_beside (beside_replay _) fun _ => Prog.wp_mono wp_first fun r g hr => ?_
  rcases r with e | response
  · rw [(hr : g = _)]
    exact wp_afterFailure hretry (offCache_hands retryReplica_hands)
  obtain ⟨rfl, -⟩ := hr
  simp only [Prog.wp_bind]
  refine wp_beside (beside_pool (PoolRef.only_recordReplica idx true)) fun _ => ?_
  refine wp_beside (beside_pool (PoolRef.only_giveBack c idx)) fun _ => ?_
  refine Prog.wp_ite (fun _ => ⟨trivial, fun _ g' hg => ?_⟩) fun _ => wp_mirrored response hfirst
  rw [(hg : g' = _)]
  exact wp_mirrored response hfirst

omit hretry in
/-- A look-up in vain goes on, and a hit ends the route. -/
theorem wp_fill_lookUp {α : Type} {key : Str} {k : Option Bytes → Task α} {Q : α → Pending → Prop}
    (hmiss : (k none).wp (fills u E) Q .start) (hhit : ∀ b, (k (some b)).wp (fills u E) Q .start) :
    (act (.cacheGet key) >>= k).wp (fills u E) Q .start := by
  rw [Prog.wp_bind]
  refine ⟨rfl, fun cached g' hg => ?_⟩
  rw [(hg : g' = _)]
  rcases cached with _ | b
  · exact hmiss
  · exact hhit b

/-- Hostgroup routing invalidates on hostgroup 0 when it does not cache. -/
theorem wp_fill_hostgroup {hg ttl : Nat}
    (hfirst : ∀ t ∈ E.wroteBy 0, (hg = 0 ∧ ttl = 0) ∧ t ∈ extractTablesSimple u text ∨ Idle u keys t) :
    (routeHostgroup pool hg ttl text bytes timeoutMs rt).wp (fills u E)
      (fun _ g => ∀ t ∈ g.tables, Idle u keys t) .start := by
  rw [routeHostgroup]
  refine Prog.wp_ite_else (fun hmiss => ?_) ?_
  · exact wp_fill_lookUp hmiss fun b => List.forall_mem_nil _
  dsimp only [Prog.pure_eq, Prog.done_bind, askHostgroup]
  rw [Prog.wp_bind]
  refine wp_beside (beside_pool (PoolRef.only_getHostgroup hg)) fun got => ?_
  rcases got with e | ⟨c, putIdx⟩
  · exact List.forall_mem_nil _
  simp only [runOnHostgroup, Prog.wp_bind]
  refine Prog.wp_mono wp_first fun r g hr => ?_
  rcases r with e | response
  · rw [(hr : g = _)]
    exact wp_afterFailure hretry ⟨rfl, fun _ => trivial⟩
  obtain ⟨rfl, herror⟩ := hr
  simp only [Prog.wp_bind]
  refine wp_beside (beside_pool (PoolRef.only_giveBack c putIdx)) fun _ => ?_
  refine Prog.wp_ite (fun hcached => ⟨trivial, fun _ g' hg t ht => ?_⟩) fun hnot =>
    Prog.wp_ite (fun hinvalidate => ⟨trivial, fun _ g' hg t ht => ?_⟩) fun hkept t ht => ?_
  · rw [(hg : g' = _)] at ht
    refine (hfirst t ht).resolve_left fun h => ?_
    rw [h.1.2] at hcached
    cases hcached
  · rw [(hg : g' = _)] at ht
    obtain ⟨ht, hleft⟩ := List.mem_filter.mp ht
    exact (hfirst t ht).resolve_left fun h => of_decide_eq_true hleft h.2
  · refine (hfirst t ht).resolve_left fun h => ?_
    rcases hfailed : response.isError with _ | _
    · rw [h.1.1, hfailed] at hkept
      exact hkept rfl
    · rw [show E.wroteBy 0 = [] from herror hfailed] at ht
      cases ht

/-- Cache, replica or write path. -/
theorem wp_fill_split (hfirst : ∀ t ∈ E.wroteBy 0,
      (splitChoice m rt.useReplica).1 = false ∧ t ∈ extractTablesSimple u text ∨ Idle u keys t) :
    (routeSplit pool text bytes timeoutMs m rt).wp (fills u E)
      (fun _ g => ∀ t ∈ g.tables, Idle u keys t) .start := by
  rw [routeSplit]
  refine Prog.wp_ite_else (fun hmiss => ?_) ?_
  · exact wp_fill_lookUp hmiss fun b => List.forall_mem_nil _
  refine Prog.wp_ite (fun hreplica => wp_fill_replica hretry fun t ht => ?_) fun hprimary =>
    wp_fill_primary hretry fun t ht => (hfirst t ht).imp And.right id
  refine (hfirst t ht).resolve_left fun h => ?_
  rw [h.1] at hreplica
  cases hreplica

/-- Dispatching invalidates what `invalidatedBy` says. -/
theorem wp_fill_dispatch (hfirst : ∀ t ∈ E.wroteBy 0,
      (∃ text', E.invalidatedBy text rt = some text' ∧ t ∈ extractTablesSimple u text') ∨ Idle u keys t) :
    (dispatch pool text bytes timeoutMs rt).wp (fills u E)
      (fun _ g => ∀ t ∈ g.tables, Idle u keys t) .start := by
  rw [CallEnv.invalidatedBy] at hfirst
  have hsplit : ∀ m, (∀ t ∈ E.wroteBy 0, (∃ text', (if (splitChoice m rt.useReplica).1 = true then none
      else some text) = some text' ∧ t ∈ extractTablesSimple u text') ∨ Idle u keys t) →
      (routeSplit pool text bytes timeoutMs m rt).wp (fills u E)
        (fun _ g => ∀ t ∈ g.tables, Idle u keys t) .start := by
    intro m hm
    refine wp_fill_split hretry fun t ht => (hm t ht).imp ?_ id
    rintro ⟨text', hsome, htext⟩
    obtain ⟨hchoice, htext'⟩ := Option.ite_none_left_eq_some.mp hsome
    obtain rfl := Option.some.inj htext'
    exact ⟨Bool.not_eq_true _ ▸ hchoice, htext⟩
  rw [dispatch]
  rw [Prog.wp_bind]
  refine ⟨trivial, fun m g' hg => ?_⟩
  obtain ⟨rfl, rfl⟩ := hg
  generalize E.rules text rt.user rt.schema = m at hfirst ⊢
  rcases m with _ | ⟨destination, ttl, mirror, limited, ff⟩
  · exact hsplit none hfirst
  refine Prog.wp_ite (fun _ => List.forall_mem_nil _) fun _ => ?_
  rcases destination with _ | _ | _ | hg
  · exact hsplit (some ⟨.any, ttl, mirror, limited, ff⟩) hfirst
  · exact hsplit (some ⟨.primary, ttl, mirror, limited, ff⟩) hfirst
  · exact hsplit (some ⟨.replica, ttl, mirror, limited, ff⟩) hfirst
  · refine wp_fill_hostgroup hretry fun t ht => (hfirst t ht).imp ?_ id
    rintro ⟨text', hsome, htext⟩
    obtain ⟨hdirect, htext'⟩ := Option.ite_none_right_eq_some.mp hsome
    obtain rfl := Option.some.inj htext'
    exact ⟨hdirect, htext⟩

end Paths

section Calls

variable {call : RouterCall}

/-- A call leaves nothing pending but idle tables, when it invalidates what its first exchange writes
and writes idle tables otherwise. -/
theorem wp_fill_outcome (hwrites : ∀ n, ∀ t ∈ E.wroteBy n,
      (n = 0 ∧ ∃ text, E.invalidates call = some text ∧ t ∈ extractTablesSimple u text) ∨ Idle u keys t) :
    call.outcome.wp (fills u E) (fun _ g => ∀ t ∈ g.tables, Idle u keys t) .start := by
  have hretry : ∀ n, 1 ≤ n → ∀ t ∈ E.wroteBy n, Idle u keys t := fun n hn t ht =>
    (hwrites n t ht).resolve_left fun h => Nat.one_ne_zero (Nat.le_zero.mp (h.1 ▸ hn))
  have hplain : E.invalidates call = none → ∀ {p : Task (Except Str Response)}, p.Only OffCache →
      p.wp (fills u E) (fun _ g => ∀ t ∈ g.tables, Idle u keys t) .start := by
    intro hnone p hp
    refine Prog.wp_mono (wp_offCache hp (fun n _ t ht => ?_) (List.forall_mem_nil _) rfl) fun _ _ h => h.1
    refine (hwrites n t ht).resolve_left ?_
    rintro ⟨-, text, hsome, -⟩
    rw [hnone] at hsome
    cases hsome
  cases call with
  | query sql txConn inTransaction rt =>
    cases inTransaction with
    | true =>
      refine hplain rfl (Prog.only_bind (Prog.only_bind (offCache_act rfl) fun pool => ?_) fun _ => trivial)
      exact offCache_hands routeInTx_hands
    | false =>
      have hfirst : ∀ t ∈ E.wroteBy 0, (∃ text, E.invalidates (.query sql txConn false rt) = some text ∧
          t ∈ extractTablesSimple u text) ∨ Idle u keys t :=
        fun t ht => (hwrites 0 t ht).imp And.right id
      dsimp only [CallEnv.invalidates] at hfirst
      unfold RouterCall.outcome routeQueryInner routeAutocommit
      simp only [Prog.wp_bind, Bool.false_eq_true, if_false]
      refine wp_beside (Prog.only_perform ⟨rfl, rfl⟩) fun pool => ?_
      refine wp_beside (Prog.only_perform ⟨rfl, rfl⟩) fun timeoutMs => ⟨trivial, fun outcome g' hg => ?_⟩
      obtain ⟨rfl, rfl⟩ := hg
      generalize E.rewrite (textOf sql) = outcome at hfirst ⊢
      rcases outcome with _ | text | msg
      · exact wp_fill_dispatch hretry hfirst
      · exact wp_fill_dispatch hretry hfirst
      · exact List.forall_mem_nil _
  | sticky sql conn idx =>
    exact hplain rfl (Prog.only_bind (offCache_hands routeStickyQuery_hands) fun _ => trivial)
  | raw packet txConn inTransaction database =>
    exact hplain rfl (Prog.only_bind offCache_routeRaw fun _ => trivial)
  | fast sql txConn inTransaction =>
    exact hplain rfl (Prog.only_bind (offCache_hands routeFast_hands) fun _ => trivial)
  | stmt packet st inTransaction =>
    exact hplain rfl (Prog.only_bind offCache_routeStmt fun _ => trivial)
  | pipeline packets scan shadow stmtConn txConn inTransaction database =>
    exact hplain rfl (Prog.only_bind offCache_routePipeline fun _ => trivial)

end Calls

/-! ## Whole runs -/

/-- Between two requests: nothing stale was returned, and nothing stale is cached. -/
def Settled (w : CacheWorld u) : Prop :=
  Coherent u w.log ∧ ∀ key ∈ w.cache.keys, Fresh u key w.log

/-- A careful turn leaves nothing stale. -/
theorem Turn.Careful.settled {w : CacheWorld u} {t : Turn} (hw : Settled w) (h : t.Careful w) :
    Settled (t.run w) := by
  have hstart : Midway w.cache.keys ⟨w, 0, 0⟩ .start :=
    ⟨rfl, hw.1, fun key hkey => .inl (hw.2 key hkey), fun _ _ hkey => hkey⟩
  have hrequest : t.call.request.wp (fills u t.env) (fun _ g => ∀ table ∈ g.tables, Idle u w.cache.keys table)
      .start := by
    rw [RouterCall.request]
    rw [Prog.wp_bind]
    refine Prog.wp_mono (wp_fill_outcome h) fun r g hg => ⟨trivial, fun _ g' hg' => ?_⟩
    rw [(hg' : g' = g)]
    exact hg
  obtain ⟨g, hidle, hend⟩ := Prog.wp_runWith (h := t.env.handle t.id)
    (fun _ _ _ hs howes => hs.handle howes) hrequest hstart
  refine ⟨hend.coherent, fun key hkey => (hend.cached key hkey).resolve_right ?_⟩
  rintro ⟨hold, table, ht, htk⟩
  exact hidle table ht key hold htk

/-- **Coherence**: along every sequence of requests of which each is careful, whatever is returned from
the cache was stored after the last successful write to one of its tables. -/
theorem coherent_of_careful {maxEntries ttl : Nat} {turns : List Turn} {w : CacheWorld u}
    (h : Steps (fun w t => some (Turn.run t w)) (fun w t => Turn.Careful w t) (CacheWorld.new u maxEntries ttl)
      turns w) : Coherent u w.log := by
  have hstart : Settled (CacheWorld.new u maxEntries ttl) := ⟨trivial, List.forall_mem_nil _⟩
  refine (h.induct (P := Settled) (fun w t w' hw hcareful hstep => ?_) hstart).1
  obtain rfl := Option.some.inj hstep
  exact hcareful.settled hw

/-! ## Runs -/

/-- A call during which all goes well, by the given rule if there is one; its statement writes some
tables. -/
def calmTurn (id : Nat) (call : RouterCall) (rule : Option RuleMatch) (wrote : List Str) : Turn where
  id := id
  call := call
  env :=
    { rewrite := fun _ => .unchanged
      rules := fun _ _ _ => rule
      exchanges := [(.ok ⟨[7], false, [], none⟩, wrote)]
      now := fun _ => 0
      other := fun _ => atEase }

/-- Outside a transaction, by the heuristic. -/
def plainRoute (useReplica : Bool) : Route := ⟨useReplica, [], [], [], none⟩

/-- A cacheable read of table `t`. -/
def readOfT : Turn :=
  calmTurn 0 (.query (asciiBytes "SELECT a FROM t") none false (plainRoute true)) none []

/-- A write to table `t`. -/
def updateT : Bytes := asciiBytes "UPDATE t SET a = 2"

/-- The ordinary write path. -/
def plainWrite : Turn :=
  calmTurn 1 (.query updateT none false (plainRoute false)) none ["t".toList]

theorem careful_calm {w : CacheWorld u} {id : Nat} {call : RouterCall} {rule : Option RuleMatch}
    {wrote : List Str} (h : ∀ table ∈ wrote, ∃ text, (calmTurn id call rule wrote).env.invalidates call = some text ∧
      table ∈ extractTablesSimple u text) : (calmTurn id call rule wrote).Careful w := by
  intro n table htable
  rcases n with _ | n
  · exact .inl ⟨rfl, h table htable⟩
  · cases htable

theorem coherent_of_careful_read_write_read :
    Coherent .ascii (readOfT.run (plainWrite.run (readOfT.run (CacheWorld.new .ascii 1000 30)))).log :=
  coherent_of_careful (.cons (careful_calm (List.forall_mem_nil _)) rfl
    (.cons (careful_calm (by simp only [List.forall_mem_singleton]; exact ⟨_, rfl, by decide +kernel⟩)) rfl
      (.cons (careful_calm (List.forall_mem_nil _)) rfl (.nil _))))

/-- The same write on the other paths: in a transaction, retried after a lost connection, by a hostgroup
rule, fast-forwarded, as the execution of a prepared statement. -/
def otherWrites : List Turn :=
  [calmTurn 1 (.query updateT (some 3) true (plainRoute false)) none ["t".toList],
   { plainWrite with
     env := { plainWrite.env with
       exchanges := [(.error (.protocol "Lost connection to server".toList), []),
         (.ok ⟨[7], false, [], none⟩, ["t".toList])] } },
   calmTurn 1 (.query updateT none false (plainRoute false)) (some ⟨.hostgroup 1, 0, none, false, false⟩)
     ["t".toList],
   calmTurn 1 (.fast updateT none false) none ["t".toList],
   calmTurn 1 (.stmt [Com.stmtExecute, 1, 0, 0, 0] ⟨.new, some 3, none⟩ false) none ["t".toList]]

/-- None of them keeps the cache coherent. -/
theorem stale_after_other_writes :
    (otherWrites.filter fun write =>
      Coherent .ascii (readOfT.run (write.run (readOfT.run (CacheWorld.new .ascii 1000 30)))).log).length = 0 := by
  decide +kernel

end TurbineProxy
