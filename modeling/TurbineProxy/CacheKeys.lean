import TurbineProxy.CacheHistory
import TurbineProxy.Coherence
import TurbineProxy.FallbackOrder

/-!
# What the router finds again

The router looks a query up under `scoped_cache_key` if the query is cacheable, and stores the response under the
same key. But `put` asks whether its key is cacheable, and a key that names a database never is.

`Serving` is the cache during a request, and `serves` says what each operation of the request may do to it.
-/

namespace TurbineProxy

open Str

/-! ## Keys -/

/-- Two keys that are one: the text of a query without database spells the other's key, or the name of a database
spells the other's, a bracket and more. -/
inductive Clash : Option Str → Str → Option Str → Str → Prop where
  /-- without a database -/
  | spelled (db sql : Str) : Clash none ("[db:".toList ++ db ++ "] ".toList ++ sql) (some db) sql
  /-- in two databases -/
  | bracketed (db more sql : Str) :
      Clash (some db) (more ++ "] ".toList ++ sql) (some (db ++ "] ".toList ++ more)) sql

/-- The name that goes on is the longer one. -/
theorem Clash.shorter {db db' sql sql' : Str} (h : Clash (some db) sql (some db') sql') : db.length < db'.length := by
  cases h
  simp

/-- A name, a bracket and a text can be read as another name and another text only if one of the names goes on
behind a bracket. -/
theorem bracketed_of_append {db db' sql sql' : Str} (h : db ++ "] ".toList ++ sql = db' ++ "] ".toList ++ sql')
    (hlonger : db.length < db'.length) :
    ∃ more, db' = db ++ "] ".toList ++ more ∧ sql = more ++ "] ".toList ++ sql' := by
  rw [List.append_assoc, List.append_assoc] at h
  obtain ⟨y, rfl, hrest⟩ | ⟨y, rfl, -⟩ := List.append_eq_append_iff.mp h
  · -- what the longer name has more is at least the bracket and the blank
    match y with
    | [] => simp at hlonger
    | [c] => simp at hrest
    | c :: c' :: more =>
      obtain ⟨rfl, rfl, rfl⟩ : ']' = c ∧ ' ' = c' ∧ sql = more ++ "] ".toList ++ sql' := by simpa using hrest
      exact ⟨more, by simp, rfl⟩
  · rw [List.length_append] at hlonger
    omega

/-- Two keys are one only if they are of one query in one database, or if they clash. -/
theorem scopedCacheKey_eq_iff {rt rt' : Route} {sql sql' : Str} :
    scopedCacheKey rt sql = scopedCacheKey rt' sql' ↔ (rt.database, sql) = (rt'.database, sql') ∨
      Clash rt.database sql rt'.database sql' ∨ Clash rt'.database sql' rt.database sql := by
  unfold scopedCacheKey
  cases rt.database with
  | none =>
    cases rt'.database with
    | none =>
      refine ⟨fun h => .inl (congrArg _ h), ?_⟩
      rintro (h | h | h)
      · exact congrArg Prod.snd h
      · cases h
      · cases h
    | some db' =>
      constructor
      · rintro rfl
        exact .inr (.inl (.spelled db' sql'))
      · rintro (h | h | h)
        · cases h
        · cases h
          rfl
        · cases h
  | some db =>
    cases rt'.database with
    | none =>
      constructor
      · rintro rfl
        exact .inr (.inr (.spelled db sql))
      · rintro (h | h | h)
        · cases h
        · cases h
        · cases h
          rfl
    | some db' =>
      constructor
      · intro h
        have h : db ++ "] ".toList ++ sql = db' ++ "] ".toList ++ sql' := by simpa using h
        rcases Nat.lt_trichotomy db.length db'.length with hlt | heq | hgt
        · obtain ⟨more, rfl, rfl⟩ := bracketed_of_append h hlt
          exact .inr (.inl (.bracketed db more sql'))
        · rw [List.append_assoc, List.append_assoc] at h
          obtain ⟨rfl, hsql⟩ := List.append_inj h heq
          obtain rfl := List.append_cancel_left hsql
          exact .inl rfl
        · obtain ⟨more, rfl, rfl⟩ := bracketed_of_append h.symm hgt
          exact .inr (.inr (.bracketed db' more sql))
      · rintro (h | h | h)
        · cases h
          rfl
        · cases h
          simp
        · cases h
          simp

/-- A key that names a database is not cacheable: it does not begin with `SELECT`. -/
theorem scopedCacheKey_uncacheable {rt : Route} (sql : Str) (h : rt.database ≠ none) :
    ¬isCacheable (scopedCacheKey rt sql) = true := by
  obtain ⟨db, hdb⟩ := Option.ne_none_iff_exists'.mp h
  have hupper : upperChar '[' = ['['] := by decide
  have hspace : isWhitespace '[' = false := by decide
  simp [scopedCacheKey, hdb, isCacheable, toUppercase, trimStart, startsWith, hupper, hspace]

/-! ## The cache during a request -/

namespace Protocol

variable {Op : Type} {Res : Op → Type} {Γ : Type}

/-- The ghost states that a run may go through. -/
def Follows (P : Protocol Op Res Γ) : Γ → List ((o : Op) × Res o) → Γ → Prop
  | g, [], g' => g' = g
  | g, ⟨o, r⟩ :: log, g' => ∃ g₁, P.step g o r g₁ ∧ P.Follows g₁ log g'

end Protocol

/-- A run ends as the weakest precondition says. -/
theorem Prog.wp_run {Op : Type} {Res : Op → Type} {Γ α : Type} {P : Protocol Op Res Γ} {p : Prog Op Res α}
    {Q : α → Γ → Prop} {log : List ((o : Op) × Res o)} {a : α} {g g' : Γ} (hp : p.wp P Q g) (hrun : p.Run log a)
    (h : P.Follows g log g') : Q a g' := by
  induction hrun generalizing g with
  | done a =>
    obtain rfl : g' = g := h
    exact hp
  | op _ ih =>
    obtain ⟨g₁, hstep, hrest⟩ := h
    exact ih (hp.2 _ _ hstep) hrest

variable {u : Casing}

/-- What the calls of others may make of the cache: they only store what is cacheable. -/
def QueryCache.Meanwhile (c c' : QueryCache u) : Prop :=
  c'.ttl = c.ttl ∧ ∀ key ∈ c'.keys, key ∈ c.keys ∨ isCacheable key = true

theorem QueryCache.Meanwhile.refl (c : QueryCache u) : c.Meanwhile c := ⟨rfl, fun _ hkey => .inl hkey⟩

theorem QueryCache.Meanwhile.trans {c₁ c₂ c₃ : QueryCache u} (h₁ : c₁.Meanwhile c₂) (h₂ : c₂.Meanwhile c₃) :
    c₁.Meanwhile c₃ := by
  refine ⟨h₂.1.trans h₁.1, fun key hkey => ?_⟩
  rcases h₂.2 key hkey with hkey | hcacheable
  · exact h₁.2 key hkey
  · exact .inr hcacheable

/-- A call keeps the `ttl`, and whatever it stores is cacheable. -/
theorem CountedCache.meanwhile {s s' : CountedCache u} {now : Nat} {call : CacheCall} {answer : Option Bytes}
    (hcall : s.call now call = some (s', answer)) : s.cache.Meanwhile s'.cache := by
  cases call with
  | get key =>
    rw [(CountedCache.call_get hcall).1]
    refine ⟨?_, fun k hk => .inl (QueryCache.keys_get hk)⟩
    rw [QueryCache.get]
    split
    · split <;> rfl
    · rfl
  | put key bytes =>
    have hput := (CountedCache.call_put hcall).1
    refine ⟨(QueryCache.put_config hput).1, fun k hk => ?_⟩
    rcases QueryCache.put_cases hput with ⟨-, heq⟩ | ⟨hcacheable, -⟩
    · rw [heq] at hk
      exact .inl hk
    · rcases QueryCache.keys_put hput hk with rfl | hk
      · exact .inr hcacheable
      · exact .inl hk
  | invalidate tables =>
    cases hcall
    refine ⟨?_, fun k hk => .inl (QueryCache.keys_invalidateTables hk).1⟩
    change (s.cache.invalidateTables tables).ttl = s.cache.ttl
    rw [QueryCache.invalidateTables]
    split <;> rfl

/-- And so do any number of calls; one that panics changes nothing. -/
theorem CountedCache.meanwhile_foldl (s : CountedCache u) (calls : List (Nat × CacheCall)) :
    s.cache.Meanwhile (calls.foldl (fun s e => (s.call e.1 e.2).elim s Prod.fst) s).cache := by
  induction calls generalizing s with
  | nil => exact .refl _
  | cons e rest ih =>
    rw [List.foldl_cons]
    cases hcall : s.call e.1 e.2 with
    | none => exact ih s
    | some r => exact (CountedCache.meanwhile hcall).trans (ih r.1)

/-- The cache during a request. -/
structure Serving (u : Casing) where
  /-- the cache -/
  cache : QueryCache u
  /-- when it was used last -/
  now : Nat
  /-- the keys the request has looked up in vain -/
  missed : List Str
  /-- an exchange of the query has failed -/
  failed : Bool

namespace Serving

variable (g : Serving u)

/-- A look-up at time `now`. -/
def lookUp (key : Str) (now : Nat) : Serving u where
  cache := (g.cache.get key now).1
  now := now
  missed := if (g.cache.get key now).2 = none then key :: g.missed else g.missed
  failed := g.failed

/-- A response has been stored at time `now`, which has led to this cache. -/
def store (c : QueryCache u) (now : Nat) : Serving u := { g with cache := c, now := now }

/-- A backend has answered the query. -/
def exchanged : Except TalkError Response → Serving u
  | .ok _ => g
  | .error _ => { g with failed := true }

end Serving

/-- What the operations of a request do to the cache. Others may use it before the request stores its response. -/
def serves (u : Casing) : Protocol Op Res (Serving u) where
  owes _ _ := True
  step g o r g' := match o, r with
    | .cacheGet key, (cached : Option Bytes) =>
      ∃ now, g.now ≤ now ∧ cached = (g.cache.get key now).2 ∧ g' = g.lookUp key now
    | .cachePut key bytes, _ => ∃ now c c', g.now ≤ now ∧ g.cache.Meanwhile c ∧ c.put key bytes now = some c' ∧
      g' = g.store c' now
    | .cacheInvalidate sql, _ => g' = { g with cache := g.cache.invalidateTables (extractTablesSimple u sql) }
    | .talk .client .., r => g' = g.exchanged r
    | _, _ => g' = g

/-- The key was looked up in vain. -/
def Missed (log : Log) (key : Str) : Prop := ⟨.cacheGet key, none⟩ ∈ log

/-- An exchange of the query has failed. -/
def ExchangeFailed (log : Log) : Prop := ∃ via c p limit e, ⟨.talk .client via c p limit, .error e⟩ ∈ log

/-- Operations that look nothing up in the cache. -/
def NoLookUp (o : Op) : Prop := ∀ key, o ≠ .cacheGet key

section Serves

variable {α : Type} {g : Serving u} {Q : α → Serving u → Prop}

theorem serves_beside {o : Op} (ho : Beside o) :
    (serves u).owes g o ∧ ∀ r g', (serves u).step g o r g' → g' = g := by
  obtain ⟨hcache, hexchange⟩ := ho
  cases o with
  | talk who via c p limit =>
    cases who with
    | client => cases hexchange
    | _ => exact ⟨trivial, fun _ _ h => h⟩
  | cacheGet key => cases hcache
  | cachePut key bytes => cases hcache
  | cacheInvalidate sql => cases hcache
  | _ => exact ⟨trivial, fun _ _ h => h⟩

/-- What is neither about the cache nor an exchange of the query leaves everything as it is, and what comes after it
goes on from there. -/
theorem serves_next {β : Type} {p : Task β} {f : β → Task α} (hp : p.Only Beside)
    (hf : ∀ b, (f b).wp (serves u) Q g) : (p >>= f).wp (serves u) Q g :=
  Prog.wp_bind_of_only (fun _ ho => serves_beside ho) hp hf

/-- Look-ups in vain and failed exchanges of the query are remembered, each when it happens. -/
theorem serves_step {o : Op} {r : Res o} {g' : Serving u} (hstep : (serves u).step g o r g') :
    (∀ key, key ∈ g'.missed ↔ Missed [⟨o, r⟩] key ∨ key ∈ g.missed) ∧
      (g'.failed = true ↔ ExchangeFailed [⟨o, r⟩] ∨ g.failed = true) := by
  unfold Missed ExchangeFailed
  cases o with
  | cacheGet k =>
    obtain ⟨now, -, hcached, rfl⟩ := hstep
    have hsame : ∀ key, (⟨.cacheGet key, none⟩ : (o : Op) × Res o) = ⟨.cacheGet k, r⟩ ↔
        key = k ∧ r = (none : Option Bytes) := by
      intro key
      constructor
      · rintro ⟨⟩
        exact ⟨rfl, rfl⟩
      · rintro ⟨rfl, rfl⟩
        rfl
    refine ⟨fun key => ?_, by simp [Serving.lookUp]⟩
    rw [List.mem_singleton, hsame, hcached, Serving.lookUp]
    dsimp only
    split
    · rename_i hmiss
      simp [hmiss]
    · rename_i hhit
      simp [hhit]
  | cachePut k bytes =>
    obtain ⟨now, c, c', -, -, -, rfl⟩ := hstep
    simp [Serving.store]
  | cacheInvalidate sql =>
    obtain rfl : g' = _ := hstep
    simp
  | talk who via c p limit =>
    cases who with
    | client =>
      obtain rfl : g' = g.exchanged r := hstep
      rcases r with e | response
      · refine ⟨by simp [Serving.exchanged], iff_of_true rfl (.inl ⟨via, c, p, limit, e, .head _⟩)⟩
      · simp [Serving.exchanged]
    | _ =>
      obtain rfl : g' = g := hstep
      simp
  | _ =>
    obtain rfl : g' = g := hstep
    simp

/-- Who does not look anything up has missed nothing. -/
theorem serves_unasked {p : Task α} (hp : p.Only NoLookUp) (hmissed : g.missed = []) :
    p.wp (serves u) (fun _ g' => g'.missed = []) g := by
  induction p generalizing g with
  | done a => exact hmissed
  | op o k ih =>
    refine ⟨trivial, fun r g' hstep => ih r (hp.2 r) (List.eq_nil_iff_forall_not_mem.mpr fun key hkey => ?_)⟩
    rcases ((serves_step hstep).1 key).mp hkey with hnow | hbefore
    · exact hp.1 key (congrArg Sigma.fst (List.mem_singleton.mp hnow)).symm
    · rw [hmissed] at hbefore
      cases hbefore

/-- An exchange of the query: it succeeds, or it fails. -/
theorem serves_execute {c : ConnId} {bytes : Bytes} {timeoutMs : Nat} :
    (execute c bytes timeoutMs).wp (serves u) (fun r g' => match r with
      | .ok _ => g' = g
      | .error _ => g' = { g with failed := true }) g := by
  refine Prog.wp_ite (fun _ => ⟨trivial, fun r g' hstep => ?_⟩) fun _ => ⟨trivial, fun r g' hstep => ?_⟩
  · obtain rfl : g' = g.exchanged r := hstep
    rcases r with (e | _) | response
    · exact rfl
    · exact ⟨trivial, fun _ g'' hg => hg⟩
    · exact rfl
  · obtain rfl : g' = g.exchanged r := hstep
    rcases r with e | response <;> exact rfl

end Serves

/-! ## Routes -/

/-- The response to what was looked up in vain can be found from now on, if the request named no database and no
exchange has failed, and cannot be found otherwise. -/
structure Served (rt : Route) (key : Str) (response : Response) (g : Serving u) : Prop where
  /-- it can be found -/
  found : rt.database = none → g.failed = false →
    ∀ now < g.now + g.cache.ttl, (g.cache.get key now).2 = some response.bytes
  /-- it cannot -/
  lost : rt.database ≠ none ∨ g.failed = true → ∀ now, (g.cache.get key now).2 = none

/-- A route has answered. -/
def Answered (rt : Route) (r : Except Str Response) (g : Serving u) : Prop :=
  ∀ response, r = .ok response → response.isError = false → ∀ key ∈ g.missed, Served rt key response g

/-- What was looked up in vain is what the route is going to store. -/
structure Ready (rt : Route) (text : Str) (g : Serving u) : Prop where
  /-- it is the key of the text -/
  key : ∀ key ∈ g.missed, key = scopedCacheKey rt text
  /-- it has no entry -/
  absent : ∀ key ∈ g.missed, key ∉ g.cache.keys
  /-- the text is cacheable -/
  cacheable : g.missed ≠ [] → isCacheable text = true

section Routes

variable {rt : Route} {text : Str} {bytes : Bytes} {pool : PoolRef} {timeoutMs : Nat} {m : Option RuleMatch}
  {g : Serving u} {key : Str}

theorem answered_error (e : Str) : Answered rt (.error e) g := by
  rintro response ⟨⟩

theorem answered_unasked {r : Except Str Response} (hmissed : g.missed = []) : Answered rt r g := by
  intro response _ _ key hkey
  rw [hmissed] at hkey
  cases hkey

theorem QueryCache.get_absent {c : QueryCache u} (habsent : key ∉ c.keys) (now : Nat) : (c.get key now).2 = none := by
  rw [QueryCache.get]
  cases hlookup : c.entries.lookup key with
  | none => rfl
  | some e => exact absurd (QueryCache.mem_keys (mem_of_lookup hlookup)) habsent

/-- After a look-up in vain there is no entry. -/
theorem QueryCache.absent_of_get {c : QueryCache u} {now : Nat} (hmiss : (c.get key now).2 = none) :
    key ∉ (c.get key now).1.keys := by
  unfold QueryCache.get at hmiss ⊢
  split
  · split
    · simp_all
    · exact QueryCache.not_mem_remove
  · rename_i hlookup
    exact QueryCache.lookup_none hlookup

/-- What has just been stored is found. -/
theorem QueryCache.get_put {c c' : QueryCache u} {response : Bytes} {now later : Nat}
    (hput : c.put key response now = some c') (hcacheable : isCacheable key = true)
    (hlive : later < now + c.ttl) : (c'.get key later).2 = some response := by
  rw [QueryCache.get, QueryCache.put_entries hput hcacheable, List.lookup_cons_self]
  dsimp only
  rw [if_pos hlive]

/-- A response that is stored is served, unless an exchange has failed. -/
theorem Ready.store (h : Ready rt text g) (hfailed : g.failed = false) {response : Response} {now : Nat}
    {c c' : QueryCache u} (hmeanwhile : g.cache.Meanwhile c)
    (hput : c.put (scopedCacheKey rt text) response.bytes now = some c') :
    Answered rt (.ok response) (g.store c' now) := by
  intro response' heq _ key hkey
  cases heq
  obtain rfl := h.key key hkey
  constructor
  · intro hdb _ later hlater
    have hkey' : scopedCacheKey rt text = text := by rw [scopedCacheKey, hdb]
    have hcacheable : isCacheable (scopedCacheKey rt text) = true := hkey'.symm ▸ h.cacheable (List.ne_nil_of_mem hkey)
    refine QueryCache.get_put hput hcacheable ?_
    rwa [← (QueryCache.put_config hput).1]
  · rintro (hdb | hfailed')
    · -- `put` has not stored it, and nobody else can have stored anything under this key
      intro later
      have huncacheable := scopedCacheKey_uncacheable text hdb
      have habsent : scopedCacheKey rt text ∉ c.keys :=
        fun hpresent => (hmeanwhile.2 _ hpresent).elim (h.absent _ hkey) huncacheable
      rw [QueryCache.put_uncacheable huncacheable, Option.some.injEq] at hput
      subst hput
      exact QueryCache.get_absent habsent later
    · cases hfailed.symm.trans hfailed'

/-- A response that is not stored after an exchange has failed is not served. -/
theorem Ready.unstored (h : Ready rt text g) (hfailed : g.failed = true) (r : Except Str Response) :
    Answered rt r g := by
  intro response _ _ key hkey
  constructor
  · intro _ hfine
    cases hfailed.symm.trans hfine
  · exact fun _ now => QueryCache.get_absent (h.absent key hkey) now

theorem Ready.fail (h : Ready rt text g) : Ready rt text { g with failed := true } := ⟨h.key, h.absent, h.cacheable⟩

theorem serves_executeQuery {c : ConnId} : (executeQuery .client .loan c bytes).wp (serves u) (fun r g' => match r with
      | .ok _ => g' = g
      | .error _ => g' = { g with failed := true }) g := by
  have hexecute : (execute c bytes 0).wp (serves u) _ g := serves_execute
  exact hexecute

/-- The retry after a failed exchange stores nothing. -/
theorem serves_retryReplica (h : Ready rt text g) (hfailed : g.failed = true) {c : ConnId} {idx : Option Nat}
    {e : Str} :
    (retryReplica pool bytes rt c idx e).wp (serves u) (Answered rt) g := by
  have hfail : ∀ {exit : Exit} {c : ConnId} {e : Str} {g : Serving u}, (do
      let _ : Unit ← act (.drop exit c)
      pure (.error e) : Task (Except Str Response)).wp (serves u) (Answered rt) g :=
    ⟨trivial, fun _ _ _ => answered_error _⟩
  rw [retryReplica]
  refine serves_next (beside_pool (PoolRef.only_recordReplica idx false)) fun _ => ?_
  refine Prog.wp_ite (fun _ => ?_) fun _ => hfail
  refine serves_next (Prog.only_perform ⟨rfl, rfl⟩) fun _ => ?_
  refine serves_next (beside_pool PoolRef.only_getReplica) fun again => ?_
  rcases again with e | ⟨fresh, freshIdx⟩
  · exact answered_error e
  dsimp only
  refine serves_next (beside_replay _) fun _ => ?_
  rw [Prog.wp_bind]
  refine Prog.wp_mono serves_executeQuery fun r g' hr => ?_
  rcases r with e | response
  · exact hfail
  obtain rfl : g' = g := hr
  dsimp only
  refine serves_next (beside_pool (PoolRef.only_recordReplica freshIdx true)) fun _ => ?_
  refine serves_next (beside_pool (PoolRef.only_giveBack fresh freshIdx)) fun _ => ?_
  exact h.unstored hfailed _

/-- The replica path stores what it has got at the first exchange. -/
theorem serves_routeReplica {cacheAllowed : Bool} (h : Ready rt text g) (hfailed : g.failed = false)
    (hallowed : g.missed = [] ∨ cacheAllowed = true) :
    (routeReplica pool text bytes timeoutMs cacheAllowed m rt).wp (serves u) (Answered rt) g := by
  rw [routeReplica]
  refine serves_next (beside_pool PoolRef.only_getReplica) fun got => ?_
  rcases got with e | ⟨c, idx⟩
  · exact answered_error e
  dsimp only
  refine serves_next (beside_replay _) fun _ => ?_
  rw [Prog.wp_bind]
  refine Prog.wp_mono serves_execute fun r g' hr => ?_
  rcases r with e | response
  · -- from here on nothing is stored, whatever the retry brings
    obtain rfl : g' = { g with failed := true } := hr
    exact serves_retryReplica h.fail rfl
  obtain rfl : g' = g := hr
  dsimp only
  refine serves_next (beside_pool (PoolRef.only_recordReplica idx true)) fun _ => ?_
  refine serves_next (beside_pool (PoolRef.only_giveBack c idx)) fun _ => ?_
  have hlast : ∀ g'' : Serving u, Answered rt (.ok response) g'' → (do
      fireMirror m text
      pure (.ok response) : Task (Except Str Response)).wp (serves u) (Answered rt) g'' := by
    intro g'' hanswered
    exact serves_next beside_mirror fun _ => hanswered
  refine Prog.wp_ite (fun _ => ⟨trivial, fun _ g'' hstep => ?_⟩) fun hnot => hlast _ ?_
  · obtain ⟨now, c, c', -, hmeanwhile, hput, rfl⟩ := hstep
    exact hlast _ (h.store hfailed hmeanwhile hput)
  · rcases hallowed with hmissed | rfl
    · exact answered_unasked hmissed
    · -- the rule allows it, so the response is an error
      intro response' heq hfine
      cases heq
      simp [hfine] at hnot

/-- Handing a query over does not ask the cache. -/
theorem noLookUp_hands {p : Task α} {sqls : List Str} (hp : p.Only (Hands bytes sqls)) :
    p.Only NoLookUp := by
  refine hp.mono fun o ho key => ?_
  rintro rfl
  exact ho

theorem noLookUp_pool {p : Task α} (hp : p.Only OfPool) : p.Only NoLookUp :=
  noLookUp_hands (hands_pool hp : p.Only (Hands [] []))

/-- The write path does not ask the cache. -/
theorem noLookUp_routePrimary :
    (routePrimary pool text bytes timeoutMs m rt).Only NoLookUp := by
  have hact : ∀ {o : Op}, NoLookUp o → (act o).Only NoLookUp :=
    fun ho => Prog.only_perform ho
  rw [routePrimary]
  refine Prog.only_bind (noLookUp_pool PoolRef.only_getPrimary) fun got => ?_
  rcases got with e | c
  · trivial
  have hreplay : (replaySessionVars .loan c rt.sessionInitSqls).Only (Hands bytes rt.sessionInitSqls) :=
    replay_hands fun _ h => h
  refine Prog.only_bind (noLookUp_hands hreplay) fun _ => ?_
  have hexecute : (execute c bytes timeoutMs).Only (Hands bytes []) := execute_hands
  refine Prog.only_bind (noLookUp_hands hexecute) fun r => ?_
  rcases r with e | response
  · refine Prog.only_bind (hact (by rintro _ ⟨⟩)) fun _ =>
      Prog.only_ite ?_ (Prog.only_bind (hact (by rintro _ ⟨⟩)) fun _ => trivial)
    exact Prog.only_bind (hact (by rintro _ ⟨⟩)) fun _ => noLookUp_hands retryPrimary_hands
  · refine Prog.only_bind (hact (by rintro _ ⟨⟩)) fun _ => ?_
    refine Prog.only_bind (noLookUp_pool (PoolRef.only_putPrimary c)) fun _ => ?_
    refine Prog.only_ite_then (fun hmirror => Prog.only_bind (hact (by rintro _ ⟨⟩)) fun _ => hmirror) ?_
    refine Prog.only_bind ?_ fun _ => trivial
    rw [fireMirror]
    split
    · exact hact (by rintro _ ⟨⟩)
    · trivial

/-- After a look-up in vain a route is ready to store. -/
theorem ready_lookUp {now : Nat} (hmissed : g.missed = []) (hcacheable : isCacheable text = true)
    (hmiss : none = (g.cache.get (scopedCacheKey rt text) now).2) :
    Ready rt text (g.lookUp (scopedCacheKey rt text) now) := by
  have hkeys : (g.lookUp (scopedCacheKey rt text) now).missed = [scopedCacheKey rt text] := by
    rw [Serving.lookUp, if_pos hmiss.symm, hmissed]
  refine ⟨fun key hkey => ?_, fun key hkey => ?_, fun _ => hcacheable⟩
  · exact List.mem_singleton.mp (hkeys ▸ hkey)
  · obtain rfl := List.mem_singleton.mp (hkeys ▸ hkey)
    exact QueryCache.absent_of_get hmiss.symm

/-- After a look-up that found something nothing has been missed. -/
theorem unasked_lookUp {now : Nat} {cached : Bytes} (hmissed : g.missed = [])
    (hhit : some cached = (g.cache.get key now).2) : (g.lookUp key now).missed = [] := by
  rw [Serving.lookUp, ← hhit, if_neg nofun]
  exact hmissed

theorem ready_unasked (hmissed : g.missed = []) : Ready rt text g := by
  constructor
  · intro key hkey
    rw [hmissed] at hkey
    cases hkey
  · intro key hkey
    rw [hmissed] at hkey
    cases hkey
  · exact fun hasked => absurd hmissed hasked

/-- Cache, then the replica or the write path. -/
theorem serves_routeSplit (hmissed : g.missed = []) (hfailed : g.failed = false) :
    (routeSplit pool text bytes timeoutMs m rt).wp (serves u) (Answered rt) g := by
  rw [routeSplit]
  refine Prog.wp_ite (fun hask => ?_) fun _ => ?_
  · simp only [Bool.and_eq_true] at hask
    obtain ⟨⟨hreplica, hallowed⟩, hcacheable⟩ := hask
    refine ⟨trivial, fun cached g' hstep => ?_⟩
    obtain ⟨now, -, hcached, rfl⟩ := hstep
    rcases cached with _ | b
    · dsimp only [Prog.pure_eq, Prog.done_bind]
      rw [if_pos hreplica]
      exact serves_routeReplica (ready_lookUp hmissed hcacheable hcached) hfailed (.inr hallowed)
    · exact answered_unasked (unasked_lookUp hmissed hcached)
  · refine Prog.wp_ite (fun _ => ?_) fun _ => ?_
    · exact serves_routeReplica (ready_unasked hmissed) hfailed (.inl hmissed)
    · exact Prog.wp_mono (serves_unasked noLookUp_routePrimary hmissed) fun r g' hg => answered_unasked hg

/-- Hostgroup routing stores what it has got if its rule allows it. -/
theorem serves_routeHostgroup {hg ttl : Nat} (hmissed : g.missed = []) (hfailed : g.failed = false) :
    (routeHostgroup pool hg ttl text bytes timeoutMs rt).wp (serves u) (Answered rt) g := by
  have hmiss : ∀ g : Serving u, Ready rt text g → g.failed = false → (g.missed = [] ∨ 0 < ttl) →
      (askHostgroup pool hg ttl text bytes timeoutMs rt none).wp (serves u) (Answered rt) g := by
    intro g h hfailed hallowed
    refine serves_next (beside_pool (PoolRef.only_getHostgroup hg)) fun got => ?_
    rcases got with e | ⟨c, putIdx⟩
    · exact answered_error e
    rw [runOnHostgroup, Prog.wp_bind]
    refine Prog.wp_mono serves_execute fun r g' hr => ?_
    rcases r with e | response
    · exact ⟨trivial, fun _ _ _ => answered_error e⟩
    obtain rfl : g' = g := hr
    dsimp only
    refine serves_next (beside_pool (PoolRef.only_giveBack c putIdx)) fun _ => ?_
    refine Prog.wp_ite (fun _ => ⟨trivial, fun _ g'' hstep => ?_⟩) fun hnot => ?_
    · obtain ⟨now, c, c', -, hmeanwhile, hput, rfl⟩ := hstep
      exact h.store hfailed hmeanwhile hput
    · rcases hallowed with hmissed | hallowed
      · refine Prog.wp_ite (fun _ => ⟨trivial, fun _ g'' hstep => ?_⟩) fun _ => answered_unasked hmissed
        obtain rfl : g'' = _ := hstep
        exact answered_unasked hmissed
      · -- only a response with an error is not stored
        have herror : response.isError = true := by simpa [hallowed] using hnot
        refine Prog.wp_ite (fun hfine => ?_) fun _ response' heq hfine => ?_
        · simp [herror] at hfine
        · cases heq
          cases herror.symm.trans hfine
  rw [routeHostgroup]
  refine Prog.wp_ite (fun hask => ⟨trivial, fun cached g' hstep => ?_⟩) fun _ => ?_
  · simp only [Bool.and_eq_true, decide_eq_true_eq] at hask
    obtain ⟨hallowed, hcacheable⟩ := hask
    obtain ⟨now, -, hcached, rfl⟩ := hstep
    rcases cached with _ | b
    · exact hmiss _ (ready_lookUp hmissed hcacheable hcached) hfailed (.inr hallowed)
    · exact answered_unasked (unasked_lookUp hmissed hcached)
  · exact hmiss g (ready_unasked hmissed) hfailed (.inl hmissed)

/-- Rules: rate limit, hostgroup, then the split. -/
theorem serves_dispatch (hmissed : g.missed = []) (hfailed : g.failed = false) :
    (dispatch pool text bytes timeoutMs rt).wp (serves u) (Answered rt) g := by
  rw [dispatch]
  refine serves_next (Prog.only_perform ⟨rfl, rfl⟩) fun m => ?_
  rcases m with _ | ⟨destination, ttl, mirror, limited, ff⟩
  · exact serves_routeSplit hmissed hfailed
  refine Prog.wp_ite (fun _ => answered_error _) fun _ => ?_
  cases destination with
  | hostgroup hg => exact serves_routeHostgroup hmissed hfailed
  | any => exact serves_routeSplit hmissed hfailed
  | primary => exact serves_routeSplit hmissed hfailed
  | replica => exact serves_routeSplit hmissed hfailed

/-- A request can find what it has stored, or cannot. -/
theorem serves_routeQueryInner {sql : Bytes} {txConn : Option ConnId} {inTransaction : Bool} (hmissed : g.missed = [])
    (hfailed : g.failed = false) :
    (routeQueryInner sql txConn inTransaction rt).wp (serves u) (fun r g => Answered rt r.2 g) g := by
  rw [routeQueryInner]
  refine serves_next (Prog.only_perform ⟨rfl, rfl⟩) fun pool => Prog.wp_ite (fun _ => ?_) fun _ => ?_
  · exact Prog.wp_mono (serves_unasked (noLookUp_hands routeInTx_hands) hmissed) fun r g' hg => answered_unasked hg
  rw [Prog.wp_bind]
  refine Prog.wp_mono (Q := Answered rt) ?_ fun r g' hg => hg
  unfold routeAutocommit
  dsimp only
  refine serves_next (Prog.only_perform ⟨rfl, rfl⟩) fun timeoutMs => ?_
  refine serves_next (Prog.only_perform ⟨rfl, rfl⟩) fun outcome => ?_
  rcases outcome with _ | text | msg
  · exact serves_dispatch hmissed hfailed
  · exact serves_dispatch hmissed hfailed
  · exact answered_error msg

end Routes

/-! ## Runs -/

section Runs

variable {g g' : Serving u} {log : Log} {key : Str}

/-- The ghost state knows what was looked up in vain, -/
theorem follows_missed (h : (serves u).Follows g log g') : key ∈ g'.missed ↔ key ∈ g.missed ∨ Missed log key := by
  induction log generalizing g with
  | nil =>
    obtain rfl : g' = g := h
    simp [Missed]
  | cons e log ih =>
    obtain ⟨g₁, hstep, hrest⟩ := h
    have hcons : Missed (e :: log) key ↔ Missed [e] key ∨ Missed log key := by simp [Missed]
    rw [ih hrest, (serves_step hstep).1, hcons, ← or_assoc, or_comm (a := key ∈ g.missed)]

/-- and whether an exchange has failed. -/
theorem follows_failed (h : (serves u).Follows g log g') : g'.failed = true ↔ g.failed = true ∨ ExchangeFailed log := by
  induction log generalizing g with
  | nil =>
    obtain rfl : g' = g := h
    simp [ExchangeFailed]
  | cons e log ih =>
    obtain ⟨g₁, hstep, hrest⟩ := h
    have hcons : ExchangeFailed (e :: log) ↔ ExchangeFailed [e] ∨ ExchangeFailed log := by
      simp only [ExchangeFailed, List.mem_cons, List.not_mem_nil, or_false, exists_or]
    rw [ih hrest, (serves_step hstep).2, hcons, ← or_assoc, or_comm (a := g.failed = true)]

/-- What a request makes of the cache, from its first operation to its last. -/
def UsesCache (c : QueryCache u) (since : Nat) (log : Log) (c' : QueryCache u) (last : Nat) : Prop :=
  ∃ g : Serving u, (serves u).Follows ⟨c, since, [], false⟩ log g ∧ g.cache = c' ∧ g.now = last

end Runs

/-- A request asked the cache for a text in vain, and a backend has answered it without an error. -/
structure Fill (u : Casing) (rt : Route) (text : Str) (log : Log) (response : Response) (c : QueryCache u)
    (last : Nat) : Prop where
  /-- it is a run of the router -/
  ran : ∃ sql txConn inTransaction txConn',
    (routeQueryInner sql txConn inTransaction rt).Run log (txConn', .ok response)
  /-- the cache has come to this -/
  uses : ∃ c₀ since, UsesCache (u := u) c₀ since log c last
  /-- it asked for the text -/
  missed : Missed log (scopedCacheKey rt text)
  /-- the response can be cached -/
  fine : response.isError = false

/-- What the router has stored it finds again if the request named no database and no exchange had failed, and only
then; and two queries have two keys unless they clash. -/
theorem stored_found_iff (u : Casing) :
    (∀ {rt : Route} {text : Str} {log : Log} {response : Response} {c : QueryCache u} {last : Nat},
      Fill u rt text log response c last → ∀ now < last + c.ttl,
        ((c.get (scopedCacheKey rt text) now).2 = some response.bytes ↔ rt.database = none ∧ ¬ExchangeFailed log)) ∧
    ∀ {rt rt' : Route} {sql sql' : Str}, (rt.database, sql) ≠ (rt'.database, sql') →
      (scopedCacheKey rt sql ≠ scopedCacheKey rt' sql' ↔
        ¬Clash rt.database sql rt'.database sql' ∧ ¬Clash rt'.database sql' rt.database sql) := by
  constructor
  · intro rt text log response c last h now hlive
    obtain ⟨sql, txConn, inTransaction, txConn', hrun⟩ := h.ran
    obtain ⟨c₀, since, g, hfollows, rfl, rfl⟩ := h.uses
    have hanswered := Prog.wp_run (serves_routeQueryInner rfl rfl) hrun hfollows
    have hmissed := (follows_missed hfollows).mpr (.inr h.missed)
    have hfailed : g.failed = true ↔ ExchangeFailed log := by simpa using follows_failed hfollows
    obtain ⟨hfound, hlost⟩ := hanswered response rfl h.fine _ hmissed
    constructor
    · intro hhit
      by_contra hnot
      have hbad : rt.database ≠ none ∨ g.failed = true := by
        rw [hfailed]
        exact not_and_or.mp hnot |>.imp_right not_not.mp
      cases (hlost hbad now).symm.trans hhit
    · rintro ⟨hdb, hsound⟩
      exact hfound hdb (Bool.not_eq_true _ ▸ fun hfail => hsound (hfailed.mp hfail)) now hlive
  · intro rt rt' sql sql' hne
    rw [Ne, scopedCacheKey_eq_iff, ← not_or, not_iff_not]
    exact ⟨fun h => h.resolve_left hne, .inr⟩

/-! ## A read -/

/-- A query. -/
def selectOne : Bytes := asciiBytes "SELECT 1"

/-- Its response. -/
def oneRow : Response := ⟨[1], false, [], none⟩

/-- A read on a pool without replicas: it is not cached, and the primary answers. -/
def coldRead (db : Option Str) : Log :=
  let key := scopedCacheKey ⟨true, [], [], [], db⟩ (textOf selectOne)
  [⟨.readPool, ⟨0, []⟩⟩, ⟨.maxQueryTime, 0⟩, ⟨.rewrite (textOf selectOne), .unchanged⟩,
    ⟨.matchQuery (textOf selectOne) [] [], none⟩, ⟨.cacheGet key, none⟩, ⟨.loadGr 0, (-1 : Int)⟩,
    ⟨.loadFailover 0, (-1 : Int)⟩, ⟨.primaryAllows 0, true⟩, ⟨.get ⟨0, .primary⟩ db, .ok 7⟩,
    ⟨.talk .client .loan 7 (.text selectOne) none, .ok oneRow⟩, ⟨.loadFailover 0, (-1 : Int)⟩,
    ⟨.put ⟨0, .primary⟩ 7 db, ()⟩, ⟨.cachePut key oneRow.bytes, ()⟩]

theorem selectOne_cacheable : isCacheable (textOf selectOne) = true := by decide +kernel

theorem coldRead_run (db : Option Str) :
    (routeQueryInner selectOne none false ⟨true, [], [], [], db⟩).Run (coldRead db) (none, .ok oneRow) := by
  have hsplit : (routeSplit ⟨0, []⟩ (textOf selectOne) selectOne 0 none ⟨true, [], [], [], db⟩).Run
      ((coldRead db).drop 4) (.ok oneRow) := by
    rw [routeSplit]
    rw [selectOne_cacheable]
    exact .op (.op (.op (.op (.op (.op (.op (.op (.op (.done _)))))))))
  refine .op (.op (.op (.op ?_)))
  exact Prog.run_bind.mpr ⟨.ok oneRow, _, [], (List.append_nil _).symm, hsplit, .done _⟩

/-- On an empty cache, with all of it in one moment. -/
theorem coldRead_uses {db : Option Str} {c : QueryCache .ascii} (hput : (QueryCache.new .ascii 1 30).put
    (scopedCacheKey ⟨true, [], [], [], db⟩ (textOf selectOne)) oneRow.bytes 0 = some c) :
    UsesCache (.new .ascii 1 30) 0 (coldRead db) c 0 := by
  refine ⟨_, ⟨_, rfl, _, rfl, _, rfl, _, rfl, _, ⟨0, Nat.le_refl _, rfl, rfl⟩, _, rfl, _, rfl, _, rfl, _, rfl, _, rfl,
    _, rfl, _, rfl, _, ⟨0, _, _, Nat.le_refl _, .refl _, hput, rfl⟩, rfl⟩, rfl, rfl⟩

theorem coldRead_fill {db : Option Str} {c : QueryCache .ascii} (hput : (QueryCache.new .ascii 1 30).put
    (scopedCacheKey ⟨true, [], [], [], db⟩ (textOf selectOne)) oneRow.bytes 0 = some c) :
    Fill .ascii ⟨true, [], [], [], db⟩ (textOf selectOne) (coldRead db) oneRow c 0 where
  ran := ⟨_, _, _, _, coldRead_run db⟩
  uses := ⟨_, _, coldRead_uses hput⟩
  missed := List.mem_of_mem_drop (i := 4) (.head _)
  fine := rfl

/-- Without a database it is found, and two databases have two keys. -/
theorem stored_found_plain :
    (∃ c, (QueryCache.new .ascii 1 30).put (textOf selectOne) [1] 0 = some c ∧
      (c.get (textOf selectOne) 29).2 = some [1]) ∧
      scopedCacheKey ⟨true, [], [], [], some ['a']⟩ (textOf selectOne) ≠
        scopedCacheKey ⟨true, [], [], [], some ['b']⟩ (textOf selectOne) := by
  constructor
  · obtain ⟨c, hput⟩ := Option.isSome_iff_exists.mp (show
      ((QueryCache.new .ascii 1 30).put (textOf selectOne) [1] 0).isSome = true by decide +kernel)
    have hfill : Fill .ascii ⟨true, [], [], [], none⟩ (textOf selectOne) (coldRead none) oneRow c 0 := coldRead_fill hput
    refine ⟨c, hput, ((stored_found_iff .ascii).1 hfill 29 ?_).mpr ⟨rfl, ?_⟩⟩
    · rw [(QueryCache.put_config hput).1]
      decide
    · rintro ⟨via, c, p, limit, e, hfailed⟩
      simp [coldRead] at hfailed
  · refine ((stored_found_iff .ascii).2 ?_).mpr ⟨?_, ?_⟩
    · decide
    · exact fun hclash => absurd hclash.shorter (by decide)
    · exact fun hclash => absurd hclash.shorter (by decide)

/-- With a database it is not found, and a text can spell the key of another query. -/
theorem stored_not_always_found :
    (∃ rt text log response c, Fill .ascii rt text log response c 0 ∧ ¬ExchangeFailed log ∧
      (c.get (scopedCacheKey rt text) 0).2 ≠ some response.bytes) ∧
    ∃ rt rt' sql sql', (rt.database, sql) ≠ (rt'.database, sql') ∧ scopedCacheKey rt sql = scopedCacheKey rt' sql' := by
  constructor
  · have hput : (QueryCache.new .ascii 1 30).put (scopedCacheKey ⟨true, [], [], [], some ['a']⟩ (textOf selectOne))
        oneRow.bytes 0 = some (QueryCache.new .ascii 1 30) :=
      QueryCache.put_uncacheable (scopedCacheKey_uncacheable (textOf selectOne) (Option.some_ne_none _))
    refine ⟨_, _, _, _, _, coldRead_fill hput, ?_, ?_⟩
    · rintro ⟨via, c, p, limit, e, hfailed⟩
      simp [coldRead] at hfailed
    · exact Option.some_ne_none _ ∘ Eq.symm
  · exact ⟨⟨true, [], [], [], some ['a']⟩, ⟨true, [], [], [], some "a] SELECT 1".toList⟩,
      "SELECT 1] SELECT 2".toList, "SELECT 2".toList, by decide, by decide⟩

end TurbineProxy
