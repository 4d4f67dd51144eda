import TurbineProxy.Accounts
import TurbineProxy.Routine
import TurbineProxy.Servers

/-!
# Whose breaker records what

`route_query_inner` chooses the breaker by the branch it is on: the write path records with
`primary_breaker`, a read from replica `i` with `replica_breakers[i]`. The server it chooses by the role
indices, which `get_primary_for_database` looks up at that moment. `errandProxy` is the proxy with a
note of each session's last checkout and of the connection of its last command.

`records_attributed` says along which runs every record is about a request to the server it is recorded
with: as long as nobody stands in for the primary when a session looks it up, and connections go back to
pools of their own server. While a replica stands in, each write it serves is recorded with the
breaker of the configured primary (`write_misattributed`).
-/

namespace TurbineProxy

variable {srv : Server}

/-! ## The note -/

/-- What a session has done last. -/
structure Errand where
  /-- the `BackendPool` it got from the router -/
  pool : Option PoolRef
  /-- its last checkout: the connection and the pool that lent it -/
  lent : Option (ConnId × Origin)
  /-- the connection of its last command for the client -/
  ran : Option ConnId

namespace Errand

/-- The note after an operation. -/
def after (n : Errand) : (o : Op) → Res o → Errand
  | .readPool, pool => { n with pool := some pool }
  | .get o _, .ok c => { n with lent := some (c, o) }
  | .talk .client _ c _ _, _ => { n with ran := some c }
  | _, _ => n

/-- The last command went out on the connection that was checked out last, which came from pool `o`. -/
def RanFrom (n : Errand) (o : Origin) : Prop := ∃ c, n.ran = some c ∧ n.lent = some (c, o)

/-- An index that a session looks up names no replica of its pool. -/
def Unpromoted (n : Errand) : (o : Op) → Res o → Prop
  | .loadGr gen, idx => ∀ pool, n.pool = some pool → pool.gen = gen → pool.replicaAt idx = none
  | .loadFailover gen, idx => ∀ pool, n.pool = some pool → pool.gen = gen → pool.replicaAt idx = none
  | _, _ => True

end Errand

/-- The proxy with a note for every session. -/
def errandProxy (srv : Server) (cfg : ProxyConfig) :
    Machine Op Res In (World srv × (Nat → Errand)) Session SessionEvent Admin where
  react := Session.react cfg
  handle w i o inp := (w.1.handle i o inp).map fun r =>
    ((r.1, Function.update w.2 i ((w.2 i).after o r.2)), r.2)
  env w e := (w.1.act e).map fun w' => (w', w.2)
  stop w i := some ((w.1.stop i, w.2), .absent)

/-- A state of the proxy with its notes. -/
abbrev ErrandState (srv : Server) := Sys Op Res (World srv × (Nat → Errand)) Session SessionEvent

/-- The proxy that has just started. -/
def errandStart (srv : Server) (primary : PoolConfig) (replicas : List PoolConfig) (clients : List Client) :
    ErrandState srv :=
  ⟨(.new srv primary replicas, fun _ => ⟨none, none, none⟩),
    fun i => .idle (clients[i]?.elim .absent Client.session)⟩

/-! ## A record is about the last command -/

/-- A breaker records the last command of the session, which ran on a connection from its own pool. -/
def attributing : Protocol Op Res Errand where
  owes n
    | .primaryRecord gen _ => n.RanFrom ⟨gen, .primary⟩
    | .replicaRecord gen i _ => n.RanFrom ⟨gen, .replica i⟩
    | _ => True
  step n o r n' := n' = n.after o r ∧ n.Unpromoted o r

/-- Any note will do. -/
abbrev AnyErrand (_ : Errand) : Prop := True

/-- The operations that no note is taken of. -/
def Op.aside : Op → Bool
  | .readPool | .get .. | .talk .client _ _ _ _ | .primaryRecord .. | .replicaRecord .. => false
  | _ => true

section Routes

variable {α : Type} {pool : PoolRef} {sql : Str} {bytes : Bytes} {timeoutMs : Nat} {rt : Route} {n : Errand}

theorem owes_aside {o : Op} (ho : o.aside = true) :
    attributing.owes n o ∧ ∀ r n', attributing.step n o r n' → n' = n := by
  cases o with
  | talk who via c p limit =>
    cases who with
    | client => cases ho
    | _ => exact ⟨trivial, fun _ _ h => h.1⟩
  | _ => first | exact ⟨trivial, fun _ _ h => h.1⟩ | cases ho

theorem note_aside {p : Task α} (hp : p.Only fun o => o.aside = true) {Q : α → Errand → Prop}
    (hQ : ∀ a, Q a n) : p.wp attributing Q n :=
  Prog.wp_of_only (fun _ ho => owes_aside ho) hp hQ

theorem aside_next {o : Op} {f : Res o → Task α} (ho : o.aside = true) {Q : α → Errand → Prop}
    (hf : ∀ r, (f r).wp attributing Q n) : (act o >>= f).wp attributing Q n :=
  Prog.wp_bind_of_only (fun _ ho => owes_aside ho) (Prog.only_perform ho) hf

/-- What routine operations do to the note matters to no later record. -/
theorem routine_attributing (o : Op) (ho : Routine o) (n : Errand) (_ : AnyErrand n) :
    attributing.owes n o ∧ ∀ r n', attributing.step n o r n' → AnyErrand n' := by
  refine ⟨?_, fun _ _ _ => trivial⟩
  cases o <;> first | exact trivial | cases ho

theorem attr_routine {p : Task α} (hp : p.Only Routine) : p.Keeps attributing AnyErrand :=
  Prog.keeps_of_only routine_attributing hp

theorem attr_drop {exit : Exit} {c : ConnId} {a : α} : ((do
    let _ : Unit ← act (.drop exit c)
    pure a) : Task α).Keeps attributing AnyErrand :=
  attr_routine ⟨rfl, fun _ => trivial⟩

theorem note_replay {c : ConnId} {sqls : List Str} {Q : Unit → Errand → Prop} (hQ : Q () n) :
    (replaySessionVars .loan c sqls).wp attributing Q n := by
  refine note_aside ?_ fun _ => hQ
  induction sqls with
  | nil => exact Prog.only_done _
  | cons sql rest ih => exact ⟨rfl, fun _ => ih⟩

/-! ## Checkouts -/

/-- A checkout is noted: the connection, and the pool it came from. -/
theorem note_get {o : Origin} {db : Option Str} {Q : Except Str ConnId → Errand → Prop}
    (hok : ∀ c, Q (.ok c) { n with lent := some (c, o) }) (herr : ∀ e, Q (.error e) n) :
    (act (.get o db)).wp attributing Q n := by
  refine ⟨trivial, fun r n' hstep => ?_⟩
  obtain ⟨rfl, -⟩ := hstep
  cases r with
  | error e => exact herr e
  | ok c => exact hok c

theorem note_loadGr {gen : Nat} {Q : Int → Errand → Prop}
    (hQ : ∀ idx, n.Unpromoted (.loadGr gen) idx → Q idx n) : (act (.loadGr gen)).wp attributing Q n := by
  refine ⟨trivial, fun idx n' hstep => ?_⟩
  obtain ⟨rfl, hnobody⟩ := hstep
  exact hQ idx hnobody

theorem note_loadFailover {gen : Nat} {Q : Int → Errand → Prop}
    (hQ : ∀ idx, n.Unpromoted (.loadFailover gen) idx → Q idx n) :
    (act (.loadFailover gen)).wp attributing Q n := by
  refine ⟨trivial, fun idx n' hstep => ?_⟩
  obtain ⟨rfl, hnobody⟩ := hstep
  exact hQ idx hnobody

/-- Nobody stands in for the primary: the connection comes from its own pool. -/
theorem note_getPrimary (hpool : n.pool = some pool) {db : Option Str}
    {Q : Except Str ConnId → Errand → Prop}
    (hok : ∀ c, Q (.ok c) { n with lent := some (c, pool.origin .primary) }) (herr : ∀ e, Q (.error e) n) :
    (pool.getPrimaryForDatabase db).wp attributing Q n := by
  rw [PoolRef.getPrimaryForDatabase]
  rw [Prog.wp_bind]
  refine note_loadGr fun gr hnobody => ?_
  rw [hnobody pool hpool rfl]
  dsimp only
  rw [Prog.wp_bind]
  refine note_loadFailover fun failover hnobody => ?_
  rw [hnobody pool hpool rfl]
  dsimp only
  refine aside_next rfl fun allowed => ?_
  exact Prog.wp_ite (fun _ => note_get hok herr) fun _ => herr _

/-- A replica index names the pool the connection comes from. -/
def FromReplica (pool : PoolRef) (c : ConnId) (idx : Option Nat) (n : Errand) : Prop :=
  ∀ i, idx = some i → n.lent = some (c, pool.origin (.replica i))

theorem note_candidates {backup : Bool} (l : List ((Nat × Bool) × Nat)) :
    (pool.candidates backup l).Only fun o => o.aside = true := by
  induction l with
  | nil => exact Prog.only_done _
  | cons e rest ih =>
    refine Prog.only_ite (Prog.only_bind (Prog.only_perform rfl) fun healthy => ?_) ih
    refine Prog.only_ite (Prog.only_bind (Prog.only_perform rfl) fun allowed => ?_) ih
    exact Prog.only_bind ih fun others => Prog.only_ite (Prog.only_done _) (Prog.only_done _)

section Replica

variable {db : Option Str}

theorem note_tryRemaining {chosen : Nat} {l : List (Nat × Nat)}
    {Q : Option (ConnId × Nat) → Errand → Prop}
    (hsome : ∀ c i, Q (some (c, i)) { n with lent := some (c, pool.origin (.replica i)) })
    (hnone : Q none n) : (pool.tryRemaining chosen db l).wp attributing Q n := by
  induction l with
  | nil => exact hnone
  | cons e rest ih =>
    refine Prog.wp_ite (fun _ => ih) fun _ => ?_
    rw [Prog.wp_bind]
    refine note_get (fun c => hsome c e.1) fun err => ?_
    exact aside_next rfl fun _ => ih

theorem note_tryWeighted {backup : Bool} {Q : Option (ConnId × Nat) → Errand → Prop}
    (hsome : ∀ c i, Q (some (c, i)) { n with lent := some (c, pool.origin (.replica i)) })
    (hnone : Q none n) : (pool.tryWeightedReplica backup db).wp attributing Q n := by
  rw [PoolRef.tryWeightedReplica]
  rw [Prog.wp_bind]
  refine note_aside (note_candidates _) fun cands => ?_
  cases cands with
  | nil => exact hnone
  | cons first rest =>
    dsimp only
    rw [Prog.wp_bind]
    refine note_aside ((PoolRef.chooses_choose _ _).mono fun o ho => by cases o <;> first | rfl | cases ho)
      fun choice => ?_
    cases choice with
    | none => exact hnone
    | some chosen =>
      dsimp only
      rw [Prog.wp_bind]
      refine note_get (fun c => hsome c _) fun err => ?_
      exact aside_next rfl fun _ => note_tryRemaining hsome hnone

/-- The primary as a fallback has no replica index, so nothing is said of it. -/
theorem note_getReplica {Q : Except Str (ConnId × Option Nat) → Errand → Prop}
    (hok : ∀ c idx n', FromReplica pool c idx n' → Q (.ok (c, idx)) n')
    (herr : ∀ e n', Q (.error e) n') : (pool.getReplicaForDatabase db).wp attributing Q n := by
  have hprimary : (pool.getPrimaryAsReplica db).wp attributing Q n := by
    have hany : (pool.getPrimaryForDatabase db).Keeps attributing AnyErrand :=
      attr_routine (routine_lends PoolRef.lends_getPrimary)
    rw [PoolRef.getPrimaryAsReplica]
    rw [Prog.wp_bind]
    refine Prog.wp_mono (hany n trivial) fun got n' _ => ?_
    cases got with
    | error e => exact herr e n'
    | ok c => exact hok c none n' (by rintro _ ⟨⟩)
  have hreplica : ∀ (c : ConnId) (i : Nat), FromReplica pool c (some i)
      { n with lent := some (c, pool.origin (.replica i)) } := by
    intro c i j hj
    rw [Option.some.inj hj]
  refine Prog.wp_ite (fun _ => hprimary) fun _ => ?_
  rw [Prog.wp_bind]
  refine note_tryWeighted (fun c i => hok c (some i) _ (hreplica c i)) ?_
  rw [Prog.wp_bind]
  exact note_tryWeighted (fun c i => hok c (some i) _ (hreplica c i)) hprimary

end Replica

/-! ## Commands and records -/

/-- The command of the client is noted, timed or not. -/
theorem note_execute {c : ConnId} {Q : Except Str Response → Errand → Prop}
    (hQ : ∀ r, Q r { n with ran := some c }) : (execute c bytes timeoutMs).wp attributing Q n := by
  refine Prog.wp_ite (fun _ => ?_) fun _ => ?_
  · refine ⟨trivial, fun r n' hstep => ?_⟩
    obtain ⟨rfl, -⟩ := hstep
    cases r with
    | ok resp => exact hQ _
    | error e =>
      cases e with
      | protocol e => exact hQ _
      | elapsed =>
        refine ⟨trivial, fun r n' hstep => ?_⟩
        obtain ⟨rfl, -⟩ := hstep
        exact hQ _
  · refine ⟨trivial, fun r n' hstep => ?_⟩
    obtain ⟨rfl, -⟩ := hstep
    exact hQ _

theorem note_executeQuery {c : ConnId} {Q : Except Str Response → Errand → Prop}
    (hQ : ∀ r, Q r { n with ran := some c }) :
    (executeQuery .client .loan c bytes).wp attributing Q n := by
  refine ⟨trivial, fun r n' hstep => ?_⟩
  obtain ⟨rfl, -⟩ := hstep
  exact hQ _

/-- A read from replica `i` is recorded with the breaker of replica `i`. -/
theorem note_recordReplica {c : ConnId} {idx : Option Nat} {success : Bool} (hran : n.ran = some c)
    (hfrom : FromReplica pool c idx n) {Q : Unit → Errand → Prop} (hQ : Q () n) :
    (pool.recordReplica idx success).wp attributing Q n := by
  cases idx with
  | none => exact hQ
  | some i =>
    refine Prog.wp_ite (fun _ => ?_) fun _ => hQ
    refine ⟨⟨c, hran, hfrom i rfl⟩, fun r n' hstep => ?_⟩
    obtain ⟨rfl, -⟩ := hstep
    exact hQ

theorem note_recordPrimary {c : ConnId} {success : Bool} (hran : n.ran = some c)
    (hlent : n.lent = some (c, pool.origin .primary)) {Q : Unit → Errand → Prop} (hQ : Q () n) :
    (act (.primaryRecord pool.gen success)).wp attributing Q n := by
  refine ⟨⟨c, hran, hlent⟩, fun r n' hstep => ?_⟩
  obtain ⟨rfl, -⟩ := hstep
  exact hQ

/-! ## `route_query_inner` -/

theorem note_retryReplica {c : ConnId} {idx : Option Nat} {e : Str} (hran : n.ran = some c)
    (hfrom : FromReplica pool c idx n) :
    (retryReplica pool bytes rt c idx e).wp attributing (fun _ => AnyErrand) n := by
  rw [retryReplica, Prog.wp_bind]
  refine note_recordReplica hran hfrom ?_
  refine Prog.wp_ite (fun _ => ?_) fun _ => attr_drop _ trivial
  refine aside_next rfl fun _ => ?_
  rw [Prog.wp_bind]
  refine note_getReplica (fun fresh freshIdx n hfrom => ?_) fun e n' => trivial
  dsimp only
  rw [Prog.wp_bind]
  refine note_replay ?_
  rw [Prog.wp_bind]
  refine note_executeQuery fun r => ?_
  cases r with
  | error e => exact attr_drop _ trivial
  | ok response =>
    dsimp only
    rw [Prog.wp_bind]
    refine note_recordReplica (n := { n with ran := some fresh }) rfl hfrom ?_
    exact Prog.keeps_bind (attr_routine (routine_lends (PoolRef.lends_giveBack fresh freshIdx)))
      (fun _ => Prog.keeps_done _) _ trivial

theorem attr_routeReplica {cacheAllowed : Bool} {m : Option RuleMatch} :
    (routeReplica pool sql bytes timeoutMs cacheAllowed m rt).Keeps attributing AnyErrand := by
  intro n _
  rw [routeReplica, Prog.wp_bind]
  refine note_getReplica (fun c idx n hfrom => ?_) fun e n' => trivial
  dsimp only
  rw [Prog.wp_bind]
  refine note_replay ?_
  rw [Prog.wp_bind]
  refine note_execute fun r => ?_
  -- the record is the next thing, whatever the outcome
  cases r with
  | error e => exact note_retryReplica (n := { n with ran := some c }) rfl hfrom
  | ok response =>
    dsimp only
    rw [Prog.wp_bind]
    refine note_recordReplica (n := { n with ran := some c }) rfl hfrom ?_
    have hlast := attr_routine (routine_mirrored m sql response)
    refine Prog.keeps_bind (attr_routine (routine_lends (PoolRef.lends_giveBack c idx))) (fun _ => ?_) _ trivial
    exact Prog.keeps_ite (Prog.keeps_bind (attr_routine (routine_act rfl)) fun _ => hlast) hlast

theorem note_retryPrimary (hpool : n.pool = some pool) :
    (retryPrimary pool bytes rt).wp attributing (fun _ => AnyErrand) n := by
  rw [retryPrimary]
  rw [Prog.wp_bind]
  refine note_getPrimary hpool (fun fresh => ?_) fun e => trivial
  dsimp only
  rw [Prog.wp_bind]
  refine note_replay ?_
  rw [Prog.wp_bind]
  refine note_executeQuery fun r => ?_
  cases r with
  | error e => exact attr_drop _ trivial
  | ok response =>
    dsimp only
    rw [Prog.wp_bind]
    refine note_recordPrimary (c := fresh) rfl rfl ?_
    exact Prog.keeps_bind (attr_routine (routine_lends (PoolRef.lends_putPrimary fresh)))
      (fun _ => Prog.keeps_done _) _ trivial

theorem note_routePrimary {m : Option RuleMatch} (hpool : n.pool = some pool) :
    (routePrimary pool sql bytes timeoutMs m rt).wp attributing (fun _ => AnyErrand) n := by
  rw [routePrimary]
  rw [Prog.wp_bind]
  refine note_getPrimary hpool (fun c => ?_) fun e => trivial
  dsimp only
  rw [Prog.wp_bind]
  refine note_replay ?_
  rw [Prog.wp_bind]
  refine note_execute fun r => ?_
  cases r with
  | error e =>
    dsimp only
    rw [Prog.wp_bind]
    refine note_recordPrimary (c := c) rfl rfl ?_
    refine Prog.wp_ite (fun _ => ?_) fun _ => attr_drop _ trivial
    exact aside_next rfl fun _ => note_retryPrimary hpool
  | ok response =>
    dsimp only
    rw [Prog.wp_bind]
    refine note_recordPrimary (c := c) rfl rfl ?_
    have hlast := attr_routine (routine_mirrored m sql response)
    refine Prog.keeps_bind (attr_routine (routine_lends (PoolRef.lends_putPrimary c))) (fun _ => ?_) _ trivial
    exact Prog.keeps_ite hlast (Prog.keeps_bind (attr_routine (routine_act rfl)) fun _ => hlast)

theorem attr_routeHostgroup {hg ttl : Nat} :
    (routeHostgroup pool hg ttl sql bytes timeoutMs rt).Keeps attributing AnyErrand :=
  keeps_routeHostgroup routine_attributing fun _ _ _ => note_execute fun _ => trivial

theorem note_routeSplit {m : Option RuleMatch} (hpool : n.pool = some pool) :
    (routeSplit pool sql bytes timeoutMs m rt).wp attributing (fun _ => AnyErrand) n := by
  have hmiss : (if (splitChoice m rt.useReplica).1 then
      routeReplica pool sql bytes timeoutMs (splitChoice m rt.useReplica).2 m rt
      else routePrimary pool sql bytes timeoutMs m rt).wp attributing (fun _ => AnyErrand) n :=
    Prog.wp_ite (fun _ => attr_routeReplica n trivial) fun _ => note_routePrimary hpool
  refine Prog.wp_ite (fun _ => ?_) fun _ => hmiss
  refine aside_next rfl fun cached => ?_
  cases cached with
  | none => exact hmiss
  | some b => exact trivial

theorem note_dispatch (hpool : n.pool = some pool) :
    (dispatch pool sql bytes timeoutMs rt).wp attributing (fun _ => AnyErrand) n := by
  rw [dispatch]
  refine aside_next rfl fun m => ?_
  cases m with
  | none => exact note_routeSplit hpool
  | some r =>
    refine Prog.wp_ite (fun _ => trivial) fun _ => ?_
    split
    · exact attr_routeHostgroup n trivial
    · exact note_routeSplit hpool

/-- **Every record is about the last command**, which went to a connection of the breaker's own pool. -/
theorem attr_routeQueryInner (sql : Bytes) (txConn : Option ConnId) (inTransaction : Bool) (rt : Route) :
    (routeQueryInner sql txConn inTransaction rt).Keeps attributing AnyErrand := by
  intro n _
  rw [routeQueryInner]
  rw [Prog.wp_bind]
  refine ⟨trivial, fun pool n' hstep => ?_⟩
  obtain ⟨rfl, -⟩ := hstep
  refine Prog.wp_ite (fun _ => attr_routine routine_routeInTx _ trivial) fun _ => ?_
  rw [Prog.wp_bind]
  rw [routeAutocommit]
  refine aside_next rfl fun timeoutMs => ?_
  refine aside_next rfl fun outcome => ?_
  cases outcome with
  | unchanged => exact note_dispatch rfl
  | rewritten s => exact note_dispatch rfl
  | blocked msg => exact trivial

end Routes

/-! ## Runs -/

namespace World

variable {w w' : World srv} {i : Nat} {o : Op} {inp : In o} {r : Res o} {n : Errand}

/-- A connection to the server of the installed pool `o`. -/
def Leads (w : World srv) (conn : Conn srv) (o : Origin) : Prop :=
  o.gen < w.refs.length ∧ (w.backendOf conn.opened).addr = (w.backendOf o).addr

instance (w : World srv) (conn : Conn srv) (o : Origin) : Decidable (w.Leads conn o) :=
  inferInstanceAs (Decidable (_ ∧ _))

/-- No installed pool of that number has a replica of that index. -/
def vacant (w : World srv) (gen : Nat) (idx : Int) : Bool :=
  w.refs.all fun pool => pool.gen != gen || (pool.replicaAt idx).isNone

/-- What an operation must find for the records to be right: nobody stands in for the primary that is
looked up, and a connection that is returned leads to the server of the pool it goes to. -/
def fair (w : World srv) (i : Nat) : Op → Bool
  | .loadGr gen => w.vacant gen (w.gr gen)
  | .loadFailover gen => w.vacant gen (w.failover gen)
  | .put o c _ => (w.hold i c).all fun conn => w.Leads conn o
  | _ => true

/-- The note of a session is true: its pool is installed, and its last checkout leads to the server of the
pool it came from. -/
structure Notes (w : World srv) (n : Errand) : Prop where
  /-- the pool -/
  pool : ∀ pool, n.pool = some pool → pool ∈ w.refs
  /-- the checkout -/
  lent : ∀ c o, n.lent = some (c, o) →
    o.gen < w.refs.length ∧ ∃ b, w.server c = some b ∧ b.addr = (w.backendOf o).addr

/-- Idle connections lead to the server of their pool. -/
def Loyal (w : World srv) : Prop := ∀ conn ∈ w.conns, ∀ o, conn.place = .idle o → w.Leads conn o

theorem leads_of_handle (hrefs : w'.refs = w.refs) (h : w.handle i o inp = some (w', r)) {conn : Conn srv}
    {o' : Origin} : w'.Leads conn o' ↔ w.Leads conn o' := by
  rw [Leads, Leads, hrefs, backendOf_handle h]

theorem Loyal.handle (hl : w.Loyal) (hw : w.Coherent) (hrefs : w'.refs = w.refs) (hfair : w.fair i o = true)
    (h : w.handle i o inp = some (w', r)) : w'.Loyal := by
  have hall := handle_forall (P := fun conn => ∀ o, conn.place = .idle o → w.Leads conn o) hw hl
    (fun _ _ _ hplace => by cases hplace) h ?_
  · exact fun conn hmem o' hplace => (leads_of_handle hrefs h).2 (hall conn hmem o' hplace)
  cases o with
  | get o db =>
    intro c _ o' hplace
    rw [(w.lent_place i o inp c).1] at hplace
    cases hplace
  | put o c db =>
    intro conn hc _ o' hplace
    obtain rfl := Place.idle.inj hplace
    have hleads : w.Leads conn o := by simpa [fair, hc] using hfair
    exact hleads
  | talk who via c p limit =>
    intro conn hc o' hplace
    rw [(conn.talk_frame i p inp).1, (hold_eq_some.mp hc).2] at hplace
    cases hplace
  | _ => trivial

/-- A connection that is checked out of a pool leads to its server. -/
theorem lent_leads {o : Origin} {db : Option Str} {d : GetDecision} {c : ConnId} (hl : w.Loyal)
    (hw : w.Coherent) (h : w.handle i (.get o db) d = some (w', .ok c)) :
    o.gen < w.refs.length ∧ ∃ b, w'.server c = some b ∧ b.addr = (w.backendOf o).addr := by
  obtain ⟨hgen, p', evicted, hgot⟩ := get_got hw h
  refine ⟨hgen, w'.backendOf (w.lent i o d c).opened, ?_, ?_⟩
  · rw [server, hgot.hit c rfl, Option.map_some]
  · rw [backendOf_handle h]
    rw [lent]
    split
    · rename_i conn hconn
      exact (hl conn (List.mem_of_getElem? hconn) o (hgot.was c rfl conn hconn)).2
    · rw [(Conn.open_frame ..).2.2]

/-- A note stays true through the operations of all sessions. -/
theorem Notes.handle (hn : w.Notes n) (hw : w.Coherent) (hrefs : w'.refs = w.refs)
    (h : w.handle i o inp = some (w', r)) : w'.Notes n := by
  refine ⟨fun pool hpool => hrefs ▸ hn.pool pool hpool, fun c o' hlent => ?_⟩
  obtain ⟨hgen, b, hb, haddr⟩ := hn.lent c o' hlent
  rw [hrefs, backendOf_handle h]
  exact ⟨hgen, b, server_handle hw hb h, haddr⟩

/-- So does the one that the operation itself changes. -/
theorem Notes.after (hn : w.Notes n) (hl : w.Loyal) (hw : w.Coherent) (hrefs : w'.refs = w.refs)
    (h : w.handle i o inp = some (w', r)) : w'.Notes (n.after o r) := by
  have hsame := hn.handle hw hrefs h
  cases o with
  | readPool =>
    obtain ⟨ref, href, heq⟩ := Option.map_eq_some_iff.mp h
    obtain ⟨rfl, rfl⟩ := Prod.mk.inj heq
    refine ⟨fun pool hpool => ?_, hsame.lent⟩
    obtain rfl := Option.some.inj hpool
    exact List.mem_of_getElem? href
  | get o db =>
    cases r with
    | error e => exact hsame
    | ok c =>
      refine ⟨hsame.pool, fun c' o' hlent => ?_⟩
      obtain ⟨rfl, rfl⟩ := Prod.mk.inj (Option.some.inj hlent)
      rw [hrefs, backendOf_handle h]
      exact lent_leads hl hw h
  | talk who via c p limit =>
    cases who with
    | client => exact ⟨hsame.pool, hsame.lent⟩
    | _ => exact hsame
  | _ => exact hsame

/-- The indices a session looks up name nobody. -/
theorem Notes.unpromoted (hn : w.Notes n) (hfair : w.fair i o = true)
    (h : w.handle i o inp = some (w', r)) : n.Unpromoted o r := by
  have hvacant : ∀ {gen : Nat} {idx : Int}, w.vacant gen idx = true →
      ∀ pool, n.pool = some pool → pool.gen = gen → pool.replicaAt idx = none := by
    intro gen idx hv pool hpool hgen
    have hall := List.all_eq_true.mp hv pool (hn.pool pool hpool)
    simpa [hgen] using hall
  cases o with
  | loadGr gen =>
    obtain ⟨-, rfl⟩ := Prod.mk.inj (Option.some.inj h)
    exact hvacant hfair
  | loadFailover gen =>
    obtain ⟨-, rfl⟩ := Prod.mk.inj (Option.some.inj h)
    exact hvacant hfair
  | _ => exact trivial

theorem Notes.act {e : Admin} (hn : w.Notes n) (hr : w.Rooted) (h : w.act e = some w') : w'.Notes n := by
  refine ⟨fun pool hpool => (refs_act h).subset (hn.pool pool hpool), fun c o' hlent => ?_⟩
  obtain ⟨hgen, b, hb, haddr⟩ := hn.lent c o' hlent
  refine ⟨Nat.lt_of_lt_of_le hgen (refs_act h).length_le, b, server_act hr hb h, ?_⟩
  rw [backendOf_act h hgen]
  exact haddr

theorem Loyal.act {e : Admin} (hl : w.Loyal) (hr : w.Rooted) (h : w.act e = some w') : w'.Loyal := by
  intro conn hmem o hplace
  rw [act_conns h] at hmem
  obtain ⟨hgen, haddr⟩ := hl conn hmem o hplace
  refine ⟨Nat.lt_of_lt_of_le hgen (refs_act h).length_le, ?_⟩
  rw [backendOf_act h hgen, backendOf_act h (hr conn hmem)]
  exact haddr

theorem Notes.stop (hn : w.Notes n) : (w.stop i).Notes n :=
  ⟨hn.pool, fun c o hlent => by rw [server_stop]; exact hn.lent c o hlent⟩

theorem Loyal.stop (hl : w.Loyal) : (w.stop i).Loyal :=
  stop_forall (P := fun conn => ∀ o, conn.place = .idle o → w.Leads conn o) hl fun _ _ _ hplace => by cases hplace

end World

/-- The steps on which nobody stands in for a primary that is looked up, and connections go back to a pool
of their own server. -/
def rolesVacant (s : ErrandState srv) : ProxyEvent → Bool
  | .op i _ => (s.next i).all (s.world.1.fair i)
  | _ => true

/-- The notes stay true, and every record is about the last command. -/
def errandOutline (srv : Server) (cfg : ProxyConfig) :
    Outline (errandProxy srv cfg) (fun s e => rolesVacant s e = true) Errand where
  inv w := w.1.Coherent ∧ w.1.Rooted ∧ w.1.Loyal ∧ ∀ i, w.1.Notes (w.2 i)
  hold w i := w.2 i
  proto _ _ _ := attributing
  idle _ n _ := AnyErrand n
  msg_ok _ _ _ _ hreact := Session.keeps_react routine_attributing attr_routeQueryInner hreact _ trivial
  op_ok {s i st m o k inp w' r} hinv hi _ hok hh := by
    obtain ⟨hcoherent, hrooted, hloyal, hnotes⟩ := hinv
    obtain ⟨⟨w₁, r₁⟩, hw, heq⟩ := Option.map_eq_some_iff.mp hh
    obtain ⟨rfl, rfl⟩ := Prod.mk.inj heq
    have hkept := World.handle_kept (R := Rules.lax srv .none) hcoherent (fun _ _ _ _ _ => trivial) hw
      (World.allows_lax (fun h => h.elim) hw)
    have hrefs : w₁.refs = s.world.1.refs := congrArg Prod.fst hkept.roles
    have hfair : s.world.1.fair i o = true := by simpa [rolesVacant, Sys.next_eq hi] using hok
    refine ⟨⟨hkept.coherent, World.rooted_handle hcoherent hrooted hw hrefs,
      hloyal.handle hcoherent hrefs hfair hw, fun j => ?_⟩, rfl, rfl, ⟨?_, ?_⟩, fun j hj => ?_⟩
    · dsimp only
      by_cases hj : j = i
      · subst hj
        rw [Function.update_self]
        exact (hnotes j).after hloyal hcoherent hrefs hw
      · rw [Function.update_of_ne hj]
        exact (hnotes j).handle hcoherent hrefs hw
    · exact Function.update_self ..
    · exact (hnotes i).unpromoted hfair hw
    · exact Function.update_of_ne hj ..
  env_ok {s e w'} hinv _ he := by
    obtain ⟨hcoherent, hrooted, hloyal, hnotes⟩ := hinv
    obtain ⟨w₁, hw, rfl⟩ := Option.map_eq_some_iff.mp he
    exact ⟨⟨World.act_coherent hcoherent hw, World.rooted_act hrooted hw, hloyal.act hrooted hw,
      fun i => (hnotes i).act hrooted hw⟩, fun _ => rfl, .inl ⟨rfl, rfl⟩⟩
  stop_ok {s i w' st} hinv _ hst := by
    obtain ⟨hcoherent, hrooted, hloyal, hnotes⟩ := hinv
    cases hst
    exact ⟨⟨World.stop_coherent hcoherent, World.rooted_stop hrooted, hloyal.stop, fun j => (hnotes j).stop⟩,
      rfl, rfl, trivial, fun _ _ => rfl⟩

theorem errandOutline_start {cfg : ProxyConfig} (primary : PoolConfig) (replicas : List PoolConfig)
    (clients : List Client) : (errandOutline srv cfg).Good (errandStart srv primary replicas clients) := by
  refine ⟨⟨World.new_coherent primary replicas, ?_, ?_, fun i => ⟨?_, ?_⟩⟩, fun _ => trivial⟩
  · exact fun _ hmem => (nomatch hmem)
  · exact fun _ hmem => (nomatch hmem)
  · exact fun _ h => (nomatch h)
  · exact fun _ _ h => (nomatch h)

/-- The last command of session `i` went to the server of pool `o`. -/
def RanOn (s : ErrandState srv) (i : Nat) (o : Origin) : Prop :=
  ∃ c b, (s.world.2 i).ran = some c ∧ s.world.1.server c = some b ∧ b.addr = (s.world.1.backendOf o).addr

/-- Whatever a breaker is about to record ran on the server it is the breaker of. -/
def Attributed (s : ErrandState srv) : Prop :=
  ∀ i gen success, (s.next i = some (.primaryRecord gen success) → RanOn s i ⟨gen, .primary⟩) ∧
    ∀ j, s.next i = some (.replicaRecord gen j success) → RanOn s i ⟨gen, .replica j⟩

/-- **Breaker attribution** in every run on which no replica stands in for a primary that is looked up and
connections go back to pools of their own server. -/
theorem records_attributed {cfg : ProxyConfig} {primary : PoolConfig} {replicas : List PoolConfig}
    {clients : List Client} {es : List ProxyEvent} {s : ErrandState srv}
    (hrun : Steps (errandProxy srv cfg).step (fun s e => rolesVacant s e = true)
      (errandStart srv primary replicas clients) es s) : Attributed s := by
  have hgood := (errandOutline srv cfg).steps hrun (errandOutline_start primary replicas clients)
  obtain ⟨⟨-, -, -, hnotes⟩, -⟩ := id hgood
  have hran : ∀ i o, (s.world.2 i).RanFrom o → RanOn s i o := by
    rintro i o ⟨c, hran, hlent⟩
    obtain ⟨-, b, hb, haddr⟩ := (hnotes i).lent c o hlent
    exact ⟨c, b, hran, hb, haddr⟩
  intro i gen success
  refine ⟨fun hnext => ?_, fun j hnext => ?_⟩
  · obtain ⟨st, m, k, hi⟩ := Sys.next_eq_some hnext
    exact hran i _ (hgood.owes hi)
  · obtain ⟨st, m, k, hi⟩ := Sys.next_eq_some hnext
    exact hran i _ (hgood.owes hi)

/-- A write is about to be recorded. -/
theorem records_attributed_write :
    ∃ s, run (errandProxy .mysql smallConfig).step
        (errandStart .mysql smallPool [otherServer] [mysqlClient]) (mysqlQuery 0 "UPDATE t SET x = 1" 10) =
        some s ∧
      s.next 0 = some (.primaryRecord 0 true) ∧ Attributed s := by
  obtain ⟨s, hs⟩ := Option.isSome_iff_exists.mp (show (run (fun s e =>
    if rolesVacant s e then (errandProxy .mysql smallConfig).step s e else none)
    (errandStart .mysql smallPool [otherServer] [mysqlClient])
    (mysqlQuery 0 "UPDATE t SET x = 1" 10)).isSome = true by decide +kernel)
  have hsteps := steps_of_checked (fun _ _ h => h) hs
  have hnext : (run (errandProxy .mysql smallConfig).step
      (errandStart .mysql smallPool [otherServer] [mysqlClient]) (mysqlQuery 0 "UPDATE t SET x = 1" 10)).map
      (fun s => s.next 0) = some (some (.primaryRecord 0 true)) := rfl
  rw [hsteps.run] at hnext
  exact ⟨s, hsteps.run, Option.some.inj hnext, records_attributed hsteps⟩

/-- Where the last command of session `i` went. -/
def ranAt (s : ErrandState srv) (i : Nat) : Option Str :=
  ((s.world.2 i).ran.bind s.world.1.server).map (·.addr)

/-- The replica has been promoted; its first write is about to be recorded. -/
def promotedWrite : List ProxyEvent :=
  .env (.setFailover 0 0) :: mysqlQuery 0 "UPDATE t SET x = 1" 9

/-- The outcome of a write that the replica has served is recorded with the breaker of the primary. -/
theorem write_misattributed : ¬ ∀ (srv : Server) (cfg : ProxyConfig) (primary : PoolConfig)
    (replicas : List PoolConfig) (clients : List Client) (es : List ProxyEvent) (s : ErrandState srv),
    run (errandProxy srv cfg).step (errandStart srv primary replicas clients) es = some s →
    Attributed s := by
  intro h
  have hend : (run (errandProxy .mysql smallConfig).step
      (errandStart .mysql smallPool [otherServer] [mysqlClient]) promotedWrite).map
      (fun s => (s.next 0, ranAt s 0, (s.world.1.backendOf ⟨0, .primary⟩).addr)) =
      some (some (.primaryRecord 0 true), some "replica:3306".toList, "db:3306".toList) := rfl
  obtain ⟨s, hs, hends⟩ := Option.map_eq_some_iff.mp hend
  obtain ⟨hnext, hrest⟩ := Prod.mk.inj hends
  obtain ⟨hran, hprimary⟩ := Prod.mk.inj hrest
  obtain ⟨c, b, hc, hb, haddr⟩ := (h _ _ _ _ _ _ s hs 0 0 true).1 hnext
  rw [ranAt, hc, Option.bind_some, hb, Option.map_some, haddr, hprimary] at hran
  exact absurd hran (by decide)

end TurbineProxy
