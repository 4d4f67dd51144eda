import TurbineProxy.Accounts
import TurbineProxy.Routine
import TurbineProxy.Servers

/-!
# Where `KILL QUERY` goes

When a query exceeds `max_query_time_ms`, `execute_timed` takes the thread id from the connection and
sends `KILL QUERY` to `primary_config`, which `Router::new` copied from the pool it was given. `killProxy`
is the proxy with a record of what is killed: for every KILL the server it was sent to, and the server of
the connection, which assigned the thread id.

The two agree as long as queries only run out of time on connections to the address of that first primary
(`kills_reach_owner`). A replica, a promoted one included, or a primary that a reload brought in has
other thread ids (`kill_strikes_primary`).
-/

namespace TurbineProxy

variable {srv : Server}

/-! ## The record -/

/-- One `KILL QUERY`: the thread it names, the backend it goes to, and the one that gave the thread its id. -/
structure Kill where
  /-- the connection whose thread id it names -/
  conn : ConnId
  /-- the backend it is sent to -/
  target : BackendConfig
  /-- the backend that assigned the thread id -/
  owner : BackendConfig

/-- What is known about kills. -/
structure Kills where
  /-- the connection on which the last query of a session ran out of time, until the KILL is sent -/
  due : Nat → Option ConnId
  /-- the ones sent -/
  sent : List Kill

/-- Whether a query of a session waits for its KILL, after an operation. -/
def dueAfter (due : Option ConnId) : (o : Op) → Res o → Option ConnId
  | .talk _ _ c _ (some _), .error .elapsed => some c
  | .spawnKill _, _ => none
  | _, _ => due

/-- What an operation kills. -/
def World.killed (w : World srv) (target : BackendConfig) : Op → List Kill
  | .spawnKill c => (w.server c).toList.map fun owner => ⟨c, target, owner⟩
  | _ => []

/-- The proxy of a router with the given `primary_config`, with a record of its kills. -/
def killProxy (srv : Server) (cfg : ProxyConfig) (primaryConfig : BackendConfig) :
    Machine Op Res In (World srv × Kills) Session SessionEvent Admin where
  react := Session.react cfg
  handle w i o inp := (w.1.handle i o inp).map fun r =>
    ((r.1, ⟨Function.update w.2.due i (dueAfter (w.2.due i) o r.2),
      w.2.sent ++ w.1.killed primaryConfig o⟩), r.2)
  env w e := (w.1.act e).map fun w' => (w', w.2)
  stop w i := some ((w.1.stop i, ⟨Function.update w.2.due i none, w.2.sent⟩), .absent)

/-- A state of the proxy with its record. -/
abbrev KillState (srv : Server) := Sys Op Res (World srv × Kills) Session SessionEvent

/-- The proxy that has just started. -/
def killStart (srv : Server) (primary : PoolConfig) (replicas : List PoolConfig) (clients : List Client) :
    KillState srv :=
  ⟨(.new srv primary replicas, ⟨fun _ => none, []⟩),
    fun i => .idle (clients[i]?.elim .absent Client.session)⟩

/-! ## A timeout and its KILL -/

/-- After a timeout the KILL comes next, and there is no other. -/
def killing : Protocol Op Res (Option ConnId) where
  owes due
    | .spawnKill c => due = some c
    | _ => due = none
  step due o r due' := due' = dueAfter due o r

/-- Nothing waits for a KILL. -/
abbrev NoneDue (due : Option ConnId) : Prop := due = none

/-- Nothing of the timer. -/
def Op.untimed : Op → Bool
  | .spawnKill _ | .talk _ _ _ _ (some _) => false
  | _ => true

section Routes

variable {α : Type} {pool : PoolRef} {sql : Str} {bytes : Bytes} {timeoutMs : Nat} {rt : Route}

theorem untimed_kill (o : Op) (ho : o.untimed = true) (due : Option ConnId) (hdue : NoneDue due) :
    killing.owes due o ∧ ∀ r due', killing.step due o r due' → NoneDue due' := by
  cases hdue
  cases o with
  | spawnKill c => cases ho
  | talk who via c p limit =>
    cases limit with
    | some ms => cases ho
    | none => exact ⟨rfl, fun _ _ h => h⟩
  | _ => exact ⟨rfl, fun _ _ h => h⟩

theorem routine_kill (o : Op) (ho : Routine o) (due : Option ConnId) (hdue : NoneDue due) :
    killing.owes due o ∧ ∀ r due', killing.step due o r due' → NoneDue due' := by
  refine untimed_kill o ?_ due hdue
  cases o with
  | talk who via c p limit => cases limit <;> exact ho
  | _ => first | rfl | cases ho

theorem kill_routine {p : Task α} (hp : p.Only Routine) : p.Keeps killing NoneDue :=
  Prog.keeps_of_only routine_kill hp

theorem kill_lends {p : Task α} (hp : p.Only Lends) : p.Keeps killing NoneDue :=
  kill_routine (routine_lends hp)

theorem kill_act {o : Op} (ho : o.untimed = true) : (act o).Keeps killing NoneDue :=
  Prog.keeps_of_only (q := fun o => o.untimed = true) untimed_kill (Prog.only_perform ho)

theorem kill_drop {exit : Exit} {c : ConnId} {a : α} : ((do
    let _ : Unit ← act (.drop exit c)
    pure a) : Task α).Keeps killing NoneDue :=
  Prog.keeps_bind (kill_act rfl) fun _ => Prog.keeps_done _

/-- `execute_timed` sends the KILL for the timeout it has just seen. -/
theorem kill_execute {c : ConnId} : (execute c bytes timeoutMs).Keeps killing NoneDue := by
  refine Prog.keeps_ite ?_ (kill_routine routine_executeQuery)
  intro due hdue
  refine ⟨hdue, fun r due' hstep => ?_⟩
  cases r with
  | ok resp => exact hstep.trans hdue
  | error e =>
    cases e with
    | protocol e => exact hstep.trans hdue
    | elapsed => exact ⟨hstep, fun _ due'' hkill => hkill⟩

theorem kill_recordReplica {idx : Option Nat} {success : Bool} :
    (pool.recordReplica idx success).Keeps killing NoneDue := by
  cases idx with
  | none => exact Prog.keeps_done _
  | some i => exact Prog.keeps_ite (kill_act rfl) (Prog.keeps_done _)

theorem kill_routeHostgroup {hg ttl : Nat} :
    (routeHostgroup pool hg ttl sql bytes timeoutMs rt).Keeps killing NoneDue :=
  keeps_routeHostgroup routine_kill fun _ => kill_execute

theorem kill_routeReplica {cacheAllowed : Bool} {m : Option RuleMatch} :
    (routeReplica pool sql bytes timeoutMs cacheAllowed m rt).Keeps killing NoneDue := by
  refine Prog.keeps_bind (kill_lends PoolRef.lends_getReplica) fun got => ?_
  cases got with
  | error e => exact Prog.keeps_done _
  | ok got =>
    refine Prog.keeps_bind (kill_routine (routine_replay _)) fun _ => ?_
    refine Prog.keeps_bind kill_execute fun r => ?_
    cases r with
    | error e =>
      refine Prog.keeps_bind kill_recordReplica fun _ => Prog.keeps_ite ?_ kill_drop
      refine Prog.keeps_bind (kill_act rfl) fun _ => ?_
      refine Prog.keeps_bind (kill_lends PoolRef.lends_getReplica) fun again => ?_
      cases again with
      | error e => exact Prog.keeps_done _
      | ok again =>
        refine Prog.keeps_bind (kill_routine (routine_replay _)) fun _ => ?_
        -- the retry is not timed
        refine Prog.keeps_bind (kill_routine routine_executeQuery) fun r => ?_
        cases r with
        | error e => exact kill_drop
        | ok response =>
          refine Prog.keeps_bind kill_recordReplica fun _ => ?_
          refine Prog.keeps_bind (kill_lends (PoolRef.lends_giveBack again.1 again.2)) fun _ => ?_
          exact Prog.keeps_done _
    | ok response =>
      refine Prog.keeps_bind kill_recordReplica fun _ => ?_
      refine Prog.keeps_bind (kill_lends (PoolRef.lends_giveBack got.1 got.2)) fun _ => ?_
      have hlast := kill_routine (routine_mirrored m sql response)
      exact Prog.keeps_ite (Prog.keeps_bind (kill_act rfl) fun _ => hlast) hlast

theorem kill_retryPrimary : (retryPrimary pool bytes rt).Keeps killing NoneDue := by
  refine Prog.keeps_bind (kill_lends PoolRef.lends_getPrimary) fun again => ?_
  cases again with
  | error e => exact Prog.keeps_done _
  | ok fresh =>
    refine Prog.keeps_bind (kill_routine (routine_replay _)) fun _ => ?_
    refine Prog.keeps_bind (kill_routine routine_executeQuery) fun r => ?_
    cases r with
    | error e => exact kill_drop
    | ok response =>
      refine Prog.keeps_bind (kill_act rfl) fun _ => ?_
      exact Prog.keeps_bind (kill_lends (PoolRef.lends_putPrimary fresh)) fun _ => Prog.keeps_done _

theorem kill_routePrimary {m : Option RuleMatch} :
    (routePrimary pool sql bytes timeoutMs m rt).Keeps killing NoneDue := by
  refine Prog.keeps_bind (kill_lends PoolRef.lends_getPrimary) fun got => ?_
  cases got with
  | error e => exact Prog.keeps_done _
  | ok c =>
    refine Prog.keeps_bind (kill_routine (routine_replay _)) fun _ => ?_
    refine Prog.keeps_bind kill_execute fun r => ?_
    cases r with
    | error e =>
      refine Prog.keeps_bind (kill_act rfl) fun _ => Prog.keeps_ite ?_ kill_drop
      exact Prog.keeps_bind (kill_act rfl) fun _ => kill_retryPrimary
    | ok response =>
      refine Prog.keeps_bind (kill_act rfl) fun _ => ?_
      refine Prog.keeps_bind (kill_lends (PoolRef.lends_putPrimary c)) fun _ => ?_
      have hlast := kill_routine (routine_mirrored m sql response)
      exact Prog.keeps_ite hlast (Prog.keeps_bind (kill_act rfl) fun _ => hlast)

theorem kill_routeSplit {m : Option RuleMatch} :
    (routeSplit pool sql bytes timeoutMs m rt).Keeps killing NoneDue := by
  have hmiss : (if (splitChoice m rt.useReplica).1 then
      routeReplica pool sql bytes timeoutMs (splitChoice m rt.useReplica).2 m rt
      else routePrimary pool sql bytes timeoutMs m rt).Keeps killing NoneDue :=
    Prog.keeps_ite kill_routeReplica kill_routePrimary
  refine Prog.keeps_ite (Prog.keeps_bind (kill_act rfl) fun cached => ?_) hmiss
  cases cached with
  | none => exact hmiss
  | some b => exact Prog.keeps_done _

theorem kill_dispatch : (dispatch pool sql bytes timeoutMs rt).Keeps killing NoneDue := by
  refine Prog.keeps_bind (kill_act rfl) fun m => ?_
  cases m with
  | none => exact kill_routeSplit
  | some r =>
    refine Prog.keeps_ite (Prog.keeps_done _) ?_
    split
    · exact kill_routeHostgroup
    · exact kill_routeSplit

theorem kill_routeQueryInner (sql : Bytes) (txConn : Option ConnId) (inTransaction : Bool) (rt : Route) :
    (routeQueryInner sql txConn inTransaction rt).Keeps killing NoneDue := by
  refine Prog.keeps_bind (kill_act rfl) fun pool => Prog.keeps_ite (kill_routine routine_routeInTx) ?_
  refine Prog.keeps_bind ?_ fun r => Prog.keeps_done _
  refine Prog.keeps_bind (kill_act rfl) fun timeoutMs => Prog.keeps_bind (kill_act rfl) fun outcome => ?_
  cases outcome with
  | unchanged => exact kill_dispatch
  | rewritten s => exact kill_dispatch
  | blocked msg => exact Prog.keeps_done _

end Routes

/-! ## Runs -/

/-- The connection on which an operation runs out of time. -/
def Op.timesOut : (o : Op) → In o → Option ConnId
  | .talk _ _ c _ (some _), d =>
    match TalkInput.fault d with
    | some (.elapsed _) => some c
    | _ => none
  | _, _ => none

/-- An exchange runs out of time on that fault only. -/
theorem Conn.fault_of_elapsed {conn : Conn srv} {i : Nat} {p : Packet} {d : TalkInput}
    (h : (conn.talk i p d).2 = .error .elapsed) : ∃ executed, d.fault = some (.elapsed executed) := by
  unfold Conn.talk at h
  rcases hfault : d.fault with _ | fault
  · rw [hfault] at h
    cases p <;> cases h
  · rw [hfault] at h
    cases fault with
    | elapsed executed => exact ⟨executed, rfl⟩
    | unsent e => cases h
    | lost e executed => cases h

namespace World

variable {w w' : World srv} {i : Nat} {o : Op} {inp : In o} {r : Res o} {due : Option ConnId} {c : ConnId}

/-- A KILL waits because it did so before, or because of a timeout. -/
theorem due_of_handle (h : w.handle i o inp = some (w', r)) (hc : dueAfter due o r = some c) :
    due = some c ∨ o.timesOut inp = some c := by
  cases o with
  | spawnKill c' => cases hc
  | talk who via c' p limit =>
    cases limit with
    | none => exact .inl hc
    | some ms =>
      obtain ⟨conn, -, hrest⟩ := Option.bind_eq_some_iff.mp h
      obtain ⟨-, hrest⟩ := Option.ite_none_left_eq_some.mp hrest
      obtain ⟨-, rfl⟩ := Prod.mk.inj (Option.some.inj hrest)
      rcases hr : (conn.talk i p inp).2 with e | resp
      · cases e with
        | protocol e =>
          rw [hr] at hc
          exact .inl hc
        | elapsed =>
          rw [hr] at hc
          obtain ⟨executed, hfault⟩ := Conn.fault_of_elapsed hr
          refine .inr ?_
          rw [Op.timesOut, hfault]
          exact hc
      · rw [hr] at hc
        exact .inl hc
  | _ => exact .inl hc

/-- What waits for a KILL is on a connection to the address that KILLs are sent to, and so was what has
been killed. -/
structure KillsRight (w : World srv) (primaryConfig : BackendConfig) (k : Kills) : Prop where
  /-- the ones to come -/
  due : ∀ i c, k.due i = some c → ∃ b, w.server c = some b ∧ b.addr = primaryConfig.addr
  /-- the ones sent -/
  sent : ∀ kill ∈ k.sent, kill.target.addr = kill.owner.addr

variable {primaryConfig : BackendConfig} {k : Kills}

/-- **Step lemma**: a timeout at that address leads to a KILL at the right server. -/
theorem KillsRight.handle (hk : w.KillsRight primaryConfig k) (hw : w.Coherent)
    (howes : killing.owes (k.due i) o) (h : w.handle i o inp = some (w', r))
    (htime : ∀ c b, o.timesOut inp = some c → w.server c = some b → b.addr = primaryConfig.addr)
    (hserver : ∀ c, o.timesOut inp = some c → ∃ b, w.server c = some b) :
    w'.KillsRight primaryConfig
      ⟨Function.update k.due i (dueAfter (k.due i) o r), k.sent ++ w.killed primaryConfig o⟩ := by
  have hbefore : ∀ j c, k.due j = some c → ∃ b, w'.server c = some b ∧ b.addr = primaryConfig.addr := by
    intro j c hc
    obtain ⟨b, hb, haddr⟩ := hk.due j c hc
    exact ⟨b, server_handle hw hb h, haddr⟩
  refine ⟨fun j c hc => ?_, fun kill hkill => ?_⟩
  · dsimp only at hc
    by_cases hj : j = i
    · subst hj
      rw [Function.update_self] at hc
      rcases due_of_handle h hc with hdue | htimes
      · exact hbefore j c hdue
      · obtain ⟨b, hb⟩ := hserver c htimes
        exact ⟨b, server_handle hw hb h, htime c b htimes hb⟩
    · rw [Function.update_of_ne hj] at hc
      exact hbefore j c hc
  · rcases List.mem_append.mp hkill with hold | hnew
    · exact hk.sent kill hold
    · cases o with
      | spawnKill c =>
        obtain ⟨b, hb, haddr⟩ := hk.due i c howes
        obtain ⟨owner, howner, rfl⟩ := List.mem_map.mp hnew
        obtain rfl := Option.some.inj (hb.symm.trans (Option.mem_toList.mp howner))
        exact haddr.symm
      | _ => cases hnew

/-- A timeout is on a connection that leads to a server. -/
theorem server_of_timesOut (h : w.handle i o inp = some (w', r)) (hc : o.timesOut inp = some c) :
    ∃ b, w.server c = some b := by
  cases o with
  | talk who via c' p limit =>
    obtain ⟨conn, hheld, -⟩ := Option.bind_eq_some_iff.mp h
    have hsame : c' = c := by
      cases limit with
      | none => cases hc
      | some ms =>
        unfold Op.timesOut at hc
        dsimp only at hc
        split at hc
        · exact Option.some.inj hc
        · cases hc
    rw [← hsame]
    exact ⟨_, server_of_hold hheld⟩
  | _ => cases hc

end World

/-- The steps on which queries run out of time only on connections to the address of `primary_config`. -/
def timesOutAtPrimary (primaryConfig : BackendConfig) (s : KillState srv) : ProxyEvent → Bool
  | .op i inp => (s.next i).all fun o => (o.timesOut (inp o)).all fun c =>
      (s.world.1.server c).all fun b => b.addr == primaryConfig.addr
  | _ => true

/-- Every timeout is followed by its KILL, whatever the run; on such runs the KILL finds its server. -/
def killOutline (srv : Server) (cfg : ProxyConfig) (primaryConfig : BackendConfig) :
    Outline (killProxy srv cfg primaryConfig) (fun s e => timesOutAtPrimary primaryConfig s e = true)
      (Option ConnId) where
  inv w := w.1.Coherent ∧ w.1.Rooted ∧ w.1.KillsRight primaryConfig w.2
  hold w i := w.2.due i
  proto _ _ _ := killing
  idle _ due _ := NoneDue due
  msg_ok _ _ hidle _ hreact := Session.keeps_react routine_kill kill_routeQueryInner hreact _ hidle
  op_ok {s i st m o k inp w' r} hinv hi howes hok hh := by
    obtain ⟨hcoherent, hrooted, hright⟩ := hinv
    obtain ⟨⟨w₁, r₁⟩, hw, heq⟩ := Option.map_eq_some_iff.mp hh
    obtain ⟨rfl, rfl⟩ := Prod.mk.inj heq
    have hkept := World.handle_kept (R := Rules.lax srv .none) hcoherent (fun _ _ _ _ _ => trivial) hw
      (World.allows_lax (fun h => h.elim) hw)
    have htime : ∀ c b, o.timesOut (inp o) = some c → s.world.1.server c = some b →
        b.addr = primaryConfig.addr := by
      intro c b hc hb
      simpa [timesOutAtPrimary, Sys.next_eq hi, hc, hb] using hok
    refine ⟨⟨hkept.coherent, ?_, ?_⟩, rfl, rfl, ?_, fun j hj => ?_⟩
    · exact World.rooted_handle hcoherent hrooted hw (congrArg Prod.fst hkept.roles)
    · exact hright.handle hcoherent howes hw htime fun c hc => World.server_of_timesOut hw hc
    · exact Function.update_self ..
    · exact Function.update_of_ne hj ..
  env_ok {s e w'} hinv _ he := by
    obtain ⟨hcoherent, hrooted, hright⟩ := hinv
    obtain ⟨w₁, hw, rfl⟩ := Option.map_eq_some_iff.mp he
    refine ⟨⟨World.act_coherent hcoherent hw, World.rooted_act hrooted hw, ?_, hright.sent⟩,
      fun _ => rfl, .inl ⟨rfl, rfl⟩⟩
    intro i c hc
    obtain ⟨b, hb, haddr⟩ := hright.due i c hc
    exact ⟨b, World.server_act hrooted hb hw, haddr⟩
  stop_ok {s i w' st} hinv _ hst := by
    obtain ⟨hcoherent, hrooted, hright⟩ := hinv
    cases hst
    refine ⟨⟨World.stop_coherent hcoherent, World.rooted_stop hrooted, fun j c hc => ?_, hright.sent⟩, rfl, rfl,
      Function.update_self .., fun _ hj => Function.update_of_ne hj ..⟩
    have hne : j ≠ i := by
      rintro rfl
      cases hc.symm.trans (Function.update_self ..)
    rw [World.server_stop]
    exact hright.due j c ((Function.update_of_ne hne ..).symm.trans hc)

theorem killOutline_start {cfg : ProxyConfig} (primary : PoolConfig) (replicas : List PoolConfig)
    (clients : List Client) :
    (killOutline srv cfg primary.backend).Good (killStart srv primary replicas clients) :=
  ⟨⟨World.new_coherent primary replicas, fun _ hmem => (nomatch hmem), nofun, fun _ hmem => (nomatch hmem)⟩,
    fun _ => rfl⟩

/-- Every KILL went to the server that assigned its thread id, and a session whose query has run out of
time is about to send one for the connection of that query. -/
def KillsReachOwner (s : KillState srv) : Prop :=
  (∀ kill ∈ s.world.2.sent, kill.target.addr = kill.owner.addr) ∧
    ∀ i c, s.world.2.due i = some c → s.next i = some (.spawnKill c)

/-- **KILL goes to the owner** in every run on which queries run out of time only on connections to the
address of the primary the router was created with. -/
theorem kills_reach_owner {cfg : ProxyConfig} {primary : PoolConfig} {replicas : List PoolConfig}
    {clients : List Client} {es : List ProxyEvent} {s : KillState srv}
    (hrun : Steps (killProxy srv cfg primary.backend).step
      (fun s e => timesOutAtPrimary primary.backend s e = true)
      (killStart srv primary replicas clients) es s) : KillsReachOwner s := by
  obtain ⟨⟨-, -, hright⟩, hthreads⟩ :=
    (killOutline srv cfg primary.backend).steps hrun (killOutline_start primary replicas clients)
  refine ⟨hright.sent, fun i c hc => ?_⟩
  have hth := hthreads i
  rcases hi : s.thread i with st | ⟨st, m, p⟩
  · -- an idle session has nothing due
    rw [hi] at hth
    cases hc.symm.trans hth
  · rw [hi] at hth
    cases p with
    | done st' => cases hc.symm.trans hth
    | op o k =>
      rw [Sys.next_eq hi]
      have howes : killing.owes (s.world.2.due i) o := hth.1
      rw [hc] at howes
      cases o <;> first | exact congrArg (fun c => some (Op.spawnKill c)) (Option.some.inj howes).symm | cases howes

/-- Under a time limit, an exchange for the client takes too long. -/
def tooLong : (o : Op) → In o
  | .maxQueryTime => (5 : Nat)
  | .talk .client .. => ⟨some (.elapsed true), 0⟩
  | o => calm 0 none o

/-- A write on the primary takes too long, and is killed. -/
theorem kills_reach_owner_write :
    ∃ s, run (killProxy .mysql smallConfig smallPool.backend).step
        (killStart .mysql smallPool [] [mysqlClient]) (mysqlQuery 0 "UPDATE t SET x = 1" 11 tooLong) = some s ∧
      s.world.2.sent.length = 1 ∧ KillsReachOwner s := by
  obtain ⟨s, hs⟩ := Option.isSome_iff_exists.mp (show (run (fun s e =>
    if timesOutAtPrimary smallPool.backend s e then
      (killProxy .mysql smallConfig smallPool.backend).step s e else none)
    (killStart .mysql smallPool [] [mysqlClient])
    (mysqlQuery 0 "UPDATE t SET x = 1" 11 tooLong)).isSome = true by decide +kernel)
  have hsteps := steps_of_checked (fun _ _ h => h) hs
  have hsent : (run (killProxy .mysql smallConfig smallPool.backend).step
      (killStart .mysql smallPool [] [mysqlClient]) (mysqlQuery 0 "UPDATE t SET x = 1" 11 tooLong)).map
      (fun s => s.world.2.sent.length) = some 1 := by
    decide +kernel
  rw [hsteps.run] at hsent
  exact ⟨s, hsteps.run, Option.some.inj hsent, kills_reach_owner hsteps⟩

/-- A read on the replica takes too long: the thread id of the replica is killed on the primary. -/
theorem kill_strikes_primary : ¬ ∀ (srv : Server) (cfg : ProxyConfig) (primary : PoolConfig)
    (replicas : List PoolConfig) (clients : List Client) (es : List ProxyEvent) (s : KillState srv),
    run (killProxy srv cfg primary.backend).step (killStart srv primary replicas clients) es = some s →
    KillsReachOwner s := by
  intro h
  have hend : (run (killProxy .mysql smallConfig smallPool.backend).step
      (killStart .mysql smallPool [otherServer] [mysqlClient]) (mysqlQuery 0 "SELECT 1" 12 tooLong)).map
      (fun s => s.world.2.sent.map fun kill => (kill.target.addr, kill.owner.addr)) =
      some [("db:3306".toList, "replica:3306".toList)] := by
    decide +kernel
  obtain ⟨s, hs, hsent⟩ := Option.map_eq_some_iff.mp hend
  obtain ⟨kill, hone, hkill⟩ := List.map_eq_singleton_iff.mp hsent
  have hright := (h _ _ _ _ _ _ s hs).1 kill (hone ▸ List.mem_singleton_self kill)
  obtain ⟨htarget, howner⟩ := Prod.mk.inj hkill
  rw [htarget, howner] at hright
  exact absurd hright (by decide)

end TurbineProxy
