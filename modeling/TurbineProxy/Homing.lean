import TurbineProxy.Accounts

/-!
# Connections go back where they came from

A get and a put each work out which pool *the primary* is, from atomics that change at any time, and
not by the same rule: a get follows `gr_primary_idx` before `failover_idx`, a put follows `failover_idx`
only. The two agree along the runs on which roles change while nothing is checked out and the two
indices never name different replicas (`puts_go_home`).
-/

namespace TurbineProxy

variable {srv : Server} {cfg : ProxyConfig}

/-- What decides which pool the primary is: the pool of the router, its `gr_primary_idx` and its
`failover_idx`. -/
abbrev View : Type := PoolRef × Int × Int

/-- Where `gr_primary_idx` names a replica, `failover_idx` names the same one. -/
def View.Agreed (v : View) : Prop :=
  v.1.replicaAt v.2.1 = none ∨ v.1.replicaAt v.2.1 = v.1.replicaAt v.2.2

instance (v : View) : Decidable v.Agreed := inferInstanceAs (Decidable (_ ∨ _))

/-- The roles as sessions may rely on them. -/
def View.roles (v : View) : Roles where
  home := v.Agreed
  cur := v.1
  gr := v.2.1
  failover := v.2.2
  agree h := h

namespace World

variable {w w' : World srv} {i : Nat}

/-- The roles in a world. -/
def view (w : World srv) : View := (w.cur, w.gr w.cur.gen, w.failover w.cur.gen)

theorem view_of_roles (h : w'.roles = w.roles) : w'.view = w.view := by
  obtain ⟨hrefs, hrest⟩ := Prod.mk.inj h
  obtain ⟨hcurrent, hrest⟩ := Prod.mk.inj hrest
  obtain ⟨hgr, hfo⟩ := Prod.mk.inj hrest
  simp only [view, cur, hrefs, hcurrent, hgr, hfo]

/-- A connection that was handed out by the pool that opened it, and is idle only there. -/
def Homed (conn : Conn srv) : Prop :=
  conn.lender = conn.opened ∧ ∀ o, conn.place = .idle o → conn.opened = o

/-- **Step lemma**: an operation that returns connections to their lenders leaves them at home. -/
theorem homed_handle {o : Op} {inp : In o} {r : Res o} (hw : ∀ conn ∈ w.conns, Homed conn)
    (hcoh : w.Coherent) (h : w.handle i o inp = some (w', r)) (hback : w.putsToLender i o = true) :
    ∀ conn ∈ w'.conns, Homed conn := by
  have hheld : ∀ {c : ConnId} {conn}, w.hold i c = some conn → Homed conn := fun hc =>
    hw _ (List.mem_of_getElem? (hold_eq_some.mp hc).1)
  refine handle_forall hcoh hw (fun conn hconn => ⟨hconn.1, fun o ho => by cases ho⟩) h ?_
  cases o with
  | get o db =>
    intro c hidle
    obtain ⟨hplace, hlender⟩ := w.lent_place i o inp c
    refine ⟨?_, fun o' ho' => ?_⟩
    · rw [hlender]
      unfold lent
      split
      · rename_i conn hconn
        exact ((hw conn (List.mem_of_getElem? hconn)).2 o (hidle conn hconn)).symm
      · exact (Conn.open_frame ..).2.2.symm
    · rw [hplace] at ho'
      cases ho'
  | put o c db =>
    intro conn hc _
    have hlender : conn.lender = o := by simpa [putsToLender, hc] using hback
    refine ⟨(hheld hc).1, fun o' ho' => ?_⟩
    rw [← Place.idle.inj ho', ← hlender]
    exact (hheld hc).1.symm
  | talk who via c p limit =>
    intro conn hc
    obtain ⟨hplace, hlender, hopened⟩ := conn.talk_frame i p inp
    rw [Homed, hplace, hlender, hopened]
    exact hheld hc
  | _ => trivial

end World

/-! ## Runs -/

/-- No call is in progress and nothing is checked out. -/
def atRest (s : ProxyState srv) : Prop :=
  (∀ i, ∃ st, s.thread i = .idle st) ∧ ∀ i c, s.world.hold i c = none

/-- The steps on which a get and its put find the same primary: roles change only at rest, and never
to two different replicas; a PostgreSQL session takes a connection from the pool its server was created
with only while the router uses that pool. -/
def rolesSettled (cfg : ProxyConfig) (s : ProxyState srv) : ProxyEvent → Prop
  | .msg i m => ∀ st, s.thread i = .idle st → st.usesOwnPool m = true →
      s.world.cur = cfg.pg.ownPool
  | .op .. | .stop _ => True
  | .env e => ∀ w', s.world.act e = some w' → w'.view = s.world.view ∨ atRest s ∧ w'.view.Agreed

/-- A session without connections relies on no roles. -/
theorem Session.Lax.of_empty {ρ ρ' : Roles} {st : Session}
    (h : st.Lax ρ (fun _ => (none : Option (Conn srv)))) :
    st.Lax ρ' (fun _ => (none : Option (Conn srv))) := by
  cases st with
  | mysql st =>
    have hnone : ∀ v, st.vars (Pins.none (Rules.lax srv ρ)) v = none := fun v =>
      Option.eq_none_iff_forall_ne_some.mpr fun a hv => by
        obtain ⟨x, hx, -⟩ := h.1.held v a hv
        cases hx
    have hempty : st.Empty := by
      refine ⟨?_, ?_, ?_⟩
      · simpa [MysqlSession.vars, MysqlSession.varsWith] using hnone .txConn
      · simpa [MysqlSession.vars, MysqlSession.varsWith] using hnone .stmtConn
      · simpa [MysqlSession.vars, MysqlSession.varsWith] using hnone .stickyConn
    refine ⟨?_, fun _ => hempty⟩
    rw [hempty.vars]
    exact Owns.nil
  | pg st =>
    have hnone : ∀ v, st.varsWith (Rules.lax srv ρ)
        (PgSession.TxKnown (PgPins.lax srv ρ) st.inTransaction false) v = none := fun v =>
      Option.eq_none_iff_forall_ne_some.mpr fun a hv => by
        obtain ⟨x, hx, -⟩ := h.owns.held v a hv
        cases hx
    have hempty : st.Empty := by
      refine ⟨?_, ?_⟩
      · simpa [PgSession.varsWith] using hnone .txConn
      · simpa [PgSession.varsWith] using hnone .stmtConn
    refine ⟨fun hs => hs.elim, ?_, fun _ => hempty⟩
    convert Owns.nil using 1
    funext via
    cases via <;> simp [PgSession.varsWith, hempty.1, hempty.2]

/-- The world along such runs. -/
structure World.Settled (w : World srv) : Prop where
  /-- no pool counts less than is out -/
  balanced : w.Balanced fun b h => h ≤ b
  /-- connections are at home -/
  homed : ∀ conn ∈ w.conns, World.Homed conn
  /-- the two indices agree -/
  agreed : w.view.Agreed

/-- Every session returns its connections to their lenders. -/
def homeOutline (srv : Server) (cfg : ProxyConfig) :
    Outline (proxy srv cfg) (rolesSettled cfg) (Hold srv) where
  inv w := w.Settled
  hold := World.hold
  proto w _ _ := (Rules.lax srv w.view.roles).contract
  idle w g st := st.Lax w.view.roles g
  msg_ok {s i st m p} _ hi hidle hok hreact :=
    Session.lax_react hidle hreact fun huses _ => (hok st hi huses).symm
  op_ok {s i st m o k inp w' r} hinv _ howes _ hh := by
    have hkept := World.handle_kept (R := Rules.lax srv s.world.view.roles) hinv.balanced.coherent
      (fun _ _ _ _ _ => trivial) hh (World.allows_lax (fun _ => ⟨rfl, rfl, rfl⟩) hh)
    have hputs : s.world.putsToLender i o = true := by
      cases o with
      | put o c db =>
        obtain ⟨conn, hconn, -, hlender⟩ := howes
        simp [World.putsToLender, hconn, hlender hinv.agreed]
      | _ => rfl
    have hview := World.view_of_roles hkept.roles
    refine ⟨⟨?_, ?_, ?_⟩, ?_, ?_, hkept.step, hkept.others⟩
    · exact hinv.balanced.handle Tally.atLeast hh hputs fun _ _ _ h => Nat.le_of_succ_le h
    · exact World.homed_handle hinv.homed hinv.balanced.coherent hh hputs
    · rw [hview]
      exact hinv.agreed
    · rw [hview]
    · rw [hview]
  env_ok {s e w'} hinv hok he := by
    have hhold := World.act_hold he
    have hhomed : ∀ conn ∈ w'.conns, World.Homed conn := by
      rw [World.act_conns he]
      exact hinv.homed
    rcases hok w' he with hview | ⟨⟨hidle, hfree⟩, hagreed⟩
    · refine ⟨⟨hinv.balanced.act Tally.atLeast he, hhomed, ?_⟩, hhold, .inl ⟨?_, ?_⟩⟩
      · rw [hview]
        exact hinv.agreed
      · rw [hview]
      · rw [hview]
    · refine ⟨⟨hinv.balanced.act Tally.atLeast he, hhomed, hagreed⟩, hhold,
        .inr fun j => ?_⟩
      obtain ⟨st, hst⟩ := hidle j
      refine ⟨st, hst, fun hlax => ?_⟩
      have hnone : s.world.hold j = fun _ => none := funext (hfree j)
      rw [hnone] at hlax ⊢
      exact hlax.of_empty
  stop_ok {s i w' st} hinv _ hst := by
    cases hst
    have hhomed : ∀ conn ∈ (s.world.stop i).conns, World.Homed conn :=
      World.stop_forall hinv.homed fun conn h => ⟨h.1, nofun⟩
    exact ⟨⟨hinv.balanced.stop fun h => Nat.le_of_succ_le h, hhomed, hinv.agreed⟩, rfl, rfl, Session.lax_absent,
      fun _ hj => World.stop_hold_of_ne hj⟩

theorem homeOutline_start (primary : PoolConfig) (replicas : List PoolConfig)
    (clients : List Client) : (homeOutline srv cfg).Good (proxyStart srv primary replicas clients) := by
  refine ⟨⟨World.new_balanced Tally.atLeast primary replicas, fun conn hmem => ?_, .inl ?_⟩,
    fun i => ?_⟩
  · cases hmem
  · rfl
  · have hnone : (proxyStart srv primary replicas clients).world.hold i = fun _ => none := World.hold_new ..
    change Session.Lax _ ((proxyStart srv primary replicas clients).world.hold i) _
    rw [hnone]
    exact Session.lax_start clients i

/-- **Every connection goes home.** In every run whose role changes are settled, a connection that is
about to be returned goes to the pool that handed it out, which is the pool that opened it; no checkout
hands out a connection to another server than the one it selected; and no counter is below the number
of its checkouts. -/
theorem puts_go_home {primary : PoolConfig} {replicas : List PoolConfig} {clients : List Client}
    {es : List ProxyEvent} {s : ProxyState srv}
    (hrun : Steps (proxy srv cfg).step (rolesSettled cfg)
      (proxyStart srv primary replicas clients) es s) :
    (∀ i o c db, s.next i = some (.put o c db) →
      ∃ conn, s.world.hold i c = some conn ∧ conn.lender = o ∧ conn.opened = o) ∧
      (∀ conn ∈ s.world.conns, conn.lender = conn.opened) ∧
      ∀ o, s.world.heldOf o ≤ (s.world.pools o).borrowed := by
  have hgood := (homeOutline srv cfg).steps hrun (homeOutline_start primary replicas clients)
  have hhomed : ∀ conn ∈ s.world.conns, World.Homed conn := hgood.1.homed
  refine ⟨fun i o c db hnext => ?_, fun conn hmem => (hhomed conn hmem).1, hgood.1.balanced.count⟩
  obtain ⟨st, m, k, hi⟩ := Sys.next_eq_some hnext
  obtain ⟨conn, hconn, -, hlender⟩ := hgood.owes hi
  have hhome : conn.lender = o := hlender hgood.1.agreed
  refine ⟨conn, hconn, hhome, ?_⟩
  rw [← (hhomed conn (List.mem_of_getElem? (World.hold_eq_some.mp hconn).1)).1]
  exact hhome

/-- A failover while nothing is out, then a transaction. -/
def failoverFirst : List ProxyEvent :=
  mysqlQuery 0 "BEGIN" 10 ++ mysqlQuery 0 "COMMIT" 8

/-- Turns of MySQL sessions, which never use the pool of the PostgreSQL server. -/
def mysqlOnly (_ : ProxyState .mysql) : ProxyEvent → Bool
  | .msg _ (.mysql _) => true
  | .op .. => true
  | _ => false

theorem puts_go_home_failoverFirst :
    ∃ s, run (proxy .mysql smallConfig).step (proxyStart .mysql smallPool [smallPool] [mysqlClient])
        (.env (.setFailover 0 0) :: failoverFirst) = some s ∧
      ∀ conn ∈ s.world.conns, conn.lender = conn.opened := by
  let start := proxyStart .mysql smallPool [smallPool] [mysqlClient]
  let after : ProxyState .mysql :=
    { start with world := { start.world with failover := Function.update (fun _ => -1) 0 0 } }
  have hcheck : ∀ s e, mysqlOnly s e = true → rolesSettled smallConfig s e := by
    intro s e he
    cases e with
    | msg i m =>
      cases m with
      | mysql m =>
        intro st _ huses
        cases st <;> cases huses
      | pg m => cases he
    | op i inp => trivial
    | env e => cases he
    | stop i => cases he
  obtain ⟨s, hs⟩ := Option.isSome_iff_exists.mp (show (run (fun s e =>
    if mysqlOnly s e then (proxy .mysql smallConfig).step s e else none) after failoverFirst).isSome = true
    by decide +kernel)
  have hfailover : rolesSettled smallConfig start (.env (.setFailover 0 0)) := by
    intro w' hw'
    obtain rfl := Option.some.inj hw'
    refine .inr ⟨⟨fun i => ⟨_, rfl⟩, fun i c => ?_⟩, by decide⟩
    simp [start, World.hold, proxyStart, World.new]
  have hsteps : Steps (proxy .mysql smallConfig).step (rolesSettled smallConfig) start
      (.env (.setFailover 0 0) :: failoverFirst) s :=
    .cons hfailover rfl (steps_of_checked hcheck hs)
  exact ⟨s, hsteps.run, (puts_go_home hsteps).2.1⟩

/-- Where the next operation of a session returns a connection to, and who lent it. -/
def returning (s : ProxyState srv) (i : Nat) : Option (Origin × Option Origin) :=
  match s.next i with
  | some (.put o c _) => some (o, (s.world.hold i c).map (·.lender))
  | _ => none

/-- A failover in the middle of a transaction. -/
def failoverBetween : List ProxyEvent :=
  mysqlQuery 0 "BEGIN" 11 ++ [.env (.setFailover 0 0)] ++ mysqlQuery 0 "COMMIT" 6

/-- The connection to the old primary goes into the pool of the new one. -/
theorem put_goes_astray : ¬ ∀ (srv : Server) (cfg : ProxyConfig) (primary : PoolConfig)
    (replicas : List PoolConfig) (clients : List Client) (es : List ProxyEvent) (s : ProxyState srv),
    run (proxy srv cfg).step (proxyStart srv primary replicas clients) es = some s →
    ∀ i o c db, s.next i = some (.put o c db) →
      ∃ conn, s.world.hold i c = some conn ∧ conn.lender = o := by
  intro h
  have hend : (run (proxy .mysql smallConfig).step
      (proxyStart .mysql smallPool [smallPool] [mysqlClient]) failoverBetween).map
      (returning · 0) = some (some (⟨0, .replica 0⟩, some ⟨0, .primary⟩)) := by
    decide +kernel
  obtain ⟨s, hs, hret⟩ := Option.map_eq_some_iff.mp hend
  rw [returning] at hret
  split at hret
  · rename_i o c db hnext
    obtain ⟨rfl, hlent⟩ := Prod.mk.inj (Option.some.inj hret)
    obtain ⟨conn, hconn, hlender⟩ := h _ _ _ _ _ _ s hs 0 _ c db hnext
    rw [hconn, Option.map_some, hlender] at hlent
    cases hlent
  · cases hret

end TurbineProxy
