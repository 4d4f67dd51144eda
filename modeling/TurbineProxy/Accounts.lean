import TurbineProxy.Custody
import TurbineProxy.MysqlSpec
import TurbineProxy.PgSpec

/-!
# Checked-out connections are accounted for

Two facts about the connections that are out. First, a connection that is checked out is in a variable
of its session, whatever happens (`held_mem_conns`): nothing is forgotten by the sessions themselves,
and a session that is over has nothing. Second, the counter `borrowed` of a pool is the number of its
connections that are out, along the runs on which no connection is dropped and every one goes back to
the pool that lent it (`borrowed_eq_heldOf`).
-/

namespace TurbineProxy

variable {srv : Server} {cfg : ProxyConfig} {ρ : Roles}

/-! ## Rules that ask for nothing -/

/-- The roles a session may rely on, if it may (`home`). -/
structure Roles where
  /-- whether they are fixed while connections are out -/
  home : Prop
  /-- the pool of the router -/
  cur : PoolRef
  /-- its `gr_primary_idx` -/
  gr : Int
  /-- its `failover_idx` -/
  failover : Int
  /-- a group-replication primary is where puts go -/
  agree : home → cur.replicaAt gr = none ∨ cur.replicaAt gr = cur.replicaAt failover

/-- Nothing is relied upon. -/
def Roles.none : Roles := ⟨False, ⟨0, []⟩, -1, -1, PoolRef.agree_nobody⟩

/-- Every connection is as good as any other. -/
def Rules.lax (srv : Server) (r : Roles) : Rules srv where
  clean _ := True
  after _ _ conn _ conn' := conn'.lender = conn.lender
  plain _ := True
  sure := False
  home := r.home
  cur := r.cur
  gr := r.gr
  failover := r.failover
  after_lender h := h
  after_clean _ _ := trivial
  after_plain _ _ := trivial
  agree := r.agree

/-- Nothing is known of the connection of a transaction. -/
def PgPins.lax (srv : Server) (r : Roles) : PgPins (Rules.lax srv r) where
  busy _ := True
  strict := False
  loose _ _ := ⟨trivial, trivial⟩
  plain h := h.elim

/-- The variables of an idle session hold its connections. -/
def Session.Lax (r : Roles) (g : Hold srv) : Session → Prop
  | .mysql st => MysqlSession.Idle (Rules.lax srv r) g st
  | .pg st => PgSession.Idle (PgPins.lax srv r) g st

/-- The turns that take a connection from the pool a PostgreSQL server was created with. -/
def Session.usesOwnPool : Session → SessionEvent → Bool
  | .pg st, .pg .start => !st.sessionInitSqls.isEmpty
  | .pg _, .pg (.other _) => true
  | _, _ => false

theorem Session.Lax.mem_conns {g : Hold srv} {st : Session} (h : st.Lax ρ g) {c : ConnId}
    {conn : Conn srv} (hc : g c = some conn) : c ∈ st.conns := by
  cases st with
  | mysql st =>
    obtain ⟨v, a, hv, rfl⟩ := h.1.all c conn hc
    cases v <;> simp only [MysqlSession.vars, MysqlSession.varsWith, Option.map_eq_some_iff,
      reduceCtorEq] at hv <;> obtain ⟨c', hc', rfl⟩ := hv <;> simp [Session.conns, hc']
  | pg st =>
    obtain ⟨v, a, hv, rfl⟩ := h.owns.all c conn hc
    cases v <;> simp only [PgSession.varsWith, Option.map_eq_some_iff, reduceCtorEq] at hv <;>
      obtain ⟨c', hc', rfl⟩ := hv <;> simp [Session.conns, hc']

theorem Session.Lax.conns_eq_nil {g : Hold srv} {st : Session} (h : st.Lax ρ g)
    (hend : st.ended = true) : st.conns = [] := by
  cases st with
  | mysql st =>
    obtain ⟨htx, hstmt, hsticky⟩ := h.2 (by simpa [Session.ended] using hend)
    simp [Session.conns, htx, hstmt, hsticky]
  | pg st =>
    obtain ⟨htx, hstmt⟩ := h.ended (by simpa [Session.ended] using hend)
    simp [Session.conns, htx, hstmt]

theorem Session.lax_react {g : Hold srv} {st : Session} {m : SessionEvent} {p : Task Session}
    (h : st.Lax ρ g) (hreact : st.react cfg m = some p)
    (hown : st.usesOwnPool m = true → ρ.home → cfg.pg.ownPool = ρ.cur) :
    p.wp (Rules.lax srv ρ).contract (fun st' g' => st'.Lax ρ g') g := by
  cases st with
  | mysql st =>
    obtain ⟨e, q, rfl, hq, rfl⟩ := Session.react_mysql hreact
    rw [Prog.wp_bind]
    refine Prog.wp_mono (MysqlSession.wp_react h hq ?_) fun st' g' h' => h'
    cases e <;> first | exact fun _ _ => trivial | exact fun _ _ _ => trivial | trivial
  | pg st =>
    obtain ⟨e, q, rfl, hq, rfl⟩ := Session.react_pg hreact
    rw [Prog.wp_bind]
    by_cases hclean : e = .cleanup
    · subst hclean
      refine Prog.wp_mono (PgSession.wp_react_cleanup _ h hq (fun conn hk => ?_) fun conn ht => ht)
        fun st' g' h' => h'
      exact ⟨trivial, hk.2.2⟩
    · refine Prog.wp_mono (PgSession.wp_react h hq ?_) fun st' g' h' => h'
      have hfollow : ∀ flag gone, PgSession.Follows (PgPins.lax srv ρ) flag gone :=
        fun _ _ _ _ _ _ _ => ⟨fun _ => trivial, fun _ _ => trivial⟩
      cases e with
      | start => exact fun hsome => hown (by simp [Session.usesOwnPool, hsome])
      | quit => trivial
      | query bytes =>
        unfold PgSession.Agrees PgSession.QueryAgrees
        dsimp only
        split
        · exact fun _ => hfollow _ _
        · exact ⟨fun hs => hs.elim, fun _ => hfollow _ _⟩
      | stmt raw => exact fun _ => hfollow _ _
      | other raw => exact ⟨hown rfl, fun hs => hs.elim⟩
      | cleanup => exact absurd rfl hclean

/-!
## What is out is in a variable

What a pool has lent and not got back is in one of the variables of a session, or on loan in the middle of a turn.
-/

/-- The first state of a session owns nothing. -/
theorem Session.lax_start (clients : List Client) (i : Nat) :
    (clients[i]?.elim Session.absent Client.session).Lax ρ (fun _ => (none : Option (Conn srv))) := by
  have hnil : ∀ {σ : Vars srv}, σ = (fun _ => none) → Owns σ (fun _ => none) := by
    rintro σ rfl
    exact Owns.nil
  have hmysql : ∀ st : MysqlSession, st.Empty → Session.Lax ρ (fun _ => (none : Option (Conn srv)))
      (.mysql st) := fun st hst => ⟨hnil (hst.vars _), fun _ => hst⟩
  rcases clients[i]? with _ | client
  · exact hmysql _ ⟨rfl, rfl, rfl⟩
  · simp only [Option.elim_some, Client.session]
    split
    · refine ⟨fun hs => hs.elim, hnil ?_, fun h => by cases h⟩
      funext via
      cases via <;> rfl
    · exact hmysql _ ⟨rfl, rfl, rfl⟩

/-- Whoever is not there owns nothing. -/
theorem Session.lax_absent {w : World srv} {i : Nat} : Session.absent.Lax ρ ((w.stop i).hold i) := by
  rw [World.stop_hold_self]
  exact Session.lax_start [] 0

/-- The pool of the router. -/
def World.cur (w : World srv) : PoolRef := w.refs.getD w.current ⟨0, []⟩

/-- The answers of the world are as the rules have them, if the roles are those of the world. -/
theorem World.allows_lax {w w' : World srv} {i : Nat} {o : Op} {inp : In o} {r : Res o}
    (hρ : ρ.home → ρ.cur = w.cur ∧ ρ.gr = w.gr w.cur.gen ∧ ρ.failover = w.failover w.cur.gen)
    (h : w.handle i o inp = some (w', r)) : w.Allows (Rules.lax srv ρ) i o inp r := by
  cases o with
  | get o db =>
    rcases r with e | c
    · exact fun h => h
    · trivial
  | talk who via c p limit => exact fun conn _ => (conn.talk_frame i p inp).2.1
  | cacheGet key => rcases r with _ | b <;> trivial
  | readPool =>
    obtain ⟨ref, href, heq⟩ := Option.map_eq_some_iff.mp h
    obtain ⟨-, rfl⟩ := Prod.mk.inj heq
    intro hhome
    rw [show (Rules.lax srv ρ).cur = w.cur from (hρ hhome).1, cur, List.getD_eq_getElem?_getD, href]
    rfl
  | loadGr gen =>
    obtain ⟨-, rfl⟩ := Prod.mk.inj (Option.some.inj h)
    intro hhome hgen
    rw [show (Rules.lax srv ρ).gr = w.gr w.cur.gen from (hρ hhome).2.1, hgen,
      show (Rules.lax srv ρ).cur = w.cur from (hρ hhome).1]
  | loadFailover gen =>
    obtain ⟨-, rfl⟩ := Prod.mk.inj (Option.some.inj h)
    intro hhome hgen
    rw [show (Rules.lax srv ρ).failover = w.failover w.cur.gen from (hρ hhome).2.2, hgen,
      show (Rules.lax srv ρ).cur = w.cur from (hρ hhome).1]
  | primaryAllows gen => exact fun h => h.elim
  | put o c db => exact fun _ _ _ => trivial
  | _ => trivial

/-- The sessions keep hold of their connections in every run. -/
def laxOutline (srv : Server) (cfg : ProxyConfig) (ok : ProxyState srv → ProxyEvent → Prop) :
    Outline (proxy srv cfg) ok (Hold srv) where
  inv w := w.Coherent
  hold := World.hold
  proto _ _ _ := (Rules.lax srv .none).contract
  idle _ g st := st.Lax .none g
  msg_ok _ _ hidle _ hreact := Session.lax_react hidle hreact fun _ h => h.elim
  op_ok {s i st m o k inp w' r} hinv _ _ _ hh := by
    have hkept := World.handle_kept (R := Rules.lax srv .none) hinv (fun _ _ _ _ _ => trivial) hh
      (World.allows_lax (fun h => h.elim) hh)
    exact ⟨hkept.coherent, rfl, rfl, hkept.step, hkept.others⟩
  env_ok hinv _ he := ⟨World.act_coherent hinv he, World.act_hold he, .inl ⟨rfl, rfl⟩⟩
  stop_ok hinv _ hst := by
    cases hst
    exact ⟨World.stop_coherent hinv, rfl, rfl, Session.lax_absent, fun _ hj => World.stop_hold_of_ne hj⟩

theorem laxOutline_start (ok : ProxyState srv → ProxyEvent → Prop) (primary : PoolConfig)
    (replicas : List PoolConfig) (clients : List Client) :
    (laxOutline srv cfg ok).Good (proxyStart srv primary replicas clients) := by
  refine ⟨World.new_coherent primary replicas, fun i => ?_⟩
  have hnone : (proxyStart srv primary replicas clients).world.hold i = fun _ => none := World.hold_new ..
  change Session.Lax .none ((proxyStart srv primary replicas clients).world.hold i) _
  rw [hnone]
  exact Session.lax_start clients i

/-- **Nothing is forgotten**: in every run, a connection that an idle session has checked out is in
one of its variables. -/
theorem held_mem_conns {primary : PoolConfig} {replicas : List PoolConfig} {clients : List Client}
    {ok : ProxyState srv → ProxyEvent → Prop} {es : List ProxyEvent} {s : ProxyState srv}
    (hrun : Steps (proxy srv cfg).step ok (proxyStart srv primary replicas clients) es s) {i : Nat}
    {st : Session} (hidle : s.thread i = .idle st) {c : ConnId} {conn : Conn srv}
    (hc : s.world.hold i c = some conn) : c ∈ st.conns := by
  have hgood := (laxOutline srv cfg ok).steps hrun (laxOutline_start ok primary replicas clients)
  have hth := hgood.2 i
  rw [hidle] at hth
  exact Session.Lax.mem_conns hth hc

/-- A session that is over has nothing checked out. -/
theorem hold_ended {primary : PoolConfig} {replicas : List PoolConfig} {clients : List Client}
    {ok : ProxyState srv → ProxyEvent → Prop} {es : List ProxyEvent} {s : ProxyState srv}
    (hrun : Steps (proxy srv cfg).step ok (proxyStart srv primary replicas clients) es s) {i : Nat}
    {st : Session} (hidle : s.thread i = .idle st) (hend : st.ended = true) (c : ConnId) :
    s.world.hold i c = none := by
  have hgood := (laxOutline srv cfg ok).steps hrun (laxOutline_start ok primary replicas clients)
  have hth := hgood.2 i
  rw [hidle] at hth
  rcases hc : s.world.hold i c with _ | conn
  · rfl
  · have hmem := Session.Lax.mem_conns hth hc
    rw [Session.Lax.conns_eq_nil hth hend] at hmem
    cases hmem

/-! ## The counter -/

/-- A relation between the counter of a pool and the number of its connections that are out, which a
checkout and a return both keep. -/
structure Tally (rel : Nat → Nat → Prop) : Prop where
  /-- a new pool -/
  zero : rel 0 0
  /-- a checkout -/
  up : ∀ {b h}, rel b h → rel (b + 1) (h + 1)
  /-- a return -/
  down : ∀ {b h}, rel b (h + 1) → rel (usizePred b) h

theorem Tally.exact : Tally fun b h => b = h where
  zero := rfl
  up h := congrArg (· + 1) h
  down := by
    rintro b h rfl
    exact usizePred_succ h

/-- A pool may count more than is out, never less. -/
theorem Tally.atLeast : Tally fun b h => h ≤ b where
  zero := Nat.le_refl 0
  up h := Nat.succ_le_succ h
  down := by
    intro b h hle
    obtain ⟨b, rfl⟩ : ∃ b', b = b' + 1 := ⟨b - 1, by omega⟩
    rw [usizePred_succ]
    exact Nat.le_of_succ_le_succ hle

/-- The connection goes out of scope. -/
def Op.isDrop : Op → Bool
  | .drop .. => true
  | _ => false

namespace World

variable {w w' : World srv} {i : Nat} {rel : Nat → Nat → Prop}

/-- A connection that the operation returns goes to the pool that lent it. -/
def putsToLender (w : World srv) (i : Nat) : Op → Bool
  | .put o c _ => (w.hold i c).all fun conn => conn.lender == o
  | _ => true

/-- The counters of the pools and the connections that are out are related. -/
structure Balanced (rel : Nat → Nat → Prop) (w : World srv) : Prop where
  /-- buckets and connections agree -/
  coherent : w.Coherent
  /-- connections come from pools that have been installed -/
  installed : ∀ conn ∈ w.conns, conn.lender.gen < w.refs.length
  /-- the counter is right -/
  count : ∀ o, rel (w.pools o).borrowed (w.heldOf o)

theorem Balanced.get (hT : Tally rel) {o : Origin} {db : Option Str} {d : GetDecision}
    {r : Except Str ConnId} (hw : w.Balanced rel) (h : w.get i o db d = some (w', r)) :
    w'.Balanced rel := by
  obtain ⟨hgen, p', evicted, hgot⟩ := get_got hw.coherent h
  have hrefs : w'.refs = w.refs := congrArg Prod.fst hgot.roles
  refine ⟨hgot.coherent hw.coherent, fun conn hmem => ?_, fun o' => ?_⟩
  · rw [hrefs]
    obtain ⟨c, hc⟩ := List.mem_iff_getElem?.mp hmem
    by_cases hr : r = .ok c
    · rw [hgot.hit c hr] at hc
      obtain rfl := Option.some.inj hc
      rw [(w.lent_place i o d c).2]
      exact hgen
    · rw [hgot.miss c hr] at hc
      obtain ⟨conn₀, hconn₀, rfl⟩ := Option.map_eq_some_iff.mp hc
      have hbefore := hw.installed conn₀ (List.mem_of_getElem? hconn₀)
      split
      · exact hbefore
      · exact hbefore
  · rw [hgot.count o', hgot.pools]
    by_cases ho : o' = o
    · subst ho
      rw [Function.update_self, hgot.borrowed, if_pos rfl]
      rcases r with e | c
      · exact hw.count o'
      · exact hT.up (hw.count o')
    · rw [Function.update_of_ne ho, if_neg ho]
      exact hw.count o'

/-- A connection of the session is replaced by one of the same lender. -/
theorem Balanced.installed_set {c : ConnId} {conn conn' : Conn srv} (hw : w.Balanced rel)
    (hheld : w.hold i c = some conn) {x : Conn srv} (hx : x ∈ w.conns.set c conn')
    (hlender : conn'.lender = conn.lender) : x.lender.gen < w.refs.length := by
  rcases List.mem_or_eq_of_mem_set hx with hmem | rfl
  · exact hw.installed x hmem
  · rw [hlender]
    exact hw.installed conn (List.mem_of_getElem? (hold_eq_some.mp hheld).1)

/-- A connection that is no longer out is missing from the count of its lender. -/
theorem heldOf_leave {c : ConnId} {conn conn' : Conn srv} (hheld : w.hold i c = some conn)
    (hconns : w'.conns = w.conns.set c conn') (hout : ∀ j, conn'.place ≠ .held j) (o : Origin) :
    w.heldOf o = w'.heldOf o + if o = conn.lender then 1 else 0 := by
  have hcount := count_set hheld hconns o
  have hafter : conn'.outOf o = false := by
    rw [Conn.outOf]
    split
    · rename_i j hj
      exact absurd hj (hout j)
    · rfl
  have hbefore : conn.outOf o = decide (o = conn.lender) := by
    simp [Conn.outOf, (hold_eq_some.mp hheld).2, beq_eq_decide, eq_comm]
  rw [hafter, hbefore] at hcount
  by_cases ho : o = conn.lender <;> simpa [ho] using hcount.symm

theorem Balanced.put (hT : Tally rel) {o : Origin} {c : ConnId} {db : Option Str} {now : Nat}
    (hw : w.Balanced rel) (h : w.put i o c db now = some w')
    (hback : w.putsToLender i (.put o c db) = true) : w'.Balanced rel := by
  obtain ⟨conn, kept, hret⟩ := put_returned h
  have hlender : conn.lender = o := by simpa [putsToLender, hret.held] using hback
  have hrefs : w'.refs = w.refs := congrArg Prod.fst hret.roles
  refine ⟨hret.coherent hw.coherent, fun x hx => ?_, fun o' => ?_⟩
  · rw [hret.conns] at hx
    rw [hrefs]
    exact hw.installed_set hret.held hx rfl
  · -- one connection less is out of `o`, and the counter of `o` has gone down by one
    have hleave := heldOf_leave hret.held hret.conns (by cases kept <;> simp) o'
    have hcount := hw.count o'
    rw [hleave, hlender] at hcount
    by_cases ho : o' = o
    · subst ho
      rw [if_pos rfl] at hcount
      rw [hret.borrowed]
      exact hT.down hcount
    · rw [if_neg ho] at hcount
      rw [hret.others o' ho]
      exact hcount

/-- A drop leaves the counter as it is. -/
theorem Balanced.drop (hdrop : ∀ {b h}, rel b (h + 1) → rel b h) {c : ConnId} (hw : w.Balanced rel)
    (h : w.drop i c = some w') : w'.Balanced rel := by
  obtain ⟨conn, hheld, rfl⟩ := Option.map_eq_some_iff.mp h
  refine ⟨coherent_set hw.coherent hheld rfl rfl, fun x hx => hw.installed_set hheld hx rfl,
    fun o => ?_⟩
  have hcount := hw.count o
  have hleave : w.heldOf o = ({ w with conns := w.conns.set c { conn with place := .closed } } :
      World srv).heldOf o + if o = conn.lender then 1 else 0 :=
    heldOf_leave hheld rfl (fun j h => by cases h) o
  rw [hleave] at hcount
  split at hcount
  · exact hdrop hcount
  · exact hcount

theorem Balanced.talk {c : ConnId} {p : Packet} {limit : Option Nat} {d : TalkInput}
    {r : Except TalkError Response} (hw : w.Balanced rel)
    (h : w.talk i c p limit d = some (w', r)) : w'.Balanced rel := by
  obtain ⟨conn, hheld, hrest⟩ := Option.bind_eq_some_iff.mp h
  simp only [Option.ite_none_left_eq_some, Option.some.injEq, Prod.mk.injEq] at hrest
  obtain ⟨-, rfl, -⟩ := hrest
  obtain ⟨hplace, hlender, -⟩ := conn.talk_frame i p d
  refine ⟨coherent_set hw.coherent hheld rfl rfl, fun x hx => hw.installed_set hheld hx hlender,
    fun o => ?_⟩
  have hcount : ({ w with conns := w.conns.set c (conn.talk i p d).1 } : World srv).heldOf o +
      (conn.outOf o).toNat = w.heldOf o + ((conn.talk i p d).1.outOf o).toNat := count_set hheld rfl o
  have hsame : (conn.talk i p d).1.outOf o = conn.outOf o := by
    simp only [Conn.outOf, hplace, hlender]
  rw [hsame] at hcount
  rw [Nat.add_right_cancel hcount]
  exact hw.count o

/-- **Step lemma**: the accounts survive every operation that returns connections to their lenders;
a drop only where the counter may be too high. -/
theorem Balanced.handle (hT : Tally rel) {o : Op} {inp : In o} {r : Res o} (hw : w.Balanced rel)
    (h : w.handle i o inp = some (w', r)) (hback : w.putsToLender i o = true)
    (hdrop : o.isDrop = true → ∀ {b h}, rel b (h + 1) → rel b h) : w'.Balanced rel := by
  cases o with
  | get o db => exact hw.get hT h
  | put o c db =>
    obtain ⟨w₁, hput, heq⟩ := Option.map_eq_some_iff.mp h
    obtain ⟨rfl, -⟩ := Prod.mk.inj heq
    exact hw.put hT hput hback
  | drop exit c =>
    obtain ⟨w₁, hw₁, heq⟩ := Option.map_eq_some_iff.mp h
    obtain ⟨rfl, -⟩ := Prod.mk.inj heq
    exact hw.drop (hdrop rfl) hw₁
  | talk who via c p limit => exact hw.talk h
  | readPool =>
    obtain ⟨ref, -, heq⟩ := Option.map_eq_some_iff.mp h
    obtain ⟨rfl, -⟩ := Prod.mk.inj heq
    exact hw
  | panic => cases h
  | _ =>
    obtain ⟨rfl, -⟩ := Prod.mk.inj (Option.some.inj h)
    exact hw

/-- After a panic, no more connections are out than before. -/
theorem heldOf_stop_le (o : Origin) : (w.stop i).heldOf o ≤ w.heldOf o := by
  rw [heldOf, stop, List.countP_map]
  refine List.countP_mono_left fun conn _ hout => ?_
  simp only [Function.comp_apply] at hout
  split at hout
  · simp [Conn.outOf] at hout
  · exact hout

/-- A panic drops the connections of its session. -/
theorem Balanced.stop (hdrop : ∀ {b h}, rel b (h + 1) → rel b h) (hw : w.Balanced rel) : (w.stop i).Balanced rel := by
  refine ⟨stop_coherent hw.coherent, stop_forall hw.installed fun _ h => h, fun o => ?_⟩
  obtain ⟨k, hk⟩ := Nat.exists_eq_add_of_le (heldOf_stop_le (w := w) (i := i) o)
  have hcount := hw.count o
  rw [hk] at hcount
  clear hk
  induction k with
  | zero => exact hcount
  | succ k ih => exact ih (hdrop hcount)

/-- It drops nothing where the session has nothing. -/
theorem stop_eq_self (h : ∀ conn ∈ w.conns, conn.place ≠ .held i) : w.stop i = w := by
  rw [stop, List.map_congr_left fun conn hmem => if_neg (h conn hmem), List.map_id']

/-- A pool that is installed while sessions run starts with an empty account. -/
theorem Balanced.act (hT : Tally rel) {e : Admin} (hw : w.Balanced rel) (h : w.act e = some w') :
    w'.Balanced rel := by
  have hrefs : w.refs.length ≤ w'.refs.length := by
    cases e <;> obtain rfl := Option.some.inj h <;> simp
  refine ⟨act_coherent hw.coherent h, fun conn hmem => ?_, fun o => ?_⟩
  · rw [act_conns h] at hmem
    exact Nat.lt_of_lt_of_le (hw.installed conn hmem) hrefs
  · have hheld : w'.heldOf o = w.heldOf o := by rw [heldOf, heldOf, act_conns h]
    rw [hheld]
    rcases act_pools h o with hp | ⟨hgen, config, hp⟩
    · rw [hp]
      exact hw.count o
    · have hzero : w.heldOf o = 0 := by
        refine List.countP_eq_zero.mpr fun conn hmem hout => ?_
        have hlender : conn.lender = o := by
          rw [Conn.outOf] at hout
          split at hout
          · exact eq_of_beq hout
          · cases hout
        have hlt := hw.installed conn hmem
        rw [hlender, hgen] at hlt
        exact Nat.lt_irrefl _ hlt
      rw [hp, hzero]
      exact hT.zero

theorem new_balanced (hT : Tally rel) (primary : PoolConfig) (replicas : List PoolConfig) :
    (World.new srv primary replicas).Balanced rel := by
  refine ⟨new_coherent primary replicas, fun conn hmem => ?_, fun o => ?_⟩
  · cases hmem
  · have hzero : ((World.new srv primary replicas).pools o).borrowed = 0 := by
      simp only [World.new, install]
      split
      · rcases o.slot with _ | j <;> rfl
      · rfl
    rw [hzero]
    exact hT.zero

end World

/-- The next operation drops no connection, and a connection it returns goes to the pool that lent it; a session whose
task panics has no connection. -/
def keepsAccounts (s : ProxyState srv) : ProxyEvent → Bool
  | .op i _ => (s.next i).all fun o => !o.isDrop && s.world.putsToLender i o
  | .stop i => s.world.conns.all fun conn => conn.place != .held i
  | _ => true

/-- **Run lemma**: the accounts are right in every state of a run that gives no connection away. -/
theorem balanced_of_steps {primary : PoolConfig} {replicas : List PoolConfig} {clients : List Client}
    {es : List ProxyEvent} {s : ProxyState srv}
    (hrun : Steps (proxy srv cfg).step (fun s e => keepsAccounts s e = true)
      (proxyStart srv primary replicas clients) es s) : s.world.Balanced fun b h => b = h := by
  refine hrun.induct (P := fun t => t.world.Balanced fun b h => b = h)
    (fun t e t' hbal hok hst => ?_) (World.new_balanced Tally.exact primary replicas)
  cases e with
  | msg i m =>
    obtain ⟨st, p, -, -, rfl⟩ := Machine.step_msg hst
    exact hbal
  | op i inp =>
    obtain ⟨st, m, o, k, w', r, hi, hw', rfl⟩ := Machine.step_op hst
    have hkeeps : (!o.isDrop && t.world.putsToLender i o) = true := by
      simpa [keepsAccounts, Sys.next_eq hi] using hok
    obtain ⟨hnodrop, hputs⟩ := Bool.and_eq_true_iff.mp hkeeps
    refine hbal.handle Tally.exact hw' hputs fun hdrop => ?_
    rw [hdrop] at hnodrop
    cases hnodrop
  | env e =>
    obtain ⟨w', hw', rfl⟩ := Option.map_eq_some_iff.mp hst
    exact hbal.act Tally.exact hw'
  | stop i =>
    obtain ⟨w', st, hw', rfl⟩ := Machine.step_stop hst
    cases hw'
    have hnothing : t.world.stop i = t.world :=
      World.stop_eq_self fun conn hmem => by simpa using List.all_eq_true.mp hok conn hmem
    dsimp only
    rwa [hnothing]

/-- Once every session is over, nothing is out. -/
theorem heldOf_eq_zero {primary : PoolConfig} {replicas : List PoolConfig} {clients : List Client}
    {ok : ProxyState srv → ProxyEvent → Prop} {es : List ProxyEvent} {s : ProxyState srv}
    (hrun : Steps (proxy srv cfg).step ok (proxyStart srv primary replicas clients) es s)
    (hend : allEnded s) (o : Origin) : s.world.heldOf o = 0 := by
  refine List.countP_eq_zero.mpr fun conn hmem hout => ?_
  obtain ⟨c, hc⟩ := List.mem_iff_getElem?.mp hmem
  rw [Conn.outOf] at hout
  split at hout
  · rename_i i hplace
    obtain ⟨st, hidle, hended⟩ := hend i
    have hnone := hold_ended hrun hidle hended c
    rw [World.hold_eq_some.mpr ⟨hc, hplace⟩] at hnone
    cases hnone
  · cases hout

/-- **Checked-out accounting.** In every run in which no operation drops a connection or returns it
to a pool that did not lend it, and no session panics that has one, `borrowed` of each pool is the
number of its connections that are out, what an idle session has out is in its variables, and all
counters are zero once every session is over. -/
theorem borrowed_eq_heldOf {primary : PoolConfig} {replicas : List PoolConfig}
    {clients : List Client} {es : List ProxyEvent} {s : ProxyState srv}
    (hrun : Steps (proxy srv cfg).step (fun s e => keepsAccounts s e = true)
      (proxyStart srv primary replicas clients) es s) :
    (∀ o, (s.world.pools o).borrowed = s.world.heldOf o) ∧
      (∀ i st c conn, s.thread i = .idle st → s.world.hold i c = some conn → c ∈ st.conns) ∧
      (allEnded s → ∀ o, (s.world.pools o).borrowed = 0) := by
  have hcount := (balanced_of_steps hrun).count
  refine ⟨hcount, fun i st c conn hidle hc => held_mem_conns hrun hidle hc, fun hend o => ?_⟩
  rw [hcount o]
  exact heldOf_eq_zero hrun hend o

/-- A transaction, then the end of the session. -/
def quietRun : List ProxyEvent :=
  mysqlQuery 0 "BEGIN" 11 ++ mysqlQuery 0 "UPDATE t SET x = 1" 5 ++ mysqlQuery 0 "COMMIT" 8 ++
  mysqlLeaves 0 0

theorem borrowed_eq_heldOf_quietRun :
    ∃ s, run (proxy .mysql smallConfig).step (proxyStart .mysql smallPool [] [mysqlClient]) quietRun =
        some s ∧ ∀ o, (s.world.pools o).borrowed = s.world.heldOf o := by
  obtain ⟨s, hs⟩ := Option.isSome_iff_exists.mp (show (run (fun s e =>
    if keepsAccounts s e then (proxy .mysql smallConfig).step s e else none)
    (proxyStart .mysql smallPool [] [mysqlClient]) quietRun).isSome = true by decide +kernel)
  have hsteps := steps_of_checked (fun _ _ h => h) hs
  exact ⟨s, hsteps.run, (borrowed_eq_heldOf hsteps).1⟩

/-- A read whose connection fails, then the end of the session. -/
def failedRead : List ProxyEvent :=
  mysqlQuery 0 "SELECT 1" 14
    (calm 0 (some (.lost "Connection timed out (os error 110)".toList false))) ++
  mysqlLeaves 0 0

/-- The connection of the failed read is gone and the session is over, but the pool still counts it. -/
theorem borrowed_leaks : ¬ ∀ (srv : Server) (cfg : ProxyConfig) (primary : PoolConfig)
    (replicas : List PoolConfig) (clients : List Client) (es : List ProxyEvent) (s : ProxyState srv),
    run (proxy srv cfg).step (proxyStart srv primary replicas clients) es = some s →
    ∀ o, (s.world.pools o).borrowed = s.world.heldOf o := by
  intro h
  have hend : (run (proxy .mysql smallConfig).step (proxyStart .mysql smallPool [] [mysqlClient])
      failedRead).map (fun s => ((s.world.pools ⟨0, .primary⟩).borrowed,
        s.world.heldOf ⟨0, .primary⟩)) = some (1, 0) := by
    decide +kernel
  obtain ⟨s, hs, hend⟩ := Option.map_eq_some_iff.mp hend
  obtain ⟨hborrowed, hheld⟩ := Prod.mk.inj hend
  have heq := h _ _ _ _ _ _ s hs ⟨0, .primary⟩
  rw [hborrowed, hheld] at heq
  cases heq

end TurbineProxy
