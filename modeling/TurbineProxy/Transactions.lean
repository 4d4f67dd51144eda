import TurbineProxy.Custody
import TurbineProxy.MysqlSpec

/-!
# MySQL transactions stay where they were opened

`MySQLBackendConnection` does not know the state of its transaction: its `in_transaction` field is never
set. What keeps a transaction together is the session's own bookkeeping, which follows the text of the
statements. `tracksTransactions` says when the two agree, exchange by exchange: a transaction is open
afterwards only on `tx_conn`, and only if the session's flag will say so.

Along the runs on which they agree no connection with an open transaction is idle in a pool
(`idle_not_open`), and a session that has a transaction open sends everything to its connection and
keeps that connection to itself (`transaction_sticks`, `fast_forward_sticks`).
-/

namespace TurbineProxy

variable {srv : Server} {cfg : ProxyConfig}

/-! ## Rules about the server's end -/

/-- A connection without an open transaction may be returned. Outside `tx_conn` every exchange leaves it
so; on `tx_conn` those do after which the session does not keep the transaction. -/
def Rules.transact (srv : Server) (kept : Except Str Response → Bool) : Rules srv where
  clean conn := conn.txOpen = false
  after via _ conn r conn' := conn'.lender = conn.lender ∧ (via ≠ .txConn → conn'.txOpen = false) ∧
    (kept (r.mapError TalkError.text) = false → conn'.txOpen = false)
  plain _ := True
  sure := False
  home := False
  cur := ⟨0, []⟩
  gr := -1
  failover := -1
  after_lender h := h.1
  after_clean h := h.2.1
  after_plain _ _ := trivial
  agree := PoolRef.agree_nobody

/-- Whether the session keeps its transaction after a command with outcome `r`. Only queries end
transactions. -/
def Session.keptAfter (cfg : ProxyConfig) : Session → SessionEvent → Except Str Response → Bool
  | .mysql st, .mysql (.query bytes) => st.keeps cfg.mysql (textOf bytes)
  | _, _ => fun _ => true

/-- The variables of an idle MySQL session hold its connections, `tx_conn` without an open transaction
while the flag is down. -/
def Session.Tracked (g : Hold srv) : Session → Prop
  | .mysql st => MysqlSession.Idle (Rules.transact srv fun _ => true) g st
  | .pg _ => False

/-- The commands that return every connection of a session. -/
def SessionEvent.returnsAll : SessionEvent → Bool
  | .mysql .resetConnection | .mysql .cleanup => true
  | _ => false

theorem Session.tracked_react {g : Hold srv} {st : Session} {m : SessionEvent} {p : Task Session}
    (h : st.Tracked g) (hreact : st.react cfg m = some p)
    (hall : m.returnsAll = true → ∀ c conn, g c = some conn → conn.txOpen = false) :
    p.wp (Rules.transact srv (st.keptAfter cfg m)).contract (fun st' g' => st'.Tracked g') g := by
  cases st with
  | pg st => exact h.elim
  | mysql st =>
    obtain ⟨e, q, rfl, hq, rfl⟩ := Session.react_mysql hreact
    rw [Prog.wp_bind]
    -- an idle session is the same whichever command comes next
    have hidle : MysqlSession.Idle (Rules.transact srv
        (Session.keptAfter cfg (.mysql st) (.mysql e))) g st := h
    refine Prog.wp_mono (MysqlSession.wp_react hidle hq ?_) fun st' g' h' => h'
    cases e with
    | query bytes => exact fun hafter hkept => hafter.2.2 hkept
    | resetConnection => exact hall rfl
    | cleanup => exact hall rfl
    | _ => trivial

/-!
## The condition

The condition is about the steps of a run: that the heuristics on the text agree with what the server did, and that no
connection is lost in between.
-/

namespace World

variable {w w' : World srv} {i : Nat}

/-- An exchange leaves a transaction open on `tx_conn` only, and only if the session will know
(`kept`); a new connection starts without one. -/
def tracks (w : World srv) (i : Nat) (kept : Except Str Response → Bool) : (o : Op) → In o → Bool
  | .get o _, d =>
    !(Conn.open srv o i (w.pools o).config.backend.initConnect d.choice).txOpen
  | .talk _ via c p _, d => (w.hold i c).all fun conn =>
      !(conn.talk i p d).1.txOpen ||
        (via == .txConn && kept ((conn.talk i p d).2.mapError TalkError.text))
  | _, _ => true

/-- The session that has a connection opened the transaction that is open on it. -/
def OpenedByHolder (conn : Conn srv) : Prop :=
  conn.txOpen = true → ∀ j, conn.place = .held j → conn.opener = some j

/-- What holds of the world along the runs that are tracked. -/
structure Tracked (w : World srv) : Prop where
  /-- buckets and connections agree -/
  coherent : w.Coherent
  /-- no transaction is open on an idle connection -/
  idle : IdleClean (fun conn => conn.txOpen = false) w
  /-- transactions belong to their sessions -/
  owned : ∀ conn ∈ w.conns, OpenedByHolder conn

/-- What a checkout hands out has no open transaction. -/
theorem Tracked.lent_closed {o : Origin} {d : GetDecision} {c : ConnId} (hw : w.Tracked)
    (hopen : (Conn.open srv o i (w.pools o).config.backend.initConnect d.choice).txOpen = false)
    (hidle : ∀ conn, w.conns[c]? = some conn → conn.place = .idle o) :
    (w.lent i o d c).txOpen = false := by
  rw [lent]
  split
  · rename_i conn hconn
    exact hw.idle c conn o hconn (hidle conn hconn)
  · exact hopen

/-- The world meets the rules. -/
theorem Tracked.allows {kept : Except Str Response → Bool} {o : Op} {inp : In o} {r : Res o}
    (hw : w.Tracked) (htracks : w.tracks i kept o inp = true)
    (howes : (Rules.transact srv kept).contract.owes (w.hold i) o)
    (h : w.handle i o inp = some (w', r)) : w.Allows (Rules.transact srv kept) i o inp r := by
  cases o with
  | get o db =>
    rcases r with e | c
    · exact fun h => h
    · obtain ⟨-, p', evicted, hgot⟩ := get_got hw.coherent h
      have hopen : (Conn.open srv o i (w.pools o).config.backend.initConnect inp.choice).txOpen =
          false := by simpa [tracks] using htracks
      exact hw.lent_closed hopen (hgot.was c rfl)
  | put o c db =>
    intro conn hc _
    obtain ⟨conn', hc', htidy⟩ := howes
    obtain rfl : conn = conn' := Option.some.inj (hc.symm.trans hc')
    exact htidy.1
  | talk who via c p limit =>
    intro conn hc
    obtain ⟨conn', hc', hrest⟩ := Option.bind_eq_some_iff.mp h
    obtain rfl : conn = conn' := Option.some.inj (hc.symm.trans hc')
    simp only [Option.ite_none_left_eq_some, Option.some.injEq, Prod.mk.injEq] at hrest
    obtain ⟨-, -, rfl⟩ := hrest
    refine ⟨(conn.talk_frame i p inp).2.1, fun hvia => ?_, fun hkept => ?_⟩
    · simpa [tracks, hc, hvia] using htracks
    · simpa [tracks, hc, hkept] using htracks
  | readPool => exact fun h => h.elim
  | loadGr gen => exact fun h => h.elim
  | loadFailover gen => exact fun h => h.elim
  | primaryAllows gen => exact fun h => h.elim
  | cacheGet key => rcases r with _ | b <;> trivial
  | _ => trivial

end World

namespace Conn

/-- Whose transaction is open after an exchange: the one that was, or a new one of this session. -/
theorem talk_opener (conn : Conn srv) (i : Nat) (p : Packet) (d : TalkInput)
    (hbefore : conn.txOpen = true → conn.opener = some i)
    (hopen : (conn.talk i p d).1.txOpen = true) : (conn.talk i p d).1.opener = some i := by
  have hexec : (conn.afterExec i p d.choice).txOpen = true →
      (conn.afterExec i p d.choice).opener = some i := by
    intro hafter
    have hsess : srv.txOpen (srv.exec conn.sess p d.choice).1 = true := hafter
    simp only [afterExec, hsess, if_true]
    split
    · exact hbefore ‹_›
    · rfl
  have hnote : ∀ (c : Conn srv) reply, (c.noteReply reply).txOpen = c.txOpen ∧
      (c.noteReply reply).opener = c.opener := by
    intro c reply
    cases reply <;> exact ⟨rfl, rfl⟩
  have hfault : ∀ (c : Conn srv) reply f, (c.noteFault reply f).txOpen = c.txOpen ∧
      (c.noteFault reply f).opener = c.opener := by
    intro c reply f
    cases f <;> cases reply <;> exact ⟨rfl, rfl⟩
  have hgo : ∀ c' : Conn srv, (c' = conn ∨ c' = conn.afterExec i p d.choice) →
      c'.txOpen = true → c'.opener = some i := by
    rintro c' (rfl | rfl)
    · exact hbefore
    · exact hexec
  have hcase : (if d.executed then conn.afterExec i p d.choice else conn) = conn ∨
      (if d.executed then conn.afterExec i p d.choice else conn) = conn.afterExec i p d.choice := by
    cases d.executed
    · exact .inl rfl
    · exact .inr rfl
  revert hopen
  unfold talk
  dsimp only
  split
  · split
    · exact hgo _ hcase
    · rw [(hnote _ _).1, (hnote _ _).2]
      exact hgo _ hcase
  · rw [(hfault _ _ _).1, (hfault _ _ _).2]
    exact hgo _ hcase

end Conn

/-- **Step lemma**: what holds of the world survives a tracked operation. -/
theorem World.Tracked.handle {w w' : World srv} {i : Nat} {kept : Except Str Response → Bool} {o : Op}
    {inp : In o} {r : Res o} (hw : w.Tracked) (htracks : w.tracks i kept o inp = true)
    (h : w.handle i o inp = some (w', r))
    (hkept : World.Kept (Rules.transact srv kept) w w' i o r) : w'.Tracked := by
  refine ⟨hkept.coherent, hkept.clean, ?_⟩
  refine World.handle_forall hw.coherent hw.owned (fun conn _ _ j hj => by cases hj) h ?_
  cases o with
  | get o db =>
    intro c hidle hopen
    have hnew : (Conn.open srv o i (w.pools o).config.backend.initConnect inp.choice).txOpen =
        false := by simpa [World.tracks] using htracks
    rw [hw.lent_closed hnew hidle] at hopen
    cases hopen
  | put o c db =>
    intro conn _ _ _ j hj
    cases hj
  | talk who via c p limit =>
    intro conn hc hopen j hj
    obtain ⟨hconn, hplace⟩ := World.hold_eq_some.mp hc
    rw [(conn.talk_frame i p inp).1, hplace] at hj
    rw [← Place.held.inj hj]
    exact conn.talk_opener i p inp
      (fun hbefore => hw.owned conn (List.mem_of_getElem? hconn) hbefore i hplace) hopen
  | _ => trivial

/-! ## Runs -/

/-- The steps on which the session's bookkeeping agrees with the server: every exchange is tracked, and
a session that ends or is reset has no transaction open. -/
def tracksTransactions (cfg : ProxyConfig) (s : ProxyState srv) : ProxyEvent → Bool
  | .msg i m => !m.returnsAll ||
      s.world.conns.all fun conn => !(conn.place == .held i && conn.txOpen)
  | .op i inp =>
    match s.thread i with
    | .busy st m (.op o _) => s.world.tracks i (st.keptAfter cfg m) o (inp o)
    | _ => true
  | .env _ | .stop _ => true

/-- A session that is not there follows its transactions. -/
theorem MysqlSession.tracked_empty {st : MysqlSession} (hst : st.Empty) :
    Session.Tracked (fun _ => (none : Option (Conn srv))) (.mysql st) := by
  refine ⟨?_, fun _ => hst⟩
  rw [hst.vars]
  exact Owns.nil

/-- Every session follows the transactions of its connections. -/
def transactOutline (srv : Server) (cfg : ProxyConfig) :
    Outline (proxy srv cfg) (fun s e => tracksTransactions cfg s e = true) (Hold srv) where
  inv w := w.Tracked
  hold := World.hold
  proto _ st m := (Rules.transact srv (st.keptAfter cfg m)).contract
  idle _ g st := st.Tracked g
  msg_ok {s i st m p} _ _ hidle hok hreact := by
    refine Session.tracked_react hidle hreact fun hall c conn hc => ?_
    obtain ⟨hconn, hplace⟩ := World.hold_eq_some.mp hc
    simp only [tracksTransactions, hall, Bool.not_true, Bool.false_or, List.all_eq_true] at hok
    simpa [hplace] using hok conn (List.mem_of_getElem? hconn)
  op_ok {s i st m o k inp w' r} hinv hi howes hok hh := by
    have htracks : s.world.tracks i (st.keptAfter cfg m) o (inp o) = true := by
      simpa only [tracksTransactions, hi] using hok
    have hkept := World.handle_kept hinv.coherent hinv.idle hh (hinv.allows htracks howes hh)
    exact ⟨hinv.handle htracks hh hkept, rfl, rfl, hkept.step, hkept.others⟩
  env_ok {s e w'} hinv _ he := by
    refine ⟨⟨World.act_coherent hinv.coherent he, ?_, ?_⟩, World.act_hold he, .inl ⟨rfl, rfl⟩⟩
    · intro c conn o hconn
      rw [World.act_conns he] at hconn
      exact hinv.idle c conn o hconn
    · rw [World.act_conns he]
      exact hinv.owned
  stop_ok {s i w' st} hinv _ hst := by
    cases hst
    refine ⟨⟨World.stop_coherent hinv.coherent, World.stop_idleClean hinv.idle, ?_⟩, rfl, rfl, ?_,
      fun _ hj => World.stop_hold_of_ne hj⟩
    · exact World.stop_forall (P := fun conn => conn.txOpen = true → ∀ j, conn.place = .held j →
        conn.opener = some j) hinv.owned fun _ _ _ _ => nofun
    · rw [World.stop_hold_self]
      exact MysqlSession.tracked_empty ⟨rfl, rfl, rfl⟩

section Runs

variable {primary : PoolConfig} {replicas : List PoolConfig} {clients : List Client}
  {es : List ProxyEvent} {s : ProxyState srv}

theorem transactOutline_start (hmysql : ∀ client ∈ clients, client.postgres = false) :
    (transactOutline srv cfg).Good (proxyStart srv primary replicas clients) := by
  refine ⟨⟨World.new_coherent primary replicas, fun c conn o hconn => ?_, fun conn hmem => ?_⟩,
    fun i => ?_⟩
  · cases hconn
  · cases hmem
  · have hnone : (proxyStart srv primary replicas clients).world.hold i = fun _ => none := World.hold_new ..
    change Session.Tracked ((proxyStart srv primary replicas clients).world.hold i) _
    rw [hnone]
    rcases hi : clients[i]? with _ | client
    · exact MysqlSession.tracked_empty ⟨rfl, rfl, rfl⟩
    · simp only [Option.elim_some, Client.session, hmysql client (List.mem_of_getElem? hi),
        Bool.false_eq_true, if_false]
      exact MysqlSession.tracked_empty ⟨rfl, rfl, rfl⟩

variable (hmysql : ∀ client ∈ clients, client.postgres = false)
  (hrun : Steps (proxy srv cfg).step (fun s e => tracksTransactions cfg s e = true)
    (proxyStart srv primary replicas clients) es s)

include hmysql hrun

theorem tracked_of_steps : (transactOutline srv cfg).Good s :=
  (transactOutline srv cfg).steps hrun (transactOutline_start hmysql)

/-- A connection with an open transaction is checked out by the session that opened it. -/
theorem holder_of_open {c : ConnId} {conn : Conn srv} (hconn : s.world.conns[c]? = some conn)
    (hlive : conn.place ≠ .closed) (hopen : conn.txOpen = true) :
    ∃ i, conn.opener = some i ∧ s.world.hold i c = some conn := by
  have htracked : s.world.Tracked := (tracked_of_steps hmysql hrun).1
  rcases hplace : conn.place with j | o | _
  · have howner := htracked.owned conn (List.mem_of_getElem? hconn) hopen j hplace
    exact ⟨j, howner, World.hold_eq_some.mpr ⟨hconn, hplace⟩⟩
  · have hclosed := htracked.idle c conn o hconn hplace
    rw [hclosed] at hopen
    cases hopen
  · exact absurd hplace hlive

/-- A client's command goes to the connection on which its session has a transaction open. -/
theorem command_goes_to_open {i : Nat} {via : Via} {c c' : ConnId} {p : Packet} {limit : Option Nat}
    {conn : Conn srv} (hnext : s.next i = some (.talk .client via c p limit))
    (hconn : s.world.conns[c']? = some conn) (hlive : conn.place ≠ .closed)
    (hopen : conn.txOpen = true) (hopener : conn.opener = some i) : c' = c := by
  obtain ⟨st, m, k, hi⟩ := Sys.next_eq_some hnext
  have howes := (tracked_of_steps hmysql hrun).owes hi
  obtain ⟨j, hj, hheld⟩ := holder_of_open hmysql hrun hconn hlive hopen
  obtain rfl : i = j := Option.some.inj (hopener.symm.trans hj)
  by_contra hne
  have hclean : conn.txOpen = false := howes.2 rfl c' conn hne hheld
  rw [hclean] at hopen
  cases hopen

/-- A connection that is about to be returned has no open transaction. -/
theorem returned_not_open {i : Nat} {o : Origin} {c : ConnId} {db : Option Str}
    (hnext : s.next i = some (.put o c db)) :
    ∃ conn, s.world.hold i c = some conn ∧ conn.txOpen = false := by
  obtain ⟨st, m, k, hi⟩ := Sys.next_eq_some hnext
  obtain ⟨conn, hconn, htidy⟩ := (tracked_of_steps hmysql hrun).owes hi
  exact ⟨conn, hconn, htidy.1⟩

end Runs

/-- **No dirty connection is pooled**: in every run that tracks its transactions, no connection with an
open transaction is idle in a pool. -/
theorem idle_not_open {primary : PoolConfig} {replicas : List PoolConfig} {clients : List Client}
    {es : List ProxyEvent} {s : ProxyState srv}
    (hmysql : ∀ client ∈ clients, client.postgres = false)
    (hrun : Steps (proxy srv cfg).step (fun s e => tracksTransactions cfg s e = true)
      (proxyStart srv primary replicas clients) es s) :
    ∀ conn ∈ s.world.conns, ∀ o, conn.place = .idle o → conn.txOpen = false := by
  intro conn hmem o hplace
  have htracked : s.world.Tracked := (tracked_of_steps hmysql hrun).1
  obtain ⟨c, hc⟩ := List.mem_iff_getElem?.mp hmem
  exact htracked.idle c conn o hc hplace

/-- A transaction from BEGIN to COMMIT. -/
def wholeTransaction : List ProxyEvent :=
  mysqlQuery 0 "BEGIN" 11 ++ mysqlQuery 0 "UPDATE t SET x = 1" 5 ++ mysqlQuery 0 "COMMIT" 8 ++
  mysqlLeaves 0 0

theorem idle_not_open_wholeTransaction :
    ∃ s, run (proxy .mysql smallConfig).step (proxyStart .mysql smallPool [] [mysqlClient])
        wholeTransaction = some s ∧
      ∀ conn ∈ s.world.conns, ∀ o, conn.place = .idle o → conn.txOpen = false := by
  obtain ⟨s, hs⟩ := Option.isSome_iff_exists.mp (show (run (fun s e =>
    if tracksTransactions smallConfig s e then (proxy .mysql smallConfig).step s e else none)
    (proxyStart .mysql smallPool [] [mysqlClient]) wholeTransaction).isSome = true
    by decide +kernel)
  have hsteps := steps_of_checked (fun _ _ h => h) hs
  exact ⟨s, hsteps.run, idle_not_open (by simp [mysqlClient]) hsteps⟩

/-- A client that goes away in the middle of its transaction. -/
def abandoned : List ProxyEvent := mysqlQuery 0 "BEGIN" 11 ++ mysqlLeaves 0 3

/-- The clean-up returns its connection as it is. -/
theorem dirty_connection_pooled : ¬ ∀ (srv : Server) (cfg : ProxyConfig) (primary : PoolConfig)
    (replicas : List PoolConfig) (clients : List Client) (es : List ProxyEvent) (s : ProxyState srv),
    (∀ client ∈ clients, client.postgres = false) →
    run (proxy srv cfg).step (proxyStart srv primary replicas clients) es = some s →
    ∀ conn ∈ s.world.conns, ∀ o, conn.place = .idle o → conn.txOpen = false := by
  intro h
  have hend : (run (proxy .mysql smallConfig).step (proxyStart .mysql smallPool [] [mysqlClient])
      abandoned).map (fun s => s.world.conns.any fun conn =>
        conn.place == .idle ⟨0, .primary⟩ && conn.txOpen) = some true := by
    decide +kernel
  obtain ⟨s, hs, hend⟩ := Option.map_eq_some_iff.mp hend
  obtain ⟨conn, hmem, hdirty⟩ := List.any_eq_true.mp hend
  obtain ⟨hplace, hopen⟩ := Bool.and_eq_true_iff.mp hdirty
  rw [h _ _ _ _ _ _ s (by simp [mysqlClient]) hs conn hmem _ (eq_of_beq hplace)] at hopen
  cases hopen

/-- **Stickiness**: in every run that tracks its transactions, every command a client sends while a
transaction of its session is open goes to the connection of that transaction, and that connection is
not returned while it is open. -/
theorem transaction_sticks {primary : PoolConfig} {replicas : List PoolConfig} {clients : List Client}
    {es : List ProxyEvent} {s : ProxyState srv}
    (hmysql : ∀ client ∈ clients, client.postgres = false)
    (hrun : Steps (proxy srv cfg).step (fun s e => tracksTransactions cfg s e = true)
      (proxyStart srv primary replicas clients) es s) :
    (∀ i via c p limit, s.next i = some (.talk .client via c p limit) →
      ∀ c' conn, s.world.conns[c']? = some conn → conn.place ≠ .closed → conn.txOpen = true →
        conn.opener = some i → c' = c) ∧
      ∀ i o c db, s.next i = some (.put o c db) →
        ∃ conn, s.world.hold i c = some conn ∧ conn.txOpen = false :=
  ⟨fun _ _ _ _ _ hnext _ _ hconn hlive hopen hopener =>
    command_goes_to_open hmysql hrun hnext hconn hlive hopen hopener,
    fun _ _ _ _ hnext => returned_not_open hmysql hrun hnext⟩

/-- In the middle of a transaction, about to send an UPDATE. -/
def midTransaction : List ProxyEvent :=
  mysqlQuery 0 "START TRANSACTION" 11 ++ mysqlQuery 0 "UPDATE t SET x = 1" 1

theorem transaction_sticks_midTransaction :
    ∃ s, run (proxy .mysql smallConfig).step (proxyStart .mysql smallPool [] [mysqlClient])
        midTransaction = some s ∧
      ∀ via c p limit, s.next 0 = some (.talk .client via c p limit) →
        ∀ c' conn, s.world.conns[c']? = some conn → conn.place ≠ .closed → conn.txOpen = true →
          conn.opener = some 0 → c' = c := by
  obtain ⟨s, hs⟩ := Option.isSome_iff_exists.mp (show (run (fun s e =>
    if tracksTransactions smallConfig s e then (proxy .mysql smallConfig).step s e else none)
    (proxyStart .mysql smallPool [] [mysqlClient]) midTransaction).isSome = true by decide +kernel)
  have hsteps := steps_of_checked (fun _ _ h => h) hs
  exact ⟨s, hsteps.run, (transaction_sticks (by simp [mysqlClient]) hsteps).1 0⟩

/-- A BEGIN after a comment, another session that draws the connection, then the next statement of the
first session. -/
def commentedBegin : List ProxyEvent :=
  mysqlQuery 0 "/* app */ BEGIN" 16 ++ mysqlQuery 1 "SELECT 1" 10 ++ mysqlQuery 0 "UPDATE t SET x = 1" 9

/-- The classifier knows what the loop does not. -/
example : classify "/* app */ BEGIN".toList = .transaction ∧ MysqlSession.begins "/* app */ BEGIN".toList = false := by
  decide +kernel

/-- Session `i` is about to send a command past the connection on which it has a transaction open. -/
def strays (s : ProxyState srv) (i : Nat) : Bool :=
  match s.next i with
  | some (.talk .client _ c _ _) => s.world.conns.zipIdx.any fun e =>
      e.2 != c && e.1.place != .closed && e.1.txOpen && e.1.opener == some i
  | _ => false

/-- The loop does not recognise a BEGIN after a comment, the classifier does. -/
theorem transaction_strays : ¬ ∀ (srv : Server) (cfg : ProxyConfig) (primary : PoolConfig)
    (replicas : List PoolConfig) (clients : List Client) (es : List ProxyEvent) (s : ProxyState srv),
    cfg.mysql.fastForward = false → (∀ client ∈ clients, client.postgres = false) →
    run (proxy srv cfg).step (proxyStart srv primary replicas clients) es = some s →
    ∀ i via c p limit, s.next i = some (.talk .client via c p limit) →
      ∀ c' conn, s.world.conns[c']? = some conn → conn.place ≠ .closed → conn.txOpen = true →
        conn.opener = some i → c' = c := by
  intro h
  have hend : (run (proxy .mysql smallConfig).step
      (proxyStart .mysql smallPool [] [mysqlClient, mysqlClient]) commentedBegin).map (strays · 0) =
      some true := by
    decide +kernel
  obtain ⟨s, hs, hstrays⟩ := Option.map_eq_some_iff.mp hend
  rw [strays] at hstrays
  split at hstrays
  · rename_i via c p limit hnext
    obtain ⟨⟨conn, c'⟩, hmem, hopen⟩ := List.any_eq_true.mp hstrays
    simp only [Bool.and_eq_true, bne_iff_ne, beq_iff_eq] at hopen
    obtain ⟨⟨⟨hne, hlive⟩, htx⟩, hopener⟩ := hopen
    exact hne (h _ _ _ _ _ _ s rfl (by simp [mysqlClient]) hs 0 via c p limit hnext c' conn
      (List.mem_zipIdx_iff_getElem?.mp hmem) hlive htx hopener)
  · cases hstrays

/-- **Transactions are kept together and to themselves**, with or without fast-forward: in every run
that tracks its transactions, the commands of a session go to the connection on which it has a
transaction open, and whoever uses a connection with an open transaction is the session that opened
it. -/
theorem fast_forward_sticks {primary : PoolConfig} {replicas : List PoolConfig}
    {clients : List Client} {es : List ProxyEvent} {s : ProxyState srv}
    (hmysql : ∀ client ∈ clients, client.postgres = false)
    (hrun : Steps (proxy srv cfg).step (fun s e => tracksTransactions cfg s e = true)
      (proxyStart srv primary replicas clients) es s) :
    (∀ i via c p limit, s.next i = some (.talk .client via c p limit) →
      ∀ c' conn, s.world.conns[c']? = some conn → conn.place ≠ .closed → conn.txOpen = true →
        conn.opener = some i → c' = c) ∧
      ∀ j who via c p limit conn, s.next j = some (.talk who via c p limit) →
        s.world.conns[c]? = some conn → conn.txOpen = true → conn.opener = some j := by
  refine ⟨fun _ _ _ _ _ hnext _ _ hconn hlive hopen hopener =>
    command_goes_to_open hmysql hrun hnext hconn hlive hopen hopener, ?_⟩
  intro j who via c p limit conn hnext hconn hopen
  obtain ⟨st, m, k, hi⟩ := Sys.next_eq_some hnext
  obtain ⟨⟨conn', hheld⟩, -⟩ := (tracked_of_steps hmysql hrun).owes hi
  obtain ⟨hconn', hplace⟩ := World.hold_eq_some.mp hheld
  obtain rfl : conn = conn' := Option.some.inj (hconn.symm.trans hconn')
  have htracked : s.world.Tracked := (tracked_of_steps hmysql hrun).1
  exact htracked.owned conn (List.mem_of_getElem? hconn) hopen j hplace

/-- `fast_forward = true` -/
def fastConfig : ProxyConfig :=
  { smallConfig with mysql := { smallConfig.mysql with fastForward := true } }

/-- A BEGIN that never reaches the backend, but raises the flag; the second one opens the transaction on
`tx_conn`. -/
def secondBegin : List ProxyEvent :=
  mysqlQuery 0 "BEGIN" 9 (calm 0 (some (.unsent "broken pipe".toList))) ++ mysqlQuery 0 "BEGIN" 8 ++
  mysqlQuery 0 "UPDATE t SET x = 1" 1

theorem fast_forward_sticks_secondBegin :
    ∃ s, run (proxy .mysql fastConfig).step (proxyStart .mysql smallPool [] [mysqlClient])
        secondBegin = some s ∧
      ∀ j who via c p limit conn, s.next j = some (.talk who via c p limit) →
        s.world.conns[c]? = some conn → conn.txOpen = true → conn.opener = some j := by
  obtain ⟨s, hs⟩ := Option.isSome_iff_exists.mp (show (run (fun s e =>
    if tracksTransactions fastConfig s e then (proxy .mysql fastConfig).step s e else none)
    (proxyStart .mysql smallPool [] [mysqlClient]) secondBegin).isSome = true by decide +kernel)
  have hsteps := steps_of_checked (fun _ _ h => h) hs
  exact ⟨s, hsteps.run, (fast_forward_sticks (by simp [mysqlClient]) hsteps).2⟩

/-- A fast-forwarded BEGIN, and another session that draws its connection. -/
def sharedTransaction : List ProxyEvent := mysqlQuery 0 "BEGIN" 10 ++ mysqlQuery 1 "SELECT 1" 5

/-- Session `j` is about to use a connection on which another session has a transaction open. -/
def intrudes (s : ProxyState srv) (j : Nat) : Bool :=
  match s.next j with
  | some (.talk _ _ c _ _) => (s.world.conns[c]?).any fun conn => conn.txOpen && conn.opener != some j
  | _ => false

/-- The connection of a fast-forwarded BEGIN is returned at once. -/
theorem fast_forward_intrudes : ¬ ∀ (srv : Server) (cfg : ProxyConfig) (primary : PoolConfig)
    (replicas : List PoolConfig) (clients : List Client) (es : List ProxyEvent) (s : ProxyState srv),
    cfg.mysql.fastForward = true → (∀ client ∈ clients, client.postgres = false) →
    run (proxy srv cfg).step (proxyStart srv primary replicas clients) es = some s →
    ∀ j who via c p limit conn, s.next j = some (.talk who via c p limit) →
      s.world.conns[c]? = some conn → conn.txOpen = true → conn.opener = some j := by
  intro h
  have hend : (run (proxy .mysql fastConfig).step
      (proxyStart .mysql smallPool [] [mysqlClient, mysqlClient]) sharedTransaction).map
      (intrudes · 1) = some true := by
    decide +kernel
  obtain ⟨s, hs, hintrudes⟩ := Option.map_eq_some_iff.mp hend
  rw [intrudes] at hintrudes
  split at hintrudes
  · rename_i who via c p limit hnext
    obtain ⟨conn, hconn, hopen⟩ := (Option.any_eq_true _ _).mp hintrudes
    simp only [Bool.and_eq_true, bne_iff_ne] at hopen
    exact hopen.2 (h _ _ _ _ _ _ s rfl (by simp [mysqlClient]) hs 1 who via c p limit conn hnext
      hconn hopen.1)
  · cases hintrudes

end TurbineProxy
