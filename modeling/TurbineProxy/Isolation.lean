import TurbineProxy.Accounts

/-!
# What a session finds on a pooled connection

A connection carries state that clients choose: session variables, the default database. Which part of a
server's state that is, and what a command does to it, is given by a `Scoping`.

The proxy is run with a journal of every connection: the `init_connect` it was opened with, and what its
holder has executed on it since it was drawn. A session is isolated if the state it finds is the one these two
make of a fresh connection: then nothing that other sessions do changes it. `isolated` says along which runs
that holds. Connections go back to the pool as they are, so it fails as soon as one session sets a variable and
another one draws the connection (`leaked`).
-/

namespace TurbineProxy

variable {srv : Server} {cfg : ProxyConfig} {Scope : Type}

/-! ## Connection-scoped state -/

/-- The part of a connection's state that clients choose by their commands. -/
structure Scoping (srv : Server) (Scope : Type) where
  /-- that part -/
  of : srv.Sess → Scope
  /-- what a command does to it -/
  effect : Scope → Packet → Nat → Scope
  /-- which depends on nothing else -/
  of_exec : ∀ s p n, of (srv.exec s p n).1 = effect (of s) p n

/-- A command that a server executed, and what else its behaviour depended on. -/
structure Exchange where
  /-- the command -/
  packet : Packet
  /-- the rest -/
  choice : Nat
  deriving DecidableEq

/-- The journal of a connection. -/
structure Journal where
  /-- the `init_connect` statements -/
  opening : List Exchange
  /-- what its holder has executed since it drew the connection -/
  own : List Exchange
  deriving DecidableEq

/-- The journal of a connection that has just been opened. -/
def Journal.opened (init : List Bytes) (n : Nat) : Journal := ⟨init.map fun sql => ⟨.text sql, n⟩, []⟩

/-- The journal of a connection that is drawn again. -/
def Journal.drawn (J : Journal) : Journal := { J with own := [] }

/-- The journal after an exchange. -/
def Journal.talk (J : Journal) (p : Packet) (d : TalkInput) : Journal :=
  if d.executed then { J with own := J.own ++ [⟨p, d.choice⟩] } else J

namespace Scoping

variable (S : Scoping srv Scope)

/-- What exchanges make of a state. -/
def after (s : Scope) (es : List Exchange) : Scope := es.foldl (fun s e => S.effect s e.packet e.choice) s

theorem after_snoc (s : Scope) (es : List Exchange) (e : Exchange) :
    S.after s (es ++ [e]) = S.effect (S.after s es) e.packet e.choice := by
  rw [after, List.foldl_append]
  rfl

/-- The state in which a connection is opened. -/
def initial (J : Journal) : Scope := S.after (S.of srv.fresh) J.opening

/-- The state that the holder of a connection has made of it. -/
def made (J : Journal) : Scope := S.after (S.initial J) J.own

theorem of_talk (conn : Conn srv) (i : Nat) (p : Packet) (d : TalkInput) :
    S.of (conn.talk i p d).1.sess =
      if d.executed then S.effect (S.of conn.sess) p d.choice else S.of conn.sess := by
  have hsess : (conn.talk i p d).1.sess =
      if d.executed then (srv.exec conn.sess p d.choice).1 else conn.sess := by
    unfold Conn.talk Conn.noteReply Conn.noteFault
    cases d.executed <;> rcases d.fault with _ | _ | _ | _ <;> cases p <;> dsimp only <;> (try split) <;> rfl
  rw [hsess, apply_ite S.of, S.of_exec]

theorem of_open (o : Origin) (i : Nat) (init : List Bytes) (n : Nat) :
    S.of (Conn.open srv o i init n).sess = S.initial (.opened init n) := by
  have hgo (conn : Conn srv) : S.of (init.foldl (fun c sql => (c.talk i (.text sql) ⟨none, n⟩).1) conn).sess =
      S.after (S.of conn.sess) (init.map fun sql => ⟨.text sql, n⟩) := by
    induction init generalizing conn with
    | nil => rfl
    | cons sql rest ih =>
      rw [List.foldl_cons, ih, S.of_talk]
      rfl
  exact hgo _

/-- A connection and its journal: while it is held its state is what its holder has made of it, while it is
idle nobody has made anything of it. -/
structure Traces (conn : Conn srv) (J : Journal) : Prop where
  /-- held -/
  held : ∀ i, conn.place = .held i → S.of conn.sess = S.made J
  /-- idle -/
  idle : ∀ o, conn.place = .idle o → S.of conn.sess = S.initial J

variable {S} {conn : Conn srv} {J : Journal}

theorem Traces.closed : S.Traces { conn with place := .closed } J :=
  ⟨fun _ hplace => (by cases hplace), fun _ hplace => by cases hplace⟩

theorem Traces.opened (o : Origin) (i : Nat) (init : List Bytes) (n : Nat) :
    S.Traces (Conn.open srv o i init n) (.opened init n) := by
  refine ⟨fun _ _ => S.of_open o i init n, fun o' hidle => ?_⟩
  cases (Conn.open_frame ..).1.symm.trans hidle

theorem Traces.drawn {o : Origin} (h : S.Traces conn J) (hidle : conn.place = .idle o) (i : Nat) (o' : Origin) :
    S.Traces { conn with place := .held i, lender := o' } J.drawn :=
  ⟨fun _ _ => h.idle o hidle, nofun⟩

theorem Traces.talk {i : Nat} (h : S.Traces conn J) (hheld : conn.place = .held i) (p : Packet) (d : TalkInput) :
    S.Traces (conn.talk i p d).1 (J.talk p d) := by
  have hplace : (conn.talk i p d).1.place = .held i := (conn.talk_frame i p d).1.trans hheld
  refine ⟨fun _ _ => ?_, fun o hidle => by cases hplace.symm.trans hidle⟩
  rw [S.of_talk, h.held i hheld, Journal.talk]
  split
  · exact (S.after_snoc (S.initial J) J.own ⟨p, d.choice⟩).symm
  · rfl

/-- A connection that goes back as it was opened. -/
theorem Traces.returned (hclean : S.of conn.sess = S.initial J) (o : Origin) :
    S.Traces { conn with place := .idle o } J :=
  ⟨nofun, fun _ _ => hclean⟩

end Scoping

/-! ## The proxy with its journals -/

/-- The journals after an operation. -/
def journalsAfter (w : World srv) (J : ConnId → Journal) : (o : Op) → In o → Res o → ConnId → Journal
  | .get o _, d, .ok c => Function.update J c <|
    if w.conns[c]?.isSome then (J c).drawn
    else .opened (w.pools o).config.backend.initConnect (d : GetDecision).choice
  | .talk _ _ c p _, d, _ => Function.update J c ((J c).talk p d)
  | _, _, _ => J

/-- The proxy, with a journal of every connection. -/
def journalProxy (srv : Server) (cfg : ProxyConfig) :
    Machine Op Res In (World srv × (ConnId → Journal)) Session SessionEvent Admin where
  react := Session.react cfg
  handle w i o inp := (w.1.handle i o inp).map fun r => ((r.1, journalsAfter w.1 w.2 o inp r.2), r.2)
  env w e := (w.1.act e).map fun w' => (w', w.2)
  stop w i := some ((w.1.stop i, w.2), .absent)

/-- A state of the proxy and its journals. -/
abbrev JournalState (srv : Server) := Sys Op Res (World srv × (ConnId → Journal)) Session SessionEvent

/-- The proxy that has just started. -/
def journalStart (srv : Server) (primary : PoolConfig) (replicas : List PoolConfig) (clients : List Client) :
    JournalState srv :=
  ⟨(.new srv primary replicas, fun _ => ⟨[], []⟩), fun i => .idle (clients[i]?.elim .absent Client.session)⟩

namespace World

variable {w w' : World srv} {J : ConnId → Journal} {S : Scoping srv Scope}

/-- Every connection is what its journal says. -/
def Journaled (S : Scoping srv Scope) (w : World srv) (J : ConnId → Journal) : Prop :=
  ∀ c conn, w.conns[c]? = some conn → S.Traces conn (J c)

/-- One connection is replaced. -/
theorem Journaled.set (h : w.Journaled S J) (w' : World srv) {c : ConnId} {conn : Conn srv} {J₁ : Journal}
    (hconn : S.Traces conn J₁) (hconns : w'.conns = w.conns.set c conn) :
    w'.Journaled S (Function.update J c J₁) := by
  intro c' conn' hc'
  rw [hconns] at hc'
  by_cases heq : c' = c
  · subst heq
    obtain ⟨hlt, -⟩ := List.getElem?_eq_some_iff.mp hc'
    rw [List.length_set] at hlt
    rw [List.getElem?_set_self hlt] at hc'
    rw [Function.update_self, ← Option.some.inj hc']
    exact hconn
  · rw [List.getElem?_set_ne (Ne.symm heq)] at hc'
    rw [Function.update_of_ne heq]
    exact h c' conn' hc'

section Got

variable {i : Nat} {o : Origin} {d : GetDecision} {r : Except Str ConnId} {p' : ConnectionPool}
  {evicted : List ConnId} {c : ConnId} {conn : Conn srv}

/-- What is not handed out stays as it is, or is closed. -/
theorem Journaled.miss (h : w.Journaled S J) (hgot : w.Got w' i o d r p' evicted) (hc : r ≠ .ok c)
    (hconn : w'.conns[c]? = some conn) : S.Traces conn (J c) := by
  rw [hgot.miss c hc] at hconn
  obtain ⟨conn₀, hconn₀, rfl⟩ := Option.map_eq_some_iff.mp hconn
  split
  · exact .closed
  · exact h c conn₀ hconn₀

/-- A session finds nothing on a connection that it draws. -/
theorem Journaled.hit (h : w.Journaled S J) (hgot : w.Got w' i o d (.ok c) p' evicted)
    (hconn : w'.conns[c]? = some conn) : S.Traces conn <|
      if w.conns[c]?.isSome then (J c).drawn else .opened (w.pools o).config.backend.initConnect d.choice := by
  rw [hgot.hit c rfl] at hconn
  obtain rfl := Option.some.inj hconn
  rcases hc : w.conns[c]? with _ | conn₀
  · rw [Option.isSome_none, if_neg Bool.false_ne_true]
    simp only [lent, hc]
    exact .opened ..
  · rw [Option.isSome_some, if_pos rfl]
    simp only [lent, hc]
    exact (h c conn₀ hc).drawn (hgot.was c rfl conn₀ hc) i o

end Got

/-- A connection that goes into an idle bucket is in the state in which it was opened. -/
def goesBackClean [DecidableEq Scope] (S : Scoping srv Scope) (w : World srv) (J : ConnId → Journal) (i : Nat) :
    (o : Op) → In o → Bool
  | .put o c db, now => (w.hold i c).all fun conn =>
      !((w.pools o).putForDatabase c conn.inTransaction conn.healthy db now).2 ||
        S.of conn.sess == S.initial (J c)
  | _, _ => true

/-- An operation keeps the journals, if nothing is left on a connection that goes back. -/
theorem Journaled.handle [DecidableEq Scope] {i : Nat} {o : Op} {inp : In o} {r : Res o} (hw : w.Coherent)
    (h : w.Journaled S J) (hok : w.goesBackClean S J i o inp = true) (hh : w.handle i o inp = some (w', r)) :
    w'.Journaled S (journalsAfter w J o inp r) := by
  cases o with
  | get o db =>
    obtain ⟨-, p', evicted, hgot⟩ := get_got hw hh
    rcases r with e | c
    · have hall : w'.Journaled S J := fun c conn hconn => h.miss hgot (fun heq => by cases heq) hconn
      exact hall
    intro c' conn hconn
    unfold journalsAfter
    dsimp only
    by_cases hc : c' = c
    · subst hc
      rw [Function.update_self]
      exact h.hit hgot hconn
    · rw [Function.update_of_ne hc]
      exact h.miss hgot (fun heq => hc (Except.ok.inj heq).symm) hconn
  | put o c db =>
    obtain ⟨w₁, hput, heq⟩ := Option.map_eq_some_iff.mp hh
    obtain ⟨rfl, rfl⟩ := Prod.mk.inj heq
    obtain ⟨conn, hheld, rfl⟩ := Option.map_eq_some_iff.mp hput
    simp only [goesBackClean, hheld, Option.all_some, Bool.or_eq_true, Bool.not_eq_true', beq_iff_eq] at hok
    have hback : S.Traces { conn with
        place := if ((w.pools o).putForDatabase c conn.inTransaction conn.healthy db inp).2
          then .idle o else .closed } (J c) := by
      split
      · rename_i hkept
        exact .returned (hok.resolve_left (by rw [hkept]; nofun)) o
      · exact .closed
    have hset := h.set { w with
      pools := Function.update w.pools o ((w.pools o).putForDatabase c conn.inTransaction conn.healthy db inp).1
      conns := w.conns.set c { conn with
        place := if ((w.pools o).putForDatabase c conn.inTransaction conn.healthy db inp).2
          then .idle o else .closed } } hback rfl
    rwa [Function.update_eq_self] at hset
  | drop exit c =>
    obtain ⟨w₁, hdrop, heq⟩ := Option.map_eq_some_iff.mp hh
    obtain ⟨rfl, rfl⟩ := Prod.mk.inj heq
    obtain ⟨conn, hheld, rfl⟩ := Option.map_eq_some_iff.mp hdrop
    have hset := h.set { w with conns := w.conns.set c { conn with place := .closed } } (.closed : S.Traces _ (J c)) rfl
    rwa [Function.update_eq_self] at hset
  | talk who via c p limit =>
    obtain ⟨conn, hheld, hrest⟩ := Option.bind_eq_some_iff.mp hh
    simp only [Option.ite_none_left_eq_some, Option.some.injEq, Prod.mk.injEq] at hrest
    obtain ⟨-, rfl, -⟩ := hrest
    obtain ⟨hconn, hplace⟩ := hold_eq_some.mp hheld
    exact h.set { w with conns := w.conns.set c (conn.talk i p inp).1 } ((h c conn hconn).talk hplace p inp) rfl
  | readPool =>
    obtain ⟨ref, -, heq⟩ := Option.map_eq_some_iff.mp hh
    obtain ⟨rfl, rfl⟩ := Prod.mk.inj heq
    exact h
  | panic => cases hh
  | _ =>
    obtain ⟨rfl, rfl⟩ := Prod.mk.inj (Option.some.inj hh)
    exact h

end World

/-! ## Runs -/

/-- The steps that leave no state on idle connections. -/
def leavesNoState [DecidableEq Scope] (S : Scoping srv Scope) (s : JournalState srv) : ProxyEvent → Bool
  | .op i inp =>
    match s.thread i with
    | .busy _ _ (.op o _) => s.world.1.goesBackClean S s.world.2 i o (inp o)
    | _ => true
  | _ => true

/-- Session `i` is about to have a text query executed on `conn`. -/
def TextOn (s : JournalState srv) (i : Nat) (c : ConnId) (conn : Conn srv) : Prop :=
  (∃ via sql limit, s.next i = some (.talk .client via c (.text sql) limit)) ∧ s.world.1.hold i c = some conn

section Isolated

variable [DecidableEq Scope] {S : Scoping srv Scope} {primary : PoolConfig} {replicas : List PoolConfig}
  {clients : List Client} {es : List ProxyEvent} {s : JournalState srv}

/-- The journals are kept along every run that leaves no state behind; the sessions may do as they like. -/
def journalOutline (S : Scoping srv Scope) (cfg : ProxyConfig) :
    Outline (journalProxy srv cfg) (fun s e => leavesNoState S s e = true) Unit where
  inv w := w.1.Coherent ∧ w.1.Journaled S w.2
  hold _ _ := ()
  proto _ _ _ := .free
  idle _ _ _ := True
  msg_ok {_ _ _ _ p} _ _ _ _ _ := p.wp_free ()
  op_ok {s i st m o k inp w' r} hinv hi _ hok hh := by
    obtain ⟨⟨w₁, r₁⟩, hw, heq⟩ := Option.map_eq_some_iff.mp hh
    obtain ⟨rfl, rfl⟩ := Prod.mk.inj heq
    simp only [leavesNoState, hi] at hok
    have hkept := World.handle_kept (R := Rules.lax srv .none) hinv.1 (fun _ _ _ _ _ => trivial) hw
      (World.allows_lax (fun h => h.elim) hw)
    exact ⟨⟨hkept.coherent, hinv.2.handle hinv.1 hok hw⟩, rfl, rfl, trivial, fun _ _ => rfl⟩
  env_ok {s e w'} hinv _ he := by
    obtain ⟨w₁, hw, rfl⟩ := Option.map_eq_some_iff.mp he
    refine ⟨⟨World.act_coherent hinv.1 hw, fun c conn hconn => ?_⟩, fun _ => rfl, .inl ⟨rfl, rfl⟩⟩
    rw [World.act_conns hw] at hconn
    exact hinv.2 c conn hconn
  stop_ok hinv _ hst := by
    cases hst
    refine ⟨⟨World.stop_coherent hinv.1, fun c conn hconn => ?_⟩, rfl, rfl, trivial, fun _ _ => rfl⟩
    rcases World.stop_cases hconn with ⟨conn₀, -, -, rfl⟩ | ⟨hconn, -⟩
    · exact .closed
    · exact hinv.2 c conn hconn

/-- The state of a connection that a session has is what the session has made of it. -/
theorem held_made (hrun : Steps (journalProxy srv cfg).step (fun s e => leavesNoState S s e = true)
    (journalStart srv primary replicas clients) es s) {i : Nat} {c : ConnId} {conn : Conn srv}
    (hheld : s.world.1.hold i c = some conn) : S.of conn.sess = S.made (s.world.2 c) := by
  have hstart : (journalOutline S cfg).Good (journalStart srv primary replicas clients) :=
    ⟨⟨World.new_coherent primary replicas, fun c conn hconn => by cases hconn⟩, fun _ => trivial⟩
  obtain ⟨⟨-, hjournaled⟩, -⟩ := (journalOutline S cfg).steps hrun hstart
  obtain ⟨hconn, hplace⟩ := World.hold_eq_some.mp hheld
  exact (hjournaled c conn hconn).held i hplace

/-- **Isolation** along two runs that leave no state on idle connections: the state under which a text query of
a session is executed is what the configured `init_connect` and the session's own commands since it drew the
connection make of a fresh one. It is the same in another run, whatever the other sessions are and do there,
if the session has done the same. -/
theorem isolated {clients' : List Client} {es' : List ProxyEvent} {s' : JournalState srv}
    (hrun : Steps (journalProxy srv cfg).step (fun s e => leavesNoState S s e = true)
      (journalStart srv primary replicas clients) es s)
    (hrun' : Steps (journalProxy srv cfg).step (fun s e => leavesNoState S s e = true)
      (journalStart srv primary replicas clients') es' s')
    {i : Nat} {c : ConnId} {conn : Conn srv} (hi : TextOn s i c conn) :
    S.of conn.sess = S.made (s.world.2 c) ∧
      ∀ c' conn', TextOn s' i c' conn' → s'.world.2 c' = s.world.2 c → S.of conn'.sess = S.of conn.sess := by
  have hmade := held_made hrun hi.2
  refine ⟨hmade, fun c' conn' hi' hsame => ?_⟩
  rw [held_made hrun' hi'.2, hsame, hmade]

end Isolated

/-- Session `i` is about to send a text query on a connection for which `q` holds. -/
def sendsOn (s : JournalState srv) (i : Nat) (q : ConnId → Conn srv → Bool) : Bool :=
  match s.next i with
  | some (.talk .client _ c (.text _) _) => (s.world.1.hold i c).any (q c)
  | _ => false

theorem textOn_of_sendsOn {s : JournalState srv} {i : Nat} {q : ConnId → Conn srv → Bool}
    (h : sendsOn s i q = true) : ∃ c conn, TextOn s i c conn ∧ q c conn = true := by
  rw [sendsOn] at h
  split at h
  · rename_i via c sql limit hnext
    obtain ⟨conn, hconn, hq⟩ := (Option.any_eq_true _ _).mp h
    exact ⟨c, conn, ⟨⟨via, sql, limit, hnext⟩, hconn⟩, hq⟩
  · cases h

/-- A server that remembers which SET statements have been executed on a connection. -/
def Server.setting : Server where
  Sess := List Bytes
  fresh := []
  exec sets p n :=
    (match p with
      | .text sql => if Str.startsWith (textOf sql) "SET" then sets ++ [sql] else sets
      | _ => sets,
      (Server.mysql.exec false p n).2)
  txOpen _ := false
  stmt _ _ := none

/-- All of its state is the clients'. -/
def Scoping.setting : Scoping .setting (List Bytes) where
  of sets := sets
  effect sets p n := (Server.setting.exec sets p n).1
  of_exec _ _ _ := rfl

/-- A session sets a variable in a transaction and is about to send a query there. -/
def setsInTx : List ProxyEvent :=
  mysqlQuery 0 "BEGIN" 11 ++ mysqlQuery 0 "SET SESSION sql_mode = ''" 5 ++ mysqlQuery 0 "SELECT 1" 1

/-- The same after a query of another session, whose connection it draws. -/
def setsAfterOther : List ProxyEvent := mysqlQuery 1 "SELECT 2" 16 ++ setsInTx

theorem isolated_setsInTx : ∃ s s' c conn,
    run (journalProxy .setting smallConfig).step (journalStart .setting smallPool [] [mysqlClient, mysqlClient])
        setsAfterOther = some s ∧
      run (journalProxy .setting smallConfig).step (journalStart .setting smallPool [] [mysqlClient]) setsInTx =
        some s' ∧
      TextOn s 0 c conn ∧ Scoping.setting.of conn.sess = Scoping.setting.made (s.world.2 c) ∧
      ∀ c' conn', TextOn s' 0 c' conn' → s'.world.2 c' = s.world.2 c →
        Scoping.setting.of conn'.sess = Scoping.setting.of conn.sess := by
  obtain ⟨s, hs⟩ := Option.isSome_iff_exists.mp (show (run (fun s e =>
    if leavesNoState .setting s e then (journalProxy .setting smallConfig).step s e else none)
    (journalStart .setting smallPool [] [mysqlClient, mysqlClient]) setsAfterOther).isSome = true by decide +kernel)
  obtain ⟨s', hs'⟩ := Option.isSome_iff_exists.mp (show (run (fun s e =>
    if leavesNoState .setting s e then (journalProxy .setting smallConfig).step s e else none)
    (journalStart .setting smallPool [] [mysqlClient]) setsInTx).isSome = true by decide +kernel)
  have hsteps := steps_of_checked (fun _ _ h => h) hs
  have hsteps' := steps_of_checked (fun _ _ h => h) hs'
  have hsends : (run (journalProxy .setting smallConfig).step
      (journalStart .setting smallPool [] [mysqlClient, mysqlClient]) setsAfterOther).map
      (sendsOn · 0 fun _ _ => true) = some true := by
    decide +kernel
  rw [hsteps.run] at hsends
  obtain ⟨c, conn, htext, -⟩ := textOn_of_sendsOn (Option.some.inj hsends)
  exact ⟨s, s', c, conn, hsteps.run, hsteps'.run, htext, isolated hsteps hsteps' htext⟩

/-- Another session sets a variable; the session is about to send a query. -/
def setByOther : List ProxyEvent := mysqlQuery 1 "SET SESSION sql_mode = ''" 17 ++ mysqlQuery 0 "SELECT 1" 10

/-- The variable is still set on the connection that the session draws, and it is not if the other session does
nothing. -/
theorem leaked : ¬ ∀ (srv : Server) (S : Scoping srv (List Bytes)) (cfg : ProxyConfig) (primary : PoolConfig)
    (replicas : List PoolConfig) (clients : List Client) (es es' : List ProxyEvent) (s s' : JournalState srv),
    (∀ client ∈ clients, client.postgres = false) →
    run (journalProxy srv cfg).step (journalStart srv primary replicas clients) es = some s →
    run (journalProxy srv cfg).step (journalStart srv primary replicas clients) es' = some s' →
    ∀ i c conn c' conn', TextOn s i c conn → TextOn s' i c' conn' → s'.world.2 c' = s.world.2 c →
      S.of conn'.sess = S.of conn.sess := by
  intro h
  obtain ⟨s, hs, hset⟩ := Option.map_eq_some_iff.mp (show (run (journalProxy .setting smallConfig).step
    (journalStart .setting smallPool [] [mysqlClient, mysqlClient]) setByOther).map (fun s =>
      sendsOn s 0 fun c conn => s.world.2 c == ⟨[], []⟩ && Scoping.setting.of conn.sess != []) = some true
    by decide +kernel)
  obtain ⟨s', hs', hclean⟩ := Option.map_eq_some_iff.mp (show (run (journalProxy .setting smallConfig).step
    (journalStart .setting smallPool [] [mysqlClient, mysqlClient]) (mysqlQuery 0 "SELECT 1" 10)).map (fun s =>
      sendsOn s 0 fun c conn => s.world.2 c == ⟨[], []⟩ && Scoping.setting.of conn.sess == []) = some true
    by decide +kernel)
  obtain ⟨c, conn, htext, hc⟩ := textOn_of_sendsOn hset
  obtain ⟨c', conn', htext', hc'⟩ := textOn_of_sendsOn hclean
  simp only [Bool.and_eq_true, beq_iff_eq, bne_iff_ne] at hc hc'
  have hsame := h _ .setting _ _ _ _ _ _ s s' (by simp [mysqlClient]) hs hs' 0 c conn c' conn' htext htext'
    (hc'.1.trans hc.1.symm)
  exact hc.2 (hsame.symm.trans hc'.2)

end TurbineProxy
