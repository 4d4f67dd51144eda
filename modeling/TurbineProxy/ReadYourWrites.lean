import TurbineProxy.Accounts
import TurbineProxy.ReadSessions
import TurbineProxy.SessionState

/-!
# Sessions read their own writes

`clockedProxy` is the proxy with a clock and with the record of `ReadLedger.lean` for every session. Two
promises are about it: that of the window (`ReadsOwnWrites`) and that of the GTID (`ReadsConfirmed`).

The window holds along every run, for the Writes that open one and for the reads that neither a query rule
nor the hint of the session has placed. The GTID holds along the runs on which the check can be believed
(`confirms`): it is asked of a replica the read need not go to, and the reply counts as a yes as soon as
there is the digit `1` in it.
-/

namespace TurbineProxy

/-! ## The record -/

/-- What the environment decides at an operation, and when the operation is performed. -/
def TimedIn (o : Op) : Type := In o × Nat

/-- The world, with a clock and with a record for every session. -/
structure ClockedWorld (srv : Server) where
  /-- what the sessions share -/
  world : World srv
  /-- when the last operation was performed -/
  clock : Nat
  /-- the records of the sessions -/
  records : Nat → Record

variable {srv : Server} {cfg : ProxyConfig}

/-- A session that looks at the clock sees the time. -/
def tells (t : Nat) : (o : Op) → In o → Bool
  | .now, now => Nat.beq now t
  | _, _ => true

/-- One operation of session `i`. The clock does not run backwards. -/
def ClockedWorld.handle (cfg : ProxyConfig) (w : ClockedWorld srv) (i : Nat) (o : Op) (x : TimedIn o) :
    Option (ClockedWorld srv × Res o) :=
  if w.clock ≤ x.2 ∧ tells x.2 o x.1 = true then
    (w.world.handle i o x.1).map fun r =>
      (⟨r.1, x.2, Function.update w.records i
        ((w.records i).after cfg.mysql.readYourOwnWritesMs x.2 o r.2)⟩, r.2)
  else none

/-- Nothing is out, and nothing has been written. -/
def Record.new : Record := ⟨none, ⟨fun _ => none, 0, 0, none, false, none⟩⟩

/-- The proxy, with the records of its sessions. -/
def clockedProxy (srv : Server) (cfg : ProxyConfig) :
    Machine Op Res TimedIn (ClockedWorld srv) Session SessionEvent Admin where
  react := Session.react cfg
  handle := ClockedWorld.handle cfg
  env w e := (w.world.act e).map fun world => { w with world }
  stop w i := some (⟨w.world.stop i, w.clock, Function.update w.records i .new⟩, .absent)

/-- A state of the proxy and its records. -/
abbrev ClockedState (srv : Server) := Sys Op Res (ClockedWorld srv) Session SessionEvent

/-- An event of the proxy, timed. -/
abbrev ClockedEvent := Event Op TimedIn SessionEvent Admin

/-- The proxy that has just started. -/
def clockedStart (srv : Server) (primary : PoolConfig) (replicas : List PoolConfig) (clients : List Client) :
    ClockedState srv :=
  ⟨⟨.new srv primary replicas, 0, fun _ => .new⟩, fun i => .idle (clients[i]?.elim .absent Client.session)⟩

/-- The GTID the query of a turn waits for. -/
def MysqlSession.waitsFor (cfg : MysqlConfig) (st : MysqlSession) : MysqlEvent → Option Str
  | .query bytes => st.awaits cfg (classify (textOf bytes) == .read && !st.inTransaction)
  | _ => none

/-- What a session has to see to: its windows, and where `gated` the GTID its query waits for. -/
def MysqlSession.duty (cfg : MysqlConfig) (gated : Bool) (st : MysqlSession) (e : MysqlEvent) : Duty :=
  ⟨cfg.readYourOwnWritesMs, cfg.fastForward, if gated then st.waitsFor cfg e else none⟩

/-- The check of a GTID can be believed: while a query waits for it, a reply with the digit `1` in it is a yes,
and the `BackendPool` that is read after that has no other replica than the one that said it. -/
def confirms (cfg : ProxyConfig) (s : ClockedState srv) : ClockedEvent → Bool
  | .op i x =>
    match s.thread i with
    | .busy (.mysql st) (.mysql e) (.op o _) =>
      (s.world.world.handle i o (x o).1).all fun r =>
        (st.duty cfg.mysql true e).trusts (s.world.records i).ledger o r.2
    | _ => true
  | _ => true

/-! ## The invariant -/

namespace Session

/-- The contract of the MySQL sessions; the others have no part in this. -/
def reads (cfg : ProxyConfig) (gated : Bool) : Session → SessionEvent → Protocol Op Res Record
  | .mysql st, .mysql e => reading (st.duty cfg.mysql gated e)
  | _, _ => .free

/-- An idle session is in order. -/
def InOrder (cfg : ProxyConfig) (ℓ : Ledger) : Session → Prop
  | .mysql st => st.Books ⟨cfg.mysql.readYourOwnWritesMs, cfg.mysql.fastForward, none⟩ ℓ
  | .pg _ => True

theorem reads_task {gated : Bool} {rec : Record} {st : Session} {m : SessionEvent} {p : Task Session}
    (horder : st.InOrder cfg rec.ledger) (hreact : st.react cfg m = some p) :
    p.wp (st.reads cfg gated m) (fun st' rec' => st'.InOrder cfg rec'.ledger) rec := by
  cases st with
  | pg st =>
    obtain ⟨e, q, rfl, -, rfl⟩ := Session.react_pg hreact
    rw [Prog.wp_bind]
    exact q.wp_free rec
  | mysql st =>
    obtain ⟨e, q, rfl, hq, rfl⟩ := Session.react_mysql hreact
    rw [Prog.wp_bind]
    have hbooks : st.Books (st.duty cfg.mysql gated e) rec.ledger := ⟨horder.holds, horder.due⟩
    have hgtid : ∀ bytes gtid, e = .query bytes → (st.duty cfg.mysql gated e).gtid = some gtid →
        st.awaits cfg.mysql (classify (textOf bytes) == .read && !st.inTransaction) = some gtid := by
      rintro bytes gtid rfl hgtid
      exact (Option.ite_none_right_eq_some.mp hgtid).2
    have hturn : Minds (st.duty cfg.mysql gated e) q (MysqlSession.Books (st.duty cfg.mysql gated e)) rec.ledger :=
      MysqlSession.minds_react rfl hq rfl hbooks hgtid
    exact Prog.wp_mono (hturn rec.named) fun st' rec' h => ⟨h.holds, h.due⟩

theorem reads_react {gated : Bool} {g : Hold srv} {rec : Record} {st : Session} {m : SessionEvent}
    {p : Task Session} (hlax : st.Lax .none g) (horder : st.InOrder cfg rec.ledger)
    (hreact : st.react cfg m = some p) :
    p.wp ((Rules.lax srv .none).contract.both (st.reads cfg gated m))
      (fun st' g' => st'.Lax .none g'.1 ∧ st'.InOrder cfg g'.2.ledger) (g, rec) :=
  Prog.wp_both (Session.lax_react hlax hreact fun _ h => h.elim) (reads_task horder hreact)

end Session

/-- What is in a record is checked out, and no window ends later than the clock allows. -/
structure Record.Fits (rec : Record) (w : World srv) (i window clock : Nat) : Prop where
  /-- the connections -/
  out : ∀ c d, rec.ledger.drawn c = some d → ∃ conn, w.hold i c = some conn
  /-- the session has not seen the future -/
  seen : rec.ledger.seen ≤ clock
  /-- the window -/
  limit : rec.ledger.limit ≤ clock + window

section Records

variable {w w' : World srv} {i window clock t : Nat} {rec : Record} {o : Op} {inp : In o} {r : Res o}

/-- A record that fits is one an operation can be expected to follow. -/
theorem Record.Fits.expects {D : Duty} (h : rec.Fits w i D.window clock) (ht : clock ≤ t)
    (hkept : World.Kept (Rules.lax srv .none) w w' i o r) (htells : tells t o inp = true)
    (hh : w.handle i o inp = some (w', r)) : D.expects rec.ledger o r := by
  cases o with
  | now =>
    obtain ⟨-, rfl⟩ := Prod.mk.inj (Option.some.inj hh)
    obtain rfl : inp = t := Nat.eq_of_beq_eq_true htells
    exact ⟨Nat.le_trans h.seen ht, Nat.le_trans h.limit (Nat.add_le_add_right ht _)⟩
  | get o db =>
    rcases r with e | c
    · trivial
    · obtain ⟨hnone, -⟩ := hkept.step
      refine Option.eq_none_iff_forall_ne_some.mpr fun d hd => ?_
      obtain ⟨conn, hconn⟩ := h.out c d hd
      cases hnone.symm.trans hconn
  | _ => trivial

/-- The connections of the record stay checked out. -/
theorem Record.Fits.backed (h : rec.Fits w i window clock) (hkept : World.Kept (Rules.lax srv .none) w w' i o r) :
    ∀ c d, (rec.after window t o r).ledger.drawn c = some d → ∃ conn, w'.hold i c = some conn := by
  have hstep := hkept.step
  have hadds (c : ConnId) (conn : Conn srv) (hhold : w'.hold i = Function.update (w.hold i) c (some conn)) :
      ∀ c' d, (rec.ledger.drawn c' = some d ∨ c' = c) → ∃ conn, w'.hold i c' = some conn := by
    intro c' d hc'
    rw [hhold]
    by_cases hc : c' = c
    · exact ⟨conn, by rw [hc, Function.update_self]⟩
    · rw [Function.update_of_ne hc]
      exact h.out c' d (hc'.resolve_right hc)
  have hends (c : ConnId) (hhold : w'.hold i = Function.update (w.hold i) c none) :
      ∀ c' d, Function.update rec.ledger.drawn c none c' = some d → ∃ conn, w'.hold i c' = some conn := by
    intro c' d hd
    by_cases hc : c' = c
    · rw [hc, Function.update_self] at hd
      cases hd
    · rw [Function.update_of_ne hc] at hd
      rw [hhold, Function.update_of_ne hc]
      exact h.out c' d hd
  have hsame (hhold : w'.hold i = w.hold i) : ∀ c d, rec.ledger.drawn c = some d → ∃ conn, w'.hold i c = some conn :=
    fun c d hd => hhold ▸ h.out c d hd
  cases o with
  | get o db =>
    rcases r with e | c
    · exact hsame hstep.1
    · obtain ⟨-, conn, hhold, -⟩ := hstep
      intro c' d hd
      refine hadds c conn hhold c' d ?_
      by_cases hc : c' = c
      · exact .inr hc
      · exact .inl ((Function.update_of_ne hc ..).symm.trans hd)
  | put o c db => exact hends c hstep
  | drop exit c => exact hends c hstep
  | talk who via c p limit =>
    obtain ⟨-, conn, -, hhold, -⟩ := hstep
    intro c' d hd
    refine hadds c conn hhold c' d (.inl ?_)
    cases who with
    | client =>
      rcases r with e | response
      · exact hd
      · simp only [Record.after, Ledger.after, Ledger.answered] at hd
        split at hd
        · exact hd
        · exact hd
    | _ => exact hd
  | readPool => exact hsame hstep.1
  | loadGr gen => exact hsame hstep.1
  | loadFailover gen => exact hsame hstep.1
  | primaryAllows gen => exact hsame hstep.1
  | cacheGet key =>
    rcases r with _ | b
    · exact hsame hstep
    · exact hsame hstep.1
  | _ => exact hsame hstep

/-- A record that fits goes on fitting. -/
theorem Record.Fits.after (h : rec.Fits w i window clock) (ht : clock ≤ t)
    (hkept : World.Kept (Rules.lax srv .none) w w' i o r) (htells : tells t o inp = true)
    (hh : w.handle i o inp = some (w', r)) : (rec.after window t o r).Fits w' i window t := by
  have hseen : rec.ledger.seen ≤ t := Nat.le_trans h.seen ht
  have hlimit : rec.ledger.limit ≤ t + window := Nat.le_trans h.limit (Nat.add_le_add_right ht _)
  refine ⟨h.backed hkept, ?_, ?_⟩
  · cases o with
    | now =>
      obtain ⟨-, rfl⟩ := Prod.mk.inj (Option.some.inj hh)
      exact Nat.le_of_eq (Nat.eq_of_beq_eq_true htells)
    | get o db => rcases r with e | c <;> exact hseen
    | talk who via c p limit =>
      cases who with
      | client =>
        rcases r with e | response
        · exact hseen
        · simp only [Record.after, Ledger.after, Ledger.answered]
          split
          · exact hseen
          · exact hseen
      | _ => exact hseen
    | _ => exact hseen
  · cases o with
    | get o db => rcases r with e | c <;> exact hlimit
    | talk who via c p limit =>
      cases who with
      | client =>
        rcases r with e | response
        · exact hlimit
        · simp only [Record.after, Ledger.after, Ledger.answered]
          split
          · exact Nat.le_refl _
          · exact hlimit
      | _ => exact hlimit
    | _ => exact hlimit

end Records

/-! ## The runs -/

/-- Without a GTID to wait for there is nothing to trust. -/
theorem trusts_ungated {D : Duty} (hgtid : D.gtid = none) (ℓ : Ledger) (o : Op) (r : Res o) :
    D.trusts ℓ o r = true := by
  unfold Duty.trusts
  split <;> simp [hgtid]

/-- A session without connections is in order as long as it has no window. -/
theorem inOrder_new {st : MysqlSession} (hnone : ∀ via, st.slots via = none) :
    Session.InOrder cfg Record.new.ledger (.mysql st) := by
  have hempty : ∀ via c, st.slots via ≠ some c := fun via c hc => by cases (hnone via).symm.trans hc
  refine ⟨⟨fun via c hc => absurd hc (hempty via c), fun via _ c hc => absurd hc (hempty via c)⟩, fun _ => ?_⟩
  exact fun hlt => absurd hlt (Nat.lt_irrefl 0)

theorem inOrder_absent : Session.absent.InOrder cfg Record.new.ledger := inOrder_new fun via => by cases via <;> rfl

/-- The sessions keep their contracts, along runs on which what they trust in holds, where they are
`gated`. -/
def readOutline (srv : Server) (cfg : ProxyConfig) {gated : Bool} {ok : ClockedState srv → ClockedEvent → Prop}
    (hok : ∀ s e, ok s e → gated = true → confirms cfg s e = true) :
    Outline (clockedProxy srv cfg) ok (Hold srv × Record) where
  inv w := w.world.Coherent ∧ ∀ i, (w.records i).Fits w.world i cfg.mysql.readYourOwnWritesMs w.clock
  hold w i := (w.world.hold i, w.records i)
  proto _ st m := (Rules.lax srv .none).contract.both (st.reads cfg gated m)
  idle _ g st := st.Lax .none g.1 ∧ st.InOrder cfg g.2.ledger
  msg_ok _ _ hidle _ hreact := Session.reads_react hidle.1 hidle.2 hreact
  op_ok {s i st m o k inp w' r} hinv hi _ hcond hh := by
    obtain ⟨⟨hclock, htells⟩, hh⟩ := Option.ite_none_right_eq_some.mp hh
    obtain ⟨⟨w₁, r₁⟩, hw, heq⟩ := Option.map_eq_some_iff.mp hh
    obtain ⟨rfl, rfl⟩ := Prod.mk.inj heq
    have hkept := World.handle_kept (R := Rules.lax srv .none) hinv.1 (fun _ _ _ _ _ => trivial) hw
      (World.allows_lax (fun h => h.elim) hw)
    have hfits := hinv.2 i
    refine ⟨⟨hkept.coherent, fun j => ?_⟩, rfl, rfl, ⟨hkept.step, ?_⟩, fun j hj => ?_⟩
    · by_cases hj : j = i
      · subst hj
        dsimp only
        rw [Function.update_self]
        exact hfits.after hclock hkept htells hw
      · obtain ⟨hout, hseen, hlimit⟩ := hinv.2 j
        dsimp only
        rw [Function.update_of_ne hj]
        refine ⟨fun c d hd => ?_, Nat.le_trans hseen hclock, ?_⟩
        · rw [hkept.others j hj]
          exact hout c d hd
        · exact Nat.le_trans hlimit (Nat.add_le_add_right hclock _)
    · dsimp only
      rw [Function.update_self]
      -- only MySQL sessions have a contract
      rcases st with st | st <;> rcases m with e | e <;> try trivial
      refine ⟨hfits.expects hclock hkept htells hw, ?_, _, rfl⟩
      cases hgated : gated with
      | false => exact trusts_ungated rfl _ _ _
      | true =>
        have hconfirms := hok s _ hcond hgated
        simp only [confirms, hi, hw, Option.all_some] at hconfirms
        exact hconfirms
    · dsimp only
      rw [hkept.others j hj, Function.update_of_ne hj]
  env_ok {s e w'} hinv _ he := by
    obtain ⟨w₁, hw, rfl⟩ := Option.map_eq_some_iff.mp he
    have hhold := World.act_hold hw
    refine ⟨⟨World.act_coherent hinv.1 hw, fun i => ?_⟩, fun j => by rw [hhold], .inl ⟨rfl, rfl⟩⟩
    obtain ⟨hout, hseen, hlimit⟩ := hinv.2 i
    refine ⟨fun c d hd => ?_, hseen, hlimit⟩
    rw [hhold]
    exact hout c d hd
  stop_ok {s i w' st} hinv _ hst := by
    cases hst
    refine ⟨⟨World.stop_coherent hinv.1, fun j => ?_⟩, rfl, rfl, ⟨Session.lax_absent, ?_⟩, fun j hj => ?_⟩
    · by_cases hj : j = i
      · subst hj
        dsimp only
        rw [Function.update_self]
        exact ⟨nofun, Nat.zero_le _, Nat.zero_le _⟩
      · obtain ⟨hout, hseen, hlimit⟩ := hinv.2 j
        dsimp only
        rw [Function.update_of_ne hj]
        refine ⟨fun c d hd => ?_, hseen, hlimit⟩
        rw [World.stop_hold_of_ne hj]
        exact hout c d hd
    · dsimp only
      rw [Function.update_self]
      exact inOrder_absent
    · dsimp only
      rw [World.stop_hold_of_ne hj, Function.update_of_ne hj]

theorem readOutline_start {gated : Bool} {ok : ClockedState srv → ClockedEvent → Prop}
    (hok : ∀ s e, ok s e → gated = true → confirms cfg s e = true) (primary : PoolConfig)
    (replicas : List PoolConfig) (clients : List Client) :
    (readOutline srv cfg hok).Good (clockedStart srv primary replicas clients) := by
  have hstart : (laxOutline srv cfg fun _ _ => True).Good (proxyStart srv primary replicas clients) :=
    laxOutline_start _ primary replicas clients
  refine ⟨⟨hstart.1, fun i => ⟨nofun, Nat.zero_le _, Nat.zero_le _⟩⟩, fun i => ⟨hstart.2 i, ?_⟩⟩
  change Session.InOrder cfg Record.new.ledger (clients[i]?.elim .absent Client.session)
  rcases clients[i]? with _ | client
  · exact inOrder_absent
  · change Session.InOrder cfg Record.new.ledger client.session
    rw [Client.session]
    split
    · trivial
    · exact inOrder_new fun via => by cases via <;> rfl

/-- What the record of a session that is about to perform an operation promises. -/
theorem duty_owes (gated : Bool) {ok : ClockedState srv → ClockedEvent → Prop}
    (hok : ∀ s e, ok s e → gated = true → confirms cfg s e = true) {primary : PoolConfig}
    {replicas : List PoolConfig} {clients : List Client} {es : List ClockedEvent} {s : ClockedState srv}
    (hrun : Steps (clockedProxy srv cfg).step ok (clockedStart srv primary replicas clients) es s) {i : Nat}
    {st : MysqlSession} {e : MysqlEvent} {o : Op} {k : Res o → Task Session}
    (hi : s.thread i = .busy (.mysql st) (.mysql e) (.op o k)) :
    (st.duty cfg.mysql gated e).owes (s.world.records i).ledger o ∧
      (s.world.records i).Fits s.world.world i cfg.mysql.readYourOwnWritesMs s.world.clock := by
  have hgood := (readOutline srv cfg hok).steps hrun (readOutline_start hok primary replicas clients)
  exact ⟨(hgood.owes hi).2, hgood.1.2 i⟩

/-! ## The window -/

/-- Sessions read their own writes: while the window of its last Write is open, what a session sends for its
client goes to a connection that was drawn as the primary, and it does not ask the cache. `placed`: but for
these commands. -/
def ReadsOwnWrites (cfg : ProxyConfig) (placed : Via → Ledger → Bool) (s : ClockedState srv) : Prop :=
  ∀ i st e o k, s.thread i = .busy (.mysql st) (.mysql e) (.op o k) →
    cfg.mysql.fastForward = true ∨ s.world.clock < (s.world.records i).ledger.limit →
    (∀ via c p limit, o = .talk .client via c p limit → placed via (s.world.records i).ledger = false →
      ∃ d, (s.world.records i).ledger.drawn c = some d ∧ d.primary = true) ∧
    ∀ key, o = .cacheGet key → placed .loan (s.world.records i).ledger = true

/-- A query rule has placed the query, or it goes where the hint of the session says. -/
def ruledOrHinted (via : Via) (ℓ : Ledger) : Bool := ℓ.ruled || via == .stickyConn

/-- **Sessions read their own writes**, but for what a rule or a hint has placed. -/
theorem reads_own_writes {primary : PoolConfig} {replicas : List PoolConfig} {clients : List Client}
    {es : List ClockedEvent} {s : ClockedState srv}
    (hrun : run (clockedProxy srv cfg).step (clockedStart srv primary replicas clients) es = some s) :
    ReadsOwnWrites cfg ruledOrHinted s := by
  intro i st e o k hi hwindow
  obtain ⟨howes, hfits⟩ := duty_owes false (fun _ _ _ => nofun) (steps_of_run hrun) hi
  have hopen : (st.duty cfg.mysql false e).Open (s.world.records i).ledger := by
    by_cases hfast : cfg.mysql.fastForward = true
    · exact .inl hfast
    · -- what the session has seen of the clock is no later than the clock
      have hlt := hwindow.resolve_left hfast
      have hpos : 0 < cfg.mysql.readYourOwnWritesMs := by
        have hlimit := hfits.limit
        omega
      exact .inr ⟨⟨Bool.eq_false_iff.mpr hfast, hpos⟩, Nat.lt_of_le_of_lt hfits.seen hlt⟩
  refine ⟨?_, ?_⟩
  · rintro via c p limit rfl hplaced
    rw [ruledOrHinted, Bool.or_eq_false_iff, beq_eq_false_iff_ne] at hplaced
    obtain hsticky | hruled | ⟨d, hdrawn, hd⟩ := howes
    · exact absurd hsticky hplaced.2
    · cases hplaced.1.symm.trans hruled
    · exact ⟨d, hdrawn, hd.resolve_right fun hgranted => hgranted.1 hopen⟩
  · rintro key rfl
    rw [ruledOrHinted, howes hopen]
    rfl

/-- At time `t` nothing goes wrong; the rules answer `m`, and `choice` decides what the servers say. -/
def timely (t choice : Nat) (m : Option RuleMatch) : (o : Op) → TimedIn o
  | .talk .. => (⟨none, choice⟩, t)
  | .matchQuery .. => (m, t)
  | o => (calm t none o, t)

/-- The only session sends a query, which takes `n` operations. -/
def timedQuery (sql : String) (n : Nat) (x : (o : Op) → TimedIn o) : List ClockedEvent :=
  .msg 0 (.mysql (.query (asciiBytes sql))) :: List.replicate n (.op 0 x)

/-- Windows of 100 ms. -/
def windowConfig : ProxyConfig := { smallConfig with mysql := { smallConfig.mysql with readYourOwnWritesMs := 100 } }

/-- A row is inserted; 5 ms later the table is read. -/
def readsBack : List ClockedEvent :=
  timedQuery "INSERT INTO t VALUES (1)" 17 (timely 0 0 none) ++ timedQuery "SELECT * FROM t" 10 (timely 5 0 none)

theorem reads_own_writes_readsBack : ∃ s,
    run (clockedProxy .mysql windowConfig).step (clockedStart .mysql smallPool [smallPool] [mysqlClient]) readsBack =
      some s ∧ s.world.clock < (s.world.records 0).ledger.limit ∧ ReadsOwnWrites windowConfig ruledOrHinted s := by
  have hend : (run (clockedProxy .mysql windowConfig).step
      (clockedStart .mysql smallPool [smallPool] [mysqlClient]) readsBack).map
      (fun s => decide (s.world.clock < (s.world.records 0).ledger.limit)) = some true := by
    decide +kernel
  obtain ⟨s, hs, hopen⟩ := Option.map_eq_some_iff.mp hend
  exact ⟨s, hs, of_decide_eq_true hopen, reads_own_writes hs⟩

/-- A session whose window is open is about to send something to a connection that is not the primary's. -/
def readsElsewhere (s : ClockedState srv) : Option (Via × Ledger) :=
  match s.thread 0 with
  | .busy (.mysql _) (.mysql _) (.op (.talk .client via c _ _) _) =>
    let ℓ := (s.world.records 0).ledger
    if s.world.clock < ℓ.limit ∧ (ℓ.drawn c).all (!·.primary) = true then some (via, ℓ) else none
  | _ => none

/-- That must have been placed. -/
theorem placed_of_elsewhere {placed : Via → Ledger → Bool} {s : ClockedState srv} {via : Via} {ℓ : Ledger}
    (h : ReadsOwnWrites cfg placed s) (helse : readsElsewhere s = some (via, ℓ)) : placed via ℓ = true := by
  rw [readsElsewhere] at helse
  split at helse
  · rename_i hi
    obtain ⟨⟨hopen, hall⟩, heq⟩ := Option.ite_none_right_eq_some.mp helse
    obtain ⟨rfl, rfl⟩ := Prod.mk.inj (Option.some.inj heq)
    by_contra hplaced
    obtain ⟨d, hdrawn, hd⟩ := (h 0 _ _ _ _ hi (.inr hopen)).1 _ _ _ _ rfl (Bool.eq_false_iff.mpr hplaced)
    rw [hdrawn, Option.all_some, hd] at hall
    cases hall
  · cases helse

/-- Such a read is neither ruled nor hinted. -/
example : ruledOrHinted .loan Record.new.ledger = false := by decide +kernel

/-- A rule that sends reads to the replicas. -/
def toReplica : RuleMatch := ⟨.replica, 0, none, false, false⟩

/-- A row is inserted; 5 ms later the table is read, under such a rule. -/
def readsRuled : List ClockedEvent :=
  timedQuery "INSERT INTO t VALUES (1)" 17 (timely 0 0 none) ++
    timedQuery "SELECT * FROM t" 10 (timely 5 0 (some toReplica))

/-- A rule goes before the window. -/
theorem ruled_read_strays : ¬ ∀ (srv : Server) (cfg : ProxyConfig) (primary : PoolConfig) (replicas : List PoolConfig)
    (clients : List Client) (es : List ClockedEvent) (s : ClockedState srv),
    run (clockedProxy srv cfg).step (clockedStart srv primary replicas clients) es = some s →
    ReadsOwnWrites cfg (fun _ _ => false) s := by
  intro h
  have hend : (run (clockedProxy .mysql windowConfig).step
      (clockedStart .mysql smallPool [smallPool] [mysqlClient]) readsRuled).map
      (fun s => (readsElsewhere s).isSome) = some true := by
    decide +kernel
  obtain ⟨s, hs, helse⟩ := Option.map_eq_some_iff.mp hend
  obtain ⟨⟨via, ℓ⟩, helse⟩ := Option.isSome_iff_exists.mp helse
  cases placed_of_elsewhere (h _ _ _ _ _ _ s hs) helse

/-! ## The GTID -/

/-- Reads that wait for a GTID are confirmed: what a session sends for the query goes to a connection that
was drawn as the primary, or to a pool whose server has said, when it was asked last, that it has the
GTID. -/
def ReadsConfirmed (cfg : ProxyConfig) (s : ClockedState srv) : Prop :=
  ∀ i st e gtid via c p limit k,
    s.thread i = .busy (.mysql st) (.mysql e) (.op (.talk .client via c p limit) k) →
    st.waitsFor cfg.mysql e = some gtid → ruledOrHinted via (s.world.records i).ledger = false →
    ∃ d, (s.world.records i).ledger.drawn c = some d ∧ (d.primary = true ∨
      (s.world.records i).ledger.vouched = some (d.origin, toUtf8 (gtidProbe gtid)))

/-- **Reads that wait for a GTID are confirmed**, along every run on which the check can be believed. -/
theorem reads_confirmed {primary : PoolConfig} {replicas : List PoolConfig} {clients : List Client}
    {es : List ClockedEvent} {s : ClockedState srv}
    (hrun : Steps (clockedProxy srv cfg).step (fun s e => confirms cfg s e = true)
      (clockedStart srv primary replicas clients) es s) : ReadsConfirmed cfg s := by
  intro i st e gtid via c p limit k hi hwaits hplaced
  rw [ruledOrHinted, Bool.or_eq_false_iff, beq_eq_false_iff_ne] at hplaced
  obtain ⟨howes, -⟩ := duty_owes true (fun _ _ h _ => h) hrun hi
  obtain hsticky | hruled | ⟨d, hdrawn, hd⟩ := howes
  · exact absurd hsticky hplaced.2
  · cases hplaced.1.symm.trans hruled
  · exact ⟨d, hdrawn, hd.imp id fun hgranted => hgranted.2 gtid hwaits⟩

/-- What a MySQL server answers to the check: one column, one row. -/
def subsetReply (gtid : String) (contained : Bool) : Bytes :=
  let name := asciiBytes "GTID_SUBSET('" ++ asciiBytes gtid ++ asciiBytes "', @@global.gtid_executed)"
  let colDef := MysqlSession.lcStr (asciiBytes "def") ++ MysqlSession.lcStr [] ++ MysqlSession.lcStr [] ++
    MysqlSession.lcStr [] ++ MysqlSession.lcStr name ++ MysqlSession.lcStr [] ++
    [0x0c, 0x3f, 0x00, 0x01, 0x00, 0x00, 0x00, 0x03, 0x80, 0x00, 0x00, 0x00, 0x00]
  let eof : Bytes := [0xfe, 0x00, 0x00, 0x02, 0x00]
  wire 1 [[0x01], colDef, eof, MysqlSession.lcStr [if contained then 0x31 else 0x30], eof]

/-- What it answers to a write with a GTID: an OK packet that tells it, in the layout `parse_ok_session_track` reads. -/
def trackedReply (gtid : String) : Bytes :=
  wire 1 [okPayload 1 0 0x4002 0 (lenencStr (0x03 :: lenencStr (0x00 :: lenencStr (asciiBytes gtid))))]

example : parseOkSessionTrack ((trackedReply "3e:7").drop 4) ⟨[], none⟩ = .ok ⟨[], some "3e:7".toList⟩ := by
  decide +kernel

/-- A server whose writes have this GTID. On choice 0 it has executed it, else it has not. -/
def Server.tracking (gtid : String) : Server where
  Sess := Unit
  fresh := ()
  exec _ p choice :=
    let ok : Bytes := [7, 0, 0, 1, 0, 0, 0, 2, 0, 0, 0]
    ((), match p with
      | .text sql =>
        if Str.startsWith (textOf sql) "INSERT" then .mysql (trackedReply gtid) [] (some gtid.toList)
        else if Str.startsWith (textOf sql) "SELECT GTID_SUBSET" then .mysql (subsetReply gtid (choice == 0)) [] none
        else .mysql ok [] none
      | _ => .mysql ok [] none)
  txOpen _ := false
  stmt _ _ := none

/-- Reads wait for the GTID of the last write. -/
def gtidConfig : ProxyConfig := { smallConfig with mysql := { smallConfig.mysql with gtidAwareRyow := true } }

/-- A row is inserted, then the table is read: the check, and the query. -/
def readsChecked (choice : Nat) : List ClockedEvent :=
  timedQuery "INSERT INTO t VALUES (1)" 16 (timely 0 0 none) ++ timedQuery "SELECT * FROM t" 17 (timely 5 choice none)

theorem reads_confirmed_readsChecked : ∃ s,
    run (clockedProxy (.tracking "3e:7") gtidConfig).step
      (clockedStart (.tracking "3e:7") smallPool [smallPool] [mysqlClient]) (readsChecked 0) = some s ∧
      (s.world.records 0).ledger.vouched.isSome = true ∧ ReadsConfirmed gtidConfig s := by
  obtain ⟨s, hs⟩ := Option.isSome_iff_exists.mp (show (run (fun s e =>
    if confirms gtidConfig s e then (clockedProxy (.tracking "3e:7") gtidConfig).step s e else none)
    (clockedStart (.tracking "3e:7") smallPool [smallPool] [mysqlClient]) (readsChecked 0)).isSome = true by
      decide +kernel)
  have hsteps := steps_of_checked (fun _ _ h => h) hs
  have hvouched : (run (clockedProxy (.tracking "3e:7") gtidConfig).step
      (clockedStart (.tracking "3e:7") smallPool [smallPool] [mysqlClient]) (readsChecked 0)).map
      (fun s => (s.world.records 0).ledger.vouched.isSome) = some true := by
    decide +kernel
  rw [hsteps.run] at hvouched
  exact ⟨s, hsteps.run, Option.some.inj hvouched, reads_confirmed hsteps⟩

/-- A session is about to send a query that waits for a GTID to a replica, and no server has said that it has
it. -/
def readsUnconfirmed (cfg : ProxyConfig) (s : ClockedState srv) : Bool :=
  match s.thread 0 with
  | .busy (.mysql st) (.mysql e) (.op (.talk .client via c _ _) _) =>
    let ℓ := (s.world.records 0).ledger
    (st.waitsFor cfg.mysql e).isSome && !ruledOrHinted via ℓ && (ℓ.drawn c).all (!·.primary) && ℓ.vouched.isNone
  | _ => false

/-- The digit is in the name of the column, whatever the row says. -/
example : 0x31 ∈ subsetReply "3e:17" false := by decide +kernel

/-- The check takes the `1` of the GTID in the name of the column for a yes. -/
theorem column_name_confirms : ¬ ∀ (srv : Server) (cfg : ProxyConfig) (primary : PoolConfig)
    (replicas : List PoolConfig) (clients : List Client) (es : List ClockedEvent) (s : ClockedState srv),
    run (clockedProxy srv cfg).step (clockedStart srv primary replicas clients) es = some s →
    ReadsConfirmed cfg s := by
  intro h
  have hend : (run (clockedProxy (.tracking "3e:17") gtidConfig).step
      (clockedStart (.tracking "3e:17") smallPool [smallPool] [mysqlClient]) (readsChecked 1)).map
      (readsUnconfirmed gtidConfig) = some true := by
    decide +kernel
  obtain ⟨s, hs, hread⟩ := Option.map_eq_some_iff.mp hend
  have hconfirmed : ReadsConfirmed gtidConfig s := h _ _ _ _ _ _ s hs
  rw [readsUnconfirmed] at hread
  split at hread
  · rename_i hi
    simp only [Bool.and_eq_true, Bool.not_eq_true', Option.isNone_iff_eq_none] at hread
    obtain ⟨⟨⟨hwaits, hplaced⟩, hall⟩, hnone⟩ := hread
    obtain ⟨gtid, hgtid⟩ := Option.isSome_iff_exists.mp hwaits
    obtain ⟨d, hdrawn, hd | hvouched⟩ := hconfirmed 0 _ _ gtid _ _ _ _ _ hi hgtid hplaced
    · rw [hdrawn, Option.all_some, hd] at hall
      cases hall
    · cases hnone.symm.trans hvouched
  · cases hread

end TurbineProxy
