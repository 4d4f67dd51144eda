import TurbineProxy.Accounts
import TurbineProxy.PgPipelines

/-!
# PostgreSQL sessions follow the status of their backends

A PostgreSQL backend ends every response with the state of its transaction, and the session reads it
back from the bytes (`extractReadyStatus_reply`). What it makes of it depends on the command: a pipeline
takes the status as it is, a simple query whose text looks like a COMMIT does not look at it, a psql
meta-command ignores it. `followsStatus` says when the session's flag ends up as the backend reported.

Along the runs on which it does, every command goes to the connection that reported an open transaction
(`commands_follow_status`).
-/

namespace TurbineProxy

variable {srv : Server} {cfg : ProxyConfig}

/-! ## The status of a response -/

theorem extractReadyStatusLoop_nil (n : Nat) (last : Option UInt8) :
    extractReadyStatusLoop n [] last = last := by
  cases n <;> rfl

/-- One round of the loop consumes one message. -/
theorem extractReadyStatusLoop_frame (tag : UInt8) (payload : Bytes)
    (hsmall : payload.length + 4 < 2 ^ 32) (n : Nat) (rest : Bytes) (last : Option UInt8) :
    extractReadyStatusLoop (n + 1) (buildPgRaw tag payload ++ rest) last =
      extractReadyStatusLoop n rest
        (if tag = 0x5A ∧ payload.length = 1 then (payload ++ rest).head? else last) := by
  obtain ⟨a, b, c, d, hraw, hlen⟩ := buildPgRaw_append tag hsmall rest
  have hshort : ¬(payload.length + 4 < 4 ∨
      (payload ++ rest).length < payload.length + 4 - 4) := by
    simp only [List.length_append]
    omega
  have hdrop : (payload ++ rest).drop (payload.length + 4 - 4) = rest := by simp
  have hready : payload.length + 4 = 5 ↔ payload.length = 1 := by omega
  rw [hraw]
  simp only [extractReadyStatusLoop, hlen, hshort, if_false, hdrop, hready]

/-- Messages before `ReadyForQuery` leave no status behind. -/
theorem extractReadyStatusLoop_before (before : List PgMsg) (hbefore : ∀ m ∈ before, m.tag ≠ 0x5A)
    (n : Nat) (rest : Bytes) (last : Option UInt8) :
    extractReadyStatusLoop (before.length + n)
      ((before.flatMap fun m => buildPgRaw m.tag m.payload) ++ rest) last =
      extractReadyStatusLoop n rest last := by
  induction before with
  | nil => simp
  | cons m before ih =>
    have htag : ¬(m.tag = 0x5A ∧ m.payload.length = 1) := fun h =>
      hbefore m List.mem_cons_self h.1
    rw [List.length_cons, Nat.add_right_comm, List.flatMap_cons, List.append_assoc,
      extractReadyStatusLoop_frame _ _ m.small, if_neg htag]
    exact ih fun m' hm' => hbefore m' (List.mem_cons_of_mem m hm')

/-- **The session reads the status that the backend reported.** -/
theorem extractReadyStatus_reply (r : PgReply) :
    extractReadyStatus (Reply.postgres r).response.bytes = some r.status := by
  obtain ⟨n, hn⟩ := Nat.exists_eq_add_of_le (length_le_pipeline r.before)
  rw [pipelineBytes] at hn
  have hready := extractReadyStatusLoop_frame 0x5A [r.status] (show 5 < 2 ^ 32 by decide)
  unfold extractReadyStatus Reply.response
  dsimp only
  rw [List.length_append, hn, Nat.add_assoc, Nat.add_assoc,
    extractReadyStatusLoop_before r.before r.noReady, ← List.append_nil (buildPgRaw 0x5A [r.status]),
    ← Nat.add_assoc, hready, extractReadyStatusLoop_nil]
  rfl

/-! ## What the loop makes of a status -/

namespace PgSession

open Str

variable (st : PgSession)

/-- The flag while a command runs. -/
def flagDuring : PgEvent → Bool
  | .query bytes => st.inTransaction || ((metaOf bytes).isNone && startsTx (textAsSeen bytes))
  | _ => st.inTransaction

/-- A simple query that looks like the start of a transaction, outside one. -/
def opensTx (e : PgEvent) : Bool := !st.inTransaction && st.flagDuring e

/-- The flag after a command that went through `tx_conn`. -/
def flagAfter (e : PgEvent) : Except Str Response → Bool :=
  match e with
  | .query bytes =>
    match metaOf bytes with
    | some _ => fun _ => st.flagDuring e
    | none => queryFlag (st.flagDuring e) (textAsSeen bytes)
  | .stmt _ => statusFlag (st.flagDuring e)
  | _ => fun _ => st.flagDuring e

/-- The outcome makes the session discard `tx_conn`. -/
def goneAfter : PgEvent → Except Str Response → Bool
  | .query bytes =>
    match metaOf bytes with
    | some _ => fun _ => false
    | none => fun r => !endsTx (textAsSeen bytes) && goneResult r
  | _ => fun _ => false

/-- The flag will agree with a status (`tx`: it reports a transaction). A pipeline follows every status;
a simple query that looks like the end of a transaction lowers the flag whatever the status; a
meta-command leaves the flag up. -/
def followsReply (e : PgEvent) (tx : Bool) : Bool :=
  match e with
  | .query bytes =>
    match metaOf bytes with
    | some _ => tx
    | none => !(endsTx (textAsSeen bytes) && tx)
  | .stmt _ => true
  | _ => tx

/-- The flag will agree with the connection's last status (`tx`) after a failed exchange. -/
def followsError (e : PgEvent) (tx : Bool) (msg : Str) : Bool :=
  match e with
  | .query bytes =>
    match metaOf bytes with
    | some _ => tx
    | none => if endsTx (textAsSeen bytes) then !tx else tx || isGone msg
  | _ => tx

/-- A status that is followed: the flag is as it says. -/
theorem flagAfter_reply {e : PgEvent} {r : PgReply} (hup : st.flagDuring e = true)
    (hfollows : followsReply e (inTxStatus r.status) = true) :
    st.flagAfter e (.ok (Reply.postgres r).response) = inTxStatus r.status := by
  have hstatus : ∀ flag, statusFlag flag (.ok (Reply.postgres r).response) = inTxStatus r.status := by
    intro flag
    rw [statusFlag, readyStatus, extractReadyStatus_reply, Option.elim_some]
  unfold flagAfter
  cases e with
  | query bytes =>
    simp only [followsReply] at hfollows
    dsimp only
    rcases hmeta : metaOf bytes with _ | translated <;> simp only [hmeta] at hfollows ⊢
    · unfold queryFlag
      rw [hstatus]
      split
      · rename_i hends
        rw [hends, Bool.true_and, Bool.not_eq_true'] at hfollows
        exact hfollows.symm
      · rfl
    · rw [hup, hfollows]
  | stmt raw => exact hstatus _
  | _ => exact hup.trans hfollows.symm

/-- An error that is followed: the flag is as the connection last reported, unless the session discards
it. -/
theorem flagAfter_error {e : PgEvent} {tx : Bool} {msg : Str} (hup : st.flagDuring e = true)
    (hfollows : followsError e tx msg = true) :
    st.flagAfter e (.error msg) = tx ∨
      st.flagAfter e (.error msg) = true ∧ goneAfter e (.error msg) = true := by
  have hstatus : statusFlag (st.flagDuring e) (.error msg) = true := hup
  unfold flagAfter goneAfter
  cases e with
  | query bytes =>
    simp only [followsError] at hfollows
    dsimp only
    rcases hmeta : metaOf bytes with _ | translated <;> simp only [hmeta] at hfollows ⊢
    · rw [queryFlag]
      rcases hends : endsTx (textAsSeen bytes) with _ | _
      · simp only [hends, Bool.false_eq_true, if_false, Bool.or_eq_true] at hfollows ⊢
        rcases hfollows with htx | hgone
        · exact .inl (hstatus.trans htx.symm)
        · exact .inr ⟨hstatus, hgone⟩
      · simp only [hends, if_true, Bool.not_eq_true'] at hfollows ⊢
        exact .inl hfollows.symm
    · exact .inl (hup.trans hfollows.symm)
  | stmt raw => exact .inl (hstatus.trans hfollows.symm)
  | _ => exact .inl (hup.trans hfollows.symm)

end PgSession

/-! ## Rules about the status -/

/-- The status of a response, if any, reports no transaction. -/
def reportsIdle (bytes : Bytes) : Bool := (extractReadyStatus bytes).all fun s => !inTxStatus s

/-- A connection whose last status reports no transaction may be returned. Outside `tx_conn` every
exchange leaves it so; on `tx_conn`, while the flag is `up`, the status is what the flag will say. -/
def Rules.status (srv : Server) (up : Bool) (flag gone : Except Str Response → Bool) (sure : Prop) :
    Rules srv where
  clean conn := conn.inTransaction = false
  after via _ conn r conn' := conn'.lender = conn.lender ∧
    (via ≠ .txConn → conn'.inTransaction = false ∧ ∀ resp, r = .ok resp →
      reportsIdle resp.bytes = true) ∧
    (via = .txConn → up = true →
      (flag (r.mapError TalkError.text) = false → conn'.inTransaction = false) ∧
      (flag (r.mapError TalkError.text) = true → gone (r.mapError TalkError.text) = false →
        conn'.inTransaction = true))
  plain resp := reportsIdle resp.bytes = true
  sure := sure
  home := False
  cur := ⟨0, []⟩
  gr := -1
  failover := -1
  after_lender h := h.1
  after_clean h hvia := (h.2.1 hvia).1
  after_plain h hvia := (h.2.1 hvia).2 _ rfl
  agree := PoolRef.agree_nobody

/-- While the flag is up, `tx_conn` last reported a transaction. -/
def PgPins.status (srv : Server) (up : Bool) (flag gone : Except Str Response → Bool) (sure : Prop) :
    PgPins (Rules.status srv up flag gone sure) where
  busy conn := conn.inTransaction = true
  strict := True
  loose h := absurd trivial h
  plain := by
    intro _ resp s hresp hs
    have hidle : reportsIdle resp.bytes = true := hresp
    simpa [reportsIdle, hs] using hidle

/-- An idle session is the same whichever command comes next. -/
theorem PgSession.Idle.status {up up' : Bool} {flag flag' gone gone' : Except Str Response → Bool}
    {sure sure' : Prop} {g : Hold srv} {st : PgSession}
    (h : PgSession.Idle (PgPins.status srv up flag gone sure) g st) :
    PgSession.Idle (PgPins.status srv up' flag' gone' sure') g st := ⟨h.pinned, h.owns, h.ended⟩

/-- An idle session's flag agrees with its connections; nobody else is there. -/
def Session.Following (g : Hold srv) : Session → Prop
  | .mysql st => st.phase = .ended
  | .pg st => PgSession.Idle (PgPins.status srv true (fun _ => true) (fun _ => true) True) g st

/-- The contract of a turn. The code after the loop returns its connections as they are: a pool does not
keep one that reports a transaction. Nobody else takes turns. -/
def followingContract (srv : Server) : Session → SessionEvent → Protocol Op Res (Hold srv)
  | .pg st, .pg e =>
    if e = .cleanup then (Rules.lax srv .none).contract
    else (Rules.status srv (st.flagDuring e) (st.flagAfter e) (PgSession.goneAfter e)
      (st.opensTx e = true)).contract
  | _, _ => ⟨fun _ _ => False, fun _ _ _ _ => False⟩

theorem Session.following_react {g : Hold srv} {st : Session} {m : SessionEvent} {p : Task Session}
    (h : st.Following g) (hreact : st.react cfg m = some p)
    (hother : ∀ st' raw, st = .pg st' → m = .pg (.other raw) → st'.inTransaction = false) :
    p.wp (followingContract srv st m) (fun st' g' => st'.Following g') g := by
  cases st with
  | mysql st =>
    have hended : st.phase = .ended := h
    obtain ⟨e, q, rfl, hq, rfl⟩ := Session.react_mysql hreact
    cases e <;> simp [MysqlSession.react, hended] at hq
  | pg st =>
    obtain ⟨e, q, rfl, hq, rfl⟩ := Session.react_pg hreact
    rw [Prog.wp_bind]
    by_cases hclean : e = .cleanup
    · subst hclean
      refine Prog.wp_mono (PgSession.wp_react_cleanup (Rules.lax srv .none) h hq
        (fun conn _ => ⟨trivial, fun h => h.elim⟩) fun conn _ => ⟨trivial, fun h => h.elim⟩)
        fun st' g' h' => h'
    · simp only [followingContract, hclean, if_false]
      let P := PgPins.status srv (st.flagDuring e) (st.flagAfter e) (PgSession.goneAfter e)
        (st.opensTx e = true)
      have hidle : PgSession.Idle P g st := PgSession.Idle.status h
      have hfollow : st.flagDuring e = true →
          PgSession.Follows P (st.flagAfter e) (PgSession.goneAfter e) :=
        fun hup p conn r conn' hafter => hafter.2.2 rfl hup
      refine Prog.wp_mono (PgSession.wp_react hidle hq ?_) fun st' g' h' => PgSession.Idle.status h'
      cases e with
      | start => exact fun _ hhome => hhome.elim
      | quit => trivial
      | query bytes =>
        unfold PgSession.Agrees PgSession.QueryAgrees
        unfold PgSession.flagAfter PgSession.goneAfter at hfollow
        unfold PgSession.flagDuring at hfollow
        dsimp only at hfollow ⊢
        change match PgSession.metaOf bytes with
          | some _ => _
          | none => _
        rcases hmeta : PgSession.metaOf bytes with _ | translated
        · simp only [hmeta, Option.isNone_none, Bool.true_and] at hfollow
          refine ⟨fun _ hdown hstarts => ?_, hfollow⟩
          change st.opensTx (.query bytes) = true
          simp [PgSession.opensTx, PgSession.flagDuring, hdown, hmeta,
            show PgSession.startsTx (PgSession.textAsSeen bytes) = true from hstarts]
        · simp only [hmeta, Option.isNone_some, Bool.false_and, Bool.or_false] at hfollow
          exact hfollow
      | stmt raw => exact hfollow
      | other raw => exact ⟨fun hhome => hhome.elim, fun _ => hother st raw rfl rfl⟩
      | cleanup => exact absurd rfl hclean

/-! ## The condition -/

/-- The server speaks PostgreSQL. -/
def Server.SpeaksPostgres (srv : Server) : Prop :=
  ∀ sess p choice, ∃ r, (srv.exec sess p choice).2 = .postgres r

namespace World

variable {w w' : World srv} {i : Nat} {st : PgSession} {e : PgEvent}

/-- The flag will be as the backend reported. On `tx_conn` the loop makes of the status what it says;
no other exchange, no new connection and no cached response reports a transaction; a turn that raises
the flag gets its connection. -/
def follows (w : World srv) (i : Nat) (st : PgSession) (e : PgEvent) : (o : Op) → In o → Bool
  | .primaryAllows _, answer => !st.opensTx e || answer
  | .get o db, d =>
    !(Conn.open srv o i (w.pools o).config.backend.initConnect d.choice).inTransaction &&
      (!st.opensTx e || (w.get i o db d).all fun r => r.2.isOk)
  | .cacheGet _, answer => answer.all reportsIdle
  | .talk _ via c p _, d => (w.hold i c).all fun conn =>
      let r := conn.talk i p d
      match p with
      | .silent _ => false
      | _ =>
        if via = .txConn then
          match r.2 with
          | .ok _ => PgSession.followsReply e r.1.inTransaction
          | .error err => PgSession.followsError e conn.inTransaction err.text
        else !r.1.inTransaction
  | _, _ => true

/-- What holds of the world. -/
structure Reported (w : World srv) : Prop where
  /-- buckets and connections agree -/
  coherent : w.Coherent
  /-- no idle connection reports a transaction -/
  idle : ∀ conn ∈ w.conns, ∀ o, conn.place = .idle o → conn.inTransaction = false

/-- A pool keeps no connection that reports a transaction. -/
theorem Reported.handle {o : Op} {inp : In o} {r : Res o} (hw : w.Reported)
    (h : w.handle i o inp = some (w', r)) (hcoh : w'.Coherent) : w'.Reported := by
  refine ⟨hcoh, handle_forall hw.coherent hw.idle (fun conn _ o' ho' => by cases ho') h ?_⟩
  have hheld : ∀ {conn : Conn srv} {o'}, conn.place = .held i → conn.place ≠ .idle o' := by
    intro conn o' hplace hidle
    rw [hplace] at hidle
    cases hidle
  cases o with
  | get o db => exact fun c _ o' ho' => absurd ho' (hheld (w.lent_place i o inp c).1)
  | put o c db => exact fun conn _ htx _ _ => htx
  | talk who via c p limit =>
    intro conn hc o' ho'
    rw [(conn.talk_frame i p inp).1] at ho'
    exact absurd ho' (hheld (hold_eq_some.mp hc).2)
  | _ => trivial

theorem Reported.idleClean (hw : w.Reported) :
    IdleClean (fun conn => conn.inTransaction = false) w := fun _ conn o hconn hplace =>
  hw.idle conn (List.mem_of_getElem? hconn) o hplace

end World

/-- What an exchange tells about the transaction: a reply is what the connection notes, an error leaves
it as it was. -/
theorem Conn.talk_status (hsrv : srv.SpeaksPostgres) (conn : Conn srv) (i : Nat) {p : Packet}
    (hp : ∀ bytes, p ≠ .silent bytes) (d : TalkInput) :
    (∃ r : PgReply, (conn.talk i p d).2 = .ok (Reply.postgres r).response ∧
      (conn.talk i p d).1.inTransaction = inTxStatus r.status) ∨
    ∃ e, (conn.talk i p d).2 = .error e ∧
      (conn.talk i p d).1.inTransaction = conn.inTransaction := by
  obtain ⟨reply, hreply⟩ := hsrv conn.sess p d.choice
  have hexec : (if d.executed then conn.afterExec i p d.choice else conn).inTransaction =
      conn.inTransaction := by
    split <;> rfl
  unfold talk
  dsimp only
  rw [hreply]
  rcases d.fault with _ | f
  · refine .inl ⟨reply, ?_⟩
    cases p with
    | silent bytes => exact absurd rfl (hp bytes)
    | _ => exact ⟨rfl, rfl⟩
  · refine .inr ⟨_, rfl, ?_⟩
    rw [← hexec]
    cases f <;> rfl

/-- The world meets the rules. -/
theorem World.Reported.allows {w w' : World srv} {i : Nat} {st : PgSession} {e : PgEvent}
    (hsrv : srv.SpeaksPostgres) {o : Op} {inp : In o} {r : Res o} (hw : w.Reported)
    (hfollows : w.follows i st e o inp = true) (h : w.handle i o inp = some (w', r)) :
    w.Allows (Rules.status srv (st.flagDuring e) (st.flagAfter e) (PgSession.goneAfter e)
      (st.opensTx e = true)) i o inp r := by
  cases o with
  | get o db =>
    simp only [World.follows, Bool.and_eq_true, Bool.not_eq_true', Bool.or_eq_true] at hfollows
    have hget : w.get i o db inp = some (w', r) := h
    rcases r with err | c
    · intro hopens
      have hsome : st.opensTx e = true := hopens
      simp [hsome, hget, Except.isOk, Except.toBool] at hfollows
    · obtain ⟨-, p', evicted, hgot⟩ := World.get_got hw.coherent hget
      change (w.lent i o inp c).inTransaction = false
      unfold World.lent
      split
      · rename_i conn hconn
        exact hw.idle conn (List.mem_of_getElem? hconn) o (hgot.was c rfl conn hconn)
      · exact hfollows.1
  | primaryAllows gen =>
    obtain ⟨-, rfl⟩ := Prod.mk.inj (Option.some.inj h)
    intro hopens
    have hsome : st.opensTx e = true := hopens
    simp only [World.follows, hsome, Bool.not_true] at hfollows
    exact hfollows
  | put o c db => exact fun conn _ htx => htx
  | talk who via c p limit =>
    intro conn hc
    obtain ⟨conn', hc', hrest⟩ := Option.bind_eq_some_iff.mp h
    obtain rfl : conn = conn' := Option.some.inj (hc.symm.trans hc')
    simp only [Option.ite_none_left_eq_some, Option.some.injEq, Prod.mk.injEq] at hrest
    obtain ⟨-, -, rfl⟩ := hrest
    have hp : ∀ bytes, p ≠ .silent bytes := by
      rintro bytes rfl
      simp [World.follows, hc] at hfollows
    -- what the exchange meets, on `tx_conn` and elsewhere
    have hchecks : (if via = .txConn then
          match (conn.talk i p inp).2 with
          | .ok _ => PgSession.followsReply e (conn.talk i p inp).1.inTransaction
          | .error err => PgSession.followsError e conn.inTransaction err.text
        else !(conn.talk i p inp).1.inTransaction) = true := by
      simp only [World.follows, hc, Option.all_some] at hfollows
      cases p with
      | silent bytes => exact absurd rfl (hp bytes)
      | _ => exact hfollows
    refine ⟨(conn.talk_frame i p inp).2.1, fun hvia => ?_, fun hvia hup => ?_⟩
    · rw [if_neg hvia, Bool.not_eq_true'] at hchecks
      refine ⟨hchecks, fun resp hresp => ?_⟩
      rcases conn.talk_status hsrv i hp inp with ⟨reply, hok, htx⟩ | ⟨err, herr, -⟩
      · obtain rfl := Except.ok.inj (hresp.symm.trans hok)
        rw [reportsIdle, extractReadyStatus_reply, Option.all_some, ← htx, hchecks]
        rfl
      · rw [hresp] at herr
        cases herr
    · rw [if_pos hvia] at hchecks
      rcases conn.talk_status hsrv i hp inp with ⟨reply, hok, htx⟩ | ⟨err, herr, htx⟩
      · rw [hok, htx] at hchecks
        rw [hok, htx]
        have hflag := st.flagAfter_reply hup hchecks
        exact ⟨fun hf => hflag.symm.trans hf, fun hf _ => hflag.symm.trans hf⟩
      · rw [herr] at hchecks
        rw [herr, htx]
        rcases st.flagAfter_error hup hchecks with hflag | ⟨hflag, hgone⟩
        · exact ⟨fun hf => hflag.symm.trans hf, fun hf _ => hflag.symm.trans hf⟩
        · refine ⟨fun hf => ?_, fun _ hg => ?_⟩
          · exact Bool.noConfusion (hflag.symm.trans hf)
          · exact Bool.noConfusion (hgone.symm.trans hg)
  | cacheGet key =>
    obtain ⟨-, rfl⟩ := Prod.mk.inj (Option.some.inj h)
    rcases inp with _ | b
    · trivial
    · exact hfollows
  | readPool => exact fun h => h.elim
  | loadGr gen => exact fun h => h.elim
  | loadFailover gen => exact fun h => h.elim
  | _ => trivial

/-! ## Runs -/

/-- The steps on which the flag of a session ends up as its backends reported. A pass-through command,
which takes a connection of its own, comes only outside a transaction. -/
def followsStatus (s : ProxyState srv) : ProxyEvent → Bool
  | .msg i m =>
    match s.thread i, m with
    | .idle (.pg st), .pg (.other _) => !st.inTransaction
    | _, _ => true
  | .op i inp =>
    match s.thread i with
    | .busy (.pg st) (.pg e) (.op o _) => e == .cleanup || s.world.follows i st e o (inp o)
    | _ => true
  | .env _ | .stop _ => true

/-- Every session follows the status of its backends. -/
def statusOutline (srv : Server) (hsrv : srv.SpeaksPostgres) (cfg : ProxyConfig) :
    Outline (proxy srv cfg) (fun s e => followsStatus s e = true) (Hold srv) where
  inv w := w.Reported
  hold := World.hold
  proto _ st m := followingContract srv st m
  idle _ g st := st.Following g
  msg_ok {s i st m p} _ hi hidle hok hreact := by
    refine Session.following_react hidle hreact ?_
    rintro st' raw rfl rfl
    simpa [followsStatus, hi] using hok
  op_ok {s i st m o k inp w' r} hinv hi howes hok hh := by
    have hlax := World.handle_kept (R := Rules.lax srv .none) hinv.coherent
      (fun _ _ _ _ _ => trivial) hh (World.allows_lax (fun h => h.elim) hh)
    refine ⟨hinv.handle hh hlax.coherent, rfl, rfl, ?_, hlax.others⟩
    cases st with
    | mysql st => exact howes.elim
    | pg st =>
      cases m with
      | mysql e => exact howes.elim
      | pg e =>
        by_cases hclean : e = .cleanup
        · simp only [followingContract, hclean, if_true]
          exact hlax.step
        · simp only [followingContract, hclean, if_false]
          have hfollows : s.world.follows i st e o (inp o) = true := by
            simpa [followsStatus, hi, hclean] using hok
          exact (World.handle_kept hinv.coherent hinv.idleClean hh
            (hinv.allows hsrv hfollows hh)).step
  env_ok {s e w'} hinv _ he := by
    refine ⟨⟨World.act_coherent hinv.coherent he, ?_⟩, World.act_hold he, .inl ⟨rfl, rfl⟩⟩
    rw [World.act_conns he]
    exact hinv.idle
  stop_ok hinv _ hst := by
    cases hst
    refine ⟨⟨World.stop_coherent hinv.coherent, ?_⟩, rfl, rfl, rfl, fun _ hj => World.stop_hold_of_ne hj⟩
    exact World.stop_forall (P := fun conn => ∀ o, conn.place = .idle o → conn.inTransaction = false)
      hinv.idle fun _ _ _ => nofun

theorem statusOutline_start (hsrv : srv.SpeaksPostgres) {primary : PoolConfig}
    {replicas : List PoolConfig} {clients : List Client}
    (hpg : ∀ client ∈ clients, client.postgres = true) :
    (statusOutline srv hsrv cfg).Good (proxyStart srv primary replicas clients) := by
  refine ⟨⟨World.new_coherent primary replicas, fun conn hmem => ?_⟩, fun i => ?_⟩
  · cases hmem
  · have hnone : (proxyStart srv primary replicas clients).world.hold i = fun _ => none := World.hold_new ..
    change Session.Following ((proxyStart srv primary replicas clients).world.hold i) _
    rw [hnone]
    rcases hi : clients[i]? with _ | client
    · rfl
    · simp only [Option.elim_some, Client.session, hpg client (List.mem_of_getElem? hi), if_true]
      refine ⟨fun _ _ hf => (by cases hf), ?_, fun h => (by cases h)⟩
      convert Owns.nil using 1
      funext via
      cases via <;> rfl

/-- The connections that a session without a transaction may come to use report none. -/
theorem PgSession.Idle.status_down {up : Bool} {flag gone : Except Str Response → Bool} {sure : Prop}
    {g : Hold srv} {st : PgSession}
    (h : PgSession.Idle (PgPins.status srv up flag gone sure) g st) (hdown : st.inTransaction = false)
    {c : ConnId} {conn : Conn srv} (hc : g c = some conn) : conn.inTransaction = false := by
  obtain ⟨via, a, hv, rfl⟩ := h.owns.all c conn hc
  obtain ⟨conn', hconn', hknown⟩ := h.owns.held via a hv
  obtain rfl : conn = conn' := Option.some.inj (hc.symm.trans hconn')
  cases via <;> simp only [PgSession.varsWith, Option.map_eq_some_iff, reduceCtorEq] at hv <;>
    obtain ⟨c', -, rfl⟩ := hv
  · exact hknown.1 hdown
  · exact hknown.1

/-- **PostgreSQL stickiness**: in every run whose sessions follow the status of their backends, a
client's command goes to the connection of its session that last reported an open transaction; such a
connection is not returned before the session ends; and between two commands the flag is up exactly if
`tx_conn` last reported a transaction, and while it is down no connection that the next command may use
reported one. -/
theorem commands_follow_status (hsrv : srv.SpeaksPostgres) {primary : PoolConfig}
    {replicas : List PoolConfig} {clients : List Client} {es : List ProxyEvent} {s : ProxyState srv}
    (hpg : ∀ client ∈ clients, client.postgres = true)
    (hrun : Steps (proxy srv cfg).step (fun s e => followsStatus s e = true)
      (proxyStart srv primary replicas clients) es s) :
    (∀ i st m via c p limit k, m ≠ .pg .cleanup →
      s.thread i = .busy st m (.op (.talk .client via c p limit) k) →
      ∀ c' conn, s.world.hold i c' = some conn → conn.inTransaction = true → c' = c) ∧
    (∀ i st m o c db k, m ≠ .pg .cleanup → s.thread i = .busy st m (.op (.put o c db) k) →
      ∃ conn, s.world.hold i c = some conn ∧ conn.inTransaction = false) ∧
    ∀ i st, s.thread i = .idle (.pg st) → st.phase ≠ .ended →
      (st.inTransaction = true → ∃ c conn, st.txConn = some c ∧ s.world.hold i c = some conn ∧
        conn.inTransaction = true) ∧
      (st.inTransaction = false → ∀ conn ∈ s.world.conns,
        (conn.place = .held i ∨ ∃ o, conn.place = .idle o) → conn.inTransaction = false) := by
  have hgood := (statusOutline srv hsrv cfg).steps hrun (statusOutline_start hsrv hpg)
  have hworld : s.world.Reported := hgood.1
  -- a turn other than the clean-up is held to the rules about the status
  have howes : ∀ {i st m o k}, m ≠ .pg .cleanup → s.thread i = .busy st m (.op o k) →
      ∃ up flag gone sure, (Rules.status srv up flag gone sure).contract.owes (s.world.hold i) o := by
    intro i st m o k hm hi
    have h : (followingContract srv st m).owes (s.world.hold i) o := hgood.owes hi
    cases st with
    | mysql st => exact h.elim
    | pg st =>
      cases m with
      | mysql e => exact h.elim
      | pg e =>
        have hclean : e ≠ .cleanup := fun he => hm (by rw [he])
        simp only [followingContract, hclean, if_false] at h
        exact ⟨_, _, _, _, h⟩
  refine ⟨fun i st m via c p limit k hm hi c' conn hc' htx => ?_, fun i st m o c db k hm hi => ?_,
    fun i st hi hlive => ?_⟩
  · obtain ⟨up, flag, gone, sure, -, hothers⟩ := howes hm hi
    by_contra hne
    have hclean : conn.inTransaction = false := hothers rfl c' conn hne hc'
    rw [hclean] at htx
    cases htx
  · obtain ⟨up, flag, gone, sure, conn, hconn, htidy⟩ := howes hm hi
    exact ⟨conn, hconn, htidy.1⟩
  · have hth := hgood.2 i
    rw [hi] at hth
    let P := PgPins.status srv true (fun _ => true) (fun _ => true) True
    have hidle : PgSession.Idle P (s.world.hold i) st := hth
    refine ⟨fun hup => ?_, fun hdown conn hmem hplace => ?_⟩
    · obtain ⟨c, hc⟩ := Option.isSome_iff_exists.mp (hidle.pinned trivial hlive hup)
      obtain ⟨conn, hconn, hknown⟩ := hidle.owns.held .txConn
        ⟨c, PgSession.TxKnown P st.inTransaction false⟩ (by simp [PgSession.varsWith, hc])
      exact ⟨c, conn, hc, hconn, hknown.2.1 hup rfl⟩
    · rcases hplace with hheld | ⟨o, hidleAt⟩
      · obtain ⟨c, hc⟩ := List.mem_iff_getElem?.mp hmem
        exact hidle.status_down hdown (World.hold_eq_some.mpr ⟨hc, hheld⟩)
      · exact hworld.idle conn hmem o hidleAt

/-- A pipeline that prepares, binds and executes one statement. -/
def pipeline (sql : String) : Bytes :=
  buildPgRaw 0x50 (0 :: asciiBytes sql ++ [0, 0, 0]) ++ buildPgRaw 0x42 [0, 0, 0, 0, 0, 0, 0, 0] ++
    buildPgRaw 0x45 [0, 0, 0, 0, 0] ++ buildPgRaw 0x53 []

/-- A transaction opened by a simple query, and a pipeline in it that is about to be sent. -/
def simpleBegin : List ProxyEvent :=
  turn 0 (.pg .start) 0 (calm 0 none) ++
  turn 0 (.pg (.query (asciiBytes "BEGIN"))) 8 (calm 0 none) ++
  turn 0 (.pg (.stmt (pipeline "INSERT INTO t VALUES (1)"))) 1 (calm 0 none)

theorem Server.postgres_speaks : Server.postgres.SpeaksPostgres := fun _ _ _ => ⟨_, rfl⟩

theorem commands_follow_status_simpleBegin :
    ∃ s, run (proxy .postgres smallConfig).step (proxyStart .postgres smallPool [] [pgClient])
        simpleBegin = some s ∧
      ∀ st m via c p limit k, m ≠ .pg .cleanup →
        s.thread 0 = .busy st m (.op (.talk .client via c p limit) k) →
        ∀ c' conn, s.world.hold 0 c' = some conn → conn.inTransaction = true → c' = c := by
  obtain ⟨s, hs⟩ := Option.isSome_iff_exists.mp (show (run (fun s e =>
    if followsStatus s e then (proxy .postgres smallConfig).step s e else none)
    (proxyStart .postgres smallPool [] [pgClient]) simpleBegin).isSome = true by decide +kernel)
  have hsteps := steps_of_checked (fun _ _ h => h) hs
  exact ⟨s, hsteps.run,
    (commands_follow_status Server.postgres_speaks (by simp [pgClient]) hsteps).1 0⟩

/-- A transaction opened by a pipeline, and a simple query in it that is about to be sent. -/
def pipelinedBegin : List ProxyEvent :=
  turn 0 (.pg .start) 0 (calm 0 none) ++
  turn 0 (.pg (.stmt (pipeline "BEGIN"))) 8 (calm 0 none) ++
  turn 0 (.pg (.query (asciiBytes "UPDATE t SET x = 1"))) 5 (calm 0 none)

/-- Session `i` is about to send a command past a connection of its own that reported a transaction. -/
def passesBy (s : ProxyState srv) (i : Nat) : Bool :=
  match s.next i with
  | some (.talk .client _ c _ _) => s.world.conns.zipIdx.any fun e =>
      e.2 != c && e.1.place == .held i && e.1.inTransaction
  | _ => false

/-- The transaction is on `stmt_conn`, the query goes to `tx_conn`. -/
theorem pipelined_transaction_passed_by : ¬ ∀ (srv : Server) (cfg : ProxyConfig)
    (primary : PoolConfig) (replicas : List PoolConfig) (clients : List Client)
    (es : List ProxyEvent) (s : ProxyState srv),
    srv.SpeaksPostgres → (∀ client ∈ clients, client.postgres = true) →
    run (proxy srv cfg).step (proxyStart srv primary replicas clients) es = some s →
    ∀ i via c p limit, s.next i = some (.talk .client via c p limit) →
      ∀ c' conn, s.world.hold i c' = some conn → conn.inTransaction = true → c' = c := by
  intro h
  have hend : (run (proxy .postgres smallConfig).step
      (proxyStart .postgres smallPool [] [pgClient]) pipelinedBegin).map (passesBy · 0) =
      some true := by
    decide +kernel
  obtain ⟨s, hs, hpasses⟩ := Option.map_eq_some_iff.mp hend
  rw [passesBy] at hpasses
  split at hpasses
  · rename_i via c p limit hnext
    obtain ⟨⟨conn, c'⟩, hmem, hopen⟩ := List.any_eq_true.mp hpasses
    simp only [Bool.and_eq_true, bne_iff_ne, beq_iff_eq] at hopen
    obtain ⟨⟨hne, hplace⟩, htx⟩ := hopen
    exact hne (h _ _ _ _ _ _ s Server.postgres_speaks (by simp [pgClient]) hs 0 via c p limit hnext c'
      conn (World.hold_eq_some.mpr ⟨List.mem_zipIdx_iff_getElem?.mp hmem, hplace⟩) htx)
  · cases hpasses

end TurbineProxy
