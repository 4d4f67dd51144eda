import TurbineProxy.Accounts
import TurbineProxy.MysqlSteps
import TurbineProxy.RouteOps
import TurbineProxy.Transactions

/-!
# How long a pin lasts

A statement that needs a hard pin sets `user_var_sticky`, and with it the session keeps its connection in
the slot of the transaction, `tx_conn`. `pinnedProxy` is the proxy with a record of the connections on
which such statements have been executed: a pin lasts until its connection is returned or dropped.

`PinsLast` is the property: every text query of a session goes to its pinned connection, and only a reset
or the end of the session returns it. `pins_last` says along which runs it holds. Three things end a pin
without either: a COMMIT or ROLLBACK, which returns `tx_conn` whatever the pin, the fast-forward paths,
which do not know about it, and a rewrite rule that puts a statement that needs a pin in another's place.
-/

namespace TurbineProxy

/-! ## The record -/

/-- A query that needs a pin. -/
def Packet.pins : Packet → Bool
  | .text sql => needsHardPin (textOf sql)
  | _ => false

/-- The connection a session is pinned to, after an operation of its own. -/
def pinAfter (pin : Option ConnId) : (o : Op) → In o → Option ConnId
  | .talk .client _ c p _, d => if p.pins && d.executed then pin.or (some c) else pin
  | .put _ c _, _ | .drop _ c, _ => if pin = some c then none else pin
  | _, _ => pin

/-- The proxy, with a record of the pins. -/
def pinnedProxy (srv : Server) (cfg : ProxyConfig) :
    Machine Op Res In (World srv × (Nat → Option ConnId)) Session SessionEvent Admin where
  react := Session.react cfg
  handle w i o inp := (w.1.handle i o inp).map fun r =>
    ((r.1, Function.update w.2 i (pinAfter (w.2 i) o inp)), r.2)
  env w e := (w.1.act e).map fun w' => (w', w.2)
  stop w i := some ((w.1.stop i, Function.update w.2 i none), .absent)

/-- The command is a query that needs a pin. -/
def SessionEvent.hardPin : SessionEvent → Bool
  | .mysql (.query bytes) => needsHardPin (textOf bytes)
  | _ => false

/-! ## The protocol -/

/-- What a command owes to the pin of its session. `hard`: it is a query that needs a pin. `returns`: it
returns every connection of the session. -/
def pinning (hard returns : Bool) : Protocol Op Res (Option ConnId) where
  owes pin
    | .put _ c _ => returns = true ∨ pin ≠ some c
    | .talk .client _ c (.text _) _ => ∀ c', pin = some c' → c' = c
    | _ => True
  step pin
    | .get _ _, .ok c, pin' => pin' = pin ∧ pin ≠ some c
    | .put _ c _, _, pin' => pin' = if pin = some c then none else pin
    | .drop _ c, _, pin' => pin' = if pin = some c then none else pin
    | .talk .client _ c p _, _, pin' => pin' = pin ∨ p.pins = true ∧ pin' = pin.or (some c)
    | .matchQuery .., m, pin' => pin' = pin ∧
        ((pin.isSome || hard) = true → m.elim false (·.fastForward) = false)
    | .rewrite _, outcome, pin' => pin' = pin ∧
        ∀ s, outcome = .rewritten s → needsHardPin (textOf (toUtf8 s)) = false
    | _, _, pin' => pin' = pin

/-- An operation that leaves the pin alone. -/
def Unpins (pin : Option ConnId) : Op → Prop
  | .put _ c _ | .drop _ c => pin ≠ some c
  | .talk .client _ _ p _ => p.pins = false ∧ (pin.isSome = true → ∀ sql, p ≠ .text sql)
  | _ => True

section Protocol

variable {hard returns : Bool} {pin : Option ConnId} {α : Type}

theorem unpins {o : Op} (ho : Unpins pin o) :
    (pinning hard returns).owes pin o ∧ ∀ r pin', (pinning hard returns).step pin o r pin' → pin' = pin := by
  cases o with
  | put o c db => exact ⟨.inr ho, fun r pin' h => h.trans (if_neg ho)⟩
  | drop exit c => exact ⟨trivial, fun r pin' h => h.trans (if_neg ho)⟩
  | get o db =>
    refine ⟨trivial, fun r pin' h => ?_⟩
    rcases r with e | c
    · exact h
    · exact h.1
  | talk who via c p limit =>
    cases who with
    | client =>
      obtain ⟨hpins, htext⟩ := ho
      refine ⟨?_, fun r pin' h => h.resolve_right fun h => ?_⟩
      · cases p with
        | text sql =>
          rintro c' rfl
          exact absurd rfl (htext rfl sql)
        | _ => trivial
      · rw [hpins] at h
        cases h.1
    | _ => exact ⟨trivial, fun _ _ h => h⟩
  | matchQuery sql user schema => exact ⟨trivial, fun _ _ h => h.1⟩
  | rewrite sql => exact ⟨trivial, fun _ _ h => h.1⟩
  | _ => exact ⟨trivial, fun _ _ h => h⟩

theorem wp_unpins {p : Task α} (hp : p.Only (Unpins pin)) {Q : α → Option ConnId → Prop} (hQ : ∀ a, Q a pin) :
    p.wp (pinning hard returns) Q pin :=
  Prog.wp_of_only (fun _ ho => unpins ho) hp hQ

theorem unpins_next {β : Type} {p : Task α} {f : α → Task β} (hp : p.Only (Unpins pin)) {Q : β → Option ConnId → Prop}
    (hf : ∀ a, (f a).wp (pinning hard returns) Q pin) : (p >>= f).wp (pinning hard returns) Q pin :=
  Prog.wp_bind_of_only (fun _ ho => unpins ho) hp hf

/-- Nothing is returned, dropped or sent. -/
def Op.stands : Op → Bool
  | .put .. | .drop .. | .talk .. => false
  | _ => true

theorem unpins_stands {o : Op} (ho : o.stands = true) : Unpins pin o := by
  cases o <;> trivial

theorem wp_stands {o : Op} (ho : o.stands = true) {Q : Res o → Option ConnId → Prop} (hQ : ∀ r, Q r pin) :
    (act o).wp (pinning hard returns) Q pin := wp_unpins (Prog.only_perform (unpins_stands ho)) hQ

theorem stands_next {o : Op} {f : Res o → Task α} (ho : o.stands = true) {Q : α → Option ConnId → Prop}
    (hf : ∀ r, (f r).wp (pinning hard returns) Q pin) : (act o >>= f).wp (pinning hard returns) Q pin :=
  unpins_next (Prog.only_perform (unpins_stands ho)) hf

/-- Without its connection there is no pin. -/
theorem pin_eq_none {conn : Option ConnId} (h : ∀ c, pin = some c → conn = some c) (hconn : conn = none) :
    pin = none :=
  Option.eq_none_iff_forall_ne_some.mpr fun c hpin => by cases hconn.symm.trans (h c hpin)

/-- Returning or dropping the connection of the pin ends it. -/
theorem pin_ends {c : ConnId} (h : ∀ c', pin = some c' → some c = some c') :
    (if pin = some c then none else pin) = none := by
  rcases pin with _ | c'
  · exact if_neg nofun
  · rw [if_pos (h c' rfl).symm]

/-- Neither a pin nor the need for one. -/
theorem pin_free (h : ¬(pin.isSome || hard) = true) : pin = none ∧ hard = false := by
  rcases pin with _ | c
  · exact ⟨rfl, by simpa using h⟩
  · exact absurd rfl h

/-! ## Checkouts and returns -/

section Pool

variable {pool : PoolRef} {db : Option Str}

/-- A connection that is checked out is not the pinned one. -/
theorem pin_get {o : Origin} {Q : Except Str ConnId → Option ConnId → Prop}
    (hok : ∀ c, pin ≠ some c → Q (.ok c) pin) (herr : ∀ e, Q (.error e) pin) :
    (act (.get o db)).wp (pinning hard returns) Q pin := by
  refine ⟨trivial, fun r pin' h => ?_⟩
  rcases r with e | c
  · rw [(h : pin' = pin)]
    exact herr e
  · obtain ⟨rfl, hc⟩ := h
    exact hok c hc

theorem pin_getPrimary {Q : Except Str ConnId → Option ConnId → Prop} (hok : ∀ c, pin ≠ some c → Q (.ok c) pin)
    (herr : ∀ e, Q (.error e) pin) : (pool.getPrimaryForDatabase db).wp (pinning hard returns) Q pin := by
  rw [PoolRef.getPrimaryForDatabase]
  refine stands_next rfl fun gr => ?_
  split
  · exact pin_get hok herr
  · refine stands_next rfl fun failover => ?_
    split
    · exact pin_get hok herr
    · refine stands_next rfl fun allowed => ?_
      exact Prog.wp_ite (fun _ => pin_get hok herr) fun _ => herr _

theorem pin_ensure {conn : Option ConnId} {Q : Except Str ConnId → Option ConnId → Prop}
    (hok : ∀ c, (conn = some c ∨ conn = none ∧ pin ≠ some c) → Q (.ok c) pin)
    (herr : conn = none → ∀ e, Q (.error e) pin) : (pool.ensure conn db).wp (pinning hard returns) Q pin := by
  rcases conn with _ | c
  · exact pin_getPrimary (fun c hc => hok c (.inr ⟨rfl, hc⟩)) (herr rfl)
  · exact hok c (.inl rfl)

theorem pin_getPrimaryAsReplica {Q : Except Str (ConnId × Option Nat) → Option ConnId → Prop}
    (hok : ∀ c idx, pin ≠ some c → Q (.ok (c, idx)) pin) (herr : ∀ e, Q (.error e) pin) :
    (pool.getPrimaryAsReplica db).wp (pinning hard returns) Q pin := by
  rw [PoolRef.getPrimaryAsReplica]
  rw [Prog.wp_bind]
  exact pin_getPrimary (fun c hc => hok c none hc) fun e => herr e

theorem pin_tryRemaining {chosen : Nat} {l : List (Nat × Nat)} {Q : Option (ConnId × Nat) → Option ConnId → Prop}
    (hsome : ∀ c i, pin ≠ some c → Q (some (c, i)) pin) (hnone : Q none pin) :
    (pool.tryRemaining chosen db l).wp (pinning hard returns) Q pin := by
  induction l with
  | nil => exact hnone
  | cons e rest ih =>
    rw [PoolRef.tryRemaining]
    refine Prog.wp_ite (fun _ => ih) fun _ => ?_
    rw [Prog.wp_bind]
    refine pin_get (fun c hc => hsome c e.1 hc) fun err => ?_
    exact stands_next rfl fun _ => ih

theorem pin_tryWeighted {backup : Bool} {Q : Option (ConnId × Nat) → Option ConnId → Prop}
    (hsome : ∀ c i, pin ≠ some c → Q (some (c, i)) pin) (hnone : Q none pin) :
    (pool.tryWeightedReplica backup db).wp (pinning hard returns) Q pin := by
  have hcands : ∀ l, (pool.candidates backup l).Only (Unpins pin) := by
    intro l
    induction l with
    | nil => trivial
    | cons e rest ih =>
      rw [PoolRef.candidates]
      refine Prog.only_ite (Prog.only_bind (Prog.only_perform trivial) fun healthy => ?_) ih
      refine Prog.only_ite (Prog.only_bind (Prog.only_perform trivial) fun allowed => ?_) ih
      exact Prog.only_bind ih fun others => Prog.only_ite (Prog.only_done _) (Prog.only_done _)
  rw [PoolRef.tryWeightedReplica]
  refine unpins_next (hcands _) fun cands => ?_
  split
  · exact hnone
  · have hchooses : ∀ o, Chooses o → Unpins pin o := fun o _ => by cases o <;> trivial
    refine unpins_next ((PoolRef.chooses_choose _ _).mono hchooses) fun choice => ?_
    cases choice with
    | none => exact hnone
    | some chosen =>
      dsimp only
      rw [Prog.wp_bind]
      refine pin_get (fun c hc => hsome c _ hc) fun err => ?_
      exact stands_next rfl fun _ => pin_tryRemaining hsome hnone

theorem pin_getReplica {Q : Except Str (ConnId × Option Nat) → Option ConnId → Prop}
    (hok : ∀ c idx, pin ≠ some c → Q (.ok (c, idx)) pin) (herr : ∀ e, Q (.error e) pin) :
    (pool.getReplicaForDatabase db).wp (pinning hard returns) Q pin := by
  have hprimary : (pool.getPrimaryAsReplica db).wp (pinning hard returns) Q pin := pin_getPrimaryAsReplica hok herr
  rw [PoolRef.getReplicaForDatabase]
  refine Prog.wp_ite (fun _ => hprimary) fun _ => ?_
  rw [Prog.wp_bind]
  refine pin_tryWeighted (fun c i hc => hok c (some i) hc) ?_
  rw [Prog.wp_bind]
  exact pin_tryWeighted (fun c i hc => hok c (some i) hc) hprimary

theorem pin_put {o : Origin} {c : ConnId} (hc : returns = true ∨ pin ≠ some c) {Q : Unit → Option ConnId → Prop}
    (hQ : Q () (if pin = some c then none else pin)) : (act (.put o c db)).wp (pinning hard returns) Q pin :=
  ⟨hc, fun _ _ h => h ▸ hQ⟩

theorem pin_putPrimary {c : ConnId} (hc : returns = true ∨ pin ≠ some c) {Q : Unit → Option ConnId → Prop}
    (hQ : Q () (if pin = some c then none else pin)) : (putPrimary c db).wp (pinning hard returns) Q pin := by
  unfold putPrimary PoolRef.putPrimaryForDatabase
  refine stands_next rfl fun pool => ?_
  refine stands_next rfl fun failover => ?_
  split
  · exact pin_put hc hQ
  · exact pin_put hc hQ

theorem pin_drop {exit : Exit} {c : ConnId} (hc : pin ≠ some c) {Q : Unit → Option ConnId → Prop} (hQ : Q () pin) :
    (act (.drop exit c)).wp (pinning hard returns) Q pin :=
  ⟨trivial, fun _ pin' h => (h.trans (if_neg hc) : pin' = pin) ▸ hQ⟩

/-- A connection that is not pinned may go back. -/
theorem unpins_putPrimary {c : ConnId} (hc : pin ≠ some c) :
    (pool.putPrimaryForDatabase c db).Only (Unpins pin) := by
  rw [PoolRef.putPrimaryForDatabase]
  refine Prog.only_bind (Prog.only_perform trivial) fun failover => ?_
  split
  · exact ⟨hc, fun _ => trivial⟩
  · exact ⟨hc, fun _ => trivial⟩

theorem unpins_putReplica {c : ConnId} (hc : pin ≠ some c) (idx : Option Nat) :
    (pool.putReplicaForDatabase c idx db).Only (Unpins pin) := by
  rcases idx with _ | i
  · exact ⟨hc, fun _ => trivial⟩
  · exact Prog.only_ite ⟨hc, fun _ => trivial⟩ ⟨hc, fun _ => trivial⟩

theorem unpins_giveBack {c : ConnId} (hc : pin ≠ some c) (idx : Option Nat) :
    (pool.giveBack c idx db).Only (Unpins pin) := by
  rcases idx with _ | i
  · exact unpins_putPrimary hc
  · exact unpins_putReplica hc (some i)

end Pool

/-! ## Routes -/

/-- While there is no pin, what carries no text that needs one leaves it so. -/
theorem unpins_carries {text : Str} {bytes : Bytes} {sqls : List Str} (hbytes : (Packet.text bytes).pins = false)
    {p : Task α} (hp : p.Only (Carries text bytes sqls)) : p.Only (Unpins none) := by
  refine hp.mono fun o ho => ?_
  cases o with
  | talk who via c p limit =>
    cases who with
    | client =>
      obtain rfl : p = .text bytes := ho
      exact ⟨hbytes, nofun⟩
    | _ => trivial
  | put o c db => exact nofun
  | drop exit c => exact nofun
  | _ => trivial

theorem unpins_dispatch {pool : PoolRef} {text : Str} {bytes : Bytes} {timeoutMs : Nat} {rt : Route}
    (hbytes : (Packet.text bytes).pins = false) : (dispatch pool text bytes timeoutMs rt).Only (Unpins none) := by
  have hsplit : ∀ m, (routeSplit pool text bytes timeoutMs m rt).Only (Unpins none) := fun m =>
    unpins_carries hbytes routeSplit_carries
  refine ⟨trivial, fun m => ?_⟩
  rcases m with _ | r
  · exact hsplit none
  · refine Prog.only_ite (Prog.only_done _) ?_
    split
    · exact unpins_carries hbytes (routeHostgroup_carries : Prog.Only (Carries _ _ []) _)
    · exact hsplit _

/-- Outside transactions, for a session without a pin: no rule makes of the query one that needs a pin. -/
theorem pin_routeAutocommit {pool : PoolRef} {sql : Bytes} {rt : Route} (hsql : (Packet.text sql).pins = false)
    {Q : Except Str Response → Option ConnId → Prop} (hQ : ∀ r, Q r none) :
    (routeAutocommit pool sql rt).wp (pinning hard returns) Q none := by
  rw [routeAutocommit]
  refine stands_next rfl fun timeoutMs => ?_
  rw [Prog.wp_bind]
  refine ⟨trivial, fun outcome pin' h => ?_⟩
  obtain ⟨rfl, hrewritten⟩ := h
  rcases outcome with _ | s | msg
  · exact wp_unpins (unpins_dispatch hsql) hQ
  · exact wp_unpins (unpins_dispatch (hrewritten s rfl)) hQ
  · exact hQ _

/-- A query goes to the pinned connection, and there the session is pinned if it needs to be. -/
theorem pin_executeQuery {via : Via} {c : ConnId} {sql : Bytes} (hsame : ∀ c', pin = some c' → c' = c)
    {Q : Except Str Response → Option ConnId → Prop}
    (hQ : ∀ r pin', (pin' = pin ∨ (Packet.text sql).pins = true ∧ pin' = pin.or (some c)) →
      (∀ c', pin' = some c' → c' = c) → Q r pin') :
    (executeQuery .client via c sql).wp (pinning hard returns) Q pin := by
  rw [executeQuery]
  rw [Prog.wp_bind]
  refine ⟨hsame, fun r pin' h => hQ _ pin' h ?_⟩
  rcases h with rfl | ⟨-, rfl⟩
  · exact hsame
  · intro c' hc'
    rcases pin with _ | c₀
    · exact (Option.some.inj hc').symm
    · exact hsame c' hc'

/-- What `ensure` gives is the pinned connection, if there is one. -/
theorem pin_ensure_tx {pool : PoolRef} {db : Option Str} {txConn : Option ConnId}
    (hpin : ∀ c, pin = some c → txConn = some c) {Q : Except Str ConnId → Option ConnId → Prop}
    (hok : ∀ c, (∀ c', pin = some c' → c' = c) → Q (.ok c) pin)
    (herr : txConn = none → ∀ e, Q (.error e) pin) :
    (pool.ensure txConn db).wp (pinning hard returns) Q pin := by
  refine pin_ensure (fun c hc => hok c ?_) herr
  rintro c' rfl
  rcases hc with hc | ⟨hnone, -⟩
  · exact Option.some.inj ((hpin c' rfl).symm.trans hc)
  · cases (hpin c' rfl).symm.trans hnone

theorem pin_routeInTx {pool : PoolRef} {sql : Bytes} {txConn : Option ConnId} {rt : Route}
    (hpin : ∀ c, pin = some c → txConn = some c) {Q : Option ConnId × Except Str Response → Option ConnId → Prop}
    (hok : ∀ c r pin', (pin' = pin ∨ (Packet.text sql).pins = true ∧ pin' = pin.or (some c)) →
      (∀ c', pin' = some c' → c' = c) → Q (some c, r) pin')
    (herr : txConn = none → ∀ e, Q (none, .error e) pin) :
    (routeInTx pool sql txConn rt).wp (pinning hard returns) Q pin := by
  have hreplay : ∀ (c : ConnId) (sqls : List Str), (replaySessionVars .txConn c sqls).Only (Unpins pin) := by
    intro c sqls
    induction sqls with
    | nil => trivial
    | cons sql rest ih => exact ⟨trivial, fun _ => ih⟩
  rw [routeInTx]
  dsimp only
  rw [Prog.wp_bind]
  refine pin_ensure_tx hpin (fun c hsame => ?_) fun hnone e => hnone ▸ herr hnone e
  have hgo : (do
      let r ← executeQuery .client .txConn c sql
      pure (some c, r) : Task (Option ConnId × Except Str Response)).wp (pinning hard returns) Q pin := by
    rw [Prog.wp_bind]
    exact pin_executeQuery hsame fun r pin' h h' => hok c r pin' h h'
  refine Prog.wp_ite (fun _ => ?_) fun _ => hgo
  exact unpins_next (hreplay c _) fun _ => hgo

/-- The probe of a replica. -/
theorem pin_checkReplicaHasGtid {gtid : Str} {Q : Bool → Option ConnId → Prop} (hQ : ∀ ready, Q ready pin) :
    (checkReplicaHasGtid gtid).wp (pinning hard returns) Q pin := by
  rw [checkReplicaHasGtid]
  refine stands_next rfl fun pool => Prog.wp_ite (fun _ => hQ false) fun _ => ?_
  rw [Prog.wp_bind]
  refine pin_getReplica (fun c idx hc => ?_) fun e => hQ false
  unfold executeQuery
  simp only [Prog.wp_bind]
  refine ⟨trivial, fun r pin' h => ?_⟩
  obtain rfl : pin' = pin := h
  rcases r with e | response
  · exact pin_drop hc (hQ false)
  · simp only [Prog.wp_done, Prog.pure_eq, Except.mapError, Prog.wp_bind]
    exact wp_unpins (unpins_putReplica hc idx) fun _ => hQ _

/-! ## Statements and other commands -/

theorem unpins_sendRaw {who : Purpose} {via : Via} {c : ConnId} {packet : Bytes} :
    (sendRaw who via c packet).Only (Unpins pin) := by
  refine ⟨?_, fun _ => trivial⟩
  cases who with
  | client => exact ⟨rfl, nofun⟩
  | _ => trivial

theorem unpins_sendRawNoResponse {via : Via} {c : ConnId} {packet : Bytes} :
    (sendRawNoResponse via c packet).Only (Unpins pin) :=
  ⟨⟨rfl, nofun⟩, fun _ => trivial⟩

theorem pin_routeRawInner {packet : Bytes} {txConn : Option ConnId} {inTransaction : Bool} {db : Option Str}
    (hpin : ∀ c, pin = some c → txConn = some c) {Q : Option ConnId × Except Str Response → Option ConnId → Prop}
    (hQ : ∀ txConn' r, (∀ c, pin = some c → txConn' = some c) → Q (txConn', r) pin) :
    (routeRawInner packet txConn inTransaction db).wp (pinning hard returns) Q pin := by
  rw [routeRawInner]
  refine stands_next rfl fun pool => Prog.wp_ite (fun _ => ?_) fun _ => ?_
  · rw [Prog.wp_bind]
    refine pin_ensure_tx hpin (fun c hsame => ?_) fun _ e => hQ _ _ hpin
    refine unpins_next unpins_sendRaw fun r => hQ _ _ fun c' hc' => ?_
    rw [hsame c' hc']
  · rw [Prog.wp_bind]
    refine pin_getPrimary (fun c hc => ?_) fun e => hQ _ _ hpin
    refine unpins_next unpins_sendRaw fun r => ?_
    rcases r with e | response
    · exact pin_drop hc (hQ _ _ hpin)
    · exact unpins_next (unpins_putPrimary hc) fun _ => hQ _ _ hpin

/-- The pinned connection is that of the transaction, not that of the statements. -/
structure Apart (pin : Option ConnId) (st : MysqlStmtState) : Prop where
  /-- the slot of the transaction -/
  tx : ∀ c, pin = some c → st.txConn = some c
  /-- the slot of the statements -/
  stmt : ∀ c, pin = some c → st.stmtConn ≠ some c

variable {st : MysqlStmtState}

theorem Apart.fresh (h : Apart pin st) {c : ConnId} (hc : pin ≠ some c) (shadow : MysqlStmtShadow) :
    Apart pin { st with shadow := shadow, stmtConn := some c } :=
  ⟨h.tx, fun _ hc' hsame => hc (hc'.trans hsame.symm)⟩

theorem Apart.registerPrepared (h : Apart pin st) (query : Bytes) (response : Response) :
    Apart pin (registerPrepared st query response).1 := by
  rw [TurbineProxy.registerPrepared]
  split
  · exact ⟨h.tx, h.stmt⟩
  · exact h

variable {pool : PoolRef} {inTransaction : Bool} {c : ConnId}
  {Q : MysqlStmtState × Except Str Response → Option ConnId → Prop}

theorem pin_stmtPrepare {raw query : Bytes} (h : Apart pin st) (hc : inTransaction = false → pin ≠ some c)
    (hQ : ∀ st' r, Apart pin st' → Q (st', r) pin) :
    (stmtPrepare pool raw query c st inTransaction).wp (pinning hard returns) Q pin := by
  rw [stmtPrepare]
  refine unpins_next unpins_sendRaw fun r => ?_
  rcases r with e | response
  · refine Prog.wp_ite (fun hlost => ?_) fun _ => hQ st _ h
    have hout : inTransaction = false := by
      rw [Bool.and_eq_true, Bool.not_eq_true'] at hlost
      exact hlost.2
    rw [Prog.wp_bind]
    refine pin_getPrimary (fun fresh hfresh => ?_) fun e => hQ st _ h
    rw [Prog.wp_bind]
    refine pin_drop (hc hout) ?_
    refine unpins_next unpins_sendRaw fun r => ?_
    rcases r with e | response
    · exact hQ _ _ (h.fresh hfresh _)
    · exact hQ _ _ ((h.fresh hfresh _).registerPrepared query response)
  · exact hQ _ _ (h.registerPrepared query response)

theorem unpins_reprepare {fresh : ConnId} {jobs : List (Nat × Bytes)} :
    (reprepare fresh jobs).Only (Unpins pin) := by
  induction jobs with
  | nil => trivial
  | cons job rest ih =>
    refine Prog.only_bind unpins_sendRaw fun r => Prog.only_bind ih fun others => ?_
    rcases r with e | resp
    · trivial
    · dsimp only
      split <;> trivial

theorem pin_executeAgain {raw : Bytes} {proxyId backendId : Nat} (h : Apart pin st) (hc : pin ≠ some c)
    (hQ : ∀ st' r, Apart pin st' → Q (st', r) pin) :
    (executeAgain pool raw proxyId backendId c st).wp (pinning hard returns) Q pin := by
  rw [executeAgain]
  rw [Prog.wp_bind]
  refine pin_getPrimary (fun fresh hfresh => ?_) fun e => hQ st _ h
  refine unpins_next unpins_reprepare fun newIds => ?_
  rw [Prog.wp_bind]
  refine pin_drop hc ?_
  exact unpins_next unpins_sendRaw fun r => hQ _ _ (h.fresh hfresh _)

theorem pin_stmtWithId {cmd : UInt8} {raw : Bytes} (h : Apart pin st)
    (hc : inTransaction = false → pin ≠ some c) (hQ : ∀ st' r, Apart pin st' → Q (st', r) pin) :
    (stmtWithId pool cmd raw c st inTransaction).wp (pinning hard returns) Q pin := by
  rw [stmtWithId]
  split
  · exact unpins_next unpins_sendRaw fun r => hQ st r h
  · dsimp only
    refine Prog.wp_ite (fun _ => ?_) fun _ => ?_
    · refine unpins_next unpins_sendRawNoResponse fun r => ?_
      rcases r with e | response
      · exact hQ st _ h
      · refine hQ _ _ ?_
        split
        · exact ⟨h.tx, h.stmt⟩
        · exact h
    · refine unpins_next unpins_sendRaw fun r => ?_
      rcases r with e | response
      · exact Prog.wp_ite (fun hlost => pin_executeAgain h (hc hlost.2.2) hQ) fun _ => hQ st _ h
      · exact hQ st _ h

/-- The statements of a transaction go to the pinned connection; the others have their own. -/
theorem pin_routeStmt {raw : Bytes} (h : Apart pin st) (hQ : ∀ st' r, Apart pin st' → Q (st', r) pin) :
    (routeStmtMysqlShadow raw st inTransaction).wp (pinning hard returns) Q pin := by
  have hgo (pool : PoolRef) (st' : MysqlStmtState) (c : ConnId) (cmd : UInt8) (query : Bytes) (h' : Apart pin st')
      (hc : inTransaction = false → pin ≠ some c) : (if cmd = Com.stmtPrepare then
          stmtPrepare pool raw query c st' inTransaction
        else if mysqlHasStmtId cmd then stmtWithId pool cmd raw c st' inTransaction
        else do
          let r ← sendRaw .client (activeVia inTransaction) c raw
          pure (st', r) : Task (MysqlStmtState × Except Str Response)).wp (pinning hard returns) Q pin := by
    refine Prog.wp_ite (fun _ => pin_stmtPrepare h' hc hQ) fun _ => ?_
    refine Prog.wp_ite (fun _ => pin_stmtWithId h' hc hQ) fun _ => ?_
    exact unpins_next unpins_sendRaw fun r => hQ st' r h'
  rw [routeStmtMysqlShadow]
  refine stands_next rfl fun pool => ?_
  split
  · exact hQ st _ h
  · rw [Prog.wp_bind]
    cases inTransaction with
    | true =>
      refine pin_ensure_tx h.tx (fun c hsame => ?_) fun _ e => hQ st _ h
      exact hgo _ _ c _ _ ⟨fun c' hc' => congrArg some (hsame c' hc').symm, h.stmt⟩ (by rintro ⟨⟩)
    | false =>
      refine pin_ensure (fun c hc => ?_) fun _ e => hQ st _ h
      have hne : pin ≠ some c := hc.elim (fun hc hpin => h.stmt c hpin hc) (·.2)
      exact hgo _ _ c _ _ (h.fresh hne _) fun _ => hne

end Protocol

/-! ## A turn of a session -/

namespace MysqlSession

variable {hard returns : Bool} {pin : Option ConnId} {cfg : MysqlConfig} {st : MysqlSession} {q : Query}

/-- The flag by which a session keeps to `tx_conn`: the pin's own; with fast-forward, which does not know
about pins, that of the transaction. -/
def keepsTo (cfg : MysqlConfig) (st : MysqlSession) : Bool :=
  if cfg.fastForward then st.inTransaction else st.userVarSticky

/-- The pinned connection is in the slot of the transaction. -/
def Held (cfg : MysqlConfig) (st : MysqlSession) (pin : Option ConnId) : Prop :=
  ∀ c, pin = some c → st.txConn = some c ∧ st.keepsTo cfg = true

theorem held_none : st.Held cfg none := nofun

theorem Held.congr {st' : MysqlSession} (h : st.Held cfg pin) (htx : st'.txConn = st.txConn)
    (hkeeps : st'.keepsTo cfg = st.keepsTo cfg) : st'.Held cfg pin := by
  intro c hc
  rw [htx, hkeeps]
  exact h c hc

theorem pin_flush (h : st.Held cfg pin) : st.flush.wp (pinning hard returns) (Held cfg) pin := by
  rw [flush]
  refine stands_next rfl fun sent => ?_
  cases sent <;> exact h

theorem pin_answer (h : st.Held cfg pin) (r : Except Str Response) :
    (st.answer r).wp (pinning hard returns) (Held cfg) pin := by
  unfold answer
  rcases r with e | response
  · exact stands_next rfl fun _ => pin_flush h
  · exact stands_next rfl fun sent => Prog.wp_ite (fun _ => pin_flush h) fun _ => h

/-! ### Giving connections up -/

/-- Without a pin there is nothing to say of it. -/
theorem unpinned_none {P : ConnId → Prop} : ∀ c, none = some c → P c := by rintro _ ⟨⟩

section GivingUp

variable {Q : MysqlSession → Option ConnId → Prop}

/-- Returning `tx_conn` ends the pin. -/
theorem pin_releaseTx (hreturns : returns = true ∨ pin = none) (h : ∀ c, pin = some c → st.txConn = some c)
    (hQ : Q { st with txConn := none } none) : st.releaseTx.wp (pinning hard returns) Q pin := by
  rw [releaseTx]
  rcases hc : st.txConn with _ | c
  · have hsame : { st with txConn := none } = st := by rw [← hc]
    rw [pin_eq_none h hc]
    exact hsame ▸ hQ
  · rw [hc] at h
    rw [Prog.wp_bind]
    refine pin_putPrimary (hreturns.imp id fun hpin => by rw [hpin]; exact (Option.some_ne_none c).symm) ?_
    rw [pin_ends h]
    exact hQ

/-- Dropping `tx_conn` ends the pin on it as well. -/
theorem pin_dropTx {exit : Exit} (h : ∀ c, pin = some c → st.txConn = some c)
    (hQ : Q { st with txConn := none } none) : (st.dropTx exit).wp (pinning hard returns) Q pin := by
  rw [dropTx]
  rcases hc : st.txConn with _ | c
  · have hsame : { st with txConn := none } = st := by rw [← hc]
    rw [pin_eq_none h hc]
    exact hsame ▸ hQ
  · rw [hc] at h
    rw [Prog.wp_bind]
    refine ⟨trivial, fun _ pin' hpin' => ?_⟩
    rw [(hpin' : pin' = if pin = some c then none else pin), pin_ends h]
    exact hQ

/-- The other connections are not pinned. -/
theorem pin_releaseStmt (h : ∀ c, pin = some c → st.stmtConn ≠ some c) (hQ : Q { st with stmtConn := none } pin) :
    st.releaseStmt.wp (pinning hard returns) Q pin := by
  rw [releaseStmt]
  rcases hc : st.stmtConn with _ | c
  · have hsame : { st with stmtConn := none } = st := by rw [← hc]
    exact hsame ▸ hQ
  · have hne : pin ≠ some c := fun hpin => h c hpin hc
    rw [Prog.wp_bind]
    refine pin_putPrimary (.inr hne) ?_
    rw [if_neg hne]
    exact hQ

theorem pin_releaseSticky (h : ∀ c, pin = some c → st.stickyHintConn ≠ some c)
    (hQ : Q { st with stickyHintConn := none, stickyHintIdx := none } pin) :
    st.releaseSticky.wp (pinning hard returns) Q pin := by
  rw [releaseSticky]
  rcases hc : st.stickyHintConn with _ | c
  · have hsame : { st with stickyHintConn := none, stickyHintIdx := none } = { st with stickyHintIdx := none } := by
      rw [← hc]
    exact hsame ▸ hQ
  · have hne : pin ≠ some c := fun hpin => h c hpin hc
    unfold putReplica
    simp only [Prog.wp_bind]
    refine wp_stands rfl fun pool => ?_
    exact wp_unpins (unpins_giveBack hne _) fun _ => hQ

end GivingUp

/-! ### After routing -/

/-- A query that ends the transaction finds no pin. -/
def Ends (q : Query) (pin : Option ConnId) : Prop := pin.isSome = true → ends q.sql = false

theorem ends_none : Ends q none := nofun

theorem pin_finishQuery (h : st.Held cfg pin) (hends : Ends q pin) :
    (st.finishQuery q).wp (pinning hard returns) (Held cfg) pin := by
  rw [finishQuery]
  refine Prog.wp_ite (fun he => ?_) fun _ => pin_flush h
  have hnone : pin = none := by
    rcases pin with _ | c
    · rfl
    · cases he.symm.trans (hends rfl)
  subst hnone
  rw [Prog.wp_bind]
  exact pin_releaseTx (.inr rfl) unpinned_none (pin_flush held_none)

theorem userVarSticky_noteGtid (response : Response) :
    (st.noteGtid cfg q response).userVarSticky = st.userVarSticky := by
  obtain ⟨gtid, heq⟩ := noteGtid_eq cfg st q response
  rw [heq]

theorem userVarSticky_noteChanges (st : MysqlSession) (changes : List (Str × Str)) :
    (st.noteChanges cfg changes).userVarSticky = st.userVarSticky := by
  obtain ⟨sqls, heq⟩ := noteChanges_eq cfg st changes
  rw [heq]

theorem pin_afterResponse {response : Response} (h : st.Held cfg pin) (hends : Ends q pin) :
    (st.afterResponse cfg q response).wp (pinning hard returns) (Held cfg) pin := by
  have hheld (st' : MysqlSession) (h' : st'.Held cfg pin) :
      ((st'.noteGtid cfg q response).noteChanges cfg response.sessionChanges).Held cfg pin := by
    have halike : Alike st' ((st'.noteGtid cfg q response).noteChanges cfg response.sessionChanges) :=
      (alike_noteGtid st' q response).trans (alike_noteChanges _ _)
    refine h'.congr halike.txConn ?_
    rw [keepsTo, keepsTo, halike.flag, userVarSticky_noteChanges, userVarSticky_noteGtid]
  rw [afterResponse]
  exact stands_next rfl fun sent => Prog.wp_ite (fun _ => pin_finishQuery (hheld _ h) hends) fun _ => hheld _ h

theorem held_countError (h : st.Held cfg pin) (now : Nat) : (st.countError cfg now).Held cfg pin := by
  have hcount := alike_countError cfg st now
  have hsame : Same st (st.countError cfg now) := same_countError cfg now
  exact h.congr hcount.txConn (by rw [keepsTo, keepsTo, hcount.flag, hsame.userVarSticky])

/-- With the backend of the transaction goes the pin. -/
theorem pin_afterError {e : Str} (h : st.Held cfg pin) (hends : Ends q pin) :
    (st.afterError cfg q e).wp (pinning hard returns) (Held cfg) pin := by
  have hrest (st' : MysqlSession) (pin' : Option ConnId) (h' : st'.Held cfg pin') (hends' : Ends q pin') :
      (st'.tellError cfg q e).wp (pinning hard returns) (Held cfg) pin' := by
    refine stands_next rfl fun _ => Prog.wp_ite (fun _ => ?_) fun _ => pin_finishQuery h' hends'
    refine stands_next rfl fun now => Prog.wp_ite (fun _ => ?_) fun _ =>
      pin_finishQuery (held_countError h' now) hends'
    exact stands_next rfl fun _ => held_countError h' now
  rw [afterError]
  refine Prog.wp_ite (fun _ => ?_) fun _ => hrest st pin h hends
  rw [Prog.wp_bind]
  exact pin_dropTx (fun c hc => (h c hc).1) (hrest _ none held_none ends_none)

theorem pin_afterRoute {r : Except Str Response} (h : st.Held cfg pin) (hends : Ends q pin) :
    (st.afterRoute cfg q r).wp (pinning hard returns) (Held cfg) pin := by
  have htouch (st' : MysqlSession) (h' : st'.Held cfg pin) : (do
        let st ← st'.touchTx
        st.settle cfg q r : Task MysqlSession).wp (pinning hard returns) (Held cfg) pin := by
    have hlast (st'' : MysqlSession) (h'' : st''.Held cfg pin) :
        (st''.settle cfg q r).wp (pinning hard returns) (Held cfg) pin := by
      cases r with
      | ok response => exact pin_afterResponse h'' hends
      | error e => exact pin_afterError h'' hends
    rw [touchTx]
    rw [Prog.wp_bind]
    refine Prog.wp_ite (fun _ => ?_) fun _ => hlast st' h'
    exact stands_next rfl fun now => hlast _ h'
  rw [afterRoute]
  unfold openRyow
  rw [Prog.wp_bind]
  refine Prog.wp_ite (fun _ => ?_) fun _ => htouch st h
  exact stands_next rfl fun now => htouch _ h

/-! ### Before routing -/

/-- What is known while a query is on its way: the pinned connection is in its slot, where the query goes if
it is pinned or has to be, and then it does not end a transaction. -/
structure Engaged (st : MysqlSession) (q : Query) (pin : Option ConnId) : Prop where
  /-- the slot -/
  tx : ∀ c, pin = some c → st.txConn = some c
  /-- another connection has the hint -/
  hint : ∀ c, pin = some c → st.stickyHintConn ≠ some c
  /-- the text is that of the bytes -/
  text : q.sql = textOf q.bytes
  /-- the flag of the pin -/
  sticky : (pin.isSome || needsHardPin q.sql) = true → st.userVarSticky = true
  /-- the query does not end a transaction -/
  ends : (pin.isSome || needsHardPin q.sql) = true → ends q.sql = false

/-- A session that is free to use any connection has no pin, and the query needs none. -/
theorem Engaged.free (h : st.Engaged q pin) (heffective : st.effectiveInTx = false) :
    pin = none ∧ needsHardPin q.sql = false := by
  refine pin_free fun hneeds => ?_
  rw [effectiveInTx, h.sticky hneeds, Bool.or_true] at heffective
  cases heffective

variable (hff : cfg.fastForward = false)

include hff

theorem keepsTo_slow : st.keepsTo cfg = st.userVarSticky := by rw [keepsTo, hff, if_neg Bool.false_ne_true]

theorem Engaged.held (h : st.Engaged q pin) : st.Held cfg pin := by
  intro c hc
  rw [keepsTo_slow hff]
  exact ⟨h.tx c hc, h.sticky (by rw [hc]; rfl)⟩

omit hff in
theorem pin_killTx {exit : Exit} {msg : Str} (h : ∀ c, pin = some c → st.txConn = some c) :
    (st.killTx exit msg).wp (pinning hard returns) (Held cfg) pin := by
  rw [killTx]
  rw [Prog.wp_bind]
  refine pin_dropTx h ?_
  exact stands_next rfl fun _ => pin_flush held_none

theorem pin_routeNormally {ryowActive : Bool} (h : st.Engaged q pin) :
    (st.routeNormally cfg q ryowActive).wp (pinning hard returns) (Held cfg) pin := by
  unfold routeNormally routeQueryInner
  simp only [Prog.wp_bind]
  refine wp_stands rfl fun pool => Prog.wp_ite (fun _ => ?_) fun heffective => ?_
  · refine pin_routeInTx h.tx (fun c r pin' hpin hsame => ?_) fun hnone e => ?_
    · -- the session is pinned now only if it was before, or if the query needs it
      have hneeds : pin'.isSome = true → (pin.isSome || needsHardPin q.sql) = true := by
        rcases hpin with rfl | ⟨hpins, -⟩
        · intro hsome
          rw [hsome, Bool.true_or]
        · intro _
          have hhard : needsHardPin (textOf q.bytes) = true := hpins
          rw [h.text, hhard, Bool.or_true]
      refine pin_afterRoute (fun c' hc' => ?_) fun hsome => h.ends (hneeds hsome)
      rw [keepsTo_slow hff, hsame c' hc']
      exact ⟨rfl, h.sticky (hneeds (by rw [hc']; rfl))⟩
    · obtain rfl := pin_eq_none h.tx hnone
      exact pin_afterRoute held_none ends_none
  · -- without the flag there is neither a pin nor a need for one
    obtain ⟨rfl, hhard⟩ := h.free (Bool.not_eq_true _ ▸ heffective)
    rw [Prog.wp_bind]
    refine pin_routeAutocommit ?_ fun r => pin_afterRoute held_none ends_none
    rw [Packet.pins, ← h.text, hhard]

theorem pin_routeHinted {ryowActive : Bool} (h : st.Engaged q pin) (heffective : st.effectiveInTx = false) :
    (st.routeHinted cfg q ryowActive).wp (pinning hard returns) (Held cfg) pin := by
  obtain ⟨rfl, hhard⟩ := h.free heffective
  have hroute : (routeStickyQuery q.bytes st.stickyHintConn st.stickyHintIdx).Only (Unpins none) := by
    refine unpins_carries ?_ (carries_hands routeStickyQuery_hands : Prog.Only (Carries [] _ []) _)
    rw [Packet.pins, ← h.text, hhard]
  have hagain : ({ st with stickyHintConn := none, stickyHintIdx := none, stickyHintActive := false } :
      MysqlSession).Engaged q none := ⟨nofun, nofun, h.text, h.sticky, h.ends⟩
  rw [routeHinted]
  refine unpins_next hroute fun r => ?_
  obtain ⟨x, idx, r⟩ := r
  rcases r with e | response
  · refine Prog.wp_ite (fun _ => ?_) fun _ => ?_
    · rcases x with _ | c
      · exact pin_routeNormally hff hagain
      · rw [Prog.wp_bind]
        refine pin_drop (by simp) ?_
        exact pin_routeNormally hff hagain
    · simp only [Prog.wp_bind]
      exact wp_stands rfl fun _ => wp_stands rfl fun _ => held_none
  · exact pin_answer held_none _

theorem pin_routeAllowed {ryowActive : Bool} (h : st.Engaged q pin) :
    (st.routeAllowed cfg q ryowActive).wp (pinning hard returns) (Held cfg) pin := by
  have hroute (st' : MysqlSession) (h' : st'.Engaged q pin) :
      (if st'.stickyHintActive && !st'.effectiveInTx && q.wasRead then st'.routeHinted cfg q ryowActive
        else st'.routeNormally cfg q ryowActive).wp (pinning hard returns) (Held cfg) pin := by
    refine Prog.wp_ite (fun hhinted => pin_routeHinted hff h' ?_) fun _ => pin_routeNormally hff h'
    rw [Bool.and_eq_true, Bool.and_eq_true, Bool.not_eq_true'] at hhinted
    exact hhinted.1.2
  unfold routeAllowed applyHint
  rw [Prog.wp_bind]
  split
  · exact hroute _ ⟨h.tx, h.hint, h.text, h.sticky, h.ends⟩
  · refine Prog.wp_ite (fun _ => ?_) fun _ => hroute _ h
    refine pin_releaseSticky h.hint ?_
    exact hroute _ ⟨h.tx, nofun, h.text, h.sticky, h.ends⟩
  · exact hroute _ h

omit hff in
theorem unpins_overTime : (st.overTime cfg).Only (Unpins pin) := by
  rw [overTime]
  split
  · exact ⟨trivial, fun _ => trivial⟩
  · trivial

omit hff in
theorem unpins_overIdle : (st.overIdle cfg).Only (Unpins pin) := by
  rw [overIdle]
  split
  · exact ⟨trivial, fun _ => trivial⟩
  · trivial

theorem pin_checkedQuery {ryowActive : Bool} (h : st.Engaged q pin) :
    (st.checkedQuery cfg q ryowActive).wp (pinning hard returns) (Held cfg) pin := by
  rw [checkedQuery]
  refine unpins_next unpins_overTime fun late => Prog.wp_ite (fun _ => pin_killTx h.tx) fun _ => ?_
  refine unpins_next unpins_overIdle fun stale => Prog.wp_ite (fun _ => pin_killTx h.tx) fun _ => ?_
  split
  · simp only [Prog.wp_bind]
    refine wp_stands rfl fun _ => wp_stands rfl fun sent => ?_
    split
    · exact fun c hc => h.held hff c hc
    · exact h.held hff
  · exact pin_routeAllowed hff h

omit hff in
theorem userVarSticky_noteSessionState (st : MysqlSession) (sql : Str) :
    (st.noteSessionState sql).userVarSticky = (st.userVarSticky || needsHardPin sql) := by
  unfold noteSessionState
  dsimp only
  cases needsHardPin sql
  · rw [Bool.or_false, if_neg Bool.false_ne_true]
    split <;> rfl
  · rw [Bool.or_true, if_pos rfl]

/-- The session is pinned before the query that needs it is routed. -/
theorem pin_noted {ryowActive : Bool} (htx : ∀ c, pin = some c → st.txConn = some c)
    (hhint : ∀ c, pin = some c → st.stickyHintConn ≠ some c) (hsticky : pin.isSome = true → st.userVarSticky = true)
    (htext : q.sql = textOf q.bytes) (hends : (pin.isSome || needsHardPin q.sql) = true → ends q.sql = false) :
    (do
      let st ← (st.noteSessionState q.sql).noteBegin q.sql
      st.checkedQuery cfg q ryowActive : Task MysqlSession).wp (pinning hard returns) (Held cfg) pin := by
  have halike := alike_noteSessionState st q.sql
  have hengaged : (st.noteSessionState q.sql).Engaged q pin := by
    refine ⟨?_, ?_, htext, fun h => ?_, hends⟩
    · rwa [halike.txConn]
    · rwa [halike.stickyHintConn]
    · rw [userVarSticky_noteSessionState, Bool.or_eq_true]
      exact (Bool.or_eq_true _ _ ▸ h).imp hsticky id
  rw [noteBegin]
  rw [Prog.wp_bind]
  refine Prog.wp_ite (fun _ => ?_) fun _ => pin_checkedQuery hff hengaged
  refine stands_next rfl fun now => pin_checkedQuery hff ?_
  exact ⟨hengaged.tx, hengaged.hint, hengaged.text, hengaged.sticky, hengaged.ends⟩

theorem pin_slowQuery {bytes : Bytes} (hheld : st.Held cfg pin)
    (hhint : ∀ c, pin = some c → st.stickyHintConn ≠ some c)
    (hends : (pin.isSome || needsHardPin (textOf bytes)) = true → ends (textOf bytes) = false) :
    (st.slowQuery cfg (textOf bytes) bytes).wp (pinning hard returns) (Held cfg) pin := by
  have hsticky : pin.isSome = true → st.userVarSticky = true := by
    intro hsome
    obtain ⟨c, hc⟩ := Option.isSome_iff_exists.mp hsome
    rw [← keepsTo_slow hff]
    exact (hheld c hc).2
  have htx : ∀ c, pin = some c → st.txConn = some c := fun c hc => (hheld c hc).1
  let q : Query := ⟨textOf bytes, bytes, classify (textOf bytes),
    classify (textOf bytes) == .read && !st.inTransaction⟩
  -- the windows of the session's reads have nothing to do with its pin
  have hprobed (st' : MysqlSession) (htx : ∀ c, pin = some c → st'.txConn = some c)
      (hhint : ∀ c, pin = some c → st'.stickyHintConn ≠ some c)
      (hsticky : pin.isSome = true → st'.userVarSticky = true) : (do
        let g ← st'.gtidForcesPrimary cfg q
        let ryowActive := g.1.ryowUntil.isSome || g.2
        let st ← (g.1.noteSessionState (textOf bytes)).noteBegin (textOf bytes)
        st.checkedQuery cfg q ryowActive : Task MysqlSession).wp (pinning hard returns) (Held cfg) pin := by
    rw [gtidForcesPrimary]
    rw [Prog.wp_bind]
    split
    · rw [Prog.wp_bind]
      refine pin_checkReplicaHasGtid fun ready => ?_
      cases ready
      · exact pin_noted (q := q) hff htx hhint hsticky rfl hends
      · exact pin_noted (q := q) hff htx hhint hsticky rfl hends
    · exact pin_noted (q := q) hff htx hhint hsticky rfl hends
  unfold slowQuery expireRyow
  dsimp only
  rw [Prog.wp_bind]
  split
  · refine stands_next rfl fun now => ?_
    split
    · exact hprobed _ htx hhint hsticky
    · exact hprobed _ htx hhint hsticky
  · exact hprobed _ htx hhint hsticky

omit hff in
theorem keepsTo_fast (hff : cfg.fastForward = true) : st.keepsTo cfg = st.inTransaction := by
  rw [keepsTo, if_pos hff]

omit hff in
/-- Fast-forward keeps a pin only for the transaction. -/
theorem pin_fastForward {bytes : Bytes} (hff : cfg.fastForward = true) (hheld : st.Held cfg pin)
    (hkeeps : (pin.isSome || needsHardPin (textOf bytes)) = true →
      st.inTransaction = true ∧ ffEnds (textOf bytes) = false) :
    (st.fastForward (textOf bytes) bytes).wp (pinning hard returns) (Held cfg) pin := by
  -- a statement that ends the transaction finds no pin
  have hafter (st' : MysqlSession) (pin' : Option ConnId) (r : Except Str Response) (h' : st'.Held cfg pin')
      (hnone : ffEnds (textOf bytes) = true → pin' = none) : (do
        let st ← if ffEnds (textOf bytes) then st'.releaseTx else pure st'
        st.answer r : Task MysqlSession).wp (pinning hard returns) (Held cfg) pin' := by
    refine Prog.wp_ite (fun he => ?_) fun _ => pin_answer h' r
    rw [hnone he, Prog.wp_bind]
    exact pin_releaseTx (.inr rfl) nofun (pin_answer held_none r)
  rw [fastForward]
  dsimp only
  rw [Prog.wp_bind]
  rcases hin : st.inTransaction with _ | _
  · obtain ⟨rfl, hhard⟩ := pin_free fun hneeds => by cases hin.symm.trans (hkeeps hneeds).1
    refine wp_unpins (unpins_carries hhard (carries_hands routeFast_hands : Prog.Only (Carries [] _ []) _)) ?_
    exact fun r => hafter _ none r.2 held_none fun _ => rfl
  · rw [routeFast]
    refine stands_next rfl fun pool => ?_
    rw [if_pos rfl, Prog.wp_bind]
    refine pin_ensure_tx (fun c hc => (hheld c hc).1) (fun c hsame => ?_) fun hnone e => ?_
    · rw [Prog.wp_bind]
      refine pin_executeQuery hsame fun r pin' hpin hsame' => ?_
      have hends : pin'.isSome = true → ffEnds (textOf bytes) = false := by
        intro hsome
        refine (hkeeps ?_).2
        rcases hpin with rfl | ⟨hpins, -⟩
        · rw [hsome, Bool.true_or]
        · have hhard : needsHardPin (textOf bytes) = true := hpins
          rw [hhard, Bool.or_true]
      refine hafter _ pin' r (fun c' hc' => ⟨by rw [hsame' c' hc'], ?_⟩) fun he => ?_
      · rw [keepsTo_fast hff]
        dsimp only
        rw [ffFlag, hends (by rw [hc']; rfl), hin, if_neg Bool.false_ne_true, ite_self]
      · rcases pin' with _ | c'
        · rfl
        · cases he.symm.trans (hends rfl)
    · obtain rfl := pin_eq_none (fun c hc => (hheld c hc).1) hnone
      exact hafter _ none _ held_none fun _ => rfl

omit hff in
/-- A query, when neither its text nor fast-forward gives the pin up. -/
theorem pin_query {bytes : Bytes} (hheld : st.Held cfg pin)
    (hhint : ∀ c, pin = some c → st.stickyHintConn ≠ some c)
    (hkeeps : (pin.isSome || needsHardPin (textOf bytes)) = true →
      if cfg.fastForward then st.inTransaction = true ∧ ffEnds (textOf bytes) = false else ends (textOf bytes) = false) :
    (st.query cfg bytes).wp (pinning (needsHardPin (textOf bytes)) returns) (Held cfg) pin := by
  rw [query]
  dsimp only
  refine Prog.wp_ite (fun hff => ?_) fun hff => ?_
  · rw [if_pos hff] at hkeeps
    exact pin_fastForward hff hheld hkeeps
  rw [if_neg hff] at hkeeps
  rw [Bool.not_eq_true] at hff
  have hslow : (st.slowQuery cfg (textOf bytes) bytes).wp (pinning (needsHardPin (textOf bytes)) returns)
      (Held cfg) pin := pin_slowQuery hff hheld hhint hkeeps
  refine Prog.wp_ite (fun _ => hslow) fun _ => ?_
  rw [isFastForwardRule]
  simp only [Prog.wp_bind]
  refine ⟨trivial, fun m pin' h => ?_⟩
  obtain ⟨rfl, hm⟩ := h
  refine Prog.wp_ite (fun hrule => ?_) fun _ => hslow
  -- the rules do not send what is pinned, or has to be, to the primary
  obtain ⟨rfl, hhard⟩ := pin_free fun hneeds => by cases hrule.symm.trans (hm hneeds)
  rw [ruleFastForward]
  refine unpins_next (unpins_carries hhard (carries_hands routeFast_hands : Prog.Only (Carries [] _ []) _)) ?_
  exact fun r => pin_answer held_none r.2

/-! ### The other commands -/

omit hff

theorem pin_other {raw : Bytes} (h : st.Held cfg pin) :
    (st.other raw).wp (pinning hard returns) (Held cfg) pin := by
  rw [other]
  rw [Prog.wp_bind]
  refine pin_routeRawInner (fun c hc => (h c hc).1) fun txConn' r htx => ?_
  have hheld : ({ st with txConn := txConn' } : MysqlSession).Held cfg pin := fun c hc => ⟨htx c hc, (h c hc).2⟩
  exact pin_answer hheld r

theorem pin_settleStmt {r : Except Str Response} (h : st.Held cfg pin)
    (hstmt : ∀ c, pin = some c → st.stmtConn ≠ some c) :
    (st.settleStmt r).wp (pinning hard returns) (Held cfg) pin := by
  have hsent (sent : Bool) : (st.flushStmt sent).wp (pinning hard returns) (Held cfg) pin := by
    refine Prog.wp_ite (fun _ => ?_) fun _ => h
    refine stands_next rfl fun flushed => Prog.wp_ite (fun _ => ?_) fun _ => h
    exact Prog.wp_ite (fun _ => pin_releaseStmt hstmt h) fun _ => h
  rcases r with e | response
  · exact wp_stands rfl fun _ => hsent true
  · exact Prog.wp_ite (fun _ => hsent true) fun _ => wp_stands rfl hsent

theorem pin_stmt {raw : Bytes} (h : st.Held cfg pin) (hstmt : ∀ c, pin = some c → st.stmtConn ≠ some c) :
    (st.stmt raw).wp (pinning hard returns) (Held cfg) pin := by
  rw [stmt, Prog.wp_bind]
  refine pin_routeStmt ⟨fun c hc => (h c hc).1, hstmt⟩ fun st' r h' => ?_
  exact pin_settleStmt (fun c hc => ⟨h'.tx c hc, (h c hc).2⟩) h'.stmt

theorem pin_resetConnection (htx : ∀ c, pin = some c → st.txConn = some c)
    (hstmt : ∀ c, pin = some c → st.stmtConn ≠ some c) :
    st.resetConnection.wp (pinning hard true) (Held cfg) pin := by
  rw [resetConnection]
  dsimp only
  rw [Prog.wp_bind]
  refine pin_releaseStmt hstmt ?_
  rw [Prog.wp_bind]
  refine pin_releaseTx (.inl rfl) htx ?_
  rw [Prog.wp_bind]
  refine pin_releaseSticky unpinned_none ?_
  refine stands_next rfl fun sent => ?_
  exact held_none

theorem pin_cleanup (htx : ∀ c, pin = some c → st.txConn = some c) :
    st.cleanup.wp (pinning hard true) (Held cfg) pin := by
  rw [cleanup]
  rw [Prog.wp_bind]
  refine pin_releaseTx (.inl rfl) htx ?_
  rw [Prog.wp_bind]
  refine pin_releaseStmt unpinned_none ?_
  rw [Prog.wp_bind]
  exact pin_releaseSticky unpinned_none held_none

/-- **A turn keeps the pin**, when no query gives it up. -/
theorem pin_react {e : MysqlEvent} {p : Task MysqlSession} (hreact : st.react cfg e = some p)
    (hheld : st.Held cfg pin) (hstmt : ∀ c, pin = some c → st.stmtConn ≠ some c)
    (hhint : ∀ c, pin = some c → st.stickyHintConn ≠ some c)
    (hkeeps : ∀ bytes, e = .query bytes → (pin.isSome || needsHardPin (textOf bytes)) = true →
      if cfg.fastForward then st.inTransaction = true ∧ ffEnds (textOf bytes) = false
      else ends (textOf bytes) = false) :
    p.wp (pinning (SessionEvent.mysql e).hardPin (SessionEvent.mysql e).returnsAll) (Held cfg) pin := by
  have htx : ∀ c, pin = some c → st.txConn = some c := fun c hc => (hheld c hc).1
  obtain ⟨-, rfl⟩ := react_eq_some hreact
  cases e with
  | cleanup =>
    exact pin_cleanup htx
  | _ =>
    first
      | exact hheld
      | exact pin_resetConnection htx hstmt
      | exact pin_query hheld hhint (hkeeps _ rfl)
      | exact pin_stmt hheld hstmt
      | exact pin_other hheld
      | exact wp_stands rfl fun sent => by cases sent <;> exact hheld

end MysqlSession

/-! ## Runs -/

variable {srv : Server} {cfg : ProxyConfig}

/-- A state of the proxy and its record. -/
abbrev PinnedState (srv : Server) := Sys Op Res (World srv × (Nat → Option ConnId)) Session SessionEvent

namespace Session

/-- The protocol of the MySQL sessions; the others have no pins to keep. -/
def pinned : Session → SessionEvent → Protocol Op Res (Option ConnId)
  | .mysql _, m => pinning m.hardPin m.returnsAll
  | .pg _, _ => .free

/-- An idle session keeps to its pin. -/
def HoldsPin (cfg : ProxyConfig) (pin : Option ConnId) : Session → Prop
  | .mysql st => st.Held cfg.mysql pin
  | .pg _ => True

/-- The query does not give the pin up: neither a COMMIT or ROLLBACK of a pinned session nor, under
fast-forward, anything outside a transaction. -/
def keepsPin (cfg : ProxyConfig) (pin : Option ConnId) : Session → SessionEvent → Bool
  | .mysql st, .mysql (.query bytes) =>
    !(pin.isSome || needsHardPin (textOf bytes)) ||
      if cfg.mysql.fastForward then st.inTransaction && !MysqlSession.ffEnds (textOf bytes)
      else !MysqlSession.ends (textOf bytes)
  | _, _ => true

theorem pin_task {g : Hold srv} {pin : Option ConnId} {st : Session} {m : SessionEvent} {p : Task Session}
    (hlax : st.Lax .none g) (hheld : st.HoldsPin cfg pin) (hok : st.keepsPin cfg pin m = true)
    (hreact : st.react cfg m = some p) : p.wp (st.pinned m) (fun st' pin' => st'.HoldsPin cfg pin') pin := by
  cases st with
  | pg st =>
    obtain ⟨e, q, rfl, -, rfl⟩ := Session.react_pg hreact
    rw [Prog.wp_bind]
    exact q.wp_free pin
  | mysql st =>
    obtain ⟨e, q, rfl, hq, rfl⟩ := Session.react_mysql hreact
    rw [Prog.wp_bind]
    have hkeeps : ∀ bytes, e = .query bytes → (pin.isSome || needsHardPin (textOf bytes)) = true →
        if cfg.mysql.fastForward then st.inTransaction = true ∧ MysqlSession.ffEnds (textOf bytes) = false
        else MysqlSession.ends (textOf bytes) = false := by
      rintro bytes rfl hneeds
      simp only [keepsPin, hneeds, Bool.not_true, Bool.false_or] at hok
      split
      · rename_i hff
        simpa [hff] using hok
      · rename_i hff
        simpa [hff] using hok
    -- no connection is in two variables
    have howns := hlax.1
    have htx : ∀ c, pin = some c → st.txConn = some c := fun c hc => (hheld c hc).1
    refine MysqlSession.pin_react hq hheld (fun c hc hstmt => ?_) (fun c hc hhint => ?_) hkeeps
    · cases howns.apart .txConn .stmtConn ⟨c, _⟩ ⟨c, _⟩ (congrArg (Option.map _) (htx c hc))
        (congrArg (Option.map _) hstmt) rfl
    · cases howns.apart .txConn .stickyConn ⟨c, _⟩ ⟨c, _⟩ (congrArg (Option.map _) (htx c hc))
        (congrArg (Option.map _) hhint) rfl

theorem pinned_react {g : Hold srv} {pin : Option ConnId} {st : Session} {m : SessionEvent} {p : Task Session}
    (hlax : st.Lax .none g) (hheld : st.HoldsPin cfg pin) (hok : st.keepsPin cfg pin m = true)
    (hreact : st.react cfg m = some p) :
    p.wp ((Rules.lax srv .none).contract.both (st.pinned m))
      (fun st' g' => st'.Lax .none g'.1 ∧ st'.HoldsPin cfg g'.2) (g, pin) := by
  have hpin : p.wp (st.pinned m) (fun st' pin' => st'.HoldsPin cfg pin') pin := pin_task hlax hheld hok hreact
  exact Prog.wp_both (Session.lax_react hlax hreact fun _ h => h.elim) hpin

end Session

/-- The answer leaves the pin alone: no rule sends a pinned query to the primary by fast-forward, and
none puts a query that needs a pin in another's place. -/
def answerKeepsPin (pin : Option ConnId) (hard : Bool) : (o : Op) → In o → Bool
  | .matchQuery .., m => !(pin.isSome || hard) || !(m : Option RuleMatch).elim false (·.fastForward)
  | .rewrite _, outcome =>
    match (outcome : RewriteOutcome) with
    | .rewritten s => !needsHardPin (textOf (toUtf8 s))
    | _ => true
  | _, _ => true

namespace World

variable {w w' : World srv} {i : Nat} {pins : Nat → Option ConnId}

/-- The pinned connections are checked out. -/
def Backs (w : World srv) (pins : Nat → Option ConnId) : Prop :=
  ∀ i c, pins i = some c → ∃ conn, w.hold i c = some conn

/-- A connection that is checked out was not pinned. -/
theorem Kept.pin_step {o : Op} {inp : In o} {r : Res o} {pin : Option ConnId} {hard returns : Bool}
    (h : Kept (Rules.lax srv .none) w w' i o r) (hh : w.handle i o inp = some (w', r))
    (hok : answerKeepsPin pin hard o inp = true) (hb : ∀ c, pin = some c → ∃ conn, w.hold i c = some conn) :
    (pinning hard returns).step pin o r (pinAfter pin o inp) := by
  cases o with
  | get o db =>
    rcases r with e | c
    · exact rfl
    · obtain ⟨hnone, -⟩ := h.step
      refine ⟨rfl, fun hc => ?_⟩
      obtain ⟨conn, hconn⟩ := hb c hc
      cases hnone.symm.trans hconn
  | talk who via c p limit =>
    cases who with
    | client =>
      simp only [pinAfter]
      split
      · rename_i hpins
        rw [Bool.and_eq_true] at hpins
        exact .inr ⟨hpins.1, rfl⟩
      · exact .inl rfl
    | _ => exact rfl
  | matchQuery sql user schema =>
    obtain ⟨rfl, rfl⟩ := Prod.mk.inj (Option.some.inj hh)
    refine ⟨rfl, fun hneeds => ?_⟩
    simpa [answerKeepsPin, hneeds] using hok
  | rewrite sql =>
    obtain ⟨rfl, rfl⟩ := Prod.mk.inj (Option.some.inj hh)
    refine ⟨rfl, fun s hs => ?_⟩
    simpa [answerKeepsPin, hs] using hok
  | _ => exact rfl

/-- What is pinned after an operation is checked out. -/
theorem Kept.pin_backed {o : Op} {inp : In o} {r : Res o} {pin : Option ConnId}
    (h : Kept (Rules.lax srv .none) w w' i o r) (hb : ∀ c, pin = some c → ∃ conn, w.hold i c = some conn) :
    ∀ c, pinAfter pin o inp = some c → ∃ conn, w'.hold i c = some conn := by
  have hstep := h.step
  have hends (c : ConnId) (hhold : w'.hold i = Function.update (w.hold i) c none) :
      ∀ c', (if pin = some c then none else pin) = some c' → ∃ conn, w'.hold i c' = some conn := by
    intro c' hc'
    split at hc'
    · cases hc'
    · rename_i hne
      have hother : c' ≠ c := by
        rintro rfl
        exact hne hc'
      rw [hhold, Function.update_of_ne hother]
      exact hb c' hc'
  have hadds (c : ConnId) (conn : Conn srv) (hhold : w'.hold i = Function.update (w.hold i) c (some conn)) :
      ∀ c', (pin = some c' ∨ c' = c) → ∃ conn, w'.hold i c' = some conn := by
    intro c' hc'
    rw [hhold]
    by_cases hc : c' = c
    · exact ⟨conn, by rw [hc, Function.update_self]⟩
    · rw [Function.update_of_ne hc]
      exact hb c' (hc'.resolve_right hc)
  have hsame (hhold : w'.hold i = w.hold i) : ∀ c, pin = some c → ∃ conn, w'.hold i c = some conn :=
    fun c hc => hhold ▸ hb c hc
  cases o with
  | get o db =>
    rcases r with e | c
    · exact hsame hstep.1
    · obtain ⟨-, conn, hhold, -⟩ := hstep
      exact fun c' hc' => hadds c conn hhold c' (.inl hc')
  | put o c db => exact hends c hstep
  | drop exit c => exact hends c hstep
  | talk who via c p limit =>
    obtain ⟨-, conn, -, hhold, -⟩ := hstep
    cases who with
    | client =>
      simp only [pinAfter]
      split
      · intro c' hc'
        refine hadds c conn hhold c' ?_
        rcases pin with _ | c₀
        · exact .inr (Option.some.inj hc').symm
        · exact .inl hc'
      · exact fun c' hc' => hadds c conn hhold c' (.inl hc')
    | _ => exact fun c' hc' => hadds c conn hhold c' (.inl hc')
  | readPool => exact hsame hstep.1
  | loadGr gen => exact hsame hstep.1
  | loadFailover gen => exact hsame hstep.1
  | primaryAllows gen => exact hsame hstep.1
  | cacheGet key =>
    rcases r with _ | b
    · exact hsame hstep
    · exact hsame hstep.1
  | _ => exact hsame hstep

end World

/-! ## The theorem -/

/-- The steps that leave the pins alone. -/
def keepsPins (cfg : ProxyConfig) (s : PinnedState srv) : ProxyEvent → Bool
  | .msg i m =>
    match s.thread i with
    | .idle st => st.keepsPin cfg (s.world.2 i) m
    | _ => true
  | .op i inp =>
    match s.thread i with
    | .busy (.mysql _) m (.op o _) => answerKeepsPin (s.world.2 i) m.hardPin o (inp o)
    | _ => true
  | .env _ | .stop _ => true

/-- The sessions keep to their pins. -/
def pinOutline (srv : Server) (cfg : ProxyConfig) :
    Outline (pinnedProxy srv cfg) (fun s e => keepsPins cfg s e = true) (Hold srv × Option ConnId) where
  inv w := w.1.Coherent ∧ w.1.Backs w.2
  hold w i := (w.1.hold i, w.2 i)
  proto _ st m := (Rules.lax srv .none).contract.both (st.pinned m)
  idle _ g st := st.Lax .none g.1 ∧ st.HoldsPin cfg g.2
  msg_ok {s i st m p} _ hi hidle hok hreact := by
    simp only [keepsPins, hi] at hok
    exact Session.pinned_react hidle.1 hidle.2 hok hreact
  op_ok {s i st m o k inp w' r} hinv hi _ hok hh := by
    obtain ⟨⟨w₁, r₁⟩, hw, heq⟩ := Option.map_eq_some_iff.mp hh
    obtain ⟨rfl, rfl⟩ := Prod.mk.inj heq
    have hkept := World.handle_kept (R := Rules.lax srv .none) hinv.1 (fun _ _ _ _ _ => trivial) hw
      (World.allows_lax (fun h => h.elim) hw)
    refine ⟨⟨hkept.coherent, fun j c hc => ?_⟩, rfl, rfl, ⟨hkept.step, ?_⟩, fun j hj => ?_⟩
    · dsimp only at hc ⊢
      by_cases hj : j = i
      · subst hj
        rw [Function.update_self] at hc
        exact hkept.pin_backed (hinv.2 j) c hc
      · rw [Function.update_of_ne hj] at hc
        rw [hkept.others j hj]
        exact hinv.2 j c hc
    · dsimp only
      rw [Function.update_self]
      cases st with
      | pg st => trivial
      | mysql st =>
        simp only [keepsPins, hi] at hok
        exact hkept.pin_step hw hok (hinv.2 i)
    · dsimp only
      rw [hkept.others j hj, Function.update_of_ne hj]
  env_ok {s e w'} hinv _ he := by
    obtain ⟨w₁, hw, rfl⟩ := Option.map_eq_some_iff.mp he
    have hhold := World.act_hold hw
    refine ⟨⟨World.act_coherent hinv.1 hw, fun i c hc => ?_⟩, fun j => by rw [hhold], .inl ⟨rfl, rfl⟩⟩
    rw [hhold]
    exact hinv.2 i c hc
  stop_ok {s i w' st} hinv _ hst := by
    cases hst
    refine ⟨⟨World.stop_coherent hinv.1, fun j c hc => ?_⟩, rfl, rfl, ⟨Session.lax_absent, ?_⟩, fun j hj => ?_⟩
    · have hne : j ≠ i := by
        rintro rfl
        cases hc.symm.trans (Function.update_self ..)
      rw [World.stop_hold_of_ne hne]
      exact hinv.2 j c ((Function.update_of_ne hne ..).symm.trans hc)
    · dsimp only
      rw [Function.update_self]
      exact MysqlSession.held_none
    · dsimp only
      rw [World.stop_hold_of_ne hj, Function.update_of_ne hj]

/-- The proxy that has just started: nothing is pinned. -/
def pinnedStart (srv : Server) (primary : PoolConfig) (replicas : List PoolConfig) (clients : List Client) :
    PinnedState srv :=
  ⟨(.new srv primary replicas, fun _ => none), fun i => .idle (clients[i]?.elim .absent Client.session)⟩

theorem pinOutline_start (primary : PoolConfig) (replicas : List PoolConfig) (clients : List Client) :
    (pinOutline srv cfg).Good (pinnedStart srv primary replicas clients) := by
  have hstart : (laxOutline srv cfg fun _ _ => True).Good (proxyStart srv primary replicas clients) :=
    laxOutline_start _ primary replicas clients
  refine ⟨⟨hstart.1, nofun⟩, fun i => ⟨hstart.2 i, ?_⟩⟩
  dsimp only [pinOutline, pinnedStart]
  cases clients[i]?.elim Session.absent Client.session with
  | mysql st => exact MysqlSession.held_none
  | pg st => trivial

/-- Pins last: a text query of a MySQL session goes to the connection it is pinned to, and only a reset or the
end of the session returns that connection. -/
def PinsLast (s : PinnedState srv) : Prop :=
  ∀ i c st m o k, s.world.2 i = some c → s.thread i = .busy (.mysql st) m (.op o k) →
    (∀ via c' sql limit, o = .talk .client via c' (.text sql) limit → c' = c) ∧
      ∀ origin db, o = .put origin c db → m.returnsAll = true

/-- **Pins last** along every run on which no COMMIT or ROLLBACK of a pinned session, no fast-forward and no
rewrite rule gets in the way. -/
theorem pins_last {primary : PoolConfig} {replicas : List PoolConfig} {clients : List Client}
    {es : List ProxyEvent} {s : PinnedState srv}
    (hrun : Steps (pinnedProxy srv cfg).step (fun s e => keepsPins cfg s e = true)
      (pinnedStart srv primary replicas clients) es s) : PinsLast s := by
  intro i c st m o k hpin hi
  have howes := ((pinOutline srv cfg).steps hrun (pinOutline_start primary replicas clients)).owes hi
  obtain ⟨-, howes⟩ := howes
  refine ⟨?_, ?_⟩
  · rintro via c' sql limit rfl
    exact (howes c hpin).symm
  · rintro origin db rfl
    exact howes.resolve_right fun hne => hne hpin

/-- A user variable is set; the session is about to send the query that reads it. -/
def readsVariable : List ProxyEvent := mysqlQuery 0 "SET @x = 1" 10 ++ mysqlQuery 0 "SELECT @x" 2

theorem pins_last_readsVariable :
    ∃ s, run (pinnedProxy .mysql smallConfig).step (pinnedStart .mysql smallPool [] [mysqlClient]) readsVariable =
        some s ∧
      s.world.2 0 = some 0 ∧ PinsLast s := by
  obtain ⟨s, hs⟩ := Option.isSome_iff_exists.mp (show (run (fun s e =>
    if keepsPins smallConfig s e then (pinnedProxy .mysql smallConfig).step s e else none)
    (pinnedStart .mysql smallPool [] [mysqlClient]) readsVariable).isSome = true by decide +kernel)
  have hsteps := steps_of_checked (fun _ _ h => h) hs
  have hpin : (run (pinnedProxy .mysql smallConfig).step (pinnedStart .mysql smallPool [] [mysqlClient])
      readsVariable).map (fun s => s.world.2 0) = some (some 0) := by
    decide +kernel
  rw [hsteps.run] at hpin
  exact ⟨s, hsteps.run, Option.some.inj hpin, pins_last hsteps⟩

/-- A user variable is set, then a transaction that was never begun is committed. -/
def commitsPinned : List ProxyEvent := mysqlQuery 0 "SET @x = 1" 10 ++ mysqlQuery 0 "COMMIT" 6

/-- Session `i` is about to return the connection it is pinned to, with its clean-up still to come. -/
def givesPinUp (s : PinnedState srv) (i : Nat) : Bool :=
  match s.thread i with
  | .busy (.mysql _) m (.op (.put _ c _) _) => s.world.2 i == some c && !m.returnsAll
  | _ => false

/-- COMMIT returns `tx_conn`, whatever the pin. -/
theorem commit_unpins : ¬ ∀ (srv : Server) (cfg : ProxyConfig) (primary : PoolConfig) (replicas : List PoolConfig)
    (clients : List Client) (es : List ProxyEvent) (s : PinnedState srv), cfg.mysql.fastForward = false →
    run (pinnedProxy srv cfg).step (pinnedStart srv primary replicas clients) es = some s → PinsLast s := by
  intro h
  have hend : (run (pinnedProxy .mysql smallConfig).step (pinnedStart .mysql smallPool [] [mysqlClient])
      commitsPinned).map (givesPinUp · 0) = some true := by
    decide +kernel
  obtain ⟨s, hs, hgives⟩ := Option.map_eq_some_iff.mp hend
  have hlast : PinsLast s := h _ _ _ _ _ _ s rfl hs
  rw [givesPinUp] at hgives
  split at hgives
  · rename_i hi
    rw [Bool.and_eq_true, Bool.not_eq_true', beq_iff_eq] at hgives
    cases hgives.2.symm.trans ((hlast 0 _ _ _ _ _ hgives.1 hi).2 _ _ rfl)
  · cases hgives

end TurbineProxy
