import TurbineProxy.TxTimers

/-!
# Transactions that are killed for idleness

`max_transaction_idle_ms` of `server.rs`. The session keeps the time of the last query of its transaction in
`last_query_in_tx`, which a COMMIT, a ROLLBACK, an idle kill, a reset and a lost backend forget. The time
limit (`max_transaction_time_ms`) and a BEGIN do not, and a prepared statement that is executed leaves it
as it is.

A `Watch` stands beside the session and sees what it does, and when. It has its own record of the open
transaction, and of the kills. A session runs against arbitrary surroundings: whatever the backends, the
rules and the client's socket answer, and however long that takes.
-/

namespace TurbineProxy

open Str

/-! ## The watch -/

/-- A transaction as its client knows it. -/
structure OpenTx where
  /-- when its BEGIN came -/
  began : Nat
  /-- when its last statement was sent to the backend -/
  last : Option Nat
  deriving DecidableEq

/-- The last statement, or the BEGIN if there is none. -/
def OpenTx.since (tx : OpenTx) : Nat := tx.last.getD tx.began

/-- A kill for idleness, and the transaction it hit. -/
structure IdleKill where
  /-- when the client was told -/
  time : Nat
  /-- the transaction -/
  tx : Option OpenTx
  deriving DecidableEq

/-- The transaction has been idle for longer than the limit. -/
def IdleKill.Fair (limit : Nat) (kill : IdleKill) : Prop := ∃ tx, kill.tx = some tx ∧ limit < kill.time - tx.since

/-- What there is to see of a session from the outside. -/
structure Watch where
  /-- the time of its last operation -/
  clock : Nat
  /-- the operations of this turn so far -/
  done : Nat
  /-- the open transaction -/
  tx : Option OpenTx
  /-- the kills so far -/
  kills : List IdleKill

/-- Nothing has happened yet. -/
def Watch.new : Watch := ⟨0, 0, none, []⟩

/-- The command executes a prepared statement. -/
def MysqlEvent.executes : MysqlEvent → Bool
  | .stmt raw => raw.head? == some Com.stmtExecute
  | _ => false

/-- The command carries a statement: a query, or the execution of a prepared one. -/
def MysqlEvent.states : MysqlEvent → Bool
  | .query _ => true
  | e => e.executes

/-- The command is a query that begins a transaction. -/
def MysqlEvent.begins : MysqlEvent → Bool
  | .query bytes => MysqlSession.begins (textOf bytes)
  | _ => false

namespace Watch

variable (cfg : MysqlConfig) (w : Watch)

/-- A command arrives. A BEGIN starts a transaction, even in the middle of another one. -/
def arrive (e : MysqlEvent) (time : Nat) : Watch :=
  { w with
    clock := time
    done := 0
    tx := if e.begins then some ⟨time, none⟩ else w.tx }

/-- An operation of the session is performed. -/
def after (e : MysqlEvent) (time : Nat) : Op → Watch
  | .talk .client .. =>
    { w with
      clock := time
      done := w.done + 1
      tx := if e.states then w.tx.map fun tx => { tx with last := some time } else w.tx }
  | .toClient (.error "1205" msg) =>
    { w with
      clock := time
      done := w.done + 1
      kills := if msg = MysqlSession.idleLimitError cfg then ⟨time, w.tx⟩ :: w.kills else w.kills }
  | _ => { w with clock := time, done := w.done + 1 }

/-- The command is done; the transaction ends with the session's flag. -/
def leave (st : MysqlSession) : Watch := { w with tx := if st.inTransaction then w.tx else none }

end Watch

/-! ## Runs -/

/-- How the surroundings deal with one operation. -/
structure Moment where
  /-- how long it takes -/
  delay : Nat
  /-- how they answer it -/
  answer : (o : Op) → Res o

/-- A session that looks at the clock sees the time. -/
def Moment.reply (m : Moment) (time : Nat) : (o : Op) → Res o
  | .now => time
  | o => m.answer o

/-- A command, and how it goes. -/
structure Episode where
  /-- the command -/
  event : MysqlEvent
  /-- how long the client waits before it -/
  wait : Nat
  /-- its operations, one after the other -/
  moments : Nat → Moment

namespace MysqlSession

/-- One operation under the eyes of the watch. -/
def watched (cfg : MysqlConfig) (turn : Episode) (w : Watch) (o : Op) : Watch × Res o :=
  let moment := turn.moments w.done
  let time := w.clock + moment.delay
  (w.after cfg turn.event time o, moment.reply time o)

/-- One turn of a session. -/
def turn (cfg : MysqlConfig) (s : MysqlSession × Watch) (t : Episode) : Option (MysqlSession × Watch) :=
  (s.1.react cfg t.event).map fun p =>
    let r := p.runWith (watched cfg t) (s.2.arrive t.event (s.2.clock + t.wait))
    (r.2, r.1.leave r.2)

variable {cfg : MysqlConfig} {st : MysqlSession}

/-! ## The invariant -/

/-- What an operation may do to the watch. -/
def watching (cfg : MysqlConfig) (e : MysqlEvent) : Protocol Op Res Watch where
  owes _ _ := True
  step w o r w' := ∃ time, w.clock ≤ time ∧ w' = w.after cfg e time o ∧
    match o, r with
    | .now, now => now = time
    | _, _ => True

/-- The kills so far were fair, and the watch knows of the transaction the session is in. -/
structure Seen (cfg : MysqlConfig) (st : MysqlSession) (w : Watch) : Prop where
  /-- the kills -/
  kills : ∀ kill ∈ w.kills, kill.Fair cfg.maxTransactionIdleMs
  /-- nothing has happened later than now -/
  clock : ∀ tx, w.tx = some tx → tx.since ≤ w.clock
  /-- the transaction -/
  opened : st.txStart ≠ none → cfg.fastForward = false ∧ st.inTransaction = true ∧ w.tx ≠ none

/-- And its idle clock is not behind. -/
structure Timed (cfg : MysqlConfig) (st : MysqlSession) (w : Watch) : Prop extends Seen cfg st w where
  /-- the idle clock -/
  last : 0 < cfg.maxTransactionIdleMs → st.txStart ≠ none → ∀ t tx, st.lastQueryInTx = some t → w.tx = some tx →
    tx.since ≤ t

section Steps

variable {e : MysqlEvent} {w w' : Watch} {st' : MysqlSession}

/-- A kill is entered with the transaction it hits. -/
theorem after_killed {msg : Str} {time : Nat} : w.after cfg e time (.toClient (.error "1205" msg)) =
    { w with
      clock := time
      done := w.done + 1
      kills := if msg = idleLimitError cfg then ⟨time, w.tx⟩ :: w.kills else w.kills } := by
  rw [Watch.after]

/-- A tame operation only takes time. -/
theorem after_tame {o : Op} {time : Nat} (ho : Tame o) :
    w.after cfg e time o = { w with clock := time, done := w.done + 1 } := by
  unfold Watch.after
  split
  · cases ho
  · cases ho
  · rfl

/-- A mild one may be a statement. -/
theorem after_mild (cfg : MysqlConfig) (e : MysqlEvent) (w : Watch) {o : Op} (time : Nat) (ho : Mild o) :
    (w.after cfg e time o).kills = w.kills ∧ (w.after cfg e time o).clock = time ∧
    ((w.after cfg e time o).tx = w.tx ∨
      e.states = true ∧ (w.after cfg e time o).tx = w.tx.map fun tx => { tx with last := some time }) := by
  unfold Watch.after
  split
  · refine ⟨rfl, rfl, ?_⟩
    dsimp only
    split
    · rename_i hstates
      exact .inr ⟨hstates, rfl⟩
    · exact .inl rfl
  · cases ho
  · exact ⟨rfl, rfl, .inl rfl⟩

theorem Seen.mild {o : Op} {r : Res o} (ho : Mild o) (h : Seen cfg st w) (hs : (watching cfg e).step w o r w') :
    Seen cfg st w' := by
  obtain ⟨time, htime, rfl, -⟩ := hs
  obtain ⟨hkills, hclock, htx⟩ := after_mild cfg e w time ho
  refine ⟨by rw [hkills]; exact h.kills, fun tx h' => ?_, fun hstart => ?_⟩
  · rw [hclock]
    rcases htx with htx | ⟨-, htx⟩
    · exact Nat.le_trans (h.clock tx (htx ▸ h')) htime
    · rw [htx] at h'
      obtain ⟨tx₀, -, rfl⟩ := Option.map_eq_some_iff.mp h'
      exact Nat.le_refl _
  · obtain ⟨hfast, hflag, hopen⟩ := h.opened hstart
    refine ⟨hfast, hflag, ?_⟩
    rcases htx with htx | ⟨-, htx⟩
    · rw [htx]
      exact hopen
    · rw [htx, Ne, Option.map_eq_none_iff]
      exact hopen

/-- As long as no statement is sent, the idle clock need not move. -/
theorem Timed.mild {o : Op} {r : Res o} (ho : Mild o) (hquiet : Tame o ∨ e.states = false) (h : Timed cfg st w)
    (hs : (watching cfg e).step w o r w') : Timed cfg st w' := by
  refine ⟨h.toSeen.mild ho hs, fun hidle hstart t tx ht htx => ?_⟩
  obtain ⟨time, -, rfl, -⟩ := hs
  have hsame : (w.after cfg e time o).tx = w.tx := by
    rcases hquiet with htame | hstates
    · rw [after_tame htame]
    · obtain hsame | ⟨hstates', -⟩ := (after_mild cfg e w time ho).2.2
      · exact hsame
      · cases hstates.symm.trans hstates'
  exact h.last hidle hstart t tx ht (hsame ▸ htx)

theorem Seen.rests (h : Seen cfg st w) (hrests : Rests st st') : Seen cfg st' w := by
  refine ⟨h.kills, h.clock, fun hstart => ?_⟩
  have htimers := hrests.resolve_right hstart
  simp only [timers, Prod.mk.injEq] at htimers
  obtain ⟨hfast, hflag, hopen⟩ := h.opened (htimers.1 ▸ hstart)
  exact ⟨hfast, htimers.2.2.trans hflag, hopen⟩

theorem Timed.rests (h : Timed cfg st w) (hrests : Rests st st') : Timed cfg st' w := by
  refine ⟨h.toSeen.rests hrests, fun hidle hstart t tx ht => ?_⟩
  have htimers := hrests.resolve_right hstart
  simp only [timers, Prod.mk.injEq] at htimers
  exact h.last hidle (htimers.1 ▸ hstart) t tx (htimers.2.1 ▸ ht)

/-- An idle clock that nobody looks at is never behind. -/
theorem Seen.timed (h : Seen cfg st w)
    (hnone : cfg.maxTransactionIdleMs = 0 ∨ st.lastQueryInTx = none ∨ st.txStart = none) : Timed cfg st w := by
  refine ⟨h, fun hidle hstart t tx ht => ?_⟩
  rcases hnone with hzero | hlast | hover
  · exact absurd hidle (hzero ▸ Nat.lt_irrefl 0)
  · cases hlast.symm.trans ht
  · exact absurd hover hstart

/-- What keeps what the watch has seen. -/
theorem seen_mild (o : Op) (ho : Mild o) (w : Watch) (h : Seen cfg st w) :
    (watching cfg e).owes w o ∧ ∀ r w', (watching cfg e).step w o r w' → Seen cfg st w' :=
  ⟨trivial, fun _ _ hs => h.mild ho hs⟩

/-- What keeps the idle clock right as well. -/
theorem timed_tame (o : Op) (ho : Tame o) (w : Watch) (h : Timed cfg st w) :
    (watching cfg e).owes w o ∧ ∀ r w', (watching cfg e).step w o r w' → Timed cfg st w' :=
  ⟨trivial, fun _ _ hs => h.mild ho.mild (.inl ho) hs⟩

/-- A program that sends statements when there is no idle clock to move. -/
theorem wp_mild {p : Task MysqlSession} (hp : p.Does Mild (Rests st)) (h : Seen cfg st w)
    (hnone : cfg.maxTransactionIdleMs = 0 ∨ st.lastQueryInTx = none ∨ st.txStart = none) :
    p.wp (watching cfg e) (Timed cfg) w :=
  Prog.wp_mono (Prog.wp_does seen_mild hp h) fun _ _ h' => (h'.2.timed hnone).rests h'.1

/-- A program that sends none. -/
theorem wp_quiet {p : Task MysqlSession} (hp : p.Does Mild (Rests st)) (hquiet : e.states = false)
    (h : Timed cfg st w) : p.wp (watching cfg e) (Timed cfg) w := by
  have hkeeps : ∀ o, Mild o → ∀ w, Timed cfg st w →
      (watching cfg e).owes w o ∧ ∀ r w', (watching cfg e).step w o r w' → Timed cfg st w' :=
    fun o ho w h => ⟨trivial, fun r w' hs => h.mild ho (.inr hquiet) hs⟩
  exact Prog.wp_mono (Prog.wp_does hkeeps hp h) fun _ _ h' => h'.2.rests h'.1

/-- A program that only takes time. -/
theorem wp_tame {p : Task MysqlSession} (hp : p.Does Tame (Rests st)) (h : Timed cfg st w) :
    p.wp (watching cfg e) (Timed cfg) w :=
  Prog.wp_mono (Prog.wp_does timed_tame hp h) fun _ _ h' => h'.2.rests h'.1

end Steps

/-! ## A query -/

section Query

variable {e : MysqlEvent} {w : Watch} {q : Query}

/-- After its query a transaction has been idle for no time at all. -/
theorem timed_touchTx (h : Seen cfg st w) : st.touchTx.wp (watching cfg e) (Timed cfg) w := by
  refine Prog.wp_ite (fun _ => ⟨trivial, fun now w' hs => ?_⟩) fun hstart => ?_
  · have h' : Seen cfg st w' := h.mild rfl hs
    obtain ⟨time, -, rfl, rfl⟩ := hs
    refine ⟨⟨h'.kills, h'.clock, h'.opened⟩, fun _ _ t tx ht htx => ?_⟩
    obtain rfl := Option.some.inj ht
    exact h'.clock tx htx
  · exact h.timed (.inr (.inr (Option.not_isSome_iff_eq_none.mp hstart)))

theorem timed_afterRoute (r : Except Str Response) (h : Seen cfg st w) :
    (st.afterRoute cfg q r).wp (watching cfg e) (Timed cfg) w := by
  have hrest : ∀ st₁ w₁, Seen cfg st₁ w₁ → ((do
      let st ← st₁.touchTx
      st.settle cfg q r) : Task MysqlSession).wp (watching cfg e) (Timed cfg) w₁ := by
    intro st₁ w₁ h₁
    rw [Prog.wp_bind]
    refine Prog.wp_mono (timed_touchTx h₁) fun st₂ w₂ h₂ => ?_
    cases r with
    | ok response => exact wp_tame (rests_afterResponse q response) h₂
    | error err => exact wp_tame (rests_afterError q err) h₂
  rw [afterRoute, Prog.wp_bind]
  refine Prog.wp_ite (fun _ => ⟨trivial, fun now w₁ hs => ?_⟩) fun _ => hrest st w h
  exact hrest _ w₁ ((h.mild rfl hs).rests (.inl rfl))

theorem timed_routeNormally (ryowActive : Bool) (h : Seen cfg st w) :
    (st.routeNormally cfg q ryowActive).wp (watching cfg e) (Timed cfg) w := by
  rw [routeNormally, Prog.wp_bind]
  refine Prog.wp_mono (Prog.wp_does seen_mild mild_routeQueryInner.does h) fun r w₁ h₁ => ?_
  exact timed_afterRoute r.2 (h₁.2.rests (.inl rfl))

/-- The hint is for sessions without a transaction. -/
theorem timed_routeHinted (ryowActive : Bool) (hnone : st.txStart = none) (h : Seen cfg st w) :
    (st.routeHinted cfg q ryowActive).wp (watching cfg e) (Timed cfg) w := by
  rw [routeHinted, Prog.wp_bind]
  refine Prog.wp_mono (Prog.wp_does seen_mild (mild_exchanges exchanges_routeStickyQuery).does h) fun r w₁ h₁ => ?_
  have hseen : ∀ st₁ : MysqlSession, st₁.txStart = none → Seen cfg st₁ w₁ := fun st₁ hst₁ => h₁.2.rests (.inr hst₁)
  dsimp only
  split
  · exact wp_tame (rests_answer _) (Seen.timed (hseen _ hnone) (.inr (.inr hnone)))
  · refine Prog.wp_ite (fun _ => ?_) fun _ => ?_
    · split
      · refine ⟨trivial, fun _ w₂ hs => timed_routeNormally ryowActive ?_⟩
        exact ((hseen st hnone).mild rfl hs).rests (.inr hnone)
      · exact timed_routeNormally ryowActive (hseen _ hnone)
    · have htimed : Timed cfg st w₁ := (hseen st hnone).timed (.inr (.inr hnone))
      exact wp_tame ⟨rfl, fun _ => ⟨rfl, fun _ => .inr hnone⟩⟩ htimed

theorem timed_routeAllowed (ryowActive : Bool) (h : Seen cfg st w) :
    (st.routeAllowed cfg q ryowActive).wp (watching cfg e) (Timed cfg) w := by
  rw [routeAllowed, Prog.wp_bind]
  have hhint : (st.applyHint q.sql).Does Mild (Rests st) :=
    (rests_applyHint q.sql).mono (fun _ ho => ho.mild) fun _ h => h
  refine Prog.wp_mono (Prog.wp_does seen_mild hhint h) fun st₁ w₁ h₁ => ?_
  have h₂ : Seen cfg st₁ w₁ := h₁.2.rests h₁.1
  refine Prog.wp_ite (fun hactive => timed_routeHinted ryowActive ?_ h₂) fun _ => timed_routeNormally ryowActive h₂
  -- a session in a transaction does not follow its hint
  by_contra hstart
  simp [effectiveInTx, (h₂.opened hstart).2.1] at hactive

/-- The idle clock has run out. -/
def Overdue (cfg : MysqlConfig) (st : MysqlSession) (w : Watch) : Prop :=
  0 < cfg.maxTransactionIdleMs ∧ st.txStart ≠ none ∧
    ∃ t, st.lastQueryInTx = some t ∧ cfg.maxTransactionIdleMs < w.clock - t

theorem Overdue.tame {o : Op} {r : Res o} {w' : Watch} (ho : Tame o) (h : Overdue cfg st w)
    (hs : (watching cfg e).step w o r w') : Overdue cfg st w' := by
  obtain ⟨time, htime, rfl, -⟩ := hs
  obtain ⟨hidle, hstart, t, ht, hlt⟩ := h
  refine ⟨hidle, hstart, t, ht, ?_⟩
  rw [after_tame ho]
  exact Nat.lt_of_lt_of_le hlt (Nat.sub_le_sub_right htime t)

theorem wp_watched_overIdle (h : Timed cfg st w) : (st.overIdle cfg).wp (watching cfg e)
    (fun stale w' => Timed cfg st w' ∧ (stale = true → Overdue cfg st w')) w := by
  rw [overIdle]
  split
  · rename_i t heq
    obtain ⟨⟨hidle, hstart⟩, ht⟩ := Option.ite_none_right_eq_some.mp heq
    refine ⟨trivial, fun now w' hs => ⟨h.mild rfl (.inl rfl) hs, fun hstale => ?_⟩⟩
    obtain ⟨time, -, rfl, rfl⟩ := hs
    exact ⟨hidle, Option.isSome_iff_ne_none.mp hstart, t, ht, of_decide_eq_true hstale⟩
  · exact ⟨h, fun hstale => absurd hstale Bool.false_ne_true⟩

/-- **A kill is fair** when the idle clock is not behind. -/
theorem timed_killIdle (h : Timed cfg st w) (hover : Overdue cfg st w) :
    (killTx { st with lastQueryInTx := none } .txIdleLimit (idleLimitError cfg)).wp (watching cfg e) (Timed cfg) w := by
  have hkeeps : ∀ o, Tame o → ∀ w, Timed cfg st w ∧ Overdue cfg st w → (watching cfg e).owes w o ∧
      ∀ r w', (watching cfg e).step w o r w' → Timed cfg st w' ∧ Overdue cfg st w' :=
    fun o ho w h => ⟨trivial, fun r w' hs => ⟨h.1.mild ho.mild (.inl ho) hs, h.2.tame ho hs⟩⟩
  rw [killTx, Prog.wp_bind]
  refine Prog.wp_mono (Prog.wp_does hkeeps (rests_dropTx _) ⟨h, hover⟩) fun st₁ w₁ ⟨hst₁, h₁, hover₁⟩ => ?_
  have hnone : st₁.txStart = none := hst₁.closed rfl
  refine ⟨trivial, fun _ w₂ hs => ?_⟩
  obtain ⟨time, htime, rfl, -⟩ := hs
  obtain ⟨hidle, hstart, t, ht, hlt⟩ := hover₁
  obtain ⟨tx, htx⟩ := Option.ne_none_iff_exists'.mp (h₁.opened hstart).2.2
  -- the last statement of the transaction is no later than the time the session remembers
  have hlast := h₁.last hidle hstart t tx ht htx
  have hfair : IdleKill.Fair cfg.maxTransactionIdleMs ⟨time, w₁.tx⟩ := by
    refine ⟨tx, htx, ?_⟩
    dsimp only
    omega
  rw [after_killed, if_pos rfl]
  refine wp_tame rests_flush (Seen.timed ⟨fun kill hkill => ?_, fun tx' htx' => ?_, fun hsome => absurd hnone hsome⟩
    (.inr (.inr hnone)))
  · rcases List.mem_cons.mp hkill with rfl | hkill
    · exact hfair
    · exact h₁.kills kill hkill
  · exact Nat.le_trans (h₁.clock tx' htx') htime

theorem limitErrors_ne : timeLimitError cfg ≠ idleLimitError cfg := by
  intro h
  have hidle : "Transaction idle timeout: no query for ".toList <+: timeLimitError cfg :=
    h ▸ ⟨_, (List.append_assoc _ _ _).symm⟩
  have htime : "Transaction timeout: exceeded max_transaction_time_ms (".toList <+: timeLimitError cfg :=
    ⟨_, (List.append_assoc _ _ _).symm⟩
  exact absurd (List.prefix_of_prefix_length_le hidle htime (by decide)) (by decide +kernel)

/-- The time limit says something else. -/
theorem timed_killLate (h : Timed cfg st w) :
    (st.killTx .txTimeLimit (timeLimitError cfg)).wp (watching cfg e) (Timed cfg) w := by
  rw [killTx, Prog.wp_bind]
  refine Prog.wp_mono (Prog.wp_does timed_tame (rests_dropTx _) h) fun st₁ w₁ ⟨hst₁, h₁⟩ => ?_
  have hnone : st₁.txStart = none := hst₁.closed rfl
  refine ⟨trivial, fun _ w₂ hs => ?_⟩
  obtain ⟨time, htime, rfl, -⟩ := hs
  rw [after_killed, if_neg limitErrors_ne]
  refine wp_tame rests_flush (Seen.timed ⟨h₁.kills, fun tx' htx' => ?_, fun hsome => absurd hnone hsome⟩
    (.inr (.inr hnone)))
  exact Nat.le_trans (h₁.clock tx' htx') htime

theorem timed_overTime (h : Timed cfg st w) :
    (st.overTime cfg).wp (watching cfg e) (fun _ w' => Timed cfg st w') w := by
  rw [overTime]
  split
  · exact ⟨trivial, fun now w' hs => h.mild rfl (.inl rfl) hs⟩
  · exact h

theorem timed_checkedQuery (ryowActive : Bool) (h : Timed cfg st w) :
    (st.checkedQuery cfg q ryowActive).wp (watching cfg e) (Timed cfg) w := by
  rw [checkedQuery, Prog.wp_bind]
  refine Prog.wp_mono (timed_overTime h) fun late w₁ h₁ => ?_
  refine Prog.wp_ite (fun _ => timed_killLate h₁) fun _ => ?_
  rw [Prog.wp_bind]
  refine Prog.wp_mono (wp_watched_overIdle h₁) fun stale w₂ ⟨h₂, hover⟩ => ?_
  refine Prog.wp_ite (fun hstale => timed_killIdle h₂ (hover hstale)) fun _ => ?_
  split
  · rename_i hlocal
    refine wp_tame ⟨tame_localAnswer hlocal, fun _ => ⟨rfl, fun sent => Prog.does_done ?_⟩⟩ h₂
    split <;> exact .refl _
  · exact timed_routeAllowed ryowActive h₂.toSeen

/-- A BEGIN that finds the idle clock stopped starts a transaction of its own. -/
theorem timed_noteBegin {sql : Str} (h : Timed cfg st w) (hfast : cfg.fastForward = false)
    (hopen : begins sql = true → w.tx ≠ none)
    (hstopped : begins sql = true → cfg.maxTransactionIdleMs = 0 ∨ st.lastQueryInTx = none) :
    (st.noteBegin sql).wp (watching cfg e) (Timed cfg) w := by
  refine Prog.wp_ite (fun hbegins => ⟨trivial, fun now w' hs => ?_⟩) fun _ => h
  have h' : Timed cfg st w' := h.mild rfl (.inl rfl) hs
  obtain ⟨time, -, rfl, -⟩ := hs
  refine Seen.timed ⟨h'.kills, h'.clock, fun _ => ⟨hfast, rfl, hopen hbegins⟩⟩ ?_
  exact (hstopped hbegins).imp id .inl

theorem timed_slowQuery {sql : Str} {bytes : Bytes} (h : Timed cfg st w) (hfast : cfg.fastForward = false)
    (hopen : begins sql = true → w.tx ≠ none)
    (hstopped : begins sql = true → cfg.maxTransactionIdleMs = 0 ∨ st.lastQueryInTx = none) :
    (st.slowQuery cfg sql bytes).wp (watching cfg e) (Timed cfg) w := by
  -- until the BEGIN is noted only time passes
  let I (w : Watch) : Prop := Timed cfg st w ∧ (begins sql = true → w.tx ≠ none)
  have hkeeps : ∀ o, Tame o → ∀ w, I w → (watching cfg e).owes w o ∧
      ∀ r w', (watching cfg e).step w o r w' → I w' := by
    refine fun o ho w hw => ⟨trivial, fun r w' hs => ⟨hw.1.mild ho.mild (.inl ho) hs, ?_⟩⟩
    obtain ⟨time, -, rfl, -⟩ := hs
    rw [after_tame ho]
    exact hw.2
  rw [slowQuery, Prog.wp_bind]
  refine Prog.wp_mono (Prog.wp_does hkeeps timers_expireRyow ⟨h, hopen⟩) fun st₁ w₁ ⟨hst₁, hw₁⟩ => ?_
  rw [Prog.wp_bind]
  refine Prog.wp_mono (Prog.wp_does hkeeps (timers_gtidForcesPrimary _) hw₁) fun g w₂ ⟨hg, hw₂⟩ => ?_
  have htimers : (g.1.noteSessionState sql).timers = st.timers :=
    (timers_noteSessionState sql).trans (hg.trans hst₁)
  rw [Prog.wp_bind]
  have hstopped' : begins sql = true →
      cfg.maxTransactionIdleMs = 0 ∨ (g.1.noteSessionState sql).lastQueryInTx = none := by
    intro hbegins
    have hlast : (g.1.noteSessionState sql).lastQueryInTx = st.lastQueryInTx := congrArg (·.2.1) htimers
    rw [hlast]
    exact hstopped hbegins
  refine Prog.wp_mono (timed_noteBegin (hw₂.1.rests (.inl htimers)) hfast hw₂.2 hstopped') fun st₃ w₃ h₃ => ?_
  exact timed_checkedQuery _ h₃

theorem timed_query {bytes : Bytes} (h : Timed cfg st w) (hopen : begins (textOf bytes) = true → w.tx ≠ none)
    (hstopped : begins (textOf bytes) = true → cfg.maxTransactionIdleMs = 0 ∨ st.lastQueryInTx = none) :
    (st.query cfg bytes).wp (watching cfg e) (Timed cfg) w := by
  rw [query]
  refine Prog.wp_ite (fun hfast => ?_) fun hfast => ?_
  · have hnone : st.txStart = none := by
      by_contra hstart
      cases hfast.symm.trans (h.opened hstart).1
    exact wp_mild (mild_fastForward _ _ hnone) h.toSeen (.inr (.inr hnone))
  · have hslow := Bool.eq_false_iff.mpr hfast
    refine Prog.wp_ite (fun _ => timed_slowQuery h hslow hopen hstopped) fun hflag => ?_
    have hnone : st.txStart = none := by
      by_contra hstart
      exact hflag (h.opened hstart).2.1
    refine ⟨trivial, fun m w' hs => ?_⟩
    have h' : Timed cfg st w' := h.mild rfl (.inl rfl) hs
    obtain ⟨time, -, rfl, -⟩ := hs
    refine Prog.wp_ite (fun _ => ?_) fun _ => timed_slowQuery h' hslow hopen hstopped
    exact wp_mild (mild_ruleFastForward bytes) h'.toSeen (.inr (.inr hnone))

end Query

/-! ## The kills of a session -/

/-- The step does not count on a clock that is wrong: no BEGIN finds the time of an earlier query, and no prepared
statement is executed in a transaction that has had a query. -/
def clockRight (cfg : MysqlConfig) (st : MysqlSession) (e : MysqlEvent) : Bool :=
  cfg.maxTransactionIdleMs == 0 || st.lastQueryInTx == none || !e.begins && (st.txStart == none || !e.executes)

/-- One turn of the loop keeps the clocks of the session in step with the watch beside it. -/
theorem timed_react {e : MysqlEvent} {p : Task MysqlSession} {w : Watch} (hreact : st.react cfg e = some p)
    (hright : clockRight cfg st e = true) (h : Timed cfg st w) (hopen : e.begins = true → w.tx ≠ none) :
    p.wp (watching cfg e) (Timed cfg) w := by
  have hmild : ∀ {p : Task MysqlSession}, p.Does Tame (Rests st) → p.wp (watching cfg e) (Timed cfg) w :=
    fun hp => wp_tame hp h
  simp only [clockRight, Bool.or_eq_true, beq_iff_eq, Bool.and_eq_true, Bool.not_eq_true'] at hright
  obtain ⟨-, rfl⟩ := react_eq_some hreact
  cases e with
  | cleanup =>
    exact hmild rests_cleanup
  | quit =>
    exact h.rests (.refl st)
  | ping =>
    exact hmild ⟨rfl, fun sent => by cases sent <;> exact .refl st⟩
  | resetConnection =>
    exact hmild rests_resetConnection
  | query bytes =>
    refine timed_query h hopen fun hbegins => ?_
    rcases hright with hright | ⟨hnot, -⟩
    · exact hright
    · cases hnot.symm.trans hbegins
  | stmt raw =>
    rcases hright with hright | ⟨-, hright | hquiet⟩
    · exact wp_mild (mild_stmt raw) h.toSeen (hright.imp id .inl)
    · exact wp_mild (mild_stmt raw) h.toSeen (.inr (.inr hright))
    · exact wp_quiet (mild_stmt raw) hquiet h
  | other raw =>
    exact wp_quiet (mild_other raw) rfl h

section Turns

variable {e : MysqlEvent} {w : Watch} {t : Episode}

theorem Timed.arrive {time : Nat} (hright : clockRight cfg st e = true) (h : Timed cfg st w) (htime : w.clock ≤ time) :
    Timed cfg st (w.arrive e time) := by
  cases hbegins : e.begins with
  | false =>
    have harrive : w.arrive e time = { w with clock := time, done := 0 } := by
      rw [Watch.arrive, hbegins, if_neg Bool.false_ne_true]
    rw [harrive]
    exact ⟨⟨h.kills, fun tx htx => Nat.le_trans (h.clock tx htx) htime, h.opened⟩, h.last⟩
  | true =>
    have harrive : w.arrive e time = { w with clock := time, done := 0, tx := some ⟨time, none⟩ } := by
      rw [Watch.arrive, hbegins, if_pos rfl]
    have hstopped : cfg.maxTransactionIdleMs = 0 ∨ st.lastQueryInTx = none := by
      simpa [clockRight, hbegins] using hright
    rw [harrive]
    refine Seen.timed ⟨h.kills, fun tx htx => ?_, fun hstart => ?_⟩ (hstopped.imp id .inl)
    · obtain rfl := Option.some.inj htx
      exact Nat.le_refl time
    · obtain ⟨hfast, hflag, -⟩ := h.opened hstart
      exact ⟨hfast, hflag, nofun⟩

theorem Timed.leave (h : Timed cfg st w) : Timed cfg st (w.leave st) := by
  have htx : ∀ tx, (w.leave st).tx = some tx → w.tx = some tx := fun tx htx =>
    (Option.ite_none_right_eq_some.mp htx).2
  refine ⟨⟨h.kills, fun tx h' => h.clock tx (htx tx h'), fun hstart => ?_⟩, fun hidle hstart t tx ht h' =>
    h.last hidle hstart t tx ht (htx tx h')⟩
  obtain ⟨hfast, hflag, hopen⟩ := h.opened hstart
  refine ⟨hfast, hflag, ?_⟩
  rw [Watch.leave, if_pos hflag]
  exact hopen

/-- The watch sees what the surroundings decide. -/
theorem watching_watched (w : Watch) (o : Op) :
    (watching cfg t.event).step w o (watched cfg t w o).2 (watched cfg t w o).1 := by
  refine ⟨_, Nat.le_add_right w.clock _, rfl, ?_⟩
  cases o <;> first | rfl | trivial

/-- **One turn keeps the clocks right.** -/
theorem timed_turn {s' : MysqlSession × Watch} (hright : clockRight cfg st t.event = true) (h : Timed cfg st w)
    (hturn : turn cfg (st, w) t = some s') : Timed cfg s'.1 s'.2 := by
  obtain ⟨p, hp, rfl⟩ := Option.map_eq_some_iff.mp hturn
  have harrive : Timed cfg st (w.arrive t.event (w.clock + t.wait)) := h.arrive hright (Nat.le_add_right _ _)
  have hopen : t.event.begins = true → (w.arrive t.event (w.clock + t.wait)).tx ≠ none := by
    intro hbegins
    rw [Watch.arrive, if_pos hbegins]
    nofun
  have hwp := timed_react hp hright harrive hopen
  obtain ⟨w', hend, rfl⟩ := Prog.wp_runWith (h := watched cfg t) (I := Eq)
    (fun w _ o hw _ => ⟨_, hw ▸ watching_watched w o, rfl⟩) hwp rfl
  exact hend.leave

end Turns

/-- **A transaction is killed for idleness only after it has been idle**, in every session in which no BEGIN finds the
time of an earlier query and no prepared statement is executed in a transaction that has had a query. -/
theorem idle_kills_fair {user : Str} {allowWrites : Bool} {initSqls : List Str} {turns : List Episode}
    {s : MysqlSession × Watch}
    (hrun : Steps (turn cfg) (fun s t => clockRight cfg s.1 t.event = true)
      (MysqlSession.new user allowWrites initSqls, Watch.new) turns s) :
    ∀ kill ∈ s.2.kills, kill.Fair cfg.maxTransactionIdleMs := by
  have hstart : Timed cfg (MysqlSession.new user allowWrites initSqls) Watch.new :=
    ⟨⟨nofun, nofun, fun hstart => absurd rfl hstart⟩, fun _ hstart => absurd rfl hstart⟩
  have hend : Timed cfg s.1 s.2 :=
    hrun.induct (P := fun s => Timed cfg s.1 s.2) (fun _ _ _ h hright hturn => timed_turn hright h hturn) hstart
  exact hend.kills

/-- Transactions may take 100 ms, and be idle for 50 ms. -/
def impatient : MysqlConfig := { smallConfig.mysql with maxTransactionTimeMs := 100, maxTransactionIdleMs := 50 }

/-- A query after `wait` ms, answered at once. -/
def asks (sql : String) (wait : Nat) : Episode := ⟨.query (asciiBytes sql), wait, fun _ => ⟨0, atEase⟩⟩

/-- The second query of a transaction comes after 60 ms. -/
def dozes : List Episode := [asks "BEGIN" 0, asks "SELECT 1" 10, asks "SELECT 2" 60]

theorem idle_kills_fair_dozes : ∃ s, run (turn impatient) (MysqlSession.new [] true [], Watch.new) dozes = some s ∧
    s.2.kills.length = 1 ∧ ∀ kill ∈ s.2.kills, kill.Fair 50 := by
  obtain ⟨s, hs⟩ := Option.isSome_iff_exists.mp (show (run (fun s t =>
    if clockRight impatient s.1 t.event then turn impatient s t else none)
    (MysqlSession.new [] true [], Watch.new) dozes).isSome = true by decide +kernel)
  have hsteps := steps_of_checked (fun _ _ h => h) hs
  have hkills : (run (turn impatient) (MysqlSession.new [] true [], Watch.new) dozes).map
      (fun s => s.2.kills.length) = some 1 := by
    decide +kernel
  rw [hsteps.run] at hkills
  exact ⟨s, hsteps.run, Option.some.inj hkills, idle_kills_fair hsteps⟩

/-- A transaction is killed after 110 ms; the next one is killed at its BEGIN. -/
def killedTwice : List Episode :=
  [asks "BEGIN" 0, asks "SELECT 1" 40, asks "SELECT 2" 40, asks "SELECT 3" 30, asks "BEGIN" 60]

/-- The time limit leaves the idle clock running. -/
theorem fresh_transaction_killed : ¬ ∀ (cfg : MysqlConfig) (user : Str) (allowWrites : Bool)
    (initSqls : List Str) (turns : List Episode) (s : MysqlSession × Watch),
    run (turn cfg) (MysqlSession.new user allowWrites initSqls, Watch.new) turns = some s →
    ∀ kill ∈ s.2.kills, kill.Fair cfg.maxTransactionIdleMs := by
  intro h
  have hend : (run (turn impatient) (MysqlSession.new [] true [], Watch.new) killedTwice).map (fun s => s.2.kills) =
      some [⟨170, some ⟨170, none⟩⟩] := by
    decide +kernel
  obtain ⟨s, hs, hkills⟩ := Option.map_eq_some_iff.mp hend
  obtain ⟨tx, htx, hlt⟩ := h _ _ _ _ _ s hs ⟨170, some ⟨170, none⟩⟩ (hkills ▸ .head _)
  obtain rfl := Option.some.inj htx
  exact absurd hlt (by decide)

end MysqlSession

end TurbineProxy
