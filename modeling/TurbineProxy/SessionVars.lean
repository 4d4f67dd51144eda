import Mathlib.Data.List.Induction
import TurbineProxy.Judged
import TurbineProxy.World

/-!
# Replaying session variables

A session remembers the statements that set its variables, and the router replays them on every fresh
connection. What a statement does to the variables is the server's business: a `VarServer` says so for
every text, and `Faithful` compares replaying what is remembered with executing everything again.

The list remembers a text once. `faithful_iff` says what that costs: replay is faithful at every point
of a session exactly when whatever is remembered already changes nothing when it happens again.
-/

namespace TurbineProxy

open MysqlSession

/-! ## Variables and what changes them -/

/-- A server, as far as the session variables of a connection are concerned. -/
structure VarServer (Vars : Type) where
  /-- what executing a statement does to them -/
  exec : Str → Vars → Vars
  /-- what it answers -/
  reply : Str → Vars → Except TalkError Response
  /-- a change that it reports of a variable -/
  change : Str → Str → Vars → Vars

/-- A statement that the session replays. -/
abbrev Replayable : Type := { sql : Str // isReplayableSessionStmt sql = true }

/-- What changes the variables of a session. -/
inductive VarEvent : Type where
  /-- the client executes a replayable statement -/
  | executed (stmt : Replayable)
  /-- the server reports a change -/
  | tracked (name value : Str)

variable {Vars : Type} (server : VarServer Vars) (cfg : MysqlConfig)

namespace VarEvent

/-- What happens to the variables. -/
def apply : VarEvent → Vars → Vars
  | executed stmt => server.exec stmt.1
  | tracked name value => server.change name value

/-- The text that is remembered for it. -/
def text : VarEvent → Str
  | executed stmt => stmt.1
  | tracked name value => "SET SESSION ".toList ++ name ++ "=".toList ++ cfg.debugStr value

/-- How the session takes note of it. -/
def note (e : VarEvent) (st : MysqlSession) : MysqlSession :=
  match e with
  | executed stmt => st.noteSessionState stmt.1
  | tracked name value => st.noteChanges cfg [(name, value)]

end VarEvent

/-! ## Replaying -/

/-- A connection executes what it is sent. -/
def VarServer.handle (vars : Vars) : (o : Op) → Vars × Res o
  | .talk _ _ _ (.text bytes) _ => (server.exec (textOf bytes) vars, server.reply (textOf bytes) vars)
  | o => (vars, atEase o)

/-- The variables of a connection after `replay_session_vars`. -/
def VarServer.replay (sqls : List Str) (vars : Vars) : Vars :=
  ((replaySessionVars .loan 0 sqls).runWith server.handle vars).1

/-- The session after some events. -/
def noted (st : MysqlSession) (events : List VarEvent) : MysqlSession :=
  events.foldl (fun st e => e.note cfg st) st

/-- The variables after some events, on the connection where they happen. -/
def VarServer.perform (events : List VarEvent) (vars : Vars) : Vars :=
  events.foldl (fun vars e => e.apply server vars) vars

/-- On a fresh connection, replaying what the session remembers has the same effect as everything that
has happened since the session began. -/
def Faithful (fresh : Vars) (st : MysqlSession) (events : List VarEvent) : Prop :=
  server.replay (noted cfg st events).sessionInitSqls fresh =
    server.perform events (server.replay st.sessionInitSqls fresh)

/-- The event, after the others: if its text is remembered already it changes nothing, and otherwise the
text does what it did. -/
def Harmless (fresh : Vars) (st : MysqlSession) (events : List VarEvent) (e : VarEvent) : Prop :=
  let vars := server.perform events (server.replay st.sessionInitSqls fresh)
  e.apply server vars =
    if e.text cfg ∈ (noted cfg st events).sessionInitSqls then vars else server.exec (e.text cfg) vars

/-! ## What is remembered -/

variable {server cfg} {st : MysqlSession} {fresh : Vars} {events : List VarEvent} {e : VarEvent}

/-- A text that starts with SET does not start with LOCK TABLES. -/
theorem not_lock_of_set {text : Str} (h : Str.startsWith text "SET" = true) :
    Str.startsWith text "LOCK TABLES" = false := by
  obtain ⟨rest, rfl⟩ := List.isPrefixOf_iff_prefix.mp h
  rfl

/-- A replayable statement does not pin the session. -/
theorem needsHardPin_of_replayable {sql : Str} (h : isReplayableSessionStmt sql = true) :
    needsHardPin sql = false := by
  rw [isReplayableSessionStmt] at h
  unfold needsHardPin
  dsimp only at h ⊢
  generalize Str.toUppercase (Str.trimStart sql) = upper at h ⊢
  rcases hset : Str.startsWith upper "SET" with _ | _
  · rw [hset] at h
    cases h
  · rw [hset] at h
    simp only [Bool.not_true, Bool.false_eq_true, if_false, Bool.not_eq_true'] at h
    simp only [Bool.true_and, h, Bool.not_true, Bool.false_and, Bool.false_eq_true, if_false,
      not_lock_of_set hset]

/-- Every event is remembered by its text, once. -/
theorem sessionInitSqls_note : (e.note cfg st).sessionInitSqls =
    if e.text cfg ∈ st.sessionInitSqls then st.sessionInitSqls else st.sessionInitSqls ++ [e.text cfg] := by
  cases e with
  | executed stmt =>
    change (st.noteSessionState stmt.1).sessionInitSqls =
      if stmt.1 ∈ st.sessionInitSqls then st.sessionInitSqls else st.sessionInitSqls ++ [stmt.1]
    rw [noteSessionState]
    simp only [needsHardPin_of_replayable stmt.2, stmt.2, Bool.not_false, Bool.true_and, Bool.or_true,
      Bool.false_eq_true, if_false, Bool.not_eq_true', List.contains_eq_mem, decide_eq_false_iff_not]
    by_cases hmem : stmt.1 ∈ st.sessionInitSqls
    · rw [if_neg (not_not_intro hmem), if_pos hmem]
    · rw [if_pos hmem, if_neg hmem]
  | tracked name value =>
    rw [VarEvent.note, noteChanges, List.foldl_cons, List.foldl_nil]
    by_cases hmem : VarEvent.text cfg (.tracked name value) ∈ st.sessionInitSqls
    · rw [if_pos hmem]
      exact congrArg sessionInitSqls (if_pos (List.contains_iff_mem.mpr hmem))
    · rw [if_neg hmem]
      exact congrArg sessionInitSqls (if_neg (mt List.contains_iff_mem.mp hmem))

/-- The statements are replayed in order. -/
theorem replay_eq (sqls : List Str) (vars : Vars) :
    server.replay sqls vars = sqls.foldl (fun vars sql => server.exec sql vars) vars := by
  induction sqls generalizing vars with
  | nil => rfl
  | cons sql rest ih =>
    rw [List.foldl_cons, ← ih, VarServer.replay, replaySessionVars, executeQuery, act]
    simp only [Prog.runWith_bind, Prog.runWith_perform, VarServer.handle, textOf_toUtf8]
    rfl

/-! ## The main fact -/

/-- After one more event, replay is still faithful exactly if the event is harmless. -/
theorem Faithful.snoc_iff (h : Faithful server cfg fresh st events) :
    Faithful server cfg fresh st (events ++ [e]) ↔ Harmless server cfg fresh st events e := by
  have hnoted : noted cfg st (events ++ [e]) = e.note cfg (noted cfg st events) := by
    rw [noted, List.foldl_append]
    rfl
  have hperform : ∀ vars, server.perform (events ++ [e]) vars = e.apply server (server.perform events vars) := by
    intro vars
    rw [VarServer.perform, List.foldl_append]
    rfl
  -- what replay leaves after one more event
  have hreplay : server.replay (e.note cfg (noted cfg st events)).sessionInitSqls fresh =
      if e.text cfg ∈ (noted cfg st events).sessionInitSqls then
        server.perform events (server.replay st.sessionInitSqls fresh)
      else server.exec (e.text cfg) (server.perform events (server.replay st.sessionInitSqls fresh)) := by
    rw [sessionInitSqls_note, ← h]
    split
    · rfl
    · rw [replay_eq, List.foldl_append, replay_eq]
      rfl
  rw [Faithful, Harmless, hnoted, hperform, hreplay]
  exact eq_comm

/-- **Faithful replay**: at every point of a session, replaying what it remembers yields what everything
it went through has yielded, exactly if every event is harmless after those before it. -/
theorem faithful_iff (server : VarServer Vars) (cfg : MysqlConfig) (fresh : Vars) (st : MysqlSession)
    (events : List VarEvent) :
    (∀ earlier, earlier <+: events → Faithful server cfg fresh st earlier) ↔
      ∀ earlier e, earlier ++ [e] <+: events → Harmless server cfg fresh st earlier e := by
  constructor
  · intro h earlier e hprefix
    exact (h earlier ((List.prefix_append earlier [e]).trans hprefix)).snoc_iff.mp (h _ hprefix)
  · intro h earlier hprefix
    induction earlier using List.reverseRecOn with
    | nil => rfl
    | append_singleton earlier e ih =>
      exact (ih ((List.prefix_append earlier [e]).trans hprefix)).snoc_iff.mpr (h earlier e hprefix)

/-! ## A variable set back -/

/-- The text of `SET name=value`. -/
def assignment (sql : Str) : Option (Str × Str) :=
  (Str.splitFirst "=".toList (sql.drop 4)).map fun p => (Str.trim p.1, p.2)

/-- A server whose variables are set by such statements. -/
def assigning : VarServer (Str → Str) where
  exec sql vars :=
    match assignment sql with
    | some (name, value) => Function.update vars name value
    | none => vars
  reply _ _ := .ok ⟨[], false, [], none⟩
  change name value vars := Function.update vars name value

/-- The isolation level is set, raised, and set back. -/
def setBack : List VarEvent :=
  [.executed ⟨"SET transaction_isolation='READ-COMMITTED'".toList, by decide +kernel⟩,
    .executed ⟨"SET transaction_isolation='SERIALIZABLE'".toList, by decide +kernel⟩,
    .executed ⟨"SET transaction_isolation='READ-COMMITTED'".toList, by decide +kernel⟩]

/-- Replay leaves it raised. -/
theorem set_back_forgotten :
    ¬Faithful assigning smallConfig.mysql (fun _ => []) (.new [] true []) setBack ∧
      assigning.replay (noted smallConfig.mysql (.new [] true []) setBack).sessionInitSqls (fun _ => [])
        "transaction_isolation".toList = "'SERIALIZABLE'".toList := by
  have hreplay : assigning.replay (noted smallConfig.mysql (.new [] true []) setBack).sessionInitSqls
      (fun _ => []) "transaction_isolation".toList = "'SERIALIZABLE'".toList := by decide +kernel
  refine ⟨fun h => ?_, hreplay⟩
  rw [h] at hreplay
  exact absurd hreplay (by decide +kernel)

end TurbineProxy
