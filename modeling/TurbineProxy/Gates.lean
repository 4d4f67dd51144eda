import TurbineProxy.Judged
import TurbineProxy.PgReprepare

/-!
# What a session lets through

A `Gate` says for a client which statements may be sent for it, and which may be replayed on a fresh
connection. The sessions check the text of a query on its way; of everything else that carries a
statement they check nothing: a fast-forwarded query, the SQL behind a psql meta-command, bytes that are
not UTF-8, `COM_STMT_PREPARE`, a pipeline, and what is remembered to be replayed. `Gate.Admits` is the
condition on a message that makes up for it, and `Gate.wp_react` says that under it a turn sends nothing
else.
-/

namespace TurbineProxy

open Str

/-! ## The statements on the wire -/

/-- A text as the checks of a session look at it. -/
def asChecked (postgres : Bool) (sql : Str) : Str := if postgres then trim sql else sql

/-- The statement a message carries: that of a `Parse`, or a simple query in the middle of a pipeline. -/
def PgMsg.sql (m : PgMsg) : Option Bytes :=
  match m.act with
  | some (.parse _ query _) => some query
  | _ => if m.tag = 0x51 then some (m.payload.takeWhile (· != 0)) else none

/-- The statements a packet carries. -/
def Packet.sqls (postgres : Bool) : Packet → List Bytes
  | .text sql => [sql]
  | .raw bytes | .silent bytes =>
    if postgres then (readPipeline bytes).filterMap PgMsg.sql
    else
      match bytes with
      | [] => []
      | cmd :: sql => if cmd = 0x03 ∨ cmd = Com.stmtPrepare then [sql] else []

/-- The texts of these statements. -/
def Packet.statements (postgres : Bool) (p : Packet) : List Str :=
  (p.sqls postgres).map fun sql => asChecked postgres (fromUtf8Lossy sql)

/-- The client's statements that an operation sends to a backend. The proxy's own (a GTID check,
`DEALLOCATE ALL`) are not among them. -/
def Op.statements (postgres : Bool) : Op → List Str
  | .talk .probe .. | .talk .cleanup .. => []
  | .talk _ _ _ p _ => p.statements postgres
  | .mirror _ sql => [asChecked postgres sql]
  | _ => []

/-- The operation replays a remembered statement. -/
def Op.replays : Op → Bool
  | .talk .replay .. => true
  | _ => false

theorem statements_silent {postgres : Bool} {o : Op} (ho : Silent o) : o.statements postgres = [] := by
  cases o <;> first | rfl | cases ho

theorem statements_text {postgres : Bool} (sql : Str) :
    (Packet.text (toUtf8 sql)).statements postgres = [asChecked postgres sql] := by
  rw [Packet.statements, Packet.sqls, List.map_singleton, fromUtf8Lossy_toUtf8]

theorem statements_prepare (query : Bytes) :
    (Packet.raw (Com.stmtPrepare :: query)).statements false = [fromUtf8Lossy query] := rfl

/-- With another id, a command that carries one still carries no statement. -/
theorem sqls_rewriteStmtId {cmd : UInt8} (hcmd : mysqlHasStmtId cmd = true) (rest : Bytes) (id : Nat) :
    Packet.sqls false (.raw (mysqlRewriteStmtId (cmd :: rest) id)) = [] := by
  have hhead : ∃ tail, mysqlRewriteStmtId (cmd :: rest) id = cmd :: tail := by
    unfold mysqlRewriteStmtId
    split
    · rename_i h
      obtain ⟨rfl, -⟩ := List.cons.inj h
      exact ⟨_, rfl⟩
    · exact ⟨rest, rfl⟩
  obtain ⟨tail, htail⟩ := hhead
  have hother : ¬(cmd = 0x03 ∨ cmd = Com.stmtPrepare) := by
    rintro (rfl | rfl) <;> cases hcmd
  rw [htail]
  exact if_neg hother

/-! ## Pipelines -/

/-- The scan of any bytes visits the messages a backend reads in them. -/
theorem scanPgPipelineLoop_eq (n : Nat) (raw : Bytes) (scan : PgPipelineScan) :
    scanPgPipelineLoop n raw scan = (readPipelineLoop n raw).foldl PgPipelineScan.note scan := by
  induction n generalizing raw scan with
  | zero => rfl
  | succ n ih =>
    rcases raw with _ | ⟨tag, _ | ⟨a, _ | ⟨b, _ | ⟨c, _ | ⟨d, rest⟩⟩⟩⟩⟩
    · rfl
    · rfl
    · rfl
    · rfl
    · rfl
    · unfold scanPgPipelineLoop readPipelineLoop
      dsimp only
      by_cases hshort : le32 d c b a < 4 ∨ rest.length < le32 d c b a - 4
      · rw [if_pos hshort, dif_pos hshort]
        rfl
      · rw [if_neg hshort, dif_neg hshort, ih, List.foldl_cons, ← scanMessage_eq]

theorem scanPgPipeline_eq (raw : Bytes) :
    scanPgPipeline raw = (readPipeline raw).foldl PgPipelineScan.note ⟨[], []⟩ :=
  scanPgPipelineLoop_eq _ raw _

/-- What a scan registers was in a `Parse` of the pipeline. -/
theorem mem_scan {raw : Bytes} {e : Str × Str} (he : e ∈ (scanPgPipeline raw).parses) :
    ∃ m ∈ readPipeline raw, ∃ name query types, m.act = some (.parse name query types) ∧
      e = (fromUtf8Lossy name, fromUtf8Lossy query) := by
  rw [scanPgPipeline_eq] at he
  revert e
  refine List.foldlRecOn (motive := fun scan : PgPipelineScan => ∀ {e : Str × Str}, e ∈ scan.parses →
    ∃ m ∈ readPipeline raw, ∃ name query types, m.act = some (.parse name query types) ∧
      e = (fromUtf8Lossy name, fromUtf8Lossy query)) _ _ (fun {e} he => by cases he)
    fun scan hscan m hm e he => ?_
  rw [PgPipelineScan.note] at he
  rcases hact : m.act with _ | ⟨name, query, types⟩ | ⟨name⟩
  · rw [hact] at he
    exact hscan he
  · rw [hact] at he
    rcases List.mem_append.mp he with he | he
    · exact hscan he
    · exact ⟨m, hm, name, query, types, hact, List.mem_singleton.mp he⟩
  · rw [hact] at he
    dsimp only at he
    split at he
    · exact hscan he
    · exact hscan he

/-- The scan registers nothing but statements of the pipeline. -/
theorem statements_scan {raw : Bytes} {e : Str × Str} (he : e ∈ (scanPgPipeline raw).parses) :
    trim e.2 ∈ (Packet.raw raw).statements true := by
  obtain ⟨m, hm, name, query, types, hact, rfl⟩ := mem_scan he
  refine List.mem_map.mpr ⟨query, List.mem_filterMap.mpr ⟨m, hm, ?_⟩, rfl⟩
  rw [PgMsg.sql, hact]

/-- A text that fits into a re-prepare message. -/
def Fits (e : Str × Str) : Prop := (toUtf8 e.1).length + (toUtf8 e.2).length + 8 < 2 ^ 32

instance : DecidablePred Fits := fun e =>
  inferInstanceAs (Decidable ((toUtf8 e.1).length + (toUtf8 e.2).length + 8 < 2 ^ 32))

/-- What is registered under a name goes over the wire, if it fits. -/
theorem wired_of_scan {raw : Bytes} {e : Str × Str} (he : e ∈ (scanPgPipeline raw).parses)
    (hne : e.1 ≠ []) (hfits : Fits e) : Wired e := by
  obtain ⟨m, hm, name, query, types, hact, rfl⟩ := mem_scan he
  obtain ⟨-, hname, hquery⟩ := payload_of_parse hact
  exact ⟨hne, fromUtf8Lossy_toUtf8 _, zero_not_mem_toUtf8_lossy hname,
    zero_not_mem_toUtf8_lossy hquery, hfits⟩

/-- A re-prepare message carries the statement it is about. -/
theorem statements_reparse {e : Str × Str} (he : Wired e) :
    (Packet.raw (buildPgReparse e.1 e.2)).statements true = [trim e.2] := by
  obtain ⟨parse, sync, hread, hparse, hsync, htag⟩ := readPipeline_reparse he
  have hsqls : Packet.sqls true (.raw (buildPgReparse e.1 e.2)) = [toUtf8 e.2] := by
    simp [Packet.sqls, hread, PgMsg.sql, hparse, hsync, htag]
  rw [Packet.statements, hsqls, List.map_singleton, fromUtf8Lossy_toUtf8]
  rfl

/-!
## Gates

A gate is a check that a statement has to pass before it is sent; which one stands before which command is read off the
loops of the two sessions.
-/

/-- The checks of a client's session reject a text. -/
def Client.refuses (cfg : ProxyConfig) (c : Client) (text : Str) : Bool :=
  if c.postgres then cfg.pg.refuses c.allowWrites text else cfg.mysql.refuses c.allowWrites text

/-- What may reach a backend for a client. -/
structure Gate (cfg : ProxyConfig) where
  /-- the statements that may be sent for it -/
  good : Client → Str → Prop
  /-- the statements that may be replayed for it -/
  tame : Client → Str → Prop
  /-- what may be sent may be replayed -/
  kept : ∀ c text, good c text → tame c text
  /-- the sessions check the text of a query for it -/
  checked : ∀ c text, c.refuses cfg text = false → good c text
  /-- a variable that a backend reports may be replayed -/
  reported : ∀ c name value, c.postgres = false →
    tame c ("SET SESSION ".toList ++ name ++ "=".toList ++ cfg.mysql.debugStr value)

namespace Gate

variable {cfg : ProxyConfig} (G : Gate cfg) (c : Client)

/-- The operation sends only what may be sent. -/
def Lets (o : Op) : Prop :=
  ∀ t ∈ o.statements c.postgres, if o.replays then G.tame c t else G.good c t

/-- The rules of the proxy lead a client's query to nothing that may not be sent: what it is rewritten to
may be, and so may what is fast-forwarded. -/
def Answers (o : Op) (r : Res o) : Prop :=
  match o, r with
  | .rewrite _, (.rewritten sql : RewriteOutcome) => G.good c (asChecked c.postgres sql)
  | .matchQuery sql _ _, (m : Option RuleMatch) =>
    m.elim false (·.fastForward) = true → G.good c (asChecked c.postgres sql)
  | _, _ => True

/-- The contract of a session: the ghost state is the client it serves. -/
def contract : Protocol Op Res (Option Client) where
  owes g o := ∀ c ∈ g, G.Lets c o
  step g o r g' := g' = g ∧ ∀ c ∈ g, G.Answers c o r

/-- The message carries nothing unchecked that may not be sent.

* A query: nothing under the global fast-forward, nothing in bytes whose text is not all they say, no
  statement that is remembered before it is refused.
* A psql meta-command: not the SQL behind it.
* A `COM_STMT_PREPARE`, a pipeline, any other command: no statement in it. -/
def Admits : SessionEvent → Prop
  | .mysql (.query bytes) =>
    (cfg.mysql.fastForward = true → G.good c (textOf bytes)) ∧
      (G.good c (textOf bytes) → G.good c (fromUtf8Lossy bytes)) ∧
      ((needsHardPin (textOf bytes) || isReplayableSessionStmt (textOf bytes)) = true →
        G.good c (textOf bytes))
  | .mysql (.stmt raw) | .mysql (.other raw) => ∀ t ∈ (Packet.raw raw).statements false, G.good c t
  | .pg (.query bytes) =>
    match PgSession.metaOf bytes with
    | some translated => G.good c (trim (textOf translated))
    | none => G.good c (trim (textOf bytes)) → G.good c (trim (fromUtf8Lossy bytes))
  | .pg (.stmt raw) =>
    (∀ t ∈ (Packet.raw raw).statements true, G.good c t) ∧ ∀ e ∈ (scanPgPipeline raw).parses, Fits e
  | .pg (.other raw) => ∀ t ∈ (Packet.raw raw).statements true, G.good c t
  | _ => True

/-- A session that serves the client remembers nothing else. -/
def Serves : Session → Prop
  | .mysql st =>
    c.postgres = false ∧ st.allowWrites = c.allowWrites ∧ (∀ sql ∈ st.sessionInitSqls, G.tame c sql) ∧
      ∀ e ∈ st.shadow.stmts, G.good c (fromUtf8Lossy e.2.query)
  | .pg st =>
    c.postgres = true ∧ st.allowWrites = c.allowWrites ∧
      (∀ sql ∈ st.sessionInitSqls, G.tame c (trim sql)) ∧
      ∀ e ∈ st.shadow.stmts, Wired e ∧ G.good c (trim e.2)

variable {G c}

/-! ### Queries -/

/-- What is in hand may be sent if the checks may let it through. -/
structure Holds (G : Gate cfg) (c : Client) (C : Carriage) (g : InHand) : Prop where
  /-- what is let through may be sent, and the other way round -/
  text : C.admitted ↔ G.good c (asChecked c.postgres g.text)
  /-- the bytes say no more than the text -/
  bytes : G.good c (asChecked c.postgres g.text) → G.good c (asChecked c.postgres (fromUtf8Lossy g.bytes))

/-- A program with a query in hand sends what may be sent. -/
theorem wp_of_carried {C : Carriage} {α : Type} {p : Task α} {Q : α → InHand → Prop} {g : InHand}
    (hp : p.wp C.contract Q g) (hg : G.Holds c C g)
    (hreplayed : ∀ sql, C.replayed sql → G.tame c (asChecked c.postgres sql)) :
    p.wp G.contract (fun a g' => (∃ g, Q a g) ∧ g' = some c) (some c) := by
  have hmono := Prog.wp_transfer G.contract (fun g g' => G.Holds c C g ∧ g' = some c)
    (fun g g' o hR howes => ?_) (fun g g' o r h' hR howes hstep => ?_) hp ⟨hg, rfl⟩
  · exact Prog.wp_mono hmono fun a g' ⟨g, hQ, hR⟩ => ⟨⟨g, hQ⟩, hR.2⟩
  · obtain ⟨hR, rfl⟩ := hR
    rintro c' ⟨⟩ t ht
    cases o with
    | talk who via k p limit =>
      cases who with
      | client =>
        obtain ⟨hadm, rfl⟩ : C.admitted ∧ p = .text g.bytes := howes
        obtain rfl := List.mem_singleton.mp ht
        exact hR.bytes (hR.text.mp hadm)
      | replay =>
        obtain ⟨sql, hsql, rfl⟩ : ∃ sql, C.replayed sql ∧ p = .text (toUtf8 sql) := howes
        change t ∈ (Packet.text (toUtf8 sql)).statements c.postgres at ht
        rw [statements_text] at ht
        obtain rfl := List.mem_singleton.mp ht
        exact hreplayed sql hsql
      | reprepare => exact howes.elim
      | probe => cases ht
      | cleanup => cases ht
    | mirror addr sql =>
      obtain ⟨hadm, rfl⟩ : C.admitted ∧ sql = g.text := howes
      obtain rfl := List.mem_singleton.mp ht
      exact hR.text.mp hadm
    | _ => cases ht
  · obtain ⟨hR, rfl⟩ := hR
    obtain ⟨rfl, hanswers⟩ := hstep
    have hanswer := hanswers c rfl
    have hsame : ∀ {P : InHand → Prop}, P g → ∃ g', P g' ∧ G.Holds c C g' ∧ some c = some c :=
      fun {P} hP => ⟨g, hP, hR, rfl⟩
    cases o with
    | rewrite sql =>
      rcases r with _ | s | msg
      · exact hsame rfl
      · have hs : G.good c (asChecked c.postgres s) := hanswer
        have hadm : C.admitted := (howes : C.admitted ∧ sql = g.text).1
        refine ⟨.rewritten s, rfl, ⟨⟨fun _ => hs, fun _ => hadm⟩, fun _ => ?_⟩, rfl⟩
        change G.good c (asChecked c.postgres (fromUtf8Lossy (toUtf8 s)))
        rw [fromUtf8Lossy_toUtf8]
        exact hs
      · exact hsame rfl
    | matchQuery sql user schema =>
      obtain rfl : sql = g.text := howes
      exact hsame (P := fun g' => g' = g ∧ _) ⟨rfl, fun hff => hR.text.mpr (hanswer hff)⟩
    | _ => exact hsame rfl

theorem wp_mysql_query {st : MysqlSession} {bytes : Bytes} (hs : G.Serves c (.mysql st))
    (ha : G.Admits c (.mysql (.query bytes))) :
    (st.query cfg.mysql bytes).wp G.contract (fun st' g' => G.Serves c (.mysql st') ∧ g' = some c)
      (some c) := by
  obtain ⟨hpg, hwrites, hinit, hshadow⟩ := hs
  obtain ⟨hfast, hbytes, hnoted⟩ := ha
  have hview : ∀ sql, asChecked c.postgres sql = sql := fun sql => by
    rw [hpg]
    rfl
  let C : Carriage := ⟨G.tame c, G.good c (textOf bytes)⟩
  have hcarried : (st.query cfg.mysql bytes).wp C.contract (fun st' _ => MysqlSession.Carried C st st')
      (.received bytes) := by
    refine MysqlSession.wp_carry_query hfast (fun hrefuses => G.checked c _ ?_)
      ⟨fun h => G.kept c _ (hnoted h), fun name value => G.reported c name value hpg⟩ hinit
    rw [Client.refuses, hpg, ← hwrites]
    exact hrefuses
  refine Prog.wp_mono (wp_of_carried hcarried ⟨?_, ?_⟩ fun sql h => ?_) ?_
  · rw [hview]
    rfl
  · rw [hview, hview]
    exact hbytes
  · rw [hview]
    exact h
  · rintro st' g' ⟨⟨g, hst'⟩, rfl⟩
    refine ⟨⟨hpg, hst'.allowWrites.trans hwrites, hst'.remembered, ?_⟩, rfl⟩
    rw [hst'.shadow]
    exact hshadow

theorem wp_pg_query {st : PgSession} {bytes : Bytes} (hs : G.Serves c (.pg st))
    (ha : G.Admits c (.pg (.query bytes))) :
    (st.query cfg.pg bytes).wp G.contract (fun st' g' => G.Serves c (.pg st') ∧ g' = some c)
      (some c) := by
  obtain ⟨hpg, hwrites, hinit, hshadow⟩ := hs
  have hview : ∀ sql, asChecked c.postgres sql = trim sql := fun sql => by
    rw [hpg]
    rfl
  let C : Carriage := ⟨fun _ => False, G.good c (trim (textOf ((PgSession.metaOf bytes).getD bytes)))⟩
  have hcarried : (st.query cfg.pg bytes).wp C.contract (fun st' _ => PgSession.Same st st')
      (.received ((PgSession.metaOf bytes).getD bytes)) := by
    rcases hmeta : PgSession.metaOf bytes with _ | translated
    · refine hmeta ▸ PgSession.wp_carry_query (fun h => ?_) fun hrefuses => ?_
      · rw [hmeta] at h
        cases h
      · simp only [C, hmeta, Option.getD_none]
        refine G.checked c _ ?_
        rw [Client.refuses, hpg, ← hwrites]
        exact hrefuses
    · have hgood : C.admitted := by
        simp only [Admits, hmeta] at ha
        simp only [C, hmeta, Option.getD_some]
        exact ha
      exact hmeta ▸ PgSession.wp_carry_query (fun _ => hgood) fun _ => hgood
  refine Prog.wp_mono (wp_of_carried hcarried ⟨?_, ?_⟩ fun sql h => ?_) ?_
  · rw [hview]
    rfl
  · rw [hview, hview]
    rcases hmeta : PgSession.metaOf bytes with _ | translated
    · simp only [Admits, hmeta] at ha
      exact ha
    · obtain ⟨text, htext⟩ :=
        Option.isSome_iff_exists.mp ((toUtf8_textOf_iff translated).mp (toUtf8_textOf_meta hmeta))
      rw [Option.getD_some]
      change G.good c (trim (textOf translated)) → _
      rw [textOf, htext, Option.getD_some]
      change _ → G.good c (trim (fromUtf8Lossy translated))
      rw [fromUtf8Lossy_of_fromUtf8 htext]
      exact id
  · exact h.elim
  · rintro st' g' ⟨⟨g, hst'⟩, rfl⟩
    refine ⟨⟨hpg, hst'.allowWrites.trans hwrites, ?_, ?_⟩, rfl⟩
    · rw [hst'.sessionInitSqls]
      exact hinit
    · rw [hst'.shadow]
      exact hshadow

/-! ### Other commands -/

theorem lets_silent {o : Op} (ho : Silent o) : G.Lets c o := fun t ht => by
  rw [statements_silent ho] at ht
  cases ht

/-- A program that lets only through what may be sent meets the contract, whatever the rules. -/
theorem wp_of_lets {α : Type} {p : Task α} {R : α → Prop} (hp : p.Does (G.Lets c) R) :
    p.wp G.contract (fun a g' => R a ∧ g' = some c) (some c) := by
  have hfree : ∀ o, G.Lets c o →
      G.contract.owes (some c) o ∧ ∀ r g', G.contract.step (some c) o r g' → g' = some c := by
    refine fun o ho => ⟨?_, fun r g' h => h.1⟩
    rintro c' ⟨⟩
    exact ho
  exact Prog.wp_of_does hfree hp fun a ha => ⟨ha, rfl⟩

theorem does_silent {α : Type} {p : Task α} {R : α → Prop} (hp : p.Does Silent R) :
    p.Does (G.Lets c) R := hp.mono (fun _ h => lets_silent h) fun _ h => h

section Exchanges

variable {via : Via} {k : ConnId}

theorem does_sendRaw {packet : Bytes} (hsent : ∀ t ∈ (Packet.raw packet).statements c.postgres, G.good c t)
    {who : Purpose} (hwho : who = .client ∨ who = .reprepare) :
    (sendRaw who via k packet).Does (G.Lets c) fun _ => True := by
  refine ⟨fun t ht => ?_, fun _ => trivial⟩
  rcases hwho with rfl | rfl
  · exact hsent t ht
  · exact hsent t ht

theorem does_sendRawNoResponse {packet : Bytes}
    (hsent : ∀ t ∈ (Packet.raw packet).statements c.postgres, G.good c t) :
    (sendRawNoResponse via k packet).Does (G.Lets c) fun _ => True := ⟨hsent, fun _ => trivial⟩

theorem does_replay {sqls : List Str} (hsqls : ∀ sql ∈ sqls, G.tame c (asChecked c.postgres sql)) :
    (replaySessionVars via k sqls).Does (G.Lets c) fun _ => True := by
  induction sqls with
  | nil => trivial
  | cons sql rest ih =>
    unfold replaySessionVars executeQuery
    refine ⟨fun t ht => ?_, fun _ => ih fun s hs => hsqls s (.tail _ hs)⟩
    change t ∈ (Packet.text (toUtf8 sql)).statements c.postgres at ht
    rw [statements_text] at ht
    obtain rfl := List.mem_singleton.mp ht
    exact hsqls sql (.head _)

end Exchanges

/-! ### MySQL -/

section Mysql

variable {raw : Bytes} {k : ConnId}

/-- Every open statement may be prepared again. -/
def Open (G : Gate cfg) (c : Client) (s : MysqlStmtShadow) : Prop :=
  ∀ e ∈ s.stmts, G.good c (fromUtf8Lossy e.2.query)

theorem open_register {s : MysqlStmtShadow} (h : G.Open c s) {query : Bytes}
    (hquery : G.good c (fromUtf8Lossy query)) (numParams numColumns backendId : Nat) :
    G.Open c (s.register query numParams numColumns backendId).1 := by
  intro e he
  rcases List.mem_cons.mp he with rfl | he
  · exact hquery
  · exact h e (List.mem_of_mem_filter he)

theorem open_registerPrepared {st : MysqlStmtState} (h : G.Open c st.shadow) {query : Bytes}
    (hquery : G.good c (fromUtf8Lossy query)) (response : Response) :
    G.Open c (registerPrepared st query response).1.shadow := by
  rw [registerPrepared]
  split
  · exact open_register h hquery _ _ _
  · exact h

theorem open_remove {s : MysqlStmtShadow} (h : G.Open c s) (id : Nat) : G.Open c (s.remove id) :=
  fun e he => h e (List.mem_of_mem_filter he)

theorem open_updateBackendIds {s : MysqlStmtShadow} (h : G.Open c s) (newIds : List (Nat × Nat)) :
    G.Open c (s.updateBackendIds newIds) := by
  intro e he
  obtain ⟨e', he', rfl⟩ := List.mem_map.mp he
  have hgood := h e' he'
  split
  · exact hgood
  · exact hgood

variable (hpg : c.postgres = false)
include hpg

theorem does_reprepare {jobs : List (Nat × Bytes)}
    (hjobs : ∀ job ∈ jobs, ∀ t ∈ (Packet.raw job.2).statements false, G.good c t) :
    (reprepare k jobs).Does (G.Lets c) fun _ => True := by
  induction jobs with
  | nil => trivial
  | cons job rest ih =>
    obtain ⟨pid, prep⟩ := job
    rw [reprepare]
    refine Prog.does_bind (does_sendRaw (hpg ▸ hjobs _ (.head _)) (.inr rfl)) fun r _ => ?_
    refine Prog.does_bind (ih fun job hjob => hjobs job (.tail _ hjob)) fun others _ => ?_
    rcases r with e | resp
    · trivial
    · dsimp only
      split <;> trivial

theorem does_stmtPrepare {pool : PoolRef} {query : Bytes} {st : MysqlStmtState} {inTransaction : Bool}
    (hquery : G.good c (fromUtf8Lossy query)) (h : G.Open c st.shadow) :
    (stmtPrepare pool (Com.stmtPrepare :: query) query k st inTransaction).Does (G.Lets c)
      fun r => G.Open c r.1.shadow := by
  have hsent : ∀ t ∈ (Packet.raw (Com.stmtPrepare :: query)).statements c.postgres, G.good c t := by
    rw [hpg, statements_prepare]
    intro t ht
    obtain rfl := List.mem_singleton.mp ht
    exact hquery
  rw [stmtPrepare]
  refine Prog.does_bind (does_sendRaw hsent (.inl rfl)) fun r _ => ?_
  rcases r with e | response
  · refine Prog.does_ite (fun _ => ?_) fun _ => h
    refine Prog.does_bind (does_silent (silent_pool PoolRef.only_getPrimary).does) fun got _ => ?_
    rcases got with e | fresh
    · exact h
    refine Prog.does_bind (does_silent (silent_act rfl).does) fun _ _ => ?_
    refine Prog.does_bind (does_sendRaw hsent (.inl rfl)) fun r _ => ?_
    rcases r with e | response
    · exact h
    · refine open_registerPrepared ?_ hquery response
      exact h
  · exact open_registerPrepared h hquery response

theorem does_executeAgain {pool : PoolRef} {cmd : UInt8} {rest : Bytes} {proxyId backendId : Nat}
    {st : MysqlStmtState} (hcmd : mysqlHasStmtId cmd = true) (h : G.Open c st.shadow) :
    (executeAgain pool (cmd :: rest) proxyId backendId k st).Does (G.Lets c)
      fun r => G.Open c r.1.shadow := by
  rw [executeAgain]
  refine Prog.does_bind (does_silent (silent_pool PoolRef.only_getPrimary).does) fun got _ => ?_
  rcases got with e | fresh
  · exact h
  refine Prog.does_bind (does_reprepare hpg fun job hjob => ?_) fun newIds _ => ?_
  · obtain ⟨e, he, rfl⟩ := List.mem_map.mp hjob
    rw [statements_prepare]
    intro t ht
    obtain rfl := List.mem_singleton.mp ht
    exact h e he
  refine Prog.does_bind (does_silent (silent_act rfl).does) fun _ _ => ?_
  refine Prog.does_bind (does_sendRaw (fun t ht => ?_) (.inl rfl)) fun r _ => ?_
  · rw [Packet.statements, hpg, sqls_rewriteStmtId hcmd] at ht
    cases ht
  · exact open_updateBackendIds h newIds

theorem does_stmtWithId {pool : PoolRef} {cmd : UInt8} {rest : Bytes} {st : MysqlStmtState}
    {inTransaction : Bool} (hcmd : mysqlHasStmtId cmd = true)
    (hraw : ∀ t ∈ (Packet.raw (cmd :: rest)).statements false, G.good c t) (h : G.Open c st.shadow) :
    (stmtWithId pool cmd (cmd :: rest) k st inTransaction).Does (G.Lets c)
      fun r => G.Open c r.1.shadow := by
  have hnone : ∀ id, ∀ t ∈ (Packet.raw (mysqlRewriteStmtId (cmd :: rest) id)).statements c.postgres,
      G.good c t := by
    intro id t ht
    rw [Packet.statements, hpg, sqls_rewriteStmtId hcmd] at ht
    cases ht
  rw [stmtWithId]
  rcases mysqlReadStmtId (cmd :: rest) with _ | proxyId
  · exact Prog.does_bind (does_sendRaw (hpg ▸ hraw) (.inl rfl)) fun r _ => h
  dsimp only
  refine Prog.does_ite (fun _ => ?_) fun _ => ?_
  · refine Prog.does_bind (does_sendRawNoResponse (hnone _)) fun r _ => ?_
    rcases r with e | response
    · exact h
    · refine Prog.does_done ?_
      dsimp only
      split
      · exact open_remove h proxyId
      · exact h
  · refine Prog.does_bind (does_sendRaw (hnone _) (.inl rfl)) fun r _ => ?_
    rcases r with e | response
    · exact Prog.does_ite (fun _ => does_executeAgain hpg hcmd h) fun _ => h
    · exact h

theorem does_routeStmt {st : MysqlStmtState} {inTransaction : Bool}
    (hraw : ∀ t ∈ (Packet.raw raw).statements false, G.good c t) (h : G.Open c st.shadow) :
    (routeStmtMysqlShadow raw st inTransaction).Does (G.Lets c) fun r => G.Open c r.1.shadow := by
  rw [routeStmtMysqlShadow]
  refine Prog.does_bind (does_silent (silent_act rfl).does) fun pool _ => ?_
  rcases raw with _ | ⟨cmd, query⟩
  · exact h
  refine Prog.does_bind (does_silent (silent_pool (pool.only_ensure _)).does) fun got _ => ?_
  rcases got with e | k
  · exact h
  dsimp only
  have hopen : G.Open c (if inTransaction then { st with txConn := some k }
      else { st with stmtConn := some k }).shadow := by
    split <;> exact h
  refine Prog.does_ite (fun hprepare => ?_) fun _ => Prog.does_ite (fun hcmd => ?_) fun _ => ?_
  · subst hprepare
    refine does_stmtPrepare hpg ?_ hopen
    rw [statements_prepare] at hraw
    exact hraw _ (.head _)
  · exact does_stmtWithId hpg hcmd hraw hopen
  · exact Prog.does_bind (does_sendRaw (hpg ▸ hraw) (.inl rfl)) fun r _ => hopen

end Mysql

/-! ### The turns of a MySQL session -/

section MysqlTurns

open MysqlSession

variable {st : MysqlSession}

theorem Serves.mysql_same {st' : MysqlSession} (h : G.Serves c (.mysql st)) (hs : Same st st') :
    G.Serves c (.mysql st') := by
  obtain ⟨hpg, hwrites, hinit, hshadow⟩ := h
  refine ⟨hpg, hs.allowWrites.trans hwrites, ?_, ?_⟩
  · rw [hs.sessionInitSqls]
    exact hinit
  · rw [hs.shadow]
    exact hshadow

theorem does_mysql_settleStmt {r : Except Str Response} (h : G.Serves c (.mysql st)) :
    (st.settleStmt r).Does (G.Lets c) fun st' => G.Serves c (.mysql st') := by
  have hrest : ∀ sent : Bool, (st.flushStmt sent).Does (G.Lets c) fun st' => G.Serves c (.mysql st') := by
    intro sent
    refine Prog.does_ite (fun _ => ⟨lets_silent rfl, fun flushed => ?_⟩) fun _ => h
    refine Prog.does_ite (fun _ => Prog.does_ite (fun _ => ?_) fun _ => h) fun _ => h
    refine (does_silent releaseStmt_does).mono (fun _ h => h) fun st' hst' => ?_
    subst hst'
    exact h
  rcases r with e | response
  · exact ⟨lets_silent rfl, fun _ => hrest true⟩
  · exact Prog.does_ite (fun _ => hrest true) fun _ => ⟨lets_silent rfl, hrest⟩

theorem does_mysql_stmt {raw : Bytes} (h : G.Serves c (.mysql st))
    (hraw : ∀ t ∈ (Packet.raw raw).statements false, G.good c t) :
    (st.stmt raw).Does (G.Lets c) fun st' => G.Serves c (.mysql st') := by
  obtain ⟨hpg, hwrites, hinit, hshadow⟩ := h
  rw [stmt]
  refine Prog.does_bind (does_routeStmt hpg hraw hshadow) fun r hopen => ?_
  exact does_mysql_settleStmt ⟨hpg, hwrites, hinit, hopen⟩

theorem does_mysql_other {raw : Bytes} (h : G.Serves c (.mysql st))
    (hraw : ∀ t ∈ (Packet.raw raw).statements false, G.good c t) :
    (st.other raw).Does (G.Lets c) fun st' => G.Serves c (.mysql st') := by
  have hsent : ∀ t ∈ (Packet.raw raw).statements c.postgres, G.good c t := by
    rw [h.1]
    exact hraw
  have hroute : (routeRawInner raw st.txConn st.inTransaction none).Does (G.Lets c) fun _ => True := by
    rw [routeRawInner]
    refine Prog.does_bind (does_silent (silent_act rfl).does) fun pool _ => ?_
    refine Prog.does_ite (fun _ => ?_) fun _ => ?_
    · refine Prog.does_bind (does_silent (silent_pool (pool.only_ensure _)).does) fun got _ => ?_
      rcases got with e | k
      · trivial
      · exact Prog.does_bind (does_sendRaw hsent (.inl rfl)) fun r _ => trivial
    · refine Prog.does_bind (does_silent (silent_pool PoolRef.only_getPrimary).does) fun got _ => ?_
      rcases got with e | k
      · trivial
      refine Prog.does_bind (does_sendRaw hsent (.inl rfl)) fun r _ => ?_
      rcases r with e | response
      · exact Prog.does_bind (does_silent (silent_act rfl).does) fun _ _ => trivial
      · exact Prog.does_bind (does_silent (silent_pool (PoolRef.only_putPrimary k)).does) fun _ _ => trivial
  rw [other]
  refine Prog.does_bind hroute fun r _ => ?_
  refine (does_silent (answer_does r.2)).mono (fun _ h => h) fun st' hst' => ?_
  refine Serves.mysql_same ?_ hst'.same
  exact h

theorem wp_mysql_react {e : MysqlEvent} {p : Task MysqlSession} (h : G.Serves c (.mysql st))
    (ha : G.Admits c (.mysql e)) (hp : st.react cfg.mysql e = some p) :
    p.wp G.contract (fun st' g' => G.Serves c (.mysql st') ∧ g' = some c) (some c) := by
  have hping : ((do
      let sent : Bool ← act (.toClient .ok)
      pure (if sent then st else st.close)) : Task MysqlSession).Does (G.Lets c)
        fun st' => G.Serves c (.mysql st') := by
    refine ⟨lets_silent rfl, fun sent => ?_⟩
    cases sent
    · exact h
    · exact h
  obtain ⟨-, rfl⟩ := react_eq_some hp
  cases e with
  | query bytes => exact wp_mysql_query h ha
  | stmt raw => exact wp_of_lets (does_mysql_stmt h ha)
  | other raw => exact wp_of_lets (does_mysql_other h ha)
  | ping => exact wp_of_lets hping
  | resetConnection =>
    refine wp_of_lets ((does_silent resetConnection_does).mono (fun _ h => h) fun st' hst' => ?_)
    obtain ⟨hwrites, -, hinit, hshadow⟩ := hst'
    refine ⟨h.1, hwrites.trans h.2.1, ?_, ?_⟩
    · rw [hinit]
      exact fun _ h => (by cases h)
    · rw [hshadow]
      exact fun _ h => (by cases h)
  | quit => exact ⟨h, rfl⟩
  | cleanup => exact wp_of_lets ((does_silent cleanup_does).mono (fun _ h => h) fun st' hst' => h.mysql_same hst')

end MysqlTurns

/-! ### The turns of a PostgreSQL session -/

section PgTurns

open PgSession

variable {st : PgSession}

theorem Serves.pg_same {st' : PgSession} (h : G.Serves c (.pg st)) (hs : Same st st') :
    G.Serves c (.pg st') := by
  obtain ⟨hpg, hwrites, hinit, hshadow⟩ := h
  refine ⟨hpg, hs.allowWrites.trans hwrites, ?_, ?_⟩
  · rw [hs.sessionInitSqls]
    exact hinit
  · rw [hs.shadow]
    exact hshadow

theorem does_pg_releaseStmt : st.releaseStmt.Does (G.Lets c) (Same st) := by
  rw [releaseStmt]
  rcases st.stmtConn with _ | k
  · exact ⟨rfl, rfl, rfl⟩
  · refine Prog.does_bind (R := fun _ => True) ⟨fun t ht => (by cases ht), fun _ => trivial⟩ fun _ _ => ?_
    exact Prog.does_bind (does_silent (silent_putPrimary k (some st.database)).does)
      fun _ _ => ⟨rfl, rfl, rfl⟩

theorem does_pg_start (h : G.Serves c (.pg st)) :
    (st.start cfg.pg).Does (G.Lets c) fun st' => G.Serves c (.pg st') := by
  have hreplayed : ∀ sql ∈ st.sessionInitSqls, G.tame c (asChecked c.postgres sql) := by
    rw [h.1]
    exact h.2.2.1
  rw [start]
  refine Prog.does_ite (fun _ => h) fun _ => ?_
  refine Prog.does_bind (does_silent (silent_pool PoolRef.only_getPrimary).does) fun got _ => ?_
  rcases got with e | k
  · exact h
  · refine Prog.does_bind (does_replay hreplayed) fun _ _ => ?_
    exact Prog.does_bind (does_silent (silent_putPrimary k (some st.database)).does) fun _ _ => h

/-- What the shadow has after a scan may be sent. -/
theorem applyScan_sound {s : PgStmtShadow} {scan : PgPipelineScan} {P : Str × Str → Prop}
    (hs : ∀ e ∈ s.stmts, P e) (hscan : ∀ e ∈ scan.parses, e.1 ≠ [] → P e) :
    ∀ e ∈ (s.applyScan scan).stmts, P e := by
  have hparsed : ∀ e ∈ (s.register scan.parses).stmts, P e := by
    refine List.foldlRecOn (motive := fun s : PgStmtShadow => ∀ e ∈ s.stmts, P e) _ _ hs
      fun s hs e he => ?_
    split
    · exact hs
    · rename_i hne
      intro e' he'
      rcases List.mem_cons.mp he' with rfl | he'
      · exact hscan e he fun h => hne (List.isEmpty_iff.mpr h)
      · exact hs e' (List.mem_of_mem_filter he')
  exact List.foldlRecOn (motive := fun s : PgStmtShadow => ∀ e ∈ s.stmts, P e) _ _ hparsed
    fun s hs name _ e' he' => hs e' (List.mem_of_mem_filter he')

theorem does_reprepareAll {k : ConnId} {jobs : List Bytes}
    (hjobs : ∀ job ∈ jobs, ∀ t ∈ (Packet.raw job).statements c.postgres, G.good c t) :
    (reprepareAll k jobs).Does (G.Lets c) fun _ => True := by
  induction jobs with
  | nil => trivial
  | cons job rest ih =>
    rw [reprepareAll]
    refine Prog.does_bind (does_sendRaw (hjobs _ (.head _)) (.inr rfl)) fun _ _ => ?_
    exact ih fun job hjob => hjobs job (.tail _ hjob)

theorem does_routePipeline (hpg : c.postgres = true) {raw : Bytes} {scan : PgPipelineScan}
    {shadow : PgStmtShadow} {stmtConn txConn : Option ConnId} {inTransaction : Bool} {db : Option Str}
    (hraw : ∀ t ∈ (Packet.raw raw).statements true, G.good c t)
    (hshadow : ∀ e ∈ shadow.stmts, Wired e ∧ G.good c (trim e.2)) :
    (routeStmtPgShadowInner raw scan shadow stmtConn txConn inTransaction db).Does (G.Lets c)
      fun _ => True := by
  have hsent : ∀ t ∈ (Packet.raw raw).statements c.postgres, G.good c t := by
    rw [hpg]
    exact hraw
  have hjobs : ∀ names, ∀ job ∈ shadow.buildReprepareFor names,
      ∀ t ∈ (Packet.raw job).statements c.postgres, G.good c t := by
    intro names job hjob t ht
    obtain ⟨e, he, rfl⟩ := List.mem_map.mp hjob
    obtain ⟨hwired, hgood⟩ := hshadow e (List.mem_of_mem_filter he)
    rw [hpg, statements_reparse hwired] at ht
    obtain rfl := List.mem_singleton.mp ht
    exact hgood
  rw [routeStmtPgShadowInner]
  refine Prog.does_bind (does_silent (silent_act rfl).does) fun pool _ => ?_
  refine Prog.does_bind (does_silent (silent_pool (pool.only_ensure _)).does) fun got _ => ?_
  rcases got with e | k
  · trivial
  refine Prog.does_ite (fun _ => ?_) fun _ => ?_
  · exact Prog.does_bind (does_sendRaw hsent (.inl rfl)) fun r _ => trivial
  refine Prog.does_bind (does_sendRaw hsent (.inl rfl)) fun r _ => ?_
  rcases r with e | response
  · refine Prog.does_ite (fun _ => ?_) fun _ => trivial
    refine Prog.does_bind (does_silent (silent_pool PoolRef.only_getPrimary).does) fun again _ => ?_
    rcases again with e | fresh
    · trivial
    refine Prog.does_bind (does_reprepareAll (hjobs _)) fun _ _ => ?_
    refine Prog.does_bind (does_sendRaw hsent (.inl rfl)) fun retry _ => ?_
    exact Prog.does_bind (does_silent (silent_act rfl).does) fun _ _ => trivial
  · trivial

theorem does_pg_settleStmt {r : Except Str Response} (h : G.Serves c (.pg st)) :
    (st.settleStmt r).Does (G.Lets c) fun st' => G.Serves c (.pg st') := by
  refine Prog.does_bind (does_silent (followStatus_does _)) fun st₁ h₁ => ?_
  replace h₁ := h.pg_same h₁
  have hrest : ∀ sent : Bool, (st₁.flushStmt sent).Does (G.Lets c) fun st' => G.Serves c (.pg st') := by
    intro sent
    refine Prog.does_ite (fun _ => ⟨lets_silent rfl, fun flushed => ?_⟩) fun _ => h₁
    refine Prog.does_ite (fun _ => Prog.does_ite (fun _ => ?_) fun _ => h₁) fun _ => h₁
    exact does_pg_releaseStmt.mono (fun _ h => h) fun st' hst' => h₁.pg_same hst'
  rcases r with e | response
  · exact ⟨lets_silent rfl, fun _ => hrest true⟩
  · exact ⟨lets_silent rfl, hrest⟩

theorem does_pg_stmt {raw : Bytes} (h : G.Serves c (.pg st))
    (hraw : ∀ t ∈ (Packet.raw raw).statements true, G.good c t)
    (hfits : ∀ e ∈ (scanPgPipeline raw).parses, Fits e) :
    (st.stmt raw).Does (G.Lets c) fun st' => G.Serves c (.pg st') := by
  obtain ⟨hpg, hwrites, hinit, hshadow⟩ := h
  have hscanned : ∀ e ∈ (st.shadow.applyScan (scanPgPipeline raw)).stmts, Wired e ∧ G.good c (trim e.2) :=
    applyScan_sound hshadow fun e he hne =>
      ⟨wired_of_scan he hne (hfits e he), hraw _ (statements_scan he)⟩
  rw [stmt]
  refine Prog.does_bind (does_routePipeline hpg hraw hscanned) fun r _ => ?_
  exact does_pg_settleStmt ⟨hpg, hwrites, hinit, hscanned⟩

theorem does_pg_other {raw : Bytes} (h : G.Serves c (.pg st))
    (hraw : ∀ t ∈ (Packet.raw raw).statements true, G.good c t) :
    (st.other cfg.pg raw).Does (G.Lets c) fun st' => G.Serves c (.pg st') := by
  have hsent : ∀ t ∈ (Packet.raw raw).statements c.postgres, G.good c t := by
    rw [h.1]
    exact hraw
  rw [other]
  refine Prog.does_bind (does_silent (silent_pool PoolRef.only_getPrimary).does) fun got _ => ?_
  rcases got with e | k
  · refine Prog.does_bind (does_silent (refuse_does _ _)) fun st₁ h₁ => ?_
    refine h.pg_same ?_
    exact ⟨h₁.1, h₁.2, h₁.3⟩
  refine Prog.does_bind (does_sendRaw hsent (.inl rfl)) fun r _ => ?_
  rcases r with e | response
  · refine ⟨lets_silent rfl, fun _ => ?_⟩
    refine Prog.does_bind (p := st.flush) (does_silent flush_does) fun st₁ h₁ => ?_
    exact ⟨lets_silent rfl, fun _ => h.pg_same h₁⟩
  · have hstatus : G.Serves c (.pg (st.noteStatus response)) := by
      unfold PgSession.noteStatus
      split
      · exact h
      · exact h
    refine Prog.does_bind (does_silent (silent_putPrimary k _).does) fun _ _ => ?_
    refine ⟨lets_silent rfl, fun sent => Prog.does_ite (fun _ => ?_) fun _ => hstatus⟩
    exact (does_silent flush_does).mono (fun _ h => h) fun st' hst' => hstatus.pg_same hst'

theorem wp_pg_react {e : PgEvent} {p : Task PgSession} (h : G.Serves c (.pg st))
    (ha : G.Admits c (.pg e)) (hp : st.react cfg.pg e = some p) :
    p.wp G.contract (fun st' g' => G.Serves c (.pg st') ∧ g' = some c) (some c) := by
  have hcleanup : st.cleanup.Does (G.Lets c) fun st' => G.Serves c (.pg st') := by
    unfold cleanup
    refine Prog.does_bind (does_silent releaseTx_does) fun st₁ h₁ => ?_
    refine Prog.does_bind does_pg_releaseStmt fun st₂ h₂ => ?_
    have h₃ := h₁.trans h₂
    exact h.pg_same ⟨h₃.1, h₃.2, h₃.3⟩
  obtain ⟨-, rfl⟩ := react_eq_some hp
  cases e with
  | start => exact wp_of_lets (does_pg_start h)
  | query bytes => exact wp_pg_query h ha
  | stmt raw => exact wp_of_lets (does_pg_stmt h ha.1 ha.2)
  | other raw => exact wp_of_lets (does_pg_other h ha)
  | quit => exact ⟨h, rfl⟩
  | cleanup => exact wp_of_lets hcleanup

end PgTurns

end Gate

end TurbineProxy
