import TurbineProxy.Gates

/-!
# Enforcement along runs

The right to write and the query allowlist, as gates. `Gate.lets_of_steps` carries a gate along the runs
of the proxy whose messages it admits (`Gate.passes`); `reader_sends_no_write` and
`only_listed_reach_a_backend` are its two instances.
-/

namespace TurbineProxy

open Str

variable {srv : Server} {cfg : ProxyConfig}

/-! ## Runs -/

namespace Gate

variable (G : Gate cfg)

/-- The environment's decision leads a client's query to nothing that may not be sent. -/
def Accepts (c : Client) (o : Op) (d : In o) : Prop :=
  match o, d with
  | .rewrite _, (.rewritten sql : RewriteOutcome) => G.good c (asChecked c.postgres sql)
  | .matchQuery sql _ _, (m : Option RuleMatch) =>
    m.elim false (·.fastForward) = true → G.good c (asChecked c.postgres sql)
  | _, _ => True

/-- The steps on which nothing passes a gate unchecked: every message of a client is admitted, and the
rules of the proxy lead no query past the gate. -/
def passes (clients : List Client) (s : ProxyState srv) : ProxyEvent → Prop
  | .msg i m => ∀ c ∈ clients[i]?, G.Admits c m
  | .op i inp => ∀ c ∈ clients[i]?, ∀ o ∈ s.next i, G.Accepts c o (inp o)
  | .env _ | .stop _ => True

variable {G}

theorem answers_of_accepts {w w' : World srv} {i : Nat} {c : Client} {o : Op} {d : In o} {r : Res o}
    (hd : G.Accepts c o d) (h : w.handle i o d = some (w', r)) : G.Answers c o r := by
  cases o with
  | rewrite sql =>
    obtain ⟨-, rfl⟩ := Prod.mk.inj (Option.some.inj h)
    cases d <;> exact hd
  | matchQuery sql user schema =>
    obtain ⟨-, rfl⟩ := Prod.mk.inj (Option.some.inj h)
    exact hd
  | _ => trivial

/-- What is known of an idle session: it serves its client, or nobody is there. -/
def Idle (G : Gate cfg) (g : Option Client) (st : Session) : Prop := st = .absent ∨ ∃ c, g = some c ∧ G.Serves c st

theorem wp_react {g : Option Client} {st : Session} {m : SessionEvent} {p : Task Session}
    (hidle : G.Idle g st) (ha : ∀ c ∈ g, G.Admits c m) (hp : st.react cfg m = some p) :
    p.wp G.contract (fun st' g' => G.Idle g' st') g := by
  rcases hidle with rfl | ⟨c, rfl, hserves⟩
  · rw [Session.react_absent] at hp
    cases hp
  · rcases st with st | st <;> rcases m with e | e
    · obtain ⟨q, hq, rfl⟩ := Option.map_eq_some_iff.mp hp
      rw [Prog.wp_bind]
      exact Prog.wp_mono (wp_mysql_react hserves (ha c rfl) hq) fun st' g' h => .inr ⟨c, h.2, h.1⟩
    · cases hp
    · cases hp
    · obtain ⟨q, hq, rfl⟩ := Option.map_eq_some_iff.mp hp
      rw [Prog.wp_bind]
      exact Prog.wp_mono (wp_pg_react hserves (ha c rfl) hq) fun st' g' h => .inr ⟨c, h.2, h.1⟩

/-- Every session of a client sends only what may be sent for it. -/
def outline (G : Gate cfg) (srv : Server) (clients : List Client) :
    Outline (proxy srv cfg) (G.passes clients) (Option Client) where
  inv _ := True
  hold _ i := clients[i]?
  proto _ _ _ := G.contract
  idle _ g st := G.Idle g st
  msg_ok _ _ hidle hok hreact := wp_react hidle hok hreact
  op_ok _ hi _ hok hh :=
    ⟨trivial, rfl, rfl, ⟨rfl, fun c hc => answers_of_accepts (hok c hc _ (Sys.next_eq hi)) hh⟩,
      fun _ _ => rfl⟩
  env_ok _ _ _ := ⟨trivial, fun _ => rfl, .inl ⟨rfl, rfl⟩⟩
  stop_ok _ _ hst := by
    cases hst
    exact ⟨trivial, rfl, rfl, .inl rfl, fun _ _ => rfl⟩

theorem outline_start {clients : List Client} (primary : PoolConfig) (replicas : List PoolConfig)
    (hinit : ∀ c ∈ clients, ∀ sql ∈ c.initSqls, G.tame c (asChecked c.postgres sql)) :
    (G.outline srv clients).Good (proxyStart srv primary replicas clients) := by
  refine ⟨trivial, fun i => ?_⟩
  change G.Idle clients[i]? (clients[i]?.elim .absent Client.session)
  rcases hc : clients[i]? with _ | c
  · exact .inl rfl
  · have hsqls := hinit c (List.mem_of_getElem? hc)
    refine .inr ⟨c, rfl, ?_⟩
    change G.Serves c c.session
    rcases hpg : c.postgres with _ | _
    · rw [hpg] at hsqls
      rw [Client.session, hpg]
      exact ⟨hpg, rfl, hsqls, fun _ h => by cases h⟩
    · rw [hpg] at hsqls
      rw [Client.session, hpg]
      exact ⟨hpg, rfl, hsqls, fun _ h => by cases h⟩

/-- Along a run that passes the gate, every operation of a client's session sends only what may be sent. -/
theorem lets_of_steps {primary : PoolConfig} {replicas : List PoolConfig} {clients : List Client}
    {es : List ProxyEvent} {s : ProxyState srv}
    (hinit : ∀ c ∈ clients, ∀ sql ∈ c.initSqls, G.tame c (asChecked c.postgres sql))
    (hrun : Steps (proxy srv cfg).step (G.passes clients) (proxyStart srv primary replicas clients) es s)
    {i : Nat} {c : Client} (hc : clients[i]? = some c) {o : Op} (ho : s.next i = some o) :
    G.Lets c o := by
  obtain ⟨st, m, k, hi⟩ := Sys.next_eq_some ho
  exact ((G.outline srv clients).steps hrun (outline_start primary replicas hinit)).owes hi c hc

end Gate

/-! ## The right to write -/

/-- The assignments the proxy replays are no writes. -/
theorem classify_setSession (rest : Str) : classify ("SET SESSION ".toList ++ rest) ≠ .write := by
  have hother : classify ("SET SESSION ".toList ++ rest) = .other := by rfl
  rw [hother]
  exact fun h => by cases h

/-- Whether a statement may be sent for a client that may not write. -/
def readable (c : Client) (sql : Str) : Prop := c.allowWrites = true ∨ classify sql ≠ .write

instance (c : Client) (sql : Str) : Decidable (readable c sql) := inferInstanceAs (Decidable (_ ∨ _))

theorem readable_of_checked {c : Client} {sql : Str} (h : c.refuses cfg sql = false) : readable c sql := by
  have hwrite : (!c.allowWrites && classify sql == .write) = false := by
    rw [Client.refuses] at h
    split at h
    · simp only [PgConfig.refuses, Bool.or_eq_false_iff] at h
      exact h.1.1
    · simp only [MysqlConfig.refuses, Bool.or_eq_false_iff] at h
      exact h.1.1
  rw [readable]
  cases hw : c.allowWrites
  · rw [hw] at hwrite
    exact .inr (by simpa using hwrite)
  · exact .inl rfl

/-- The gate of the right to write. -/
def writeGate (cfg : ProxyConfig) : Gate cfg where
  good := readable
  tame := readable
  kept _ _ h := h
  checked _ _ h := readable_of_checked h
  reported c name value _ := .inr <| by
    rw [List.append_assoc, List.append_assoc]
    exact classify_setSession _

/-- **A session that may not write sends no write**, in every run on which no write of its client comes
by a way that is not checked (`Gate.Admits`) and no rule of the proxy makes one or fast-forwards one. -/
theorem reader_sends_no_write {primary : PoolConfig} {replicas : List PoolConfig} {clients : List Client}
    {es : List ProxyEvent} {s : ProxyState srv}
    (hinit : ∀ c ∈ clients, c.allowWrites = false → ∀ sql ∈ c.initSqls,
      classify (asChecked c.postgres sql) ≠ .write)
    (hrun : Steps (proxy srv cfg).step ((writeGate cfg).passes clients)
      (proxyStart srv primary replicas clients) es s)
    {i : Nat} {c : Client} (hc : clients[i]? = some c) (hreader : c.allowWrites = false) {o : Op}
    (ho : s.next i = some o) : ∀ t ∈ o.statements c.postgres, classify t ≠ .write := by
  intro t ht
  have hsqls : ∀ c ∈ clients, ∀ sql ∈ c.initSqls, readable c (asChecked c.postgres sql) := by
    intro c hc sql hsql
    rcases hw : c.allowWrites with _ | _
    · exact .inr (hinit c hc hw sql hsql)
    · exact .inl hw
  have hlets : readable c t := (ite_self (c := o.replays = true) (readable c t)) ▸
    Gate.lets_of_steps (G := writeGate cfg) hsqls hrun hc ho t ht
  rcases hlets with hw | hread
  · rw [hreader] at hw
    cases hw
  · exact hread

/-- A MySQL client that may not write. -/
def readerClient : Client := { mysqlClient with allowWrites := false }

/-- No rule of the proxy has a say. -/
def unruled (o : Op) (d : In o) : Bool :=
  match o, d with
  | .rewrite _, (.rewritten _ : RewriteOutcome) => false
  | .matchQuery .., (m : Option RuleMatch) => m.isNone
  | _, _ => true

/-- One message is received, and no rule of the proxy has a say. -/
def plainRun (m : SessionEvent) (s : ProxyState srv) : ProxyEvent → Bool
  | .msg _ m' => decide (m' = m)
  | .op i inp => (s.next i).all fun o => unruled o (inp o)
  | .env _ | .stop _ => true

theorem Gate.passes_of_plainRun {G : Gate cfg} {clients : List Client} {m : SessionEvent}
    (hm : ∀ c ∈ clients, G.Admits c m) (s : ProxyState srv) (e : ProxyEvent)
    (h : plainRun m s e = true) : G.passes clients s e := by
  cases e with
  | msg i m' =>
    obtain rfl : m' = m := of_decide_eq_true h
    exact fun c hc => hm c (List.mem_of_getElem? hc)
  | op i inp =>
    intro c _ o ho
    have hquiet : unruled o (inp o) = true := by
      have hall : (s.next i).all (fun o => unruled o (inp o)) = true := h
      rw [(ho : s.next i = some o)] at hall
      exact hall
    cases o with
    | rewrite sql =>
      revert hquiet
      rcases (inp (.rewrite sql) : RewriteOutcome) with _ | text | msg
      · exact fun _ => trivial
      · exact fun h => by cases h
      · exact fun _ => trivial
    | matchQuery sql user schema =>
      have hnone : (inp (.matchQuery sql user schema) : Option RuleMatch) = none :=
        Option.isNone_iff_eq_none.mp hquiet
      simp [Accepts, hnone]
    | _ => trivial
  | env e => trivial
  | stop i => trivial

/-- The statements session `i` is about to send at the end of a run. -/
def sending (postgres : Bool) (i : Nat) (end_ : Option (ProxyState srv)) : Option (List Str) :=
  end_.bind fun s => (s.next i).map fun o => o.statements postgres

theorem sending_eq_some {postgres : Bool} {i : Nat} {end_ : Option (ProxyState srv)} {ts : List Str}
    (h : sending postgres i end_ = some ts) :
    ∃ s o, end_ = some s ∧ s.next i = some o ∧ o.statements postgres = ts := by
  obtain ⟨s, hs, h⟩ := Option.bind_eq_some_iff.mp h
  obtain ⟨o, ho, h⟩ := Option.map_eq_some_iff.mp h
  exact ⟨s, o, hs, ho, h⟩

/-- A read of a client that may not write, until it is sent. -/
def readSent : List ProxyEvent := turn 0 (.mysql (.query (asciiBytes "SELECT 1"))) 10 (calm 0 none)

theorem reader_sends_no_write_readSent :
    ∃ s o, run (proxy .mysql smallConfig).step (proxyStart .mysql smallPool [] [readerClient]) readSent =
        some s ∧ s.next 0 = some o ∧ o.statements false = ["SELECT 1".toList] ∧
      ∀ t ∈ o.statements false, classify t ≠ .write := by
  have hadmits : ∀ c ∈ [readerClient],
      (writeGate smallConfig).Admits c (.mysql (.query (asciiBytes "SELECT 1"))) := by
    intro c hc
    obtain rfl := List.mem_singleton.mp hc
    refine ⟨fun h => (by cases h), fun _ => ?_, fun h => ?_⟩
    · exact (by decide +kernel : readable readerClient (fromUtf8Lossy (asciiBytes "SELECT 1")))
    · exact (by decide +kernel : readable readerClient (textOf (asciiBytes "SELECT 1")))
  obtain ⟨s, o, hs, ho, hsent⟩ := sending_eq_some (show sending false 0 (run (fun s e =>
      if plainRun (.mysql (.query (asciiBytes "SELECT 1"))) s e then
        (proxy .mysql smallConfig).step s e else none)
      (proxyStart .mysql smallPool [] [readerClient]) readSent) = some ["SELECT 1".toList] by
    decide +kernel)
  have hsteps := steps_of_checked (Gate.passes_of_plainRun hadmits) hs
  refine ⟨s, o, hsteps.run, ho, hsent, reader_sends_no_write ?_ hsteps (c := readerClient) rfl rfl ho⟩
  intro c hc _ sql hsql
  obtain rfl := List.mem_singleton.mp hc
  cases hsql

/-- A client that may not write prepares one. -/
def preparedDelete : List ProxyEvent :=
  turn 0 (.mysql (.stmt (Com.stmtPrepare :: asciiBytes "DELETE FROM t"))) 5 (calm 0 none)

/-- A `DELETE` of a client that may not write reaches its backend as the text of a `COM_STMT_PREPARE`, which nothing
checks. -/
theorem prepared_write_sent : ¬ ∀ (srv : Server) (cfg : ProxyConfig) (primary : PoolConfig)
    (replicas : List PoolConfig) (clients : List Client) (es : List ProxyEvent) (s : ProxyState srv),
    run (proxy srv cfg).step (proxyStart srv primary replicas clients) es = some s →
    ∀ i c, clients[i]? = some c → c.allowWrites = false → ∀ o, s.next i = some o →
      ∀ t ∈ o.statements c.postgres, classify t ≠ .write := by
  intro h
  obtain ⟨s, o, hs, ho, hsent⟩ := sending_eq_some (show sending false 0 (run (proxy .mysql smallConfig).step
      (proxyStart .mysql smallPool [] [readerClient]) preparedDelete) = some ["DELETE FROM t".toList] by
    decide +kernel)
  have hmem : "DELETE FROM t".toList ∈ o.statements false := by
    rw [hsent]
    exact .head _
  exact h _ _ _ _ _ _ s hs 0 readerClient rfl rfl o ho _ hmem (by decide +kernel)

/-! ## The allowlist -/

/-- The allowlist has a statement. -/
def Client.listed (cfg : ProxyConfig) (c : Client) (sql : Str) : Bool :=
  if c.postgres then cfg.pg.whitelistAllows sql else cfg.mysql.whitelistAllows sql

/-- A statement that the proxy sends on its own account: configured for the client's user, or an
assignment of a variable that a backend reported. -/
def Client.ownStatement (cfg : ProxyConfig) (c : Client) (sql : Str) : Prop :=
  sql ∈ c.initSqls.map (asChecked c.postgres) ∨
    ∃ name value : Str, sql = "SET SESSION ".toList ++ name ++ "=".toList ++ cfg.mysql.debugStr value

/-- The gate of the allowlist. -/
def listGate (cfg : ProxyConfig) : Gate cfg where
  good c sql := c.listed cfg sql = true
  tame c sql := c.listed cfg sql = true ∨ c.ownStatement cfg sql
  kept _ _ h := .inl h
  checked c sql h := by
    rw [Client.refuses] at h
    rw [Client.listed]
    split at h
    · rename_i hpg
      rw [if_pos hpg]
      simp only [PgConfig.refuses, Bool.or_eq_false_iff, Bool.not_eq_false'] at h
      exact h.2
    · rename_i hpg
      rw [if_neg hpg]
      simp only [MysqlConfig.refuses, Bool.or_eq_false_iff, Bool.not_eq_false'] at h
      exact h.2
  reported _ name value _ := .inr (.inr ⟨name, value, rfl⟩)

/-- **Only what the allowlist has reaches a backend**, the proxy's own statements apart, in every run on
which nothing that the list does not have comes by a way that is not checked (`Gate.Admits`) and no rule
of the proxy makes such a thing or fast-forwards it. -/
theorem only_listed_reach_a_backend {primary : PoolConfig} {replicas : List PoolConfig}
    {clients : List Client} {es : List ProxyEvent} {s : ProxyState srv}
    (hrun : Steps (proxy srv cfg).step ((listGate cfg).passes clients)
      (proxyStart srv primary replicas clients) es s)
    {i : Nat} {c : Client} (hc : clients[i]? = some c) {o : Op} (ho : s.next i = some o) :
    ∀ t ∈ o.statements c.postgres, c.listed cfg t = true ∨ o.replays = true ∧ c.ownStatement cfg t := by
  intro t ht
  have hsqls : ∀ c ∈ clients, ∀ sql ∈ c.initSqls, (listGate cfg).tame c (asChecked c.postgres sql) :=
    fun c _ sql hsql => .inr (.inl (List.mem_map_of_mem hsql))
  have hlets := Gate.lets_of_steps hsqls hrun hc ho t ht
  split at hlets
  · rename_i hreplay
    exact hlets.imp id fun hown => ⟨hreplay, hown⟩
  · exact .inl hlets

/-- A proxy whose allowlist has one query. -/
def listConfig : ProxyConfig :=
  { smallConfig with
    mysql := { smallConfig.mysql with whitelistAllows := fun sql => sql == "SELECT 1".toList } }

theorem only_listed_reach_a_backend_readSent :
    ∃ s o, run (proxy .mysql listConfig).step (proxyStart .mysql smallPool [] [mysqlClient]) readSent =
        some s ∧ s.next 0 = some o ∧ o.statements false = ["SELECT 1".toList] ∧
      ∀ t ∈ o.statements false,
        mysqlClient.listed listConfig t = true ∨ o.replays = true ∧ mysqlClient.ownStatement listConfig t := by
  have hadmits : ∀ c ∈ [mysqlClient],
      (listGate listConfig).Admits c (.mysql (.query (asciiBytes "SELECT 1"))) := by
    intro c hc
    obtain rfl := List.mem_singleton.mp hc
    refine ⟨fun h => (by cases h), fun _ => ?_, fun h => ?_⟩
    · exact (by decide +kernel : mysqlClient.listed listConfig (fromUtf8Lossy (asciiBytes "SELECT 1")) = true)
    · exact (by decide +kernel : mysqlClient.listed listConfig (textOf (asciiBytes "SELECT 1")) = true)
  obtain ⟨s, o, hs, ho, hsent⟩ := sending_eq_some (show sending false 0 (run (fun s e =>
      if plainRun (.mysql (.query (asciiBytes "SELECT 1"))) s e then
        (proxy .mysql listConfig).step s e else none)
      (proxyStart .mysql smallPool [] [mysqlClient]) readSent) = some ["SELECT 1".toList] by
    decide +kernel)
  have hsteps := steps_of_checked (Gate.passes_of_plainRun hadmits) hs
  exact ⟨s, o, hsteps.run, ho, hsent, only_listed_reach_a_backend hsteps (c := mysqlClient) rfl ho⟩

/-- A statement that the list does not have is prepared, and sent. -/
theorem unlisted_statement_sent : ¬ ∀ (srv : Server) (cfg : ProxyConfig) (primary : PoolConfig)
    (replicas : List PoolConfig) (clients : List Client) (es : List ProxyEvent) (s : ProxyState srv),
    cfg.mysql.fastForward = false →
    run (proxy srv cfg).step (proxyStart srv primary replicas clients) es = some s →
    ∀ i c, clients[i]? = some c → ∀ o, s.next i = some o → ∀ t ∈ o.statements c.postgres,
      c.listed cfg t = true ∨ o.replays = true ∧ c.ownStatement cfg t := by
  intro h
  obtain ⟨s, o, hs, ho, hsent⟩ := sending_eq_some (show sending false 0 (run (proxy .mysql listConfig).step
      (proxyStart .mysql smallPool [] [mysqlClient]) preparedDelete) = some ["DELETE FROM t".toList] by
    decide +kernel)
  have hplain : (s.next 0).map (·.replays) = some false := by
    have hend : (run (proxy .mysql listConfig).step (proxyStart .mysql smallPool [] [mysqlClient])
        preparedDelete).bind (fun s => (s.next 0).map (·.replays)) = some false := by
      decide +kernel
    rw [hs] at hend
    exact hend
  rw [ho] at hplain
  have hmem : "DELETE FROM t".toList ∈ o.statements false := by
    rw [hsent]
    exact .head _
  rcases h _ _ _ _ _ _ s rfl hs 0 mysqlClient rfl o ho _ hmem with hlisted | ⟨hreplay, -⟩
  · exact absurd hlisted (by decide +kernel)
  · rw [Option.map_some, hreplay] at hplain
    cases hplain

end TurbineProxy
