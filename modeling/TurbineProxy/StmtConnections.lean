import TurbineProxy.Accounts
import TurbineProxy.MysqlSteps
import TurbineProxy.StmtIds

/-!
# Statements and the connections they are prepared on

`MysqlStmtShadow` remembers one backend id for each statement of a session, and backend ids mean something on one
connection only. Here the two are kept together: the connection in `stmt_conn` has every open statement prepared under
the id that the shadow remembers for it (`Agreed`), through registrations, removals and the change to another
connection, so that a command for an open statement is sent where that statement is, under the id it has there
(`statements_found`).
-/

namespace TurbineProxy

variable {srv : Server}

/-!
## Servers with statements

A server of this kind keeps what is prepared on a connection until it is closed, and answers `PREPARE_OK` with an id
that was free.
-/

namespace Packet

/-- The bytes. -/
def bytes : Packet → Bytes
  | text sql => sql
  | raw bytes => bytes
  | silent bytes => bytes

/-- A command packet of the statement protocol. -/
def ofStmt : Packet → Bool
  | raw (cmd :: _) | silent (cmd :: _) => cmd == Com.stmtPrepare || mysqlHasStmtId cmd
  | _ => false

/-- The text of a `COM_STMT_PREPARE`. -/
def prepared : Packet → Option Bytes
  | raw (cmd :: sql) => if cmd = Com.stmtPrepare then some sql else none
  | _ => none

/-- The id in a `COM_STMT_CLOSE`. -/
def closes : Packet → Option Nat
  | raw (cmd :: rest) | silent (cmd :: rest) =>
    if cmd = Com.stmtClose then mysqlReadStmtId (cmd :: rest) else none
  | _ => none

end Packet

/-- The server keeps what has been prepared, under ids of its own choice. -/
structure Server.KeepsStatements (srv : Server) : Prop where
  /-- until it is closed -/
  stays : ∀ {s p choice n sql}, p.ofStmt = true → srv.stmt s n = some sql → p.closes ≠ some n →
    srv.stmt (srv.exec s p choice).1 n = some sql
  /-- the id in PREPARE_OK was free, and stands for the text now -/
  prepares : ∀ {s p sql choice n counts}, p.prepared = some sql →
    mysqlParsePrepareOk (srv.exec s p choice).2.response.bytes = some (n, counts) →
    srv.stmt s n = none ∧ srv.stmt (srv.exec s p choice).1 n = some sql

/-- What is known of an exchange with such a server. -/
structure StmtStep (p : Packet) (conn : Conn srv) (r : Except TalkError Response) (conn' : Conn srv) : Prop where
  /-- who lent the connection -/
  lender : conn'.lender = conn.lender
  /-- what is not closed stays -/
  stays : ∀ n sql, p.ofStmt = true → srv.stmt conn.sess n = some sql → p.closes ≠ some n →
    srv.stmt conn'.sess n = some sql
  /-- what is prepared is there -/
  prepares : ∀ sql response n counts, p.prepared = some sql → r = .ok response →
    mysqlParsePrepareOk response.bytes = some (n, counts) →
    srv.stmt conn.sess n = none ∧ srv.stmt conn'.sess n = some sql

theorem Conn.talk_sess (conn : Conn srv) (i : Nat) (p : Packet) (d : TalkInput) :
    (conn.talk i p d).1.sess = if d.executed then (srv.exec conn.sess p d.choice).1 else conn.sess := by
  unfold talk noteReply noteFault afterExec
  cases d.executed <;> rcases d.fault with _ | _ | _ | _ <;> rcases p with _ | _ | _ <;> dsimp only <;>
    (try split) <;> rfl

/-- A command that is answered has been executed. -/
theorem Conn.talk_prepared {conn : Conn srv} {i : Nat} {p : Packet} {d : TalkInput} {sql : Bytes}
    {response : Response} (hp : p.prepared = some sql) (h : (conn.talk i p d).2 = .ok response) :
    d.executed = true ∧ response = (srv.exec conn.sess p d.choice).2.response := by
  rcases d with ⟨_ | f, choice⟩
  · rcases p with _ | bytes | _
    · cases hp
    · exact ⟨rfl, (Except.ok.inj h).symm⟩
    · cases hp
  · cases h

theorem StmtStep.talk (hsrv : srv.KeepsStatements) (conn : Conn srv) (i : Nat) (p : Packet) (d : TalkInput) :
    StmtStep p conn (conn.talk i p d).2 (conn.talk i p d).1 := by
  refine ⟨(conn.talk_frame i p d).2.1, fun n sql hp hn hclose => ?_, fun sql response n counts hp hr hparse => ?_⟩
  · rw [conn.talk_sess]
    split
    · exact hsrv.stays hp hn hclose
    · exact hn
  · obtain ⟨hexec, rfl⟩ := Conn.talk_prepared hp hr
    rw [conn.talk_sess, if_pos hexec]
    exact hsrv.prepares hp hparse

/-! ## Shadows -/

/-- The statements of the shadow are prepared on the connection, under the ids it remembers. -/
def Agreed (s : MysqlStmtShadow) (conn : Conn srv) : Prop :=
  ∀ p info, s.get p = some info → srv.stmt conn.sess info.backendId = some info.query

namespace MysqlStmtShadow

/-- What the shadow of a session is like. -/
structure Sound (s : MysqlStmtShadow) : Prop where
  /-- one entry for each statement -/
  keys : (s.stmts.map Prod.fst).Nodup
  /-- backend ids are `u32` -/
  small : ∀ p info, s.get p = some info → info.backendId < 2 ^ 32
  /-- and differ -/
  apart : ∀ p q info info', s.get p = some info → s.get q = some info' →
    info.backendId = info'.backendId → p = q

theorem sound_new : new.Sound where
  keys := List.nodup_nil
  small _ _ h := by cases h
  apart _ _ _ _ h := by cases h

variable {s : MysqlStmtShadow}

theorem get_eq_none_of_nil (h : s.stmts = []) (p : Nat) : s.get p = none := by
  rw [get, h]
  rfl

theorem get_registered (query : Bytes) (a b n p : Nat) :
    (s.register query a b n).1.get p = if p = s.nextId then some ⟨query, a, b, n⟩ else s.get p := by
  rw [get, register, lookup_cons_eq, erase, lookup_filter_ne]
  split <;> rfl

theorem get_removed (id p : Nat) : (s.remove id).get p = if p = id then none else s.get p := by
  rw [get, remove, erase, lookup_filter_ne]
  rfl

theorem get_renewed (ids : List (Nat × Nat)) (p : Nat) :
    (s.updateBackendIds ids).get p = (s.get p).map (MysqlStmtInfo.renew ids p) := by
  rw [get, stmts_updateBackendIds, lookup_map_entries (MysqlStmtInfo.renew ids)]
  rfl

theorem Sound.register (h : s.Sound) {query : Bytes} {a b n : Nat} (hn : n < 2 ^ 32)
    (hfresh : ∀ p info, s.get p = some info → info.backendId ≠ n) : (s.register query a b n).1.Sound where
  keys := by
    refine List.nodup_cons.mpr ⟨fun hmem => ?_, keys_filter h.keys _⟩
    obtain ⟨e, he, heq⟩ := List.mem_map.mp hmem
    have hne := (List.mem_filter.mp he).2
    simp [heq] at hne
  small p info hp := by
    rw [get_registered] at hp
    split at hp
    · obtain rfl := Option.some.inj hp
      exact hn
    · exact h.small p info hp
  apart p q info info' hp hq heq := by
    rw [get_registered] at hp hq
    split at hp <;> split at hq
    · rename_i hp' hq'
      rw [hp', hq']
    · obtain rfl := Option.some.inj hp
      exact absurd heq.symm (hfresh q info' hq)
    · obtain rfl := Option.some.inj hq
      exact absurd heq (hfresh p info hp)
    · exact h.apart p q info info' hp hq heq

theorem Sound.remove (h : s.Sound) (id : Nat) : (s.remove id).Sound where
  keys := keys_filter h.keys _
  small p info hp := by
    rw [get_removed] at hp
    split at hp
    · cases hp
    · exact h.small p info hp
  apart p q info info' hp hq := by
    rw [get_removed] at hp hq
    split at hp <;> split at hq
    · cases hp
    · cases hp
    · cases hq
    · exact h.apart p q info info' hp hq

/-- The ids of another connection, one for each statement. -/
structure Renewal (l : List (Nat × MysqlStmtInfo)) (ids : List (Nat × Nat)) : Prop where
  /-- they are for the statements -/
  keys : ids.map Prod.fst = l.map Prod.fst
  /-- they are `u32` -/
  small : ∀ p n, ids.lookup p = some n → n < 2 ^ 32
  /-- and differ -/
  apart : ∀ p q n, ids.lookup p = some n → ids.lookup q = some n → p = q

/-- Every statement has an id of its own after the renewal. -/
theorem Renewal.lookup {ids : List (Nat × Nat)} (h : Renewal s.stmts ids) {p : Nat} {info : MysqlStmtInfo}
    (hp : s.get p = some info) : ∃ n, ids.lookup p = some n := by
  have hmem : p ∈ ids.map Prod.fst := by
    rw [h.keys]
    exact List.mem_map_of_mem (f := Prod.fst) (mem_of_lookup hp)
  obtain ⟨e, he, rfl⟩ := List.mem_map.mp hmem
  rcases hl : ids.lookup e.1 with _ | n
  · exact absurd rfl (bne_iff_ne.mp (List.lookup_eq_none_iff.mp hl e he))
  · exact ⟨n, rfl⟩

theorem Sound.renew (h : s.Sound) {ids : List (Nat × Nat)} (hids : Renewal s.stmts ids) :
    (s.updateBackendIds ids).Sound := by
  have hrenewed : ∀ p info', (s.updateBackendIds ids).get p = some info' → ids.lookup p = some info'.backendId := by
    intro p info' hp
    rw [get_renewed] at hp
    obtain ⟨info, hinfo, rfl⟩ := Option.map_eq_some_iff.mp hp
    obtain ⟨n, hn⟩ := hids.lookup hinfo
    rw [MysqlStmtInfo.renew, hn]
    rfl
  refine ⟨?_, fun p info hp => hids.small p _ (hrenewed p info hp), fun p q info info' hp hq heq => ?_⟩
  · rw [stmts_updateBackendIds, List.map_map]
    exact h.keys
  · refine hids.apart p q _ (hrenewed p info hp) ?_
    rw [heq]
    exact hrenewed q info' hq

end MysqlStmtShadow

open MysqlStmtShadow (get_registered get_removed get_eq_none_of_nil)

section Agreement

variable {s : MysqlStmtShadow} {conn conn' : Conn srv} {p : Packet} {r : Except TalkError Response}

theorem agreed_of_nil (h : s.stmts = []) (conn : Conn srv) : Agreed s conn := by
  intro p info hp
  rw [get_eq_none_of_nil h] at hp
  cases hp

/-- A command that closes nothing of the shadow. -/
theorem Agreed.step (h : Agreed s conn) (hstep : StmtStep p conn r conn') (hp : p.ofStmt = true)
    (hclose : ∀ q info, s.get q = some info → p.closes ≠ some info.backendId) : Agreed s conn' :=
  fun q info hq => hstep.stays _ _ hp (h q info hq) (hclose q info hq)

/-- A new id stands for no statement yet. -/
theorem Agreed.fresh (h : Agreed s conn) (hstep : StmtStep p conn r conn') {sql : Bytes} (hp : p.prepared = some sql)
    {response : Response} (hr : r = .ok response) {n : Nat} {counts : Nat × Nat}
    (hparse : mysqlParsePrepareOk response.bytes = some (n, counts)) :
    ∀ q info, s.get q = some info → info.backendId ≠ n := by
  rintro q info hq rfl
  have hnone := (hstep.prepares sql response _ counts hp hr hparse).1
  rw [h q info hq] at hnone
  cases hnone

theorem Agreed.register (h : Agreed s conn') {n : Nat} {query : Bytes} (hn : srv.stmt conn'.sess n = some query)
    (a b : Nat) : Agreed (s.register query a b n).1 conn' := by
  intro q info hq
  rw [get_registered] at hq
  split at hq
  · obtain rfl := Option.some.inj hq
    exact hn
  · exact h q info hq

/-- The statement that is closed is removed, the others are told apart from it by their ids. -/
theorem Agreed.remove (h : Agreed s conn) (hs : s.Sound) (hstep : StmtStep p conn r conn') (hp : p.ofStmt = true)
    {id : Nat} {info : MysqlStmtInfo} (hid : s.get id = some info) (hclose : p.closes = some info.backendId) :
    Agreed (s.remove id) conn' := by
  intro q info' hq
  rw [get_removed] at hq
  split at hq
  · cases hq
  · rename_i hne
    refine hstep.stays _ _ hp (h q info' hq) fun heq => hne ?_
    rw [hclose, Option.some.injEq] at heq
    exact hs.apart q id info' info hq hid heq.symm

end Agreement

/-! ## The contract of a statement command -/

/-- What is known of every exchange. -/
def Rules.stmts (srv : Server) : Rules srv where
  clean _ := True
  after _ p conn r conn' := StmtStep p conn r conn'
  plain _ := True
  sure := False
  home := False
  cur := ⟨0, []⟩
  gr := -1
  failover := -1
  after_lender h := h.lender
  after_clean _ _ := trivial
  after_plain _ _ := trivial
  agree := PoolRef.agree_nobody

/-- The statement id in a command. -/
def carriedId : Bytes → Option Nat
  | cmd :: rest => if mysqlHasStmtId cmd then mysqlReadStmtId (cmd :: rest) else none
  | [] => none

/-- The packet is the client's command for this connection. -/
structure FitsStmt (raw : Bytes) (s : MysqlStmtShadow) (p : Packet) (conn : Conn srv) : Prop where
  /-- with the id that the statement has there -/
  found : ∀ q info, carriedId raw = some q → s.get q = some info →
    ∃ n, srv.stmt conn.sess n = some info.query ∧ mysqlReadStmtId p.bytes = some n ∧
      p.bytes = mysqlRewriteStmtId raw n
  /-- or as it came -/
  plain : carriedId raw = none → p.bytes = raw

/-- The answers that leave the shadow with the connection. -/
structure StmtAnswer (s : MysqlStmtShadow) (via : Via) (p : Packet) (conn : Conn srv) (r : Except TalkError Response)
    (conn' : Conn srv) : Prop where
  /-- a statement is prepared again -/
  again : via = .loan → ∃ response n counts, r = .ok response ∧ mysqlParsePrepareOk response.bytes = some (n, counts)
  /-- a PREPARE loses its connection while nothing else is open -/
  lost : ∀ e, r = .error e → p.prepared.isSome = true → isConnectionLost e.text = true → s.stmts = []
  /-- a CLOSE that fails has closed nothing -/
  closed : ∀ e, r = .error e → p.closes.isSome = true → conn'.sess = conn.sess

/-- The packets of the client fit their connections. -/
def SendsFitting (raw : Bytes) (s : MysqlStmtShadow) (g : Hold srv) : Op → Prop
  | .talk .client _ c p _ => ∀ conn, g c = some conn → FitsStmt raw s p conn
  | _ => True

/-- Exchanges are answered well. -/
def AnswersIn (s : MysqlStmtShadow) (g : Hold srv) : (o : Op) → Res o → Hold srv → Prop
  | .talk _ via c p _, r, g' => ∀ conn conn', g c = some conn → g' c = some conn' → StmtAnswer s via p conn r conn'
  | _, _, _ => True

/-- The contract of the command `raw`. -/
def stmtCommand (srv : Server) (raw : Bytes) (s : MysqlStmtShadow) : Protocol Op Res (Hold srv) where
  owes g o := (Rules.stmts srv).contract.owes g o ∧ SendsFitting raw s g o
  step g o r g' := (Rules.stmts srv).contract.step g o r g' ∧ AnswersIn s g o r g'

/-- An operation other than an exchange for the client. -/
def Op.proxyOwn : Op → Bool
  | .talk .client .. => false
  | _ => true

/-- The operations of the proxy's own. -/
abbrev ProxyOwn (o : Op) : Prop := o.proxyOwn = true

/-- What is known of the connection after an exchange. -/
def Changed (s : MysqlStmtShadow) (via : Via) (p : Packet) (known : Conn srv → Prop) (r : Except TalkError Response)
    (conn' : Conn srv) : Prop :=
  ∃ conn, known conn ∧ StmtStep p conn r conn' ∧ StmtAnswer s via p conn r conn'

section Contract

variable {raw : Bytes} {s : MysqlStmtShadow} {g : Hold srv} {σ : Vars srv} {via : Via} {c : ConnId}
  {K : Conn srv → Prop}

theorem proxyOwn_lends {α : Type} {p : Task α} (h : p.Only Lends) : p.Only ProxyOwn := by
  refine h.mono fun o ho => ?_
  cases o <;> first | rfl | cases ho

theorem proxyOwn_silent {α : Type} {p : Task α} (h : p.Only Silent) : p.Only ProxyOwn := by
  refine h.mono fun o ho => ?_
  cases o <;> first | rfl | cases ho

/-- ProxyOwn its exchanges a command is held to the rules only. -/
theorem wp_proxyOwn {α : Type} {p : Task α} {Q : α → Hold srv → Prop} (hp : p.wp (Rules.stmts srv).contract Q g)
    (hq : p.Only ProxyOwn) : p.wp (stmtCommand srv raw s) Q g := by
  have howes : ∀ g o, ProxyOwn o → (Rules.stmts srv).contract.owes g o → (stmtCommand srv raw s).owes g o := by
    intro g o ho h
    refine ⟨h, ?_⟩
    cases o with
    | talk who via c p limit => cases who <;> first | exact trivial | cases ho
    | _ => trivial
  exact Prog.wp_narrow howes (fun g o r g' h => h.1) hp hq

theorem wp_exchange (hσ : Owns (Function.update σ via (some ⟨c, K⟩)) g) {who : Purpose} {p : Packet}
    {limit : Option Nat} (hfits : who = .client → ∀ conn, K conn → FitsStmt raw s p conn)
    {Q : Except TalkError Response → Hold srv → Prop}
    (hQ : ∀ r g', Owns (Function.update σ via (some ⟨c, Changed s via p K r⟩)) g' → Q r g') :
    (act (.talk who via c p limit)).wp (stmtCommand srv raw s) Q g := by
  obtain ⟨conn, hconn, hknown⟩ := hσ.held via ⟨c, K⟩ (Function.update_self ..)
  refine ⟨⟨⟨⟨conn, hconn⟩, fun _ _ _ _ _ => trivial⟩, ?_⟩, fun r g' hs => ?_⟩
  · cases who with
    | client =>
      intro conn₁ hconn₁
      obtain rfl := Option.some.inj (hconn.symm.trans hconn₁)
      exact hfits rfl conn hknown
    | _ => trivial
  · obtain ⟨⟨conn₁, conn', hconn₁, rfl, hstep⟩, hans⟩ := hs
    obtain rfl := Option.some.inj (hconn.symm.trans hconn₁)
    refine hQ r _ ?_
    have hchange := hσ.change (P := Changed s via p K r) (x := conn') (Function.update_self ..)
      ⟨conn, hknown, hstep, hans conn conn' hconn (Function.update_self ..)⟩
    rwa [Function.update_idem] at hchange

theorem wp_sendRaw_client (hσ : Owns (Function.update σ via (some ⟨c, K⟩)) g) {packet : Bytes}
    (hfits : ∀ conn, K conn → FitsStmt raw s (.raw packet) conn) {Q : Except Str Response → Hold srv → Prop}
    (hQ : ∀ r g', Owns (Function.update σ via (some ⟨c, Changed s via (.raw packet) K r⟩)) g' →
      Q (r.mapError TalkError.text) g') :
    (sendRaw .client via c packet).wp (stmtCommand srv raw s) Q g := by
  simp only [sendRaw, Prog.wp_bind]
  exact wp_exchange hσ (fun _ => hfits) hQ

theorem wp_sendSilent_client (hσ : Owns (Function.update σ via (some ⟨c, K⟩)) g) {packet : Bytes}
    (hfits : ∀ conn, K conn → FitsStmt raw s (.silent packet) conn) {Q : Except Str Response → Hold srv → Prop}
    (hQ : ∀ r g', Owns (Function.update σ via (some ⟨c, Changed s via (.silent packet) K r⟩)) g' →
      Q (r.mapError TalkError.text) g') :
    (sendRawNoResponse via c packet).wp (stmtCommand srv raw s) Q g := by
  simp only [sendRawNoResponse, Prog.wp_bind]
  exact wp_exchange hσ (fun _ => hfits) hQ

end Contract

/-! ## One command -/

theorem mysqlParsePrepareOk_lt {bytes : Bytes} {n : Nat} {counts : Nat × Nat}
    (h : mysqlParsePrepareOk bytes = some (n, counts)) : n < 2 ^ 32 := by
  unfold mysqlParsePrepareOk at h
  split at h
  · obtain ⟨rfl, -⟩ := Prod.mk.inj (Option.some.inj h)
    exact le32_lt ..
  · cases h

/-- A command keeps its code when its id is rewritten. -/
theorem mysqlRewriteStmtId_cons {cmd : UInt8} {rest : Bytes} {p : Nat} (h : mysqlReadStmtId (cmd :: rest) = some p)
    (n : Nat) : ∃ rest', mysqlRewriteStmtId (cmd :: rest) n = cmd :: rest' := by
  unfold mysqlReadStmtId at h
  split at h
  · rename_i heq
    obtain ⟨rfl, rfl⟩ := List.cons.inj heq
    exact ⟨_, rfl⟩
  · cases h

theorem Packet.prepared_cons (sql : Bytes) : (raw (Com.stmtPrepare :: sql)).prepared = some sql := by
  rw [prepared, if_pos rfl]

theorem Packet.of_prepared {p : Packet} {sql : Bytes} (h : p.prepared = some sql) :
    p.ofStmt = true ∧ p.closes = none := by
  rcases p with _ | _ | _
  · cases h
  · rename_i bytes
    rcases bytes with _ | ⟨cmd, rest⟩
    · cases h
    · obtain ⟨rfl, -⟩ := Option.ite_none_right_eq_some.mp h
      exact ⟨rfl, rfl⟩
  · cases h

/-- The packet of a command that carries an id. -/
theorem Packet.of_carried {p : Packet} {cmd : UInt8} {rest : Bytes}
    (h : p = .raw (cmd :: rest) ∨ p = .silent (cmd :: rest)) (hcmd : mysqlHasStmtId cmd = true) :
    p.bytes = cmd :: rest ∧ p.ofStmt = true ∧
      p.closes = if cmd = Com.stmtClose then mysqlReadStmtId (cmd :: rest) else none := by
  rcases h with rfl | rfl
  · exact ⟨rfl, by rw [Packet.ofStmt, hcmd, Bool.or_true], rfl⟩
  · exact ⟨rfl, by rw [Packet.ofStmt, hcmd, Bool.or_true], rfl⟩

section Routing

variable {raw query : Bytes} {s s₀ : MysqlStmtShadow} {g : Hold srv} {σ : Vars srv} {pool : PoolRef} {c : ConnId}
  {tx : Option ConnId} {p : Packet}

theorem FitsStmt.asIs {conn : Conn srv} (h : carriedId raw = none) (hp : p.bytes = raw) : FitsStmt raw s p conn := by
  refine ⟨fun q info hq => ?_, fun _ => hp⟩
  rw [h] at hq
  cases hq

/-- An open statement goes out under the id it has on the connection. -/
theorem FitsStmt.rewritten {conn : Conn srv} {id n : Nat} {info : MysqlStmtInfo} (hid : carriedId raw = some id)
    (hread : mysqlReadStmtId raw = some id) (hinfo : s.get id = some info) (hn : n < 2 ^ 32)
    (hstmt : srv.stmt conn.sess n = some info.query) (hp : p.bytes = mysqlRewriteStmtId raw n) :
    FitsStmt raw s p conn := by
  refine ⟨fun q info' hq hinfo' => ?_, fun hnone => ?_⟩
  · rw [hid] at hq
    obtain rfl := Option.some.inj hq
    rw [hinfo] at hinfo'
    obtain rfl := Option.some.inj hinfo'
    refine ⟨n, hstmt, ?_, hp⟩
    rw [hp]
    exact mysqlReadStmtId_rewrite hread hn
  · rw [hid] at hnone
    cases hnone

/-- The shadow and the connection in `stmt_conn` belong together. -/
structure StmtsSettled (σ : Vars srv) (s : MysqlStmtShadow) (stmtConn : Option ConnId) (g : Hold srv) : Prop where
  /-- the shadow -/
  sound : s.Sound
  /-- open statements have a connection -/
  opened : stmtConn = none → s.stmts = []
  /-- they are prepared there -/
  owns : Owns (Function.update σ .stmtConn (stmtConn.map fun c => ⟨c, Agreed s⟩)) g

theorem StmtsSettled.kept {r : Except TalkError Response} (hs : s.Sound) (hp : p.ofStmt = true)
    (hclose : ∀ q info, s.get q = some info → p.closes ≠ some info.backendId)
    (h : Owns (Function.update σ .stmtConn (some ⟨c, Changed s₀ .stmtConn p (Agreed s) r⟩)) g) :
    StmtsSettled σ s (some c) g := by
  refine ⟨hs, (fun hnone => by cases hnone), h.weaken ?_⟩
  rintro conn' ⟨conn, hconn, hstep, -⟩
  exact hconn.step hstep hp hclose

theorem StmtsSettled.prepared {response : Response} (hs : s.Sound) (hp : p.prepared = some query)
    (h : Owns (Function.update σ .stmtConn (some ⟨c, Changed s₀ .stmtConn p (Agreed s) (.ok response)⟩)) g)
    {Q : MysqlStmtState × Except Str Response → Prop}
    (hQ : ∀ sh r, StmtsSettled σ sh (some c) g → Q (⟨sh, some c, tx⟩, r)) :
    Q (Prod.map id .ok (registerPrepared ⟨s, some c, tx⟩ query response)) := by
  obtain ⟨hof, hclose⟩ := Packet.of_prepared hp
  have hcloses : ∀ q info, s.get q = some info → p.closes ≠ some info.backendId := by
    intro q info _
    rw [hclose]
    exact fun h => by cases h
  rw [registerPrepared]
  split
  · rename_i n a b hparse
    obtain ⟨conn', -, conn, hconn, hstep, -⟩ := h.held .stmtConn _ (Function.update_self ..)
    refine hQ _ _ ⟨hs.register (mysqlParsePrepareOk_lt hparse) (hconn.fresh hstep hp rfl hparse),
      (fun hnone => by cases hnone), h.weaken ?_⟩
    rintro conn' ⟨conn, hconn, hstep, -⟩
    exact (hconn.step hstep hof hcloses).register (hstep.prepares _ _ _ _ hp rfl hparse).2 _ _
  · exact hQ s _ (.kept hs hof hcloses h)

/-- The connection in `stmt_conn` is dropped, the one on loan takes its place. -/
theorem wp_replace {fresh : ConnId} {K K' : Conn srv → Prop}
    (hσ : Owns (Function.update (Function.update σ .stmtConn (some ⟨c, K⟩)) .loan (some ⟨fresh, K'⟩)) g)
    (hfree : σ .loan = none) {exit : Exit} {Q : Unit → Hold srv → Prop}
    (hQ : ∀ g', Owns (Function.update σ .stmtConn (some ⟨fresh, K'⟩)) g' → Q () g') :
    (act (.drop exit c)).wp (stmtCommand srv raw s) Q g := by
  refine wp_proxyOwn (wp_drop (v := .stmtConn) (a := ⟨c, K⟩) hσ (by simp) fun g' h => hQ g' ?_) (Prog.only_perform rfl)
  have hmove := h.move (v := .loan) (w := .stmtConn) (a := ⟨fresh, K'⟩) (by simp) (by simp)
  convert hmove using 1
  funext via
  cases via <;> simp [Function.update, hfree]

theorem wp_getPrimary_loan (hσ : Owns σ g) (hfree : σ .loan = none) {Q : Except Str ConnId → Hold srv → Prop}
    (hok : ∀ c g', Owns (Function.update σ .loan (some ⟨c, fun _ => True⟩)) g' → Q (.ok c) g')
    (herr : ∀ e, Q (.error e) g) : (pool.getPrimaryForDatabase none).wp (stmtCommand srv raw s) Q g :=
  wp_proxyOwn (wp_getPrimary (R := Rules.stmts srv) hσ hfree (fun h => False.elim h)
    (fun c g' h => hok c g' (h.weaken fun _ _ => trivial)) fun _ => herr) (proxyOwn_lends PoolRef.lends_getPrimary)

/-- PREPARE: the statement is registered with the id that its connection gave it. -/
theorem wp_stmtPrepare_settled (hs : s.Sound) (hfree : σ .loan = none)
    (hσ : Owns (Function.update σ .stmtConn (some ⟨c, Agreed s⟩)) g)
    {Q : MysqlStmtState × Except Str Response → Hold srv → Prop}
    (hQ : ∀ sh c' r g', StmtsSettled σ sh (some c') g' → Q (⟨sh, some c', tx⟩, r) g') :
    (stmtPrepare pool (Com.stmtPrepare :: query) query c ⟨s, some c, tx⟩ false).wp
      (stmtCommand srv (Com.stmtPrepare :: query) s) Q g := by
  have hp : (Packet.raw (Com.stmtPrepare :: query)).prepared = some query := Packet.prepared_cons query
  obtain ⟨hof, hclose⟩ := Packet.of_prepared hp
  have hcloses : ∀ q info, s.get q = some info →
      (Packet.raw (Com.stmtPrepare :: query)).closes ≠ some info.backendId := by
    intro q info _
    rw [hclose]
    exact fun h => by cases h
  have hfits : ∀ conn : Conn srv, FitsStmt (Com.stmtPrepare :: query) s (.raw (Com.stmtPrepare :: query)) conn :=
    fun conn => .asIs rfl rfl
  rw [stmtPrepare]
  simp only [Prog.wp_bind]
  refine wp_sendRaw_client hσ (fun conn _ => hfits conn) fun r g₁ h₁ => ?_
  rcases r with e | response
  · have hkept : StmtsSettled σ s (some c) g₁ := .kept hs hof hcloses h₁
    refine Prog.wp_ite (fun hlost => ?_) fun _ => hQ s c _ g₁ hkept
    have hempty : s.stmts = [] := by
      obtain ⟨conn', -, conn, -, -, hans⟩ := h₁.held .stmtConn _ (Function.update_self ..)
      exact hans.lost e rfl rfl (Bool.and_eq_true_iff.mp hlost).1
    simp only [Prog.wp_bind]
    refine wp_getPrimary_loan hkept.owns (by simpa using hfree) (fun fresh g₂ h₂ => ?_) fun e => hQ s c _ g₁ hkept
    simp only [Prog.wp_bind]
    refine wp_replace h₂ hfree fun g₃ h₃ => ?_
    refine wp_sendRaw_client (h₃.weaken fun conn _ => agreed_of_nil hempty conn) (fun conn _ => hfits conn)
      fun r g₄ h₄ => ?_
    rcases r with e | response
    · exact hQ s fresh _ g₄ (.kept hs hof hcloses h₄)
    · exact StmtsSettled.prepared (Q := fun x => Q x g₄) hs hp h₄ fun sh r h => hQ sh fresh r g₄ h
  · exact StmtsSettled.prepared (Q := fun x => Q x g₁) hs hp h₁ fun sh r h => hQ sh c r g₁ h

/-- These are prepared on the connection. -/
def Has (done : List (Nat × Bytes)) (conn : Conn srv) : Prop :=
  ∀ e ∈ done, srv.stmt conn.sess e.1 = some e.2

/-- So are the statements, under the ids of a renewal. -/
def Renewed (l : List (Nat × MysqlStmtInfo)) (ids : List (Nat × Nat)) (done : List (Nat × Bytes)) (conn : Conn srv) :
    Prop :=
  Has done conn ∧ ∀ e ∈ l, ∀ n, ids.lookup e.1 = some n → srv.stmt conn.sess n = some e.2.query

/-- Every statement is prepared on the new connection, each under an id that none of those before has. -/
theorem wp_reprepare_renewed {fresh : ConnId} {l : List (Nat × MysqlStmtInfo)} (hl : (l.map Prod.fst).Nodup)
    {done : List (Nat × Bytes)} (hσ : Owns (Function.update σ .loan (some ⟨fresh, Has done⟩)) g)
    {Q : List (Nat × Nat) → Hold srv → Prop}
    (hQ : ∀ ids g', MysqlStmtShadow.Renewal l ids → (∀ p n, ids.lookup p = some n → ∀ e ∈ done, e.1 ≠ n) →
      Owns (Function.update σ .loan (some ⟨fresh, Renewed l ids done⟩)) g' → Q ids g') :
    (reprepare fresh (l.map fun e => (e.1, Com.stmtPrepare :: e.2.query))).wp (stmtCommand srv raw s) Q g := by
  induction l generalizing g done Q with
  | nil =>
    refine hQ [] g ⟨rfl, (fun p n h => by cases h), fun p q n h => by cases h⟩ (fun p n h => by cases h) (hσ.weaken ?_)
    exact fun conn h => ⟨h, fun e he => by cases he⟩
  | cons e rest ih =>
    have hp : (Packet.raw (Com.stmtPrepare :: e.2.query)).prepared = some e.2.query := Packet.prepared_cons _
    obtain ⟨hhead, htail⟩ := List.nodup_cons.mp hl
    rw [List.map_cons, reprepare]
    simp only [sendRaw, Prog.wp_bind]
    refine wp_exchange hσ (fun h => by cases h) fun r g₁ h₁ => ?_
    obtain ⟨conn', -, conn, hhas, hstep, hans⟩ := h₁.held .loan _ (Function.update_self ..)
    obtain ⟨response, n, counts, rfl, hparse⟩ := hans.again rfl
    -- the id was free, so it is none of those given out before
    have hnew : ∀ e' ∈ done, e'.1 ≠ n := by
      rintro e' he' rfl
      have hnone := (hstep.prepares _ _ _ _ hp rfl hparse).1
      rw [hhas e' he'] at hnone
      cases hnone
    have h₁' : Owns (Function.update σ .loan (some ⟨fresh, Has ((n, e.2.query) :: done)⟩)) g₁ := by
      refine h₁.weaken ?_
      rintro conn' ⟨conn, hhas, hstep, -⟩ e' he'
      rcases List.mem_cons.mp he' with rfl | he'
      · exact (hstep.prepares _ _ _ _ hp rfl hparse).2
      · refine hstep.stays _ _ (Packet.of_prepared hp).1 (hhas e' he') ?_
        rw [(Packet.of_prepared hp).2]
        exact fun h => by cases h
    refine ih htail h₁' fun ids g₂ hids hfresh h₂ => ?_
    simp only [Except.mapError, hparse]
    refine hQ ((e.1, n) :: ids) g₂ ⟨?_, fun p m hm => ?_, fun p q m hp hq => ?_⟩ (fun p m hm => ?_) (h₂.weaken ?_)
    · rw [List.map_cons, List.map_cons, hids.keys]
    · rw [lookup_cons_eq] at hm
      split at hm
      · obtain rfl := Option.some.inj hm
        exact mysqlParsePrepareOk_lt hparse
      · exact hids.small p m hm
    · rw [lookup_cons_eq] at hp hq
      split at hp <;> split at hq
      · rename_i hp' hq'
        rw [hp', hq']
      · obtain rfl := Option.some.inj hp
        exact absurd rfl (hfresh q _ hq _ (List.mem_cons_self ..))
      · obtain rfl := Option.some.inj hq
        exact absurd rfl (hfresh p _ hp _ (List.mem_cons_self ..))
      · exact hids.apart p q m hp hq
    · rw [lookup_cons_eq] at hm
      split at hm
      · obtain rfl := Option.some.inj hm
        exact hnew
      · exact fun e' he' => hfresh p m hm e' (List.mem_cons_of_mem _ he')
    · rintro conn' ⟨hhas, hrest⟩
      refine ⟨fun e' he' => hhas e' (List.mem_cons_of_mem _ he'), fun e' he' m hm => ?_⟩
      rw [lookup_cons_eq] at hm
      rcases List.mem_cons.mp he' with rfl | he'
      · rw [if_pos rfl] at hm
        obtain rfl := Option.some.inj hm
        exact hhas _ (List.mem_cons_self ..)
      · rw [if_neg] at hm
        · exact hrest e' he' m hm
        · intro heq
          exact hhead (heq ▸ List.mem_map_of_mem (f := Prod.fst) he')

theorem Renewed.agreed {ids : List (Nat × Nat)} {done : List (Nat × Bytes)} {conn : Conn srv}
    (h : Renewed s.stmts ids done conn) (hids : MysqlStmtShadow.Renewal s.stmts ids) :
    Agreed (s.updateBackendIds ids) conn := by
  intro p info' hp
  rw [MysqlStmtShadow.get_renewed] at hp
  obtain ⟨info, hinfo, rfl⟩ := Option.map_eq_some_iff.mp hp
  obtain ⟨n, hn⟩ := hids.lookup hinfo
  rw [MysqlStmtInfo.renew, hn]
  exact h.2 _ (mem_of_lookup hinfo) n hn

/-- EXECUTE on another connection, where every statement is prepared again. -/
theorem wp_executeAgain_settled {rest : Bytes} {id b : Nat} {info : MysqlStmtInfo}
    (hread : mysqlReadStmtId (Com.stmtExecute :: rest) = some id) (hinfo : s.get id = some info)
    (hfree : σ .loan = none) (hσ : StmtsSettled σ s (some c) g)
    {Q : MysqlStmtState × Except Str Response → Hold srv → Prop}
    (hQ : ∀ sh c' r g', StmtsSettled σ sh (some c') g' → Q (⟨sh, some c', tx⟩, r) g') :
    (executeAgain pool (Com.stmtExecute :: rest) id b c ⟨s, some c, tx⟩).wp
      (stmtCommand srv (Com.stmtExecute :: rest) s) Q g := by
  have hid : carriedId (Com.stmtExecute :: rest) = some id := hread
  rw [executeAgain]
  simp only [Prog.wp_bind]
  refine wp_getPrimary_loan hσ.owns (by simpa using hfree) (fun fresh g₁ h₁ => ?_) fun e => hQ s c _ g hσ
  simp only [Prog.wp_bind]
  have hbare : ∀ conn : Conn srv, True → Has [] conn := fun _ _ e he => by cases he
  refine wp_reprepare_renewed hσ.sound.keys (h₁.weaken hbare) fun ids g₂ hids _ h₂ => ?_
  refine wp_replace h₂ hfree fun g₃ h₃ => ?_
  obtain ⟨n, hn⟩ := hids.lookup hinfo
  have hnew : ((s.updateBackendIds ids).backendId id).getD b = n := by
    rw [MysqlStmtShadow.backendId, MysqlStmtShadow.get_renewed, hinfo]
    simp [MysqlStmtInfo.renew, hn]
  obtain ⟨rest', hrest'⟩ := mysqlRewriteStmtId_cons hread n
  obtain ⟨hbytes, hof, hclose⟩ := Packet.of_carried (.inl (rfl : Packet.raw (Com.stmtExecute :: rest') = _)) rfl
  rw [hnew]
  refine wp_sendRaw_client h₃ (fun conn hconn => ?_) fun r g₄ h₄ => ?_
  · exact .rewritten hid hread hinfo (hids.small _ _ hn) (hconn.2 _ (mem_of_lookup hinfo) n hn) rfl
  · rw [hrest'] at h₄
    have hagreed : Owns (Function.update σ .stmtConn (some ⟨fresh, Changed s .stmtConn
        (.raw (Com.stmtExecute :: rest')) (Agreed (s.updateBackendIds ids)) r⟩)) g₄ := by
      refine h₄.weaken ?_
      rintro conn' ⟨conn, hconn, hchange⟩
      exact ⟨conn, hconn.agreed hids, hchange⟩
    refine hQ _ fresh _ g₄ (.kept (hσ.sound.renew hids) hof (fun q info _ => ?_) hagreed)
    rw [hclose, if_neg (by decide)]
    exact fun h => by cases h

/-- The commands that the shadow has an answer to: a PREPARE, and those for open statements. -/
def MysqlStmtShadow.takes (s : MysqlStmtShadow) : Bytes → Bool
  | [] => true
  | cmd :: rest =>
    cmd == Com.stmtPrepare ||
      mysqlHasStmtId cmd && (mysqlReadStmtId (cmd :: rest)).all fun id => (s.get id).isSome

/-- A command for an open statement. -/
theorem wp_stmtWithId_settled {cmd : UInt8} {rest : Bytes} (hcmd : mysqlHasStmtId cmd = true)
    (hopen : ∀ id, mysqlReadStmtId (cmd :: rest) = some id → (s.get id).isSome = true) (hs : s.Sound)
    (hfree : σ .loan = none) (hσ : Owns (Function.update σ .stmtConn (some ⟨c, Agreed s⟩)) g)
    {Q : MysqlStmtState × Except Str Response → Hold srv → Prop}
    (hQ : ∀ sh c' r g', StmtsSettled σ sh (some c') g' → Q (⟨sh, some c', tx⟩, r) g') :
    (stmtWithId pool cmd (cmd :: rest) c ⟨s, some c, tx⟩ false).wp (stmtCommand srv (cmd :: rest) s) Q g := by
  have hcarried : carriedId (cmd :: rest) = mysqlReadStmtId (cmd :: rest) := if_pos hcmd
  have hnone : ∀ q info, s.get q = some info → (none : Option Nat) ≠ some info.backendId := fun _ _ _ h => by cases h
  rw [stmtWithId]
  rcases hread : mysqlReadStmtId (cmd :: rest) with _ | id
  · obtain ⟨-, hof, hclose⟩ := Packet.of_carried (.inl (rfl : Packet.raw (cmd :: rest) = _)) hcmd
    rw [hread, ite_self] at hclose
    simp only [Prog.wp_bind]
    refine wp_sendRaw_client hσ (fun conn _ => .asIs (hcarried.trans hread) rfl) fun r g₁ h₁ => ?_
    exact hQ s c _ g₁ (.kept hs hof (by rwa [hclose]) h₁)
  · obtain ⟨info, hinfo⟩ := Option.isSome_iff_exists.mp (hopen id hread)
    have hid : (s.backendId id).getD id = info.backendId := by rw [MysqlStmtShadow.backendId, hinfo]; rfl
    obtain ⟨rest', hrest'⟩ := mysqlRewriteStmtId_cons hread info.backendId
    have hfits : ∀ p : Packet, p.bytes = mysqlRewriteStmtId (cmd :: rest) info.backendId → ∀ conn : Conn srv,
        Agreed s conn → FitsStmt (cmd :: rest) s p conn := fun p hp conn hconn =>
      .rewritten (hcarried.trans hread) hread hinfo (hs.small id info hinfo) (hconn id info hinfo) hp
    dsimp only
    rw [hid]
    refine Prog.wp_ite (fun _ => ?_) fun hanswered => ?_
    · simp only [Prog.wp_bind]
      refine wp_sendSilent_client hσ (hfits (.silent (mysqlRewriteStmtId (cmd :: rest) info.backendId)) rfl)
        fun r g₁ h₁ => ?_
      rw [hrest'] at h₁
      obtain ⟨-, hof, hclose⟩ := Packet.of_carried (.inr (rfl : Packet.silent (cmd :: rest') = _)) hcmd
      by_cases hcl : cmd = Com.stmtClose
      · have hcloses : (Packet.silent (cmd :: rest')).closes = some info.backendId := by
          rw [hclose, if_pos hcl, ← hrest']
          exact mysqlReadStmtId_rewrite hread (hs.small id info hinfo)
        rcases r with e | response
        · refine hQ s c _ g₁ ⟨hs, (fun h => by cases h), h₁.weaken ?_⟩
          rintro conn' ⟨conn, hconn, -, hans⟩ q info' hq
          rw [hans.closed e rfl (by rw [hcloses]; rfl)]
          exact hconn q info' hq
        · simp only [Except.mapError, if_pos hcl]
          refine hQ (s.remove id) c _ g₁ ⟨hs.remove id, (fun h => by cases h), h₁.weaken ?_⟩
          rintro conn' ⟨conn, hconn, hstep, -⟩
          exact hconn.remove hs hstep hof hinfo hcloses
      · rw [if_neg hcl] at hclose
        have hkept : StmtsSettled σ s (some c) g₁ := .kept hs hof (by rwa [hclose]) h₁
        rcases r with e | response
        · exact hQ s c _ g₁ hkept
        · simp only [Except.mapError, if_neg hcl]
          exact hQ s c _ g₁ hkept
    · simp only [Prog.wp_bind]
      refine wp_sendRaw_client hσ (hfits (.raw (mysqlRewriteStmtId (cmd :: rest) info.backendId)) rfl) fun r g₁ h₁ => ?_
      rw [hrest'] at h₁
      obtain ⟨-, hof, hclose⟩ := Packet.of_carried (.inl (rfl : Packet.raw (cmd :: rest') = _)) hcmd
      rw [if_neg fun hcl => hanswered (.inl hcl)] at hclose
      have hkept : StmtsSettled σ s (some c) g₁ := .kept hs hof (by rwa [hclose]) h₁
      rcases r with e | response
      · refine Prog.wp_ite (fun hagain => ?_) fun _ => hQ s c _ g₁ hkept
        obtain ⟨rfl, -⟩ := hagain
        exact wp_executeAgain_settled hread hinfo hfree hkept hQ
      · exact hQ s c _ g₁ hkept

/-- Outside transactions, what the shadow has an answer to leaves shadow and connection settled. -/
theorem wp_routeStmt_settled {stmtConn : Option ConnId} {inTransaction : Bool} (hflag : inTransaction = false)
    (hfree : σ .loan = none) (h : StmtsSettled σ s stmtConn g) (htakes : s.takes raw = true)
    {Q : MysqlStmtState × Except Str Response → Hold srv → Prop}
    (hQ : ∀ sh sc r g', StmtsSettled σ sh sc g' → Q (⟨sh, sc, tx⟩, r) g') :
    (routeStmtMysqlShadow raw ⟨s, stmtConn, tx⟩ inTransaction).wp (stmtCommand srv raw s) Q g := by
  subst hflag
  rw [routeStmtMysqlShadow]
  simp only [Prog.wp_bind]
  refine wp_proxyOwn (wp_readPool fun pool _ => ?_) (Prog.only_perform rfl)
  rcases raw with _ | ⟨cmd, rest⟩
  · exact hQ s stmtConn _ g h
  · have hkey : (Function.update σ .stmtConn (stmtConn.map fun c => ⟨c, Agreed s⟩) .stmtConn).map Claim.key =
        stmtConn := by
      rw [Function.update_self, Option.map_map]
      exact Option.map_id'
    simp only [Bool.false_eq_true, if_false, Prog.wp_bind]
    rw [← hkey]
    refine wp_proxyOwn (wp_ensure (R := Rules.stmts srv) h.owns (fun h => False.elim h) (fun c g₁ h₁ => ?_)
      fun _ _ e => ?_) (proxyOwn_lends (PoolRef.lends_ensure _))
    · have hσ : Owns (Function.update σ .stmtConn (some ⟨c, Agreed s⟩)) g₁ := by
        rw [Function.update_idem] at h₁
        refine h₁.weaken fun conn hconn => ?_
        rcases stmtConn with _ | c'
        · exact agreed_of_nil (h.opened rfl) conn
        · rw [entry, Function.update_self] at hconn
          exact hconn
      refine Prog.wp_ite (fun hprep => ?_) fun hprep => Prog.wp_ite (fun hcmd => ?_) fun hcmd => ?_
      · subst hprep
        exact wp_stmtPrepare_settled h.sound hfree hσ fun sh c' r g' h' => hQ sh (some c') r g' h'
      · refine wp_stmtWithId_settled hcmd (fun id hid => ?_) h.sound hfree hσ fun sh c' r g' h' =>
          hQ sh (some c') r g' h'
        simpa [MysqlStmtShadow.takes, hprep, hcmd, hid] using htakes
      · simp [MysqlStmtShadow.takes, hprep, hcmd] at htakes
    · rw [hkey]
      exact hQ s stmtConn _ g h

end Routing

/-! ## Sessions -/

/-- The connection in `stmt_conn` is the one that the statements are on. -/
def stmtPins (srv : Server) (s : MysqlStmtShadow) (c : Option ConnId) : Pins (Rules.stmts srv) where
  stmt := Agreed s
  tx _ := True
  frame s' c' := s' = s ∧ c' = c
  stmt_tidy _ _ := ⟨trivial, fun h => False.elim h⟩
  tx_stays _ _ := trivial

namespace MysqlSession

/-- What a session knows of its statements. -/
structure StmtsFound (st : MysqlSession) (g : Hold srv) : Prop where
  /-- they are on the connection in `stmt_conn` -/
  owns : Owns (st.vars (stmtPins srv st.shadow st.stmtConn)) g
  /-- the shadow -/
  sound : st.phase ≠ .ended → st.shadow.Sound
  /-- open statements have a connection -/
  opened : st.phase ≠ .ended → st.stmtConn = none → st.shadow.stmts = []
  /-- a session that is over has no connection -/
  ended : st.phase = .ended → st.Empty

variable {st : MysqlSession} {g : Hold srv} {cfg : MysqlConfig} {raw : Bytes}

theorem StmtsFound.settled (h : st.StmtsFound g) (hlive : st.phase ≠ .ended) :
    StmtsSettled (st.vars (stmtPins srv st.shadow st.stmtConn)) st.shadow st.stmtConn g := by
  refine ⟨h.sound hlive, h.opened hlive, ?_⟩
  have hsame : Function.update (st.vars (stmtPins srv st.shadow st.stmtConn)) .stmtConn
      (st.stmtConn.map fun c => ⟨c, Agreed st.shadow⟩) = st.vars (stmtPins srv st.shadow st.stmtConn) :=
    varsWith_update_stmt st.stmtConn
  exact hsame.symm ▸ h.owns

theorem StmtsFound.of_settled (hlive : st.phase ≠ .ended) {s : MysqlStmtShadow} {c : Option ConnId}
    (h : StmtsSettled (st.vars (stmtPins srv st.shadow st.stmtConn)) s c g) :
    StmtsFound { st with shadow := s, stmtConn := c } g := by
  refine ⟨?_, fun _ => h.sound, fun _ => h.opened, fun hend => absurd hend hlive⟩
  convert h.owns using 1
  funext via
  cases via <;> rfl

theorem StmtsFound.inv (h : st.StmtsFound g) (hlive : st.phase ≠ .ended) :
    Inv (stmtPins srv st.shadow st.stmtConn) st g :=
  ⟨hlive, ⟨rfl, rfl⟩, h.owns⟩

theorem StmtsFound.of_inv {s : MysqlStmtShadow} {c : Option ConnId} (hs : s.Sound) (hc : c = none → s.stmts = [])
    (h : Inv (stmtPins srv s c) st g) : st.StmtsFound g := by
  obtain ⟨rfl, rfl⟩ := h.frame
  exact ⟨h.owns, fun _ => hs, fun _ => hc, fun hend => absurd hend h.live⟩

theorem StmtsFound.of_empty (hempty : st.Empty) {P : Pins (Rules.stmts srv)} (h : Owns (st.vars P) g)
    (hs : st.phase ≠ .ended → st.shadow = .new) : st.StmtsFound g := by
  rw [hempty.vars] at h
  refine ⟨?_, fun hlive => ?_, fun hlive _ => ?_, fun _ => hempty⟩
  · rw [hempty.vars]
    exact h
  · rw [hs hlive]
    exact MysqlStmtShadow.sound_new
  · rw [hs hlive]
    rfl

theorem StmtsFound.close (h : st.StmtsFound g) (hlive : st.phase ≠ .ended) : st.close.StmtsFound g :=
  ⟨h.owns, fun _ => h.sound hlive, fun _ => h.opened hlive, fun hend => by cases hend⟩

/-- `stmt_conn` goes back once no statement is open. -/
theorem wp_flushStmt_found (h : st.StmtsFound g) (hlive : st.phase ≠ .ended) (sent : Bool) :
    (st.flushStmt sent).wp (Rules.stmts srv).contract StmtsFound g := by
  refine Prog.wp_ite (fun _ => ?_) fun _ => h.close hlive
  simp only [Prog.wp_bind]
  refine wp_quiet rfl fun flushed => Prog.wp_ite (fun _ => ?_) fun _ => h.close hlive
  refine Prog.wp_ite (fun hempty => ?_) fun _ => h
  rw [Bool.and_eq_true, MysqlStmtShadow.isEmpty, List.isEmpty_iff] at hempty
  exact wp_releaseStmt h.owns fun g₁ h₁ =>
    ⟨h₁, h.sound, fun _ _ => hempty.1, fun hend => absurd hend hlive⟩

/-- What follows the routing of a statement command is the proxy's own doing. -/
theorem wp_settleStmt_found (h : st.StmtsFound g) (hlive : st.phase ≠ .ended) {s : MysqlStmtShadow}
    {r : Except Str Response} : (st.settleStmt r).wp (stmtCommand srv raw s) StmtsFound g := by
  have hlast : ∀ sent, (st.flushStmt sent).wp (stmtCommand srv raw s) StmtsFound g := fun sent =>
    wp_proxyOwn (wp_flushStmt_found h hlive sent) (Prog.only_ite (Prog.only_bind (Prog.only_perform rfl) fun _ =>
      Prog.only_ite (Prog.only_ite (proxyOwn_silent releaseStmt_does.only) trivial) trivial) trivial)
  have hquiet : ∀ {o : Op}, o.quiet = true → ∀ {Q : Res o → Hold srv → Prop}, (∀ r, Q r g) →
      (act o).wp (stmtCommand srv raw s) Q g := by
    intro o ho Q hQ
    refine wp_proxyOwn (wp_quiet ho hQ) (Prog.only_perform ?_)
    cases o <;> first | rfl | cases ho
  rcases r with e | response
  · rw [settleStmt, Prog.wp_bind]
    exact hquiet rfl fun _ => hlast true
  · rw [settleStmt]
    refine Prog.wp_ite (fun _ => hlast true) fun _ => ?_
    exact hquiet rfl hlast

/-- A turn for a statement command outside transactions. -/
theorem wp_stmt_found (hlive : st.phase ≠ .ended) (h : st.StmtsFound g) (hflag : st.inTransaction = false)
    (htakes : st.shadow.takes raw = true) : (st.stmt raw).wp (stmtCommand srv raw st.shadow) StmtsFound g := by
  rw [stmt, Prog.wp_bind]
  refine wp_routeStmt_settled hflag rfl (h.settled hlive) htakes fun sh sc r g₁ h₁ => ?_
  exact wp_settleStmt_found (.of_settled hlive h₁) hlive

/-- Every other turn leaves statements and connection as they are, or has none of them left. -/
theorem wp_react_found {e : MysqlEvent} {p : Task MysqlSession} (h : st.StmtsFound g)
    (hreact : st.react cfg e = some p) (he : ∀ raw, e ≠ .stmt raw) :
    p.wp (Rules.stmts srv).contract StmtsFound g := by
  obtain ⟨hphase, rfl⟩ := react_eq_some hreact
  have hlive : st.phase ≠ .ended := by
    rw [hphase]
    cases e <;> exact fun h => by cases h
  have hback : ∀ st' g', Inv (stmtPins srv st.shadow st.stmtConn) st' g' → st'.StmtsFound g' := fun st' g' h' =>
    .of_inv (h.sound hlive) (h.opened hlive) h'
  cases e with
  | quit => exact h.close hlive
  | ping =>
    rw [taskOf, Prog.wp_bind]
    refine wp_quiet rfl fun sent => ?_
    cases sent
    · exact h.close hlive
    · exact h
  | resetConnection =>
    refine Prog.wp_mono (wp_resetConnection hlive h.owns fun _ _ _ => trivial) ?_
    rintro st' g' ⟨-, hempty, hshadow, hσ⟩
    exact .of_empty hempty hσ fun _ => hshadow
  | query bytes => exact Prog.wp_mono (wp_query (h.inv hlive) (fun _ _ => trivial) fun _ _ => trivial) hback
  | stmt raw => exact absurd rfl (he raw)
  | other raw => exact Prog.wp_mono (wp_other (h.inv hlive) fun _ _ => trivial) hback
  | cleanup =>
    rw [taskOf, cleanup]
    simp only [Prog.wp_bind]
    refine wp_releaseTx (owns_clean h.owns fun _ _ _ => trivial) (fun _ h => h) fun g₁ h₁ => ?_
    refine wp_releaseStmt h₁ fun g₂ h₂ => wp_releaseSticky h₂ fun g₃ h₃ => ?_
    exact .of_empty ⟨rfl, rfl, rfl⟩ h₃ fun hlive => absurd rfl hlive

end MysqlSession

/-! ## Runs -/

/-- A session of either protocol; PostgreSQL has no shadow of ids. -/
def Session.StmtsFound (g : Hold srv) : Session → Prop
  | .mysql st => st.StmtsFound g
  | .pg st => Session.Lax .none g (.pg st)

/-- The contract of a turn. -/
def Session.stmtContract (srv : Server) : Session → SessionEvent → Protocol Op Res (Hold srv)
  | .mysql st, .mysql (.stmt raw) => stmtCommand srv raw st.shadow
  | _, _ => (Rules.stmts srv).contract

/-- Statement commands come outside transactions, and the shadow has an answer to them. -/
def Session.takes : Session → SessionEvent → Bool
  | .mysql st, .mysql (.stmt raw) => !st.inTransaction && st.shadow.takes raw
  | _, _ => true

/-- Whether shadow and connection still belong together after the exchange: what is prepared again is, a PREPARE loses
its connection only while nothing else is open, and a CLOSE that fails has not been executed. -/
def MysqlStmtShadow.answered (s : MysqlStmtShadow) (via : Via) (p : Packet) (d : TalkInput) :
    Except TalkError Response → Bool
  | .ok response => via != .loan || (mysqlParsePrepareOk response.bytes).isSome
  | .error e =>
    via != .loan && (p.prepared.isNone || !isConnectionLost e.text || s.stmts.isEmpty) &&
      (p.closes.isNone || !d.executed)

theorem MysqlStmtShadow.answered_talk {s : MysqlStmtShadow} {via : Via} {p : Packet} {d : TalkInput} {conn : Conn srv}
    {i : Nat} (h : s.answered via p d (conn.talk i p d).2 = true) :
    StmtAnswer s via p conn (conn.talk i p d).2 (conn.talk i p d).1 := by
  have hsess := conn.talk_sess i p d
  rcases hr : (conn.talk i p d).2 with e | response <;> rw [hr] at h
  · simp only [answered, Bool.and_eq_true, bne_iff_ne, ne_eq, Bool.or_eq_true, Option.isNone_iff_eq_none,
      Bool.not_eq_true', List.isEmpty_iff] at h
    obtain ⟨⟨hvia, hlost⟩, hclose⟩ := h
    refine ⟨fun h => absurd h hvia, fun e' he hprep hl => ?_, fun e' he hcl => ?_⟩
    · obtain rfl := Except.error.inj he
      rcases hlost with (hnone | hno) | hempty
      · rw [hnone] at hprep
        cases hprep
      · rw [hl] at hno
        cases hno
      · exact hempty
    · rcases hclose with hnone | hno
      · rw [hnone] at hcl
        cases hcl
      · rw [hsess, hno]
        rfl
  · refine ⟨fun hvia => ?_, (fun e he => by cases he), fun e he => by cases he⟩
    subst hvia
    obtain ⟨⟨n, counts⟩, hparse⟩ := Option.isSome_iff_exists.mp (by simpa [answered] using h)
    exact ⟨response, n, counts, rfl, hparse⟩

namespace World

/-- An exchange of a statement command is answered well. -/
def answersWell (w : World srv) (i : Nat) (s : MysqlStmtShadow) : (o : Op) → In o → Bool
  | .talk _ via c p _, d => (w.hold i c).all fun conn => s.answered via p d (conn.talk i p d).2
  | _, _ => true

/-- The answer to an exchange is that of the connection. -/
theorem talk_eq_some {w w' : World srv} {i : Nat} {c : ConnId} {p : Packet} {limit : Option Nat} {d : TalkInput}
    {r : Except TalkError Response} (h : w.talk i c p limit d = some (w', r)) :
    ∃ conn, w.hold i c = some conn ∧ w' = { w with conns := w.conns.set c (conn.talk i p d).1 } ∧
      r = (conn.talk i p d).2 := by
  obtain ⟨conn, hheld, hrest⟩ := Option.bind_eq_some_iff.mp h
  obtain ⟨-, heq⟩ := Option.ite_none_left_eq_some.mp hrest
  obtain ⟨rfl, rfl⟩ := Prod.mk.inj (Option.some.inj heq)
  exact ⟨conn, hheld, rfl, rfl⟩

/-- The world answers as the rules have it. -/
theorem allows_stmts (hsrv : srv.KeepsStatements) {w w' : World srv} {i : Nat} {o : Op} {inp : In o} {r : Res o}
    (h : w.handle i o inp = some (w', r)) : w.Allows (Rules.stmts srv) i o inp r := by
  cases o with
  | get o db =>
    rcases r with e | c
    · exact fun h => h
    · trivial
  | talk who via c p limit =>
    obtain ⟨conn, hheld, -, rfl⟩ := talk_eq_some h
    intro conn' hheld'
    obtain rfl := Option.some.inj (hheld.symm.trans hheld')
    exact .talk hsrv conn i p inp
  | cacheGet key => rcases r with _ | b <;> trivial
  | readPool => exact fun h => False.elim h
  | loadGr gen => exact fun h => False.elim h
  | loadFailover gen => exact fun h => False.elim h
  | primaryAllows gen => exact fun h => False.elim h
  | put o c db => exact fun _ _ _ => trivial
  | _ => trivial

/-- And to the statement command as the run has it. -/
theorem answersIn {w w' : World srv} {i : Nat} {o : Op} {inp : In o} {r : Res o} {s : MysqlStmtShadow}
    (h : w.handle i o inp = some (w', r)) (hok : w.answersWell i s o inp = true) :
    AnswersIn s (w.hold i) o r (w'.hold i) := by
  cases o with
  | talk who via c p limit =>
    obtain ⟨conn, hheld, hw', rfl⟩ := talk_eq_some h
    intro conn₁ conn' hconn₁ hconn'
    obtain rfl := Option.some.inj (hheld.symm.trans hconn₁)
    have hplace : (conn.talk i p inp).1.place = .held i :=
      (conn.talk_frame i p inp).1.trans (hold_eq_some.mp hheld).2
    have hset := (hold_set hheld (congrArg World.conns hw')).1
    rw [hset, Function.update_self, if_pos hplace] at hconn'
    obtain rfl := Option.some.inj hconn'
    exact MysqlStmtShadow.answered_talk (by simpa [answersWell, hheld] using hok)
  | _ => trivial

end World

theorem Session.stmts_react {cfg : ProxyConfig} {g : Hold srv} {st : Session} {m : SessionEvent} {p : Task Session}
    (h : st.StmtsFound g) (hreact : st.react cfg m = some p) (htakes : st.takes m = true) :
    p.wp (st.stmtContract srv m) (fun st' g' => st'.StmtsFound g') g := by
  cases st with
  | mysql st =>
    obtain ⟨e, q, rfl, hq, rfl⟩ := Session.react_mysql hreact
    rw [Prog.wp_bind]
    by_cases hstmt : ∃ raw, e = .stmt raw
    · obtain ⟨raw, rfl⟩ := hstmt
      obtain ⟨hphase, rfl⟩ := MysqlSession.react_eq_some hq
      simp only [takes, Bool.and_eq_true, Bool.not_eq_true'] at htakes
      have hlive : st.phase ≠ .ended := by
        rw [hphase]
        exact fun h => by cases h
      exact MysqlSession.wp_stmt_found hlive h htakes.1 htakes.2
    · have hcontract : Session.stmtContract srv (.mysql st) (.mysql e) = (Rules.stmts srv).contract := by
        cases e <;> first | rfl | exact absurd ⟨_, rfl⟩ hstmt
      rw [hcontract]
      exact MysqlSession.wp_react_found h hq fun raw he => hstmt ⟨raw, he⟩
  | pg st =>
    have hst : Session.Lax .none g (.pg st) := h
    have hlax := Session.lax_react hst hreact fun _ h => False.elim h
    obtain ⟨e, q, rfl, hq, rfl⟩ := Session.react_pg hreact
    rw [Prog.wp_bind] at hlax
    rw [Prog.wp_bind]
    refine Prog.wp_mono (Prog.wp_transfer (Rules.stmts srv).contract (fun g₁ g₂ => g₁ = g₂) ?_ ?_ hlax rfl) ?_
    · rintro g₁ _ o rfl howes
      cases o <;> exact howes
    · rintro g₁ _ o r g₂ rfl - hstep
      refine ⟨g₂, ?_, rfl⟩
      cases o with
      | talk who via c p limit =>
        obtain ⟨conn, conn', hconn, hg, hafter⟩ := hstep
        exact ⟨conn, conn', hconn, hg, hafter.lender⟩
      | get o db => rcases r with e | c <;> exact hstep
      | cacheGet key => rcases r with _ | b <;> exact hstep
      | _ => exact hstep
    · rintro st' g' ⟨_, hpg, rfl⟩
      exact hpg

/-- The steps that keep statements and connections together. -/
def keepsStatements (s : ProxyState srv) : ProxyEvent → Bool
  | .msg i m =>
    match s.thread i with
    | .idle st => st.takes m
    | _ => true
  | .op i inp =>
    match s.thread i with
    | .busy (.mysql st) (.mysql (.stmt _)) (.op o _) => s.world.answersWell i st.shadow o (inp o)
    | _ => true
  | .env _ | .stop _ => true

/-- Nothing is open in a session without connections. -/
theorem MysqlSession.stmtsFound_empty {st : MysqlSession} (hst : st.Empty) (hs : st.shadow = .new) :
    st.StmtsFound (fun _ => (none : Option (Conn srv))) :=
  .of_empty (P := stmtPins srv st.shadow st.stmtConn) hst (by rw [hst.vars]; exact Owns.nil) fun _ => hs

/-- Statements and connections stay together in every run. -/
def stmtOutline (hsrv : srv.KeepsStatements) (cfg : ProxyConfig) :
    Outline (proxy srv cfg) (fun s e => keepsStatements s e = true) (Hold srv) where
  inv w := w.Coherent
  hold := World.hold
  proto _ st m := st.stmtContract srv m
  idle _ g st := st.StmtsFound g
  msg_ok {s i st m p} _ hi hidle hok hreact := by
    simp only [keepsStatements, hi] at hok
    exact Session.stmts_react hidle hreact hok
  op_ok {s i st m o k inp w' r} hinv hi _ hok hh := by
    have hkept := World.handle_kept (R := Rules.stmts srv) hinv (fun _ _ _ _ _ => trivial) hh
      (World.allows_stmts hsrv hh)
    refine ⟨hkept.coherent, rfl, rfl, ?_, hkept.others⟩
    unfold Session.stmtContract
    split
    · simp only [keepsStatements, hi] at hok
      exact ⟨hkept.step, World.answersIn hh hok⟩
    · exact hkept.step
  env_ok hinv _ he := ⟨World.act_coherent hinv he, World.act_hold he, .inl ⟨rfl, rfl⟩⟩
  stop_ok hinv _ hst := by
    cases hst
    refine ⟨World.stop_coherent hinv, rfl, rfl, ?_, fun _ hj => World.stop_hold_of_ne hj⟩
    rw [World.stop_hold_self]
    exact MysqlSession.stmtsFound_empty ⟨rfl, rfl, rfl⟩ rfl

theorem stmtOutline_start (hsrv : srv.KeepsStatements) (cfg : ProxyConfig) (primary : PoolConfig)
    (replicas : List PoolConfig) (clients : List Client) :
    (stmtOutline hsrv cfg).Good (proxyStart srv primary replicas clients) := by
  refine ⟨World.new_coherent primary replicas, fun i => ?_⟩
  have hnone : (proxyStart srv primary replicas clients).world.hold i = fun _ => none := World.hold_new ..
  have hlax : Session.Lax .none (fun _ => (none : Option (Conn srv))) (clients[i]?.elim Session.absent Client.session) :=
    Session.lax_start clients i
  change Session.StmtsFound ((proxyStart srv primary replicas clients).world.hold i) _
  rw [hnone]
  rcases hc : clients[i]? with _ | client
  · exact MysqlSession.stmtsFound_empty ⟨rfl, rfl, rfl⟩ rfl
  · rw [hc] at hlax
    rw [Option.elim_some, Client.session] at hlax ⊢
    split
    · rename_i hpg
      rw [if_pos hpg] at hlax
      exact hlax
    · exact MysqlSession.stmtsFound_empty ⟨rfl, rfl, rfl⟩ rfl

/-- Statements are found where they are prepared. -/
structure FindsStatements (s : ProxyState srv) : Prop where
  /-- a statement command goes out on a connection that has the statement, under the id it has there -/
  sent : ∀ i st raw via c p limit k,
    s.thread i = .busy (.mysql st) (.mysql (.stmt raw)) (.op (.talk .client via c p limit) k) →
      ∃ conn, s.world.hold i c = some conn ∧ FitsStmt raw st.shadow p conn
  /-- between two commands, what is open is prepared on `stmt_conn` -/
  opened : ∀ i st p info, s.thread i = .idle (.mysql st) → st.phase ≠ .ended → st.shadow.get p = some info →
    ∃ c conn, st.stmtConn = some c ∧ s.world.hold i c = some conn ∧
      srv.stmt conn.sess info.backendId = some info.query

/-- **Statements are found**, in every run of any number of sessions in which statement commands come outside
transactions and for statements that are open, what is prepared again is, a PREPARE loses its connection only while
nothing is open, and a CLOSE that fails has not been executed. -/
theorem statements_found (hsrv : srv.KeepsStatements) {cfg : ProxyConfig} {primary : PoolConfig}
    {replicas : List PoolConfig} {clients : List Client} {es : List ProxyEvent} {s : ProxyState srv}
    (hrun : Steps (proxy srv cfg).step (fun s e => keepsStatements s e = true)
      (proxyStart srv primary replicas clients) es s) : FindsStatements s := by
  have hgood := (stmtOutline hsrv cfg).steps hrun (stmtOutline_start hsrv cfg primary replicas clients)
  refine ⟨fun i st raw via c p limit k hi => ?_, fun i st p info hi hlive hp => ?_⟩
  · obtain ⟨⟨⟨conn, hconn⟩, -⟩, hsends⟩ := hgood.owes hi
    exact ⟨conn, hconn, hsends conn hconn⟩
  · have hfound := hgood.2 i
    rw [hi] at hfound
    have hset := (hfound : st.StmtsFound (s.world.hold i)).settled hlive
    rcases hc : st.stmtConn with _ | c
    · rw [MysqlStmtShadow.get_eq_none_of_nil (hset.opened hc)] at hp
      cases hp
    · obtain ⟨conn, hconn, hagreed⟩ := hset.owns.held .stmtConn ⟨c, Agreed st.shadow⟩ (by simp [hc])
      exact ⟨c, conn, rfl, hconn, hagreed p info hp⟩

/-- A statement command that is about to go out for the client of a session: the session as the command found it, the
command as it came, the connection and the packet. -/
def Sys.sending (s : ProxyState srv) (i : Nat) : Option (MysqlSession × Bytes × ConnId × Packet) :=
  match s.thread i with
  | .busy (.mysql st) (.mysql (.stmt raw)) (.op (.talk .client _ c p _) _) => some (st, raw, c, p)
  | _ => none

/-- A command with an id goes out on a connection on which the statement registered for the id is prepared, and carries
the id that the statement has there. -/
def SendsStatements (s : ProxyState srv) : Prop :=
  ∀ i st raw c p id, s.sending i = some (st, raw, c, p) → carriedId raw = some id →
    ∃ conn info n, s.world.hold i c = some conn ∧ st.shadow.get id = some info ∧
      srv.stmt conn.sess n = some info.query ∧ mysqlReadStmtId p.bytes = some n ∧ p.bytes = mysqlRewriteStmtId raw n

/-- A command with an id that the shadow has an answer to is for an open statement. -/
theorem MysqlStmtShadow.get_of_takes {s : MysqlStmtShadow} {raw : Bytes} {id : Nat} (h : s.takes raw = true)
    (hid : carriedId raw = some id) : ∃ info, s.get id = some info := by
  cases raw with
  | nil => cases hid
  | cons cmd rest =>
    obtain ⟨hcmd, hread⟩ := Option.ite_none_right_eq_some.mp hid
    have hprepare : ¬cmd = Com.stmtPrepare := by
      rintro rfl
      cases hcmd
    rw [takes, hread, Option.all_some] at h
    simpa [hprepare, hcmd, Option.isSome_iff_exists] using h

/-- **Statement commands** reach the statements that they are for, under the same condition. -/
theorem statements_sent (hsrv : srv.KeepsStatements) {cfg : ProxyConfig} {primary : PoolConfig}
    {replicas : List PoolConfig} {clients : List Client} {es : List ProxyEvent} {s : ProxyState srv}
    (hrun : Steps (proxy srv cfg).step (fun s e => keepsStatements s e = true)
      (proxyStart srv primary replicas clients) es s) : SendsStatements s := by
  have hgood := (stmtOutline hsrv cfg).steps hrun (stmtOutline_start hsrv cfg primary replicas clients)
  intro i st raw c p id hsending hid
  unfold Sys.sending at hsending
  split at hsending
  · rename_i st raw via c p limit k hi
    cases hsending
    have htakes := hrun.startedBy (P := fun st m => st.takes m = true)
      (fun s i st m hi hok => by simpa only [keepsStatements, hi] using hok) (fun _ => trivial) i
    rw [hi] at htakes
    obtain ⟨info, hinfo⟩ := MysqlStmtShadow.get_of_takes (Bool.and_eq_true_iff.mp htakes).2 hid
    obtain ⟨⟨⟨conn, hconn⟩, -⟩, hsends⟩ := hgood.owes hi
    obtain ⟨n, hstmt, hread, hbytes⟩ := (hsends conn hconn).found id info hid hinfo
    exact ⟨conn, info, n, hconn, hinfo, hstmt, hread, hbytes⟩
  · cases hsending

/-! ## A server with statements -/

/-- A MySQL server that numbers the statements of a connection in order. -/
def Server.prepares : Server where
  Sess := List (Option Bytes)
  fresh := []
  exec s p _ :=
    match p.prepared with
    | some sql =>
      if s.length < 2 ^ 32 then
        (s ++ [some sql], .mysql ([12, 0, 0, 1, 0] ++ le32Bytes s.length ++ [0, 0, 0, 0, 0, 0, 0]) [] none)
      else (s, .mysql [9, 0, 0, 1, 0xFF, 0x17, 0x04, 0x23] [] none)
    | none =>
      (match p.closes with
        | some n => s.set n none
        | none => s,
        .mysql [7, 0, 0, 1, 0, 0, 0, 2, 0, 0, 0] [] none)
  txOpen _ := false
  stmt s n := (s[n]?).join

theorem Server.prepares_keeps : Server.prepares.KeepsStatements where
  stays {s p choice n sql} _ hn hclose := by
    change List (Option Bytes) at s
    have hs : s[n]? = some (some sql) := Option.join_eq_some_iff.mp hn
    obtain ⟨hlt, -⟩ := List.getElem?_eq_some_iff.mp hs
    refine Option.join_eq_some_iff.mpr ?_
    simp only [prepares]
    split
    · split
      · rw [List.getElem?_append_left hlt]
        exact hs
      · exact hs
    · split
      · rename_i m hm
        rw [List.getElem?_set_ne]
        · exact hs
        · rintro rfl
          exact hclose hm
      · exact hs
  prepares {s p sql choice n counts} hp hparse := by
    change List (Option Bytes) at s
    simp only [prepares, hp] at hparse ⊢
    split at hparse
    · rename_i hlt
      have hn : le32 (UInt8.ofNat s.length) (UInt8.ofNat (s.length / 2 ^ 8)) (UInt8.ofNat (s.length / 2 ^ 16))
          (UInt8.ofNat (s.length / 2 ^ 24)) = n := (Prod.mk.inj (Option.some.inj hparse)).1
      rw [le32_le32Bytes hlt] at hn
      subst hn
      rw [if_pos hlt]
      exact ⟨by simp, by simp⟩
    · cases hparse

/-- A statement is prepared and executed; its connection is lost, and the command is about to go out once more. -/
def executesAgain : List ProxyEvent :=
  turn 0 (.mysql (.stmt (Com.stmtPrepare :: asciiBytes "DO 1"))) 8 (calm 0 none) ++
  turn 0 (.mysql (.stmt [Com.stmtExecute, 1, 0, 0, 0, 0, 1, 0, 0, 0])) 2
    (calm 0 (some (.lost "MySQL server has gone away".toList false))) ++
  List.replicate 6 (.op 0 (calm 0 none))

theorem statements_found_executesAgain :
    ∃ s, run (proxy .prepares smallConfig).step (proxyStart .prepares smallPool [] [mysqlClient]) executesAgain =
        some s ∧
      s.next 0 = some (.talk .client .stmtConn 1 (.raw [Com.stmtExecute, 0, 0, 0, 0, 0, 1, 0, 0, 0]) none) ∧
      FindsStatements s := by
  obtain ⟨s, hs⟩ := Option.isSome_iff_exists.mp (show (run (fun s e =>
    if keepsStatements s e then (proxy .prepares smallConfig).step s e else none)
    (proxyStart .prepares smallPool [] [mysqlClient]) executesAgain).isSome = true by decide +kernel)
  have hsteps := steps_of_checked (fun _ _ h => h) hs
  have hnext : (run (proxy .prepares smallConfig).step (proxyStart .prepares smallPool [] [mysqlClient])
      executesAgain).map (fun s => s.next 0) =
      some (some (.talk .client .stmtConn 1 (.raw [Com.stmtExecute, 0, 0, 0, 0, 0, 1, 0, 0, 0]) none)) := by
    rfl
  rw [hsteps.run] at hnext
  exact ⟨s, hsteps.run, Option.some.inj hnext, statements_found Server.prepares_keeps hsteps⟩

theorem statements_sent_executesAgain :
    ∃ s, run (proxy .prepares smallConfig).step (proxyStart .prepares smallPool [] [mysqlClient]) executesAgain =
        some s ∧ (s.sending 0).isSome = true ∧ SendsStatements s := by
  have hrun : (run (fun s e => if keepsStatements s e then (proxy .prepares smallConfig).step s e else none)
      (proxyStart .prepares smallPool [] [mysqlClient]) executesAgain).map (fun s => (s.sending 0).isSome) =
      some true := by decide +kernel
  obtain ⟨s, hs, hsends⟩ := Option.map_eq_some_iff.mp hrun
  have hsteps := steps_of_checked (fun _ _ h => h) hs
  exact ⟨s, hsteps.run, hsends, statements_sent Server.prepares_keeps hsteps⟩

/-- A statement is prepared, and to be executed in a transaction. -/
def executesInside : List ProxyEvent :=
  turn 0 (.mysql (.stmt (Com.stmtPrepare :: asciiBytes "DO 1"))) 8 (calm 0 none) ++ mysqlQuery 0 "BEGIN" 11 ++
  turn 0 (.mysql (.stmt [Com.stmtExecute, 1, 0, 0, 0, 0, 1, 0, 0, 0])) 1 (calm 0 none)

/-- The command goes to the connection of the transaction, where nothing is prepared. -/
theorem statement_sent_astray : ¬ ∀ (srv : Server) (cfg : ProxyConfig) (primary : PoolConfig)
    (replicas : List PoolConfig) (clients : List Client) (es : List ProxyEvent) (s : ProxyState srv),
    srv.KeepsStatements → run (proxy srv cfg).step (proxyStart srv primary replicas clients) es = some s →
    SendsStatements s := by
  intro h
  have hend : (run (proxy .prepares smallConfig).step (proxyStart .prepares smallPool [] [mysqlClient])
      executesInside).map (fun s => ((s.sending 0).map (·.2), (s.world.hold 0 1).map fun conn => conn.sess.length)) =
      some (some ([Com.stmtExecute, 1, 0, 0, 0, 0, 1, 0, 0, 0], 1,
        Packet.raw [Com.stmtExecute, 0, 0, 0, 0, 0, 1, 0, 0, 0]), some 0) := by
    decide +kernel
  obtain ⟨s, hs, hend⟩ := Option.map_eq_some_iff.mp hend
  obtain ⟨hsending, hbare⟩ := Prod.mk.inj hend
  obtain ⟨⟨st, raw, c, p⟩, hsending, heq⟩ := Option.map_eq_some_iff.mp hsending
  cases heq
  obtain ⟨conn, info, n, hconn, -, hstmt, -⟩ := h _ _ _ _ _ _ s Server.prepares_keeps hs 0 st _ _ _ 1 hsending rfl
  obtain ⟨conn', hconn', hlength⟩ := Option.map_eq_some_iff.mp hbare
  obtain rfl := Option.some.inj (hconn.symm.trans hconn')
  have hnone : conn.sess = [] := List.length_eq_zero_iff.mp hlength
  rw [hnone] at hstmt
  cases hstmt

end TurbineProxy
