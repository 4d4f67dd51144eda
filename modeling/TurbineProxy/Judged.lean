import TurbineProxy.QueryText
import TurbineProxy.World

/-!
# What the checks see and what is sent

Every check looks at a text, the backends get bytes. `judged` is the contract a session would have to
meet for the two to agree: its ghost state is the text of the last decision, every further decision is
made on that text, and what is sent for the client is the encoding of it. `judges_iff` says for which
byte strings a session meets it.

A byte string that is not UTF-8 has the text view `""`: the checks see an empty statement and the bytes
are sent as they came.
-/

namespace TurbineProxy

open Str

/-- The text that was decided on is the text that is sent. Rules do not fast-forward. -/
def judged : Protocol Op Res Str where
  owes text o := match o with
    | .rewrite sql => sql = text
    | .matchQuery sql _ _ => sql = text
    | .talk .client _ _ p _ => p = .text (toUtf8 text)
    | _ => True
  step text o r text' := match o, r with
    | .rewrite _, (.rewritten sql : RewriteOutcome) => text' = sql
    | .matchQuery .., (m : Option RuleMatch) => text' = text ∧ m.elim false (·.fastForward) = false
    | _, _ => text' = text

namespace Session

/-- The text a session's own checks look at. Of a psql meta-command only the translation is decided
on. -/
def checked (s : Session) (bytes : Bytes) : Str :=
  match s with
  | .mysql _ => textOf bytes
  | .pg _ => (PgSession.metaOf bytes).elim (PgSession.textAsSeen bytes) textOf

/-- The turn of a text query. -/
def query (cfg : ProxyConfig) (s : Session) (bytes : Bytes) : Task Unit :=
  match s with
  | .mysql st => do
    let _ ← st.query cfg.mysql bytes
    pure ()
  | .pg st => do
    let _ ← st.query cfg.pg bytes
    pure ()

/-- Whatever it is answered on the way, the session sends what it has decided on. -/
def JudgesWhatItSends (cfg : ProxyConfig) (s : Session) (bytes : Bytes) : Prop :=
  (s.query cfg bytes).wp judged (fun _ _ => True) (s.checked bytes)

/-- The session's checks reject a text. -/
def refuses (cfg : ProxyConfig) (s : Session) (text : Str) : Bool :=
  match s with
  | .mysql st => cfg.mysql.refuses st.allowWrites text
  | .pg st => cfg.pg.refuses st.allowWrites text

/-- The text the checks look at spells the bytes. -/
def Sees (s : Session) (bytes : Bytes) : Prop :=
  match s with
  | .mysql _ => (fromUtf8 bytes).isSome
  | .pg _ =>
    (PgSession.metaOf bytes).isSome ∨
      (fromUtf8 bytes).isSome ∧ PgSession.textAsSeen bytes = textOf bytes

end Session

/-! ## Sufficient: the query in hand spells its text -/

/-- What is carried is judged, as long as what is in hand spells its text. -/
theorem judged_of_carried {C : Carriage} {α : Type} {p : Task α} {Q : α → InHand → Prop} {g : InHand}
    {text : Str} (hp : p.wp C.contract Q g) (htext : g.text = text)
    (hbytes : C.admitted → g.bytes = toUtf8 text) : p.wp judged (fun _ _ => True) text := by
  have hmono := Prog.wp_transfer judged (fun g text => g.text = text ∧ (C.admitted → g.bytes = toUtf8 text))
    (fun g text o hR howes => ?_) (fun g text o r text' hR howes hstep => ?_) hp ⟨htext, hbytes⟩
  · exact Prog.wp_mono hmono fun _ _ _ => trivial
  · cases o with
    | rewrite sql => exact (howes : C.admitted ∧ sql = g.text).2.trans hR.1
    | matchQuery sql user schema => exact (howes : sql = g.text).trans hR.1
    | talk who via c p limit =>
      cases who with
      | client =>
        obtain ⟨hadm, hsent⟩ : C.admitted ∧ p = .text g.bytes := howes
        exact hsent.trans (congrArg Packet.text (hR.2 hadm))
      | _ => trivial
    | _ => trivial
  · have hsame : ∀ {P : InHand → Prop}, P g → text' = text →
        ∃ g', P g' ∧ g'.text = text' ∧ (C.admitted → g'.bytes = toUtf8 text') := by
      rintro P hg rfl
      exact ⟨g, hg, hR⟩
    cases o with
    | rewrite sql =>
      rcases r with _ | s | msg
      · exact hsame rfl hstep
      · obtain rfl : text' = s := hstep
        exact ⟨.rewritten text', rfl, rfl, fun _ => rfl⟩
      · exact hsame rfl hstep
    | matchQuery sql user schema =>
      refine hsame (P := fun g' => g' = g ∧ _) ⟨rfl, fun hff => ?_⟩ hstep.1
      rw [hstep.2] at hff
      cases hff
    | _ => exact hsame rfl hstep

/-! ## Necessary: nothing else stands between the bytes and a backend -/

/-- Nothing goes wrong, but there are rewrite rules and query rules. -/
def underRules (rewrite : Str → RewriteOutcome) (rules : Str → Str → Str → Option RuleMatch) :
    (o : Op) → Res o
  | .rewrite sql => rewrite sql
  | .matchQuery sql user schema => rules sql user schema
  | o => atEase o

theorem atEase_eq : atEase = underRules (fun _ => .unchanged) fun _ _ _ => none := by
  funext o
  cases o <;> rfl

theorem judged_atEase (text : Str) (o : Op) : judged.step text o (atEase o) text := by
  cases o <;> first | rfl | exact ⟨rfl, rfl⟩

/-- These bytes are sent for the client. -/
def Sends (bytes : Bytes) (o : Op) : Prop :=
  match o with
  | .talk .client _ _ p _ => p = .text bytes
  | _ => False

section Path

variable {sql : Bytes} {txConn : Option ConnId} {rt : Route} {rewrite : Str → RewriteOutcome}
  {rules : Str → Str → Str → Option RuleMatch} {text : Str} {m : Option RuleMatch}

theorem sends_inTx : (routeInTx ⟨0, []⟩ sql txConn rt).Performs (underRules rewrite rules) (Sends sql) := by
  have hsend : ∀ c, (executeQuery .client .txConn c sql).Performs (underRules rewrite rules) (Sends sql) :=
    fun c => .inl rfl
  rw [routeInTx]
  refine Prog.performs_bind ?_
  rcases txConn with _ | c
  · exact Prog.performs_bind (Prog.performs_bind_left _ (hsend 0))
  · exact Prog.performs_bind_left _ (hsend c)

theorem sends_loan : (execute 0 sql 0).Performs (underRules rewrite rules) (Sends sql) := .inl rfl

theorem sends_primary :
    (routePrimary ⟨0, []⟩ text sql 0 m rt).Performs (underRules rewrite rules) (Sends sql) := by
  rw [routePrimary]
  exact Prog.performs_bind (Prog.performs_bind (Prog.performs_bind_left _ sends_loan))

theorem sends_replica {cacheAllowed : Bool} :
    (routeReplica ⟨0, []⟩ text sql 0 cacheAllowed m rt).Performs (underRules rewrite rules) (Sends sql) := by
  rw [routeReplica]
  exact Prog.performs_bind (Prog.performs_bind (Prog.performs_bind_left _ sends_loan))

theorem sends_hostgroup {hg ttl : Nat} :
    (routeHostgroup ⟨0, []⟩ hg ttl text sql 0 rt).Performs (underRules rewrite rules) (Sends sql) := by
  rw [routeHostgroup]
  rcases hg with _ | hg
  all_goals
    refine Prog.performs_ite (fun _ => .inr (Prog.performs_bind ?_)) fun _ => Prog.performs_bind ?_
    · exact Prog.performs_bind (Prog.performs_bind_left _ sends_loan)
    · exact Prog.performs_bind (Prog.performs_bind_left _ sends_loan)

theorem sends_split :
    (routeSplit ⟨0, []⟩ text sql 0 m rt).Performs (underRules rewrite rules) (Sends sql) := by
  have hgo : (if (splitChoice m rt.useReplica).1 then
      routeReplica ⟨0, []⟩ text sql 0 (splitChoice m rt.useReplica).2 m rt
      else routePrimary ⟨0, []⟩ text sql 0 m rt).Performs (underRules rewrite rules) (Sends sql) :=
    Prog.performs_ite (fun _ => sends_replica) fun _ => sends_primary
  rw [routeSplit]
  exact Prog.performs_ite (fun _ => .inr hgo) fun _ => hgo

/-- At ease, the router sends the bytes it was given. -/
theorem sends_routeQueryInner {inTransaction : Bool} :
    (routeQueryInner sql txConn inTransaction rt).Performs atEase (Sends sql) := by
  rw [atEase_eq]
  rw [routeQueryInner]
  refine .inr (Prog.performs_ite (fun _ => sends_inTx) fun _ => Prog.performs_bind_left _ ?_)
  exact .inr (.inr (.inr sends_split))

/-- At time zero no transaction is late. -/
theorem overTime_zero {w : (o : Op) → Res o} (hnow : w .now = (0 : Nat)) (cfg : MysqlConfig)
    (st : MysqlSession) : (st.overTime cfg).result w = false := by
  rw [MysqlSession.overTime]
  split
  · rename_i ts _
    change decide (cfg.maxTransactionTimeMs < w .now - ts) = false
    rw [hnow, Nat.zero_sub]
    exact decide_eq_false (Nat.not_lt_zero _)
  · rfl

theorem overIdle_zero {w : (o : Op) → Res o} (hnow : w .now = (0 : Nat)) (cfg : MysqlConfig)
    (st : MysqlSession) : (st.overIdle cfg).result w = false := by
  rw [MysqlSession.overIdle]
  split
  · rename_i ts _
    change decide (cfg.maxTransactionIdleMs < w .now - ts) = false
    rw [hnow, Nat.zero_sub]
    exact decide_eq_false (Nat.not_lt_zero _)
  · rfl

/-- The empty text gets no answer from the proxy but a refusal. -/
theorem localAnswer_empty {cfg : MysqlConfig} {st : MysqlSession} {q : MysqlSession.Query}
    (hsql : q.sql = []) (hintent : q.intent = .other) (h : cfg.refuses st.allowWrites [] = false) :
    st.localAnswer cfg q = none := by
  have hversion : ∀ v : String, v.toList ≠ [] → (toUppercase (trim []) == v.toList) = false := by
    intro v hv
    exact beq_eq_false_iff_ne.mpr fun heq => hv heq.symm
  simp only [MysqlConfig.refuses, Bool.or_eq_false_iff, Bool.not_eq_false'] at h
  rw [MysqlSession.localAnswer]
  rw [hsql, hintent, h.1.2, h.2]
  dsimp only
  rw [hversion _ (by decide), hversion _ (by decide), hversion _ (by decide)]
  simp

/-- At ease, a MySQL session sends bytes whose text it sees as empty, unless it refuses the empty
text. -/
theorem sends_mysql {cfg : MysqlConfig} (hff : cfg.fastForward = false) {st : MysqlSession}
    (hsql : textOf sql = []) (hrefuses : cfg.refuses st.allowWrites [] = false) :
    (st.query cfg sql).Performs atEase (Sends sql) := by
  have hnormal : ∀ (q : MysqlSession.Query) (st₁ : MysqlSession) (b : Bool), q.bytes = sql →
      (st₁.routeNormally cfg q b).Performs atEase (Sends sql) := by
    rintro q st₁ b rfl
    exact Prog.performs_bind_left _ sends_routeQueryInner
  have hallowed : ∀ (q : MysqlSession.Query) (st₁ : MysqlSession) (b : Bool), q.bytes = sql →
      q.sql = [] → q.wasRead = false → (st₁.routeAllowed cfg q b).Performs atEase (Sends sql) := by
    intro q st₁ b hbytes hempty hread
    rw [MysqlSession.routeAllowed]
    rw [hempty, hread]
    refine Prog.performs_bind (Prog.performs_ite (fun h => ?_) fun _ => hnormal q _ b hbytes)
    rw [Bool.and_false] at h
    cases h
  have hchecked : ∀ (q : MysqlSession.Query) (st₁ : MysqlSession) (b : Bool), q.bytes = sql →
      q.sql = [] → q.wasRead = false → q.intent = .other → st₁.allowWrites = st.allowWrites →
      (st₁.checkedQuery cfg q b).Performs atEase (Sends sql) := by
    intro q st₁ b hbytes hempty hread hintent hwrites
    rw [MysqlSession.checkedQuery]
    refine Prog.performs_bind ?_
    rw [overTime_zero rfl]
    refine Prog.performs_bind ?_
    rw [overIdle_zero rfl]
    rw [localAnswer_empty hempty hintent (by rw [hwrites]; exact hrefuses)]
    exact hallowed q st₁ b hbytes hempty hread
  have hslow : (st.slowQuery cfg [] sql).Performs atEase (Sends sql) := by
    have hexpire : (st.expireRyow.result atEase).allowWrites = st.allowWrites := by
      rw [MysqlSession.expireRyow]
      split
      · change (if _ then _ else _ : MysqlSession).allowWrites = _
        split <;> rfl
      · rfl
    rw [MysqlSession.slowQuery]
    refine Prog.performs_bind ?_
    generalize st.expireRyow.result atEase = st₁ at hexpire ⊢
    have hgtid : (st₁.gtidForcesPrimary cfg ⟨[], sql, classify [], classify [] == .read &&
        !st.inTransaction⟩).result atEase = (st₁, false) := by
      rw [MysqlSession.gtidForcesPrimary]
      have hread : (classify [] == .read) = false := by decide
      rw [hread, Bool.false_and, Bool.and_false]
      rfl
    refine Prog.performs_bind ?_
    rw [hgtid]
    exact Prog.performs_bind (hchecked _ st₁ _ rfl rfl rfl rfl hexpire)
  rw [MysqlSession.query]
  rw [hsql, hff]
  exact Prog.performs_ite (fun h => by cases h) fun _ => Prog.performs_ite (fun _ => hslow) fun _ => .inr hslow

/-- At ease, a PostgreSQL session sends what it neither translates nor refuses. -/
theorem sends_pg {cfg : PgConfig} {st : PgSession} (hmeta : PgSession.metaOf sql = none)
    (hrefuses : cfg.refuses st.allowWrites (PgSession.textAsSeen sql) = false) :
    (st.query cfg sql).Performs atEase (Sends sql) := by
  unfold PgSession.query
  rw [PgSession.metaOf, PgSession.textAsSeen] at hmeta
  rw [PgSession.textAsSeen] at hrefuses
  dsimp only
  rw [hmeta, PgSession.refusal_eq_none.mpr hrefuses]
  exact Prog.performs_bind (Prog.performs_bind_left _ sends_routeQueryInner)

end Path

/-! ## Exactly when -/

theorem judged_silent (text : Str) (o : Op) (ho : Silent o) :
    judged.owes text o ∧ ∀ r text', judged.step text o r text' → text' = text := by
  cases o <;> first | exact ⟨trivial, fun r g' h => h⟩ | cases ho

-- the literals are unified with lists of characters, one character at a time
set_option maxRecDepth 20000 in
/-- The translations of meta-commands are ASCII. -/
theorem ascii_metaQueries : ∀ e ∈ metaQueries, ∀ c ∈ e.2.toList, c.toNat < 128 := by
  simp only [metaQueries, List.forall_mem_cons]
  exact ⟨ascii_ofList rfl, ascii_ofList rfl, ascii_ofList rfl, ascii_ofList rfl, ascii_ofList rfl,
    ascii_ofList rfl, fun _ h => by cases h⟩

/-- Decoding a translation loses nothing. -/
theorem toUtf8_textOf_meta {bytes translated : Bytes} (h : PgSession.metaOf bytes = some translated) :
    toUtf8 (textOf translated) = translated := by
  obtain ⟨-, h⟩ := Option.ite_none_right_eq_some.mp h
  obtain ⟨-, h⟩ := Option.ite_none_left_eq_some.mp h
  obtain ⟨e, he, rfl⟩ := Option.map_eq_some_iff.mp h
  rw [asciiBytes_eq (ascii_metaQueries e (List.mem_of_find?_eq_some he)), textOf_toUtf8]

namespace Session

/-- What is sent is the encoding of what was decided on. -/
theorem JudgesWhatItSends.spells {cfg : ProxyConfig} {s : Session} {bytes : Bytes}
    (h : s.JudgesWhatItSends cfg bytes) (hp : (s.query cfg bytes).Performs atEase (Sends bytes)) :
    bytes = toUtf8 (s.checked bytes) := by
  obtain ⟨o, ho, howes⟩ := Prog.wp_performs (judged_atEase _) h hp
  cases o with
  | talk who via c p limit =>
    cases who with
    | client => exact Packet.text.inj ((ho : p = .text bytes).symm.trans howes)
    | _ => cases ho
  | _ => cases ho

/-- **The checks judge the bytes that are sent**, whatever happens on the way, exactly when the text
they look at spells the bytes, or when they reject that text. -/
theorem judges_iff {cfg : ProxyConfig} (hff : cfg.mysql.fastForward = false) (s : Session)
    (bytes : Bytes) :
    s.JudgesWhatItSends cfg bytes ↔ s.Sees bytes ∨ s.refuses cfg (s.checked bytes) = true := by
  rcases s with st | st
  · constructor
    · intro h
      by_cases hsees : (fromUtf8 bytes).isSome = true
      · exact .inl hsees
      · refine .inr (Bool.not_eq_false _ ▸ fun hrefuses => hsees ?_)
        have hempty : textOf bytes = [] := by
          rw [textOf, Option.not_isSome_iff_eq_none.mp hsees, Option.getD_none]
        have hrefuses' : cfg.mysql.refuses st.allowWrites [] = false := hempty ▸ hrefuses
        have hbytes := h.spells (Prog.performs_bind_left _ (sends_mysql hff hempty hrefuses'))
        exact (toUtf8_textOf_iff bytes).mp hbytes.symm
    · intro h
      unfold JudgesWhatItSends query
      rw [Prog.wp_bind]
      rcases h with hsees | hrefuses
      · refine judged_of_carried (C := ⟨fun _ => True, True⟩) (MysqlSession.wp_carry_query
          (fun _ => trivial) (fun _ => trivial) ⟨fun _ => trivial, fun _ _ => trivial⟩
          fun _ _ => trivial) rfl fun _ => ?_
        exact ((toUtf8_textOf_iff bytes).mpr hsees).symm
      · refine judged_of_carried (C := ⟨fun _ => True, False⟩) (MysqlSession.wp_carry_query
          (fun h => ?_) (fun h => ?_) ⟨fun _ => trivial, fun _ _ => trivial⟩
          fun _ _ => trivial) rfl fun h => h.elim
        · rw [hff] at h
          cases h
        · exact Bool.false_ne_true (h.symm.trans hrefuses)
  · constructor
    · intro h
      rcases hmeta : PgSession.metaOf bytes with _ | translated
      · by_cases hrefuses : cfg.pg.refuses st.allowWrites (PgSession.textAsSeen bytes) = true
        · exact .inr (by rw [checked, hmeta]; exact hrefuses)
        · -- what is sent spells the text that was judged, so that the bytes are its encoding
          have hbytes := h.spells (Prog.performs_bind_left _
            (sends_pg hmeta (Bool.not_eq_true _ ▸ hrefuses)))
          rw [checked, hmeta, Option.elim_none] at hbytes
          have htext : PgSession.textAsSeen bytes = textOf bytes := by
            conv => rhs; rw [hbytes, textOf_toUtf8]
          refine .inl (.inr ⟨?_, htext⟩)
          rw [← toUtf8_textOf_iff, ← htext]
          exact hbytes.symm
      · exact .inl (.inl (by rw [hmeta]; rfl))
    · intro h
      unfold JudgesWhatItSends query
      rw [Prog.wp_bind]
      have hcarried : (PgSession.query cfg.pg st bytes).wp (Carriage.contract ⟨fun _ => True, True⟩)
          (fun st' _ => PgSession.Same st st') (.received ((PgSession.metaOf bytes).getD bytes)) :=
        PgSession.wp_carry_query (fun _ => trivial) fun _ => trivial
      rcases hmeta : PgSession.metaOf bytes with _ | translated
      · rw [hmeta] at hcarried
        simp only [Sees, refuses, checked, hmeta, Option.isSome_none, Option.elim_none,
          Bool.false_eq_true, false_or] at h ⊢
        rcases h with ⟨hutf8, htext⟩ | hrefuses
        · refine judged_of_carried hcarried htext.symm fun _ => ?_
          rw [htext]
          exact ((toUtf8_textOf_iff bytes).mpr hutf8).symm
        · rcases hr : st.refusal cfg.pg (PgSession.textAsSeen bytes) with _ | msg
          · rw [PgSession.refusal_eq_none.mp hr] at hrefuses
            cases hrefuses
          · unfold PgSession.query
            dsimp only
            rw [PgSession.metaOf, PgSession.textAsSeen] at hmeta
            rw [PgSession.textAsSeen] at hr
            rw [hmeta, hr]
            exact Prog.wp_of_does (judged_silent _) (PgSession.refuse_does "42501" msg) fun _ _ => trivial
      · rw [hmeta] at hcarried
        simp only [checked, hmeta, Option.elim_some]
        exact judged_of_carried hcarried rfl fun _ => (toUtf8_textOf_meta hmeta).symm

/-- A MySQL client that may only read. -/
def reader : Session := .mysql (.new "app".toList false [])

theorem judges_select : reader.JudgesWhatItSends smallConfig (asciiBytes "SELECT 1") :=
  (judges_iff rfl reader _).mpr (.inl (by decide : (fromUtf8 (asciiBytes "SELECT 1")).isSome = true))

/-- A write with one byte in a comment that is not UTF-8. -/
def spoiltDelete : Bytes := asciiBytes "DELETE FROM t /* " ++ 0xFF :: asciiBytes " */"

/-- The client may not write; its write is judged as the empty statement and sent. -/
theorem spoilt_delete_sent :
    classify (fromUtf8Lossy spoiltDelete) = .write ∧ reader.refuses smallConfig (fromUtf8Lossy spoiltDelete) = true ∧
      ¬reader.JudgesWhatItSends smallConfig spoiltDelete := by
  refine ⟨by decide +kernel, by decide +kernel, fun h => ?_⟩
  have hsends : (MysqlSession.query smallConfig.mysql (.new "app".toList false [])
      spoiltDelete).Performs atEase (Sends spoiltDelete) := sends_mysql rfl (by decide) (by decide)
  exact absurd (h.spells (Prog.performs_bind_left _ hsends)) (by decide)

end Session

end TurbineProxy
