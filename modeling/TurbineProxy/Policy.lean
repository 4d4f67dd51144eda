import TurbineProxy.Judged
import TurbineProxy.Rules

/-!
# One policy in every state of a session

A `Policy` is the rewrite rules and the query rules, with the luck of one call. A call of
`route_query_inner` *follows* a decision when it blocks or executes accordingly, whatever the pools, the
cache and the servers answer.

`follows_outside` is the decision outside a transaction, `follows_inside` the one inside: there no rule
is asked. `uniform_iff` says for which queries the two agree.
-/

namespace TurbineProxy

/-- The rules, with the luck of one call. -/
structure Policy where
  /-- the rewrite rules -/
  rewriter : Rewriter
  /-- the query rules -/
  rules : RuleEngine
  /-- random numbers and clock -/
  luck : Luck

/-- What is to be done with a query. -/
inductive Decision : Type where
  /-- refuse it with this error -/
  | block (msg : Str)
  /-- execute these bytes -/
  | execute (bytes : Bytes)

/-- What a session is in the middle of. -/
inductive Standing : Type where
  /-- nothing -/
  | outside
  /-- a transaction -/
  | inTransaction
  /-- nothing, but it is pinned to its connection -/
  | pinned

/-- `session.is_in_transaction() || user_var_sticky`, the argument `in_transaction` of the router. -/
def Standing.held : Standing → Bool
  | .outside => false
  | .inTransaction | .pinned => true

namespace Policy

variable (p : Policy)

/-- An answer the rules can give. -/
def Answers : (o : Op) → Res o → Prop
  | .rewrite sql, outcome => outcome = p.rewriter.apply sql
  | .matchQuery sql user schema, m => m = (p.rules.matchQuery p.luck sql user schema).2
  | _, _ => True

/-- Nothing is sent for the client but what the decision says. -/
def allows (d : Decision) : Protocol Op Res Unit where
  owes _ o := match o with
    | .talk .client _ _ packet _ => ∃ bytes, d = .execute bytes ∧ packet = .text bytes
    | _ => True
  step _ o r _ := p.Answers o r

/-- A call of the router does what the decision says: a blocked query is not sent and gets its error, a
query that is not blocked can get executed. -/
structure Follows (d : Decision) (call : Task (Option ConnId × Except Str Response)) : Prop where
  /-- it does nothing else -/
  only : call.wp (p.allows d) (fun r _ => ∀ msg, d = .block msg → r.2 = .error msg) ()
  /-- it does it when all goes well -/
  can : ∀ bytes, d = .execute bytes →
    ∃ w : (o : Op) → Res o, (∀ o, p.Answers o (w o)) ∧ call.Performs w (Sends bytes)

/-- One decision is followed whatever state the session is in. -/
def Uniform (sql : Bytes) (user schema : Str) : Prop :=
  ∃ d, ∀ (standing : Standing) (txConn : Option ConnId) (useReplica : Bool) (initSqls : List Str)
    (database : Option Str), p.Follows d
      (routeQueryInner sql txConn standing.held ⟨useReplica, user, schema, initSqls, database⟩)

/-- The rules leave a query alone: the rewrite rule for it, if there is one, neither blocks it nor
changes its bytes, and the query rule for it, if there is one, has a token left. -/
def Spares (sql : Bytes) (user schema : Str) : Prop :=
  (∀ rule, p.rewriter.ruleFor (textOf sql) = some rule →
    rule.block = false ∧ toUtf8 (rule.transform (textOf sql)) = sql) ∧
  ∀ rule, p.rules.ruleFor p.luck (textOf sql) user schema = some rule →
    rule.exhausted p.luck.nowMs = false

/-! ## The decision outside a transaction -/

/-- The error of a query whose rule is exhausted. -/
def tooMany : Str := "Too many requests: query rate limit exceeded".toList

/-- The query rules decide. -/
def decideRate (text : Str) (bytes : Bytes) (user schema : Str) : Decision :=
  if (p.rules.matchQuery p.luck text user schema).2.elim false (·.rateLimited) then .block tooMany
  else .execute bytes

/-- The rewrite rules decide, then the query rules. -/
def decide (sql : Bytes) (user schema : Str) : Decision :=
  match p.rewriter.apply (textOf sql) with
  | .blocked msg => .block msg
  | .rewritten s => p.decideRate s (toUtf8 s) user schema
  | .unchanged => p.decideRate (textOf sql) sql user schema

variable {p} {sql bytes : Bytes} {text user schema : Str} {txConn : Option ConnId} {rt : Route}
  {pool : PoolRef} {timeoutMs : Nat}

theorem decideRate_eq_execute : p.decideRate text bytes user schema = .execute sql ↔
    bytes = sql ∧ ∀ rule, p.rules.ruleFor p.luck text user schema = some rule →
      rule.exhausted p.luck.nowMs = false := by
  rw [decideRate]
  rw [RuleEngine.rateLimited_iff]
  rcases p.rules.ruleFor p.luck text user schema with _ | rule
  · simp
  · cases hrule : rule.exhausted p.luck.nowMs with
    | false => simp [hrule]
    | true => simp [hrule]

/-- The bytes are executed as they came exactly when the rules spare them. -/
theorem decide_eq_execute : p.decide sql user schema = .execute sql ↔ p.Spares sql user schema := by
  unfold decide Spares
  rw [Rewriter.apply_eq]
  rcases p.rewriter.ruleFor (textOf sql) with _ | rule
  · simp only [decideRate_eq_execute, true_and, reduceCtorEq, false_implies, implies_true]
  · dsimp only
    cases hblock : rule.block with
    | true => simp [hblock]
    | false =>
      simp only [Bool.false_eq_true, if_false, decideRate_eq_execute, Option.some.injEq]
      constructor
      · rintro ⟨hbytes, hrate⟩
        have htext : rule.transform (textOf sql) = textOf sql := by
          conv => rhs; rw [← hbytes]
          exact (textOf_toUtf8 _).symm
        exact ⟨fun r hr => hr ▸ ⟨hblock, hbytes⟩, htext ▸ hrate⟩
      · rintro ⟨hrule, hrate⟩
        have hbytes := (hrule rule rfl).2
        have htext : rule.transform (textOf sql) = textOf sql := by
          conv => rhs; rw [← hbytes]
          exact (textOf_toUtf8 _).symm
        exact ⟨hbytes, htext.symm ▸ hrate⟩

/-! ## What the router follows -/

/-- A route that carries a query follows the decision to execute it. -/
theorem wp_carries {α : Type} {sqls : List Str} {c : Task α} (hc : c.Only (Carries text bytes sqls))
    {Q : α → Unit → Prop} (hQ : ∀ a, Q a ()) : c.wp (p.allows (.execute bytes)) Q () := by
  refine Prog.wp_of_only (fun o ho => ⟨?_, fun _ _ _ => rfl⟩) hc hQ
  cases o with
  | talk who via c packet limit =>
    cases who with
    | client => exact ⟨bytes, rfl, ho⟩
    | _ => trivial
  | _ => trivial

/-- Dispatching follows the query rules. -/
theorem wp_dispatch : (dispatch pool text bytes timeoutMs rt).wp
    (p.allows (p.decideRate text bytes rt.user rt.schema))
    (fun r _ => ∀ msg, p.decideRate text bytes rt.user rt.schema = .block msg → r = .error msg) () := by
  have hsend : ∀ {c : Task (Except Str Response)} {sqls : List Str}, c.Only (Carries text bytes sqls) →
      c.wp (p.allows (.execute bytes)) (fun r _ => ∀ msg, Decision.execute bytes = .block msg → r = .error msg) () := by
    intro c sqls hc
    refine wp_carries hc fun r msg h => ?_
    cases h
  have hsplit : ∀ m, (routeSplit pool text bytes timeoutMs m rt).wp (p.allows (.execute bytes)) _ () :=
    fun m => hsend routeSplit_carries
  have hgroup : ∀ hg ttl, (routeHostgroup pool hg ttl text bytes timeoutMs rt).wp
      (p.allows (.execute bytes)) _ () :=
    fun hg ttl => hsend (routeHostgroup_carries : Prog.Only (Carries text bytes []) _)
  unfold dispatch decideRate
  simp only [Prog.wp_bind]
  refine ⟨trivial, fun m g' hm => ?_⟩
  rw [← (hm : m = _)]
  rcases m with _ | ⟨destination, ttl, mirror, limited, ff⟩
  · exact hsplit none
  cases limited with
  | true => exact fun _ h => congrArg Except.error (Decision.block.inj h)
  | false =>
    rcases destination with _ | _ | _ | hg
    · exact hsplit (some ⟨.any, ttl, mirror, false, ff⟩)
    · exact hsplit (some ⟨.primary, ttl, mirror, false, ff⟩)
    · exact hsplit (some ⟨.replica, ttl, mirror, false, ff⟩)
    · exact hgroup hg ttl

/-- Answers under which all goes well but for the rules. -/
def atEase (p : Policy) : (o : Op) → Res o :=
  underRules p.rewriter.apply fun sql user schema => (p.rules.matchQuery p.luck sql user schema).2

theorem answers_atEase (o : Op) : p.Answers o (p.atEase o) := by
  cases o <;> trivial

/-- Dispatching can execute a query whose rule is not exhausted. -/
theorem sends_dispatch (h : p.decideRate text bytes rt.user rt.schema = .execute sql) :
    (dispatch ⟨0, []⟩ text bytes 0 rt).Performs p.atEase (Sends sql) := by
  obtain ⟨rfl, hrate⟩ := decideRate_eq_execute.mp h
  have hlimited : (p.rules.matchQuery p.luck text rt.user rt.schema).2.elim false (·.rateLimited) = false := by
    rw [RuleEngine.rateLimited_iff]
    rcases hrule : p.rules.ruleFor p.luck text rt.user rt.schema with _ | rule
    · rfl
    · exact hrate rule hrule
  have hsplit : ∀ m, (routeSplit ⟨0, []⟩ text bytes 0 m rt).Performs p.atEase (Sends bytes) :=
    fun m => sends_split
  have hgroup : ∀ hg ttl, (routeHostgroup ⟨0, []⟩ hg ttl text bytes 0 rt).Performs p.atEase (Sends bytes) :=
    fun hg ttl => sends_hostgroup
  have hmatch : (act (.matchQuery text rt.user rt.schema)).result p.atEase =
      (p.rules.matchQuery p.luck text rt.user rt.schema).2 := rfl
  rw [dispatch]
  refine Prog.performs_bind ?_
  rw [hmatch]
  generalize (p.rules.matchQuery p.luck text rt.user rt.schema).2 = m at hlimited ⊢
  rcases m with _ | ⟨destination, ttl, mirror, limited, ff⟩
  · exact hsplit none
  obtain rfl : limited = false := hlimited
  rcases destination with _ | _ | _ | hg
  · exact hsplit (some ⟨.any, ttl, mirror, false, ff⟩)
  · exact hsplit (some ⟨.primary, ttl, mirror, false, ff⟩)
  · exact hsplit (some ⟨.replica, ttl, mirror, false, ff⟩)
  · exact hgroup hg ttl

/-- Outside a transaction the rules decide. -/
theorem follows_outside (rt : Route) :
    p.Follows (p.decide sql rt.user rt.schema) (routeQueryInner sql txConn false rt) := by
  constructor
  · unfold routeQueryInner routeAutocommit decide
    simp only [Prog.wp_bind, Bool.false_eq_true, if_false]
    refine ⟨trivial, fun pool _ _ => ⟨trivial, fun timeoutMs _ _ => ⟨trivial, fun outcome _ ho => ?_⟩⟩⟩
    rw [← (ho : outcome = _)]
    rcases outcome with _ | s | msg
    · exact wp_dispatch
    · exact wp_dispatch
    · exact fun _ h => congrArg Except.error (Decision.block.inj h)
  · intro bytes h
    refine ⟨p.atEase, answers_atEase, ?_⟩
    have hrewrite : (act (.rewrite (textOf sql))).result p.atEase = p.rewriter.apply (textOf sql) := rfl
    have hauto : (routeAutocommit ⟨0, []⟩ sql rt).Performs p.atEase (Sends bytes) := by
      rw [decide] at h
      rw [routeAutocommit]
      refine Prog.performs_bind (Prog.performs_bind ?_)
      rw [hrewrite]
      generalize p.rewriter.apply (textOf sql) = outcome at h ⊢
      rcases outcome with _ | s | msg
      · exact sends_dispatch h
      · exact sends_dispatch h
      · cases h
    exact .inr (Prog.performs_bind_left (fun r => pure (txConn, r)) hauto)

/-- Inside one nothing does. -/
theorem follows_inside : p.Follows (.execute sql) (routeQueryInner sql txConn true rt) := by
  constructor
  · refine ⟨trivial, fun pool _ _ => ?_⟩
    have hroute : (routeInTx pool sql txConn rt).Only (Carries [] sql rt.sessionInitSqls) :=
      carries_hands routeInTx_hands
    refine wp_carries hroute fun r msg h => ?_
    cases h
  · intro bytes h
    obtain rfl := Decision.execute.inj h
    exact ⟨p.atEase, answers_atEase, .inr sends_inTx⟩

/-- A call follows one decision at most. -/
theorem Follows.unique {d d' : Decision} {call : Task (Option ConnId × Except Str Response)}
    (h : p.Follows d call) (h' : p.Follows d' call) : d = d' := by
  have hsends : ∀ {d d' : Decision} {bytes : Bytes}, p.Follows d call → p.Follows d' call →
      d = .execute bytes → d = d' := by
    rintro d d' bytes h h' rfl
    obtain ⟨w, hw, hperforms⟩ := h.can bytes rfl
    obtain ⟨o, ho, howes⟩ := Prog.wp_performs (g := ()) hw h'.only hperforms
    cases o with
    | talk who via c packet limit =>
      cases who with
      | client =>
        obtain ⟨bytes', rfl, hpacket⟩ := howes
        exact congrArg Decision.execute (Packet.text.inj ((ho : packet = _).symm.trans hpacket))
      | _ => cases ho
    | _ => cases ho
  rcases hd : d with msg | bytes
  · rcases hd' : d' with msg' | bytes'
    · have herror := Prog.wp_result (g := ()) answers_atEase h.only msg hd
      have herror' := Prog.wp_result (g := ()) answers_atEase h'.only msg' hd'
      exact congrArg Decision.block (Except.error.inj (herror.symm.trans herror'))
    · exact (hd ▸ hd' ▸ hsends h' h hd').symm
  · exact hd ▸ hsends h h' hd

/-- What is decided in every state is to execute the query as it came. -/
theorem Uniform.spares (h : p.Uniform sql user schema) : p.Spares sql user schema := by
  obtain ⟨d, h⟩ := h
  have hinside := (h .inTransaction none false [] none).unique follows_inside
  have houtside := (h .outside none false [] none).unique (follows_outside _)
  exact decide_eq_execute.mp (houtside.symm.trans hinside)

/-- **The policy is the same in every state** exactly for the queries that it leaves alone. -/
theorem uniform_iff (p : Policy) (sql : Bytes) (user schema : Str) :
    p.Uniform sql user schema ↔ p.Spares sql user schema := by
  refine ⟨Uniform.spares, fun h => ⟨.execute sql, ?_⟩⟩
  intro standing txConn useReplica initSqls database
  cases standing with
  | outside =>
    exact decide_eq_execute.mpr h ▸ follows_outside ⟨useReplica, user, schema, initSqls, database⟩
  | inTransaction => exact follows_inside
  | pinned => exact follows_inside

/-- A rule that blocks DROP TABLE. -/
def noDrops : Policy where
  rewriter := [⟨⟨fun s => Str.contains s "DROP TABLE", fun s _ => s⟩, none, none, none, true,
    "Block DROP TABLE from application connections".toList⟩]
  rules := []
  luck := ⟨fun _ => 0, 0⟩

/-- The query it is for. -/
def dropUsers : Bytes := asciiBytes "DROP TABLE users"

/-- Outside a transaction it is blocked, inside one it is executed. -/
theorem dropped_in_transaction :
    noDrops.Follows (.block ("Query blocked by rewrite rule: ".toList ++
        "Block DROP TABLE from application connections".toList))
      (routeQueryInner dropUsers none Standing.outside.held ⟨false, [], [], [], none⟩) ∧
    noDrops.Follows (.execute dropUsers)
      (routeQueryInner dropUsers none Standing.inTransaction.held ⟨false, [], [], [], none⟩) ∧
    ¬noDrops.Uniform dropUsers [] [] := by
  have hdecide : noDrops.decide dropUsers [] [] = .block ("Query blocked by rewrite rule: ".toList ++
      "Block DROP TABLE from application connections".toList) := by
    have hmatch : Str.contains (textOf dropUsers) "DROP TABLE" = true := by decide +kernel
    unfold Policy.decide noDrops Rewriter.apply
    simp only [hmatch]
    rfl
  refine ⟨hdecide ▸ follows_outside ⟨false, [], [], [], none⟩, follows_inside, fun h => ?_⟩
  have hexecute := decide_eq_execute.mpr h.spares
  rw [hdecide] at hexecute
  cases hexecute

end Policy

end TurbineProxy
