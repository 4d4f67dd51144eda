import TurbineProxy.Lookups

/-!
# One rule for one query

Two contracts about the look-ups of a query, which meets them when its `lookups` do. Under `alike` every
look-up picks the rule that is meant for the query; under `charging` the ghost state counts what the
query costs each rule.

`lookups_agree_iff` and `charged_once_iff` say for which queries the rule is the same at every look-up,
and for which none is charged twice.
-/

namespace TurbineProxy

open Str

/-! ## The same rule at every look-up -/

/-- The contract of a query all of whose look-ups pick one rule. Nothing is rewritten, and others may
use the rules meanwhile. -/
def alike (rules : RuleEngine) (picked : Option Nat) : Protocol Op Res Unit where
  owes _ o := match o with
    | .matchQuery sql user schema => ∀ luck, rules.hit luck sql user schema = picked
    | _ => True
  step _ o r _ := match o, r with
    | .rewrite sql, (outcome : RewriteOutcome) => outcome = Rewriter.apply [] sql
    | .matchQuery sql user schema, (m : Option RuleMatch) =>
      ∃ engine luck, rules.SameButUse engine ∧ m = (RuleEngine.matchQuery engine luck sql user schema).2
    | _, _ => True

namespace Session

/-- The text the rules are asked about. -/
def ruled (s : Session) (bytes : Bytes) : Str :=
  match s with
  | .mysql _ => textOf bytes
  | .pg _ => textOf ((PgSession.metaOf bytes).getD bytes)

/-- The client user. -/
def user : Session → Str
  | .mysql st => st.user
  | .pg st => st.user

/-- The rules are asked about the query. -/
def asks (cfg : ProxyConfig) (s : Session) (bytes : Bytes) : Bool :=
  match s with
  | .mysql st => !cfg.mysql.fastForward && !st.inTransaction
  | .pg st => st.routes cfg.pg bytes

/-- Every look-up of a query that is sent on `database` picks the first rule that is for the text, the user and this
database. -/
def LooksUpAlike (cfg : ProxyConfig) (rules : RuleEngine) (s : Session) (database : Str) (bytes : Bytes) : Prop :=
  (s.query cfg bytes).wp (alike rules (rules.firstFor (s.ruled bytes) s.user database)) (fun _ _ => True) ()

end Session

section Alike

variable {rules : RuleEngine} {picked : Option Nat} {sql text user schema : Str}

theorem alike_unasked (o : Op) (ho : Unasked o) :
    (alike rules picked).owes () o ∧ ∀ r g', (alike rules picked).step () o r g' → g' = () := by
  cases o with
  | matchQuery sql user schema => cases ho
  | _ => exact ⟨trivial, fun _ _ _ => rfl⟩

theorem alike_goneAway (o : Op) (ho : Unasked o) : (alike rules picked).step () o (goneAway o) () := by
  cases o <;> trivial

theorem alike_back (o : Op) : ∃ r g', (alike rules picked).step () o r g' ∧ (True → True) := by
  cases o with
  | rewrite sql => exact ⟨_, (), rfl, id⟩
  | matchQuery sql user schema => exact ⟨_, (), ⟨rules, ⟨fun _ => 0, 0⟩, .refl rules, rfl⟩, id⟩
  | _ => exact ⟨atEase _, (), trivial, id⟩

theorem wp_alike_router : (routerLookups text user schema).wp (alike rules picked) (fun _ _ => True) () ↔
    ∀ luck, rules.hit luck text user schema = picked := by
  constructor
  · intro h
    exact (h.2 .unchanged () rfl).1
  · refine fun h => ⟨trivial, fun outcome g' ho => ?_⟩
    obtain rfl : outcome = .unchanged := ho
    exact ⟨h, fun _ _ _ => trivial⟩

/-- Every look-up of the MySQL session is about the same text, user and schema. -/
theorem MysqlSession.wp_alike {cfg : MysqlConfig} {st : MysqlSession} {bytes : Bytes} :
    (st.lookups cfg bytes).wp (alike rules picked) (fun _ _ => True) () ↔
      cfg.fastForward = true ∨ st.inTransaction = true ∨
        ∀ luck, rules.hit luck (textOf bytes) st.user MysqlSession.database = picked := by
  unfold MysqlSession.lookups
  dsimp only
  cases hff : cfg.fastForward with
  | true => exact iff_of_true trivial (.inl rfl)
  | false =>
    cases htx : st.inTransaction with
    | true => exact iff_of_true trivial (.inr (.inl rfl))
    | false =>
      simp only [Bool.false_eq_true, false_or]
      constructor
      · exact fun h => h.1
      · exact fun hpicks => ⟨hpicks, fun m g' _ => Prog.wp_ite (fun _ => wp_alike_router.2 hpicks) fun _ => trivial⟩

end Alike

/-- **All look-ups of a query pick the rule that is meant for it** exactly when there is none, or the rule for the
database the query is sent on is the one for an empty schema. -/
theorem lookups_agree_iff {rules : RuleEngine} (hsteady : rules.Steady) (cfg : ProxyConfig) (s : Session)
    (database : Str) (bytes : Bytes) :
    s.LooksUpAlike cfg rules database bytes ↔ s.asks cfg bytes = false ∨
      rules.firstFor (s.ruled bytes) s.user [] = rules.firstFor (s.ruled bytes) s.user database := by
  rcases s with st | st
  · unfold Session.LooksUpAlike Session.query Session.asks Session.ruled Session.user
    rw [Prog.wp_bind]
    refine (MysqlSession.wp_query_iff (fun _ => alike_unasked) (fun _ => alike_goneAway)
      (fun _ => alike_back)).trans ?_
    rw [MysqlSession.wp_alike, hsteady.forall_hit, MysqlSession.database]
    rw [Bool.and_eq_false_iff, Bool.not_eq_false', Bool.not_eq_false', or_assoc]
  · unfold Session.LooksUpAlike Session.query Session.asks Session.ruled Session.user
    rw [Prog.wp_bind]
    refine (PgSession.wp_query_iff (fun _ => alike_unasked) (fun _ => alike_goneAway)
      (fun _ => alike_back)).trans ?_
    rw [PgSession.lookups]
    dsimp only
    cases st.routes cfg.pg bytes with
    | false => exact iff_of_true trivial (.inl rfl)
    | true =>
      rw [if_pos rfl, wp_alike_router, hsteady.forall_hit]
      simp only [Bool.true_eq_false, false_or]

/-- A rule for every schema. -/
def anySchema : QueryRule where
  pattern := some ⟨fun sql => startsWith sql "SELECT", fun sql _ => sql⟩
  digest := none
  user := []
  schema := []
  destination := .replica
  cacheTtlSecs := 0
  mirrorTo := none
  rolloutPct := 0
  dryRun := false
  fastForward := false
  qpsLimit := 0
  tokenBucket := 0
  tokenBucketMs := 0
  hitCount := 0

/-- The same rule for one schema. -/
def shopOnly : QueryRule := { anySchema with schema := "shop".toList }

/-- A session of the user `app`. -/
def appSession : MysqlSession := .new "app".toList true []

theorem anySchema_alike :
    (Session.mysql appSession).LooksUpAlike smallConfig [anySchema] "shop".toList (asciiBytes "SELECT 1") :=
  (lookups_agree_iff (List.forall_mem_singleton.2 ⟨.inl rfl, rfl⟩) smallConfig (.mysql appSession) "shop".toList
    (asciiBytes "SELECT 1")).mpr (.inr (by decide +kernel))

/-- The session is in a transaction. -/
def Session.inTransaction : Session → Bool
  | .mysql st => st.inTransaction
  | .pg st => st.inTransaction

/-- A rule for the schema `shop` is not seen by a query that is sent on this database. -/
theorem schema_dropped : ¬ ∀ (rules : RuleEngine) (cfg : ProxyConfig) (s : Session) (database : Str) (bytes : Bytes),
    rules.Steady → s.inTransaction = false → s.LooksUpAlike cfg rules database bytes := by
  intro h
  have hwp : (MysqlSession.query smallConfig.mysql appSession (asciiBytes "SELECT 1") >>= fun _ => pure ()).wp
      (alike [shopOnly] (some 0)) (fun _ _ => True) () :=
    h [shopOnly] smallConfig (.mysql appSession) "shop".toList (asciiBytes "SELECT 1")
      (List.forall_mem_singleton.2 ⟨.inl rfl, rfl⟩) rfl
  rw [Prog.wp_bind] at hwp
  have hlookups := (MysqlSession.wp_query_iff (fun _ => alike_unasked) (fun _ => alike_goneAway)
    (fun _ => alike_back)).1 hwp
  rcases MysqlSession.wp_alike.1 hlookups with hff | htx | hpicks
  · cases hff
  · cases htx
  · exact absurd (hpicks ⟨fun _ => 0, 0⟩) (by decide +kernel)

/-! ## One charge -/

namespace QueryRule

variable (rule : QueryRule) (nowMs : Nat)

/-- The tokens taken from a rule that has become `after` by time `nowMs`, not counting those that were
added. -/
def tokensTaken (after : QueryRule) : Nat :=
  ((if after.tokenBucketMs = rule.tokenBucketMs then rule else rule.refill nowMs).tokenBucket -
    after.tokenBucket).toNat

theorem tokensTaken_self : rule.tokensTaken nowMs rule = 0 := by
  rw [tokensTaken, if_pos rfl, Int.sub_self]
  rfl

theorem charge_hitCount : (rule.charge nowMs).1.hitCount = rule.hitCount + 1 := by
  unfold charge tryConsumeToken refill
  dsimp only
  split_ifs <;> rfl

/-- A charge takes one token at most. -/
theorem tokensTaken_charge : rule.tokensTaken nowMs (rule.charge nowMs).1 ≤ 1 := by
  unfold tokensTaken charge tryConsumeToken refill
  dsimp only
  split_ifs <;> dsimp only at * <;> omega

end QueryRule

/-- What one rule is charged. -/
structure Charge where
  /-- hits -/
  hits : Nat
  /-- tokens -/
  tokens : Nat

/-- What every rule is charged, by index. -/
abbrev Bill : Type := Nat → Charge

namespace Bill

/-- Nothing is charged. -/
def empty : Bill := fun _ => ⟨0, 0⟩

/-- One bill after the other. -/
def add (bill bill' : Bill) : Bill := fun j =>
  ⟨(bill j).hits + (bill' j).hits, (bill j).tokens + (bill' j).tokens⟩

/-- No rule is charged more than one hit and one token. -/
def Once (bill : Bill) : Prop := ∀ j, (bill j).hits ≤ 1 ∧ (bill j).tokens ≤ 1

variable {bill bill' : Bill}

theorem once_empty : empty.Once := fun _ => ⟨Nat.zero_le 1, Nat.zero_le 1⟩

theorem empty_add : empty.add bill = bill := by
  funext j
  rw [add, empty, Nat.zero_add, Nat.zero_add]

theorem Once.of_add (h : (bill.add bill').Once) : bill.Once := fun j =>
  ⟨Nat.le_trans (Nat.le_add_right _ _) (h j).1, Nat.le_trans (Nat.le_add_right _ _) (h j).2⟩

end Bill

namespace RuleEngine

variable {rules rules' engine engine' : RuleEngine} {luck luck' : Luck}
  {sql sql' user user' schema schema' : Str} {j : Nat}

/-- What a look-up costs the rule with index `j`: hits and tokens. -/
def bill (rules : RuleEngine) (luck : Luck) (sql user schema : Str) : Bill := fun j =>
  match rules[j]?, (rules.matchQuery luck sql user schema).1[j]? with
  | some before, some after => ⟨after.hitCount - before.hitCount, before.tokensTaken luck.nowMs after⟩
  | _, _ => ⟨0, 0⟩

theorem isSome_of_hit (h : rules.hit luck sql user schema = some j) : (rules[j]?).isSome := by
  suffices hfrom : ∀ i, hitFrom luck sql user schema i rules = some j → j < i + rules.length by
    have hlt := hfrom 0 h
    rw [Nat.zero_add] at hlt
    rw [List.getElem?_eq_getElem hlt]
    rfl
  clear h
  induction rules with
  | nil =>
    intro i h
    cases h
  | cons rule rest ih =>
    intro i h
    rw [hitFrom] at h
    rw [List.length_cons]
    split at h
    · obtain rfl := Option.some.inj h
      omega
    · have hlt := ih (i + 1) h
      omega

variable (rules luck sql user schema j) in
/-- Only the rule that is hit is charged: one hit, and one token at most. -/
theorem bill_eq : ∃ tokens ≤ 1, rules.bill luck sql user schema j =
    if rules.hit luck sql user schema = some j then ⟨1, tokens⟩ else ⟨0, 0⟩ := by
  rw [bill]
  rw [matchQuery_fst]
  cases hhit : rules.hit luck sql user schema with
  | none =>
    refine ⟨0, Nat.zero_le 1, ?_⟩
    rw [Option.elim_none, if_neg (by simp)]
    cases rules[j]? with
    | none => rfl
    | some rule =>
      dsimp only
      rw [rule.tokensTaken_self, Nat.sub_self]
  | some k =>
    rw [Option.elim_some, List.getElem?_modify]
    by_cases hk : k = j
    · subst hk
      obtain ⟨rule, hrule⟩ := Option.isSome_iff_exists.1 (isSome_of_hit hhit)
      refine ⟨_, rule.tokensTaken_charge luck.nowMs, ?_⟩
      rw [hrule, if_pos rfl]
      dsimp only [Option.map_eq_map, Option.map_some]
      rw [if_pos rfl, rule.charge_hitCount, Nat.add_sub_cancel_left]
    · refine ⟨0, Nat.zero_le 1, ?_⟩
      rw [if_neg (fun h => hk (Option.some.inj h))]
      cases rules[j]? with
      | none => rfl
      | some rule =>
        dsimp only [Option.map_eq_map, Option.map_some]
        rw [if_neg hk, rule.tokensTaken_self, Nat.sub_self]

theorem once_bill : (rules.bill luck sql user schema).Once := by
  intro j
  obtain ⟨tokens, htokens, hbill⟩ := bill_eq rules luck sql user schema j
  rw [hbill]
  split
  · exact ⟨Nat.le_refl 1, htokens⟩
  · exact ⟨Nat.zero_le 1, Nat.zero_le 1⟩

/-- Two look-ups charge no rule twice if they do not hit the same one. -/
theorem once_add_iff (h : rules.SameButUse engine) (h' : rules.SameButUse engine') :
    ((engine.bill luck sql user schema).add (engine'.bill luck' sql' user' schema')).Once ↔
      ∀ j, rules.hit luck sql user schema = some j → rules.hit luck' sql' user' schema' ≠ some j := by
  rw [← h.hit_eq luck sql user schema, ← h'.hit_eq luck' sql' user' schema']
  refine forall_congr' fun j => ?_
  obtain ⟨tokens, htokens, hbill⟩ := bill_eq engine luck sql user schema j
  obtain ⟨tokens', htokens', hbill'⟩ := bill_eq engine' luck' sql' user' schema' j
  rw [Bill.add, hbill, hbill']
  by_cases hhit : engine.hit luck sql user schema = some j
  · by_cases hhit' : engine'.hit luck' sql' user' schema' = some j
    · rw [if_pos hhit, if_pos hhit']
      exact iff_of_false (fun h => Nat.not_succ_le_self 1 h.1) fun h => h hhit hhit'
    · rw [if_pos hhit, if_neg hhit']
      exact iff_of_true ⟨Nat.le_refl 1, htokens⟩ fun _ => hhit'
  · rw [if_neg hhit]
    refine iff_of_true ?_ fun h => absurd h hhit
    split
    · exact ⟨Nat.le_refl 1, (Nat.zero_add tokens').symm ▸ htokens'⟩
    · exact ⟨Nat.zero_le 1, Nat.zero_le 1⟩

end RuleEngine

/-- The contract of a query that is charged for: the ghost state is what it has cost each rule so far.
Others may use the rules meanwhile. -/
def charging (rules : RuleEngine) (rewriter : Rewriter) : Protocol Op Res Bill where
  owes _ _ := True
  step bill o r bill' := match o, r with
    | .rewrite sql, (outcome : RewriteOutcome) => outcome = rewriter.apply sql ∧ bill' = bill
    | .matchQuery sql user schema, (m : Option RuleMatch) =>
      ∃ engine luck, rules.SameButUse engine ∧ m = (RuleEngine.matchQuery engine luck sql user schema).2 ∧
        bill' = bill.add (RuleEngine.bill engine luck sql user schema)
    | _, _ => bill' = bill

section Charging

variable {rules : RuleEngine} {rewriter : Rewriter} {text user schema : Str} {bill : Bill}

theorem charging_unasked (bill : Bill) (o : Op) (ho : Unasked o) :
    (charging rules rewriter).owes bill o ∧
      ∀ r bill', (charging rules rewriter).step bill o r bill' → bill' = bill := by
  cases o with
  | matchQuery sql user schema => cases ho
  | rewrite sql => cases ho
  | _ => exact ⟨trivial, fun _ _ h => h⟩

theorem charging_goneAway (bill : Bill) (o : Op) (ho : Unasked o) :
    (charging rules rewriter).step bill o (goneAway o) bill := by
  cases o <;> first | rfl | cases ho

/-- A bill only grows: what is charged once afterwards was so before. -/
theorem charging_back (bill : Bill) (o : Op) :
    ∃ r bill', (charging rules rewriter).step bill o r bill' ∧ (bill'.Once → bill.Once) := by
  cases o with
  | rewrite sql => exact ⟨_, bill, ⟨rfl, rfl⟩, id⟩
  | matchQuery sql user schema =>
    exact ⟨_, _, ⟨rules, ⟨fun _ => 0, 0⟩, .refl rules, rfl, rfl⟩, Bill.Once.of_add⟩
  | _ => exact ⟨atEase _, bill, rfl, id⟩

/-- The text the rewrite rules leave of a query that is not blocked. -/
def Rewriter.left (rewriter : Rewriter) (sql : Str) : Option Str :=
  match rewriter.apply sql with
  | .blocked _ => none
  | .rewritten s => some s
  | .unchanged => some sql

theorem wp_charging_router (hbill : bill.Once) :
    (routerLookups text user schema).wp (charging rules rewriter) (fun _ => Bill.Once) bill ↔
      ∀ left, rewriter.left text = some left → ∀ engine luck, rules.SameButUse engine →
        (bill.add (RuleEngine.bill engine luck left user schema)).Once := by
  have hlookup : ∀ left, ((do
      let _ : Option RuleMatch ← act (.matchQuery left user schema)
      pure ()) : Task Unit).wp (charging rules rewriter) (fun _ => Bill.Once) bill ↔
        ∀ engine luck, rules.SameButUse engine →
          (bill.add (RuleEngine.bill engine luck left user schema)).Once := by
    intro left
    constructor
    · exact fun h engine luck hsame => h.2 _ _ ⟨engine, luck, hsame, rfl, rfl⟩
    · rintro h
      refine ⟨trivial, fun m bill' hm => ?_⟩
      obtain ⟨engine, luck, hsame, -, rfl⟩ := hm
      exact h engine luck hsame
  have hrouter : (routerLookups text user schema).wp (charging rules rewriter) (fun _ => Bill.Once) bill ↔
      (match rewriter.apply text with
        | .blocked _ => pure ()
        | .rewritten s => do
          let _ : Option RuleMatch ← act (.matchQuery s user schema)
          pure ()
        | .unchanged => do
          let _ : Option RuleMatch ← act (.matchQuery text user schema)
          pure () : Task Unit).wp (charging rules rewriter) (fun _ => Bill.Once) bill := by
    constructor
    · exact fun h => h.2 _ bill ⟨rfl, rfl⟩
    · refine fun h => ⟨trivial, fun outcome bill' ho => ?_⟩
      obtain ⟨rfl, rfl⟩ := ho
      exact h
  rw [hrouter, Rewriter.left]
  rcases rewriter.apply text with _ | s | msg
  · simp only [hlookup, Option.some.injEq, forall_eq']
  · simp only [hlookup, Option.some.injEq, forall_eq']
  · exact iff_of_true hbill fun left h => nomatch h

namespace MysqlSession

/-- Two look-ups of the query can hit one rule: it reaches the router, and its rule, if it does not
keep it from there, can be the rule of the rewritten text for an empty schema as well. -/
def ChargesTwice (cfg : MysqlConfig) (rules : RuleEngine) (rewriter : Rewriter) (st : MysqlSession)
    (bytes : Bytes) : Prop :=
  cfg.fastForward = false ∧ st.routes cfg (textOf bytes) = true ∧
    ∃ left luck luck' j, rewriter.left (textOf bytes) = some left ∧
      rules.hit luck (textOf bytes) st.user database = some j ∧ rules.forwardsAlways (some j) = false ∧
      rules.hit luck' left st.user [] = some j

variable {cfg : MysqlConfig} {st : MysqlSession} {bytes : Bytes}

theorem wp_charging (hff : cfg.fastForward = false) (hroutes : st.routes cfg (textOf bytes) = true) :
    (st.lookups cfg bytes).wp (charging rules rewriter) (fun _ => Bill.Once) .empty ↔
      ∀ engine luck, rules.SameButUse engine →
        (RuleEngine.matchQuery engine luck (textOf bytes) st.user MysqlSession.database).2.elim false
          (·.fastForward) = false →
        ∀ left, rewriter.left (textOf bytes) = some left → ∀ engine' luck', rules.SameButUse engine' →
          ((RuleEngine.bill engine luck (textOf bytes) st.user database).add
            (RuleEngine.bill engine' luck' left st.user [])).Once := by
  unfold lookups
  dsimp only
  rw [hff, not_inTransaction_of_routes hroutes, hroutes]
  constructor
  · intro h engine luck hsame hforwards
    have hwp := h.2 _ _ ⟨engine, luck, hsame, rfl, rfl⟩
    change (if !(RuleEngine.matchQuery engine luck (textOf bytes) st.user MysqlSession.database).2.elim false
        (·.fastForward) && true then _ else _ : Task Unit).wp _ _ _ at hwp
    rw [hforwards, Bill.empty_add] at hwp
    exact (wp_charging_router RuleEngine.once_bill).1 hwp
  · refine fun h => ⟨trivial, fun m bill hm => ?_⟩
    obtain ⟨engine, luck, hsame, rfl, rfl⟩ := hm
    rw [Bill.empty_add]
    refine Prog.wp_ite (fun hgo => ?_) fun _ => RuleEngine.once_bill
    rw [Bool.and_true, Bool.not_eq_true'] at hgo
    exact (wp_charging_router RuleEngine.once_bill).2 (h engine luck hsame hgo)

/-- **A query is charged once**, a hit and a token for each rule at most, exactly when no rule can be
hit by both of its look-ups. -/
theorem charged_once_iff (cfg : MysqlConfig) (rules : RuleEngine) (rewriter : Rewriter)
    (st : MysqlSession) (bytes : Bytes) :
    (st.query cfg bytes).wp (charging rules rewriter) (fun _ => Bill.Once) .empty ↔
      ¬st.ChargesTwice cfg rules rewriter bytes := by
  refine (wp_query_iff charging_unasked charging_goneAway charging_back).trans ?_
  by_cases hasked : cfg.fastForward = false ∧ st.routes cfg (textOf bytes) = true
  · rw [wp_charging hasked.1 hasked.2]
    constructor
    · rintro h ⟨-, -, left, luck, luck', j, hleft, hhit, hrule, hagain⟩
      have hhit₀ : rules.hit ⟨luck.roll, 0⟩ (textOf bytes) st.user database = some j :=
        (RuleEngine.hit_roll 0).trans hhit
      have honce := h rules.drained ⟨luck.roll, 0⟩ rules.sameButUse_drained
        (RuleEngine.drained_forwards (hhit₀ ▸ hrule) rfl) left hleft rules luck' (.refl rules)
      exact (RuleEngine.once_add_iff rules.sameButUse_drained (.refl rules)).1 honce j hhit₀ hagain
    · intro h engine luck hsame hforwards left hleft engine' luck' hsame'
      refine (RuleEngine.once_add_iff hsame hsame').2 fun j hhit hagain => h ⟨hasked.1, hasked.2, left, luck,
        luck', j, hleft, hhit, ?_, hagain⟩
      by_contra hrule
      rw [Bool.not_eq_false, ← hhit] at hrule
      rw [RuleEngine.forwards_of_forwardsAlways hsame hrule] at hforwards
      cases hforwards
  · refine iff_of_true ?_ fun h => hasked ⟨h.1, h.2.1⟩
    rw [lookups]
    refine Prog.wp_ite (fun _ => Bill.once_empty) fun hgo => ?_
    obtain ⟨hff, -⟩ := Bool.or_eq_false_iff.1 (Bool.not_eq_true _ ▸ hgo)
    refine ⟨trivial, fun m bill hm => ?_⟩
    obtain ⟨engine, luck, -, -, rfl⟩ := hm
    rw [Bill.empty_add]
    refine Prog.wp_ite (fun hroutes => ?_) fun _ => RuleEngine.once_bill
    exact absurd ⟨hff, (Bool.and_eq_true_iff.1 hroutes).2⟩ hasked

/-- Ten queries per second. -/
def limited : QueryRule := { anySchema with qpsLimit := 10, tokenBucket := 10 }

/-- A routed query of a limited rule takes two of its tokens. -/
theorem charged_twice : ¬ ∀ (cfg : MysqlConfig) (rules : RuleEngine) (rewriter : Rewriter)
    (st : MysqlSession) (bytes : Bytes),
    (st.query cfg bytes).wp (charging rules rewriter) (fun _ => Bill.Once) .empty := by
  intro h
  have hwp := (wp_query_iff charging_unasked charging_goneAway charging_back).1
    (h smallConfig.mysql [limited] [] appSession (asciiBytes "SELECT 1"))
  have honce := (wp_charging rfl (by decide +kernel)).1 hwp [limited] ⟨fun _ => 0, 0⟩ (.refl _)
    (by decide +kernel) _ rfl [limited] ⟨fun _ => 0, 0⟩ (.refl _)
  exact absurd (honce 0).2 (by decide +kernel)

end MysqlSession

end Charging

end TurbineProxy
