import TurbineProxy.Claims
import TurbineProxy.PoolOps
import TurbineProxy.World

/-!
# What the routing code owes for its connections

The contract every program of a session is held to (`contract`), over the connections the session has
checked out. It is parameterised by `Rules`: what a *clean* connection is, what is known after an
exchange, and whether roles are fixed and connections have to go *home*.

* A connection is returned clean, and home where that is asked for.
* A client's command goes out on one connection while every other connection of the session is clean.
* Only a connection of the session is used, returned or dropped.

The methods of `BackendPool` and the functions of `Router` are shown to meet the contract, whatever the
rules. Their specifications say what becomes of the session's variables: a route that takes a
connection for itself leaves them as they were.
-/

namespace TurbineProxy

variable {srv : Server}

/-- The connections of a session. -/
abbrev Hold (srv : Server) : Type := ConnId → Option (Conn srv)

/-- What the variables of a session hold. -/
abbrev Vars (srv : Server) : Type := Via → Option (Claim ConnId (Conn srv))

/-- Roles that nobody relies upon agree. -/
theorem PoolRef.agree_nobody : False → PoolRef.replicaAt ⟨0, []⟩ (-1) = none ∨
    PoolRef.replicaAt ⟨0, []⟩ (-1) = PoolRef.replicaAt ⟨0, []⟩ (-1) :=
  False.elim

/-- The parameters of the contract. -/
structure Rules (srv : Server) where
  /-- a connection that may be returned to a pool -/
  clean : Conn srv → Prop
  /-- what is known of an exchange: before, outcome, after -/
  after : Via → Packet → Conn srv → Except TalkError Response → Conn srv → Prop
  /-- what is known of a response that does not come from `tx_conn` -/
  plain : Response → Prop
  /-- checkouts from the primary succeed -/
  sure : Prop
  /-- roles are fixed, and connections go back to the pool that lent them -/
  home : Prop
  /-- the router's pool -/
  cur : PoolRef
  /-- its `gr_primary_idx` -/
  gr : Int
  /-- its `failover_idx` -/
  failover : Int
  /-- an exchange does not change who lent the connection -/
  after_lender : ∀ {via p conn r conn'}, after via p conn r conn' → conn'.lender = conn.lender
  /-- an exchange outside `tx_conn` leaves a clean connection -/
  after_clean : ∀ {via p conn r conn'}, after via p conn r conn' → via ≠ .txConn → clean conn'
  /-- and gives a plain response -/
  after_plain : ∀ {via p conn resp conn'}, after via p conn (.ok resp) conn' → via ≠ .txConn →
    plain resp
  /-- a group-replication primary is where puts go -/
  agree : home → cur.replicaAt gr = none ∨ cur.replicaAt gr = cur.replicaAt failover

namespace Rules

variable (R : Rules srv)

/-- The pool `put_primary_for_database` returns to. -/
def primaryHome : Origin := R.cur.origin ((R.cur.replicaAt R.failover).getD .primary)

/-- The pool a connection with a replica index belongs to. -/
def idxHome : Option Nat → Origin
  | none => R.primaryHome
  | some i => R.cur.origin (.replica i)

/-- What is known of a connection of pool `o` that may be returned. -/
def Tidy (o : Origin) (conn : Conn srv) : Prop := R.clean conn ∧ (R.home → conn.lender = o)

/-- The contract of ownership: which operations a holder of these connections may perform, and what it holds after
each. -/
def contract : Protocol Op Res (Hold srv) where
  owes g
    | .put o c _ => ∃ conn, g c = some conn ∧ R.Tidy o conn
    | .drop _ c => ∃ conn, g c = some conn
    | .talk who _ c _ _ => (∃ conn, g c = some conn) ∧
        (who = .client → ∀ c' conn', c' ≠ c → g c' = some conn' → R.clean conn')
    | _ => True
  step g
    | .readPool, r, g' => g' = g ∧ (R.home → r = R.cur)
    | .loadGr gen, r, g' => g' = g ∧ (R.home → gen = R.cur.gen → r = R.gr)
    | .loadFailover gen, r, g' => g' = g ∧ (R.home → gen = R.cur.gen → r = R.failover)
    | .primaryAllows _, r, g' => g' = g ∧ (R.sure → r = true)
    | .get _ _, .error _, g' => g' = g ∧ ¬R.sure
    | .get o _, .ok c, g' => g c = none ∧ ∃ conn, g' = Function.update g c (some conn) ∧
        R.clean conn ∧ conn.lender = o
    | .put _ c _, _, g' => g' = Function.update g c none
    | .drop _ c, _, g' => g' = Function.update g c none
    | .talk _ via c p _, r, g' => ∃ conn conn', g c = some conn ∧
        g' = Function.update g c (some conn') ∧ R.after via p conn r conn'
    | .cacheGet _, some b, g' => g' = g ∧ R.plain (cachedResponse b)
    | _, _, g' => g' = g

end Rules

/-- The operations that touch no connection and read no role. -/
def Op.quiet : Op → Bool
  | .readPool | .loadGr _ | .loadFailover _ | .primaryAllows _ | .get .. | .put .. | .drop ..
  | .talk .. | .cacheGet _ => false
  | _ => true

/-!
## Rules for the operations

One rule for each operation of the router: what the session holds before it and after it. The proofs about routes cite
these and do not look into the world.
-/

section Rules

variable {R : Rules srv} {g : Hold srv} {σ : Vars srv}

theorem wp_quiet {o : Op} (ho : o.quiet = true) {Q : Res o → Hold srv → Prop}
    (hQ : ∀ r, Q r g) : (act o).wp R.contract Q g := by
  refine ⟨?_, fun r g' hs => ?_⟩
  · cases o <;> first | exact trivial | cases ho
  · have hg : g' = g := by
      cases o <;> first | exact hs | cases ho
    rw [hg]
    exact hQ r

theorem wp_readPool {Q : PoolRef → Hold srv → Prop}
    (hQ : ∀ pool, (R.home → pool = R.cur) → Q pool g) : (act .readPool).wp R.contract Q g := by
  refine ⟨trivial, fun r g' hs => ?_⟩
  rw [hs.1]
  exact hQ r hs.2

theorem wp_loadGr {gen : Nat} {Q : Int → Hold srv → Prop}
    (hQ : ∀ idx, (R.home → gen = R.cur.gen → idx = R.gr) → Q idx g) :
    (act (.loadGr gen)).wp R.contract Q g := by
  refine ⟨trivial, fun r g' hs => ?_⟩
  rw [hs.1]
  exact hQ r hs.2

theorem wp_loadFailover {gen : Nat} {Q : Int → Hold srv → Prop}
    (hQ : ∀ idx, (R.home → gen = R.cur.gen → idx = R.failover) → Q idx g) :
    (act (.loadFailover gen)).wp R.contract Q g := by
  refine ⟨trivial, fun r g' hs => ?_⟩
  rw [hs.1]
  exact hQ r hs.2

theorem wp_primaryAllows {gen : Nat} {Q : Bool → Hold srv → Prop} (hyes : Q true g)
    (hno : ¬R.sure → Q false g) : (act (.primaryAllows gen)).wp R.contract Q g := by
  refine ⟨trivial, fun r g' hs => ?_⟩
  rw [hs.1]
  cases r
  · exact hno fun hsure => Bool.noConfusion (hs.2 hsure)
  · exact hyes

theorem wp_cacheGet {key : Str} {Q : Option Bytes → Hold srv → Prop}
    (hhit : ∀ b, R.plain (cachedResponse b) → Q (some b) g) (hmiss : Q none g) :
    (act (.cacheGet key)).wp R.contract Q g := by
  refine ⟨trivial, fun r g' hs => ?_⟩
  rcases r with _ | b
  · rw [show g' = g from hs]
    exact hmiss
  · rw [hs.1]
    exact hhit b hs.2

/-- A checkout fills an empty variable. -/
theorem wp_get (hσ : Owns σ g) {v : Via} (hv : σ v = none) {o : Origin} {db : Option Str}
    {Q : Except Str ConnId → Hold srv → Prop}
    (hok : ∀ c g', Owns (Function.update σ v (some ⟨c, R.Tidy o⟩)) g' → Q (.ok c) g')
    (herr : ¬R.sure → ∀ e, Q (.error e) g) : (act (.get o db)).wp R.contract Q g := by
  refine ⟨trivial, fun r g' hs => ?_⟩
  rcases r with e | c
  · rw [hs.1]
    exact herr hs.2 e
  · obtain ⟨hnew, conn, rfl, hclean, hlender⟩ := hs
    exact hok c _ (hσ.take hv hnew ⟨hclean, fun _ => hlender⟩)

/-- A return empties the variable. -/
theorem wp_put (hσ : Owns σ g) {v : Via} {a : Claim ConnId (Conn srv)} (hv : σ v = some a)
    {o : Origin} {db : Option Str} (hput : ∀ conn, a.known conn → R.Tidy o conn)
    {Q : Unit → Hold srv → Prop} (hQ : ∀ g', Owns (Function.update σ v none) g' → Q () g') :
    (act (.put o a.key db)).wp R.contract Q g := by
  obtain ⟨conn, hconn, hknown⟩ := hσ.held v a hv
  refine ⟨⟨conn, hconn, hput conn hknown⟩, fun r g' hs => ?_⟩
  rw [show g' = _ from hs]
  exact hQ _ (hσ.release hv)

/-- So does a drop. -/
theorem wp_drop (hσ : Owns σ g) {v : Via} {a : Claim ConnId (Conn srv)} (hv : σ v = some a)
    {exit : Exit} {Q : Unit → Hold srv → Prop}
    (hQ : ∀ g', Owns (Function.update σ v none) g' → Q () g') :
    (act (.drop exit a.key)).wp R.contract Q g := by
  obtain ⟨conn, hconn, -⟩ := hσ.held v a hv
  refine ⟨⟨conn, hconn⟩, fun r g' hs => ?_⟩
  rw [show g' = _ from hs]
  exact hQ _ (hσ.release hv)

/-- Every variable but `v` holds a clean connection, if any. -/
def Others (R : Rules srv) (σ : Vars srv) (v : Via) : Prop :=
  ∀ w b, w ≠ v → σ w = some b → ∀ conn, b.known conn → R.clean conn

/-- An exchange changes what is known of one connection. -/
theorem wp_talk (hσ : Owns σ g) {v : Via} {a : Claim ConnId (Conn srv)} (hv : σ v = some a)
    {who : Purpose} (hothers : who = .client → Others R σ v) {via : Via} {p : Packet}
    {limit : Option Nat} {Q : Except TalkError Response → Hold srv → Prop}
    (hQ : ∀ r g', Owns (Function.update σ v (some ⟨a.key, fun conn' =>
      ∃ conn, a.known conn ∧ R.after via p conn r conn'⟩)) g' → Q r g') :
    (act (.talk who via a.key p limit)).wp R.contract Q g := by
  obtain ⟨conn, hconn, hknown⟩ := hσ.held v a hv
  refine ⟨⟨⟨conn, hconn⟩, fun hwho c' conn' hne hc' => ?_⟩, fun r g' hs => ?_⟩
  · obtain ⟨w, b, hwv, hw, rfl, hb⟩ := hσ.other hv hne hc'
    exact hothers hwho w b hwv hw conn' hb
  · obtain ⟨conn₀, conn', hc, rfl, hafter⟩ := hs
    obtain rfl : conn = conn₀ := Option.some.inj (hconn.symm.trans hc)
    exact hQ r _ (hσ.change hv ⟨conn, hknown, hafter⟩)

end Rules

/-! ## `BackendPool` -/

section Pool

variable {R : Rules srv} {g : Hold srv} {σ : Vars srv} {pool : PoolRef} {v : Via}

/-- Emptying a variable that was empty before. -/
theorem update_none {c : Option (Claim ConnId (Conn srv))} (hv : σ v = none) :
    Function.update (Function.update σ v c) v none = σ := by
  rw [Function.update_idem, Function.update_eq_self_iff, hv]

theorem wp_getPrimary (hσ : Owns σ g) (hv : σ v = none) (hpool : R.home → pool = R.cur)
    {db : Option Str} {Q : Except Str ConnId → Hold srv → Prop}
    (hok : ∀ c g', Owns (Function.update σ v (some ⟨c, R.Tidy R.primaryHome⟩)) g' → Q (.ok c) g')
    (herr : ¬R.sure → ∀ e, Q (.error e) g) :
    (pool.getPrimaryForDatabase db).wp R.contract Q g := by
  -- where the checkout goes, puts go too
  have hget : ∀ slot, (R.home → R.cur.origin slot = R.primaryHome) →
      (act (.get (pool.origin slot) db)).wp R.contract Q g := by
    intro slot hslot
    refine wp_get hσ hv (fun c g' h => ?_) herr
    refine hok c g' (h.weaken fun conn htidy => ⟨htidy.1, fun hhome => ?_⟩)
    rw [htidy.2 hhome, hpool hhome]
    exact hslot hhome
  rw [PoolRef.getPrimaryForDatabase]
  simp only [Prog.wp_bind]
  refine wp_loadGr fun gr hgr => ?_
  have hgr' : R.home → pool.replicaAt gr = R.cur.replicaAt R.gr := by
    intro hhome
    rw [hgr hhome (by rw [hpool hhome]), hpool hhome]
  rcases hslot : pool.replicaAt gr with _ | slot
  · simp only [Prog.wp_bind]
    refine wp_loadFailover fun failover hfo => ?_
    have hfo' : R.home → pool.replicaAt failover = R.cur.replicaAt R.failover := by
      intro hhome
      rw [hfo hhome (by rw [hpool hhome]), hpool hhome]
    rcases hslot' : pool.replicaAt failover with _ | slot
    · simp only [Prog.wp_bind]
      refine wp_primaryAllows ?_ fun hsure => herr hsure _
      refine hget .primary fun hhome => ?_
      rw [Rules.primaryHome, ← hfo' hhome, hslot']
      rfl
    · refine hget slot fun hhome => ?_
      rw [Rules.primaryHome, ← hfo' hhome, hslot']
      rfl
  · refine hget slot fun hhome => ?_
    rcases R.agree hhome with hnone | hsame
    · rw [← hgr' hhome, hslot] at hnone
      cases hnone
    · rw [Rules.primaryHome, ← hsame, ← hgr' hhome, hslot]
      rfl

theorem wp_putPrimaryForDatabase (hσ : Owns σ g) {a : Claim ConnId (Conn srv)} (hv : σ v = some a)
    (hpool : R.home → pool = R.cur) (htidy : ∀ conn, a.known conn → R.Tidy R.primaryHome conn)
    {db : Option Str} {Q : Unit → Hold srv → Prop}
    (hQ : ∀ g', Owns (Function.update σ v none) g' → Q () g') :
    (pool.putPrimaryForDatabase a.key db).wp R.contract Q g := by
  have hput : ∀ slot, (R.home → R.cur.origin slot = R.primaryHome) →
      (act (.put (pool.origin slot) a.key db)).wp R.contract Q g := by
    intro slot hslot
    refine wp_put hσ hv (fun conn hknown => ⟨(htidy conn hknown).1, fun hhome => ?_⟩) hQ
    rw [(htidy conn hknown).2 hhome, hpool hhome]
    exact (hslot hhome).symm
  rw [PoolRef.putPrimaryForDatabase]
  simp only [Prog.wp_bind]
  refine wp_loadFailover fun failover hfo => ?_
  have hfo' : R.home → pool.replicaAt failover = R.cur.replicaAt R.failover := by
    intro hhome
    rw [hfo hhome (by rw [hpool hhome]), hpool hhome]
  rcases hslot : pool.replicaAt failover with _ | slot
  · refine hput .primary fun hhome => ?_
    rw [Rules.primaryHome, ← hfo' hhome, hslot]
    rfl
  · refine hput slot fun hhome => ?_
    rw [Rules.primaryHome, ← hfo' hhome, hslot]
    rfl

theorem wp_candidates {backup : Bool} {l : List ((Nat × Bool) × Nat)}
    {Q : List (Nat × Nat) → Hold srv → Prop} (hQ : ∀ cands, Q cands g) :
    (pool.candidates backup l).wp R.contract Q g := by
  induction l generalizing Q with
  | nil => exact hQ []
  | cons e rest ih =>
    obtain ⟨⟨weight, bk⟩, i⟩ := e
    rw [PoolRef.candidates]
    refine Prog.wp_ite (fun _ => ?_) fun _ => ih hQ
    simp only [Prog.wp_bind]
    refine wp_quiet rfl fun healthy => ?_
    refine Prog.wp_ite (fun _ => ?_) fun _ => ih hQ
    simp only [Prog.wp_bind]
    refine wp_quiet rfl fun allowed => ih fun others => ?_
    exact Prog.wp_ite (fun _ => hQ _) fun _ => hQ _

theorem wp_choose {first : Nat} {cands : List (Nat × Nat)} {Q : Option Nat → Hold srv → Prop}
    (hQ : ∀ choice, Q choice g) : (pool.choose first cands).wp R.contract Q g := by
  refine Prog.wp_of_only (q := Chooses) (fun o ho => ?_) (PoolRef.chooses_choose _ _) hQ
  cases o <;> first | exact ⟨trivial, fun _ _ h => h⟩ | cases ho

/-- A checkout from a replica, as the callers name it. -/
theorem wp_getReplicaAt (hσ : Owns σ g) (hv : σ v = none) (hpool : R.home → pool = R.cur) {i : Nat}
    {db : Option Str} {Q : Except Str ConnId → Hold srv → Prop}
    (hok : ∀ c g', Owns (Function.update σ v (some ⟨c, R.Tidy (R.idxHome (some i))⟩)) g' →
      Q (.ok c) g')
    (herr : ∀ e, Q (.error e) g) :
    (act (.get (pool.origin (.replica i)) db)).wp R.contract Q g := by
  refine wp_get hσ hv (fun c g' h => hok c g' (h.weaken fun conn htidy => ⟨htidy.1, fun hhome => ?_⟩))
    fun _ => herr
  rw [htidy.2 hhome, hpool hhome]
  rfl

theorem wp_tryRemaining (hσ : Owns σ g) (hv : σ v = none) (hpool : R.home → pool = R.cur)
    {chosen : Nat} {db : Option Str} {cands : List (Nat × Nat)}
    {Q : Option (ConnId × Nat) → Hold srv → Prop}
    (hok : ∀ c i g', Owns (Function.update σ v (some ⟨c, R.Tidy (R.idxHome (some i))⟩)) g' →
      Q (some (c, i)) g')
    (hnone : Q none g) :
    (pool.tryRemaining chosen db cands).wp R.contract Q g := by
  induction cands with
  | nil => exact hnone
  | cons e rest ih =>
    obtain ⟨i, weight⟩ := e
    rw [PoolRef.tryRemaining]
    refine Prog.wp_ite (fun _ => ih) fun _ => ?_
    simp only [Prog.wp_bind]
    refine wp_getReplicaAt hσ hv hpool (fun c g' h => hok c i g' h) fun e => ?_
    simp only [Prog.wp_bind]
    exact wp_quiet rfl fun _ => ih

theorem wp_tryWeightedReplica (hσ : Owns σ g) (hv : σ v = none) (hpool : R.home → pool = R.cur)
    {backup : Bool} {db : Option Str} {Q : Option (ConnId × Nat) → Hold srv → Prop}
    (hok : ∀ c i g', Owns (Function.update σ v (some ⟨c, R.Tidy (R.idxHome (some i))⟩)) g' →
      Q (some (c, i)) g')
    (hnone : Q none g) :
    (pool.tryWeightedReplica backup db).wp R.contract Q g := by
  rw [PoolRef.tryWeightedReplica]
  simp only [Prog.wp_bind]
  refine wp_candidates fun cands => ?_
  rcases cands with _ | ⟨⟨first, weight⟩, rest⟩
  · exact hnone
  · simp only [Prog.wp_bind]
    refine wp_choose fun choice => ?_
    rcases choice with _ | chosen
    · exact hnone
    simp only [Prog.wp_bind]
    refine wp_getReplicaAt hσ hv hpool (fun c g' h => hok c _ g' h) fun e => ?_
    simp only [Prog.wp_bind]
    exact wp_quiet rfl fun _ => wp_tryRemaining hσ hv hpool hok hnone

theorem wp_getPrimaryAsReplica (hσ : Owns σ g) (hv : σ v = none) (hpool : R.home → pool = R.cur)
    {db : Option Str} {Q : Except Str (ConnId × Option Nat) → Hold srv → Prop}
    (hok : ∀ c idx g', Owns (Function.update σ v (some ⟨c, R.Tidy (R.idxHome idx)⟩)) g' →
      Q (.ok (c, idx)) g')
    (herr : ∀ e, Q (.error e) g) :
    (pool.getPrimaryAsReplica db).wp R.contract Q g := by
  rw [PoolRef.getPrimaryAsReplica]
  simp only [Prog.wp_bind]
  exact wp_getPrimary hσ hv hpool (fun c g' h => hok c none g' h) fun _ e => herr e

theorem wp_getReplica (hσ : Owns σ g) (hv : σ v = none) (hpool : R.home → pool = R.cur)
    {db : Option Str} {Q : Except Str (ConnId × Option Nat) → Hold srv → Prop}
    (hok : ∀ c idx g', Owns (Function.update σ v (some ⟨c, R.Tidy (R.idxHome idx)⟩)) g' →
      Q (.ok (c, idx)) g')
    (herr : ∀ e, Q (.error e) g) :
    (pool.getReplicaForDatabase db).wp R.contract Q g := by
  rw [PoolRef.getReplicaForDatabase]
  refine Prog.wp_ite (fun _ => wp_getPrimaryAsReplica hσ hv hpool hok herr) fun _ => ?_
  simp only [Prog.wp_bind]
  refine wp_tryWeightedReplica hσ hv hpool (fun c i g' h => hok c (some i) g' h) ?_
  simp only [Prog.wp_bind]
  exact wp_tryWeightedReplica hσ hv hpool (fun c i g' h => hok c (some i) g' h)
    (wp_getPrimaryAsReplica hσ hv hpool hok herr)

theorem wp_getHostgroup (hσ : Owns σ g) (hv : σ v = none) (hpool : R.home → pool = R.cur)
    {hg : Nat} {db : Option Str} {Q : Except Str (ConnId × Option Nat) → Hold srv → Prop}
    (hok : ∀ c idx g', Owns (Function.update σ v (some ⟨c, R.Tidy (R.idxHome idx)⟩)) g' →
      Q (.ok (c, idx)) g')
    (herr : ∀ e, Q (.error e) g) :
    (pool.getHostgroupForDatabase hg db).wp R.contract Q g := by
  have hprimary : (pool.getPrimaryAsReplica db).wp R.contract Q g :=
    wp_getPrimaryAsReplica hσ hv hpool hok herr
  rw [PoolRef.getHostgroupForDatabase]
  refine Prog.wp_ite (fun _ => hprimary) fun _ => ?_
  dsimp only
  have hgo : ∀ healthy : Bool, (pool.fromHostgroup (hg - 1) db healthy).wp R.contract Q g := by
    intro healthy
    refine Prog.wp_ite (fun _ => ?_) fun _ => hprimary
    simp only [Prog.wp_bind]
    refine wp_getReplicaAt hσ hv hpool (fun c g' h => hok c _ g' h) fun e => ?_
    simp only [Prog.wp_bind]
    exact wp_quiet rfl fun _ => hprimary
  refine Prog.wp_ite (fun _ => wp_quiet rfl hgo) fun _ => hgo false

theorem wp_putReplicaForDatabase (hσ : Owns σ g) {a : Claim ConnId (Conn srv)} (hv : σ v = some a)
    (hpool : R.home → pool = R.cur) {idx : Option Nat}
    (htidy : ∀ conn, a.known conn → R.Tidy (R.idxHome idx) conn)
    {db : Option Str} {Q : Unit → Hold srv → Prop}
    (hQ : ∀ g', Owns (Function.update σ v none) g' → Q () g') :
    (pool.putReplicaForDatabase a.key idx db).wp R.contract Q g := by
  rcases idx with _ | i
  · exact wp_drop hσ hv hQ
  · rw [PoolRef.putReplicaForDatabase]
    refine Prog.wp_ite (fun _ => ?_) fun _ => wp_drop hσ hv hQ
    refine wp_put hσ hv (fun conn hknown => ⟨(htidy conn hknown).1, fun hhome => ?_⟩) hQ
    rw [(htidy conn hknown).2 hhome, hpool hhome]
    rfl

theorem wp_giveBack (hσ : Owns σ g) {a : Claim ConnId (Conn srv)} (hv : σ v = some a)
    (hpool : R.home → pool = R.cur) {idx : Option Nat}
    (htidy : ∀ conn, a.known conn → R.Tidy (R.idxHome idx) conn)
    {db : Option Str} {Q : Unit → Hold srv → Prop}
    (hQ : ∀ g', Owns (Function.update σ v none) g' → Q () g') :
    (pool.giveBack a.key idx db).wp R.contract Q g := by
  rcases idx with _ | i
  · exact wp_putPrimaryForDatabase hσ hv hpool htidy hQ
  · exact wp_putReplicaForDatabase hσ hv hpool htidy hQ

theorem wp_recordReplica {idx : Option Nat} {success : Bool} {Q : Unit → Hold srv → Prop}
    (hQ : Q () g) : (pool.recordReplica idx success).wp R.contract Q g := by
  rcases idx with _ | i
  · exact hQ
  · rw [PoolRef.recordReplica]
    exact Prog.wp_ite (fun _ => wp_quiet rfl fun _ => hQ) fun _ => hQ

end Pool

end TurbineProxy
