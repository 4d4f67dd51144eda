import TurbineProxy.Router

/-!
# What the pool functions touch

The methods of `BackendPool` perform operations on the pool only: its atomics, its breakers, checkouts,
returns and drops. They exchange nothing with a backend, ask no rule, look at no cache and no clock. In
particular they are `Silent`: the text of a statement is nowhere in them.
-/

namespace TurbineProxy

/-- An operation on a pool. -/
def Op.ofPool : Op → Bool
  | .loadGr _ | .loadFailover _ | .primaryAllows _ | .primaryRecord .. | .replicaAllows ..
  | .replicaRecord .. | .replicaHealthy .. | .markUnhealthy .. | .nextReplica _ | .get .. | .put ..
  | .drop .. | .overflowChecks | .panic => true
  | _ => false

/-- The operations on pools. -/
abbrev OfPool (o : Op) : Prop := o.ofPool = true

/-- An operation on a pool that records no outcome with a breaker. -/
def Op.lends : Op → Bool
  | .primaryRecord .. | .replicaRecord .. => false
  | o => o.ofPool

/-- The operations on pools without the records. -/
abbrev Lends (o : Op) : Prop := o.lends = true

/-- An operation of the weighted choice. None of them touches a connection or a flag. -/
def Op.chooses : Op → Bool
  | .nextReplica _ | .overflowChecks | .panic => true
  | _ => false

/-- The operations of the weighted choice. -/
abbrev Chooses (o : Op) : Prop := o.chooses = true

theorem ofPool_lends {α : Type} {p : Task α} (h : p.Only Lends) : p.Only OfPool := by
  refine h.mono fun o ho => ?_
  cases o <;> first | rfl | cases ho

namespace PoolRef

variable {pool : PoolRef} {db : Option Str}

theorem lends_act {o : Op} (ho : o.lends = true) : (act o).Only Lends := Prog.only_perform ho

theorem lends_getPrimary : (pool.getPrimaryForDatabase db).Only Lends := by
  rw [PoolRef.getPrimaryForDatabase]
  refine Prog.only_bind (lends_act rfl) fun gr => ?_
  split
  · exact lends_act rfl
  · refine Prog.only_bind (lends_act rfl) fun failover => ?_
    split
    · exact lends_act rfl
    · exact Prog.only_bind (lends_act rfl) fun allowed =>
        Prog.only_ite (lends_act rfl) (Prog.only_done _)

theorem lends_candidates (backup : Bool) (l : List ((Nat × Bool) × Nat)) :
    (pool.candidates backup l).Only Lends := by
  induction l with
  | nil => trivial
  | cons e rest ih =>
    rw [PoolRef.candidates]
    refine Prog.only_ite (Prog.only_bind (lends_act rfl) fun healthy => ?_) ih
    refine Prog.only_ite (Prog.only_bind (lends_act rfl) fun allowed => ?_) ih
    exact Prog.only_bind ih fun others => Prog.only_ite (Prog.only_done _) (Prog.only_done _)

theorem lends_tryRemaining (chosen : Nat) (l : List (Nat × Nat)) :
    (pool.tryRemaining chosen db l).Only Lends := by
  induction l with
  | nil => trivial
  | cons e rest ih =>
    rw [PoolRef.tryRemaining]
    refine Prog.only_ite ih (Prog.only_bind (lends_act rfl) fun r => ?_)
    split
    · trivial
    · exact Prog.only_bind (lends_act rfl) fun _ => ih

theorem chosenIdx_mem {checks : Bool} {slot fallback acc i : Nat} {l : List (Nat × Nat)}
    (h : chosenIdx checks slot fallback acc l = some i) : i = fallback ∨ i ∈ l.map Prod.fst := by
  induction l generalizing acc with
  | nil => exact .inl (Option.some.inj h).symm
  | cons e rest ih =>
    obtain ⟨sum, -, hrest⟩ := Option.bind_eq_some_iff.mp h
    split at hrest
    · exact .inr (Option.some.inj hrest ▸ .head _)
    · exact (ih hrest).imp_right (.tail _)

theorem chooses_act {o : Op} (ho : o.chooses = true) : (act o).Does Chooses fun _ => True := ⟨ho, fun _ => trivial⟩

/-- Whatever the counter says, the choice is one of the candidates. -/
theorem choose_does (first : Nat) (cands : List (Nat × Nat)) : (pool.choose first cands).Does Chooses
    fun choice => ∀ i, choice = some i → i = first ∨ i ∈ cands.map Prod.fst := by
  have hpanicked : (panicked : Task (Option Nat)).Does Chooses
      fun choice => ∀ i, choice = some i → i = first ∨ i ∈ cands.map Prod.fst :=
    Prog.does_bind (chooses_act rfl) fun _ _ => Prog.does_done nofun
  rw [PoolRef.choose]
  refine Prog.does_bind (Prog.does_ite (fun _ => Prog.does_done trivial) fun _ => chooses_act rfl) fun checks _ => ?_
  split
  · exact hpanicked
  · refine Prog.does_bind (chooses_act rfl) fun index _ => ?_
    split
    · rename_i total _ chosen heq
      obtain ⟨-, hchosen⟩ := Option.ite_none_left_eq_some.mp heq
      refine Prog.does_done fun i hi => ?_
      obtain rfl := Option.some.inj hi
      exact chosenIdx_mem hchosen
    · exact hpanicked

theorem chooses_choose (first : Nat) (cands : List (Nat × Nat)) : (pool.choose first cands).Only Chooses :=
  (choose_does first cands).only

theorem lends_choose (first : Nat) (cands : List (Nat × Nat)) : (pool.choose first cands).Only Lends := by
  refine (chooses_choose first cands).mono fun o ho => ?_
  cases o <;> first | rfl | cases ho

theorem lends_tryWeighted (backup : Bool) : (pool.tryWeightedReplica backup db).Only Lends := by
  rw [PoolRef.tryWeightedReplica]
  refine Prog.only_bind (lends_candidates backup _) fun cands => ?_
  split
  · trivial
  · refine Prog.only_bind (lends_choose _ _) fun choice => ?_
    split
    · trivial
    refine Prog.only_bind (lends_act rfl) fun r => ?_
    split
    · trivial
    · exact Prog.only_bind (lends_act rfl) fun _ => lends_tryRemaining _ _

theorem lends_getPrimaryAsReplica : (pool.getPrimaryAsReplica db).Only Lends := by
  rw [PoolRef.getPrimaryAsReplica]
  refine Prog.only_bind lends_getPrimary fun r => ?_
  split <;> trivial

theorem lends_getReplica : (pool.getReplicaForDatabase db).Only Lends := by
  rw [PoolRef.getReplicaForDatabase]
  refine Prog.only_ite lends_getPrimaryAsReplica (Prog.only_bind (lends_tryWeighted _) fun r => ?_)
  split
  · trivial
  · refine Prog.only_bind (lends_tryWeighted _) fun r => ?_
    split
    · trivial
    · exact lends_getPrimaryAsReplica

theorem lends_getHostgroup (hg : Nat) : (pool.getHostgroupForDatabase hg db).Only Lends := by
  rw [PoolRef.getHostgroupForDatabase]
  refine Prog.only_ite lends_getPrimaryAsReplica ?_
  dsimp only
  have hgo : ∀ healthy : Bool, (pool.fromHostgroup (hg - 1) db healthy).Only Lends := by
    intro healthy
    refine Prog.only_ite (Prog.only_bind (lends_act rfl) fun r => ?_) lends_getPrimaryAsReplica
    split
    · trivial
    · exact Prog.only_bind (lends_act rfl) fun _ => lends_getPrimaryAsReplica
  exact Prog.only_ite (Prog.only_bind (lends_act rfl) hgo) (hgo false)

theorem lends_putPrimary (c : ConnId) : (pool.putPrimaryForDatabase c db).Only Lends := by
  rw [PoolRef.putPrimaryForDatabase]
  refine Prog.only_bind (lends_act rfl) fun failover => ?_
  split
  · exact lends_act rfl
  · exact lends_act rfl

theorem lends_putReplica (c : ConnId) (idx : Option Nat) :
    (pool.putReplicaForDatabase c idx db).Only Lends := by
  cases idx with
  | none => exact lends_act rfl
  | some i => exact Prog.only_ite (lends_act rfl) (lends_act rfl)

theorem lends_giveBack (c : ConnId) (idx : Option Nat) : (pool.giveBack c idx db).Only Lends := by
  cases idx with
  | none => exact lends_putPrimary c
  | some i => exact lends_putReplica c (some i)

theorem lends_ensure (conn : Option ConnId) : (pool.ensure conn db).Only Lends := by
  unfold PoolRef.ensure
  split
  · trivial
  · exact lends_getPrimary

/-! The breakers are operations on the pool besides. -/

theorem only_act {o : Op} (ho : o.ofPool = true) : (act o).Only OfPool := Prog.only_perform ho

theorem only_getPrimary : (pool.getPrimaryForDatabase db).Only OfPool := ofPool_lends lends_getPrimary

theorem only_getReplica : (pool.getReplicaForDatabase db).Only OfPool := ofPool_lends lends_getReplica

theorem only_getHostgroup (hg : Nat) : (pool.getHostgroupForDatabase hg db).Only OfPool :=
  ofPool_lends (lends_getHostgroup hg)

theorem only_putPrimary (c : ConnId) : (pool.putPrimaryForDatabase c db).Only OfPool :=
  ofPool_lends (lends_putPrimary c)

theorem only_putReplica (c : ConnId) (idx : Option Nat) :
    (pool.putReplicaForDatabase c idx db).Only OfPool :=
  ofPool_lends (lends_putReplica c idx)

theorem only_giveBack (c : ConnId) (idx : Option Nat) : (pool.giveBack c idx db).Only OfPool :=
  ofPool_lends (lends_giveBack c idx)

theorem only_ensure (conn : Option ConnId) : (pool.ensure conn db).Only OfPool :=
  ofPool_lends (lends_ensure conn)

theorem only_recordReplica (idx : Option Nat) (success : Bool) :
    (pool.recordReplica idx success).Only OfPool := by
  unfold PoolRef.recordReplica
  split
  · exact Prog.only_ite (only_act rfl) (Prog.only_done _)
  · trivial

end PoolRef

/-! ## Operations that say nothing -/

/-- Operations without any text of a statement. -/
def Op.silent : Op → Bool
  | .talk .. | .rewrite _ | .matchQuery .. | .cacheInvalidate _ | .mirror .. => false
  | _ => true

/-- The operations without any text of a statement. -/
abbrev Silent (o : Op) : Prop := o.silent = true

variable {α : Type}

theorem silent_pool {p : Task α} (h : p.Only OfPool) : p.Only Silent := by
  refine h.mono fun o ho => ?_
  cases o <;> first | rfl | cases ho

theorem silent_act {o : Op} (ho : o.silent = true) : (act o).Only Silent := Prog.only_perform ho

theorem silent_putPrimary (c : ConnId) (db : Option Str) : (putPrimary c db).Only Silent :=
  Prog.only_bind (silent_act rfl) fun _ => silent_pool (PoolRef.only_putPrimary c)

theorem silent_putReplica (c : ConnId) (idx : Option Nat) : (putReplica c idx).Only Silent :=
  Prog.only_bind (silent_act rfl) fun _ => silent_pool (PoolRef.only_giveBack c idx)

end TurbineProxy
