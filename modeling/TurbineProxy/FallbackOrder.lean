import TurbineProxy.PoolOps
import TurbineProxy.RoundRobin

/-!
# The order of the fallbacks

`Prog.Run` is what a program may do: its operations, with any answers to them, in order. For
`get_replica_for_database` that is two passes over the replicas, each of which asks who is eligible and then
tries the candidates until one gives a connection, and the primary in the end (`Falls`). What comes after a
panic does not happen: a pass gets to its tries only if the weights of its candidates add up, as `u32`s, to
something other than zero (`AddsUp`). `replica_fallback` says that nothing else can go wrong, whatever state
the pool is in and whoever can be connected to.
-/

namespace TurbineProxy

/-! ## What a program may do -/

namespace Prog

variable {Op : Type} {Res : Op → Type} {α β : Type}

/-- The program may perform these operations, on these answers, and return this value. -/
inductive Run : Prog Op Res α → List ((o : Op) × Res o) → α → Prop where
  /-- it returns -/
  | done (a : α) : Run (.done a) [] a
  /-- it performs an operation and goes on -/
  | op {o : Op} {k : Res o → Prog Op Res α} {r : Res o} {log : List ((o : Op) × Res o)} {a : α} :
      Run (k r) log a → Run (.op o k) (⟨o, r⟩ :: log) a

variable {log : List ((o : Op) × Res o)} {a b : α}

theorem run_done : Run (.done a : Prog Op Res α) log b ↔ log = [] ∧ b = a := by
  constructor
  · rintro ⟨⟩
    exact ⟨rfl, rfl⟩
  · rintro ⟨rfl, rfl⟩
    exact .done _

theorem run_op {o : Op} {k : Res o → Prog Op Res α} :
    Run (.op o k) log a ↔ ∃ r rest, log = ⟨o, r⟩ :: rest ∧ Run (k r) rest a := by
  constructor
  · rintro ⟨⟩
    exact ⟨_, _, rfl, ‹_›⟩
  · rintro ⟨r, rest, rfl, h⟩
    exact .op h

theorem run_perform {o : Op} {f : Res o → Prog Op Res α} :
    Run (perform o >>= f) log a ↔ ∃ r rest, log = ⟨o, r⟩ :: rest ∧ Run (f r) rest a := run_op

theorem run_bind {p : Prog Op Res α} {f : α → Prog Op Res β} {b : β} :
    Run (p >>= f) log b ↔ ∃ a log₁ log₂, log = log₁ ++ log₂ ∧ Run p log₁ a ∧ Run (f a) log₂ b := by
  induction p generalizing log with
  | done a =>
    constructor
    · exact fun h => ⟨a, [], log, rfl, .done a, h⟩
    · rintro ⟨a', log₁, log₂, rfl, h₁, h₂⟩
      obtain ⟨rfl, rfl⟩ := run_done.mp h₁
      exact h₂
  | op o k ih =>
    rw [op_bind, run_op]
    constructor
    · rintro ⟨r, rest, rfl, h⟩
      obtain ⟨a, log₁, log₂, rfl, h₁, h₂⟩ := (ih r).mp h
      exact ⟨a, ⟨o, r⟩ :: log₁, log₂, rfl, .op h₁, h₂⟩
    · rintro ⟨a, log₁, log₂, rfl, h₁, h₂⟩
      obtain ⟨r, rest, rfl, hrest⟩ := run_op.mp h₁
      exact ⟨r, rest ++ log₂, rfl, (ih r).mpr ⟨a, rest, log₂, rfl, hrest, h₂⟩⟩

/-- What holds of all operations of a program holds of those of a run. -/
theorem Run.only {p : Prog Op Res α} {q : Op → Prop} (h : Run p log a) (hq : p.Only q) : ∀ e ∈ log, q e.1 := by
  induction h with
  | done a => exact List.forall_mem_nil _
  | op _ ih => exact List.forall_mem_cons.mpr ⟨hq.1, ih (hq.2 _)⟩

/-- And it ends the way the program ends. -/
theorem Run.does {p : Prog Op Res α} {q : Op → Prop} {R : α → Prop} (h : Run p log a) (hp : p.Does q R) : R a := by
  induction h with
  | done a => exact hp
  | op _ ih => exact ih (hp.2 _)

/-- A run on fixed answers returns what the program returns on them. -/
theorem Run.result_eq {p : Prog Op Res α} {w : (o : Op) → Res o} (h : Run p log a) (hw : ∀ e ∈ log, e.2 = w e.1) :
    p.result w = a := by
  induction h with
  | done a => rfl
  | @op o k r log a _ ih =>
    obtain ⟨hr, hrest⟩ := List.forall_mem_cons.mp hw
    rw [Prog.result, ← hr]
    exact ih hrest

/-- There is such a run, with everything in it that the program performs on them. -/
theorem exists_run (w : (o : Op) → Res o) (p : Prog Op Res α) : ∃ log, Run p log (p.result w) ∧
    (∀ e ∈ log, e.2 = w e.1) ∧ ∀ q : Op → Prop, p.Performs w q → ∃ e ∈ log, q e.1 := by
  induction p with
  | done a => exact ⟨[], .done a, List.forall_mem_nil _, fun _ h => h.elim⟩
  | op o k ih =>
    obtain ⟨log, hrun, hw, hall⟩ := ih (w o)
    refine ⟨⟨o, w o⟩ :: log, .op hrun, List.forall_mem_cons.mpr ⟨rfl, hw⟩, fun q hq => ?_⟩
    rcases hq with hq | hq
    · exact ⟨⟨o, w o⟩, .head _, hq⟩
    · obtain ⟨e, he, hqe⟩ := hall q hq
      exact ⟨e, .tail _ he, hqe⟩

end Prog

/-- Operations of the routing code and their answers. -/
abbrev Log : Type := List ((o : Op) × Res o)

/-! ## The passes -/

/-- What a pass does before it tries anything: it asks, and makes its choice. -/
def Op.isQuestion : Op → Bool
  | .replicaHealthy .. | .replicaAllows .. => true
  | o => o.chooses

/-- The replica was said to be healthy, and its breaker let traffic through. -/
def Eligible (gen : Nat) (log : Log) (i : Nat) : Prop :=
  ⟨.replicaHealthy gen i, true⟩ ∈ log ∧ ⟨.replicaAllows gen i, true⟩ ∈ log

namespace PoolRef

variable (pool : PoolRef) (db : Option Str)

/-- Failed tries: every one of them costs the replica its flag. -/
def failures (failed : List (Nat × Str)) : Log :=
  failed.flatMap fun t => [⟨.get (pool.origin (.replica t.1)) db, .error t.2⟩, ⟨.markUnhealthy pool.gen t.1, ()⟩]

/-- The try that ends a pass, if one does. -/
def success (won : Option (ConnId × Nat)) : Log :=
  (won.map fun w => ⟨.get (pool.origin (.replica w.2)) db, .ok w.1⟩).toList

/-- What a pass does: questions, failed tries, and a last one. -/
def passLog (asked : Log) (failed : List (Nat × Str)) (won : Option (ConnId × Nat)) : Log :=
  asked ++ pool.failures db failed ++ pool.success db won

end PoolRef

/-- The replicas a pass has tried, in order. -/
def triedBy (failed : List (Nat × Str)) (won : Option (ConnId × Nat)) : List Nat :=
  failed.map Prod.fst ++ (won.map Prod.snd).toList

/-- A pass over the replicas of one kind. -/
structure Pass (pool : PoolRef) (backupPass : Bool) (asked : Log) (failed : List (Nat × Str))
    (won : Option (ConnId × Nat)) : Prop where
  /-- it begins with questions -/
  questions : ∀ e ∈ asked, e.1.isQuestion = true
  /-- every replica of its kind is asked about -/
  asks : ∀ i weight, pool.replicas[i]? = some (weight, backupPass) → ∃ healthy,
    ⟨.replicaHealthy pool.gen i, healthy⟩ ∈ asked ∧
      (healthy = true → ∃ allowed, ⟨.replicaAllows pool.gen i, allowed⟩ ∈ asked)
  /-- what is tried is of its kind and eligible -/
  eligible : ∀ i ∈ triedBy failed won,
    (∃ weight, pool.replicas[i]? = some (weight, backupPass)) ∧ Eligible pool.gen asked i
  /-- nothing is tried twice -/
  once : (triedBy failed won).Nodup
  /-- it ends without a connection only if its choice panics or every eligible replica has failed -/
  all : won = none → (∃ e ∈ asked, e.1 = .panic) ∨ ∀ i, Eligible pool.gen asked i → i ∈ failed.map Prod.fst

/-- How the effective primary gives its connection: the one group replication names, else the one failover
names, else the configured one if its breaker lets traffic through. -/
inductive FromPrimary (pool : PoolRef) (db : Option Str) : Log → Except Str ConnId → Prop where
  /-- group replication names a replica -/
  | elected {gr : Int} {slot : Slot} {r : Except Str ConnId} :
      pool.replicaAt gr = some slot →
      FromPrimary pool db [⟨.loadGr pool.gen, gr⟩, ⟨.get (pool.origin slot) db, r⟩] r
  /-- a replica has been promoted -/
  | promoted {gr failover : Int} {slot : Slot} {r : Except Str ConnId} :
      pool.replicaAt gr = none → pool.replicaAt failover = some slot →
      FromPrimary pool db
        [⟨.loadGr pool.gen, gr⟩, ⟨.loadFailover pool.gen, failover⟩, ⟨.get (pool.origin slot) db, r⟩] r
  /-- the configured primary is in charge -/
  | configured {gr failover : Int} {r : Except Str ConnId} :
      pool.replicaAt gr = none → pool.replicaAt failover = none →
      FromPrimary pool db
        [⟨.loadGr pool.gen, gr⟩, ⟨.loadFailover pool.gen, failover⟩, ⟨.primaryAllows pool.gen, true⟩,
          ⟨.get (pool.origin .primary) db, r⟩] r
  /-- its breaker is open -/
  | refused {gr failover : Int} {e : Str} :
      pool.replicaAt gr = none → pool.replicaAt failover = none →
      FromPrimary pool db
        [⟨.loadGr pool.gen, gr⟩, ⟨.loadFailover pool.gen, failover⟩, ⟨.primaryAllows pool.gen, false⟩] (.error e)

/-- How `get_replica_for_database` gets its connection. -/
inductive Falls (pool : PoolRef) (db : Option Str) : Log → Except Str (ConnId × Option Nat) → Prop where
  /-- from a replica that is no backup -/
  | regular {asked : Log} {failed : List (Nat × Str)} {c : ConnId} {i : Nat} :
      Pass pool false asked failed (some (c, i)) →
      Falls pool db (pool.passLog db asked failed (some (c, i))) (.ok (c, some i))
  /-- from a backup, after every eligible replica that is none has failed -/
  | backup {asked asked' : Log} {failed failed' : List (Nat × Str)} {c : ConnId} {i : Nat} :
      Pass pool false asked failed none → Pass pool true asked' failed' (some (c, i)) →
      Falls pool db (pool.passLog db asked failed none ++ pool.passLog db asked' failed' (some (c, i)))
        (.ok (c, some i))
  /-- from the primary, after every eligible replica has failed -/
  | primary {asked asked' log : Log} {failed failed' : List (Nat × Str)} {r : Except Str ConnId} :
      Pass pool false asked failed none → Pass pool true asked' failed' none →
      FromPrimary pool db log r →
      Falls pool db (pool.passLog db asked failed none ++ pool.passLog db asked' failed' none ++ log)
        (r.map fun c => (c, none))

section Passes

variable {pool : PoolRef} {db : Option Str} {backupPass : Bool} {log : Log}

/-- What `candidates` asks and finds. -/
structure Finds (pool : PoolRef) (backupPass : Bool) (l : List ((Nat × Bool) × Nat)) (log : Log)
    (cands : List (Nat × Nat)) : Prop where
  /-- it only asks about these replicas -/
  questions : ∀ e ∈ log, ∃ i ∈ l.map Prod.snd, e.1 = .replicaHealthy pool.gen i ∨ e.1 = .replicaAllows pool.gen i
  /-- and about all of them that are of the kind -/
  asks : ∀ i weight, ((weight, backupPass), i) ∈ l → ∃ healthy,
    ⟨.replicaHealthy pool.gen i, healthy⟩ ∈ log ∧
      (healthy = true → ∃ allowed, ⟨.replicaAllows pool.gen i, allowed⟩ ∈ log)
  /-- the candidates are in order -/
  sublist : (cands.map Prod.fst).Sublist (l.map Prod.snd)
  /-- they are the eligible replicas -/
  eligible : ∀ i, i ∈ cands.map Prod.fst ↔ Eligible pool.gen log i
  /-- of the kind -/
  kind : ∀ i ∈ cands.map Prod.fst, ∃ weight, ((weight, backupPass), i) ∈ l

theorem finds_nil : Finds pool backupPass [] [] [] where
  questions := by simp
  asks := by simp
  sublist := .slnil
  eligible := by simp [Eligible]
  kind := by simp

/-- A replica of the other kind is passed over. -/
theorem Finds.other {e : (Nat × Bool) × Nat} {rest : List ((Nat × Bool) × Nat)} {cands : List (Nat × Nat)}
    (hother : e.1.2 ≠ backupPass) (h : Finds pool backupPass rest log cands) :
    Finds pool backupPass (e :: rest) log cands where
  questions q hq := by
    obtain ⟨i, hi, hop⟩ := h.questions q hq
    exact ⟨i, .tail _ hi, hop⟩
  asks i weight hmem := by
    rcases List.mem_cons.mp hmem with rfl | hmem
    · exact absurd rfl hother
    · exact h.asks i weight hmem
  sublist := h.sublist.cons _
  eligible := h.eligible
  kind i hi := by
    obtain ⟨weight, hmem⟩ := h.kind i hi
    exact ⟨weight, .tail _ hmem⟩

/-- Questions about one replica say nothing about another. -/
theorem eligible_append {i j : Nat} {own : Log}
    (hown : ∀ e ∈ own, e.1 = .replicaHealthy pool.gen i ∨ e.1 = .replicaAllows pool.gen i) (hne : j ≠ i) :
    Eligible pool.gen (own ++ log) j ↔ Eligible pool.gen log j := by
  have hhealthy : ⟨.replicaHealthy pool.gen j, true⟩ ∉ own := by
    intro hmem
    rcases hown _ hmem with hop | hop <;> simp only [Op.replicaHealthy.injEq, reduceCtorEq] at hop
    exact hne hop.2
  have hallows : ⟨.replicaAllows pool.gen j, true⟩ ∉ own := by
    intro hmem
    rcases hown _ hmem with hop | hop <;> simp only [Op.replicaAllows.injEq, reduceCtorEq] at hop
    exact hne hop.2
  simp [Eligible, hhealthy, hallows]

/-- A replica of the kind is asked about before the others are. -/
theorem Finds.asked {weight i : Nat} {rest : List ((Nat × Bool) × Nat)} {cands cands' : List (Nat × Nat)}
    (own : Log) (hown : ∀ e ∈ own, e.1 = .replicaHealthy pool.gen i ∨ e.1 = .replicaAllows pool.gen i)
    (hasks : ∃ healthy, ⟨.replicaHealthy pool.gen i, healthy⟩ ∈ own ∧
      (healthy = true → ∃ allowed, ⟨.replicaAllows pool.gen i, allowed⟩ ∈ own))
    (hfresh : i ∉ rest.map Prod.snd) (h : Finds pool backupPass rest log cands)
    (hcands : (cands' = (i, max weight 1) :: cands ∧ Eligible pool.gen own i) ∨
      (cands' = cands ∧ ¬Eligible pool.gen own i)) :
    Finds pool backupPass (((weight, backupPass), i) :: rest) (own ++ log) cands' := by
  have hunasked : ∀ e ∈ log, e.1 ≠ .replicaHealthy pool.gen i ∧ e.1 ≠ .replicaAllows pool.gen i := by
    intro e he
    obtain ⟨j, hj, hop⟩ := h.questions e he
    have hne : j ≠ i := fun heq => hfresh (heq ▸ hj)
    rcases hop with hop | hop <;> simp [hop, hne]
  have hself : Eligible pool.gen (own ++ log) i ↔ Eligible pool.gen own i := by
    have hhealthy : ⟨.replicaHealthy pool.gen i, true⟩ ∉ log := fun hmem => (hunasked _ hmem).1 rfl
    have hallows : ⟨.replicaAllows pool.gen i, true⟩ ∉ log := fun hmem => (hunasked _ hmem).2 rfl
    simp [Eligible, hhealthy, hallows]
  have hnot : i ∉ cands.map Prod.fst := fun hmem => hfresh (h.sublist.subset hmem)
  refine ⟨?_, ?_, ?_, ?_, ?_⟩
  · intro e he
    rcases List.mem_append.mp he with he | he
    · exact ⟨i, .head _, hown e he⟩
    · obtain ⟨j, hj, hop⟩ := h.questions e he
      exact ⟨j, .tail _ hj, hop⟩
  · intro j w hmem
    rcases List.mem_cons.mp hmem with heq | hmem
    · obtain ⟨rfl, rfl⟩ : w = weight ∧ j = i := by simpa using heq
      obtain ⟨healthy, hin, hallowed⟩ := hasks
      refine ⟨healthy, List.mem_append_left _ hin, fun hh => ?_⟩
      obtain ⟨allowed, hin⟩ := hallowed hh
      exact ⟨allowed, List.mem_append_left _ hin⟩
    · obtain ⟨healthy, hin, hallowed⟩ := h.asks j w hmem
      refine ⟨healthy, List.mem_append_right _ hin, fun hh => ?_⟩
      obtain ⟨allowed, hin⟩ := hallowed hh
      exact ⟨allowed, List.mem_append_right _ hin⟩
  · rcases hcands with ⟨rfl, -⟩ | ⟨rfl, -⟩
    · exact h.sublist.cons_cons i
    · exact h.sublist.cons i
  · intro j
    by_cases hj : j = i
    · subst hj
      rw [hself]
      rcases hcands with ⟨rfl, hel⟩ | ⟨rfl, hel⟩
      · simp [hel]
      · exact iff_of_false hnot hel
    · rw [eligible_append hown hj, ← h.eligible]
      rcases hcands with ⟨rfl, -⟩ | ⟨rfl, -⟩
      · simp [hj]
      · rfl
  · intro j hj
    rcases hcands with ⟨rfl, -⟩ | ⟨rfl, -⟩
    · rcases List.mem_cons.mp hj with rfl | hj
      · exact ⟨weight, .head _⟩
      · obtain ⟨w, hmem⟩ := h.kind j hj
        exact ⟨w, .tail _ hmem⟩
    · obtain ⟨w, hmem⟩ := h.kind j hj
      exact ⟨w, .tail _ hmem⟩

theorem finds_candidates {l : List ((Nat × Bool) × Nat)} {cands : List (Nat × Nat)}
    (hnodup : (l.map Prod.snd).Nodup) (h : (pool.candidates backupPass l).Run log cands) :
    Finds pool backupPass l log cands := by
  induction l generalizing log cands with
  | nil =>
    obtain ⟨rfl, rfl⟩ := Prog.run_done.mp h
    exact finds_nil
  | cons e rest ih =>
    obtain ⟨⟨weight, backup⟩, i⟩ := e
    obtain ⟨hfresh, hnodup⟩ := List.nodup_cons.mp hnodup
    rw [PoolRef.candidates] at h
    by_cases hkind : backup = backupPass
    · subst hkind
      rw [if_pos (beq_self_eq_true _)] at h
      obtain ⟨healthy, log, rfl, hafter⟩ := Prog.run_perform.mp h
      cases healthy with
      | false =>
        refine Finds.asked [⟨.replicaHealthy pool.gen i, false⟩] ?_ ?_ hfresh (ih hnodup hafter) (.inr ⟨rfl, ?_⟩)
        · simp
        · exact ⟨false, .head _, fun h => absurd h Bool.false_ne_true⟩
        · simp [Eligible]
      | true =>
        obtain ⟨allowed, log, rfl, hrest⟩ := Prog.run_perform.mp hafter
        obtain ⟨others, asked, last, rfl, hothers, hlast⟩ := Prog.run_bind.mp hrest
        obtain ⟨rfl, rfl⟩ : last = [] ∧ cands = if allowed then (i, max weight 1) :: others else others := by
          cases allowed <;> exact Prog.run_done.mp hlast
        rw [List.append_nil]
        refine Finds.asked [⟨.replicaHealthy pool.gen i, true⟩, ⟨.replicaAllows pool.gen i, allowed⟩] ?_ ?_
          hfresh (ih hnodup hothers) ?_
        · simp
        · exact ⟨true, .head _, fun _ => ⟨allowed, .tail _ (.head _)⟩⟩
        · cases allowed with
          | false => exact .inr ⟨rfl, by simp [Eligible]⟩
          | true => exact .inl ⟨rfl, by simp [Eligible]⟩
    · rw [if_neg (by simpa using hkind)] at h
      exact (ih hnodup h).other hkind

/-- After a failed choice, the other candidates are tried in order until one gives a connection. -/
theorem run_tryRemaining {chosen : Nat} {l : List (Nat × Nat)} {won : Option (ConnId × Nat)}
    (h : (pool.tryRemaining chosen db l).Run log won) :
    ∃ failed, log = pool.failures db failed ++ pool.success db won ∧
      triedBy failed won <+: (l.map Prod.fst).filter (· ≠ chosen) ∧
        (won = none → failed.map Prod.fst = (l.map Prod.fst).filter (· ≠ chosen)) := by
  induction l generalizing log with
  | nil =>
    obtain ⟨rfl, rfl⟩ := Prog.run_done.mp h
    exact ⟨[], rfl, List.nil_prefix, fun _ => rfl⟩
  | cons e rest ih =>
    obtain ⟨i, weight⟩ := e
    rw [PoolRef.tryRemaining] at h
    by_cases hi : i = chosen
    · rw [if_pos hi] at h
      obtain ⟨failed, hlog, htried, hnone⟩ := ih h
      exact ⟨failed, hlog, by simpa [hi] using htried, fun hw => by simpa [hi] using hnone hw⟩
    · rw [if_neg hi] at h
      have hfilter : (((i, weight) :: rest).map Prod.fst).filter (· ≠ chosen) =
          i :: (rest.map Prod.fst).filter (· ≠ chosen) := by simp [hi]
      rw [hfilter]
      obtain ⟨r, log, rfl, hget⟩ := Prog.run_perform.mp h
      rcases r with err | c
      · obtain ⟨-, log, rfl, hmark⟩ := Prog.run_perform.mp hget
        obtain ⟨failed, rfl, htried, hnone⟩ := ih hmark
        refine ⟨(i, err) :: failed, rfl, List.cons_prefix_cons.mpr ⟨rfl, htried⟩, fun hw => ?_⟩
        rw [List.map_cons, hnone hw]
      · obtain ⟨rfl, rfl⟩ := Prog.run_done.mp hget
        exact ⟨[], rfl, by simp [triedBy], fun hw => by cases hw⟩

theorem nodup_replicas : (pool.replicas.zipIdx.map Prod.snd).Nodup := by
  rw [List.zipIdx_map_snd]
  exact List.nodup_range'

theorem mem_replicas {r : Nat × Bool} {i : Nat} : (r, i) ∈ pool.replicas.zipIdx ↔ pool.replicas[i]? = some r :=
  List.mem_zipIdx_iff_getElem?

/-- Trying the candidates, each at most once, makes a pass. One of them may be chosen in between. -/
theorem Finds.pass {cands : List (Nat × Nat)} {others : Log} {failed : List (Nat × Str)} {won : Option (ConnId × Nat)}
    (h : Finds pool backupPass pool.replicas.zipIdx log cands)
    (hothers : ∀ e ∈ others, Chooses e.1) (honce : (triedBy failed won).Nodup)
    (htried : ∀ i ∈ triedBy failed won, i ∈ cands.map Prod.fst)
    (hall : won = none → (∃ e ∈ others, e.1 = .panic) ∨ ∀ i ∈ cands.map Prod.fst, i ∈ failed.map Prod.fst) :
    Pass pool backupPass (log ++ others) failed won := by
  have heligible : ∀ i, Eligible pool.gen (log ++ others) i ↔ i ∈ cands.map Prod.fst := by
    intro i
    have hhealthy : ⟨.replicaHealthy pool.gen i, true⟩ ∉ others := fun hmem => Bool.noConfusion (hothers _ hmem)
    have hallows : ⟨.replicaAllows pool.gen i, true⟩ ∉ others := fun hmem => Bool.noConfusion (hothers _ hmem)
    rw [h.eligible]
    simp [Eligible, hhealthy, hallows]
  refine ⟨?_, ?_, ?_, honce, ?_⟩
  · intro e he
    rcases List.mem_append.mp he with he | he
    · obtain ⟨i, -, hop | hop⟩ := h.questions e he <;> rw [hop] <;> rfl
    · have hchoice := hothers e he
      obtain ⟨o, r⟩ := e
      cases o <;> first | rfl | cases hchoice
  · intro i weight hi
    obtain ⟨healthy, hin, hallowed⟩ := h.asks i weight (mem_replicas.mpr hi)
    refine ⟨healthy, List.mem_append_left _ hin, fun hh => ?_⟩
    obtain ⟨allowed, hin⟩ := hallowed hh
    exact ⟨allowed, List.mem_append_left _ hin⟩
  · intro i hi
    obtain ⟨weight, hkind⟩ := h.kind i (htried i hi)
    exact ⟨⟨weight, mem_replicas.mp hkind⟩, (heligible i).mpr (htried i hi)⟩
  · intro hw
    rcases hall hw with ⟨e, he, hpanic⟩ | hall
    · exact .inl ⟨e, List.mem_append_right _ he, hpanic⟩
    · exact .inr fun i hi => hall i ((heligible i).mp hi)

/-- A failed choice and a run over the other candidates try every candidate at most once. -/
theorem tried_once {chosen : Nat} (err : Str) {l : List (Nat × Nat)} {failed : List (Nat × Str)}
    {won : Option (ConnId × Nat)} (hnodup : (l.map Prod.fst).Nodup) (hmem : chosen ∈ l.map Prod.fst)
    (htried : triedBy failed won <+: (l.map Prod.fst).filter (· ≠ chosen)) :
    (triedBy ((chosen, err) :: failed) won).Nodup ∧
      ∀ i ∈ triedBy ((chosen, err) :: failed) won, i ∈ l.map Prod.fst := by
  have hsub : ∀ i ∈ triedBy failed won, i ∈ l.map Prod.fst ∧ i ≠ chosen := by
    intro i hi
    simpa using List.mem_filter.mp (htried.subset hi)
  constructor
  · refine List.nodup_cons.mpr ⟨fun hin => (hsub chosen hin).2 rfl, ?_⟩
    exact (hnodup.filter _).sublist htried.sublist
  · intro i hi
    rcases List.mem_cons.mp hi with rfl | hi
    · exact hmem
    · exact (hsub i hi).1

/-! ## What a call finds -/

/-- The flags and the breakers of the replicas, and whether the build checks sums for overflow. -/
structure PoolState where
  /-- `replica_health[i].healthy` -/
  healthy : Nat → Bool
  /-- `replica_breakers[i].allows()` -/
  allowed : Nat → Bool
  /-- the build checks sums -/
  checks : Bool

/-- The questions that the state of the pool answers. -/
def Op.isState : Op → Bool
  | .replicaHealthy .. | .replicaAllows .. | .overflowChecks => true
  | _ => false

namespace PoolState

variable (s : PoolState)

/-- The answers in this state, when nobody can be connected to. -/
def answers : (o : Op) → Res o
  | .replicaHealthy _ i => s.healthy i
  | .replicaAllows _ i => s.allowed i
  | .overflowChecks => s.checks
  | .get .. => Except.error []
  | o => atEase o

/-- Every question about the state got the answer it has in this one. -/
def Says (log : Log) : Prop := ∀ e ∈ log, e.1.isState = true → e.2 = s.answers e.1

/-- The candidates of a pass. -/
def candidates (pool : PoolRef) (backupPass : Bool) : List (Nat × Nat) :=
  candidateList (fun i => s.healthy i && s.allowed i) backupPass pool.replicas

/-- The weights of the candidates, if there are any, add up to a number to divide by. -/
def AddsUp (pool : PoolRef) (backupPass : Bool) : Prop :=
  s.candidates pool backupPass = [] ∨
    ∃ total, totalWeight s.checks 0 (s.candidates pool backupPass) = some total ∧ total ≠ 0

end PoolState

variable {s : PoolState}

theorem says_append {log' : Log} : s.Says (log ++ log') ↔ s.Says log ∧ s.Says log' := List.forall_mem_append

/-- The questions of a pass find its candidates. -/
theorem candidates_of_run {cands : List (Nat × Nat)}
    (h : (pool.candidates backupPass pool.replicas.zipIdx).Run log cands) (hreply : s.Says log) :
    cands = s.candidates pool backupPass := by
  have hanswers : ∀ e ∈ log, e.2 = s.answers e.1 := by
    intro e he
    obtain ⟨i, -, hop⟩ := (finds_candidates nodup_replicas h).questions e he
    refine hreply e he ?_
    rcases hop with hop | hop <;> rw [hop] <;> rfl
  exact (h.result_eq hanswers).symm.trans (pool.result_candidates backupPass s.answers _)

/-! ## The choice -/

/-- Where all sums fit or wrap, the loop ends with a choice. -/
theorem chosenIdx_of_total {checks : Bool} {acc total slot fallback : Nat} {l : List (Nat × Nat)}
    (h : totalWeight checks acc l = some total) : ∃ i, chosenIdx checks slot fallback acc l = some i := by
  induction l generalizing acc with
  | nil => exact ⟨fallback, rfl⟩
  | cons e rest ih =>
    obtain ⟨sum, hsum, hrest⟩ := Option.bind_eq_some_iff.mp h
    rw [chosenIdx, hsum, Option.bind_some]
    by_cases hslot : slot < sum
    · exact ⟨e.1, if_pos hslot⟩
    · obtain ⟨i, hi⟩ := ih hrest
      exact ⟨i, (if_neg hslot).trans hi⟩

/-- A sum that fits is the same in every build. -/
theorem totalWeight_of_small {checks : Bool} {cands : List (Nat × Nat)} (h : weightSum cands < 2 ^ 32) :
    totalWeight false 0 cands = totalWeight checks 0 cands := by
  rw [totalWeight_of_lt (by omega), totalWeight_of_lt (by omega)]

/-- The build is asked only where its answer matters. -/
theorem run_checks {cands : List (Nat × Nat)} {checks : Bool} {log : Log} (h : (PoolRef.checksSums cands).Run log checks)
    (hreply : s.Says log) :
    (∀ e ∈ log, e.1 ≠ .panic) ∧ totalWeight checks 0 cands = totalWeight s.checks 0 cands := by
  rw [PoolRef.checksSums] at h
  split at h
  · rename_i hsmall
    obtain ⟨rfl, rfl⟩ := Prog.run_done.mp h
    exact ⟨List.forall_mem_nil _, totalWeight_of_small hsmall⟩
  · obtain ⟨answer, log, rfl, hdone⟩ := Prog.run_op.mp h
    obtain ⟨rfl, rfl⟩ := Prog.run_done.mp hdone
    have hanswer : checks = s.checks := hreply _ (.head _) rfl
    exact ⟨by simp, by rw [hanswer]⟩

/-- Only a panic leaves no choice. -/
theorem run_choose {first : Nat} {cands : List (Nat × Nat)} (h : (pool.choose first cands).Run log none) :
    ∃ e ∈ log, e.1 = .panic := by
  have hpanicked : ∀ {log : Log}, (panicked : Task (Option Nat)).Run log none → ∃ e ∈ log, e.1 = .panic := by
    intro log h
    obtain ⟨r, log, rfl, -⟩ := Prog.run_perform.mp h
    exact ⟨_, .head _, rfl⟩
  obtain ⟨checks, log, last, rfl, -, hrest⟩ := Prog.run_bind.mp h
  split at hrest
  · obtain ⟨e, he, hpanic⟩ := hpanicked hrest
    exact ⟨e, List.mem_append_right _ he, hpanic⟩
  · obtain ⟨index, last, rfl, hloop⟩ := Prog.run_perform.mp hrest
    split at hloop
    · cases (Prog.run_done.mp hloop).2
    · obtain ⟨e, he, hpanic⟩ := hpanicked hloop
      exact ⟨e, List.mem_append_right _ (.tail _ he), hpanic⟩

/-- Among candidates whose weights add up, it does not panic. -/
theorem choose_calm {first : Nat} {cands : List (Nat × Nat)} {choice : Option Nat}
    (h : (pool.choose first cands).Run log choice) (hreply : s.Says log)
    (hsum : ∃ total, totalWeight s.checks 0 cands = some total ∧ total ≠ 0) : ∀ e ∈ log, e.1 ≠ .panic := by
  obtain ⟨total, htotal, hzero⟩ := hsum
  obtain ⟨checks, log, last, rfl, hchecks, hrest⟩ := Prog.run_bind.mp h
  obtain ⟨hasked, hsame⟩ := run_checks hchecks (says_append.mp hreply).1
  rw [htotal] at hsame
  simp only [hsame] at hrest
  obtain ⟨index, last, rfl, hloop⟩ := Prog.run_perform.mp hrest
  obtain ⟨i, hi⟩ : ∃ i, chosenIdx checks (index % total) first 0 cands = some i := chosenIdx_of_total hsame
  rw [if_neg hzero] at hloop
  simp only [hi] at hloop
  obtain ⟨rfl, -⟩ := Prog.run_done.mp hloop
  exact List.forall_mem_append.mpr ⟨hasked, by simp⟩

/-- A choice among candidates whose weights do not add up panics. -/
theorem choose_panics {first : Nat} {cands : List (Nat × Nat)}
    (h : ¬∃ total, totalWeight s.checks 0 cands = some total ∧ total ≠ 0) :
    (pool.choose first cands).Performs s.answers (· = .panic) := by
  rw [PoolRef.choose]
  refine Prog.performs_bind ?_
  have hchecks : totalWeight ((PoolRef.checksSums cands).result s.answers) 0 cands =
      totalWeight s.checks 0 cands := by
    rw [PoolRef.checksSums]
    split
    · rename_i hsmall
      exact totalWeight_of_small hsmall
    · rfl
  rw [hchecks]
  cases htotal : totalWeight s.checks 0 cands with
  | none => exact .inl rfl
  | some total =>
    obtain rfl : total = 0 := not_not.mp fun hzero => h ⟨total, htotal, hzero⟩
    exact .inr (.inl rfl)

/-- A pass is a pass, whichever candidate it begins with. -/
theorem run_tryWeighted {won : Option (ConnId × Nat)} (h : (pool.tryWeightedReplica backupPass db).Run log won) :
    ∃ asked failed, log = pool.passLog db asked failed won ∧ Pass pool backupPass asked failed won := by
  obtain ⟨cands, log, last, rfl, hcands, hrest⟩ := Prog.run_bind.mp h
  have hfinds := finds_candidates nodup_replicas hcands
  rcases cands with _ | ⟨⟨first, weight⟩, others⟩
  · obtain ⟨rfl, rfl⟩ := Prog.run_done.mp hrest
    exact ⟨log ++ [], [], by simp [PoolRef.passLog, PoolRef.failures, PoolRef.success],
      hfinds.pass (List.forall_mem_nil _) .nil (List.forall_mem_nil _) fun _ => .inr (List.forall_mem_nil _)⟩
  obtain ⟨choice, chosenLog, last, rfl, hchoice, htry⟩ := Prog.run_bind.mp hrest
  have hchooses : ∀ e ∈ chosenLog, Chooses e.1 := hchoice.only (PoolRef.chooses_choose _ _)
  rcases choice with _ | chosen
  · obtain ⟨rfl, rfl⟩ := Prog.run_done.mp htry
    exact ⟨log ++ chosenLog, [], by simp [PoolRef.passLog, PoolRef.failures, PoolRef.success],
      hfinds.pass hchooses .nil (List.forall_mem_nil _) fun _ => .inl (run_choose hchoice)⟩
  obtain ⟨r, last, rfl, hget⟩ := Prog.run_perform.mp htry
  have hnodup := hfinds.sublist.nodup nodup_replicas
  have hmem : chosen ∈ ((first, weight) :: others).map Prod.fst := by
    rcases hchoice.does (PoolRef.choose_does _ _) chosen rfl with rfl | hmem
    · exact .head _
    · exact hmem
  clear h hrest htry
  generalize (first, weight) :: others = l at *
  rcases r with err | c
  · obtain ⟨-, last, rfl, hmark⟩ := Prog.run_perform.mp hget
    obtain ⟨failed, rfl, htried, hnone⟩ := run_tryRemaining hmark
    obtain ⟨honce, hall⟩ := tried_once err hnodup hmem htried
    refine ⟨log ++ chosenLog, (chosen, err) :: failed,
      by simp [PoolRef.passLog, PoolRef.failures], hfinds.pass hchooses honce hall fun hw => .inr fun i hi => ?_⟩
    by_cases heq : i = chosen
    · exact heq ▸ .head _
    · exact .tail _ (hnone hw ▸ List.mem_filter.mpr ⟨hi, by simpa using heq⟩)
  · obtain ⟨rfl, rfl⟩ := Prog.run_done.mp hget
    refine ⟨log ++ chosenLog, [], by simp [PoolRef.passLog, PoolRef.failures, PoolRef.success],
      hfinds.pass hchooses (by simp [triedBy]) ?_ fun hw => by cases hw⟩
    intro i hi
    obtain rfl : i = chosen := by simpa [triedBy] using hi
    exact hmem

theorem calm_candidates (l : List ((Nat × Bool) × Nat)) : (pool.candidates backupPass l).Only (· ≠ .panic) := by
  induction l with
  | nil => trivial
  | cons e rest ih =>
    rw [PoolRef.candidates]
    refine Prog.only_ite (Prog.only_bind (Prog.only_perform (by simp)) fun healthy => ?_) ih
    refine Prog.only_ite (Prog.only_bind (Prog.only_perform (by simp)) fun allowed => ?_) ih
    exact Prog.only_bind ih fun others => Prog.only_ite (Prog.only_done _) (Prog.only_done _)

theorem calm_tryRemaining (chosen : Nat) (l : List (Nat × Nat)) :
    (pool.tryRemaining chosen db l).Only (· ≠ .panic) := by
  induction l with
  | nil => trivial
  | cons e rest ih =>
    rw [PoolRef.tryRemaining]
    refine Prog.only_ite ih (Prog.only_bind (Prog.only_perform (by simp)) fun r => ?_)
    split
    · trivial
    · exact Prog.only_bind (Prog.only_perform (by simp)) fun _ => ih

theorem tryWeighted_calm {won : Option (ConnId × Nat)} (h : (pool.tryWeightedReplica backupPass db).Run log won)
    (hreply : s.Says log) (hsum : s.AddsUp pool backupPass) : ∀ e ∈ log, e.1 ≠ .panic := by
  obtain ⟨cands, log, last, rfl, hcands, hrest⟩ := Prog.run_bind.mp h
  obtain ⟨hreply, hlast⟩ := says_append.mp hreply
  have hlist := candidates_of_run hcands hreply
  refine List.forall_mem_append.mpr ⟨hcands.only (calm_candidates _), ?_⟩
  rcases cands with _ | ⟨⟨first, weight⟩, others⟩
  · obtain ⟨rfl, -⟩ := Prog.run_done.mp hrest
    exact List.forall_mem_nil _
  have hsum : ∃ total, totalWeight s.checks 0 ((first, weight) :: others) = some total ∧ total ≠ 0 := by
    rw [PoolState.AddsUp, ← hlist] at hsum
    exact hsum.resolve_left (List.cons_ne_nil _ _)
  obtain ⟨choice, chosenLog, last, rfl, hchoice, htry⟩ := Prog.run_bind.mp hrest
  refine List.forall_mem_append.mpr ⟨choose_calm hchoice (says_append.mp hlast).1 hsum, ?_⟩
  refine htry.only (q := (· ≠ .panic)) ?_
  split
  · trivial
  refine Prog.only_bind (Prog.only_perform (by simp)) fun r => ?_
  split
  · trivial
  · exact Prog.only_bind (Prog.only_perform (by simp)) fun _ => calm_tryRemaining _ _

/-- A pass over candidates whose weights do not add up panics. -/
theorem tryWeighted_panics (h : ¬s.AddsUp pool backupPass) :
    (pool.tryWeightedReplica backupPass db).Performs s.answers (· = .panic) := by
  rw [PoolState.AddsUp, not_or] at h
  refine Prog.performs_bind ?_
  have hlist : (pool.candidates backupPass pool.replicas.zipIdx).result s.answers = s.candidates pool backupPass :=
    pool.result_candidates backupPass s.answers _
  rw [hlist]
  rcases hcands : s.candidates pool backupPass with _ | ⟨⟨first, weight⟩, others⟩
  · exact absurd hcands h.1
  · exact Prog.performs_bind_left _ (choose_panics (hcands ▸ h.2))

/-- Nobody is left after a pass in which nobody can be connected to. -/
theorem result_tryWeighted : (pool.tryWeightedReplica backupPass db).result s.answers = none := by
  have hothers : ∀ chosen l, (pool.tryRemaining chosen db l).result s.answers = none := by
    intro chosen l
    induction l with
    | nil => rfl
    | cons e rest ih =>
      rw [PoolRef.tryRemaining]
      split
      · exact ih
      · exact ih
  rw [PoolRef.tryWeightedReplica, Prog.result_bind]
  split
  · rfl
  · rw [Prog.result_bind]
    split
    · rfl
    · exact hothers _ _

/-! ## The whole call -/

theorem fromPrimary_of_run {r : Except Str ConnId} (h : (pool.getPrimaryForDatabase db).Run log r) :
    FromPrimary pool db log r := by
  have hget : ∀ {slot log}, (act (.get (pool.origin slot) db)).Run log r →
      log = [⟨.get (pool.origin slot) db, r⟩] := by
    intro slot log h
    obtain ⟨answer, rest, rfl, hdone⟩ := Prog.run_op.mp h
    obtain ⟨rfl, rfl⟩ := Prog.run_done.mp hdone
    rfl
  obtain ⟨gr, log, rfl, hgr⟩ := Prog.run_perform.mp h
  cases hslot : pool.replicaAt gr with
  | some slot =>
    rw [hslot] at hgr
    rw [hget hgr]
    exact .elected hslot
  | none =>
    rw [hslot] at hgr
    obtain ⟨failover, log, rfl, hfailover⟩ := Prog.run_perform.mp hgr
    cases hslot' : pool.replicaAt failover with
    | some slot =>
      rw [hslot'] at hfailover
      rw [hget hfailover]
      exact .promoted hslot hslot'
    | none =>
      rw [hslot'] at hfailover
      obtain ⟨allowed, log, rfl, hallowed⟩ := Prog.run_perform.mp hfailover
      cases allowed with
      | true =>
        rw [hget hallowed]
        exact .configured hslot hslot'
      | false =>
        obtain ⟨rfl, rfl⟩ := Prog.run_done.mp hallowed
        exact .refused hslot hslot'

theorem run_getPrimaryAsReplica {r : Except Str (ConnId × Option Nat)} (h : (pool.getPrimaryAsReplica db).Run log r) :
    ∃ got : Except Str ConnId, r = got.map (fun c => (c, none)) ∧ FromPrimary pool db log got := by
  obtain ⟨got, log, last, rfl, hgot, hlast⟩ := Prog.run_bind.mp h
  refine ⟨got, ?_⟩
  rcases got with e | c <;>
  · obtain ⟨rfl, rfl⟩ := Prog.run_done.mp hlast
    rw [List.append_nil]
    exact ⟨rfl, fromPrimary_of_run hgot⟩

/-- Without replicas, a pass does nothing. -/
theorem Pass.nothing (backupPass : Bool) (hempty : pool.replicas = []) : Pass pool backupPass [] [] none where
  questions := List.forall_mem_nil _
  asks := by simp [hempty]
  eligible := List.forall_mem_nil _
  once := .nil
  all := by simp [Eligible]

theorem run_getReplica {r : Except Str (ConnId × Option Nat)} (h : (pool.getReplicaForDatabase db).Run log r) :
    Falls pool db log r := by
  rw [PoolRef.getReplicaForDatabase] at h
  split at h
  · rename_i hempty
    obtain ⟨got, rfl, hgot⟩ := run_getPrimaryAsReplica h
    have hnothing := fun backupPass => Pass.nothing backupPass (List.isEmpty_iff.mp hempty)
    exact .primary (hnothing false) (hnothing true) hgot
  obtain ⟨won, log, last, rfl, hregular, hrest⟩ := Prog.run_bind.mp h
  obtain ⟨asked, failed, rfl, hpass⟩ := run_tryWeighted hregular
  rcases won with _ | ⟨c, i⟩
  · obtain ⟨won, log, last, rfl, hbackup, hlast⟩ := Prog.run_bind.mp hrest
    obtain ⟨asked', failed', rfl, hpass'⟩ := run_tryWeighted hbackup
    rcases won with _ | ⟨c, i⟩
    · obtain ⟨got, rfl, hgot⟩ := run_getPrimaryAsReplica hlast
      rw [← List.append_assoc]
      exact .primary hpass hpass' hgot
    · obtain ⟨rfl, rfl⟩ := Prog.run_done.mp hlast
      rw [List.append_nil]
      exact .backup hpass hpass'
  · obtain ⟨rfl, rfl⟩ := Prog.run_done.mp hrest
    rw [List.append_nil]
    exact .regular hpass

theorem calm_getPrimaryAsReplica : (pool.getPrimaryAsReplica db).Only (· ≠ .panic) := by
  have hprimary : (pool.getPrimaryForDatabase db).Only (· ≠ .panic) := by
    rw [PoolRef.getPrimaryForDatabase]
    refine Prog.only_bind (Prog.only_perform (by simp)) fun gr => ?_
    split
    · exact Prog.only_perform (by simp)
    refine Prog.only_bind (Prog.only_perform (by simp)) fun failover => ?_
    split
    · exact Prog.only_perform (by simp)
    · exact Prog.only_bind (Prog.only_perform (by simp)) fun allowed =>
        Prog.only_ite (Prog.only_perform (by simp)) (Prog.only_done _)
  rw [PoolRef.getPrimaryAsReplica]
  refine Prog.only_bind hprimary fun r => ?_
  split <;> trivial

/-- A call finds its way past the replicas if their weights add up. -/
theorem getReplica_calm {r : Except Str (ConnId × Option Nat)} (h : (pool.getReplicaForDatabase db).Run log r)
    (hreply : s.Says log) (hregular : s.AddsUp pool false) (hbackup : s.AddsUp pool true) : ∀ e ∈ log, e.1 ≠ .panic := by
  rw [PoolRef.getReplicaForDatabase] at h
  split at h
  · exact h.only calm_getPrimaryAsReplica
  obtain ⟨won, log, last, rfl, hfirst, hrest⟩ := Prog.run_bind.mp h
  obtain ⟨hreply, hlater⟩ := says_append.mp hreply
  refine List.forall_mem_append.mpr ⟨tryWeighted_calm hfirst hreply hregular, ?_⟩
  rcases won with _ | ⟨c, i⟩
  · obtain ⟨won, log, last, rfl, hsecond, hlast⟩ := Prog.run_bind.mp hrest
    refine List.forall_mem_append.mpr ⟨tryWeighted_calm hsecond (says_append.mp hlater).1 hbackup, ?_⟩
    rcases won with _ | ⟨c, i⟩
    · exact hlast.only calm_getPrimaryAsReplica
    · obtain ⟨rfl, -⟩ := Prog.run_done.mp hlast
      exact List.forall_mem_nil _
  · obtain ⟨rfl, -⟩ := Prog.run_done.mp hrest
    exact List.forall_mem_nil _

/-- If the weights of one kind do not add up, a call can panic. -/
theorem getReplica_panics (h : ¬(s.AddsUp pool false ∧ s.AddsUp pool true)) :
    (pool.getReplicaForDatabase db).Performs s.answers (· = .panic) := by
  have hsome : pool.replicas.isEmpty = false := by
    rw [Bool.eq_false_iff]
    intro hempty
    have hnothing : ∀ backupPass, s.AddsUp pool backupPass := fun backupPass =>
      .inl (by simp [PoolState.candidates, candidateList, List.isEmpty_iff.mp hempty])
    exact h ⟨hnothing false, hnothing true⟩
  rw [PoolRef.getReplicaForDatabase, hsome]
  rw [if_neg Bool.false_ne_true]
  by_cases hregular : s.AddsUp pool false
  · refine Prog.performs_bind ?_
    rw [result_tryWeighted]
    exact Prog.performs_bind_left _ (tryWeighted_panics fun hbackup => h ⟨hregular, hbackup⟩)
  · exact Prog.performs_bind_left _ (tryWeighted_panics hregular)

/-! ## The flags -/

/-- A flag is cleared only right after the replica has failed. -/
def MarksFailed (log : Log) : Prop :=
  ∀ before e after gen i, log = before ++ e :: after → e.1 = .markUnhealthy gen i →
    ∃ earlier db err, before = earlier ++ [⟨.get ⟨gen, .replica i⟩ db, .error err⟩]

theorem MarksFailed.append {log' : Log} (h : MarksFailed log) (h' : MarksFailed log') : MarksFailed (log ++ log') := by
  intro before e after gen i hlog he
  -- the mark is in the second part, where it is not the first, or in the first part
  rcases List.append_eq_append_iff.mp hlog with ⟨late, rfl, hlate⟩ | ⟨late, hbefore, hlate⟩
  · obtain ⟨earlier, db, err, rfl⟩ := h' late e after gen i hlate he
    exact ⟨log ++ earlier, db, err, (List.append_assoc ..).symm⟩
  rcases List.cons_eq_append_iff.mp hlate with ⟨rfl, hlast⟩ | ⟨rest, rfl, -⟩
  · obtain ⟨earlier, db, err, hnil⟩ := h' [] e after gen i hlast he
    simp at hnil
  · exact h before e rest gen i hbefore he

theorem marksFailed_of_none (h : ∀ e ∈ log, ∀ gen i, e.1 ≠ .markUnhealthy gen i) : MarksFailed log := by
  rintro before e after gen i rfl he
  exact absurd he (h e (by simp) gen i)

theorem marksFailed_failures (failed : List (Nat × Str)) : MarksFailed (pool.failures db failed) := by
  induction failed with
  | nil => exact marksFailed_of_none (List.forall_mem_nil _)
  | cons t rest ih =>
    refine MarksFailed.append ?_ ih
    intro before e after gen i hlog he
    rcases List.cons_eq_append_iff.mp hlog with ⟨rfl, heq⟩ | ⟨rest', rfl, hmark⟩
    · cases heq
      cases he
    rcases List.cons_eq_append_iff.mp hmark with ⟨rfl, heq⟩ | ⟨rest', rfl, hnil⟩
    · cases heq
      cases he
      exact ⟨[], db, t.2, rfl⟩
    · simp at hnil

theorem Pass.marksFailed {asked : Log} {failed : List (Nat × Str)} {won : Option (ConnId × Nat)}
    (h : Pass pool backupPass asked failed won) : MarksFailed (pool.passLog db asked failed won) := by
  refine MarksFailed.append (MarksFailed.append (marksFailed_of_none ?_) (marksFailed_failures failed))
    (marksFailed_of_none ?_)
  · intro e he gen i hmark
    have hquestion := h.questions e he
    rw [hmark] at hquestion
    cases hquestion
  · intro e he gen i
    rcases won with _ | w
    · cases he
    · obtain rfl := List.mem_singleton.mp he
      exact nofun

/-- Turning to the primary, a call asks group replication first and clears no flag. -/
theorem FromPrimary.flags {got : Except Str ConnId} (h : FromPrimary pool db log got) :
    (∃ gr rest, log = ⟨.loadGr pool.gen, gr⟩ :: rest) ∧ ∀ e ∈ log, ∀ gen i, e.1 ≠ .markUnhealthy gen i := by
  cases h <;> exact ⟨⟨_, _, rfl⟩, by simp⟩

theorem Falls.marksFailed {r : Except Str (ConnId × Option Nat)} (h : Falls pool db log r) : MarksFailed log := by
  cases h with
  | regular hpass => exact hpass.marksFailed
  | backup hpass hpass' => exact hpass.marksFailed.append hpass'.marksFailed
  | primary hpass hpass' hprimary =>
    exact (hpass.marksFailed.append hpass'.marksFailed).append (marksFailed_of_none hprimary.flags.2)

/-- In this state of the pool, every call falls back in order, clears the flags of those that failed only, and
does not panic, whoever can be connected to and wherever the counter stands. -/
def FallsBack (pool : PoolRef) (db : Option Str) (s : PoolState) : Prop :=
  ∀ log r, (pool.getReplicaForDatabase db).Run log r → s.Says log →
    Falls pool db log r ∧ MarksFailed log ∧ ∀ e ∈ log, e.1 ≠ .panic

theorem addsUp_of_fallsBack (h : FallsBack pool db s) : s.AddsUp pool false ∧ s.AddsUp pool true := by
  by_contra hnot
  obtain ⟨log, hrun, hanswers, hall⟩ := Prog.exists_run s.answers (pool.getReplicaForDatabase db)
  obtain ⟨e, he, hpanic⟩ := hall _ (getReplica_panics hnot)
  exact (h log _ hrun fun e he _ => hanswers e he).2.2 e he hpanic

/-- **Replica fallback**: reads fall back in order, from the regular replicas to the backups and to the primary, and
clear the flags of those that failed only, exactly if the weights of the eligible replicas add up in both passes. -/
theorem replica_fallback (pool : PoolRef) (db : Option Str) (s : PoolState) :
    FallsBack pool db s ↔ s.AddsUp pool false ∧ s.AddsUp pool true := by
  constructor
  · exact addsUp_of_fallsBack
  · rintro ⟨hregular, hbackup⟩ log r hrun hreply
    exact ⟨run_getReplica hrun, (run_getReplica hrun).marksFailed, getReplica_calm hrun hreply hregular hbackup⟩

/-- Two replicas of weight 2^31. -/
def heavyReplicas : PoolRef := ⟨0, [(2147483648, false), (2147483648, false)]⟩

/-- They are too heavy for a build with overflow checks, and for one without. -/
theorem heavy_replicas_panic :
    ¬FallsBack heavyReplicas none ⟨fun _ => true, fun _ => true, true⟩ ∧
      ¬FallsBack heavyReplicas none ⟨fun _ => true, fun _ => true, false⟩ := by
  constructor
  · intro h
    rcases (addsUp_of_fallsBack h).1 with hnone | ⟨total, htotal, -⟩
    · cases hnone
    · cases htotal
  · intro h
    rcases (addsUp_of_fallsBack h).1 with hnone | ⟨total, htotal, hzero⟩
    · cases hnone
    · exact hzero (Option.some.inj htotal).symm

end Passes

end TurbineProxy
