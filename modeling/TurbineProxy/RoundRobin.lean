import Mathlib.Data.Nat.Count
import TurbineProxy.BackendPool

/-!
# Weighted round-robin

The choice `try_weighted_replica` makes among its candidates, in the machine's own arithmetic: weights are
`u32`s, their sums are computed as `u32`s, and the counter is a `usize` that wraps. A build with overflow
checks panics where a sum does not fit, a build without them goes on with what is left of it.

`round_robin_exact_iff` says for which candidates every one of them gets its share.
-/

namespace TurbineProxy

/-! ## Counting along a counter -/

section Windows

variable {p : Nat → Prop} [DecidablePred p]

/-- A window as long as a period has what the first one has. -/
theorem count_window (period : Nat) (hp : ∀ n, p (period + n) ↔ p n) (start : Nat) :
    Nat.count (fun k => p (start + k)) period = Nat.count p period := by
  have hsplit : Nat.count p start + Nat.count (fun k => p (start + k)) period =
      Nat.count p period + Nat.count p start := by
    rw [← Nat.count_add, Nat.add_comm start, Nat.count_add]
    simp only [hp]
  omega

theorem count_congr {q : Nat → Prop} [DecidablePred q] {n : Nat} (h : ∀ k < n, (p k ↔ q k)) :
    Nat.count p n = Nat.count q n :=
  Nat.le_antisymm (Nat.count_mono_left fun k hk => (h k hk).mp) (Nat.count_mono_left fun k hk => (h k hk).mpr)

theorem count_lt {bound n : Nat} : Nat.count (· < bound) n = min bound n := by
  induction n with
  | zero => simp
  | succ n ih =>
    rw [Nat.count_succ, ih]
    split <;> omega

end Windows

/-! ## The candidates -/

/-- What a pass chooses from. -/
structure Candidates where
  /-- replicas and their weights -/
  list : List (Nat × Nat)
  /-- there is one -/
  nonempty : list ≠ []
  /-- a weight is a `u32`, and `0` counts as `1` -/
  weights : ∀ e ∈ list, 1 ≤ e.2 ∧ e.2 < 2 ^ 32
  /-- no replica is there twice -/
  nodup : (list.map Prod.fst).Nodup

/-- The candidates of a pass of `try_weighted_replica`: what is eligible among the replicas of that kind. -/
def candidateList (eligible : Nat → Bool) (backupPass : Bool) (replicas : List (Nat × Bool)) : List (Nat × Nat) :=
  (replicas.zipIdx.filter fun e => e.1.2 == backupPass && eligible e.2).map fun e => (e.2, max e.1.1 1)

/-- They are fit to choose from. -/
def Candidates.ofReplicas (eligible : Nat → Bool) (backupPass : Bool) (replicas : List (Nat × Bool))
    (hweights : ∀ r ∈ replicas, r.1 < 2 ^ 32) (hsome : candidateList eligible backupPass replicas ≠ []) : Candidates where
  list := candidateList eligible backupPass replicas
  nonempty := hsome
  weights := by
    intro e he
    obtain ⟨r, hr, rfl⟩ := List.mem_map.mp he
    have hmem := List.fst_mem_of_mem_zipIdx (List.mem_of_mem_filter hr)
    have hsmall := hweights r.1 hmem
    dsimp only
    omega
  nodup := by
    have hids : ((replicas.zipIdx.filter fun e => e.1.2 == backupPass && eligible e.2).map Prod.snd).Nodup := by
      refine List.Nodup.sublist (List.Sublist.map _ List.filter_sublist) ?_
      rw [List.zipIdx_map_snd]
      exact List.nodup_range'
    rwa [candidateList, List.map_map]

@[simp] theorem Prog.result_bind {Op : Type} {Res : Op → Type} {α β : Type} (w : (o : Op) → Res o) (p : Prog Op Res α)
    (f : α → Prog Op Res β) : (p >>= f).result w = (f (p.result w)).result w := by
  induction p with
  | done a => rfl
  | op o k ih => exact ih _

/-- The code collects them by asking one after the other. -/
theorem PoolRef.result_candidates (pool : PoolRef) (backupPass : Bool) (w : (o : Op) → Res o)
    (l : List ((Nat × Bool) × Nat)) :
    (pool.candidates backupPass l).result w = (l.filter fun e => e.1.2 == backupPass &&
      ((w (.replicaHealthy pool.gen e.2) : Bool) && (w (.replicaAllows pool.gen e.2) : Bool))).map
        fun e => (e.2, max e.1.1 1) := by
  induction l with
  | nil => rfl
  | cons e rest ih =>
    obtain ⟨⟨weight, backup⟩, i⟩ := e
    rw [PoolRef.candidates]
    by_cases hbackup : (backup == backupPass) = true
    · by_cases hhealthy : (w (.replicaHealthy pool.gen i) : Bool) = true
      · by_cases hallowed : (w (.replicaAllows pool.gen i) : Bool) = true
        · simp [hbackup, hhealthy, hallowed, ih, Prog.perform, Prog.result]
        · simp [hbackup, hhealthy, hallowed, ih, Prog.perform, Prog.result]
      · simp [hbackup, hhealthy, ih, Prog.perform, Prog.result]
    · simp [hbackup, ih]

theorem weightSum_cons (e : Nat × Nat) (l : List (Nat × Nat)) : weightSum (e :: l) = e.2 + weightSum l := List.sum_cons ..

/-- The weighted choice where every sum fits: the first candidate whose cumulated weight exceeds the slot. -/
def PoolRef.pick (slot : Nat) : Nat → List (Nat × Nat) → Option Nat
  | _, [] => none
  | acc, (i, w) :: rest => if slot < acc + w then some i else pick slot (acc + w) rest

namespace Candidates

variable (cands : Candidates)

/-- `candidates[0].0` -/
def first : Nat := (cands.list.head cands.nonempty).1

/-- The sum of all weights. -/
def total : Nat := weightSum cands.list

/-- The replica that is chosen when the counter was at `index`. A remainder by zero is a panic, too. -/
def select (checks : Bool) (index : Nat) : Option Nat :=
  (totalWeight checks 0 cands.list).bind fun total =>
    if total = 0 then none else chosenIdx checks (index % total) cands.first 0 cands.list

/-- The `k`-th choice after the counter was at `start`. -/
def choice (checks : Bool) (start k : Nat) : Option Nat := cands.select checks ((start + k) % 2 ^ 64)

/-- As many choices as the weights add up to: none panics, and every candidate gets its share. -/
def Exact (checks : Bool) (start : Nat) : Prop :=
  (∀ k < cands.total, (cands.choice checks start k).isSome = true) ∧
    ∀ e ∈ cands.list, Nat.count (fun k => cands.choice checks start k = some e.1) cands.total = e.2

end Candidates

/-! ## The arithmetic -/

section Sums

variable {checks : Bool} {acc slot fallback : Nat} {l : List (Nat × Nat)}

theorem totalWeight_of_lt (h : acc + weightSum l < 2 ^ 32) : totalWeight checks acc l = some (acc + weightSum l) := by
  induction l generalizing acc with
  | nil => rfl
  | cons e rest ih =>
    rw [weightSum_cons] at h ⊢
    rw [totalWeight, u32Add, if_pos (by omega), Option.bind_some, ih (by omega)]
    congr 1
    omega

theorem chosenIdx_of_lt (h : acc + weightSum l < 2 ^ 32) :
    chosenIdx checks slot fallback acc l = some ((PoolRef.pick slot acc l).getD fallback) := by
  induction l generalizing acc with
  | nil => rfl
  | cons e rest ih =>
    rw [weightSum_cons] at h
    rw [chosenIdx, u32Add, if_pos (by omega), Option.bind_some, PoolRef.pick]
    split
    · rfl
    · exact ih (by omega)

/-- Checked sums that do not fit panic. -/
theorem totalWeight_checked (hacc : acc < 2 ^ 32) (h : 2 ^ 32 ≤ acc + weightSum l) : totalWeight true acc l = none := by
  induction l generalizing acc with
  | nil => exact absurd h (Nat.not_le.mpr hacc)
  | cons e rest ih =>
    rw [weightSum_cons] at h
    rw [totalWeight, u32Add]
    split
    · exact ih ‹_› (by omega)
    · rfl

/-- Unchecked sums go on with what is left of them, a remainder by two to the thirty-second. -/
theorem totalWeight_unchecked (hacc : acc < 2 ^ 32) : totalWeight false acc l = some ((acc + weightSum l) % 2 ^ 32) := by
  induction l generalizing acc with
  | nil => exact congrArg some (Nat.mod_eq_of_lt hacc).symm
  | cons e rest ih =>
    have hadd : u32Add false acc e.2 = some ((acc + e.2) % 2 ^ 32) := by
      rw [u32Add]
      split
      · rw [Nat.mod_eq_of_lt ‹_›]
      · rfl
    rw [totalWeight, hadd, Option.bind_some, ih (Nat.mod_lt _ (by decide)), weightSum_cons, Nat.mod_add_mod,
      Nat.add_assoc]

end Sums

/-- With the answers of a build and a counter the code makes the choice that is computed, or panics where that does. -/
theorem PoolRef.result_choose (pool : PoolRef) (cands : Candidates) (w : (o : Op) → Res o) :
    (pool.choose cands.first cands.list).result w =
      cands.select (w .overflowChecks : Bool) (w (.nextReplica pool.gen) : Nat) := by
  have hchecks : ∃ checks : Bool, (PoolRef.checksSums cands.list).result w = checks ∧
      cands.select checks (w (.nextReplica pool.gen) : Nat) =
        cands.select (w .overflowChecks : Bool) (w (.nextReplica pool.gen) : Nat) := by
    rw [PoolRef.checksSums]
    split
    · rename_i hfits
      have hsum : 0 + weightSum cands.list < 2 ^ 32 := (Nat.zero_add _).symm ▸ hfits
      refine ⟨false, rfl, ?_⟩
      simp only [Candidates.select, totalWeight_of_lt hsum, chosenIdx_of_lt hsum]
    · exact ⟨_, rfl, rfl⟩
  obtain ⟨checks, hasked, hsame⟩ := hchecks
  rw [← hsame, PoolRef.choose, Prog.result_bind, hasked, Candidates.select]
  cases totalWeight checks 0 cands.list with
  | none => rfl
  | some total =>
    rw [Option.bind_some]
    dsimp only
    simp only [Prog.result_bind, Prog.perform, Prog.result]
    split
    · rename_i hchosen
      rw [hchosen]
      rfl
    · rename_i hnone
      rw [hnone]
      rfl

/-! ## The base cycle -/

section Cycle

variable {acc : Nat} {l : List (Nat × Nat)}

/-- For every slot below the sum of the weights somebody is picked. -/
theorem pick_isSome {slot : Nat} (h : slot < acc + weightSum l) (hle : acc ≤ slot) :
    (PoolRef.pick slot acc l).isSome = true := by
  induction l generalizing acc with
  | nil => exact absurd h (Nat.not_lt.mpr hle)
  | cons e rest ih =>
    rw [weightSum_cons] at h
    rw [PoolRef.pick]
    split
    · rfl
    · exact ih (by omega) (by omega)

theorem mem_of_picked {slot i : Nat} (h : PoolRef.pick slot acc l = some i) : i ∈ l.map Prod.fst := by
  induction l generalizing acc with
  | nil => cases h
  | cons e rest ih =>
    rw [PoolRef.pick] at h
    split at h
    · rw [← Option.some.inj h]
      exact .head _
    · exact .tail _ (ih h)

/-- In a cycle, every candidate is picked as often as its weight says. -/
theorem count_pick (hnodup : (l.map Prod.fst).Nodup) {e : Nat × Nat} (he : e ∈ l) :
    Nat.count (fun r => PoolRef.pick (acc + r) acc l = some e.1) (weightSum l) = e.2 := by
  induction l generalizing acc with
  | nil => cases he
  | cons f rest ih =>
    obtain ⟨hfresh, hnodup⟩ := List.nodup_cons.mp hnodup
    have hhead : ∀ r < f.2, (PoolRef.pick (acc + r) acc (f :: rest) = some e.1 ↔ f.1 = e.1) := by
      intro r hr
      rw [PoolRef.pick, if_pos (by omega), Option.some_inj]
    have htail : ∀ r < weightSum rest, (PoolRef.pick (acc + (f.2 + r)) acc (f :: rest) = some e.1 ↔
        PoolRef.pick (acc + f.2 + r) (acc + f.2) rest = some e.1) := by
      intro r hr
      rw [PoolRef.pick, if_neg (by omega), Nat.add_assoc]
    rw [weightSum_cons, Nat.count_add, count_congr hhead, count_congr htail]
    rcases List.mem_cons.mp he with rfl | he
    · have hnone : ∀ r < weightSum rest, ¬PoolRef.pick (acc + e.2 + r) (acc + e.2) rest = some e.1 :=
        fun r _ hpick => hfresh (mem_of_picked hpick)
      rw [Nat.count_iff_forall_not.mpr hnone]
      simp
    · have hne : f.1 ≠ e.1 := by
        intro heq
        exact hfresh (heq ▸ List.mem_map_of_mem he)
      rw [ih hnodup he]
      simp [hne]

end Cycle

namespace Candidates

variable {cands : Candidates} {checks : Bool} {start k : Nat}

/-!
## Fair windows

Within a full cycle every slot comes once. Where neither the counter nor a sum wraps within the window, each candidate
has as many slots as its weight.
-/

/-- The first candidate and the others. -/
theorem split (cands : Candidates) : ∃ w rest, cands.list = (cands.first, w) :: rest ∧ 1 ≤ w ∧ w < 2 ^ 32 := by
  refine ⟨(cands.list.head cands.nonempty).2, cands.list.tail, (List.cons_head_tail _).symm, ?_⟩
  exact cands.weights _ (List.head_mem _)

theorem total_pos (cands : Candidates) : 0 < cands.total := by
  obtain ⟨w, rest, hlist, hw, -⟩ := cands.split
  rw [total, hlist, weightSum_cons]
  exact Nat.add_pos_left hw _

/-- Where the sum of the weights fits, the choice is the one of `PoolRef.pick`. -/
theorem select_of_lt (h : cands.total < 2 ^ 32) (index : Nat) :
    cands.select checks index = PoolRef.pick (index % cands.total) 0 cands.list := by
  have hsum : 0 + weightSum cands.list < 2 ^ 32 := by rwa [Nat.zero_add]
  have hslot : index % cands.total < 0 + weightSum cands.list := by
    rw [Nat.zero_add]
    exact Nat.mod_lt _ cands.total_pos
  obtain ⟨i, hi⟩ := Option.isSome_iff_exists.mp (pick_isSome hslot (Nat.zero_le _))
  rw [select, totalWeight_of_lt hsum, Option.bind_some, Nat.zero_add]
  change (if cands.total = 0 then none else chosenIdx checks (index % cands.total) cands.first 0 cands.list) = _
  rw [if_neg cands.total_pos.ne', chosenIdx_of_lt hsum, hi]
  rfl

/-- What is chosen depends on the counter modulo the sum of the weights only. -/
theorem exact_of_choice
    (hchoice : ∀ k < cands.total, cands.choice checks start k = PoolRef.pick ((start + k) % cands.total) 0 cands.list) :
    cands.Exact checks start := by
  refine ⟨fun k hk => ?_, fun e he => ?_⟩
  · rw [hchoice k hk]
    refine pick_isSome ?_ (Nat.zero_le _)
    rw [Nat.zero_add]
    exact Nat.mod_lt _ cands.total_pos
  · have hwindow := count_window (p := fun n => PoolRef.pick (n % cands.total) 0 cands.list = some e.1)
      cands.total (fun n => by rw [Nat.add_mod_left]) start
    calc Nat.count (fun k => cands.choice checks start k = some e.1) cands.total
        = Nat.count (fun k => PoolRef.pick ((start + k) % cands.total) 0 cands.list = some e.1) cands.total :=
          count_congr fun k hk => by rw [hchoice k hk]
      _ = Nat.count (fun n => PoolRef.pick (n % cands.total) 0 cands.list = some e.1) cands.total := hwindow
      _ = Nat.count (fun r => PoolRef.pick (0 + r) 0 cands.list = some e.1) cands.total :=
          count_congr fun r hr => by rw [Nat.mod_eq_of_lt hr, Nat.zero_add]
      _ = e.2 := count_pick cands.nodup he

/-- A window in which the counter does not wrap. -/
theorem exact_of_window (h : cands.total < 2 ^ 32) (hwindow : start + cands.total ≤ 2 ^ 64) :
    cands.Exact checks start := by
  refine exact_of_choice fun k hk => ?_
  rw [choice, select_of_lt h, Nat.mod_eq_of_lt (by omega : start + k < 2 ^ 64)]

/-- A period that the counter does not break. -/
theorem exact_of_dvd (h : cands.total < 2 ^ 32) (hdvd : cands.total ∣ 2 ^ 64) : cands.Exact checks start := by
  refine exact_of_choice fun k hk => ?_
  rw [choice, select_of_lt h, Nat.mod_mod_of_dvd _ hdvd]

/-- With one candidate there is no choice. -/
theorem exact_of_single (hsingle : cands.list.length = 1) : cands.Exact checks start := by
  obtain ⟨w, rest, hlist, hw, hsmall⟩ := cands.split
  obtain rfl : rest = [] := by
    rw [hlist] at hsingle
    exact List.eq_nil_of_length_eq_zero (Nat.succ.inj hsingle)
  have htotal : cands.total = w := by rw [total, hlist, weightSum_cons]; rfl
  have hchoice : ∀ k, cands.choice checks start k = some cands.first := by
    intro k
    rw [choice, select_of_lt (by omega), hlist, PoolRef.pick, if_pos]
    rw [Nat.zero_add, ← htotal]
    exact Nat.mod_lt _ cands.total_pos
  refine ⟨fun k _ => by rw [hchoice]; rfl, fun e he => ?_⟩
  rw [hlist, List.mem_singleton] at he
  subst he
  rw [Nat.count_of_forall fun k _ => hchoice k, htotal]

/-! ## Unfair ones -/

/-- With overflow checks, a sum that does not fit panics. -/
theorem not_exact_checked (h : 2 ^ 32 ≤ cands.total) : ¬cands.Exact true start := by
  intro hexact
  have hnone : cands.choice true start 0 = none := by
    rw [choice, select, totalWeight_checked (by decide) (by rwa [Nat.zero_add])]
    rfl
  have hsome := hexact.1 0 cands.total_pos
  rw [hnone] at hsome
  cases hsome

/-- Without them the sum wraps, and the first candidate is chosen at least as often as this. -/
theorem choice_first_unchecked {w : Nat} {rest : List (Nat × Nat)} (hlist : cands.list = (cands.first, w) :: rest)
    (hsmall : w < 2 ^ 32) (hwrapped : cands.total % 2 ^ 32 ≠ 0)
    (hslot : (start + k) % 2 ^ 64 % (cands.total % 2 ^ 32) < w) : cands.choice false start k = some cands.first := by
  have hadd : u32Add false 0 w = some w := by rw [u32Add, Nat.zero_add, if_pos hsmall]
  rw [choice, select, totalWeight_unchecked (by decide), Option.bind_some, Nat.zero_add]
  change (if cands.total % 2 ^ 32 = 0 then none
    else chosenIdx false ((start + k) % 2 ^ 64 % (cands.total % 2 ^ 32)) cands.first 0 cands.list) = _
  rw [if_neg hwrapped, hlist, chosenIdx, hadd, Option.bind_some, if_pos hslot]

theorem not_exact_unchecked (h : 2 ^ 32 ≤ cands.total) (hroom : start + 2 * (cands.total % 2 ^ 32) ≤ 2 ^ 64) :
    ¬cands.Exact false start := by
  intro hexact
  obtain ⟨w, rest, hlist, hw, hsmall⟩ := cands.split
  have hshare : Nat.count (fun k => cands.choice false start k = some cands.first) cands.total = w :=
    hexact.2 (cands.first, w) (hlist ▸ List.mem_cons_self)
  generalize hwrapped : cands.total % 2 ^ 32 = wrapped at hroom
  by_cases hzero : wrapped = 0
  · -- the remainder by zero
    have hnone : cands.choice false start 0 = none := by
      rw [choice, select, totalWeight_unchecked (by decide), Option.bind_some, Nat.zero_add]
      exact if_pos (hwrapped.trans hzero)
    have hsome := hexact.1 0 cands.total_pos
    rw [hnone] at hsome
    cases hsome
  have hfirst : ∀ k, (start + k) % 2 ^ 64 % wrapped < w → cands.choice false start k = some cands.first := by
    intro k hslot
    exact choice_first_unchecked hlist hsmall (hwrapped ▸ hzero) (hwrapped ▸ hslot)
  by_cases hall : wrapped ≤ w
  · have hcount := Nat.count_of_forall (n := cands.total) fun k _ =>
      hfirst k (Nat.lt_of_lt_of_le (Nat.mod_lt _ (Nat.pos_of_ne_zero hzero)) hall)
    omega
  · -- two rounds of what the sum wraps to are in the window
    have htwice : Nat.count (fun k => (start + k) % wrapped < w) (wrapped + wrapped) = w + w := by
      have hround : ∀ n, Nat.count (fun k => (n + k) % wrapped < w) wrapped = w := by
        intro n
        rw [count_window (p := fun n => n % wrapped < w) wrapped (fun n => by rw [Nat.add_mod_left]) n,
          count_congr (q := (· < w)) fun r hr => by rw [Nat.mod_eq_of_lt hr], count_lt]
        omega
      rw [Nat.count_add, hround, count_congr fun k _ => by rw [← Nat.add_assoc]]
      rw [hround]
    have hle : Nat.count (fun k => (start + k) % wrapped < w) (wrapped + wrapped) ≤
        Nat.count (fun k => cands.choice false start k = some cands.first) (wrapped + wrapped) := by
      refine Nat.count_mono_left fun k hk hslot => hfirst k ?_
      rwa [Nat.mod_eq_of_lt (by omega : start + k < 2 ^ 64)]
    have hmono : Nat.count (fun k => cands.choice false start k = some cands.first) (wrapped + wrapped) ≤
        Nat.count (fun k => cands.choice false start k = some cands.first) cands.total :=
      Nat.count_monotone _ (by omega)
    omega

/-- Where the sum fits, the first candidate is chosen on the first remainders. -/
theorem choice_first_iff {w : Nat} {rest : List (Nat × Nat)} (hlist : cands.list = (cands.first, w) :: rest)
    (h : cands.total < 2 ^ 32) :
    cands.choice checks start k = some cands.first ↔ (start + k) % 2 ^ 64 % cands.total < w := by
  rw [choice, select_of_lt h, hlist, PoolRef.pick, Nat.zero_add]
  split
  · rename_i hslot
    exact iff_of_true rfl hslot
  · rename_i hslot
    refine iff_of_false (fun hpick => ?_) hslot
    have hnodup := cands.nodup
    rw [hlist] at hnodup
    exact (List.nodup_cons.mp hnodup).1 (mem_of_picked hpick)

/-- Fair to the first candidate wherever it starts, the counter has to wrap at the end of a round. -/
theorem dvd_of_exact (h : cands.total < 2 ^ 32) (hexact : ∀ start < 2 ^ 64, cands.Exact checks start)
    (hlength : cands.list.length ≠ 1) : cands.total ∣ 2 ^ 64 := by
  obtain ⟨w, rest, hlist, hw, -⟩ := cands.split
  have hothers : w < cands.total := by
    rcases rest with _ | ⟨e, rest⟩
    · exact absurd (congrArg List.length hlist) hlength
    · have he := (cands.weights e (hlist ▸ .tail _ (.head _))).1
      rw [total, hlist, weightSum_cons, weightSum_cons]
      dsimp only
      omega
  generalize hW : cands.total = W at h hothers
  -- the end of the counter and the start of a round together make a window
  have hsplit : ∀ j ≤ W, Nat.count (fun k => (2 ^ 64 - j + k) % W < w) j + Nat.count (fun k => k % W < w) (W - j) = w := by
    intro j hj
    rcases Nat.eq_zero_or_pos j with rfl | hpos
    · rw [Nat.count_zero, Nat.zero_add, Nat.sub_zero, count_congr (q := (· < w)) fun r hr => by
        rw [Nat.mod_eq_of_lt hr], count_lt]
      omega
    · have hshare : Nat.count (fun k => cands.choice checks (2 ^ 64 - j) k = some cands.first) cands.total = w :=
        (hexact (2 ^ 64 - j) (by omega)).2 (cands.first, w) (hlist ▸ List.mem_cons_self)
      rw [count_congr fun k _ => choice_first_iff hlist (hW ▸ h), hW] at hshare
      have hparts := Nat.count_add (fun k => (2 ^ 64 - j + k) % 2 ^ 64 % W < w) j (W - j)
      rw [Nat.add_sub_cancel' hj, hshare] at hparts
      have hend : ∀ k < j, ((2 ^ 64 - j + k) % 2 ^ 64 % W < w ↔ (2 ^ 64 - j + k) % W < w) := by
        intro k hk
        rw [Nat.mod_eq_of_lt (by omega : 2 ^ 64 - j + k < 2 ^ 64)]
      have hbegin : ∀ k < W - j, ((2 ^ 64 - j + (j + k)) % 2 ^ 64 % W < w ↔ k % W < w) := by
        intro k hk
        rw [show 2 ^ 64 - j + (j + k) = 2 ^ 64 + k by omega, Nat.add_mod_left,
          Nat.mod_eq_of_lt (by omega : k < 2 ^ 64)]
      rw [count_congr hend, count_congr hbegin] at hparts
      exact hparts.symm
  -- so the end of the counter looks like the end of a round
  have hsame : ∀ j, j + 1 ≤ W → ((2 ^ 64 - (j + 1)) % W < w ↔ W - (j + 1) < w) := by
    intro j hj
    have hlong := hsplit (j + 1) hj
    have hshort := hsplit j (by omega)
    rw [Nat.count_succ', count_congr (q := fun k => (2 ^ 64 - j + k) % W < w) fun k _ => by
      rw [show 2 ^ 64 - (j + 1) + (k + 1) = 2 ^ 64 - j + k by omega]] at hlong
    simp only [Nat.add_zero] at hlong
    rw [show W - j = W - (j + 1) + 1 by omega, Nat.count_succ, Nat.mod_eq_of_lt (by omega : W - (j + 1) < W)] at hshort
    by_cases hleft : (2 ^ 64 - (j + 1)) % W < w <;> by_cases hright : W - (j + 1) < w <;>
      simp only [hleft, hright, if_true, if_false] at hlong hshort ⊢ <;> omega
  -- the first candidate's share ends at the same place in both
  have hlast := (hsame (W - w) (by omega)).mpr (by omega)
  have hnext := mt (hsame (W - w - 1) (by omega)).mp (by omega)
  obtain ⟨y, hy⟩ : ∃ y, y = 2 ^ 64 - (W - w + 1) := ⟨_, rfl⟩
  rw [← hy] at hlast
  rw [show 2 ^ 64 - (W - w - 1 + 1) = y + 1 by omega, ← Nat.mod_add_mod, Nat.mod_eq_of_lt (by omega)] at hnext
  have hdiv := Nat.div_add_mod y W
  refine ⟨y / W + 1, ?_⟩
  rw [Nat.mul_add, Nat.mul_one]
  omega

end Candidates

/-- **Weighted round-robin is exact**: as long as the counter does not wrap, every candidate gets its share if,
and only if, the sum of the weights is a `u32`. Across the wrap there has to be one candidate only, or the sum
has to divide the range of the counter. -/
theorem round_robin_exact_iff (checks : Bool) (cands : Candidates) :
    (∀ start, start + cands.total ≤ 2 ^ 64 → (cands.Exact checks start ↔ cands.total < 2 ^ 32)) ∧
      ((∀ start < 2 ^ 64, cands.Exact checks start) ↔
        cands.total < 2 ^ 32 ∧ (cands.list.length = 1 ∨ cands.total ∣ 2 ^ 64)) := by
  have hfits : ∀ start, start + 2 * (cands.total % 2 ^ 32) ≤ 2 ^ 64 → cands.Exact checks start →
      cands.total < 2 ^ 32 := by
    intro start hroom hexact
    by_contra hbig
    cases checks with
    | true => exact Candidates.not_exact_checked (Nat.le_of_not_lt hbig) hexact
    | false => exact Candidates.not_exact_unchecked (Nat.le_of_not_lt hbig) hroom hexact
  refine ⟨fun start hwindow => ⟨fun hexact => ?_, fun h => Candidates.exact_of_window h hwindow⟩,
    fun hexact => ?_, ?_⟩
  · by_contra hbig
    exact hbig (hfits start (by omega) hexact)
  · have h := hfits 0 (by omega) (hexact 0 (by decide))
    refine ⟨h, ?_⟩
    by_cases hlength : cands.list.length = 1
    · exact .inl hlength
    · exact .inr (Candidates.dvd_of_exact h hexact hlength)
  · rintro ⟨h, hsingle | hdvd⟩ start -
    · exact Candidates.exact_of_single hsingle
    · exact Candidates.exact_of_dvd h hdvd

/-- Two replicas whose weights add up to `2 ^ 32`. -/
def heavyPair : Candidates := ⟨[(0, 2 ^ 31), (1, 2 ^ 31)], by decide, by decide, by decide⟩

/-- The sum wraps to zero, or it panics at once. -/
theorem heavy_pair_unfair : ¬∀ (checks : Bool) (cands : Candidates) (start : Nat), start < 2 ^ 64 →
    cands.Exact checks start := by
  intro h
  have hsome := (h false heavyPair 0 (by decide)).1 0 heavyPair.total_pos
  have hnone : heavyPair.choice false 0 0 = none := by decide
  rw [hnone] at hsome
  cases hsome

end TurbineProxy
