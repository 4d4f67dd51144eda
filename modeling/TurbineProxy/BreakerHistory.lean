import Mathlib.Data.List.Infix
import Mathlib.Data.List.Induction
import TurbineProxy.Breaker

/-!
# What a breaker makes of its history

A breaker that is called by one request at a time, at times that do not run backwards. Its state is a
function of the calls so far: while it is closed, the counter is the number of failures since the last
success (`History.failures`), and it opens when the last `threshold` outcomes are failures (`HistorySafe`).
-/

namespace TurbineProxy

/-- A call of a breaker. -/
inductive BreakerCall : Type where
  /-- `allows` -/
  | allows
  /-- `record_success` -/
  | recordSuccess
  /-- `record_failure` -/
  | recordFailure
  deriving DecidableEq

/-- Calls and when they were made, the last one at the end. -/
abbrev History : Type := List (BreakerCall × Nat)

namespace History

/-- The outcomes that were recorded. -/
def outcomes (calls : History) : List BreakerCall := (calls.map Prod.fst).filter (· ≠ .allows)

/-- The failures since the last success. -/
def failures (calls : History) : Nat := (calls.outcomes.reverse.takeWhile (· = .recordFailure)).length

/-- The last `n` outcomes are all failures. -/
def AllFailed (calls : History) (n : Nat) : Prop := List.replicate n .recordFailure <:+ calls.outcomes

variable {calls : History} {t : Nat}

@[simp] theorem failures_allows : failures (calls ++ [(.allows, t)]) = calls.failures := by
  simp [failures, outcomes]

@[simp] theorem failures_success : failures (calls ++ [(.recordSuccess, t)]) = 0 := by
  simp [failures, outcomes]

@[simp] theorem failures_failure : failures (calls ++ [(.recordFailure, t)]) = calls.failures + 1 := by
  simp [failures, outcomes]

/-- As many failures as that stand at the end. -/
theorem allFailed_iff {n : Nat} : calls.AllFailed n ↔ n ≤ calls.failures := by
  unfold AllFailed failures
  rw [← List.reverse_prefix, List.reverse_replicate]
  induction calls.outcomes.reverse generalizing n with
  | nil => cases n <;> simp
  | cons c rest ih =>
    cases n with
    | zero => simp
    | succ n =>
      rw [List.replicate_succ, List.cons_prefix_cons, List.takeWhile_cons, ih]
      by_cases hc : c = .recordFailure
      · simp [hc]
      · simp [hc, Ne.symm hc]

end History

namespace CircuitBreaker

/-- A call at time `t`: the breaker after it, and what `allows` returns. -/
def call (breaker : CircuitBreaker) (c : BreakerCall) (t : Nat) : CircuitBreaker × Option Bool :=
  match c with
  | .allows => ((breaker.allows t).1, some (breaker.allows t).2)
  | .recordSuccess => (breaker.recordSuccess, none)
  | .recordFailure => (breaker.recordFailure t, none)

/-- A breaker after the calls of a history. -/
def after (breaker : CircuitBreaker) (calls : History) : CircuitBreaker :=
  calls.foldl (fun breaker c => (breaker.call c.1 c.2).1) breaker

variable {breaker : CircuitBreaker} {calls : History} {c : BreakerCall} {t : Nat}

theorem after_append (calls' : History) : breaker.after (calls ++ calls') = (breaker.after calls).after calls' :=
  List.foldl_append ..

theorem after_snoc : breaker.after (calls ++ [(c, t)]) = ((breaker.after calls).call c t).1 := by
  rw [after_append]
  rfl

/-- No call changes how a breaker is configured. -/
theorem call_config : (breaker.call c t).1.threshold = breaker.threshold ∧
    (breaker.call c t).1.recoveryMs = breaker.recoveryMs := by
  cases c with
  | allows =>
    unfold call allows
    dsimp only
    split
    · exact ⟨rfl, rfl⟩
    · exact ⟨rfl, rfl⟩
    · split <;> exact ⟨rfl, rfl⟩
  | recordSuccess => exact ⟨rfl, rfl⟩
  | recordFailure =>
    unfold call recordFailure
    dsimp only
    split
    · split <;> exact ⟨rfl, rfl⟩
    · exact ⟨rfl, rfl⟩
    · exact ⟨rfl, rfl⟩

theorem after_config : (breaker.after calls).threshold = breaker.threshold ∧
    (breaker.after calls).recoveryMs = breaker.recoveryMs := by
  induction calls using List.reverseRecOn with
  | nil => exact ⟨rfl, rfl⟩
  | append_singleton calls c ih =>
    rw [after_snoc, call_config.1, call_config.2]
    exact ih

/-! ## While it is closed -/

/-- The counter is the number of failures since the last success, and it is below the threshold. -/
def Counts (breaker : CircuitBreaker) (calls : History) : Prop :=
  breaker.state = .closed → breaker.consecutiveErrors = calls.failures ∧ calls.failures < breaker.threshold

/-- What a call does to a closed breaker. -/
theorem Counts.call (h : breaker.Counts calls) (hpos : 1 ≤ breaker.threshold) (hsmall : breaker.threshold < 2 ^ 32) :
    (breaker.call c t).1.Counts (calls ++ [(c, t)]) := by
  intro hclosed
  rw [call_config.1]
  cases c with
  | allows =>
    have hsame : (breaker.call .allows t).1 = breaker := by
      unfold CircuitBreaker.call allows at hclosed ⊢
      dsimp only at hclosed ⊢
      split at hclosed
      · rfl
      · rfl
      · split at hclosed
        · cases hclosed
        · rename_i hopen _
          cases hopen.symm.trans hclosed
    rw [hsame] at hclosed ⊢
    rw [History.failures_allows]
    exact h hclosed
  | recordSuccess =>
    rw [History.failures_success]
    exact ⟨rfl, hpos⟩
  | recordFailure =>
    unfold CircuitBreaker.call recordFailure at hclosed ⊢
    dsimp only at hclosed ⊢
    rw [History.failures_failure]
    cases hstate : breaker.state <;> rw [hstate] at hclosed <;> dsimp only at hclosed ⊢
    · obtain ⟨hcount, hlt⟩ := h hstate
      split at hclosed
      · cases hclosed
      · rename_i hbelow
        have herrors : u32Succ breaker.consecutiveErrors = calls.failures + 1 := by
          rw [u32Succ, hcount, Nat.mod_eq_of_lt (by omega)]
        rw [if_neg hbelow]
        rw [herrors] at hbelow ⊢
        exact ⟨rfl, Nat.lt_of_not_le hbelow⟩
    · cases hclosed
    · cases hstate.symm.trans hclosed

/-- **Opening**: a closed breaker opens when the failures since the last success reach the threshold. -/
theorem Counts.opens (h : breaker.Counts calls) (hpos : 1 ≤ breaker.threshold) (hsmall : breaker.threshold < 2 ^ 32)
    (hclosed : breaker.state = .closed) :
    (breaker.call c t).1.state = .open ↔ breaker.threshold ≤ History.failures (calls ++ [(c, t)]) := by
  obtain ⟨hcount, hlt⟩ := h hclosed
  cases c with
  | allows =>
    rw [History.failures_allows]
    unfold CircuitBreaker.call allows
    rw [hclosed]
    dsimp only
    rw [hclosed]
    exact iff_of_false nofun (Nat.not_le.mpr hlt)
  | recordSuccess =>
    rw [History.failures_success]
    exact iff_of_false nofun (by omega)
  | recordFailure =>
    rw [History.failures_failure]
    unfold CircuitBreaker.call recordFailure
    rw [hclosed]
    dsimp only
    rw [u32Succ, hcount, Nat.mod_eq_of_lt (by omega)]
    split
    · rename_i hreached
      exact iff_of_true rfl hreached
    · rename_i hbelow
      exact iff_of_false nofun hbelow

/-! ## While it is open -/

/-- The breaker is open, and the time it keeps is `t₀`. -/
def OpenSince (breaker : CircuitBreaker) (t₀ : Nat) : Prop := breaker.state = .open ∧ breaker.openedAt = t₀

/-- A call that opens a breaker notes the time. -/
theorem openSince_of_opened (hbefore : breaker.state ≠ .open) (hafter : (breaker.call c t).1.state = .open) :
    (breaker.call c t).1.OpenSince t := by
  refine ⟨hafter, ?_⟩
  cases c with
  | allows =>
    unfold call allows at hafter
    dsimp only at hafter
    split at hafter
    · exact absurd hafter hbefore
    · exact absurd hafter hbefore
    · rename_i hopen
      exact absurd hopen hbefore
  | recordSuccess => cases hafter
  | recordFailure =>
    unfold call recordFailure at hafter ⊢
    dsimp only at hafter ⊢
    cases hstate : breaker.state <;> rw [hstate] at hafter <;> dsimp only at hafter ⊢
    · split at hafter
      · rename_i hreached
        rw [if_pos hreached]
        rfl
      · cases hafter
    · rfl
    · exact absurd hstate hbefore

/-- Before the recovery time is over, `allows` says no. -/
theorem OpenSince.allows {t₀ : Nat} (h : breaker.OpenSince t₀) (hle : t₀ ≤ t) (hlt : t < t₀ + breaker.recoveryMs) :
    breaker.allows t = (breaker, false) := by
  rw [CircuitBreaker.allows]
  rw [h.1]
  dsimp only
  rw [if_neg (by rw [h.2]; omega)]

/-- And nothing but a success changes anything. -/
theorem OpenSince.call {t₀ : Nat} (h : breaker.OpenSince t₀) (hle : t₀ ≤ t) (hlt : t < t₀ + breaker.recoveryMs)
    (hc : c ≠ .recordSuccess) : (breaker.call c t).1 = breaker := by
  cases c with
  | allows => rw [CircuitBreaker.call, h.allows hle hlt]
  | recordSuccess => exact absurd rfl hc
  | recordFailure =>
    unfold CircuitBreaker.call recordFailure
    dsimp only
    rw [h.1]

theorem OpenSince.after {t₀ : Nat} (h : breaker.OpenSince t₀) (hcalls : ∀ e ∈ calls, e.1 ≠ .recordSuccess ∧
    t₀ ≤ e.2 ∧ e.2 < t₀ + breaker.recoveryMs) : breaker.after calls = breaker := by
  induction calls with
  | nil => rfl
  | cons e calls ih =>
    obtain ⟨hsuccess, hle, hlt⟩ := hcalls e (.head _)
    change ((breaker.call e.1 e.2).1).after calls = breaker
    rw [h.call hle hlt hsuccess]
    exact ih fun e' he' => hcalls e' (.tail _ he')

end CircuitBreaker

/-! ## Every history -/

/-- A breaker keeps to its history. -/
structure HistorySafe (threshold recoveryMs : Nat) (calls : History) : Prop where
  /-- closed: the counter is the number of failures since the last success, which is below the threshold -/
  counted : ((CircuitBreaker.new threshold recoveryMs).after calls).state = .closed →
    ((CircuitBreaker.new threshold recoveryMs).after calls).consecutiveErrors = calls.failures ∧
      calls.failures < threshold
  /-- the next call opens it exactly if the last `threshold` outcomes are failures then -/
  opens : ∀ c t, ((CircuitBreaker.new threshold recoveryMs).after calls).state = .closed →
    (((CircuitBreaker.new threshold recoveryMs).after (calls ++ [(c, t)])).state = .open ↔
      History.AllFailed (calls ++ [(c, t)]) threshold)
  /-- from the call that opened it on, nothing is let through until the recovery time is over or a success is
  recorded -/
  shut : ∀ earlier c t₀ later t, calls = earlier ++ (c, t₀) :: later →
    ((CircuitBreaker.new threshold recoveryMs).after earlier).state ≠ .open →
    ((CircuitBreaker.new threshold recoveryMs).after (earlier ++ [(c, t₀)])).state = .open →
    (∀ e ∈ later, e.1 ≠ .recordSuccess) → (∀ e ∈ calls, e.2 ≤ t) → t < t₀ + recoveryMs →
    (((CircuitBreaker.new threshold recoveryMs).after calls).allows t).2 = false

theorem CircuitBreaker.counts_after {threshold : Nat} (hpos : 1 ≤ threshold) (hsmall : threshold < 2 ^ 32)
    (recoveryMs : Nat) (calls : History) : ((new threshold recoveryMs).after calls).Counts calls := by
  induction calls using List.reverseRecOn with
  | nil => exact fun _ => ⟨rfl, hpos⟩
  | append_singleton calls c ih =>
    rw [after_snoc]
    refine ih.call ?_ ?_ <;> rw [after_config.1]
    · exact hpos
    · exact hsmall

/-- **A breaker keeps to its history**, whatever is called at times that do not run backwards. -/
theorem breaker_keeps_history {threshold recoveryMs : Nat} (hpos : 1 ≤ threshold) (hsmall : threshold < 2 ^ 32)
    {calls : History} (hsorted : (calls.map Prod.snd).Pairwise (· ≤ ·)) : HistorySafe threshold recoveryMs calls := by
  have hcounts := CircuitBreaker.counts_after hpos hsmall recoveryMs calls
  have hthreshold : ((CircuitBreaker.new threshold recoveryMs).after calls).threshold = threshold :=
    CircuitBreaker.after_config.1
  refine ⟨fun hclosed => ?_, fun c t hclosed => ?_, fun earlier c t₀ later t hsplit hbefore hopen hlater hle hlt => ?_⟩
  · have hcounted := hcounts hclosed
    rwa [hthreshold] at hcounted
  · rw [CircuitBreaker.after_snoc, hcounts.opens ?_ ?_ hclosed, hthreshold, History.allFailed_iff]
    · rwa [hthreshold]
    · rwa [hthreshold]
  · rw [CircuitBreaker.after_snoc] at hopen
    have hsince := CircuitBreaker.openSince_of_opened hbefore hopen
    have hrecovery : (((CircuitBreaker.new threshold recoveryMs).after earlier).call c t₀).1.recoveryMs = recoveryMs :=
      CircuitBreaker.call_config.2.trans CircuitBreaker.after_config.2
    -- what is called later is called between the opening and `t`
    have hafter : ∀ e ∈ later, t₀ ≤ e.2 := by
      intro e he
      rw [hsplit, List.map_append, List.pairwise_append] at hsorted
      exact (List.pairwise_cons.mp hsorted.2.1).1 e.2 (List.mem_map_of_mem he)
    have hbetween : ∀ e ∈ later, e.1 ≠ .recordSuccess ∧ t₀ ≤ e.2 ∧
        e.2 < t₀ + (((CircuitBreaker.new threshold recoveryMs).after earlier).call c t₀).1.recoveryMs := by
      intro e he
      have hmem : e ∈ calls := hsplit ▸ List.mem_append_right _ (.tail _ he)
      rw [hrecovery]
      exact ⟨hlater e he, hafter e he, Nat.lt_of_le_of_lt (hle e hmem) hlt⟩
    have hnow : t₀ ≤ t := hle (c, t₀) (hsplit ▸ List.mem_append_right _ (.head _))
    have hstill : (CircuitBreaker.new threshold recoveryMs).after calls =
        (((CircuitBreaker.new threshold recoveryMs).after earlier).call c t₀).1 := by
      rw [hsplit, CircuitBreaker.after_append]
      exact hsince.after hbetween
    rw [hstill, hsince.allows hnow (by rwa [hrecovery])]

/-- Two failures in a row. -/
def twoFailures : History := [(.recordFailure, 3), (.recordSuccess, 4), (.recordFailure, 5), (.allows, 6), (.recordFailure, 7)]

/-- They open a breaker with the threshold 2. -/
theorem breaker_keeps_history_twoFailures : HistorySafe 2 10 twoFailures ∧
    ((CircuitBreaker.new 2 10).after twoFailures).OpenSince 7 :=
  ⟨breaker_keeps_history (by decide) (by decide) (by decide), rfl, rfl⟩

end TurbineProxy
