import TurbineProxy.Rules
import Mathlib.Algebra.Order.BigOperators.Group.List
import Mathlib.Algebra.Order.Group.Nat

/-!
# Tokens over time

What the bucket of a rule is worth while one caller asks it for tokens. Every refill rounds its tokens down and moves
the reference time on, so what it rounds off is lost; calls that come often enough lose everything.

The tokens of an interval are those that its calls got and those that are left in the bucket behind them. Up to a full
bucket they are what was in it before and what the refills added (`min_tokens`), so an interval gets what the rate
promises as long as its refills lose less than two tokens together (`keepsRate_iff`).
-/

namespace TurbineProxy

/-! ## What a refill adds and loses -/

/-- The tokens a refill adds `elapsed` milliseconds after the one before. -/
def refillTokens (qpsLimit elapsed : Nat) : Nat := min (elapsed * qpsLimit % 2 ^ 64 / 1000) qpsLimit

/-- The thousandths of a token that such a refill loses: what is beyond 64 bits, and what is rounded off. -/
def refillLoss (qpsLimit elapsed : Nat) : Nat :=
  elapsed * qpsLimit / 2 ^ 64 * 2 ^ 64 + elapsed * qpsLimit % 2 ^ 64 % 1000

/-- The refill alone is worth a full bucket. -/
def fillsBucket (qpsLimit elapsed : Nat) : Prop := 1000 * qpsLimit ≤ elapsed * qpsLimit % 2 ^ 64

instance (qpsLimit elapsed : Nat) : Decidable (fillsBucket qpsLimit elapsed) := inferInstanceAs (Decidable (_ ≤ _))

section Refill

variable {qpsLimit elapsed : Nat}

/-- What the time is worth is added or lost, unless the bucket is full. -/
theorem refillTokens_add_loss (h : ¬fillsBucket qpsLimit elapsed) :
    1000 * refillTokens qpsLimit elapsed + refillLoss qpsLimit elapsed = elapsed * qpsLimit := by
  rw [fillsBucket] at h
  rw [refillTokens, refillLoss, Nat.min_eq_left (by omega)]
  omega

theorem refillTokens_of_fills (h : fillsBucket qpsLimit elapsed) : refillTokens qpsLimit elapsed = qpsLimit := by
  rw [fillsBucket] at h
  rw [refillTokens, Nat.min_eq_right (by omega)]

/-- No refill adds more than its time is worth. -/
theorem refillTokens_le : 1000 * refillTokens qpsLimit elapsed ≤ elapsed * qpsLimit := by
  have hwrapped := Nat.mod_le (elapsed * qpsLimit) (2 ^ 64)
  rw [refillTokens]
  omega

/-- In a pause that is worth less than two tokens, at most one is added. -/
theorem refillTokens_of_short (h : elapsed * qpsLimit < 2000) : refillTokens qpsLimit elapsed ≤ 1 := by
  have hle : 1000 * refillTokens qpsLimit elapsed ≤ elapsed * qpsLimit := refillTokens_le
  omega

end Refill

/-! ## One caller -/

namespace QueryRule

variable (rule : QueryRule)

/-- The tokens a call at time `nowMs` adds. -/
def credit (nowMs : Nat) : Nat := refillTokens rule.qpsLimit (nowMs - rule.tokenBucketMs)

theorem refill_tokenBucketMs {nowMs : Nat} (h : rule.tokenBucketMs ≤ nowMs) :
    (rule.refill nowMs).tokenBucketMs = nowMs := by
  rw [refill]
  dsimp only
  split
  · rfl
  · omega

theorem refill_qpsLimit (nowMs : Nat) : (rule.refill nowMs).qpsLimit = rule.qpsLimit := by
  rw [refill]
  dsimp only
  split
  · rfl
  · rfl

/-- A refill adds its tokens, up to a full bucket. -/
theorem refill_tokenBucket (h : rule.tokenBucket ≤ rule.qpsLimit) (nowMs : Nat) :
    (rule.refill nowMs).tokenBucket = min (rule.tokenBucket + rule.credit nowMs) rule.qpsLimit := by
  rw [refill, credit, refillTokens]
  dsimp only
  split
  · rfl
  · have hzero : nowMs - rule.tokenBucketMs = 0 := by omega
    rw [hzero]
    omega

/-- The bucket behind a call. -/
def called (nowMs : Nat) : QueryRule := (rule.tryConsumeToken nowMs).1

variable {rule}

theorem called_tokenBucketMs {nowMs : Nat} (hlimit : 0 < rule.qpsLimit) (h : rule.tokenBucketMs ≤ nowMs) :
    (rule.called nowMs).tokenBucketMs = nowMs := by
  rw [called, tryConsumeToken, if_neg (by omega)]
  dsimp only
  split
  · exact rule.refill_tokenBucketMs h
  · exact rule.refill_tokenBucketMs h

theorem called_qpsLimit (nowMs : Nat) : (rule.called nowMs).qpsLimit = rule.qpsLimit := by
  rw [called, tryConsumeToken]
  dsimp only
  split
  · rfl
  · split
    · exact rule.refill_qpsLimit nowMs
    · exact rule.refill_qpsLimit nowMs

variable (rule)

/-- The bucket behind calls at these times. -/
def afterCalls (ts : List Nat) : QueryRule := ts.foldl called rule

/-- How many of the calls at these times get a token. -/
def admitted : QueryRule → List Nat → Nat
  | _, [] => 0
  | rule, t :: ts => (rule.tryConsumeToken t).2.toNat + admitted (rule.called t) ts

/-- The tokens of an interval with calls at these times: those the calls got, and those that are left. -/
def tokens (ts : List Nat) : Int := rule.admitted ts + (rule.afterCalls ts).tokenBucket

/-- The bucket of a rule holds no more than the burst, and is never overdrawn. -/
def Bounded : Prop := 0 ≤ rule.tokenBucket ∧ rule.tokenBucket ≤ rule.qpsLimit

variable {rule}

/-- A call takes what it is admitted with from what the refill leaves. -/
theorem called_spec (h : rule.Bounded) (hlimit : 0 < rule.qpsLimit) (nowMs : Nat) :
    (rule.tryConsumeToken nowMs).2.toNat + (rule.called nowMs).tokenBucket =
        min (rule.tokenBucket + rule.credit nowMs) rule.qpsLimit ∧
      (rule.called nowMs).Bounded := by
  have hrefill := rule.refill_tokenBucket h.2 nowMs
  obtain ⟨hlow, hhigh⟩ := h
  rw [Bounded, called_qpsLimit, called, tryConsumeToken, if_neg (Nat.ne_of_gt hlimit)]
  dsimp only
  rw [← hrefill]
  split
  · rename_i hempty
    dsimp only
    rw [Bool.toNat_false]
    omega
  · rename_i hfull
    dsimp only
    rw [Bool.toNat_true]
    omega

theorem afterCalls_cons (t : Nat) (ts : List Nat) : rule.afterCalls (t :: ts) = (rule.called t).afterCalls ts := rfl

theorem afterCalls_qpsLimit (ts : List Nat) : (rule.afterCalls ts).qpsLimit = rule.qpsLimit := by
  induction ts generalizing rule with
  | nil => rfl
  | cons t ts ih => rw [afterCalls_cons, ih, called_qpsLimit]

theorem afterCalls_bounded (h : rule.Bounded) (hlimit : 0 < rule.qpsLimit) (ts : List Nat) :
    (rule.afterCalls ts).Bounded := by
  induction ts generalizing rule with
  | nil => exact h
  | cons t ts ih => exact ih (called_spec h hlimit t).2 (by rwa [called_qpsLimit])

/-- The times behind a call are not before it. -/
theorem afterCalls_pairwise (hlimit : 0 < rule.qpsLimit) {before ts : List Nat}
    (h : (rule.tokenBucketMs :: (before ++ ts)).Pairwise (· ≤ ·)) :
    ((rule.afterCalls before).tokenBucketMs :: ts).Pairwise (· ≤ ·) := by
  induction before generalizing rule with
  | nil => exact h
  | cons t before ih =>
    obtain ⟨hfirst, hrest⟩ := List.pairwise_cons.mp h
    rw [← called_tokenBucketMs hlimit (hfirst t List.mem_cons_self)] at hrest
    exact ih (by rwa [called_qpsLimit]) hrest

end QueryRule

/-!
## An interval of calls

Behind any calls before it an interval is worth its length times the rate. What the refills round off in it decides
whether the promise is kept.
-/

/-- The times between calls, and before the first of them since `last`. -/
def pauses : Nat → List Nat → List Nat
  | _, [] => []
  | last, t :: ts => (t - last) :: pauses t ts

/-- The pauses of an interval make up its length. -/
theorem sum_pauses {last : Nat} {ts : List Nat} (h : (last :: ts).Pairwise (· ≤ ·)) :
    (pauses last ts).sum + last = ts.getLastD last := by
  induction ts generalizing last with
  | nil => exact Nat.zero_add last
  | cons t ts ih =>
    have hle : last ≤ t := (List.pairwise_cons.mp h).1 t List.mem_cons_self
    have hrest := ih (List.pairwise_cons.mp h).2
    rw [pauses, List.sum_cons, List.getLastD_cons, ← hrest]
    omega

namespace QueryRule

variable {rule : QueryRule}

/-- **The tokens of an interval**, up to a full bucket: those before it, and what its refills add. -/
theorem min_tokens (hlimit : 0 < rule.qpsLimit) (hbounded : rule.Bounded) {ts : List Nat}
    (h : (rule.tokenBucketMs :: ts).Pairwise (· ≤ ·)) :
    min (rule.qpsLimit : Int) (rule.tokens ts) = min (rule.qpsLimit : Int) (rule.tokenBucket +
      (((pauses rule.tokenBucketMs ts).map (refillTokens rule.qpsLimit)).sum : Nat)) := by
  induction ts generalizing rule with
  | nil => rw [tokens, admitted, afterCalls, List.foldl_nil, pauses, List.map_nil, List.sum_nil, add_comm]
  | cons t ts ih =>
    obtain ⟨hfirst, hts⟩ := List.pairwise_cons.mp h
    have hms := called_tokenBucketMs hlimit (hfirst t List.mem_cons_self)
    have hq : (rule.called t).qpsLimit = rule.qpsLimit := called_qpsLimit t
    obtain ⟨hcall, hcalled⟩ := called_spec hbounded hlimit t
    have hrest := ih (by rwa [hq]) hcalled (by rwa [hms])
    rw [hms, hq, tokens] at hrest
    rw [credit] at hcall
    rw [tokens, admitted, afterCalls_cons, pauses, List.map_cons, List.sum_cons]
    -- nothing is cut off behind this call, or the bucket was full since
    omega

/-- Where no pause is worth two tokens, the bucket does not fill up: what it gets is admitted. -/
theorem afterCalls_le (hlimit : 0 < rule.qpsLimit) (hbounded : rule.Bounded) {ts : List Nat}
    (h : (rule.tokenBucketMs :: ts).Pairwise (· ≤ ·))
    (hdense : ∀ e ∈ pauses rule.tokenBucketMs ts, e * rule.qpsLimit < 2000) :
    (rule.afterCalls ts).tokenBucket ≤ rule.tokenBucket := by
  induction ts generalizing rule with
  | nil => exact Int.le_refl _
  | cons t ts ih =>
    obtain ⟨hfirst, hts⟩ := List.pairwise_cons.mp h
    have hms := called_tokenBucketMs hlimit (hfirst t List.mem_cons_self)
    have hq : (rule.called t).qpsLimit = rule.qpsLimit := called_qpsLimit t
    obtain ⟨hcall, hcalled⟩ := called_spec hbounded hlimit t
    have hrest := ih (by rwa [hq]) hcalled (by rwa [hms]) fun e he => by
      rw [hq]
      exact hdense e (List.mem_cons_of_mem _ (hms ▸ he))
    have hone : rule.credit t ≤ 1 := refillTokens_of_short (hdense _ List.mem_cons_self)
    rw [afterCalls_cons]
    refine Int.le_trans hrest ?_
    have hlow := hbounded.1
    by_cases hempty : (rule.tryConsumeToken t).2 = true
    · rw [hempty, Bool.toNat_true] at hcall
      omega
    · -- a call that gets nothing finds nothing, so there was nothing
      have hnone : (rule.refill t).tokenBucket ≤ 0 := by
        rw [tryConsumeToken_snd] at hempty
        simpa [exhausted, Nat.ne_of_gt hlimit] using hempty
      rw [rule.refill_tokenBucket hbounded.2] at hnone
      rw [Bool.not_eq_true] at hempty
      rw [hempty, Bool.toNat_false] at hcall
      omega

/-- What the losses of an interval without a full refill leave of its worth. -/
theorem sum_refillTokens {q : Nat} {es : List Nat} (h : ∀ e ∈ es, ¬fillsBucket q e) :
    1000 * (es.map (refillTokens q)).sum + (es.map (refillLoss q)).sum = es.sum * q := by
  induction es with
  | nil => exact (Nat.zero_mul q).symm
  | cons e es ih =>
    have hfirst := refillTokens_add_loss (h e List.mem_cons_self)
    have hrest := ih fun e' he' => h e' (List.mem_cons_of_mem e he')
    rw [List.map_cons, List.map_cons, List.sum_cons, List.sum_cons, List.sum_cons, Nat.add_mul]
    omega

/-- What the rate promises from the last refill to the last of these calls: what the time is worth, less one. -/
def promised (rule : QueryRule) (ts : List Nat) : Nat :=
  (ts.getLastD rule.tokenBucketMs - rule.tokenBucketMs) * rule.qpsLimit / 1000 - 1

/-- The tokens of an interval are those that were there and what the rate promises, or a full bucket at least. -/
def KeepsRate (rule : QueryRule) (ts : List Nat) : Prop :=
  min (rule.qpsLimit : Int) (rule.tokenBucket + rule.promised ts) ≤ rule.tokens ts

/-- The thousandths of a token the calls of an interval lose. -/
def loss (rule : QueryRule) (ts : List Nat) : Nat :=
  ((pauses rule.tokenBucketMs ts).map (refillLoss rule.qpsLimit)).sum

/-- The calls lose less than two tokens, or no more than the interval is worth beyond what the bucket lacks, unless one
of their refills alone is worth a full bucket. -/
def LosesLittle (rule : QueryRule) (ts : List Nat) : Prop :=
  (∃ e ∈ pauses rule.tokenBucketMs ts, fillsBucket rule.qpsLimit e) ∨ rule.loss ts < 2000 ∨
    rule.loss ts + 1000 * (rule.qpsLimit - rule.tokenBucket) ≤
      ((ts.getLastD rule.tokenBucketMs - rule.tokenBucketMs) * rule.qpsLimit : Nat)

/-- The same, from any bucket. -/
theorem keepsRate_of_bounded (hlimit : 0 < rule.qpsLimit) (hbounded : rule.Bounded) {ts : List Nat}
    (h : (rule.tokenBucketMs :: ts).Pairwise (· ≤ ·)) : rule.KeepsRate ts ↔ rule.LosesLittle ts := by
  have htokens := min_tokens hlimit hbounded h
  obtain ⟨hlow, hhigh⟩ := hbounded
  rw [KeepsRate, LosesLittle, promised]
  by_cases hfull : ∃ e ∈ pauses rule.tokenBucketMs ts, fillsBucket rule.qpsLimit e
  · obtain ⟨e, he, hfills⟩ := hfull
    refine iff_of_true ?_ (.inl ⟨e, he, hfills⟩)
    have hle := List.single_le_sum (fun _ _ => Nat.zero_le _) _
      (List.mem_map_of_mem (f := refillTokens rule.qpsLimit) he)
    rw [refillTokens_of_fills hfills] at hle
    omega
  · -- every thousandth of a token is added or lost
    have hpartial : ∀ e ∈ pauses rule.tokenBucketMs ts, ¬fillsBucket rule.qpsLimit e :=
      fun e he hfills => hfull ⟨e, he, hfills⟩
    have hsum := sum_refillTokens hpartial
    have hpauses := sum_pauses h
    have hworth : (ts.getLastD rule.tokenBucketMs - rule.tokenBucketMs) * rule.qpsLimit =
        (pauses rule.tokenBucketMs ts).sum * rule.qpsLimit := by
      rw [← hpauses, Nat.add_sub_cancel]
    rw [hworth, loss, ← hsum, or_iff_right hfull]
    omega

/-- **The rate limit does not starve** a caller over an interval if, and only if, the refills in it lose little. If no
pause is worth two tokens, what it is due is admitted in the interval. -/
theorem keepsRate_iff (hlimit : 0 < rule.qpsLimit) (hfull : rule.tokenBucket = rule.qpsLimit)
    (hnew : rule.tokenBucketMs = 0) {before ts : List Nat} (h : (before ++ ts).Pairwise (· ≤ ·)) :
    ((rule.afterCalls before).KeepsRate ts ↔ (rule.afterCalls before).LosesLittle ts) ∧
      ((rule.afterCalls before).LosesLittle ts →
        (∀ e ∈ pauses (rule.afterCalls before).tokenBucketMs ts, e * rule.qpsLimit < 2000) →
        min (rule.qpsLimit - (rule.afterCalls before).tokenBucket) ((rule.afterCalls before).promised ts) ≤
          (rule.afterCalls before).admitted ts) := by
  have hbounded : (rule.afterCalls before).Bounded :=
    afterCalls_bounded ⟨hfull ▸ Int.natCast_nonneg _, Int.le_of_eq hfull⟩ hlimit before
  have hsorted : ((rule.afterCalls before).tokenBucketMs :: ts).Pairwise (· ≤ ·) :=
    afterCalls_pairwise hlimit (List.pairwise_cons.mpr ⟨fun _ _ => hnew ▸ Nat.zero_le _, h⟩)
  have hq : (rule.afterCalls before).qpsLimit = rule.qpsLimit := afterCalls_qpsLimit before
  have hiff := keepsRate_of_bounded (hq ▸ hlimit) hbounded hsorted
  refine ⟨hiff, fun hlittle hdense => ?_⟩
  have hkeeps := hiff.mpr hlittle
  have hle := afterCalls_le (hq ▸ hlimit) hbounded hsorted (hq ▸ hdense)
  rw [KeepsRate, tokens, hq] at hkeeps
  omega

/-- A rule for at most 999 queries a second, as it is made. -/
def atMost999 : QueryRule where
  pattern := none
  digest := some "SELECT ?".toList
  user := []
  schema := []
  destination := .replica
  cacheTtlSecs := 0
  mirrorTo := none
  rolloutPct := 0
  dryRun := false
  fastForward := false
  qpsLimit := 999
  tokenBucket := 999
  tokenBucketMs := 0
  hitCount := 0

/-- A rule for 500 queries a second. -/
def atMost500 : QueryRule := { atMost999 with qpsLimit := 500, tokenBucket := 500 }

/-- Pauses of two and three milliseconds at 500 queries a second lose one token and a half. -/
theorem keepsRate_500 :
    (atMost500.afterCalls (List.replicate 500 1700000000000)).KeepsRate
      [1700000000002, 1700000000005, 1700000000007, 1700000000010] ∧
    3 ≤ (atMost500.afterCalls (List.replicate 500 1700000000000)).admitted
      [1700000000002, 1700000000005, 1700000000007, 1700000000010] := by
  have hsorted : (List.replicate 500 1700000000000 ++
      [1700000000002, 1700000000005, 1700000000007, 1700000000010]).Pairwise (· ≤ ·) := by decide +kernel
  obtain ⟨hiff, hadmits⟩ := @keepsRate_iff atMost500 (by decide) rfl rfl _ _ hsorted
  have hlittle : (atMost500.afterCalls (List.replicate 500 1700000000000)).LosesLittle
      [1700000000002, 1700000000005, 1700000000007, 1700000000010] := .inr (.inl (by decide +kernel))
  refine ⟨hiff.mpr hlittle, ?_⟩
  have hdue := hadmits hlittle (by decide +kernel)
  have hthree : min ((500 : Int) - (atMost500.afterCalls (List.replicate 500 1700000000000)).tokenBucket)
      ((atMost500.afterCalls (List.replicate 500 1700000000000)).promised
        [1700000000002, 1700000000005, 1700000000007, 1700000000010]) = 4 := by decide +kernel
  have hfour := hthree ▸ hdue
  omega

/-- The rule when a client has used up its first second's worth. -/
def usedUp : QueryRule := atMost999.afterCalls (List.replicate 999 1700000000000)

theorem usedUp_bounded : usedUp.Bounded :=
  afterCalls_bounded ⟨by decide, by decide⟩ (by decide) _

/-- A client that calls every millisecond gets nothing for a second, where 998 tokens are promised. -/
theorem not_keepsRate_usedUp : ¬usedUp.KeepsRate (List.range' 1700000000001 1000) ∧
    usedUp.admitted (List.range' 1700000000001 1000) = 0 := by
  refine ⟨fun hkeeps => ?_, by decide +kernel⟩
  have hlimit : usedUp.qpsLimit = 999 := by decide +kernel
  have hms : usedUp.tokenBucketMs = 1700000000000 := by decide +kernel
  have hempty : usedUp.tokenBucket = 0 := by decide +kernel
  have hsorted : (usedUp.tokenBucketMs :: List.range' 1700000000001 1000).Pairwise (· ≤ ·) := by
    refine List.pairwise_cons.mpr ⟨fun t ht => ?_, List.pairwise_le_range' 1⟩
    have hlater := (List.mem_range'_1.mp ht).1
    omega
  -- every pause loses 999 thousandths
  have hlittle := (keepsRate_of_bounded (hlimit ▸ by decide) usedUp_bounded hsorted).mp hkeeps
  rw [LosesLittle, loss, hlimit, hms, hempty] at hlittle
  exact absurd hlittle (by decide +kernel)

end QueryRule

end TurbineProxy
