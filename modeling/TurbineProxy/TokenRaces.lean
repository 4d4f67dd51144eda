import TurbineProxy.Threads
import TurbineProxy.TokenBucket
import Mathlib.Data.Finset.Card

/-!
# One bucket, many callers

`try_consume_token` once more, access by access: a call is a program over the two atomics of the bucket, and any number
of calls run in any interleaving. Left alone, a call does what `Rules.lean` says it does (`runWith_tryConsumeToken`).

A refill is three accesses, and a call that is refused takes its token back only afterwards, so calls that overlap can
be admitted beyond the limit (`overlap_admits`). Runs in which nobody takes a token during a refill, or after the refill
for another time, and no refill begins while a refused token is still out, stay within it (`admitted_within`).
-/

namespace TurbineProxy

/-! ## The accesses -/

/-- An access to one of the atomics. -/
inductive TokenAccess : Type where
  /-- `token_bucket_ms.load` -/
  | loadMs
  /-- `token_bucket_ms.compare_exchange` -/
  | casMs (lastMs nowMs : Nat)
  /-- `token_bucket.load` -/
  | loadTokens
  /-- `token_bucket.store` -/
  | storeTokens (tokens : Int)
  /-- `token_bucket.fetch_sub(1)`; the time of the call is for the record -/
  | fetchSub (nowMs : Nat)
  /-- `token_bucket.fetch_add(1)` -/
  | fetchAdd

/-- The answers. -/
abbrev TokenAccess.Res : TokenAccess → Type
  | .loadMs => Nat
  | .casMs .. => Bool
  | .loadTokens | .fetchSub _ | .fetchAdd => Int
  | .storeTokens _ => Unit

/-- A call. -/
abbrev TokenTask : Type → Type := Prog TokenAccess TokenAccess.Res

namespace TokenTask

/-- Perform one atomic access to the bucket and go on with what it returns. -/
abbrev access (o : TokenAccess) : TokenTask o.Res := Prog.perform o

/-- The refill of a call. -/
def refill (qpsLimit nowMs : Nat) : TokenTask Unit := do
  let lastMs : Nat ← access .loadMs
  let elapsed := nowMs - lastMs
  if 1 ≤ elapsed then do
    let won : Bool ← access (.casMs lastMs nowMs)
    if won then do
      let current : Int ← access .loadTokens
      access (.storeTokens (min (current + refillTokens qpsLimit elapsed) qpsLimit))
    else pure ()
  else pure ()

/-- What a call does after the refill. -/
def take (nowMs : Nat) : TokenTask Bool := do
  let remaining : Int ← access (.fetchSub nowMs)
  if remaining ≤ 0 then do
    let _ : Int ← access .fetchAdd
    pure false
  else pure true

/-- `CompiledRule::try_consume_token`, at the time `nowMs` -/
def tryConsumeToken (qpsLimit nowMs : Nat) : TokenTask Bool :=
  if qpsLimit = 0 then pure true
  else do
    refill qpsLimit nowMs
    take nowMs

end TokenTask

/-! ## The bucket -/

/-- A refill between its `compare_exchange` and its `store`. -/
structure OpenRefill where
  /-- the call that does it -/
  owner : Nat
  /-- the time it is for -/
  elapsed : Nat
  /-- the tokens it has found -/
  found : Option Int
  deriving DecidableEq

/-- The two atomics, and a record of what the calls have done with them. -/
structure SharedBucket where
  /-- `token_bucket` -/
  tokens : Int
  /-- `token_bucket_ms` -/
  ms : Nat
  /-- the refill that is under way -/
  refill : Option OpenRefill
  /-- the calls that were refused and have not given back what they took -/
  refused : Finset Nat
  /-- the times of the calls that were admitted -/
  admitted : List Nat
  /-- the products `elapsed * qps_limit` -/
  products : List Nat

namespace SharedBucket

variable (qpsLimit i : Nat) (w : SharedBucket)

/-- One access by call `i`. -/
def access : (o : TokenAccess) → SharedBucket × o.Res
  | .loadMs => (w, w.ms)
  | .casMs lastMs nowMs =>
    if w.ms = lastMs then
      ({ w with
          ms := nowMs
          refill := some ⟨i, nowMs - lastMs, none⟩
          products := (nowMs - lastMs) * qpsLimit :: w.products }, true)
    else (w, false)
  | .loadTokens =>
    ({ w with refill := w.refill.map fun r => if r.owner = i then { r with found := some w.tokens } else r }, w.tokens)
  | .storeTokens tokens => ({ w with tokens, refill := w.refill.filter (·.owner ≠ i) }, ())
  | .fetchSub nowMs =>
    if 0 < w.tokens then ({ w with tokens := w.tokens - 1, admitted := nowMs :: w.admitted }, w.tokens)
    else ({ w with tokens := w.tokens - 1, refused := insert i w.refused }, w.tokens)
  | .fetchAdd => ({ w with tokens := w.tokens + 1, refused := w.refused.erase i }, w.tokens)

/-- The bucket of a rule, as it is made. -/
def full : SharedBucket := ⟨qpsLimit, 0, none, ∅, [], []⟩

/-- How many calls were admitted with times from `t` to `t + d`. -/
def admittedIn (t d : Nat) : Nat := w.admitted.countP fun a => t ≤ a && a ≤ t + d

end SharedBucket

/-- The atomics of a rule. -/
def QueryRule.shared (rule : QueryRule) : SharedBucket := ⟨rule.tokenBucket, rule.tokenBucketMs, none, ∅, [], []⟩

section Alone

variable (qpsLimit i nowMs : Nat) (w : SharedBucket)

/-- Left alone, a refill is that of `Rules.lean`. -/
theorem runWith_refill (rule : QueryRule) :
    let w := ((TokenTask.refill rule.qpsLimit nowMs).runWith (SharedBucket.access rule.qpsLimit i) rule.shared).1
    w.tokens = (rule.refill nowMs).tokenBucket ∧ w.ms = (rule.refill nowMs).tokenBucketMs := by
  rw [TokenTask.refill, QueryRule.refill, Prog.runWith_bind, Prog.runWith_perform, SharedBucket.access]
  by_cases hpassed : 1 ≤ nowMs - rule.tokenBucketMs
  · simp [hpassed, SharedBucket.access, QueryRule.shared, refillTokens]
  · simp [hpassed, QueryRule.shared]

/-- Left alone, a call takes a token if there is one. -/
theorem runWith_take :
    let r := (TokenTask.take nowMs).runWith (SharedBucket.access qpsLimit i) w
    r.1.tokens = (if w.tokens ≤ 0 then w.tokens else w.tokens - 1) ∧ r.1.ms = w.ms ∧ r.2 = decide (0 < w.tokens) := by
  rw [TokenTask.take, Prog.runWith_bind, Prog.runWith_perform, SharedBucket.access]
  by_cases hempty : w.tokens ≤ 0
  · simp [hempty, SharedBucket.access, not_lt.mpr hempty]
  · simp [hempty, not_le.mp hempty]

/-- Left alone, a call is the one of `Rules.lean`. -/
theorem runWith_tryConsumeToken (rule : QueryRule) :
    let r := (TokenTask.tryConsumeToken rule.qpsLimit nowMs).runWith (SharedBucket.access rule.qpsLimit i) rule.shared
    r.2 = (rule.tryConsumeToken nowMs).2 ∧ r.1.tokens = (rule.tryConsumeToken nowMs).1.tokenBucket ∧
      r.1.ms = (rule.tryConsumeToken nowMs).1.tokenBucketMs := by
  rw [TokenTask.tryConsumeToken, QueryRule.tryConsumeToken]
  by_cases hlimit : rule.qpsLimit = 0
  · simp [hlimit, QueryRule.shared]
  · obtain ⟨htokens, hms⟩ := runWith_refill i nowMs rule
    obtain ⟨htokens', hms', hanswer⟩ := runWith_take rule.qpsLimit i nowMs
      ((TokenTask.refill rule.qpsLimit nowMs).runWith (SharedBucket.access rule.qpsLimit i) rule.shared).1
    rw [if_neg hlimit, if_neg hlimit, Prog.runWith_bind]
    rw [htokens] at htokens' hanswer
    refine ⟨hanswer.trans ?_, htokens'.trans ?_, (hms'.trans hms).trans ?_⟩
    all_goals
      dsimp only
      by_cases hempty : (rule.refill nowMs).tokenBucket ≤ 0
      · simp [hempty, not_lt.mpr hempty]
      · simp [hempty, not_le.mp hempty]

end Alone

/-! ## The callers -/

/-- One bucket, and any number of callers. A message is the time of a call. -/
def bucketMachine (qpsLimit : Nat) : Machine TokenAccess TokenAccess.Res (fun _ => Unit) SharedBucket Bool Nat Empty where
  react _ nowMs := some (TokenTask.tryConsumeToken qpsLimit nowMs)
  handle w i o _ := some (w.access qpsLimit i o)
  env _ e := e.elim

/-- A state of the bucket and its callers. -/
abbrev BucketState := Sys TokenAccess TokenAccess.Res SharedBucket Bool Nat

/-- A caller starts a call, or goes on with it. -/
abbrev BucketEvent := Event TokenAccess (fun _ => Unit) Nat Empty

/-- A full bucket, and nobody has called. -/
def bucketStart (qpsLimit : Nat) : BucketState := ⟨.full qpsLimit, fun _ => .idle false⟩

/-- Nobody takes a token while a refill is under way, or after a refill for another time; and no refill begins while
another one is under way, or a refused call has still to give its token back. -/
def SharedBucket.Orderly (w : SharedBucket) : TokenAccess → Prop
  | .casMs lastMs _ => w.ms = lastMs → w.refill = none ∧ w.refused = ∅
  | .fetchSub nowMs => w.refill = none ∧ w.ms = nowMs
  | _ => True

/-- The accesses are in order, and the limit times the clock fits 64 bits. -/
def Orderly (qpsLimit : Nat) (s : BucketState) : BucketEvent → Prop
  | .msg _ nowMs => nowMs * qpsLimit < 2 ^ 64
  | .op i _ => ∀ o ∈ s.next i, s.world.Orderly o
  | .env _ | .stop _ => True

instance (w : SharedBucket) : DecidablePred w.Orderly
  | .casMs .. => inferInstanceAs (Decidable (_ → _))
  | .fetchSub _ => inferInstanceAs (Decidable (_ ∧ _))
  | .loadMs | .loadTokens | .storeTokens _ | .fetchAdd => inferInstanceAs (Decidable True)

instance (qpsLimit : Nat) (s : BucketState) : DecidablePred (Orderly qpsLimit s)
  | .msg .. => inferInstanceAs (Decidable (_ < _))
  | .op .. => inferInstanceAs (Decidable (∀ o ∈ _, _))
  | .env _ | .stop _ => inferInstanceAs (Decidable True)

/-! ## The account -/

namespace SharedBucket

variable (w : SharedBucket)

/-- The time up to which tokens have been added. -/
def settled : Nat :=
  match w.refill with
  | some r => w.ms - r.elapsed
  | none => w.ms

/-- The tokens there are, with those that refused calls will give back. -/
def level : Int := w.tokens + w.refused.card

/-- What a call holds: its refill, and whether it has a token to give back. -/
def hold (i : Nat) : Option OpenRefill × Bool := (w.refill.filter (·.owner = i), i ∈ w.refused)

/-- What was admitted is covered by a full bucket and the time since. -/
structure Accounted (qpsLimit : Nat) : Prop where
  level_nonneg : 0 ≤ w.level
  level_le : w.level ≤ qpsLimit
  admitted_le : ∀ a ∈ w.admitted, a ≤ w.settled
  within : ∀ t d, 1000 * w.admittedIn t d ≤ 1000 * qpsLimit + d * qpsLimit
  covered : ∀ t d, t ≤ w.settled → w.settled ≤ t + d →
    1000 * (w.admittedIn t d + w.level) ≤ 1000 * qpsLimit + (w.settled - t : Nat) * qpsLimit
  refilling : ∀ r ∈ w.refill, r.elapsed ≤ w.ms ∧ w.refused = ∅ ∧ ∀ c ∈ r.found, c = w.tokens
  products_lt : ∀ p ∈ w.products, p < 2 ^ 64

end SharedBucket

/-- The contract of a call. -/
def tokenProtocol (qpsLimit : Nat) : Protocol TokenAccess TokenAccess.Res (Option OpenRefill × Bool) where
  owes g
    | .loadMs => g = (none, false)
    | .casMs lastMs nowMs => g = (none, false) ∧ nowMs * qpsLimit < 2 ^ 64 ∧ lastMs ≤ nowMs
    | .loadTokens => ∃ r, g = (some r, false)
    | .storeTokens tokens =>
      ∃ r c, g = (some r, false) ∧ r.found = some c ∧ tokens = min (c + refillTokens qpsLimit r.elapsed) qpsLimit
    | .fetchSub _ => g = (none, false)
    | .fetchAdd => g = (none, true)
  step g o answer g' :=
    match o with
    | .loadMs => g' = g
    | .casMs lastMs nowMs => if answer then ∃ r, g' = (some r, false) ∧ r.elapsed = nowMs - lastMs else g' = g
    | .loadTokens => ∃ r, g.1 = some r ∧ g' = (some { r with found := some answer }, false)
    | .storeTokens _ => g' = (none, false)
    | .fetchSub _ => g' = (none, decide (answer ≤ 0))
    | .fetchAdd => g' = (none, false)

/-- Every call meets its contract. -/
theorem wp_tryConsumeToken {qpsLimit nowMs : Nat} (h : nowMs * qpsLimit < 2 ^ 64) :
    (TokenTask.tryConsumeToken qpsLimit nowMs).wp (tokenProtocol qpsLimit) (fun _ g => g = (none, false)) (none, false) := by
  have htake : (TokenTask.take nowMs).wp (tokenProtocol qpsLimit) (fun _ g => g = (none, false)) (none, false) := by
    refine ⟨rfl, ?_⟩
    rintro remaining _ rfl
    apply Prog.wp_ite
    · intro hempty
      rw [decide_eq_true hempty]
      refine ⟨rfl, ?_⟩
      rintro _ _ rfl
      rfl
    · intro hempty
      rw [decide_eq_false hempty]
      rfl
  rw [TokenTask.tryConsumeToken]
  apply Prog.wp_ite
  · intro _
    rfl
  · intro _
    rw [Prog.wp_bind, TokenTask.refill]
    refine ⟨rfl, ?_⟩
    rintro lastMs _ rfl
    apply Prog.wp_ite
    · intro hpassed
      refine ⟨⟨rfl, h, by omega⟩, ?_⟩
      rintro won g hstep
      cases won with
      | false =>
        obtain rfl : g = (none, false) := hstep
        exact htake
      | true =>
        obtain ⟨r, rfl, helapsed⟩ := hstep
        refine ⟨⟨r, rfl⟩, ?_⟩
        rintro current _ ⟨r', hr', rfl⟩
        obtain rfl := Option.some.inj hr'
        refine ⟨⟨_, current, rfl, rfl, by rw [← helapsed]⟩, ?_⟩
        rintro _ _ rfl
        exact htake
    · intro _
      exact htake

namespace SharedBucket

variable {qpsLimit i : Nat} {w w' : SharedBucket}

theorem settled_none (h : w.refill = none) : w.settled = w.ms := by rw [settled, h]

theorem settled_some {r : OpenRefill} (h : w.refill = some r) : w.settled = w.ms - r.elapsed := by rw [settled, h]

namespace Accounted

/-- The account is about the level, the time up to which tokens were added, and the admissions. -/
theorem congr (h : w.Accounted qpsLimit) (hlevel : w'.level = w.level) (hsettled : w'.settled = w.settled)
    (hadmitted : w'.admitted = w.admitted) (hproducts : ∀ p ∈ w'.products, p < 2 ^ 64)
    (hrefilling : ∀ r ∈ w'.refill, r.elapsed ≤ w'.ms ∧ w'.refused = ∅ ∧ ∀ c ∈ r.found, c = w'.tokens) :
    w'.Accounted qpsLimit where
  level_nonneg := hlevel ▸ h.level_nonneg
  level_le := hlevel ▸ h.level_le
  admitted_le := by
    rw [hadmitted, hsettled]
    exact h.admitted_le
  within t d := by
    rw [admittedIn, hadmitted]
    exact h.within t d
  covered t d := by
    rw [admittedIn, hadmitted, hsettled, hlevel]
    exact h.covered t d
  refilling := hrefilling
  products_lt := hproducts

/-- Nobody was admitted after the time up to which tokens were added. -/
theorem admittedIn_later (h : w.Accounted qpsLimit) {t d : Nat} (ht : w.settled < t) : w.admittedIn t d = 0 := by
  rw [admittedIn, List.countP_eq_zero]
  intro a ha
  have hle := h.admitted_le a ha
  simp only [Bool.and_eq_true, decide_eq_true_eq]
  omega

/-- A refill begins: no token is added yet. -/
theorem casMs (h : w.Accounted qpsLimit) (hrefill : w.refill = none) (hrefused : w.refused = ∅) {nowMs : Nat}
    (hle : w.ms ≤ nowMs) (hproduct : nowMs * qpsLimit < 2 ^ 64) :
    (w.access qpsLimit i (.casMs w.ms nowMs)).1.Accounted qpsLimit := by
  rw [access, if_pos rfl]
  apply h.congr
  · rfl
  · rw [settled_none hrefill]
    exact Nat.sub_sub_self hle
  · rfl
  · intro p hp
    rcases List.mem_cons.mp hp with rfl | hp
    · exact Nat.lt_of_le_of_lt (Nat.mul_le_mul_right _ (Nat.sub_le _ _)) hproduct
    · exact h.products_lt p hp
  · intro r hr
    obtain rfl := Option.some.inj hr
    exact ⟨Nat.sub_le _ _, hrefused, fun _ hc => nomatch hc⟩

/-- A refill finds the tokens there are. -/
theorem loadTokens (h : w.Accounted qpsLimit) : (w.access qpsLimit i .loadTokens).1.Accounted qpsLimit := by
  rw [access]
  cases hrefill : w.refill with
  | none =>
    apply h.congr
    · rfl
    · rw [settled_none hrefill]
      rfl
    · rfl
    · exact h.products_lt
    · exact fun _ hr => nomatch hr
  | some r =>
    obtain ⟨helapsed, hrefused, hfound⟩ := h.refilling r hrefill
    rw [Option.map_some]
    apply h.congr
    · rfl
    · rw [settled_some hrefill, settled_some rfl]
      dsimp only
      split <;> rfl
    · rfl
    · exact h.products_lt
    · intro r' hr'
      obtain rfl := Option.some.inj hr'
      dsimp only
      split
      · exact ⟨helapsed, hrefused, fun c hc => (Option.some.inj hc).symm⟩
      · exact ⟨helapsed, hrefused, hfound⟩

/-- A refused call takes a token that it gives back. -/
theorem refuse (h : w.Accounted qpsLimit) (hrefill : w.refill = none) (hi : i ∉ w.refused) (nowMs : Nat)
    (hempty : ¬0 < w.tokens) : (w.access qpsLimit i (.fetchSub nowMs)).1.Accounted qpsLimit := by
  rw [access, if_neg hempty]
  apply h.congr
  · rw [level, level, Finset.card_insert_of_notMem hi]
    push_cast
    omega
  · rw [settled_none hrefill]
    exact settled_none hrefill
  · rfl
  · exact h.products_lt
  · exact fun r hr => absurd (hrefill.symm.trans hr) (fun heq => nomatch heq)

theorem giveBack (h : w.Accounted qpsLimit) (hi : i ∈ w.refused) :
    (w.access qpsLimit i .fetchAdd).1.Accounted qpsLimit := by
  rw [access]
  have hcard := Finset.card_erase_add_one hi
  apply h.congr
  · rw [level, level]
    dsimp only
    omega
  · rfl
  · rfl
  · exact h.products_lt
  · intro r hr
    -- nobody has a token to give back while a refill is under way
    rw [(h.refilling r hr).2.1] at hi
    exact absurd hi (Finset.notMem_empty i)

/-- A call is admitted: the token it takes was added by the time of the call. -/
theorem letIn (h : w.Accounted qpsLimit) (hrefill : w.refill = none) (hpos : 0 < w.tokens) :
    (w.access qpsLimit i (.fetchSub w.ms)).1.Accounted qpsLimit := by
  have hsettled := settled_none hrefill
  rw [access, if_pos hpos]
  set w' : SharedBucket := { w with tokens := w.tokens - 1, admitted := w.ms :: w.admitted } with hw'
  have hsettled' : w'.settled = w.settled := (settled_none hrefill).trans hsettled.symm
  have hlevel : w'.level = w.level - 1 := by
    rw [level, level]
    change w.tokens - 1 + (w.refused.card : Int) = _
    omega
  have hpos' : 1 ≤ w.level := by
    rw [level]
    omega
  have hin {t d : Nat} (ht : t ≤ w.ms) (hd : w.ms ≤ t + d) : w'.admittedIn t d = w.admittedIn t d + 1 :=
    List.countP_cons_of_pos (by simp [ht, hd])
  change w'.Accounted qpsLimit
  constructor
  · rw [hlevel]
    omega
  · rw [hlevel]
    have hle := h.level_le
    omega
  · intro a ha
    rw [hsettled']
    rcases List.mem_cons.mp ha with rfl | ha
    · exact hsettled.ge
    · exact h.admitted_le a ha
  · intro t d
    by_cases hwindow : t ≤ w.ms ∧ w.ms ≤ t + d
    · have hcovered := h.covered t d (hsettled ▸ hwindow.1) (hsettled ▸ hwindow.2)
      have hspan : (w.settled - t) * qpsLimit ≤ d * qpsLimit := Nat.mul_le_mul_right _ (by omega)
      rw [hin hwindow.1 hwindow.2]
      omega
    · have hout : w'.admittedIn t d = w.admittedIn t d := List.countP_cons_of_neg (by simpa using hwindow)
      rw [hout]
      exact h.within t d
  · intro t d ht hd
    rw [hsettled'] at ht hd ⊢
    have hcovered := h.covered t d ht hd
    rw [hin (hsettled ▸ ht) (hsettled ▸ hd), hlevel]
    push_cast at hcovered ⊢
    omega
  · exact fun r hr => absurd (hrefill.symm.trans hr) (fun heq => nomatch heq)
  · exact h.products_lt

/-- A refill ends: the time it was for pays for the tokens it adds. -/
theorem storeTokens (h : w.Accounted qpsLimit) {r : OpenRefill} {c : Int} (hrefill : w.refill = some r)
    (howner : r.owner = i) (hfound : r.found = some c) :
    (w.access qpsLimit i (.storeTokens (min (c + refillTokens qpsLimit r.elapsed) qpsLimit))).1.Accounted qpsLimit := by
  obtain ⟨helapsed, hrefused, htokens⟩ := h.refilling r hrefill
  obtain rfl := htokens c hfound
  have hlevel : w.level = w.tokens := by
    rw [level, hrefused, Finset.card_empty]
    exact Int.add_zero _
  have hsettled := settled_some hrefill
  rw [access]
  set w' : SharedBucket := { w with
    tokens := min (w.tokens + refillTokens qpsLimit r.elapsed) qpsLimit
    refill := w.refill.filter (·.owner ≠ i) } with hw'
  have hclosed : w'.refill = none := by
    simp [hw', hrefill, howner]
  have hsettled' : w'.settled = w.ms := settled_none hclosed
  have hlevel' : w'.level = min (w.tokens + refillTokens qpsLimit r.elapsed) qpsLimit := by
    change _ + (w.refused.card : Int) = _
    rw [hrefused, Finset.card_empty]
    exact Int.add_zero _
  have hworth : 1000 * refillTokens qpsLimit r.elapsed ≤ r.elapsed * qpsLimit := refillTokens_le
  have hnonneg := h.level_nonneg
  change w'.Accounted qpsLimit
  constructor
  · rw [hlevel']
    omega
  · rw [hlevel']
    exact Int.min_le_right _ _
  · intro a ha
    have hle := h.admitted_le a ha
    omega
  · exact h.within
  · intro t d ht hd
    rw [hsettled'] at ht hd ⊢
    rw [hlevel']
    change (1000 : Int) * (w.admittedIn t d + _) ≤ _
    by_cases hbefore : w.settled < t
    · -- nobody was admitted before this refill, and it leaves no more than a full bucket
      rw [h.admittedIn_later hbefore]
      have hspan : (0 : Int) ≤ ((w.ms - t : Nat) : Int) * qpsLimit := Int.mul_nonneg (Int.natCast_nonneg _) (Int.natCast_nonneg _)
      omega
    · have hcovered := h.covered t d (by omega) (by omega)
      have hsplit : (w.ms - t) * qpsLimit = (w.settled - t) * qpsLimit + r.elapsed * qpsLimit := by
        rw [← Nat.add_mul]
        congr 1
        omega
      have hspan : ((w.ms - t : Nat) : Int) * qpsLimit = (w.settled - t : Nat) * qpsLimit + r.elapsed * qpsLimit := by
        exact_mod_cast hsplit
      rw [hspan]
      rw [hlevel] at hcovered
      omega
  · exact fun r' hr' => absurd (hclosed.symm.trans hr') (fun heq => nomatch heq)
  · exact h.products_lt

end Accounted

end SharedBucket

/-! ## Orderly runs -/

section Runs

variable {qpsLimit i : Nat} {w : SharedBucket}

theorem hold_refused {g : Option OpenRefill} {b : Bool} (h : w.hold i = (g, b)) : (i ∈ w.refused) ↔ b = true := by
  rw [← (Prod.mk.inj h).2, decide_eq_true_eq]

theorem hold_refill {r : OpenRefill} {b : Bool} (h : w.hold i = (some r, b)) : w.refill = some r ∧ r.owner = i := by
  obtain ⟨hr, howner⟩ := Option.filter_eq_some_iff.mp (Prod.mk.inj h).1
  exact ⟨hr, by simpa using howner⟩

theorem hold_of_refill {r : OpenRefill} (hr : w.refill = some r) (hrefused : w.refused = ∅) (j : Nat) :
    w.hold j = (if r.owner = j then some r else none, false) := by
  rw [SharedBucket.hold, hr, hrefused]
  by_cases howner : r.owner = j
  · simp [howner, Option.filter]
  · simp [howner, Option.filter]

theorem hold_of_none (hr : w.refill = none) (j : Nat) : w.hold j = (none, decide (j ∈ w.refused)) := by
  rw [SharedBucket.hold, hr]
  rfl

/-- What an access in order does. -/
theorem access_orderly {o : TokenAccess} (h : w.Accounted qpsLimit)
    (howes : (tokenProtocol qpsLimit).owes (w.hold i) o) (hok : w.Orderly o) :
    (w.access qpsLimit i o).1.Accounted qpsLimit ∧
      (tokenProtocol qpsLimit).step (w.hold i) o (w.access qpsLimit i o).2 ((w.access qpsLimit i o).1.hold i) ∧
        ∀ j, j ≠ i → (w.access qpsLimit i o).1.hold j = w.hold j := by
  cases o with
  | loadMs => exact ⟨h, rfl, fun _ _ => rfl⟩
  | casMs lastMs nowMs =>
    obtain ⟨hhold, hproduct, hle⟩ := howes
    by_cases hms : w.ms = lastMs
    · -- the exchange succeeds: the refill is this caller's alone until it has stored the tokens
      obtain ⟨hrefill, hrefused⟩ := hok hms
      subst hms
      have hnew := h.casMs (i := i) hrefill hrefused hle hproduct
      obtain ⟨w', hw'⟩ : ∃ w' : SharedBucket, w' = { w with
          ms := nowMs
          refill := some ⟨i, nowMs - w.ms, none⟩
          products := (nowMs - w.ms) * qpsLimit :: w.products } := ⟨_, rfl⟩
      have haccess : w.access qpsLimit i (.casMs w.ms nowMs) = (w', true) := hw' ▸ if_pos rfl
      have hopen : w'.refill = some ⟨i, nowMs - w.ms, none⟩ := hw' ▸ rfl
      have hnobody : w'.refused = ∅ := hw' ▸ hrefused
      rw [haccess] at hnew ⊢
      refine ⟨hnew, ⟨⟨i, nowMs - w.ms, none⟩, ?_, rfl⟩, fun j hj => ?_⟩
      · rw [hold_of_refill hopen hnobody, if_pos rfl]
      · rw [hold_of_refill hopen hnobody, if_neg (Ne.symm hj), hold_of_none hrefill, hrefused]
        rfl
    · have haccess : w.access qpsLimit i (.casMs lastMs nowMs) = (w, false) := if_neg hms
      rw [haccess]
      exact ⟨h, rfl, fun _ _ => rfl⟩
  | loadTokens =>
    obtain ⟨r, hhold⟩ := howes
    obtain ⟨hrefill, howner⟩ := hold_refill hhold
    obtain ⟨-, hrefused, -⟩ := h.refilling r hrefill
    have hnew : (w.access qpsLimit i .loadTokens).1.refill = some { r with found := some w.tokens } := by
      rw [SharedBucket.access, hrefill, Option.map_some, if_pos howner]
    refine ⟨h.loadTokens, ⟨r, congrArg Prod.fst hhold, ?_⟩, fun j hj => ?_⟩
    · rw [hold_of_refill hnew hrefused, if_pos howner]
      rfl
    · have hother : r.owner ≠ j := howner ▸ Ne.symm hj
      rw [hold_of_refill hnew hrefused, hold_of_refill hrefill hrefused, if_neg hother, if_neg hother]
  | storeTokens tokens =>
    obtain ⟨r, c, hhold, hfound, rfl⟩ := howes
    obtain ⟨hrefill, howner⟩ := hold_refill hhold
    obtain ⟨-, hrefused, -⟩ := h.refilling r hrefill
    have hnew : (w.access qpsLimit i (.storeTokens (min (c + refillTokens qpsLimit r.elapsed) qpsLimit))).1.refill =
        none := by
      rw [SharedBucket.access, hrefill]
      simp [howner]
    refine ⟨h.storeTokens hrefill howner hfound, ?_, fun j hj => ?_⟩
    · rw [hold_of_none hnew]
      exact congrArg (fun s : Finset Nat => (none, decide (i ∈ s))) hrefused
    · rw [hold_of_none hnew, hold_of_refill hrefill hrefused, if_neg (howner ▸ Ne.symm hj)]
      exact congrArg (fun s : Finset Nat => (none, decide (j ∈ s))) hrefused
  | fetchSub nowMs =>
    obtain ⟨hrefill, rfl⟩ := hok
    have hi : i ∉ w.refused := fun hi => absurd ((hold_refused howes).mp hi) (by decide)
    by_cases hpos : 0 < w.tokens
    · have hnew := h.letIn (i := i) hrefill hpos
      have haccess : w.access qpsLimit i (.fetchSub w.ms) =
          ({ w with tokens := w.tokens - 1, admitted := w.ms :: w.admitted }, w.tokens) := if_pos hpos
      rw [haccess] at hnew ⊢
      refine ⟨hnew, ?_, fun _ _ => rfl⟩
      change w.hold i = (none, decide (w.tokens ≤ 0))
      rw [decide_eq_false (by omega)]
      exact howes
    · have hnew := h.refuse (i := i) hrefill hi w.ms hpos
      obtain ⟨w', hw'⟩ : ∃ w' : SharedBucket,
          w' = { w with tokens := w.tokens - 1, refused := insert i w.refused } := ⟨_, rfl⟩
      have haccess : w.access qpsLimit i (.fetchSub w.ms) = (w', w.tokens) := hw' ▸ if_neg hpos
      have hclosed : w'.refill = none := hw' ▸ hrefill
      have htaken : w'.refused = insert i w.refused := hw' ▸ rfl
      rw [haccess] at hnew ⊢
      refine ⟨hnew, ?_, fun j hj => ?_⟩
      · change w'.hold i = (none, decide (w.tokens ≤ 0))
        rw [hold_of_none hclosed, htaken, decide_eq_true (Finset.mem_insert_self i _), decide_eq_true (by omega)]
      · rw [hold_of_none hclosed, hold_of_none hrefill, htaken]
        simp [hj]
  | fetchAdd =>
    have hi : i ∈ w.refused := (hold_refused howes).mpr rfl
    -- a refill begins only where nobody has a token to give back
    have hrefill : w.refill = none := by
      cases hr : w.refill with
      | none => rfl
      | some r =>
        rw [(h.refilling r hr).2.1] at hi
        exact absurd hi (Finset.notMem_empty i)
    have hclosed : (w.access qpsLimit i .fetchAdd).1.refill = none := hrefill
    have hgiven : (w.access qpsLimit i .fetchAdd).1.refused = w.refused.erase i := rfl
    refine ⟨h.giveBack hi, ?_, fun j hj => ?_⟩
    · change (w.access qpsLimit i .fetchAdd).1.hold i = (none, false)
      rw [hold_of_none hclosed, hgiven, decide_eq_false (Finset.notMem_erase i _)]
    · rw [hold_of_none hclosed, hold_of_none hrefill, hgiven]
      simp [hj]

/-- The account is kept in every orderly run. -/
def bucketOutline (qpsLimit : Nat) : Outline (bucketMachine qpsLimit) (Orderly qpsLimit) (Option OpenRefill × Bool) where
  inv w := w.Accounted qpsLimit
  hold := SharedBucket.hold
  proto _ _ _ := tokenProtocol qpsLimit
  idle _ g _ := g = (none, false)
  msg_ok {s i st m p} _ _ hidle hok hreact := by
    obtain rfl := Option.some.inj hreact
    rw [hidle]
    exact wp_tryConsumeToken hok
  op_ok {s i st m o k inp w' r} hinv hi howes hok hh := by
    obtain ⟨rfl, rfl⟩ := Prod.mk.inj (Option.some.inj hh)
    obtain ⟨hnew, hstep, hothers⟩ := access_orderly hinv howes (hok o (Sys.next_eq hi))
    exact ⟨hnew, rfl, rfl, hstep, hothers⟩
  env_ok _ _ he := nomatch he
  stop_ok _ _ hst := nomatch hst

/-- A full bucket owes nothing. -/
theorem accounted_full (qpsLimit : Nat) : (SharedBucket.full qpsLimit).Accounted qpsLimit where
  level_nonneg := Int.natCast_nonneg _
  level_le := Int.le_refl _
  admitted_le _ ha := nomatch ha
  within _ _ := by
    change 1000 * 0 ≤ _
    omega
  covered t d _ _ := by
    have hspan : (0 : Int) ≤ ((SharedBucket.full qpsLimit).settled - t : Nat) * (qpsLimit : Int) :=
      Int.mul_nonneg (Int.natCast_nonneg _) (Int.natCast_nonneg _)
    change (1000 : Int) * (0 + (qpsLimit + 0)) ≤ _
    omega
  refilling _ hr := nomatch hr
  products_lt _ hp := nomatch hp

/-- **The limit is kept**: in orderly runs, the calls admitted with times from `t` to `t + d` are no more than a full
bucket and what the rate gives in that time; and no product overflows. -/
theorem admitted_within {es : List BucketEvent} {s : BucketState}
    (h : Steps (bucketMachine qpsLimit).step (Orderly qpsLimit) (bucketStart qpsLimit) es s) :
    (∀ t d, s.world.admittedIn t d ≤ qpsLimit + (qpsLimit * d + 999) / 1000) ∧ ∀ p ∈ s.world.products, p < 2 ^ 64 := by
  have hgood := (bucketOutline qpsLimit).steps h ⟨accounted_full qpsLimit, fun _ => rfl⟩
  refine ⟨fun t d => ?_, hgood.1.products_lt⟩
  have hwithin := hgood.1.within t d
  rw [Nat.mul_comm d] at hwithin
  omega

end Runs

/-- Caller `i` makes a call at time `t`, which has performed `n` accesses. -/
def tokenCall (i t n : Nat) : List BucketEvent := .msg i t :: List.replicate n (.op i fun _ => ())

/-- Two calls at once, one after the other. -/
theorem admitted_within_twice :
    ∃ s, run (bucketMachine 1).step (bucketStart 1) (tokenCall 0 1000 5 ++ tokenCall 1 1000 3) = some s ∧
      s.world.admitted = [1000] ∧
        (∀ t d, s.world.admittedIn t d ≤ 1 + (1 * d + 999) / 1000) ∧ ∀ p ∈ s.world.products, p < 2 ^ 64 := by
  have hrun : ((run (fun s e => if decide (Orderly 1 s e) then (bucketMachine 1).step s e else none) (bucketStart 1)
      (tokenCall 0 1000 5 ++ tokenCall 1 1000 3)).map fun s => s.world.admitted) = some [1000] := by
    decide +kernel
  obtain ⟨s, hs, hadmitted⟩ := Option.map_eq_some_iff.mp hrun
  have hsteps := steps_of_checked (fun _ _ => of_decide_eq_true) hs
  exact ⟨s, hsteps.run, hadmitted, admitted_within hsteps⟩

/-- A call takes a token while a refill is under way, and the refill puts it back. -/
def duringRefill : List BucketEvent := tokenCall 0 1000 3 ++ tokenCall 1 1000 2 ++ List.replicate 2 (.op 0 fun _ => ())

/-- With one query a second, two calls are admitted at once; and the first product overflows when the limit is high. -/
theorem overlap_admits :
    (¬∀ es s, run (bucketMachine 1).step (bucketStart 1) es = some s →
        ∀ t d, s.world.admittedIn t d ≤ 1 + (1 * d + 999) / 1000) ∧
      ¬∀ es s, run (bucketMachine (2 ^ 32 - 1)).step (bucketStart (2 ^ 32 - 1)) es = some s →
        ∀ p ∈ s.world.products, p < 2 ^ 64 := by
  constructor
  · intro h
    have hrun : ((run (bucketMachine 1).step (bucketStart 1) duringRefill).map fun s => s.world.admittedIn 1000 0) =
        some 2 := by
      decide +kernel
    obtain ⟨s, hs, hadmitted⟩ := Option.map_eq_some_iff.mp hrun
    have hle := h duringRefill s hs 1000 0
    omega
  · intro h
    have hrun : ((run (bucketMachine (2 ^ 32 - 1)).step (bucketStart (2 ^ 32 - 1)) (tokenCall 0 1750000000000 2)).map
        fun s => s.world.products) = some [1750000000000 * (2 ^ 32 - 1)] := by
      decide +kernel
    obtain ⟨s, hs, hproducts⟩ := Option.map_eq_some_iff.mp hrun
    have hlt := h _ s hs _ (hproducts ▸ List.mem_singleton_self _)
    exact absurd hlt (by decide)

end TurbineProxy
