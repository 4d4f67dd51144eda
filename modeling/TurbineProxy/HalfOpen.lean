import TurbineProxy.BreakerHistory
import TurbineProxy.Threads

/-!
# One probe at a time

`CircuitBreaker` once more, access by access: `allows`, `record_success` and `record_failure` are programs
over the breaker's atomics, and any number of requests run them in any interleaving. Left alone, each of
them does what `Breaker.lean` says it does.

A breaker that has turned half-open is to let one request through and wait for its outcome (`OneProbe`).
`allows` keeps no account of that request: it lets through whoever finds the breaker half-open, and whoever
found it open just before. `one_probe_iff` says which runs that spares.
-/

namespace TurbineProxy

/-! ## The accesses -/

/-- An access to one of the atomics, or to the clock. -/
inductive BreakerAccess : Type where
  /-- `state.load` -/
  | loadState
  /-- `state.store` -/
  | storeState (state : CbState)
  /-- `opened_at.load` -/
  | loadOpenedAt
  /-- `opened_at.store` -/
  | storeOpenedAt (t : Nat)
  /-- `consecutive_errors.store(0)` -/
  | resetErrors
  /-- `consecutive_errors.fetch_add(1) + 1` -/
  | countError
  /-- `current_time_ms()` -/
  | now

namespace BreakerAccess

/-- The answers. -/
abbrev Res : BreakerAccess → Type
  | .loadState => CbState
  | .loadOpenedAt | .countError | .now => Nat
  | _ => Unit

end BreakerAccess

/-- A method of the breaker. -/
abbrev BreakerTask : Type → Type := Prog BreakerAccess BreakerAccess.Res

namespace BreakerTask

/-- Perform one atomic access to the breaker and go on with what it returns. -/
abbrev access (o : BreakerAccess) : BreakerTask o.Res := Prog.perform o

/-- `CircuitBreaker::allows`: whether the call has moved the breaker to half-open, and its answer. -/
def allows (recoveryMs : Nat) : BreakerTask (Bool × Bool) := do
  let state : CbState ← access .loadState
  match state with
  | .closed | .halfOpen => pure (false, true)
  | .open => do
    let opened : Nat ← access .loadOpenedAt
    let nowMs : Nat ← access .now
    if recoveryMs ≤ nowMs - opened then do
      let _ : Unit ← access (.storeState .halfOpen)
      pure (true, true)
    else pure (false, false)

/-- `CircuitBreaker::open` -/
def trip : BreakerTask Unit := do
  let _ : Unit ← access (.storeState .open)
  let nowMs : Nat ← access .now
  let _ : Unit ← access (.storeOpenedAt nowMs)
  let _ : Unit ← access .resetErrors
  pure ()

/-- `CircuitBreaker::record_success` -/
def recordSuccess : BreakerTask Unit := do
  let prev : CbState ← access .loadState
  let _ : Unit ← access .resetErrors
  if prev ≠ .closed then do
    let _ : Unit ← access (.storeState .closed)
    pure ()
  else pure ()

/-- `CircuitBreaker::record_failure` -/
def recordFailure (threshold : Nat) : BreakerTask Unit := do
  let state : CbState ← access .loadState
  match state with
  | .closed => do
    let errors : Nat ← access .countError
    if threshold ≤ errors then trip else pure ()
  | .halfOpen => trip
  | .open => pure ()

end BreakerTask

namespace CircuitBreaker

/-- One access at time `t`. -/
def access (t : Nat) (breaker : CircuitBreaker) : (o : BreakerAccess) → CircuitBreaker × o.Res
  | .loadState => (breaker, breaker.state)
  | .storeState state => ({ breaker with state }, ())
  | .loadOpenedAt => (breaker, breaker.openedAt)
  | .storeOpenedAt opened => ({ breaker with openedAt := opened }, ())
  | .resetErrors => ({ breaker with consecutiveErrors := 0 }, ())
  | .countError =>
    let errors := u32Succ breaker.consecutiveErrors
    ({ breaker with consecutiveErrors := errors }, errors)
  | .now => (breaker, t)

variable (breaker : CircuitBreaker) (t : Nat)

/-- Left alone, the methods are those of `Breaker.lean`. -/
theorem runWith_allows : ((BreakerTask.allows breaker.recoveryMs).runWith (access t) breaker).1 = (breaker.allows t).1 ∧
    ((BreakerTask.allows breaker.recoveryMs).runWith (access t) breaker).2.2 = (breaker.allows t).2 := by
  unfold BreakerTask.allows allows
  rw [Prog.runWith_bind, Prog.runWith_perform, access]
  cases breaker.state with
  | closed => exact ⟨rfl, rfl⟩
  | halfOpen => exact ⟨rfl, rfl⟩
  | «open» =>
    by_cases hover : breaker.recoveryMs ≤ t - breaker.openedAt
    · simp [access, hover]
    · simp [access, hover]

theorem runWith_recordSuccess : (BreakerTask.recordSuccess.runWith (access t) breaker).1 = breaker.recordSuccess := by
  unfold BreakerTask.recordSuccess recordSuccess
  by_cases hopen : breaker.state ≠ .closed
  · simp [access, hopen]
  · simp [access, not_not.mp hopen]

theorem runWith_recordFailure :
    ((BreakerTask.recordFailure breaker.threshold).runWith (access t) breaker).1 = breaker.recordFailure t := by
  unfold BreakerTask.recordFailure recordFailure
  rw [Prog.runWith_bind, Prog.runWith_perform, access]
  cases hstate : breaker.state with
  | closed =>
    by_cases hreached : breaker.threshold ≤ u32Succ breaker.consecutiveErrors
    · simp [access, hreached, BreakerTask.trip, trip]
    · simp [access, hreached, hstate]
  | halfOpen => rfl
  | «open» => rfl

end CircuitBreaker

/-! ## The requests -/

/-- A request as far as the breaker is concerned: whether it is the probe, and what it was told last. -/
structure Caller where
  /-- its last call of `allows` has moved the breaker to half-open, and the outcome is not recorded yet -/
  probing : Bool
  /-- what its last call of `allows` said -/
  answer : Bool
  deriving DecidableEq

namespace Caller

variable (threshold recoveryMs : Nat)

/-- What a call leaves a request with. -/
def asked (caller : Caller) (r : Bool × Bool) : Caller := ⟨caller.probing || r.1, r.2⟩

/-- A request calls the breaker. -/
def react (caller : Caller) : BreakerCall → BreakerTask Caller
  | .allows => do
    let r ← BreakerTask.allows recoveryMs
    pure (caller.asked r)
  | .recordSuccess => do
    BreakerTask.recordSuccess
    pure { caller with probing := false }
  | .recordFailure => do
    BreakerTask.recordFailure threshold
    pure { caller with probing := false }

end Caller

/-- One breaker, and any number of requests that call it. -/
def breakerMachine (threshold recoveryMs : Nat) :
    Machine BreakerAccess BreakerAccess.Res (fun _ => Nat) CircuitBreaker Caller BreakerCall Empty where
  react caller c := some (caller.react threshold recoveryMs c)
  handle breaker _ o t := some (breaker.access t o)
  env _ e := e.elim

/-- A state of the breaker and its requests. -/
abbrev BreakerState := Sys BreakerAccess BreakerAccess.Res CircuitBreaker Caller BreakerCall

/-- A request starts a call, or goes on with it. -/
abbrev BreakerEvent := Event BreakerAccess (fun _ => Nat) BreakerCall Empty

/-- A new breaker. -/
def breakerStart (threshold recoveryMs : Nat) : BreakerState :=
  ⟨.new threshold recoveryMs, fun _ => .idle ⟨false, false⟩⟩

namespace BreakerState

variable (s s' : BreakerState) (i : Nat)

/-- The request behind a thread. -/
def caller : Caller :=
  match s.thread i with
  | .idle caller => caller
  | .busy caller _ _ => caller

/-- The outcome of a probe has not been recorded yet. -/
def Probing : Prop := ∃ j, (s.caller j).probing = true

/-- With this step, a call of `allows` returns `true`. -/
def Admits : Prop :=
  ∃ caller p caller', s.thread i = .busy caller .allows p ∧ s'.thread i = .idle caller' ∧ caller'.answer = true

end BreakerState

section Probes

variable {threshold recoveryMs : Nat}

/-- While a probe is out, nobody else is let through. -/
def OneProbe (threshold recoveryMs : Nat) (s : BreakerState) (e : BreakerEvent) : Prop :=
  ∀ s' i, (breakerMachine threshold recoveryMs).step s e = some s' → s.Probing → ¬s.Admits s' i

/-- While a probe is out, `allows` only finds the breaker open, and no call that found it open gets to turn it
half-open. -/
def FindsOpen (s : BreakerState) : BreakerEvent → Prop
  | .op i _ =>
    match s.thread i with
    | .busy _ .allows (.op .loadState _) => s.Probing → s.world.state = .open
    | .busy _ .allows (.op (.storeState _) _) => ¬s.Probing
    | _ => True
  | _ => True

/-! ## Inside a call of `allows` -/

/-- What `allows` does with the two times. -/
def Caller.decided (caller : Caller) (recoveryMs opened nowMs : Nat) : BreakerTask Caller :=
  if recoveryMs ≤ nowMs - opened then .op (.storeState .halfOpen) fun _ => .done (caller.asked (true, true))
  else .done (caller.asked (false, false))

/-- Where a call of `allows` can be. -/
inductive InAllows (recoveryMs : Nat) (caller : Caller) : BreakerTask Caller → Prop where
  /-- at its start -/
  | start : InAllows recoveryMs caller (.op .loadState fun state => match state with
      | .closed | .halfOpen => .done (caller.asked (false, true))
      | .open => .op .loadOpenedAt fun opened => .op .now (caller.decided recoveryMs opened))
  /-- it has found the breaker open -/
  | found : InAllows recoveryMs caller (.op .loadOpenedAt fun opened => .op .now (caller.decided recoveryMs opened))
  /-- it knows since when -/
  | dated (opened : Nat) : InAllows recoveryMs caller (.op .now (caller.decided recoveryMs opened))
  /-- it is about to turn it half-open -/
  | due : InAllows recoveryMs caller (.op (.storeState .halfOpen) fun _ => .done (caller.asked (true, true)))

theorem react_allows (caller : Caller) : InAllows recoveryMs caller (caller.react threshold recoveryMs .allows) := by
  have hdecided : ∀ opened nowMs, ((if recoveryMs ≤ nowMs - opened then do
        let _ : Unit ← BreakerTask.access (.storeState .halfOpen)
        pure (true, true)
      else pure (false, false) : BreakerTask (Bool × Bool)) >>= fun r => .done (caller.asked r)) =
      caller.decided recoveryMs opened nowMs := by
    intro opened nowMs
    rw [Caller.decided]
    split
    · rfl
    · rfl
  have hstart : caller.react threshold recoveryMs .allows = .op .loadState fun state => match state with
      | .closed | .halfOpen => .done (caller.asked (false, true))
      | .open => .op .loadOpenedAt fun opened => .op .now (caller.decided recoveryMs opened) := by
    refine congrArg (Prog.op BreakerAccess.loadState) (funext fun state => ?_)
    cases state with
    | closed => rfl
    | halfOpen => rfl
    | «open» =>
      refine congrArg (Prog.op BreakerAccess.loadOpenedAt) (funext fun opened => ?_)
      exact congrArg (Prog.op BreakerAccess.now) (funext fun nowMs => hdecided opened nowMs)
  rw [hstart]
  exact .start

/-- The accesses with which a call of `allows` ends in `true`. -/
def Lets : (o : BreakerAccess) → o.Res → Prop
  | .loadState, state => state ≠ .open
  | .storeState _, _ => True
  | _, _ => False

/-- How a call of `allows` goes on. -/
theorem InAllows.next {caller : Caller} {o : BreakerAccess} {k : o.Res → BreakerTask Caller}
    (h : InAllows recoveryMs caller (.op o k)) (r : o.Res) :
    (Lets o r ∧ ∃ caller', k r = .done caller' ∧ caller'.answer = true) ∨
      ¬Lets o r ∧ ((∃ caller', k r = .done caller' ∧ caller'.answer = false) ∨ InAllows recoveryMs caller (k r)) := by
  cases h with
  | start =>
    cases r with
    | closed => exact .inl ⟨nofun, _, rfl, rfl⟩
    | halfOpen => exact .inl ⟨nofun, _, rfl, rfl⟩
    | «open» => exact .inr ⟨fun hlets => hlets rfl, .inr .found⟩
  | found => exact .inr ⟨id, .inr (.dated r)⟩
  | dated opened =>
    refine .inr ⟨id, ?_⟩
    rw [Caller.decided]
    split
    · exact .inr .due
    · exact .inl ⟨_, rfl, rfl⟩
  | due => exact .inl ⟨trivial, _, rfl, rfl⟩

/-- All calls of `allows` are somewhere in them. -/
def AllInAllows (recoveryMs : Nat) (s : BreakerState) : Prop :=
  ∀ i caller p, s.thread i = .busy caller .allows p → InAllows recoveryMs caller p

variable {s s' : BreakerState} {e : BreakerEvent} {es : List BreakerEvent}

theorem AllInAllows.step (h : AllInAllows recoveryMs s)
    (hst : (breakerMachine threshold recoveryMs).step s e = some s') : AllInAllows recoveryMs s' := by
  intro j caller p hj
  cases e with
  | msg i m =>
    obtain ⟨st, q, hi, hreact, rfl⟩ := Machine.step_msg hst
    obtain rfl := Option.some.inj hreact
    by_cases hji : j = i
    · subst hji
      dsimp only at hj
      rw [Function.update_self] at hj
      generalize hq : st.react threshold recoveryMs m = q at hj
      cases q with
      | done a => cases hj
      | op o k =>
        cases hj
        rw [← hq]
        exact react_allows _
    · dsimp only at hj
      rw [Function.update_of_ne hji] at hj
      exact h j caller p hj
  | op i t =>
    obtain ⟨st, m, o, k, w', r, hi, -, rfl⟩ := Machine.step_op hst
    by_cases hji : j = i
    · subst hji
      dsimp only at hj
      rw [Function.update_self] at hj
      generalize hq : k r = q at hj
      -- a call that has ended is no call of `allows` any more
      cases q with
      | done a => cases hj
      | op o' k' =>
        cases hj
        obtain ⟨-, caller', hdone, -⟩ | ⟨-, ⟨caller', hdone, -⟩ | hin⟩ := (h _ _ _ hi).next r
        · cases hq.symm.trans hdone
        · cases hq.symm.trans hdone
        · rwa [hq] at hin
    · dsimp only at hj
      rw [Function.update_of_ne hji] at hj
      exact h j caller p hj
  | env e => exact e.elim
  | stop i => cases hst

/-- A request is let through with such an access, and with no other. -/
theorem admits_iff (h : AllInAllows recoveryMs s) (hst : (breakerMachine threshold recoveryMs).step s e = some s') :
    (∃ i, s.Admits s' i) ↔ ∃ i t caller o k, e = .op i t ∧ s.thread i = .busy caller .allows (.op o k) ∧
      Lets o (s.world.access (t o) o).2 := by
  cases e with
  | msg i m =>
    obtain ⟨st, q, hi, -, rfl⟩ := Machine.step_msg hst
    refine iff_of_false ?_ nofun
    rintro ⟨j, caller, p, caller', hj, hj', -⟩
    by_cases hji : j = i
    · subst hji
      cases hi.symm.trans hj
    · dsimp only at hj'
      rw [Function.update_of_ne hji] at hj'
      cases hj.symm.trans hj'
  | op i t =>
    obtain ⟨st, m, o, k, w', r, hi, hw, rfl⟩ := Machine.step_op hst
    obtain rfl : (s.world.access (t o) o).2 = r := congrArg Prod.snd (Option.some.inj hw)
    constructor
    · rintro ⟨j, caller, p, caller', hj, hj', hanswer⟩
      by_cases hji : j = i
      · subst hji
        cases hi.symm.trans hj
        dsimp only at hj'
        rw [Function.update_self] at hj'
        obtain ⟨hlets, -⟩ | ⟨-, ⟨caller₁, hdone, hno⟩ | hin⟩ := (h _ _ _ hi).next (s.world.access (t o) o).2
        · exact ⟨j, t, st, o, k, rfl, hi, hlets⟩
        · rw [hdone] at hj'
          cases hj'
          cases hanswer.symm.trans hno
        · generalize k (s.world.access (t o) o).2 = q at hin hj'
          cases hin <;> cases hj'
      · dsimp only at hj'
        rw [Function.update_of_ne hji] at hj'
        cases hj.symm.trans hj'
    · -- an access that lets through ends the call
      rintro ⟨j, t', caller, o', k', he, hj, hlets⟩
      cases he
      cases hi.symm.trans hj
      refine ⟨i, st, .op o k, ?_⟩
      obtain ⟨-, caller', hdone, hyes⟩ | ⟨hnot, -⟩ := (h _ _ _ hi).next (s.world.access (t o) o).2
      · refine ⟨caller', hi, ?_, hyes⟩
        dsimp only
        rw [Function.update_self, hdone]
        rfl
      · exact absurd hlets hnot
  | env e => exact e.elim
  | stop i => cases hst

/-- What finds the breaker open lets nobody through. -/
theorem findsOpen_iff : FindsOpen s e ↔ (s.Probing → ¬∃ i t caller o k, e = .op i t ∧
    s.thread i = .busy caller .allows (.op o k) ∧ Lets o (s.world.access (t o) o).2) := by
  constructor
  · rintro hfinds hprobing ⟨i, t, caller, o, k, rfl, hi, hlets⟩
    unfold FindsOpen at hfinds
    dsimp only at hfinds
    rw [hi] at hfinds
    cases o with
    | loadState => exact hlets (hfinds hprobing)
    | storeState state => exact hfinds hprobing
    | _ => exact hlets
  · intro hnot
    unfold FindsOpen
    split
    · rename_i i t
      split
      · rename_i caller k hi
        intro hprobing
        by_contra hstate
        exact hnot hprobing ⟨i, t, caller, .loadState, k, rfl, hi, hstate⟩
      · rename_i caller state k hi
        exact fun hprobing => hnot hprobing ⟨i, t, caller, .storeState state, k, rfl, hi, trivial⟩
      · trivial
    · trivial

theorem oneProbe_iff (h : AllInAllows recoveryMs s) (hst : (breakerMachine threshold recoveryMs).step s e = some s') :
    OneProbe threshold recoveryMs s e ↔ FindsOpen s e := by
  rw [findsOpen_iff, ← admits_iff h hst]
  constructor
  · rintro hone hprobing ⟨i, hadmits⟩
    exact hone s' i hst hprobing hadmits
  · rintro hnot s'' i hst' hprobing hadmits
    obtain rfl := Option.some.inj (hst.symm.trans hst')
    exact hnot hprobing ⟨i, hadmits⟩

/-! ## Along a run -/

/-- A run meets one condition as soon as it meets another one that is the same wherever it gets. -/
theorem Steps.convert {S E : Type} {step : S → E → Option S} {ok ok' : S → E → Prop} {I : S → Prop}
    (hI : ∀ s e s', I s → step s e = some s' → I s')
    (hok : ∀ s e s', I s → step s e = some s' → ok s e → ok' s e) {s s' : S} {es : List E}
    (h : Steps step ok s es s') (hs : I s) : Steps step ok' s es s' := by
  induction h with
  | nil s => exact .nil s
  | cons hcond hst _ ih => exact .cons (hok _ _ _ hs hst hcond) hst (ih (hI _ _ _ hs hst))

/-- The condition is met by the event after the first part of a run. -/
theorem Steps.ok_at {S E : Type} {step : S → E → Option S} {ok : S → E → Prop} {s s₁ s' : S} {es es' : List E} {e : E}
    (h : Steps step ok s (es ++ e :: es') s') (hrun : TurbineProxy.run step s es = some s₁) : ok s₁ e := by
  induction es generalizing s with
  | nil =>
    obtain rfl := Option.some.inj hrun
    cases h with
    | cons hok _ _ => exact hok
  | cons e' es ih =>
    cases h with
    | cons _ hst hrest =>
      rw [TurbineProxy.run, hst] at hrun
      exact ih hrest hrun

/-- Nobody has begun. -/
theorem allInAllows_start : AllInAllows recoveryMs (breakerStart threshold recoveryMs) := fun _ _ _ => nofun

/-- Where nobody else is let through, `allows` finds the breaker open. -/
theorem findsOpen_of_oneProbe {s : BreakerState}
    (h : Steps (breakerMachine threshold recoveryMs).step (OneProbe threshold recoveryMs)
      (breakerStart threshold recoveryMs) es s) :
    Steps (breakerMachine threshold recoveryMs).step FindsOpen (breakerStart threshold recoveryMs) es s :=
  h.convert (fun _ _ _ h hst => AllInAllows.step h hst) (fun _ _ _ h hst => (oneProbe_iff h hst).mp) allInAllows_start

/-- **One probe at a time**: along a run nobody else is let through while a probe is out if, and only if,
`allows` finds the breaker open all the while. -/
theorem one_probe_iff {s : BreakerState} :
    Steps (breakerMachine threshold recoveryMs).step (OneProbe threshold recoveryMs)
        (breakerStart threshold recoveryMs) es s ↔
      Steps (breakerMachine threshold recoveryMs).step FindsOpen (breakerStart threshold recoveryMs) es s := by
  constructor
  · exact findsOpen_of_oneProbe
  · exact fun h => h.convert (fun _ _ _ h hst => AllInAllows.step h hst)
      (fun _ _ _ h hst => (oneProbe_iff h hst).mpr) allInAllows_start

end Probes

/-- Request `i` makes a call at time `t`, which takes `n` accesses. -/
def callsAt (i : Nat) (c : BreakerCall) (n t : Nat) : List BreakerEvent :=
  .msg i c :: List.replicate n (.op i fun _ => t)

/-- A failure opens the breaker; when it has recovered, one request is let through, and another one asks. -/
def twoAsk : List BreakerEvent :=
  callsAt 0 .recordFailure 6 0 ++ callsAt 1 .allows 4 10 ++ callsAt 2 .allows 0 11

/-- What request 2 is about to find while request 1 is probing. -/
def foundHalfOpen (s : BreakerState) : Bool :=
  match s.thread 2 with
  | .busy _ .allows (.op .loadState _) => (s.caller 1).probing && s.world.state == .halfOpen
  | _ => false

/-- Whoever asks while a probe is out is let through. -/
theorem second_probe : ¬∀ (threshold recoveryMs : Nat) (es : List BreakerEvent) (s : BreakerState), 0 < recoveryMs →
    run (breakerMachine threshold recoveryMs).step (breakerStart threshold recoveryMs) es = some s →
    Steps (breakerMachine threshold recoveryMs).step (OneProbe threshold recoveryMs)
      (breakerStart threshold recoveryMs) es s := by
  intro h
  have hfound : (run (breakerMachine 1 10).step (breakerStart 1 10) twoAsk).map foundHalfOpen = some true := by
    decide +kernel
  obtain ⟨s₁, hs₁, hfound⟩ := Option.map_eq_some_iff.mp hfound
  have hlast : (run (breakerMachine 1 10).step (breakerStart 1 10) (twoAsk ++ [.op 2 fun _ => 11])).isSome = true := by
    decide +kernel
  obtain ⟨s, hs⟩ := Option.isSome_iff_exists.mp hlast
  have hfinds := (findsOpen_of_oneProbe (h 1 10 _ s (by decide) hs)).ok_at hs₁
  rw [foundHalfOpen] at hfound
  unfold FindsOpen at hfinds
  dsimp only at hfinds
  split at hfound
  · rename_i hi
    rw [hi] at hfinds
    rw [Bool.and_eq_true, beq_iff_eq] at hfound
    cases (hfinds ⟨1, hfound.1⟩).symm.trans hfound.2
  · cases hfound

end TurbineProxy
