import TurbineProxy.SessionTokens

/-!
# How many passwords can be tried in a minute

The attempts of an address are counted in a table that a login locks twice, to check and to count a
failure. The count starts again when its window is over, and the sweeper forgets it. `attempts_bounded`
says in which runs no address has more failures in any minute than are allowed: in those in which what a
login has checked still holds when it fails, because no other login of its address has come in between.
-/

namespace TurbineProxy

/-- The instant of an event, if it reads the clock. -/
def AuthEvent.instant : AuthEvent → Option Nat
  | .checkAttempts _ now | .checkCredentials _ now _ | .request _ _ _ now | .refresh _ _ _ now | .sweep now =>
    some now
  | .logout _ => none

/-- The tables, and the time of the latest event: instants do not go back. -/
structure TimedWorld where
  world : AuthWorld
  clock : Nat

/-- At start-up. -/
def TimedWorld.start : TimedWorld := ⟨.start, 0⟩

/-- When the credentials from an address were wrong, the latest first. -/
def failuresOf (ip : Str) (log : List AuthMark) : List Nat :=
  log.filterMap fun
    | .failed ip' now => if ip' = ip then some now else none
    | _ => none

/-- The failures from an address in the minute that begins at `t`. -/
def failuresWithin (ip : Str) (t : Nat) (log : List AuthMark) : Nat :=
  (failuresOf ip log).countP fun f => t ≤ f && f ≤ t + minute

/-- The failures from an address in the last minute. -/
def recentFailures (ip : Str) (now : Nat) (log : List AuthMark) : Nat :=
  (failuresOf ip log).countP fun f => now ≤ f + minute

section Limiter

variable (digest : Bytes → Bytes) (cfg : DashboardConfig)

namespace TimedWorld

/-- Perform an event, under a clock that does not run backwards. -/
def step (w : TimedWorld) (e : AuthEvent) : Option TimedWorld :=
  match e.instant with
  | some now => if w.clock ≤ now then (w.world.step digest cfg e).map (⟨·, now⟩) else none
  | none => (w.world.step digest cfg e).map (⟨·, w.clock⟩)

/-- The counter of an address. -/
def counter (w : TimedWorld) (ip : Str) : Nat := (w.world.rateLimits ip).elim 0 (·.1.toNat)

/-- There is a limit, and a login fails while no other one of its address is between its two halves; a counter
starts again, or is forgotten, after a minute without failures. -/
def Unhurried (w : TimedWorld) : AuthEvent → Prop
  | .checkAttempts req now => ∀ entry, w.world.rateLimits req.ip = some entry → minute < now - entry.2 →
    recentFailures req.ip now w.world.log = 0
  | .checkCredentials req _ _ => cfg.authEnabled = true → roleOf digest cfg req = none →
    0 < cfg.loginMaxAttempts ∧ ∀ other ∈ w.world.pending.erase req, other.ip ≠ req.ip
  | .sweep now => ∀ ip, w.world.rateLimits ip ≠ (w.world.sweep now).rateLimits ip →
    recentFailures ip now w.world.log = 0
  | _ => True

end TimedWorld

/-- At each of these instants, there were fewer than `max` in the minute before. -/
def Spaced (max : Nat) : List Nat → Prop
  | [] => True
  | f :: older => older.countP (f ≤ · + minute) < max ∧ Spaced max older

/-- The counters do not fall short of the failures of the last minute, and a login that has passed the check would
pass it still. -/
structure Limited (w : TimedWorld) : Prop where
  /-- what happened -/
  spaced : ∀ ip, Spaced cfg.loginMaxAttempts.toNat (failuresOf ip w.world.log)
  /-- the counters -/
  counted : ∀ ip, recentFailures ip w.clock w.world.log ≤ w.counter ip
  /-- the logins between their two halves -/
  passed : ∀ req ∈ w.world.pending, 0 < cfg.loginMaxAttempts → w.counter req.ip < cfg.loginMaxAttempts.toNat

variable {digest cfg} {w w' : TimedWorld} {ip : Str} {now t : Nat} {log log' : List AuthMark}

/-- Then no minute has more failures than allowed. -/
theorem Spaced.within {max : Nat} {times : List Nat} (h : Spaced max times) (t : Nat) :
    times.countP (fun f => t ≤ f && f ≤ t + minute) ≤ max := by
  induction times with
  | nil => exact Nat.zero_le _
  | cons f older ih =>
    by_cases hf : t ≤ f ∧ f ≤ t + minute
    · -- the earlier ones of this minute are less than a minute old
      have hrecent : older.countP (fun f' => t ≤ f' && f' ≤ t + minute) ≤ older.countP (f ≤ · + minute) := by
        refine List.countP_mono_left fun f' _ hf' => ?_
        simp only [Bool.and_eq_true, decide_eq_true_eq] at hf' ⊢
        omega
      have hspaced := h.1
      rw [List.countP_cons]
      split <;> omega
    · rw [List.countP_cons_of_neg (by simpa using hf)]
      exact ih h.2

/-- As time passes, there are fewer recent failures. -/
theorem recentFailures_le (h : t ≤ now) : recentFailures ip now log ≤ recentFailures ip t log := by
  refine List.countP_mono_left fun f _ hf => ?_
  simp only [decide_eq_true_eq] at hf ⊢
  omega

theorem failuresOf_failed (now : Nat) (log : List AuthMark) (ip ip' : Str) :
    failuresOf ip (.failed ip' now :: log) = if ip' = ip then now :: failuresOf ip log else failuresOf ip log := by
  unfold failuresOf
  rw [List.filterMap_cons]
  dsimp only
  split <;> rename_i h
  · by_cases heq : ip' = ip
    · rw [if_pos heq] at h
      cases h
    · rw [if_neg heq]
  · by_cases heq : ip' = ip
    · rw [if_pos heq] at h
      rw [if_pos heq, ← Option.some.inj h]
    · rw [if_neg heq] at h
      cases h

/-- Where no failure is noted, it is enough to look at the counters. -/
theorem Limited.pass (h : Limited cfg w) (hclock : w.clock ≤ w'.clock)
    (hlog : ∀ ip, failuresOf ip w'.world.log = failuresOf ip w.world.log)
    (hcounter : ∀ ip, w.counter ip ≤ w'.counter ip ∨ recentFailures ip w'.clock w.world.log = 0)
    (hpassed : ∀ req ∈ w'.world.pending, 0 < cfg.loginMaxAttempts → w'.counter req.ip < cfg.loginMaxAttempts.toNat) :
    Limited cfg w' := by
  refine ⟨fun ip => hlog ip ▸ h.spaced ip, fun ip => ?_, hpassed⟩
  have hsame : recentFailures ip w'.clock w'.world.log = recentFailures ip w'.clock w.world.log := by
    unfold recentFailures
    rw [hlog]
  rw [hsame]
  rcases hcounter ip with hle | hzero
  · exact Nat.le_trans (recentFailures_le hclock) (Nat.le_trans (h.counted ip) hle)
  · exact hzero ▸ Nat.zero_le _

/-- The counter after the check: it is what it was or starts again, and who goes on has found it below the limit. -/
theorem TimedWorld.counter_checkAttempts (w : TimedWorld) (req : LoginRequest) (now : Nat)
    (hmax : 0 < cfg.loginMaxAttempts) (ip : Str) :
    TimedWorld.counter ⟨w.world.checkAttempts cfg req now, now⟩ ip ≤ w.counter ip ∧
      ∀ r ∈ (w.world.checkAttempts cfg req now).pending, r ∈ w.world.pending ∨
        r = req ∧ TimedWorld.counter ⟨w.world.checkAttempts cfg req now, now⟩ r.ip < cfg.loginMaxAttempts.toNat := by
  rw [AuthWorld.checkAttempts]
  rw [if_pos hmax]
  constructor
  · unfold TimedWorld.counter
    dsimp only
    by_cases hip : ip = req.ip
    · subst hip
      rw [Function.update_self]
      rcases w.world.rateLimits req.ip with _ | entry
      · simp [checkEntry]
      · by_cases hover : minute < now - entry.2 <;> simp [checkEntry, hover]
    · rw [Function.update_of_ne hip]
  · intro r hr
    dsimp only at hr
    split at hr
    · rename_i hgoes
      rcases List.mem_cons.mp hr with rfl | hr
      · refine .inr ⟨rfl, ?_⟩
        unfold TimedWorld.counter
        dsimp only
        rw [Function.update_self]
        exact UInt32.lt_iff_toNat_lt.mp (of_decide_eq_true hgoes)
      · exact .inl hr
    · exact .inl hr

/-- The check of an address. -/
theorem Limited.checkAttempts (h : Limited cfg w) {req : LoginRequest} (hclock : w.clock ≤ now)
    (hok : w.Unhurried digest cfg (.checkAttempts req now)) :
    Limited cfg ⟨w.world.checkAttempts cfg req now, now⟩ := by
  refine h.pass hclock (fun ip => ?_) (fun ip => ?_) fun r hr hmax => ?_
  · rw [AuthWorld.checkAttempts]
    split <;> rfl
  · rw [AuthWorld.checkAttempts]
    split
    · by_cases hip : ip = req.ip
      · subst hip
        change _ ≤ ((Function.update w.world.rateLimits req.ip _) req.ip).elim 0 (·.1.toNat) ∨ _
        rw [Function.update_self]
        rw [TimedWorld.counter]
        rcases hentry : w.world.rateLimits req.ip with _ | entry
        · exact .inl (Nat.zero_le _)
        · by_cases hover : minute < now - entry.2
          · exact .inr (hok entry hentry hover)
          · refine .inl (Nat.le_of_eq ?_)
            simp [checkEntry, hover]
      · refine .inl (Nat.le_of_eq ?_)
        simp [TimedWorld.counter, Function.update_of_ne hip]
    · exact .inl (Nat.le_refl _)
  · obtain ⟨hle, hpending⟩ := w.counter_checkAttempts req now hmax r.ip
    rcases hpending r hr with hr | ⟨-, hlt⟩
    · exact Nat.lt_of_le_of_lt hle (h.passed r hr hmax)
    · exact hlt

/-- A failure, by the only login of its address. -/
theorem Limited.fail (h : Limited cfg w) (hclock : w.clock ≤ now) {req : LoginRequest}
    {pending : List LoginRequest} (hmem : req ∈ w.world.pending) (hsub : pending ⊆ w.world.pending)
    (halone : ∀ other ∈ pending, other.ip ≠ req.ip) (hmax : 0 < cfg.loginMaxAttempts) :
    Limited cfg ⟨{ w.world with
      rateLimits := if 0 < cfg.loginMaxAttempts then
          Function.update w.world.rateLimits req.ip (some (countFailure (w.world.rateLimits req.ip) now))
        else w.world.rateLimits
      pending := pending
      log := .failed req.ip now :: w.world.log }, now⟩ := by
  have hlt := h.passed req hmem hmax
  have hrecent : ∀ ip, recentFailures ip now w.world.log ≤ w.counter ip :=
    fun ip => Nat.le_trans (recentFailures_le hclock) (h.counted ip)
  rw [if_pos hmax]
  refine ⟨fun ip => ?_, fun ip => ?_, fun other hother _ => ?_⟩
  · change Spaced _ (failuresOf ip (.failed req.ip now :: w.world.log))
    rw [failuresOf_failed]
    split
    · rename_i hip
      subst hip
      exact ⟨Nat.lt_of_le_of_lt (hrecent req.ip) hlt, h.spaced req.ip⟩
    · exact h.spaced ip
  · change (failuresOf ip (.failed req.ip now :: w.world.log)).countP (now ≤ · + minute) ≤
      ((Function.update w.world.rateLimits req.ip _) ip).elim 0 (·.1.toNat)
    rw [failuresOf_failed]
    by_cases hip : req.ip = ip
    · subst hip
      have hsucc : (countFailure (w.world.rateLimits req.ip) now).1.toNat = w.counter req.ip + 1 := by
        have hfits : w.counter req.ip + 1 < 2 ^ 32 :=
          Nat.lt_of_le_of_lt hlt cfg.loginMaxAttempts.toNat_lt
        unfold TimedWorld.counter at hfits ⊢
        rw [countFailure]
        generalize w.world.rateLimits req.ip = entry at hfits ⊢
        cases entry
        · rfl
        · exact (UInt32.toNat_add _ _).trans (Nat.mod_eq_of_lt hfits)
      rw [if_pos rfl, Function.update_self, Option.elim_some, hsucc, List.countP_cons]
      have hle : (failuresOf req.ip w.world.log).countP (now ≤ · + minute) ≤ w.counter req.ip := hrecent req.ip
      split <;> omega
    · rw [if_neg hip, Function.update_of_ne (Ne.symm hip)]
      exact hrecent ip
  · -- the others are of other addresses
    change ((Function.update w.world.rateLimits req.ip _) other.ip).elim 0 (·.1.toNat) < _
    rw [Function.update_of_ne (halone other hother)]
    exact h.passed other (hsub hother) hmax

/-- The second half of a login. -/
theorem Limited.checkCredentials (h : Limited cfg w) {req : LoginRequest} {token : Str}
    (hclock : w.clock ≤ now) (hmem : req ∈ w.world.pending) (hok : w.Unhurried digest cfg (.checkCredentials req now token)) :
    Limited cfg ⟨w.world.checkCredentials digest cfg req now token, now⟩ := by
  have hissue : ∀ role, Limited cfg
      ⟨({ w.world with pending := w.world.pending.erase req } : AuthWorld).issue digest cfg req token role now,
        now⟩ := by
    intro role
    have hsame : ∀ ip, TimedWorld.counter
        ⟨({ w.world with pending := w.world.pending.erase req } : AuthWorld).issue digest cfg req token role now,
          now⟩ ip = w.counter ip := by
      intro ip
      unfold AuthWorld.issue TimedWorld.counter
      cases makeEntry cfg role now <;> rfl
    refine h.pass hclock (fun ip => ?_) (fun ip => .inl (Nat.le_of_eq (hsame ip).symm)) fun r hr hmax => ?_
    · rw [AuthWorld.issue]
      cases makeEntry cfg role now <;> rfl
    · rw [hsame]
      have hleft : r ∈ w.world.pending.erase req := by
        rw [AuthWorld.issue] at hr
        cases hentry : makeEntry cfg role now <;> rw [hentry] at hr <;> exact hr
      exact h.passed r (List.erase_subset hleft) hmax
  rw [AuthWorld.checkCredentials]
  dsimp only
  cases henabled : cfg.authEnabled with
  | false => exact hissue .admin
  | true =>
    simp only [Bool.not_true, Bool.false_eq_true, if_false]
    rcases hrole : roleOf digest cfg req with _ | role
    · obtain ⟨hmax, halone⟩ := hok henabled hrole
      exact h.fail hclock hmem (fun _ => List.mem_of_mem_erase) halone hmax
    · exact hissue role

/-- Every event keeps the counters right. -/
theorem Limited.step (h : Limited cfg w) {e : AuthEvent} (hok : w.Unhurried digest cfg e)
    (hstep : w.step digest cfg e = some w') : Limited cfg w' := by
  rw [TimedWorld.step] at hstep
  cases e with
  | checkAttempts req now =>
    obtain ⟨hclock, hstep⟩ := Option.ite_none_right_eq_some.mp hstep
    obtain rfl := Option.some.inj hstep
    exact h.checkAttempts hclock hok
  | checkCredentials req now token =>
    obtain ⟨hclock, hstep⟩ := Option.ite_none_right_eq_some.mp hstep
    obtain ⟨world, hworld, rfl⟩ := Option.map_eq_some_iff.mp hstep
    obtain ⟨hmem, hworld⟩ := Option.ite_none_right_eq_some.mp hworld
    obtain rfl := Option.some.inj hworld
    exact h.checkCredentials hclock hmem hok
  | request method path token now =>
    obtain ⟨hclock, hstep⟩ := Option.ite_none_right_eq_some.mp hstep
    obtain rfl := Option.some.inj hstep
    rw [AuthWorld.request]
    split
    · exact h.pass hclock (fun _ => rfl) (fun _ => .inl (Nat.le_refl _)) h.passed
    · exact h.pass hclock (fun _ => rfl) (fun _ => .inl (Nat.le_refl _)) h.passed
  | logout token =>
    obtain rfl := Option.some.inj hstep
    exact h.pass (Nat.le_refl _) (fun _ => rfl) (fun _ => .inl (Nat.le_refl _)) h.passed
  | refresh old new now later =>
    obtain ⟨hclock, hstep⟩ := Option.ite_none_right_eq_some.mp hstep
    obtain rfl := Option.some.inj hstep
    have hframe : (∀ ip, failuresOf ip (w.world.refreshToken digest cfg old new now later).log =
        failuresOf ip w.world.log) ∧
        (w.world.refreshToken digest cfg old new now later).rateLimits = w.world.rateLimits ∧
        (w.world.refreshToken digest cfg old new now later).pending = w.world.pending := by
      rw [AuthWorld.refreshToken]
      rcases w.world.tokens (tokenHash digest old) with _ | entry
      · exact ⟨fun _ => rfl, rfl, rfl⟩
      · dsimp only
        split
        · exact ⟨fun _ => rfl, rfl, rfl⟩
        · rcases makeEntry cfg entry.role later with _ | fresh <;> exact ⟨fun _ => rfl, rfl, rfl⟩
    obtain ⟨hlog, hlimits, hpending⟩ := hframe
    have hsame : ∀ ip, TimedWorld.counter ⟨w.world.refreshToken digest cfg old new now later, later⟩ ip =
        w.counter ip := by
      intro ip
      unfold TimedWorld.counter
      dsimp only
      rw [hlimits]
    refine h.pass hclock hlog (fun ip => .inl (Nat.le_of_eq (hsame ip).symm)) fun r hr hmax => ?_
    exact Nat.lt_of_le_of_lt (Nat.le_of_eq (hsame r.ip)) (h.passed r (hpending ▸ hr) hmax)
  | sweep now =>
    obtain ⟨hclock, hstep⟩ := Option.ite_none_right_eq_some.mp hstep
    obtain rfl := Option.some.inj hstep
    refine h.pass hclock (fun ip => rfl) (fun ip => ?_) fun r hr hmax => ?_
    rotate_left
    · refine Nat.lt_of_le_of_lt ?_ (h.passed r hr hmax)
      unfold TimedWorld.counter AuthWorld.sweep
      dsimp only
      generalize (fun entry : UInt32 × Nat => decide (_ < entry.2)) = kept
      rcases w.world.rateLimits r.ip with _ | entry
      · exact Nat.le_refl _
      · rw [Option.filter_some]
        cases kept entry
        · exact Nat.zero_le _
        · exact Nat.le_refl _
    -- an entry that is dropped leaves no failure in the minute before
    by_cases hkept : w.world.rateLimits ip = (w.world.sweep now).rateLimits ip
    · refine .inl (Nat.le_of_eq ?_)
      unfold TimedWorld.counter
      rw [← hkept]
    · exact .inr (hok ip hkept)

/-- **Login attempts**: no minute has more failures from an address than are allowed, along every run in
which no event is hurried. -/
theorem attempts_bounded {events : List AuthEvent}
    (h : Steps (TimedWorld.step digest cfg) (TimedWorld.Unhurried digest cfg) .start events w)
    (ip : Str) (t : Nat) : failuresWithin ip t w.world.log ≤ cfg.loginMaxAttempts.toNat := by
  have hstart : Limited cfg .start := ⟨fun _ => trivial, fun _ => Nat.le_refl 0, nofun⟩
  exact ((h.induct (fun _ _ _ hw hok hstep => hw.step hok hstep) hstart).spaced ip).within t

end Limiter

/-! ## Runs -/

/-- Two failures are allowed in a minute. -/
def twoAttempts : DashboardConfig := ⟨"admin".toList, "secret".toList, [], [], 3600, 2⟩

/-- A guess. -/
def guess : LoginRequest := ⟨"10.0.0.9".toList, "admin".toList, "viewer-pass".toList⟩

/-- One guess after the other; the third one is turned away, the next one comes ten seconds after the
window. -/
def oneByOne : List AuthEvent :=
  [.checkAttempts guess 0, .checkCredentials guess 1 [], .checkAttempts guess 2, .checkCredentials guess 3 [],
    .checkAttempts guess 4, .checkAttempts guess (minute + 10 * 10 ^ 9),
    .checkCredentials guess (minute + 10 * 10 ^ 9) []]

/-- What is checked on the way: nothing is swept there. -/
def TimedWorld.unhurried (w : TimedWorld) : AuthEvent → Bool
  | .checkAttempts req now => (w.world.rateLimits req.ip).all fun entry =>
    !(minute < now - entry.2) || recentFailures req.ip now w.world.log == 0
  | .checkCredentials req _ _ => (w.world.pending.erase req).all (·.ip != req.ip)
  | .sweep _ => false
  | _ => true

theorem unhurried_of_checked (w : TimedWorld) (e : AuthEvent) (h : w.unhurried e = true) :
    w.Unhurried sampleDigest twoAttempts e := by
  cases e with
  | checkAttempts req now =>
    intro entry hentry hover
    simpa [TimedWorld.unhurried, hentry, hover] using h
  | checkCredentials req now token =>
    exact fun _ _ => ⟨by decide, fun other hother => by simpa using List.all_eq_true.mp h other hother⟩
  | sweep now => cases h
  | _ => trivial

theorem attempts_bounded_oneByOne : ∃ w,
    run (TimedWorld.step sampleDigest twoAttempts) .start oneByOne = some w ∧
    failuresOf "10.0.0.9".toList w.world.log = [minute + 10 * 10 ^ 9, 3, 1] ∧
    ∀ t, failuresWithin "10.0.0.9".toList t w.world.log ≤ 2 := by
  have hrun : (run (fun w e => if w.unhurried e then TimedWorld.step sampleDigest twoAttempts w e else none)
      .start oneByOne).map (failuresOf "10.0.0.9".toList ·.world.log) = some [minute + 10 * 10 ^ 9, 3, 1] := by
    decide +kernel
  obtain ⟨w, hw, hlog⟩ := Option.map_eq_some_iff.mp hrun
  have hsteps := steps_of_checked unhurried_of_checked hw
  exact ⟨w, hsteps.run, hlog, attempts_bounded hsteps _⟩

/-- Three guesses at once. -/
def atOnce : List AuthEvent :=
  [.checkAttempts guess 0, .checkAttempts guess 0, .checkAttempts guess 0, .checkCredentials guess 1 [],
    .checkCredentials guess 1 [], .checkCredentials guess 1 []]

/-- All of them are compared, although two failures are allowed. -/
theorem attempts_exceeded : ¬ ∀ (digest : Bytes → Bytes) (cfg : DashboardConfig) (events : List AuthEvent)
    (w : TimedWorld), run (TimedWorld.step digest cfg) .start events = some w →
      ∀ ip t, failuresWithin ip t w.world.log ≤ cfg.loginMaxAttempts.toNat := by
  intro h
  have hrun : (run (TimedWorld.step sampleDigest twoAttempts) .start atOnce).map
      (failuresWithin "10.0.0.9".toList 0 ·.world.log) = some 3 := by decide +kernel
  obtain ⟨w, hw, hthree⟩ := Option.map_eq_some_iff.mp hrun
  have hle := h sampleDigest twoAttempts atOnce w hw "10.0.0.9".toList 0
  rw [hthree] at hle
  exact absurd hle (by decide)

end TurbineProxy
