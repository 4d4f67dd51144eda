import TurbineProxy.ConfigTypes
import TurbineProxy.Pool
import TurbineProxy.Threads

/-!
# How many sessions a user has

`handle_connection` counts a session in the `UserRegistry` before it compares the count with the limit of
its user, and takes it back when the session is refused or ends. Each call of the registry holds its
lock, so a session is in one of a few phases between them, and the sessions take their steps in any
order. The semaphore of `run` bounds how many there are. Nothing takes a session back whose task panics: it gives
up its permit and stays in the count.
-/

namespace TurbineProxy

open Config (UserConfig)

/-! ## `user_registry.rs` -/

/-- `MutableStats` -/
structure UserStats where
  connectionsActive : UInt64
  connectionsTotal : UInt64
  allowWrites : Bool
  deriving DecidableEq

/-- `UserRegistry` -/
abbrev UserRegistry : Type := Str → Option UserStats

namespace UserRegistry

variable (map : UserRegistry)

/-- `on_connect` -/
def onConnect (user : Str) (allowWrites : Bool) : UserRegistry :=
  let e := (map user).getD ⟨0, 0, allowWrites⟩
  Function.update map user (some ⟨e.connectionsActive + 1, e.connectionsTotal + 1, allowWrites⟩)

/-- `saturating_sub(1)` -/
def saturatingPred (n : UInt64) : UInt64 := if n = 0 then 0 else n - 1

/-- `on_disconnect` -/
def onDisconnect (user : Str) : UserRegistry :=
  match map user with
  | some e => Function.update map user (some { e with connectionsActive := saturatingPred e.connectionsActive })
  | none => map

/-- `active_connections` -/
def activeConnections (user : Str) : UInt64 := (map user).elim 0 (·.connectionsActive)

end UserRegistry

/-! ## `server.rs` -/

/-- A connection, by the calls of the registry it has made. -/
inductive ConnPhase : Type where
  /-- it has a permit -/
  | accepted
  /-- `on_connect` is done -/
  | registered (user : Str)
  /-- it was let in -/
  | serving (user : Str)
  /-- it was not -/
  | refused (user : Str)
  /-- `on_disconnect` is done, or it was never registered -/
  | closed
  deriving DecidableEq

namespace ConnPhase

/-- It has its permit still. -/
def holdsPermit : ConnPhase → Bool
  | closed => false
  | _ => true

/-- It is counted for this user. -/
def counted (user : Str) : ConnPhase → Bool
  | registered u | serving u | refused u => u == user
  | _ => false

/-- It is a session of this user that was let in. -/
def servedTo (user : Str) : ConnPhase → Bool
  | serving u => u == user
  | _ => false

/-- It is between two calls: the next one is due whatever the client does. -/
def betweenCalls : ConnPhase → Bool
  | registered _ | refused _ => true
  | _ => false

end ConnPhase

/-- The server, as far as it counts connections. -/
structure UserServer where
  /-- `max_connections` of the server: the permits of `semaphore` -/
  permits : Nat
  /-- `users_config` -/
  users : List UserConfig
  /-- `user_registry` -/
  registry : UserRegistry
  /-- its connections, in the order in which they were accepted -/
  conns : List ConnPhase

/-- What connections do, in whatever order; one that panics does nothing more. -/
inductive ConnEvent : Type where
  /-- a client connects -/
  | accept
  /-- the handshake fails -/
  | handshakeFailed (i : Nat)
  /-- the handshake succeeds: `on_connect` -/
  | connect (i : Nat) (user : Str) (allowWrites : Bool)
  /-- `active_connections`, and the comparison -/
  | check (i : Nat)
  /-- the session ends, or its refusal is sent: `on_disconnect` -/
  | disconnect (i : Nat)
  /-- the task of the connection panics -/
  | panic (i : Nat)

namespace UserServer

/-- `ProxyServer::new`; `Semaphore::new` panics beyond `usize::MAX >> 3` permits. -/
def start (maxConnections : UInt64) (users : List UserConfig) : Option UserServer :=
  if maxConnections.toNat ≤ (2 ^ 64 - 1) >>> 3 then some ⟨maxConnections.toNat, users, fun _ => none, []⟩
  else none

variable (s : UserServer)

/-- What the comparison with the limit says; 0 is no limit. -/
def letsIn (user : Str) : Bool :=
  match s.users.find? fun u => u.name == user with
  | some cfg => !(0 < cfg.maxConnections && cfg.maxConnections < s.registry.activeConnections user)
  | none => true

/-- Perform an event; `none` where the connection is not at that point. -/
def step (s : UserServer) : ConnEvent → Option UserServer
  | .accept =>
    -- without a permit, the socket is dropped
    some (if s.conns.countP (·.holdsPermit) < s.permits then { s with conns := s.conns ++ [.accepted] } else s)
  | .handshakeFailed i =>
    match s.conns[i]? with
    | some .accepted => some { s with conns := s.conns.set i .closed }
    | _ => none
  | .connect i user allowWrites =>
    match s.conns[i]? with
    | some .accepted => some { s with
        registry := s.registry.onConnect user allowWrites
        conns := s.conns.set i (.registered user) }
    | _ => none
  | .check i =>
    match s.conns[i]? with
    | some (.registered user) =>
      some { s with conns := s.conns.set i (if s.letsIn user then .serving user else .refused user) }
    | _ => none
  | .disconnect i =>
    match s.conns[i]? with
    | some (.serving user) | some (.refused user) => some { s with
        registry := s.registry.onDisconnect user
        conns := s.conns.set i .closed }
    | _ => none
  | .panic i =>
    match s.conns[i]? with
    | some .closed | none => none
    | _ => some { s with conns := s.conns.set i .closed }

/-- No session panics that is counted. -/
def survives (s : UserServer) : ConnEvent → Bool
  | .panic i => s.conns[i]? == some .accepted
  | _ => true

/-- The sessions of a user that are counted. -/
def registered (user : Str) : Nat := s.conns.countP (·.counted user)

/-- The sessions of a user that were let in. -/
def served (user : Str) : Nat := s.conns.countP (·.servedTo user)

/-- What is counted, and how many there can be. -/
structure Consistent (s : UserServer) : Prop where
  /-- the registry counts the sessions -/
  counts : ∀ user, (s.registry.activeConnections user).toNat = s.registered user
  /-- every connection has a permit -/
  room : s.conns.countP (·.holdsPermit) ≤ s.permits
  /-- there are not too many permits -/
  permitted : s.permits < 2 ^ 63
  /-- the limits hold -/
  limited : ∀ user cfg, s.users.find? (fun u => u.name == user) = some cfg → 0 < cfg.maxConnections →
    s.served user ≤ cfg.maxConnections.toNat

section Steps

variable {s s' : UserServer} {user : Str} {i : Nat}

theorem registered_le (h : Consistent s) (user : Str) : s.registered user ≤ s.permits := by
  refine Nat.le_trans (List.countP_mono_left fun c _ hc => ?_) h.room
  cases c <;> first | rfl | cases hc

theorem served_le (s : UserServer) (user : Str) : s.served user ≤ s.registered user := by
  refine List.countP_mono_left fun c _ hc => ?_
  cases c with
  | serving u => exact hc
  | _ => cases hc

theorem activeConnections_onConnect (map : UserRegistry) (u user : Str) (allowWrites : Bool) :
    (map.onConnect u allowWrites).activeConnections user =
      if user = u then map.activeConnections user + 1 else map.activeConnections user := by
  unfold UserRegistry.onConnect UserRegistry.activeConnections
  rw [Function.update_apply]
  split
  · rename_i heq
    subst heq
    cases map user <;> rfl
  · rfl

theorem activeConnections_onDisconnect (map : UserRegistry) (u user : Str) :
    (map.onDisconnect u).activeConnections user =
      if user = u then UserRegistry.saturatingPred (map.activeConnections user)
      else map.activeConnections user := by
  unfold UserRegistry.onDisconnect UserRegistry.activeConnections
  rcases hu : map u with _ | e
  · dsimp only
    split
    · rename_i heq
      rw [heq, hu]
      rfl
    · rfl
  · dsimp only
    rw [Function.update_apply]
    split
    · rename_i heq
      rw [heq, hu]
      rfl
    · rfl

/-- A count that is not zero goes down by one. -/
theorem toNat_saturatingPred {n : UInt64} {k : Nat} (h : n.toNat = k + 1) :
    (UserRegistry.saturatingPred n).toNat = k := by
  have hne : n ≠ 0 := by
    rintro rfl
    cases h
  have hle : (1 : UInt64) ≤ n := UInt64.le_iff_toNat_le.mpr (h ▸ Nat.le_add_left 1 k)
  rw [UserRegistry.saturatingPred, if_neg hne, UInt64.toNat_sub_of_le _ _ hle, h]
  rfl

/-- One connection goes from one phase to another. -/
theorem countP_set {x y : ConnPhase} (q : ConnPhase → Bool) (h : s.conns[i]? = some x) :
    (s.conns.set i y).countP q + (q x).toNat = s.conns.countP q + (q y).toNat := countP_set_add y q h

/-- A connection goes on, and the registry with it. -/
theorem Consistent.move (h : Consistent s) {registry : UserRegistry} {x y : ConnPhase} (hi : s.conns[i]? = some x)
    (hpermit : y.holdsPermit = true → x.holdsPermit = true)
    (hcounts : ∀ user, (registry.activeConnections user).toNat + (x.counted user).toNat =
      s.registered user + (y.counted user).toNat)
    (hlimited : ∀ user, y.servedTo user = true → ∀ cfg, s.users.find? (fun u => u.name == user) = some cfg →
      0 < cfg.maxConnections → s.served user < cfg.maxConnections.toNat) :
    Consistent { s with registry := registry, conns := s.conns.set i y } := by
  refine ⟨fun user => ?_, ?_, h.permitted, fun user cfg hcfg hpos => ?_⟩
  · have heq := countP_set (y := y) (·.counted user) hi
    have hnew := hcounts user
    change (registry.activeConnections user).toNat = (s.conns.set i y).countP (·.counted user)
    rw [registered] at hnew
    omega
  · have heq := countP_set (y := y) (·.holdsPermit) hi
    have hroom := h.room
    have hle : y.holdsPermit.toNat ≤ x.holdsPermit.toNat := by
      cases hy : y.holdsPermit with
      | false => exact Nat.zero_le _
      | true => exact (hpermit hy).symm ▸ Nat.le_refl _
    change (s.conns.set i y).countP (·.holdsPermit) ≤ s.permits
    omega
  · have heq := countP_set (y := y) (·.servedTo user) hi
    have hold := h.limited user cfg hcfg hpos
    change (s.conns.set i y).countP (·.servedTo user) ≤ cfg.maxConnections.toNat
    rw [served] at hold
    cases hy : y.servedTo user with
    | false =>
      rw [hy, Bool.toNat_false] at heq
      omega
    | true =>
      have hlt := hlimited user hy cfg hcfg hpos
      rw [served] at hlt
      rw [hy, Bool.toNat_true] at heq
      omega

/-- `on_connect` -/
theorem Consistent.connect (h : Consistent s) (hi : s.conns[i]? = some .accepted) (allowWrites : Bool) :
    Consistent { s with
      registry := s.registry.onConnect user allowWrites
      conns := s.conns.set i (.registered user) } := by
  refine h.move hi (fun _ => rfl) (fun u => ?_) fun _ hserved => nomatch hserved
  have hle : s.registered u ≤ s.permits := registered_le h u
  have hpermitted := h.permitted
  have hcount := h.counts u
  rw [activeConnections_onConnect]
  by_cases hu : u = user
  · have hcounted : (ConnPhase.registered user).counted u = true := beq_iff_eq.mpr hu.symm
    rw [if_pos hu, hcounted, UInt64.toNat_add, hcount, Nat.mod_eq_of_lt (by simp only [UInt64.toNat_one]; omega)]
    rfl
  · have hcounted : (ConnPhase.registered user).counted u = false := beq_eq_false_iff_ne.mpr (Ne.symm hu)
    rw [if_neg hu, hcounted, hcount]
    rfl

/-- `active_connections`, and what follows from it. -/
theorem Consistent.check (h : Consistent s) (hi : s.conns[i]? = some (.registered user)) :
    Consistent { s with conns := s.conns.set i (if s.letsIn user then .serving user else .refused user) } := by
  refine h.move hi (fun _ => rfl) (fun u => ?_) fun u hserved cfg hcfg hpos => ?_
  · rw [h.counts]
    split <;> rfl
  · cases hin : s.letsIn user with
    | false =>
      rw [hin] at hserved
      cases hserved
    | true =>
      rw [hin, if_pos rfl] at hserved
      obtain rfl : user = u := beq_iff_eq.mp hserved
      -- the session is counted itself, and has not been let in yet
      have hcounted : s.served user < s.registered user := by
        have hothers := served_le { s with conns := s.conns.set i .closed } user
        have hserved := countP_set (y := .closed) (·.servedTo user) hi
        have hregistered := countP_set (y := .closed) (·.counted user) hi
        have hself : (ConnPhase.registered user).counted user = true := beq_self_eq_true user
        rw [hself] at hregistered
        simp only [ConnPhase.counted, ConnPhase.servedTo, Bool.toNat_true, Bool.toNat_false] at hserved hregistered
        unfold served registered at hothers ⊢
        simp only [ConnPhase.counted, ConnPhase.servedTo] at hothers ⊢
        omega
      rw [letsIn] at hin
      rw [hcfg] at hin
      have hle : s.registry.activeConnections user ≤ cfg.maxConnections := by
        have hover : ¬cfg.maxConnections < s.registry.activeConnections user := by
          simpa [hpos] using hin
        exact UInt64.not_lt.mp hover
      rw [UInt64.le_iff_toNat_le, h.counts] at hle
      exact Nat.lt_of_lt_of_le hcounted hle

/-- `on_disconnect` -/
theorem Consistent.disconnect (h : Consistent s) {x : ConnPhase} (hi : s.conns[i]? = some x)
    (hx : x = .serving user ∨ x = .refused user) :
    Consistent { s with registry := s.registry.onDisconnect user, conns := s.conns.set i .closed } := by
  have hcounted : ∀ u, x.counted u = (user == u) := by
    intro u
    rcases hx with rfl | rfl <;> rfl
  refine h.move hi (fun hclosed => nomatch hclosed) (fun u => ?_) fun _ hserved => nomatch hserved
  rw [activeConnections_onDisconnect, hcounted]
  by_cases hu : u = user
  · subst hu
    have hpos : 0 < s.registered u := by
      refine List.countP_pos_iff.mpr ⟨x, List.mem_of_getElem? hi, ?_⟩
      rw [hcounted]
      exact beq_self_eq_true u
    obtain ⟨k, hk⟩ := Nat.exists_eq_succ_of_ne_zero (Nat.ne_of_gt hpos)
    rw [if_pos rfl, toNat_saturatingPred ((h.counts u).trans hk), beq_self_eq_true, hk]
    rfl
  · rw [if_neg hu, h.counts, beq_eq_false_iff_ne.mpr (Ne.symm hu)]
    rfl

/-- Who was never registered may go. -/
theorem Consistent.close (h : Consistent s) (hi : s.conns[i]? = some .accepted) :
    Consistent { s with conns := s.conns.set i .closed } :=
  h.move hi (fun hclosed => nomatch hclosed) (fun u => congrArg (· + 0) (h.counts u)) fun _ hserved => nomatch hserved

/-- Every event keeps the counts right, unless a session panics that is counted. -/
theorem Consistent.step {e : ConnEvent} (h : Consistent s) (hok : s.survives e = true)
    (hstep : s.step e = some s') : Consistent s' := by
  cases e with
  | accept =>
    obtain rfl := Option.some.inj hstep
    split
    · rename_i hroom
      have hcount : ∀ q : ConnPhase → Bool, q .accepted = false →
          (s.conns ++ [ConnPhase.accepted]).countP q = s.conns.countP q := by
        intro q hq
        rw [List.countP_append, List.countP_singleton, hq]
        rfl
      refine ⟨fun user => (h.counts user).trans (hcount (·.counted user) rfl).symm, ?_, h.permitted,
        fun user cfg hcfg hpos => ?_⟩
      · rw [List.countP_append]
        exact hroom
      · exact Nat.le_trans (Nat.le_of_eq (hcount (·.servedTo user) rfl)) (h.limited user cfg hcfg hpos)
    · exact h
  | handshakeFailed i =>
    dsimp only [UserServer.step] at hstep
    split at hstep <;> cases hstep
    rename_i hi
    exact h.close hi
  | connect i user allowWrites =>
    dsimp only [UserServer.step] at hstep
    split at hstep <;> cases hstep
    rename_i hi
    exact h.connect hi allowWrites
  | check i =>
    dsimp only [UserServer.step] at hstep
    split at hstep <;> cases hstep
    rename_i hi
    exact h.check hi
  | disconnect i =>
    dsimp only [UserServer.step] at hstep
    split at hstep <;> cases hstep
    · rename_i hi
      exact h.disconnect hi (.inl rfl)
    · rename_i hi
      exact h.disconnect hi (.inr rfl)
  | panic i =>
    have hi : s.conns[i]? = some .accepted := beq_iff_eq.mp hok
    dsimp only [UserServer.step] at hstep
    rw [hi] at hstep
    cases hstep
    exact h.close hi

/-- The configuration of the users stays as it is. -/
theorem users_step {e : ConnEvent} (hstep : s.step e = some s') : s'.users = s.users := by
  cases e <;> dsimp only [UserServer.step] at hstep <;> split at hstep <;> cases hstep <;> rfl

/-- **Per-user admission** along every run on which no session panics that is counted: a user never has more
sessions than allowed, and the registry counts exactly the sessions between `on_connect` and `on_disconnect`; when
none is between two calls, these are the ones that were let in. -/
theorem admission_bounded {maxConnections : UInt64} {users : List UserConfig} {s₀ : UserServer}
    {events : List ConnEvent} (hstart : start maxConnections users = some s₀)
    (hrun : Steps step (fun s e => s.survives e = true) s₀ events s) :
    (∀ user cfg, users.find? (fun u => u.name == user) = some cfg → 0 < cfg.maxConnections →
      s.served user ≤ cfg.maxConnections.toNat) ∧
    (∀ user, (s.registry.activeConnections user).toNat = s.registered user) ∧
    ((∀ c ∈ s.conns, c.betweenCalls = false) →
      ∀ user, (s.registry.activeConnections user).toNat = s.served user) := by
  obtain ⟨hpermits, heq⟩ := Option.ite_none_right_eq_some.mp hstart
  have hs₀ : Consistent s₀ ∧ s₀.users = users := by
    rw [← Option.some.inj heq]
    exact ⟨⟨fun _ => rfl, Nat.zero_le _, Nat.lt_of_le_of_lt hpermits (by decide), fun _ _ _ _ => Nat.zero_le _⟩, rfl⟩
  obtain ⟨hs, husers⟩ := hrun.induct (P := fun s => Consistent s ∧ s.users = users)
    (fun s e s' hs hok hstep => ⟨hs.1.step hok hstep, (users_step hstep).trans hs.2⟩) hs₀
  refine ⟨fun user cfg hcfg hpos => hs.limited user cfg (husers ▸ hcfg) hpos, hs.counts, fun hquiet user => ?_⟩
  rw [hs.counts]
  refine List.countP_congr fun c hc => ?_
  have hbetween := hquiet c hc
  cases c <;> first | exact Iff.rfl | cases hbetween

end Steps

/-- A user with two connections at most. -/
def pair : UserConfig := ⟨"app".toList, [], true, 2, [], []⟩

/-- Three sessions are registered before any is checked, so the first one is refused; when it is gone, the
others are let in, and one more is turned away. -/
def rush : List ConnEvent :=
  [.accept, .accept, .accept, .connect 0 pair.name true, .connect 1 pair.name true, .connect 2 pair.name true,
    .check 0, .disconnect 0, .check 1, .check 2, .accept, .connect 3 pair.name true, .check 3, .disconnect 3]

theorem admission_bounded_rush : ∃ s₀ s, start 100 [pair] = some s₀ ∧ run step s₀ rush = some s ∧
    s.conns = [.closed, .serving pair.name, .serving pair.name, .closed] ∧
    s.served pair.name ≤ 2 ∧ (s.registry.activeConnections pair.name).toNat = s.served pair.name := by
  have hrun : (run (fun s e => if survives s e then step s e else none) ⟨100, [pair], fun _ => none, []⟩ rush).map
      (·.conns) = some [.closed, .serving pair.name, .serving pair.name, .closed] := by decide +kernel
  obtain ⟨s, hs, hconns⟩ := Option.map_eq_some_iff.mp hrun
  have hstart : start 100 [pair] = some ⟨100, [pair], fun _ => none, []⟩ := rfl
  have hsteps := steps_of_checked (fun _ _ h => h) hs
  obtain ⟨hlimit, -, hquiet⟩ := admission_bounded hstart hsteps
  refine ⟨_, s, hstart, hsteps.run, hconns, hlimit pair.name pair rfl (by decide),
    hquiet (fun c hc => ?_) pair.name⟩
  rw [hconns] at hc
  simp only [List.mem_cons, List.not_mem_nil, or_false] at hc
  rcases hc with rfl | rfl | rfl | rfl <;> rfl

/-- A session of the user logs in, is let in, and panics. -/
def panics (i : Nat) : List ConnEvent := [.accept, .connect i pair.name true, .check i, .panic i]

/-- Two sessions have panicked, and another one asks to be let in. -/
def panickedTwice : List ConnEvent := panics 0 ++ panics 1 ++ [.accept, .connect 2 pair.name true, .check 2]

/-- They are still counted, so nobody is served and nobody is let in any more. -/
theorem count_stuck : ∃ s₀ s, start 100 [pair] = some s₀ ∧ run step s₀ panickedTwice = some s ∧
    s.conns = [.closed, .closed, .refused pair.name] ∧ s.registry.activeConnections pair.name = 3 ∧
    ∃ s', s.step (.disconnect 2) = some s' ∧ (∀ c ∈ s'.conns, c.betweenCalls = false) ∧
      s'.registry.activeConnections pair.name ≠ 0 ∧ s'.served pair.name = 0 := by
  have hrun : (run step ⟨100, [pair], fun _ => none, []⟩ panickedTwice).map (fun s =>
      (s.conns, s.registry.activeConnections pair.name, (s.step (.disconnect 2)).map fun s' =>
        (s'.conns, s'.registry.activeConnections pair.name))) =
      some ([.closed, .closed, .refused pair.name], 3, some ([.closed, .closed, .closed], 2)) := by decide +kernel
  obtain ⟨s, hs, hends⟩ := Option.map_eq_some_iff.mp hrun
  obtain ⟨hconns, hends⟩ := Prod.mk.inj hends
  obtain ⟨hactive, hends⟩ := Prod.mk.inj hends
  obtain ⟨s', hs', hends⟩ := Option.map_eq_some_iff.mp hends
  obtain ⟨hclosed, hleft⟩ := Prod.mk.inj hends
  refine ⟨_, s, rfl, hs, hconns, hactive, s', hs', ?_, ?_, ?_⟩
  · rw [hclosed]
    decide
  · rw [hleft]
    decide
  · rw [served, hclosed]
    rfl

end UserServer

end TurbineProxy
