import TurbineProxy.Pool
import TurbineProxy.Threads
import Mathlib.Data.Finset.Card
import Mathlib.Logic.Relation

/-!
# Concurrent calls on one `ConnectionPool`

`get_for_database` and `put_for_database` with their suspension points: a `Call` is a program
counter in one of the two functions, `Call.next` performs the one atomic access that comes next, and
a run interleaves any number of calls in any order. The pieces are those of `Pool.lean`: a call that
nobody interrupts is `ConnectionPool.getForDatabase` (`alone_get`) or `ConnectionPool.putForDatabase`
(`alone_put`).

Two questions are about these runs.

* **The cap.** `max_connections` is compared with `borrowed` in one step and `borrowed` is raised in a
  later one, and what lies idle or is on its way back is not in `borrowed` but may be handed out without a
  comparison. `borrowed` stays under the cap along the runs in which every comparison comes out as if it
  saw these too (`Overseen`), and a permit is taken only where that comparison would pass.
* **The wait queue.** The semaphore starts with `pool_wait_queue_size` permits and every put adds one,
  so a permit need not stand for a slot. A request that finds the pool full *and the semaphore empty*
  is admitted by a put of its own. Nothing bounds the queue but the number of callers.
-/

namespace TurbineProxy

open ConnectionPool (GetInput Checkout)

/-- A `get_for_database` or `put_for_database` call, by what it does next. `since` is the position in
the log at which a waiting request found the pool full. -/
inductive Call : Type where
  /-- get: lock the buckets and pop -/
  | pop (key : Str)
  /-- get: count the idle connection that was popped -/
  | reuse (c : ConnId)
  /-- get: compare `borrowed` with the cap -/
  | check (key : Str)
  /-- get: count itself as waiting -/
  | enqueue (key : Str) (since : Nat)
  /-- get: wait for a permit -/
  | waiting (key : Str) (since : Nat)
  /-- get: no longer waiting, with a permit or without -/
  | leave (key : Str) (granted : Bool)
  /-- get: open a connection -/
  | connect (key : Str)
  /-- get: run `init_connect` on it -/
  | initConnect (key : Str)
  /-- get: count the new connection -/
  | raise (key : Str)
  /-- get: done -/
  | returned (r : Checkout)
  /-- put: lower `borrowed` -/
  | release (c : ConnId) (inTransaction healthy : Bool) (database : Option Str)
  /-- put: add a permit -/
  | signal (c : ConnId) (inTransaction healthy : Bool) (database : Option Str)
  /-- put: lock the buckets and push -/
  | store (key : Str) (c : ConnId)
  /-- put: done, and whether the connection was kept -/
  | finished (kept : Bool)
  deriving DecidableEq

namespace Call

/-- The request has been let in but is not counted in `borrowed` yet. -/
def admitted : Call → Bool
  | reuse _ | leave _ true | connect _ | initConnect _ | raise _ => true
  | _ => false

/-- When a request that still waits found the pool full. -/
def since : Call → Option Nat
  | enqueue _ t | waiting _ t => some t
  | _ => none

/-- The request found the pool full and has neither a permit nor an error yet. -/
def inQueue (call : Call) : Bool := call.since.isSome

/-- A `get_for_database` that has not returned. -/
def inGet : Call → Bool
  | pop _ | reuse _ | check _ | enqueue .. | waiting .. | leave .. | connect _ | initConnect _ | raise _ => true
  | _ => false

/-- The put has a connection that it is going to keep, and is not counted in `borrowed` any more. -/
def returning : Call → Bool
  | signal _ tx healthy _ => !(tx || !healthy)
  | store .. => true
  | _ => false

/-- The put is counted in `borrowed` still. -/
def releasing : Call → Bool
  | release .. => true
  | _ => false

/-- The put has added its permit. -/
def signalled : Call → Bool
  | store .. | finished _ => true
  | _ => false

/-- The next atomic access of a call; `none` when it is over, or waits for a permit in vain. -/
def next (p : ConnectionPool) (now : Nat) (inp : GetInput) : Call → Option (ConnectionPool × Call)
  | pop key =>
    let r := p.popIdle key inp.now
    some (r.1, match r.2.2 with
      | some c => reuse c
      | none => check key)
  | reuse c => some (p.countReuse, returned (.reused c))
  | check key =>
    if p.atCap then
      if p.hasQueue then some (p, enqueue key now)
      else some (p, returned (.failed p.limitError))
    else some (p, connect key)
  | enqueue key since => some (p.enterQueue, waiting key since)
  | waiting key _ =>
    if inp.granted then p.acquire.map fun p => (p, leave key true)
    else some (p, leave key false)
  | leave key true => some (p.leaveQueue, connect key)
  | leave _ false => some (p.leaveQueue.countTimeout, returned (.failed p.waitTimeoutError))
  | connect key =>
    match inp.connectError with
    | some e => some (p, returned (.failed e))
    | none => some (p, initConnect key)
  | initConnect key =>
    match (if p.config.backend.initConnect.isEmpty then none else inp.initError) with
    | some e => some (p, returned (.failed ("init_connect failed: ".toList ++ e)))
    | none => some (p, raise key)
  | raise key => some (p.countOpen, returned (.opened (if key.isEmpty then none else some key)))
  | release c tx healthy db => some (p.release, signal c tx healthy db)
  | signal c tx healthy db =>
    some (p.signal, if tx || !healthy then finished false else store (p.dbKey db) c)
  | store key c =>
    let r := p.store key c inp.now
    some (r.1, finished r.2)
  | returned _ | finished _ => none

/-- The steps after which a connection is opened: the comparison with the cap passes, a permit is granted. -/
def opens (p : ConnectionPool) (inp : GetInput) : Call → Bool
  | check _ => !p.atCap
  | waiting .. => inp.granted
  | _ => false

/-- The connection a step hands to its caller; a new one is called `fresh`. -/
def handsOut (fresh : ConnId) : Call → Option ConnId
  | reuse c => some c
  | raise _ => some fresh
  | _ => none

end Call

/-! ## Calls that nobody interrupts -/

namespace Call

/-- The steps of one call by itself, on one input. -/
def Alone (now : Nat) (inp : GetInput) : ConnectionPool × Call → ConnectionPool × Call → Prop :=
  Relation.ReflTransGen fun q q' => q.2.next q.1 now inp = some q'

theorem Alone.head {now : Nat} {inp : GetInput} {q r : ConnectionPool × Call}
    (q' : ConnectionPool × Call) (h : q.2.next q.1 now inp = some q') (hr : Alone now inp q' r) : Alone now inp q r :=
  Relation.ReflTransGen.head h hr

theorem Alone.last {now : Nat} {inp : GetInput} {q q' : ConnectionPool × Call}
    (h : q.2.next q.1 now inp = some q') : Alone now inp q q' := Relation.ReflTransGen.single h

/-- Opening a connection, step by step. -/
theorem alone_connect (now : Nat) (inp : GetInput) (p : ConnectionPool) (key : Str) :
    Alone now inp (p, connect key) ((p.openNew key inp).1, returned (p.openNew key inp).2) := by
  rw [ConnectionPool.openNew]
  rcases hconn : inp.connectError with _ | e
  · refine .head (p, initConnect key) (by simp only [next, hconn]) ?_
    rcases hinit : (if p.config.backend.initConnect.isEmpty then none else inp.initError) with _ | e
    · exact .head (p, raise key) (by simp only [next, hinit]) (.last rfl)
    · exact .last (by simp only [next, hinit])
  · exact .last (by simp only [next, hconn])

/-- A `get_for_database` that nobody interrupts is the function of that name. -/
theorem alone_get {now : Nat} {inp : GetInput} {p p' : ConnectionPool} {db : Option Str}
    {stale : List ConnId} {r : Checkout} (h : p.getForDatabase db inp = some (p', stale, r)) :
    Alone now inp (p, pop (p.dbKey db)) (p', returned r) := by
  rw [ConnectionPool.getForDatabase] at h
  generalize p.dbKey db = key at h ⊢
  dsimp only at h
  rcases hpop : (p.popIdle key inp.now).2.2 with _ | c
  · refine .head ((p.popIdle key inp.now).1, check key) (by simp only [next, hpop]) ?_
    simp only [hpop] at h
    generalize (p.popIdle key inp.now).1 = q at h ⊢
    split at h
    · rename_i hcap
      split at h
      · rename_i hqueue
        refine .head (q, enqueue key now) (by simp only [next, hcap, hqueue, if_true]) ?_
        refine .head (q.enterQueue, waiting key now) rfl ?_
        split at h
        · rename_i hg
          rw [Option.map_eq_some_iff] at h
          obtain ⟨q', hq', heq⟩ := h
          obtain ⟨rfl, -, rfl⟩ : _ ∧ _ ∧ _ := by simpa using heq
          refine .head (q', leave key true)
            (by simp only [next, hg, if_true, hq', Option.map_some]) ?_
          exact .head (q'.leaveQueue, connect key) rfl (alone_connect now inp _ key)
        · rename_i hg
          obtain ⟨rfl, -, rfl⟩ : _ ∧ _ ∧ _ := by simpa using h
          refine .head (q.enterQueue, leave key false) (by simp [next, hg]) ?_
          exact .last rfl
      · rename_i hqueue
        obtain ⟨rfl, -, rfl⟩ : _ ∧ _ ∧ _ := by simpa using h
        exact .last (by simp [next, hcap, hqueue])
    · rename_i hcap
      obtain ⟨rfl, -, rfl⟩ : _ ∧ _ ∧ _ := by simpa using h
      exact .head (q, connect key) (by simp [next, hcap]) (alone_connect now inp q key)
  · simp only [hpop] at h
    obtain ⟨rfl, -, rfl⟩ : _ ∧ _ ∧ _ := by simpa using h
    exact .head (_, reuse c) (by simp only [next, hpop]) (.last rfl)

/-- A `put_for_database` that nobody interrupts is the function of that name. -/
theorem alone_put (now : Nat) (inp : GetInput) (p : ConnectionPool) (c : ConnId)
    (tx healthy : Bool) (db : Option Str) :
    Alone now inp (p, release c tx healthy db)
      ((p.putForDatabase c tx healthy db inp.now).1,
        finished (p.putForDatabase c tx healthy db inp.now).2) := by
  rw [ConnectionPool.putForDatabase]
  refine .head (p.release, signal c tx healthy db) rfl ?_
  rcases hkeep : (tx || !healthy) with _ | _
  · refine .head (p.release.signal, store (p.release.dbKey db) c)
      (by simp [next, hkeep]) ?_
    have hkey : p.release.signal.dbKey db = p.release.dbKey db := by
      simp [ConnectionPool.dbKey]
    simp only [hkey, Bool.false_eq_true, if_false]
    exact .last rfl
  · exact .last (by simp [next, hkeep])

end Call

/-!
## Runs

A run is any interleaving of the calls of one pool with what others give back. Each step is one await-free piece of a
call; what is counted by the semaphore, in `borrowed` and in the buckets changes at different steps.
-/

/-- What the log of a run records. -/
inductive Entry : Type where
  /-- call `i` finds the pool at its cap, with so many permits left -/
  | found (i permits : Nat)
  /-- call `i` gets a permit; it found the pool full at position `since` -/
  | granted (i since : Nat)
  /-- put call `i` adds its permit -/
  | put (i : Nat)
  deriving DecidableEq

/-- One pool and the calls on it. -/
structure PoolCalls where
  /-- the pool -/
  pool : ConnectionPool
  /-- every call ever made, by number -/
  calls : List Call
  /-- the connections handed out and not given back -/
  out : List ConnId
  /-- the number of connections opened -/
  opened : Nat
  /-- what happened, oldest first -/
  log : List Entry
  deriving DecidableEq

/-- An event of a run. -/
inductive CallEvent : Type where
  /-- `get_for_database` is called -/
  | get (database : Option Str)
  /-- `put_for_database` is called, for any connection at all -/
  | put (c : ConnId) (inTransaction healthy : Bool) (database : Option Str)
  /-- call `i` takes its next step -/
  | resume (i : Nat) (inp : GetInput)

namespace PoolCalls

/-- A fresh pool without calls. -/
def new (config : PoolConfig) : PoolCalls := ⟨.new config, [], [], 0, []⟩

variable (s : PoolCalls)

/-- Requests let in and not counted yet. -/
def opening : Nat := s.calls.countP Call.admitted

/-- Requests in the wait queue. -/
def waiting : Nat := s.calls.countP Call.inQueue

/-- What the log records of a step. -/
def noted (i : Nat) (inp : GetInput) : Call → List Entry
  | .check _ =>
    if s.pool.atCap && s.pool.hasQueue then [.found i s.pool.permits] else []
  | .waiting _ since => if inp.granted then [.granted i since] else []
  | .signal .. => [.put i]
  | _ => []

/-- One event of a run. -/
def step : CallEvent → Option PoolCalls
  | .get database => some { s with calls := s.calls ++ [.pop (s.pool.dbKey database)] }
  | .put c tx healthy database =>
    some { s with out := s.out.erase c, calls := s.calls ++ [.release c tx healthy database] }
  | .resume i inp =>
    match s.calls[i]? with
    | none => none
    | some call =>
      (call.next s.pool s.log.length inp).map fun r =>
        { pool := r.1
          calls := s.calls.set i r.2
          out := (call.handsOut s.opened).toList ++ s.out
          opened := s.opened + (match call with | .raise _ => 1 | _ => 0)
          log := s.log ++ s.noted i inp call }

/-- A call goes on by its next step. -/
theorem step_resume {s s' : PoolCalls} {i : Nat} {inp : GetInput} (h : s.step (.resume i inp) = some s') :
    ∃ call p' call', s.calls[i]? = some call ∧ call.next s.pool s.log.length inp = some (p', call') ∧
      s' = { pool := p'
             calls := s.calls.set i call'
             out := (call.handsOut s.opened).toList ++ s.out
             opened := s.opened + (match call with | .raise _ => 1 | _ => 0)
             log := s.log ++ s.noted i inp call } := by
  rcases hcall : s.calls[i]? with _ | call
  · simp [step, hcall] at h
  · simp only [step, hcall, Option.map_eq_some_iff] at h
    obtain ⟨⟨p', call'⟩, hnext, rfl⟩ := h
    exact ⟨call, p', call', rfl, hnext, rfl⟩

/-!
## The cap

The comparison with the cap does not see what is idle or on its way. Where that makes no difference to its outcome it
gives the bound; the pop of an idle connection keeps it.
-/

/-- The connections that the comparison with the cap does not see: they belong to requests let in and not counted
yet, are on their way back, or lie idle. -/
def unseen : Nat := s.opening + s.calls.countP Call.returning + s.pool.idle

/-- The pool as it would be if these were counted too. -/
def counting : ConnectionPool := { s.pool with borrowed := s.pool.borrowed + s.unseen }

/-- The comparison comes out as if it saw every connection; a permit, which no comparison follows, is taken only where
that comparison would pass. -/
def Compares (inp : GetInput) : Call → Prop
  | .check _ => s.pool.atCap = s.counting.atCap
  | .waiting .. => inp.granted = true → s.counting.atCap = false
  | _ => True

instance (inp : GetInput) : ∀ call, Decidable (s.Compares inp call)
  | .check _ => inferInstanceAs (Decidable (s.pool.atCap = s.counting.atCap))
  | .waiting .. => inferInstanceAs (Decidable (inp.granted = true → s.counting.atCap = false))
  | .pop _ | .reuse _ | .enqueue .. | .leave .. | .connect _ | .initConnect _ | .raise _ | .returned _
  | .release .. | .signal .. | .store .. | .finished _ => inferInstanceAs (Decidable True)

/-- A connection is given back to the pool that handed it out, and no comparison overlooks one that matters. -/
def Overseen : CallEvent → Prop
  | .get _ => True
  | .put c .. => c ∈ s.out
  | .resume i inp => ∀ call ∈ s.calls[i]?, s.Compares inp call

instance : ∀ e, Decidable (s.Overseen e)
  | .get _ => inferInstanceAs (Decidable True)
  | .put c .. => inferInstanceAs (Decidable (c ∈ s.out))
  | .resume i inp => inferInstanceAs (Decidable (∀ call ∈ s.calls[i]?, s.Compares inp call))

/-- What `borrowed` counts: the connections that are out, or on their way back and not counted off yet. -/
def Counted : Prop := s.pool.borrowed = s.out.length + s.calls.countP Call.releasing

/-- The invariant of the capped runs: all connections fit under the cap. -/
structure Capped (m : Nat) : Prop where
  /-- the cap -/
  cap : s.pool.config.backend.maxConnections = some m
  /-- all connections have room -/
  room : s.pool.borrowed + s.unseen ≤ m
  /-- `borrowed` counts -/
  counted : s.Counted

variable {s}

/-- A permit is taken only where there is one. -/
theorem acquire_eq_some {p q : ConnectionPool} (h : p.acquire = some q) :
    0 < p.permits ∧ q = { p with permits := p.permits - 1 } := by
  rw [ConnectionPool.acquire] at h
  split at h
  · cases h
  · exact ⟨by omega, (Option.some.inj h).symm⟩

/-- What one step of a call does to the counts. A connection that is handed out was idle, or was opened; one that is
kept was counted in `borrowed`; `borrowed` moves with the connections handed out and with the puts begun. -/
theorem next_counts {p p' : ConnectionPool} {now : Nat} {inp : GetInput} {call call' : Call}
    (h : call.next p now inp = some (p', call')) (hrel : call.releasing = true → 0 < p.borrowed)
    (fresh : ConnId) :
    p'.borrowed + (call'.admitted.toNat + call'.returning.toNat + p'.idle) ≤
        p.borrowed + (call.admitted.toNat + call.returning.toNat + p.idle) + (call.opens p inp).toNat ∧
      p'.borrowed + call'.inGet.toNat ≤ p.borrowed + call.inGet.toNat ∧
      p'.borrowed + call.releasing.toNat =
        p.borrowed + (call.handsOut fresh).toList.length + call'.releasing.toNat := by
  cases call with
  | pop key =>
    simp only [Call.next, Option.some.injEq, Prod.mk.injEq] at h
    obtain ⟨rfl, rfl⟩ := h
    have hidle := p.idle_popIdle_le key inp.now
    rcases hpop : (p.popIdle key inp.now).2.2 with _ | c
    · rw [hpop] at hidle
      simpa [Call.admitted, Call.returning, Call.releasing, Call.opens, Call.handsOut, Call.inGet] using hidle
    · rw [hpop] at hidle
      simp [Call.admitted, Call.returning, Call.releasing, Call.opens, Call.handsOut, Call.inGet] at hidle ⊢
      omega
  | reuse c =>
    obtain ⟨rfl, rfl⟩ := Prod.mk.inj (Option.some.inj h)
    simp [Call.admitted, Call.returning, Call.releasing, Call.handsOut, Call.inGet, ConnectionPool.countReuse,
      ConnectionPool.idle, Nat.add_assoc]
  | check key =>
    simp only [Call.next] at h
    split at h
    · split at h <;> obtain ⟨rfl, rfl⟩ := Prod.mk.inj (Option.some.inj h) <;>
        simp [Call.admitted, Call.returning, Call.releasing, Call.handsOut, Call.inGet]
    · obtain ⟨rfl, rfl⟩ := Prod.mk.inj (Option.some.inj h)
      rename_i hcap
      simp [Call.admitted, Call.returning, Call.releasing, Call.handsOut, Call.opens, Call.inGet, hcap]
      omega
  | enqueue key since =>
    obtain ⟨rfl, rfl⟩ := Prod.mk.inj (Option.some.inj h)
    simp [Call.admitted, Call.returning, Call.releasing, Call.handsOut, Call.inGet, ConnectionPool.enterQueue,
      ConnectionPool.idle]
  | waiting key since =>
    simp only [Call.next] at h
    split at h
    · rename_i hg
      simp only [Option.map_eq_some_iff, Prod.mk.injEq] at h
      obtain ⟨q, hq, rfl, rfl⟩ := h
      obtain ⟨-, rfl⟩ := acquire_eq_some hq
      simp [Call.admitted, Call.returning, Call.releasing, Call.handsOut, Call.opens, Call.inGet, hg,
        ConnectionPool.idle]
      omega
    · obtain ⟨rfl, rfl⟩ := Prod.mk.inj (Option.some.inj h)
      simp [Call.admitted, Call.returning, Call.releasing, Call.handsOut, Call.inGet]
  | leave key granted =>
    cases granted <;> obtain ⟨rfl, rfl⟩ := Prod.mk.inj (Option.some.inj h) <;>
      simp [Call.admitted, Call.returning, Call.releasing, Call.handsOut, Call.inGet, ConnectionPool.leaveQueue,
        ConnectionPool.countTimeout, ConnectionPool.idle]
  | connect key =>
    simp only [Call.next] at h
    split at h <;> obtain ⟨rfl, rfl⟩ := Prod.mk.inj (Option.some.inj h)
    · -- it fails
      simp [Call.admitted, Call.returning, Call.releasing, Call.handsOut, Call.inGet]
      omega
    · simp [Call.admitted, Call.returning, Call.releasing, Call.handsOut, Call.inGet]
  | initConnect key =>
    simp only [Call.next] at h
    split at h <;> obtain ⟨rfl, rfl⟩ := Prod.mk.inj (Option.some.inj h)
    · -- it fails
      simp [Call.admitted, Call.returning, Call.releasing, Call.handsOut, Call.inGet]
      omega
    · simp [Call.admitted, Call.returning, Call.releasing, Call.handsOut, Call.inGet]
  | raise key =>
    obtain ⟨rfl, rfl⟩ := Prod.mk.inj (Option.some.inj h)
    simp [Call.admitted, Call.returning, Call.releasing, Call.handsOut, Call.inGet, ConnectionPool.countOpen,
      ConnectionPool.idle, Nat.add_assoc]
  | release c tx healthy db =>
    obtain ⟨rfl, rfl⟩ := Prod.mk.inj (Option.some.inj h)
    have hpos := hrel rfl
    simp only [ConnectionPool.release_borrowed, usizePred, Call.admitted, Call.returning, Call.releasing,
      Call.handsOut, Call.inGet]
    rw [if_neg (by omega)]
    rcases htx : (tx || !healthy) with _ | _ <;> simp [ConnectionPool.release, ConnectionPool.idle] <;> omega
  | signal c tx healthy db =>
    obtain ⟨rfl, rfl⟩ := Prod.mk.inj (Option.some.inj h)
    rcases htx : (tx || !healthy) with _ | _ <;>
      simp [Call.admitted, Call.returning, Call.releasing, Call.handsOut, Call.inGet, htx]
  | store key c =>
    obtain ⟨rfl, rfl⟩ := Prod.mk.inj (Option.some.inj h)
    have hidle := p.idle_store_le key c inp.now
    simp [Call.admitted, Call.returning, Call.releasing, Call.handsOut, Call.inGet]
    omega
  | returned r => cases h
  | finished kept => cases h

/-- No step touches the configuration. -/
theorem next_config {p p' : ConnectionPool} {now : Nat} {inp : GetInput} {call call' : Call}
    (h : call.next p now inp = some (p', call')) : p'.config = p.config := by
  cases call with
  | check key =>
    simp only [Call.next] at h
    split at h
    · split at h <;> (obtain ⟨rfl, -⟩ := Prod.mk.inj (Option.some.inj h); rfl)
    · obtain ⟨rfl, -⟩ := Prod.mk.inj (Option.some.inj h)
      rfl
  | waiting key since =>
    simp only [Call.next] at h
    split at h
    · simp only [Option.map_eq_some_iff, Prod.mk.injEq] at h
      obtain ⟨q, hq, rfl, -⟩ := h
      rw [(acquire_eq_some hq).2]
    · obtain ⟨rfl, -⟩ := Prod.mk.inj (Option.some.inj h)
      rfl
  | leave key granted =>
    cases granted <;> (obtain ⟨rfl, -⟩ := Prod.mk.inj (Option.some.inj h); rfl)
  | connect key =>
    simp only [Call.next] at h
    split at h <;> (obtain ⟨rfl, -⟩ := Prod.mk.inj (Option.some.inj h); rfl)
  | initConnect key =>
    simp only [Call.next] at h
    split at h <;> (obtain ⟨rfl, -⟩ := Prod.mk.inj (Option.some.inj h); rfl)
  | signal c tx healthy db =>
    obtain ⟨rfl, -⟩ := Prod.mk.inj (Option.some.inj h)
    exact p.signal_config
  | store key c =>
    obtain ⟨rfl, -⟩ := Prod.mk.inj (Option.some.inj h)
    exact p.store_config key c inp.now
  | returned r => cases h
  | finished kept => cases h
  | _ =>
    obtain ⟨rfl, -⟩ := Prod.mk.inj (Option.some.inj h)
    rfl

/-- A put that has not lowered `borrowed` yet is counted there. -/
theorem Counted.releasing {i : Nat} {call : Call} (h : s.Counted) (hcall : s.calls[i]? = some call)
    (hrel : call.releasing = true) : 0 < s.pool.borrowed := by
  have hpos := List.countP_pos_iff.mpr ⟨call, List.mem_of_getElem? hcall, hrel⟩
  rw [Counted] at h
  omega

/-- `borrowed` counts as long as only what was handed out is given back. -/
theorem Counted.step {s' : PoolCalls} {e : CallEvent} (h : s.Counted)
    (hput : ∀ c tx healthy db, e = .put c tx healthy db → c ∈ s.out) (hst : s.step e = some s') : s'.Counted := by
  have hcounts := h
  unfold Counted at hcounts ⊢
  cases e with
  | get db =>
    obtain rfl := Option.some.inj hst
    simpa [Call.releasing] using hcounts
  | put c tx healthy db =>
    obtain rfl := Option.some.inj hst
    have hout := hput c tx healthy db rfl
    have hlen := List.length_erase_of_mem hout
    have hpos := List.length_pos_of_mem hout
    simp only [List.countP_append, List.countP_singleton, Call.releasing, if_true]
    omega
  | resume i inp =>
    obtain ⟨call, p', call', hcall, hnext, rfl⟩ := step_resume hst
    have hrel := countP_set_add call' Call.releasing hcall
    obtain ⟨-, -, heq⟩ := next_counts hnext (h.releasing hcall) s.opened
    simp only [List.length_append]
    omega

/-- Where a connection is opened there is room for it beside all the others: the code's comparison has said so. -/
theorem Compares.room {m : Nat} {inp : GetInput} {call : Call} (h : s.Compares inp call)
    (hcap : s.pool.config.backend.maxConnections = some m) (hopens : call.opens s.pool inp = true) :
    s.pool.borrowed + s.unseen < m := by
  have hpasses : s.counting.atCap = false := by
    cases call with
    | check key =>
      have hcheck : s.pool.atCap = false := by simpa [Call.opens] using hopens
      exact h.symm.trans hcheck
    | waiting key since => exact h hopens
    | _ => cases hopens
  rw [ConnectionPool.atCap, counting, hcap] at hpasses
  exact Nat.lt_of_not_le (of_decide_eq_false hpasses)

/-- A step that meets the condition keeps the invariant. -/
theorem Capped.step {m : Nat} {s s' : PoolCalls} {e : CallEvent} (h : s.Capped m)
    (hok : s.Overseen e) (hst : s.step e = some s') : s'.Capped m := by
  have hcounted : s'.Counted :=
    h.counted.step (fun c tx healthy db he => by subst he; exact hok) hst
  cases e with
  | get db =>
    obtain rfl := Option.some.inj hst
    exact ⟨h.cap, by simpa [unseen, opening, Call.admitted, Call.returning] using h.room, hcounted⟩
  | put c tx healthy db =>
    obtain rfl := Option.some.inj hst
    exact ⟨h.cap, by simpa [unseen, opening, Call.admitted, Call.returning] using h.room, hcounted⟩
  | resume i inp =>
    obtain ⟨call, p', call', hcall, hnext, rfl⟩ := step_resume hst
    have hadm := countP_set_add call' Call.admitted hcall
    have hret := countP_set_add call' Call.returning hcall
    have hr := h.room
    obtain ⟨hle, -, -⟩ := next_counts hnext (h.counted.releasing hcall) s.opened
    refine ⟨by rw [next_config hnext]; exact h.cap, ?_, hcounted⟩
    simp only [unseen, opening] at hr ⊢
    rcases hopens : call.opens s.pool inp with _ | _
    · rw [hopens, Bool.toNat_false] at hle
      omega
    · rw [hopens, Bool.toNat_true] at hle
      have hroom := (hok call hcall).room h.cap hopens
      simp only [unseen, opening] at hroom
      omega

/-- **The cap holds where the comparison oversees the pool**: along every interleaving in which the comparison with
the cap comes out as if it saw the connections that are idle or on their way, and permits are taken only where it
would pass, `borrowed` never exceeds `max_connections`. -/
theorem borrowed_le_cap {config : PoolConfig} {m : Nat} {es : List CallEvent} {s : PoolCalls}
    (hcap : config.backend.maxConnections = some m)
    (hrun : Steps step Overseen (new config) es s) : s.pool.borrowed ≤ m := by
  have hinit : (new config).Capped m := ⟨hcap, Nat.zero_le _, rfl⟩
  have hs : s.Capped m :=
    hrun.induct (fun t _ _ (h : t.Capped m) hok hst => h.step hok hst) hinit
  exact Nat.le_of_add_right_le hs.room

/-- An input under which every step of a call goes well. -/
def allWell : GetInput := ⟨0, true, none, none⟩

/-- A pool with one slot per database and the given cap and queue. -/
def smallConfig (cap queue : Nat) : PoolConfig :=
  ⟨⟨"db:3306".toList, none, [], some cap, 1, false⟩, 4, none, queue, 5000⟩

/-- A whole `get_for_database` that opens a connection, as call `i`. -/
def openAs (i : Nat) : List CallEvent := .get none :: List.replicate 5 (.resume i allWell)

/-- Two checkouts one after the other, with a put between them. -/
def sequential : List CallEvent :=
  openAs 0 ++ .put 0 false true none :: List.replicate 3 (.resume 1 allWell) ++
    .get none :: List.replicate 2 (.resume 2 allWell)

/-- One checkout after the other stays under a cap of one. -/
theorem borrowed_le_cap_sequential : ∃ s : PoolCalls,
    Steps step Overseen (new (smallConfig 1 0)) sequential s ∧ s.pool.borrowed ≤ 1 := by
  obtain ⟨s, hs⟩ : ∃ s, run (fun s e => if decide (Overseen s e) then step s e else none)
      (new (smallConfig 1 0)) sequential = some s := ⟨_, rfl⟩
  have hrun := steps_of_checked (fun _ _ h => of_decide_eq_true h) hs
  exact ⟨s, hrun, borrowed_le_cap rfl hrun⟩

/-- Two requests that pass the comparison before either is counted exceed the cap. -/
theorem cap_exceeded : ¬ ∀ (config : PoolConfig) (m : Nat) (es : List CallEvent) (s : PoolCalls),
    0 < m → config.backend.maxConnections = some m → run step (new config) es = some s →
      s.pool.borrowed ≤ m := by
  intro h
  have hbad := h (smallConfig 1 0) 1
    ([.get none, .get none] ++ List.replicate 2 (.resume 0 allWell) ++
      List.replicate 5 (.resume 1 allWell) ++ List.replicate 3 (.resume 0 allWell)) _
    Nat.one_pos rfl rfl
  revert hbad
  decide

/-!
## The wait queue

A request joins the queue only after it has found the pool at its cap, so that the bound is one on the calls and not on
the queue itself.
-/

/-- The steps that matter to the queue: a request finds the pool full, a permit is granted, a put adds
its permit. Every other step leaves the permits and the log alone and puts nobody into the queue. -/
theorem next_queue {p' : ConnectionPool} {inp : GetInput} {i : Nat} {call call' : Call}
    (h : call.next s.pool s.log.length inp = some (p', call')) :
    (p' = s.pool ∧ s.pool.atCap = true ∧ call.since = none ∧ call'.since = some s.log.length ∧
        s.noted i inp call = [.found i s.pool.permits]) ∨
      (∃ t, call.since = some t ∧ call'.since = none ∧ p'.permits + 1 = s.pool.permits ∧
        s.noted i inp call = [.granted i t]) ∨
      (call.since = none ∧ call'.since = none ∧ p'.permits ≤ s.pool.permits + 1 ∧
        s.noted i inp call = [.put i]) ∨
      (p'.permits = s.pool.permits ∧ (call'.since = none ∨ call'.since = call.since) ∧
        s.noted i inp call = []) := by
  cases call with
  | pop key =>
    obtain ⟨rfl, rfl⟩ := Prod.mk.inj (Option.some.inj h)
    refine .inr (.inr (.inr ⟨rfl, .inl ?_, rfl⟩))
    split <;> rfl
  | check key =>
    simp only [Call.next] at h
    split at h
    · rename_i hcap
      split at h
      · rename_i hqueue
        obtain ⟨rfl, rfl⟩ := Prod.mk.inj (Option.some.inj h)
        exact .inl ⟨rfl, hcap, rfl, rfl, by simp [noted, hcap, hqueue]⟩
      · rename_i hqueue
        obtain ⟨rfl, rfl⟩ := Prod.mk.inj (Option.some.inj h)
        exact .inr (.inr (.inr ⟨rfl, .inl rfl, by simp [noted, hqueue]⟩))
    · rename_i hcap
      obtain ⟨rfl, rfl⟩ := Prod.mk.inj (Option.some.inj h)
      exact .inr (.inr (.inr ⟨rfl, .inl rfl, by simp [noted, hcap]⟩))
  | waiting key t =>
    simp only [Call.next] at h
    split at h
    · rename_i hg
      simp only [Option.map_eq_some_iff, Prod.mk.injEq] at h
      obtain ⟨q, hq, rfl, rfl⟩ := h
      obtain ⟨hpos, rfl⟩ := acquire_eq_some hq
      exact .inr (.inl ⟨t, rfl, rfl, by dsimp only; omega, by simp [noted, hg]⟩)
    · rename_i hg
      obtain ⟨rfl, rfl⟩ := Prod.mk.inj (Option.some.inj h)
      exact .inr (.inr (.inr ⟨rfl, .inl rfl, by simp [noted, hg]⟩))
  | leave key granted =>
    cases granted <;> obtain ⟨rfl, rfl⟩ := Prod.mk.inj (Option.some.inj h) <;>
      exact .inr (.inr (.inr ⟨rfl, .inl rfl, rfl⟩))
  | connect key =>
    simp only [Call.next] at h
    split at h <;> obtain ⟨rfl, rfl⟩ := Prod.mk.inj (Option.some.inj h) <;>
      exact .inr (.inr (.inr ⟨rfl, .inl rfl, rfl⟩))
  | initConnect key =>
    simp only [Call.next] at h
    split at h <;> obtain ⟨rfl, rfl⟩ := Prod.mk.inj (Option.some.inj h) <;>
      exact .inr (.inr (.inr ⟨rfl, .inl rfl, rfl⟩))
  | signal c tx healthy db =>
    obtain ⟨rfl, rfl⟩ := Prod.mk.inj (Option.some.inj h)
    refine .inr (.inr (.inl ⟨rfl, ?_, ?_, rfl⟩))
    · split <;> rfl
    · rw [ConnectionPool.signal]
      split <;> simp
  | store key c =>
    obtain ⟨rfl, rfl⟩ := Prod.mk.inj (Option.some.inj h)
    refine .inr (.inr (.inr ⟨?_, .inl rfl, rfl⟩))
    rw [ConnectionPool.store]
    split <;> rfl
  | returned r => cases h
  | finished kept => cases h
  | enqueue key t =>
    obtain ⟨rfl, rfl⟩ := Prod.mk.inj (Option.some.inj h)
    exact .inr (.inr (.inr ⟨rfl, .inr rfl, rfl⟩))
  | _ =>
    obtain ⟨rfl, rfl⟩ := Prod.mk.inj (Option.some.inj h)
    exact .inr (.inr (.inr ⟨rfl, .inl rfl, rfl⟩))

/-- The grant at position `ta` went to a request that found the pool full at position `since`, with
no permit left. -/
def Served (log : List Entry) (ta since : Nat) : Prop :=
  ∃ i, log[ta]? = some (.granted i since) ∧ log[since]? = some (.found i 0)

/-- A grant goes to a request that found the pool full. -/
def Sourced (log : List Entry) : Prop :=
  ∀ (ta i since : Nat), log[ta]? = some (.granted i since) →
    ∃ p, log[since]? = some (.found i p)

/-- A ledger of the permits: `pay` names the put that paid for a grant, `unspent` the puts that have
paid for none. A request in the queue that found no permit can be paid for by an unspent put that is
younger than it, as long as there is a permit at all. -/
structure Ledger (s : PoolCalls) (pay : Nat → Nat) (unspent : Finset Nat) : Prop where
  /-- only puts pay -/
  puts : ∀ t ∈ unspent, ∃ j, s.log[t]? = some (.put j)
  /-- grants have requests -/
  sourced : Sourced s.log
  /-- every grant to a request that found no permit is paid for, in its own time -/
  paid : ∀ ta since, Served s.log ta since →
    since < pay ta ∧ pay ta < ta ∧ (∃ j, s.log[pay ta]? = some (.put j)) ∧ pay ta ∉ unspent
  /-- no put pays twice -/
  once : ∀ ta tb sa sb, Served s.log ta sa → Served s.log tb sb → pay ta = pay tb → ta = tb
  /-- who waits can be paid for -/
  queue : ∀ i call since, s.calls[i]? = some call → call.since = some since →
    ∃ p, s.log[since]? = some (.found i p) ∧
      (p = 0 → s.pool.permits ≤ (unspent.filter (since < ·)).card)

/-- An entry of the log stays where it is. -/
theorem log_mono {log es : List Entry} {t : Nat} {e : Entry} (h : log[t]? = some e) :
    (log ++ es)[t]? = some e := by
  obtain ⟨hlt, -⟩ := List.getElem?_eq_some_iff.mp h
  rw [List.getElem?_append_left hlt]
  exact h

/-- An entry of a longer log is an old one or the last. -/
theorem log_snoc {log : List Entry} {t : Nat} {e e' : Entry} (h : (log ++ [e])[t]? = some e') :
    log[t]? = some e' ∨ t = log.length ∧ e' = e := by
  rcases Nat.lt_or_ge t log.length with hlt | hge
  · rw [List.getElem?_append_left hlt] at h
    exact .inl h
  · rw [List.getElem?_append_right hge] at h
    obtain ⟨hlt, hget⟩ := List.getElem?_eq_some_iff.mp h
    simp only [List.length_singleton] at hlt
    simp only [List.getElem_singleton] at hget
    exact .inr ⟨by omega, hget.symm⟩

/-- A longer log serves what the shorter one served, and at most its last entry besides. -/
theorem served_snoc {log : List Entry} {e : Entry} {ta since : Nat}
    (hsrc : Sourced log) (h : Served (log ++ [e]) ta since) :
    Served log ta since ∨ ta = log.length ∧ ∃ i, e = .granted i since := by
  obtain ⟨i, hta, hsince⟩ := h
  rcases log_snoc hta with hta | ⟨rfl, rfl⟩
  · obtain ⟨p, hold⟩ := hsrc _ _ _ hta
    rw [log_mono hold] at hsince
    obtain ⟨-, rfl⟩ := Entry.found.inj (Option.some.inj hsince)
    exact .inl ⟨i, hta, hold⟩
  · exact .inr ⟨rfl, i, rfl⟩

/-- The calls of the queue after call `i` moved to `call'`. -/
theorem calls_set_cases {calls : List Call} {i j : Nat} {call' cj : Call}
    (h : (calls.set i call')[j]? = some cj) : j = i ∧ cj = call' ∨ j ≠ i ∧ calls[j]? = some cj := by
  by_cases hj : j = i
  · subst hj
    obtain ⟨hlt, hget⟩ := List.getElem?_eq_some_iff.mp h
    rw [List.getElem_set_self] at hget
    exact .inl ⟨rfl, hget.symm⟩
  · rw [List.getElem?_set_ne (fun hij => hj hij.symm)] at h
    exact .inr ⟨hj, h⟩

/-- A new call that does not wait changes nothing in the ledger. -/
theorem Ledger.start {pay : Nat → Nat} {unspent : Finset Nat} (h : s.Ledger pay unspent)
    {call : Call} (hcall : call.since = none) (out : List ConnId) :
    { s with out := out, calls := s.calls ++ [call] }.Ledger pay unspent := by
  refine ⟨h.puts, h.sourced, h.paid, h.once, fun i c since hc hsince => ?_⟩
  rcases Nat.lt_or_ge i s.calls.length with hlt | hge
  · dsimp only at hc
    rw [List.getElem?_append_left hlt] at hc
    exact h.queue i c since hc hsince
  · dsimp only at hc
    rw [List.getElem?_append_right hge] at hc
    obtain ⟨hlt, hget⟩ := List.getElem?_eq_some_iff.mp hc
    rw [List.getElem_singleton] at hget
    rw [← hget, hcall] at hsince
    cases hsince

/-- A step that leaves permits and log alone and puts nobody into the queue. -/
theorem Ledger.quiet {pay : Nat → Nat} {unspent : Finset Nat} (h : s.Ledger pay unspent)
    {s' : PoolCalls} {i : Nat} {call call' : Call} (hcall : s.calls[i]? = some call)
    (hlog : s'.log = s.log) (hperm : s'.pool.permits = s.pool.permits)
    (hcalls : s'.calls = s.calls.set i call')
    (hsince : call'.since = none ∨ call'.since = call.since) : s'.Ledger pay unspent := by
  refine ⟨by rw [hlog]; exact h.puts, by rw [hlog]; exact h.sourced, by rw [hlog]; exact h.paid,
    by rw [hlog]; exact h.once, fun j cj t hj ht => ?_⟩
  rw [hlog, hperm]
  rw [hcalls] at hj
  rcases calls_set_cases hj with ⟨rfl, rfl⟩ | ⟨-, hj⟩
  · rcases hsince with hn | hs
    · rw [hn] at ht
      cases ht
    · rw [hs] at ht
      exact h.queue j call t hcall ht
  · exact h.queue j cj t hj ht

/-- A new entry that is not a grant keeps the sources. -/
theorem Sourced.snoc {log : List Entry} (h : Sourced log) {e : Entry}
    (he : ∀ i since, e = .granted i since → ∃ p, log[since]? = some (.found i p)) :
    Sourced (log ++ [e]) := by
  intro ta i since hta
  rcases log_snoc hta with hold | ⟨-, hlast⟩
  · obtain ⟨p, hp⟩ := h _ _ _ hold
    exact ⟨p, log_mono hp⟩
  · obtain ⟨p, hp⟩ := he i since hlast.symm
    exact ⟨p, log_mono hp⟩

/-- An entry that is not a grant leaves what is paid for as it is. -/
theorem Ledger.paid_snoc {pay : Nat → Nat} {unspent : Finset Nat} (h : s.Ledger pay unspent)
    {e : Entry} (he : ∀ i since, e ≠ .granted i since) (extra : Finset Nat)
    (hextra : ∀ t ∈ extra, s.log.length ≤ t) :
    (∀ ta since, Served (s.log ++ [e]) ta since → since < pay ta ∧ pay ta < ta ∧
      (∃ j, (s.log ++ [e])[pay ta]? = some (.put j)) ∧ pay ta ∉ unspent ∪ extra) ∧
    ∀ ta tb sa sb, Served (s.log ++ [e]) ta sa → Served (s.log ++ [e]) tb sb →
      pay ta = pay tb → ta = tb := by
  have hold : ∀ {ta since}, Served (s.log ++ [e]) ta since → Served s.log ta since := by
    intro ta since hserved
    rcases served_snoc h.sourced hserved with hold | ⟨-, i, hi⟩
    · exact hold
    · exact absurd hi (he i since)
  refine ⟨fun ta since hserved => ?_, fun ta tb sa sb ha hb => h.once ta tb sa sb (hold ha) (hold hb)⟩
  obtain ⟨hlo, hhi, ⟨j, hj⟩, hnot⟩ := h.paid ta since (hold hserved)
  obtain ⟨hlt, -⟩ := List.getElem?_eq_some_iff.mp hj
  refine ⟨hlo, hhi, ⟨j, log_mono hj⟩, ?_⟩
  rw [Finset.mem_union]
  rintro (hin | hin)
  · exact hnot hin
  · have := hextra _ hin
    omega

/-- A request finds the pool full: if no permit is left, none is owed to it. -/
theorem Ledger.found {pay : Nat → Nat} {unspent : Finset Nat} (h : s.Ledger pay unspent)
    {s' : PoolCalls} {i : Nat} {call' : Call}
    (hlog : s'.log = s.log ++ [.found i s.pool.permits]) (hpool : s'.pool = s.pool)
    (hcalls : s'.calls = s.calls.set i call') (hsince : call'.since = some s.log.length) :
    s'.Ledger pay unspent := by
  obtain ⟨hpaid, honce⟩ := h.paid_snoc (e := .found i s.pool.permits) (by simp) ∅ (by simp)
  rw [Finset.union_empty] at hpaid
  refine ⟨fun t ht => ?_, ?_, by rw [hlog]; exact hpaid, by rw [hlog]; exact honce, ?_⟩
  · obtain ⟨j, hj⟩ := h.puts t ht
    rw [hlog]
    exact ⟨j, log_mono hj⟩
  · rw [hlog]
    exact h.sourced.snoc (by simp)
  · intro j cj t hj ht
    rw [hcalls] at hj
    rw [hlog, hpool]
    rcases calls_set_cases hj with ⟨rfl, rfl⟩ | ⟨-, hj⟩
    · obtain rfl : s.log.length = t := Option.some.inj (hsince.symm.trans ht)
      refine ⟨s.pool.permits, by simp, fun hzero => ?_⟩
      rw [hzero]
      exact Nat.zero_le _
    · obtain ⟨p, hp, hle⟩ := h.queue j cj t hj ht
      exact ⟨p, log_mono hp, hle⟩

/-- A put adds a permit and an unspent put. -/
theorem Ledger.put {pay : Nat → Nat} {unspent : Finset Nat} (h : s.Ledger pay unspent)
    {s' : PoolCalls} {i : Nat} {call' : Call} (hlog : s'.log = s.log ++ [.put i])
    (hperm : s'.pool.permits ≤ s.pool.permits + 1)
    (hcalls : s'.calls = s.calls.set i call') (hsince : call'.since = none) :
    s'.Ledger pay (unspent ∪ {s.log.length}) := by
  obtain ⟨hpaid, honce⟩ := h.paid_snoc (e := .put i) (by simp) {s.log.length} (by simp)
  refine ⟨fun t ht => ?_, ?_, by rw [hlog]; exact hpaid, by rw [hlog]; exact honce, ?_⟩
  · rw [hlog]
    rcases Finset.mem_union.mp ht with hold | hnew
    · obtain ⟨j, hj⟩ := h.puts t hold
      exact ⟨j, log_mono hj⟩
    · rw [Finset.mem_singleton.mp hnew]
      exact ⟨i, by simp⟩
  · rw [hlog]
    exact h.sourced.snoc (by simp)
  · intro j cj t hj ht
    rw [hcalls] at hj
    rw [hlog]
    rcases calls_set_cases hj with ⟨rfl, rfl⟩ | ⟨-, hj⟩
    · rw [hsince] at ht
      cases ht
    · obtain ⟨p, hp, hle⟩ := h.queue j cj t hj ht
      refine ⟨p, log_mono hp, fun hzero => ?_⟩
      obtain ⟨htlt, -⟩ := List.getElem?_eq_some_iff.mp hp
      -- the new put is younger than every request in the queue
      have hfresh : s.log.length ∉ unspent.filter (t < ·) := by
        intro hin
        obtain ⟨k, hk⟩ := h.puts _ (Finset.mem_filter.mp hin).1
        simp at hk
      have hcard : (unspent ∪ {s.log.length}).filter (t < ·) =
          insert s.log.length (unspent.filter (t < ·)) := by
        ext x
        simp only [Finset.mem_filter, Finset.mem_union, Finset.mem_singleton, Finset.mem_insert]
        constructor
        · rintro ⟨hx | hx, hlt⟩
          · exact .inr ⟨hx, hlt⟩
          · exact .inl hx
        · rintro (rfl | ⟨hx, hlt⟩)
          · exact ⟨.inr rfl, htlt⟩
          · exact ⟨.inl hx, hlt⟩
      rw [hcard, Finset.card_insert_of_notMem hfresh]
      have := hle hzero
      omega

/-- A permit is granted: a request that found none is paid for by an unspent put younger than it. -/
theorem Ledger.grant {pay : Nat → Nat} {unspent : Finset Nat} (h : s.Ledger pay unspent)
    {s' : PoolCalls} {i t : Nat} {call call' : Call} (hcall : s.calls[i]? = some call)
    (hsince : call.since = some t) (hlog : s'.log = s.log ++ [.granted i t])
    (hperm : s'.pool.permits + 1 = s.pool.permits)
    (hcalls : s'.calls = s.calls.set i call') (hsince' : call'.since = none) :
    ∃ pay' unspent', s'.Ledger pay' unspent' := by
  obtain ⟨p, hp, hle⟩ := h.queue i call t hcall hsince
  obtain ⟨htlt, -⟩ := List.getElem?_eq_some_iff.mp hp
  have hsrc : Sourced s'.log := by
    rw [hlog]
    refine h.sourced.snoc fun j since heq => ?_
    obtain ⟨rfl, rfl⟩ := Entry.granted.inj heq
    exact ⟨p, hp⟩
  -- the other requests of the queue lose at most one put, and one permit is gone
  have hqueue : ∀ unspent' : Finset Nat,
      (∀ t, (unspent.filter (t < ·)).card ≤ (unspent'.filter (t < ·)).card + 1) →
      ∀ j cj tj, s'.calls[j]? = some cj → cj.since = some tj →
        ∃ p, s'.log[tj]? = some (.found j p) ∧
          (p = 0 → s'.pool.permits ≤ (unspent'.filter (tj < ·)).card) := by
    intro unspent' hcard j cj tj hj htj
    rw [hcalls] at hj
    rcases calls_set_cases hj with ⟨rfl, rfl⟩ | ⟨-, hj⟩
    · rw [hsince'] at htj
      cases htj
    · obtain ⟨pj, hpj, hlej⟩ := h.queue j cj tj hj htj
      refine ⟨pj, by rw [hlog]; exact log_mono hpj, fun hzero => ?_⟩
      have h₁ := hlej hzero
      have h₂ := hcard tj
      omega
  rcases Nat.eq_zero_or_pos p with rfl | hpos
  · -- the request found no permit: take an unspent put that came after it
    have hne : 0 < (unspent.filter (t < ·)).card := by
      have := hle rfl
      omega
    obtain ⟨u, hu⟩ := Finset.card_pos.mp hne
    obtain ⟨hmem, hyoung⟩ := Finset.mem_filter.mp hu
    obtain ⟨k, hk⟩ := h.puts u hmem
    obtain ⟨hult, -⟩ := List.getElem?_eq_some_iff.mp hk
    have hnew : ∀ {ta since}, Served s'.log ta since →
        Served s.log ta since ∧ ta ≠ s.log.length ∨ ta = s.log.length ∧ since = t := by
      intro ta since hserved
      rw [hlog] at hserved
      rcases served_snoc h.sourced hserved with hold | ⟨rfl, j, hj⟩
      · refine .inl ⟨hold, ?_⟩
        obtain ⟨-, hlt, -, -⟩ := h.paid ta since hold
        obtain ⟨j, hta, -⟩ := hold
        obtain ⟨hta, -⟩ := List.getElem?_eq_some_iff.mp hta
        omega
      · exact .inr ⟨rfl, (Entry.granted.inj hj).2.symm⟩
    refine ⟨Function.update pay s.log.length u, unspent.erase u, ⟨fun x hx => ?_, hsrc, ?_, ?_,
      hqueue _ fun x => ?_⟩⟩
    · obtain ⟨j, hj⟩ := h.puts x (Finset.mem_of_mem_erase hx)
      rw [hlog]
      exact ⟨j, log_mono hj⟩
    · intro ta since hserved
      rcases hnew hserved with ⟨hold, hta⟩ | ⟨rfl, rfl⟩
      · rw [Function.update_of_ne hta]
        obtain ⟨hlo, hhi, ⟨j, hj⟩, hnot⟩ := h.paid ta since hold
        refine ⟨hlo, hhi, ⟨j, by rw [hlog]; exact log_mono hj⟩, ?_⟩
        exact fun hin => hnot (Finset.mem_of_mem_erase hin)
      · rw [Function.update_self]
        exact ⟨hyoung, hult, ⟨k, by rw [hlog]; exact log_mono hk⟩, Finset.notMem_erase u unspent⟩
    · intro ta tb sa sb ha hb heq
      rcases hnew ha with ⟨hoa, hta⟩ | ⟨rfl, rfl⟩ <;> rcases hnew hb with ⟨hob, htb⟩ | ⟨rfl, rfl⟩
      · rw [Function.update_of_ne hta, Function.update_of_ne htb] at heq
        exact h.once ta tb sa sb hoa hob heq
      · rw [Function.update_of_ne hta, Function.update_self] at heq
        exact absurd (heq ▸ hmem) (h.paid ta sa hoa).2.2.2
      · rw [Function.update_self, Function.update_of_ne htb] at heq
        exact absurd (heq ▸ hmem) (h.paid tb sb hob).2.2.2
      · rfl
    · rw [Finset.filter_erase]
      have := Finset.pred_card_le_card_erase (s := unspent.filter (x < ·)) (a := u)
      omega
  · -- the request found a permit: nothing is owed for it
    have hold : ∀ {ta since}, Served s'.log ta since → Served s.log ta since := by
      intro ta since hserved
      rw [hlog] at hserved
      rcases served_snoc h.sourced hserved with hold | ⟨rfl, j, hj⟩
      · exact hold
      · obtain ⟨rfl, rfl⟩ := Entry.granted.inj hj
        obtain ⟨j, hlast, hfound⟩ := hserved
        rw [log_mono hp] at hfound
        obtain ⟨-, rfl⟩ := Entry.found.inj (Option.some.inj hfound)
        omega
    refine ⟨pay, unspent, ⟨fun x hx => ?_, hsrc, fun ta since hserved => ?_,
      fun ta tb sa sb ha hb => h.once ta tb sa sb (hold ha) (hold hb), hqueue _ fun x => by omega⟩⟩
    · obtain ⟨j, hj⟩ := h.puts x hx
      rw [hlog]
      exact ⟨j, log_mono hj⟩
    · obtain ⟨hlo, hhi, ⟨j, hj⟩, hnot⟩ := h.paid ta since (hold hserved)
      exact ⟨hlo, hhi, ⟨j, by rw [hlog]; exact log_mono hj⟩, hnot⟩

/-- Every step keeps a ledger. -/
theorem ledger_step {s' : PoolCalls} {e : CallEvent} (h : ∃ pay unspent, s.Ledger pay unspent)
    (hst : s.step e = some s') : ∃ pay unspent, s'.Ledger pay unspent := by
  obtain ⟨pay, unspent, h⟩ := h
  cases e with
  | get db =>
    obtain rfl := Option.some.inj hst
    exact ⟨pay, unspent, h.start rfl s.out⟩
  | put c tx healthy db =>
    obtain rfl := Option.some.inj hst
    exact ⟨pay, unspent, h.start rfl (s.out.erase c)⟩
  | resume i inp =>
    obtain ⟨call, p', call', hcall, hnext, rfl⟩ := step_resume hst
    obtain ⟨hp, -, -, hs', hn⟩ | ⟨t, hs, hs', hperm, hn⟩ | ⟨-, hs', hperm, hn⟩ | ⟨hperm, hs', hn⟩ :=
      next_queue (i := i) hnext
    · exact ⟨pay, unspent, h.found (congrArg (s.log ++ ·) hn) hp rfl hs'⟩
    · exact h.grant hcall hs (congrArg (s.log ++ ·) hn) hperm rfl hs'
    · exact ⟨pay, _, h.put (congrArg (s.log ++ ·) hn) hperm rfl hs'⟩
    · refine ⟨pay, unspent, h.quiet hcall ?_ hperm rfl hs'⟩
      simp only [hn, List.append_nil]

/-- A put adds its permit once: the log holds one entry for it, and only after it signalled. -/
structure PutsOnce (s : PoolCalls) : Prop where
  /-- an entry belongs to a put that has signalled -/
  signalled : ∀ t j : Nat, s.log[t]? = some (.put j) → ∃ call ∈ s.calls[j]?, call.signalled = true
  /-- and there is one -/
  once : ∀ t t' j : Nat, s.log[t]? = some (.put j) → s.log[t']? = some (.put j) → t = t'

/-- A put that has signalled stays so, and the step that signals is the only one that is logged. -/
theorem next_signalled {p' : ConnectionPool} {inp : GetInput} {i : Nat} {call call' : Call}
    (h : call.next s.pool s.log.length inp = some (p', call')) :
    (call.signalled = true → call'.signalled = true) ∧
      ∀ e ∈ s.noted i inp call, ∀ j, e = .put j →
        j = i ∧ call.signalled = false ∧ call'.signalled = true := by
  cases call with
  | store key c =>
    obtain ⟨rfl, rfl⟩ := Prod.mk.inj (Option.some.inj h)
    exact ⟨fun _ => rfl, by simp [noted]⟩
  | signal c tx healthy db =>
    obtain ⟨rfl, rfl⟩ := Prod.mk.inj (Option.some.inj h)
    refine ⟨by simp [Call.signalled], fun e he j hj => ?_⟩
    rw [List.mem_singleton.mp he] at hj
    refine ⟨(Entry.put.inj hj).symm, rfl, ?_⟩
    split <;> rfl
  | finished kept => cases h
  | check key =>
    refine ⟨by simp [Call.signalled], fun e he j hj => ?_⟩
    simp only [noted] at he
    split at he
    · rw [List.mem_singleton.mp he] at hj
      cases hj
    · cases he
  | waiting key t =>
    refine ⟨by simp [Call.signalled], fun e he j hj => ?_⟩
    simp only [noted] at he
    split at he
    · rw [List.mem_singleton.mp he] at hj
      cases hj
    · cases he
  | _ => exact ⟨by simp [Call.signalled], by simp [noted]⟩

/-- Every step keeps the puts apart. -/
theorem PutsOnce.step {s' : PoolCalls} {e : CallEvent} (h : s.PutsOnce)
    (hst : s.step e = some s') : s'.PutsOnce := by
  have hstart : ∀ (call : Call) (out : List ConnId),
      { s with out := out, calls := s.calls ++ [call] }.PutsOnce := by
    intro call out
    refine ⟨fun t j ht => ?_, h.once⟩
    obtain ⟨c, hc, hsig⟩ := h.signalled t j ht
    obtain ⟨hlt, -⟩ := List.getElem?_eq_some_iff.mp hc
    refine ⟨c, ?_, hsig⟩
    dsimp only
    rw [List.getElem?_append_left hlt]
    exact hc
  cases e with
  | get db =>
    obtain rfl := Option.some.inj hst
    exact hstart _ s.out
  | put c tx healthy db =>
    obtain rfl := Option.some.inj hst
    exact hstart _ (s.out.erase c)
  | resume i inp =>
    obtain ⟨call, p', call', hcall, hnext, rfl⟩ := step_resume hst
    obtain ⟨hstay, hnoted⟩ := next_signalled (i := i) hnext
    obtain ⟨hi, rfl⟩ := List.getElem?_eq_some_iff.mp hcall
    -- an entry of the longer log is an old one, or the put of this very step
    have hcases : ∀ t j, (s.log ++ s.noted i inp s.calls[i])[t]? = some (.put j) →
        s.log[t]? = some (.put j) ∨
          j = i ∧ s.calls[i].signalled = false ∧ call'.signalled = true ∧ t = s.log.length := by
      intro t j ht
      rcases Nat.lt_or_ge t s.log.length with hlt | hge
      · rw [List.getElem?_append_left hlt] at ht
        exact .inl ht
      · rw [List.getElem?_append_right hge] at ht
        obtain ⟨rfl, hno, hyes⟩ := hnoted _ (List.mem_of_getElem? ht) j rfl
        refine .inr ⟨rfl, hno, hyes, ?_⟩
        have hlen : (s.noted j inp s.calls[j]).length ≤ 1 := by
          unfold noted
          split <;> (try split) <;> simp
        obtain ⟨hlt, -⟩ := List.getElem?_eq_some_iff.mp ht
        omega
    refine ⟨fun t j ht => ?_, fun t t' j ht ht' => ?_⟩
    · dsimp only at ht ⊢
      by_cases hj : j = i
      · subst hj
        refine ⟨call', by rw [List.getElem?_set_self hi]; rfl, ?_⟩
        rcases hcases t j ht with hold | ⟨-, -, hyes, -⟩
        · obtain ⟨c, hc, hsig⟩ := h.signalled t j hold
          rw [hcall] at hc
          obtain rfl := Option.some.inj hc
          exact hstay hsig
        · exact hyes
      · rcases hcases t j ht with hold | ⟨rfl, -⟩
        · rw [List.getElem?_set_ne (fun hij => hj hij.symm)]
          exact h.signalled t j hold
        · exact absurd rfl hj
    · have hfresh : ∀ {u : Nat}, s.log[u]? = some (.put i) → s.calls[i].signalled = false → False := by
        intro u hu hno
        obtain ⟨c, hc, hsig⟩ := h.signalled u i hu
        rw [hcall] at hc
        obtain rfl := Option.some.inj hc
        rw [hno] at hsig
        cases hsig
      rcases hcases t j ht with h₁ | ⟨hi₁, hno₁, -, ht₁⟩ <;>
        rcases hcases t' j ht' with h₂ | ⟨hi₂, hno₂, -, ht₂⟩
      · exact h.once t t' j h₁ h₂
      · exact (hfresh (hi₂ ▸ h₁) hno₂).elim
      · exact (hfresh (hi₁ ▸ h₂) hno₁).elim
      · exact ht₁.trans ht₂.symm

/-- The `get_for_database` calls that have not returned. -/
def gets (s : PoolCalls) : Nat := s.calls.countP Call.inGet

/-- `get_for_database` is called only while fewer than `k` connections and calls are taken up, and a connection is
given back to the pool that handed it out. -/
def Uncrowded (k : Nat) (s : PoolCalls) : CallEvent → Prop
  | .get _ => s.pool.borrowed + s.gets < k
  | .put c .. => c ∈ s.out
  | .resume .. => True

instance (k : Nat) (s : PoolCalls) : ∀ e, Decidable (s.Uncrowded k e)
  | .get _ => inferInstanceAs (Decidable (_ < _))
  | .put c .. => inferInstanceAs (Decidable (c ∈ s.out))
  | .resume .. => inferInstanceAs (Decidable True)

/-- The invariant of the runs without a crowd: what exceeds the cap can wait. -/
structure Demand (m n : Nat) (s : PoolCalls) : Prop where
  /-- the cap -/
  cap : s.pool.config.backend.maxConnections = some m
  /-- `borrowed` counts -/
  counted : s.Counted
  /-- there is no crowd -/
  demand : s.pool.borrowed + s.gets ≤ m + n
  /-- so few wait -/
  few : s.waiting ≤ n

/-- Only a request that finds the pool at its cap joins the queue, and then the cap is taken up by others. -/
theorem Demand.step {m n : Nat} {s' : PoolCalls} {e : CallEvent} (h : s.Demand m n) (hok : s.Uncrowded (m + n) e)
    (hst : s.step e = some s') : s'.Demand m n := by
  have hcounted : s'.Counted :=
    h.counted.step (fun c tx healthy db he => by subst he; exact hok) hst
  have hdemand := h.demand
  cases e with
  | get db =>
    obtain rfl := Option.some.inj hst
    have hfree : s.pool.borrowed + s.gets < m + n := hok
    refine ⟨h.cap, hcounted, ?_, by simpa [waiting, Call.inQueue, Call.since] using h.few⟩
    simp only [gets, List.countP_append, List.countP_singleton, Call.inGet, if_true] at hfree ⊢
    omega
  | put c tx healthy db =>
    obtain rfl := Option.some.inj hst
    exact ⟨h.cap, hcounted, by simpa [gets, Call.inGet] using hdemand,
      by simpa [waiting, Call.inQueue, Call.since] using h.few⟩
  | resume i inp =>
    obtain ⟨call, p', call', hcall, hnext, rfl⟩ := step_resume hst
    have hgets := countP_set_add call' Call.inGet hcall
    have hcount := countP_set_add call' Call.inQueue hcall
    obtain ⟨-, hle, -⟩ := next_counts hnext (h.counted.releasing hcall) s.opened
    have hdemand' : p'.borrowed + (s.calls.set i call').countP Call.inGet ≤ m + n := by
      rw [gets] at hdemand
      omega
    refine ⟨by rw [next_config hnext]; exact h.cap, hcounted, hdemand', ?_⟩
    have hfew := h.few
    simp only [waiting, Call.inQueue] at hfew hcount ⊢
    obtain ⟨rfl, hcap, hs, hs', -⟩ | ⟨t, hs, hs', -, -⟩ | ⟨hs, hs', -, -⟩ | ⟨-, hs', -⟩ :=
      next_queue (i := i) hnext
    · -- the request joins: the cap is taken up, and whoever waits is in a call
      have hfull : m ≤ s.pool.borrowed := by
        rw [ConnectionPool.atCap] at hcap
        rw [h.cap] at hcap
        exact of_decide_eq_true hcap
      have hwaits : (s.calls.set i call').countP Call.inQueue ≤ (s.calls.set i call').countP Call.inGet := by
        refine List.countP_mono_left fun call _ hin => ?_
        cases call <;> first | rfl | cases hin
      omega
    · simp only [hs, hs', Option.isSome_none, Option.isSome_some, Bool.toNat_false,
        Bool.toNat_true] at hcount
      omega
    · simp only [hs, hs', Option.isSome_none, Bool.toNat_false] at hcount
      omega
    · rcases hs' with hs' | hs' <;>
        simp only [hs', Option.isSome_none, Bool.toNat_false] at hcount <;> omega

/-- Along the runs without a crowd the queue is long enough. -/
theorem waiting_le {config : PoolConfig} {m : Nat} {es : List CallEvent} {s : PoolCalls}
    (hcap : config.backend.maxConnections = some m)
    (hrun : Steps step (Uncrowded (m + config.waitQueueSize)) (new config) es s) :
    s.waiting ≤ config.waitQueueSize := by
  have hinit : (new config).Demand m config.waitQueueSize := ⟨hcap, rfl, Nat.zero_le _, Nat.zero_le _⟩
  exact (hrun.induct (fun t _ _ (h : t.Demand m config.waitQueueSize) hok hst => h.step hok hst) hinit).few

/-- **The wait queue where the semaphore is empty**: at most `pool_wait_queue_size` requests wait in every run in
which `get_for_database` is called only while the cap and the queue together have room for the connections and the
calls there are; and in every run the requests admitted after they found the pool full with no permit left are
matched, one to one, with put calls made after that and before the admission. -/
theorem queue_conserves {config : PoolConfig} {m : Nat} {es : List CallEvent} {s : PoolCalls}
    (hcap : config.backend.maxConnections = some m) (hrun : run step (new config) es = some s) :
    (Steps step (Uncrowded (m + config.waitQueueSize)) (new config) es s → s.waiting ≤ config.waitQueueSize) ∧
      Sourced s.log ∧
      ∃ payer : Nat → Nat,
        (∀ ta since, Served s.log ta since →
          ∃ t, since < t ∧ t < ta ∧ s.log[t]? = some (.put (payer ta))) ∧
        Set.InjOn payer {ta | ∃ since, Served s.log ta since} := by
  have hsteps := steps_of_run hrun
  have hputs : s.PutsOnce :=
    hsteps.induct (fun t _ _ (h : t.PutsOnce) _ hst => h.step hst)
      ⟨fun t j ht => by simp [new] at ht, fun t t' j ht => by simp [new] at ht⟩
  obtain ⟨pay, unspent, hledger⟩ : ∃ pay unspent, s.Ledger pay unspent :=
    hsteps.induct (fun t _ _ (h : ∃ pay unspent, t.Ledger pay unspent) _ hst => ledger_step h hst)
      ⟨id, ∅, ⟨by simp, fun ta i since h => by simp [new] at h,
        fun ta since h => by simp [new, Served] at h,
        fun ta tb sa sb h => by simp [new, Served] at h,
        fun i call since h => by simp [new] at h⟩⟩
  refine ⟨waiting_le hcap, hledger.sourced, ?_⟩
  -- name the put call behind the entry that pays
  have hcall : ∀ ta, ∃ j, ∀ since, Served s.log ta since → s.log[pay ta]? = some (.put j) := by
    intro ta
    by_cases h : ∃ since, Served s.log ta since
    · obtain ⟨since, hserved⟩ := h
      obtain ⟨-, -, ⟨j, hj⟩, -⟩ := hledger.paid ta since hserved
      exact ⟨j, fun _ _ => hj⟩
    · exact ⟨0, fun since hserved => absurd ⟨since, hserved⟩ h⟩
  choose payer hpayer using hcall
  refine ⟨payer, fun ta since hserved => ?_, ?_⟩
  · obtain ⟨hlo, hhi, -, -⟩ := hledger.paid ta since hserved
    exact ⟨pay ta, hlo, hhi, hpayer ta since hserved⟩
  · rintro ta ⟨sa, ha⟩ tb ⟨sb, hb⟩ heq
    have h₁ := hpayer ta sa ha
    have h₂ := hpayer tb sb hb
    rw [← heq] at h₂
    exact hledger.once ta tb sa sb ha hb (hputs.once _ _ _ h₁ h₂)

/-- A request spends the only permit of the semaphore; the next one finds none and is let in by a
put. -/
def spentThenPut : List CallEvent :=
  openAs 0 ++ .get none :: List.replicate 4 (.resume 1 allWell) ++
    .get none :: List.replicate 3 (.resume 2 allWell) ++
    .put 0 false true none :: List.replicate 2 (.resume 3 allWell) ++ [.resume 2 allWell]

/-- A request finds the pool at its cap, and waits. -/
def waitsAtCap : List CallEvent := openAs 0 ++ .get none :: List.replicate 3 (.resume 1 allWell)

/-- In the first run the grant to the last request is matched with the put; in the second there is no crowd, and
one request waits in a queue of one. -/
theorem queue_conserves_spentThenPut :
    (∃ s : PoolCalls, run step (new (smallConfig 1 1)) spentThenPut = some s ∧ Served s.log 4 2 ∧
      ∃ payer : Nat → Nat, ∃ t, 2 < t ∧ t < 4 ∧ s.log[t]? = some (.put (payer 4))) ∧
    ∃ s : PoolCalls, Steps step (Uncrowded 2) (new (smallConfig 1 1)) waitsAtCap s ∧ s.waiting = 1 ∧
      s.waiting ≤ 1 := by
  constructor
  · obtain ⟨s, hs⟩ : ∃ s, run step (new (smallConfig 1 1)) spentThenPut = some s := ⟨_, rfl⟩
    have hserved : Served s.log 4 2 := by
      obtain rfl := Option.some.inj hs
      exact ⟨2, by decide, by decide⟩
    obtain ⟨-, -, payer, hpayer, -⟩ := queue_conserves rfl hs
    exact ⟨s, hs, hserved, payer, hpayer 4 2 hserved⟩
  · obtain ⟨s, hs, hwaits⟩ : ∃ s, run (fun s e => if decide (Uncrowded 2 s e) then step s e else none)
        (new (smallConfig 1 1)) waitsAtCap = some s ∧ s.waiting = 1 := ⟨_, rfl, rfl⟩
    have hsteps := steps_of_checked (fun _ _ h => of_decide_eq_true h) hs
    exact ⟨s, hsteps, hwaits, (queue_conserves rfl hsteps.run).1 hsteps⟩

/-- Both halves fail on the code: with a queue of one, two requests wait at once, and a request that
finds the pool full is let in without any put. -/
theorem queue_leaks :
    (¬ ∀ (config : PoolConfig) (es : List CallEvent) (s : PoolCalls), 0 < config.waitQueueSize →
      config.backend.maxConnections.isSome → run step (new config) es = some s →
      s.waiting ≤ config.waitQueueSize) ∧
    ¬ ∀ (config : PoolConfig) (es : List CallEvent) (s : PoolCalls), 0 < config.waitQueueSize →
      config.backend.maxConnections.isSome → run step (new config) es = some s →
      ∃ payer : Nat → Nat,
        (∀ ta i since : Nat, s.log[ta]? = some (.granted i since) →
          ∃ t, since < t ∧ s.log[t]? = some (.put (payer ta))) ∧
        Set.InjOn payer {ta | ∃ i since : Nat, s.log[ta]? = some (.granted i since)} := by
  constructor
  · intro h
    -- the permit of the new semaphore is spent first
    have hbad := h (smallConfig 1 1)
      (openAs 0 ++ .get none :: List.replicate 4 (.resume 1 allWell) ++
        .get none :: List.replicate 2 (.resume 2 allWell) ++
        .get none :: List.replicate 2 (.resume 3 allWell)) _ Nat.one_pos rfl rfl
    revert hbad
    decide
  · intro h
    obtain ⟨s, hs, hlog⟩ : ∃ s, run step (new (smallConfig 1 1))
        (openAs 0 ++ .get none :: List.replicate 4 (.resume 1 allWell)) = some s ∧
        s.log = [.found 1 1, .granted 1 0] := ⟨_, rfl, rfl⟩
    obtain ⟨payer, hpayer, -⟩ := h _ _ s Nat.one_pos rfl hs
    rw [hlog] at hpayer
    obtain ⟨t, -, ht⟩ := hpayer 1 1 0 rfl
    have hmem := List.mem_of_getElem? ht
    simp at hmem

end PoolCalls

end TurbineProxy
