import TurbineProxy.Prog

/-!
# Reactive threads over a shared world

A library layer, independent of the proxy. A `Machine` is a family of processes that share one
world: each process sits idle in a local state, a message starts a program (`react`), and the
program's operations are performed one at a time against the world (`handle`), in any interleaving
with the other processes and with the environment's own actions (`env`). Where the machine allows it
(`stop`), a process may also break off in the middle of whatever it is doing. What the environment
decides at an operation (a clock value, a fault, a peer's answer) is the event's input, so a run is
a list of events and `Machine.step` is a function.

`Outline` packages the proof of a safety property of such a machine: a world invariant, a local
protocol for every started program, and the four obligations *message*, *operation*, *environment* and
*stop*.
From it, `Outline.steps` carries the invariant along every run whose events meet the condition `ok`.
-/

namespace TurbineProxy

variable {Op : Type} {Res : Op → Type} {In : Op → Type} {W St Msg Env Γ : Type}

/-! ## Runs -/

section Runs

variable {S E : Type}

/-- Perform a list of events with a partial step function. -/
def run (step : S → E → Option S) : S → List E → Option S
  | s, [] => some s
  | s, e :: es => (step s e).bind fun s' => run step s' es

/-- Runs whose events all meet the condition `ok` in the state they happen in. -/
inductive Steps (step : S → E → Option S) (ok : S → E → Prop) : S → List E → S → Prop where
  /-- the empty run -/
  | nil (s : S) : Steps step ok s [] s
  /-- one more event -/
  | cons {s s' s'' : S} {e : E} {es : List E} :
      ok s e → step s e = some s' → Steps step ok s' es s'' → Steps step ok s (e :: es) s''

variable {step : S → E → Option S} {ok : S → E → Prop}

/-- The runs under the trivial condition are the executions of `run`. -/
theorem steps_of_run {s s' : S} {es : List E} (h : run step s es = some s') :
    Steps step (fun _ _ => True) s es s' := by
  induction es generalizing s with
  | nil =>
    obtain rfl : s = s' := Option.some.inj h
    exact .nil s
  | cons e es ih =>
    rw [run, Option.bind_eq_some_iff] at h
    obtain ⟨t, ht, hrest⟩ := h
    exact .cons trivial ht (ih hrest)

/-- Every run is an execution of `run`. -/
theorem Steps.run {s s' : S} {es : List E} (h : Steps step ok s es s') :
    TurbineProxy.run step s es = some s' := by
  induction h with
  | nil s => rfl
  | cons _ hst _ ih =>
    rw [TurbineProxy.run, hst]
    exact ih

/-- A run that checks something stronger than the condition on the way is a run that meets it. -/
theorem steps_of_checked {check : S → E → Bool} (hcheck : ∀ s e, check s e = true → ok s e)
    {s s' : S} {es : List E}
    (h : TurbineProxy.run (fun s e => if check s e then step s e else none) s es = some s') :
    Steps step ok s es s' := by
  induction es generalizing s with
  | nil =>
    obtain rfl : s = s' := Option.some.inj h
    exact .nil s
  | cons e es ih =>
    rw [TurbineProxy.run, Option.bind_eq_some_iff] at h
    obtain ⟨t, ht, hrest⟩ := h
    obtain ⟨hok, hst⟩ := Option.ite_none_right_eq_some.mp ht
    exact .cons (hcheck s e hok) hst (ih hrest)

/-- Induction along a run: what holds at the start and survives every admissible step holds at the
end. -/
theorem Steps.induct {P : S → Prop} (hstep : ∀ s e s', P s → ok s e → step s e = some s' → P s')
    {s s' : S} {es : List E} (h : Steps step ok s es s') (hs : P s) : P s' := by
  induction h with
  | nil s => exact hs
  | cons hok hst _ ih => exact ih (hstep _ _ _ hs hok hst)

end Runs

/-!
## Machines

A machine runs any number of programs that take turns at their operations. A thread that panics takes no further step;
what it held is lost.
-/

/-- A family of reactive processes over a shared world. -/
structure Machine (Op : Type) (Res In : Op → Type) (W St Msg Env : Type) where
  /-- the program a message starts in an idle process; `none` when it is not accepted -/
  react : St → Msg → Option (Prog Op Res St)
  /-- how the world answers an operation of process `i`; `none` while it is blocked -/
  handle : W → Nat → (o : Op) → In o → Option (W × Res o)
  /-- the environment's own actions -/
  env : W → Env → Option W
  /-- what a process that breaks off makes of the world, and the state it is idle in from then on; `none`
  when it cannot break off -/
  stop : W → Nat → Option (W × St) := fun _ _ => none

/-- The state of one process: idle, or in the middle of the program started by a message. -/
inductive Thread (Op : Type) (Res : Op → Type) (St Msg : Type) : Type where
  /-- waiting for a message -/
  | idle : St → Thread Op Res St Msg
  /-- the state and message the program was started with, and what is left of it -/
  | busy : St → Msg → Prog Op Res St → Thread Op Res St Msg

/-- A process that has `p` left to do; a finished program leaves it idle. -/
def Thread.next (st : St) (m : Msg) : Prog Op Res St → Thread Op Res St Msg
  | .done st' => .idle st'
  | .op o k => .busy st m (.op o k)

/-- A world with its processes. -/
structure Sys (Op : Type) (Res : Op → Type) (W St Msg : Type) where
  /-- the shared world -/
  world : W
  /-- the processes -/
  thread : Nat → Thread Op Res St Msg

/-- One step of a run. -/
inductive Event (Op : Type) (In : Op → Type) (Msg Env : Type) : Type where
  /-- process `i` receives a message -/
  | msg : Nat → Msg → Event Op In Msg Env
  /-- process `i` performs its next operation, on the environment's input for it -/
  | op : Nat → ((o : Op) → In o) → Event Op In Msg Env
  /-- the environment acts -/
  | env : Env → Event Op In Msg Env
  /-- process `i` breaks off -/
  | stop : Nat → Event Op In Msg Env

namespace Machine

variable (M : Machine Op Res In W St Msg Env)

/-- Perform one event; `none` when it is not enabled. -/
def step (s : Sys Op Res W St Msg) : Event Op In Msg Env → Option (Sys Op Res W St Msg)
  | .msg i m =>
    match s.thread i with
    | .idle st => (M.react st m).map fun p =>
        { s with thread := Function.update s.thread i (.next st m p) }
    | .busy .. => none
  | .op i inp =>
    match s.thread i with
    | .busy st m (.op o k) => (M.handle s.world i o (inp o)).map fun wr =>
        ⟨wr.1, Function.update s.thread i (.next st m (k wr.2))⟩
    | _ => none
  | .env e => (M.env s.world e).map fun w => { s with world := w }
  | .stop i => (M.stop s.world i).map fun ws => ⟨ws.1, Function.update s.thread i (.idle ws.2)⟩

/-- A message goes to an idle process and leaves the world alone. -/
theorem step_msg {M : Machine Op Res In W St Msg Env} {s s' : Sys Op Res W St Msg} {i : Nat} {m : Msg}
    (h : M.step s (.msg i m) = some s') :
    ∃ st p, s.thread i = .idle st ∧ M.react st m = some p ∧
      s' = { s with thread := Function.update s.thread i (.next st m p) } := by
  rcases hi : s.thread i with st | ⟨st, m', p⟩
  · simp only [step, hi, Option.map_eq_some_iff] at h
    obtain ⟨p, hp, rfl⟩ := h
    exact ⟨st, p, rfl, hp, rfl⟩
  · simp [step, hi] at h

/-- An operation is the next one of a busy process, and the world answers it. -/
theorem step_op {M : Machine Op Res In W St Msg Env} {s s' : Sys Op Res W St Msg} {i : Nat}
    {inp : (o : Op) → In o} (h : M.step s (.op i inp) = some s') :
    ∃ st m o k w' r, s.thread i = .busy st m (.op o k) ∧
      M.handle s.world i o (inp o) = some (w', r) ∧
      s' = ⟨w', Function.update s.thread i (.next st m (k r))⟩ := by
  rcases hi : s.thread i with st | ⟨st, m, p⟩
  · simp [step, hi] at h
  · rcases p with a | ⟨o, k⟩
    · simp [step, hi] at h
    · simp only [step, hi, Option.map_eq_some_iff] at h
      obtain ⟨⟨w', r⟩, hw', rfl⟩ := h
      exact ⟨st, m, o, k, w', r, rfl, hw', rfl⟩

/-- A process that breaks off is idle. -/
theorem step_stop {M : Machine Op Res In W St Msg Env} {s s' : Sys Op Res W St Msg} {i : Nat}
    (h : M.step s (.stop i) = some s') :
    ∃ w' st, M.stop s.world i = some (w', st) ∧ s' = ⟨w', Function.update s.thread i (.idle st)⟩ := by
  obtain ⟨⟨w', st⟩, hw', rfl⟩ := Option.map_eq_some_iff.mp h
  exact ⟨w', st, hw', rfl⟩

end Machine

/-- What runs was started by such a message. -/
def Thread.StartedBy (P : St → Msg → Prop) : Thread Op Res St Msg → Prop
  | .idle _ => True
  | .busy st m _ => P st m

theorem Thread.startedBy_next {P : St → Msg → Prop} {st : St} {m : Msg} (h : P st m) (p : Prog Op Res St) :
    (Thread.next st m p).StartedBy P := by
  cases p with
  | done st' => trivial
  | op o k => exact h

/-- What the condition asks of the messages holds of every program of a run. -/
theorem Steps.startedBy {M : Machine Op Res In W St Msg Env} {ok : Sys Op Res W St Msg → Event Op In Msg Env → Prop}
    {P : St → Msg → Prop} {s s' : Sys Op Res W St Msg} {es : List (Event Op In Msg Env)}
    (h : Steps M.step ok s es s') (hmsg : ∀ s i st m, s.thread i = .idle st → ok s (.msg i m) → P st m)
    (hs : ∀ i, (s.thread i).StartedBy P) (i : Nat) : (s'.thread i).StartedBy P := by
  refine h.induct (P := fun s => ∀ i, (s.thread i).StartedBy P) (fun s e s' hs hok hst => ?_) hs i
  have hupdate : ∀ (j : Nat) (t : Thread Op Res St Msg), t.StartedBy P →
      ∀ i, (Function.update s.thread j t i).StartedBy P := by
    intro j t ht i
    by_cases hij : i = j
    · rw [hij, Function.update_self]
      exact ht
    · rw [Function.update_of_ne hij]
      exact hs i
  cases e with
  | msg j m =>
    obtain ⟨st, p, hj, -, rfl⟩ := Machine.step_msg hst
    exact hupdate j _ (Thread.startedBy_next (hmsg s j st m hj hok) p)
  | op j inp =>
    obtain ⟨st, m, o, k, w', r, hj, -, rfl⟩ := Machine.step_op hst
    have hstarted := hs j
    rw [hj] at hstarted
    exact hupdate j _ (Thread.startedBy_next (P := P) hstarted (k r))
  | env e =>
    obtain ⟨w', -, rfl⟩ := Option.map_eq_some_iff.mp hst
    exact hs
  | stop j =>
    obtain ⟨w', st, -, rfl⟩ := Machine.step_stop hst
    exact hupdate j _ trivial

/-- The operation process `i` is about to perform. -/
def Sys.next (s : Sys Op Res W St Msg) (i : Nat) : Option Op :=
  match s.thread i with
  | .busy _ _ (.op o _) => some o
  | _ => none

theorem Sys.next_eq {s : Sys Op Res W St Msg} {i : Nat} {st : St} {m : Msg} {o : Op}
    {k : Res o → Prog Op Res St} (h : s.thread i = .busy st m (.op o k)) : s.next i = some o := by
  rw [next, h]

theorem Sys.next_eq_some {s : Sys Op Res W St Msg} {i : Nat} {o : Op} (h : s.next i = some o) :
    ∃ st m k, s.thread i = .busy st m (.op o k) := by
  rw [next] at h
  split at h
  · rename_i st m o' k hi
    obtain rfl := Option.some.inj h
    exact ⟨st, m, k, hi⟩
  · cases h

/-! ## Proof outlines -/

/-- A safety argument for a machine along the runs that meet `ok`.

`hold w i` is the part of the world that belongs to process `i` (its ghost state). `proto` is the
protocol its program follows, `idle` the invariant it re-establishes whenever the program ends. -/
structure Outline (M : Machine Op Res In W St Msg Env)
    (ok : Sys Op Res W St Msg → Event Op In Msg Env → Prop) (Γ : Type) where
  /-- the invariant of the world -/
  inv : W → Prop
  /-- what belongs to a process -/
  hold : W → Nat → Γ
  /-- the protocol of the program a message started -/
  proto : W → St → Msg → Protocol Op Res Γ
  /-- the invariant of an idle process -/
  idle : W → Γ → St → Prop
  /-- a message starts a program that meets its protocol -/
  msg_ok : ∀ {s i st m p}, inv s.world → s.thread i = .idle st → idle s.world (hold s.world i) st →
    ok s (.msg i m) → M.react st m = some p →
    p.wp (proto s.world st m) (fun st' g => idle s.world g st') (hold s.world i)
  /-- an operation that is paid for keeps the invariant and moves only its own process -/
  op_ok : ∀ {s i st m o k inp w' r}, inv s.world → s.thread i = .busy st m (.op o k) →
    (proto s.world st m).owes (hold s.world i) o → ok s (.op i inp) →
    M.handle s.world i o (inp o) = some (w', r) →
    inv w' ∧ proto w' = proto s.world ∧ idle w' = idle s.world ∧
      (proto s.world st m).step (hold s.world i) o r (hold w' i) ∧
      ∀ j, j ≠ i → hold w' j = hold s.world j
  /-- the environment keeps the invariant; it either leaves the protocols alone or acts while every
  process is idle -/
  env_ok : ∀ {s e w'}, inv s.world → ok s (.env e) → M.env s.world e = some w' →
    inv w' ∧ (∀ j, hold w' j = hold s.world j) ∧
      ((proto w' = proto s.world ∧ idle w' = idle s.world) ∨
        ∀ j, ∃ st, s.thread j = .idle st ∧
          (idle s.world (hold s.world j) st → idle w' (hold s.world j) st))
  /-- a process that breaks off keeps the invariant, moves only what is its own, and is left as an idle
  process should be -/
  stop_ok : ∀ {s i w' st}, inv s.world → ok s (.stop i) → M.stop s.world i = some (w', st) →
    inv w' ∧ proto w' = proto s.world ∧ idle w' = idle s.world ∧ idle s.world (hold w' i) st ∧
      ∀ j, j ≠ i → hold w' j = hold s.world j

namespace Outline

variable {M : Machine Op Res In W St Msg Env}
  {ok : Sys Op Res W St Msg → Event Op In Msg Env → Prop}

/-- Process `i` of `s` is where the outline says it is. -/
def ThreadOk (D : Outline M ok Γ) (w : W) (i : Nat) : Thread Op Res St Msg → Prop
  | .idle st => D.idle w (D.hold w i) st
  | .busy st m p => p.wp (D.proto w st m) (fun st' g => D.idle w g st') (D.hold w i)

/-- The invariant of the whole system. -/
def Good (D : Outline M ok Γ) (s : Sys Op Res W St Msg) : Prop :=
  D.inv s.world ∧ ∀ i, D.ThreadOk s.world i (s.thread i)

variable {D : Outline M ok Γ} {s s' : Sys Op Res W St Msg} {i : Nat}

theorem threadOk_next {w : W} {st : St} {m : Msg} {p : Prog Op Res St}
    (h : p.wp (D.proto w st m) (fun st' g => D.idle w g st') (D.hold w i)) :
    D.ThreadOk w i (.next st m p) := by
  cases p with
  | done st' => exact h
  | op o k => exact h

/-- Every operation a process of a good system is about to perform is paid for. -/
theorem Good.owes {st : St} {m : Msg} {o : Op} {k : Res o → Prog Op Res St} (h : D.Good s)
    (hi : s.thread i = .busy st m (.op o k)) :
    (D.proto s.world st m).owes (D.hold s.world i) o := by
  have hw := h.2 i
  rw [hi] at hw
  exact hw.1

/-- The invariant survives a message. -/
theorem Good.msg {m : Msg} (h : D.Good s) (hok : ok s (.msg i m))
    (hst : M.step s (.msg i m) = some s') : D.Good s' := by
  obtain ⟨st, p, hi, hp, rfl⟩ := Machine.step_msg hst
  refine ⟨h.1, fun j => ?_⟩
  have hidle := h.2 i
  rw [hi] at hidle
  by_cases hj : j = i
  · subst hj
    simp only [Function.update_self]
    exact threadOk_next (D.msg_ok h.1 hi hidle hok hp)
  · simp only [Function.update_of_ne hj]
    exact h.2 j

/-- A thread is fine as long as its protocol, its idle invariant and what it holds stay the same. -/
theorem threadOk_of_eq {w w' : W} (hproto : D.proto w' = D.proto w) (hidle : D.idle w' = D.idle w)
    (hhold : D.hold w' i = D.hold w i) {t : Thread Op Res St Msg} (h : D.ThreadOk w i t) : D.ThreadOk w' i t := by
  cases t with
  | idle st =>
    simp only [ThreadOk, hidle, hhold]
    exact h
  | busy st m p =>
    simp only [ThreadOk, hproto, hidle, hhold]
    exact h

/-- The invariant survives an operation. -/
theorem Good.op {inp : (o : Op) → In o} (h : D.Good s) (hok : ok s (.op i inp))
    (hst : M.step s (.op i inp) = some s') : D.Good s' := by
  obtain ⟨st, m, o, k, w', r, hi, hw', rfl⟩ := Machine.step_op hst
  have hwp := h.2 i
  rw [hi] at hwp
  obtain ⟨hinv, hproto, hidle, hstep, hothers⟩ := D.op_ok h.1 hi hwp.1 hok hw'
  refine ⟨hinv, fun j => ?_⟩
  by_cases hj : j = i
  · subst hj
    simp only [Function.update_self]
    refine threadOk_next ?_
    rw [hproto, hidle]
    exact hwp.2 r _ hstep
  · simp only [Function.update_of_ne hj]
    exact threadOk_of_eq hproto hidle (hothers j hj) (h.2 j)

/-- The invariant survives an action of the environment. -/
theorem Good.env {e : Env} (h : D.Good s) (hok : ok s (.env e))
    (hst : M.step s (.env e) = some s') : D.Good s' := by
  simp only [Machine.step, Option.map_eq_some_iff] at hst
  obtain ⟨w', hw', rfl⟩ := hst
  obtain ⟨hinv, hhold, hcase⟩ := D.env_ok h.1 hok hw'
  refine ⟨hinv, fun j => ?_⟩
  have hj := h.2 j
  rcases hcase with ⟨hproto, hidle⟩ | hquiet
  · exact threadOk_of_eq hproto hidle (hhold j) hj
  · obtain ⟨st', hjt, hkeep⟩ := hquiet j
    rw [hjt] at hj
    simp only [hjt, ThreadOk, hhold j]
    exact hkeep hj

/-- The invariant survives a process that breaks off. -/
theorem Good.stop (h : D.Good s) (hok : ok s (.stop i)) (hst : M.step s (.stop i) = some s') : D.Good s' := by
  obtain ⟨w', st, hw', rfl⟩ := Machine.step_stop hst
  obtain ⟨hinv, hproto, hidle, hgone, hothers⟩ := D.stop_ok h.1 hok hw'
  refine ⟨hinv, fun j => ?_⟩
  by_cases hj : j = i
  · subst hj
    simp only [Function.update_self, ThreadOk, hidle]
    exact hgone
  · simp only [Function.update_of_ne hj]
    exact threadOk_of_eq hproto hidle (hothers j hj) (h.2 j)

/-- **Safety along runs**: the invariant holds in every state that a run reaches. -/
theorem steps {es : List (Event Op In Msg Env)} (hrun : Steps M.step ok s es s') (h : D.Good s) :
    D.Good s' := by
  refine hrun.induct (fun t e t' ht hok hst => ?_) h
  cases e with
  | msg i m => exact ht.msg hok hst
  | op i inp => exact ht.op hok hst
  | env e => exact ht.env hok hst
  | stop i => exact ht.stop hok hst

end Outline

end TurbineProxy
