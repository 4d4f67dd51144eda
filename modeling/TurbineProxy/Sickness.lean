import Mathlib.Data.List.TakeWhile
import TurbineProxy.Admission
import TurbineProxy.FallbackOrder

/-!
# What costs a replica its flag

A read that gets no connection from a replica clears the replica's healthy flag, whatever the error was.
`get_for_database` has one error for a backend that cannot be reached and for one that has reached its
`max_connections`, so load looks like sickness to its callers.

Every call of `get_for_database` is followed access by access, each with the pool as it finds it (`Gets`):
other requests may have changed it in between.
-/

namespace TurbineProxy

open ConnectionPool (GetInput Checkout)

/-! ## One `get_for_database` -/

/-- What an access of a call finds. -/
structure Found where
  /-- the pool -/
  pool : ConnectionPool
  /-- the time -/
  now : Nat
  /-- what the outside world decides -/
  inp : GetInput

/-- The accesses of a call, each with what it finds, and how the call ends. -/
inductive Gets : Call → List (Call × Found) → Checkout → Prop where
  /-- it has ended -/
  | returned (r : Checkout) : Gets (.returned r) [] r
  /-- it goes on -/
  | access {call next : Call} {f : Found} {p : ConnectionPool} {rest : List (Call × Found)} {r : Checkout} :
      call.next f.pool f.now f.inp = some (p, next) → Gets next rest r → Gets call ((call, f) :: rest) r

/-- Opening a connection fails here: connecting does, or `init_connect`. -/
def FailsToOpen : Call × Found → Prop
  | (.connect _, f) => f.inp.connectError ≠ none
  | (.initConnect _, f) => f.pool.config.backend.initConnect ≠ [] ∧ f.inp.initError ≠ none
  | _ => False

/-- The limit is met here: the pool is at its cap and has no queue, or the wait is over without a permit. -/
def MeetsLimit : Call × Found → Prop
  | (.check _, f) => f.pool.atCap = true ∧ f.pool.hasQueue = false
  | (.waiting .., f) => f.inp.granted = false
  | _ => False

/-- The steps of `get_for_database`. -/
def Call.ofGet : Call → Bool
  | .release .. | .signal .. | .store .. | .finished _ => false
  | _ => true

/-- The request is going to get an error. -/
def Call.refused : Call → Bool
  | .leave _ false | .returned (.failed _) => true
  | _ => false

section Gets

variable {call next : Call} {f : Found} {p : ConnectionPool} {trail : List (Call × Found)} {r : Checkout}

/-- A request is refused by an access that meets the limit or fails to open a connection, and by no other. -/
theorem refused_next (hget : call.ofGet = true) (h : call.next f.pool f.now f.inp = some (p, next)) :
    next.ofGet = true ∧ ¬(MeetsLimit (call, f) ∧ FailsToOpen (call, f)) ∧
      (next.refused = true ↔ call.refused = true ∨ MeetsLimit (call, f) ∨ FailsToOpen (call, f)) := by
  unfold Call.next at h
  unfold MeetsLimit FailsToOpen
  cases call with
  | pop key =>
    dsimp only at h
    split at h <;> · cases h; simp [Call.ofGet, Call.refused]
  | reuse c => cases h; simp [Call.ofGet, Call.refused]
  | check key =>
    dsimp only at h
    split at h
    · rename_i hcap
      split at h <;> · cases h; simp_all [Call.ofGet, Call.refused]
    · cases h; simp_all [Call.ofGet, Call.refused]
  | enqueue key since => cases h; simp [Call.ofGet, Call.refused]
  | waiting key since =>
    dsimp only at h
    split at h
    · rename_i hgranted
      obtain ⟨q, -, heq⟩ := Option.map_eq_some_iff.mp h
      cases heq
      simp [Call.ofGet, Call.refused, hgranted]
    · rename_i hgranted
      cases h
      simp [Call.ofGet, Call.refused, hgranted]
  | leave key granted => cases granted <;> · cases h; simp [Call.ofGet, Call.refused]
  | connect key =>
    dsimp only at h
    split at h <;> · cases h; simp_all [Call.ofGet, Call.refused]
  | initConnect key =>
    dsimp only at h
    split at h <;> · cases h; simp_all [Call.ofGet, Call.refused]
  | raise key => cases h; simp [Call.ofGet, Call.refused]
  | returned r => cases h
  | release c tx healthy db => cases hget
  | signal c tx healthy db => cases hget
  | store key c => cases hget
  | finished kept => cases hget

/-- Once a request has been refused, it gets its error, and nothing else goes wrong. -/
theorem Gets.refused (h : Gets call trail r) (hget : call.ofGet = true) (hrefused : call.refused = true) :
    (∃ e, r = .failed e) ∧ ∀ x ∈ trail, ¬MeetsLimit x ∧ ¬FailsToOpen x := by
  induction h with
  | returned r =>
    cases r with
    | failed e => exact ⟨⟨e, rfl⟩, List.forall_mem_nil _⟩
    | reused c => cases hrefused
    | opened db => cases hrefused
  | @access call next f p rest r hnext _ ih =>
    obtain ⟨hget', -, hiff⟩ := refused_next hget hnext
    obtain ⟨hfailed, hrest⟩ := ih hget' (hiff.mpr (.inl hrefused))
    refine ⟨hfailed, fun x hx => ?_⟩
    rcases List.mem_cons.mp hx with rfl | hx
    · cases call with
      | leave key granted => exact ⟨id, id⟩
      | returned r => exact ⟨id, id⟩
      | _ => cases hrefused
    · exact hrest x hx

/-- A call fails for load, or because no connection could be opened, and never for both. -/
theorem Gets.cause (h : Gets call trail r) (hget : call.ofGet = true) (hfresh : call.refused = false) :
    ((∃ e, r = .failed e) ↔ (∃ x ∈ trail, MeetsLimit x) ∨ ∃ x ∈ trail, FailsToOpen x) ∧
      ¬((∃ x ∈ trail, MeetsLimit x) ∧ ∃ x ∈ trail, FailsToOpen x) := by
  induction h with
  | returned r => cases r <;> simp_all [Call.refused]
  | @access call next f p rest r hnext hgets ih =>
    obtain ⟨hget', hapart, hiff⟩ := refused_next hget hnext
    simp only [List.exists_mem_cons_iff]
    cases hrefused : next.refused with
    | false =>
      have hplain : ¬MeetsLimit (call, f) ∧ ¬FailsToOpen (call, f) := by
        simpa [hrefused, hfresh] using hiff
      simpa [hplain] using ih hget' hrefused
    | true =>
      obtain ⟨hfailed, hrest⟩ := hgets.refused hget' hrefused
      have hnone : (¬∃ x ∈ rest, MeetsLimit x) ∧ ¬∃ x ∈ rest, FailsToOpen x :=
        ⟨fun ⟨x, hx, hlimit⟩ => (hrest x hx).1 hlimit, fun ⟨x, hx, hopen⟩ => (hrest x hx).2 hopen⟩
      have hhere : MeetsLimit (call, f) ∨ FailsToOpen (call, f) := by simpa [hfresh] using hiff.mp hrefused
      simp only [hnone, or_false]
      exact ⟨iff_of_true hfailed hhere, hapart⟩

end Gets

/-! ## The calls that clear flags -/

/-- A checkout that ends this way gives this answer. -/
def ConnectionPool.Checkout.Answers : Checkout → Except Str ConnId → Prop
  | .failed e, r => r = .error e
  | .reused c, r => r = .ok c
  | .opened _, r => ∃ c, r = .ok c

/-- An operation of the routing code and its answer, with the accesses behind a `get`. -/
structure TracedOp where
  /-- the operation and its answer -/
  event : (o : Op) × Res o
  /-- the accesses -/
  trail : List (Call × Found)

namespace TracedOp

/-- A `get` is answered by what its accesses come to. -/
def Fits (n : TracedOp) : Prop :=
  ∀ origin db r, n.event = ⟨.get origin db, r⟩ →
    ∃ (p : ConnectionPool) (out : Checkout), Gets (.pop (p.dbKey db)) n.trail out ∧ out.Answers r

/-- A connection to this backend is asked for. -/
def AsksFor (n : TracedOp) (origin : Origin) : Prop := ∃ db, n.event.1 = .get origin db

/-- No connection to this backend can be opened. -/
def Sick (n : TracedOp) (origin : Origin) : Prop := n.AsksFor origin ∧ ∃ x ∈ n.trail, FailsToOpen x

/-- A backend is asked for a connection and is at its limit. -/
def Loaded (n : TracedOp) : Prop := (∃ origin, n.AsksFor origin) ∧ ∃ x ∈ n.trail, MeetsLimit x

/-- The call turns to the primary. -/
def atPrimary (n : TracedOp) : Bool :=
  match n.event.1 with
  | .loadGr _ => true
  | _ => false

end TracedOp

/-- A flag is cleared only after opening a connection to the replica has failed. -/
def OnlySick (es : List TracedOp) : Prop :=
  ∀ before n after gen i, es = before ++ n :: after → n.event.1 = .markUnhealthy gen i →
    ∃ n' ∈ before, n'.Sick ⟨gen, .replica i⟩

/-- Of the replicas that are tried, none is at its limit. -/
def NoneLoaded (es : List TracedOp) : Prop := ∀ n ∈ es.takeWhile fun n => !n.atPrimary, ¬n.Loaded

/-- What a call does before it turns to the primary: each failed try is followed by its mark, and no replica is
tried again. -/
inductive Trying (gen : Nat) (db : Option Str) : List Nat → Log → Prop where
  /-- nothing more -/
  | nil : Trying gen db [] []
  /-- a question -/
  | question {ids : List Nat} {e : (o : Op) × Res o} {log : Log} :
      e.1.isQuestion = true → Trying gen db ids log → Trying gen db ids (e :: log)
  /-- a failed try -/
  | failed {ids : List Nat} {i : Nat} {err : Str} {log : Log} : i ∉ ids → Trying gen db ids log →
      Trying gen db (i :: ids) (⟨.get ⟨gen, .replica i⟩ db, .error err⟩ :: ⟨.markUnhealthy gen i, ()⟩ :: log)
  /-- a good try -/
  | got {i : Nat} {c : ConnId} : Trying gen db [] [⟨.get ⟨gen, .replica i⟩ db, .ok c⟩]

section Logs

variable {pool : PoolRef} {gen : Nat} {db : Option Str} {ids : List Nat} {log : Log}

theorem trying_questions {asked : Log} (hasked : ∀ e ∈ asked, e.1.isQuestion = true) (h : Trying gen db ids log) :
    Trying gen db ids (asked ++ log) := by
  induction asked with
  | nil => exact h
  | cons e rest ih =>
    obtain ⟨he, hrest⟩ := List.forall_mem_cons.mp hasked
    exact .question he (ih hrest)

theorem trying_failures {failed : List (Nat × Str)} (hnodup : (failed.map Prod.fst ++ ids).Nodup)
    (h : Trying pool.gen db ids log) :
    Trying pool.gen db (failed.map Prod.fst ++ ids) (pool.failures db failed ++ log) := by
  induction failed with
  | nil => exact h
  | cons t rest ih =>
    obtain ⟨hfresh, hnodup⟩ := List.nodup_cons.mp hnodup
    exact .failed hfresh (ih hnodup)

theorem trying_success (won : Option (ConnId × Nat)) : Trying pool.gen db [] (pool.success db won) := by
  rcases won with _ | ⟨c, i⟩
  · exact .nil
  · exact .got

/-- A pass, and what comes after one that found nothing. -/
theorem Pass.trying {backupPass : Bool} {asked : Log} {failed : List (Nat × Str)} {won : Option (ConnId × Nat)}
    (h : Pass pool backupPass asked failed won) :
    Trying pool.gen db (failed.map Prod.fst) (pool.passLog db asked failed won) := by
  have honce : (failed.map Prod.fst ++ []).Nodup := by
    rw [List.append_nil]
    exact h.once.sublist (List.sublist_append_left _ _)
  rw [PoolRef.passLog, List.append_assoc, ← List.append_nil (failed.map Prod.fst)]
  exact trying_questions h.questions (trying_failures honce (trying_success won))

theorem Pass.before {asked : Log} {failed : List (Nat × Str)} (hpass : Pass pool false asked failed none)
    (hdisjoint : ∀ i ∈ ids, ∃ weight, pool.replicas[i]? = some (weight, true)) (h : Trying pool.gen db ids log)
    (hnodup : ids.Nodup) :
    Trying pool.gen db (failed.map Prod.fst ++ ids) (pool.passLog db asked failed none ++ log) := by
  have hlog : pool.passLog db asked failed none ++ log = asked ++ (pool.failures db failed ++ log) := by
    simp [PoolRef.passLog, PoolRef.success]
  rw [hlog]
  refine trying_questions hpass.questions (trying_failures ?_ h)
  have honce : (failed.map Prod.fst).Nodup := hpass.once.sublist (List.sublist_append_left _ _)
  refine List.nodup_append'.mpr ⟨honce, hnodup, fun i hi hi' => ?_⟩
  obtain ⟨⟨_, hregular⟩, -⟩ := hpass.eligible i (List.mem_append_left _ hi)
  obtain ⟨_, hbackup⟩ := hdisjoint i hi'
  cases hregular.symm.trans hbackup

/-- Tries of replicas, and then perhaps the primary. -/
def TriesFirst (pool : PoolRef) (db : Option Str) (log : Log) : Prop :=
  ∃ ids before after, log = before ++ after ∧ Trying pool.gen db ids before ∧
    (after = [] ∨ ∃ got, FromPrimary pool db after got)

theorem Falls.triesFirst {r : Except Str (ConnId × Option Nat)} (h : Falls pool db log r) : TriesFirst pool db log := by
  cases h with
  | regular hpass => exact ⟨_, _, [], (List.append_nil _).symm, hpass.trying, .inl rfl⟩
  | @backup asked asked' failed failed' c i hpass hpass' =>
    refine ⟨_, _, [], (List.append_nil _).symm, hpass.before (fun i hi => ?_) hpass'.trying ?_, .inl rfl⟩
    · exact (hpass'.eligible i (List.mem_append_left _ hi)).1
    · exact hpass'.once.sublist (List.sublist_append_left _ _)
  | primary hpass hpass' hprimary =>
    refine ⟨_, _, _, rfl, hpass.before (fun i hi => ?_) hpass'.trying ?_, .inr ⟨_, hprimary⟩⟩
    · exact (hpass'.eligible i (List.mem_append_left _ hi)).1
    · exact hpass'.once.sublist (List.sublist_append_left _ _)

theorem triesFirst_primary {r : Except Str (ConnId × Option Nat)} (h : (pool.getPrimaryAsReplica db).Run log r) :
    TriesFirst pool db log := by
  obtain ⟨got, -, hgot⟩ := run_getPrimaryAsReplica h
  exact ⟨[], [], log, rfl, .nil, .inr ⟨got, hgot⟩⟩

theorem TriesFirst.question {e : (o : Op) × Res o} (he : e.1.isQuestion = true) (h : TriesFirst pool db log) :
    TriesFirst pool db (e :: log) := by
  obtain ⟨ids, before, after, rfl, htrying, hafter⟩ := h
  exact ⟨ids, e :: before, after, rfl, .question he htrying, hafter⟩

theorem triesFirst_hostgroup {hg : Nat} {r : Except Str (ConnId × Option Nat)}
    (h : (pool.getHostgroupForDatabase hg db).Run log r) : TriesFirst pool db log := by
  rw [PoolRef.getHostgroupForDatabase] at h
  split at h
  · exact triesFirst_primary h
  dsimp only at h
  split at h
  · obtain ⟨healthy, log, rfl, hasked⟩ := Prog.run_perform.mp h
    refine TriesFirst.question rfl ?_
    cases healthy with
    | false => exact triesFirst_primary hasked
    | true =>
      obtain ⟨got, log, rfl, hget⟩ := Prog.run_perform.mp hasked
      rcases got with err | c
      · obtain ⟨-, log, rfl, hmark⟩ := Prog.run_perform.mp hget
        obtain ⟨got, -, hgot⟩ := run_getPrimaryAsReplica hmark
        exact ⟨_, [_, _], log, rfl, .failed List.not_mem_nil .nil, .inr ⟨got, hgot⟩⟩
      · obtain ⟨rfl, -⟩ := Prog.run_done.mp hget
        exact ⟨_, [_], [], rfl, .got, .inl rfl⟩
  · exact triesFirst_primary h

end Logs

/-! ## Who is to blame -/

section Blame

variable {gen i : Nat} {db : Option Str} {ids : List Nat} {log : Log} {n m : TracedOp} {es : List TracedOp}

/-- Whoever asks for a connection asks for one. -/
theorem TracedOp.AsksFor.unique {origin origin' : Origin} (h : n.event.1 = .get origin db) (h' : n.AsksFor origin') :
    origin' = origin := by
  obtain ⟨db', h'⟩ := h'
  rw [h] at h'
  exact (Op.get.inj h').1.symm

/-- A try that failed met the limit, or the backend is sick. -/
theorem TracedOp.sick_iff {origin : Origin} {err : Str} (hfits : n.Fits) (h : n.event = ⟨.get origin db, .error err⟩) :
    n.Sick origin ↔ ¬n.Loaded := by
  obtain ⟨p, out, hgets, hanswers⟩ := hfits origin db _ h
  have hfailed : ∃ e, out = .failed e := by
    rcases out with c | db | e
    · cases hanswers
    · obtain ⟨c, hc⟩ := hanswers
      cases hc
    · exact ⟨e, rfl⟩
  have hasks : n.AsksFor origin := ⟨db, by rw [h]⟩
  obtain ⟨hcause, hapart⟩ := hgets.cause rfl rfl
  have hcause := hcause.mp hfailed
  simp only [TracedOp.Sick, TracedOp.Loaded, hasks, true_and]
  constructor
  · exact fun hopen hloaded => hapart ⟨hloaded.2, hopen⟩
  · exact fun hunloaded => hcause.resolve_left fun hlimit => hunloaded ⟨⟨origin, hasks⟩, hlimit⟩

/-- A good try met no limit. -/
theorem TracedOp.unloaded {origin : Origin} {c : ConnId} (hfits : n.Fits) (h : n.event = ⟨.get origin db, .ok c⟩) :
    ¬n.Loaded := by
  rintro ⟨-, hlimit⟩
  obtain ⟨p, out, hgets, hanswers⟩ := hfits origin db _ h
  obtain ⟨e, rfl⟩ := (hgets.cause rfl rfl).1.mpr (.inl hlimit)
  cases hanswers

/-- Only what has been tried is marked. -/
theorem Trying.marks (h : Trying gen db ids log) {e : (o : Op) × Res o} {gen' : Nat} (he : e ∈ log)
    (hmark : e.1 = .markUnhealthy gen' i) : gen' = gen ∧ i ∈ ids := by
  induction h with
  | nil => cases he
  | question hq _ ih =>
    rcases List.mem_cons.mp he with rfl | he
    · rw [hmark] at hq
      cases hq
    · exact ih he
  | failed _ _ ih =>
    rcases List.mem_cons.mp he with rfl | he
    · cases hmark
    rcases List.mem_cons.mp he with rfl | he
    · cases hmark
      exact ⟨rfl, .head _⟩
    · exact ⟨(ih he).1, .tail _ (ih he).2⟩
  | got =>
    obtain rfl := List.mem_singleton.mp he
    cases hmark

/-- What is no mark and asks for nothing has no say. -/
theorem onlySick_cons (hmark : ∀ gen i, n.event.1 ≠ .markUnhealthy gen i) (hasks : ∀ origin, ¬n.AsksFor origin) :
    OnlySick (n :: es) ↔ OnlySick es := by
  constructor
  · intro h before n' after gen i hes hn'
    obtain ⟨x, hx, hsick⟩ := h (n :: before) n' after gen i (by rw [hes, List.cons_append]) hn'
    rcases List.mem_cons.mp hx with rfl | hx
    · exact absurd hsick.1 (hasks _)
    · exact ⟨x, hx, hsick⟩
  · intro h before n' after gen i hes hn'
    rcases List.cons_eq_append_iff.mp hes with ⟨rfl, heq⟩ | ⟨before, rfl, hrest⟩
    · cases heq
      exact absurd hn' (hmark gen i)
    · obtain ⟨x, hx, hsick⟩ := h before n' after gen i hrest hn'
      exact ⟨x, .tail _ hx, hsick⟩

/-- A failed try and its mark: the try is to blame, and nothing that is marked later. -/
theorem onlySick_failed {err : Str} (hn : n.event = ⟨.get ⟨gen, .replica i⟩ db, .error err⟩)
    (hm : m.event = ⟨.markUnhealthy gen i, ()⟩) (hfresh : i ∉ ids) (h : Trying gen db ids (es.map TracedOp.event)) :
    OnlySick (n :: m :: es) ↔ n.Sick ⟨gen, .replica i⟩ ∧ OnlySick es := by
  have hmark : ∀ origin, ¬m.AsksFor origin := by
    rintro origin ⟨db, hasks⟩
    rw [hm] at hasks
    cases hasks
  constructor
  · intro hall
    constructor
    · obtain ⟨x, hx, hsick⟩ := hall [n] m es gen i rfl (by rw [hm])
      rwa [List.mem_singleton.mp hx] at hsick
    · intro before n' after gen' j hes hn'
      obtain ⟨x, hx, hsick⟩ := hall (n :: m :: before) n' after gen' j (by simp [hes]) hn'
      have hlater : n'.event ∈ es.map TracedOp.event := List.mem_map_of_mem (by simp [hes])
      obtain ⟨rfl, hj⟩ := h.marks hlater hn'
      -- what is marked later is another replica, so it is not this try that is to blame
      rcases List.mem_cons.mp hx with rfl | hx
      · have hget : x.event.1 = .get ⟨gen', .replica i⟩ db := by rw [hn]
        cases hsick.1.unique hget
        exact absurd hj hfresh
      rcases List.mem_cons.mp hx with rfl | hx
      · exact absurd hsick.1 (hmark _)
      · exact ⟨x, hx, hsick⟩
  · rintro ⟨hsick, hall⟩ before n' after gen' j hes hn'
    rcases List.cons_eq_append_iff.mp hes with ⟨rfl, heq⟩ | ⟨before, rfl, hrest⟩
    · cases heq
      rw [hn] at hn'
      cases hn'
    rcases List.cons_eq_append_iff.mp hrest with ⟨rfl, heq⟩ | ⟨before, rfl, hlast⟩
    · cases heq
      rw [hm] at hn'
      cases hn'
      exact ⟨n, .head _, hsick⟩
    · obtain ⟨x, hx, hsick'⟩ := hall before n' after gen' j hlast hn'
      exact ⟨x, .tail _ (.tail _ hx), hsick'⟩

/-- Among the tries of a call, the flags that are cleared are those of sick replicas exactly if none was at its
limit. -/
theorem Trying.onlySick_iff (h : Trying gen db ids (es.map TracedOp.event)) (hfits : ∀ n ∈ es, n.Fits) :
    OnlySick es ↔ ∀ n ∈ es, ¬n.Loaded := by
  generalize hlog : es.map TracedOp.event = log at h
  -- along the log: questions have no say, and every failed try is judged by itself
  induction h generalizing es with
  | nil =>
    rw [List.map_eq_nil_iff.mp hlog]
    exact iff_of_true (fun before n after gen i hes => by simp at hes) (List.forall_mem_nil _)
  | @question ids e log hq _ ih =>
    obtain ⟨n, es, rfl, rfl, hrest⟩ := List.map_eq_cons_iff.mp hlog
    have hasks : ∀ origin, ¬n.AsksFor origin := by
      rintro origin ⟨db, hasks⟩
      rw [hasks] at hq
      cases hq
    have hmark : ∀ gen i, n.event.1 ≠ .markUnhealthy gen i := by
      intro gen i hmark
      rw [hmark] at hq
      cases hq
    have hunloaded : ¬n.Loaded := fun hloaded => hloaded.1.elim fun origin => hasks origin
    rw [onlySick_cons hmark hasks, ih (fun x hx => hfits x (.tail _ hx)) hrest]
    simp [hunloaded]
  | @failed ids i err log hfresh htrying ih =>
    obtain ⟨n, es, rfl, hn, hrest⟩ := List.map_eq_cons_iff.mp hlog
    obtain ⟨m, es, rfl, hm, hrest⟩ := List.map_eq_cons_iff.mp hrest
    have hunloaded : ¬m.Loaded := by
      rintro ⟨⟨origin, db, hasks⟩, -⟩
      rw [hm] at hasks
      cases hasks
    rw [onlySick_failed hn hm hfresh (hrest ▸ htrying), TracedOp.sick_iff (hfits n (.head _)) hn,
      ih (fun x hx => hfits x (.tail _ (.tail _ hx))) hrest]
    simp [hunloaded]
  | @got i c =>
    obtain ⟨n, es, rfl, hn, hrest⟩ := List.map_eq_cons_iff.mp hlog
    obtain rfl := List.map_eq_nil_iff.mp hrest
    have hmark : ∀ gen i, n.event.1 ≠ .markUnhealthy gen i := by
      intro gen i hmark
      rw [hn] at hmark
      cases hmark
    refine iff_of_true (fun before n' after gen i hes hn' => ?_) ?_
    · rcases List.cons_eq_append_iff.mp hes with ⟨rfl, heq⟩ | ⟨before, rfl, hlast⟩
      · cases heq
        exact absurd hn' (hmark gen i)
      · simp at hlast
    · intro x hx
      rw [List.mem_singleton.mp hx]
      exact TracedOp.unloaded (hfits n (.head _)) hn

theorem Trying.not_atPrimary (h : Trying gen db ids log) {e : (o : Op) × Res o} (he : e ∈ log) (gen' : Nat) :
    e.1 ≠ .loadGr gen' := by
  rintro hload
  induction h with
  | nil => cases he
  | question hq _ ih =>
    rcases List.mem_cons.mp he with rfl | he
    · rw [hload] at hq
      cases hq
    · exact ih he
  | failed _ _ ih =>
    rcases List.mem_cons.mp he with rfl | he
    · cases hload
    rcases List.mem_cons.mp he with rfl | he
    · cases hload
    · exact ih he
  | got =>
    obtain rfl := List.mem_singleton.mp he
    cases hload

/-- What comes after the last mark has no say. -/
theorem onlySick_append {es' : List TracedOp} (h : ∀ n ∈ es', ∀ gen i, n.event.1 ≠ .markUnhealthy gen i) :
    OnlySick (es ++ es') ↔ OnlySick es := by
  constructor
  · intro hall before n after gen i hes hn
    exact hall before n (after ++ es') gen i (by simp [hes]) hn
  · intro hall before n after gen i hes hn
    rcases List.append_eq_append_iff.mp hes with ⟨late, rfl, hlate⟩ | ⟨late, hes, hlate⟩
    · exact absurd hn (h n (by simp [hlate]) gen i)
    rcases List.cons_eq_append_iff.mp hlate with ⟨rfl, hlast⟩ | ⟨rest, rfl, -⟩
    · exact absurd hn (h n (by simp [hlast]) gen i)
    · exact hall before n rest gen i hes hn

/-- **Load looks like sickness**: a call clears the flags of sick replicas only, exactly if none of the replicas it
tries is at its limit. -/
theorem flags_cleared_iff (pool : PoolRef) (db : Option Str) (hg : Nat) (es : List TracedOp)
    (r : Except Str (ConnId × Option Nat))
    (hrun : (pool.getReplicaForDatabase db).Run (es.map TracedOp.event) r ∨
      (pool.getHostgroupForDatabase hg db).Run (es.map TracedOp.event) r)
    (hfits : ∀ n ∈ es, n.Fits) : OnlySick es ↔ NoneLoaded es := by
  have hfirst : TriesFirst pool db (es.map TracedOp.event) := by
    rcases hrun with hrun | hrun
    · exact (run_getReplica hrun).triesFirst
    · exact triesFirst_hostgroup hrun
  obtain ⟨ids, before, after, hlog, htrying, hafter⟩ := hfirst
  obtain ⟨es, es', rfl, rfl, rfl⟩ := List.map_eq_append_iff.mp hlog
  have hnone : ∀ n ∈ es, (!n.atPrimary) = true := by
    intro n hn
    have hload := htrying.not_atPrimary (List.mem_map_of_mem hn)
    rw [TracedOp.atPrimary]
    split
    · rename_i gen heq
      exact absurd heq (hload gen)
    · rfl
  have hrest : (∀ n ∈ es', ∀ gen i, n.event.1 ≠ .markUnhealthy gen i) ∧
      (es ++ es').takeWhile (fun n => !n.atPrimary) = es := by
    rcases hafter with hnil | ⟨got, hprimary⟩
    · obtain rfl := List.map_eq_nil_iff.mp hnil
      rw [List.append_nil]
      exact ⟨List.forall_mem_nil _, List.takeWhile_eq_self_iff.mpr hnone⟩
    · obtain ⟨⟨gr, rest, hhead⟩, hmarks⟩ := hprimary.flags
      obtain ⟨n, es', rfl, hn, -⟩ := List.map_eq_cons_iff.mp hhead
      refine ⟨fun n hn => hmarks _ (List.mem_map_of_mem hn), ?_⟩
      rw [List.takeWhile_append_of_pos hnone, List.takeWhile_cons_of_neg (by simp [TracedOp.atPrimary, hn]), List.append_nil]
  rw [onlySick_append hrest.1, NoneLoaded, hrest.2]
  exact htrying.onlySick_iff fun n hn => hfits n (List.mem_append_left _ hn)

end Blame

/-! ## A crowded replica -/

/-- A replica that may lend one connection and has lent it. -/
def crowdedPool : ConnectionPool :=
  { ConnectionPool.new ⟨⟨"replica:3306".toList, none, [], some 1, 1, false⟩, 10, none, 0, 5000⟩ with borrowed := 1 }

/-- The pool is all that is found. -/
def crowdedFound : Found := ⟨crowdedPool, 0, ⟨0, false, none, none⟩⟩

/-- A read on a pool with this one replica, whose primary is refused by its breaker. -/
def crowdedRead : List TracedOp :=
  [⟨⟨.replicaHealthy 0 0, true⟩, []⟩, ⟨⟨.replicaAllows 0 0, true⟩, []⟩, ⟨⟨.nextReplica 0, 0⟩, []⟩,
    ⟨⟨.get ⟨0, .replica 0⟩ none, .error crowdedPool.limitError⟩, [(.pop [], crowdedFound), (.check [], crowdedFound)]⟩,
    ⟨⟨.markUnhealthy 0 0, ()⟩, []⟩, ⟨⟨.loadGr 0, (-1 : Int)⟩, []⟩, ⟨⟨.loadFailover 0, (-1 : Int)⟩, []⟩,
    ⟨⟨.primaryAllows 0, false⟩, []⟩]

theorem crowdedRead_run : Prog.Run (PoolRef.getReplicaForDatabase ⟨0, [(1, false)]⟩ none) (crowdedRead.map TracedOp.event)
    (.error "[CB] primary circuit breaker is open — connection refused".toList) :=
  .op (.op (.op (.op (.op (.op (.op (.op (.done _))))))))

theorem crowdedRead_fits : ∀ n ∈ crowdedRead, n.Fits := by
  have hgets : Gets (.pop (crowdedPool.dbKey none)) [(.pop [], crowdedFound), (.check [], crowdedFound)]
      (.failed crowdedPool.limitError) := .access rfl (.access rfl (.returned _))
  intro n hn origin db r hevent
  simp only [crowdedRead, List.mem_cons, List.not_mem_nil, or_false] at hn
  rcases hn with rfl | rfl | rfl | rfl | rfl | rfl | rfl | rfl <;> cases hevent
  exact ⟨crowdedPool, _, hgets, rfl⟩

theorem flags_cleared_crowded : OnlySick crowdedRead ↔ NoneLoaded crowdedRead :=
  flags_cleared_iff _ _ 0 _ _ (.inl crowdedRead_run) crowdedRead_fits

/-- A replica that is merely busy loses its flag. -/
theorem busy_replica_marked : ¬∀ (pool : PoolRef) (db : Option Str) (hg : Nat) (es : List TracedOp)
    (r : Except Str (ConnId × Option Nat)),
    (pool.getReplicaForDatabase db).Run (es.map TracedOp.event) r ∨
      (pool.getHostgroupForDatabase hg db).Run (es.map TracedOp.event) r →
    (∀ n ∈ es, n.Fits) → OnlySick es := by
  intro h
  have honly := h _ _ 0 _ _ (.inl crowdedRead_run) crowdedRead_fits
  obtain ⟨n, hn, -, x, hx, hopen⟩ := honly (crowdedRead.take 4) _ (crowdedRead.drop 5) 0 0 rfl rfl
  simp only [crowdedRead, List.take_succ_cons, List.take_zero, List.mem_cons, List.not_mem_nil, or_false] at hn
  rcases hn with rfl | rfl | rfl | rfl
  · cases hx
  · cases hx
  · cases hx
  · simp only [List.mem_cons, List.not_mem_nil, or_false] at hx
    rcases hx with rfl | rfl <;> exact hopen

end TurbineProxy
