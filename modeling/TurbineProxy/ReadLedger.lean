import TurbineProxy.Custody
import TurbineProxy.MysqlWire

/-!
# Where the reads of a session go

What a session may read depends on what it wrote before. The `Ledger` of a session records what it takes
to say so: how every connection it has out was drawn, when the window of its last write ends, whether a
query rule has placed the query, and which replica has confirmed a GTID.

`reading` is the contract of a session with a window and with a GTID to wait for (`Duty`): as long as the
window is open, or until a replica has confirmed the GTID, what it sends for its client goes to a connection
that was drawn as the primary. Checkouts and returns keep it; `ReadRoutes.lean` and `ReadSessions.lean` go
on from there.
-/

namespace TurbineProxy

/-! ## The ledger -/

/-- How a session got a connection. -/
structure Drawn where
  /-- from which pool -/
  origin : Origin
  /-- it was asked for as the primary -/
  primary : Bool
  deriving DecidableEq

/-- What there is to know about the reads and writes of a session. -/
structure Ledger where
  /-- the connections that are out -/
  drawn : ConnId → Option Drawn
  /-- when the session looked at the clock last -/
  seen : Nat
  /-- when the window of its last write ends -/
  limit : Nat
  /-- the text handed to the rewrite rules, on the route that is being taken -/
  asked : Option Str
  /-- a query rule has placed the query -/
  ruled : Bool
  /-- the last GTID check, if the server said that it has the GTID: where, and the text of the check -/
  vouched : Option (Origin × Bytes)

/-- A rule that names a replica or another hostgroup than that of the primary, or that lets the answers of
that one be cached. -/
def RuleMatch.places (r : RuleMatch) : Bool :=
  match r.destination with
  | .replica => true
  | .hostgroup hg => hg != 0 || decide (0 < r.cacheTtlSecs)
  | .any | .primary => false

/-- The first row of a result set with one column: what follows the number of columns, the definition of the
column and the EOF. -/
def firstRow (bytes : Bytes) : Option Bytes := do
  let (_, _, rest) ← readRaw bytes
  let (_, _, rest) ← readRaw rest
  let (_, _, rest) ← readRaw rest
  let (_, payload, _) ← readRaw rest
  some payload

/-- The server says yes: the only column of the row is the text `1`. -/
def Response.affirms (r : Response) : Bool := !r.isError && firstRow r.bytes == some [0x01, 0x31]

/-- `check_replica_has_gtid` takes the response for a yes. -/
def Response.counts (r : Response) : Bool := !r.isError && r.bytes.contains 0x31

namespace Ledger

variable (ℓ : Ledger)

/-- A Write of the client: a query, and what goes out on loan has been handed to the rewrite rules as a
Write. -/
def opens (via : Via) (p : Packet) : Bool :=
  match via, p with
  | .loan, .text _ => ℓ.asked.elim false (classify · == .write)
  | _, .text sql => classify (textOf sql) == .write
  | _, _ => false

/-- A connection is checked out. -/
def hold (c : ConnId) (d : Drawn) : Ledger := { ℓ with drawn := Function.update ℓ.drawn c (some d) }

/-- A connection is returned or dropped. -/
def free (c : ConnId) : Ledger := { ℓ with drawn := Function.update ℓ.drawn c none }

/-- A command of the client has been answered at time `t`; windows are of length `w`. -/
def answered (w t : Nat) (via : Via) (p : Packet) (r : Response) : Ledger :=
  if ℓ.opens via p && !r.isError then { ℓ with limit := t + w } else ℓ

/-- A replica has been asked for a GTID. -/
def probed (c : ConnId) (p : Packet) (r : Except TalkError Response) : Ledger :=
  { ℓ with vouched :=
      match p, r with
      | .text sql, .ok response =>
        if response.affirms then (ℓ.drawn c).map fun d => (d.origin, sql) else none
      | _, _ => none }

/-- The ledger after an operation at time `t`. `named` is the pool the role atomics have just named. -/
def after (named : Option Origin) (w t : Nat) : (o : Op) → Res o → Ledger
  | .now, now => { ℓ with seen := now }
  | .readPool, _ => { ℓ with asked := none, ruled := false }
  | .rewrite sql, _ => { ℓ with asked := some sql }
  | .matchQuery .., m => { ℓ with ruled := m.elim false RuleMatch.places }
  | .get o _, .ok c => ℓ.hold c ⟨o, o.slot == .primary || named == some o⟩
  | .put _ c _, _ | .drop _ c, _ => ℓ.free c
  | .talk .client via _ p _, .ok response => ℓ.answered w t via p response
  | .talk .probe _ c p _, r => ℓ.probed c p r
  | _, _ => ℓ

theorem free_hold {c : ConnId} (h : ℓ.drawn c = none) (d : Drawn) : (ℓ.hold c d).free c = ℓ := by
  simp only [free, hold, Function.update_idem, ← h, Function.update_eq_self]

end Ledger

/-- The pool an operation on the role atomics names. -/
def namedBy : (o : Op) → Res o → Option Origin
  | .loadGr gen, idx | .loadFailover gen, idx =>
    if 0 ≤ (idx : Int) then some ⟨gen, .replica idx.toNat⟩ else none
  | _, _ => none

/-- The record of a session. -/
structure Record where
  /-- the pool the role atomics have just named -/
  named : Option Origin
  /-- the ledger -/
  ledger : Ledger

/-- The record after an operation at time `t`. -/
def Record.after (rec : Record) (w t : Nat) (o : Op) (r : Res o) : Record :=
  ⟨namedBy o r, rec.ledger.after rec.named w t o r⟩

/-! ## The contract -/

/-- What a session has to see to. -/
structure Duty where
  /-- the length of its windows, in milliseconds -/
  window : Nat
  /-- everything goes to the primary -/
  fast : Bool
  /-- the GTID its reads wait for -/
  gtid : Option Str

namespace Duty

variable (D : Duty) (ℓ : Ledger)

/-- The windows matter: no query is fast-forwarded, and a Write opens a window. -/
def Timed : Prop := D.fast = false ∧ 0 < D.window

/-- Replicas are out of bounds: the window of the last write is open, as far as the session can tell. -/
def Open : Prop := D.fast = true ∨ D.Timed ∧ ℓ.seen < ℓ.limit

/-- A replica may be read: the window is not open, and a GTID has been confirmed there. -/
def Granted (o : Origin) : Prop :=
  ¬D.Open ℓ ∧ ∀ gtid, D.gtid = some gtid → ℓ.vouched = some (o, toUtf8 (gtidProbe gtid))

/-- What the session has to see to before an operation. -/
def owes : Op → Prop
  | .talk .client via c _ _ =>
    via = .stickyConn ∨ ℓ.ruled = true ∨
      ∃ d, ℓ.drawn c = some d ∧ (d.primary = true ∨ D.Granted ℓ d.origin)
  | .cacheGet _ => D.Open ℓ → ℓ.ruled = true
  | _ => True

/-- What a session takes on trust when it has a GTID to wait for: that what it takes for a yes is one, and
that after it the `BackendPool` has no other replica than the one that said it. -/
def trusts : (o : Op) → Res o → Bool
  | .readPool, pool => D.gtid.all fun gtid => ℓ.vouched.all fun v => v.2 != toUtf8 (gtidProbe gtid) ||
      (List.range pool.replicas.length).all fun i => pool.origin (.replica i) == v.1
  | .talk .probe .., .ok response => D.gtid.isNone || !response.counts || response.affirms
  | _, _ => true

/-- What may be assumed of an answer. -/
def expects : (o : Op) → Res o → Prop
  | .now, now => ℓ.seen ≤ now ∧ ℓ.limit ≤ now + D.window
  | .get _ _, .ok c => ℓ.drawn c = none
  | _, _ => True

end Duty

/-- The contract of a session. -/
def reading (D : Duty) : Protocol Op Res Record where
  owes rec o := D.owes rec.ledger o
  step rec o r rec' := D.expects rec.ledger o r ∧ D.trusts rec.ledger o r = true ∧
    ∃ t, rec' = rec.after D.window t o r

/-- From this ledger, a program keeps the contract and ends in `Q`, whatever the role atomics named last. -/
def Minds (D : Duty) {α : Type} (p : Task α) (Q : α → Ledger → Prop) (ℓ : Ledger) : Prop :=
  ∀ named, p.wp (reading D) (fun a rec => Q a rec.ledger) ⟨named, ℓ⟩

section Minds

variable {D : Duty} {α β : Type} {ℓ : Ledger} {p : Task α} {Q R : α → Ledger → Prop}

theorem minds_done {a : α} (h : Q a ℓ) : Minds D (.done a) Q ℓ := fun _ => h

theorem Minds.mono (hp : Minds D p R ℓ) (h : ∀ a ℓ', R a ℓ' → Q a ℓ') : Minds D p Q ℓ :=
  fun named => Prog.wp_mono (hp named) fun a rec => h a rec.ledger

theorem Minds.bind {f : α → Task β} {Q : β → Ledger → Prop} (hp : Minds D p R ℓ)
    (hf : ∀ a ℓ', R a ℓ' → Minds D (f a) Q ℓ') : Minds D (p >>= f) Q ℓ := by
  intro named
  rw [Prog.wp_bind]
  exact Prog.wp_mono (hp named) fun a rec h => hf a rec.ledger h rec.named

/-- One way to end, whatever the result. -/
theorem Minds.next {ℓ₁ : Ledger} {f : α → Task β} {Q : β → Ledger → Prop}
    (hp : Minds D p (fun _ ℓ' => ℓ' = ℓ₁) ℓ) (hf : ∀ a, Minds D (f a) Q ℓ₁) : Minds D (p >>= f) Q ℓ :=
  hp.bind fun a _ h => h ▸ hf a

theorem minds_ite {c : Prop} [Decidable c] {p' : Task α} (hp : c → Minds D p Q ℓ) (hp' : ¬c → Minds D p' Q ℓ) :
    Minds D (if c then p else p') Q ℓ :=
  fun named => Prog.wp_ite (fun h => hp h named) fun h => hp' h named

theorem minds_act {o : Op} {Q : Res o → Ledger → Prop} (howes : D.owes ℓ o)
    (h : ∀ named t r, D.trusts ℓ o r = true → D.expects ℓ o r → Q r (ℓ.after named D.window t o r)) :
    Minds D (act o) Q ℓ := by
  intro named
  refine ⟨howes, fun r rec' hstep => ?_⟩
  obtain ⟨hexpects, htrusts, t, rfl⟩ := hstep
  exact h named t r htrusts hexpects

/-- Operations that are not in the ledger. -/
def Op.unwritten : Op → Bool
  | .now | .readPool | .rewrite _ | .matchQuery .. | .get .. | .put .. | .drop .. | .cacheGet _ => false
  | .talk who .. => who != .client && who != .probe
  | _ => true

/-- Nothing is owed for them, and nothing changes. -/
theorem unwritten {o : Op} (ho : o.unwritten = true) :
    D.owes ℓ o ∧ ∀ named t r, ℓ.after named D.window t o r = ℓ := by
  cases o with
  | talk who via c p limit => cases who <;> first | exact ⟨trivial, fun _ _ _ => rfl⟩ | cases ho
  | _ => first | exact ⟨trivial, fun _ _ _ => rfl⟩ | cases ho

theorem minds_unwritten {o : Op} (ho : o.unwritten = true) : Minds D (act o) (fun _ ℓ' => ℓ' = ℓ) ℓ :=
  minds_act (unwritten ho).1 fun named t r _ _ => (unwritten ho).2 named t r

theorem does_act {o : Op} (ho : o.unwritten = true) :
    (act o).Does (fun o => o.unwritten = true) fun _ => True := ⟨ho, fun _ => trivial⟩

/-- A program whose operations are not in the ledger. -/
theorem minds_does {R : α → Prop} (hp : p.Does (fun o => o.unwritten = true) R) :
    Minds D p (fun a ℓ' => R a ∧ ℓ' = ℓ) ℓ := by
  induction p with
  | done a => exact minds_done ⟨hp, rfl⟩
  | op o k ih =>
    intro named
    obtain ⟨howes, hsame⟩ : D.owes ℓ o ∧ ∀ named t r, ℓ.after named D.window t o r = ℓ := unwritten hp.1
    refine ⟨howes, fun r rec' hstep => ?_⟩
    obtain ⟨-, -, t, rfl⟩ := hstep
    rw [Record.after, hsame]
    exact ih r (hp.2 r) (namedBy o r)

end Minds

/-! ## Checkouts and returns -/

section Pool

variable {D : Duty} {ℓ : Ledger} {pool : PoolRef} {db : Option Str} {c : ConnId}

/-- A checkout: a connection that was not out, drawn in such a way, or nothing. -/
def Drew (P : Drawn → Prop) (ℓ : Ledger) (r : Except Str ConnId) (ℓ' : Ledger) : Prop :=
  match r with
  | .ok c => ℓ.drawn c = none ∧ ∃ d, P d ∧ ℓ' = ℓ.hold c d
  | .error _ => ℓ' = ℓ

theorem Drew.mono {P P' : Drawn → Prop} {r : Except Str ConnId} {ℓ' : Ledger} (h : Drew P ℓ r ℓ')
    (himp : ∀ d, P d → P' d) : Drew P' ℓ r ℓ' := by
  rcases r with e | c
  · exact h
  · obtain ⟨hnone, d, hd, rfl⟩ := h
    exact ⟨hnone, d, himp d hd, rfl⟩

theorem minds_get {o : Origin} : Minds D (act (.get o db)) (Drew (·.origin = o) ℓ) ℓ := by
  refine minds_act trivial fun named t r _ hfresh => ?_
  rcases r with e | c
  · exact rfl
  · exact ⟨hfresh, _, rfl, rfl⟩

/-- The pool of the primary is the configured one, or the one the role atomics have just named. -/
theorem wp_get_primary {o : Origin} {named : Option Origin} (h : o.slot = .primary ∨ named = some o) :
    (act (.get o db)).wp (reading D) (fun r rec => Drew (·.primary = true) ℓ r rec.ledger) ⟨named, ℓ⟩ := by
  refine ⟨trivial, fun r rec' hstep => ?_⟩
  obtain ⟨hfresh, -, t, rfl⟩ := hstep
  rcases r with e | c
  · exact rfl
  · refine ⟨hfresh, _, ?_, rfl⟩
    rcases h with h | h <;> simp [h]

theorem named_replicaAt {idx : Int} {slot : Slot} (h : pool.replicaAt idx = some slot) :
    namedBy (.loadGr pool.gen) idx = some (pool.origin slot) ∧
      namedBy (.loadFailover pool.gen) idx = some (pool.origin slot) := by
  obtain ⟨⟨hidx, -⟩, hslot⟩ := Option.ite_none_right_eq_some.mp h
  obtain rfl := Option.some.inj hslot
  exact ⟨if_pos hidx, if_pos hidx⟩

theorem minds_getPrimary : Minds D (pool.getPrimaryForDatabase db) (Drew (·.primary = true) ℓ) ℓ := by
  intro named
  rw [PoolRef.getPrimaryForDatabase]
  rw [Prog.wp_bind]
  -- a pool that the role atomics name is asked for right after they have named it
  refine ⟨trivial, fun gr rec' hstep => ?_⟩
  obtain ⟨-, -, t, rfl⟩ := hstep
  rw [Prog.wp_done]
  split
  · rename_i slot hslot
    exact wp_get_primary (.inr (named_replicaAt hslot).1)
  rw [Prog.wp_bind]
  refine ⟨trivial, fun failover rec' hstep => ?_⟩
  obtain ⟨-, -, t, rfl⟩ := hstep
  rw [Prog.wp_done]
  split
  · rename_i slot hslot
    exact wp_get_primary (.inr (named_replicaAt hslot).2)
  rw [Prog.wp_bind]
  refine ⟨trivial, fun allowed rec' hstep => ?_⟩
  obtain ⟨-, -, t, rfl⟩ := hstep
  exact Prog.wp_ite (fun _ => wp_get_primary (.inl rfl)) fun _ => rfl

/-- A connection for a read: of a replica, or of the primary in its place. -/
def DrewRead (pool : PoolRef) : Ledger → Except Str ConnId → Ledger → Prop :=
  Drew fun d => d.primary = true ∨ ∃ i < pool.replicas.length, d.origin = pool.origin (.replica i)

theorem minds_getPrimaryAsReplica :
    Minds D (pool.getPrimaryAsReplica db) (fun r ℓ' => Drew (·.primary = true) ℓ (r.map Prod.fst) ℓ') ℓ := by
  rw [PoolRef.getPrimaryAsReplica]
  refine minds_getPrimary.bind fun r ℓ' h => ?_
  rcases r with e | c
  · exact minds_done h
  · exact minds_done h

/-- A connection of one of the replicas, or nothing. -/
def DrewReplica (pool : PoolRef) (ℓ : Ledger) (r : Option (ConnId × Nat)) (ℓ' : Ledger) : Prop :=
  match r with
  | some (c, _) => DrewRead pool ℓ (.ok c) ℓ'
  | none => ℓ' = ℓ

theorem minds_getAt {α : Type} {i : Nat} (hi : i < pool.replicas.length) {f : Except Str ConnId → Task α}
    {Q : α → Ledger → Prop} (hok : ∀ c ℓ', DrewRead pool ℓ (.ok c) ℓ' → Minds D (f (.ok c)) Q ℓ')
    (herr : ∀ e, Minds D (f (.error e)) Q ℓ) :
    Minds D (act (.get (pool.origin (.replica i)) db) >>= f) Q ℓ := by
  refine minds_get.bind fun r ℓ' h => ?_
  rcases r with e | c
  · rw [(h : ℓ' = ℓ)]
    exact herr e
  · exact hok c ℓ' (h.mono fun d hd => .inr ⟨i, hi, hd⟩)

theorem minds_tryRemaining {chosen : Nat} {l : List (Nat × Nat)} (hl : ∀ e ∈ l, e.1 < pool.replicas.length) :
    Minds D (pool.tryRemaining chosen db l) (DrewReplica pool ℓ) ℓ := by
  induction l with
  | nil => exact minds_done rfl
  | cons e rest ih =>
    have hrest := ih fun e' he' => hl e' (.tail _ he')
    rw [PoolRef.tryRemaining]
    refine minds_ite (fun _ => hrest) fun _ => ?_
    refine minds_getAt (hl e (.head _)) (fun c ℓ' h => minds_done h) fun err => ?_
    refine (minds_unwritten rfl).next fun _ => ?_
    exact hrest

/-- The candidates are among the replicas that were asked about. -/
theorem candidates_does (backup : Bool) (l : List ((Nat × Bool) × Nat)) :
    (pool.candidates backup l).Does (fun o => o.unwritten = true)
      fun cands => ∀ e ∈ cands, e.1 ∈ l.map Prod.snd := by
  induction l with
  | nil => exact Prog.does_done nofun
  | cons e rest ih =>
    have hrest : (pool.candidates backup rest).Does (fun o => o.unwritten = true)
        fun cands => ∀ e' ∈ cands, e'.1 ∈ (e :: rest).map Prod.snd :=
      ih.mono (fun _ ho => ho) fun cands h e' he' => .tail _ (h e' he')
    rw [PoolRef.candidates]
    refine Prog.does_ite (fun _ => Prog.does_bind (does_act rfl) fun healthy _ => ?_) fun _ => hrest
    refine Prog.does_ite (fun _ => Prog.does_bind (does_act rfl) fun allowed _ => ?_) fun _ => hrest
    refine Prog.does_bind hrest fun others hothers => Prog.does_ite (fun _ => Prog.does_done ?_) fun _ => hothers
    intro e' he'
    rcases List.mem_cons.mp he' with rfl | he'
    · exact .head _
    · exact hothers e' he'

theorem unwritten_of_chooses (o : Op) (ho : Chooses o) : o.unwritten = true := by
  cases o <;> first | rfl | cases ho

theorem minds_tryWeighted {backup : Bool} :
    Minds D (pool.tryWeightedReplica backup db) (DrewReplica pool ℓ) ℓ := by
  rw [PoolRef.tryWeightedReplica]
  refine (minds_does (candidates_does backup _)).bind ?_
  rintro cands _ ⟨hcands, rfl⟩
  have hl : ∀ e ∈ cands, e.1 < pool.replicas.length := by
    intro e he
    have hmem := hcands e he
    rw [List.zipIdx_map_snd, List.mem_range'_1] at hmem
    simpa using hmem
  split
  · exact minds_done rfl
  · rename_i first w rest
    refine (minds_does ((PoolRef.choose_does first _).mono unwritten_of_chooses fun _ h => h)).bind ?_
    rintro choice _ ⟨hchoice, rfl⟩
    rcases choice with _ | chosen
    · exact minds_done rfl
    have hchosen : chosen < pool.replicas.length := by
      rcases hchoice chosen rfl with rfl | hmem
      · exact hl _ (.head _)
      · obtain ⟨e, he, rfl⟩ := List.mem_map.mp hmem
        exact hl e he
    refine minds_getAt hchosen (fun c ℓ' h => minds_done h) fun err => ?_
    refine (minds_unwritten rfl).next fun _ => ?_
    exact minds_tryRemaining hl

theorem minds_getReplica :
    Minds D (pool.getReplicaForDatabase db) (fun r ℓ' => DrewRead pool ℓ (r.map Prod.fst) ℓ') ℓ := by
  have hprimary : Minds D (pool.getPrimaryAsReplica db) (fun r ℓ' => DrewRead pool ℓ (r.map Prod.fst) ℓ') ℓ :=
    minds_getPrimaryAsReplica.mono fun r ℓ' h => h.mono fun d hd => .inl hd
  rw [PoolRef.getReplicaForDatabase]
  refine minds_ite (fun _ => hprimary) fun _ => ?_
  refine minds_tryWeighted.bind fun r ℓ' h => ?_
  rcases r with _ | ⟨c, i⟩
  · rw [(h : ℓ' = ℓ)]
    refine minds_tryWeighted.bind fun r ℓ' h => ?_
    rcases r with _ | ⟨c, i⟩
    · rw [(h : ℓ' = ℓ)]
      exact hprimary
    · exact minds_done h
  · exact minds_done h

theorem minds_getHostgroup {hg : Nat} :
    Minds D (pool.getHostgroupForDatabase hg db) (fun r ℓ' => DrewRead pool ℓ (r.map Prod.fst) ℓ') ℓ := by
  have hprimary : Minds D (pool.getPrimaryAsReplica db) (fun r ℓ' => DrewRead pool ℓ (r.map Prod.fst) ℓ') ℓ :=
    minds_getPrimaryAsReplica.mono fun r ℓ' h => h.mono fun d hd => .inl hd
  rw [PoolRef.getHostgroupForDatabase]
  refine minds_ite (fun _ => hprimary) fun _ => ?_
  dsimp only
  by_cases hi : hg - 1 < pool.replicas.length
  · rw [if_pos hi]
    refine (minds_unwritten rfl).next fun healthy => ?_
    refine minds_ite (fun _ => ?_) fun _ => hprimary
    refine minds_getAt hi (fun c ℓ' h => minds_done h) fun err => ?_
    refine (minds_unwritten rfl).next fun _ => ?_
    exact hprimary
  · rw [if_neg hi]
    exact hprimary

/-! ### Returns -/

theorem minds_put {o : Origin} : Minds D (act (.put o c db)) (fun _ ℓ' => ℓ' = ℓ.free c) ℓ :=
  minds_act trivial fun _ _ _ _ _ => rfl

theorem minds_drop {exit : Exit} : Minds D (act (.drop exit c)) (fun _ ℓ' => ℓ' = ℓ.free c) ℓ :=
  minds_act trivial fun _ _ _ _ _ => rfl

theorem minds_putPrimary : Minds D (pool.putPrimaryForDatabase c db) (fun _ ℓ' => ℓ' = ℓ.free c) ℓ := by
  rw [PoolRef.putPrimaryForDatabase]
  refine (minds_unwritten rfl).next fun failover => ?_
  split
  · exact minds_put
  · exact minds_put

theorem minds_putReplica {idx : Option Nat} :
    Minds D (pool.putReplicaForDatabase c idx db) (fun _ ℓ' => ℓ' = ℓ.free c) ℓ := by
  rcases idx with _ | i
  · exact minds_drop
  · exact minds_ite (fun _ => minds_put) fun _ => minds_drop

theorem minds_giveBack {idx : Option Nat} :
    Minds D (pool.giveBack c idx db) (fun _ ℓ' => ℓ' = ℓ.free c) ℓ := by
  unfold PoolRef.giveBack
  split
  · exact minds_putPrimary
  · exact minds_putReplica

theorem minds_recordReplica {idx : Option Nat} {success : Bool} :
    Minds D (pool.recordReplica idx success) (fun _ ℓ' => ℓ' = ℓ) ℓ := by
  rcases idx with _ | i
  · exact minds_done rfl
  · exact minds_ite (fun _ => minds_unwritten rfl) fun _ => minds_done rfl

end Pool

end TurbineProxy
