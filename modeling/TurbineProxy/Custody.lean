import Mathlib.Data.List.Flatten
import Mathlib.Data.List.Perm.Subperm
import TurbineProxy.Ownership

/-!
# Where every connection is

The world's side of the contract. `World.Coherent` ties the idle buckets to the connections: every id
in a bucket is that of a connection which is idle in that very pool, and no id is in two places. From
it, an operation of one session touches no connection of another, and the answers of the world are
those the contract allows (`World.handle_step`).
-/

namespace TurbineProxy

/-! ## The idle connections of a pool -/

namespace ConnectionPool

/-- The ids in a list of buckets. -/
def idsOf (buckets : List (Str × List PooledConn)) : List ConnId :=
  buckets.flatMap fun e => e.2.map (·.conn)

/-- The ids of the idle connections. -/
def idleIds (p : ConnectionPool) : List ConnId := idsOf p.buckets

variable {p : ConnectionPool}

theorem nodup_of_subperm {l l' : List ConnId} (h : List.Subperm l l') (hn : l'.Nodup) : l.Nodup := by
  obtain ⟨m, hperm, hsub⟩ := h
  exact hperm.nodup_iff.mp (hn.sublist hsub)

/-- One bucket and the others are part of the whole. -/
theorem subperm_idsOf (buckets : List (Str × List PooledConn)) (key : Str) :
    List.Subperm (((buckets.lookup key).getD []).map (·.conn) ++
      idsOf (buckets.filter fun e => !(e.1 == key))) (idsOf buckets) := by
  induction buckets with
  | nil => exact List.Subperm.refl []
  | cons e rest ih =>
    obtain ⟨k, b⟩ := e
    by_cases hk : key = k
    · subst hk
      have hsub : List.Sublist (idsOf (rest.filter fun e => !(e.1 == key))) (idsOf rest) :=
        List.Sublist.flatMap List.filter_sublist _
      simpa [idsOf] using (List.subperm_append_left (b.map (·.conn))).mpr hsub.subperm
    · have hne : (key == k) = false := by simpa using hk
      have hne' : (k == key) = false := by simpa using Ne.symm hk
      have hmove := (List.perm_append_comm_assoc (((rest.lookup key).getD []).map (·.conn))
        (b.map (·.conn)) (idsOf (rest.filter fun e => !(e.1 == key)))).subperm.trans
        ((List.subperm_append_left _).mpr ih)
      simpa [idsOf, List.lookup_cons, hne, hne', List.filter_cons] using hmove

theorem popLoop_ids (p : ConnectionPool) (now : Nat) (b : List PooledConn) :
    (p.popLoop now b).1 ++ (p.popLoop now b).2.1.toList ++ (p.popLoop now b).2.2.map (·.conn) =
      b.map (·.conn) := by
  induction b with
  | nil => rfl
  | cons e rest ih =>
    rw [popLoop]
    split
    · simpa using ih
    · simp

/-- The pop loop moves ids out of the pool, and moves none twice. -/
theorem popIdle_ids (p : ConnectionPool) (key : Str) (now : Nat) :
    List.Subperm ((p.popIdle key now).2.1 ++ (p.popIdle key now).2.2.toList ++
      (p.popIdle key now).1.idleIds) p.idleIds := by
  have h := subperm_idsOf p.buckets key
  have hids := p.popLoop_ids now (p.bucket key)
  rw [bucket] at hids
  rw [← hids] at h
  simpa [popIdle, idleIds, setBucket, idsOf, bucket] using h

/-- What a checkout took out of a bucket. -/
def Checkout.taken : Checkout → List ConnId
  | .reused c => [c]
  | _ => []

/-- Whether a checkout gave a connection. -/
def Checkout.given : Checkout → Bool
  | .failed _ => false
  | _ => true

theorem openNew_frame (p : ConnectionPool) (key : Str) (inp : GetInput) :
    (p.openNew key inp).1.idleIds = p.idleIds ∧ (p.openNew key inp).2.taken = [] ∧
      (p.openNew key inp).1.borrowed = p.borrowed + (p.openNew key inp).2.given.toNat := by
  rw [openNew]
  split
  · exact ⟨rfl, rfl, rfl⟩
  · split
    · exact ⟨rfl, rfl, rfl⟩
    · exact ⟨rfl, rfl, rfl⟩

/-- A checkout as a whole: which ids leave the buckets, and what happens to `borrowed`. -/
theorem getForDatabase_frame {db : Option Str} {inp : GetInput} {p' : ConnectionPool}
    {evicted : List ConnId} {out : Checkout}
    (h : p.getForDatabase db inp = some (p', evicted, out)) :
    List.Subperm (evicted ++ out.taken ++ p'.idleIds) p.idleIds ∧
      p'.borrowed = p.borrowed + out.given.toNat := by
  have hids := p.popIdle_ids (p.dbKey db) inp.now
  have hborrowed := p.popIdle_borrowed (p.dbKey db) inp.now
  rw [getForDatabase] at h
  rcases hpop : p.popIdle (p.dbKey db) inp.now with ⟨q, ev, popped⟩
  simp only [hpop] at h hids hborrowed
  rcases popped with _ | c
  · -- a new connection is opened from a state of the pool with the same buckets
    have hnew : ∀ q' : ConnectionPool, q'.idleIds = q.idleIds → q'.borrowed = q.borrowed →
        (q'.openNew (p.dbKey db) inp).1 = p' → ev = evicted →
        (q'.openNew (p.dbKey db) inp).2 = out →
        List.Subperm (evicted ++ out.taken ++ p'.idleIds) p.idleIds ∧
          p'.borrowed = p.borrowed + out.given.toNat := by
      rintro q' hq hb rfl rfl rfl
      obtain ⟨h₁, h₂, h₃⟩ := openNew_frame q' (p.dbKey db) inp
      rw [h₁, h₂, h₃, hq, hb, hborrowed]
      exact ⟨by simpa using hids, rfl⟩
    have hfail : ∀ q' : ConnectionPool, q'.idleIds = q.idleIds → q'.borrowed = q.borrowed →
        ∀ e, q' = p' → ev = evicted → Checkout.failed e = out →
        List.Subperm (evicted ++ out.taken ++ p'.idleIds) p.idleIds ∧
          p'.borrowed = p.borrowed + out.given.toNat := by
      rintro q' hq hb e rfl rfl rfl
      rw [hq, hb, hborrowed]
      exact ⟨by simpa [Checkout.taken] using hids, rfl⟩
    by_cases hcap : q.atCap = true
    · by_cases hqueue : q.hasQueue = true
      · by_cases hgrant : inp.granted = true
        · simp only [hcap, hqueue, hgrant, if_true, Option.map_eq_some_iff, Prod.mk.injEq] at h
          obtain ⟨q₁, hacq, h₁, h₂, h₃⟩ := h
          have hsame : q₁.idleIds = q.idleIds ∧ q₁.borrowed = q.borrowed := by
            simp only [acquire, Option.ite_none_left_eq_some, Option.some.injEq] at hacq
            obtain ⟨-, rfl⟩ := hacq
            exact ⟨rfl, rfl⟩
          exact hnew q₁.leaveQueue hsame.1 hsame.2 h₁ h₂ h₃
        · simp only [hcap, hqueue, hgrant, if_true, if_false, Bool.false_eq_true, Option.some.injEq,
            Prod.mk.injEq] at h
          exact hfail q.enterQueue.leaveQueue.countTimeout rfl rfl _ h.1 h.2.1 h.2.2
      · simp only [hcap, hqueue, if_true, if_false, Bool.false_eq_true, Option.some.injEq,
          Prod.mk.injEq] at h
        exact hfail q rfl rfl _ h.1 h.2.1 h.2.2
    · simp only [hcap, if_false, Bool.false_eq_true, Option.some.injEq, Prod.mk.injEq] at h
      exact hnew q rfl rfl h.1 h.2.1 h.2.2
  · obtain ⟨rfl, rfl, rfl⟩ : q.countReuse = p' ∧ ev = evicted ∧ Checkout.reused c = out := by
      simpa using h
    refine ⟨hids, ?_⟩
    rw [← hborrowed]
    rfl

/-- A return as a whole: the connection goes into a bucket if it is kept. -/
theorem putForDatabase_ids (p : ConnectionPool) (c : ConnId) (tx healthy : Bool) (db : Option Str)
    (now : Nat) :
    List.Subperm (p.putForDatabase c tx healthy db now).1.idleIds
      (if (p.putForDatabase c tx healthy db now).2 then c :: p.idleIds else p.idleIds) := by
  have hsame : p.release.signal.idleIds = p.idleIds := by simp [idleIds, release]
  unfold putForDatabase store
  dsimp only
  split
  · rw [hsame]
    exact List.Subperm.refl _
  · split
    · have h := (List.subperm_cons c).mpr
        (subperm_idsOf p.release.signal.buckets (p.release.signal.dbKey db))
      rw [← hsame]
      simpa [idleIds, setBucket, idsOf, bucket] using h
    · rw [hsame]
      exact List.Subperm.refl _

end ConnectionPool

/-! ## The world -/

variable {srv : Server}

/-- A connection that is checked out of pool `o`. -/
def Conn.outOf (conn : Conn srv) (o : Origin) : Bool :=
  match conn.place with
  | .held _ => conn.lender == o
  | _ => false

namespace Conn

@[simp] theorem open_frame (o : Origin) (i : Nat) (initConnect : List Bytes) (choice : Nat) :
    (Conn.open srv o i initConnect choice).place = .held i ∧
      (Conn.open srv o i initConnect choice).lender = o ∧
      (Conn.open srv o i initConnect choice).opened = o := by
  rw [Conn.open]
  generalize hc : (⟨o, o, .held i, srv.fresh, false, true, none⟩ : Conn srv) = c
  have h : c.place = .held i ∧ c.lender = o ∧ c.opened = o := by
    subst hc
    exact ⟨rfl, rfl, rfl⟩
  clear hc
  induction initConnect generalizing c with
  | nil => exact h
  | cons sql rest ih =>
    obtain ⟨hplace, hlender, hopened⟩ := c.talk_frame i (.text sql) ⟨none, choice⟩
    refine ih _ ⟨?_, ?_, ?_⟩
    · exact hplace.trans h.1
    · exact hlender.trans h.2.1
    · exact hopened.trans h.2.2

end Conn

namespace World

variable {w w' : World srv} {i : Nat}

/-- The role atomics and the pools that are installed. -/
def roles (w : World srv) : List PoolRef × Nat × (Nat → Int) × (Nat → Int) :=
  (w.refs, w.current, w.gr, w.failover)

/-- The buckets and the connections agree. -/
structure Coherent (w : World srv) : Prop where
  /-- what is in a bucket is idle there -/
  idle : ∀ o c, c ∈ (w.pools o).idleIds →
    ∃ conn, w.conns[c]? = some conn ∧ conn.place = .idle o
  /-- no connection is in a bucket twice -/
  nodup : ∀ o, (w.pools o).idleIds.Nodup

/-- The connections that are checked out of pool `o`. -/
def heldOf (w : World srv) (o : Origin) : Nat := w.conns.countP (·.outOf o)

/-- The connection a checkout hands out under an id: an idle one, or a new one. -/
def lent (w : World srv) (i : Nat) (o : Origin) (d : GetDecision) (c : ConnId) : Conn srv :=
  match w.conns[c]? with
  | some conn => { conn with place := .held i, lender := o }
  | none => .open srv o i (w.pools o).config.backend.initConnect d.choice

theorem hold_eq_some {c : ConnId} {conn : Conn srv} :
    w.hold i c = some conn ↔ w.conns[c]? = some conn ∧ conn.place = .held i := by
  simp [hold, Option.filter_eq_some_iff]

theorem closeAll_get (ids : List ConnId) (conns : List (Conn srv)) (c : ConnId) :
    (closeAll ids conns)[c]? = (conns[c]?).map fun conn =>
      if c ∈ ids then { conn with place := .closed } else conn := by
  simp [closeAll]

/-- What a checkout from pool `o` does to the world: `p'` is the pool afterwards, `evicted` the idle
connections it discards. -/
structure Got (w w' : World srv) (i : Nat) (o : Origin) (d : GetDecision) (r : Except Str ConnId)
    (p' : ConnectionPool) (evicted : List ConnId) : Prop where
  /-- the roles stay -/
  roles : w'.roles = w.roles
  /-- the other pools stay -/
  pools : w'.pools = Function.update w.pools o p'
  /-- ids leave the buckets only -/
  ids : List.Subperm (evicted ++ p'.idleIds) (w.pools o).idleIds
  /-- the counter goes up with a success -/
  borrowed : p'.borrowed = (w.pools o).borrowed + r.isOk.toNat
  /-- and one more connection is checked out -/
  count : ∀ o', w'.heldOf o' = w.heldOf o' + if o' = o then r.isOk.toNat else 0
  /-- what is handed out is nowhere else -/
  fresh : ∀ c, r = .ok c → c ∉ evicted ∧ ∀ o', c ∉ (w'.pools o').idleIds
  /-- it was idle in the pool, or is new -/
  was : ∀ c, r = .ok c → ∀ conn, w.conns[c]? = some conn → conn.place = .idle o
  /-- the connection that is handed out -/
  hit : ∀ c, r = .ok c → w'.conns[c]? = some (w.lent i o d c)
  /-- the others -/
  miss : ∀ c, r ≠ .ok c → w'.conns[c]? = (w.conns[c]?).map fun conn =>
    if c ∈ evicted then { conn with place := .closed } else conn

theorem countP_closeAll (q : Conn srv → Bool) (ids : List ConnId) (conns : List (Conn srv))
    (h : ∀ c ∈ ids, ∀ conn, conns[c]? = some conn → q { conn with place := .closed } = q conn) :
    (closeAll ids conns).countP q = conns.countP q := by
  have hmap : (closeAll ids conns).map q = conns.map q := by
    refine List.ext_getElem? fun c => ?_
    rw [List.getElem?_map, List.getElem?_map, closeAll_get]
    rcases hc : conns[c]? with _ | conn
    · rfl
    · by_cases hmem : c ∈ ids
      · simp [hmem, h c hmem conn hc]
      · simp [hmem]
  have hid : ∀ l : List (Conn srv), l.countP q = (l.map q).countP id := by
    intro l
    rw [List.countP_map]
    rfl
  rw [hid, hid, hmap]

/-- The evicted connections were idle, so closing them changes no count of those that are out. -/
theorem countP_evicted {o : Origin} {evicted : List ConnId}
    (hidle : ∀ c ∈ evicted, ∃ conn, w.conns[c]? = some conn ∧ conn.place = .idle o) (o' : Origin) :
    (closeAll evicted w.conns).countP (·.outOf o') = w.heldOf o' := by
  refine countP_closeAll _ _ _ fun c hc conn hconn => ?_
  obtain ⟨conn', hconn', hplace⟩ := hidle c hc
  obtain rfl : conn = conn' := Option.some.inj (hconn.symm.trans hconn')
  simp [Conn.outOf, hplace]

theorem got_reused {o : Origin} {d : GetDecision} {p' : ConnectionPool} {evicted : List ConnId}
    {c : ConnId} (hw : w.Coherent)
    (hids : List.Subperm (evicted ++ [c] ++ p'.idleIds) (w.pools o).idleIds)
    (hborrowed : p'.borrowed = (w.pools o).borrowed + 1) :
    Got w { w with
      pools := Function.update w.pools o p'
      conns := (closeAll evicted w.conns).modify c fun conn =>
        { conn with place := .held i, lender := o } } i o d (.ok c) p' evicted := by
  have hidle : ∀ c' ∈ evicted ++ [c], ∃ conn, w.conns[c']? = some conn ∧ conn.place = .idle o :=
    fun c' hc' => hw.idle o c' (hids.subset (List.mem_append_left _ hc'))
  have hnodup := ConnectionPool.nodup_of_subperm hids (hw.nodup o)
  obtain ⟨conn, hconn, hplace⟩ := hidle c (by simp)
  -- no connection lies in the buckets twice
  have hnot : c ∉ evicted := by
    intro hmem
    exact (List.nodup_append.mp (List.nodup_append.mp hnodup).1).2.2 c hmem c (by simp) rfl
  have hnot' : c ∉ p'.idleIds := by
    intro hmem
    exact (List.nodup_append.mp hnodup).2.2 c (by simp) c hmem rfl
  have hat : (closeAll evicted w.conns)[c]? = some conn := by simp [closeAll_get, hconn, hnot]
  have hset : (closeAll evicted w.conns).modify c (fun conn =>
      { conn with place := .held i, lender := o }) =
      (closeAll evicted w.conns).set c { conn with place := .held i, lender := o } := by
    refine List.ext_getElem? fun c' => ?_
    by_cases hc : c = c'
    · subst hc
      obtain ⟨hlt, -⟩ := List.getElem?_eq_some_iff.mp hat
      rw [List.getElem?_modify_eq, hat, List.getElem?_set_self hlt]
      rfl
    · simp [hc]
  refine ⟨rfl, rfl, ?_, hborrowed, fun o' => ?_, ?_, ?_, ?_, ?_⟩
  · refine List.Subperm.trans ?_ hids
    simp only [List.append_assoc]
    exact (List.subperm_append_left _).mpr (List.sublist_append_right _ _).subperm
  · have hcount := countP_set_add ({ conn with place := .held i, lender := o } : Conn srv)
      (·.outOf o') hat
    rw [countP_evicted (fun c' hc' => hidle c' (List.mem_append_left _ hc'))] at hcount
    have hbefore : conn.outOf o' = false := by simp [Conn.outOf, hplace]
    have hafter : ({ conn with place := .held i, lender := o } : Conn srv).outOf o' =
        decide (o' = o) := by
      simp [Conn.outOf, beq_eq_decide, eq_comm]
    rw [hbefore, hafter] at hcount
    simp only [heldOf, hset]
    by_cases ho : o' = o <;> simpa [ho, heldOf, Except.isOk, Except.toBool] using hcount
  · rintro c' hc'
    obtain rfl := Except.ok.inj hc'
    refine ⟨hnot, fun o' hmem => ?_⟩
    by_cases ho : o' = o
    · subst ho
      simp only [Function.update_self] at hmem
      exact hnot' hmem
    · simp only [Function.update_of_ne ho] at hmem
      obtain ⟨conn', hconn', hplace'⟩ := hw.idle o' c hmem
      obtain rfl : conn = conn' := Option.some.inj (hconn.symm.trans hconn')
      rw [hplace] at hplace'
      exact ho (Place.idle.inj hplace').symm
  · rintro c' hc' conn' hconn'
    obtain rfl := Except.ok.inj hc'
    obtain rfl : conn = conn' := Option.some.inj (hconn.symm.trans hconn')
    exact hplace
  · rintro c' hc'
    obtain rfl := Except.ok.inj hc'
    simp [lent, hconn, hat]
  · intro c' hc'
    have hne : c ≠ c' := fun h => hc' (by rw [h])
    simp [hne, closeAll_get]

theorem got_opened {o : Origin} {d : GetDecision} {p' : ConnectionPool} {evicted : List ConnId}
    (hw : w.Coherent) (hids : List.Subperm (evicted ++ p'.idleIds) (w.pools o).idleIds)
    (hborrowed : p'.borrowed = (w.pools o).borrowed + 1) :
    Got w { w with
      pools := Function.update w.pools o p'
      conns := closeAll evicted w.conns ++
        [.open srv o i (w.pools o).config.backend.initConnect d.choice] } i o d
      (.ok w.conns.length) p' evicted := by
  have hidle : ∀ c' ∈ evicted, ∃ conn, w.conns[c']? = some conn ∧ conn.place = .idle o :=
    fun c' hc' => hw.idle o c' (hids.subset (List.mem_append_left _ hc'))
  have hlen : (closeAll evicted w.conns).length = w.conns.length := by simp [closeAll]
  have hnone : w.conns[w.conns.length]? = none := by simp
  refine ⟨rfl, rfl, hids, hborrowed, fun o' => ?_, ?_, ?_, ?_, ?_⟩
  · have hafter : (Conn.open srv o i (w.pools o).config.backend.initConnect d.choice).outOf o' =
        decide (o' = o) := by
      simp [Conn.outOf, beq_eq_decide, eq_comm]
    have hcount := countP_evicted hidle o'
    simp only [heldOf, List.countP_append, hcount, List.countP_singleton, hafter]
    by_cases ho : o' = o <;> simp [ho, Except.isOk, Except.toBool]
  · rintro c' hc'
    obtain rfl := Except.ok.inj hc'
    refine ⟨fun hmem => ?_, fun o' hmem => ?_⟩
    · obtain ⟨conn, hconn, -⟩ := hidle _ hmem
      rw [hnone] at hconn
      cases hconn
    · have hmem' : w.conns.length ∈ (w.pools o').idleIds := by
        by_cases ho : o' = o
        · subst ho
          simp only [Function.update_self] at hmem
          exact hids.subset (List.mem_append_right _ hmem)
        · simpa only [Function.update_of_ne ho] using hmem
      obtain ⟨conn, hconn, -⟩ := hw.idle o' _ hmem'
      rw [hnone] at hconn
      cases hconn
  · rintro c' hc' conn' hconn'
    obtain rfl := Except.ok.inj hc'
    rw [hnone] at hconn'
    cases hconn'
  · rintro c' hc'
    obtain rfl := Except.ok.inj hc'
    simp [lent, hlen]
  · intro (c' : Nat) hc'
    have hne : c' ≠ w.conns.length := fun h => hc' (congrArg Except.ok h.symm)
    rw [← closeAll_get, List.getElem?_append]
    split
    · rfl
    · rename_i hlt
      have hpast : (closeAll evicted w.conns).length ≤ c' := by omega
      have hpast' : 1 ≤ c' - (closeAll evicted w.conns).length := by omega
      rw [List.getElem?_eq_none hpast]
      exact List.getElem?_eq_none hpast'

theorem got_failed {o : Origin} {d : GetDecision} {p' : ConnectionPool} {evicted : List ConnId}
    {e : Str} (hw : w.Coherent) (hids : List.Subperm (evicted ++ p'.idleIds) (w.pools o).idleIds)
    (hborrowed : p'.borrowed = (w.pools o).borrowed) :
    Got w { w with
      pools := Function.update w.pools o p'
      conns := closeAll evicted w.conns } i o d (.error e) p' evicted := by
  have hidle : ∀ c' ∈ evicted, ∃ conn, w.conns[c']? = some conn ∧ conn.place = .idle o :=
    fun c' hc' => hw.idle o c' (hids.subset (List.mem_append_left _ hc'))
  refine ⟨rfl, rfl, hids, hborrowed, fun o' => ?_, ?_, ?_, ?_, ?_⟩
  · have hzero : (Except.error e : Except Str ConnId).isOk.toNat = 0 := rfl
    simp only [hzero, ite_self, Nat.add_zero]
    exact countP_evicted hidle o'
  · intro c h
    cases h
  · intro c h
    cases h
  · intro c h
    cases h
  · intro c _
    exact closeAll_get ..

theorem get_got {o : Origin} {db : Option Str} {d : GetDecision} {r : Except Str ConnId}
    (hw : w.Coherent) (h : w.get i o db d = some (w', r)) :
    o.gen < w.refs.length ∧ ∃ p' evicted, Got w w' i o d r p' evicted := by
  rw [get] at h
  obtain ⟨hgen, h⟩ := Option.ite_none_right_eq_some.mp h
  refine ⟨hgen, ?_⟩
  obtain ⟨⟨p', evicted, out⟩, hget, hout⟩ := Option.map_eq_some_iff.mp h
  obtain ⟨hids, hborrowed⟩ := ConnectionPool.getForDatabase_frame hget
  refine ⟨p', evicted, ?_⟩
  rcases out with c | db' | e <;> simp only [Prod.mk.injEq] at hout <;> obtain ⟨rfl, rfl⟩ := hout
  · exact got_reused hw hids hborrowed
  · refine got_opened hw ?_ hborrowed
    simpa [ConnectionPool.Checkout.taken] using hids
  · refine got_failed hw ?_ hborrowed
    simpa [ConnectionPool.Checkout.taken] using hids

/-! ## Operations on a connection of the session -/

/-- The connection of one session is replaced. -/
theorem hold_set {c : ConnId} {conn conn' : Conn srv} (h : w.hold i c = some conn)
    (hconns : w'.conns = w.conns.set c conn') :
    w'.hold i = Function.update (w.hold i) c (if conn'.place = .held i then some conn' else none) ∧
      ∀ j, j ≠ i → conn'.place ≠ .held j → w'.hold j = w.hold j := by
  obtain ⟨hconn, hplace⟩ := hold_eq_some.mp h
  obtain ⟨hlt, -⟩ := List.getElem?_eq_some_iff.mp hconn
  have hother : ∀ j c', c' ≠ c → w'.hold j c' = w.hold j c' := by
    intro j c' hc'
    simp [hold, hconns, Ne.symm hc']
  refine ⟨funext fun c' => ?_, fun j hj hne => funext fun c' => ?_⟩
  · by_cases hc' : c' = c
    · subst hc'
      simp [hold, hconns, hlt, Option.filter]
    · rw [hother i c' hc', Function.update_of_ne hc']
  · by_cases hc' : c' = c
    · subst hc'
      have hne' : conn.place ≠ .held j := by
        rw [hplace]
        exact fun h => hj (Place.held.inj h).symm
      rw [hold, hold, hconns, List.getElem?_set_self hlt, hconn]
      simp [Option.filter, hne, hne']
    · exact hother j c' hc'

theorem count_set {c : ConnId} {conn conn' : Conn srv} (h : w.hold i c = some conn)
    (hconns : w'.conns = w.conns.set c conn') (o : Origin) :
    w'.heldOf o + (conn.outOf o).toNat = w.heldOf o + (conn'.outOf o).toNat := by
  rw [heldOf, hconns]
  exact countP_set_add conn' (·.outOf o) (hold_eq_some.mp h).1

/-- A connection that is checked out is in no bucket. -/
theorem not_mem_idleIds {c : ConnId} {conn : Conn srv} (hw : w.Coherent)
    (h : w.hold i c = some conn) (o : Origin) : c ∉ (w.pools o).idleIds := by
  intro hmem
  obtain ⟨hconn, hplace⟩ := hold_eq_some.mp h
  obtain ⟨conn', hconn', hplace'⟩ := hw.idle o c hmem
  obtain rfl : conn = conn' := Option.some.inj (hconn.symm.trans hconn')
  rw [hplace] at hplace'
  cases hplace'

theorem coherent_set {c : ConnId} {conn conn' : Conn srv} (hw : w.Coherent)
    (h : w.hold i c = some conn) (hconns : w'.conns = w.conns.set c conn')
    (hpools : w'.pools = w.pools) : w'.Coherent := by
  refine ⟨fun o c' hc' => ?_, fun o => ?_⟩
  · rw [hpools] at hc'
    have hne : c ≠ c' := by
      rintro rfl
      exact not_mem_idleIds hw h o hc'
    rw [hconns, List.getElem?_set_ne hne]
    exact hw.idle o c' hc'
  · rw [hpools]
    exact hw.nodup o

/-- What a return does to the world. -/
structure Returned (w w' : World srv) (i : Nat) (o : Origin) (c : ConnId) (conn : Conn srv)
    (kept : Bool) : Prop where
  /-- the connection was the session's -/
  held : w.hold i c = some conn
  /-- the roles stay -/
  roles : w'.roles = w.roles
  /-- the connection is idle now, or closed -/
  conns : w'.conns = w.conns.set c { conn with place := if kept then .idle o else .closed }
  /-- a connection that says it is in a transaction is not kept -/
  kept_of : kept = true → conn.inTransaction = false
  /-- the other pools stay -/
  others : ∀ o', o' ≠ o → w'.pools o' = w.pools o'
  /-- the id goes into a bucket if the connection is kept -/
  ids : List.Subperm (w'.pools o).idleIds
    (if kept then c :: (w.pools o).idleIds else (w.pools o).idleIds)
  /-- the counter goes down -/
  borrowed : (w'.pools o).borrowed = usizePred (w.pools o).borrowed

theorem put_returned {o : Origin} {c : ConnId} {db : Option Str} {now : Nat}
    (h : w.put i o c db now = some w') : ∃ conn kept, Returned w w' i o c conn kept := by
  obtain ⟨conn, hconn, rfl⟩ := Option.map_eq_some_iff.mp h
  refine ⟨conn, ((w.pools o).putForDatabase c conn.inTransaction conn.healthy db now).2, hconn, rfl,
    rfl, fun hk => ?_, fun o' ho' => Function.update_of_ne ho' .., ?_, ?_⟩
  · exact (ConnectionPool.putForDatabase_kept _ hk).1
  · simp only [Function.update_self]
    exact (w.pools o).putForDatabase_ids ..
  · simp only [Function.update_self]
    exact ConnectionPool.putForDatabase_borrowed ..

theorem Returned.coherent {o : Origin} {c : ConnId} {conn : Conn srv} {kept : Bool}
    (hw : w.Coherent) (h : Returned w w' i o c conn kept) : w'.Coherent := by
  obtain ⟨hconn, -⟩ := hold_eq_some.mp h.held
  obtain ⟨hlt, -⟩ := List.getElem?_eq_some_iff.mp hconn
  have hout := not_mem_idleIds hw h.held
  refine ⟨fun o' c' hc' => ?_, fun o' => ?_⟩
  · by_cases hcc : c' = c
    · subst hcc
      by_cases ho : o' = o
      · subst ho
        have hmem := h.ids.subset hc'
        rcases kept with _ | _
        · exact absurd (by simpa using hmem) (hout o')
        · refine ⟨{ conn with place := .idle o' }, ?_, rfl⟩
          rw [h.conns, List.getElem?_set_self hlt]
          rfl
      · rw [h.others o' ho] at hc'
        exact absurd hc' (hout o')
    · have hold : c' ∈ (w.pools o').idleIds := by
        by_cases ho : o' = o
        · subst ho
          have hmem := h.ids.subset hc'
          rcases kept with _ | _
          · simpa using hmem
          · simpa [hcc] using hmem
        · rwa [h.others o' ho] at hc'
      rw [h.conns, List.getElem?_set_ne (Ne.symm hcc)]
      exact hw.idle o' c' hold
  · by_cases ho : o' = o
    · subst ho
      refine ConnectionPool.nodup_of_subperm h.ids ?_
      rcases kept with _ | _
      · simpa using hw.nodup o'
      · simpa using ⟨hout o', hw.nodup o'⟩
    · rw [h.others o' ho]
      exact hw.nodup o'

theorem Got.coherent {o : Origin} {d : GetDecision} {r : Except Str ConnId} {p' : ConnectionPool}
    {evicted : List ConnId} (hw : w.Coherent) (h : Got w w' i o d r p' evicted) : w'.Coherent := by
  have hdisj : ∀ c ∈ evicted, ∀ o', c ∉ (w'.pools o').idleIds := by
    intro c hc o' hmem
    rw [h.pools] at hmem
    by_cases ho : o' = o
    · subst ho
      rw [Function.update_self] at hmem
      have hnodup := ConnectionPool.nodup_of_subperm h.ids (hw.nodup o')
      exact (List.nodup_append.mp hnodup).2.2 c hc c hmem rfl
    · rw [Function.update_of_ne ho] at hmem
      obtain ⟨conn, hconn, hplace⟩ := hw.idle o' c hmem
      obtain ⟨conn', hconn', hplace'⟩ := hw.idle o c (h.ids.subset (List.mem_append_left _ hc))
      obtain rfl : conn = conn' := Option.some.inj (hconn.symm.trans hconn')
      rw [hplace] at hplace'
      exact ho (Place.idle.inj hplace')
  refine ⟨fun o' c hc => ?_, fun o' => ?_⟩
  · have hr : r ≠ .ok c := fun hr => (h.fresh c hr).2 o' hc
    have hev : c ∉ evicted := fun hmem => hdisj c hmem o' hc
    rw [h.miss c hr]
    simp only [hev, if_false, Option.map_id']
    rw [h.pools] at hc
    by_cases ho : o' = o
    · subst ho
      rw [Function.update_self] at hc
      exact hw.idle o' c (h.ids.subset (List.mem_append_right _ hc))
    · rw [Function.update_of_ne ho] at hc
      exact hw.idle o' c hc
  · rw [h.pools]
    by_cases ho : o' = o
    · subst ho
      rw [Function.update_self]
      exact (List.nodup_append.mp (ConnectionPool.nodup_of_subperm h.ids (hw.nodup o'))).2.1
    · rw [Function.update_of_ne ho]
      exact hw.nodup o'

theorem lent_place (w : World srv) (i : Nat) (o : Origin) (d : GetDecision) (c : ConnId) :
    (w.lent i o d c).place = .held i ∧ (w.lent i o d c).lender = o := by
  rw [lent]
  split
  · exact ⟨rfl, rfl⟩
  · exact ⟨(Conn.open_frame ..).1, (Conn.open_frame ..).2.1⟩

/-- A connection that a checkout does not hand out is held by whom it was held before. -/
theorem Got.hold_other {o : Origin} {d : GetDecision} {r : Except Str ConnId} {p' : ConnectionPool}
    {evicted : List ConnId} (hw : w.Coherent) (h : Got w w' i o d r p' evicted) {c : ConnId}
    (hc : r ≠ .ok c) (j : Nat) : w'.hold j c = w.hold j c := by
  rw [hold, hold, h.miss c hc]
  rcases hconn : w.conns[c]? with _ | conn
  · rfl
  · by_cases hmem : c ∈ evicted
    · obtain ⟨conn', hconn', hplace⟩ := hw.idle o c (h.ids.subset (List.mem_append_left _ hmem))
      obtain rfl : conn = conn' := Option.some.inj (hconn.symm.trans hconn')
      simp [hmem, Option.filter, hplace]
    · simp [hmem]

theorem Got.hold_hit {o : Origin} {d : GetDecision} {c : ConnId} {p' : ConnectionPool}
    {evicted : List ConnId} (hw : w.Coherent) (h : Got w w' i o d (.ok c) p' evicted) :
    (∀ j, w.hold j c = none) ∧ w'.hold i = Function.update (w.hold i) c (some (w.lent i o d c)) ∧
      ∀ j, j ≠ i → w'.hold j = w.hold j := by
  have hnone : ∀ j, w.hold j c = none := by
    intro j
    rw [hold]
    rcases hconn : w.conns[c]? with _ | conn
    · rfl
    · simp [Option.filter, h.was c rfl conn hconn]
  refine ⟨hnone, funext fun c' => ?_, fun j hj => funext fun c' => ?_⟩
  · by_cases hc : c' = c
    · subst hc
      rw [Function.update_self, hold_eq_some]
      exact ⟨h.hit c' rfl, (w.lent_place i o d c').1⟩
    · rw [Function.update_of_ne hc]
      exact h.hold_other hw (fun heq => hc (Except.ok.inj heq).symm) i
  · by_cases hc : c' = c
    · subst hc
      rw [hnone, hold, h.hit c' rfl]
      simp [Option.filter, (w.lent_place i o d c').1, Ne.symm hj]
    · exact h.hold_other hw (fun heq => hc (Except.ok.inj heq).symm) j

/-!
## The world meets the contract

The contract says what an operation may assume of the connections a session holds; the world with its pools lives up to
it, whatever the other sessions do.
-/

/-- Every idle connection is clean. -/
def IdleClean (clean : Conn srv → Prop) (w : World srv) : Prop :=
  ∀ (c : ConnId) conn o, w.conns[c]? = some conn → conn.place = .idle o → clean conn

/-- What the answer to an operation has to be, beyond what the world keeps track of, for the contract
to hold. -/
def Allows (R : Rules srv) (w : World srv) (i : Nat) : (o : Op) → In o → Res o → Prop
  | .readPool, _, r => R.home → r = R.cur
  | .loadGr gen, _, r => R.home → gen = R.cur.gen → r = R.gr
  | .loadFailover gen, _, r => R.home → gen = R.cur.gen → r = R.failover
  | .primaryAllows _, _, r => R.sure → r = true
  | .get _ _, _, .error _ => ¬R.sure
  | .get o _, d, .ok c => R.clean (w.lent i o d c)
  | .put o c _, _, _ => ∀ conn, w.hold i c = some conn → conn.inTransaction = false →
      R.clean { conn with place := .idle o }
  | .talk _ via c p _, d, r => ∀ conn, w.hold i c = some conn →
      R.after via p conn r (conn.talk i p d).1
  | .cacheGet _, _, some b => R.plain (cachedResponse b)
  | _, _, _ => True

/-- An operation of session `i` keeps the bookkeeping, gives an answer that the contract allows, and
touches nothing of the other sessions. -/
structure Kept (R : Rules srv) (w w' : World srv) (i : Nat) (o : Op) (r : Res o) : Prop where
  /-- the bookkeeping -/
  coherent : w'.Coherent
  /-- the idle connections -/
  clean : IdleClean R.clean w'
  /-- the roles -/
  roles : w'.roles = w.roles
  /-- the contract -/
  step : R.contract.step (w.hold i) o r (w'.hold i)
  /-- the other sessions -/
  others : ∀ j, j ≠ i → w'.hold j = w.hold j

variable {R : Rules srv}

theorem kept_get {o : Origin} {db : Option Str} {d : GetDecision} {r : Except Str ConnId}
    (hw : w.Coherent) (hclean : IdleClean R.clean w) (h : w.get i o db d = some (w', r))
    (hallow : Allows R w i (.get o db) d r) : Kept R w w' i (.get o db) r := by
  obtain ⟨-, p', evicted, hgot⟩ := get_got hw h
  have hidle : IdleClean R.clean w' := by
    intro c conn o' hconn hplace
    by_cases hr : r = .ok c
    · rw [hgot.hit c hr] at hconn
      obtain rfl := Option.some.inj hconn
      rw [(w.lent_place i o d c).1] at hplace
      cases hplace
    · rw [hgot.miss c hr] at hconn
      obtain ⟨conn₀, hconn₀, rfl⟩ := Option.map_eq_some_iff.mp hconn
      split at hplace
      · cases hplace
      · rename_i hev
        rw [if_neg hev]
        exact hclean c conn₀ o' hconn₀ hplace
  rcases r with e | c
  · have hall : ∀ j, w'.hold j = w.hold j := fun j => funext fun c =>
      hgot.hold_other hw (fun heq => by cases heq) j
    exact ⟨hgot.coherent hw, hidle, hgot.roles, ⟨hall i, hallow⟩, fun j _ => hall j⟩
  · obtain ⟨hnone, hi, hj⟩ := hgot.hold_hit hw
    exact ⟨hgot.coherent hw, hidle, hgot.roles,
      ⟨hnone i, w.lent i o d c, hi, hallow, (w.lent_place i o d c).2⟩, hj⟩

theorem kept_put {o : Origin} {c : ConnId} {db : Option Str} {now : Nat}
    (hw : w.Coherent) (hclean : IdleClean R.clean w) (h : w.put i o c db now = some w')
    (hallow : Allows R w i (.put o c db) now ()) : Kept R w w' i (.put o c db) () := by
  obtain ⟨conn, kept, hret⟩ := put_returned h
  obtain ⟨hconn, hplace⟩ := hold_eq_some.mp hret.held
  obtain ⟨hlt, -⟩ := List.getElem?_eq_some_iff.mp hconn
  obtain ⟨hi, hj⟩ := hold_set hret.held hret.conns
  have hnot : ∀ j, ({ conn with place := if kept then .idle o else .closed } : Conn srv).place ≠
      .held j := by
    intro j
    cases kept <;> simp
  refine ⟨hret.coherent hw, ?_, hret.roles, ?_, fun j hne => hj j hne (hnot j)⟩
  · intro c' conn' o' hconn' hplace'
    by_cases hc : c' = c
    · subst hc
      rw [hret.conns, List.getElem?_set_self hlt] at hconn'
      obtain rfl := Option.some.inj hconn'
      cases kept
      · cases hplace'
      · exact hallow conn hret.held (hret.kept_of rfl)
    · rw [hret.conns, List.getElem?_set_ne (Ne.symm hc)] at hconn'
      exact hclean c' conn' o' hconn' hplace'
  · rw [if_neg (hnot i)] at hi
    exact hi

theorem kept_set {o : Op} {r : Res o} {c : ConnId} {conn conn' : Conn srv}
    (hw : w.Coherent) (hclean : IdleClean R.clean w) (hheld : w.hold i c = some conn)
    (hw' : w' = { w with conns := w.conns.set c conn' })
    (hplace : conn'.place = .held i ∨ conn'.place = .closed)
    (hstep : R.contract.step (w.hold i) o r
      (Function.update (w.hold i) c (if conn'.place = .held i then some conn' else none))) :
    Kept R w w' i o r := by
  subst hw'
  obtain ⟨hconn, -⟩ := hold_eq_some.mp hheld
  obtain ⟨hlt, -⟩ := List.getElem?_eq_some_iff.mp hconn
  have hconns : ({ w with conns := w.conns.set c conn' } : World srv).conns =
      w.conns.set c conn' := rfl
  obtain ⟨hi, hj⟩ := hold_set hheld hconns
  refine ⟨coherent_set hw hheld rfl rfl, ?_, rfl, ?_, fun j hne => hj j hne ?_⟩
  · intro c' conn₁ o' hconn₁ hplace₁
    by_cases hc : c' = c
    · subst hc
      rw [List.getElem?_set_self hlt] at hconn₁
      obtain rfl := Option.some.inj hconn₁
      rcases hplace with hp | hp <;> rw [hp] at hplace₁ <;> cases hplace₁
    · rw [List.getElem?_set_ne (Ne.symm hc)] at hconn₁
      exact hclean c' conn₁ o' hconn₁ hplace₁
  · rw [hi]
    exact hstep
  · rcases hplace with hp | hp <;> rw [hp]
    · exact fun h => hne (Place.held.inj h).symm
    · exact fun h => by cases h

/-- **The world meets the contract.** -/
theorem handle_kept {o : Op} {inp : In o} {r : Res o} (hw : w.Coherent)
    (hclean : IdleClean R.clean w) (h : w.handle i o inp = some (w', r))
    (hallow : Allows R w i o inp r) : Kept R w w' i o r := by
  have hquiet : w' = w → R.contract.step (w.hold i) o r (w.hold i) → Kept R w w' i o r := by
    rintro rfl hstep
    exact ⟨hw, hclean, rfl, hstep, fun _ _ => rfl⟩
  cases o with
  | get o db => exact kept_get hw hclean h hallow
  | put o c db =>
    obtain ⟨w₁, hput, heq⟩ := Option.map_eq_some_iff.mp h
    obtain ⟨rfl, rfl⟩ := Prod.mk.inj heq
    exact kept_put hw hclean hput hallow
  | drop exit c =>
    obtain ⟨w₁, hdrop, heq⟩ := Option.map_eq_some_iff.mp h
    obtain ⟨rfl, rfl⟩ := Prod.mk.inj heq
    obtain ⟨conn, hheld, rfl⟩ := Option.map_eq_some_iff.mp hdrop
    exact kept_set hw hclean hheld rfl (.inr rfl) (by simp [Rules.contract])
  | talk who via c p limit =>
    obtain ⟨conn, hheld, hrest⟩ := Option.bind_eq_some_iff.mp h
    simp only [Option.ite_none_left_eq_some, Option.some.injEq, Prod.mk.injEq] at hrest
    obtain ⟨-, hw', rfl⟩ := hrest
    have hplace : (conn.talk i p inp).1.place = .held i :=
      (conn.talk_frame i p inp).1.trans (hold_eq_some.mp hheld).2
    refine kept_set hw hclean hheld hw'.symm (.inl hplace) ?_
    rw [if_pos hplace]
    exact ⟨conn, _, hheld, rfl, hallow conn hheld⟩
  | readPool =>
    obtain ⟨ref, -, heq⟩ := Option.map_eq_some_iff.mp h
    obtain ⟨rfl, rfl⟩ := Prod.mk.inj heq
    exact hquiet rfl ⟨rfl, hallow⟩
  | loadGr gen =>
    obtain ⟨rfl, rfl⟩ := Prod.mk.inj (Option.some.inj h)
    exact hquiet rfl ⟨rfl, hallow⟩
  | loadFailover gen =>
    obtain ⟨rfl, rfl⟩ := Prod.mk.inj (Option.some.inj h)
    exact hquiet rfl ⟨rfl, hallow⟩
  | primaryAllows gen =>
    obtain ⟨rfl, rfl⟩ := Prod.mk.inj (Option.some.inj h)
    exact hquiet rfl ⟨rfl, hallow⟩
  | cacheGet key =>
    obtain ⟨rfl, rfl⟩ := Prod.mk.inj (Option.some.inj h)
    rcases inp with _ | b
    · exact hquiet rfl rfl
    · exact hquiet rfl ⟨rfl, hallow⟩
  | panic => cases h
  | _ =>
    obtain ⟨rfl, rfl⟩ := Prod.mk.inj (Option.some.inj h)
    exact hquiet rfl rfl

/-! ## Facts about every connection -/

/-- What an operation of session `i` owes to a fact `P` about every connection: it holds of what a
checkout hands out, of what a return leaves in a bucket, and after an exchange. -/
def Spreads (P : Conn srv → Prop) (w : World srv) (i : Nat) : (o : Op) → In o → Prop
  | .get o _, d => ∀ c, (∀ conn, w.conns[c]? = some conn → conn.place = .idle o) →
      P (w.lent i o d c)
  | .put o c _, _ => ∀ conn, w.hold i c = some conn → conn.inTransaction = false →
      P { conn with place := .idle o }
  | .talk _ _ c p _, d => ∀ conn, w.hold i c = some conn → P (conn.talk i p d).1
  | _, _ => True

/-- A fact about every connection survives an operation. -/
theorem handle_forall {P : Conn srv → Prop} {o : Op} {inp : In o} {r : Res o} (hw : w.Coherent)
    (hP : ∀ conn ∈ w.conns, P conn) (hclosed : ∀ conn, P conn → P { conn with place := .closed })
    (h : w.handle i o inp = some (w', r)) (hspread : Spreads P w i o inp) :
    ∀ conn ∈ w'.conns, P conn := by
  have hset : ∀ (c : ConnId) conn', P conn' → ∀ conn ∈ w.conns.set c conn', P conn := by
    intro c conn' hconn' conn hmem
    rcases List.mem_or_eq_of_mem_set hmem with hold | rfl
    · exact hP conn hold
    · exact hconn'
  have hheld : ∀ {c : ConnId} {conn}, w.hold i c = some conn → P conn := fun hc =>
    hP _ (List.mem_of_getElem? (hold_eq_some.mp hc).1)
  cases o with
  | get o db =>
    obtain ⟨-, p', evicted, hgot⟩ := get_got hw h
    intro conn hmem
    obtain ⟨c, hc⟩ := List.mem_iff_getElem?.mp hmem
    by_cases hr : r = .ok c
    · rw [hgot.hit c hr] at hc
      obtain rfl := Option.some.inj hc
      exact hspread c (hgot.was c hr)
    · rw [hgot.miss c hr] at hc
      obtain ⟨conn₀, hconn₀, rfl⟩ := Option.map_eq_some_iff.mp hc
      have hbefore := hP conn₀ (List.mem_of_getElem? hconn₀)
      split
      · exact hclosed conn₀ hbefore
      · exact hbefore
  | put o c db =>
    obtain ⟨w₁, hput, heq⟩ := Option.map_eq_some_iff.mp h
    obtain ⟨rfl, -⟩ := Prod.mk.inj heq
    obtain ⟨conn, kept, hret⟩ := put_returned hput
    rw [hret.conns]
    refine hset c _ ?_
    cases kept
    · exact hclosed conn (hheld hret.held)
    · exact hspread conn hret.held (hret.kept_of rfl)
  | drop exit c =>
    obtain ⟨w₁, hw₁, heq⟩ := Option.map_eq_some_iff.mp h
    obtain ⟨rfl, -⟩ := Prod.mk.inj heq
    obtain ⟨conn, hc, rfl⟩ := Option.map_eq_some_iff.mp hw₁
    exact hset c _ (hclosed conn (hheld hc))
  | talk who via c p limit =>
    obtain ⟨conn, hc, hrest⟩ := Option.bind_eq_some_iff.mp h
    simp only [Option.ite_none_left_eq_some, Option.some.injEq, Prod.mk.injEq] at hrest
    obtain ⟨-, rfl, -⟩ := hrest
    exact hset c _ (hspread conn hc)
  | readPool =>
    obtain ⟨ref, -, heq⟩ := Option.map_eq_some_iff.mp h
    obtain ⟨rfl, -⟩ := Prod.mk.inj heq
    exact hP
  | panic => cases h
  | _ =>
    obtain ⟨rfl, -⟩ := Prod.mk.inj (Option.some.inj h)
    exact hP

/-! ## Panics -/

theorem stop_get (c : ConnId) : (w.stop i).conns[c]? = w.conns[c]?.map fun conn =>
    if conn.place = .held i then { conn with place := .closed } else conn := List.getElem?_map ..

/-- A connection is closed by the panic, or it was another's and is left alone. -/
theorem stop_cases {c : ConnId} {conn : Conn srv} (h : (w.stop i).conns[c]? = some conn) :
    (∃ conn₀, w.conns[c]? = some conn₀ ∧ conn₀.place = .held i ∧ conn = { conn₀ with place := .closed }) ∨
      w.conns[c]? = some conn ∧ conn.place ≠ .held i := by
  rw [stop_get] at h
  obtain ⟨conn₀, hconn₀, rfl⟩ := Option.map_eq_some_iff.mp h
  by_cases hplace : conn₀.place = .held i
  · exact .inl ⟨conn₀, hconn₀, hplace, if_pos hplace⟩
  · rw [if_neg hplace]
    exact .inr ⟨hconn₀, hplace⟩

/-- A session that has panicked holds nothing any more. -/
theorem stop_hold_self : (w.stop i).hold i = fun _ => none := by
  funext c
  rw [hold, stop_get]
  rcases w.conns[c]? with _ | conn
  · rfl
  · by_cases hplace : conn.place = .held i <;> simp [Option.filter, hplace]

/-- The others hold what they held. -/
theorem stop_hold_of_ne {j : Nat} (hj : j ≠ i) : (w.stop i).hold j = w.hold j := by
  funext c
  rw [hold, hold, stop_get]
  rcases w.conns[c]? with _ | conn
  · rfl
  · by_cases hplace : conn.place = .held i
    · simp [Option.filter, hplace, Ne.symm hj]
    · simp [hplace]

/-- What lies in a bucket stays there. -/
theorem stop_idle {c : ConnId} {conn : Conn srv} {o : Origin} (h : w.conns[c]? = some conn)
    (hplace : conn.place = .idle o) : (w.stop i).conns[c]? = some conn := by
  rw [stop_get, h, Option.map_some, if_neg]
  rw [hplace]
  exact nofun

theorem stop_coherent (hw : w.Coherent) : (w.stop i).Coherent := by
  refine ⟨fun o c hc => ?_, hw.nodup⟩
  obtain ⟨conn, hconn, hplace⟩ := hw.idle o c hc
  exact ⟨conn, stop_idle hconn hplace, hplace⟩

/-- A fact about every connection survives a panic. -/
theorem stop_forall {P : Conn srv → Prop} (hP : ∀ conn ∈ w.conns, P conn)
    (hclosed : ∀ conn, P conn → P { conn with place := .closed }) : ∀ conn ∈ (w.stop i).conns, P conn := by
  intro conn hmem
  obtain ⟨conn₀, hmem₀, rfl⟩ := List.mem_map.mp hmem
  split
  · exact hclosed conn₀ (hP conn₀ hmem₀)
  · exact hP conn₀ hmem₀

theorem stop_idleClean {clean : Conn srv → Prop} (hclean : IdleClean clean w) : IdleClean clean (w.stop i) := by
  intro c conn o hconn hplace
  rcases stop_cases hconn with ⟨conn₀, -, -, rfl⟩ | ⟨hconn, -⟩
  · cases hplace
  · exact hclean c conn o hconn hplace

/-! ## The environment -/

theorem act_conns {e : Admin} (h : w.act e = some w') : w'.conns = w.conns := by
  cases e <;> obtain rfl := Option.some.inj h <;> rfl

theorem act_hold {e : Admin} (h : w.act e = some w') (j : Nat) : w'.hold j = w.hold j := by
  funext c
  rw [hold, hold, act_conns h]

/-- A pool keeps its state, unless it is a new one. -/
theorem act_pools {e : Admin} (h : w.act e = some w') (o : Origin) :
    w'.pools o = w.pools o ∨ o.gen = w.refs.length ∧ ∃ config, w'.pools o = .new config := by
  cases e with
  | setFailover gen idx =>
    obtain rfl := Option.some.inj h
    exact .inl rfl
  | setGr gen idx =>
    obtain rfl := Option.some.inj h
    exact .inl rfl
  | reload primary replicas =>
    obtain rfl := Option.some.inj h
    by_cases hgen : o.gen = w.refs.length
    · refine .inr ⟨hgen, ?_⟩
      simp only [install, hgen, if_true]
      rcases o.slot with _ | j
      · exact ⟨primary, rfl⟩
      · exact ⟨_, rfl⟩
    · refine .inl ?_
      simp only [install, hgen, if_false]

theorem act_coherent {e : Admin} (hw : w.Coherent) (h : w.act e = some w') : w'.Coherent := by
  refine ⟨fun o c hc => ?_, fun o => ?_⟩
  · rw [act_conns h]
    rcases act_pools h o with hp | ⟨-, config, hp⟩
    · rw [hp] at hc
      exact hw.idle o c hc
    · rw [hp] at hc
      cases hc
  · rcases act_pools h o with hp | ⟨-, config, hp⟩
    · rw [hp]
      exact hw.nodup o
    · rw [hp]
      exact List.nodup_nil

/-- Nobody holds anything at first. -/
theorem hold_new (primary : PoolConfig) (replicas : List PoolConfig) (i : Nat) :
    (World.new srv primary replicas).hold i = fun _ => none := by
  funext c
  simp [hold, World.new]

theorem new_coherent (primary : PoolConfig) (replicas : List PoolConfig) :
    (World.new srv primary replicas).Coherent := by
  have hnil : ∀ o, ((World.new srv primary replicas).pools o).idleIds = [] := by
    intro o
    simp only [World.new, install]
    split
    · rcases o.slot with _ | j <;> rfl
    · rfl
  refine ⟨fun o c hc => ?_, fun o => ?_⟩
  · rw [hnil] at hc
    cases hc
  · rw [hnil]
    exact List.nodup_nil

end World

end TurbineProxy
