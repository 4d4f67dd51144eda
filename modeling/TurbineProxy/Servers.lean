import TurbineProxy.Custody

/-!
# Which server a connection leads to

A connection leads to the backend of the pool that opened it, whatever pool lends it out later. Neither
the backend of an installed pool nor the opener of a connection ever changes, so the server of a
connection is fixed once and for all: by every operation (`World.server_handle`) and by every role
change and reload (`World.server_act`).
-/

namespace TurbineProxy

namespace ConnectionPool

/-- A checkout does not touch the configuration. -/
theorem getForDatabase_config {p p' : ConnectionPool} {db : Option Str} {inp : GetInput}
    {evicted : List ConnId} {out : Checkout} (h : p.getForDatabase db inp = some (p', evicted, out)) :
    p'.config = p.config := by
  have hopen : ∀ (q : ConnectionPool) key, (q.openNew key inp).1.config = q.config := by
    intro q key
    rw [openNew]
    split
    · rfl
    · split <;> rfl
  rw [getForDatabase] at h
  dsimp only at h
  split at h
  · obtain ⟨rfl, -⟩ := Prod.mk.inj (Option.some.inj h)
    rfl
  · split at h
    · split at h
      · split at h
        · obtain ⟨q, hq, heq⟩ := Option.map_eq_some_iff.mp h
          obtain ⟨rfl, -⟩ := Prod.mk.inj heq
          obtain ⟨-, hq⟩ := Option.ite_none_left_eq_some.mp hq
          obtain rfl := Option.some.inj hq
          exact hopen _ _
        · obtain ⟨rfl, -⟩ := Prod.mk.inj (Option.some.inj h)
          rfl
      · obtain ⟨rfl, -⟩ := Prod.mk.inj (Option.some.inj h)
        rfl
    · obtain ⟨rfl, -⟩ := Prod.mk.inj (Option.some.inj h)
      exact hopen _ _

end ConnectionPool

variable {srv : Server}

namespace World

/-- The backend a pool connects to. -/
def backendOf (w : World srv) (o : Origin) : BackendConfig := (w.pools o).config.backend

/-- The server at the other end of a connection. -/
def server (w : World srv) (c : ConnId) : Option BackendConfig :=
  (w.conns[c]?).map fun conn => w.backendOf conn.opened

/-- Every connection was opened by a pool that is installed. -/
def Rooted (w : World srv) : Prop := ∀ conn ∈ w.conns, conn.opened.gen < w.refs.length

variable {w w' : World srv} {i : Nat} {o : Op} {inp : In o} {r : Res o} {c : ConnId}

/-! ## Operations -/

/-- No operation changes the configuration of a pool. -/
theorem backendOf_handle (h : w.handle i o inp = some (w', r)) : w'.backendOf = w.backendOf := by
  funext o'
  have hupdate : ∀ (o : Origin) p, p.config = (w.pools o).config →
      ((Function.update w.pools o p) o').config.backend = (w.pools o').config.backend := by
    intro o p hp
    by_cases ho : o' = o
    · subst ho
      rw [Function.update_self, hp]
    · rw [Function.update_of_ne ho]
  cases o with
  | get o db =>
    obtain ⟨-, h⟩ := Option.ite_none_right_eq_some.mp h
    obtain ⟨⟨p, evicted, out⟩, hget, hout⟩ := Option.map_eq_some_iff.mp h
    have hconfig := ConnectionPool.getForDatabase_config hget
    cases out <;> obtain ⟨rfl, -⟩ := Prod.mk.inj hout <;> exact hupdate o p hconfig
  | put o c db =>
    obtain ⟨w₁, hput, heq⟩ := Option.map_eq_some_iff.mp h
    obtain ⟨rfl, -⟩ := Prod.mk.inj heq
    obtain ⟨conn, -, rfl⟩ := Option.map_eq_some_iff.mp hput
    exact hupdate o _ (ConnectionPool.putForDatabase_config ..)
  | drop exit c =>
    obtain ⟨w₁, hw₁, heq⟩ := Option.map_eq_some_iff.mp h
    obtain ⟨rfl, -⟩ := Prod.mk.inj heq
    obtain ⟨conn, -, rfl⟩ := Option.map_eq_some_iff.mp hw₁
    rfl
  | talk who via c p limit =>
    obtain ⟨conn, -, hrest⟩ := Option.bind_eq_some_iff.mp h
    obtain ⟨-, hrest⟩ := Option.ite_none_left_eq_some.mp hrest
    obtain ⟨rfl, -⟩ := Prod.mk.inj (Option.some.inj hrest)
    rfl
  | readPool =>
    obtain ⟨ref, -, heq⟩ := Option.map_eq_some_iff.mp h
    obtain ⟨rfl, -⟩ := Prod.mk.inj heq
    rfl
  | panic => cases h
  | _ =>
    obtain ⟨rfl, -⟩ := Prod.mk.inj (Option.some.inj h)
    rfl

/-- One connection of the session is replaced by one of the same opener. -/
theorem opened_set {c' : ConnId} {conn conn₀ conn' : Conn srv} (hheld : w.hold i c' = some conn₀)
    (hopened : conn'.opened = conn₀.opened) (hc : w.conns[c]? = some conn) :
    ∃ conn₁, (w.conns.set c' conn')[c]? = some conn₁ ∧ conn₁.opened = conn.opened := by
  obtain ⟨hconn₀, -⟩ := hold_eq_some.mp hheld
  by_cases heq : c = c'
  · subst heq
    obtain rfl := Option.some.inj (hc.symm.trans hconn₀)
    obtain ⟨hlt, -⟩ := List.getElem?_eq_some_iff.mp hc
    exact ⟨conn', List.getElem?_set_self hlt, hopened⟩
  · exact ⟨conn, (List.getElem?_set_ne (Ne.symm heq)).trans hc, rfl⟩

/-- A connection stays, with the pool that opened it. -/
theorem opened_handle {conn : Conn srv} (hw : w.Coherent) (hc : w.conns[c]? = some conn)
    (h : w.handle i o inp = some (w', r)) :
    ∃ conn', w'.conns[c]? = some conn' ∧ conn'.opened = conn.opened := by
  cases o with
  | get o db =>
    obtain ⟨-, p', evicted, hgot⟩ := get_got hw h
    by_cases hr : r = .ok c
    · refine ⟨w.lent i o inp c, hgot.hit c hr, ?_⟩
      simp only [lent, hc]
    · refine ⟨_, (hgot.miss c hr).trans (congrArg _ hc), ?_⟩
      dsimp only
      split <;> rfl
  | put o c' db =>
    obtain ⟨w₁, hput, heq⟩ := Option.map_eq_some_iff.mp h
    obtain ⟨rfl, -⟩ := Prod.mk.inj heq
    obtain ⟨conn₀, hheld, rfl⟩ := Option.map_eq_some_iff.mp hput
    exact opened_set hheld rfl hc
  | drop exit c' =>
    obtain ⟨w₁, hw₁, heq⟩ := Option.map_eq_some_iff.mp h
    obtain ⟨rfl, -⟩ := Prod.mk.inj heq
    obtain ⟨conn₀, hheld, rfl⟩ := Option.map_eq_some_iff.mp hw₁
    exact opened_set hheld rfl hc
  | talk who via c' p limit =>
    obtain ⟨conn₀, hheld, hrest⟩ := Option.bind_eq_some_iff.mp h
    obtain ⟨-, hrest⟩ := Option.ite_none_left_eq_some.mp hrest
    obtain ⟨rfl, -⟩ := Prod.mk.inj (Option.some.inj hrest)
    exact opened_set hheld (conn₀.talk_frame i p inp).2.2 hc
  | readPool =>
    obtain ⟨ref, -, heq⟩ := Option.map_eq_some_iff.mp h
    obtain ⟨rfl, -⟩ := Prod.mk.inj heq
    exact ⟨conn, hc, rfl⟩
  | panic => cases h
  | _ =>
    obtain ⟨rfl, -⟩ := Prod.mk.inj (Option.some.inj h)
    exact ⟨conn, hc, rfl⟩

theorem server_handle {b : BackendConfig} (hw : w.Coherent) (hb : w.server c = some b)
    (h : w.handle i o inp = some (w', r)) : w'.server c = some b := by
  obtain ⟨conn, hconn, rfl⟩ := Option.map_eq_some_iff.mp hb
  obtain ⟨conn', hconn', hopened⟩ := opened_handle hw hconn h
  rw [server, hconn', Option.map_some, hopened, backendOf_handle h]

theorem rooted_handle (hw : w.Coherent) (hr : w.Rooted) (h : w.handle i o inp = some (w', r))
    (hrefs : w'.refs = w.refs) : w'.Rooted := by
  rw [Rooted, hrefs]
  refine handle_forall hw hr (fun conn hconn => hconn) h ?_
  cases o with
  | get o db =>
    intro c hidle
    obtain ⟨hgen, -⟩ := get_got hw h
    unfold lent
    split
    · rename_i conn hconn
      exact hr conn (List.mem_of_getElem? hconn)
    · rw [(Conn.open_frame ..).2.2]
      exact hgen
  | put o c db =>
    intro conn hc _
    exact hr conn (List.mem_of_getElem? (hold_eq_some.mp hc).1)
  | talk who via c p limit =>
    intro conn hc
    rw [(conn.talk_frame i p inp).2.2]
    exact hr conn (List.mem_of_getElem? (hold_eq_some.mp hc).1)
  | _ => trivial

/-! ## The environment -/

theorem refs_act {e : Admin} (h : w.act e = some w') : w.refs <+: w'.refs := by
  cases e with
  | setFailover gen idx =>
    obtain rfl := Option.some.inj h
    exact List.prefix_refl _
  | setGr gen idx =>
    obtain rfl := Option.some.inj h
    exact List.prefix_refl _
  | reload primary replicas =>
    obtain rfl := Option.some.inj h
    exact List.prefix_append _ _

/-- A reload leaves the pools that are installed alone. -/
theorem backendOf_act {e : Admin} (h : w.act e = some w') {o : Origin} (ho : o.gen < w.refs.length) :
    w'.backendOf o = w.backendOf o := by
  rcases act_pools h o with hp | ⟨hgen, -⟩
  · rw [backendOf, hp]
    rfl
  · exact absurd hgen (Nat.ne_of_lt ho)

theorem rooted_act {e : Admin} (hr : w.Rooted) (h : w.act e = some w') : w'.Rooted := by
  intro conn hmem
  rw [act_conns h] at hmem
  exact Nat.lt_of_lt_of_le (hr conn hmem) (refs_act h).length_le

theorem server_act {b : BackendConfig} {e : Admin} (hr : w.Rooted) (hb : w.server c = some b)
    (h : w.act e = some w') : w'.server c = some b := by
  obtain ⟨conn, hconn, rfl⟩ := Option.map_eq_some_iff.mp hb
  rw [server, act_conns h, hconn, Option.map_some, backendOf_act h (hr conn (List.mem_of_getElem? hconn))]

/-! ## Panics -/

theorem rooted_stop (hr : w.Rooted) : (w.stop i).Rooted := stop_forall hr fun _ h => h

/-- A connection still leads where it led. -/
theorem server_stop : (w.stop i).server c = w.server c := by
  rw [server, server, stop_get]
  rcases w.conns[c]? with _ | conn
  · rfl
  · dsimp only [Option.map_some]
    split <;> rfl

/-! ## What a session has -/

/-- A session talks to a server on a connection it has. -/
theorem server_of_hold {conn : Conn srv} (h : w.hold i c = some conn) :
    w.server c = some (w.backendOf conn.opened) := by
  rw [server, (hold_eq_some.mp h).1, Option.map_some]

end World

/-- A replica of the small system, on a server of its own. -/
def otherServer : PoolConfig :=
  { smallPool with backend := { smallPool.backend with addr := "replica:3306".toList } }

end TurbineProxy
