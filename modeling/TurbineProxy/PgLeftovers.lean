import TurbineProxy.PgReprepare
import TurbineProxy.PgTransactions
import TurbineProxy.RouteOps

/-!
# What pipelines leave on a connection

A named statement lives on the backend connection that its `Parse` came over. A session runs its pipelines
on `stmt_conn`, and inside a transaction on `tx_conn`; before `stmt_conn` goes back to the pool it is
cleaned up, `tx_conn` is not.

`Statements` says what a server is relied upon for. `idle_unnamed` is the property: along the runs on which
no transaction ends with a named statement left on its connection, and no clean-up fails to be written, an
idle connection has none.
-/

namespace TurbineProxy

variable {srv : Server}

/-! ## Named statements -/

/-- The names that the `Parse` messages of a command give to statements. -/
def Packet.parsed : Packet → List Bytes
  | .text _ => []
  | .raw bytes | .silent bytes => (readPipeline bytes).filterMap fun m =>
    match m.act with
    | some (.parse name ..) => if name = [] then none else some name
    | _ => none

/-- A simple query. -/
def Packet.isText : Packet → Bool
  | .text _ => true
  | _ => false

/-- The clean-up of a connection. -/
def deallocateAll : Packet := .text (asciiBytes "DEALLOCATE ALL")

/-- The server may have had no part in an exchange, and the connection does not know. -/
def TalkInput.unanswered (d : TalkInput) : Bool :=
  match d.fault with
  | some (.unsent _) | some (.elapsed _) => true
  | _ => false

/-- What is relied upon: only a `Parse` makes a named statement, and `DEALLOCATE ALL` removes them all,
unless the transaction has failed. -/
structure Statements (srv : Server) where
  /-- the named statements of a connection that pipelines have made -/
  names : srv.Sess → List Bytes
  /-- a new connection has none -/
  fresh : names srv.fresh = []
  /-- commands make those they parse -/
  exec : ∀ sess p choice, names (srv.exec sess p choice).1 ⊆ names sess ++ p.parsed
  /-- the clean-up -/
  deallocate : ∀ sess choice r, (srv.exec sess deallocateAll choice).2 = .postgres r → inTxStatus r.status = false →
    names (srv.exec sess deallocateAll choice).1 = []

namespace Statements

variable (S : Statements srv)

/-- A connection on which a pool, if it keeps the connection, finds no named statement. -/
def Releasable (conn : Conn srv) : Prop :=
  conn.inTransaction = false → conn.healthy = true → S.names conn.sess = []

instance (conn : Conn srv) : Decidable (S.Releasable conn) :=
  inferInstanceAs (Decidable (_ → _ → _))

variable {S} {conn conn' : Conn srv} {i : Nat} {p : Packet} {d : TalkInput}

theorem Releasable.of_nil (h : S.names conn.sess = []) : S.Releasable conn := fun _ _ => h

theorem names_talk (conn : Conn srv) (i : Nat) (p : Packet) (d : TalkInput) :
    S.names (conn.talk i p d).1.sess ⊆ S.names conn.sess ++ p.parsed := by
  have hexec : ∀ b : Bool, S.names (if b then conn.afterExec i p d.choice else conn).sess ⊆
      S.names conn.sess ++ p.parsed := by
    intro b
    cases b
    · exact List.subset_append_left _ _
    · exact S.exec conn.sess p d.choice
  have h := hexec d.executed
  unfold Conn.talk
  dsimp only
  rcases d.fault with _ | f
  · cases p with
    | silent bytes => exact h
    | _ => cases (srv.exec conn.sess _ d.choice).2 <;> exact h
  · cases f with
    | lost e executed => cases (srv.exec conn.sess p d.choice).2 <;> exact h
    | _ => exact h

theorem healthy_talk (h : (conn.talk i p d).1.healthy = true) : conn.healthy = true := by
  revert h
  unfold Conn.talk Conn.noteReply Conn.noteFault Conn.afterExec
  dsimp only
  rcases d.fault with _ | _ | _ | _ <;> cases d.executed <;> rcases p with _ | _ | _ <;>
    dsimp only <;> (try split) <;> simp

/-- Outside a transaction an exchange without a `Parse` leaves nothing. -/
theorem Releasable.talk (h : S.Releasable conn) (htx : conn.inTransaction = false) (hparsed : p.parsed = []) :
    S.Releasable (conn.talk i p d).1 := by
  intro _ hhealthy
  have hsub := names_talk (S := S) conn i p d
  rw [h htx (healthy_talk hhealthy), hparsed] at hsub
  exact List.subset_nil.mp hsub

/-- The clean-up leaves nothing, if it is answered; if its answer is lost, no pool keeps the connection. -/
theorem releasable_deallocate (hsrv : srv.SpeaksPostgres)
    (hfault : d.unanswered = true → S.Releasable (conn.talk i deallocateAll d).1) :
    S.Releasable (conn.talk i deallocateAll d).1 := by
  obtain ⟨r, hr⟩ := hsrv conn.sess deallocateAll d.choice
  obtain ⟨fault, choice⟩ := d
  rcases fault with _ | ⟨e⟩ | ⟨e, executed⟩ | executed
  · intro hidle _
    have htalk : (conn.talk i deallocateAll ⟨none, choice⟩).1 =
        (conn.afterExec i deallocateAll choice).noteReply (.postgres r) := by
      rw [← hr]
      rfl
    rw [htalk] at hidle ⊢
    exact S.deallocate conn.sess choice r hr hidle
  · exact hfault rfl
  · intro _ hhealthy
    have htalk : (conn.talk i deallocateAll ⟨some (.lost e executed), choice⟩).1.healthy = false := by
      change (Conn.noteFault _ (srv.exec conn.sess deallocateAll choice).2 (.lost e executed)).healthy = false
      rw [show (srv.exec conn.sess deallocateAll choice).2 = .postgres r from hr]
      rfl
    rw [htalk] at hhealthy
    cases hhealthy
  · exact hfault rfl

/-! ## The contract -/

/-- What is known of an exchange. A text, whatever it is sent on, a pipeline on `tx_conn` and a message
without a `Parse` on a loan leave a releasable connection releasable; the clean-up makes it so. -/
structure Leaves (S : Statements srv) (via : Via) (p : Packet) (conn conn' : Conn srv) : Prop where
  /-- a loan stays one -/
  lender : conn'.lender = conn.lender
  /-- a text -/
  text : ∀ sql, p = .text sql → S.Releasable conn → S.Releasable conn'
  /-- a pipeline on `tx_conn` -/
  tx : via = .txConn → S.Releasable conn → S.Releasable conn'
  /-- a message on a loan -/
  loan : via = .loan → p.parsed = [] → S.Releasable conn → S.Releasable conn'
  /-- the clean-up -/
  cleanup : via = .stmtConn → p = deallocateAll → S.Releasable conn'

/-- A session returns no connection with a named statement on it. -/
def contract (S : Statements srv) : Protocol Op Res (Hold srv) where
  owes g
    | .put _ c _ => ∃ conn, g c = some conn ∧ S.Releasable conn
    | .drop _ c => ∃ conn, g c = some conn
    | .talk _ _ c _ _ => ∃ conn, g c = some conn
    | _ => True
  step g
    | .get o _, .ok c, g' => g c = none ∧ ∃ conn, g' = Function.update g c (some conn) ∧
        S.Releasable conn ∧ conn.lender = o
    | .put _ c _, _, g' => g' = Function.update g c none
    | .drop _ c, _, g' => g' = Function.update g c none
    | .talk _ via c p _, _, g' => ∃ conn conn', g c = some conn ∧
        g' = Function.update g c (some conn') ∧ S.Leaves via p conn conn'
    | _, _, g' => g' = g

/-- As rules for the routes: every connection they see is releasable. -/
def rules (S : Statements srv) : Rules srv where
  clean := S.Releasable
  after _ _ conn _ conn' := conn'.lender = conn.lender ∧ S.Releasable conn'
  plain _ := True
  sure := False
  home := False
  cur := ⟨0, []⟩
  gr := -1
  failover := -1
  after_lender h := h.1
  after_clean h _ := h.2
  after_plain _ _ := trivial
  agree := PoolRef.agree_nobody

end Statements

/-- An operation of a route that carries texts. -/
def Texts : Op → Prop
  | .talk _ _ _ p _ => ∃ sql, p = .text sql
  | _ => True

section Texts

variable {α : Type} {pool : PoolRef} {rt : Route}

theorem texts_hands {bytes : Bytes} {sqls : List Str} {p : Task α} (h : p.Only (Hands bytes sqls)) :
    p.Only Texts := by
  refine h.mono fun o ho => ?_
  cases o with
  | talk who via c p limit =>
    cases who with
    | client => exact ⟨bytes, ho⟩
    | replay =>
      obtain ⟨sql, -, rfl⟩ := ho
      exact ⟨toUtf8 sql, rfl⟩
    | _ => exact ho.elim
  | _ => trivial

theorem texts_carries {text : Str} {bytes : Bytes} {sqls : List Str} {p : Task α}
    (h : p.Only (Carries text bytes sqls)) : p.Only Texts := by
  refine h.mono fun o ho => ?_
  cases o with
  | talk who via c p limit =>
    cases who with
    | client => exact ⟨bytes, ho⟩
    | replay =>
      obtain ⟨sql, -, rfl⟩ := ho
      exact ⟨toUtf8 sql, rfl⟩
    | _ => exact ho.elim
  | _ => trivial

theorem texts_dispatch {text : Str} {bytes : Bytes} {timeoutMs : Nat} :
    (dispatch pool text bytes timeoutMs rt).Only Texts := by
  refine ⟨trivial, fun m => ?_⟩
  have hsplit : ∀ m, (routeSplit pool text bytes timeoutMs m rt).Only Texts := fun _ =>
    texts_carries routeSplit_carries
  rcases m with _ | r
  · exact hsplit none
  · refine Prog.only_ite (Prog.only_done _) ?_
    split
    · exact texts_carries (routeHostgroup_carries : Prog.Only (Carries _ _ []) _)
    · exact hsplit _

/-- A query reaches the backends as text. -/
theorem texts_routeQuery {sql : Bytes} {txConn : Option ConnId} {inTransaction : Bool} :
    (routeQueryInner sql txConn inTransaction rt).Only Texts := by
  refine ⟨trivial, fun pool => Prog.only_ite (texts_hands routeInTx_hands) ?_⟩
  refine ⟨trivial, fun timeoutMs => ⟨trivial, fun outcome => ?_⟩⟩
  refine Prog.only_bind ?_ fun r => Prog.only_done _
  cases outcome with
  | blocked msg => exact Prog.only_done _
  | rewritten s => exact texts_dispatch
  | unchanged => exact texts_dispatch

theorem texts_pool {p : Task α} (h : p.Only OfPool) : p.Only Texts :=
  texts_hands (hands_pool h : p.Only (Hands [] []))

end Texts

/-! ## Routes beside `stmt_conn` -/

/-- The connections of a session without one of them. -/
def hide (x : Option ConnId) (g : Hold srv) : Hold srv := fun c => if x = some c then none else g c

namespace Statements

variable {S : Statements srv} {x : Option ConnId} {g g' : Hold srv} {c : ConnId} {α : Type}

theorem hide_some {conn : Conn srv} : hide x g c = some conn ↔ x ≠ some c ∧ g c = some conn := by
  rw [hide]
  by_cases h : x = some c <;> simp [h]

theorem hide_none : hide none g = g := funext fun _ => if_neg nofun

theorem hide_update (h : x ≠ some c) (v : Option (Conn srv)) :
    hide x (Function.update g c v) = Function.update (hide x g) c v := by
  funext c'
  by_cases hc : c' = c
  · subst hc
    simp [hide, h]
  · simp [hide, Function.update_of_ne hc]

/-- What a route sees of the connections: all but `stmt_conn`, which stays as it was, and all of them
releasable. -/
structure Beside (S : Statements srv) (x : Option ConnId) (g₀ : Hold srv) (h g : Hold srv) : Prop where
  /-- what it sees -/
  hidden : h = hide x g
  /-- is releasable -/
  releasable : ∀ c conn, h c = some conn → S.Releasable conn
  /-- `stmt_conn` is there -/
  held : ∀ c, x = some c → g c = g₀ c ∧ (g₀ c).isSome

theorem Beside.other {g₀ h : Hold srv} (hb : Beside S x g₀ h g) {conn : Conn srv} (hc : h c = some conn) :
    x ≠ some c ∧ g c = some conn := hide_some.mp (hb.hidden ▸ hc)

/-- A change to a connection that the route sees. -/
theorem Beside.update {g₀ h : Hold srv} (hb : Beside S x g₀ h g) (hx : x ≠ some c) (v : Option (Conn srv))
    (hv : ∀ conn, v = some conn → S.Releasable conn) :
    Beside S x g₀ (Function.update h c v) (Function.update g c v) := by
  refine ⟨by rw [hide_update hx, hb.hidden], fun c' conn hc' => ?_, fun c' hc' => ?_⟩
  · by_cases hcc : c' = c
    · subst hcc
      rw [Function.update_self] at hc'
      exact hv conn hc'
    · rw [Function.update_of_ne hcc] at hc'
      exact hb.releasable c' conn hc'
  · have hne : c' ≠ c := by
      rintro rfl
      exact hx hc'
    rw [Function.update_of_ne hne]
    exact hb.held c' hc'

/-- The steps of the contract are steps of the rules, as far as the route sees. -/
theorem Beside.step {g₀ h : Hold srv} (hb : Beside S x g₀ h g) {o : Op} {r : Res o}
    (howes : S.rules.contract.owes h o) (htexts : Texts o) (hstep : S.contract.step g o r g') :
    ∃ h', S.rules.contract.step h o r h' ∧ Beside S x g₀ h' g' := by
  have hsame {g₁ : Hold srv} (h₁ : g₁ = g) : Beside S x g₀ h g₁ := h₁ ▸ hb
  cases o with
  | get o db =>
    rcases r with e | c
    · exact ⟨h, ⟨rfl, id⟩, hsame hstep⟩
    · obtain ⟨hnone, conn, rfl, hclean, hlender⟩ := hstep
      have hx : x ≠ some c := by
        rintro hx
        obtain ⟨hsome, hheld⟩ := hb.held c hx
        rw [← hsome, hnone] at hheld
        cases hheld
      refine ⟨Function.update h c (some conn), ⟨?_, conn, rfl, hclean, hlender⟩,
        hb.update hx _ fun conn' heq => Option.some.inj heq ▸ hclean⟩
      rw [hb.hidden, hide, if_neg hx, hnone]
  | put o c db =>
    obtain ⟨conn, hc, -⟩ := howes
    obtain rfl : g' = Function.update g c none := hstep
    exact ⟨_, rfl, hb.update (hb.other hc).1 none nofun⟩
  | drop exit c =>
    obtain ⟨conn, hc⟩ := howes
    obtain rfl : g' = Function.update g c none := hstep
    exact ⟨_, rfl, hb.update (hb.other hc).1 none nofun⟩
  | talk who via c p limit =>
    obtain ⟨⟨conn, hc⟩, -⟩ := howes
    obtain ⟨hx, hg⟩ := hb.other hc
    obtain ⟨conn₁, conn', hg₁, rfl, hleaves⟩ := hstep
    obtain rfl : conn = conn₁ := Option.some.inj (hg.symm.trans hg₁)
    obtain ⟨sql, rfl⟩ := htexts
    have hclean := hleaves.text sql rfl (hb.releasable c conn hc)
    exact ⟨_, ⟨conn, conn', hc, rfl, hleaves.lender, hclean⟩,
      hb.update hx _ fun conn'' heq => Option.some.inj heq ▸ hclean⟩
  | readPool => exact ⟨h, ⟨rfl, False.elim⟩, hsame hstep⟩
  | loadGr gen => exact ⟨h, ⟨rfl, False.elim⟩, hsame hstep⟩
  | loadFailover gen => exact ⟨h, ⟨rfl, False.elim⟩, hsame hstep⟩
  | primaryAllows gen => exact ⟨h, ⟨rfl, False.elim⟩, hsame hstep⟩
  | cacheGet key =>
    rcases r with _ | b
    · exact ⟨h, rfl, hsame hstep⟩
    · exact ⟨h, ⟨rfl, trivial⟩, hsame hstep⟩
  | _ => exact ⟨h, rfl, hsame hstep⟩

/-- A route that meets the rules on what it sees meets the contract, and leaves `stmt_conn` alone. -/
theorem wp_beside {p : Task α} {Q : α → Hold srv → Prop} (hp : p.wp S.rules.contract Q (hide x g))
    (htexts : p.Only Texts) (hclean : ∀ c conn, hide x g c = some conn → S.Releasable conn)
    (hx : ∀ c, x = some c → (g c).isSome) :
    p.wp S.contract (fun a g' => Q a (hide x g') ∧ ∀ c, x = some c → g' c = g c) g := by
  have hb : Beside S x g (hide x g) g := ⟨rfl, hclean, fun c hc => ⟨rfl, hx c hc⟩⟩
  have hwhere := Prog.wp_where hp htexts
  refine Prog.wp_mono (Prog.wp_transfer (P := ⟨fun g o => S.rules.contract.owes g o ∧ Texts o,
    S.rules.contract.step⟩) S.contract (Beside S x g) (fun h g' o hb' howes => ?_)
    (fun h g' o r g'' hb' howes hstep => hb'.step howes.1 howes.2 hstep) hwhere hb) ?_
  · have howes' : S.rules.contract.owes h o := howes.1
    cases o with
    | put o c db =>
      obtain ⟨conn, hc, htidy⟩ := howes'
      exact ⟨conn, (hb'.other hc).2, htidy.1⟩
    | drop exit c =>
      obtain ⟨conn, hc⟩ := howes'
      exact ⟨conn, (hb'.other hc).2⟩
    | talk who via c p limit =>
      obtain ⟨⟨conn, hc⟩, -⟩ := howes'
      exact ⟨conn, (hb'.other hc).2⟩
    | _ => trivial
  · rintro a g' ⟨h, hQ, hb'⟩
    exact ⟨hb'.hidden ▸ hQ, fun c hc => (hb'.held c hc).1⟩

end Statements

/-! ## Rules for the operations -/

namespace Statements

section Operations

variable {S : Statements srv} {g : Hold srv} {σ : Vars srv} {v : Via} {a : Claim ConnId (Conn srv)} {α : Type}

/-- An operation that has nothing to do with connections. -/
theorem wp_free {o : Op} (howes : S.contract.owes g o) (hstep : ∀ r g', S.contract.step g o r g' → g' = g)
    {Q : Res o → Hold srv → Prop} (hQ : ∀ r, Q r g) : (act o).wp S.contract Q g :=
  ⟨howes, fun r g' hs => (hstep r g' hs).symm ▸ hQ r⟩

theorem wp_talk (hσ : Owns σ g) (hv : σ v = some a) {who : Purpose} {via : Via} {p : Packet} {limit : Option Nat}
    {Q : Except TalkError Response → Hold srv → Prop}
    (hQ : ∀ r g', Owns (Function.update σ v (some ⟨a.key, fun conn' =>
      ∃ conn, a.known conn ∧ S.Leaves via p conn conn'⟩)) g' → Q r g') :
    (act (.talk who via a.key p limit)).wp S.contract Q g := by
  obtain ⟨conn, hconn, hknown⟩ := hσ.held v a hv
  refine ⟨⟨conn, hconn⟩, fun r g' hs => ?_⟩
  obtain ⟨conn₀, conn', hc, rfl, hleaves⟩ := hs
  obtain rfl : conn = conn₀ := Option.some.inj (hconn.symm.trans hc)
  exact hQ r _ (hσ.change hv ⟨conn, hknown, hleaves⟩)

theorem wp_drop (hσ : Owns σ g) (hv : σ v = some a) {exit : Exit} {Q : Unit → Hold srv → Prop}
    (hQ : ∀ g', Owns (Function.update σ v none) g' → Q () g') : (act (.drop exit a.key)).wp S.contract Q g := by
  obtain ⟨conn, hconn, -⟩ := hσ.held v a hv
  exact ⟨⟨conn, hconn⟩, fun r g' hs => (show g' = _ from hs) ▸ hQ _ (hσ.release hv)⟩

/-- What a session owns without `stmt_conn`, as a step sees it that takes the connection out of its variable. -/
theorem owns_hide {x : Option ConnId} (hσ : Owns σ g) (hx : σ .stmtConn = x.map fun c => ⟨c, fun _ => True⟩) :
    Owns (Function.update σ .stmtConn none) (hide x g) := by
  rcases x with _ | c
  · rw [Function.update_eq_self_iff.mpr (by rw [hx]; rfl), hide_none]
    exact hσ
  · convert hσ.release hx using 1
    funext c'
    by_cases hc : c' = c
    · subst hc
      simp [hide]
    · rw [Function.update_of_ne hc, hide, if_neg fun h => hc (Option.some.inj h).symm]

/-- What it owns with it again, once the step is through and the variable is free. -/
theorem owns_unhide {x : Option ConnId} (hσ : Owns σ (hide x g)) (hfree : σ .stmtConn = none)
    (hx : ∀ c, x = some c → (g c).isSome) :
    Owns (Function.update σ .stmtConn (x.map fun c => ⟨c, fun _ => True⟩)) g := by
  rcases x with _ | c
  · rw [Option.map_none, Function.update_eq_self_iff.mpr hfree.symm]
    rwa [hide_none] at hσ
  · obtain ⟨conn, hconn⟩ := Option.isSome_iff_exists.mp (hx c rfl)
    have htake := hσ.take (P := fun _ => True) hfree (by simp [hide] : hide (some c) g c = none) (x := conn) trivial
    have hsame : Function.update (hide (some c) g) c (some conn) = g := by
      funext c'
      by_cases hc : c' = c
      · subst hc
        rw [Function.update_self, hconn]
      · rw [Function.update_of_ne hc, hide, if_neg fun h => hc (Option.some.inj h).symm]
    rwa [hsame] at htake

/-- What the rules say of a program that carries texts, with `stmt_conn` set aside. -/
theorem wp_lift {x : Option ConnId} {p : Task α} (σ' : α → Vars srv) (hσ : Owns σ g)
    (hx : σ .stmtConn = x.map fun c => ⟨c, fun _ => True⟩)
    (hclean : ∀ w b, w ≠ .stmtConn → σ w = some b → ∀ conn, b.known conn → S.Releasable conn)
    (htexts : p.Only Texts) (hfree : ∀ r, σ' r .stmtConn = none)
    (hp : ∀ h, Owns (Function.update σ .stmtConn none) h → p.wp S.rules.contract (fun r h' => Owns (σ' r) h') h) :
    p.wp S.contract (fun r g' => Owns (Function.update (σ' r) .stmtConn (x.map fun c => ⟨c, fun _ => True⟩)) g')
      g := by
  have hhide := owns_hide hσ hx
  have hheld : ∀ c, x = some c → (g c).isSome := by
    rintro c rfl
    obtain ⟨conn, hconn, -⟩ := hσ.held .stmtConn _ hx
    exact Option.isSome_iff_exists.mpr ⟨conn, hconn⟩
  refine Prog.wp_mono (wp_beside (hp _ hhide) htexts (fun c conn hc => ?_) hheld) fun r g' h => ?_
  · obtain ⟨w, b, hw, rfl⟩ := hhide.all c conn hc
    obtain ⟨conn', hconn', hknown⟩ := hhide.held w b hw
    obtain rfl : conn = conn' := Option.some.inj (hc.symm.trans hconn')
    by_cases hws : w = .stmtConn
    · subst hws
      rw [Function.update_self] at hw
      cases hw
    · rw [Function.update_of_ne hws] at hw
      exact hclean w b hws hw conn hknown
  · exact owns_unhide h.1 (hfree r) fun c hc => by rw [h.2 c hc]; exact hheld c hc

end Operations

end Statements

/-! ## A turn of a session -/

/-- What `read_command` promises: the messages of a pipeline are not passed through. -/
def PgEvent.passesNoParse : PgEvent → Prop
  | .other raw => (Packet.raw raw).parsed = []
  | _ => True

namespace PgSession

variable {S : Statements srv} {g : Hold srv} {cfg : PgConfig} {st : PgSession} {c : ConnId}

/-- What is known between two commands: `tx_conn` may be returned, of `stmt_conn` nothing is known. -/
def leftVars (S : Statements srv) (st : PgSession) : Vars srv
  | .txConn => st.txConn.map fun c => ⟨c, S.Releasable⟩
  | .stmtConn => st.stmtConn.map fun c => ⟨c, fun _ => True⟩
  | _ => none

/-- With a connection on loan. -/
def lentVars (S : Statements srv) (st : PgSession) (c : ConnId) : Vars srv :=
  Function.update (st.leftVars S) .loan (some ⟨c, S.Releasable⟩)

theorem leftVars_update_tx (x : Option ConnId) :
    Function.update (st.leftVars S) .txConn (x.map fun c => ⟨c, S.Releasable⟩) =
      leftVars S { st with txConn := x } := by
  funext via
  cases via <;> simp [leftVars, Function.update]

theorem leftVars_update_stmt (x : Option ConnId) :
    Function.update (st.leftVars S) .stmtConn (x.map fun c => ⟨c, fun _ => True⟩) =
      leftVars S { st with stmtConn := x } := by
  funext via
  cases via <;> simp [leftVars, Function.update]

/-- Everything but `stmt_conn` may be returned. -/
theorem leftVars_clean {w : Via} {b : Claim ConnId (Conn srv)} (hw : w ≠ .stmtConn) (hb : st.leftVars S w = some b)
    (conn : Conn srv) (hknown : b.known conn) : S.Releasable conn := by
  cases w with
  | txConn =>
    obtain ⟨c, -, rfl⟩ := Option.map_eq_some_iff.mp hb
    exact hknown
  | stmtConn => exact absurd rfl hw
  | stickyConn => cases hb
  | loan => cases hb

theorem lentVars_clean {w : Via} {b : Claim ConnId (Conn srv)} (hw : w ≠ .stmtConn) (hb : st.lentVars S c w = some b)
    (conn : Conn srv) (hknown : b.known conn) : S.Releasable conn := by
  by_cases hloan : w = .loan
  · subst hloan
    rw [lentVars, Function.update_self] at hb
    obtain rfl := Option.some.inj hb
    exact hknown
  · rw [lentVars, Function.update_of_ne hloan] at hb
    exact leftVars_clean hw hb conn hknown

/-- The variables after a checkout, `stmt_conn` apart. -/
def gotVars (S : Statements srv) (st : PgSession) : Except Str ConnId → Vars srv
  | .ok c => Function.update (st.lentVars S c) .stmtConn none
  | .error _ => Function.update (st.leftVars S) .stmtConn none

/-- A connection that is checked out is owned beside the others, with whatever statements are left on it. -/
theorem left_getPrimary (st : PgSession) (h : Owns (st.leftVars S) g) {pool : PoolRef} {db : Option Str}
    {Q : Except Str ConnId → Hold srv → Prop} (hok : ∀ c g', Owns (st.lentVars S c) g' → Q (.ok c) g')
    (herr : ∀ e g', Owns (st.leftVars S) g' → Q (.error e) g') :
    (pool.getPrimaryForDatabase db).wp S.contract Q g := by
  refine Prog.wp_mono (Statements.wp_lift (gotVars S st) h rfl (fun w b => leftVars_clean)
    (texts_pool PoolRef.only_getPrimary) (fun r => by cases r <;> rfl) fun h hσ => ?_) fun r g' h' => ?_
  · refine wp_getPrimary (R := S.rules) (v := .loan) hσ rfl False.elim (fun c g₁ h₁ => ?_) fun _ e => hσ
    change Owns (Function.update (st.lentVars S c) .stmtConn none) g₁
    rw [lentVars, Function.update_comm (by decide)]
    exact h₁.weaken fun conn htidy => htidy.1
  · rcases r with e | c
    · refine herr e g' ?_
      convert h' using 1
      funext via
      cases via <;> rfl
    · refine hok c g' ?_
      convert h' using 1
      funext via
      cases via <;> rfl

/-- The connection on loan goes back. -/
theorem left_putPrimary (st : PgSession) (h : Owns (st.lentVars S c) g) {db : Option Str} {Q : Unit → Hold srv → Prop}
    (hQ : ∀ g', Owns (st.leftVars S) g' → Q () g') : (putPrimary c db).wp S.contract Q g := by
  refine Prog.wp_mono (Statements.wp_lift (fun _ => Function.update (st.leftVars S) .stmtConn none) h rfl
    (fun w b => lentVars_clean) ?_ (fun _ => rfl) fun h hσ => ?_) fun r g' h' => ?_
  · exact ⟨trivial, fun pool => texts_pool (PoolRef.only_putPrimary c)⟩
  · refine wp_putPrimary (R := S.rules) (v := .loan) (a := ⟨c, S.Releasable⟩) hσ rfl
      (fun conn hknown => ⟨hknown, fun hhome => hhome.elim⟩) fun g₁ h₁ => ?_
    convert h₁ using 1
    funext via
    cases via <;> rfl
  · refine hQ g' ?_
    convert h' using 1
    funext via
    cases via <;> rfl

/-- A query is routed. -/
theorem left_route (st : PgSession) (h : Owns (st.leftVars S) g) {sql : Bytes} {rt : Route}
    {Q : Option ConnId × Except Str Response → Hold srv → Prop}
    (hQ : ∀ x r g', Owns (leftVars S { st with txConn := x }) g' → Q (x, r) g') :
    (routeQueryInner sql st.txConn st.inTransaction rt).wp S.contract Q g := by
  refine Prog.wp_mono (Statements.wp_lift
    (fun r => Function.update (leftVars S { st with txConn := r.1 }) .stmtConn none) h rfl
    (fun w b => leftVars_clean) texts_routeQuery (fun _ => rfl) fun h hσ => ?_) fun r g' h' => ?_
  · have hkeys : ((Function.update (st.leftVars S) .stmtConn none) .txConn).map Claim.key = st.txConn := by
      simp [leftVars, Function.comp_def]
    have hothers (v : Via) : Others S.rules (Function.update (st.leftVars S) .stmtConn none) v := by
      intro w b _ hb conn hknown
      by_cases hw : w = .stmtConn
      · subst hw
        cases hb
      · rw [Function.update_of_ne hw] at hb
        exact leftVars_clean hw hb conn hknown
    rw [← hkeys]
    refine wp_routeQueryInner hσ rfl (hothers _) (fun _ c r g₁ h₁ => ?_) (fun _ hnone _ e => ?_)
      fun _ r g₁ h₁ _ => ?_
    · have h₂ := h₁.weaken fun conn' (hex : Exchanged S.rules .txConn _ _ r conn') =>
        (show S.Releasable conn' by obtain ⟨_, _, _, _, hafter⟩ := hex; exact hafter.2)
      convert h₂ using 1
      funext via
      cases via <;> rfl
    · convert hσ using 1
      funext via
      cases via <;> simp_all [leftVars]
    · rw [hkeys]
      exact h₁
  · refine hQ r.1 r.2 g' ?_
    convert h' using 1
    funext via
    cases via <;> rfl

theorem wp_toClient {r : ToClient} {Q : Bool → Hold srv → Prop} (hQ : ∀ sent, Q sent g) :
    (act (.toClient r)).wp S.contract Q g :=
  Statements.wp_free (o := .toClient r) trivial (fun _ _ h => h) hQ

/-- What is on loan stays there. -/
theorem left_move_tx (h : Owns (st.leftVars S) g) (hc : st.txConn = some c) :
    Owns (lentVars S { st with txConn := none } c) g := by
  have hmove := h.move (v := .txConn) (w := .loan) (a := ⟨c, S.Releasable⟩) (by simp [leftVars, hc]) rfl
  convert hmove using 1
  rw [lentVars, ← leftVars_update_tx none]
  rfl

/-- And is used for the next transaction. -/
theorem left_keep_tx (h : Owns (st.lentVars S c) g) (hc : st.txConn = none) :
    Owns (leftVars S { st with txConn := some c }) g := by
  have hloan : st.lentVars S c .loan = some ⟨c, S.Releasable⟩ := Function.update_self ..
  have hmove := h.move (w := .txConn) hloan (by simp [lentVars, leftVars, hc])
  convert hmove using 1
  funext via
  cases via <;> simp [leftVars, lentVars, Function.update]

/-- Or for pipelines, whatever is on it. -/
theorem left_keep_stmt (st : PgSession) {K : Conn srv → Prop}
    (h : Owns (Function.update (st.leftVars S) .loan (some ⟨c, K⟩)) g) (hc : st.stmtConn = none) : Owns (leftVars S { st with stmtConn := some c }) g := by
  have hweak : Owns (Function.update (st.leftVars S) .loan (some ⟨c, fun _ => True⟩)) g :=
    h.weaken fun _ _ => trivial
  have hmove := hweak.move (w := .stmtConn) (Function.update_self ..) (by simp [leftVars, hc])
  convert hmove using 1
  funext via
  cases via <;> simp [leftVars, Function.update]

theorem left_releaseTx (st : PgSession) (h : Owns (st.leftVars S) g) {Q : PgSession → Hold srv → Prop}
    (hQ : ∀ g', Owns (leftVars S { st with txConn := none }) g' → Q { st with txConn := none } g') :
    st.releaseTx.wp S.contract Q g := by
  rw [releaseTx]
  rcases hc : st.txConn with _ | c
  · have hsame : { st with txConn := none } = st := by rw [← hc]
    rw [hsame] at hQ
    exact hQ g h
  · rw [Prog.wp_bind]
    exact left_putPrimary _ (left_move_tx h hc) hQ

theorem left_dropTx (st : PgSession) (h : Owns (st.leftVars S) g) {Q : PgSession → Hold srv → Prop}
    (hQ : ∀ g', Owns (leftVars S { st with txConn := none }) g' → Q { st with txConn := none } g') :
    st.dropTx.wp S.contract Q g := by
  rw [dropTx]
  rcases hc : st.txConn with _ | c
  · have hsame : { st with txConn := none } = st := by rw [← hc]
    rw [hsame] at hQ
    exact hQ g h
  · rw [Prog.wp_bind]
    refine Statements.wp_drop (v := .txConn) (a := ⟨c, S.Releasable⟩) h (by simp [leftVars, hc]) fun g' h' => hQ g' ?_
    rw [← leftVars_update_tx none]
    exact h'

/-- `stmt_conn` is cleaned up before it goes back. -/
theorem left_releaseStmt (h : Owns (st.leftVars S) g) {Q : PgSession → Hold srv → Prop}
    (hQ : ∀ g', Owns (leftVars S { st with stmtConn := none }) g' → Q { st with stmtConn := none } g') :
    st.releaseStmt.wp S.contract Q g := by
  rw [releaseStmt]
  rcases hc : st.stmtConn with _ | c
  · have hsame : { st with stmtConn := none } = st := by rw [← hc]
    rw [hsame] at hQ
    exact hQ g h
  · have hv : st.leftVars S .stmtConn = some ⟨c, fun _ => True⟩ := by simp [leftVars, hc]
    simp only [executeQuery, Prog.wp_bind]
    refine Statements.wp_talk h hv fun r g₁ h₁ => ?_
    have hclean : Owns (Function.update (st.leftVars S) .stmtConn (some ⟨c, S.Releasable⟩)) g₁ := by
      refine h₁.weaken ?_
      rintro conn' ⟨_, -, hleaves⟩
      exact hleaves.cleanup rfl rfl
    have hmove := hclean.move (v := .stmtConn) (w := .loan) (a := ⟨c, S.Releasable⟩) (Function.update_self ..)
      (by simp [leftVars])
    refine left_putPrimary { st with stmtConn := none } ?_ fun g₂ h₂ => hQ g₂ h₂
    convert hmove using 1
    rw [lentVars, ← leftVars_update_stmt none]
    simp

theorem left_followStatus (h : Owns (st.leftVars S) g) (status : Option UInt8) :
    (st.followStatus status).wp S.contract (fun st' g' => Owns (st'.leftVars S) g') g := by
  unfold followStatus
  rcases status with _ | s
  · exact h
  · exact Prog.wp_ite (fun _ => h) fun _ =>
      left_releaseTx { st with inTransaction := inTxStatus s } h fun g' h' => h'

theorem left_flush (h : Owns (st.leftVars S) g) :
    st.flush.wp S.contract (fun st' g' => Owns (st'.leftVars S) g') g := by
  rw [flush]
  rw [Prog.wp_bind]
  exact wp_toClient fun sent => by cases sent <;> exact h

theorem left_refuse (h : Owns (st.leftVars S) g) {code : String} {msg : Str} :
    (st.refuse code msg).wp S.contract (fun st' g' => Owns (st'.leftVars S) g') g := by
  rw [refuse]
  simp only [Prog.wp_bind]
  exact wp_toClient fun _ => wp_toClient fun _ => h

/-! ### Simple queries -/

theorem left_metaQuery (h : Owns (st.leftVars S) g) {sql : Bytes} :
    (st.metaQuery sql).wp S.contract (fun st' g' => Owns (st'.leftVars S) g') g := by
  rw [metaQuery]
  rw [Prog.wp_bind]
  refine left_route _ h fun x r g₁ h₁ => ?_
  simp only [Prog.wp_bind]
  exact wp_toClient fun _ => wp_toClient fun _ => h₁

theorem left_afterResponse (h : Owns (st.leftVars S) g) {sql : Str} {response : Response} :
    (st.afterResponse cfg sql response).wp S.contract (fun st' g' => Owns (st'.leftVars S) g') g := by
  have hsend : ∀ st' : PgSession, Owns (st'.leftVars S) g →
      (st'.forward response).wp S.contract (fun st' g' => Owns (st'.leftVars S) g') g := by
    intro st' h'
    rw [forward, Prog.wp_bind]
    exact wp_toClient fun sent => Prog.wp_ite (fun _ => left_flush h') fun _ => h'
  rw [afterResponse]
  refine Prog.wp_ite (fun _ => ?_) fun _ => hsend st h
  rw [Prog.wp_bind]
  refine Statements.wp_free (o := .now) trivial (fun _ _ h => h) fun now => ?_
  exact hsend { st with ryowUntil := some (now + cfg.readYourOwnWritesMs) } h

theorem left_afterError (h : Owns (st.leftVars S) g) {e : Str} :
    (st.afterError e).wp S.contract (fun st' g' => Owns (st'.leftVars S) g') g := by
  rw [afterError]
  refine Prog.wp_ite (fun _ => ?_) fun _ => ?_
  · rw [Prog.wp_bind]
    refine left_dropTx { st with inTransaction := false } h fun g₁ h₁ => ?_
    rw [Prog.wp_bind]
    exact wp_toClient fun _ => left_flush h₁
  · rw [Prog.wp_bind]
    exact wp_toClient fun _ => left_flush h

theorem left_ryowActive {Q : Bool → Hold srv → Prop} (hQ : ∀ b, Q b g) : (st.ryowActive cfg).wp S.contract Q g := by
  rw [ryowActive]
  split
  · rw [Prog.wp_bind]
    exact Statements.wp_free (o := .now) trivial (fun _ _ h => h) fun now => hQ _
  · exact hQ false

/-- The last steps of a simple query. -/
theorem left_query_rest (h : Owns (st.leftVars S) g) {sql : Str} {r : Except Str Response} :
    (st.settle cfg sql r).wp S.contract (fun st' g' => Owns (st'.leftVars S) g') g := by
  have houtcome {st' : PgSession} {g' : Hold srv} (h' : Owns (st'.leftVars S) g') :
      (st'.outcome cfg sql r).wp S.contract (fun st'' g'' => Owns (st''.leftVars S) g'') g' := by
    cases r with
    | ok response => exact left_afterResponse h'
    | error e => exact left_afterError h'
  rw [settle]
  refine Prog.wp_ite (fun _ => ?_) fun _ => ?_
  · rw [Prog.wp_bind]
    exact left_releaseTx { st with inTransaction := false } h fun _ => houtcome
  · rw [Prog.wp_bind]
    exact Prog.wp_mono (left_followStatus h _) fun _ _ => houtcome

theorem left_plainQuery (h : Owns (st.leftVars S) g) {sql : Str} {bytes : Bytes} :
    (st.plainQuery cfg sql bytes).wp S.contract (fun st' g' => Owns (st'.leftVars S) g') g := by
  rw [plainQuery, raise_startsTx, Prog.wp_bind]
  refine left_ryowActive fun ryow => ?_
  rw [Prog.wp_bind]
  apply left_route { st with inTransaction := st.inTransaction || startsTx sql }
  · exact h
  · intro x r g₁ h₁
    exact left_query_rest h₁

theorem left_query (h : Owns (st.leftVars S) g) {bytes : Bytes} :
    (st.query cfg bytes).wp S.contract (fun st' g' => Owns (st'.leftVars S) g') g := by
  unfold query
  dsimp only
  split
  · exact left_metaQuery h
  · split
    · exact left_refuse h
    · exact left_plainQuery h

/-! ### Connections on loan -/

/-- An exchange on a loan. -/
theorem left_talk_loan {K K' : Conn srv → Prop} {who : Purpose} {p : Packet} {limit : Option Nat}
    (h : Owns (Function.update (st.leftVars S) .loan (some ⟨c, K⟩)) g)
    (hK : ∀ conn conn', K conn → S.Leaves .loan p conn conn' → K' conn')
    {Q : Except TalkError Response → Hold srv → Prop}
    (hQ : ∀ r g', Owns (Function.update (st.leftVars S) .loan (some ⟨c, K'⟩)) g' → Q r g') :
    (act (.talk who .loan c p limit)).wp S.contract Q g := by
  refine Statements.wp_talk (v := .loan) (a := ⟨c, K⟩) h (Function.update_self ..) fun r g' h' => hQ r g' ?_
  rw [Function.update_idem] at h'
  refine h'.weaken ?_
  rintro conn' ⟨conn, hconn, hleaves⟩
  exact hK conn conn' hconn hleaves

theorem left_replay (h : Owns (st.lentVars S c) g) {sqls : List Str} {Q : Unit → Hold srv → Prop}
    (hQ : ∀ g', Owns (st.lentVars S c) g' → Q () g') : (replaySessionVars .loan c sqls).wp S.contract Q g := by
  induction sqls generalizing g with
  | nil => exact hQ g h
  | cons sql rest ih =>
    simp only [replaySessionVars, executeQuery, Prog.wp_bind]
    exact left_talk_loan h (fun conn conn' hconn hleaves => hleaves.text _ rfl hconn) fun r g' h' => ih h'

/-- Of a loan with pipelines on it nothing is known. -/
theorem left_reprepareAll (h : Owns (Function.update (st.leftVars S) .loan (some ⟨c, fun _ => True⟩)) g)
    {jobs : List Bytes} {Q : Unit → Hold srv → Prop}
    (hQ : ∀ g', Owns (Function.update (st.leftVars S) .loan (some ⟨c, fun _ => True⟩)) g' → Q () g') :
    (reprepareAll c jobs).wp S.contract Q g := by
  induction jobs generalizing g with
  | nil => exact hQ g h
  | cons job rest ih =>
    simp only [reprepareAll, sendRaw, Prog.wp_bind]
    exact left_talk_loan h (fun _ _ _ _ => trivial) fun r g' h' => ih h'

/-! ### The rest of the loop -/

theorem left_start (h : Owns (st.leftVars S) g) :
    (st.start cfg).wp S.contract (fun st' g' => Owns (st'.leftVars S) g') g := by
  rw [start]
  refine Prog.wp_ite (fun _ => h) fun _ => ?_
  rw [Prog.wp_bind]
  refine left_getPrimary { st with phase := .running } h (fun c g₁ h₁ => ?_) fun e g₁ h₁ => h₁
  simp only [Prog.wp_bind]
  exact left_replay h₁ fun g₂ h₂ => left_putPrimary _ h₂ fun g₃ h₃ => h₃

theorem left_cleanup (h : Owns (st.leftVars S) g) :
    st.cleanup.wp S.contract (fun st' g' => Owns (st'.leftVars S) g') g := by
  rw [cleanup]
  rw [Prog.wp_bind]
  refine left_releaseTx _ h fun g₁ h₁ => ?_
  rw [Prog.wp_bind]
  exact left_releaseStmt h₁ fun g₂ h₂ => h₂

/-- Commands that pass through make no statements. -/
theorem left_other (h : Owns (st.leftVars S) g) {raw : Bytes} (hparsed : (Packet.raw raw).parsed = []) :
    (st.other cfg raw).wp S.contract (fun st' g' => Owns (st'.leftVars S) g') g := by
  rw [other]
  rw [Prog.wp_bind]
  refine left_getPrimary _ h (fun c g₁ h₁ => ?_) fun e g₁ h₁ => ?_
  · simp only [sendRaw, Prog.wp_bind]
    refine left_talk_loan h₁ (fun conn conn' hconn hleaves => hleaves.loan rfl hparsed hconn) fun r g₂ h₂ => ?_
    rcases r with e | response
    · simp only [Except.mapError, flush, Prog.wp_bind, Prog.pure_eq, Prog.wp_done]
      refine wp_toClient fun _ => wp_toClient fun sent => ?_
      refine Statements.wp_drop h₂ (Function.update_self ..) fun g₃ h₃ => ?_
      rw [update_none rfl] at h₃
      cases sent <;> exact h₃
    · simp only [Except.mapError, Prog.wp_bind, Prog.pure_eq, Prog.wp_done]
      refine left_putPrimary _ h₂ fun g₃ h₃ => wp_toClient fun sent => ?_
      have hst : Owns ((st.noteStatus response).leftVars S) g₃ := by
        unfold noteStatus
        split
        · exact h₃
        · exact h₃
      exact Prog.wp_ite (fun _ => left_flush hst) fun _ => hst
  · rw [Prog.wp_bind]
    exact Prog.wp_mono (left_refuse h₁) fun st' g' h' => h'

/-! ### Pipelines -/

theorem left_ensure_tx (h : Owns (st.leftVars S) g) {pool : PoolRef} {db : Option Str}
    {Q : Except Str ConnId → Hold srv → Prop}
    (hok : ∀ c g', Owns (leftVars S { st with txConn := some c }) g' → Q (.ok c) g')
    (herr : ∀ e g', Owns (st.leftVars S) g' → Q (.error e) g') :
    (pool.ensure st.txConn db).wp S.contract Q g := by
  rcases hc : st.txConn with _ | c
  · exact left_getPrimary _ h (fun c g' h' => hok c g' (left_keep_tx h' hc)) herr
  · have hsame : { st with txConn := some c } = st := by rw [← hc]
    exact hok c g (hsame ▸ h)

theorem left_ensure_stmt (h : Owns (st.leftVars S) g) {pool : PoolRef} {db : Option Str}
    {Q : Except Str ConnId → Hold srv → Prop}
    (hok : ∀ c g', Owns (leftVars S { st with stmtConn := some c }) g' → Q (.ok c) g')
    (herr : ∀ e g', Owns (st.leftVars S) g' → Q (.error e) g') :
    (pool.ensure st.stmtConn db).wp S.contract Q g := by
  rcases hc : st.stmtConn with _ | c
  · exact left_getPrimary _ h (fun c g' h' => hok c g' (left_keep_stmt _ h' hc)) herr
  · have hsame : { st with stmtConn := some c } = st := by rw [← hc]
    exact hok c g (hsame ▸ h)

/-- A pipeline on `tx_conn` leaves it as `Leaves.tx` says. -/
theorem left_talk_tx (h : Owns (leftVars S { st with txConn := some c }) g) {who : Purpose} {p : Packet}
    {limit : Option Nat} {Q : Except TalkError Response → Hold srv → Prop}
    (hQ : ∀ r g', Owns (leftVars S { st with txConn := some c }) g' → Q r g') :
    (act (.talk who .txConn c p limit)).wp S.contract Q g := by
  refine Statements.wp_talk (v := .txConn) (a := ⟨c, S.Releasable⟩) h rfl fun r g' h' => hQ r g' ?_
  rw [← Function.update_eq_self Via.txConn (leftVars S { st with txConn := some c })]
  exact h'.weaken fun conn' ⟨_, hconn, hleaves⟩ => hleaves.tx rfl hconn

theorem left_talk_stmt (h : Owns (leftVars S { st with stmtConn := some c }) g) {who : Purpose} {p : Packet}
    {limit : Option Nat} {Q : Except TalkError Response → Hold srv → Prop}
    (hQ : ∀ r g', Owns (leftVars S { st with stmtConn := some c }) g' → Q r g') :
    (act (.talk who .stmtConn c p limit)).wp S.contract Q g := by
  refine Statements.wp_talk (v := .stmtConn) (a := ⟨c, fun _ => True⟩) h rfl fun r g' h' => hQ r g' ?_
  rw [← Function.update_eq_self Via.stmtConn (leftVars S { st with stmtConn := some c })]
  exact h'.weaken fun _ _ => trivial

theorem left_routeStmt (st : PgSession) (h : Owns (st.leftVars S) g) {raw : Bytes} {scan : PgPipelineScan}
    {shadow : PgStmtShadow} {db : Option Str} {Q : Option ConnId × Option ConnId × Except Str Response → Hold srv → Prop}
    (hQ : ∀ x y r g', Owns (leftVars S { st with stmtConn := x, txConn := y }) g' → Q (x, y, r) g') :
    (routeStmtPgShadowInner raw scan shadow st.stmtConn st.txConn st.inTransaction db).wp S.contract Q g := by
  rw [routeStmtPgShadowInner]
  rw [Prog.wp_bind]
  refine Statements.wp_free (o := .readPool) trivial (fun _ _ h => h) fun pool => ?_
  rw [Prog.wp_bind]
  by_cases htx : st.inTransaction
  · rw [if_pos htx]
    refine left_ensure_tx h (fun c g₁ h₁ => ?_) fun e g₁ h₁ => hQ _ _ _ g₁ h₁
    simp only [if_pos htx, sendRaw, Prog.wp_bind]
    exact left_talk_tx h₁ fun r g₂ h₂ => hQ _ _ _ g₂ h₂
  · rw [if_neg htx]
    refine left_ensure_stmt h (fun c g₁ h₁ => ?_) fun e g₁ h₁ => hQ _ _ _ g₁ h₁
    simp only [if_neg htx, sendRaw, Prog.wp_bind]
    refine left_talk_stmt h₁ fun r g₂ h₂ => ?_
    rcases r with e | response
    · refine Prog.wp_ite (fun _ => ?_) fun _ => hQ _ _ _ g₂ h₂
      rw [Prog.wp_bind]
      refine left_getPrimary _ h₂ (fun fresh g₃ h₃ => ?_) fun e g₃ h₃ => hQ _ _ _ g₃ h₃
      simp only [Prog.wp_bind]
      refine left_reprepareAll (h₃.weaken fun _ _ => trivial) fun g₄ h₄ => ?_
      refine left_talk_loan h₄ (fun _ _ _ _ => trivial) fun retry g₅ h₅ => ?_
      refine Statements.wp_drop (v := .stmtConn) (a := ⟨c, fun _ => True⟩) h₅ rfl fun g₆ h₆ => hQ _ _ _ g₆ ?_
      refine left_keep_stmt { st with stmtConn := none } (K := fun _ => True) ?_ rfl
      convert h₆ using 1
      funext via
      cases via <;> rfl
    · exact hQ _ _ _ g₂ h₂

/-- The last steps of a pipeline. -/
theorem left_stmt_rest (h : Owns (st.leftVars S) g) {r : Except Str Response} :
    (st.settleStmt r).wp S.contract (fun st' g' => Owns (st'.leftVars S) g') g := by
  rw [settleStmt, Prog.wp_bind]
  refine Prog.wp_mono (left_followStatus h _) fun st₁ g₁ h₁ => ?_
  have hgo : ∀ sent : Bool, (st₁.flushStmt sent).wp S.contract (fun st' g' => Owns (st'.leftVars S) g') g₁ := by
    intro sent
    refine Prog.wp_ite (fun _ => ?_) fun _ => h₁
    rw [Prog.wp_bind]
    refine wp_toClient fun flushed => Prog.wp_ite (fun _ => ?_) fun _ => h₁
    exact Prog.wp_ite (fun _ => left_releaseStmt h₁ fun g₂ h₂ => h₂) fun _ => h₁
  rcases r with e | response
  · simp only [Prog.wp_bind]
    exact wp_toClient fun _ => hgo true
  · exact wp_toClient hgo

theorem left_stmt (h : Owns (st.leftVars S) g) {raw : Bytes} :
    (st.stmt raw).wp S.contract (fun st' g' => Owns (st'.leftVars S) g') g := by
  rw [stmt]
  dsimp only
  rw [Prog.wp_bind]
  apply left_routeStmt { st with shadow := st.shadow.applyScan (scanPgPipeline raw) }
  · exact h
  · intro x y r g₁ h₁
    apply left_stmt_rest
    exact h₁

/-! ### A turn -/

/-- **A session returns no connection with a named statement on it**, as far as the contract goes. -/
theorem left_react {e : PgEvent} {p : Task PgSession} (h : Owns (st.leftVars S) g) (hreact : st.react cfg e = some p)
    (he : e.passesNoParse) : p.wp S.contract (fun st' g' => Owns (st'.leftVars S) g') g := by
  obtain ⟨-, rfl⟩ := react_eq_some hreact
  cases e with
  | start =>
    exact left_start h
  | cleanup =>
    exact left_cleanup h
  | quit =>
    exact h
  | query bytes =>
    exact left_query h
  | stmt raw =>
    exact left_stmt h
  | other raw =>
    exact left_other h he

end PgSession

/-! ## The condition -/

namespace Statements

variable (S : Statements srv)

/-- The exchanges that matter: those over `tx_conn` in a transaction or with a `Parse`, those that end a
transaction elsewhere, and a clean-up that is not answered. -/
def mayLeave (via : Via) (p : Packet) (conn : Conn srv) (d : TalkInput) : Bool :=
  match via with
  | .txConn => conn.inTransaction || !p.parsed.isEmpty
  | .loan => conn.inTransaction && p.parsed.isEmpty
  | _ => if p = deallocateAll then d.unanswered else conn.inTransaction && p.isText

/-- They leave no named statement on a connection that a pool would keep. -/
def tidies (w : World srv) (i : Nat) : (o : Op) → In o → Bool
  | .talk _ via c p _, d => (w.hold i c).all fun conn =>
    !mayLeave via p conn d || decide (S.Releasable (conn.talk i p d).1)
  | _, _ => true

variable {S} {w w' : World srv} {conn : Conn srv} {i : Nat} {via : Via} {p : Packet} {d : TalkInput}

/-- Then an exchange leaves what the contract says. -/
theorem leaves_talk (hsrv : srv.SpeaksPostgres)
    (h : mayLeave via p conn d = true → S.Releasable (conn.talk i p d).1) :
    S.Leaves via p conn (conn.talk i p d).1 := by
  have hdown : p.parsed = [] → (conn.inTransaction = true → S.Releasable (conn.talk i p d).1) →
      S.Releasable conn → S.Releasable (conn.talk i p d).1 := by
    intro hparsed hup hconn
    cases htx : conn.inTransaction with
    | true => exact hup htx
    | false => exact hconn.talk htx hparsed
  have htx : via = .txConn → S.Releasable conn → S.Releasable (conn.talk i p d).1 := by
    rintro rfl hconn
    by_cases hparsed : p.parsed = []
    · exact hdown hparsed (fun htx => h (by simp [mayLeave, htx])) hconn
    · exact h (by simp [mayLeave, hparsed])
  have hloan : via = .loan → p.parsed = [] → S.Releasable conn → S.Releasable (conn.talk i p d).1 := by
    rintro rfl hparsed hconn
    exact hdown hparsed (fun htx => h (by simp [mayLeave, htx, hparsed])) hconn
  have hcleanup : via ≠ .txConn → via ≠ .loan → p = deallocateAll → S.Releasable (conn.talk i p d).1 := by
    rintro hvia hvia' rfl
    refine releasable_deallocate hsrv fun hfault => h ?_
    cases via with
    | txConn => exact absurd rfl hvia
    | loan => exact absurd rfl hvia'
    | _ => simp [mayLeave, hfault]
  refine ⟨(conn.talk_frame i p d).2.1, ?_, htx, hloan, ?_⟩
  · rintro sql rfl hconn
    by_cases hvia : via = .txConn
    · exact htx hvia hconn
    by_cases hvia' : via = .loan
    · exact hloan hvia' rfl hconn
    by_cases hsql : Packet.text sql = deallocateAll
    · exact hcleanup hvia hvia' hsql
    refine hdown rfl (fun hup => h ?_) hconn
    cases via with
    | txConn => exact absurd rfl hvia
    | loan => exact absurd rfl hvia'
    | _ => simp [mayLeave, hsql, hup, Packet.isText]
  · rintro rfl hp
    exact hcleanup nofun nofun hp

/-! ## The world -/

/-- What holds of the world. -/
structure Unnamed (S : Statements srv) (w : World srv) : Prop where
  /-- buckets and connections agree -/
  coherent : w.Coherent
  /-- no idle connection has a named statement -/
  idle : ∀ conn ∈ w.conns, ∀ o, conn.place = .idle o → S.names conn.sess = []

/-- A pool keeps no connection with a named statement, if the session returned it as the contract says. -/
theorem Unnamed.handle {o : Op} {inp : In o} {r : Res o} (hw : S.Unnamed w) (howes : S.contract.owes (w.hold i) o)
    (h : w.handle i o inp = some (w', r)) (hcoh : w'.Coherent) : S.Unnamed w' := by
  have hheld : ∀ {conn : Conn srv} {o'}, conn.place = .held i → conn.place ≠ .idle o' := by
    intro conn o' hplace hidle
    rw [hplace] at hidle
    cases hidle
  have hforall (hspread : w.Spreads (fun conn => ∀ o', conn.place = .idle o' → S.names conn.sess = []) i o inp) :
      S.Unnamed w' :=
    ⟨hcoh, World.handle_forall hw.coherent hw.idle (fun conn _ o' ho' => by cases ho') h hspread⟩
  cases o with
  | get o db => exact hforall fun c _ o' ho' => absurd ho' (hheld (w.lent_place i o inp c).1)
  | put o c db =>
    obtain ⟨w₁, hput, heq⟩ := Option.map_eq_some_iff.mp h
    obtain ⟨rfl, -⟩ := Prod.mk.inj heq
    obtain ⟨conn, hconn, rfl⟩ := Option.map_eq_some_iff.mp hput
    obtain ⟨conn₀, hconn₀, hreleasable⟩ := howes
    obtain rfl : conn = conn₀ := Option.some.inj (hconn.symm.trans hconn₀)
    refine ⟨hcoh, fun conn' hmem o' hplace => ?_⟩
    rcases List.mem_or_eq_of_mem_set hmem with hold | rfl
    · exact hw.idle conn' hold o' hplace
    · -- the pool keeps it only if it is healthy and reports no transaction
      by_cases hkept : ((w.pools o).putForDatabase c conn.inTransaction conn.healthy db inp).2 = true
      · obtain ⟨htx, hhealthy⟩ := ConnectionPool.putForDatabase_kept _ hkept
        exact hreleasable htx hhealthy
      · simp [hkept] at hplace
  | talk who via c p limit =>
    refine hforall fun conn hc o' ho' => ?_
    rw [(conn.talk_frame i p inp).1] at ho'
    exact absurd ho' (hheld (World.hold_eq_some.mp hc).2)
  | _ => exact hforall trivial

/-- What a checkout hands out may be returned: it was idle, or has seen nothing but `init_connect`. -/
theorem Unnamed.lent (hw : S.Unnamed w) {o : Origin} {d : GetDecision} {c : ConnId}
    (hwas : ∀ conn, w.conns[c]? = some conn → conn.place = .idle o) : S.Releasable (w.lent i o d c) := by
  have hopen : ∀ (texts : List Bytes) (conn : Conn srv), S.names conn.sess = [] →
      S.names (texts.foldl (fun c sql => (c.talk i (.text sql) ⟨none, d.choice⟩).1) conn).sess = [] := by
    intro texts
    induction texts with
    | nil => exact fun _ h => h
    | cons sql rest ih =>
      intro conn hconn
      refine ih _ (List.subset_nil.mp ?_)
      have hsub := names_talk (S := S) conn i (.text sql) ⟨none, d.choice⟩
      rwa [hconn] at hsub
  refine .of_nil ?_
  rw [World.lent]
  split
  · rename_i conn hconn
    exact hw.idle conn (List.mem_of_getElem? hconn) o (hwas conn hconn)
  · exact hopen _ _ S.fresh

/-- The world meets the contract. -/
theorem Unnamed.step (hsrv : srv.SpeaksPostgres) {o : Op} {inp : In o} {r : Res o} (hw : S.Unnamed w)
    (htidies : S.tidies w i o inp = true) (h : w.handle i o inp = some (w', r))
    (hlax : World.Kept (Rules.lax srv .none) w w' i o r) : S.contract.step (w.hold i) o r (w'.hold i) := by
  have hstep := hlax.step
  cases o with
  | get o db =>
    obtain ⟨-, p', evicted, hgot⟩ := World.get_got hw.coherent h
    rcases r with e | c
    · exact hstep.1
    · obtain ⟨hnone, hhold, -⟩ := hgot.hold_hit hw.coherent
      exact ⟨hnone i, _, hhold, hw.lent (hgot.was c rfl), (w.lent_place i o inp c).2⟩
  | put o c db => exact hstep
  | drop exit c => exact hstep
  | talk who via c p limit =>
    obtain ⟨conn, hc, hrest⟩ := Option.bind_eq_some_iff.mp h
    simp only [Option.ite_none_left_eq_some, Option.some.injEq, Prod.mk.injEq] at hrest
    obtain ⟨-, hw', -⟩ := hrest
    refine ⟨conn, (conn.talk i p inp).1, hc, ?_, leaves_talk hsrv fun hmay => ?_⟩
    · have hconns : w'.conns = w.conns.set c (conn.talk i p inp).1 := by rw [← hw']
      rw [(World.hold_set hc hconns).1, if_pos ((conn.talk_frame i p inp).1.trans (World.hold_eq_some.mp hc).2)]
    · simpa [tidies, hc, hmay] using htidies
  | readPool => exact hstep.1
  | loadGr gen => exact hstep.1
  | loadFailover gen => exact hstep.1
  | primaryAllows gen => exact hstep.1
  | cacheGet key =>
    rcases r with _ | b
    · exact hstep
    · exact hstep.1
  | _ => exact hstep

/-! ## Runs -/

variable {cfg : ProxyConfig}

variable (S) in
/-- The steps that leave no named statement where no clean-up follows. -/
def leavesNone (s : ProxyState srv) : ProxyEvent → Bool
  | .msg _ m =>
    match m with
    | .pg (.other raw) => (Packet.raw raw).parsed.isEmpty
    | _ => true
  | .op i inp =>
    match s.next i with
    | some o => S.tidies s.world i o (inp o)
    | none => true
  | .env _ | .stop _ => true

variable (S) in
/-- No session returns a connection with a named statement on it. -/
def leftOutline (hsrv : srv.SpeaksPostgres) (cfg : ProxyConfig) :
    Outline (proxy srv cfg) (fun s e => S.leavesNone s e = true) (Hold srv) where
  inv w := S.Unnamed w
  hold := World.hold
  proto _ _ _ := S.contract
  idle _ g st := match st with
    | .mysql st => st.phase = .ended
    | .pg st => Owns (st.leftVars S) g
  msg_ok {s i st m p} _ hi hidle hok hreact := by
    cases st with
    | mysql st =>
      have hended : st.phase = .ended := hidle
      obtain ⟨e, q, rfl, hq, rfl⟩ := Session.react_mysql hreact
      cases e <;> simp [MysqlSession.react, hended] at hq
    | pg st =>
      obtain ⟨e, q, rfl, hq, rfl⟩ := Session.react_pg hreact
      rw [Prog.wp_bind]
      refine Prog.wp_mono (PgSession.left_react hidle hq ?_) fun st' g' h' => h'
      cases e with
      | other raw => exact List.isEmpty_iff.mp hok
      | _ => trivial
  op_ok {s i st m o k inp w' r} hinv hi howes hok hh := by
    have hlax := World.handle_kept (R := Rules.lax srv .none) hinv.coherent
      (fun _ _ _ _ _ => trivial) hh (World.allows_lax (fun h => h.elim) hh)
    have hnext : s.next i = some o := by simp [Sys.next, hi]
    have htidies : S.tidies s.world i o (inp o) = true := by simpa [leavesNone, hnext] using hok
    exact ⟨hinv.handle howes hh hlax.coherent, rfl, rfl, hinv.step hsrv htidies hh hlax, hlax.others⟩
  env_ok {s e w'} hinv _ he := by
    refine ⟨⟨World.act_coherent hinv.coherent he, ?_⟩, World.act_hold he, .inl ⟨rfl, rfl⟩⟩
    rw [World.act_conns he]
    exact hinv.idle
  stop_ok hinv _ hst := by
    cases hst
    refine ⟨⟨World.stop_coherent hinv.coherent, ?_⟩, rfl, rfl, rfl, fun _ hj => World.stop_hold_of_ne hj⟩
    exact World.stop_forall (P := fun conn => ∀ o, conn.place = .idle o → S.names conn.sess = [])
      hinv.idle fun _ _ _ => nofun

theorem leftOutline_start (hsrv : srv.SpeaksPostgres) {primary : PoolConfig} {replicas : List PoolConfig}
    {clients : List Client} (hpg : ∀ client ∈ clients, client.postgres = true) :
    (S.leftOutline hsrv cfg).Good (proxyStart srv primary replicas clients) := by
  refine ⟨⟨World.new_coherent primary replicas, fun conn hmem => by cases hmem⟩, fun i => ?_⟩
  have hnone : (proxyStart srv primary replicas clients).world.hold i = fun _ => none := World.hold_new ..
  change (S.leftOutline hsrv cfg).idle _ ((proxyStart srv primary replicas clients).world.hold i) _
  rw [hnone]
  rcases hi : clients[i]? with _ | client
  · rfl
  · simp only [Option.elim_some, Client.session, hpg client (List.mem_of_getElem? hi), if_true]
    change Owns (PgSession.leftVars S _) _
    convert Owns.nil using 1
    funext via
    cases via <;> rfl

end Statements

/-- **No statement outlives its session**: in every run whose steps leave no named statement where no
clean-up follows, an idle connection has none. -/
theorem idle_unnamed (S : Statements srv) (hsrv : srv.SpeaksPostgres) {cfg : ProxyConfig} {primary : PoolConfig}
    {replicas : List PoolConfig} {clients : List Client} {es : List ProxyEvent} {s : ProxyState srv}
    (hpg : ∀ client ∈ clients, client.postgres = true)
    (hrun : Steps (proxy srv cfg).step (fun s e => S.leavesNone s e = true)
      (proxyStart srv primary replicas clients) es s) :
    ∀ conn ∈ s.world.conns, ∀ o, conn.place = .idle o → S.names conn.sess = [] :=
  ((S.leftOutline hsrv cfg).steps hrun (Statements.leftOutline_start hsrv hpg)).1.idle

/-- A PostgreSQL server that answers every command with its status only, and remembers the names that
pipelines give to statements. -/
def Server.naming : Server where
  Sess := Bool × List Bytes
  fresh := (false, [])
  exec sess p _ :=
    let tx := match p with
      | .text sql => sqlFlag sess.1 (textOf sql)
      | _ => sess.1
    ((tx, if p = deallocateAll then [] else sess.2 ++ p.parsed),
      .postgres ⟨[], noReady_nil, txStatusByte tx⟩)
  txOpen sess := sess.1
  stmt _ _ := none

theorem Server.naming_speaks : Server.naming.SpeaksPostgres := fun _ _ _ => ⟨_, rfl⟩

/-- Its statements. -/
def Statements.naming : Statements .naming where
  names sess := sess.2
  fresh := rfl
  exec sess p _ := by
    change (if p = deallocateAll then [] else sess.2 ++ p.parsed) ⊆ sess.2 ++ p.parsed
    split
    · exact List.nil_subset _
    · exact List.Subset.refl _
  deallocate sess _ _ _ _ := rfl

/-- A pipeline that names a statement. -/
def parseS1 : Bytes := buildPgReparse "s1".toList "SELECT 1".toList

/-- The client names a statement outside a transaction, and goes away. -/
def namedAndGone : List ProxyEvent :=
  turn 0 (.pg .start) 0 (calm 0 none) ++ turn 0 (.pg (.stmt parseS1)) 8 (calm 0 none) ++
    turn 0 (.pg .quit) 0 (calm 0 none) ++ turn 0 (.pg .cleanup) 4 (calm 0 none)

theorem idle_unnamed_namedAndGone :
    ∃ s, run (proxy .naming smallConfig).step (proxyStart .naming smallPool [] [pgClient]) namedAndGone = some s ∧
      ∀ conn ∈ s.world.conns, ∀ o, conn.place = .idle o → Statements.naming.names conn.sess = [] := by
  obtain ⟨s, hs⟩ := Option.isSome_iff_exists.mp (show (run (fun s e =>
    if Statements.naming.leavesNone s e then (proxy .naming smallConfig).step s e else none)
    (proxyStart .naming smallPool [] [pgClient]) namedAndGone).isSome = true by decide +kernel)
  have hsteps := steps_of_checked (fun _ _ h => h) hs
  exact ⟨s, hsteps.run, idle_unnamed .naming Server.naming_speaks (by simp [pgClient]) hsteps⟩

/-- The client opens a transaction, names a statement in it, and commits. -/
def namedInTx : List ProxyEvent :=
  turn 0 (.pg .start) 0 (calm 0 none) ++
  turn 0 (.pg (.query (asciiBytes "BEGIN"))) 8 (calm 0 none) ++
  turn 0 (.pg (.stmt parseS1)) 4 (calm 0 none) ++
  turn 0 (.pg (.query (asciiBytes "COMMIT"))) 7 (calm 0 none)

/-- An idle connection has a named statement. -/
def leftNamed (s : ProxyState .naming) : Bool :=
  s.world.conns.any fun conn => match conn.place with
    | .idle _ => !conn.sess.2.isEmpty
    | _ => false

/-- `tx_conn` goes back with the statement on it. -/
theorem named_in_tx_left : ¬ ∀ (srv : Server) (S : Statements srv) (cfg : ProxyConfig) (primary : PoolConfig)
    (replicas : List PoolConfig) (clients : List Client) (es : List ProxyEvent) (s : ProxyState srv),
    srv.SpeaksPostgres → (∀ client ∈ clients, client.postgres = true) →
    run (proxy srv cfg).step (proxyStart srv primary replicas clients) es = some s →
    ∀ conn ∈ s.world.conns, ∀ o, conn.place = .idle o → S.names conn.sess = [] := by
  intro h
  have hend : ((run (proxy .naming smallConfig).step (proxyStart .naming smallPool [] [pgClient]) namedInTx).map
      leftNamed) = some true := by
    decide +kernel
  obtain ⟨s, hs, hleft⟩ := Option.map_eq_some_iff.mp hend
  obtain ⟨conn, hmem, hconn⟩ := List.any_eq_true.mp hleft
  split at hconn
  · rename_i o hplace
    have hnil : conn.sess.2 = [] := h .naming .naming smallConfig smallPool [] [pgClient] namedInTx s
      Server.naming_speaks (by simp [pgClient]) hs conn hmem o hplace
    rw [hnil] at hconn
    cases hconn
  · cases hconn

end TurbineProxy
