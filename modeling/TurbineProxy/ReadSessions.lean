import TurbineProxy.MysqlSpec
import TurbineProxy.ReadRoutes

/-!
# A session minds its windows

The turns of a MySQL session keep the contract of `ReadLedger.lean`. Between two turns the session is in
order (`Books`): its connections are where they belong, and where the window of a write is open,
`ryow_until` says so.
-/

namespace TurbineProxy

namespace MysqlSession

/-! ## Between two turns -/

/-- The connections in the variables of a session. -/
def slots (st : MysqlSession) : Slots
  | .txConn => st.txConn
  | .stmtConn => st.stmtConn
  | .stickyConn => st.stickyHintConn
  | .loan => none

/-- The session is in order. -/
structure Books (D : Duty) (st : MysqlSession) (ℓ : Ledger) : Prop where
  /-- the connections are where they belong -/
  holds : Holds st.slots ℓ.drawn
  /-- the session knows of the open window -/
  due : D.Timed → ℓ.seen < ℓ.limit → ∃ t, st.ryowUntil = some t ∧ ℓ.limit ≤ t

variable {D : Duty} {ℓ ℓ' : Ledger} {cfg : MysqlConfig} {st st' : MysqlSession} {q : Query}

theorem slots_alike (h : Alike st st') : st'.slots = st.slots := by
  funext via
  cases via
  · exact h.txConn
  · exact h.stmtConn
  · exact h.stickyHintConn
  · rfl

theorem slots_tx (st : MysqlSession) (x : Option ConnId) :
    ({ st with txConn := x } : MysqlSession).slots = Function.update st.slots .txConn x := by
  funext via
  cases via <;> rfl

theorem slots_stmt (st : MysqlSession) (x : Option ConnId) :
    ({ st with stmtConn := x } : MysqlSession).slots = Function.update st.slots .stmtConn x := by
  funext via
  cases via <;> rfl

theorem slots_sticky (st : MysqlSession) (x : Option ConnId) (idx : Option Nat) :
    ({ st with stickyHintConn := x, stickyHintIdx := idx } : MysqlSession).slots =
      Function.update st.slots .stickyConn x := by
  funext via
  cases via <;> rfl

/-- What a statement has borrowed is put back. -/
theorem slots_borrowed (st : MysqlSession) (b : MysqlStmtState) :
    ({ st with shadow := b.shadow, stmtConn := b.stmtConn, txConn := b.txConn } : MysqlSession).slots =
      b.slots st.stickyHintConn := by
  funext via
  cases via <;> rfl

namespace Books

theorem congr (h : st.Books D ℓ) (hslots : st'.slots = st.slots) (hryow : st'.ryowUntil = st.ryowUntil) :
    st'.Books D ℓ := by
  refine ⟨hslots ▸ h.holds, fun htimed hlt => ?_⟩
  rw [hryow]
  exact h.due htimed hlt

/-- What only concerns the connections. -/
theorem move (h : st.Books D ℓ) (hpasses : Passes D False ℓ ℓ') (hholds : Holds st'.slots ℓ'.drawn)
    (hryow : st'.ryowUntil = st.ryowUntil) : st'.Books D ℓ' := by
  refine ⟨hholds, fun htimed hlt => ?_⟩
  have hlimit := (hpasses.limit htimed).resolve_right id
  rw [hpasses.seen, hlimit] at hlt
  rw [hryow, hlimit]
  exact h.due htimed hlt

/-- A route has returned what is `tx_conn` now. -/
theorem returned {x : Option ConnId} (h : st.Books D ℓ)
    (hleaves : Leaves D False (Function.update st.slots .txConn x) ℓ ℓ') :
    ({ st with txConn := x } : MysqlSession).Books D ℓ' := by
  refine h.move hleaves.2 ?_ rfl
  rw [slots_tx]
  exact hleaves.1

/-- The session looks at the clock. -/
theorem look (h : st.Books D ℓ) {now : Nat} (hle : ℓ.seen ≤ now) : st.Books D { ℓ with seen := now } :=
  ⟨h.holds, fun htimed hlt => h.due htimed (Nat.lt_of_le_of_lt hle hlt)⟩

/-- Without a window in its own books, none is open. -/
theorem shut (h : st.Books D ℓ) (hslow : D.fast = false) (hryow : st.ryowUntil = none) : ¬D.Open ℓ := by
  rintro (hfast | ⟨htimed, hlt⟩)
  · cases hslow.symm.trans hfast
  · obtain ⟨t, ht, -⟩ := h.due htimed hlt
    cases hryow.symm.trans ht

end Books

/-! ## Small steps -/

/-- The clock does not run backwards, and no window is longer than the others. -/
theorem minds_now : Minds D (act .now) (fun now ℓ' => ℓ' = { ℓ with seen := now } ∧ ℓ.seen ≤ now ∧
    ℓ.limit ≤ now + D.window) ℓ := minds_act trivial fun _ _ _ _ hexpects => ⟨rfl, hexpects⟩

/-- A turn that goes on after a look at the clock. -/
theorem minds_look {f : Nat → Task MysqlSession} {Q : MysqlSession → Ledger → Prop}
    (hf : ∀ now, ℓ.seen ≤ now → ℓ.limit ≤ now + D.window → Minds D (f now) Q { ℓ with seen := now }) :
    Minds D (act .now >>= f) Q ℓ := by
  refine minds_now.bind ?_
  rintro now _ ⟨rfl, hle, hlimit⟩
  exact hf now hle hlimit

theorem minds_flush (h : st.Books D ℓ) : Minds D st.flush (Books D) ℓ := by
  rw [flush]
  refine (minds_unwritten rfl).next fun sent => ?_
  cases sent
  · exact minds_done (h.congr rfl rfl)
  · exact minds_done h

theorem minds_answer (h : st.Books D ℓ) (r : Except Str Response) : Minds D (st.answer r) (Books D) ℓ := by
  unfold answer
  rcases r with e | response
  · exact (minds_unwritten rfl).next fun _ => minds_flush h
  · refine (minds_unwritten rfl).next fun sent => minds_ite (fun _ => minds_flush h) fun _ => ?_
    exact minds_done (h.congr rfl rfl)

/-! ### Giving connections up -/

theorem minds_putBack {c : ConnId} {db : Option Str} :
    Minds D (putPrimary c db) (fun _ ℓ' => ℓ' = ℓ.anew.free c) ℓ := by
  rw [putPrimary]
  refine minds_readPool.bind ?_
  rintro pool _ ⟨rfl, -⟩
  exact minds_putPrimary

theorem minds_putBackReplica {c : ConnId} {idx : Option Nat} :
    Minds D (putReplica c idx) (fun _ ℓ' => ℓ' = ℓ.anew.free c) ℓ := by
  rw [putReplica]
  refine minds_readPool.bind ?_
  rintro pool _ ⟨rfl, -⟩
  exact minds_giveBack

/-- The session is in order, and nothing has changed but its connections. -/
def Settles (D : Duty) (ℓ : Ledger) (st' : MysqlSession) (ℓ' : Ledger) : Prop :=
  st'.Books D ℓ' ∧ Passes D False ℓ ℓ'

theorem passes_freed {c : ConnId} {opened : Prop} : Passes D opened ℓ (ℓ.anew.free c) :=
  ⟨rfl, rfl, fun _ => .inl rfl⟩

theorem minds_releaseTx (h : st.Books D ℓ) : Minds D st.releaseTx (Settles D ℓ) ℓ := by
  rw [releaseTx]
  split
  · rename_i c hc
    refine minds_putBack.next fun _ => minds_done ⟨h.move passes_freed ?_ rfl, passes_freed⟩
    rw [slots_tx]
    exact h.holds.free .txConn c hc
  · exact minds_done ⟨h, passes_same⟩

theorem minds_releaseStmt (h : st.Books D ℓ) : Minds D st.releaseStmt (Settles D ℓ) ℓ := by
  rw [releaseStmt]
  split
  · rename_i c hc
    refine minds_putBack.next fun _ => minds_done ⟨h.move passes_freed ?_ rfl, passes_freed⟩
    rw [slots_stmt]
    exact h.holds.free .stmtConn c hc
  · exact minds_done ⟨h, passes_same⟩

theorem minds_releaseSticky (h : st.Books D ℓ) : Minds D st.releaseSticky (Settles D ℓ) ℓ := by
  rw [releaseSticky]
  split
  · rename_i c hc
    refine minds_putBackReplica.next fun _ => minds_done ⟨h.move passes_freed ?_ rfl, passes_freed⟩
    rw [slots_sticky]
    exact h.holds.free .stickyConn c hc
  · exact minds_done ⟨h.congr rfl rfl, passes_same⟩

theorem minds_dropTx {exit : Exit} (h : st.Books D ℓ) : Minds D (st.dropTx exit) (Books D) ℓ := by
  rw [dropTx]
  split
  · rename_i c hc
    refine minds_drop.next fun _ => minds_done (h.move passes_free ?_ rfl)
    rw [slots_tx]
    exact h.holds.free .txConn c hc
  · exact minds_done h

theorem minds_killTx {exit : Exit} {msg : Str} (h : st.Books D ℓ) : Minds D (st.killTx exit msg) (Books D) ℓ := by
  rw [killTx]
  refine Minds.bind (minds_dropTx ?_) fun st₁ ℓ₁ h₁ => ?_
  · exact h.congr rfl rfl
  · exact (minds_unwritten rfl).next fun _ => minds_flush h₁

theorem minds_resetConnection (h : st.Books D ℓ) : Minds D st.resetConnection (Books D) ℓ := by
  rw [resetConnection]
  refine Minds.bind (minds_releaseStmt ?_) fun st₁ ℓ₁ h₁ => ?_
  · exact h.congr rfl rfl
  refine (minds_releaseTx h₁.1).bind fun st₂ ℓ₂ h₂ => (minds_releaseSticky h₂.1).bind fun st₃ ℓ₃ h₃ => ?_
  refine (minds_unwritten rfl).next fun sent => ?_
  cases sent
  · exact minds_done (h₃.1.congr rfl rfl)
  · exact minds_done (h₃.1.congr rfl rfl)

theorem minds_cleanup (h : st.Books D ℓ) : Minds D st.cleanup (Books D) ℓ := by
  rw [cleanup]
  refine (minds_releaseTx h).bind fun st₁ ℓ₁ h₁ => (minds_releaseStmt h₁.1).bind fun st₂ ℓ₂ h₂ => ?_
  exact (minds_releaseSticky h₂.1).bind fun st₃ ℓ₃ h₃ => minds_done (h₃.1.congr rfl rfl)

/-! ## After routing -/

theorem ryowUntil_noteGtid (response : Response) : (st.noteGtid cfg q response).ryowUntil = st.ryowUntil := by
  obtain ⟨gtid, heq⟩ := noteGtid_eq cfg st q response
  rw [heq]

theorem ryowUntil_noteChanges (st : MysqlSession) (changes : List (Str × Str)) :
    (st.noteChanges cfg changes).ryowUntil = st.ryowUntil := by
  obtain ⟨sqls, heq⟩ := noteChanges_eq cfg st changes
  rw [heq]

theorem ryowUntil_countError (now : Nat) : (st.countError cfg now).ryowUntil = st.ryowUntil := by
  rw [countError]
  dsimp only
  split <;> rfl

theorem ryowUntil_noteSessionState (sql : Str) : (st.noteSessionState sql).ryowUntil = st.ryowUntil := by
  unfold noteSessionState
  dsimp only
  split <;> split <;> rfl

theorem minds_finishQuery (h : st.Books D ℓ) : Minds D (st.finishQuery q) (Books D) ℓ := by
  rw [finishQuery]
  refine minds_ite (fun _ => ?_) fun _ => minds_flush h
  refine Minds.bind (minds_releaseTx ?_) fun st₁ ℓ₁ h₁ => minds_flush h₁.1
  exact h.congr rfl rfl

theorem minds_afterResponse {response : Response} (h : st.Books D ℓ) :
    Minds D (st.afterResponse cfg q response) (Books D) ℓ := by
  have hnoted (st₁ : MysqlSession) (h₁ : st₁.Books D ℓ) :
      ((st₁.noteGtid cfg q response).noteChanges cfg response.sessionChanges).Books D ℓ := by
    refine h₁.congr (slots_alike ?_) ?_
    · exact (alike_noteGtid st₁ q response).trans (alike_noteChanges _ _)
    · rw [ryowUntil_noteChanges, ryowUntil_noteGtid]
  have hready := hnoted { st with consecutiveErrors := 0, errorWindowStart := none } (h.congr rfl rfl)
  rw [afterResponse]
  refine (minds_unwritten rfl).next fun sent => ?_
  exact minds_ite (fun _ => minds_finishQuery hready) fun _ => minds_done (hready.congr rfl rfl)

theorem minds_afterError {e : Str} (h : st.Books D ℓ) : Minds D (st.afterError cfg q e) (Books D) ℓ := by
  have hlast (st₁ : MysqlSession) (ℓ₁ : Ledger) (h₁ : st₁.Books D ℓ₁) :
      Minds D (st₁.tellError cfg q e) (Books D) ℓ₁ := by
    refine (minds_unwritten rfl).next fun _ => minds_ite (fun _ => ?_) fun _ => minds_finishQuery h₁
    refine minds_look fun now hle _ => ?_
    have hcounted : (st₁.countError cfg now).Books D { ℓ₁ with seen := now } :=
      (h₁.look hle).congr (slots_alike (alike_countError cfg st₁ now)) (ryowUntil_countError now)
    refine minds_ite (fun _ => ?_) fun _ => minds_finishQuery hcounted
    exact (minds_unwritten rfl).next fun _ => minds_done (hcounted.congr rfl rfl)
  rw [afterError]
  refine minds_ite (fun _ => ?_) fun _ => hlast st ℓ h
  refine Minds.bind (minds_dropTx ?_) fun st₁ ℓ₁ h₁ => hlast st₁ ℓ₁ h₁
  exact h.congr rfl rfl

theorem minds_touchTx (h : st.Books D ℓ) : Minds D st.touchTx (Books D) ℓ := by
  rw [touchTx]
  refine minds_ite (fun _ => ?_) fun _ => minds_done h
  exact minds_look fun now hle _ => minds_done ((h.look hle).congr rfl rfl)

/-- What the session knows of a query. -/
structure Query.Sound (q : Query) : Prop where
  /-- the intent is that of the bytes -/
  intent : q.intent = classify (textOf q.bytes)
  /-- what counts as a read is one -/
  read : q.wasRead = true → q.intent = .read

/-- Before the outcome of a query is noted: its answer may have opened a window. -/
structure Answered (D : Duty) (st : MysqlSession) (q : Query) (r : Except Str Response) (ℓ : Ledger) : Prop where
  /-- the connections are where they belong -/
  holds : Holds st.slots ℓ.drawn
  /-- the session knows of the open window, or is about to -/
  due : D.Timed → ℓ.seen < ℓ.limit → (∃ t, st.ryowUntil = some t ∧ ℓ.limit ≤ t) ∨
    r.isOk = true ∧ q.intent = .write

variable (hwindow : D.window = cfg.readYourOwnWritesMs)

include hwindow

/-- The answer to a Write opens the window in the books of the session. -/
theorem minds_openRyow {r : Except Str Response} (hq : q.Sound) (h : st.Answered D q r ℓ) :
    Minds D (st.openRyow cfg q r) (Books D) ℓ := by
  rw [openRyow]
  refine minds_ite (fun _ => ?_) fun hnot => minds_done ⟨h.holds, fun htimed hlt => ?_⟩
  · -- the clock is read after the answer: the session's window ends no earlier than the one of the ledger
    refine minds_look fun now hle hlimit => minds_done ⟨h.holds, fun _ _ => ⟨_, rfl, ?_⟩⟩
    rw [← hwindow]
    exact hlimit
  · rcases h.due htimed hlt with hdue | ⟨hok, hwrite⟩
    · exact hdue
    refine absurd ?_ hnot
    have hread : q.wasRead = false := by
      rw [Bool.eq_false_iff]
      intro hread
      cases hwrite.symm.trans (hq.read hread)
    have hpos : 0 < cfg.readYourOwnWritesMs := hwindow ▸ htimed.2
    simp [hok, hread, hwrite, hpos]

theorem minds_afterRoute {r : Except Str Response} (hq : q.Sound) (h : st.Answered D q r ℓ) :
    Minds D (st.afterRoute cfg q r) (Books D) ℓ := by
  have hlast (st₁ : MysqlSession) (ℓ₁ : Ledger) (h₁ : st₁.Books D ℓ₁) :
      Minds D (st₁.settle cfg q r) (Books D) ℓ₁ := by
    rcases r with e | response
    · exact minds_afterError h₁
    · exact minds_afterResponse h₁
  rw [afterRoute]
  refine (minds_openRyow hwindow hq h).bind fun st₁ ℓ₁ h₁ => ?_
  exact (minds_touchTx h₁).bind fun st₂ ℓ₂ h₂ => hlast st₂ ℓ₂ h₂

/-! ## Routing -/

theorem minds_routeNormally {ryowActive : Bool} (hq : q.Sound) (h : st.Books D ℓ)
    (hclear : q.wasRead = true → ryowActive = false → Cleared D ℓ) :
    Minds D (st.routeNormally cfg q ryowActive) (Books D) ℓ := by
  rw [routeNormally]
  refine (minds_routeQueryInner st.slots h.holds fun huse => ?_).bind fun r ℓ₁ hr => ?_
  · simp only [Bool.and_eq_true, Bool.not_eq_true'] at huse
    exact hclear huse.1.1 huse.2
  · refine minds_afterRoute hwindow hq ⟨?_, fun htimed hlt => ?_⟩
    · rw [slots_tx]
      exact hr.1
    · rcases hr.2.limit htimed with hsame | ⟨hok, hwrite⟩
      · rw [hr.2.seen, hsame] at hlt
        rw [hsame]
        exact .inl (h.due htimed hlt)
      · exact .inr ⟨hok, hq.intent.trans hwrite⟩

theorem minds_routeHinted {ryowActive : Bool} (hq : q.Sound) (h : st.Books D ℓ) (hread : q.wasRead = true)
    (hclear : q.wasRead = true → ryowActive = false → Cleared D ℓ) :
    Minds D (st.routeHinted cfg q ryowActive) (Books D) ℓ := by
  rw [routeHinted]
  refine (minds_routeStickyQuery st.slots h.holds).bind fun r ℓ₁ hr => ?_
  -- the query is a read: it opens no window
  have hpasses : Passes D False ℓ ℓ₁ := by
    refine hr.2.mono fun hwrite => ?_
    cases (hq.read hread).symm.trans (hq.intent.trans hwrite)
  obtain ⟨x, idx, r⟩ := r
  have hbooks : ({ st with stickyHintConn := x, stickyHintIdx := idx } : MysqlSession).Books D ℓ₁ := by
    refine h.move hpasses ?_ rfl
    rw [slots_sticky]
    exact hr.1
  rcases r with e | response
  swap
  · exact minds_answer hbooks _
  refine minds_ite (fun _ => ?_) fun _ => ?_
  · rcases x with _ | c
    · refine minds_routeNormally hwindow hq (hbooks.congr rfl rfl) fun hread hryow => ?_
      exact (hclear hread hryow).passes hpasses
    · refine minds_drop.next fun _ => ?_
      have hdropped : Passes D False ℓ₁ (ℓ₁.free c) := passes_free
      refine minds_routeNormally hwindow hq (hbooks.move hdropped ?_ rfl) fun hread hryow => ?_
      · have hcleared := hbooks.holds.free .stickyConn c rfl
        rw [slots_sticky, Function.update_idem, ← slots_sticky st none none] at hcleared
        exact hcleared
      · exact ((hclear hread hryow).passes hpasses).passes hdropped
  · exact (minds_unwritten rfl).next fun _ => (minds_unwritten rfl).next fun _ => minds_done hbooks

theorem minds_routeAllowed {ryowActive : Bool} (hq : q.Sound) (h : st.Books D ℓ)
    (hclear : q.wasRead = true → ryowActive = false → Cleared D ℓ) :
    Minds D (st.routeAllowed cfg q ryowActive) (Books D) ℓ := by
  have hroute (st₁ : MysqlSession) (ℓ₁ : Ledger) (h₁ : st₁.Books D ℓ₁) (hpasses : Passes D False ℓ ℓ₁) :
      Minds D (if st₁.stickyHintActive && !st₁.effectiveInTx && q.wasRead then st₁.routeHinted cfg q ryowActive
        else st₁.routeNormally cfg q ryowActive) (Books D) ℓ₁ := by
    have hclear₁ : q.wasRead = true → ryowActive = false → Cleared D ℓ₁ := fun hread hryow =>
      (hclear hread hryow).passes hpasses
    refine minds_ite (fun hhinted => ?_) fun _ => minds_routeNormally hwindow hq h₁ hclear₁
    rw [Bool.and_eq_true] at hhinted
    exact minds_routeHinted hwindow hq h₁ hhinted.2 hclear₁
  rw [routeAllowed]
  refine Minds.bind (R := Settles D ℓ) ?_ fun st₁ ℓ₁ h₁ => hroute st₁ ℓ₁ h₁.1 h₁.2
  rw [applyHint]
  split
  · exact minds_done ⟨h.congr rfl rfl, passes_same⟩
  · refine minds_ite (fun _ => minds_releaseSticky ?_) fun _ => minds_done ⟨h, passes_same⟩
    exact h.congr rfl rfl
  · exact minds_done ⟨h, passes_same⟩

omit hwindow in
/-- A check of the transaction's age at most looks at the clock. -/
theorem minds_limits {p : Task Bool} (hp : p.Only fun o => o = .now) :
    Minds D p (fun _ ℓ' => ∃ now, ℓ.seen ≤ now ∧ ℓ' = { ℓ with seen := now }) ℓ := by
  induction p generalizing ℓ with
  | done a => exact minds_done ⟨ℓ.seen, Nat.le_refl _, rfl⟩
  | op o k ih =>
    obtain ⟨rfl, hk⟩ := hp
    refine minds_now.bind (f := k) ?_
    rintro now _ ⟨rfl, hle, -⟩
    refine (ih now (hk now)).mono ?_
    rintro late _ ⟨now', hle', rfl⟩
    exact ⟨now', Nat.le_trans hle hle', rfl⟩

omit hwindow in
theorem only_overTime : (st.overTime cfg).Only fun o => o = .now := by
  rw [overTime]
  split
  · exact ⟨rfl, fun _ => trivial⟩
  · trivial

omit hwindow in
theorem only_overIdle : (st.overIdle cfg).Only fun o => o = .now := by
  rw [overIdle]
  split
  · exact ⟨rfl, fun _ => trivial⟩
  · trivial

theorem minds_checkedQuery {ryowActive : Bool} (hq : q.Sound) (h : st.Books D ℓ)
    (hclear : q.wasRead = true → ryowActive = false → Cleared D ℓ) :
    Minds D (st.checkedQuery cfg q ryowActive) (Books D) ℓ := by
  rw [checkedQuery]
  refine (minds_limits only_overTime).bind ?_
  rintro late _ ⟨now, hle, rfl⟩
  refine minds_ite (fun _ => minds_killTx (h.look hle)) fun _ => ?_
  refine (minds_limits only_overIdle).bind ?_
  rintro stale _ ⟨now', hle', rfl⟩
  have hlate := (h.look hle).look hle'
  refine minds_ite (fun _ => minds_killTx (hlate.congr rfl rfl)) fun _ => ?_
  split
  · refine (minds_unwritten rfl).next fun _ => (minds_unwritten rfl).next fun sent => minds_done ?_
    split
    · exact hlate.congr rfl rfl
    · exact hlate
  · exact minds_routeAllowed hwindow hq hlate fun hread hryow => ((hclear hread hryow).look hle).look hle'

/-! ## Before routing -/

omit hwindow

theorem minds_expireRyow (h : st.Books D ℓ) :
    Minds D st.expireRyow (fun st' ℓ' => st'.Books D ℓ' ∧ st'.lastWriteGtid = st.lastWriteGtid) ℓ := by
  rw [expireRyow]
  split
  · rename_i limit hlimit
    refine minds_now.bind ?_
    rintro now _ ⟨rfl, hle, -⟩
    refine minds_done ?_
    split
    · rename_i hover
      -- the session forgets a window that is over by its own clock
      refine ⟨⟨h.holds, fun htimed hlt => ?_⟩, rfl⟩
      obtain ⟨t, ht, hdue⟩ := h.due htimed (Nat.lt_of_le_of_lt hle hlt)
      obtain rfl : limit = t := Option.some.inj (hlimit.symm.trans ht)
      exact absurd (Nat.lt_of_lt_of_le hlt hdue) (Nat.not_lt.mpr hover)
    · exact ⟨h.look hle, rfl⟩
  · exact minds_done ⟨h, rfl⟩

/-- The GTID a read has to wait for. -/
def awaits (cfg : MysqlConfig) (st : MysqlSession) (wasRead : Bool) : Option Str :=
  if cfg.gtidAwareRyow && wasRead then st.lastWriteGtid else none

theorem minds_gtidForcesPrimary (h : st.Books D ℓ)
    (hgtid : ∀ gtid, D.gtid = some gtid → st.awaits cfg q.wasRead = some gtid) :
    Minds D (st.gtidForcesPrimary cfg q) (fun g ℓ' => g.1.Books D ℓ' ∧ (g.2 = false →
      ∀ gtid, D.gtid = some gtid → ∃ o, ℓ'.vouched = some (o, toUtf8 (gtidProbe gtid)))) ℓ := by
  rw [gtidForcesPrimary]
  split
  · rename_i gtid hawaits
    refine (minds_checkReplicaHasGtid h.holds).bind fun ready ℓ₁ hr => minds_done ?_
    obtain ⟨hholds, hseen, hlimit, hready⟩ := hr
    have hbooks : st.Books D ℓ₁ := ⟨hholds, fun htimed hlt => by
      rw [hseen, hlimit] at hlt
      rw [hlimit]
      exact h.due htimed hlt⟩
    cases ready
    · exact ⟨hbooks, by rintro ⟨⟩⟩
    · refine ⟨hbooks.congr rfl rfl, fun _ gtid' hgtid' => ?_⟩
      obtain rfl : gtid = gtid' := Option.some.inj (hawaits.symm.trans (hgtid gtid' hgtid'))
      exact hready rfl hgtid'
  · rename_i hnone
    refine minds_done ⟨h, fun _ gtid hgtid' => ?_⟩
    cases hnone.symm.trans (hgtid gtid hgtid')

theorem minds_noteBegin {sql : Str} (h : st.Books D ℓ) :
    Minds D (st.noteBegin sql) (fun st' ℓ' => st'.Books D ℓ' ∧ (Cleared D ℓ → Cleared D ℓ')) ℓ := by
  rw [noteBegin]
  refine minds_ite (fun _ => ?_) fun _ => minds_done ⟨h, id⟩
  refine minds_now.bind ?_
  rintro now _ ⟨rfl, hle, -⟩
  exact minds_done ⟨(h.look hle).congr rfl rfl, fun hclear => hclear.look hle⟩

include hwindow

theorem minds_slowQuery {bytes : Bytes} (hslow : D.fast = false) (h : st.Books D ℓ)
    (hgtid : ∀ gtid, D.gtid = some gtid →
      st.awaits cfg (classify (textOf bytes) == .read && !st.inTransaction) = some gtid) :
    Minds D (st.slowQuery cfg (textOf bytes) bytes) (Books D) ℓ := by
  rw [slowQuery]
  refine (minds_expireRyow h).bind fun st₁ ℓ₁ h₁ => ?_
  refine Minds.bind (minds_gtidForcesPrimary h₁.1 ?_) fun g ℓ₂ hg => ?_
  · unfold awaits at hgtid ⊢
    rw [h₁.2]
    exact hgtid
  have hbooks : (g.1.noteSessionState (textOf bytes)).Books D ℓ₂ :=
    hg.1.congr (slots_alike (alike_noteSessionState _ _)) (ryowUntil_noteSessionState _)
  refine (minds_noteBegin hbooks).bind fun st₂ ℓ₃ h₂ => ?_
  refine minds_checkedQuery hwindow ⟨rfl, fun hread => ?_⟩ h₂.1 fun hread hryow => h₂.2 ?_
  · exact beq_iff_eq.mp (Bool.and_eq_true _ _ ▸ hread).1
  · rw [Bool.or_eq_false_iff, Option.isSome_eq_false_iff, Option.isNone_iff_eq_none] at hryow
    exact ⟨hg.1.shut hslow hryow.1, hg.2 hryow.2⟩

omit hwindow

theorem minds_fastForward {sql : Str} {bytes : Bytes} (hfast : D.fast = true) (h : st.Books D ℓ) :
    Minds D (st.fastForward sql bytes) (Books D) ℓ := by
  rw [fastForward]
  refine (minds_routeFast st.slots h.holds (.inr hfast)).bind fun r ℓ₁ hr => ?_
  have hbooks : ({ st with inTransaction := st.ffFlag sql, txConn := r.1 } : MysqlSession).Books D ℓ₁ :=
    (h.returned hr).congr rfl rfl
  refine minds_ite (fun _ => ?_) fun _ => minds_answer hbooks r.2
  exact (minds_releaseTx hbooks).bind fun st₁ ℓ₂ h₁ => minds_answer h₁.1 r.2

theorem minds_ruleFastForward {bytes : Bytes} (h : st.Books D ℓ) :
    Minds D (st.ruleFastForward bytes) (Books D) ℓ := by
  rw [ruleFastForward]
  refine (minds_routeFast st.slots h.holds (.inl rfl)).bind fun r ℓ₁ hr => ?_
  exact minds_answer (h.returned hr) r.2

/-- A rule for the text is looked up. -/
theorem minds_isFastForwardRule {sql user schema : Str} (h : st.Books D ℓ) :
    Minds D (isFastForwardRule sql user schema) (fun _ ℓ' => st.Books D ℓ') ℓ := by
  rw [isFastForwardRule]
  refine Minds.bind (R := fun _ ℓ' => st.Books D ℓ') ?_ fun m ℓ₁ h₁ => minds_done h₁
  exact minds_act trivial fun _ _ _ _ _ => ⟨h.holds, h.due⟩

include hwindow

theorem minds_query {bytes : Bytes} (hfast : D.fast = cfg.fastForward) (h : st.Books D ℓ)
    (hgtid : ∀ gtid, D.gtid = some gtid →
      st.awaits cfg (classify (textOf bytes) == .read && !st.inTransaction) = some gtid) :
    Minds D (st.query cfg bytes) (Books D) ℓ := by
  rw [query]
  refine minds_ite (fun hff => minds_fastForward (hfast.trans hff) h) fun hff => ?_
  have hslow : D.fast = false := hfast.trans (Bool.not_eq_true _ ▸ hff)
  have hroute (ff : Bool) (ℓ₁ : Ledger) (h₁ : st.Books D ℓ₁) : Minds D (if ff then st.ruleFastForward bytes
      else st.slowQuery cfg (textOf bytes) bytes) (Books D) ℓ₁ :=
    minds_ite (fun _ => minds_ruleFastForward h₁) fun _ => minds_slowQuery hwindow hslow h₁ hgtid
  refine minds_ite (fun _ => hroute false ℓ h) fun _ => ?_
  exact (minds_isFastForwardRule h).bind fun ff ℓ₁ h₁ => hroute ff ℓ₁ h₁

omit hwindow

/-! ## The other commands -/

theorem minds_other {raw : Bytes} (h : st.Books D ℓ) : Minds D (st.other raw) (Books D) ℓ := by
  rw [other]
  exact (minds_routeRaw st.slots h.holds).bind fun r ℓ₁ hr => minds_answer (h.returned hr) r.2

theorem minds_settleStmt {r : Except Str Response} (h : st.Books D ℓ) : Minds D (st.settleStmt r) (Books D) ℓ := by
  have hlast (sent : Bool) : Minds D (st.flushStmt sent) (Books D) ℓ := by
    refine minds_ite (fun _ => ?_) fun _ => minds_done (h.congr rfl rfl)
    refine (minds_unwritten rfl).next fun flushed => minds_ite (fun _ => ?_) fun _ => minds_done (h.congr rfl rfl)
    refine minds_ite (fun _ => ?_) fun _ => minds_done h
    exact (minds_releaseStmt h).mono fun _ _ h => h.1
  cases r with
  | ok response => exact minds_ite (fun _ => hlast true) fun _ => (minds_unwritten rfl).next hlast
  | error e => exact (minds_unwritten rfl).next fun _ => hlast true

theorem minds_stmt {raw : Bytes} (h : st.Books D ℓ) : Minds D (st.stmt raw) (Books D) ℓ := by
  have hholds : Holds ((⟨st.shadow, st.stmtConn, st.txConn⟩ : MysqlStmtState).slots st.stickyHintConn) ℓ.drawn := by
    rw [← slots_borrowed]
    exact h.holds
  rw [stmt]
  refine (minds_routeStmt hholds).bind fun r ℓ₁ hr => minds_settleStmt (h.move hr.2 ?_ rfl)
  rw [slots_borrowed]
  exact hr.1

include hwindow

/-- **A turn keeps the contract**, and leaves the session in order. -/
theorem minds_react {e : MysqlEvent} {p : Task MysqlSession} (hreact : st.react cfg e = some p)
    (hfast : D.fast = cfg.fastForward) (h : st.Books D ℓ)
    (hgtid : ∀ bytes gtid, e = .query bytes → D.gtid = some gtid →
      st.awaits cfg (classify (textOf bytes) == .read && !st.inTransaction) = some gtid) :
    Minds D p (Books D) ℓ := by
  obtain ⟨-, rfl⟩ := react_eq_some hreact
  cases e with
  | cleanup =>
    exact minds_cleanup h
  | quit =>
    exact minds_done (h.congr rfl rfl)
  | ping =>
    refine (minds_unwritten rfl).next fun sent => ?_
    cases sent
    · exact minds_done (h.congr rfl rfl)
    · exact minds_done h
  | resetConnection =>
    exact minds_resetConnection h
  | query bytes =>
    exact minds_query hwindow hfast h fun gtid => hgtid bytes gtid rfl
  | stmt raw =>
    exact minds_stmt h
  | other raw =>
    exact minds_other h

end MysqlSession

end TurbineProxy
