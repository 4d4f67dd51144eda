import TurbineProxy.ReadLedger

/-!
# The routes keep to the primary

Function by function, the routes of `Router.lean` keep the contract of `ReadLedger.lean`. A connection on
loan is back when its route ends (`Replied`); the ones a session goes on holding are in its `Slots`, and
those of transactions and prepared statements are primaries (`Holds`).
-/

namespace TurbineProxy

/-! ## Exchanges -/

section Exchanges

variable {D : Duty} {ℓ ℓ' : Ledger} {via : Via} {c : ConnId} {α : Type} {Q : α → Ledger → Prop}

/-- What an exchange for the client does to the ledger: an answer to a Write opens the window. -/
def Replied (D : Duty) (via : Via) (p : Packet) (ℓ : Ledger) (r : Except Str Response) (ℓ' : Ledger) : Prop :=
  match r with
  | .ok _ => ∃ limit, ℓ' = { ℓ with limit } ∧ (D.Timed → limit = ℓ.limit ∨ ℓ.opens via p = true)
  | .error _ => ℓ' = ℓ

theorem replied_error {p : Packet} {e : Str} : Replied D via p ℓ (.error e) ℓ := rfl

theorem replied_same {p : Packet} {r : Except Str Response} : Replied D via p ℓ r ℓ := by
  rcases r with e | response
  · exact rfl
  · exact ⟨ℓ.limit, rfl, fun _ => .inl rfl⟩

/-- A connection on loan goes back. -/
theorem Replied.returned {p : Packet} {d : Drawn} {r : Except Str Response}
    (h : Replied D via p (ℓ.hold c d) r ℓ') (hnone : ℓ.drawn c = none) : Replied D via p ℓ r (ℓ'.free c) := by
  rcases r with e | response
  · obtain rfl : ℓ' = ℓ.hold c d := h
    exact ℓ.free_hold hnone d
  · obtain ⟨limit, rfl, hlimit⟩ := h
    exact ⟨limit, congrArg (fun ℓ : Ledger => { ℓ with limit }) (ℓ.free_hold hnone d), hlimit⟩

/-- One exchange for the client. -/
theorem minds_talk {p : Packet} {limit : Option Nat} (howes : D.owes ℓ (.talk .client via c p none))
    {Q : Except TalkError Response → Ledger → Prop}
    (hok : ∀ response ℓ', Replied D via p ℓ (.ok response) ℓ' → Q (.ok response) ℓ')
    (herr : ∀ e, Q (.error e) ℓ) : Minds D (act (.talk .client via c p limit)) Q ℓ := by
  refine minds_act howes fun named t r _ _ => ?_
  rcases r with e | response
  · exact herr e
  · refine hok response _ ?_
    change Replied D via p ℓ (.ok response) (ℓ.answered D.window t via p response)
    rw [Ledger.answered]
    by_cases hopens : (ℓ.opens via p && !response.isError) = true
    · rw [if_pos hopens]
      rw [Bool.and_eq_true] at hopens
      exact ⟨_, rfl, fun _ => .inr hopens.1⟩
    · rw [if_neg hopens]
      exact replied_same

theorem minds_exchange {p : Packet} (howes : D.owes ℓ (.talk .client via c p none)) :
    Minds D (do
      let r : Except TalkError Response ← act (.talk .client via c p none)
      pure (r.mapError TalkError.text)) (Replied D via p ℓ) ℓ := by
  refine (minds_talk howes (Q := fun r ℓ' => Replied D via p ℓ (r.mapError TalkError.text) ℓ')
    (fun response ℓ' h => h) fun e => rfl).bind fun r ℓ' h => ?_
  exact minds_done h

theorem minds_executeQuery {sql : Bytes} (howes : D.owes ℓ (.talk .client via c (.text sql) none)) :
    Minds D (executeQuery .client via c sql) (Replied D via (.text sql) ℓ) ℓ := minds_exchange howes

theorem minds_sendRaw {packet : Bytes} (howes : D.owes ℓ (.talk .client via c (.raw packet) none)) :
    Minds D (sendRaw .client via c packet) (Replied D via (.raw packet) ℓ) ℓ := minds_exchange howes

theorem minds_sendRawNoResponse {packet : Bytes} (howes : D.owes ℓ (.talk .client via c (.silent packet) none)) :
    Minds D (sendRawNoResponse via c packet) (Replied D via (.silent packet) ℓ) ℓ := minds_exchange howes

theorem minds_execute {sql : Bytes} {timeoutMs : Nat} (howes : D.owes ℓ (.talk .client .loan c (.text sql) none)) :
    Minds D (execute c sql timeoutMs) (Replied D .loan (.text sql) ℓ) ℓ := by
  refine minds_ite (fun _ => ?_) fun _ => minds_executeQuery howes
  rw [executeTimed]
  refine (minds_talk howes (Q := fun r ℓ' => Replied D .loan (.text sql) ℓ (r.mapError TalkError.text) ℓ')
    (fun response ℓ' h => h) fun e => rfl).bind fun r ℓ' h => ?_
  rcases r with (e | _) | response
  · exact minds_done h
  · refine (minds_unwritten rfl).next fun _ => ?_
    exact minds_done h
  · exact minds_done h

/-- Statements that are not the client's. -/
theorem minds_replay (sqls : List Str) : Minds D (replaySessionVars via c sqls) (fun _ ℓ' => ℓ' = ℓ) ℓ := by
  induction sqls with
  | nil => exact minds_done rfl
  | cons sql rest ih =>
    unfold replaySessionVars executeQuery
    refine ((minds_unwritten rfl).bind fun r ℓ' h => minds_done h : Minds D _ (fun _ ℓ' => ℓ' = ℓ) ℓ).next fun _ => ?_
    exact ih

/-- What a route does to the ledger besides the connections: the window of a Write opens, where `opened`. -/
structure Passes (D : Duty) (opened : Prop) (ℓ ℓ' : Ledger) : Prop where
  /-- the session did not look at the clock -/
  seen : ℓ'.seen = ℓ.seen
  /-- it asked for no GTID -/
  vouched : ℓ'.vouched = ℓ.vouched
  /-- the window -/
  limit : D.Timed → ℓ'.limit = ℓ.limit ∨ opened

variable {opened : Prop}

theorem passes_same : Passes D opened ℓ ℓ := ⟨rfl, rfl, fun _ => .inl rfl⟩

theorem passes_free : Passes D opened ℓ (ℓ.free c) := ⟨rfl, rfl, fun _ => .inl rfl⟩

/-- A connection takes another one's place. -/
theorem passes_moved {c' : ConnId} {d : Drawn} : Passes D opened ℓ ((ℓ.hold c d).free c') :=
  ⟨rfl, rfl, fun _ => .inl rfl⟩

theorem Passes.mono {opened' : Prop} (h : Passes D opened ℓ ℓ') (hopened : opened → opened') :
    Passes D opened' ℓ ℓ' := ⟨h.seen, h.vouched, fun htimed => (h.limit htimed).imp id hopened⟩

theorem Replied.passes {p : Packet} {r : Except Str Response} (h : Replied D via p ℓ r ℓ') :
    Passes D (r.isOk = true ∧ ℓ.opens via p = true) ℓ ℓ' := by
  rcases r with e | response
  · obtain rfl : ℓ' = ℓ := h
    exact passes_same
  · obtain ⟨limit, rfl, hlimit⟩ := h
    exact ⟨rfl, rfl, fun htimed => (hlimit htimed).imp id fun hopens => ⟨rfl, hopens⟩⟩

theorem Replied.drawn {p : Packet} {r : Except Str Response} (h : Replied D via p ℓ r ℓ') :
    ℓ'.drawn = ℓ.drawn := by
  rcases r with e | response
  · rw [(h : ℓ' = ℓ)]
  · obtain ⟨limit, rfl, -⟩ := h
    rfl

/-- The primary may be sent anything. -/
theorem owes_primary {d : Drawn} {p : Packet} {limit : Option Nat} (hd : d.primary = true) :
    D.owes (ℓ.hold c d) (.talk .client via c p limit) :=
  .inr (.inr ⟨d, Function.update_self .., .inl hd⟩)

end Exchanges

/-! ## Autocommit -/

section Autocommit

variable {D : Duty} {ℓ : Ledger} {pool : PoolRef} {text : Str} {bytes : Bytes} {timeoutMs : Nat} {rt : Route}

/-- The replicas of a pool may be read. -/
structure MayRead (D : Duty) (pool : PoolRef) (ℓ : Ledger) : Prop where
  /-- the window is not open -/
  shut : ¬D.Open ℓ
  /-- they have confirmed the GTID -/
  vouched : ∀ gtid, D.gtid = some gtid → ∀ i < pool.replicas.length,
    ℓ.vouched = some (pool.origin (.replica i), toUtf8 (gtidProbe gtid))

/-- What is drawn for a read that may go to the replicas, or that a rule has placed, may be sent the query. -/
theorem owes_read {c : ConnId} {d : Drawn} {p : Packet} {limit : Option Nat}
    (hread : ℓ.ruled = true ∨ MayRead D pool ℓ)
    (hd : d.primary = true ∨ ∃ i < pool.replicas.length, d.origin = pool.origin (.replica i)) :
    D.owes (ℓ.hold c d) (.talk .client .loan c p limit) := by
  refine .inr (hread.imp id fun h => ⟨d, Function.update_self .., hd.imp id ?_⟩)
  rintro ⟨i, hi, horigin⟩
  exact ⟨h.shut, fun gtid hgtid => horigin ▸ h.vouched gtid hgtid i hi⟩

theorem minds_retryPrimary : Minds D (retryPrimary pool bytes rt) (Replied D .loan (.text bytes) ℓ) ℓ := by
  rw [retryPrimary]
  refine minds_getPrimary.bind fun again ℓ₁ h => ?_
  rcases again with e | fresh
  · exact minds_done h
  obtain ⟨hnone, d, hd, rfl⟩ := h
  refine (minds_replay _).next fun _ => ?_
  refine (minds_executeQuery (owes_primary hd)).bind fun r ℓ₂ h => ?_
  rcases r with e | response
  · refine minds_drop.next fun _ => ?_
    exact minds_done (h.returned hnone)
  · refine (minds_unwritten rfl).next fun _ => ?_
    refine minds_putPrimary.next fun _ => ?_
    exact minds_done (h.returned hnone)

theorem minds_fireMirror {m : Option RuleMatch} : Minds D (fireMirror m text) (fun _ ℓ' => ℓ' = ℓ) ℓ := by
  rw [fireMirror]
  split
  · exact minds_unwritten rfl
  · exact minds_done rfl

theorem minds_routePrimary {m : Option RuleMatch} :
    Minds D (routePrimary pool text bytes timeoutMs m rt) (Replied D .loan (.text bytes) ℓ) ℓ := by
  rw [routePrimary]
  refine minds_getPrimary.bind fun got ℓ₁ h => ?_
  rcases got with e | c
  · exact minds_done h
  obtain ⟨hnone, d, hd, rfl⟩ := h
  refine (minds_replay _).next fun _ => ?_
  refine (minds_execute (owes_primary hd)).bind fun r ℓ₂ h => ?_
  rcases r with e | response
  · refine (minds_unwritten rfl).next fun _ => ?_
    refine minds_ite (fun _ => ?_) fun _ => ?_
    · refine minds_drop.next fun _ => ?_
      rw [(h.returned hnone : _ = ℓ)]
      exact minds_retryPrimary
    · refine minds_drop.next fun _ => ?_
      exact minds_done (h.returned hnone)
  · refine (minds_unwritten rfl).next fun _ => ?_
    refine minds_putPrimary.next fun _ => ?_
    have hlast : Minds D (do
        fireMirror m text
        pure (.ok response)) (Replied D .loan (.text bytes) ℓ) (ℓ₂.free c) :=
      minds_fireMirror.next fun _ => minds_done (h.returned hnone)
    exact minds_ite (fun _ => hlast) fun _ => (minds_unwritten rfl).next fun _ => hlast

theorem minds_retryReplica {c : ConnId} {idx : Option Nat} {e : Str} {ℓ' : Ledger}
    (hread : ℓ.ruled = true ∨ MayRead D pool ℓ) (hback : ℓ'.free c = ℓ) :
    Minds D (retryReplica pool bytes rt c idx e) (Replied D .loan (.text bytes) ℓ) ℓ' := by
  rw [retryReplica]
  refine minds_recordReplica.next fun _ => ?_
  refine minds_ite (fun _ => ?_) fun _ => ?_
  · refine minds_drop.next fun _ => ?_
    rw [hback]
    -- the connection was lost: the same draw once more
    refine minds_getReplica.bind fun again ℓ₁ h => ?_
    rcases again with e | ⟨fresh, freshIdx⟩
    · exact minds_done h
    obtain ⟨hnone, d, hd, rfl⟩ := h
    refine (minds_replay _).next fun _ => ?_
    refine (minds_executeQuery (owes_read hread hd)).bind fun r ℓ₂ h => ?_
    rcases r with e | response
    · refine minds_drop.next fun _ => ?_
      exact minds_done (h.returned hnone)
    · refine minds_recordReplica.next fun _ => ?_
      refine minds_giveBack.next fun _ => ?_
      exact minds_done (h.returned hnone)
  · refine minds_drop.next fun _ => ?_
    exact minds_done hback

theorem minds_routeReplica {cacheAllowed : Bool} {m : Option RuleMatch}
    (hread : ℓ.ruled = true ∨ MayRead D pool ℓ) :
    Minds D (routeReplica pool text bytes timeoutMs cacheAllowed m rt) (Replied D .loan (.text bytes) ℓ) ℓ := by
  rw [routeReplica]
  refine minds_getReplica.bind fun got ℓ₁ h => ?_
  rcases got with e | ⟨c, idx⟩
  · exact minds_done h
  obtain ⟨hnone, d, hd, rfl⟩ := h
  refine (minds_replay _).next fun _ => ?_
  refine (minds_execute (owes_read hread hd)).bind fun r ℓ₂ h => ?_
  rcases r with e | response
  · exact minds_retryReplica hread (h.returned hnone)
  · refine minds_recordReplica.next fun _ => ?_
    refine minds_giveBack.next fun _ => ?_
    have hlast : Minds D (do
        fireMirror m text
        pure (.ok response)) (Replied D .loan (.text bytes) ℓ) (ℓ₂.free c) :=
      minds_fireMirror.next fun _ => minds_done (h.returned hnone)
    exact minds_ite (fun _ => (minds_unwritten rfl).next fun _ => hlast) fun _ => hlast

/-- The cache is only asked where replicas may be read. -/
theorem minds_cacheGet {key : Str} (h : D.Open ℓ → ℓ.ruled = true) :
    Minds D (act (.cacheGet key)) (fun _ ℓ' => ℓ' = ℓ) ℓ := minds_act h fun _ _ _ _ _ => rfl

theorem minds_routeHostgroup {hg ttl : Nat} (hplaced : ℓ.ruled = true ∨ hg = 0 ∧ ttl = 0) :
    Minds D (routeHostgroup pool hg ttl text bytes timeoutMs rt) (Replied D .loan (.text bytes) ℓ) ℓ := by
  -- hostgroup 0 is the primary; any other has been named by the rule
  have hdrawn : Minds D (pool.getHostgroupForDatabase hg rt.database) (fun r ℓ' =>
      Drew (fun d => ℓ.ruled = true ∧ (d.primary = true ∨ ∃ i < pool.replicas.length,
        d.origin = pool.origin (.replica i)) ∨ d.primary = true) ℓ (r.map Prod.fst) ℓ') ℓ := by
    rcases hplaced with hruled | ⟨rfl, -⟩
    · exact minds_getHostgroup.mono fun r ℓ' h => h.mono fun d hd => .inl ⟨hruled, hd⟩
    · rw [PoolRef.getHostgroupForDatabase]
      rw [if_pos rfl]
      exact minds_getPrimaryAsReplica.mono fun r ℓ' h => h.mono fun d hd => .inr hd
  have hask : ∀ cached : Option Bytes, Minds D (askHostgroup pool hg ttl text bytes timeoutMs rt cached)
      (Replied D .loan (.text bytes) ℓ) ℓ := by
    intro cached
    rcases cached with _ | b
    swap
    · exact minds_done replied_same
    refine hdrawn.bind fun got ℓ₁ h => ?_
    rcases got with e | ⟨c, putIdx⟩
    · exact minds_done h
    obtain ⟨hnone, d, hd, rfl⟩ := h
    have howes : D.owes (ℓ.hold c d) (.talk .client .loan c (.text bytes) none) := by
      rcases hd with ⟨hruled, -⟩ | hd
      · exact .inr (.inl hruled)
      · exact owes_primary hd
    refine (minds_execute howes).bind fun r ℓ₂ h => ?_
    rcases r with e | response
    · refine minds_drop.next fun _ => ?_
      exact minds_done (h.returned hnone)
    · refine minds_giveBack.next fun _ => ?_
      have hlast : Minds D (pure (.ok response)) (Replied D .loan (.text bytes) ℓ) (ℓ₂.free c) :=
        minds_done (h.returned hnone)
      refine minds_ite (fun _ => (minds_unwritten rfl).next fun _ => hlast) fun _ => ?_
      exact minds_ite (fun _ => (minds_unwritten rfl).next fun _ => hlast) fun _ => hlast
  rw [routeHostgroup]
  refine minds_ite (fun hcache => ?_) fun _ => hask none
  refine (minds_cacheGet fun _ => hplaced.resolve_right ?_).bind ?_
  · rintro ⟨-, rfl⟩
    cases hcache
  · rintro cached _ rfl
    exact hask cached

/-- Which way a query goes when no rule has named a hostgroup. -/
theorem minds_routeSplit {m : Option RuleMatch}
    (hread : (splitChoice m rt.useReplica).1 = true → ℓ.ruled = true ∨ MayRead D pool ℓ) :
    Minds D (routeSplit pool text bytes timeoutMs m rt) (Replied D .loan (.text bytes) ℓ) ℓ := by
  have hmiss : Minds D (if (splitChoice m rt.useReplica).1 then
        routeReplica pool text bytes timeoutMs (splitChoice m rt.useReplica).2 m rt
      else routePrimary pool text bytes timeoutMs m rt) (Replied D .loan (.text bytes) ℓ) ℓ :=
    minds_ite (fun h => minds_routeReplica (hread h)) fun _ => minds_routePrimary
  rw [routeSplit]
  refine minds_ite (fun hcache => ?_) fun _ => hmiss
  rw [Bool.and_eq_true, Bool.and_eq_true] at hcache
  refine (minds_cacheGet fun hopen => ?_).next fun cached => ?_
  · exact (hread hcache.1.1).resolve_right fun h => h.shut hopen
  · rcases cached with _ | b
    · exact hmiss
    · exact minds_done replied_same

/-- A rule places the query, or leaves it where it was going. -/
theorem minds_dispatch (hread : rt.useReplica = true → MayRead D pool ℓ) :
    Minds D (dispatch pool text bytes timeoutMs rt)
      (fun r ℓ' => ∃ ruled, Replied D .loan (.text bytes) { ℓ with ruled } r ℓ') ℓ := by
  rw [dispatch]
  refine Minds.bind (R := fun m ℓ' => ℓ' = { ℓ with ruled := m.elim false RuleMatch.places })
    (minds_act trivial fun _ _ _ _ _ => rfl) ?_
  rintro m _ rfl
  have hread' : rt.useReplica = true → ∀ ruled, MayRead D pool { ℓ with ruled } := fun h _ =>
    ⟨(hread h).shut, (hread h).vouched⟩
  rcases m with _ | m
  · have hsplit : Minds D (routeSplit pool text bytes timeoutMs none rt)
        (Replied D .loan (.text bytes) { ℓ with ruled := false }) { ℓ with ruled := false } :=
      minds_routeSplit fun h => .inr (hread' h _)
    exact hsplit.mono fun r ℓ' h => ⟨_, h⟩
  · refine minds_ite (fun _ => minds_done ⟨_, replied_error⟩) fun _ => ?_
    split
    · rename_i hg hdestination
      refine (minds_routeHostgroup ?_).mono fun r ℓ' h => ⟨_, h⟩
      dsimp only [Option.elim_some, RuleMatch.places]
      rw [hdestination]
      -- the primary's hostgroup places the query only in so far as it may be cached
      by_cases hhg : hg = 0
      · by_cases httl : m.cacheTtlSecs = 0
        · exact .inr ⟨hhg, httl⟩
        · simp [Nat.pos_of_ne_zero httl]
      · simp [hhg]
    · refine (minds_routeSplit fun h => ?_).mono fun r ℓ' h => ⟨_, h⟩
      rcases hdestination : m.destination with _ | _ | _ | hg <;>
        simp only [splitChoice, hdestination, Bool.false_eq_true] at h
      · exact .inr (hread' h _)
      · exact .inl (by simp [RuleMatch.places, hdestination])
      · exact .inr (hread' h _)

/-- Outside transactions: the query is handed to the rewrite rules, and every connection is back at the
end. -/
theorem minds_routeAutocommit (hread : rt.useReplica = true → MayRead D pool ℓ) :
    Minds D (routeAutocommit pool bytes rt) (fun r ℓ' => ℓ'.drawn = ℓ.drawn ∧
      Passes D (r.isOk = true ∧ classify (textOf bytes) = .write) ℓ ℓ') ℓ := by
  rw [routeAutocommit]
  refine (minds_unwritten rfl).next fun timeoutMs => ?_
  have hasked : Minds D (act (.rewrite (textOf bytes)))
      (fun _ ℓ' => ℓ' = { ℓ with asked := some (textOf bytes) }) ℓ := minds_act trivial fun _ _ _ _ _ => rfl
  refine hasked.next fun outcome => ?_
  have hread' : rt.useReplica = true → MayRead D pool { ℓ with asked := some (textOf bytes) } := fun h =>
    ⟨(hread h).shut, (hread h).vouched⟩
  have hsent (text : Str) (sent : Bytes) : Minds D (dispatch pool text sent timeoutMs rt) (fun r ℓ' =>
      ℓ'.drawn = ℓ.drawn ∧ Passes D (r.isOk = true ∧ classify (textOf bytes) = .write) ℓ ℓ')
      { ℓ with asked := some (textOf bytes) } := by
    refine (minds_dispatch hread').mono fun r ℓ' h => ?_
    obtain ⟨ruled, h⟩ := h
    obtain ⟨hseen, hvouched, hlimit⟩ := h.passes
    refine ⟨h.drawn, hseen, hvouched, fun htimed => (hlimit htimed).imp id fun ⟨hok, hopens⟩ => ⟨hok, ?_⟩⟩
    exact beq_iff_eq.mp hopens
  rcases outcome with _ | text | msg
  · exact hsent _ _
  · exact hsent _ _
  · exact minds_done ⟨rfl, rfl, rfl, fun _ => .inl rfl⟩

end Autocommit

/-! ## What a session goes on holding -/

/-- The connections in the variables of a session. -/
abbrev Slots : Type := Via → Option ConnId

/-- They are out, each in one variable, and those of transactions and prepared statements are primaries. -/
structure Holds (σ : Slots) (drawn : ConnId → Option Drawn) : Prop where
  /-- how they were drawn -/
  drawn : ∀ via c, σ via = some c → ∃ d, drawn c = some d ∧ (via = .stickyConn ∨ d.primary = true)
  /-- each is in one variable -/
  apart : ∀ via via' c, σ via = some c → σ via' = some c → via = via'

namespace Holds

variable {σ : Slots} {drawn : ConnId → Option Drawn} {via : Via} {c : ConnId}

/-- A connection that is not out is in no variable. -/
theorem not_held (h : Holds σ drawn) (hnone : drawn c = none) (via : Via) : σ via ≠ some c := by
  intro hc
  obtain ⟨d, hd, -⟩ := h.drawn via c hc
  cases hnone.symm.trans hd

/-- A variable may be emptied: the others hold what they held. -/
theorem clear (h : Holds σ drawn) (via : Via) : Holds (Function.update σ via none) drawn := by
  have hold : ∀ via' c, Function.update σ via none via' = some c → σ via' = some c := by
    intro via' c hc
    by_cases hvia : via' = via
    · rw [hvia, Function.update_self] at hc
      cases hc
    · rwa [Function.update_of_ne hvia] at hc
  exact ⟨fun via' c hc => h.drawn via' c (hold via' c hc), fun via₁ via₂ c h₁ h₂ =>
    h.apart via₁ via₂ c (hold via₁ c h₁) (hold via₂ c h₂)⟩

/-- A connection in no variable goes back. -/
theorem release (h : Holds σ drawn) (hc : ∀ via, σ via ≠ some c) : Holds σ (Function.update drawn c none) := by
  refine ⟨fun via c' hc' => ?_, h.apart⟩
  have hne : c' ≠ c := by
    rintro rfl
    exact hc via hc'
  rw [Function.update_of_ne hne]
  exact h.drawn via c' hc'

/-- The connection of a variable goes back. -/
theorem free (h : Holds σ drawn) (via : Via) (c : ConnId) (hc : σ via = some c) :
    Holds (Function.update σ via none) (Function.update drawn c none) := by
  refine (h.clear via).release fun via' hc' => ?_
  by_cases hvia : via' = via
  · rw [hvia, Function.update_self] at hc'
    cases hc'
  · rw [Function.update_of_ne hvia] at hc'
    exact hvia (h.apart via' via c hc' hc)

/-- A new connection is put into a variable. -/
theorem hold {d : Drawn} (h : Holds σ drawn) (hnone : drawn c = none)
    (hd : via = .stickyConn ∨ d.primary = true) :
    Holds (Function.update σ via (some c)) (Function.update drawn c (some d)) := by
  have hnot := h.not_held hnone
  have hcases : ∀ via' c', Function.update σ via (some c) via' = some c' →
      via' = via ∧ c' = c ∨ via' ≠ via ∧ σ via' = some c' := by
    intro via' c' hc'
    by_cases hvia : via' = via
    · rw [hvia, Function.update_self] at hc'
      exact .inl ⟨hvia, (Option.some.inj hc').symm⟩
    · rw [Function.update_of_ne hvia] at hc'
      exact .inr ⟨hvia, hc'⟩
  refine ⟨fun via' c' hc' => ?_, fun via₁ via₂ c' h₁ h₂ => ?_⟩
  · rcases hcases via' c' hc' with ⟨rfl, rfl⟩ | ⟨-, hheld⟩
    · exact ⟨d, Function.update_self .., hd⟩
    · have hne : c' ≠ c := by
        rintro rfl
        exact hnot via' hheld
      rw [Function.update_of_ne hne]
      exact h.drawn via' c' hheld
  · rcases hcases via₁ c' h₁ with ⟨rfl, rfl⟩ | ⟨-, hheld₁⟩
    · rcases hcases via₂ c' h₂ with ⟨rfl, -⟩ | ⟨-, hheld₂⟩
      · rfl
      · exact absurd hheld₂ (hnot via₂)
    · rcases hcases via₂ c' h₂ with ⟨rfl, rfl⟩ | ⟨-, hheld₂⟩
      · exact absurd hheld₁ (hnot via₁)
      · exact h.apart via₁ via₂ c' hheld₁ hheld₂

/-- A connection takes the place of another one, which goes back. -/
theorem replace {fresh : ConnId} {d : Drawn} (h : Holds σ drawn) (via : Via) (hc : σ via = some c)
    (hnone : drawn fresh = none) (hd : via = .stickyConn ∨ d.primary = true) :
    Holds (Function.update σ via (some fresh))
      (Function.update (Function.update drawn fresh (some d)) c none) := by
  refine (h.hold hnone hd).release fun via' hc' => ?_
  by_cases hvia : via' = via
  · rw [hvia, Function.update_self] at hc'
    exact h.not_held hnone via (hc.trans hc'.symm)
  · rw [Function.update_of_ne hvia] at hc'
    exact hvia (h.apart via' via c hc' hc)

end Holds

section Slots

variable {D : Duty} {ℓ : Ledger} {σ : Slots} {via : Via} {pool : PoolRef} {db : Option Str}

/-- The connection of a variable, and the primary is asked for one where there is none. -/
theorem minds_ensure (via : Via) (hvia : via ≠ .stickyConn) (h : Holds σ ℓ.drawn) {conn : Option ConnId}
    (hconn : σ via = conn) :
    Minds D (pool.ensure conn db) (fun r ℓ' => match r with
      | .ok c => Holds (Function.update σ via (some c)) ℓ'.drawn ∧ Passes D False ℓ ℓ' ∧ ℓ'.asked = ℓ.asked ∧
          ∃ d, ℓ'.drawn c = some d ∧ d.primary = true
      | .error _ => ℓ' = ℓ) ℓ := by
  rcases conn with _ | c
  · refine minds_getPrimary.mono fun r ℓ' hdrew => ?_
    rcases r with e | c
    · exact hdrew
    · obtain ⟨hnone, d, hd, rfl⟩ := hdrew
      exact ⟨h.hold hnone (.inr hd), ⟨rfl, rfl, fun _ => .inl rfl⟩, rfl, d, Function.update_self .., hd⟩
  · refine minds_done ?_
    obtain ⟨d, hdrawn, hd⟩ := h.drawn via c hconn
    refine ⟨?_, passes_same, rfl, d, hdrawn, hd.resolve_left hvia⟩
    rwa [← hconn, Function.update_eq_self]

/-- What a route leaves a session with: its variables as they are afterwards, and the ledger. -/
def Leaves (D : Duty) (opened : Prop) (σ : Slots) (ℓ ℓ' : Ledger) : Prop :=
  Holds σ ℓ'.drawn ∧ Passes D opened ℓ ℓ'

theorem Passes.trans {opened : Prop} {ℓ₁ ℓ₂ : Ledger} (h : Passes D False ℓ ℓ₁) (h' : Passes D opened ℓ₁ ℓ₂) :
    Passes D opened ℓ ℓ₂ :=
  ⟨h'.seen.trans h.seen, h'.vouched.trans h.vouched, fun htimed =>
    (h'.limit htimed).imp (fun heq => heq.trans ((h.limit htimed).resolve_right id)) id⟩

/-- A command on a primary. -/
theorem owes_drawn {c : ConnId} {d : Drawn} {p : Packet} {limit : Option Nat} (hdrawn : ℓ.drawn c = some d)
    (hd : d.primary = true) : D.owes ℓ (.talk .client via c p limit) := .inr (.inr ⟨d, hdrawn, .inl hd⟩)

/-- A query in a transaction. -/
theorem minds_routeInTx (σ : Slots) (h : Holds σ ℓ.drawn) {sql : Bytes} {rt : Route} :
    Minds D (routeInTx pool sql (σ .txConn) rt) (fun r ℓ' =>
      Leaves D (r.2.isOk = true ∧ classify (textOf sql) = .write) (Function.update σ .txConn r.1) ℓ ℓ') ℓ := by
  rw [routeInTx]
  refine (minds_ensure .txConn nofun h rfl).bind fun got ℓ₁ hgot => ?_
  rcases got with e | c
  · obtain rfl : ℓ₁ = ℓ := hgot
    refine minds_done ⟨?_, passes_same⟩
    rwa [Function.update_eq_self]
  obtain ⟨hholds, hpasses, -, d, hdrawn, hd⟩ := hgot
  have hsend : Minds D (do
      let r ← executeQuery .client .txConn c sql
      pure (some c, r)) (fun r ℓ' => Leaves D (r.2.isOk = true ∧ classify (textOf sql) = .write)
        (Function.update σ .txConn r.1) ℓ ℓ') ℓ₁ := by
    refine (minds_executeQuery (owes_drawn hdrawn hd)).bind fun r ℓ₂ hreplied => minds_done ⟨?_, ?_⟩
    · rw [hreplied.drawn]
      exact hholds
    · exact hpasses.trans (hreplied.passes.mono fun hopens => ⟨hopens.1, beq_iff_eq.mp hopens.2⟩)
  exact minds_ite (fun _ => (minds_replay _).next fun _ => hsend) fun _ => hsend

/-- The ledger when a route has read the pool. -/
def Ledger.anew (ℓ : Ledger) : Ledger := { ℓ with asked := none, ruled := false }

theorem Passes.anew {opened : Prop} {ℓ' : Ledger} (h : Passes D opened ℓ.anew ℓ') : Passes D opened ℓ ℓ' :=
  ⟨h.seen, h.vouched, h.limit⟩

theorem minds_readPool : Minds D (act .readPool) (fun pool ℓ' => ℓ' = ℓ.anew ∧
    ∀ gtid, D.gtid = some gtid → ∀ o, ℓ.vouched = some (o, toUtf8 (gtidProbe gtid)) →
      ∀ i < pool.replicas.length, pool.origin (.replica i) = o) ℓ := by
  refine minds_act trivial fun _ _ pool htrusts _ => ⟨rfl, fun gtid hgtid o ho => ?_⟩
  rw [Duty.trusts, hgtid, Option.all_some, ho, Option.all_some] at htrusts
  simpa using htrusts

/-- A read may go to the replicas: the window is not open, and one of them has confirmed the GTID. -/
structure Cleared (D : Duty) (ℓ : Ledger) : Prop where
  /-- the window is not open -/
  shut : ¬D.Open ℓ
  /-- the GTID is confirmed -/
  vouched : ∀ gtid, D.gtid = some gtid → ∃ o, ℓ.vouched = some (o, toUtf8 (gtidProbe gtid))

/-- Leave to read replicas outlasts whatever opens no window. -/
theorem Cleared.passes {ℓ' : Ledger} (h : Cleared D ℓ) (hpasses : Passes D False ℓ ℓ') : Cleared D ℓ' := by
  refine ⟨fun hopen => h.shut (hopen.imp id fun hdue => ⟨hdue.1, ?_⟩), ?_⟩
  · have hlt := hdue.2
    rwa [hpasses.seen, (hpasses.limit hdue.1).resolve_right id] at hlt
  · rw [hpasses.vouched]
    exact h.vouched

/-- A look at the clock, which does not go back, leaves cleared what has been cleared. -/
theorem Cleared.look (h : Cleared D ℓ) {now : Nat} (hle : ℓ.seen ≤ now) : Cleared D { ℓ with seen := now } :=
  ⟨fun hopen => h.shut (hopen.imp id fun hdue => ⟨hdue.1, Nat.lt_of_le_of_lt hle hdue.2⟩), h.vouched⟩

/-- `route_query_inner` minds the ledger, if it may use a replica only once reads are cleared. -/
theorem minds_routeQueryInner (σ : Slots) (h : Holds σ ℓ.drawn) {sql : Bytes} {inTransaction : Bool} {rt : Route}
    (hread : rt.useReplica = true → Cleared D ℓ) :
    Minds D (routeQueryInner sql (σ .txConn) inTransaction rt) (fun r ℓ' =>
      Leaves D (r.2.isOk = true ∧ classify (textOf sql) = .write) (Function.update σ .txConn r.1) ℓ ℓ') ℓ := by
  rw [routeQueryInner]
  refine minds_readPool.bind ?_
  rintro pool _ ⟨rfl, hpool⟩
  have hanew : Holds σ ℓ.anew.drawn := h
  refine minds_ite (fun _ => ?_) fun _ => ?_
  · exact (minds_routeInTx σ hanew).mono fun r ℓ' hr => ⟨hr.1, hr.2.anew⟩
  have hread' : rt.useReplica = true → MayRead D pool ℓ.anew := by
    refine fun huse => ⟨(hread huse).shut, fun gtid hgtid i hi => ?_⟩
    obtain ⟨o, hvouched⟩ := (hread huse).vouched gtid hgtid
    rw [hpool gtid hgtid o hvouched i hi]
    exact hvouched
  refine (minds_routeAutocommit hread').bind fun r ℓ' hr => minds_done ⟨?_, hr.2.anew⟩
  rw [Function.update_eq_self, hr.1]
  exact h

/-- The route of a sticky hint minds the ledger wherever it leads. -/
theorem minds_routeStickyQuery (σ : Slots) (h : Holds σ ℓ.drawn) {sql : Bytes} {stickyIdx : Option Nat} :
    Minds D (routeStickyQuery sql (σ .stickyConn) stickyIdx) (fun r ℓ' =>
      Leaves D (classify (textOf sql) = .write) (Function.update σ .stickyConn r.1) ℓ ℓ') ℓ := by
  have hsend (c : ConnId) (idx : Option Nat) (ℓ₁ : Ledger) (hpasses : Passes D False ℓ ℓ₁)
      (hholds : Holds (Function.update σ .stickyConn (some c)) ℓ₁.drawn) : Minds D (do
        let r ← executeQuery .client .stickyConn c sql
        pure (some c, idx, r)) (fun r ℓ' =>
          Leaves D (classify (textOf sql) = .write) (Function.update σ .stickyConn r.1) ℓ ℓ') ℓ₁ := by
    refine (minds_executeQuery (.inl rfl)).bind fun r ℓ₂ hreplied => minds_done ⟨?_, ?_⟩
    · rw [hreplied.drawn]
      exact hholds
    · exact hpasses.trans (hreplied.passes.mono fun hopens => beq_iff_eq.mp hopens.2)
  unfold routeStickyQuery
  rcases hconn : σ .stickyConn with _ | c
  swap
  · refine hsend c stickyIdx ℓ passes_same ?_
    rwa [← hconn, Function.update_eq_self]
  refine minds_readPool.bind ?_
  rintro pool _ ⟨rfl, -⟩
  refine minds_getReplica.bind fun got ℓ₁ hdrew => ?_
  rcases got with e | ⟨c, idx⟩
  · obtain rfl : ℓ₁ = ℓ.anew := hdrew
    refine minds_done ⟨?_, Passes.anew passes_same⟩
    rwa [← hconn, Function.update_eq_self]
  · obtain ⟨hnone, d, -, rfl⟩ := hdrew
    exact hsend c idx _ ⟨rfl, rfl, fun _ => .inl rfl⟩ (h.hold hnone (.inl rfl))

/-- A command that is no query opens no window. -/
theorem Replied.shut {p : Packet} {ℓ' : Ledger} {r : Except Str Response} (h : Replied D via p ℓ r ℓ')
    (hp : ℓ.opens via p = false) : Passes D False ℓ ℓ' :=
  h.passes.mono fun hopens => Bool.noConfusion (hp.symm.trans hopens.2)

theorem opens_raw (ℓ : Ledger) (via : Via) (packet : Bytes) : ℓ.opens via (.raw packet) = false := by
  cases via <;> rfl

theorem opens_silent (ℓ : Ledger) (via : Via) (packet : Bytes) : ℓ.opens via (.silent packet) = false := by
  cases via <;> rfl

/-- Passing a command through to the primary. -/
theorem minds_routeRaw (σ : Slots) (h : Holds σ ℓ.drawn) {packet : Bytes} {inTransaction : Bool} :
    Minds D (routeRawInner packet (σ .txConn) inTransaction db)
      (fun r ℓ' => Leaves D False (Function.update σ .txConn r.1) ℓ ℓ') ℓ := by
  rw [routeRawInner]
  refine minds_readPool.bind ?_
  rintro pool _ ⟨rfl, -⟩
  have hanew : Holds σ ℓ.anew.drawn := h
  refine minds_ite (fun _ => ?_) fun _ => ?_
  · refine (minds_ensure .txConn nofun hanew rfl).bind fun got ℓ₁ hgot => ?_
    rcases got with e | c
    · obtain rfl : ℓ₁ = ℓ.anew := hgot
      refine minds_done ⟨?_, Passes.anew passes_same⟩
      rwa [Function.update_eq_self]
    obtain ⟨hholds, hpasses, -, d, hdrawn, hd⟩ := hgot
    refine (minds_sendRaw (owes_drawn hdrawn hd)).bind fun r ℓ₂ hreplied => minds_done ⟨?_, ?_⟩
    · rw [hreplied.drawn]
      exact hholds
    · exact (hpasses.trans (hreplied.shut (opens_raw ..))).anew
  · have hback (r : Except Str Response) (ℓ₁ : Ledger) (hreplied : Replied D .loan (.raw packet) ℓ.anew r ℓ₁) :
        Leaves D False (Function.update σ .txConn (σ .txConn)) ℓ ℓ₁ := by
      rw [Function.update_eq_self]
      exact ⟨hreplied.drawn ▸ h, (hreplied.shut (opens_raw ..)).anew⟩
    refine minds_getPrimary.bind fun got ℓ₁ hdrew => ?_
    rcases got with e | c
    · exact minds_done (hback (.error e) ℓ₁ hdrew)
    obtain ⟨hnone, d, hd, rfl⟩ := hdrew
    refine (minds_sendRaw (owes_primary hd)).bind fun r ℓ₂ hreplied => ?_
    rcases r with e | response
    · refine minds_drop.next fun _ => ?_
      exact minds_done (hback _ _ (hreplied.returned hnone))
    · refine minds_putPrimary.next fun _ => ?_
      exact minds_done (hback _ _ (hreplied.returned hnone))

/-- Fast-forward sends everything to the primary. What it sends outside a transaction, it has not handed to
the rewrite rules. -/
theorem minds_routeFast (σ : Slots) (h : Holds σ ℓ.drawn) {sql : Bytes} {inTransaction : Bool}
    (hfast : inTransaction = false ∨ D.fast = true) :
    Minds D (routeFast sql (σ .txConn) inTransaction)
      (fun r ℓ' => Leaves D False (Function.update σ .txConn r.1) ℓ ℓ') ℓ := by
  rw [routeFast]
  refine minds_readPool.bind ?_
  rintro pool _ ⟨rfl, -⟩
  have hanew : Holds σ ℓ.anew.drawn := h
  refine minds_ite (fun hin => ?_) fun _ => ?_
  · -- only the global fast-forward gets here, and it knows no windows
    have huntimed : ¬D.Timed := by
      rintro ⟨hslow, -⟩
      rcases hfast with hout | hfast
      · cases hin.symm.trans hout
      · cases hslow.symm.trans hfast
    refine (minds_ensure .txConn nofun hanew rfl).bind fun got ℓ₁ hgot => ?_
    rcases got with e | c
    · obtain rfl : ℓ₁ = ℓ.anew := hgot
      refine minds_done ⟨?_, Passes.anew passes_same⟩
      rwa [Function.update_eq_self]
    obtain ⟨hholds, hpasses, -, d, hdrawn, hd⟩ := hgot
    refine (minds_executeQuery (owes_drawn hdrawn hd)).bind fun r ℓ₂ hreplied => minds_done ⟨?_, ?_⟩
    · rw [hreplied.drawn]
      exact hholds
    · obtain ⟨hseen, hvouched, -⟩ := hpasses.trans hreplied.passes
      exact ⟨hseen, hvouched, fun htimed => absurd htimed huntimed⟩
  · have hback (r : Except Str Response) (ℓ₁ : Ledger) (hreplied : Replied D .loan (.text sql) ℓ.anew r ℓ₁) :
        Leaves D False (Function.update σ .txConn (σ .txConn)) ℓ ℓ₁ := by
      rw [Function.update_eq_self]
      exact ⟨hreplied.drawn ▸ h, (hreplied.shut rfl).anew⟩
    refine minds_getPrimary.bind fun got ℓ₁ hdrew => ?_
    rcases got with e | c
    · exact minds_done (hback (.error e) ℓ₁ hdrew)
    obtain ⟨hnone, d, hd, rfl⟩ := hdrew
    refine (minds_executeQuery (owes_primary hd)).bind fun r ℓ₂ hreplied => ?_
    rcases r with e | response
    · refine minds_drop.next fun _ => ?_
      exact minds_done (hback _ _ (hreplied.returned hnone))
    · refine minds_putPrimary.next fun _ => ?_
      exact minds_done (hback _ _ (hreplied.returned hnone))

end Slots

/-! ## Prepared statements -/

/-- The variables a statement borrows, beside the connection of the hint. -/
def MysqlStmtState.slots (st : MysqlStmtState) (sticky : Option ConnId) : Slots
  | .txConn => st.txConn
  | .stmtConn => st.stmtConn
  | .stickyConn => sticky
  | .loan => none

section Statements

variable {D : Duty} {ℓ : Ledger} {pool : PoolRef} {raw : Bytes} {st : MysqlStmtState} {sticky : Option ConnId}
  {c : ConnId} {inTransaction : Bool}

theorem slots_txConn (st : MysqlStmtState) (sticky x : Option ConnId) :
    ({ st with txConn := x } : MysqlStmtState).slots sticky = Function.update (st.slots sticky) .txConn x := by
  funext via
  cases via <;> rfl

theorem slots_stmtConn (st : MysqlStmtState) (sticky x : Option ConnId) :
    ({ st with stmtConn := x } : MysqlStmtState).slots sticky = Function.update (st.slots sticky) .stmtConn x := by
  funext via
  cases via <;> rfl

theorem activeVia_ne_sticky : activeVia inTransaction ≠ .stickyConn := by cases inTransaction <;> nofun

/-- The active connection is a primary. -/
theorem Holds.owes_active (h : Holds (st.slots sticky) ℓ.drawn)
    (hc : st.slots sticky (activeVia inTransaction) = some c) {via : Via} {p : Packet} {limit : Option Nat} :
    D.owes ℓ (.talk .client via c p limit) := by
  obtain ⟨d, hdrawn, hd⟩ := h.drawn _ c hc
  exact owes_drawn hdrawn (hd.resolve_left activeVia_ne_sticky)

/-- A command on the active connection. -/
theorem minds_sendActive (h : Holds (st.slots sticky) ℓ.drawn)
    (hc : st.slots sticky (activeVia inTransaction) = some c) :
    Minds D (sendRaw .client (activeVia inTransaction) c raw)
      (fun _ ℓ' => Leaves D False (st.slots sticky) ℓ ℓ') ℓ :=
  (minds_sendRaw (h.owes_active hc)).mono fun _ _ hreplied =>
    ⟨hreplied.drawn ▸ h, hreplied.shut (opens_raw ..)⟩

theorem registerPrepared_slots (st : MysqlStmtState) (query : Bytes) (response : Response) (sticky : Option ConnId) :
    (registerPrepared st query response).1.slots sticky = st.slots sticky := by
  rw [registerPrepared]
  split <;> rfl

/-- `stmt_conn` is replaced. -/
theorem Holds.stmtReplaced {fresh : ConnId} {d : Drawn} (h : Holds (st.slots sticky) ℓ.drawn)
    (hc : st.stmtConn = some c) (hnone : ℓ.drawn fresh = none) (hd : d.primary = true) :
    Holds (({ st with stmtConn := some fresh } : MysqlStmtState).slots sticky) ((ℓ.hold fresh d).free c).drawn := by
  rw [slots_stmtConn]
  exact h.replace .stmtConn hc hnone (.inr hd)

theorem minds_stmtPrepare {query : Bytes} (h : Holds (st.slots sticky) ℓ.drawn)
    (hc : st.slots sticky (activeVia inTransaction) = some c) :
    Minds D (stmtPrepare pool raw query c st inTransaction)
      (fun r ℓ' => Leaves D False (r.1.slots sticky) ℓ ℓ') ℓ := by
  rw [stmtPrepare]
  refine (minds_sendActive h hc).bind fun r ℓ₁ hleaves => ?_
  rcases r with e | response
  swap
  · refine minds_done ?_
    change Leaves D False ((registerPrepared st query response).1.slots sticky) ℓ ℓ₁
    rwa [registerPrepared_slots]
  refine minds_ite (fun hlost => ?_) fun _ => minds_done hleaves
  obtain ⟨hholds, hpasses⟩ := hleaves
  obtain rfl : inTransaction = false := by
    rw [Bool.and_eq_true, Bool.not_eq_true'] at hlost
    exact hlost.2
  refine minds_getPrimary.bind fun again ℓ₂ hdrew => ?_
  rcases again with e | fresh
  · obtain rfl : ℓ₂ = ℓ₁ := hdrew
    exact minds_done ⟨hholds, hpasses⟩
  obtain ⟨hnone, d, hd, rfl⟩ := hdrew
  refine minds_drop.next fun _ => ?_
  have hreplaced := hholds.stmtReplaced hc hnone hd
  have hactive : (({ st with stmtConn := some fresh } : MysqlStmtState).slots sticky) (activeVia false) =
      some fresh := rfl
  refine (minds_sendActive hreplaced hactive).bind fun r ℓ₃ hleaves => ?_
  have hall : Leaves D False (({ st with stmtConn := some fresh } : MysqlStmtState).slots sticky) ℓ ℓ₃ :=
    ⟨hleaves.1, hpasses.trans (passes_moved.trans hleaves.2)⟩
  rcases r with e | response
  · exact minds_done hall
  · refine minds_done ?_
    change Leaves D False ((registerPrepared _ query response).1.slots sticky) ℓ ℓ₃
    rwa [registerPrepared_slots]

theorem minds_reprepare (jobs : List (Nat × Bytes)) : Minds D (reprepare c jobs) (fun _ ℓ' => ℓ' = ℓ) ℓ := by
  induction jobs with
  | nil => exact minds_done rfl
  | cons job rest ih =>
    rw [reprepare]
    have hsent : Minds D (sendRaw .reprepare .loan c job.2) (fun _ ℓ' => ℓ' = ℓ) ℓ :=
      (minds_unwritten rfl).next fun r => minds_done rfl
    refine hsent.next fun r => ih.next fun others => ?_
    rcases r with e | resp
    · exact minds_done rfl
    · dsimp only
      split
      · exact minds_done rfl
      · exact minds_done rfl

theorem minds_executeAgain {proxyId backendId : Nat} (h : Holds (st.slots sticky) ℓ.drawn)
    (hc : st.stmtConn = some c) :
    Minds D (executeAgain pool raw proxyId backendId c st)
      (fun r ℓ' => Leaves D False (r.1.slots sticky) ℓ ℓ') ℓ := by
  rw [executeAgain]
  refine minds_getPrimary.bind fun again ℓ₁ hdrew => ?_
  rcases again with e | fresh
  · obtain rfl : ℓ₁ = ℓ := hdrew
    exact minds_done ⟨h, passes_same⟩
  obtain ⟨hnone, d, hd, rfl⟩ := hdrew
  refine (minds_reprepare _).next fun newIds => minds_drop.next fun _ => ?_
  have hreplaced : Holds (({ st with shadow := st.shadow.updateBackendIds newIds, stmtConn := some fresh } :
      MysqlStmtState).slots sticky) ((ℓ.hold fresh d).free c).drawn := h.stmtReplaced hc hnone hd
  have hactive : ({ st with shadow := st.shadow.updateBackendIds newIds, stmtConn := some fresh } :
      MysqlStmtState).slots sticky (activeVia false) = some fresh := rfl
  refine (minds_sendRaw (hreplaced.owes_active hactive)).bind fun r ℓ₂ hreplied => ?_
  refine minds_done ⟨hreplied.drawn ▸ hreplaced, ?_⟩
  exact passes_moved.trans (hreplied.shut (opens_raw ..))

theorem minds_stmtWithId {cmd : UInt8} (h : Holds (st.slots sticky) ℓ.drawn)
    (hc : st.slots sticky (activeVia inTransaction) = some c) :
    Minds D (stmtWithId pool cmd raw c st inTransaction)
      (fun r ℓ' => Leaves D False (r.1.slots sticky) ℓ ℓ') ℓ := by
  rw [stmtWithId]
  split
  · exact (minds_sendActive h hc).bind fun r ℓ₁ hleaves => minds_done hleaves
  · refine minds_ite (fun _ => ?_) fun _ => ?_
    · refine (minds_sendRawNoResponse (h.owes_active hc)).bind fun r ℓ₁ hreplied => ?_
      have hleaves : Leaves D False (st.slots sticky) ℓ ℓ₁ :=
        ⟨hreplied.drawn ▸ h, hreplied.shut (opens_silent ..)⟩
      rcases r with e | _
      · exact minds_done hleaves
      · refine minds_done ?_
        dsimp only
        split
        · exact hleaves
        · exact hleaves
    · refine (minds_sendActive h hc).bind fun r ℓ₁ hleaves => ?_
      rcases r with e | response
      swap
      · exact minds_done hleaves
      refine minds_ite (fun hagain => ?_) fun _ => minds_done hleaves
      obtain ⟨-, -, rfl⟩ := hagain
      refine (minds_executeAgain hleaves.1 hc).mono fun r ℓ₂ hleaves' => ⟨hleaves'.1, ?_⟩
      exact hleaves.2.trans hleaves'.2

/-- `route_stmt_mysql_shadow` -/
theorem minds_routeStmt (h : Holds (st.slots sticky) ℓ.drawn) :
    Minds D (routeStmtMysqlShadow raw st inTransaction) (fun r ℓ' => Leaves D False (r.1.slots sticky) ℓ ℓ') ℓ := by
  rw [routeStmtMysqlShadow]
  refine minds_readPool.bind ?_
  rintro pool _ ⟨rfl, -⟩
  have hanew : Holds (st.slots sticky) ℓ.anew.drawn := h
  rcases raw with _ | ⟨cmd, query⟩
  · exact minds_done ⟨h, Passes.anew passes_same⟩
  have hconn : st.slots sticky (activeVia inTransaction) =
      if inTransaction then st.txConn else st.stmtConn := by cases inTransaction <;> rfl
  refine (minds_ensure (activeVia inTransaction) activeVia_ne_sticky hanew hconn).bind fun got ℓ₁ hgot => ?_
  rcases got with e | c
  · obtain rfl : ℓ₁ = ℓ.anew := hgot
    exact minds_done ⟨h, Passes.anew passes_same⟩
  obtain ⟨hholds, hpasses, -, -⟩ := hgot
  dsimp only
  generalize hst : (if inTransaction = true then { st with txConn := some c }
    else { st with stmtConn := some c } : MysqlStmtState) = st₁
  have hslots : st₁.slots sticky = Function.update (st.slots sticky) (activeVia inTransaction) (some c) := by
    subst hst
    cases inTransaction
    · exact slots_stmtConn st sticky (some c)
    · exact slots_txConn st sticky (some c)
  rw [← hslots] at hholds
  have hc : st₁.slots sticky (activeVia inTransaction) = some c := by rw [hslots, Function.update_self]
  have hafter (r : MysqlStmtState × Except Str Response) (ℓ₂ : Ledger) (hr : Leaves D False (r.1.slots sticky) ℓ₁ ℓ₂) :
      Leaves D False (r.1.slots sticky) ℓ ℓ₂ := ⟨hr.1, (hpasses.trans hr.2).anew⟩
  refine minds_ite (fun _ => (minds_stmtPrepare hholds hc).mono hafter) fun _ => ?_
  refine minds_ite (fun _ => (minds_stmtWithId hholds hc).mono hafter) fun _ => ?_
  exact (minds_sendActive hholds hc).bind fun r ℓ₂ hleaves => minds_done (hafter (st₁, r) ℓ₂ hleaves)

end Statements

/-! ## The GTID check -/

section Probe

variable {D : Duty} {ℓ : Ledger} {σ : Slots}

/-- What the check takes for a yes is a yes of the pool that was asked. -/
theorem minds_checkReplicaHasGtid {gtid : Str} (h : Holds σ ℓ.drawn) :
    Minds D (checkReplicaHasGtid gtid) (fun ready ℓ' => Holds σ ℓ'.drawn ∧ ℓ'.seen = ℓ.seen ∧ ℓ'.limit = ℓ.limit ∧
      (ready = true → D.gtid = some gtid → ∃ o, ℓ'.vouched = some (o, toUtf8 (gtidProbe gtid)))) ℓ := by
  rw [checkReplicaHasGtid]
  refine minds_readPool.bind ?_
  rintro pool _ ⟨rfl, -⟩
  refine minds_ite (fun _ => minds_done ⟨h, rfl, rfl, nofun⟩) fun _ => ?_
  refine minds_getReplica.bind fun got ℓ₁ hdrew => ?_
  rcases got with e | ⟨c, idx⟩
  · obtain rfl : ℓ₁ = ℓ.anew := hdrew
    exact minds_done ⟨h, rfl, rfl, nofun⟩
  obtain ⟨hnone, d, hd, rfl⟩ := hdrew
  have hback : ∀ v, Holds σ (Ledger.free { ℓ.anew.hold c d with vouched := v } c).drawn := by
    intro v
    change Holds σ ((ℓ.anew.hold c d).free c).drawn
    rw [ℓ.anew.free_hold hnone]
    exact h
  unfold executeQuery
  refine Minds.bind (R := fun r ℓ' => ∃ v, ℓ' = { ℓ.anew.hold c d with vouched := v } ∧
    ∀ response, r = .ok response → (!response.isError && response.bytes.contains 0x31) = true →
      D.gtid = some gtid → ∃ o, v = some (o, toUtf8 (gtidProbe gtid))) ?_ fun r ℓ₂ hprobed => ?_
  · refine Minds.bind (R := fun r ℓ' => ∃ v, ℓ' = { ℓ.anew.hold c d with vouched := v } ∧
      ∀ response, r = .ok response → response.counts = true → D.gtid = some gtid →
        ∃ o, v = some (o, toUtf8 (gtidProbe gtid))) ?_ fun r ℓ₂ hprobed => ?_
    · refine minds_act trivial fun named t r htrusts _ => ⟨_, rfl, fun response hr hcounts hgtid => ?_⟩
      subst hr
      have hdrawn : (ℓ.anew.hold c d).drawn c = some d := Function.update_self ..
      have haffirms : response.affirms = true := by simpa [Duty.trusts, hgtid, hcounts] using htrusts
      refine ⟨d.origin, ?_⟩
      dsimp only
      rw [if_pos haffirms, hdrawn, Option.map_some]
    · obtain ⟨v, rfl, hv⟩ := hprobed
      refine minds_done ⟨v, rfl, fun response hr hcounts => ?_⟩
      rcases r with e | response'
      · cases hr
      · exact hv response' rfl (Except.ok.inj hr ▸ hcounts)
  · obtain ⟨v, rfl, hv⟩ := hprobed
    rcases r with e | response
    · refine minds_drop.next fun _ => ?_
      exact minds_done ⟨hback v, rfl, rfl, nofun⟩
    · refine minds_putReplica.next fun _ => ?_
      exact minds_done ⟨hback v, rfl, rfl, fun hready => hv response rfl hready⟩

end Probe

end TurbineProxy
