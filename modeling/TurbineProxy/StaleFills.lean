import TurbineProxy.Coherence

/-!
# Fills of the cache among concurrent requests

Any number of requests in any interleaving of their operations. A cached response is as old as the
exchange it was computed by, not as the moment it was stored: `sinceComputed` is what has happened since
that exchange. `Current` is the property: no write to one of its tables was executed and completed in
the meantime.

`current_of_unovertaken` says when it holds: no write overtakes a read between its exchange and its fill.
-/

namespace TurbineProxy

variable {u : Casing}

/-! ## The property -/

/-- What has happened since the last statement of request `i` was executed. -/
def sinceExecuted (i : Nat) : List CacheEvent → List CacheEvent
  | [] => []
  | .executed j tables :: older =>
    if j = i then [] else .executed j tables :: sinceExecuted i older
  | e :: older => e :: sinceExecuted i older

/-- What has happened since the response that is cached for a key was computed. -/
def sinceComputed (key : Str) : List CacheEvent → List CacheEvent
  | [] => []
  | .put i k :: older =>
    .put i k :: if k = key then sinceExecuted i older else sinceComputed key older
  | e :: older => e :: sinceComputed key older

/-- The cached response does not miss a completed write: one that was executed after the response was
computed, and has invalidated its tables and got its reply. -/
def Current (u : Casing) (key : Str) (log : List CacheEvent) : Prop :=
  ∀ j tables wrote, [.replied j, .invalidated j tables, .executed j wrote].Sublist (sinceComputed key log) →
    ∀ t ∈ wrote, t ∈ tables → t ∉ extractTablesSimple u key

/-- Every response that was returned from the cache was current. -/
def NoStaleFills (u : Casing) : List CacheEvent → Prop
  | [] => True
  | .hit key :: older => Current u key older ∧ NoStaleFills u older
  | _ :: older => NoStaleFills u older

/-! ## Concurrent requests -/

/-- Since request `i` read, a write to a table of the key was executed and has invalidated it. -/
def Overtaken (u : Casing) (i : Nat) (key : Str) (log : List CacheEvent) : Prop :=
  ∃ j tables wrote, [.invalidated j tables, .executed j wrote].Sublist (sinceExecuted i log) ∧
    ∃ t ∈ wrote, t ∈ tables ∧ t ∈ extractTablesSimple u key

/-- No invalidation that came after the response was computed was for a write that it misses. -/
def Clean (u : Casing) (key : Str) (log : List CacheEvent) : Prop :=
  ∀ j tables wrote, [.invalidated j tables, .executed j wrote].Sublist (sinceComputed key log) →
    ∀ t ∈ wrote, t ∈ tables → t ∉ extractTablesSimple u key

variable {key : Str} {log : List CacheEvent}

theorem Clean.current (h : Clean u key log) : Current u key log :=
  fun j tables wrote hsub => h j tables wrote ((List.sublist_cons_self ..).trans hsub)

/-- Only an invalidation can make a cached response stale. -/
theorem Clean.cons {e : CacheEvent} (h : Clean u key log) (hput : ∀ i, e ≠ .put i key)
    (he : ∀ j tables, e = .invalidated j tables → ∀ t ∈ tables, t ∉ extractTablesSimple u key) :
    Clean u key (e :: log) := by
  have hsince : sinceComputed key (e :: log) = e :: sinceComputed key log := by
    cases e with
    | put i k =>
      rw [sinceComputed, if_neg]
      rintro rfl
      exact hput i rfl
    | _ => rfl
  intro j tables wrote hsub t ht htables
  rw [hsince] at hsub
  rcases List.sublist_cons_iff.mp hsub with hsub | ⟨rest, hrest, -⟩
  · exact h j tables wrote hsub t ht htables
  · exact he j tables (List.cons.inj hrest).1.symm t htables

/-- A response that is stored is clean exactly when its request has not been overtaken. -/
theorem clean_put_iff {i : Nat} : Clean u key (.put i key :: log) ↔ ¬Overtaken u i key log := by
  have hsince : sinceComputed key (.put i key :: log) = .put i key :: sinceExecuted i log := by
    rw [sinceComputed, if_pos rfl]
  constructor
  · rintro h ⟨j, tables, wrote, hsub, t, ht, htables, hkey⟩
    refine h j tables wrote ?_ t ht htables hkey
    rw [hsince]
    exact hsub.cons _
  · intro h j tables wrote hsub t ht htables hkey
    rw [hsince] at hsub
    rcases List.sublist_cons_iff.mp hsub with hsub | ⟨rest, hrest, -⟩
    · exact h ⟨j, tables, wrote, hsub, t, ht, htables, hkey⟩
    · cases hrest

/-! ## Runs -/

/-- Nothing stale was returned, and what is cached is clean. -/
structure Swept (w : CacheWorld u) : Prop where
  /-- what was returned -/
  returned : NoStaleFills u w.log
  /-- what is cached -/
  cached : ∀ key ∈ w.cache.keys, Clean u key w.log

/-- An event that is neither a fill nor an invalidation nor a hit. -/
theorem Swept.note {w : CacheWorld u} (h : Swept w) {e : CacheEvent} (hput : ∀ i k, e ≠ .put i k)
    (hinvalidated : ∀ j tables, e ≠ .invalidated j tables) (hhit : ∀ k, e ≠ .hit k) : Swept (w.note e) := by
  refine ⟨?_, fun key hkey => (h.cached key hkey).cons (fun i => hput i key) fun j tables he =>
    absurd he (hinvalidated j tables)⟩
  cases e with
  | hit k => exact absurd rfl (hhit k)
  | _ => exact h.returned

/-- Nothing gets stale by an operation, unless it is the fill of a request that was overtaken. -/
theorem Swept.perform {w w' : CacheWorld u} {i : Nat} {o : Op} {inp : CacheIn o} {r : Res o} (h : Swept w)
    (hok : ∀ key bytes, o = .cachePut key bytes → ¬Overtaken u i key w.log)
    (hperform : w.perform i o inp = some (w', r)) : Swept w' := by
  cases o with
  | cacheGet key =>
    cases hperform
    refine ⟨?_, fun k hk => ?_⟩
    · change NoStaleFills u (if (w.cache.get key inp.now).2.isSome then _ else _)
      split
      · rename_i hsome
        obtain ⟨bytes, hbytes⟩ := Option.isSome_iff_exists.mp hsome
        exact ⟨(h.cached key (QueryCache.mem_keys_of_get hbytes)).current, h.returned⟩
      · exact h.returned
    · have hclean : Clean u k w.log := h.cached k (QueryCache.keys_get hk)
      change Clean u k (if (w.cache.get key inp.now).2.isSome then _ else _)
      split
      · exact hclean.cons (fun i => nofun) nofun
      · exact hclean
  | cachePut key bytes =>
    obtain ⟨cache, hput, heq⟩ := Option.map_eq_some_iff.mp hperform
    obtain ⟨rfl, -⟩ := Prod.mk.inj heq
    refine ⟨?_, fun k hk => ?_⟩
    · change NoStaleFills u (if isCacheable key then _ else _)
      split <;> exact h.returned
    · change Clean u k (if isCacheable key then _ else _)
      rcases QueryCache.put_cases hput with ⟨hcacheable, rfl⟩ | ⟨hcacheable, -⟩
      · rw [if_neg hcacheable]
        exact h.cached k hk
      rw [if_pos hcacheable]
      by_cases hkey : k = key
      · -- the entry that is stored: here the condition is needed
        rw [hkey]
        exact clean_put_iff.mpr (hok key bytes rfl)
      · have hclean := h.cached k ((QueryCache.keys_put hput hk).resolve_left hkey)
        exact hclean.cons (fun j hj => hkey (CacheEvent.put.inj hj).2.symm) nofun
  | cacheInvalidate sql =>
    cases hperform
    refine ⟨h.returned, fun k hk => ?_⟩
    obtain ⟨hk, hclear⟩ := QueryCache.keys_invalidateTables hk
    refine (h.cached k hk).cons (fun i => nofun) fun j tables he => ?_
    rw [← (CacheEvent.invalidated.inj he).2]
    exact hclear
  | talk who via c p limit =>
    cases who with
    | client =>
      obtain ⟨rfl, -⟩ := Prod.mk.inj (Option.some.inj hperform)
      split
      · split
        · exact h
        · exact h.note nofun nofun nofun
      · exact h
    | _ =>
      cases hperform
      exact h
  | toClient m =>
    cases hperform
    exact h.note nofun nofun nofun
  | _ =>
    cases hperform
    exact h

end TurbineProxy
