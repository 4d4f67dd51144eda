import TurbineProxy.QueryCache

/-!
# The query cache and its history

`QueryCache` as a bounded map whose entries expire, with the least recently used one evicted when there is no
room: what it answers is said by the calls so far (`stored`), and so is which entry was used when (`lastUse`).
The entries of a `HashMap` come in no particular order, so they may be shuffled before every call.
-/

namespace TurbineProxy

open Str

/-! ## Calls -/

/-- A call of the cache. -/
inductive CacheCall : Type where
  /-- `get` -/
  | get (key : Str)
  /-- `put` -/
  | put (key : Str) (bytes : Bytes)
  /-- `invalidate_tables` -/
  | invalidate (tables : List Str)

/-- A call that was made. -/
structure CacheRecord where
  /-- the call -/
  call : CacheCall
  /-- when it was made -/
  time : Nat
  /-- its answer -/
  answer : Option Bytes
  /-- the keys that had an entry before and have none any more -/
  dropped : List Str

variable (u : Casing)

/-- The cache with its counters, which are words. -/
structure CountedCache where
  /-- the entries -/
  cache : QueryCache u
  /-- gets that found an answer -/
  hits : Nat
  /-- gets that did not -/
  misses : Nat

variable {u}

/-- One call, at time `now`; `none` when it panics, which leaves everything as it is. -/
def CountedCache.call (s : CountedCache u) (now : Nat) : CacheCall → Option (CountedCache u × Option Bytes)
  | .get key =>
    let r := s.cache.get key now
    match r.2 with
    | some bytes => some (⟨r.1, (s.hits + 1) % 2 ^ 64, s.misses⟩, some bytes)
    | none => some (⟨r.1, s.hits, (s.misses + 1) % 2 ^ 64⟩, none)
  | .put key bytes => (s.cache.put key bytes now).map fun cache => (⟨cache, s.hits, s.misses⟩, none)
  | .invalidate tables => some (⟨s.cache.invalidateTables tables, s.hits, s.misses⟩, none)

/-- The same entries in another order. -/
def QueryCache.Shuffled (c c' : QueryCache u) : Prop :=
  c.entries.Perm c'.entries ∧ c'.ttl = c.ttl ∧ c'.maxEntries = c.maxEntries

/-- The keys that have lost their entries. -/
def QueryCache.dropped (c c' : QueryCache u) : List Str := c.keys.filter fun key => !c'.keys.contains key

/-- No call was made later. -/
def Latest (h : List CacheRecord) (now : Nat) : Prop := ∀ e ∈ h.head?, e.time ≤ now

/-- The calls that have returned so far, the last one first, and where they have led to. -/
inductive Calls (u : Casing) (maxEntries ttl : Nat) : List CacheRecord → CountedCache u → Prop where
  /-- no calls yet -/
  | new : Calls u maxEntries ttl [] ⟨.new u maxEntries ttl, 0, 0⟩
  /-- another call -/
  | call {h : List CacheRecord} {s s' : CountedCache u} {c : QueryCache u} {answer : Option Bytes} (now : Nat)
      (call : CacheCall) : Calls u maxEntries ttl h s → Latest h now → s.cache.Shuffled c →
      CountedCache.call ⟨c, s.hits, s.misses⟩ now call = some (s', answer) →
      Calls u maxEntries ttl (⟨call, now, answer, c.dropped s'.cache⟩ :: h) s'

/-! ## What the history says -/

variable (u)

/-- The answer under a key and when it was stored: by the last `put` of it that was cacheable, unless it was
invalidated or evicted since. -/
def stored (key : Str) : List CacheRecord → Option (Bytes × Nat)
  | [] => none
  | e :: older =>
    match e.call with
    | .get _ => stored key older
    | .put k bytes =>
      if k = key then (if isCacheable key then some (bytes, e.time) else stored key older)
      else if key ∈ e.dropped then none
      else stored key older
    | .invalidate tables =>
      if ∃ t ∈ tables, t ∈ extractTablesSimple u key then none else stored key older

variable {u}

/-- When a key was last stored or found. -/
def lastUse (key : Str) : List CacheRecord → Nat
  | [] => 0
  | e :: older =>
    match e.call with
    | .get k => if k = key ∧ e.answer.isSome then e.time else lastUse key older
    | .put k _ => if k = key ∧ isCacheable key then e.time else lastUse key older
    | .invalidate _ => lastUse key older

section History

variable {h : List CacheRecord} {time : Nat} {answer : Option Bytes} {dropped : List Str} {key k : Str}

@[simp] theorem stored_get : stored u key (⟨.get k, time, answer, dropped⟩ :: h) = stored u key h := rfl

theorem stored_put {bytes : Bytes} : stored u key (⟨.put k bytes, time, answer, dropped⟩ :: h) =
    if k = key then (if isCacheable key then some (bytes, time) else stored u key h)
    else if key ∈ dropped then none
    else stored u key h := rfl

theorem stored_invalidate {tables : List Str} : stored u key (⟨.invalidate tables, time, answer, dropped⟩ :: h) =
    if ∃ t ∈ tables, t ∈ extractTablesSimple u key then none else stored u key h := rfl

@[simp] theorem lastUse_get : lastUse key (⟨.get k, time, answer, dropped⟩ :: h) =
    if k = key ∧ answer.isSome then time else lastUse key h := rfl

theorem lastUse_put {bytes : Bytes} : lastUse key (⟨.put k bytes, time, answer, dropped⟩ :: h) =
    if k = key ∧ isCacheable key then time else lastUse key h := rfl

@[simp] theorem lastUse_invalidate {tables : List Str} :
    lastUse key (⟨.invalidate tables, time, answer, dropped⟩ :: h) = lastUse key h := rfl

end History

/-- The gets among the calls. -/
def gets (h : List CacheRecord) : Nat :=
  h.countP fun e => match e.call with
    | .get _ => true
    | _ => false

/-! ## What a call keeps -/

/-- The entries are what the history says. -/
structure CacheHolds (maxEntries ttl : Nat) (h : List CacheRecord) (c : QueryCache u) : Prop where
  /-- the life time does not change -/
  life : c.ttl = ttl
  /-- nor does the capacity -/
  capacity : c.maxEntries = maxEntries
  /-- no key has two entries -/
  distinct : c.keys.Nodup
  /-- there are not too many -/
  bounded : c.entries.length ≤ maxEntries
  /-- an entry is what was stored, and when it was used -/
  entry : ∀ key e, (key, e) ∈ c.entries → ∃ t, stored u key h = some (e.bytes, t) ∧ e.expiresAt = t + ttl ∧
    e.lastUsed = lastUse key h
  /-- what was stored has an entry until it expires -/
  kept : ∀ key bytes t, stored u key h = some (bytes, t) → key ∈ c.keys ∨ ∀ now, Latest h now → t + ttl ≤ now

section Steps

variable {maxEntries ttl now : Nat} {h : List CacheRecord} {c c' : QueryCache u} {key : Str} {bytes : Bytes}

theorem QueryCache.mem_keys {e : CacheEntry} (he : (key, e) ∈ c.entries) : key ∈ c.keys := List.mem_map_of_mem he

theorem QueryCache.exists_entry (hkey : key ∈ c.keys) : ∃ e, (key, e) ∈ c.entries := by
  obtain ⟨⟨k, e⟩, he, rfl⟩ := List.mem_map.mp hkey
  exact ⟨e, he⟩

/-- Shuffling changes nothing that counts. -/
theorem CacheHolds.shuffle (hc : CacheHolds maxEntries ttl h c) (hshuffle : c.Shuffled c') :
    CacheHolds maxEntries ttl h c' := by
  obtain ⟨hperm, hlife, hcapacity⟩ := hshuffle
  have hkeys : c.keys.Perm c'.keys := hperm.map _
  refine ⟨hlife.trans hc.life, hcapacity.trans hc.capacity, hkeys.nodup_iff.mp hc.distinct, ?_, ?_, ?_⟩
  · exact hperm.length_eq ▸ hc.bounded
  · exact fun key e he => hc.entry key e (hperm.mem_iff.mpr he)
  · exact fun key bytes t hstored => (hc.kept key bytes t hstored).imp_left hkeys.mem_iff.mp

theorem Latest.older {time : Nat} {call : CacheCall} {answer : Option Bytes} {dropped : List Str} {later : Nat}
    (hlatest : Latest h time) (hlater : Latest (⟨call, time, answer, dropped⟩ :: h) later) : Latest h later :=
  fun e he => (hlatest e he).trans (hlater _ rfl)

/-- Entries may go if the history says that they are not stored any more, or have expired. -/
theorem CacheHolds.retain (hc : CacheHolds maxEntries ttl h c) {h' : List CacheRecord} (p : Str × CacheEntry → Bool)
    (hsame : ∀ key e, (key, e) ∈ c.entries → p (key, e) = true →
      stored u key h' = stored u key h ∧ lastUse key h' = lastUse key h)
    (hstill : ∀ key bytes t, stored u key h' = some (bytes, t) → stored u key h = some (bytes, t) ∧
      ((∀ e, (key, e) ∈ c.entries → p (key, e) = true) ∨ ∀ now, Latest h' now → t + ttl ≤ now))
    (hlater : ∀ now, Latest h' now → Latest h now) : CacheHolds maxEntries ttl h' (c.retain p) := by
  have hsub : (c.retain p).entries.Sublist c.entries := List.filter_sublist
  -- an entry that stays is still what is stored, and what is still stored has stayed
  refine ⟨hc.life, hc.capacity, hc.distinct.sublist (hsub.map _), hsub.length_le.trans hc.bounded, ?_, ?_⟩
  · intro key e he
    obtain ⟨he, hp⟩ := List.mem_filter.mp he
    obtain ⟨hstored, huse⟩ := hsame key e he hp
    rw [hstored, huse]
    exact hc.entry key e he
  · intro key bytes t hstored
    obtain ⟨hstored, hpass | hexpired⟩ := hstill key bytes t hstored
    · rcases hc.kept key bytes t hstored with hkey | hexpired
      · obtain ⟨e, he⟩ := QueryCache.exists_entry hkey
        exact .inl (QueryCache.mem_keys (List.mem_filter.mpr ⟨he, hpass e he⟩))
      · exact .inr fun now hnow => hexpired now (hlater now hnow)
    · exact .inr hexpired

/-- A hit marks the entry as used now. -/
theorem CacheHolds.touch (hc : CacheHolds maxEntries ttl h c) (hnow : Latest h now) (dropped : List Str) :
    CacheHolds maxEntries ttl (⟨.get key, now, some bytes, dropped⟩ :: h) (c.touch key now) := by
  have hkeys : (c.touch key now).keys = c.keys := QueryCache.keys_touch
  refine ⟨hc.life, hc.capacity, hkeys ▸ hc.distinct, ?_, ?_, ?_⟩
  · exact (List.length_map _).trans_le hc.bounded
  · intro k e he
    obtain ⟨⟨k₀, e₀⟩, he₀, heq⟩ := List.mem_map.mp he
    obtain ⟨t, hstored, hexpires, hused⟩ := hc.entry k₀ e₀ he₀
    dsimp only at heq
    split at heq
    · rename_i hk
      cases heq
      exact ⟨t, hstored, hexpires, by simp [hk]⟩
    · rename_i hk
      cases heq
      exact ⟨t, hstored, hexpires, by simpa [Ne.symm hk] using hused⟩
  · intro k b t hstored
    rw [hkeys]
    exact (hc.kept k b t hstored).imp_right fun hexpired later hlater => hexpired later (hnow.older hlater)

/-- A call of `get` leaves everything stored. -/
theorem CacheHolds.get (hc : CacheHolds maxEntries ttl h c) (hnow : Latest h now) (dropped : List Str) :
    CacheHolds maxEntries ttl (⟨.get key, now, (c.get key now).2, dropped⟩ :: h) (c.get key now).1 := by
  have holder : ∀ later, Latest (⟨.get key, now, none, dropped⟩ :: h) later → Latest h later :=
    fun later hlater => hnow.older hlater
  rw [QueryCache.get]
  split
  · rename_i e hlookup
    have he := mem_of_lookup hlookup
    split
    · exact hc.touch hnow dropped
    · rename_i hexpired
      obtain ⟨t, hstored, hexpires, -⟩ := hc.entry key e he
      refine hc.retain _ (fun k e' he' hp => ⟨rfl, by simp⟩) (fun k b t' hk => ⟨hk, ?_⟩) holder
      by_cases hkey : k = key
      · -- the entry that goes has expired, and time does not go back
        subst hkey
        have hsame : some (b, t') = some (e.bytes, t) := hk.symm.trans hstored
        cases hsame
        refine .inr fun later hlater => ?_
        have hlater : now ≤ later := hlater _ rfl
        omega
      · exact .inl fun e' _ => by simpa using hkey
  · refine ⟨hc.life, hc.capacity, hc.distinct, hc.bounded, ?_, ?_⟩
    · intro k e he
      simpa using hc.entry k e he
    · intro k b t hk
      exact (hc.kept k b t hk).imp_right fun hexpired later hlater => hexpired later (holder later hlater)

/-- Room is made if there is none, by the entry that was used least recently. -/
theorem QueryCache.makeRoom_cases (hmax : 1 ≤ c.maxEntries) :
    (c.entries.length < c.maxEntries ∧ c.makeRoom = c) ∨
      ∃ victim ∈ c.entries, c.maxEntries ≤ c.entries.length ∧
        (∀ e ∈ c.entries, victim.2.lastUsed ≤ e.2.lastUsed) ∧ c.makeRoom = c.remove victim.1 := by
  rw [QueryCache.makeRoom]
  split
  · rename_i hfull
    cases hmin : c.entries.argmin fun e => e.2.lastUsed with
    | none =>
      rw [List.argmin_eq_none.mp hmin] at hfull
      simp at hfull
      omega
    | some victim =>
      refine .inr ⟨victim, List.argmin_mem hmin, hfull, fun e he => ?_, rfl⟩
      exact List.le_of_mem_argmin (f := fun e : Str × CacheEntry => e.2.lastUsed) he hmin
  · rename_i hroom
    exact .inl ⟨Nat.lt_of_not_le hroom, rfl⟩

theorem QueryCache.length_remove_lt (hkey : key ∈ c.keys) : (c.remove key).entries.length < c.entries.length := by
  obtain ⟨e, he⟩ := QueryCache.exists_entry hkey
  exact List.length_filter_lt_length_iff_exists.mpr ⟨_, he, by simp⟩

/-- What a `put` leaves of the other entries: there is room for one. -/
theorem QueryCache.room (hmax : 1 ≤ c.maxEntries) (hbounded : c.entries.length ≤ c.maxEntries) (key : Str) :
    (c.makeRoom.remove key).entries.Sublist c.entries ∧ (c.makeRoom.remove key).entries.length < c.maxEntries := by
  have hremove : (c.makeRoom.remove key).entries.Sublist c.makeRoom.entries := List.filter_sublist
  rcases QueryCache.makeRoom_cases hmax with ⟨hroom, heq⟩ | ⟨victim, hvictim, hfull, -, heq⟩
  · rw [heq] at hremove ⊢
    exact ⟨hremove, hremove.length_le.trans_lt hroom⟩
  · rw [heq] at hremove ⊢
    have hshort := QueryCache.length_remove_lt (QueryCache.mem_keys hvictim)
    exact ⟨hremove.trans List.filter_sublist, hremove.length_le.trans_lt (hshort.trans_le hbounded)⟩

theorem QueryCache.not_mem_remove : key ∉ (c.remove key).keys := by
  intro hkey
  obtain ⟨e, he⟩ := QueryCache.exists_entry hkey
  simpa using (List.mem_filter.mp he).2

theorem QueryCache.put_entries (hput : c.put key bytes now = some c') (hcacheable : isCacheable key = true) :
    c'.entries = (key, ⟨bytes, extractTablesSimple u key, now + c.ttl, now⟩) :: (c.makeRoom.remove key).entries := by
  rcases QueryCache.put_cases hput with ⟨hnot, -⟩ | ⟨-, rfl⟩
  · exact absurd hcacheable hnot
  · rfl

theorem QueryCache.makeRoom_config (c : QueryCache u) :
    c.makeRoom.ttl = c.ttl ∧ c.makeRoom.maxEntries = c.maxEntries := by
  rw [QueryCache.makeRoom]
  split
  · split <;> exact ⟨rfl, rfl⟩
  · exact ⟨rfl, rfl⟩

theorem QueryCache.put_config (hput : c.put key bytes now = some c') :
    c'.ttl = c.ttl ∧ c'.maxEntries = c.maxEntries := by
  rcases QueryCache.put_cases hput with ⟨-, rfl⟩ | ⟨-, rfl⟩
  · exact ⟨rfl, rfl⟩
  · exact c.makeRoom_config

theorem QueryCache.mem_dropped : key ∈ c.dropped c' ↔ key ∈ c.keys ∧ key ∉ c'.keys := by
  simp [QueryCache.dropped]

/-- A call of `put` stores its answer, and what is gone is dropped. -/
theorem CacheHolds.put (hc : CacheHolds maxEntries ttl h c) (hnow : Latest h now) (hmax : 1 ≤ maxEntries)
    (hput : c.put key bytes now = some c') :
    CacheHolds maxEntries ttl (⟨.put key bytes, now, none, c.dropped c'⟩ :: h) c' := by
  obtain ⟨hlife, hcapacity⟩ := QueryCache.put_config hput
  by_cases hcacheable : isCacheable key = true
  · obtain ⟨hsub, hroom⟩ := QueryCache.room (hc.capacity ▸ hmax) (hc.capacity ▸ hc.bounded) key
    have hentries := QueryCache.put_entries hput hcacheable
    have hkeys : c'.keys = key :: (c.makeRoom.remove key).keys := by rw [QueryCache.keys, hentries]; rfl
    refine ⟨hlife.trans hc.life, hcapacity.trans hc.capacity, ?_, ?_, ?_, ?_⟩
    · -- the old entry of the key goes before the new one comes
      rw [hkeys]
      exact List.nodup_cons.mpr ⟨QueryCache.not_mem_remove, hc.distinct.sublist (hsub.map _)⟩
    · rw [hentries, List.length_cons, ← hc.capacity]
      exact hroom
    · intro k e he
      rw [hentries] at he
      rcases List.mem_cons.mp he with heq | he
      · cases heq
        refine ⟨now, ?_, by rw [hc.life], ?_⟩
        · rw [stored_put, if_pos rfl, if_pos hcacheable]
        · rw [lastUse_put, if_pos ⟨rfl, hcacheable⟩]
      · have hother : key ≠ k := by
          rintro rfl
          exact QueryCache.not_mem_remove (QueryCache.mem_keys he)
        have hpresent : k ∉ c.dropped c' := by
          rw [QueryCache.mem_dropped, hkeys]
          exact fun hdropped => hdropped.2 (.tail _ (QueryCache.mem_keys he))
        rw [stored_put, lastUse_put, if_neg hother, if_neg hpresent, if_neg fun hsame => hother hsame.1]
        exact hc.entry k e (hsub.subset he)
    · intro k b t hk
      rw [stored_put] at hk
      split at hk
      · rename_i hsame
        rw [hkeys, hsame]
        exact .inl (.head _)
      split at hk
      · cases hk
      · rename_i hpresent
        refine (hc.kept k b t hk).imp (fun hkey => ?_) fun hexpired later hlater => hexpired later (hnow.older hlater)
        by_contra hgone
        exact hpresent (QueryCache.mem_dropped.mpr ⟨hkey, hgone⟩)
  · -- nothing is stored, so nothing has changed, and the history does not say otherwise
    rw [QueryCache.put_uncacheable hcacheable, Option.some.injEq] at hput
    subst hput
    have hdropped : ∀ k, k ∉ c.dropped c := by
      intro k hk
      obtain ⟨hbefore, hafter⟩ := QueryCache.mem_dropped.mp hk
      exact hafter hbefore
    have hstored : ∀ k, stored u k (⟨.put key bytes, now, none, c.dropped c⟩ :: h) = stored u k h := by
      intro k
      rw [stored_put, if_neg (hdropped k)]
      split
      · rename_i hsame
        rw [← hsame, if_neg hcacheable]
      · rfl
    refine ⟨hc.life, hc.capacity, hc.distinct, hc.bounded, ?_, ?_⟩
    · intro k e he
      have huse : ¬(key = k ∧ isCacheable k = true) := by
        rintro ⟨rfl, hk⟩
        exact hcacheable hk
      rw [hstored, lastUse_put, if_neg huse]
      exact hc.entry k e he
    · intro k b t hk
      rw [hstored] at hk
      exact (hc.kept k b t hk).imp_right fun hexpired later hlater => hexpired later (hnow.older hlater)

/-- A call of `invalidate_tables` takes what has one of the tables. -/
theorem CacheHolds.invalidate (hc : CacheHolds maxEntries ttl h c) (hnow : Latest h now) (tables dropped : List Str) :
    CacheHolds maxEntries ttl (⟨.invalidate tables, now, none, dropped⟩ :: h) (c.invalidateTables tables) := by
  have holder : ∀ later, Latest (⟨.invalidate tables, now, none, dropped⟩ :: h) later → Latest h later :=
    fun later hlater => hnow.older hlater
  rw [QueryCache.invalidateTables]
  split
  · rename_i hempty
    obtain rfl := List.isEmpty_iff.mp hempty
    refine ⟨hc.life, hc.capacity, hc.distinct, hc.bounded, ?_, ?_⟩
    · intro k e he
      simpa [stored_invalidate] using hc.entry k e he
    · intro k b t hk
      have hk : stored u k h = some (b, t) := by simpa [stored_invalidate] using hk
      exact (hc.kept k b t hk).imp_right fun hexpired later hlater => hexpired later (holder later hlater)
  · have hmeets : ∀ k e, (k, e) ∈ c.entries →
        ((!e.tables.any tables.contains) = true ↔ ¬∃ t ∈ tables, t ∈ extractTablesSimple u k) := by
      intro k e he
      rw [c.sound _ he, Bool.not_eq_true', ← Bool.not_eq_true, List.any_eq_true, not_iff_not]
      constructor
      · rintro ⟨t, ht, htables⟩
        exact ⟨t, List.contains_iff_mem.mp htables, ht⟩
      · rintro ⟨t, htables, ht⟩
        exact ⟨t, ht, List.contains_iff_mem.mpr htables⟩
    refine hc.retain _ (fun k e he hp => ⟨?_, rfl⟩) (fun k b t hk => ?_) holder
    · rw [stored_invalidate, if_neg ((hmeets k e he).mp hp)]
    · rw [stored_invalidate] at hk
      split at hk
      · cases hk
      · exact ⟨hk, .inl fun e he => (hmeets k e he).mpr ‹_›⟩

/-- A new cache holds what no calls at all leave behind. -/
theorem CacheHolds.new : CacheHolds maxEntries ttl [] (.new u maxEntries ttl) :=
  ⟨rfl, rfl, List.nodup_nil, Nat.zero_le _, fun _ _ he => absurd he List.not_mem_nil, fun _ _ _ hk => by cases hk⟩

/-- What `put` drops is one entry, which had to make room. -/
theorem CacheHolds.evicts (hc : CacheHolds maxEntries ttl h c) (hmax : 1 ≤ maxEntries)
    (hput : c.put key bytes now = some c') {k : Str} (hk : k ∈ c.dropped c') : c.entries.length = maxEntries ∧
      (∀ k' ∈ c.keys, lastUse k h ≤ lastUse k' h) ∧ ∀ k' ∈ c.dropped c', k' = k := by
  have hcacheable : isCacheable key = true := by
    by_contra hnot
    rw [QueryCache.put_uncacheable hnot, Option.some.injEq] at hput
    rw [← hput, QueryCache.mem_dropped] at hk
    exact hk.2 hk.1
  -- what stays is everything but the victim
  have hgone : ∀ k', k' ∈ c.dropped c' → k' ∈ c.keys ∧ k' ∉ c.makeRoom.keys := by
    intro k' hk'
    obtain ⟨hbefore, hafter⟩ := QueryCache.mem_dropped.mp hk'
    rw [QueryCache.keys, QueryCache.put_entries hput hcacheable] at hafter
    obtain ⟨hother, hstays⟩ : k' ≠ key ∧ k' ∉ (c.makeRoom.remove key).keys := by simpa [QueryCache.keys] using hafter
    refine ⟨hbefore, fun hroom => hstays ?_⟩
    obtain ⟨e, he⟩ := QueryCache.exists_entry hroom
    exact QueryCache.mem_keys (List.mem_filter.mpr ⟨he, by simpa using hother⟩)
  rcases QueryCache.makeRoom_cases (hc.capacity ▸ hmax) with ⟨-, heq⟩ | ⟨⟨v, e⟩, hvictim, hfull, hleast, heq⟩
  · rw [heq] at hgone
    exact absurd (hgone k hk).1 (hgone k hk).2
  rw [heq] at hgone
  have hvictimOnly : ∀ k', k' ∈ c.dropped c' → k' = v := by
    intro k' hk'
    obtain ⟨hbefore, hafter⟩ := hgone k' hk'
    by_contra hother
    obtain ⟨e', he'⟩ := QueryCache.exists_entry hbefore
    exact hafter (QueryCache.mem_keys (List.mem_filter.mpr ⟨he', by simpa using hother⟩))
  obtain rfl := hvictimOnly k hk
  refine ⟨hc.bounded.antisymm (hc.capacity ▸ hfull), fun k' hk' => ?_, hvictimOnly⟩
  obtain ⟨e', he'⟩ := QueryCache.exists_entry hk'
  obtain ⟨-, -, -, hused⟩ := hc.entry _ _ hvictim
  obtain ⟨-, -, -, hused'⟩ := hc.entry _ _ he'
  rw [← hused, ← hused']
  exact hleast _ he'

/-- A look-up that finds nothing has nothing to find. -/
theorem QueryCache.lookup_none (hlookup : c.entries.lookup key = none) : key ∉ c.keys := by
  intro hkey
  obtain ⟨e, he⟩ := QueryCache.exists_entry hkey
  simpa using List.lookup_eq_none_iff.mp hlookup _ he

/-- `get` answers what is stored and has not expired. -/
theorem CacheHolds.answer (hc : CacheHolds maxEntries ttl h c) (hnow : Latest h now) :
    (c.get key now).2 = (stored u key h).bind fun e => if now < e.2 + ttl then some e.1 else none := by
  rw [QueryCache.get]
  cases hlookup : c.entries.lookup key with
  | some e =>
    obtain ⟨t, hstored, hexpires, -⟩ := hc.entry key e (mem_of_lookup hlookup)
    rw [hstored, Option.bind_some]
    dsimp only
    rw [hexpires]
    by_cases hlive : now < t + ttl
    · rw [if_pos hlive, if_pos hlive]
    · rw [if_neg hlive, if_neg hlive]
  | none =>
    cases hstored : stored u key h with
    | none => rfl
    | some e =>
      obtain ⟨bytes, t⟩ := e
      rcases hc.kept key bytes t hstored with hkey | hexpired
      · exact absurd hkey (QueryCache.lookup_none hlookup)
      · rw [Option.bind_some, if_neg (Nat.not_lt.mpr (hexpired now hnow))]

end Steps

/-! ## Runs -/

/-- The gets that found an answer. -/
def found (h : List CacheRecord) : Nat :=
  h.countP fun e => match e.call with
    | .get _ => e.answer.isSome
    | _ => false

/-- The gets that did not. -/
def missed (h : List CacheRecord) : Nat :=
  h.countP fun e => match e.call with
    | .get _ => e.answer.isNone
    | _ => false

theorem found_add_missed (h : List CacheRecord) : found h + missed h = gets h := by
  induction h with
  | nil => rfl
  | cons e h ih =>
    obtain ⟨call, time, answer, dropped⟩ := e
    unfold found missed gets at ih ⊢
    cases call with
    | get key =>
      cases answer with
      | none => simp; omega
      | some bytes => simp; omega
    | put key bytes => simpa using ih
    | invalidate tables => simpa using ih

section Runs

variable {maxEntries ttl : Nat} {h : List CacheRecord} {s : CountedCache u}

variable {s' : CountedCache u} {now : Nat} {answer : Option Bytes}

/-- What a look-up does to the entries and to the counters. -/
theorem CountedCache.call_get {key : Str} (hcall : s.call now (.get key) = some (s', answer)) :
    s'.cache = (s.cache.get key now).1 ∧ answer = (s.cache.get key now).2 ∧
      s'.hits = (if answer.isSome then (s.hits + 1) % 2 ^ 64 else s.hits) ∧
      s'.misses = (if answer.isSome then s.misses else (s.misses + 1) % 2 ^ 64) := by
  unfold CountedCache.call at hcall
  dsimp only at hcall
  cases hanswer : (s.cache.get key now).2 with
  | none =>
    rw [hanswer] at hcall
    cases hcall
    exact ⟨rfl, rfl, rfl, rfl⟩
  | some bytes =>
    rw [hanswer] at hcall
    cases hcall
    exact ⟨rfl, rfl, rfl, rfl⟩

/-- A `put` leaves the counters alone. -/
theorem CountedCache.call_put {key : Str} {bytes : Bytes} (hcall : s.call now (.put key bytes) = some (s', answer)) :
    s.cache.put key bytes now = some s'.cache ∧ answer = none ∧ s'.hits = s.hits ∧ s'.misses = s.misses := by
  obtain ⟨c, hput, heq⟩ := Option.map_eq_some_iff.mp hcall
  cases heq
  exact ⟨hput, rfl, rfl, rfl⟩

/-- One more call keeps the entries as the history says. -/
theorem CacheHolds.call (hs : CacheHolds maxEntries ttl h s.cache) (hnow : Latest h now) (hmax : 1 ≤ maxEntries)
    {call : CacheCall} (hcall : s.call now call = some (s', answer)) :
    CacheHolds maxEntries ttl (⟨call, now, answer, s.cache.dropped s'.cache⟩ :: h) s'.cache := by
  cases call with
  | get key =>
    obtain ⟨hcache, rfl, -, -⟩ := CountedCache.call_get hcall
    rw [hcache]
    exact hs.get hnow _
  | put key bytes =>
    obtain ⟨hput, rfl, -, -⟩ := CountedCache.call_put hcall
    exact hs.put hnow hmax hput
  | invalidate tables =>
    cases hcall
    exact hs.invalidate hnow tables _

/-- The entries are what the history says, after every run. -/
theorem Calls.holds (hrun : Calls u maxEntries ttl h s) (hmax : 1 ≤ maxEntries) :
    CacheHolds maxEntries ttl h s.cache := by
  induction hrun with
  | new => exact .new
  | call now call _ hlatest hshuffle hcall ih =>
    exact CacheHolds.call (s := ⟨_, _, _⟩) (ih.shuffle hshuffle) hlatest hmax hcall

/-- Over any history of calls the two counters of the cache are the numbers of its hits and misses, as 64-bit words. -/
theorem Calls.counted (hrun : Calls u maxEntries ttl h s) :
    s.hits = found h % 2 ^ 64 ∧ s.misses = missed h % 2 ^ 64 := by
  induction hrun with
  | new => exact ⟨rfl, rfl⟩
  | @call h s s' c answer now call _ _ _ hcall ih =>
    obtain ⟨hhits, hmisses⟩ := ih
    unfold found missed at *
    cases call with
    | get key =>
      obtain ⟨-, -, hhits', hmisses'⟩ := CountedCache.call_get hcall
      rw [hhits', hmisses']
      cases answer with
      | none => simp; omega
      | some bytes => simp; omega
    | put key bytes =>
      obtain ⟨-, -, hhits', hmisses'⟩ := CountedCache.call_put hcall
      simpa [hhits', hmisses'] using ⟨hhits, hmisses⟩
    | invalidate tables =>
      cases hcall
      simpa using ⟨hhits, hmisses⟩

/-- What the cache is for: a map of bounded size whose entries expire. It is about the next call, whatever the
order of the entries. -/
structure BoundedTtlMap (maxEntries ttl : Nat) (h : List CacheRecord) (s : CountedCache u) : Prop where
  /-- there are not too many entries -/
  bounded : s.cache.entries.length ≤ maxEntries
  /-- `get` answers what is stored and has not expired -/
  answers : ∀ c, s.cache.Shuffled c → ∀ key now, Latest h now →
    (c.get key now).2 = (stored u key h).bind fun e => if now < e.2 + ttl then some e.1 else none
  /-- the counters are the gets, as words -/
  counted : found h + missed h = gets h ∧ s.hits = found h % 2 ^ 64 ∧ s.misses = missed h % 2 ^ 64
  /-- `put` takes the entry of another key only if the cache is full, and then one that was used least recently -/
  evicts : ∀ c, s.cache.Shuffled c → ∀ key bytes now c', c.put key bytes now = some c' → ∀ k ∈ c.dropped c',
    c.entries.length = maxEntries ∧ (∀ k' ∈ c.keys, lastUse k h ≤ lastUse k' h) ∧ ∀ k' ∈ c.dropped c', k' = k

/-- After every run of calls the cache is a bounded map whose entries expire. -/
theorem query_cache_refines (hmax : 1 ≤ maxEntries) (hrun : Calls u maxEntries ttl h s) :
    BoundedTtlMap maxEntries ttl h s := by
  have hs := hrun.holds hmax
  refine ⟨hs.bounded, ?_, ⟨found_add_missed h, hrun.counted⟩, ?_⟩
  · intro c hshuffle key now hnow
    exact (hs.shuffle hshuffle).answer hnow
  · intro c hshuffle key bytes now c' hput k hk
    exact (hs.shuffle hshuffle).evicts hmax hput hk

end Runs

/-- The same order is one of the orders. -/
theorem QueryCache.Shuffled.refl (c : QueryCache u) : c.Shuffled c := ⟨.refl _, rfl, rfl⟩

/-- A call that does not panic, with the entries in the order they were left in. -/
theorem Calls.next {maxEntries ttl : Nat} {h : List CacheRecord} {s : CountedCache u}
    (hrun : Calls u maxEntries ttl h s) (now : Nat) (call : CacheCall) (hlatest : Latest h now)
    (hsome : (s.call now call).isSome = true) :
    Calls u maxEntries ttl (⟨call, now, ((s.call now call).get hsome).2,
      s.cache.dropped ((s.call now call).get hsome).1.cache⟩ :: h) ((s.call now call).get hsome).1 :=
  hrun.call now call hlatest (.refl _) (Option.some_get hsome).symm

/-- A query is stored, found, and found again. -/
theorem query_cache_refines_hit : ∃ h s, BoundedTtlMap (u := .ascii) 1 30 h s ∧ found h = 1 ∧
    (s.cache.get "SELECT 1".toList 29).2 = some [7] := by
  have hrun := (Calls.new : Calls .ascii 1 30 [] _).next 0 (.put "SELECT 1".toList [7])
    (fun _ he => by cases he) (by decide +kernel)
  have hrun := hrun.next 20 (.get "SELECT 1".toList) (fun _ he => by cases he; decide)
    (by decide +kernel)
  exact ⟨_, _, query_cache_refines (by decide) hrun, by decide +kernel, by decide +kernel⟩

/-- The last response stored is not always found: a query that depends on the clock is not stored at all. A
cache that is full evicts another entry even when a key is stored that has one. And an entry that would live for
the longest of durations cannot be stored. -/
theorem put_not_always_found :
    (∃ h s, Calls .ascii 1 30 h s ∧ h.map CacheRecord.call = [.put "SELECT NOW()".toList [7]] ∧
      (s.cache.get "SELECT NOW()".toList 0).2 = none) ∧
    (∃ h s, Calls .ascii 2 30 h s ∧ s.cache.keys = ["SELECT 2".toList, "SELECT 1".toList] ∧
      (s.cache.put "SELECT 2".toList [8] 2).map s.cache.dropped = some ["SELECT 1".toList]) ∧
    ((QueryCache.new .ascii 1 ((2 ^ 64 - 1) * 10 ^ 9)).put "SELECT 1".toList [7] 0).isNone = true := by
  refine ⟨?_, ?_, by decide +kernel⟩
  · have hrun := (Calls.new : Calls .ascii 1 30 [] _).next 0 (.put "SELECT NOW()".toList [7])
      (fun _ he => by cases he) (by decide +kernel)
    exact ⟨_, _, hrun, rfl, by decide +kernel⟩
  · have hrun := (Calls.new : Calls .ascii 2 30 [] _).next 0 (.put "SELECT 1".toList [7])
      (fun _ he => by cases he) (by decide +kernel)
    have hrun := hrun.next 1 (.put "SELECT 2".toList [8]) (fun _ he => by cases he; decide)
      (by decide +kernel)
    exact ⟨_, _, hrun, by decide +kernel, by decide +kernel⟩

end TurbineProxy
