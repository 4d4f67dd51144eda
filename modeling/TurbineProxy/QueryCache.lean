import Mathlib.Data.List.MinMax
import Mathlib.Data.List.Sort
import TurbineProxy.Classifier

/-!
# The query cache

`cache.rs`, and `extract_tables_simple` of `classifier.rs` which decides what a write invalidates. A
cache carries the fact that every entry records the tables extracted from its key.

Table names are compared with each other after a round through `to_uppercase` and `to_lowercase`, so
here the case mappings matter on all of Unicode: they are a parameter (`Casing`).
-/

namespace TurbineProxy

open Str

/-! ## Tables of a statement -/

/-- The case mappings of the standard library. -/
structure Casing where
  /-- `str::to_uppercase` -/
  upper : Str → Str
  /-- `str::to_lowercase` -/
  lower : Str → Str

/-- The case mappings as far as ASCII can see them. -/
def Casing.ascii : Casing := ⟨toUppercase, toLowercase⟩

variable (u : Casing)

/-- The identifier a text starts with: without quotes, in lower case, without the schema. -/
def tableName (after : Str) : Str :=
  let word := after.takeWhile fun c => !([' ', ',', '(', ';', '\n'].contains c)
  let table := u.lower (trimMatches '"' (trimMatches (Char.ofNat 0x60) word))
  (table.reverse.takeWhile (· != '.')).reverse

/-- The names behind the occurrences of a keyword; every round drops the keyword at least. -/
def tablesAfter (keyword : Str) : Nat → Str → List Str
  | 0, _ => []
  | n + 1, search =>
    match splitFirst keyword search with
    | none => []
    | some (_, rest) =>
      let name := tableName u (trimStart rest)
      if name.isEmpty then tablesAfter keyword n rest else name :: tablesAfter keyword n rest

/-- The keywords that precede a table. -/
def tableKeywords : List String := ["FROM ", "JOIN ", "INTO ", "UPDATE ", "TABLE "]

/-- `extract_tables_simple` -/
def extractTablesSimple (sql : Str) : List Str :=
  let upper := u.upper sql
  let tables := tableKeywords.flatMap fun keyword =>
    tablesAfter u keyword.toList (upper.length + 1) upper
  (tables.insertionSort fun s t => Str.le s t).destutter (· ≠ ·)

example : extractTablesSimple .ascii "SELECT * FROM shop.Orders o JOIN users ON o.uid = users.id".toList =
    ["orders".toList, "users".toList] := by decide +kernel
example : extractTablesSimple .ascii "INSERT orders VALUES (1)".toList = [] := by decide +kernel

/-!
## The cache

A map from keys to entries, and a second one from tables to the keys whose statements read them. An expiry that does
not fit an `Instant` is a panic of `put`.
-/

/-- `Instant + Duration`, in nanoseconds; it panics when the seconds do not fit an `i64`. -/
def instantAdd (instant duration : Nat) : Option Nat :=
  if (instant + duration) / 10 ^ 9 < 2 ^ 63 then some (instant + duration) else none

/-- `CacheEntry` -/
structure CacheEntry where
  /-- the response -/
  bytes : Bytes
  /-- the tables of the query -/
  tables : List Str
  /-- not returned from then on -/
  expiresAt : Nat
  /-- last access -/
  lastUsed : Nat

/-- `QueryCache`. The map from keys to entries is a list. -/
structure QueryCache where
  /-- the entries, by their keys -/
  entries : List (Str × CacheEntry)
  /-- life time of an entry -/
  ttl : Nat
  /-- `max_entries` -/
  maxEntries : Nat
  /-- an entry records the tables of its key -/
  sound : ∀ e ∈ entries, e.2.tables = extractTablesSimple u e.1

namespace QueryCache

variable {u} (cache : QueryCache u)

/-- `QueryCache::new` -/
def new (u : Casing) (maxEntries ttl : Nat) : QueryCache u := ⟨[], ttl, maxEntries, by simp⟩

/-- Keep some entries. -/
def retain (p : Str × CacheEntry → Bool) : QueryCache u where
  entries := cache.entries.filter p
  ttl := cache.ttl
  maxEntries := cache.maxEntries
  sound := fun e he => cache.sound e (List.mem_of_mem_filter he)

/-- `entries.remove(key)` -/
def remove (key : Str) : QueryCache u := cache.retain fun e => e.1 != key

/-- `entry.last_used = now` -/
def touch (key : Str) (now : Nat) : QueryCache u where
  entries := cache.entries.map fun e => if e.1 = key then (e.1, { e.2 with lastUsed := now }) else e
  ttl := cache.ttl
  maxEntries := cache.maxEntries
  sound := by
    intro e he
    obtain ⟨e₀, he₀, rfl⟩ := List.mem_map.mp he
    split
    · exact cache.sound e₀ he₀
    · exact cache.sound e₀ he₀

/-- `QueryCache::get` at time `now` -/
def get (key : Str) (now : Nat) : QueryCache u × Option Bytes :=
  match cache.entries.lookup key with
  | some e => if now < e.expiresAt then (cache.touch key now, some e.bytes) else (cache.remove key, none)
  | none => (cache, none)

/-- Make room for one entry: the one that was used least recently goes. -/
def makeRoom : QueryCache u :=
  if cache.maxEntries ≤ cache.entries.length then
    match cache.entries.argmin fun e => e.2.lastUsed with
    | some victim => cache.remove victim.1
    | none => cache
  else cache

/-- `entries.insert(key, entry)` with an entry made at time `now` -/
def insert (key : Str) (bytes : Bytes) (expiresAt now : Nat) : QueryCache u where
  entries := (key, ⟨bytes, extractTablesSimple u key, expiresAt, now⟩) :: (cache.remove key).entries
  ttl := cache.ttl
  maxEntries := cache.maxEntries
  sound := by
    intro e he
    rcases List.mem_cons.mp he with rfl | he
    · rfl
    · exact (cache.remove key).sound e he

/-- `QueryCache::put` at time `now`; it panics, before it has changed anything, where the time of expiry is no
`Instant` -/
def put (key : Str) (bytes : Bytes) (now : Nat) : Option (QueryCache u) :=
  if !isCacheable key then some cache
  else (instantAdd now cache.ttl).map fun expiresAt => cache.makeRoom.insert key bytes expiresAt now

/-- `QueryCache::invalidate_tables` -/
def invalidateTables (tables : List Str) : QueryCache u :=
  if tables.isEmpty then cache else cache.retain fun e => !e.2.tables.any tables.contains

/-! ## What the operations leave -/

/-- The keys that have an entry. -/
def keys : List Str := cache.entries.map Prod.fst

variable {cache}

theorem keys_retain {p : Str × CacheEntry → Bool} {key : Str} (h : key ∈ (cache.retain p).keys) :
    key ∈ cache.keys := by
  obtain ⟨e, he, rfl⟩ := List.mem_map.mp h
  exact List.mem_map_of_mem (List.mem_of_mem_filter he)

theorem keys_touch {key : Str} {now : Nat} : (cache.touch key now).keys = cache.keys := by
  rw [keys, touch, List.map_map]
  refine List.map_congr_left fun e _ => ?_
  dsimp only [Function.comp_apply]
  split
  · rfl
  · rfl

/-- Looking up adds no key. -/
theorem keys_get {key key' : Str} {now : Nat} (h : key' ∈ (cache.get key now).1.keys) :
    key' ∈ cache.keys := by
  rw [get] at h
  split at h
  · split at h
    · exact keys_touch ▸ h
    · exact keys_retain h
  · exact h

/-- What is found has an entry. -/
theorem mem_keys_of_get {key : Str} {now : Nat} {bytes : Bytes} (h : (cache.get key now).2 = some bytes) :
    key ∈ cache.keys := by
  rw [get] at h
  split at h
  · rename_i e he
    exact List.mem_map_of_mem (mem_of_lookup he)
  · cases h

/-- What is not cacheable is not stored. -/
theorem put_uncacheable {key : Str} {bytes : Bytes} {now : Nat} (h : ¬isCacheable key = true) :
    cache.put key bytes now = some cache := by
  rw [put, if_pos (Bool.not_eq_true' _ ▸ Bool.not_eq_true _ ▸ h)]

/-- What a `put` that returns has done. -/
theorem put_cases {key : Str} {bytes : Bytes} {now : Nat} {cache' : QueryCache u}
    (h : cache.put key bytes now = some cache') : ¬isCacheable key = true ∧ cache' = cache ∨
      isCacheable key = true ∧ cache' = cache.makeRoom.insert key bytes (now + cache.ttl) now := by
  by_cases hcacheable : isCacheable key = true
  · rw [put, hcacheable, Bool.not_true, if_neg Bool.false_ne_true] at h
    obtain ⟨expiresAt, hadd, rfl⟩ := Option.map_eq_some_iff.mp h
    obtain ⟨-, hexpires⟩ := Option.ite_none_right_eq_some.mp hadd
    rw [Option.some.inj hexpires]
    exact .inr ⟨hcacheable, rfl⟩
  · rw [put_uncacheable hcacheable] at h
    exact .inl ⟨hcacheable, (Option.some.inj h).symm⟩

/-- Storing adds one key at most. -/
theorem keys_put {key key' : Str} {bytes : Bytes} {now : Nat} {cache' : QueryCache u}
    (hput : cache.put key bytes now = some cache') (h : key' ∈ cache'.keys) :
    key' = key ∨ key' ∈ cache.keys := by
  rcases put_cases hput with ⟨-, rfl⟩ | ⟨-, rfl⟩
  · exact .inr h
  · rcases List.mem_cons.mp (h : key' ∈ key :: _) with rfl | h
    · exact .inl rfl
    · refine .inr ?_
      have hroom : key' ∈ cache.makeRoom.keys := keys_retain h
      rw [makeRoom] at hroom
      split at hroom
      · split at hroom
        · exact keys_retain hroom
        · exact hroom
      · exact hroom

/-- Invalidation leaves no key with one of the tables. -/
theorem keys_invalidateTables {key : Str} {tables : List Str}
    (h : key ∈ (cache.invalidateTables tables).keys) :
    key ∈ cache.keys ∧ ∀ t ∈ tables, t ∉ extractTablesSimple u key := by
  rw [invalidateTables] at h
  split at h
  · rename_i hempty
    rw [List.isEmpty_iff.mp hempty]
    exact ⟨h, by simp⟩
  · refine ⟨keys_retain h, fun t ht hkey => ?_⟩
    obtain ⟨e, he, rfl⟩ := List.mem_map.mp h
    obtain ⟨he, hkeep⟩ := List.mem_filter.mp he
    rw [Bool.not_eq_true', List.any_eq_false] at hkeep
    refine hkeep t ?_ (List.contains_iff_mem.mpr ht)
    rw [cache.sound e he]
    exact hkey

end QueryCache

end TurbineProxy
