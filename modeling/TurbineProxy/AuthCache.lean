import Mathlib.Data.List.Induction
import Mathlib.Data.List.Nodup
import TurbineProxy.ConfigTypes
import TurbineProxy.QueryCache

/-!
# The credential cache

`auth_cache.rs` and `protocol/mysql/auth.rs`: the hashes of the configured passwords are computed once,
when the process starts, and every client that logs in is checked against them. `promised_iff` says
which look-ups get the answer the configuration promises: nothing renews an entry, so none does once the
TTL is over.
-/

namespace TurbineProxy

open Config

/-! ## Hashes -/

/-- The `sha1` and `sha2` crates. -/
structure Sha where
  sha1 : Bytes → Bytes
  sha256 : Bytes → Bytes
  sha1_length : ∀ bytes, (sha1 bytes).length = 20
  sha256_length : ∀ bytes, (sha256 bytes).length = 32

/-- `a[i] ^ b[i]` for every index -/
def xorBytes (a b : Bytes) : Bytes := List.zipWith (· ^^^ ·) a b

theorem xorBytes_cancel : ∀ {a b : Bytes}, a.length = b.length → xorBytes (xorBytes a b) b = a
  | [], [], _ => rfl
  | x :: a, y :: b, h => by
    have htail := xorBytes_cancel (Nat.succ.inj h)
    have hhead : (x ^^^ y) ^^^ y = x := by rw [UInt8.xor_assoc, UInt8.xor_self, UInt8.xor_zero]
    simp only [xorBytes, List.zipWith_cons_cons, hhead] at htail ⊢
    rw [htail]

/-- The loop of `constant_time_eq_20` and `constant_time_eq_32`. -/
def constantTimeEq (a b : Bytes) : Bool := (xorBytes a b).foldl (· ||| ·) 0 == 0

theorem foldl_or_eq_zero (l : Bytes) (acc : UInt8) :
    l.foldl (· ||| ·) acc = 0 ↔ acc = 0 ∧ ∀ x ∈ l, x = 0 := by
  induction l generalizing acc with
  | nil => simp
  | cons x l ih => rw [List.foldl_cons, ih, UInt8.or_eq_zero_iff, List.forall_mem_cons, and_assoc]

/-- All bytes are compared, whichever differs. -/
theorem constantTimeEq_iff : ∀ {a b : Bytes}, a.length = b.length → (constantTimeEq a b = true ↔ a = b)
  | [], [], _ => by simp [constantTimeEq, xorBytes]
  | x :: a, y :: b, h => by
    have htail := constantTimeEq_iff (Nat.succ.inj h)
    simp only [constantTimeEq, beq_iff_eq, foldl_or_eq_zero, true_and] at htail ⊢
    rw [xorBytes, List.zipWith_cons_cons, List.forall_mem_cons, UInt8.xor_eq_zero_iff]
    rw [xorBytes] at htail
    rw [htail, List.cons.injEq]

section Hashes

variable (h : Sha)

/-- `stage2_hash` -/
def stage2Hash (password : Str) : Bytes := h.sha1 (h.sha1 (toUtf8 password))

/-- `sha256_stage2` -/
def sha256Stage2 (password : Str) : Bytes := h.sha256 (h.sha256 (toUtf8 password))

/-- `auth::verify` -/
def verifySha1 (challenge clientToken storedStage2 : Bytes) : Bool :=
  if clientToken.length ≠ 20 then false
  else
    let stage1 := xorBytes clientToken (h.sha1 (challenge ++ storedStage2))
    constantTimeEq (h.sha1 stage1) storedStage2

/-- `auth::verify_sha256` -/
def verifySha256 (challenge clientToken storedStage2 : Bytes) : Bool :=
  if clientToken.length ≠ 32 then false
  else
    let stage1 := xorBytes clientToken (h.sha256 (challenge ++ storedStage2))
    constantTimeEq (h.sha256 stage1) storedStage2

/-- What a client computes with `mysql_native_password`:
`SHA1(password) XOR SHA1(challenge + SHA1(SHA1(password)))`. -/
def nativeToken (password : Str) (challenge : Bytes) : Bytes :=
  xorBytes (h.sha1 (toUtf8 password)) (h.sha1 (challenge ++ stage2Hash h password))

/-- A token that proves the password: the one of the protocol, or none at all for the empty one. -/
def Proves (password : Str) (challenge token : Bytes) : Prop :=
  token = nativeToken h password challenge ∨ password = [] ∧ token = []

theorem nativeToken_length (password : Str) (challenge : Bytes) :
    (nativeToken h password challenge).length = 20 := by
  simp [nativeToken, xorBytes, h.sha1_length]

/-- The token of a password opens its own hash. -/
theorem verifySha1_nativeToken (password : Str) (challenge : Bytes) :
    verifySha1 h challenge (nativeToken h password challenge) (stage2Hash h password) = true := by
  have hlen : (h.sha1 (toUtf8 password)).length =
      (h.sha1 (challenge ++ stage2Hash h password)).length := by rw [h.sha1_length, h.sha1_length]
  have hstage1 : xorBytes (nativeToken h password challenge) (h.sha1 (challenge ++ stage2Hash h password)) =
      h.sha1 (toUtf8 password) := xorBytes_cancel hlen
  rw [verifySha1, if_neg (not_not.2 (nativeToken_length h password challenge)), hstage1]
  exact (constantTimeEq_iff rfl).2 rfl

end Hashes

/-! ## The cache -/

/-- `UserRules` -/
structure UserRules where
  allowWrites : Bool
  maxConnections : UInt64
  deriving DecidableEq

/-- `CachedEntry` -/
structure CachedEntry where
  stage2 : Bytes
  sha256 : Bytes
  rules : UserRules
  /-- in nanoseconds -/
  expires : Nat

/-- `AuthCache` -/
structure AuthCache where
  entries : Str → Option CachedEntry
  /-- no users are configured -/
  isOpen : Bool

namespace AuthCache

variable (h : Sha) (sur : Surroundings)

/-- The entry of a user. -/
def entryOf (expires : Nat) (u : UserConfig) : CachedEntry where
  stage2 := stage2Hash h (u.resolvedPassword sur)
  sha256 := sha256Stage2 h (u.resolvedPassword sur)
  rules := ⟨u.allowWrites, u.maxConnections⟩
  expires := expires

/-- The loop of `from_config`. -/
def insertAll (expires : Nat) (users : List UserConfig) : Str → Option CachedEntry :=
  users.foldl (fun map u => Function.update map u.name (some (entryOf h sur expires u))) fun _ => none

/-- `AuthCache::from_config`, called at `now` -/
def fromConfig (users : List UserConfig) (ttlSecs : UInt64) (now : Nat) : Option AuthCache :=
  (instantAdd now (ttlSecs.toNat * 10 ^ 9)).map fun expires =>
    { entries := insertAll h sur expires users, isOpen := users.isEmpty }

/-- The check of a token against an entry that has not expired. -/
def admits (entry : CachedEntry) (challenge token : Bytes) : Bool :=
  -- an empty token only matches the empty password
  if token.isEmpty then entry.stage2 == stage2Hash h []
  else verifySha1 h challenge token entry.stage2 || verifySha256 h challenge token entry.sha256

/-- `AuthCache::verify` -/
def verify (cache : AuthCache) (username : Str) (challenge token : Bytes) (now : Nat) :
    Option UserRules :=
  if cache.isOpen then some ⟨true, 0⟩
  else
    match cache.entries username with
    | none => none
    | some entry =>
      if entry.expires ≤ now then none
      else if admits h entry challenge token then some entry.rules else none

/-- A client that logs in. -/
structure LookUp where
  username : Str
  /-- the random bytes of the handshake -/
  challenge : Bytes
  /-- the client's response -/
  token : Bytes
  /-- when, in nanoseconds -/
  now : Nat

/-- The answers to the clients that log in one after the other. `verify` takes a read lock and no other
function touches the entries, so the cache is the same for all of them. -/
def serve (cache : AuthCache) (lookUps : List LookUp) : List (Option UserRules) :=
  lookUps.map fun l => cache.verify h l.username l.challenge l.token l.now

/-- The user whose entry is under a name: a later one of the same name replaces an earlier one. -/
def inEffect (users : List UserConfig) (name : Str) : Option UserConfig :=
  users.reverse.find? fun u => u.name == name

/-! ## Entries -/

theorem insertAll_concat (expires : Nat) (users : List UserConfig) (u : UserConfig) :
    insertAll h sur expires (users ++ [u]) =
      Function.update (insertAll h sur expires users) u.name (some (entryOf h sur expires u)) := by
  simp only [insertAll, List.foldl_append, List.foldl_cons, List.foldl_nil]

theorem insertAll_apply (expires : Nat) (users : List UserConfig) (name : Str) :
    insertAll h sur expires users name = (inEffect users name).map (entryOf h sur expires) := by
  induction users using List.reverseRecOn with
  | nil => rfl
  | append_singleton users u ih =>
    rw [insertAll_concat, inEffect, List.reverse_append, List.reverse_singleton, List.singleton_append,
      List.find?_cons]
    by_cases hname : u.name = name
    · subst hname
      rw [Function.update_self, beq_self_eq_true]
      rfl
    · rw [Function.update_of_ne (Ne.symm hname), beq_false_of_ne hname, ih]
      rfl

theorem inEffect_name {users : List UserConfig} {name : Str} {u : UserConfig}
    (hu : inEffect users name = some u) : u ∈ users ∧ u.name = name :=
  ⟨List.mem_reverse.1 (List.mem_of_find?_eq_some hu), by simpa using List.find?_some hu⟩

theorem inEffect_of_mem {users : List UserConfig} {u : UserConfig} (hu : u ∈ users) :
    ∃ v, inEffect users u.name = some v :=
  Option.isSome_iff_exists.1 (List.find?_isSome.2 ⟨u, List.mem_reverse.2 hu, beq_self_eq_true _⟩)

theorem inEffect_eq_none {users : List UserConfig} {name : Str} (hno : ∀ u ∈ users, u.name ≠ name) :
    inEffect users name = none := by
  refine List.find?_eq_none.2 fun u hu => ?_
  simpa using hno u (List.mem_reverse.1 hu)

/-- The token of the user in effect is admitted. -/
theorem admits_entryOf (expires : Nat) (u : UserConfig) {challenge token : Bytes}
    (hproves : Proves h (u.resolvedPassword sur) challenge token) :
    admits h (entryOf h sur expires u) challenge token = true := by
  rcases hproves with rfl | ⟨hpassword, rfl⟩
  · have hlong : (nativeToken h (u.resolvedPassword sur) challenge).isEmpty = false := by
      refine List.isEmpty_eq_false_iff.2 fun hnil => ?_
      have hlen := nativeToken_length h (u.resolvedPassword sur) challenge
      rw [hnil] at hlen
      cases hlen
    simp only [admits, hlong, Bool.false_eq_true, if_false]
    rw [show (entryOf h sur expires u).stage2 = stage2Hash h (u.resolvedPassword sur) from rfl,
      verifySha1_nativeToken, Bool.true_or]
  · simp only [admits, List.isEmpty_nil, if_true, entryOf, hpassword, beq_self_eq_true]

/-! ## Answers -/

/-- What the configuration promises about the answer to a look-up: a configured user who proves the
password gets in, and a name that is not configured does not. -/
def Promised (users : List UserConfig) (l : LookUp) (answer : Option UserRules) : Prop :=
  (∀ u ∈ users, u.name = l.username → Proves h (u.resolvedPassword sur) l.challenge l.token →
    answer.isSome) ∧
  ((∀ u ∈ users, u.name ≠ l.username) → answer = none)

variable {h sur} {users : List UserConfig} {ttlSecs : UInt64} {start : Nat} {cache : AuthCache}

theorem fromConfig_eq (hcache : fromConfig h sur users ttlSecs start = some cache) :
    cache = ⟨insertAll h sur (start + ttlSecs.toNat * 10 ^ 9) users, users.isEmpty⟩ := by
  simp only [fromConfig, instantAdd] at hcache
  split at hcache
  · exact (Option.some.inj hcache).symm
  · cases hcache

/-- A look-up under a configured name succeeds before the entries expire, with a token that is admitted
for the user in effect. -/
theorem verify_isSome_iff (hcache : fromConfig h sur users ttlSecs start = some cache)
    {name : Str} {v : UserConfig} (hv : inEffect users name = some v) (challenge token : Bytes)
    (now : Nat) :
    (cache.verify h name challenge token now).isSome ↔
      now < start + ttlSecs.toNat * 10 ^ 9 ∧
        admits h (entryOf h sur (start + ttlSecs.toNat * 10 ^ 9) v) challenge token = true := by
  have hsome : users.isEmpty = false :=
    List.isEmpty_eq_false_iff_exists_mem.2 ⟨v, (inEffect_name hv).1⟩
  rw [fromConfig_eq hcache]
  simp only [verify, hsome, Bool.false_eq_true, if_false, insertAll_apply, hv, Option.map_some]
  rw [show (entryOf h sur (start + ttlSecs.toNat * 10 ^ 9) v).expires = start + ttlSecs.toNat * 10 ^ 9
    from rfl]
  split
  · rename_i hlate
    simp only [Option.isSome_none, Bool.false_eq_true, false_iff, not_and]
    intro hearly
    omega
  · rename_i hearly
    simp only [Nat.not_le.1 hearly, true_and]
    split
    · rename_i hadmits
      simp only [hadmits, Option.isSome_some]
    · rename_i hrefused
      simp only [hrefused, Option.isSome_none, Bool.false_eq_true]

/-- A name that is not configured is unknown. -/
theorem verify_unknown (hsome : users ≠ []) (hcache : fromConfig h sur users ttlSecs start = some cache)
    {name : Str} (hno : ∀ u ∈ users, u.name ≠ name) (challenge token : Bytes) (now : Nat) :
    cache.verify h name challenge token now = none := by
  have hclosed : users.isEmpty = false := List.isEmpty_eq_false_iff.2 hsome
  rw [fromConfig_eq hcache]
  simp only [verify, hclosed, Bool.false_eq_true, if_false, insertAll_apply, inEffect_eq_none hno,
    Option.map_none]

/-- When a look-up gets the answer the configuration promises: unless it proves the password of a
configured user after the TTL that began at start-up, or the password of an entry that a later one of
the same name has replaced by another. -/
theorem promised_iff (hsome : users ≠ []) (hcache : fromConfig h sur users ttlSecs start = some cache)
    (lookUps : List LookUp) {i : Nat} {l : LookUp} (hl : lookUps[i]? = some l) :
    (∃ answer, (cache.serve h lookUps)[i]? = some answer ∧ Promised h sur users l answer) ↔
      ∀ u ∈ users, u.name = l.username → Proves h (u.resolvedPassword sur) l.challenge l.token →
        l.now < start + ttlSecs.toNat * 10 ^ 9 ∧
          ∃ v, inEffect users l.username = some v ∧
            admits h (entryOf h sur (start + ttlSecs.toNat * 10 ^ 9) v) l.challenge l.token = true := by
  have hanswer : (cache.serve h lookUps)[i]? =
      some (cache.verify h l.username l.challenge l.token l.now) := by
    rw [serve, List.getElem?_map, hl, Option.map_some]
  simp only [hanswer, Option.some.injEq, exists_eq_left', Promised]
  constructor
  · rintro ⟨hin, -⟩ u hu hname hproves
    obtain ⟨v, hv⟩ := inEffect_of_mem hu
    rw [hname] at hv
    obtain ⟨hearly, hadmits⟩ := (verify_isSome_iff hcache hv _ _ _).1 (hin u hu hname hproves)
    exact ⟨hearly, v, hv, hadmits⟩
  · refine fun hgood => ⟨fun u hu hname hproves => ?_, fun hno => ?_⟩
    · obtain ⟨hearly, v, hv, hadmits⟩ := hgood u hu hname hproves
      exact (verify_isSome_iff hcache hv _ _ _).2 ⟨hearly, hadmits⟩
    · exact verify_unknown hsome hcache hno _ _ _

/-! ## A client that comes back after the TTL -/

/-- SHA1 of `apppass` -/
def sampleStage1 : Bytes :=
  [0x9c, 0x1f, 0x0f, 0x77, 0x1f, 0x8a, 0x32, 0xf2, 0x47, 0x6c, 0x6e, 0xd3, 0x17, 0x1d, 0x75, 0xcb,
   0xd8, 0x4d, 0x28, 0x6f]

/-- SHA1 of that -/
def sampleStage2 : Bytes :=
  [0x90, 0xbe, 0x3c, 0x26, 0x82, 0xeb, 0xf3, 0x42, 0x7e, 0xda, 0x20, 0x31, 0x5d, 0x6e, 0xab, 0x9e,
   0x31, 0xfd, 0x10, 0x23]

/-- the random bytes of a handshake -/
def sampleChallenge : Bytes :=
  [0x01, 0x02, 0x03, 0x04, 0x05, 0x06, 0x07, 0x08, 0x09, 0x0a, 0x0b, 0x0c, 0x0d, 0x0e, 0x0f, 0x10,
   0x11, 0x12, 0x13, 0x14]

/-- SHA1 of the challenge and `sampleStage2` -/
def sampleMask : Bytes :=
  [0x54, 0x7b, 0x4c, 0x67, 0xeb, 0x4c, 0x22, 0x93, 0xd7, 0x30, 0xe9, 0x82, 0xa5, 0x12, 0xc1, 0xbe,
   0x2b, 0xe6, 0x98, 0xab]

/-- SHA256 of `apppass` -/
def sampleSha256Stage1 : Bytes :=
  [0x46, 0x40, 0x0f, 0x64, 0x2c, 0x99, 0x58, 0x4e, 0x51, 0xb1, 0x40, 0x31, 0xf8, 0x75, 0xca, 0x9b,
   0x7b, 0x33, 0xcc, 0xf9, 0x4f, 0xf8, 0xd7, 0x65, 0x71, 0x97, 0xa5, 0xba, 0xc0, 0x6f, 0x4f, 0xfb]

/-- SHA256 of that -/
def sampleSha256Stage2 : Bytes :=
  [0x64, 0xd5, 0x9b, 0xde, 0xf4, 0xc8, 0x3e, 0xb7, 0x2e, 0x37, 0xc9, 0x1e, 0xea, 0x01, 0xdf, 0xaa,
   0x9e, 0x82, 0xd0, 0x17, 0x6e, 0x68, 0x1e, 0x9c, 0x0d, 0xfe, 0xca, 0x19, 0xac, 0xf7, 0x55, 0x7f]

/-- The hashes of the sample password; other inputs do not occur. -/
def sampleSha : Sha where
  sha1 b :=
    if b = asciiBytes "apppass" then sampleStage1
    else if b = sampleStage1 then sampleStage2
    else if b = sampleChallenge ++ sampleStage2 then sampleMask
    else List.replicate 20 0
  sha256 b :=
    if b = asciiBytes "apppass" then sampleSha256Stage1
    else if b = sampleSha256Stage1 then sampleSha256Stage2
    else List.replicate 32 0
  sha1_length b := by split_ifs <;> rfl
  sha256_length b := by split_ifs <;> rfl

/-- `[[users]] name = "app", password = "apppass"` -/
def appUser : UserConfig := ⟨"app".toList, "apppass".toList, true, 0, [], []⟩

/-- The client `app` with the right token. -/
def appLogsIn (now : Nat) : LookUp :=
  ⟨"app".toList, sampleChallenge, nativeToken sampleSha "apppass".toList sampleChallenge, now⟩

/-- The cache of a process that starts with this user and the default TTL of five minutes. -/
def appCache : AuthCache :=
  ⟨insertAll sampleSha bareSurroundings (0 + (300 : UInt64).toNat * 10 ^ 9) [appUser], false⟩

theorem fromConfig_appCache : fromConfig sampleSha bareSurroundings [appUser] 300 0 = some appCache := by
  rw [fromConfig, instantAdd, if_pos (by decide +kernel)]
  rfl

theorem appLogsIn_proves (now : Nat) :
    Proves sampleSha (appUser.resolvedPassword bareSurroundings) (appLogsIn now).challenge
      (appLogsIn now).token := Or.inl rfl

/-- A minute after the start the user gets in. -/
theorem promised_iff_firstMinute :
    ∃ answer, (appCache.serve sampleSha [appLogsIn (60 * 10 ^ 9)])[0]? = some answer ∧
      Promised sampleSha bareSurroundings [appUser] (appLogsIn (60 * 10 ^ 9)) answer := by
  refine (promised_iff (List.cons_ne_nil _ _) fromConfig_appCache [appLogsIn (60 * 10 ^ 9)] rfl).2 ?_
  intro u hu hname hproves
  refine ⟨by decide, appUser, by decide, ?_⟩
  exact admits_entryOf sampleSha bareSurroundings _ appUser (appLogsIn_proves _)

/-- From five minutes after the start on, nobody does. -/
theorem lockedOut_afterTtl :
    ¬ ∀ (users : List UserConfig) (ttlSecs : UInt64) (start : Nat) (cache : AuthCache), users ≠ [] →
      fromConfig sampleSha bareSurroundings users ttlSecs start = some cache →
      ∀ (lookUps : List LookUp) (i : Nat) (l : LookUp), lookUps[i]? = some l → start ≤ l.now →
        ∃ answer, (cache.serve sampleSha lookUps)[i]? = some answer ∧
          Promised sampleSha bareSurroundings users l answer := by
  intro hclaim
  obtain ⟨answer, hanswer, hpromised, -⟩ := hclaim [appUser] 300 0 appCache (List.cons_ne_nil _ _)
    fromConfig_appCache [appLogsIn (60 * 10 ^ 9), appLogsIn (300 * 10 ^ 9)] 1 _ rfl (Nat.zero_le _)
  have hin := hpromised appUser (List.mem_singleton_self _) rfl (appLogsIn_proves _)
  have hrefused : answer = none := by
    simpa [serve, verify, appCache, insertAll, entryOf, appUser, appLogsIn] using hanswer.symm
  rw [hrefused] at hin
  cases hin

end AuthCache

end TurbineProxy
