import TurbineProxy.AuthCache

/-!
# Password tokens

What a client sends to prove that it knows the password, and what `protocol/mysql/auth.rs` makes of it, for any hash
functions. `compute_native_auth` of `protocol/mysql/mod.rs` is the client's side of `mysql_native_password`, and
`verify` undoes it. The client's side of `caching_sha2_password` has the challenge behind the hash, and `verify_sha256`
has it in front.
-/

namespace TurbineProxy

/-- `Stage2Hash` -/
abbrev Stage2Hash : Type := { hash : Bytes // hash.length = 20 }

/-- `compute_native_auth` -/
def computeNativeAuth (h : Sha) (challenge : Bytes) (password : Str) : Bytes :=
  let stage1 := h.sha1 (toUtf8 password)
  let stage2 := h.sha1 stage1
  xorBytes stage1 (h.sha1 (challenge ++ stage2))

/-- What a client computes with `caching_sha2_password`:
`SHA256(password) XOR SHA256(SHA256(SHA256(password)) + challenge)`. -/
def cachingSha2Token (h : Sha) (password : Str) (challenge : Bytes) : Bytes :=
  xorBytes (h.sha256 (toUtf8 password)) (h.sha256 (sha256Stage2 h password ++ challenge))

theorem length_xorBytes {a b : Bytes} (h : a.length = b.length) : (xorBytes a b).length = b.length := by
  rw [xorBytes, List.length_zipWith, h, Nat.min_self]

/-- Masks that give the same bytes are the same. -/
theorem xorBytes_inj : ∀ {a b c : Bytes}, a.length = b.length → a.length = c.length →
    xorBytes a b = xorBytes a c → b = c
  | [], [], [], _, _, _ => rfl
  | x :: a, y :: b, z :: c, hb, hc, h => by
    obtain ⟨hhead, htail⟩ := List.cons.inj h
    rw [xorBytes_inj (Nat.succ.inj hb) (Nat.succ.inj hc) htail, (UInt8.xor_right_inj x).mp hhead]

section Verify

variable (h : Sha)

/-- A token is accepted if it has the right length and the mask taken off it leaves a preimage of the hash. -/
theorem verifySha1_iff (challenge token : Bytes) (stored : Stage2Hash) :
    verifySha1 h challenge token stored.1 = true ↔
      token.length = 20 ∧ h.sha1 (xorBytes token (h.sha1 (challenge ++ stored.1))) = stored.1 := by
  rw [verifySha1]
  by_cases hlen : token.length = 20
  · rw [if_neg (not_not.mpr hlen)]
    simp only [hlen, true_and]
    exact constantTimeEq_iff (by rw [h.sha1_length, stored.2])
  · simp [hlen]

theorem verifySha256_iff (challenge token : Bytes) {stored : Bytes} (hstored : stored.length = 32) :
    verifySha256 h challenge token stored = true ↔
      token.length = 32 ∧ h.sha256 (xorBytes token (h.sha256 (challenge ++ stored))) = stored := by
  rw [verifySha256]
  by_cases hlen : token.length = 32
  · rw [if_neg (not_not.mpr hlen)]
    simp only [hlen, true_and]
    exact constantTimeEq_iff (by rw [h.sha256_length, hstored])
  · simp [hlen]

end Verify

/-! ## `mysql_native_password` -/

/-- In a cache with users an empty token is accepted for an entry with the hash of the empty password. -/
theorem AuthCache.verify_empty {h : Sha} {cache : AuthCache} {name : Str} {challenge : Bytes} {now : Nat}
    {rules : UserRules} (hclosed : cache.isOpen = false)
    (hverify : cache.verify h name challenge [] now = some rules) :
    ∃ entry, cache.entries name = some entry ∧ entry.stage2 = stage2Hash h [] := by
  rw [AuthCache.verify, hclosed, if_neg Bool.false_ne_true] at hverify
  split at hverify
  · cases hverify
  rename_i entry hentry
  refine ⟨entry, hentry, ?_⟩
  split at hverify
  · cases hverify
  obtain ⟨hadmits, -⟩ := Option.ite_none_right_eq_some.mp hverify
  simpa [AuthCache.admits] using hadmits

/-- **Native passwords**: the token of a password opens its hash; what opens a hash has twenty bytes and leads to a
preimage of it; and no token at all opens the hash of the empty password only, as long as the cache has users. -/
theorem native_passwords (h : Sha) :
    (∀ challenge password,
      verifySha1 h challenge (computeNativeAuth h challenge password) (stage2Hash h password) = true) ∧
    (∀ challenge token (stored : Stage2Hash), verifySha1 h challenge token stored.1 = true ↔
      token.length = 20 ∧ h.sha1 (xorBytes token (h.sha1 (challenge ++ stored.1))) = stored.1) ∧
    ∀ (cache : AuthCache) name challenge now rules, cache.isOpen = false →
      cache.verify h name challenge [] now = some rules →
      ∃ entry, cache.entries name = some entry ∧ entry.stage2 = stage2Hash h [] :=
  ⟨fun challenge password => verifySha1_nativeToken h password challenge,
    fun challenge token stored => verifySha1_iff h challenge token stored,
    fun _ _ _ _ _ hclosed hverify => AuthCache.verify_empty hclosed hverify⟩

/-- `[[users]] name = "guest", password = ""` -/
def guestUser : Config.UserConfig := ⟨"guest".toList, [], false, 0, [], []⟩

/-- The cache of a process that starts with this user. -/
def guestCache : AuthCache :=
  ⟨AuthCache.insertAll AuthCache.sampleSha bareSurroundings (300 * 10 ^ 9) [guestUser], false⟩

/-- A guest gets in without a token, and has the hash of the empty password. -/
theorem native_passwords_guest :
    ∃ entry, guestCache.entries "guest".toList = some entry ∧
      entry.stage2 = stage2Hash AuthCache.sampleSha [] :=
  (native_passwords AuthCache.sampleSha).2.2 guestCache "guest".toList AuthCache.sampleChallenge 0 ⟨false, 0⟩ rfl
    (by decide)

/-- Without users everybody gets in. -/
theorem open_cache_accepts :
    ¬ ∀ (h : Sha) (cache : AuthCache) (name : Str) (challenge : Bytes) (now : Nat) (rules : UserRules),
      cache.verify h name challenge [] now = some rules →
      ∃ entry, cache.entries name = some entry ∧ entry.stage2 = stage2Hash h [] := by
  intro hclaim
  obtain ⟨entry, hentry, -⟩ := hclaim AuthCache.sampleSha ⟨fun _ => none, true⟩ "root".toList [] 0 ⟨true, 0⟩ rfl
  cases hentry

/-! ## `caching_sha2_password` -/

section CachingSha2

variable (h : Sha) (password : Str) (challenge : Bytes)

/-- What `verify_sha256` hashes when the client has computed its token. -/
def cachingSha2Stage1 : Bytes :=
  xorBytes (cachingSha2Token h password challenge) (h.sha256 (challenge ++ sha256Stage2 h password))

theorem length_cachingSha2Token : (cachingSha2Token h password challenge).length = 32 := by
  rw [cachingSha2Token, length_xorBytes (by rw [h.sha256_length, h.sha256_length]), h.sha256_length]

/-- It is the hash of the password if the two masks are one. -/
theorem cachingSha2Stage1_eq_iff : cachingSha2Stage1 h password challenge = h.sha256 (toUtf8 password) ↔
    h.sha256 (sha256Stage2 h password ++ challenge) = h.sha256 (challenge ++ sha256Stage2 h password) := by
  have hcancel : xorBytes (cachingSha2Token h password challenge)
      (h.sha256 (sha256Stage2 h password ++ challenge)) = h.sha256 (toUtf8 password) :=
    xorBytes_cancel (by rw [h.sha256_length, h.sha256_length])
  constructor
  · intro heq
    have hlen := length_cachingSha2Token h password challenge
    refine xorBytes_inj ?_ ?_ (hcancel.trans heq.symm)
    · rw [hlen, h.sha256_length]
    · rw [hlen, h.sha256_length]
  · intro heq
    rw [cachingSha2Stage1, ← heq, hcancel]

/-- **Passwords with SHA-256**: the token of the client is accepted if it makes no difference to the hash on which side
of it the challenge is, or if the difference leads to another preimage of what is stored. -/
theorem cachingSha2_accepted_iff :
    verifySha256 h challenge (cachingSha2Token h password challenge) (sha256Stage2 h password) = true ↔
      h.sha256 (sha256Stage2 h password ++ challenge) = h.sha256 (challenge ++ sha256Stage2 h password) ∨
      cachingSha2Stage1 h password challenge ≠ h.sha256 (toUtf8 password) ∧
        h.sha256 (cachingSha2Stage1 h password challenge) = sha256Stage2 h password := by
  have hstored : (sha256Stage2 h password).length = 32 := h.sha256_length _
  rw [verifySha256_iff h _ _ hstored, ← cachingSha2Stage1_eq_iff]
  simp only [length_cachingSha2Token, true_and]
  constructor
  · intro haccepted
    by_cases heq : cachingSha2Stage1 h password challenge = h.sha256 (toUtf8 password)
    · exact .inl heq
    · exact .inr ⟨heq, haccepted⟩
  · rintro (heq | ⟨-, haccepted⟩)
    · change h.sha256 (cachingSha2Stage1 h password challenge) = _
      rw [heq]
      rfl
    · exact haccepted

end CachingSha2

/-- SHA256 of the hash of the sample password and the sample challenge behind it -/
def sampleClientMask : Bytes :=
  [0x04, 0xf9, 0x31, 0x2e, 0x00, 0x67, 0xa3, 0xf5, 0xe5, 0x26, 0xdd, 0x22, 0x74, 0x0f, 0xc1, 0x26,
   0x1c, 0x65, 0x45, 0x27, 0x89, 0xf5, 0x69, 0x8e, 0x48, 0xe2, 0x38, 0xa5, 0x2c, 0x95, 0x64, 0x26]

/-- and with the challenge in front of it -/
def sampleServerMask : Bytes :=
  [0xbb, 0xbc, 0xb8, 0x96, 0x94, 0xde, 0x20, 0x75, 0xa6, 0x6b, 0x28, 0xb3, 0xde, 0xd6, 0xeb, 0x08,
   0x65, 0xec, 0x87, 0x45, 0x6e, 0x06, 0x7b, 0x98, 0x9b, 0xd9, 0x54, 0xb6, 0x05, 0x51, 0x73, 0x8e]

/-- The hashes with which the sample user logs in; other inputs do not occur. -/
def cachingSha2Sample : Sha where
  sha1 := AuthCache.sampleSha.sha1
  sha256 b :=
    if b = asciiBytes "apppass" then AuthCache.sampleSha256Stage1
    else if b = AuthCache.sampleSha256Stage1 then AuthCache.sampleSha256Stage2
    else if b = AuthCache.sampleSha256Stage2 ++ AuthCache.sampleChallenge then sampleClientMask
    else if b = AuthCache.sampleChallenge ++ AuthCache.sampleSha256Stage2 then sampleServerMask
    -- what the two masks and the hash of the password make together
    else
      [0x4c, 0xf0, 0x96, 0xfb, 0x1e, 0x05, 0xe2, 0xc9, 0x76, 0x9d, 0x6f, 0xea, 0x49, 0xcb, 0xf5, 0x45,
       0xd0, 0x0d, 0xc2, 0xe4, 0xd2, 0x44, 0xa3, 0x8c, 0xc3, 0xd9, 0x73, 0xd0, 0x42, 0x74, 0x08, 0x1a]
  sha1_length := AuthCache.sampleSha.sha1_length
  sha256_length b := by split_ifs <;> rfl

/-- A client with the right password is refused. -/
theorem cachingSha2_refused : ¬ ∀ (h : Sha) (password : Str) (challenge : Bytes),
    verifySha256 h challenge (cachingSha2Token h password challenge) (sha256Stage2 h password) = true := by
  intro hclaim
  exact absurd (hclaim cachingSha2Sample "apppass".toList AuthCache.sampleChallenge) (by decide +kernel)

end TurbineProxy
