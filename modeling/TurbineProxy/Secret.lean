import TurbineProxy.Utf8

/-!
# Secrets

`config/secret.rs` and `config::resolve_secret`: a password in the configuration is a literal, a
reference to an environment variable or to a file, or an encrypted literal. The ciphers are not part of
the proxy; `Cipher` is what it relies on.
-/

namespace TurbineProxy

open Str

/-- The `aes_gcm` and `base64` crates. -/
structure Cipher where
  /-- `Aes256Gcm::encrypt` with a key and a nonce -/
  encipher : Bytes → Bytes → Bytes → Bytes
  /-- `Aes256Gcm::decrypt` -/
  decipher : Bytes → Bytes → Bytes → Option Bytes
  /-- `URL_SAFE_NO_PAD.encode` -/
  encode : Bytes → Str
  /-- `URL_SAFE_NO_PAD.decode` -/
  decode : Str → Option Bytes
  /-- what was encrypted decrypts with the same key and nonce -/
  decipher_encipher : ∀ key nonce plain, decipher key nonce (encipher key nonce plain) = some plain
  /-- what was encoded decodes -/
  decode_encode : ∀ bytes, decode (encode bytes) = some bytes

/-- What the process finds around it. -/
structure Surroundings where
  /-- `std::env::var` -/
  envVar : Str → Option Str
  /-- `std::fs::read_to_string` -/
  readFile : Str → Option Str
  /-- the entry in the keyring of the operating system, if the proxy is built to look for one -/
  keyring : Option Str
  cipher : Cipher

/-- `Aes256Gcm::generate_nonce` -/
abbrev Nonce : Type := { bytes : Bytes // bytes.length = 12 }

/-- `str::strip_prefix`, the prefix given as a literal -/
def Str.stripPrefix (s : Str) (pat : String) : Option Str :=
  if startsWith s pat then some (s.drop pat.length) else none

theorem Str.stripPrefix_append (pat : String) (s : Str) : stripPrefix (pat.toList ++ s) pat = some s := by
  have hpre : startsWith (pat.toList ++ s) pat = true := by simp [startsWith]
  rw [stripPrefix, if_pos hpre, ← String.length_toList, List.drop_left]

/-! ## The key -/

/-- `hex_nibble` -/
def hexNibble (b : UInt8) : Option UInt8 :=
  if 0x30 ≤ b && b ≤ 0x39 then some (b - 0x30)
  else if 0x61 ≤ b && b ≤ 0x66 then some (b - 0x61 + 10)
  else if 0x41 ≤ b && b ≤ 0x46 then some (b - 0x41 + 10)
  else none

/-- The loop of `parse_hex_key`. -/
def hexPairs : Bytes → Option Bytes
  | hi :: lo :: rest => do
    let hi ← hexNibble hi
    let lo ← hexNibble lo
    let key ← hexPairs rest
    some ((hi <<< 4 ||| lo) :: key)
  | _ => some []

/-- `parse_hex_key` -/
def parseHexKey (hex : Str) : Option Bytes :=
  if (toUtf8 hex).length ≠ 64 then none else hexPairs (toUtf8 hex)

example : parseHexKey (List.replicate 64 'a') = some (List.replicate 32 0xAA) := by decide +kernel

/-- `load_encryption_key` -/
def loadEncryptionKey (sur : Surroundings) : Option Bytes :=
  match sur.keyring.bind parseHexKey with
  | some key => some key
  | none => (sur.envVar "TURBINEPROXY_SECRET_KEY".toList).bind parseHexKey

/-! ## Encryption -/

/-- `secret::encrypt` -/
def encrypt (sur : Surroundings) (plaintext : Str) (key : Bytes) (nonce : Nonce) : Str :=
  "enc:".toList ++ sur.cipher.encode (nonce.1 ++ sur.cipher.encipher key nonce.1 (toUtf8 plaintext))

/-- `secret::decrypt` -/
def decrypt (sur : Surroundings) (encValue : Str) (key : Bytes) : Option Str := do
  let b64 ← stripPrefix encValue "enc:"
  let blob ← sur.cipher.decode b64
  if blob.length < 12 then none
  else do
    let plaintext ← sur.cipher.decipher key (blob.take 12) (blob.drop 12)
    fromUtf8 plaintext

/-- Decryption inverts encryption for every text, key and nonce, by the laws of the cipher and of base64. -/
theorem decrypt_encrypt (sur : Surroundings) (plaintext : Str) (key : Bytes) (nonce : Nonce) :
    decrypt sur (encrypt sur plaintext key nonce) key = some plaintext := by
  obtain ⟨nonce, hnonce⟩ := nonce
  have htake : (nonce ++ sur.cipher.encipher key nonce (toUtf8 plaintext)).take 12 = nonce :=
    List.take_left' hnonce
  have hdrop : (nonce ++ sur.cipher.encipher key nonce (toUtf8 plaintext)).drop 12 =
      sur.cipher.encipher key nonce (toUtf8 plaintext) := List.drop_left' hnonce
  have hlong : ¬ (nonce ++ sur.cipher.encipher key nonce (toUtf8 plaintext)).length < 12 := by
    rw [List.length_append, hnonce]; omega
  simp only [decrypt, encrypt, stripPrefix_append, sur.cipher.decode_encode, Option.bind_eq_bind,
    Option.bind_some, if_neg hlong, htake, hdrop, sur.cipher.decipher_encipher, fromUtf8_toUtf8]

/-! ## Passwords -/

/-- `resolve_secret` -/
def resolveSecret (sur : Surroundings) (s : Str) : Str :=
  match stripPrefix s "env:" with
  | some var => (sur.envVar var).getD []
  | none =>
    match stripPrefix s "file:" with
    | some path => ((sur.readFile path).map trim).getD []
    | none =>
      if startsWith s "enc:" then
        match loadEncryptionKey sur with
        | some key => (decrypt sur s key).getD []
        | none => []
      else s

/-- `prepare_for_storage` -/
def prepareForStorage (sur : Surroundings) (value : Str) (key : Option Bytes) (nonce : Nonce) : Str :=
  -- a reference: the secret itself is not stored
  if startsWith value "env:" || startsWith value "file:" || startsWith value "enc:" then value
  else if value.isEmpty then value
  else
    match key with
    | some key => encrypt sur value key nonce
    | none => value

/-- A literal is its own value. -/
theorem resolveSecret_literal (sur : Surroundings) {s : Str} (henv : startsWith s "env:" = false)
    (hfile : startsWith s "file:" = false) (henc : startsWith s "enc:" = false) :
    resolveSecret sur s = s := by
  simp only [resolveSecret, stripPrefix, henv, hfile, henc, Bool.false_eq_true, if_false]

/-- An encrypted literal is worth what was encrypted. -/
theorem resolveSecret_encrypt (sur : Surroundings) (s : Str) {key : Bytes} (nonce : Nonce)
    (hkey : loadEncryptionKey sur = some key) : resolveSecret sur (encrypt sur s key nonce) = s := by
  have henv : stripPrefix (encrypt sur s key nonce) "env:" = none := rfl
  have hfile : stripPrefix (encrypt sur s key nonce) "file:" = none := rfl
  have henc : startsWith (encrypt sur s key nonce) "enc:" = true := rfl
  simp only [resolveSecret, henv, hfile, henc, if_true, hkey, decrypt_encrypt, Option.getD_some]

/-- What is stored is worth what was configured. -/
theorem resolveSecret_prepareForStorage (sur : Surroundings) (value : Str) (nonce : Nonce) :
    resolveSecret sur (prepareForStorage sur value (loadEncryptionKey sur) nonce) =
      resolveSecret sur value := by
  unfold prepareForStorage
  by_cases href : (startsWith value "env:" || startsWith value "file:" || startsWith value "enc:") = true
  · rw [if_pos href]
  · rw [if_neg href]
    simp only [Bool.or_eq_true, not_or, Bool.not_eq_true] at href
    by_cases hempty : value.isEmpty = true
    · rw [if_pos hempty]
    · rw [if_neg hempty]
      cases hkey : loadEncryptionKey sur with
      | none => rfl
      | some key =>
        rw [resolveSecret_literal sur href.1.1 href.1.2 href.2]
        exact resolveSecret_encrypt sur value nonce hkey

/-- What is encrypted is not encrypted again. -/
theorem prepareForStorage_encrypt (sur : Surroundings) (value : Str) (key : Bytes) (key' : Option Bytes)
    (nonce nonce' : Nonce) :
    prepareForStorage sur (encrypt sur value key nonce) key' nonce' = encrypt sur value key nonce := by
  have henc : startsWith (encrypt sur value key nonce) "enc:" = true := rfl
  refine if_pos ?_
  rw [henc, Bool.or_true]

/-- What is stored is stored as it is the next time. -/
theorem prepareForStorage_idem (sur : Surroundings) (value : Str) (key : Option Bytes) (nonce nonce' : Nonce) :
    prepareForStorage sur (prepareForStorage sur value key nonce) key nonce' =
      prepareForStorage sur value key nonce := by
  by_cases href : (startsWith value "env:" || startsWith value "file:" || startsWith value "enc:") = true
  · have hsame : ∀ n, prepareForStorage sur value key n = value := fun _ => if_pos href
    rw [hsame, hsame]
  · by_cases hempty : value.isEmpty = true
    · have hsame : ∀ n, prepareForStorage sur value key n = value := fun _ => (if_neg href).trans (if_pos hempty)
      rw [hsame, hsame]
    · have hliteral : ∀ n, prepareForStorage sur value key n = match key with
          | some key => encrypt sur value key n
          | none => value := fun _ => (if_neg href).trans (if_neg hempty)
      rw [hliteral]
      cases key with
      | none => exact hliteral nonce'
      | some key => exact prepareForStorage_encrypt sur value key (some key) nonce nonce'

/-- A secret survives storage: what is stored under a key is worth what was configured, is stored as it is the next
time, and an encrypted text decrypts. -/
theorem secret_survives_storage (sur : Surroundings) (p : Str) (key : Bytes) (nonce nonce' : Nonce)
    (hkey : loadEncryptionKey sur = some key) :
    resolveSecret sur (prepareForStorage sur p (some key) nonce) = resolveSecret sur p ∧
      (∀ k, prepareForStorage sur (prepareForStorage sur p k nonce) k nonce' = prepareForStorage sur p k nonce) ∧
      decrypt sur (encrypt sur p key nonce) key = some p :=
  ⟨hkey ▸ resolveSecret_prepareForStorage sur p nonce, fun k => prepareForStorage_idem sur p k nonce nonce',
    decrypt_encrypt sur p key nonce⟩

/-! ## A process without secrets -/

/-- Bytes as characters, in place of base64. -/
def plainCipher : Cipher where
  encipher _ _ plain := plain
  decipher _ _ sealedText := some sealedText
  encode bytes := bytes.map fun b => Char.ofNat b.toNat
  decode text := some (text.map fun c => UInt8.ofNat c.toNat)
  decipher_encipher _ _ _ := rfl
  decode_encode bytes := by
    rw [List.map_map]
    refine congrArg some (List.map_id'' (fun b => ?_) bytes)
    have hlt := b.toNat_lt
    rw [Function.comp_apply, toNat_char (Or.inl (by omega)), UInt8.ofNat_toNat]

/-- No variables, no files, no key. -/
def bareSurroundings : Surroundings where
  envVar _ := none
  readFile _ := none
  keyring := none
  cipher := plainCipher

/-- A key in the environment. -/
def keyedSurroundings : Surroundings :=
  { bareSurroundings with envVar := fun _ => some (List.replicate 64 'a') }

/-- A literal that looks like no reference, stored under the key. -/
theorem secret_survives_storage_keyed : loadEncryptionKey keyedSurroundings = some (List.replicate 32 0xAA) ∧
    resolveSecret keyedSurroundings (prepareForStorage keyedSurroundings "enc".toList (some (List.replicate 32 0xAA))
      ⟨List.replicate 12 0, rfl⟩) = resolveSecret keyedSurroundings "enc".toList :=
  have hkey : loadEncryptionKey keyedSurroundings = some (List.replicate 32 0xAA) := by decide +kernel
  ⟨hkey, (secret_survives_storage keyedSurroundings _ _ ⟨List.replicate 12 0, rfl⟩ ⟨List.replicate 12 0, rfl⟩ hkey).1⟩

end TurbineProxy
