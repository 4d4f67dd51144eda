import TurbineProxy.PasswordTokens
import TurbineProxy.PgFrames
import TurbineProxy.PgReprepare
import TurbineProxy.SessionTokens

/-!
# SCRAM-SHA-256

`scram_auth` of `protocol/postgres/mod.rs`, by which the proxy logs in to a PostgreSQL server, and the functions under
it. `ScramServer` is the other party: it has keys that were derived from a password, and goes by the messages as they
are transmitted. `scram_mutual` says that each of the two convinces the other, and that nobody else does.
-/

namespace TurbineProxy

/-- The `base64` crate. -/
structure Base64 where
  /-- `STANDARD.encode` -/
  encode : Bytes → Str
  /-- `STANDARD.decode`, its error as it is displayed -/
  decode : Str → Except Str Bytes
  /-- what was encoded decodes -/
  decode_encode : ∀ bytes, decode (encode bytes) = .ok bytes
  /-- the alphabet, and the padding -/
  alphabet : ∀ bytes, ∀ c ∈ encode bytes, c.isAlphanum = true ∨ c = '+' ∨ c = '/' ∨ c = '='

namespace Scram

/-! ## Keys -/

section Keys

variable (h : Sha)

/-- `hmac_sha256` -/
def hmacSha256 (key data : Bytes) : Bytes :=
  let k :=
    if 64 < key.length then h.sha256 key ++ List.replicate 32 0 else key ++ List.replicate (64 - key.length) 0
  let innerHash := h.sha256 (k.map (· ^^^ 0x36) ++ data)
  h.sha256 (k.map (· ^^^ 0x5c) ++ innerHash)

/-- The loop of `pbkdf2_sha256`. -/
def pbkdf2Loop (password : Bytes) : Nat → Bytes → Bytes → Bytes
  | 0, _, result => result
  | n + 1, u, result =>
    let u := hmacSha256 h password u
    pbkdf2Loop password n u (xorBytes result u)

/-- `pbkdf2_sha256` -/
def pbkdf2Sha256 (password salt : Bytes) (iterations : UInt32) : Bytes :=
  let u := hmacSha256 h password (salt ++ [0, 0, 0, 1])
  pbkdf2Loop h password (iterations.toNat - 1) u u

end Keys

/-! ## The client -/

/-- What `scram_auth` takes from the first message of the server. -/
structure ServerFirst where
  fullNonce : Str
  saltB64 : Str
  iterations : UInt32
  deriving DecidableEq

/-- One part of the message. A count that is no `u32` counts as 4096. -/
def ServerFirst.take (first : ServerFirst) (part : Str) : ServerFirst :=
  match Str.stripPrefix part "r=" with
  | some v => { first with fullNonce := v }
  | none =>
    match Str.stripPrefix part "s=" with
    | some v => { first with saltB64 := v }
    | none =>
      match Str.stripPrefix part "i=" with
      | some v => { first with iterations := (Str.parseUnsigned (2 ^ 32) v).elim 4096 UInt32.ofNat }
      | none => first

/-- The loop over the parts. -/
def parseServerFirst (sfm : Str) : ServerFirst :=
  (sfm.splitOnP (· == ',')).foldl ServerFirst.take ⟨[], [], 4096⟩

/-- The two steps of reading: an authentication message, and of the method that is due. -/
def readSasl (method : Nat) (missing : Str) (stream : Bytes) : Except WireError (Bytes × Bytes) := do
  let (t, payload, stream) ← readPgMsg stream
  if t ≠ 0x52 ∨ payload.length < 4 then .error (.authFailed missing)
  else if beNat32 payload ≠ method then
    .error (.authFailed ("expected ".toList ++ decimal method ++ ", got ".toList ++ decimal (beNat32 payload)))
  else .ok (payload.drop 4, stream)

/-- The arguments of `scram_auth`, and the bytes it draws for its nonce. -/
structure Client where
  user : Str
  password : Str
  mechanisms : Bytes
  nonceRaw : Bytes

/-- What the client computes from the first message of the server. -/
structure Answer where
  /-- `cfm_no_proof` -/
  withoutProof : Str
  clientProof : Bytes
  serverSig : Bytes

section Exchange

variable (h : Sha) (b64 : Base64)

namespace Client

variable (c : Client)

/-- `client_nonce` -/
def nonce : Str := b64.encode c.nonceRaw

/-- `cfmb` -/
def firstBare : Str := "n=".toList ++ c.user ++ ",r=".toList ++ c.nonce b64

/-- `sasl_init` -/
def saslInit : Bytes :=
  let cfm := "n,,".toList ++ c.firstBare b64
  asciiBytes "SCRAM-SHA-256" ++ (0 : UInt8) :: be32 (toUtf8 cfm).length ++ toUtf8 cfm

/-- The proof, and the signature that is expected. -/
def compute (sfm : Str) (first : ServerFirst) (salt : Bytes) : Answer :=
  let saltedPw := pbkdf2Sha256 h (toUtf8 c.password) salt first.iterations
  let clientKey := hmacSha256 h saltedPw (asciiBytes "Client Key")
  let storedKey := h.sha256 clientKey
  let serverKey := hmacSha256 h saltedPw (asciiBytes "Server Key")
  let cfmNoProof := "c=".toList ++ b64.encode (asciiBytes "n,,") ++ ",r=".toList ++ first.fullNonce
  let authMsg := toUtf8 (c.firstBare b64 ++ ',' :: sfm ++ ',' :: cfmNoProof)
  ⟨cfmNoProof, xorBytes clientKey (hmacSha256 h storedKey authMsg), hmacSha256 h serverKey authMsg⟩

/-- What is checked of the first message of the server. -/
def answer (sfm : Str) : Except WireError Answer :=
  let first := parseServerFirst sfm
  if first.iterations < 4096 then
    .error (.authFailed ("SCRAM-SHA-256: server requested ".toList ++ decimal first.iterations.toNat ++
      " iterations (minimum required: 4096 per RFC 7677)".toList))
  else if !(c.nonce b64).isPrefixOf first.fullNonce then .error (.authFailed "SCRAM nonce mismatch".toList)
  else
    match b64.decode first.saltB64 with
    | .error e => .error (.invalidFormat ("base64 decode: ".toList ++ e))
    | .ok salt => .ok (c.compute h b64 sfm first salt)

/-- `SASLContinue`, and what is computed from it. -/
def readContinue (stream : Bytes) : Except WireError (Answer × Bytes) := do
  let (sfm, stream) ← readSasl 11 "expected SASL continue".toList stream
  let sfm ← (fromUtf8 sfm).elim (.error (.authFailed "invalid SCRAM server-first".toList)) .ok
  let answer ← c.answer h b64 sfm
  .ok (answer, stream)

end Client

/-- `SASLFinal`, compared with the signature that is expected. -/
def readFinal (serverSig : Bytes) (stream : Bytes) : Except WireError Bytes := do
  let (sfinal, stream) ← readSasl 12 "expected SASL final".toList stream
  if Str.trimEndMatches '\x00' (textOf sfinal) ≠ "v=".toList ++ b64.encode serverSig then
    .error (.authFailed "SCRAM server signature mismatch".toList)
  else .ok stream

/-- `client_final` -/
def Answer.clientFinal (answer : Answer) : Bytes :=
  toUtf8 (answer.withoutProof ++ ",p=".toList ++ b64.encode answer.clientProof)

/-- SCRAM-SHA-256 is among the mechanisms. -/
def Client.offered (c : Client) : Bool :=
  ((textOf c.mechanisms).splitOnP (· == '\x00')).contains "SCRAM-SHA-256".toList

/-- `scram_auth`: the messages it writes, and what is left of the stream when it has logged in. -/
def scramAuth (c : Client) (stream : Bytes) : List (UInt8 × Bytes) × Except WireError Bytes :=
  if !c.offered then ([], .error (.authFailed "SCRAM-SHA-256 not offered".toList))
  else
    match c.readContinue h b64 stream with
    | .error e => ([(0x70, c.saslInit b64)], .error e)
    | .ok (answer, stream) =>
      ([(0x70, c.saslInit b64), (0x70, answer.clientFinal b64)], readFinal b64 answer.serverSig stream)

end Exchange

/-! ## The server -/

section Server

variable (h : Sha) (b64 : Base64)

/-- The outputs of a pseudorandom function, each made from the one before. -/
def output (prf : Bytes → Bytes) (seed : Bytes) : Nat → Bytes
  | 0 => prf seed
  | n + 1 => prf (output prf seed n)

/-- All of them, up to number `n`. -/
def outputs (prf : Bytes → Bytes) (seed : Bytes) : Nat → Bytes
  | 0 => output prf seed 0
  | n + 1 => xorBytes (outputs prf seed n) (output prf seed (n + 1))

/-- What is derived from a password. -/
structure Keys where
  clientKey : Bytes
  serverKey : Bytes

/-- The key that the server stores in place of the client's. -/
def Keys.storedKey (k : Keys) : Bytes := h.sha256 k.clientKey

/-- The keys of a password: the salt and a block number go through as many rounds as there are iterations. -/
def keysOf (password : Str) (salt : Bytes) (iterations : UInt32) : Keys :=
  let salted := outputs (hmacSha256 h (toUtf8 password)) (salt ++ [0, 0, 0, 1]) (iterations.toNat - 1)
  ⟨hmacSha256 h salted (asciiBytes "Client Key"), hmacSha256 h salted (asciiBytes "Server Key")⟩

/-- How a server has made the keys of a user. -/
structure ScramServer where
  salt : Bytes
  iterations : UInt32

/-- Its first message, with a nonce. -/
def ScramServer.first (server : ScramServer) (fullNonce : Str) : Str :=
  "r=".toList ++ fullNonce ++ ",s=".toList ++ b64.encode server.salt ++ ",i=".toList ++
    decimal server.iterations.toNat

/-- What a server gets of the two messages of a client. -/
structure Heard where
  /-- the first, without its header -/
  bare : Str
  /-- the last, up to the proof -/
  withoutProof : Str
  proof : Bytes

/-- The header ends with the second comma. -/
def behindHeader (cfm : Str) : Str :=
  let behind := fun s : Str => (s.dropWhile (· != ',')).tail
  behind (behind cfm)

/-- The messages as they are transmitted: the first behind the name of the mechanism and a length, and the last, whose
proof is at its end. -/
def hear : List (UInt8 × Bytes) → Option Heard
  | [(_, init), (_, final)] => do
    let (_, sized) ← splitNul init
    let cfm ← fromUtf8 (sized.drop 4)
    let final ← fromUtf8 final
    let (withoutProof, last) ← Str.rsplitOnce ',' final
    let proof ← (b64.decode (← Str.stripPrefix last "p=")).toOption
    some ⟨behindHeader cfm, withoutProof, proof⟩
  | _ => none

/-- `AuthMessage`: the client's first message, the server's, and the client's last. -/
def Heard.authMessage (heard : Heard) (sfm : Str) : Bytes :=
  toUtf8 (heard.bare ++ ',' :: sfm ++ ',' :: heard.withoutProof)

/-- The client's key, as the server recovers it. -/
def Heard.clientKey (heard : Heard) (sfm : Str) (storedKey : Bytes) : Bytes :=
  xorBytes heard.proof (hmacSha256 h storedKey (heard.authMessage sfm))

/-- The last message of a server. -/
def serverFinal (keys : Keys) (authMessage : Bytes) : Str :=
  "v=".toList ++ b64.encode (hmacSha256 h keys.serverKey authMessage)

end Server

/-! ## The derivation -/

section Derivation

variable {h : Sha}

theorem pbkdf2Loop_outputs (password seed : Bytes) (n : Nat) : ∀ k,
    pbkdf2Loop h password n (output (hmacSha256 h password) seed k) (outputs (hmacSha256 h password) seed k) =
      outputs (hmacSha256 h password) seed (k + n) := by
  induction n with
  | zero => exact fun _ => rfl
  | succ n ih =>
    intro k
    have hnext := ih (k + 1)
    rw [pbkdf2Loop, Nat.add_comm n 1, ← Nat.add_assoc]
    exact hnext

/-- The loop makes the rounds one after the other. -/
theorem pbkdf2Sha256_eq (password salt : Bytes) (iterations : UInt32) :
    pbkdf2Sha256 h password salt iterations =
      outputs (hmacSha256 h password) (salt ++ [0, 0, 0, 1]) (iterations.toNat - 1) := by
  have hloop := pbkdf2Loop_outputs (h := h) password (salt ++ [0, 0, 0, 1]) (iterations.toNat - 1) 0
  rw [Nat.zero_add] at hloop
  exact hloop

theorem length_hmacSha256 (key data : Bytes) : (hmacSha256 h key data).length = 32 := h.sha256_length _

end Derivation

/-! ## The messages -/

section Messages

variable {h : Sha} {b64 : Base64}

theorem comma_notMem_encode (bytes : Bytes) : ',' ∉ b64.encode bytes := by
  intro hmem
  rcases b64.alphabet bytes ',' hmem with halpha | hsign | hsign | hsign
  · exact absurd halpha (by decide)
  all_goals exact absurd hsign (by decide)

theorem nul_notMem_encode (bytes : Bytes) : '\x00' ∉ b64.encode bytes := by
  intro hmem
  rcases b64.alphabet bytes '\x00' hmem with halpha | hsign | hsign | hsign
  · exact absurd halpha (by decide)
  all_goals exact absurd hsign (by decide)

theorem comma_notMem_decimal (n : Nat) : ',' ∉ decimal n := by
  intro hmem
  exact absurd (isDigit_of_mem_decimal hmem) (by decide)

theorem split_comma {w : Str} (hcomma : ',' ∉ w) (s : Str) :
    (w ++ ',' :: s).splitOnP (· == ',') = w :: s.splitOnP (· == ',') := by
  have hsep : ∀ c ∈ w, (c == ',') = false := by
    intro c hc
    exact beq_false_of_ne fun heq => hcomma (heq ▸ hc)
  exact List.splitOnP_append_cons_of_forall_mem hsep ',' rfl s

theorem split_last {w : Str} (hcomma : ',' ∉ w) : w.splitOnP (· == ',') = [w] := by
  refine List.splitOnP_eq_singleton fun c hc => ?_
  exact beq_false_of_ne fun heq => hcomma (heq ▸ hc)

theorem take_nonce (first : ServerFirst) (v : Str) : first.take ("r=".toList ++ v) = { first with fullNonce := v } := by
  rw [ServerFirst.take, Str.stripPrefix_append]

theorem take_salt (first : ServerFirst) (v : Str) : first.take ("s=".toList ++ v) = { first with saltB64 := v } := by
  have hr : Str.stripPrefix ("s=".toList ++ v) "r=" = none := rfl
  rw [ServerFirst.take, hr, Str.stripPrefix_append]

theorem take_count (first : ServerFirst) (n : UInt32) :
    first.take ("i=".toList ++ decimal n.toNat) = { first with iterations := n } := by
  have hr : Str.stripPrefix ("i=".toList ++ decimal n.toNat) "r=" = none := rfl
  have hs : Str.stripPrefix ("i=".toList ++ decimal n.toNat) "s=" = none := rfl
  have hread : (Str.parseUnsigned (2 ^ 32) (decimal n.toNat)).elim 4096 UInt32.ofNat = n := by
    rw [Str.parseUnsigned_decimal n.toNat_lt]
    exact UInt32.ofNat_toNat
  rw [ServerFirst.take, hr, hs, Str.stripPrefix_append]
  dsimp only
  rw [hread]

/-- The first message of a server is taken apart as it was put together. -/
theorem parseServerFirst_first (server : ScramServer) {fullNonce : Str} (hcomma : ',' ∉ fullNonce) :
    parseServerFirst (server.first b64 fullNonce) =
      ⟨fullNonce, b64.encode server.salt, server.iterations⟩ := by
  have hparts : server.first b64 fullNonce =
      ("r=".toList ++ fullNonce) ++ ',' :: (("s=".toList ++ b64.encode server.salt) ++
        ',' :: ("i=".toList ++ decimal server.iterations.toNat)) := by
    simp [ScramServer.first]
  have hnonce : ',' ∉ "r=".toList ++ fullNonce := by simpa using hcomma
  have hsalt : ',' ∉ "s=".toList ++ b64.encode server.salt := by
    simpa using comma_notMem_encode server.salt
  have hcount : ',' ∉ "i=".toList ++ decimal server.iterations.toNat := by
    simpa using comma_notMem_decimal server.iterations.toNat
  rw [parseServerFirst, hparts, split_comma hnonce, split_comma hsalt, split_last hcount]
  simp only [List.foldl_cons, List.foldl_nil, take_nonce, take_salt, take_count]

/-- Which first messages the client answers. -/
theorem answer_eq_ok {c : Client} {sfm : Str} {answer : Answer} : c.answer h b64 sfm = .ok answer ↔
    4096 ≤ (parseServerFirst sfm).iterations ∧ c.nonce b64 <+: (parseServerFirst sfm).fullNonce ∧
      ∃ salt, b64.decode (parseServerFirst sfm).saltB64 = .ok salt ∧
        answer = c.compute h b64 sfm (parseServerFirst sfm) salt := by
  have hcount : ¬(parseServerFirst sfm).iterations < 4096 ↔ 4096 ≤ (parseServerFirst sfm).iterations := UInt32.not_lt
  have hnonce : ¬(!(c.nonce b64).isPrefixOf (parseServerFirst sfm).fullNonce) = true ↔
      c.nonce b64 <+: (parseServerFirst sfm).fullNonce := by simp
  rw [Client.answer, ← hcount, ← hnonce]
  split_ifs with hfew hother
  · simp [hfew]
  · simp [hother]
  · cases hsalt : b64.decode (parseServerFirst sfm).saltB64 with
    | error e => simp
    | ok salt => simp [hfew, hother, eq_comm]

variable {c : Client} {sfm : Str} {first : ServerFirst} {salt : Bytes}

/-- What the server hears of the client. -/
def heardOf (h : Sha) (b64 : Base64) (c : Client) (sfm : Str) (first : ServerFirst) (salt : Bytes) : Heard :=
  ⟨c.firstBare b64, (c.compute h b64 sfm first salt).withoutProof, (c.compute h b64 sfm first salt).clientProof⟩

/-- The messages of the client, as they are transmitted. -/
theorem hear_written :
    hear b64 [(0x70, c.saslInit b64), (0x70, (c.compute h b64 sfm first salt).clientFinal b64)] =
      some (heardOf h b64 c sfm first salt) := by
  have hname : splitNul (c.saslInit b64) = some (asciiBytes "SCRAM-SHA-256",
      be32 (toUtf8 ("n,,".toList ++ c.firstBare b64)).length ++ toUtf8 ("n,,".toList ++ c.firstBare b64)) := by
    rw [Client.saslInit, List.append_assoc, List.cons_append]
    exact splitNul_append _ (by decide)
  have hsized : (be32 (toUtf8 ("n,,".toList ++ c.firstBare b64)).length ++
      toUtf8 ("n,,".toList ++ c.firstBare b64)).drop 4 = toUtf8 ("n,,".toList ++ c.firstBare b64) :=
    List.drop_left' rfl
  have hlast : ∀ w v : Str, ',' ∉ v → Str.rsplitOnce ',' (w ++ ",p=".toList ++ v) = some (w, "p=".toList ++ v) := by
    intro w v hv
    have hcomma : ',' ∉ "p=".toList ++ v := by simpa using hv
    rw [← Str.rsplitOnce_append hcomma w, List.append_assoc]
    rfl
  simp only [hear, hname, hsized, Answer.clientFinal, fromUtf8_toUtf8, Option.bind_eq_bind, Option.bind_some,
    hlast _ _ (comma_notMem_encode _), Str.stripPrefix_append, b64.decode_encode]
  rfl

/-- Both parties make the same keys. -/
theorem keysOf_eq : keysOf h c.password salt first.iterations =
    ⟨hmacSha256 h (pbkdf2Sha256 h (toUtf8 c.password) salt first.iterations) (asciiBytes "Client Key"),
      hmacSha256 h (pbkdf2Sha256 h (toUtf8 c.password) salt first.iterations) (asciiBytes "Server Key")⟩ := by
  rw [keysOf, pbkdf2Sha256_eq]

/-- The proof leads back to the key. -/
theorem clientKey_heardOf :
    (heardOf h b64 c sfm first salt).clientKey h sfm ((keysOf h c.password salt first.iterations).storedKey h) =
      (keysOf h c.password salt first.iterations).clientKey := by
  rw [keysOf_eq]
  refine xorBytes_cancel ?_
  rw [length_hmacSha256, length_hmacSha256]

theorem serverSig_compute : (c.compute h b64 sfm first salt).serverSig =
    hmacSha256 h (keysOf h c.password salt first.iterations).serverKey
      ((heardOf h b64 c sfm first salt).authMessage sfm) := by
  rw [keysOf_eq]
  rfl

end Messages

/-! ## The exchange -/

section Exchange

variable {h : Sha} {b64 : Base64} {c : Client} {sfm : Str} {answer : Answer} {stream rest : Bytes}

theorem readSasl_eq_ok {method : Nat} (hmethod : method < 2 ^ 32) (missing : Str) {bytes : Bytes} :
    readSasl method missing stream = .ok (bytes, rest) ↔
      readPgMsg stream = .ok (0x52, be32 method ++ bytes, rest) := by
  constructor
  · intro hread
    obtain ⟨⟨t, payload, behind⟩, hmsg, hread⟩ := bind_eq_ok hread
    dsimp only at hread
    split_ifs at hread with hmissing hother
    obtain ⟨htag, hlong⟩ := not_or.mp hmissing
    obtain ⟨a, b, d, e, tail, rfl⟩ : ∃ a b d e tail, payload = a :: b :: d :: e :: tail := by
      match payload, Nat.le_of_not_lt hlong with
      | a :: b :: d :: e :: tail, _ => exact ⟨a, b, d, e, tail, rfl⟩
    have hbytes : be32 method = [a, b, d, e] := beNat32_be32 (not_not.mp hother)
    cases hread
    rw [hmsg, hbytes, not_not.mp htag]
    rfl
  · intro hmsg
    have hvalue : beNat32 (be32 method ++ bytes) = method := by
      rw [be32_beNat32, Nat.mod_eq_of_lt hmethod]
    rw [readSasl, hmsg]
    change (if _ then _ else _) = _
    rw [if_neg (not_not.mpr hvalue)]
    rfl

theorem readContinue_eq_ok : c.readContinue h b64 stream = .ok (answer, rest) ↔
    ∃ sfm, readPgMsg stream = .ok (0x52, be32 11 ++ toUtf8 sfm, rest) ∧ c.answer h b64 sfm = .ok answer := by
  constructor
  · intro hread
    obtain ⟨⟨bytes, behind⟩, hsasl, hread⟩ := bind_eq_ok hread
    obtain ⟨sfm, hsfm, hread⟩ := bind_eq_ok hread
    obtain ⟨found, hanswer, hread⟩ := bind_eq_ok hread
    cases hread
    rw [readSasl_eq_ok (by decide) _] at hsasl
    cases htext : fromUtf8 bytes with
    | none =>
      rw [htext] at hsfm
      cases hsfm
    | some text =>
      rw [htext] at hsfm
      cases hsfm
      exact ⟨sfm, by rw [hsasl, toUtf8_of_fromUtf8 htext], hanswer⟩
  · rintro ⟨sfm, hmsg, hanswer⟩
    rw [← readSasl_eq_ok (by decide) "expected SASL continue".toList] at hmsg
    rw [Client.readContinue, hmsg]
    change Except.bind ((fromUtf8 (toUtf8 sfm)).elim _ _) _ = _
    rw [fromUtf8_toUtf8]
    change Except.bind (c.answer h b64 sfm) _ = _
    rw [hanswer]
    rfl

theorem readFinal_eq_ok {serverSig : Bytes} : readFinal b64 serverSig stream = .ok rest ↔
    ∃ sfinal, readPgMsg stream = .ok (0x52, be32 12 ++ sfinal, rest) ∧
      Str.trimEndMatches '\x00' (textOf sfinal) = "v=".toList ++ b64.encode serverSig := by
  constructor
  · intro hread
    obtain ⟨⟨sfinal, behind⟩, hsasl, hread⟩ := bind_eq_ok hread
    dsimp only at hread
    split_ifs at hread with hother
    cases hread
    exact ⟨sfinal, (readSasl_eq_ok (by decide) _).mp hsasl, not_not.mp hother⟩
  · rintro ⟨sfinal, hmsg, hsig⟩
    rw [← readSasl_eq_ok (by decide) "expected SASL final".toList] at hmsg
    rw [readFinal, hmsg]
    change (if _ then _ else _) = _
    rw [if_neg (not_not.mpr hsig)]

/-- What it takes to log in. -/
theorem scramAuth_eq_ok : (scramAuth h b64 c stream).2 = .ok rest ↔ c.offered = true ∧
    ∃ sfm behind answer sfinal, readPgMsg stream = .ok (0x52, be32 11 ++ toUtf8 sfm, behind) ∧
      c.answer h b64 sfm = .ok answer ∧ readPgMsg behind = .ok (0x52, be32 12 ++ sfinal, rest) ∧
      Str.trimEndMatches '\x00' (textOf sfinal) = "v=".toList ++ b64.encode answer.serverSig := by
  rw [scramAuth]
  cases hoffered : c.offered with
  | false => simp
  | true =>
    rw [if_neg (by simp)]
    cases hcontinue : c.readContinue h b64 stream with
    | error e =>
      refine iff_of_false (fun heq => by cases heq) ?_
      rintro ⟨-, sfm, behind, answer, -, hmsg, hanswer, -⟩
      rw [readContinue_eq_ok.mpr ⟨sfm, hmsg, hanswer⟩] at hcontinue
      cases hcontinue
    | ok read =>
      obtain ⟨answer, behind⟩ := read
      obtain ⟨sfm, hmsg, hanswer⟩ := readContinue_eq_ok.mp hcontinue
      dsimp only
      rw [readFinal_eq_ok]
      constructor
      · rintro ⟨sfinal, hfinal, hsig⟩
        exact ⟨rfl, sfm, behind, answer, sfinal, hmsg, hanswer, hfinal, hsig⟩
      · rintro ⟨-, sfm', behind', answer', sfinal, hmsg', hanswer', hfinal, hsig⟩
        rw [readContinue_eq_ok.mpr ⟨sfm', hmsg', hanswer'⟩] at hcontinue
        cases hcontinue
        exact ⟨sfinal, hfinal, hsig⟩

/-- The messages of a client that has answered. -/
theorem written_scramAuth (hoffered : c.offered = true)
    (hmsg : readPgMsg stream = .ok (0x52, be32 11 ++ toUtf8 sfm, rest)) (hanswer : c.answer h b64 sfm = .ok answer) :
    (scramAuth h b64 c stream).1 = [(0x70, c.saslInit b64), (0x70, answer.clientFinal b64)] := by
  rw [scramAuth, if_neg (by simp [hoffered]), readContinue_eq_ok.mpr ⟨sfm, hmsg, hanswer⟩]

/-- The text of a signature has no NUL at its end. -/
theorem trim_serverFinal (keys : Keys) (authMessage : Bytes) :
    Str.trimEndMatches '\x00' (serverFinal h b64 keys authMessage) = serverFinal h b64 keys authMessage := by
  have hnul : '\x00' ∉ serverFinal h b64 keys authMessage := by
    simpa [serverFinal] using nul_notMem_encode (hmacSha256 h keys.serverKey authMessage)
  have hne : serverFinal h b64 keys authMessage ≠ [] := by simp [serverFinal]
  have hq : ∀ d ∈ ([] : Str), d = '\x00' := fun d hd => absurd hd List.not_mem_nil
  have htrim := Str.trimEndMatches_append (s := []) hq hne hnul
  rwa [List.append_nil] at htrim

/-- A client answers the first message of a server that makes enough rounds and goes on from its nonce. -/
theorem answer_first (h : Sha) (b64 : Base64) (c : Client) (server : ScramServer) {suffix : Str}
    (hsuffix : ',' ∉ suffix) (hcount : 4096 ≤ server.iterations) :
    c.answer h b64 (server.first b64 (c.nonce b64 ++ suffix)) =
      .ok (c.compute h b64 (server.first b64 (c.nonce b64 ++ suffix))
        ⟨c.nonce b64 ++ suffix, b64.encode server.salt, server.iterations⟩ server.salt) := by
  have hnonce : ',' ∉ c.nonce b64 := comma_notMem_encode c.nonceRaw
  have hcomma : ',' ∉ c.nonce b64 ++ suffix := by simp [hnonce, hsuffix]
  rw [answer_eq_ok, parseServerFirst_first server hcomma]
  exact ⟨hcount, List.prefix_append _ _, server.salt, b64.decode_encode _, rfl⟩

/-- Two messages that are read from one stream are one. -/
theorem readPgMsg_text_inj {t : Str} {behind : Bytes}
    (hsfm : readPgMsg stream = .ok (0x52, be32 11 ++ toUtf8 sfm, rest))
    (ht : readPgMsg stream = .ok (0x52, be32 11 ++ toUtf8 t, behind)) : sfm = t := by
  have hread := Except.ok.inj (hsfm.symm.trans ht)
  have hbytes := congrArg (fun read => read.2.1) hread
  exact toUtf8_injective (List.append_cancel_left hbytes)

/-- A server with enough rounds recovers the key of the client, and its signature logs the client in. -/
theorem scramAuth_completes {server : ScramServer} {suffix : Str} {behind : Bytes} (hoffered : c.offered = true)
    (hsuffix : ',' ∉ suffix) (hcount : 4096 ≤ server.iterations) (hsfm : sfm = server.first b64 (c.nonce b64 ++ suffix))
    (hmsg : readPgMsg stream = .ok (0x52, be32 11 ++ toUtf8 sfm, behind)) :
    ∃ heard, hear b64 (scramAuth h b64 c stream).1 = some heard ∧
      heard.clientKey h sfm ((keysOf h c.password server.salt server.iterations).storedKey h) =
        (keysOf h c.password server.salt server.iterations).clientKey ∧
      ∀ rest, readPgMsg behind = .ok (0x52, be32 12 ++ toUtf8 (serverFinal h b64
          (keysOf h c.password server.salt server.iterations) (heard.authMessage sfm)), rest) →
        (scramAuth h b64 c stream).2 = .ok rest := by
  have hanswer := answer_first h b64 c server hsuffix hcount
  rw [← hsfm] at hanswer
  generalize hfirst : (⟨c.nonce b64 ++ suffix, b64.encode server.salt, server.iterations⟩ : ServerFirst) = first
    at hanswer
  have hrounds : server.iterations = first.iterations := by rw [← hfirst]
  rw [hrounds]
  refine ⟨heardOf h b64 c sfm first server.salt, ?_, clientKey_heardOf, fun rest hfinal => ?_⟩
  · rw [written_scramAuth hoffered hmsg hanswer]
    exact hear_written
  · refine scramAuth_eq_ok.mpr ⟨hoffered, sfm, behind, _, _, hmsg, hanswer, hfinal, ?_⟩
    rw [textOf_toUtf8, trim_serverFinal, serverSig_compute]
    rfl

/-- **Both parties are convinced**: a server that goes by the messages as they are transmitted recovers the key of the
client from its proof, and its signature logs the client in. The client logs in only with the signature of the keys
that belong to its password, the salt and the count of the server's first message, over the messages of this exchange;
and the count is 4096 at least, and the nonce goes on from its own. -/
theorem scram_mutual (h : Sha) (b64 : Base64) (c : Client) :
    (∀ (server : ScramServer) (suffix : Str) stream behind, c.offered = true → ',' ∉ suffix → 4096 ≤ server.iterations →
      readPgMsg stream = .ok (0x52, be32 11 ++ toUtf8 (server.first b64 (c.nonce b64 ++ suffix)), behind) →
      ∃ heard, hear b64 (scramAuth h b64 c stream).1 = some heard ∧
        heard.clientKey h (server.first b64 (c.nonce b64 ++ suffix))
            ((keysOf h c.password server.salt server.iterations).storedKey h) =
          (keysOf h c.password server.salt server.iterations).clientKey ∧
        ∀ rest, readPgMsg behind = .ok (0x52, be32 12 ++ toUtf8 (serverFinal h b64
            (keysOf h c.password server.salt server.iterations)
            (heard.authMessage (server.first b64 (c.nonce b64 ++ suffix)))), rest) →
          (scramAuth h b64 c stream).2 = .ok rest) ∧
    (∀ stream rest, (scramAuth h b64 c stream).2 = .ok rest → ∃ sfm behind sfinal heard salt,
      readPgMsg stream = .ok (0x52, be32 11 ++ toUtf8 sfm, behind) ∧
      readPgMsg behind = .ok (0x52, be32 12 ++ sfinal, rest) ∧
      hear b64 (scramAuth h b64 c stream).1 = some heard ∧
      4096 ≤ (parseServerFirst sfm).iterations ∧ c.nonce b64 <+: (parseServerFirst sfm).fullNonce ∧
      b64.decode (parseServerFirst sfm).saltB64 = .ok salt ∧
      Str.trimEndMatches '\x00' (textOf sfinal) = serverFinal h b64
        (keysOf h c.password salt (parseServerFirst sfm).iterations) (heard.authMessage sfm)) ∧
    ∀ (server : ScramServer) (fullNonce : Str) stream behind rest, ',' ∉ fullNonce →
      readPgMsg stream = .ok (0x52, be32 11 ++ toUtf8 (server.first b64 fullNonce), behind) →
      server.iterations < 4096 ∨ ¬c.nonce b64 <+: fullNonce → (scramAuth h b64 c stream).2 ≠ .ok rest := by
  refine ⟨?_, ?_, ?_⟩
  · intro server suffix stream behind hoffered hsuffix hcount hmsg
    exact scramAuth_completes hoffered hsuffix hcount rfl hmsg
  · intro stream rest hlogin
    obtain ⟨hoffered, sfm, behind, answer, sfinal, hmsg, hanswer, hfinal, hsig⟩ := scramAuth_eq_ok.mp hlogin
    obtain ⟨hcount, hnonce, salt, hsalt, rfl⟩ := answer_eq_ok.mp hanswer
    refine ⟨sfm, behind, sfinal, heardOf h b64 c sfm (parseServerFirst sfm) salt, salt, hmsg, hfinal, ?_, hcount,
      hnonce, hsalt, ?_⟩
    · rw [written_scramAuth hoffered hmsg hanswer]
      exact hear_written
    · rw [hsig, serverSig_compute]
      rfl
  · intro server fullNonce stream behind rest hcomma hmsg hbad hlogin
    obtain ⟨-, sfm, behind', answer, -, hmsg', hanswer, -⟩ := scramAuth_eq_ok.mp hlogin
    obtain ⟨hcount, hnonce, -⟩ := answer_eq_ok.mp hanswer
    rw [readPgMsg_text_inj hmsg' hmsg, parseServerFirst_first server hcomma] at hcount hnonce
    rcases hbad with hfew | hother
    · exact absurd hfew (UInt32.not_lt.mpr hcount)
    · exact hother hnonce

end Exchange

end Scram

end TurbineProxy
