import TurbineProxy.PgAdmission

/-!
# Who is let in

What `accept_client` takes for a login, whoever it talks to and in whatever order the two take their steps: `Admitted`
says what such a client has written, byte by byte, and what it was told. `admitted_iff` is about `accept_client` alone,
`admitted` about every run of it with a peer.
-/

namespace TurbineProxy

/-- A startup message, with its length. -/
def startupMsg (body : Bytes) : Bytes := be32 (body.length + 4) ++ body

/-- A startup message that is not longer than its length can say. -/
def StartupFits (body : Bytes) : Prop := body.length + 4 < 2 ^ 32

/-- The messages that follow each other. -/
def msgsBytes (msgs : List (UInt8 × Bytes)) : Bytes := msgs.flatMap fun m => buildPgRaw m.1 m.2

/-- The password of a `PasswordMessage`: one NUL at its end is not part of it. -/
def passwordOf (payload : Bytes) : Str :=
  fromUtf8Lossy (if payload.getLast? = some 0 then payload.dropLast else payload)

namespace PostgreSQLProtocol

variable (sur : Surroundings) (self : PostgreSQLProtocol) (config : ClientAuthConfig)

/-- Who a client is after its startup message, with the right to write that it has. -/
def sessionOf (startup : Bytes) (allowWrites : Bool) : PgClientSession :=
  let params := parseStartupParams startup
  ⟨false, (params.lookup "user".toList).getD "postgres".toList,
    (params.lookup "database".toList).getD "postgres".toList, allowWrites,
    (params.lookup "application_name".toList).getD []⟩

/-- What a client writes after its startup message to prove who it is, what it is told, and the session it gets. -/
inductive Proves (startup : Bytes) : Bytes → Bytes → PgClientSession → Prop where
  /-- nothing is asked for in open mode -/
  | anyone (hopen : self.users = []) : Proves startup [] [] (sessionOf startup true)
  /-- otherwise the password of the first user of the name -/
  | password {u : Config.UserConfig} {payload : Bytes}
    (hfind : self.users.find? (·.name = (sessionOf startup u.allowWrites).username) = some u)
    (hsmall : payload.length + 4 < 2 ^ 32) (hpassword : passwordOf payload = u.resolvedPassword sur) :
    Proves startup (buildPgRaw 0x70 payload) (buildPgRaw 0x52 (be32 3)) (sessionOf startup u.allowWrites)

/-- What a client has written, what it was told, the session it has got, and what it wrote after that. -/
inductive Admitted : Bytes → Bytes → PgClientSession → Bytes → Prop where
  /-- it began with the startup message -/
  | plain {startup proof told rest : Bytes} {s : PgClientSession} (hfits : StartupFits startup)
    (hlong : 4 ≤ startup.length) (hssl : beNat32 startup ≠ 80877103) (hcancel : beNat32 startup ≠ 80877102)
    (hproof : self.Proves sur startup proof told s) :
    Admitted (startupMsg startup ++ proof ++ rest) (told ++ msgsBytes (welcome config.connectionId)) s rest
  /-- it asked for TLS and went on without it -/
  | declined {request startup proof told rest : Bytes} {s : PgClientSession} (hrequest : StartupFits request)
    (hlong : 4 ≤ request.length) (hssl : beNat32 request = 80877103) (htls : self.tlsAcceptor = none)
    (hfits : StartupFits startup) (hproof : self.Proves sur startup proof told s) :
    Admitted (startupMsg request ++ startupMsg startup ++ proof ++ rest)
      (0x4E :: told ++ msgsBytes (welcome config.connectionId)) s rest
  /-- it asked for TLS, and the rest is up to the TLS library -/
  | upgraded {request stream told rest : Bytes} {s : PgClientSession}
    {acceptor : Wire PgClientSession → Wire PgClientSession} (hrequest : StartupFits request)
    (hlong : 4 ≤ request.length) (hssl : beNat32 request = 80877103) (htls : self.tlsAcceptor = some acceptor)
    (hrest : (acceptor do
        let startup2 ← readStartupBytes
        acceptStartup sur self config startup2).against .io stream = (told, .ok (s, rest))) :
    Admitted (startupMsg request ++ stream) (0x53 :: told) s rest

end PostgreSQLProtocol

/-! ## Alone on a stream -/

section Against

variable {stream w rest : Bytes}

theorem wireRead_eq (n : Nat) (stream : Bytes) :
    wireRead n stream = if n ≤ stream.length then .ok (stream.take n, stream.drop n) else .error .io := by
  rw [wireRead, readExact]
  split <;> rfl

/-- A message is read from a peer as it is from a stream. -/
theorem against_receivePgMsg (stream : Bytes) :
    receivePgMsg.against .io stream = ([], (readPgMsg stream).map fun m => ((m.1, m.2.1), m.2.2)) := by
  rw [receivePgMsg, Party.receive_bind, Party.against_read, readPgMsg, wireRead_eq]
  split
  · change _ = ([], Except.map _ (if beNat32 ((stream.take 5).drop 1) < 4 then _ else _))
    dsimp only
    by_cases hshort : beNat32 ((stream.take 5).drop 1) < 4
    · rw [if_pos hshort, if_pos hshort]
      rfl
    · rw [if_neg hshort, if_neg hshort, wireRead_eq, Party.receive_bind, Party.against_read]
      split <;> rfl
  · rfl

theorem against_receivePgMsg_eq_ok {m : UInt8 × Bytes} : receivePgMsg.against .io stream = (w, .ok (m, rest)) ↔
    w = [] ∧ stream = buildPgRaw m.1 m.2 ++ rest ∧ m.2.length + 4 < 2 ^ 32 := by
  rw [against_receivePgMsg]
  constructor
  · intro h
    obtain ⟨rfl, hmap⟩ := Prod.ext_iff.mp h
    cases hread : readPgMsg stream with
    | error e =>
      rw [hread] at hmap
      cases hmap
    | ok read =>
      rw [hread] at hmap
      cases hmap
      exact ⟨rfl, readPgMsg_eq_ok hread⟩
  · rintro ⟨rfl, rfl, hsmall⟩
    rw [readPgMsg_frame hsmall]
    rfl

theorem against_readStartupBytes_eq_ok {body : Bytes} : readStartupBytes.against .io stream = (w, .ok (body, rest)) ↔
    w = [] ∧ stream = startupMsg body ++ rest ∧ StartupFits body := by
  rw [readStartupBytes, Party.against_bind_eq_ok]
  constructor
  · rintro ⟨lenBuf, w₁, w₂, mid, rfl, hlen, hbody⟩
    obtain ⟨rfl, rfl, hfour⟩ := Party.against_receive_eq_ok.mp hlen
    dsimp only at hbody
    split at hbody
    · cases congrArg Prod.snd hbody
    · rename_i hlong
      obtain ⟨rfl, rfl, hlength⟩ := Party.against_receive_eq_ok.mp hbody
      obtain ⟨a, b, c, d, rfl⟩ := List.length_eq_four.mp hfour
      have hlt : beNat32 [a, b, c, d] < 2 ^ 32 := le32_lt d c b a
      have hfull : beNat32 [a, b, c, d] = body.length + 4 := by omega
      refine ⟨rfl, ?_, by rw [StartupFits]; omega⟩
      rw [startupMsg, beNat32_be32 hfull, List.append_assoc]
  · rintro ⟨rfl, rfl, hfits⟩
    refine ⟨be32 (body.length + 4), [], [], body ++ rest, rfl, ?_, ?_⟩
    · exact Party.against_receive_eq_ok.mpr ⟨rfl, by rw [startupMsg, List.append_assoc], rfl⟩
    · have hbe := be32_beNat32 (body.length + 4) []
      rw [List.append_nil, Nat.mod_eq_of_lt hfits] at hbe
      dsimp only
      rw [hbe, if_neg (by omega)]
      exact Party.against_receive_eq_ok.mpr ⟨rfl, rfl, by omega⟩

theorem against_writeMsgs {α : Type} (msgs : List (UInt8 × Bytes)) (next : Wire α) :
    (writeMsgs msgs next).against .io stream =
      (msgsBytes msgs ++ (next.against .io stream).1, (next.against .io stream).2) := by
  induction msgs with
  | nil => rfl
  | cons m msgs ih =>
    change (Party.write (buildPgRaw m.1 m.2) (writeMsgs msgs next)).against .io stream = _
    rw [Party.against_write, ih]
    simp [msgsBytes]

namespace PostgreSQLProtocol

variable {sur : Surroundings} {self : PostgreSQLProtocol} {config : ClientAuthConfig} {username : Str}

theorem against_reject {α : Type} (sqlstate message text : Str) : (reject sqlstate message text : Wire α).against .io
    stream = (buildPgRaw 0x45 (errorPayload "FATAL".toList sqlstate message), .error (.authFailed text)) := by
  rw [reject, writePgMsg, Party.send_bind, Party.against_write, Party.against_fail, List.append_nil]

/-- What passes the check of the password, if it is made. -/
theorem against_checkPassword (hopen : self.users.isEmpty = false) :
    (self.checkPassword sur username).against .io stream = (w, .ok ((), rest)) ↔
      w = buildPgRaw 0x52 (be32 3) ∧ ∃ payload, stream = buildPgRaw 0x70 payload ++ rest ∧ payload.length + 4 < 2 ^ 32 ∧
        passwordOf payload = ((self.users.find? (·.name = username)).map (·.resolvedPassword sur)).getD [] := by
  rw [checkPassword, if_neg (by simp [hopen]), writePgMsg, Party.send_bind, Party.against_write_eq_ok]
  generalize ((self.users.find? (·.name = username)).map (·.resolvedPassword sur)).getD [] = password
  constructor
  · rintro ⟨w', rfl, h⟩
    obtain ⟨⟨t, payload⟩, w₁, w₂, mid, rfl, hread, hcompare⟩ := Party.against_bind_eq_ok.mp h
    obtain ⟨rfl, rfl, hsmall⟩ := against_receivePgMsg_eq_ok.mp hread
    dsimp only at hcompare
    split at hcompare
    · cases congrArg Prod.snd hcompare
    · rename_i ht
      change Party.against WireError.io (if passwordOf payload ≠ password then _ else _) mid = _ at hcompare
      by_cases hpassword : passwordOf payload = password
      · rw [if_neg (not_not.mpr hpassword)] at hcompare
        cases hcompare
        exact ⟨List.append_nil _, payload, by rw [not_not.mp ht], hsmall, hpassword⟩
      · rw [if_pos hpassword, against_reject] at hcompare
        cases congrArg Prod.snd hcompare
  · rintro ⟨rfl, payload, rfl, hsmall, rfl⟩
    refine ⟨[], (List.append_nil _).symm, Party.against_bind_eq_ok.mpr ⟨(0x70, payload), [], [], rest, rfl, ?_, ?_⟩⟩
    · exact against_receivePgMsg_eq_ok.mpr ⟨rfl, rfl, hsmall⟩
    · change Party.against WireError.io (if passwordOf payload ≠ passwordOf payload then _ else pure ()) rest = _
      rw [if_neg (not_not.mpr rfl)]
      rfl

/-- The welcome, at the end of which the session is there. -/
theorem against_welcome {s s' : PgClientSession} :
    (writeMsgs (welcome config.connectionId) (pure s')).against .io stream = (w, .ok (s, rest)) ↔
      w = msgsBytes (welcome config.connectionId) ∧ s = s' ∧ stream = rest := by
  rw [against_writeMsgs, Party.pure_eq, Party.against_ok, List.append_nil]
  constructor
  · intro h
    cases h
    exact ⟨rfl, rfl, rfl⟩
  · rintro ⟨rfl, rfl, rfl⟩
    rfl

/-- From the startup message on. -/
theorem against_acceptStartup {startup : Bytes} {s : PgClientSession} :
    (self.acceptStartup sur config startup).against .io stream = (w, .ok (s, rest)) ↔
      ∃ proof told, stream = proof ++ rest ∧ w = told ++ msgsBytes (welcome config.connectionId) ∧
        self.Proves sur startup proof told s := by
  rw [acceptStartup]
  dsimp only
  cases hopen : self.users.isEmpty with
  | true =>
    have hcheck : ∀ username, self.checkPassword sur username = pure () := by
      intro username
      rw [checkPassword, if_pos hopen]
    rw [if_neg (by exact Bool.false_ne_true), hcheck, pure_bind, against_welcome]
    constructor
    · rintro ⟨rfl, rfl, rfl⟩
      exact ⟨[], [], rfl, rfl, .anyone (List.isEmpty_iff.mp hopen)⟩
    · rintro ⟨proof, told, rfl, rfl, hproof⟩
      cases hproof with
      | anyone => exact ⟨rfl, rfl, rfl⟩
      | password hfind =>
        rw [List.isEmpty_iff.mp hopen] at hfind
        cases hfind
  | false =>
    have hclosed : self.users ≠ [] := by
      intro hnil
      rw [hnil] at hopen
      cases hopen
    cases hfind : self.users.find?
        (·.name = ((parseStartupParams startup).lookup "user".toList).getD "postgres".toList) with
    | none =>
      rw [if_pos (by simp), against_reject]
      refine iff_of_false (fun h => by cases congrArg Prod.snd h) ?_
      rintro ⟨proof, told, rfl, rfl, hproof⟩
      cases hproof with
      | anyone hnil => exact hclosed hnil
      | password hsome =>
        cases hfind.symm.trans hsome
    | some u =>
      rw [if_neg (by simp), Party.against_bind_eq_ok]
      constructor
      · rintro ⟨⟨⟩, w₁, w₂, mid, rfl, hcheck, hwelcome⟩
        obtain ⟨rfl, payload, rfl, hsmall, hpassword⟩ := (against_checkPassword hopen).mp hcheck
        obtain ⟨rfl, rfl, rfl⟩ := against_welcome.mp hwelcome
        rw [hfind] at hpassword
        exact ⟨_, _, rfl, rfl, .password hfind hsmall hpassword⟩
      · rintro ⟨proof, told, rfl, rfl, hproof⟩
        cases hproof with
        | anyone hnil => exact absurd hnil hclosed
        | password hsome hsmall hpassword =>
          cases hfind.symm.trans hsome
          refine ⟨(), _, _, rest, rfl, ?_, against_welcome.mpr ⟨rfl, rfl, rfl⟩⟩
          refine (against_checkPassword hopen).mpr ⟨rfl, _, rfl, hsmall, ?_⟩
          rw [hfind]
          exact hpassword

/-- **What `accept_client` takes for a login**, on any stream: it returns a session just if the stream is that of a
client that is admitted, it has written what such a client is told, and it has read so far. -/
theorem admitted_iff (sur : Surroundings) (self : PostgreSQLProtocol) (config : ClientAuthConfig)
    (stream told rest : Bytes) (s : PgClientSession) :
    (self.acceptClient sur config).against .io stream = (told, .ok (s, rest)) ↔
      self.Admitted sur config stream told s rest := by
  rw [acceptClient, Party.against_bind_eq_ok]
  constructor
  · rintro ⟨startup, w₁, w₂, mid, rfl, hread, h⟩
    obtain ⟨rfl, rfl, hfits⟩ := against_readStartupBytes_eq_ok.mp hread
    rw [List.nil_append]
    split at h
    · cases congrArg Prod.snd h
    rename_i hlong
    split at h
    · rename_i hssl
      split at h
      · rename_i acceptor htls
        obtain ⟨w', rfl, hrest⟩ := Party.against_write_eq_ok.mp h
        exact .upgraded hfits (Nat.le_of_not_lt hlong) hssl htls hrest
      · rename_i htls
        rw [Party.send_bind, Party.against_write_eq_ok] at h
        obtain ⟨w', rfl, h⟩ := h
        obtain ⟨startup2, w₃, w₄, mid', rfl, hread', hstartup⟩ := Party.against_bind_eq_ok.mp h
        obtain ⟨rfl, rfl, hfits'⟩ := against_readStartupBytes_eq_ok.mp hread'
        obtain ⟨proof, told, rfl, rfl, hproof⟩ := against_acceptStartup.mp hstartup
        rw [← List.append_assoc, ← List.append_assoc]
        exact .declined hfits (Nat.le_of_not_lt hlong) hssl htls hfits' hproof
    rename_i hssl
    split at h
    · cases congrArg Prod.snd h
    rename_i hcancel
    obtain ⟨proof, told, rfl, rfl, hproof⟩ := against_acceptStartup.mp h
    rw [← List.append_assoc]
    exact .plain hfits (Nat.le_of_not_lt hlong) hssl hcancel hproof
  · intro h
    cases h with
    | @plain startup proof told rest s hfits hlong hssl hcancel hproof =>
      refine ⟨startup, [], _, proof ++ rest, rfl, against_readStartupBytes_eq_ok.mpr ⟨rfl, by simp, hfits⟩, ?_⟩
      rw [if_neg (Nat.not_lt_of_le hlong), if_neg hssl, if_neg hcancel]
      exact against_acceptStartup.mpr ⟨proof, told, rfl, rfl, hproof⟩
    | @declined request startup proof told rest s hrequest hlong hssl htls hfits hproof =>
      refine ⟨request, [], _, startupMsg startup ++ (proof ++ rest), rfl,
        against_readStartupBytes_eq_ok.mpr ⟨rfl, by simp, hrequest⟩, ?_⟩
      rw [if_neg (Nat.not_lt_of_le hlong), if_pos hssl, htls]
      dsimp only
      rw [Party.send_bind, Party.against_write_eq_ok]
      refine ⟨_, rfl, Party.against_bind_eq_ok.mpr ⟨startup, [], _, proof ++ rest, rfl, ?_, ?_⟩⟩
      · exact against_readStartupBytes_eq_ok.mpr ⟨rfl, rfl, hfits⟩
      · exact against_acceptStartup.mpr ⟨proof, told, rfl, rfl, hproof⟩
    | @upgraded request stream told rest s acceptor hrequest hlong hssl htls hrest =>
      refine ⟨request, [], _, stream, rfl, against_readStartupBytes_eq_ok.mpr ⟨rfl, rfl, hrequest⟩, ?_⟩
      rw [if_neg (Nat.not_lt_of_le hlong), if_pos hssl, htls]
      exact Party.against_write_eq_ok.mpr ⟨_, rfl, hrest⟩

/-- **Who comes in**: `accept_client` may return a session in the course of a conversation, whoever its peer is and in
whatever order the two take their steps, just if what the peer has written until then is what a client writes that is
admitted, and the peer was told what such a client is. -/
theorem admitted (sur : Surroundings) (self : PostgreSQLProtocol) (config : ClientAuthConfig)
    (written told rest : Bytes) (s : PgClientSession) :
    (∃ (α : Type) (peer : Wire α) (e : Duplex UInt8 WireError α PgClientSession),
      Duplex.Run .io (.start peer (self.acceptClient sur config)) written told e ∧ e.far = .done (.ok s) ∧
        e.toFar = rest) ↔ self.Admitted sur config written told s rest :=
  Duplex.Run.any_peer_iff.trans (admitted_iff sur self config written told rest s)

end PostgreSQLProtocol

end Against

end TurbineProxy
