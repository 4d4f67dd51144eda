import TurbineProxy.MysqlAdmission

/-!
# Who is let in by MySQL

What `accept_client` of `protocol/mysql/mod.rs` takes for a login, whoever it talks to and in whatever order the two
take their steps: `Admitted` says what such a client has written, and what it was told. As in `PgLogins`,
`mysqlAdmitted_iff` is about `accept_client` alone and `mysqlAdmitted` about every run of it with a peer.
-/

namespace TurbineProxy

/-! ## Packets of any length -/

section Frames

variable {n : Nat} {codec codec' : PacketCodec} {readBuf payload stream rest w : Bytes}

namespace PacketCodec

/-- A header says the length and the sequence id. -/
theorem header_eq {header : Bytes} (h : header.length = 4) :
    leBytes 3 (u24Le header) ++ [header.getD 3 0] = header := by
  match header, h with
  | [a, b, c, d], _ =>
    have ha := a.toNat_lt
    have hb := b.toNat_lt
    have hc := c.toNat_lt
    have hbytes : UInt8.ofNat (a.toNat + 2 ^ 8 * b.toNat + 2 ^ 16 * c.toNat) = a ∧
        UInt8.ofNat ((a.toNat + 2 ^ 8 * b.toNat + 2 ^ 16 * c.toNat) / 2 ^ 8) = b ∧
        UInt8.ofNat ((a.toNat + 2 ^ 8 * b.toNat + 2 ^ 16 * c.toNat) / 2 ^ 8 / 2 ^ 8) = c := by
      refine ⟨UInt8.toNat_inj.mp ?_, UInt8.toNat_inj.mp ?_, UInt8.toNat_inj.mp ?_⟩ <;>
        rw [UInt8.toNat_ofNat'] <;> omega
    obtain ⟨hfirst, hsecond, hthird⟩ := hbytes
    change [UInt8.ofNat (a.toNat + 2 ^ 8 * b.toNat + 2 ^ 16 * c.toNat),
      UInt8.ofNat ((a.toNat + 2 ^ 8 * b.toNat + 2 ^ 16 * c.toNat) / 2 ^ 8),
      UInt8.ofNat ((a.toNat + 2 ^ 8 * b.toNat + 2 ^ 16 * c.toNat) / 2 ^ 8 / 2 ^ 8), d] = [a, b, c, d]
    rw [hfirst, hsecond, hthird]

/-- A frame that is read was written with the sequence id that was expected. -/
theorem readFrame_eq_ok {length : Nat} {left : Bytes} (hheader : codec.readHeader stream = .ok (length, left))
    (hread : ioReadExact length left = .ok (payload, rest)) :
    stream = packet codec.sequenceId payload ++ rest ∧ payload.length = length := by
  obtain ⟨⟨header, left'⟩, hfour, haccepted⟩ := bind_eq_ok hheader
  obtain ⟨rfl, hlength⟩ := ioReadExact_eq_ok hfour
  obtain ⟨rfl, hpayload⟩ := ioReadExact_eq_ok hread
  dsimp only at haccepted
  split at haccepted
  · cases haccepted
  · rename_i hseq
    obtain ⟨rfl, rfl⟩ := Prod.mk.inj (Except.ok.inj haccepted)
    rw [not_not] at hseq
    refine ⟨?_, hpayload⟩
    rw [packet, hpayload, ← hseq, List.append_assoc, List.cons_append, List.append_cons, header_eq hlength]

theorem cutFrames_short (h : payload.length < 0xFFFFFF) : cutFrames payload = [payload] := by
  rw [cutFrames, if_pos h]

theorem cutFrames_full (h : payload.length = 0xFFFFFF) (body : Bytes) :
    cutFrames (payload ++ body) = payload :: cutFrames body := by
  rw [cutFrames, if_neg (by simp [h]), List.take_left' h, List.drop_left' h]

/-- What `read_packet` puts together was a payload in frames: all of them full but for the last one. -/
theorem readFrames_eq_ok (h : readFrames n codec readBuf stream = .ok (payload, codec', rest)) :
    ∃ body, payload = readBuf ++ body ∧ stream = wire codec.sequenceId (cutFrames body) ++ rest ∧
      (cutFrames body).length ≤ n ∧ codec' = codec.advanceSeq (UInt8.ofNat (cutFrames body).length) := by
  induction n generalizing codec readBuf stream with
  | zero => cases h
  | succ n ih =>
    obtain ⟨⟨length, left⟩, hheader, hbody⟩ := bind_eq_ok h
    obtain ⟨⟨frame, left'⟩, hread, hnext⟩ := bind_eq_ok hbody
    have hlt := (readHeader_eq_ok hheader).1
    obtain ⟨rfl, hlength⟩ := readFrame_eq_ok hheader hread
    dsimp only at hnext
    split at hnext
    · rename_i hfull
      obtain ⟨body, rfl, rfl, hn, rfl⟩ := ih hnext
      refine ⟨frame ++ body, List.append_assoc .., ?_, ?_, ?_⟩
      · rw [cutFrames_full (hlength.trans hfull), wire, List.append_assoc]
        rfl
      · rw [cutFrames_full (hlength.trans hfull), List.length_cons]
        exact Nat.succ_le_succ hn
      · rw [cutFrames_full (hlength.trans hfull), List.length_cons, advanceSeq_advanceSeq, Nat.add_comm,
          UInt8.ofNat_add]
        rfl
    · rename_i hshort
      cases hnext
      have hcut : cutFrames frame = [frame] := cutFrames_short (by omega)
      exact ⟨frame, rfl, by rw [hcut, wire, wire, List.append_nil], by rw [hcut]; exact Nat.le_add_left 1 n,
        by rw [hcut]; rfl⟩

theorem against_receivePacket_eq_ok :
    (codec.receivePacket n).against mysqlIo stream = (w, .ok ((payload, codec'), rest)) ↔
      w = [] ∧ stream = wire codec.sequenceId (cutFrames payload) ++ rest ∧ (cutFrames payload).length ≤ n + 1 ∧
        codec' = codec.advanceSeq (UInt8.ofNat (cutFrames payload).length) := by
  rw [receivePacket_eq, against_receiveFrames]
  constructor
  · intro h
    obtain ⟨rfl, hmap⟩ := Prod.ext_iff.mp h
    cases hread : readFrames (n + 1) codec [] stream with
    | error e =>
      rw [hread] at hmap
      cases hmap
    | ok read =>
      rw [hread] at hmap
      obtain ⟨heq, rfl⟩ := Prod.mk.inj (Except.ok.inj hmap)
      obtain ⟨rfl, rfl⟩ := Prod.mk.inj heq
      obtain ⟨body, hbody, hstream, hn, hcodec⟩ := readFrames_eq_ok hread
      rw [List.nil_append] at hbody
      subst hbody
      exact ⟨rfl, hstream, hn, hcodec⟩
  · rintro ⟨rfl, rfl, hn, rfl⟩
    rw [readFrames_cutFrames payload rest hn]
    rfl

end PacketCodec

end Frames

namespace MySQLProtocol

variable (h : Sha) (self : MySQLProtocol) (config : ClientAuthConfig) (draw : MysqlDraw)

/-- A response that is accepted, and the session for it. -/
inductive Accepted (response : Bytes) : MySQLClientSession → Prop where
  /-- it is decoded, and the user admitted with the token that is in it -/
  | user {clientHs : HandshakeResponse41} {rules : UserRules}
    (hdecode : HandshakeResponse41.decode response = .ok clientHs)
    (hverify : self.authCache.verify h clientHs.username draw.challenge clientHs.authResponse draw.now = some rules) :
    Accepted response ⟨PacketCodec.new, false, clientHs.username, rules.allowWrites, clientHs.appName⟩

/-- The greeting, as a packet. -/
def greetingBytes : Bytes := packet 0 (self.handshake config draw).encode

/-- What a client has written, what it was told, the session it has got, and what it wrote after that. -/
inductive Admitted : Bytes → Bytes → MySQLClientSession → Bytes → Prop where
  /-- it answered the greeting -/
  | plain {response rest : Bytes} {s : MySQLClientSession} (hssl : ¬IsSslRequest response)
    (haccepted : self.Accepted h draw response s) :
    Admitted (wire 1 (cutFrames response) ++ rest)
      (self.greetingBytes config draw ++
        packet (1 + UInt8.ofNat (cutFrames response).length) (encodeOkPacket 0 0 2 0)) s rest
  /-- it asked for TLS, and the rest is up to the TLS library -/
  | upgraded {request stream told rest : Bytes} {s : MySQLClientSession} {n : Nat}
    {acceptor : MysqlEnd MySQLClientSession → MysqlEnd MySQLClientSession} (hssl : IsSslRequest request)
    (htls : self.frontendTls = some acceptor)
    (hrest : (acceptor do
        let (fullResponse, codec) ← (PacketCodec.new.setSequence 2).receivePacket n
        checkResponse h self draw codec fullResponse).against mysqlIo stream = (told, .ok (s, rest))) :
    Admitted (packet 1 request ++ stream) (self.greetingBytes config draw ++ told) s rest

/-! ## Alone on a stream -/

section Against

variable {h : Sha} {self : MySQLProtocol} {config : ClientAuthConfig} {draw : MysqlDraw} {n : Nat}
  {codec : PacketCodec} {response stream told rest : Bytes} {s : MySQLClientSession}

/-- A response that is checked. -/
theorem against_checkResponse :
    (self.checkResponse h draw codec response).against mysqlIo stream = (told, .ok (s, rest)) ↔
      told = packet codec.sequenceId (encodeOkPacket 0 0 2 0) ∧ stream = rest ∧ self.Accepted h draw response s := by
  rw [checkResponse]
  cases hdecode : HandshakeResponse41.decode response with
  | error e =>
    refine iff_of_false (fun hend => ?_) ?_
    · cases e <;> cases congrArg Prod.snd hend
    · rintro ⟨-, -, haccepted⟩
      cases haccepted with
      | user hdecode' => cases hdecode.symm.trans hdecode'
  | ok clientHs =>
    rw [decodedOr, pure_bind]
    cases hverify : self.authCache.verify h clientHs.username draw.challenge clientHs.authResponse draw.now with
    | none =>
      refine iff_of_false (fun hend => by cases congrArg Prod.snd hend) ?_
      rintro ⟨-, -, haccepted⟩
      cases haccepted with
      | user hdecode' hverify' =>
        cases hdecode.symm.trans hdecode'
        cases hverify.symm.trans hverify'
    | some rules =>
      dsimp only
      rw [Party.send_bind, Party.against_write, Party.pure_eq, Party.against_ok, List.append_nil]
      constructor
      · intro hend
        cases hend
        exact ⟨rfl, rfl, .user hdecode hverify⟩
      · rintro ⟨rfl, rfl, haccepted⟩
        cases haccepted with
        | user hdecode' hverify' =>
          cases hdecode.symm.trans hdecode'
          cases hverify.symm.trans hverify'
          rfl

theorem length_cutFrames_request (hssl : IsSslRequest response) : cutFrames response = [response] :=
  PacketCodec.cutFrames_short (by rw [hssl.1]; decide)

/-- The greeting is sent, if it fits a packet. -/
theorem against_acceptClient : (self.acceptClient h config draw n).against mysqlIo stream = (told, .ok (s, rest)) ↔
    (self.handshake config draw).encode.length ≤ 0xFFFFFF ∧ ∃ response stream' told',
      stream = wire 1 (cutFrames response) ++ stream' ∧ (cutFrames response).length ≤ n + 1 ∧
      told = self.greetingBytes config draw ++ told' ∧
      (self.acceptResponse h draw n (PacketCodec.new.setSequence (1 + UInt8.ofNat (cutFrames response).length))
        response).against mysqlIo stream' = (told', .ok (s, rest)) := by
  rw [acceptClient, PacketCodec.sendPacket]
  by_cases hlong : 0xFFFFFF < (self.handshake config draw).encode.length
  · rw [if_pos hlong]
    refine iff_of_false (fun hend => by cases congrArg Prod.snd hend) ?_
    rintro ⟨hle, -⟩
    omega
  · rw [if_neg hlong, bind_assoc, Party.send_bind, pure_bind, Party.against_write_eq_ok]
    constructor
    · rintro ⟨told', rfl, hend⟩
      obtain ⟨⟨response, codec⟩, w₁, w₂, mid, rfl, hread, hnext⟩ := Party.against_bind_eq_ok.mp hend
      obtain ⟨rfl, rfl, hn, rfl⟩ := PacketCodec.against_receivePacket_eq_ok.mp hread
      exact ⟨Nat.le_of_not_lt hlong, response, mid, w₂, rfl, hn, rfl, hnext⟩
    · rintro ⟨-, response, mid, told', rfl, hn, rfl, hnext⟩
      refine ⟨told', rfl, Party.against_bind_eq_ok.mpr ⟨(response, _), [], told', mid, rfl, ?_, hnext⟩⟩
      exact PacketCodec.against_receivePacket_eq_ok.mpr ⟨rfl, rfl, hn, rfl⟩

end Against

/-- **What `accept_client` takes for a login**, on any stream: with as many frames as it takes it returns a session just
if the stream is that of a client that is admitted, and it has written what such a client is told, and read so far. -/
theorem mysqlAdmitted_iff (h : Sha) (self : MySQLProtocol) (config : ClientAuthConfig) (draw : MysqlDraw)
    (stream told rest : Bytes) (s : MySQLClientSession) :
    (∃ n, (self.acceptClient h config draw n).against mysqlIo stream = (told, .ok (s, rest))) ↔
      (self.handshake config draw).encode.length ≤ 0xFFFFFF ∧ self.Admitted h config draw stream told s rest := by
  constructor
  · rintro ⟨n, hend⟩
    obtain ⟨hfits, response, mid, told, rfl, -, rfl, hnext⟩ := against_acceptClient.mp hend
    refine ⟨hfits, ?_⟩
    rw [acceptResponse] at hnext
    split at hnext
    · rename_i hssl
      split at hnext
      · cases congrArg Prod.snd hnext
      · rename_i acceptor htls
        rw [length_cutFrames_request hssl] at hnext ⊢
        rw [wire, wire, List.append_nil]
        exact .upgraded hssl htls hnext
    · rename_i hssl
      obtain ⟨rfl, rfl, haccepted⟩ := against_checkResponse.mp hnext
      exact .plain hssl haccepted
  · rintro ⟨hfits, hadmitted⟩
    cases hadmitted with
    | @plain response rest s hssl haccepted =>
      refine ⟨(cutFrames response).length, against_acceptClient.mpr
        ⟨hfits, response, rest, _, rfl, Nat.le_succ _, rfl, ?_⟩⟩
      rw [acceptResponse, if_neg hssl]
      exact against_checkResponse.mpr ⟨rfl, rfl, haccepted⟩
    | @upgraded request stream told rest s n acceptor hssl htls hrest =>
      have hcut := length_cutFrames_request hssl
      refine ⟨n, against_acceptClient.mpr ⟨hfits, request, stream, told, ?_, ?_, rfl, ?_⟩⟩
      · rw [hcut, wire, wire, List.append_nil]
      · rw [hcut]
        exact Nat.le_add_left 1 n
      · rw [acceptResponse, if_pos hssl, htls, hcut]
        exact hrest

/-- **Who comes in over MySQL**: `accept_client` may return a session in the course of a conversation, whoever its peer
is and in whatever order the two take their steps, just if the greeting fits a packet, what the peer has written until
then is what a client writes that is admitted, and the peer was told what such a client is. -/
theorem mysqlAdmitted (h : Sha) (self : MySQLProtocol) (config : ClientAuthConfig) (draw : MysqlDraw)
    (written told rest : Bytes) (s : MySQLClientSession) :
    (∃ (n : Nat) (α : Type) (peer : MysqlEnd α) (e : Duplex UInt8 (Abort ConnectError) α MySQLClientSession),
      Duplex.Run mysqlIo (.start peer (self.acceptClient h config draw n)) written told e ∧ e.far = .done (.ok s) ∧
        e.toFar = rest) ↔
      (self.handshake config draw).encode.length ≤ 0xFFFFFF ∧ self.Admitted h config draw written told s rest := by
  rw [← mysqlAdmitted_iff]
  exact exists_congr fun _ => Duplex.Run.any_peer_iff

end MySQLProtocol

end TurbineProxy
