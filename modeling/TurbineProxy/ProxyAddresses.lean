import Mathlib.Data.Nat.Digits.Defs
import TurbineProxy.Fingerprints
import TurbineProxy.PgScan
import TurbineProxy.ProxyProtocol

/-!
# The address of a client

`handle_connection` of `proxy/server.rs` takes the address of a client from the PROXY header, if there is one, and cuts
the port off. A load balancer announces one client in either version of the header; `client_agrees_iff` says for which
of them the proxy gets the same address from both.
-/

namespace TurbineProxy

open Str ProxyHeader

/-- `client_addr`, from the socket and from the header. -/
def clientAddr (proxyProtocolEnabled : Bool) (peer : Str) (s : Socket) : Str × Socket :=
  if proxyProtocolEnabled then ((parseProxyHeader s).1.getD peer, (parseProxyHeader s).2) else (peer, s)

/-- `client_ip` -/
def clientIp (clientAddr : Str) : Str := (rsplitOnce ':' clientAddr).elim clientAddr Prod.fst

/-! ## What a load balancer announces -/

/-- The octets of an address. -/
abbrev Octets (n : Nat) : Type := { octets : Bytes // octets.length = n }

/-- How a load balancer writes an IPv6 address. -/
abbrev Ipv6Text : Type :=
  { text : Str // text ≠ [] ∧ text.length ≤ 39 ∧ ∀ c ∈ text, c ∈ "0123456789abcdefABCDEF:.".toList }

/-- What may follow `UNKNOWN` in a line of 108 bytes. -/
abbrev UnknownFields : Type :=
  { fields : List Str //
    (∀ w ∈ fields, IsWord w) ∧ (toUtf8 (unwords ("UNKNOWN".toList :: fields))).length ≤ 100 }

/-- A connection as a load balancer announces it. -/
inductive Announced : Type where
  | tcp4 (src dst : Octets 4) (srcPort dstPort : UInt16)
  | tcp6 (src dst : Octets 16) (srcText dstText : Ipv6Text) (srcPort dstPort : UInt16)
  | unknown (fields : UnknownFields)

namespace Announced

/-- `u16::to_be_bytes` -/
def be16 (n : UInt16) : Bytes := [UInt8.ofNat (n.toNat / 256), UInt8.ofNat n.toNat]

/-- The words of the line, behind `PROXY`. -/
def words : Announced → List Str
  | tcp4 src dst srcPort dstPort =>
    ["TCP4".toList, ipv4Display src.1, ipv4Display dst.1, decimal srcPort.toNat, decimal dstPort.toNat]
  | tcp6 _ _ srcText dstText srcPort dstPort =>
    ["TCP6".toList, srcText.1, dstText.1, decimal srcPort.toNat, decimal dstPort.toNat]
  | unknown fields => "UNKNOWN".toList :: fields.1

/-- The family, and the block of addresses. -/
def family : Announced → UInt8
  | tcp4 .. => 0x11
  | tcp6 .. => 0x21
  | unknown _ => 0

def addrBlock : Announced → Bytes
  | tcp4 src dst srcPort dstPort => src.1 ++ dst.1 ++ be16 srcPort ++ be16 dstPort
  | tcp6 src dst _ _ srcPort dstPort => src.1 ++ dst.1 ++ be16 srcPort ++ be16 dstPort
  | unknown _ => []

end Announced

/-! ## The line -/

section Line

variable {ws : List Str} {w : Str} {c : Char}

theorem isWord_decimal (n : Nat) : IsWord (decimal n) :=
  ⟨decimal_ne_nil n, fun _ hc => (digit_facts (isDigit_of_mem_decimal hc)).1⟩

/-- What an IPv4 address is written with. -/
theorem mem_ipv4Display {octets : Bytes} (h : c ∈ ipv4Display octets) : (∃ n, c ∈ decimal n) ∨ c = '.' := by
  rcases mem_intercalate h with hdot | ⟨w, hw, hc⟩
  · exact .inr hdot
  · obtain ⟨b, -, rfl⟩ := List.mem_map.mp hw
    exact .inl ⟨b.toNat, hc⟩

theorem ipv4Display_eq (a b d e : UInt8) : ipv4Display [a, b, d, e] =
    decimal a.toNat ++ '.' :: (decimal b.toNat ++ '.' :: (decimal d.toNat ++ '.' :: decimal e.toNat)) := by
  simp [ipv4Display, List.intercalate]

theorem exists_octets (src : Octets 4) : ∃ a b d e, src.1 = [a, b, d, e] := by
  obtain ⟨octets, hlen⟩ := src
  match octets, hlen with
  | [a, b, d, e], _ => exact ⟨a, b, d, e, rfl⟩

theorem isWord_ipv4Display (src : Octets 4) : IsWord (ipv4Display src.1) := by
  constructor
  · obtain ⟨a, b, d, e, hsrc⟩ := exists_octets src
    rw [hsrc, ipv4Display_eq]
    exact List.append_ne_nil_of_left_ne_nil (decimal_ne_nil _) _
  · intro c hc
    rcases mem_ipv4Display hc with ⟨n, hn⟩ | rfl
    · exact (isWord_decimal n).2 c hn
    · rfl

theorem isWord_ipv6Text (text : Ipv6Text) : IsWord text.1 := by
  obtain ⟨text, hne, -, hchars⟩ := text
  have hall : "0123456789abcdefABCDEF:.".toList.all (!isWhitespace ·) = true := by decide
  exact ⟨hne, fun c hc => by simpa using List.all_eq_true.mp hall c (hchars c hc)⟩

/-- A line of five words. -/
theorem forall_mem_five {P : Str → Prop} {u v w x y : Str} (hu : P u) (hv : P v) (hw : P w) (hx : P x) (hy : P y) :
    ∀ t ∈ [u, v, w, x, y], P t := by
  simp only [List.forall_mem_cons]
  exact ⟨hu, hv, hw, hx, hy, fun _ h => absurd h List.not_mem_nil⟩

theorem isWord_words (a : Announced) : ∀ w ∈ a.words, IsWord w := by
  cases a with
  | tcp4 src dst srcPort dstPort =>
    have htag : IsWord "TCP4".toList := isWord_of_all rfl (by decide)
    exact forall_mem_five htag (isWord_ipv4Display src) (isWord_ipv4Display dst) (isWord_decimal _) (isWord_decimal _)
  | tcp6 src dst srcText dstText srcPort dstPort =>
    have htag : IsWord "TCP6".toList := isWord_of_all rfl (by decide)
    exact forall_mem_five htag (isWord_ipv6Text srcText) (isWord_ipv6Text dstText) (isWord_decimal _) (isWord_decimal _)
  | unknown fields =>
    have htag : IsWord "UNKNOWN".toList := isWord_of_all rfl (by decide)
    exact List.forall_mem_cons.mpr ⟨htag, fields.2.1⟩

/-- A line of words has no carriage return. -/
theorem noCr_unwords (hws : ∀ w ∈ ws, IsWord w) : 0x0D ∉ toUtf8 (unwords ws) := by
  have hchar : '\r' ∉ unwords ws := by
    intro hmem
    rcases mem_intercalate hmem with hblank | ⟨w, hw, hc⟩
    · cases hblank
    · exact absurd ((hws w hw).2 '\r' hc) (by decide)
  rw [← List.count_eq_zero, toUtf8_count (by decide), List.count_eq_zero]
  exact hchar

theorem length_decimal_port (port : UInt16) : (decimal port.toNat).length ≤ 5 :=
  Nat.toDigits_length 10 _ 5 (by decide) (Nat.lt_trans port.toNat_lt (by decide))

theorem length_decimal_octet (b : UInt8) : (decimal b.toNat).length ≤ 3 :=
  Nat.toDigits_length 10 _ 3 (by decide) (Nat.lt_trans b.toNat_lt (by decide))

theorem length_ipv4Display (src : Octets 4) : (ipv4Display src.1).length ≤ 15 := by
  obtain ⟨a, b, d, e, hsrc⟩ := exists_octets src
  have ha := length_decimal_octet a
  have hb := length_decimal_octet b
  have hd := length_decimal_octet d
  have he := length_decimal_octet e
  rw [hsrc, ipv4Display_eq]
  simp only [List.length_append, List.length_cons]
  omega

/-- The length of a line of five words: its words and four spaces. -/
theorem length_unwords_five (u v w x y : Str) :
    (unwords [u, v, w, x, y]).length = u.length + v.length + w.length + x.length + y.length + 4 := by
  rw [unwords_cons_cons, unwords_cons_cons, unwords_cons_cons, unwords_cons_cons, unwords, List.intercalate_singleton]
  simp only [List.length_append, List.length_cons]
  omega

/-- Everything but what follows `UNKNOWN` is ASCII. -/
def IsAscii (w : Str) : Prop := ∀ c ∈ w, c.toNat < 128

theorem isAscii_of_all (hall : w.all (fun c => decide (c.toNat < 128)) = true) : IsAscii w :=
  fun c hc => by simpa using List.all_eq_true.mp hall c hc

theorem isAscii_decimal (n : Nat) : IsAscii (decimal n) := by
  intro c hc
  have hrange : 48 ≤ c.toNat ∧ c.toNat ≤ 57 := by
    simpa [Char.isDigit, UInt32.le_iff_toNat_le] using isDigit_of_mem_decimal hc
  omega

theorem isAscii_ipv4Display (octets : Bytes) : IsAscii (ipv4Display octets) := by
  intro c hc
  rcases mem_ipv4Display hc with ⟨n, hn⟩ | rfl
  · exact isAscii_decimal n c hn
  · decide

theorem isAscii_ipv6Text (text : Ipv6Text) : IsAscii text.1 := by
  have hall : "0123456789abcdefABCDEF:.".toList.all (fun d => decide (d.toNat < 128)) = true := by decide
  exact fun c hc => by simpa using List.all_eq_true.mp hall c (text.2.2.2 c hc)

theorem length_toUtf8_unwords (hws : ∀ w ∈ ws, IsAscii w) : (toUtf8 (unwords ws)).length = (unwords ws).length := by
  have hascii : ∀ c ∈ unwords ws, c.toNat < 128 := by
    intro c hc
    rcases mem_intercalate hc with rfl | ⟨w, hw, hc⟩
    · decide
    · exact hws w hw c hc
  rw [toUtf8_of_ascii hascii, List.length_map]

/-- A line with two addresses is short enough. -/
theorem length_line {tag src dst : Str} (srcPort dstPort : UInt16) (htag : IsAscii tag) (hsrc : IsAscii src)
    (hdst : IsAscii dst) (hshort : tag.length + src.length + dst.length ≤ 86) :
    (toUtf8 (unwords [tag, src, dst, decimal srcPort.toNat, decimal dstPort.toNat])).length ≤ 100 := by
  have hsport := length_decimal_port srcPort
  have hdport := length_decimal_port dstPort
  rw [length_toUtf8_unwords (forall_mem_five htag hsrc hdst (isAscii_decimal _) (isAscii_decimal _)),
    length_unwords_five]
  omega

theorem length_words (a : Announced) : (toUtf8 (unwords a.words)).length ≤ 100 := by
  cases a with
  | tcp4 src dst srcPort dstPort =>
    have htag : IsAscii "TCP4".toList := isAscii_of_all (by decide)
    have hlength : "TCP4".toList.length = 4 := rfl
    have hsrc := length_ipv4Display src
    have hdst := length_ipv4Display dst
    exact length_line srcPort dstPort htag (isAscii_ipv4Display src.1) (isAscii_ipv4Display dst.1) (by omega)
  | tcp6 src dst srcText dstText srcPort dstPort =>
    have htag : IsAscii "TCP6".toList := isAscii_of_all (by decide)
    have hlength : "TCP6".toList.length = 4 := rfl
    have hsrc := srcText.2.2.1
    have hdst := dstText.2.2.1
    exact length_line srcPort dstPort htag (isAscii_ipv6Text srcText) (isAscii_ipv6Text dstText) (by omega)
  | unknown fields => exact fields.2.2

/-- What is found in a line of words. -/
theorem addressV1_words (hne : ws ≠ []) (hws : ∀ w ∈ ws, IsWord w) (hlocal : ws.head? ≠ some "LOCAL".toList) :
    addressV1 (asciiBytes "PROXY " ++ (toUtf8 (unwords ws) ++ [0x0D, 0x0A])) =
      if 5 ≤ ws.length then some (ws.getD 1 [] ++ ':' :: ws.getD 3 []) else none := by
  have hproxy : IsWord "PROXY".toList := isWord_of_all rfl (by decide)
  have hall : ∀ w ∈ "PROXY".toList :: ws, IsWord w := List.forall_mem_cons.mpr ⟨hproxy, hws⟩
  obtain ⟨front, last, hsplit, hlast⟩ := unwords_concat (List.cons_ne_nil "PROXY".toList ws) hall
  obtain ⟨w, tail, rfl⟩ := List.exists_cons_of_ne_nil hne
  have hline : asciiBytes "PROXY " ++ (toUtf8 (unwords (w :: tail)) ++ [0x0D, 0x0A]) =
      toUtf8 (unwords ("PROXY".toList :: w :: tail) ++ ['\r', '\n']) := by
    rw [unwords_cons_cons, toUtf8_append, toUtf8_append, List.append_assoc]
    rfl
  have hblank : ∀ c ∈ ['\r', '\n'], isWhitespace c = true := List.all_eq_true.mp (by decide)
  have hhead : (unwords ("PROXY".toList :: w :: tail)).head? = some 'P' := by
    rw [unwords_cons_cons]
    rfl
  have htrim := trim_append_blank hsplit hhead (by decide) hlast hblank
  have hparts := splitAsciiWhitespace_unwords hall
  have hsecond : ("PROXY".toList :: w :: tail)[1]? ≠ some "LOCAL".toList := hlocal
  rw [addressV1, hline, fromUtf8_toUtf8]
  change (if (splitAsciiWhitespace (trim _))[1]? = _ then _ else _) = _
  rw [htrim, hparts, if_neg hsecond]
  simp

end Line

/-! ## The two headers -/

namespace Announced

/-- The line. -/
def headerV1 (a : Announced) : ProxyHeader :=
  .v1 (toUtf8 (unwords a.words)) (noCr_unwords (isWord_words a)) (length_words a)

/-- The header of version 2, with other fields behind the addresses. -/
def headerV2 (a : Announced) (tlvs : { tlvs : Bytes // (a.addrBlock ++ tlvs).length < 2 ^ 16 }) : ProxyHeader :=
  .v2 0x21 a.family (a.addrBlock ++ tlvs.1) tlvs.2

section Addresses

variable {src4 dst4 : Octets 4} {src6 dst6 : Octets 16} {srcText dstText : Ipv6Text} {srcPort dstPort : UInt16}
  {fields : UnknownFields}

theorem address_headerV1 (a : Announced) : a.headerV1.address =
    if 5 ≤ a.words.length then some (a.words.getD 1 [] ++ ':' :: a.words.getD 3 []) else none := by
  have hne : a.words ≠ [] := by cases a <;> exact List.cons_ne_nil _ _
  have hlocal : a.words.head? ≠ some "LOCAL".toList := by
    cases a <;> exact fun h => absurd (Option.some.inj h) (by decide)
  exact addressV1_words hne (isWord_words a) hlocal

theorem beNat16_be16 (n : UInt16) (rest : Bytes) : beNat16 (be16 n ++ rest) = n.toNat := by
  have hlt := n.toNat_lt
  simp only [be16, beNat16, List.cons_append, UInt8.toNat_ofNat']
  omega

/-- The block of a header that carries addresses. -/
theorem addressV2_block {n : Nat} {src dst : Bytes} (hsrc : src.length = n) (hdst : dst.length = n)
    (port : UInt16) (behind : Bytes) :
    (src ++ dst ++ be16 port ++ behind).take n = src ∧
      beNat16 ((src ++ dst ++ be16 port ++ behind).drop (n + n)) = port.toNat ∧
      n + n + 2 + behind.length = (src ++ dst ++ be16 port ++ behind).length := by
  have hboth : (src ++ dst).length = n + n := by rw [List.length_append, hsrc, hdst]
  refine ⟨?_, ?_, ?_⟩
  · rw [List.append_assoc, List.append_assoc]
    exact List.take_left' hsrc
  · rw [List.append_assoc, List.drop_left' hboth, beNat16_be16]
  · rw [List.length_append, List.length_append, hboth]
    rfl

theorem address_headerV2_tcp4 (tlvs) : ((tcp4 src4 dst4 srcPort dstPort).headerV2 tlvs).address =
    some (ipv4Display src4.1 ++ ':' :: decimal srcPort.toNat) := by
  obtain ⟨hsrc, hport, hlength⟩ := addressV2_block src4.2 dst4.2 srcPort (be16 dstPort ++ tlvs.1)
  have hlong : 12 ≤ (src4.1 ++ dst4.1 ++ be16 srcPort ++ (be16 dstPort ++ tlvs.1)).length := by
    rw [← hlength, List.length_append]
    exact Nat.add_le_add_left (Nat.le_add_right 2 _) 10
  change addressV2 0x21 0x11 (src4.1 ++ dst4.1 ++ be16 srcPort ++ be16 dstPort ++ tlvs.1) = _
  rw [List.append_assoc (_ ++ be16 srcPort), addressV2, if_neg (by decide), if_pos (by decide), if_pos ⟨rfl, hlong⟩,
    hsrc, hport]

theorem address_headerV2_tcp6 (tlvs) :
    ((tcp6 src6 dst6 srcText dstText srcPort dstPort).headerV2 tlvs).address =
      some ('[' :: ipv6Display src6.1 ++ "]:".toList ++ decimal srcPort.toNat) := by
  obtain ⟨hsrc, hport, hlength⟩ := addressV2_block src6.2 dst6.2 srcPort (be16 dstPort ++ tlvs.1)
  have hlong : 36 ≤ (src6.1 ++ dst6.1 ++ be16 srcPort ++ (be16 dstPort ++ tlvs.1)).length := by
    rw [← hlength, List.length_append]
    exact Nat.add_le_add_left (Nat.le_add_right 2 _) 34
  have hother : ¬((0x21 : UInt8) = 0x11 ∧ 12 ≤ (src6.1 ++ dst6.1 ++ be16 srcPort ++ (be16 dstPort ++ tlvs.1)).length) :=
    fun h => absurd h.1 (by decide)
  change addressV2 0x21 0x21 (src6.1 ++ dst6.1 ++ be16 srcPort ++ be16 dstPort ++ tlvs.1) = _
  rw [List.append_assoc (_ ++ be16 srcPort), addressV2, if_neg (by decide), if_pos (by decide), if_neg hother,
    if_pos ⟨rfl, hlong⟩, hsrc, hport]

theorem address_headerV2_unknown (tlvs) : ((unknown fields).headerV2 tlvs).address = none := rfl

end Addresses

/-! ## One client -/

/-- For which announcements both versions say the same: an IPv4 address, or `UNKNOWN` with fewer than four fields. -/
def Plain : Announced → Prop
  | tcp4 .. => True
  | tcp6 .. => False
  | unknown fields => fields.1.length < 4

end Announced

/-- A header has been received: it is in front of the stream, and enough of it has arrived. -/
def Received (hdr : ProxyHeader) (s : Socket) : Prop :=
  (∃ rest, s.content = hdr.encode ++ rest) ∧ hdr.mark ≤ s.await.arrived.length

/-- Behind either header, the proxy takes the client to have the same address. -/
def SameClient (hdr hdr' : ProxyHeader) : Prop :=
  ∀ peer s s', Received hdr s → Received hdr' s' →
    clientIp (clientAddr true peer s).1 = clientIp (clientAddr true peer s').1

/-- A header has no address. -/
def NoAddress (hdr : ProxyHeader) : Prop := ∀ s, Received hdr s → (parseProxyHeader s).1 = none

section Clients

open Announced

variable {hdr hdr' : ProxyHeader} {s : Socket}

theorem parse_received (h : Received hdr s) : (parseProxyHeader s).1 = hdr.address := by
  obtain ⟨⟨rest, hs⟩, hseen⟩ := h
  obtain ⟨s', hparsed, -⟩ := parseProxyHeader_seen hs hseen
  rw [hparsed]

theorem received_whole (hdr : ProxyHeader) : Received hdr (Socket.whole hdr.encode) := by
  refine ⟨⟨[], rfl⟩, ?_⟩
  rw [Socket.await_whole]
  exact hdr.length_encode

theorem noAddress_iff : NoAddress hdr ↔ hdr.address = none := by
  constructor
  · intro h
    rw [← parse_received (received_whole hdr)]
    exact h _ (received_whole hdr)
  · intro h s hs
    rw [parse_received hs, h]

theorem sameClient_iff : SameClient hdr hdr' ↔
    ∀ peer, clientIp (hdr.address.getD peer) = clientIp (hdr'.address.getD peer) := by
  constructor
  · intro h peer
    rw [← parse_received (received_whole hdr), ← parse_received (received_whole hdr')]
    exact h peer _ _ (received_whole hdr) (received_whole hdr')
  · intro h peer s s' hs hs'
    rw [clientAddr, if_pos rfl, clientAddr, if_pos rfl, parse_received hs, parse_received hs']
    exact h peer

/-- The port is behind the last colon. -/
theorem clientIp_port (ip : Str) (port : Nat) : clientIp (ip ++ ':' :: decimal port) = ip := by
  have hcolon : ':' ∉ decimal port := fun h => (digit_facts (isDigit_of_mem_decimal h)).2.1 rfl
  rw [clientIp, rsplitOnce_append hcolon]
  rfl

theorem bracket_notMem (text : Ipv6Text) : '[' ∉ text.1 := by
  intro h
  exact absurd (text.2.2.2 '[' h) (by decide)

/-- **One client, two headers**: the proxy gets the same address from both versions of the header, and none from an
`UNKNOWN`, just if the address is an IPv4 address or fewer than four fields follow `UNKNOWN`. -/
theorem client_agrees_iff (a : Announced) (tlvs) :
    (SameClient a.headerV1 (a.headerV2 tlvs) ∧
      (a.family = 0 → NoAddress a.headerV1 ∧ NoAddress (a.headerV2 tlvs))) ↔ a.Plain := by
  rw [sameClient_iff, noAddress_iff, noAddress_iff]
  cases a with
  | tcp4 src dst srcPort dstPort =>
    have hinet : ¬(0x11 : UInt8) = 0 := by decide
    refine iff_of_true ⟨fun peer => ?_, fun hfamily => absurd hfamily hinet⟩ trivial
    rw [address_headerV1, address_headerV2_tcp4]
    rfl
  | tcp6 src dst srcText dstText srcPort dstPort =>
    refine iff_of_false (fun h => ?_) id
    have hip : srcText.1 = '[' :: ipv6Display src.1 ++ [']'] := by
      have hpeer := h.1 []
      rw [address_headerV1, address_headerV2_tcp6] at hpeer
      rw [← clientIp_port srcText.1 srcPort.toNat, ← clientIp_port (_ ++ [']']) srcPort.toNat]
      simpa [words] using hpeer
    refine bracket_notMem srcText ?_
    rw [hip]
    exact List.mem_cons_self
  | unknown fields =>
    have hnone : (unknown fields).headerV1.address = none ↔ fields.1.length < 4 := by
      rw [address_headerV1, words, List.length_cons]
      split <;> simp <;> omega
    rw [address_headerV2_unknown]
    constructor
    · rintro ⟨-, hunspec⟩
      exact hnone.mp (hunspec rfl).1
    · intro hfew
      rw [hnone.mpr hfew]
      exact ⟨fun _ => rfl, fun _ => ⟨rfl, rfl⟩⟩

/-- The client 2001:db8::1. -/
def sampleClient : Announced :=
  .tcp6 ⟨[0x20, 1, 0xd, 0xb8, 0, 0, 0, 0, 0, 0, 0, 0, 0, 0, 0, 1], rfl⟩
    ⟨[0x20, 1, 0xd, 0xb8, 0, 0, 0, 0, 0, 0, 0, 0, 0, 0, 0, 2], rfl⟩
    ⟨"2001:db8::1".toList, by decide, by decide, by simp⟩ ⟨"2001:db8::2".toList, by decide, by decide, by simp⟩
    56324 443

/-- The client `2001:db8::1` of one header is the client `[2001:db8::1]` of the other. -/
theorem client_in_brackets : ¬ ∀ (a : Announced) (tlvs), SameClient a.headerV1 (a.headerV2 tlvs) ∧
    (a.family = 0 → NoAddress a.headerV1 ∧ NoAddress (a.headerV2 tlvs)) := by
  intro hclaim
  have hsame := sameClient_iff.mp (hclaim sampleClient ⟨[], by decide⟩).1 []
  have hv1 : clientIp (sampleClient.headerV1.address.getD []) = "2001:db8::1".toList := by decide +kernel
  have hv2 : clientIp ((sampleClient.headerV2 ⟨[], by decide⟩).address.getD []) = "[2001:db8::1]".toList := by
    decide +kernel
  rw [hv1, hv2] at hsame
  exact absurd hsame (by decide)

end Clients

end TurbineProxy
