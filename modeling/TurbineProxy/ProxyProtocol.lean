import TurbineProxy.Pool
import TurbineProxy.TextFields
import TurbineProxy.Utf8

/-!
# PROXY headers

`parse_proxy_header` of `proxy/server.rs` and what is under it: a load balancer puts the address of the client in front
of the stream. `Socket` is the stream as it arrives, in segments and with delays. The two parsers read what they need
however it arrives, and then stand behind the header; what decides between them looks at the socket once.
`parseProxyHeader_iff` says how much must have arrived by then.
-/

namespace TurbineProxy

/-! ## A socket -/

/-- A `TcpStream` that is read from. -/
structure Socket where
  /-- what has arrived and has not been read -/
  arrived : Bytes
  /-- the segments that are under way -/
  coming : List Bytes
  /-- how many of them arrive before the next system call, the one after it, … -/
  pace : Nat → Nat

namespace Socket

/-- All that there is to read. -/
def content (s : Socket) : Bytes := s.arrived ++ s.coming.flatten

/-- A stream that is available at once. -/
def whole (bytes : Bytes) : Socket := ⟨bytes, [], fun _ => 0⟩

/-- If nothing is there, a call waits for a segment with something in it, or for the end of the stream. -/
def block : Bytes → List Bytes → Bytes × List Bytes
  | [], seg :: coming => block seg coming
  | arrived, coming => (arrived, coming)

/-- The socket at the next system call. -/
def await (s : Socket) : Socket :=
  let (arrived, coming) := block (s.arrived ++ (s.coming.take (s.pace 0)).flatten) (s.coming.drop (s.pace 0))
  ⟨arrived, coming, fun k => s.pace (k + 1)⟩

/-- `peek` into a buffer of so many bytes. -/
def peek (n : Nat) (s : Socket) : Bytes × Socket := (s.await.arrived.take n, s.await)

/-- The system call that reads into a buffer of so many bytes. -/
def read (n : Nat) (s : Socket) : Bytes × Socket :=
  (s.await.arrived.take n, { s.await with arrived := s.await.arrived.drop n })

/-- The loop of `read_exact`, with what it has read. It reads something each time, or the stream is at its end. -/
def readLoop : Nat → Nat → Bytes → Socket → Option Bytes × Socket
  | _, 0, buf, s => (some buf, s)
  | 0, _, _, s => (none, s)
  | fuel + 1, n, buf, s =>
    let (bytes, s) := s.read n
    if bytes = [] then (none, s) else readLoop fuel (n - bytes.length) (buf ++ bytes) s

/-- `read_exact` -/
def readExact (n : Nat) (s : Socket) : Option Bytes × Socket := readLoop n n [] s

end Socket

/-! ## Addresses as texts -/

/-- `Display` of an `Ipv4Addr` -/
def ipv4Display (octets : Bytes) : Str := List.intercalate ['.'] (octets.map fun b => decimal b.toNat)

/-- `Ipv6Addr::segments` -/
def segments : Bytes → List Nat
  | hi :: lo :: octets => (hi.toNat * 256 + lo.toNat) :: segments octets
  | _ => []

/-- A run of zeros among the segments. -/
structure Span where
  start : Nat
  len : Nat
  deriving DecidableEq

/-- The first of the longest runs: the loop over the segments. -/
def zeroes (current longest : Span) : Nat → List Nat → Span
  | _, [] => longest
  | i, segment :: rest =>
    if segment = 0 then
      let current : Span := ⟨if current.len = 0 then i else current.start, current.len + 1⟩
      zeroes current (if longest.len < current.len then current else longest) (i + 1) rest
    else zeroes ⟨0, 0⟩ longest (i + 1) rest

/-- Segments with colons between them. -/
def fmtSubslice (chunk : List Nat) : Str := List.intercalate [':'] (chunk.map (Nat.toDigits 16))

/-- `Display` of an `Ipv6Addr` -/
def ipv6Display (octets : Bytes) : Str :=
  if octets.take 12 = List.replicate 10 0 ++ [0xFF, 0xFF] then "::ffff:".toList ++ ipv4Display (octets.drop 12)
  else
    let segments := segments octets
    let span := zeroes ⟨0, 0⟩ ⟨0, 0⟩ 0 segments
    if 1 < span.len then
      fmtSubslice (segments.take span.start) ++ "::".toList ++ fmtSubslice (segments.drop (span.start + span.len))
    else fmtSubslice segments

example : ipv6Display [0x20, 1, 0xd, 0xb8, 0, 0, 0, 0, 0, 0, 0, 0, 0, 0, 0, 1] = "2001:db8::1".toList := by
  decide +kernel

example : ipv6Display (List.replicate 16 0) = "::".toList := by decide +kernel

/-! ## The parsers -/

namespace ProxyHeader

/-- `u16::from_be_bytes` -/
def beNat16 : Bytes → Nat
  | hi :: lo :: _ => hi.toNat * 256 + lo.toNat
  | _ => 0

/-- `PPV2_SIGNATURE` -/
def signature : Bytes := [0x0D, 0x0A, 0x0D, 0x0A, 0, 0x0D, 0x0A, 0x51, 0x55, 0x49, 0x54, 0x0A]

/-- The address in a header of version 2: its version and command, its family, and its block. -/
def addressV2 (verCmd family : UInt8) (addrBlock : Bytes) : Option Str :=
  if verCmd >>> 4 ≠ 2 then none
  else if verCmd &&& 0x0F = 1 then
    if family = 0x11 ∧ 12 ≤ addrBlock.length then
      some (ipv4Display (addrBlock.take 4) ++ ':' :: decimal (beNat16 (addrBlock.drop 8)))
    else if family = 0x21 ∧ 36 ≤ addrBlock.length then
      some ('[' :: ipv6Display (addrBlock.take 16) ++ "]:".toList ++ decimal (beNat16 (addrBlock.drop 32)))
    else none
  else none

/-- `parse_proxy_v2` -/
def parseProxyV2 (s : Socket) : Option Str × Socket :=
  match s.readExact 16 with
  | (none, s) => (none, s)
  | (some hdr, s) =>
    let addrLen := beNat16 (hdr.drop 14)
    match if 0 < addrLen then s.readExact addrLen else (some [], s) with
    | (none, s) => (none, s)
    | (some addrBlock, s) => (addressV2 (hdr.getD 12 0) (hdr.getD 13 0) addrBlock, s)

/-- The loop of `parse_proxy_v1`, with the line it has read so far. -/
def readLine : Nat → Bytes → Socket → Option Bytes × Socket
  | 0, _, s => (none, s)
  | fuel + 1, line, s =>
    match s.readExact 1 with
    | (none, s) => (none, s)
    | (some b, s) =>
      let line := line ++ b
      if 2 ≤ line.length ∧ line.drop (line.length - 2) = [0x0D, 0x0A] then (some line, s)
      else if 108 < line.length then (none, s)
      else readLine fuel line s

/-- The address in a header of version 1. -/
def addressV1 (line : Bytes) : Option Str := do
  let s ← fromUtf8 line
  let parts := Str.splitAsciiWhitespace (Str.trim s)
  if parts[1]? = some "LOCAL".toList then none
  else if 6 ≤ parts.length then some (parts.getD 2 [] ++ ':' :: parts.getD 4 [])
  else none

/-- `parse_proxy_v1` -/
def parseProxyV1 (s : Socket) : Option Str × Socket :=
  match readLine 110 [] s with
  | (none, s) => (none, s)
  | (some line, s) => (addressV1 line, s)

/-- `parse_proxy_header` -/
def parseProxyHeader (s : Socket) : Option Str × Socket :=
  let (peeked, s) := s.peek 12
  if 12 ≤ peeked.length ∧ signature <+: peeked then parseProxyV2 s
  else if 6 ≤ peeked.length ∧ peeked.take 6 = asciiBytes "PROXY " then parseProxyV1 s
  else (none, s)

end ProxyHeader

/-! ## What a socket gives -/

namespace Socket

theorem block_content (arrived : Bytes) (coming : List Bytes) :
    (block arrived coming).1 ++ (block arrived coming).2.flatten = arrived ++ coming.flatten := by
  induction coming generalizing arrived with
  | nil => cases arrived <;> rfl
  | cons seg coming ih =>
    cases arrived with
    | nil => exact ih seg
    | cons b arrived => rfl

theorem block_eq_nil {arrived : Bytes} {coming : List Bytes} (h : (block arrived coming).1 = []) :
    (block arrived coming).2 = [] := by
  induction coming generalizing arrived with
  | nil => cases arrived <;> rfl
  | cons seg coming ih =>
    cases arrived with
    | nil => exact ih h
    | cons b arrived => cases h

variable {s : Socket} {n : Nat} {bytes rest : Bytes}

/-- Waiting for more to arrive loses nothing of what is on the socket. -/
theorem content_await (s : Socket) : s.await.content = s.content := by
  have hsplit : (s.coming.take (s.pace 0)).flatten ++ (s.coming.drop (s.pace 0)).flatten = s.coming.flatten := by
    rw [← List.flatten_append, List.take_append_drop]
  exact (block_content _ _).trans (by rw [List.append_assoc, hsplit]; rfl)

/-- Only at the end of the stream is nothing there. -/
theorem await_arrived_ne_nil (h : s.content ≠ []) : s.await.arrived ≠ [] := by
  intro hnil
  have hend : s.await.coming = [] := block_eq_nil hnil
  refine h ?_
  rw [← content_await, content, hnil, hend]
  rfl

/-- What has arrived is the beginning of the stream. -/
theorem take_arrived (h : n ≤ s.await.arrived.length) : s.await.arrived.take n = s.content.take n := by
  rw [← content_await, content, List.take_append_of_le_length h]

/-- Reading takes the beginning of the stream. -/
theorem content_read (n : Nat) (s : Socket) : (s.read n).1 ++ (s.read n).2.content = s.content := by
  rw [← content_await s, content, content, ← List.append_assoc]
  exact congrArg (· ++ s.await.coming.flatten) (List.take_append_drop n s.await.arrived)

theorem read_ne_nil (h : s.content ≠ []) (hn : 0 < n) : (s.read n).1 ≠ [] := by
  intro hnil
  rcases List.take_eq_nil_iff.mp hnil with hzero | harrived
  · exact Nat.ne_of_gt hn hzero
  · exact await_arrived_ne_nil h harrived

theorem length_read_le (n : Nat) (s : Socket) : (s.read n).1.length ≤ n := List.length_take_le n _

theorem await_whole (bytes : Bytes) : (whole bytes).await.arrived = bytes := by
  cases bytes with
  | nil => rfl
  | cons b bytes => exact List.append_nil _

theorem readLoop_succ (fuel n : Nat) (buf : Bytes) (s : Socket) :
    readLoop (fuel + 1) (n + 1) buf s = if (s.read (n + 1)).1 = [] then (none, (s.read (n + 1)).2)
      else readLoop fuel (n + 1 - (s.read (n + 1)).1.length) (buf ++ (s.read (n + 1)).1) (s.read (n + 1)).2 := rfl

theorem readLoop_content (fuel : Nat) : ∀ {n : Nat} {bytes : Bytes} (buf : Bytes) {s : Socket},
    s.content = bytes ++ rest → bytes.length = n → n ≤ fuel →
    ∃ s', readLoop fuel n buf s = (some (buf ++ bytes), s') ∧ s'.content = rest := by
  induction fuel with
  | zero =>
    intro n bytes buf s hs hlen hfuel
    obtain rfl := Nat.le_zero.mp hfuel
    obtain rfl := List.length_eq_zero_iff.mp hlen
    exact ⟨s, by rw [readLoop, List.append_nil], hs⟩
  | succ fuel ih =>
    intro n bytes buf s hs hlen hfuel
    cases n with
    | zero =>
      obtain rfl := List.length_eq_zero_iff.mp hlen
      exact ⟨s, by rw [readLoop, List.append_nil], hs⟩
    | succ n =>
      have hsome : (s.read (n + 1)).1 ≠ [] := by
        refine read_ne_nil ?_ (Nat.succ_pos n)
        rw [hs]
        exact List.append_ne_nil_of_left_ne_nil (List.ne_nil_of_length_eq_add_one hlen) rest
      have hsplit : (s.read (n + 1)).1 ++ (s.read (n + 1)).2.content = bytes ++ rest := by rw [content_read, hs]
      have hle : (s.read (n + 1)).1.length ≤ bytes.length := hlen ▸ length_read_le (n + 1) s
      -- the call has read a beginning of what is wanted
      obtain ⟨tail, rfl⟩ : (s.read (n + 1)).1 <+: bytes :=
        List.prefix_of_prefix_length_le ⟨_, hsplit⟩ (List.prefix_append bytes rest) hle
      rw [List.append_assoc] at hsplit
      have hpos := List.length_pos_of_ne_nil hsome
      rw [List.length_append] at hlen
      have htail : tail.length = n + 1 - (s.read (n + 1)).1.length := by omega
      obtain ⟨s', hread, hrest⟩ :=
        ih (buf ++ (s.read (n + 1)).1) (List.append_cancel_left hsplit) htail (by omega)
      refine ⟨s', ?_, hrest⟩
      rw [readLoop_succ, if_neg hsome, hread, List.append_assoc]

/-- `read_exact` gives the beginning of the stream, however it arrives. -/
theorem readExact_content (hs : s.content = bytes ++ rest) (hlen : bytes.length = n) :
    ∃ s', s.readExact n = (some bytes, s') ∧ s'.content = rest := by
  obtain ⟨s', hread, hrest⟩ := readLoop_content n [] hs hlen (Nat.le_refl n)
  exact ⟨s', hread, hrest⟩

end Socket

/-! ## Headers -/

/-- The headers that a load balancer may send. -/
inductive ProxyHeader : Type where
  /-- a line of 108 bytes at most, what stands between `PROXY` and the end of it -/
  | v1 (middle : Bytes) (noCr : 0x0D ∉ middle) (short : middle.length ≤ 100)
  /-- version and command, family, and the block of addresses with its length in front -/
  | v2 (verCmd family : UInt8) (addrBlock : Bytes) (short : addrBlock.length < 2 ^ 16)

namespace ProxyHeader

/-- The bytes of a header. -/
def encode : ProxyHeader → Bytes
  | v1 middle .. => asciiBytes "PROXY " ++ (middle ++ [0x0D, 0x0A])
  | v2 verCmd family addrBlock _ =>
    (signature ++ [verCmd, family, UInt8.ofNat (addrBlock.length / 256), UInt8.ofNat addrBlock.length]) ++ addrBlock

/-- The address in a header. -/
def address : ProxyHeader → Option Str
  | v1 middle .. => addressV1 (asciiBytes "PROXY " ++ (middle ++ [0x0D, 0x0A]))
  | v2 verCmd family addrBlock _ => addressV2 verCmd family addrBlock

/-- How many bytes it takes to recognise a header. -/
def mark : ProxyHeader → Nat
  | v1 .. => 6
  | v2 .. => 12

variable {s : Socket} {rest : Bytes}

theorem parseProxyV2_content {verCmd family : UInt8} {addrBlock : Bytes} (short : addrBlock.length < 2 ^ 16)
    (hs : s.content = (v2 verCmd family addrBlock short).encode ++ rest) :
    ∃ s', parseProxyV2 s = (addressV2 verCmd family addrBlock, s') ∧ s'.content = rest := by
  rw [encode, List.append_assoc] at hs
  obtain ⟨s₁, hhdr, hbehind⟩ := Socket.readExact_content (n := 16) hs rfl
  have hlen : 256 * (addrBlock.length / 256) + addrBlock.length % 256 = addrBlock.length := Nat.div_add_mod _ 256
  have hvalue : beNat16 [UInt8.ofNat (addrBlock.length / 256), UInt8.ofNat addrBlock.length] = addrBlock.length := by
    simp only [beNat16, UInt8.toNat_ofNat']
    omega
  have hblock : ∃ s', (if 0 < addrBlock.length then s₁.readExact addrBlock.length else (some [], s₁)) =
      (some addrBlock, s') ∧ s'.content = rest := by
    split
    · exact Socket.readExact_content hbehind rfl
    · rename_i hempty
      obtain rfl := List.length_eq_zero_iff.mp (Nat.eq_zero_of_not_pos hempty)
      exact ⟨s₁, rfl, hbehind⟩
  obtain ⟨s₂, hread, hrest⟩ := hblock
  refine ⟨s₂, ?_, hrest⟩
  rw [parseProxyV2, hhdr]
  change (match if 0 < beNat16 [_, _] then s₁.readExact (beNat16 [_, _]) else (some [], s₁) with
    | (none, s) => (none, s)
    | (some addrBlock, s) => (addressV2 verCmd family addrBlock, s)) = _
  rw [hvalue, hread]

/-- The line with one more byte. -/
theorem readLine_succ (fuel : Nat) (line : Bytes) {b : UInt8} (hs : s.content = b :: rest) :
    ∃ s', s'.content = rest ∧ readLine (fuel + 1) line s =
      if 2 ≤ (line ++ [b]).length ∧ (line ++ [b]).drop ((line ++ [b]).length - 2) = [0x0D, 0x0A] then
        (some (line ++ [b]), s')
      else if 108 < (line ++ [b]).length then (none, s') else readLine fuel (line ++ [b]) s' := by
  have hb : s.content = [b] ++ rest := hs
  have hone : [b].length = 1 := rfl
  obtain ⟨s', hread, hrest⟩ := Socket.readExact_content hb hone
  refine ⟨s', hrest, ?_⟩
  rw [readLine, hread]

/-- The last two bytes, while there is no carriage return before the last of them. -/
theorem drop_ne_crlf {line : Bytes} (hcr : 0x0D ∉ line) (b : UInt8) :
    (line ++ [b]).drop ((line ++ [b]).length - 2) ≠ [0x0D, 0x0A] := by
  rcases List.eq_nil_or_concat' line with rfl | ⟨front, last, rfl⟩
  · simp
  · have hdrop : (front ++ [last] ++ [b]).drop ((front ++ [last] ++ [b]).length - 2) = [last, b] := by
      have htwo : (front ++ [last] ++ [b]).length - 2 = front.length := by simp
      rw [htwo, List.append_assoc, List.drop_left]
      rfl
    rw [hdrop]
    rintro ⟨⟩
    simp at hcr

/-- The line goes on. -/
theorem readLine_goes_on (fuel : Nat) {line : Bytes} {b : UInt8} (hcr : 0x0D ∉ line) (hshort : line.length < 108)
    (hs : s.content = b :: rest) :
    ∃ s', s'.content = rest ∧ readLine (fuel + 1) line s = readLine fuel (line ++ [b]) s' := by
  obtain ⟨s', hrest, hread⟩ := readLine_succ fuel line hs
  have hlong : ¬108 < (line ++ [b]).length := by
    rw [List.length_append, List.length_singleton]
    omega
  refine ⟨s', hrest, ?_⟩
  rw [hread, if_neg fun h => drop_ne_crlf hcr b h.2, if_neg hlong]

/-- The line ends at the first line feed, however it arrives. -/
theorem readLine_ends (fuel : Nat) (line : Bytes) (hs : s.content = 0x0A :: rest) :
    ∃ s', s'.content = rest ∧ readLine (fuel + 1) (line ++ [0x0D]) s = (some (line ++ [0x0D, 0x0A]), s') := by
  obtain ⟨s', hrest, hread⟩ := readLine_succ fuel (line ++ [0x0D]) hs
  have hsplit : line ++ [0x0D] ++ [0x0A] = line ++ [(0x0D : UInt8), 0x0A] := by simp
  have htwo : (line ++ [(0x0D : UInt8), 0x0A]).length - 2 = line.length := by simp
  refine ⟨s', hrest, ?_⟩
  rw [hread, hsplit, htwo, List.drop_left, if_pos ⟨by simp, rfl⟩]

/-- A line without a carriage return is read up to its end. -/
theorem readLine_content (middle : Bytes) : ∀ {fuel : Nat} {line : Bytes} {s : Socket}, 0x0D ∉ line ++ middle →
    (line ++ middle).length ≤ 106 → middle.length + 2 ≤ fuel → s.content = middle ++ 0x0D :: 0x0A :: rest →
    ∃ s', readLine fuel line s = (some (line ++ middle ++ [0x0D, 0x0A]), s') ∧ s'.content = rest := by
  induction middle with
  | nil =>
    intro fuel line s hcr hshort hfuel hs
    obtain ⟨fuel, rfl⟩ := Nat.exists_eq_add_of_le' hfuel
    rw [List.append_nil] at hcr hshort
    obtain ⟨s₁, hbehind, hgoes⟩ := readLine_goes_on (fuel + 1) hcr (by omega) hs
    obtain ⟨s₂, hrest, hends⟩ := readLine_ends fuel line hbehind
    exact ⟨s₂, by rw [List.append_nil, ← hends, ← hgoes]; rfl, hrest⟩
  | cons b middle ih =>
    intro fuel line s hcr hshort hfuel hs
    obtain ⟨fuel, rfl⟩ : ∃ k, fuel = k + 1 := Nat.exists_eq_succ_of_ne_zero (by omega)
    have hsplit : line ++ b :: middle = line ++ [b] ++ middle := by simp
    have hline : 0x0D ∉ line := fun hmem => hcr (List.mem_append_left _ hmem)
    have hlength : line.length + (middle.length + 1) ≤ 106 := by simpa using hshort
    obtain ⟨s₁, hbehind, hgoes⟩ := readLine_goes_on fuel hline (by omega) hs
    rw [hsplit] at hcr hshort ⊢
    have hrounds : middle.length + 2 ≤ fuel := Nat.le_of_succ_le_succ (by simpa using hfuel)
    obtain ⟨s₂, hread, hrest⟩ := ih hcr hshort hrounds hbehind
    exact ⟨s₂, by rw [hgoes, hread], hrest⟩

theorem parseProxyV1_content {middle : Bytes} {noCr : 0x0D ∉ middle} (short : middle.length ≤ 100)
    (hs : s.content = (v1 middle noCr short).encode ++ rest) :
    ∃ s', parseProxyV1 s = ((v1 middle noCr short).address, s') ∧ s'.content = rest := by
  have hproxy : 0x0D ∉ asciiBytes "PROXY " := by decide
  have hcr : 0x0D ∉ [] ++ (asciiBytes "PROXY " ++ middle) := by
    simp [hproxy, noCr]
  have hsix : (asciiBytes "PROXY ").length = 6 := rfl
  have hshort : ([] ++ (asciiBytes "PROXY " ++ middle)).length ≤ 106 := by
    rw [List.nil_append, List.length_append, hsix]
    omega
  have hfuel : (asciiBytes "PROXY " ++ middle).length + 2 ≤ 110 :=
    Nat.le_trans (Nat.add_le_add_right hshort 2) (by decide)
  have hline : s.content = asciiBytes "PROXY " ++ middle ++ 0x0D :: 0x0A :: rest := by
    rw [hs, encode]
    simp
  obtain ⟨s', hread, hrest⟩ := readLine_content _ hcr hshort hfuel hline
  refine ⟨s', ?_, hrest⟩
  rw [parseProxyV1, hread, address, List.nil_append, List.append_assoc]

/-- The first six bytes tell the versions apart. -/
theorem take_six_encode (hdr : ProxyHeader) (rest : Bytes) :
    (hdr.encode ++ rest).take 6 = if hdr.mark = 6 then asciiBytes "PROXY " else signature.take 6 := by
  cases hdr <;> rfl

theorem take_six_ne : signature.take 6 ≠ asciiBytes "PROXY " := by decide

theorem take_six_peeked (h : 6 ≤ s.await.arrived.length) : (s.await.arrived.take 12).take 6 = s.content.take 6 := by
  rw [List.take_take, ← Socket.take_arrived h]
  rfl

theorem length_peeked (s : Socket) : (s.await.arrived.take 12).length = min 12 s.await.arrived.length :=
  List.length_take

theorem parseProxyHeader_eq (s : Socket) : parseProxyHeader s =
    if 12 ≤ (s.await.arrived.take 12).length ∧ signature <+: s.await.arrived.take 12 then parseProxyV2 s.await
    else if 6 ≤ (s.await.arrived.take 12).length ∧ (s.await.arrived.take 12).take 6 = asciiBytes "PROXY " then
      parseProxyV1 s.await
    else (none, s.await) := rfl

/-- Once it is recognised, a header is parsed however it arrives. -/
theorem parseProxyHeader_seen {hdr : ProxyHeader} (hs : s.content = hdr.encode ++ rest)
    (hseen : hdr.mark ≤ s.await.arrived.length) :
    ∃ s', parseProxyHeader s = (hdr.address, s') ∧ s'.content = rest := by
  have hwait : s.await.content = hdr.encode ++ rest := by rw [Socket.content_await, hs]
  have hsix := hdr.take_six_encode rest
  rw [← hs] at hsix
  cases hdr with
  | v1 middle noCr short =>
    have hpeeked := (take_six_peeked hseen).trans hsix
    have hother : ¬(12 ≤ (s.await.arrived.take 12).length ∧ signature <+: s.await.arrived.take 12) := by
      rintro ⟨-, behind, hsignature⟩
      rw [← hsignature] at hpeeked
      exact take_six_ne hpeeked
    have hlong : 6 ≤ (s.await.arrived.take 12).length := by
      rw [length_peeked]
      exact Nat.le_min.mpr ⟨by decide, hseen⟩
    obtain ⟨s', hparsed, hrest⟩ := parseProxyV1_content short hwait
    exact ⟨s', by rw [parseProxyHeader_eq, if_neg hother, if_pos ⟨hlong, hpeeked⟩, hparsed], hrest⟩
  | v2 verCmd family addrBlock short =>
    have htwelve : 12 ≤ s.await.arrived.length := hseen
    have hpeeked : s.await.arrived.take 12 = signature := by
      rw [Socket.take_arrived htwelve, hs, encode, List.append_assoc, List.append_assoc]
      exact List.take_left' rfl
    obtain ⟨s', hparsed, hrest⟩ := parseProxyV2_content short hwait
    refine ⟨s', ?_, hrest⟩
    rw [parseProxyHeader_eq, hpeeked, if_pos ⟨Nat.le_refl 12, List.prefix_refl signature⟩, hparsed]
    rfl

/-- A header that is not recognised is left where it is. -/
theorem parseProxyHeader_unseen {hdr : ProxyHeader} (hs : s.content = hdr.encode ++ rest)
    (hunseen : s.await.arrived.length < hdr.mark) : parseProxyHeader s = (none, s.await) := by
  have hmark : hdr.mark ≤ 12 := by
    cases hdr with
    | v1 => exact (by decide : 6 ≤ 12)
    | v2 => exact Nat.le_refl 12
  have hother : ¬(12 ≤ (s.await.arrived.take 12).length ∧ signature <+: s.await.arrived.take 12) := by
    rintro ⟨hlong, -⟩
    rw [length_peeked] at hlong
    omega
  have hline : ¬(6 ≤ (s.await.arrived.take 12).length ∧
      (s.await.arrived.take 12).take 6 = asciiBytes "PROXY ") := by
    rintro ⟨hlong, hpeeked⟩
    rw [length_peeked] at hlong
    rw [take_six_peeked (by omega), hs, take_six_encode, if_neg (by omega)] at hpeeked
    exact take_six_ne hpeeked
  rw [parseProxyHeader_eq, if_neg hother, if_neg hline]

theorem length_encode (hdr : ProxyHeader) : hdr.mark ≤ hdr.encode.length := by
  cases hdr with
  | v1 middle noCr short =>
    rw [encode, List.length_append]
    exact Nat.le_add_right 6 _
  | v2 verCmd family addrBlock short =>
    rw [encode, List.length_append]
    exact Nat.le_trans (by decide : 12 ≤ 16) (Nat.le_add_right 16 _)

theorem encode_ne_nil (hdr : ProxyHeader) : hdr.encode ≠ [] := by
  cases hdr <;> simp [encode, signature]

/-- **Headers in segments**: what is found does not depend on how the stream arrives, and the stream is left at the
first byte behind the header, just if enough of the header has arrived when the socket is looked at. -/
theorem parseProxyHeader_iff (hdr : ProxyHeader) (rest : Bytes) (s : Socket) (hs : s.content = hdr.encode ++ rest) :
    ((parseProxyHeader s).1 = (parseProxyHeader (Socket.whole (hdr.encode ++ rest))).1 ∧
      (parseProxyHeader s).2.content = rest) ↔ hdr.mark ≤ s.await.arrived.length := by
  constructor
  · rintro ⟨-, hleft⟩
    by_contra hunseen
    rw [parseProxyHeader_unseen hs (Nat.lt_of_not_le hunseen), Socket.content_await, hs] at hleft
    exact hdr.encode_ne_nil (List.append_left_eq_self.mp hleft)
  · intro hseen
    have hwhole : (Socket.whole (hdr.encode ++ rest)).content = hdr.encode ++ rest := List.append_nil _
    have harrived : hdr.mark ≤ (Socket.whole (hdr.encode ++ rest)).await.arrived.length := by
      rw [Socket.await_whole, List.length_append]
      exact Nat.le_trans hdr.length_encode (Nat.le_add_right _ _)
    obtain ⟨s₁, hparsed, hrest⟩ := parseProxyHeader_seen hs hseen
    obtain ⟨s₂, hsame, -⟩ := parseProxyHeader_seen hwhole harrived
    rw [hparsed, hsame]
    exact ⟨rfl, hrest⟩

/-- `PROXY TCP4 192.0.2.1 192.0.2.2 56324 443` -/
def sampleHeader : ProxyHeader :=
  v1 (asciiBytes "TCP4 192.0.2.1 192.0.2.2 56324 443") (by decide +kernel) (by decide +kernel)

/-- The first segment of this header has six bytes, and the rest comes later, with a byte of the session. -/
def splitHeader : Socket :=
  ⟨asciiBytes "PROXY ", [asciiBytes "TCP4 192.0.2.1 192.0.2.2 56324 443\r\n" ++ [0x0A]], fun _ => 0⟩

/-- Six bytes are enough. -/
theorem parseProxyHeader_splitHeader :
    (parseProxyHeader splitHeader).1 = (parseProxyHeader (Socket.whole (sampleHeader.encode ++ [0x0A]))).1 ∧
      (parseProxyHeader splitHeader).2.content = [0x0A] :=
  (parseProxyHeader_iff sampleHeader [0x0A] splitHeader (by decide +kernel)).mpr (by decide +kernel)

/-- A first segment of three bytes hides the header. -/
theorem header_hidden : ¬ ∀ (hdr : ProxyHeader) (rest : Bytes) (s : Socket), s.content = hdr.encode ++ rest →
    (parseProxyHeader s).1 = (parseProxyHeader (Socket.whole (hdr.encode ++ rest))).1 ∧
      (parseProxyHeader s).2.content = rest := by
  intro hclaim
  have hseen := hclaim sampleHeader []
    ⟨asciiBytes "PRO", [asciiBytes "XY TCP4 192.0.2.1 192.0.2.2 56324 443\r\n"], fun _ => 0⟩ (by decide +kernel)
  exact absurd hseen.2 (by decide +kernel)

end ProxyHeader

end TurbineProxy
