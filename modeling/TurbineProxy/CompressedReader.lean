import TurbineProxy.PacketCodec

/-!
# The decompressing reader

`MysqlCompressedReader` of `protocol/mysql/packet.rs`, an adapter that is polled: in front of every read of the inner
stream it can be suspended, and it goes on from there with what it has.

What it still owes its caller is a function of its state (`owed`): the bytes that are decompressed but not delivered,
and all that the rest of the stream decodes to. A poll hands out the beginning of that, or nothing.
-/

namespace TurbineProxy

/-- A compression library, by the two functions that are used of it; either of them may fail. -/
structure Compressor where
  compress : Bytes → Option Bytes
  /-- for a buffer of so many bytes -/
  decompress : Bytes → Nat → Option Bytes

/-- The libraries in use. -/
structure Compressors where
  zlib : Compressor
  zstd : Compressor

/-- The one for an algorithm: zlib is also the default. -/
def Compressors.of (cs : Compressors) : CompressAlgo → Compressor
  | .zstd => cs.zstd
  | _ => cs.zlib

/-! ## The reader -/

/-- `CompReadPhase` -/
inductive CompReadPhase : Type where
  | drainBuf
  | readHeader
  | readPayload
  deriving DecidableEq

/-- What the inner stream answers when it is polled. -/
inductive InnerPoll : Type where
  | pending
  | failed
  /-- a byte and so many more, if there are that many; no byte at the end of the stream -/
  | ready (more : Nat)
  deriving DecidableEq

/-- What the reader answers: no byte stands for the end of the stream. -/
inductive ReadPoll : Type where
  | pending
  | failed
  | ready (bytes : Bytes)
  deriving DecidableEq

/-- `MysqlCompressedReader`. The header and the payload are the parts of them that are filled. -/
structure MysqlCompressedReader where
  /-- what the inner stream still holds -/
  inner : Bytes
  /-- decompressed bytes -/
  buf : Bytes
  /-- how many of them are delivered -/
  bufPos : Nat
  phase : CompReadPhase
  hdr : Bytes
  comp : Bytes
  /-- the length that `comp` is to have -/
  compLen : Nat
  algo : CompressAlgo
  deriving DecidableEq

/-- Where the loop of `poll_read` stops: it has bytes, it has failed, or it polls the inner stream for so many. -/
inductive Stop : Type where
  | deliver (r : MysqlCompressedReader)
  | failed (r : MysqlCompressedReader)
  | want (n : Nat) (r : MysqlCompressedReader)

/-- The content of a frame: its second length is that of the content, or zero when the payload is the content. -/
def Compressor.content (c : Compressor) (hdr comp : Bytes) : Option Bytes :=
  let uncompLen := u24Le (hdr.drop 4)
  if 0 < uncompLen then c.decompress comp uncompLen else some comp

namespace MysqlCompressedReader

/-- `MysqlCompressedReader::new` -/
def new (inner : Bytes) (algo : CompressAlgo) : MysqlCompressedReader := ⟨inner, [], 0, .drainBuf, [], [], 0, algo⟩

variable (cs : Compressors) (r : MysqlCompressedReader)

/-- The loop at `DrainBuf`. -/
def atBuf : Stop :=
  if 0 < r.buf.length - r.bufPos then .deliver r
  else .want 7 { r with buf := [], bufPos := 0, hdr := [], phase := .readHeader }

/-- The loop at `ReadPayload`. -/
def atPayload : Stop :=
  if r.comp.length < r.compLen then .want (r.compLen - r.comp.length) r
  else
    match (cs.of r.algo).content r.hdr r.comp with
    | none => .failed r
    | some decompressed => { r with buf := decompressed, bufPos := 0, phase := .drainBuf }.atBuf

/-- The loop at `ReadHeader`. -/
def atHeader : Stop :=
  if r.hdr.length < 7 then .want (7 - r.hdr.length) r
  else atPayload cs { r with comp := [], compLen := u24Le r.hdr, phase := .readPayload }

/-- The loop of `poll_read`, up to where it stops. -/
def stop : Stop :=
  match r.phase with
  | .drainBuf => r.atBuf
  | .readHeader => r.atHeader cs
  | .readPayload => r.atPayload cs

/-- Bytes of the inner stream go where they are read into. -/
def fill (n : Nat) : MysqlCompressedReader :=
  match r.phase with
  | .readPayload => { r with inner := r.inner.drop n, comp := r.comp ++ r.inner.take n }
  | _ => { r with inner := r.inner.drop n, hdr := r.hdr ++ r.inner.take n }

/-- `poll_read` into a buffer of so many bytes. The inner stream gives these answers, and then it is pending. -/
def pollRead (dst : Nat) : List InnerPoll → MysqlCompressedReader → ReadPoll × MysqlCompressedReader
  | polls, r =>
    match r.stop cs with
    | .deliver r =>
      let toCopy := min (r.buf.length - r.bufPos) dst
      (.ready ((r.buf.drop r.bufPos).take toCopy), { r with bufPos := r.bufPos + toCopy })
    | .failed r => (.failed, r)
    | .want n r =>
      match polls with
      | [] | .pending :: _ => (.pending, r)
      | .failed :: _ => (.failed, r)
      | .ready more :: polls =>
        let n := min (min n (more + 1)) r.inner.length
        if n = 0 then (.ready [], r) else pollRead dst polls (r.fill n)

end MysqlCompressedReader

/-! ## What a stream decodes to -/

/-- The contents of the frames of a stream, and whether they end because one of them cannot be decompressed. A frame
that is cut off has no content. -/
def Compressor.decode (c : Compressor) (stream : Bytes) : Bytes × Bool :=
  let n := u24Le stream
  if stream.length < 7 + n then ([], false)
  else
    match c.content (stream.take 7) ((stream.drop 7).take n) with
    | none => ([], true)
    | some content =>
      let rest := c.decode (stream.drop (7 + n))
      (content ++ rest.1, rest.2)
termination_by stream.length
decreasing_by
  rw [List.length_drop]
  omega

theorem u24Le_append {hdr : Bytes} (h : 3 ≤ hdr.length) (rest : Bytes) : u24Le (hdr ++ rest) = u24Le hdr := by
  match hdr, h with
  | _ :: _ :: _ :: _, _ => rfl

section Decode

variable {c : Compressor} {hdr comp rest stream content : Bytes}

theorem decode_short (h : stream.length < 7 + u24Le stream) : c.decode stream = ([], false) := by
  rw [Compressor.decode]
  exact if_pos h

theorem decode_nil (c : Compressor) : c.decode [] = ([], false) := decode_short (by decide)

/-- The first frame of a stream. -/
theorem decode_frame (hhdr : hdr.length = 7) (hcomp : comp.length = u24Le hdr) (rest : Bytes) :
    c.decode (hdr ++ (comp ++ rest)) =
      match c.content hdr comp with
      | none => ([], true)
      | some content => (content ++ (c.decode rest).1, (c.decode rest).2) := by
  have hlength : u24Le (hdr ++ (comp ++ rest)) = comp.length := by rw [u24Le_append (by omega), hcomp]
  have htake : (hdr ++ (comp ++ rest)).take 7 = hdr := List.take_left' hhdr
  have hdrop : (hdr ++ (comp ++ rest)).drop 7 = comp ++ rest := List.drop_left' hhdr
  rw [Compressor.decode]
  dsimp only
  rw [hlength, if_neg (by simp only [List.length_append]; omega), ← List.drop_drop, htake, hdrop, List.take_left,
    List.drop_left]

/-- A frame with nothing behind it. -/
theorem decode_last (hhdr : hdr.length = 7) (hcomp : comp.length = u24Le hdr) :
    c.decode (hdr ++ comp) =
      match c.content hdr comp with
      | none => ([], true)
      | some content => (content, false) := by
  have h := decode_frame (c := c) hhdr hcomp []
  rw [decode_nil, List.append_nil] at h
  rw [h]
  split
  · rfl
  · exact congrArg (·, false) (List.append_nil _)

end Decode

/-! ## What the reader owes -/

namespace MysqlCompressedReader

/-- The bytes that are decompressed, but not delivered. -/
def undelivered (r : MysqlCompressedReader) : Bytes :=
  match r.phase with
  | .drainBuf => r.buf.drop r.bufPos
  | _ => []

/-- The bytes that are not decompressed. -/
def undecoded (r : MysqlCompressedReader) : Bytes :=
  match r.phase with
  | .drainBuf => r.inner
  | .readHeader => r.hdr ++ r.inner
  | .readPayload => r.hdr ++ (r.comp ++ r.inner)

/-- What the reader owes its caller, and whether there is an error behind it. -/
def owed (cs : Compressors) (r : MysqlCompressedReader) : Bytes × Bool :=
  let decoded := (cs.of r.algo).decode r.undecoded
  (r.undelivered ++ decoded.1, decoded.2)

/-- How many bytes of the inner stream the reader waits for. -/
def missing (r : MysqlCompressedReader) : Nat :=
  match r.phase with
  | .drainBuf => 0
  | .readHeader => 7 - r.hdr.length
  | .readPayload => r.compLen - r.comp.length

/-- What is filled of the header and the payload fits. -/
def Fits (r : MysqlCompressedReader) : Prop :=
  match r.phase with
  | .drainBuf => True
  | .readHeader => r.hdr.length ≤ 7
  | .readPayload => r.hdr.length = 7 ∧ r.compLen = u24Le r.hdr ∧ r.comp.length ≤ r.compLen

/-- A stop of the loop of this reader, on the way to which nothing is lost. -/
inductive Keeps (cs : Compressors) (r : MysqlCompressedReader) : Stop → Prop
  | deliver {r' : MysqlCompressedReader} : r'.phase = .drainBuf → r'.inner = r.inner → r'.owed cs = r.owed cs →
      0 < r'.buf.length - r'.bufPos → Keeps cs r (.deliver r')
  | failed {r' : MysqlCompressedReader} : r'.Fits → r'.inner = r.inner → r'.owed cs = r.owed cs →
      r.owed cs = ([], true) → Keeps cs r (.failed r')
  | want {n : Nat} {r' : MysqlCompressedReader} : r'.Fits → r'.inner = r.inner → r'.owed cs = r.owed cs →
      r'.missing = n → 0 < n → Keeps cs r (.want n r')

section Stops

variable {cs : Compressors} {r r' : MysqlCompressedReader} {s : Stop}

theorem Keeps.trans (hinner : r'.inner = r.inner) (howed : r'.owed cs = r.owed cs) (h : Keeps cs r' s) :
    Keeps cs r s := by
  cases h with
  | deliver hphase hinner' howed' havail => exact .deliver hphase (hinner'.trans hinner) (howed'.trans howed) havail
  | failed hfits hinner' howed' hfailed =>
    exact .failed hfits (hinner'.trans hinner) (howed'.trans howed) (howed.symm.trans hfailed)
  | want hfits hinner' howed' hmissing hpos =>
    exact .want hfits (hinner'.trans hinner) (howed'.trans howed) hmissing hpos

theorem keeps_atBuf (hphase : r.phase = .drainBuf) : Keeps cs r r.atBuf := by
  rw [atBuf]
  split
  · rename_i havail
    exact .deliver hphase rfl rfl havail
  · rename_i havail
    have hdrop : r.buf.drop r.bufPos = [] := List.drop_eq_nil_of_le (by omega)
    refine .want (Nat.zero_le 7) rfl ?_ rfl (by decide)
    simp only [owed, undelivered, undecoded, hphase, hdrop, List.nil_append]

theorem keeps_atPayload (hphase : r.phase = .readPayload) (hfits : r.Fits) : Keeps cs r (r.atPayload cs) := by
  have ⟨hhdr, hlen, hle⟩ : r.hdr.length = 7 ∧ r.compLen = u24Le r.hdr ∧ r.comp.length ≤ r.compLen := by
    rw [Fits, hphase] at hfits
    exact hfits
  rw [atPayload]
  split
  · rename_i hlt
    exact .want hfits rfl rfl (by rw [missing, hphase]) (by omega)
  · rename_i hfull
    have hcomp : r.comp.length = u24Le r.hdr := by omega
    have howed : r.owed cs = (cs.of r.algo).decode (r.hdr ++ (r.comp ++ r.inner)) := by
      simp only [owed, undelivered, undecoded, hphase, List.nil_append]
    rw [decode_frame hhdr hcomp] at howed
    cases hcontent : (cs.of r.algo).content r.hdr r.comp with
    | none =>
      rw [hcontent] at howed
      exact .failed hfits rfl rfl howed
    | some content =>
      rw [hcontent] at howed
      have hdrain : Keeps cs { r with buf := content, bufPos := 0, phase := .drainBuf } (atBuf _) := keeps_atBuf rfl
      refine Keeps.trans ?_ ?_ hdrain
      · rfl
      · rw [howed]
        rfl

theorem keeps_atHeader (hphase : r.phase = .readHeader) (hfits : r.Fits) : Keeps cs r (r.atHeader cs) := by
  have hle : r.hdr.length ≤ 7 := by
    rw [Fits, hphase] at hfits
    exact hfits
  rw [atHeader]
  split
  · exact .want hfits rfl rfl (by rw [missing, hphase]) (by omega)
  · have hfull : r.hdr.length = 7 := by omega
    have hfits' : ({ r with comp := [], compLen := u24Le r.hdr, phase := .readPayload } : MysqlCompressedReader).Fits :=
      ⟨hfull, rfl, Nat.zero_le _⟩
    refine Keeps.trans ?_ ?_ (keeps_atPayload rfl hfits')
    · rfl
    · simp only [owed, undelivered, undecoded, hphase, List.nil_append]

/-- The loop stops with all that it owes. -/
theorem keeps_stop (hfits : r.Fits) : Keeps cs r (r.stop cs) := by
  rw [stop]
  cases hphase : r.phase with
  | drainBuf => exact keeps_atBuf hphase
  | readHeader => exact keeps_atHeader hphase hfits
  | readPayload => exact keeps_atPayload hphase hfits

/-- What is read of the inner stream is still to be decoded. -/
theorem undecoded_fill {n : Nat} (hmissing : 0 < r.missing) : (r.fill n).undecoded = r.undecoded := by
  cases hphase : r.phase with
  | drainBuf => simp [missing, hphase] at hmissing
  | readHeader => simp only [fill, undecoded, hphase, List.append_assoc, List.take_append_drop]
  | readPayload => simp only [fill, undecoded, hphase, List.append_assoc, List.take_append_drop]

theorem owed_fill {n : Nat} (hmissing : 0 < r.missing) : (r.fill n).owed cs = r.owed cs := by
  have hundecoded := undecoded_fill (n := n) hmissing
  cases hphase : r.phase with
  | drainBuf => simp [missing, hphase] at hmissing
  | readHeader | readPayload =>
    rw [owed, owed, hundecoded]
    simp only [undelivered, fill, hphase]

theorem fits_fill {n : Nat} (hfits : r.Fits) (hmissing : 0 < r.missing) (hn : n ≤ r.missing) : (r.fill n).Fits := by
  have htake := List.length_take_le n r.inner
  cases hphase : r.phase with
  | drainBuf => simp [missing, hphase] at hmissing
  | readHeader =>
    simp only [missing, Fits, fill, hphase, List.length_append] at *
    omega
  | readPayload =>
    simp only [missing, Fits, fill, hphase, List.length_append] at *
    omega

/-- At the end of the inner stream nothing is owed to a reader that waits for more of it. -/
theorem owed_of_missing (hfits : r.Fits) (hmissing : 0 < r.missing) (hinner : r.inner = []) :
    r.owed cs = ([], false) := by
  have hshort : r.undecoded.length < 7 + u24Le r.undecoded := by
    cases hphase : r.phase with
    | drainBuf => simp [missing, hphase] at hmissing
    | readHeader =>
      simp only [missing, undecoded, hphase, hinner, List.append_nil] at *
      omega
    | readPayload =>
      simp only [missing, Fits, undecoded, hphase, hinner, List.append_nil] at *
      rw [u24Le_append (by omega), List.length_append]
      omega
  have hundelivered : r.undelivered = [] := by
    cases hphase : r.phase with
    | drainBuf => simp [missing, hphase] at hmissing
    | readHeader | readPayload => simp only [undelivered, hphase]
  rw [owed, decode_short hshort, hundelivered]
  rfl

end Stops

end MysqlCompressedReader

/-- The bytes of an answer. -/
def ReadPoll.bytes : ReadPoll → Bytes
  | ready bytes => bytes
  | _ => []

/-- What a poll of a reader does, whatever the inner stream answers. -/
structure Polled (cs : Compressors) (r : MysqlCompressedReader) (polls : List InnerPoll) (answer : ReadPoll)
    (r' : MysqlCompressedReader) : Prop where
  fits : r'.Fits
  /-- it hands out the beginning of what is owed -/
  owed : r.owed cs = (answer.bytes ++ (r'.owed cs).1, (r'.owed cs).2)
  /-- the end of the stream is the end of the inner stream -/
  eof : answer = .ready [] → r'.inner = [] ∧ r'.owed cs = ([], false)
  failed : answer = .failed → r.owed cs = ([], true) ∨ .failed ∈ polls
  /-- it is suspended by the inner stream only -/
  pending : answer = .pending → .pending ∈ polls ∨ polls.length ≤ r.inner.length

namespace MysqlCompressedReader

variable {cs : Compressors} {r r' : MysqlCompressedReader} {dst : Nat}

theorem length_inner_fill (n : Nat) (r : MysqlCompressedReader) : (r.fill n).inner.length = r.inner.length - n := by
  rw [fill]
  split <;> exact List.length_drop

/-- Bytes are handed out in order. -/
theorem polled_deliver {polls : List InnerPoll} (hdst : 0 < dst) (hphase : r'.phase = .drainBuf)
    (howed : r'.owed cs = r.owed cs) (havail : 0 < r'.buf.length - r'.bufPos) :
    Polled cs r polls (.ready ((r'.buf.drop r'.bufPos).take (min (r'.buf.length - r'.bufPos) dst)))
      { r' with bufPos := r'.bufPos + min (r'.buf.length - r'.bufPos) dst } where
  fits := by simp only [Fits, hphase]
  owed := by
    rw [← howed]
    simp only [ReadPoll.bytes, MysqlCompressedReader.owed, undelivered, undecoded, hphase]
    rw [← List.append_assoc, ← List.drop_drop, List.take_append_drop]
  eof h := by
    have hlength := congrArg List.length (ReadPoll.ready.inj h)
    simp only [List.length_take, List.length_drop, List.length_nil] at hlength
    omega
  failed := nofun
  pending := nofun

/-- **One poll**, with whatever the inner stream answers to it. -/
theorem polled_pollRead (hdst : 0 < dst) (polls : List InnerPoll) (hfits : r.Fits) :
    Polled cs r polls (pollRead cs dst polls r).1 (pollRead cs dst polls r).2 := by
  fun_induction pollRead cs dst polls r with
  | case1 polls r r' hstop toCopy =>
    obtain ⟨hphase, -, howed, havail⟩ := hstop ▸ keeps_stop hfits
    exact polled_deliver hdst hphase howed havail
  | case2 polls r r' hstop =>
    obtain _ | ⟨hfits', -, howed, hfailed⟩ := hstop ▸ keeps_stop hfits
    exact ⟨hfits', howed.symm, nofun, fun _ => .inl hfailed, nofun⟩
  | case3 r n r' hstop =>
    obtain _ | _ | ⟨hfits', -, howed, -, -⟩ := hstop ▸ keeps_stop hfits
    exact ⟨hfits', howed.symm, nofun, nofun, fun _ => .inr (Nat.zero_le _)⟩
  | case4 r n r' hstop polls =>
    obtain _ | _ | ⟨hfits', -, howed, -, -⟩ := hstop ▸ keeps_stop hfits
    exact ⟨hfits', howed.symm, nofun, nofun, fun _ => .inl List.mem_cons_self⟩
  | case5 r n r' hstop polls =>
    obtain _ | _ | ⟨hfits', -, howed, -, -⟩ := hstop ▸ keeps_stop hfits
    exact ⟨hfits', howed.symm, nofun, fun _ => .inr List.mem_cons_self, nofun⟩
  | case6 r n r' hstop more polls n' hzero =>
    obtain _ | _ | ⟨hfits', -, howed, rfl, hpos⟩ := hstop ▸ keeps_stop hfits
    have hinner : r'.inner = [] := List.length_eq_zero_iff.mp (by omega)
    exact ⟨hfits', howed.symm, fun _ => ⟨hinner, owed_of_missing hfits' hpos hinner⟩, nofun, nofun⟩
  | case7 r n r' hstop more polls n' hne ih =>
    obtain _ | _ | ⟨hfits', hinner, howed, rfl, hpos⟩ := hstop ▸ keeps_stop hfits
    have hpolled := ih (fits_fill hfits' hpos (by omega))
    have hlength := length_inner_fill n' r'
    refine ⟨hpolled.fits, ?_, hpolled.eof, fun h => ?_, fun h => ?_⟩
    · rw [← howed, ← owed_fill hpos, hpolled.owed]
    · rw [← howed, ← owed_fill hpos]
      exact (hpolled.failed h).imp id (List.mem_cons_of_mem _)
    · refine (hpolled.pending h).imp (List.mem_cons_of_mem _) fun hle => ?_
      rw [← hinner, List.length_cons]
      omega

end MysqlCompressedReader

/-! ## Runs -/

/-- A call of `poll_read`: the size of the buffer, and what the inner stream answers during the call. -/
structure ReadCall where
  dst : Nat
  dst_pos : 0 < dst
  polls : List InnerPoll

namespace MysqlCompressedReader

/-- One call of `poll_read` with so much room in its buffer, and what the polls of the stream below return in it. -/
def poll (cs : Compressors) (r : MysqlCompressedReader) (call : ReadCall) : ReadPoll × MysqlCompressedReader :=
  pollRead cs call.dst call.polls r

/-- The bytes that some calls deliver, and the reader after them. -/
def pollAll (cs : Compressors) : List ReadCall → MysqlCompressedReader → Bytes × MysqlCompressedReader
  | [], r => ([], r)
  | call :: calls, r =>
    let (answer, r) := r.poll cs call
    let (bytes, r) := pollAll cs calls r
    (answer.bytes ++ bytes, r)

variable {cs : Compressors} {r : MysqlCompressedReader}

theorem polled_poll (cs : Compressors) (hfits : r.Fits) (call : ReadCall) :
    Polled cs r call.polls (r.poll cs call).1 (r.poll cs call).2 :=
  polled_pollRead call.dst_pos call.polls hfits

/-- **A run** delivers the beginning of what is owed, and the rest is owed after it. -/
theorem pollAll_owed (cs : Compressors) (hfits : r.Fits) (calls : List ReadCall) :
    (pollAll cs calls r).2.Fits ∧
      r.owed cs = ((pollAll cs calls r).1 ++ ((pollAll cs calls r).2.owed cs).1, ((pollAll cs calls r).2.owed cs).2) := by
  induction calls generalizing r with
  | nil => exact ⟨hfits, rfl⟩
  | cons call calls ih =>
    have hpolled := polled_poll cs hfits call
    obtain ⟨hfits', howed⟩ := ih hpolled.fits
    refine ⟨hfits', ?_⟩
    rw [hpolled.owed, howed, ← List.append_assoc]
    rfl

/-- A call that is not suspended. -/
def eager (r : MysqlCompressedReader) : ReadCall := ⟨1, Nat.one_pos, List.replicate (r.inner.length + 1) (.ready 0)⟩

theorem poll_eager (hfits : r.Fits) (hfailed : r.owed cs ≠ ([], true)) :
    ∃ bytes, (r.poll cs r.eager).1 = .ready bytes := by
  have hpolled := polled_poll cs hfits r.eager
  cases hanswer : (r.poll cs r.eager).1 with
  | ready bytes => exact ⟨bytes, rfl⟩
  | failed => exact absurd (hpolled.failed hanswer) (by simp [eager, hfailed, List.mem_replicate])
  | pending => exact absurd (hpolled.pending hanswer) (by simp [eager, List.mem_replicate])

/-- What is owed can be read to its end. -/
theorem reads_to_end {out : Bytes} (hfits : r.Fits) (howed : r.owed cs = (out, false)) :
    ∃ calls call, (pollAll cs calls r).1 = out ∧ ((pollAll cs calls r).2.poll cs call).1 = .ready [] := by
  induction hn : out.length using Nat.strongRecOn generalizing r out with
  | ind n ih =>
    have hpolled := polled_poll cs hfits r.eager
    obtain ⟨bytes, hanswer⟩ := poll_eager hfits (by rw [howed]; nofun)
    have hrest := hpolled.owed
    rw [hanswer, howed] at hrest
    obtain ⟨hout, hend⟩ := Prod.mk.inj hrest
    by_cases hbytes : bytes = []
    · subst hbytes
      have hnil := (hpolled.eof hanswer).2
      rw [hnil] at hout
      exact ⟨[], r.eager, hout.symm, hanswer⟩
    · have hlt : ((r.poll cs r.eager).2.owed cs).1.length < n := by
        have hpos := List.length_pos_iff.mpr hbytes
        rw [← hn, hout, ReadPoll.bytes, List.length_append]
        omega
      obtain ⟨calls, call, hcalls, hcall⟩ := ih _ hlt hpolled.fits (Prod.ext rfl hend.symm) rfl
      refine ⟨r.eager :: calls, call, ?_, hcall⟩
      change (r.poll cs r.eager).1.bytes ++ (pollAll cs calls (r.poll cs r.eager).2).1 = out
      rw [hcalls, hanswer, hout]

/-- Whoever reads to the end has read just these bytes, and the end can be reached. -/
def Yields (cs : Compressors) (r : MysqlCompressedReader) (out : Bytes) : Prop :=
  (∃ calls call, ((pollAll cs calls r).2.poll cs call).1 = .ready []) ∧
    ∀ calls call, ((pollAll cs calls r).2.poll cs call).1 = .ready [] → (pollAll cs calls r).1 = out

/-- At the end of the stream everything has been delivered. -/
theorem owed_at_end (hfits : r.Fits) {calls : List ReadCall} {call : ReadCall}
    (hend : ((pollAll cs calls r).2.poll cs call).1 = .ready []) :
    r.owed cs = ((pollAll cs calls r).1, false) ∧ ((pollAll cs calls r).2.poll cs call).2.inner = [] := by
  obtain ⟨hfits', howed⟩ := pollAll_owed cs hfits calls
  have hpolled := polled_poll cs hfits' call
  obtain ⟨hinner, hnil⟩ := hpolled.eof hend
  have hlast := hpolled.owed
  rw [hend, hnil] at hlast
  rw [howed, hlast]
  exact ⟨congrArg (·, false) (List.append_nil _), hinner⟩

theorem yields_iff (hfits : r.Fits) (out : Bytes) : r.Yields cs out ↔ r.owed cs = (out, false) := by
  constructor
  · rintro ⟨⟨calls, call, hend⟩, hall⟩
    rw [← hall calls call hend]
    exact (owed_at_end hfits hend).1
  · intro howed
    obtain ⟨calls, call, -, hend⟩ := reads_to_end hfits howed
    refine ⟨⟨calls, call, hend⟩, fun calls call hend => ?_⟩
    exact (Prod.mk.inj ((owed_at_end hfits hend).1.symm.trans howed)).1

end MysqlCompressedReader

/-! ## Frames -/

/-- The header of a compressed frame: the length of its payload, a sequence id, the length of its content. -/
def compressedHeader (compLen : Nat) (seq : UInt8) (uncompLen : Nat) : Bytes :=
  leBytes 3 compLen ++ seq :: leBytes 3 uncompLen

theorem length_compressedHeader (compLen : Nat) (seq : UInt8) (uncompLen : Nat) :
    (compressedHeader compLen seq uncompLen).length = 7 :=
  rfl

/-- Lengths keep their last three bytes. -/
theorem u24Le_compressedHeader (compLen : Nat) (seq : UInt8) (uncompLen : Nat) :
    u24Le (compressedHeader compLen seq uncompLen) = compLen % 2 ^ 24 ∧
      u24Le ((compressedHeader compLen seq uncompLen).drop 4) = uncompLen % 2 ^ 24 := by
  simp only [compressedHeader, leBytes, List.cons_append, List.nil_append, List.drop_succ_cons, List.drop_zero, u24Le,
    UInt8.toNat_ofNat']
  omega

/-- A well-formed frame: its payload is its content, or is decompressed to it. -/
structure CompressedFrame (c : Compressor) where
  /-- nobody checks it -/
  seq : UInt8
  comp : Bytes
  /-- zero for a payload that is not compressed -/
  uncompLen : Nat
  content : Bytes
  comp_lt : comp.length < 2 ^ 24
  uncompLen_lt : uncompLen < 2 ^ 24
  decompressed : (if 0 < uncompLen then c.decompress comp uncompLen else some comp) = some content

/-- Its bytes. -/
def CompressedFrame.bytes {c : Compressor} (f : CompressedFrame c) : Bytes :=
  compressedHeader f.comp.length f.seq f.uncompLen ++ f.comp

theorem decode_compressedFrame {c : Compressor} (f : CompressedFrame c) (rest : Bytes) :
    c.decode (f.bytes ++ rest) = (f.content ++ (c.decode rest).1, (c.decode rest).2) := by
  obtain ⟨hlen, hlen'⟩ := u24Le_compressedHeader f.comp.length f.seq f.uncompLen
  have hcontent : c.content (compressedHeader f.comp.length f.seq f.uncompLen) f.comp = some f.content := by
    rw [Compressor.content, hlen', Nat.mod_eq_of_lt f.uncompLen_lt]
    exact f.decompressed
  rw [CompressedFrame.bytes, List.append_assoc, decode_frame (length_compressedHeader ..)
    (by rw [hlen, Nat.mod_eq_of_lt f.comp_lt]), hcontent]

theorem decode_frames {c : Compressor} (frames : List (CompressedFrame c)) :
    c.decode (frames.flatMap CompressedFrame.bytes) = (frames.flatMap CompressedFrame.content, false) := by
  induction frames with
  | nil =>
    rw [List.flatMap_nil]
    exact decode_nil c
  | cons f frames ih => rw [List.flatMap_cons, decode_compressedFrame, ih, List.flatMap_cons]

namespace MysqlCompressedReader

variable {cs : Compressors} {algo : CompressAlgo}

theorem fits_new (stream : Bytes) (algo : CompressAlgo) : (new stream algo).Fits := trivial

theorem owed_new (stream : Bytes) (algo : CompressAlgo) :
    (new stream algo).owed cs = (cs.of algo).decode stream :=
  rfl

/-- **The reader does not depend on how its stream is cut**: of well-formed frames it delivers the contents one after
the other, whatever the buffers and whatever the inner stream answers. It reports the end only at the end of the inner
stream, fails only with the inner stream, and is suspended only by it. -/
theorem reads_frames (cs : Compressors) (algo : CompressAlgo) (frames : List (CompressedFrame (cs.of algo))) :
    (new (frames.flatMap CompressedFrame.bytes) algo).Yields cs (frames.flatMap CompressedFrame.content) ∧
    ∀ calls call bytes r answer r',
      pollAll cs calls (new (frames.flatMap CompressedFrame.bytes) algo) = (bytes, r) →
      r.poll cs call = (answer, r') →
      bytes ++ answer.bytes <+: frames.flatMap CompressedFrame.content ∧
      (answer = .ready [] → r'.inner = [] ∧ bytes = frames.flatMap CompressedFrame.content) ∧
      (answer = .failed → .failed ∈ call.polls) ∧
      (answer = .pending → .pending ∈ call.polls ∨ call.polls.length ≤ r.inner.length) := by
  have hfits := fits_new (frames.flatMap CompressedFrame.bytes) algo
  have hstart := decode_frames frames
  rw [← owed_new] at hstart
  refine ⟨(yields_iff hfits _).mpr hstart, fun calls call bytes r answer r' hcalls hcall => ?_⟩
  obtain ⟨hfits', howed⟩ := pollAll_owed cs hfits calls
  rw [hstart, hcalls] at howed
  rw [hcalls] at hfits'
  obtain ⟨hcontent, hfailed⟩ := Prod.mk.inj howed
  have hpolled := polled_poll cs hfits' call
  rw [hcall] at hpolled
  have hlast := hpolled.owed
  refine ⟨?_, fun hend => ?_, fun hanswer => ?_, hpolled.pending⟩
  · rw [hlast] at hcontent
    exact ⟨(r'.owed cs).1, by rw [hcontent, List.append_assoc]⟩
  · obtain ⟨hinner, hnil⟩ := hpolled.eof hend
    rw [hlast, hend, hnil] at hcontent
    exact ⟨hinner, by rw [hcontent]; exact (List.append_nil bytes).symm⟩
  · refine (hpolled.failed hanswer).resolve_left fun hbad => ?_
    rw [hbad] at hfailed
    cases hfailed

end MysqlCompressedReader

end TurbineProxy
