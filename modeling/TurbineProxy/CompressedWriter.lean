import TurbineProxy.CompressedReader

/-!
# Compressed writes

`flush_maybe_compressed` of `protocol/mysql/packet.rs` puts all that is buffered into one compressed frame. Both
lengths in its header have three bytes, and nothing keeps the buffer below that.
-/

namespace TurbineProxy

namespace PacketCodec

variable (codec : PacketCodec)

/-- `enable_compression` -/
def enableCompression (algo : CompressAlgo) : PacketCodec :=
  { codec with compressed := true, compressedSeq := 0, compressionAlgo := algo }

/-- After a compressed frame. -/
def flushed : PacketCodec := { codec with writeBuf := [], compressedSeq := codec.compressedSeq + 1 }

/-- `flush_maybe_compressed`. What is at most 50 bytes long is not compressed. -/
def flushMaybeCompressed (cs : Compressors) (written : Bytes) : Except ProtocolError (PacketCodec × Bytes) :=
  if codec.compressed = false ∨ codec.writeBuf.isEmpty = true then .ok (codec.flush written)
  else
    let payload := codec.writeBuf
    if 50 < payload.length then
      match (cs.of codec.compressionAlgo).compress payload with
      | none => .error .io
      | some compressed =>
        .ok (codec.flushed,
          written ++ (compressedHeader compressed.length codec.compressedSeq payload.length ++ compressed))
    else .ok (codec.flushed, written ++ (compressedHeader payload.length codec.compressedSeq 0 ++ payload))

section Flush

variable {cs : Compressors} {codec : PacketCodec}

theorem flushMaybeCompressed_long (henabled : codec.compressed = true) (hlong : 50 < codec.writeBuf.length)
    {compressed : Bytes} (hcompress : (cs.of codec.compressionAlgo).compress codec.writeBuf = some compressed)
    (written : Bytes) :
    codec.flushMaybeCompressed cs written = .ok (codec.flushed,
      written ++ (compressedHeader compressed.length codec.compressedSeq codec.writeBuf.length ++ compressed)) := by
  have hne : codec.writeBuf ≠ [] := List.length_pos_iff.mp (by omega)
  rw [flushMaybeCompressed, if_neg (by simp [henabled, hne])]
  dsimp only
  rw [if_pos hlong, hcompress]

theorem flushMaybeCompressed_short (henabled : codec.compressed = true) (hne : codec.writeBuf ≠ [])
    (hshort : codec.writeBuf.length ≤ 50) (written : Bytes) :
    codec.flushMaybeCompressed cs written = .ok (codec.flushed,
      written ++ (compressedHeader codec.writeBuf.length codec.compressedSeq 0 ++ codec.writeBuf)) := by
  rw [flushMaybeCompressed, if_neg (by simp [henabled, hne])]
  dsimp only
  rw [if_neg (Nat.not_lt_of_le hshort)]

theorem flushMaybeCompressed_empty (hempty : codec.writeBuf = []) (written : Bytes) :
    codec.flushMaybeCompressed cs written = .ok (codec, written) := by
  rw [flushMaybeCompressed, if_pos (.inr (List.isEmpty_iff.mpr hempty)), flush, if_pos (List.isEmpty_iff.mpr hempty)]

end Flush

end PacketCodec

/-- What is compressed is decompressed again, into a buffer of its own length; nothing else fits a shorter one. -/
structure Compressor.Lawful (c : Compressor) : Prop where
  inverse : ∀ p, ∃ compressed, c.compress p = some compressed ∧ c.decompress compressed p.length = some p
  bounded : ∀ compressed n p, c.decompress compressed n = some p → p.length ≤ n

namespace MysqlCompressedReader

variable {cs : Compressors} {algo : CompressAlgo} {content compressed : Bytes} {seq : UInt8}

theorem yields_frame (f : CompressedFrame (cs.of algo)) : (new f.bytes algo).Yields cs f.content := by
  rw [yields_iff (fits_new ..), owed_new, ← List.append_nil f.bytes, decode_compressedFrame, decode_nil]
  exact congrArg (·, false) (List.append_nil f.content)

/-- A frame that is not compressed. -/
theorem yields_raw (h : content.length < 2 ^ 24) (seq : UInt8) :
    (new (compressedHeader content.length seq 0 ++ content) algo).Yields cs content :=
  yields_frame ⟨seq, content, 0, content, h, by decide, rfl⟩

/-- A content whose length does not fit in the header is not what a frame with its last three bytes decodes to. -/
theorem content_ne (hlawful : (cs.of algo).Lawful) (hcomp : compressed.length < 2 ^ 24)
    (hlong : 2 ^ 24 ≤ content.length) (seq : UInt8) :
    (cs.of algo).content (compressedHeader compressed.length seq content.length) compressed ≠ some content := by
  rw [Compressor.content, (u24Le_compressedHeader ..).2]
  intro h
  split at h
  · have hle := hlawful.bounded _ _ _ h
    have hlt := Nat.mod_lt content.length (show 0 < 2 ^ 24 by decide)
    omega
  · rw [Option.some.inj h] at hcomp
    omega

/-- A compressed frame whose payload is not too long yields the content if that is not too long either. -/
theorem yields_compressed_iff (hlawful : (cs.of algo).Lawful)
    (hcompress : (cs.of algo).compress content = some compressed) (hcomp : compressed.length < 2 ^ 24)
    (hpos : 0 < content.length) (seq : UInt8) :
    (new (compressedHeader compressed.length seq content.length ++ compressed) algo).Yields cs content ↔
      content.length < 2 ^ 24 := by
  constructor
  · intro h
    by_contra hlong
    have hlen : compressed.length = u24Le (compressedHeader compressed.length seq content.length) := by
      rw [(u24Le_compressedHeader ..).1, Nat.mod_eq_of_lt hcomp]
    rw [yields_iff (fits_new ..), owed_new, decode_last (length_compressedHeader ..) hlen] at h
    have hne := content_ne hlawful hcomp (Nat.le_of_not_lt hlong) seq
    split at h
    · cases h
    · rename_i other hother
      exact hne (hother.trans (congrArg some (Prod.mk.inj h).1))
  · intro h
    obtain ⟨compressed', hcompress', hinverse⟩ := hlawful.inverse content
    obtain rfl : compressed = compressed' := Option.some.inj (hcompress.symm.trans hcompress')
    exact yields_frame ⟨seq, compressed, content.length, content, hcomp, h, by rw [if_pos hpos, hinverse]⟩

end MysqlCompressedReader

section Flush

open MysqlCompressedReader

variable {cs : Compressors} {codec : PacketCodec}

/-- **Compressed round trip**: when the compressor does not make more than three bytes can count of it, what is
flushed is read back if and only if it is not longer than that itself. -/
theorem flush_yields_iff (codec : PacketCodec) (hlawful : (cs.of codec.compressionAlgo).Lawful) (henabled : codec.compressed = true)
    (hcomp : 50 < codec.writeBuf.length → ∀ compressed,
      (cs.of codec.compressionAlgo).compress codec.writeBuf = some compressed → compressed.length < 2 ^ 24) :
    ∃ codec' bytes, codec.flushMaybeCompressed cs [] = .ok (codec', bytes) ∧
      ((new bytes codec.compressionAlgo).Yields cs codec.writeBuf ↔ codec.writeBuf.length < 2 ^ 24) := by
  by_cases hempty : codec.writeBuf = []
  · refine ⟨codec, [], PacketCodec.flushMaybeCompressed_empty hempty [], ?_⟩
    rw [hempty, yields_iff (fits_new ..), owed_new, decode_nil]
    exact iff_of_true rfl (by decide)
  by_cases hlong : 50 < codec.writeBuf.length
  · obtain ⟨compressed, hcompress, -⟩ := hlawful.inverse codec.writeBuf
    exact ⟨codec.flushed, _, PacketCodec.flushMaybeCompressed_long henabled hlong hcompress [],
      yields_compressed_iff hlawful hcompress (hcomp hlong compressed hcompress) (by omega) codec.compressedSeq⟩
  · exact ⟨codec.flushed, _, PacketCodec.flushMaybeCompressed_short henabled hempty (Nat.le_of_not_lt hlong) [],
      iff_of_true (yields_raw (by omega) codec.compressedSeq) (by omega)⟩

end Flush

/-! ## A compressor -/

/-- What a coded run stands for: a byte and how often it comes, or the bytes themselves. -/
def unrun : Bytes → Bytes
  | 1 :: b :: count => List.replicate (leNat count) b
  | _ :: p => p
  | [] => []

/-- A compressor for runs of one byte. -/
def runCoder : Compressor where
  compress p :=
    match p with
    | [] => some [0]
    | b :: _ =>
      if p = List.replicate p.length b ∧ p.length < 2 ^ 64 then some (1 :: b :: leBytes 8 p.length) else some (0 :: p)
  decompress compressed n := if n ≤ (unrun compressed).length then some ((unrun compressed).take n) else none

theorem lawful_runCoder : runCoder.Lawful where
  inverse p := by
    suffices h : ∃ compressed, runCoder.compress p = some compressed ∧ unrun compressed = p by
      obtain ⟨compressed, hcompress, hunrun⟩ := h
      refine ⟨compressed, hcompress, ?_⟩
      simp only [runCoder, hunrun, if_pos (Nat.le_refl _), List.take_length]
    cases p with
    | nil => exact ⟨[0], rfl, rfl⟩
    | cons b p =>
      by_cases hrun : b :: p = List.replicate (b :: p).length b ∧ (b :: p).length < 2 ^ 64
      · refine ⟨1 :: b :: leBytes 8 (b :: p).length, if_pos hrun, ?_⟩
        rw [unrun, leNat_leBytes, Nat.mod_eq_of_lt hrun.2, ← hrun.1]
      · exact ⟨0 :: b :: p, if_neg hrun, rfl⟩
  bounded compressed n p h := by
    obtain ⟨-, heq⟩ := Option.ite_none_right_eq_some.mp h
    rw [← Option.some.inj heq]
    exact List.length_take_le _ _

theorem compress_replicate {n : Nat} (hpos : 0 < n) (hn : n < 2 ^ 64) (b : UInt8) :
    runCoder.compress (List.replicate n b) = some (1 :: b :: leBytes 8 n) := by
  have hrun : List.replicate n b = List.replicate (List.replicate n b).length b ∧
      (List.replicate n b).length < 2 ^ 64 := by
    rw [List.length_replicate]
    exact ⟨rfl, hn⟩
  obtain ⟨n, rfl⟩ := Nat.exists_eq_add_one_of_ne_zero (Nat.ne_zero_of_lt hpos)
  refine (if_pos hrun).trans ?_
  rw [List.length_replicate]

/-- Sixty bytes go through the compressor. -/
theorem flush_yields_iff_sixty :
    ∃ codec' bytes,
      ((PacketCodec.new.enableCompression .zstd).bufferRaw (List.replicate 60 7)).flushMaybeCompressed
          ⟨runCoder, runCoder⟩ [] = .ok (codec', bytes) ∧
      ((MysqlCompressedReader.new bytes .zstd).Yields ⟨runCoder, runCoder⟩ (List.replicate 60 7) ↔
        (List.replicate 60 7).length < 2 ^ 24) :=
  flush_yields_iff ((PacketCodec.new.enableCompression .zstd).bufferRaw (List.replicate 60 7))
    lawful_runCoder rfl (by decide)

/-- A buffer of 2^24 bytes: its length is a zero in the header, which says that the payload is not compressed. -/
theorem long_buffer_garbled : ¬ ∀ (cs : Compressors) (codec codec' : PacketCodec) (bytes : Bytes),
    (cs.of codec.compressionAlgo).Lawful → codec.compressed = true →
    codec.flushMaybeCompressed cs [] = .ok (codec', bytes) →
    (MysqlCompressedReader.new bytes codec.compressionAlgo).Yields cs codec.writeBuf := by
  intro h
  obtain ⟨codec, henabled, halgo, hbuf⟩ : ∃ codec : PacketCodec, codec.compressed = true ∧
      codec.compressionAlgo = .zlib ∧ codec.writeBuf = List.replicate (2 ^ 24) 0 :=
    ⟨(PacketCodec.new.enableCompression .zlib).bufferRaw (List.replicate (2 ^ 24) 0), rfl, rfl, rfl⟩
  have hlength : codec.writeBuf.length = 2 ^ 24 := by rw [hbuf, List.length_replicate]
  have hcompress : (Compressors.of ⟨runCoder, runCoder⟩ codec.compressionAlgo).compress codec.writeBuf =
      some (1 :: 0 :: leBytes 8 (2 ^ 24)) := by
    rw [halgo, hbuf]
    exact compress_replicate (by decide) (by decide) 0
  have hlawful : (Compressors.of ⟨runCoder, runCoder⟩ codec.compressionAlgo).Lawful := by
    rw [halgo]
    exact lawful_runCoder
  have hyields := h _ codec _ _ hlawful henabled
    (PacketCodec.flushMaybeCompressed_long henabled (by omega) hcompress [])
  have hshort := (MysqlCompressedReader.yields_compressed_iff hlawful hcompress (by decide) (by omega) _).mp hyields
  omega

end TurbineProxy
