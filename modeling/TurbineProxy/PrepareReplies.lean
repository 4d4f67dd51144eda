import TurbineProxy.Framing
import TurbineProxy.StmtShadow

/-!
# Replies to `COM_STMT_PREPARE`

`collect_prepare_response` of `protocol/mysql/mod.rs` finds the end of such a reply from the counts in its first packet;
`mysql_parse_prepare_ok` and `mysql_rewrite_prepare_ok` of `stmt_shadow.rs` read the same packet behind its header, and
put another statement id in.
-/

namespace TurbineProxy

/-! ## Collecting -/

/-- So many definitions, and the EOF packet behind them. -/
def collectDefinitions (count : Nat) (stream buf : Bytes) : Option (Bytes × Bytes) :=
  if 0 < count then collectRawPackets (count + 1) stream buf else some (buf, stream)

/-- `collect_prepare_response`: the bytes of the reply, and what is left of the stream. -/
def collectPrepareResponse (stream : Bytes) : Option (Bytes × Bytes) := do
  let (header, payload, stream) ← readRaw stream
  let buf := header ++ payload
  if payload.head? = some 0xFF then some (buf, stream)
  else if payload.head? ≠ some 0x00 ∨ payload.length < 12 then some (buf, stream)
  else
    let numColumns := leNat ((payload.drop 5).take 2)
    let numParams := leNat ((payload.drop 7).take 2)
    let (buf, stream) ← collectDefinitions numParams stream buf
    collectDefinitions numColumns stream buf

/-! ## Replies -/

/-- Definitions of parameters or columns, as they are sent. -/
structure Definitions where
  /-- one packet for each -/
  packets : List Bytes
  /-- a `u16` -/
  length_lt : packets.length < 2 ^ 16
  fits : ∀ p ∈ packets, OnePacket p
  /-- of the EOF packet -/
  warnings : Nat
  /-- of the EOF packet -/
  status : Nat

/-- The packets that are sent: none when there is nothing to define. -/
def Definitions.sent (d : Definitions) : List Bytes :=
  if d.packets = [] then [] else d.packets ++ [eofPayload d.warnings d.status]

/-- The statement is prepared. -/
structure PrepareOk where
  /-- the id that the server gives it -/
  stmtId : UInt32
  params : Definitions
  columns : Definitions
  /-- the number of warnings -/
  warnings : Nat

namespace PrepareOk

/-- The payload of the first packet. -/
def payload (p : PrepareOk) : Bytes :=
  0x00 :: (le32Bytes p.stmtId.toNat ++ leBytes 2 p.columns.packets.length ++ leBytes 2 p.params.packets.length ++
    0x00 :: leBytes 2 p.warnings)

/-- The packets of the reply. -/
def packets (p : PrepareOk) : List Bytes := p.payload :: (p.params.sent ++ p.columns.sent)

/-- The reply, from a sequence id on. -/
def bytes (p : PrepareOk) (seq : UInt8) : Bytes := wire seq p.packets

end PrepareOk

/-- A reply to `COM_STMT_PREPARE`. -/
inductive PrepareReply : Type where
  | ok (p : PrepareOk)
  | err (p : ErrPacket)

/-- The reply, from a sequence id on. -/
def PrepareReply.bytes (seq : UInt8) : PrepareReply → Bytes
  | ok p => p.bytes seq
  | err p => wire seq [p.payload]

/-! ## The reply is collected -/

/-- The definitions are read up to their EOF packet. -/
theorem Definitions.reads (d : Definitions) : Reads (collectDefinitions d.packets.length) d.sent := by
  intro seq rest buf
  rw [Definitions.sent, collectDefinitions]
  by_cases hnil : d.packets = []
  · rw [hnil, List.length_nil, if_neg (Nat.lt_irrefl 0), if_pos rfl, wire, List.append_nil]
    rfl
  have hreads : Reads (collectRawPackets (d.packets ++ [eofPayload d.warnings d.status]).length)
      (d.packets ++ [eofPayload d.warnings d.status]) := by
    refine reads_rawPackets fun p hp => ?_
    obtain hp | hp := List.mem_append.mp hp
    · exact (d.fits p hp).lt
    · rw [List.mem_singleton.mp hp]
      exact (by decide : 5 < 2 ^ 24)
  rw [List.length_append] at hreads
  rw [if_pos (List.length_pos_iff.mpr hnil), if_neg hnil]
  exact hreads seq rest buf

/-- A reader after another one. -/
theorem reads_append {f g : Bytes → Bytes → Option (Bytes × Bytes)} {ps qs : List Bytes} (hf : Reads f ps)
    (hg : Reads g qs) : Reads (fun stream buf => (f stream buf).bind fun r => g r.2 r.1) (ps ++ qs) := by
  intro seq rest buf
  dsimp only
  rw [wire_append, List.append_assoc, hf]
  exact (hg _ rest _).trans (by rw [List.append_assoc])

namespace PrepareOk

variable (p : PrepareOk) (seq : UInt8) (rest : Bytes)

/-- A reply is collected to its end, and not beyond. -/
theorem collects : collectPrepareResponse (p.bytes seq ++ rest) = some (p.bytes seq, rest) := by
  have hlength : p.payload.length = 12 := rfl
  obtain ⟨header, hread, hpacket⟩ := readRaw_wire (by rw [hlength]; decide : p.payload.length < 2 ^ 24) seq
    (p.params.sent ++ p.columns.sent) rest
  have hcolumns : leNat ((p.payload.drop 5).take 2) = p.columns.packets.length :=
    (leNat_leBytes 2 _).trans (Nat.mod_eq_of_lt p.columns.length_lt)
  have hparams : leNat ((p.payload.drop 7).take 2) = p.params.packets.length :=
    (leNat_leBytes 2 _).trans (Nat.mod_eq_of_lt p.params.length_lt)
  have hreads := reads_append p.params.reads p.columns.reads (seq + 1) rest (packet seq p.payload)
  rw [bytes, packets, collectPrepareResponse, hread]
  dsimp only [Option.bind_eq_bind, Option.bind_some]
  rw [show p.payload.head? = some 0x00 from rfl, hlength, if_neg (by decide), if_neg (by decide), hpacket, hcolumns,
    hparams]
  exact hreads

/-- The id and the counts are those of the reply. -/
theorem parsed : mysqlParsePrepareOk (p.bytes seq) =
    some (p.stmtId.toNat, p.columns.packets.length, p.params.packets.length) := by
  have hcount : ∀ n, n < 2 ^ 16 → (UInt8.ofNat n).toNat + 2 ^ 8 * (UInt8.ofNat (n / 2 ^ 8)).toNat = n := by
    intro n hn
    rw [UInt8.toNat_ofNat', UInt8.toNat_ofNat']
    omega
  change some (le32 _ _ _ _, _ + 2 ^ 8 * _, _ + 2 ^ 8 * _) = _
  rw [le32_le32Bytes p.stmtId.toNat_lt, hcount _ p.columns.length_lt, hcount _ p.params.length_lt]

/-- Nothing but the id is changed. -/
theorem rewritten (id : UInt32) :
    mysqlRewritePrepareOk (p.bytes seq) id.toNat = { p with stmtId := id }.bytes seq := rfl

end PrepareOk

section Err

variable (p : ErrPacket) (seq : UInt8) (rest : Bytes)

theorem collects_err : collectPrepareResponse (wire seq [p.payload] ++ rest) = some (wire seq [p.payload], rest) := by
  obtain ⟨header, hread, hpacket⟩ := readRaw_wire p.fits.lt seq [] rest
  change readRaw (wire seq [p.payload] ++ rest) = some (header, p.payload, rest) at hread
  rw [collectPrepareResponse, hread, wire, wire, List.append_nil]
  exact congrArg (fun bytes => some (bytes, rest)) hpacket

theorem parsed_err : mysqlParsePrepareOk (wire seq [p.payload]) = none := by
  rw [mysqlParsePrepareOk.eq_def]
  split
  · rename_i heq
    have hget := congrArg (fun bytes => bytes[4]?) heq
    exact absurd (Option.some.inj hget) (by decide)
  · rfl

end Err

/-- **Replies to `COM_STMT_PREPARE`** are collected to their end. What is read of a prepared statement is its id and its
counts, and another id may be put in and taken out again. -/
theorem prepare_replies :
    (∀ (reply : PrepareReply) (seq : UInt8) (rest : Bytes),
      collectPrepareResponse (reply.bytes seq ++ rest) = some (reply.bytes seq, rest)) ∧
    (∀ (p : ErrPacket) (seq : UInt8), mysqlParsePrepareOk ((PrepareReply.err p).bytes seq) = none) ∧
    ∀ (p : PrepareOk) (seq : UInt8),
      mysqlParsePrepareOk (p.bytes seq) = some (p.stmtId.toNat, p.columns.packets.length, p.params.packets.length) ∧
      ∀ id : UInt32,
        mysqlRewritePrepareOk (p.bytes seq) id.toNat = { p with stmtId := id }.bytes seq ∧
        mysqlParsePrepareOk (mysqlRewritePrepareOk (p.bytes seq) id.toNat) =
          some (id.toNat, p.columns.packets.length, p.params.packets.length) ∧
        mysqlRewritePrepareOk (mysqlRewritePrepareOk (p.bytes seq) id.toNat) p.stmtId.toNat = p.bytes seq := by
  refine ⟨fun reply seq rest => ?_, parsed_err, fun p seq => ⟨p.parsed seq, fun id => ?_⟩⟩
  · cases reply with
    | ok p => exact p.collects seq rest
    | err p => exact collects_err p seq rest
  · exact ⟨p.rewritten seq id, { p with stmtId := id }.parsed seq, { p with stmtId := id }.rewritten seq p.stmtId⟩

end TurbineProxy
