import TurbineProxy.Backend

/-!
# Statement shadowing

The per-session maps of prepared statements, and the packet helpers they are used with. MySQL
statements have a numeric id per backend connection; the shadow gives the client a stable id of its
own and remembers one backend id for it. PostgreSQL statements have names; the shadow remembers the
text behind each name. Hash maps are association lists with at most one entry per key.
-/

namespace TurbineProxy

/-! ## MySQL -/

namespace Com

/-- `COM_STMT_PREPARE` -/
def stmtPrepare : UInt8 := 0x16
/-- `COM_STMT_EXECUTE` -/
def stmtExecute : UInt8 := 0x17
/-- `COM_STMT_SEND_LONG_DATA` -/
def stmtSendLongData : UInt8 := 0x18
/-- `COM_STMT_CLOSE` -/
def stmtClose : UInt8 := 0x19
/-- `COM_STMT_RESET` -/
def stmtReset : UInt8 := 0x1A
/-- `COM_STMT_FETCH` -/
def stmtFetch : UInt8 := 0x1C

end Com

/-- Metadata of one proxy-level prepared statement. -/
structure MysqlStmtInfo where
  /-- statement text, without the command byte -/
  query : Bytes
  /-- parameters, from the PREPARE response -/
  numParams : Nat
  /-- result columns, from the PREPARE response -/
  numColumns : Nat
  /-- the id the backend assigned -/
  backendId : Nat
  deriving DecidableEq

/-- Per-session map from proxy ids to statements. -/
structure MysqlStmtShadow where
  /-- the open statements -/
  stmts : List (Nat × MysqlStmtInfo)
  /-- the next proxy id, a `u32` -/
  nextId : Nat
  deriving DecidableEq

namespace MysqlStmtShadow

/-- `MysqlStmtShadow::new` -/
def new : MysqlStmtShadow := ⟨[], 1⟩

variable (s : MysqlStmtShadow)

/-- Drop the entry of a key. -/
def erase (id : Nat) : List (Nat × MysqlStmtInfo) := s.stmts.filter fun e => !(e.1 == id)

/-- `register`: the shadow with the new statement, and the proxy id for the client. -/
def register (query : Bytes) (numParams numColumns backendId : Nat) : MysqlStmtShadow × Nat :=
  (⟨(s.nextId, ⟨query, numParams, numColumns, backendId⟩) :: s.erase s.nextId,
    (s.nextId + 1) % 2 ^ 32⟩, s.nextId)

/-- `get` -/
def get (id : Nat) : Option MysqlStmtInfo := s.stmts.lookup id

/-- `backend_id` -/
def backendId (id : Nat) : Option Nat := (s.get id).map (·.backendId)

/-- `remove` -/
def remove (id : Nat) : MysqlStmtShadow := { s with stmts := s.erase id }

/-- `is_empty` -/
def isEmpty : Bool := s.stmts.isEmpty

/-- `update_backend_ids`: the ids a replacement connection assigned. -/
def updateBackendIds (newIds : List (Nat × Nat)) : MysqlStmtShadow :=
  { s with stmts := s.stmts.map fun e =>
      match newIds.lookup e.1 with
      | some b => (e.1, { e.2 with backendId := b })
      | none => e }

/-- `reprepare_jobs`: a PREPARE packet for every open statement. -/
def reprepareJobs : List (Nat × Bytes) := s.stmts.map fun e => (e.1, Com.stmtPrepare :: e.2.query)

end MysqlStmtShadow

/-- `u32::from_le_bytes` -/
def le32 (a b c d : UInt8) : Nat :=
  a.toNat + 2 ^ 8 * b.toNat + 2 ^ 16 * c.toNat + 2 ^ 24 * d.toNat

/-- `u32::to_le_bytes` -/
def le32Bytes (n : Nat) : Bytes :=
  [UInt8.ofNat n, UInt8.ofNat (n / 2 ^ 8), UInt8.ofNat (n / 2 ^ 16), UInt8.ofNat (n / 2 ^ 24)]

/-- `mysql_has_stmt_id`: the commands that carry a statement id. -/
def mysqlHasStmtId (cmd : UInt8) : Bool :=
  [Com.stmtExecute, Com.stmtClose, Com.stmtReset, Com.stmtFetch, Com.stmtSendLongData].contains cmd

/-- `mysql_read_stmt_id` -/
def mysqlReadStmtId : Bytes → Option Nat
  | _ :: a :: b :: c :: d :: _ => some (le32 a b c d)
  | _ => none

/-- `mysql_rewrite_stmt_id` -/
def mysqlRewriteStmtId (packet : Bytes) (newId : Nat) : Bytes :=
  match packet with
  | cmd :: _ :: _ :: _ :: _ :: rest => cmd :: le32Bytes newId ++ rest
  | _ => packet

/-- `mysql_parse_prepare_ok`: statement id, columns and parameters of a PREPARE_OK response. -/
def mysqlParsePrepareOk : Bytes → Option (Nat × Nat × Nat)
  | _ :: _ :: _ :: _ :: 0 :: a :: b :: c :: d :: e :: f :: g :: h :: _ =>
    some (le32 a b c d, e.toNat + 2 ^ 8 * f.toNat, g.toNat + 2 ^ 8 * h.toNat)
  | _ => none

/-- `mysql_rewrite_prepare_ok` -/
def mysqlRewritePrepareOk (response : Bytes) (newId : Nat) : Bytes :=
  match response with
  | h₀ :: h₁ :: h₂ :: h₃ :: status :: _ :: _ :: _ :: _ :: rest =>
    h₀ :: h₁ :: h₂ :: h₃ :: status :: le32Bytes newId ++ rest
  | _ => response

theorem le32_le32Bytes {n : Nat} (h : n < 2 ^ 32) :
    le32 (UInt8.ofNat n) (UInt8.ofNat (n / 2 ^ 8)) (UInt8.ofNat (n / 2 ^ 16))
      (UInt8.ofNat (n / 2 ^ 24)) = n := by
  simp only [le32, UInt8.toNat_ofNat']
  omega

theorem le32_lt (a b c d : UInt8) : le32 a b c d < 2 ^ 32 := by
  have ha := a.toNat_lt
  have hb := b.toNat_lt
  have hc := c.toNat_lt
  have hd := d.toNat_lt
  rw [le32]
  omega

/-- The header of a framed message gives its length back. -/
theorem buildPgRaw_append (tag : UInt8) {payload : Bytes} (hsmall : payload.length + 4 < 2 ^ 32)
    (rest : Bytes) : ∃ a b c d, buildPgRaw tag payload ++ rest =
      tag :: a :: b :: c :: d :: (payload ++ rest) ∧ le32 d c b a = payload.length + 4 :=
  ⟨_, _, _, _, rfl, le32_le32Bytes hsmall⟩

/-- Rewriting the id of a packet that carries one, then reading it, gives the new id. -/
theorem mysqlReadStmtId_rewrite {packet : Bytes} {p n : Nat} (h : mysqlReadStmtId packet = some p)
    (hn : n < 2 ^ 32) : mysqlReadStmtId (mysqlRewriteStmtId packet n) = some n := by
  unfold mysqlReadStmtId at h
  split at h
  · rename_i cmd a b c d rest
    simp only [mysqlRewriteStmtId, le32Bytes, List.cons_append, mysqlReadStmtId]
    rw [le32_le32Bytes hn]
  · cases h

/-! ## PostgreSQL -/

/-- Names extracted from an extended-query pipeline. -/
structure PgPipelineScan where
  /-- `(name, query)` of the `Parse` messages -/
  parses : List (Str × Str)
  /-- names of the `Close` messages for statements -/
  closes : List Str
  deriving DecidableEq

/-- The bytes before the first NUL and those after it. -/
def splitNul : Bytes → Option (Bytes × Bytes)
  | [] => none
  | b :: rest => if b = 0 then some ([], rest) else (splitNul rest).map fun p => (b :: p.1, p.2)

/-- `read_cstr`: the text before the first NUL, decoded lossily, and the bytes after it. -/
def readCstr (buf : Bytes) : Option (Str × Bytes) :=
  (splitNul buf).map fun p => (fromUtf8Lossy p.1, p.2)

/-- What one message adds to a scan. -/
def scanMessage (tag : UInt8) (payload : Bytes) (scan : PgPipelineScan) : PgPipelineScan :=
  if tag = 0x50 then
    match readCstr payload with
    | some (name, rest) =>
      match readCstr rest with
      | some (query, _) => { scan with parses := scan.parses ++ [(name, query)] }
      | none => scan
    | none => scan
  else if tag = 0x43 then
    match payload with
    | kind :: rest =>
      if 2 ≤ payload.length ∧ kind = 0x53 then
        match readCstr rest with
        | some (name, _) =>
          if name.isEmpty then scan else { scan with closes := scan.closes ++ [name] }
        | none => scan
      else scan
    | [] => scan
  else scan

/-- The loop of `scan_pg_pipeline`. Every round drops the five bytes of a header at least. -/
def scanPgPipelineLoop : Nat → Bytes → PgPipelineScan → PgPipelineScan
  | 0, _, scan => scan
  | n + 1, raw, scan =>
    match raw with
    | tag :: a :: b :: c :: d :: rest =>
      let len := le32 d c b a
      if len < 4 ∨ rest.length < len - 4 then scan
      else scanPgPipelineLoop n (rest.drop (len - 4)) (scanMessage tag (rest.take (len - 4)) scan)
    | _ => scan

/-- `scan_pg_pipeline` -/
def scanPgPipeline (raw : Bytes) : PgPipelineScan :=
  scanPgPipelineLoop (raw.length + 1) raw ⟨[], []⟩

/-- `build_pg_reparse`: `Parse` without parameter types, then `Sync`. -/
def buildPgReparse (name query : Str) : Bytes :=
  buildPgRaw 0x50 (toUtf8 name ++ [0] ++ toUtf8 query ++ [0] ++ [0, 0]) ++ buildPgRaw 0x53 []

/-- Per-session map from statement names to texts. -/
structure PgStmtShadow where
  /-- name and query of every open named statement -/
  stmts : List (Str × Str)
  deriving DecidableEq

namespace PgStmtShadow

/-- `PgStmtShadow::new` -/
def new : PgStmtShadow := ⟨[]⟩

variable (s : PgStmtShadow)

/-- `stmts.insert` -/
def insert (name query : Str) : PgStmtShadow :=
  ⟨(name, query) :: s.stmts.filter fun e => !(e.1 == name)⟩

/-- `stmts.remove` -/
def remove (name : Str) : PgStmtShadow := ⟨s.stmts.filter fun e => !(e.1 == name)⟩

/-- `apply_scan`: all named `Parse` messages first, then all `Close` messages. -/
def applyScan (scan : PgPipelineScan) : PgStmtShadow :=
  let parsed := scan.parses.foldl (fun s p => if p.1.isEmpty then s else s.insert p.1 p.2) s
  scan.closes.foldl remove parsed

/-- `is_empty` -/
def isEmpty : Bool := s.stmts.isEmpty

/-- `build_reprepare_for` -/
def buildReprepareFor (skip : List Str) : List Bytes :=
  (s.stmts.filter fun e => !skip.contains e.1).map fun e => buildPgReparse e.1 e.2

end PgStmtShadow

end TurbineProxy
