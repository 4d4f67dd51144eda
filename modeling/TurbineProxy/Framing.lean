import TurbineProxy.MysqlWire

/-!
# Framing of MySQL replies

What a server may answer to a command: a chain of results, of which all but the last say that there are
more. `collect_response` is right if it reads exactly the reply, whatever comes behind it.

`collectResponse_eq_iff` says for which replies it is: `Readable` lists what its shortcuts rely on.
-/

namespace TurbineProxy

/-! ## Packets of a reply -/

/-- A length-encoded integer of the protocol: one byte below 251, and else a mark with two, three or eight bytes. -/
def lenenc (n : Nat) : Bytes :=
  if n < 251 then [UInt8.ofNat n]
  else if n < 2 ^ 16 then 0xFC :: leBytes 2 n
  else if n < 2 ^ 24 then 0xFD :: leBytes 3 n
  else 0xFE :: leBytes 8 n

/-- What one packet can hold, when no other one follows it. -/
def OnePacket (payload : Bytes) : Prop := payload.length < 0xFFFFFF

instance (payload : Bytes) : Decidable (OnePacket payload) := inferInstanceAs (Decidable (_ < _))

/-- The payload of an OK packet. -/
def okPayload (affectedRows lastInsertId status warnings : Nat) (info : Bytes) : Bytes :=
  0x00 :: (lenenc affectedRows ++ lenenc lastInsertId ++ leBytes 2 status ++ leBytes 2 warnings ++ info)

/-- The payload of an EOF packet. -/
def eofPayload (warnings status : Nat) : Bytes := 0xFE :: (leBytes 2 warnings ++ leBytes 2 status)

/-- An OK packet. -/
structure OkPacket where
  /-- any `u64` -/
  affectedRows : Nat
  /-- any `u64` -/
  lastInsertId : Nat
  /-- the status flags -/
  status : Nat
  /-- the number of warnings -/
  warnings : Nat
  /-- the message and the session state -/
  info : Bytes
  /-- it is one packet -/
  fits : OnePacket (okPayload affectedRows lastInsertId status warnings info)

/-- Its payload. -/
def OkPacket.payload (p : OkPacket) : Bytes :=
  okPayload p.affectedRows p.lastInsertId p.status p.warnings p.info

/-- An error packet: the code and the message. -/
structure ErrPacket where
  /-- what follows the marker -/
  body : Bytes
  /-- it is one packet -/
  fits : OnePacket (0xFF :: body)

/-- Its payload. -/
def ErrPacket.payload (p : ErrPacket) : Bytes := 0xFF :: p.body

/-- A value of a text row. -/
def cellBytes : Option Bytes → Bytes
  | none => [0xFB]
  | some value => lenenc value.length ++ value

/-- A row of a result set. -/
inductive Row : Type where
  /-- of the text protocol: one value at least -/
  | text (first : Option Bytes) (others : List (Option Bytes))
  /-- of the binary protocol: the NULL bitmap and the values -/
  | binary (values : Bytes)

/-- Its payload, of any length. -/
def Row.payload : Row → Bytes
  | text first others => cellBytes first ++ others.flatMap cellBytes
  | binary values => 0x00 :: values

/-- A row, cut into packets: all but the last one are full. -/
structure RowPackets where
  /-- the row -/
  row : Row
  /-- the full packets -/
  full : List Bytes
  /-- the last packet, which may be empty -/
  last : Bytes
  /-- full packets -/
  length_full : ∀ p ∈ full, p.length = 0xFFFFFF
  /-- the last one is not full -/
  fits : OnePacket last
  /-- the pieces make the row -/
  payload : full.flatten ++ last = row.payload

/-- The packets. -/
def RowPackets.packets (r : RowPackets) : List Bytes := r.full ++ [r.last]

/-- The end of a result set. -/
inductive Ending : Type where
  /-- an EOF packet -/
  | eof (warnings status : Nat)
  /-- an error while the rows were sent -/
  | err (p : ErrPacket)

/-- Its payload. -/
def Ending.payload : Ending → Bytes
  | eof warnings status => eofPayload warnings status
  | err p => p.payload

/-- A result set. -/
structure ResultSet where
  /-- the column definitions -/
  columns : List Bytes
  /-- there is a column -/
  columns_ne : columns ≠ []
  /-- every definition is one packet -/
  columns_fit : ∀ c ∈ columns, OnePacket c
  /-- of the EOF packet behind them -/
  warnings : Nat
  /-- of the EOF packet behind them -/
  status : Nat
  /-- the rows -/
  rows : List RowPackets
  /-- the end -/
  ending : Ending

namespace ResultSet

/-- The packets of the rows. -/
def rowPackets (s : ResultSet) : List Bytes := s.rows.flatMap RowPackets.packets

/-- The packets behind the column count. -/
def body (s : ResultSet) : List Bytes :=
  s.columns ++ eofPayload s.warnings s.status :: (s.rowPackets ++ [s.ending.payload])

end ResultSet

/-!
## Replies

A reply is one result or several, each but the last of which says that there are more. This is the grammar of the
protocol, and not what the proxy makes of it.
-/

/-- One result of a command: an OK packet, an error, or a set of rows. -/
inductive Result : Type where
  /-- an OK packet -/
  | ok (p : OkPacket)
  /-- an error -/
  | err (p : ErrPacket)
  /-- a result set -/
  | rows (s : ResultSet)

namespace Result

/-- The packets of a result. -/
def packets : Result → List Bytes
  | ok p => [p.payload]
  | err p => [p.payload]
  | rows s => lenenc s.columns.length :: s.body

/-- It says that another result follows. -/
def more : Result → Bool
  | ok p => moreResultsExist p.status
  | err _ => false
  | rows s =>
    match s.ending with
    | .eof _ status => moreResultsExist status
    | .err _ => false

end Result

/-- Every result but the last says that there are more. -/
def Chained : List Result → Prop
  | [] => False
  | [r] => r.more = false
  | r :: rs => r.more = true ∧ Chained rs

/-- A complete reply to a command. -/
abbrev MysqlReply : Type := { results : List Result // Chained results }

/-- The packets of some results. -/
def packetsOf (results : List Result) : List Bytes := results.flatMap Result.packets

/-! ## What the shortcuts rely on -/

/-- No packet that continues a row looks like the end of the rows. -/
def ResultSet.Unambiguous (s : ResultSet) : Prop :=
  ∀ r ∈ s.rows, ∀ p ∈ r.packets.tail, endsRows p = false

/-- Nothing but OK packets, and an error at the end. -/
def RunsIntoError : List Result → Prop
  | [.err _] => True
  | .ok _ :: rs => RunsIntoError rs
  | _ => False

/-- The flags of an OK packet are found where `ok_status_flags` looks for them; no result set is followed
by another result; a result set has at most 252 columns, and no packet that continues a row looks like
its end. With 251 columns one packet too many is skipped, which takes a row, or an error much later. -/
def Readable : List Result → Prop
  | [] => False
  | .ok p :: rs => ((okStatusFlags p.payload).any moreResultsExist = true ↔ rs ≠ []) ∧ (rs ≠ [] → Readable rs)
  | .err _ :: _ => True
  | .rows s :: rs =>
    if s.columns.length = 251 ∧ s.rows = [] then RunsIntoError rs
    else rs = [] ∧ s.columns.length ≤ 252 ∧ s.Unambiguous

/-! ## Reading packets -/

/-- A reader reads exactly these packets. -/
def Reads (f : Bytes → Bytes → Option (Bytes × Bytes)) (ps : List Bytes) : Prop :=
  ∀ seq rest buf, f (wire seq ps ++ rest) buf = some (buf ++ wire seq ps, rest)

/-- A reader returns fewer bytes than these packets, or more. -/
def Misreads (f : Bytes → Bytes → Option (Bytes × Bytes)) (ps : List Bytes) : Prop :=
  ∀ seq rest buf out left, f (wire seq ps ++ rest) buf = some (out, left) →
    out.length ≠ (buf ++ wire seq ps).length

section Reading

variable {p : Bytes} {ps : List Bytes} {seq : UInt8} {rest buf out left : Bytes}

/-- What fits is short enough for its header. -/
theorem OnePacket.lt (h : OnePacket p) : p.length < 2 ^ 24 := Nat.lt_trans h (by decide)

/-- The packets of a stream are read one by one. -/
theorem readRaw_wire (h : p.length < 2 ^ 24) (seq : UInt8) (ps : List Bytes) (rest : Bytes) :
    ∃ header, readRaw (wire seq (p :: ps) ++ rest) = some (header, p, wire (seq + 1) ps ++ rest) ∧
      header ++ p = packet seq p := by
  rw [wire, List.append_assoc]
  exact readRaw_packet h _

theorem collectRawPackets_cons (k : Nat) (h : p.length < 2 ^ 24) :
    collectRawPackets (k + 1) (wire seq (p :: ps) ++ rest) buf =
      collectRawPackets k (wire (seq + 1) ps ++ rest) (buf ++ packet seq p) := by
  obtain ⟨header, hread, hpacket⟩ := readRaw_wire h seq ps rest
  rw [collectRawPackets, hread, ← hpacket, ← List.append_assoc]
  rfl

theorem collectRows_cons (n : Nat) (h : p.length < 2 ^ 24) :
    collectRows (n + 1) (wire seq (p :: ps) ++ rest) buf =
      if endsRows p then some (buf ++ packet seq p, wire (seq + 1) ps ++ rest)
      else collectRows n (wire (seq + 1) ps ++ rest) (buf ++ packet seq p) := by
  obtain ⟨header, hread, hpacket⟩ := readRaw_wire h seq ps rest
  rw [collectRows, hread, ← hpacket, ← List.append_assoc]
  rfl

/-- Skipping so many packets. -/
theorem reads_rawPackets (h : ∀ p ∈ ps, p.length < 2 ^ 24) : Reads (collectRawPackets ps.length) ps := by
  induction ps with
  | nil =>
    intro seq rest buf
    rw [wire, List.append_nil]
    rfl
  | cons p ps ih =>
    intro seq rest buf
    rw [List.length_cons, collectRawPackets_cons _ (h p List.mem_cons_self),
      ih (fun q hq => h q (List.mem_cons_of_mem p hq)), wire, List.append_assoc]

/-- The rows are read up to the first packet that ends them. -/
theorem reads_rows {t : Bytes} {n : Nat} (h : ∀ p ∈ ps, p.length < 2 ^ 24) (ht : t.length < 2 ^ 24)
    (hrows : ∀ p ∈ ps, endsRows p = false) (hend : endsRows t = true) (hn : ps.length < n) :
    Reads (collectRows n) (ps ++ [t]) := by
  induction ps generalizing n with
  | nil =>
    obtain ⟨n, rfl⟩ := Nat.exists_eq_add_one_of_ne_zero (Nat.ne_zero_of_lt hn)
    intro seq rest buf
    rw [List.nil_append, collectRows_cons n ht, if_pos hend, wire]
    exact congrArg (fun bytes => some (buf ++ bytes, rest)) (List.append_nil _).symm
  | cons p ps ih =>
    obtain ⟨n, rfl⟩ := Nat.exists_eq_add_one_of_ne_zero (Nat.ne_zero_of_lt hn)
    intro seq rest buf
    rw [List.cons_append, collectRows_cons n (h p List.mem_cons_self), if_neg (by simp [hrows]),
      ih (fun q hq => h q (List.mem_cons_of_mem p hq)) (fun q hq => hrows q (List.mem_cons_of_mem p hq))
        (Nat.lt_of_succ_lt_succ hn), wire, List.append_assoc]

/-- A packet adds its header at least. -/
theorem length_readRaw {stream header payload rest : Bytes} (buf : Bytes)
    (h : readRaw stream = some (header, payload, rest)) : buf.length + 4 ≤ (buf ++ header ++ payload).length := by
  obtain ⟨-, hheader⟩ := readRaw_eq_some h
  simp only [List.length_append, hheader]
  omega

/-- Whatever the loop over the rows returns, it has read a packet. -/
theorem length_collectRows {n : Nat} {stream : Bytes} (h : collectRows n stream buf = some (out, left)) :
    buf.length + 4 ≤ out.length := by
  induction n generalizing stream buf with
  | zero => cases h
  | succ n ih =>
    obtain ⟨⟨header, payload, stream'⟩, hread, h⟩ := Option.bind_eq_some_iff.mp h
    have hbuf := length_readRaw buf hread
    dsimp only at h
    split at h
    · obtain ⟨rfl, -⟩ := Prod.mk.inj (Option.some.inj h)
      exact hbuf
    · exact Nat.le_trans hbuf (Nat.le_trans (Nat.le_add_right _ 4) (ih h))

/-- Without a packet that ends the rows, the loop goes beyond them. -/
theorem overreads_rows (h : ∀ p ∈ ps, p.length < 2 ^ 24) (hrows : ∀ p ∈ ps, endsRows p = false) {n : Nat}
    (hout : collectRows n (wire seq ps ++ rest) buf = some (out, left)) :
    (buf ++ wire seq ps).length < out.length := by
  induction ps generalizing n seq buf with
  | nil =>
    have hlength := length_collectRows hout
    rw [wire, List.append_nil]
    omega
  | cons p ps ih =>
    cases n with
    | zero => cases hout
    | succ n =>
      rw [collectRows_cons n (h p List.mem_cons_self), if_neg (by simp [hrows])] at hout
      rw [wire, ← List.append_assoc]
      exact ih (fun q hq => h q (List.mem_cons_of_mem p hq)) (fun q hq => hrows q (List.mem_cons_of_mem p hq)) hout

theorem misreads_without_end (h : ∀ p ∈ ps, p.length < 2 ^ 24) (hrows : ∀ p ∈ ps, endsRows p = false) (n : Nat) :
    Misreads (collectRows n) ps :=
  fun _ _ _ _ _ hout => Nat.ne_of_gt (overreads_rows h hrows hout)

/-- The loop stops at a packet that ends the rows, or before it. -/
theorem misreads_behind_end {qs : List Bytes} (h : ∀ p ∈ ps, p.length < 2 ^ 24)
    (hend : ∃ p ∈ ps, endsRows p = true) (hqs : qs ≠ []) (n : Nat) : Misreads (collectRows n) (ps ++ qs) := by
  induction ps generalizing n with
  | nil => exact absurd hend (by simp)
  | cons p ps ih =>
    intro seq rest buf out left hout
    cases n with
    | zero => cases hout
    | succ n =>
      rw [List.cons_append, collectRows_cons n (h p List.mem_cons_self)] at hout
      rw [List.cons_append, wire, ← List.append_assoc]
      by_cases hp : endsRows p = true
      · rw [if_pos hp] at hout
        obtain ⟨rfl, -⟩ := Prod.mk.inj (Option.some.inj hout)
        have hlength := length_le_wire (seq + 1) (ps ++ qs)
        have hpos := List.length_pos_iff.mpr hqs
        simp only [List.length_append] at hlength ⊢
        omega
      · rw [if_neg hp] at hout
        have hend' : ∃ q ∈ ps, endsRows q = true := by
          obtain ⟨q, hq, hqend⟩ := hend
          exact ⟨q, (List.mem_cons.mp hq).resolve_left fun heq => hp (heq ▸ hqend), hqend⟩
        exact ih (fun q hq => h q (List.mem_cons_of_mem p hq)) hend' n _ _ _ _ _ hout

end Reading

/-! ## Result sets -/

section Skipping

variable {skip ps : List Bytes} {byte : UInt8}

/-- What is skipped by the count, and the rows. -/
theorem collectResultSet_append (hskip : ∀ p ∈ skip, p.length < 2 ^ 24) (hcount : skip.length = byte.toNat + 1)
    (ps : List Bytes) (seq : UInt8) (rest buf : Bytes) :
    ∃ seq', wire seq (skip ++ ps) = wire seq skip ++ wire seq' ps ∧
      collectResultSet byte (wire seq (skip ++ ps) ++ rest) buf =
        collectRows ((wire seq' ps ++ rest).length + 1) (wire seq' ps ++ rest) (buf ++ wire seq skip) := by
  have hwire := wire_append seq skip ps
  refine ⟨_, hwire, ?_⟩
  rw [collectResultSet, ← hcount, hwire, List.append_assoc, reads_rawPackets hskip]
  rfl

theorem reads_resultSet {t : Bytes} (hskip : ∀ p ∈ skip, p.length < 2 ^ 24)
    (hcount : skip.length = byte.toNat + 1) (h : ∀ p ∈ ps, p.length < 2 ^ 24) (ht : t.length < 2 ^ 24)
    (hrows : ∀ p ∈ ps, endsRows p = false) (hend : endsRows t = true) :
    Reads (collectResultSet byte) (skip ++ (ps ++ [t])) := by
  intro seq rest buf
  obtain ⟨seq', hwire, heq⟩ := collectResultSet_append hskip hcount (ps ++ [t]) seq rest buf
  have hn : ps.length < (wire seq' (ps ++ [t]) ++ rest).length + 1 := by
    have hlength := length_le_wire seq' (ps ++ [t])
    simp only [List.length_append, List.length_singleton] at hlength ⊢
    omega
  rw [heq, reads_rows h ht hrows hend hn, hwire, List.append_assoc]

theorem misreads_resultSet (hskip : ∀ p ∈ skip, p.length < 2 ^ 24) (hcount : skip.length = byte.toNat + 1)
    (h : ∀ n, Misreads (collectRows n) ps) : Misreads (collectResultSet byte) (skip ++ ps) := by
  intro seq rest buf out left hout
  obtain ⟨seq', hwire, heq⟩ := collectResultSet_append hskip hcount ps seq rest buf
  rw [hwire, ← List.append_assoc]
  exact h _ _ _ _ _ _ (heq ▸ hout)

end Skipping

/-! ## The first byte -/

/-- The first byte of a length-encoded integer. -/
theorem lenenc_eq (n : Nat) :
    ∃ byte tail, lenenc n = byte :: tail ∧ tail.length ≤ 8 ∧
      byte.toNat = if n < 251 then n else if n < 2 ^ 16 then 252 else if n < 2 ^ 24 then 253 else 254 := by
  rw [lenenc]
  by_cases h₁ : n < 251
  · refine ⟨_, _, if_pos h₁, Nat.zero_le 8, ?_⟩
    rw [if_pos h₁, UInt8.toNat_ofNat']
    exact Nat.mod_eq_of_lt (Nat.lt_trans h₁ (by decide))
  by_cases h₂ : n < 2 ^ 16
  · exact ⟨0xFC, leBytes 2 n, by rw [if_neg h₁, if_pos h₂], by simp [length_leBytes], by rw [if_neg h₁, if_pos h₂]; rfl⟩
  by_cases h₃ : n < 2 ^ 24
  · exact ⟨0xFD, leBytes 3 n, by rw [if_neg h₁, if_neg h₂, if_pos h₃], by simp [length_leBytes],
      by rw [if_neg h₁, if_neg h₂, if_pos h₃]; rfl⟩
  · exact ⟨0xFE, leBytes 8 n, by rw [if_neg h₁, if_neg h₂, if_neg h₃], by simp [length_leBytes],
      by rw [if_neg h₁, if_neg h₂, if_neg h₃]; rfl⟩

/-- A value never begins like an error, and if it begins like an EOF it is long. -/
theorem endsRows_of_cell {cell : Option Bytes} {others : Bytes} : endsRows (cellBytes cell ++ others) = false := by
  cases cell with
  | none => simp [cellBytes, endsRows]
  | some value =>
    obtain ⟨byte, tail, heq, -, hbyte⟩ := lenenc_eq value.length
    have hne : byte ≠ 0xFF := by
      rintro rfl
      rw [show (0xFF : UInt8).toNat = 255 from rfl] at hbyte
      grind
    have hlong : byte = 0xFE → 9 ≤ value.length := by
      rintro rfl
      rw [show (0xFE : UInt8).toNat = 254 from rfl] at hbyte
      grind
    rw [cellBytes, heq, endsRows]
    by_cases h : byte = 0xFE
    · have := hlong h
      simp [hne]
      omega
    · simp [h, hne]

/-- A row does not look like the end of the rows. -/
theorem endsRows_row (row : Row) : endsRows row.payload = false := by
  cases row with
  | text first others => exact endsRows_of_cell
  | binary values => simp [Row.payload, endsRows]

theorem row_ne_error (row : Row) : row.payload.head? ≠ some 0xFF := by
  intro h
  have hends := endsRows_row row
  simp [endsRows, h] at hends

/-- Nor does its first packet. -/
theorem RowPackets.packets_eq (r : RowPackets) :
    ∃ first others, r.packets = first :: others ∧ endsRows first = false := by
  rcases hfull : r.full with _ | ⟨first, others⟩
  · refine ⟨r.last, [], by rw [packets, hfull]; rfl, ?_⟩
    have hpayload := r.payload
    rw [hfull] at hpayload
    exact (show r.last = r.row.payload from hpayload) ▸ endsRows_row r.row
  · refine ⟨first, others ++ [r.last], by rw [packets, hfull]; rfl, ?_⟩
    have hlength := r.length_full first (hfull ▸ List.mem_cons_self)
    have hhead : first.head? = r.row.payload.head? := by
      rw [← r.payload, hfull]
      cases first with
      | nil => cases hlength
      | cons byte bytes => rfl
    simp [endsRows, hhead, row_ne_error, hlength]

/-! ## The packets of a result set -/

theorem RowPackets.length_lt (r : RowPackets) : ∀ p ∈ r.packets, p.length < 2 ^ 24 := by
  intro p hp
  rcases List.mem_append.mp hp with hfull | hlast
  · rw [r.length_full p hfull]
    decide
  · exact (List.mem_singleton.mp hlast).symm ▸ r.fits.lt

theorem length_eofPayload (warnings status : Nat) : (eofPayload warnings status).length = 5 := by
  simp [eofPayload, length_leBytes]

theorem endsRows_eofPayload (warnings status : Nat) : endsRows (eofPayload warnings status) = true := by
  have hlength := length_eofPayload warnings status
  simp [endsRows, eofPayload, length_leBytes]

theorem Ending.length_lt (e : Ending) : e.payload.length < 2 ^ 24 := by
  cases e with
  | eof warnings status => simp [Ending.payload, length_eofPayload]
  | err p => exact p.fits.lt

theorem Ending.endsRows (e : Ending) : endsRows e.payload = true := by
  cases e with
  | eof warnings status => exact endsRows_eofPayload warnings status
  | err p => simp [Ending.payload, ErrPacket.payload, TurbineProxy.endsRows]

namespace ResultSet

variable (s : ResultSet)

theorem rowPackets_lt : ∀ p ∈ s.rowPackets, p.length < 2 ^ 24 := by
  intro p hp
  obtain ⟨r, -, hpr⟩ := List.mem_flatMap.mp hp
  exact r.length_lt p hpr

/-- The packets that do not end the rows, whatever they hold. -/
theorem unambiguous_iff : s.Unambiguous ↔ ∀ p ∈ s.rowPackets, endsRows p = false := by
  constructor
  · intro h p hp
    obtain ⟨r, hr, hpr⟩ := List.mem_flatMap.mp hp
    obtain ⟨first, others, heq, hfirst⟩ := r.packets_eq
    rcases List.mem_cons.mp (heq ▸ hpr) with rfl | hothers
    · exact hfirst
    · exact h r hr p (heq ▸ hothers)
  · exact fun h r hr p hp => h p (List.mem_flatMap.mpr ⟨r, hr, List.mem_of_mem_tail hp⟩)

/-- With a row, there is a packet that does not end the rows. -/
theorem rowPackets_eq (h : s.rows ≠ []) :
    ∃ first others, s.rowPackets = first :: others ∧ endsRows first = false := by
  obtain ⟨r, rs, hrows⟩ := List.exists_cons_of_ne_nil h
  obtain ⟨first, others, heq, hfirst⟩ := r.packets_eq
  exact ⟨first, others ++ rs.flatMap RowPackets.packets,
    by rw [rowPackets, hrows, List.flatMap_cons, heq, List.cons_append], hfirst⟩

theorem header_lt : ∀ p ∈ s.columns ++ [eofPayload s.warnings s.status], p.length < 2 ^ 24 := by
  intro p hp
  rcases List.mem_append.mp hp with hcol | heof
  · exact (s.columns_fit p hcol).lt
  · rw [List.mem_singleton.mp heof, length_eofPayload]
    decide

end ResultSet

/-! ## The loop over the results -/

/-- A reader takes this packet and leaves the others to another reader. -/
def Takes (g : Bytes → Bytes → Option (Bytes × Bytes)) (p : Bytes)
    (f : Bytes → Bytes → Option (Bytes × Bytes)) : Prop :=
  ∀ seq ps rest buf, g (wire seq (p :: ps) ++ rest) buf = f (wire (seq + 1) ps ++ rest) (buf ++ packet seq p)

/-- Nothing more is read. -/
def stop (stream buf : Bytes) : Option (Bytes × Bytes) := some (buf, stream)

section Taking

variable {f g : Bytes → Bytes → Option (Bytes × Bytes)} {p : Bytes} {ps : List Bytes}

theorem Takes.reads (h : Takes g p f) (hf : Reads f ps) : Reads g (p :: ps) := by
  intro seq rest buf
  rw [h, hf, wire, List.append_assoc]

theorem Takes.misreads (h : Takes g p f) (hf : Misreads f ps) : Misreads g (p :: ps) := by
  intro seq rest buf out left hout
  rw [wire, ← List.append_assoc]
  exact hf _ _ _ _ _ (h seq ps rest buf ▸ hout)

theorem reads_stop : Reads stop [] := by
  intro seq rest buf
  rw [wire, List.append_nil]
  rfl

theorem misreads_stop (h : ps ≠ []) : Misreads stop ps := by
  intro seq rest buf out left hout
  obtain ⟨rfl, -⟩ := Prod.mk.inj (Option.some.inj hout)
  have hlength := length_le_wire seq ps
  have hpos := List.length_pos_iff.mpr h
  rw [List.length_append]
  omega

end Taking

/-- The first packet of a result. -/
theorem collectLoop_cons (n : Nat) {p : Bytes} (h : p.length < 2 ^ 24) (seq : UInt8) (ps : List Bytes)
    (rest buf : Bytes) :
    collectLoop (n + 1) (wire seq (p :: ps) ++ rest) buf =
      match p with
      | [] => stop (wire (seq + 1) ps ++ rest) (buf ++ packet seq p)
      | first :: _ =>
        if first = 0xFF ∨ first = 0xFB then stop (wire (seq + 1) ps ++ rest) (buf ++ packet seq p)
        else if first = 0x00 then
          if (okStatusFlags p).any moreResultsExist then
            collectLoop n (wire (seq + 1) ps ++ rest) (buf ++ packet seq p)
          else stop (wire (seq + 1) ps ++ rest) (buf ++ packet seq p)
        else collectResultSet first (wire (seq + 1) ps ++ rest) (buf ++ packet seq p) := by
  obtain ⟨header, hread, hpacket⟩ := readRaw_wire h seq ps rest
  rw [collectLoop, hread, ← hpacket, ← List.append_assoc]
  cases p <;> rfl

theorem takes_err (n : Nat) (p : ErrPacket) : Takes (collectLoop (n + 1)) p.payload stop :=
  fun seq ps rest buf => (collectLoop_cons n p.fits.lt seq ps rest buf).trans (if_pos (Or.inl rfl))

theorem takes_ok (n : Nat) (p : OkPacket) :
    Takes (collectLoop (n + 1)) p.payload
      (if (okStatusFlags p.payload).any moreResultsExist then collectLoop n else stop) := by
  intro seq ps rest buf
  refine (collectLoop_cons n p.fits.lt seq ps rest buf).trans ?_
  by_cases h : (okStatusFlags p.payload).any moreResultsExist = true
  · rw [if_pos h]
    exact (if_neg (by decide)).trans ((if_pos rfl).trans (if_pos h))
  · rw [if_neg h]
    exact (if_neg (by decide)).trans ((if_pos rfl).trans (if_neg h))

/-- The count of the columns goes by its first byte. -/
theorem takes_rows (n : Nat) (s : ResultSet) :
    ∃ byte : UInt8, Takes (collectLoop (n + 1)) (lenenc s.columns.length) (collectResultSet byte) ∧
      byte.toNat = if s.columns.length < 251 then s.columns.length else if s.columns.length < 2 ^ 16 then 252
        else if s.columns.length < 2 ^ 24 then 253 else 254 := by
  obtain ⟨byte, tail, heq, htail, hbyte⟩ := lenenc_eq s.columns.length
  have hpos := List.length_pos_iff.mpr s.columns_ne
  have hne {other : UInt8} (h : other.toNat = 0 ∨ other.toNat = 0xFB ∨ other.toNat = 0xFF) : byte ≠ other := by
    rintro rfl
    grind
  refine ⟨byte, fun seq ps rest buf => ?_, hbyte⟩
  rw [heq]
  refine (collectLoop_cons n (by simp; omega) seq ps rest buf).trans ?_
  exact (if_neg (not_or.mpr ⟨hne (by decide), hne (by decide)⟩)).trans (if_neg (hne (by decide)))

/-! ## Result sets and the count of their columns -/

namespace ResultSet

variable (s : ResultSet) {qs : List Bytes}

/-- With up to 252 columns the skipped packets are the header, and with 251 a row packet as well. -/
theorem body_eq {byte : UInt8} (hle : s.columns.length ≤ 252) (hrow : ¬ (s.columns.length = 251 ∧ s.rows = []))
    (hbyte : byte.toNat = if s.columns.length < 251 then s.columns.length else 252) :
    ∃ skip pre, s.body = skip ++ (pre ++ [s.ending.payload]) ∧ skip.length = byte.toNat + 1 ∧
      (∀ p ∈ skip, p.length < 2 ^ 24) ∧ (∀ p ∈ pre, p.length < 2 ^ 24) ∧
      (s.Unambiguous ↔ ∀ p ∈ pre, endsRows p = false) := by
  by_cases h : s.columns.length = 251
  · obtain ⟨first, others, heq, hfirst⟩ := s.rowPackets_eq fun hrows => hrow ⟨h, hrows⟩
    have hlt := heq ▸ s.rowPackets_lt
    refine ⟨s.columns ++ [eofPayload s.warnings s.status] ++ [first], others, ?_, ?_, ?_, ?_, ?_⟩
    · simp only [body, heq, List.append_assoc, List.cons_append, List.nil_append]
    · rw [hbyte, h]
      simp [h]
    · intro p hp
      rcases List.mem_append.mp hp with hheader | hp
      · exact s.header_lt p hheader
      · exact hlt p (List.mem_singleton.mp hp ▸ List.mem_cons_self)
    · exact fun p hp => hlt p (List.mem_cons_of_mem first hp)
    · rw [unambiguous_iff, heq, List.forall_mem_cons]
      exact and_iff_right hfirst
  · refine ⟨s.columns ++ [eofPayload s.warnings s.status], s.rowPackets, ?_, ?_, s.header_lt, s.rowPackets_lt,
      s.unambiguous_iff⟩
    · simp only [body, List.append_assoc, List.cons_append, List.nil_append]
    · simp only [hbyte, List.length_append, List.length_singleton]
      split <;> omega

theorem byte_of_le {byte : UInt8} (hle : s.columns.length ≤ 252)
    (hbyte : byte.toNat = if s.columns.length < 251 then s.columns.length else if s.columns.length < 2 ^ 16 then 252
      else if s.columns.length < 2 ^ 24 then 253 else 254) :
    byte.toNat = if s.columns.length < 251 then s.columns.length else 252 := by
  rw [hbyte, if_pos (Nat.lt_of_le_of_lt hle (by decide) : s.columns.length < 2 ^ 16)]

/-- A result set that is read as it is. -/
theorem reads (hle : s.columns.length ≤ 252) (hrow : ¬ (s.columns.length = 251 ∧ s.rows = []))
    (hu : s.Unambiguous) (n : Nat) : Reads (collectLoop (n + 1)) (Result.rows s).packets := by
  obtain ⟨byte, htakes, hbyte⟩ := takes_rows n s
  obtain ⟨skip, pre, hbody, hcount, hskip, hpre, hiff⟩ := s.body_eq hle hrow (s.byte_of_le hle hbyte)
  refine htakes.reads ?_
  rw [hbody]
  exact reads_resultSet hskip hcount hpre s.ending.length_lt (hiff.mp hu) s.ending.endsRows

/-- A packet that looks like the end of the rows cuts them off, and so does the end if results follow. -/
theorem misreads (hle : s.columns.length ≤ 252) (hrow : ¬ (s.columns.length = 251 ∧ s.rows = []))
    (h : ¬ s.Unambiguous ∨ qs ≠ []) (n : Nat) :
    Misreads (collectLoop (n + 1)) ((Result.rows s).packets ++ qs) := by
  obtain ⟨byte, htakes, hbyte⟩ := takes_rows n s
  obtain ⟨skip, pre, hbody, hcount, hskip, hpre, hiff⟩ := s.body_eq hle hrow (s.byte_of_le hle hbyte)
  rw [Result.packets, List.cons_append, hbody, List.append_assoc]
  refine htakes.misreads ?_
  refine misreads_resultSet hskip hcount fun k => ?_
  by_cases hu : s.Unambiguous
  · refine misreads_behind_end (fun p hp => ?_) ⟨s.ending.payload, ?_, s.ending.endsRows⟩
      (h.resolve_left fun hne => hne hu) k
    · rcases List.mem_append.mp hp with hp | hp
      · exact hpre p hp
      · exact List.mem_singleton.mp hp ▸ s.ending.length_lt
    · exact List.mem_append_right pre List.mem_cons_self
  · have hend : ∃ p ∈ pre, endsRows p = true := by
      by_contra hall
      exact hu (hiff.mpr fun p hp => Bool.eq_false_iff.mpr fun heq => hall ⟨p, hp, heq⟩)
    rw [List.append_assoc]
    exact misreads_behind_end hpre hend (List.cons_ne_nil _ _) k

/-- With more columns the skipped packets are all columns, and the EOF behind them ends the rows. -/
theorem misreads_wide (hlt : 252 < s.columns.length) (n : Nat) :
    Misreads (collectLoop (n + 1)) ((Result.rows s).packets ++ qs) := by
  obtain ⟨byte, htakes, hbyte⟩ := takes_rows n s
  have hle : byte.toNat + 1 ≤ s.columns.length := by grind
  have hcut : s.body ++ qs = s.columns.take (byte.toNat + 1) ++
      ((s.columns.drop (byte.toNat + 1) ++ [eofPayload s.warnings s.status]) ++
        (s.rowPackets ++ [s.ending.payload] ++ qs)) := by
    conv_lhs => rw [body, ← List.take_append_drop (byte.toNat + 1) s.columns]
    simp only [List.append_assoc, List.cons_append, List.nil_append]
  rw [Result.packets, List.cons_append, hcut]
  refine htakes.misreads ?_
  refine misreads_resultSet (fun p hp => (s.columns_fit p (List.mem_of_mem_take hp)).lt)
    (List.length_take_of_le hle) fun k => ?_
  refine misreads_behind_end (fun p hp => s.header_lt p ?_)
    ⟨eofPayload s.warnings s.status, List.mem_append_right _ List.mem_cons_self, endsRows_eofPayload _ _⟩
    (by simp) k
  rcases List.mem_append.mp hp with hp | hp
  · exact List.mem_append_left _ (List.mem_of_mem_drop hp)
  · exact List.mem_append_right _ hp

end ResultSet

/-! ## Whole replies -/

section Replies

variable {r : Result} {rs : List Result}

theorem Result.packets_ne (r : Result) : r.packets ≠ [] := by
  cases r <;> exact List.cons_ne_nil _ _

theorem Result.packets_lt (r : Result) : ∀ p ∈ r.packets, p.length < 2 ^ 24 := by
  cases r with
  | ok p => exact fun q hq => List.mem_singleton.mp hq ▸ p.fits.lt
  | err p => exact fun q hq => List.mem_singleton.mp hq ▸ p.fits.lt
  | rows s =>
    intro p hp
    obtain ⟨byte, tail, heq, htail, -⟩ := lenenc_eq s.columns.length
    rcases List.mem_cons.mp hp with rfl | hp
    · rw [heq, List.length_cons]
      omega
    rw [ResultSet.body, List.append_cons] at hp
    rcases List.mem_append.mp hp with hheader | hp
    · exact s.header_lt p hheader
    rcases List.mem_append.mp hp with hrow | hend
    · exact s.rowPackets_lt p hrow
    · exact List.mem_singleton.mp hend ▸ s.ending.length_lt

theorem packetsOf_lt : ∀ p ∈ packetsOf rs, p.length < 2 ^ 24 := by
  intro p hp
  obtain ⟨r, -, hpr⟩ := List.mem_flatMap.mp hp
  exact r.packets_lt p hpr

theorem packetsOf_cons : packetsOf (r :: rs) = r.packets ++ packetsOf rs := List.flatMap_cons

theorem packetsOf_ne (h : rs ≠ []) : packetsOf rs ≠ [] := by
  obtain ⟨r, rs, rfl⟩ := List.exists_cons_of_ne_nil h
  rw [packetsOf_cons]
  exact fun heq => r.packets_ne (List.append_eq_nil_iff.mp heq).1

theorem Chained.tail (h : Chained (r :: rs)) (hrs : rs ≠ []) : r.more = true ∧ Chained rs := by
  cases rs with
  | nil => exact absurd rfl hrs
  | cons r' rs => exact h

theorem endsRows_okPayload (p : OkPacket) : endsRows p.payload = false := rfl

/-- Where one packet too many is skipped, an error is found at the end. -/
theorem RunsIntoError.packets (h : RunsIntoError rs) :
    ∃ pre t, packetsOf rs = pre ++ [t] ∧ (∀ p ∈ pre, endsRows p = false) ∧ endsRows t = true := by
  fun_induction RunsIntoError rs with
  | case1 p => exact ⟨[], p.payload, rfl, nofun, Ending.endsRows (.err p)⟩
  | case2 p rs ih =>
    obtain ⟨pre, t, heq, hpre, hend⟩ := ih h
    refine ⟨p.payload :: pre, t, ?_, ?_, hend⟩
    · rw [packetsOf_cons, heq]
      rfl
    · exact List.forall_mem_cons.mpr ⟨endsRows_okPayload p, hpre⟩
  | case3 => exact h.elim

/-- Or nothing ends the rows, or it is not at the end. -/
theorem packets_of_not_runsIntoError (hchain : rs = [] ∨ Chained rs) (h : ¬ RunsIntoError rs) :
    (∀ p ∈ packetsOf rs, endsRows p = false) ∨
      ∃ ps qs, packetsOf rs = ps ++ qs ∧ (∃ p ∈ ps, endsRows p = true) ∧ qs ≠ [] := by
  induction rs with
  | nil => exact Or.inl nofun
  | cons r rs ih =>
    have hrest : rs = [] ∨ Chained rs := by
      by_cases hrs : rs = []
      · exact Or.inl hrs
      · exact Or.inr ((hchain.resolve_left (List.cons_ne_nil _ _)).tail hrs).2
    cases r with
    | ok p =>
      rcases ih hrest h with hall | ⟨ps, qs, heq, ⟨q, hq, hend⟩, hqs⟩
      · exact Or.inl (List.forall_mem_cons.mpr ⟨endsRows_okPayload p, hall⟩)
      · exact Or.inr ⟨p.payload :: ps, qs, by rw [packetsOf_cons, heq]; rfl,
          ⟨q, List.mem_cons_of_mem _ hq, hend⟩, hqs⟩
    | err p =>
      by_cases hrs : rs = []
      · exact absurd (hrs ▸ trivial) h
      · exact absurd ((hchain.resolve_left (List.cons_ne_nil _ _)).tail hrs).1 Bool.false_ne_true
    | rows s =>
      refine Or.inr ⟨lenenc s.columns.length :: (s.columns ++ [eofPayload s.warnings s.status]),
        s.rowPackets ++ [s.ending.payload] ++ packetsOf rs, ?_, ⟨eofPayload s.warnings s.status, ?_,
        endsRows_eofPayload _ _⟩, by simp⟩
      · simp only [packetsOf_cons, Result.packets, ResultSet.body, List.append_assoc, List.cons_append,
          List.nil_append]
      · exact List.mem_cons_of_mem _ (List.mem_append_right _ List.mem_cons_self)

end Replies

/-! ## When the reply is read as it is -/

section Reading

variable {s : ResultSet} {rs : List Result}

theorem length_collectRawPackets {k : Nat} {stream buf out left : Bytes}
    (h : collectRawPackets k stream buf = some (out, left)) : buf.length ≤ out.length := by
  induction k generalizing stream buf with
  | zero =>
    obtain ⟨rfl, -⟩ := Prod.mk.inj (Option.some.inj h)
    exact Nat.le_refl _
  | succ k ih =>
    obtain ⟨⟨header, payload, stream'⟩, -, h⟩ := Option.bind_eq_some_iff.mp h
    have hlength := ih h
    simp only [List.length_append] at hlength
    omega

/-- The loop never returns without a packet. -/
theorem length_collectLoop {n : Nat} {stream buf out left : Bytes}
    (h : collectLoop n stream buf = some (out, left)) : buf.length + 4 ≤ out.length := by
  induction n generalizing stream buf with
  | zero => cases h
  | succ n ih =>
    obtain ⟨⟨header, payload, stream'⟩, hread, h⟩ := Option.bind_eq_some_iff.mp h
    have hbuf := length_readRaw buf hread
    have hstop {left' : Bytes} (h : some (buf ++ header ++ payload, left') = some (out, left)) :
        buf.length + 4 ≤ out.length := (Prod.mk.inj (Option.some.inj h)).1 ▸ hbuf
    cases payload with
    | nil => exact hstop h
    | cons first tail =>
      dsimp only at h
      split at h
      · exact hstop h
      split at h
      · split at h
        · exact Nat.le_trans hbuf (Nat.le_trans (Nat.le_add_right _ 4) (ih h))
        · exact hstop h
      · obtain ⟨⟨buf', stream''⟩, hskip, hrows⟩ := Option.bind_eq_some_iff.mp h
        have hskipped := length_collectRawPackets hskip
        have hlength := length_collectRows hrows
        omega

theorem misreads_nil (n : Nat) : Misreads (collectLoop n) [] := by
  intro seq rest buf out left hout
  have hlength := length_collectLoop hout
  rw [wire, List.append_nil]
  omega

/-- One packet too many is skipped. -/
theorem body_of_empty (hrows : s.columns.length = 251 ∧ s.rows = []) {byte : UInt8} (hbyte : byte.toNat = 252) :
    s.body.length = byte.toNat + 1 ∧ ∀ p ∈ s.body, p.length < 2 ^ 24 := by
  have hnone : s.rowPackets = [] := by rw [ResultSet.rowPackets, hrows.2, List.flatMap_nil]
  constructor
  · simp [ResultSet.body, hnone, hrows.1, hbyte]
  · exact fun p hp => (Result.rows s).packets_lt p (List.mem_cons_of_mem _ hp)

/-- An error behind it ends the rows in time. -/
theorem reads_into_error (hrows : s.columns.length = 251 ∧ s.rows = []) (h : RunsIntoError rs) (n : Nat) :
    Reads (collectLoop (n + 1)) (packetsOf (.rows s :: rs)) := by
  obtain ⟨byte, htakes, hbyte⟩ := takes_rows n s
  obtain ⟨hcount, hskip⟩ := body_of_empty hrows (hbyte.trans (by simp [hrows.1]))
  obtain ⟨pre, t, heq, hpre, hend⟩ := h.packets
  have hlt : ∀ p ∈ pre ++ [t], p.length < 2 ^ 24 := heq ▸ packetsOf_lt
  rw [packetsOf_cons, Result.packets, List.cons_append, heq]
  exact htakes.reads (reads_resultSet hskip hcount (fun p hp => hlt p (List.mem_append_left _ hp))
    (hlt t (List.mem_append_right _ List.mem_cons_self)) hpre hend)

theorem misreads_empty (hrows : s.columns.length = 251 ∧ s.rows = []) (hchain : rs = [] ∨ Chained rs)
    (h : ¬ RunsIntoError rs) (n : Nat) : Misreads (collectLoop (n + 1)) (packetsOf (.rows s :: rs)) := by
  obtain ⟨byte, htakes, hbyte⟩ := takes_rows n s
  obtain ⟨hcount, hskip⟩ := body_of_empty hrows (hbyte.trans (by simp [hrows.1]))
  rw [packetsOf_cons, Result.packets, List.cons_append]
  refine htakes.misreads (misreads_resultSet hskip hcount fun k => ?_)
  rcases packets_of_not_runsIntoError hchain h with hall | ⟨ps, qs, heq, hend, hqs⟩
  · exact misreads_without_end packetsOf_lt hall k
  · have hlt : ∀ p ∈ ps ++ qs, p.length < 2 ^ 24 := heq ▸ packetsOf_lt
    rw [heq]
    exact misreads_behind_end (fun p hp => hlt p (List.mem_append_left _ hp)) hend hqs k

theorem reads_of_readable {n : Nat} (hchain : Chained rs) (h : Readable rs) (hn : (packetsOf rs).length ≤ n) :
    Reads (collectLoop n) (packetsOf rs) := by
  induction rs generalizing n with
  | nil => exact h.elim
  | cons r rs ih =>
    obtain ⟨p, ps, hp⟩ := List.exists_cons_of_ne_nil r.packets_ne
    rw [packetsOf_cons, List.length_append, hp, List.length_cons] at hn
    obtain ⟨n, rfl⟩ := Nat.exists_eq_add_one_of_ne_zero (by omega : n ≠ 0)
    cases r with
    | ok p =>
      rw [packetsOf_cons]
      refine (takes_ok n p).reads ?_
      by_cases hrs : rs = []
      · rw [if_neg fun hflag => h.1.mp hflag hrs, hrs]
        exact reads_stop
      · rw [if_pos (h.1.mpr hrs)]
        exact ih (hchain.tail hrs).2 (h.2 hrs) (by omega)
    | err p =>
      have hrs : rs = [] := by
        by_contra hrs
        exact Bool.false_ne_true (hchain.tail hrs).1
      rw [hrs]
      exact (takes_err n p).reads reads_stop
    | rows s =>
      by_cases hrows : s.columns.length = 251 ∧ s.rows = []
      · rw [Readable, if_pos hrows] at h
        exact reads_into_error hrows h n
      · rw [Readable, if_neg hrows] at h
        obtain ⟨rfl, hle, hu⟩ := h
        rw [packetsOf_cons, packetsOf, List.flatMap_nil, List.append_nil]
        exact s.reads hle hrows hu n

theorem misreads_of_not_readable (n : Nat) (hchain : Chained rs) (h : ¬ Readable rs) :
    Misreads (collectLoop n) (packetsOf rs) := by
  induction rs generalizing n with
  | nil => exact misreads_nil n
  | cons r rs ih =>
    cases n with
    | zero => exact fun _ _ _ _ _ hout => nomatch hout
    | succ n =>
      have hrest : rs = [] ∨ Chained rs := by
        by_cases hrs : rs = []
        · exact Or.inl hrs
        · exact Or.inr (hchain.tail hrs).2
      cases r with
      | ok p =>
        rw [packetsOf_cons]
        refine (takes_ok n p).misreads ?_
        by_cases hflag : (okStatusFlags p.payload).any moreResultsExist = true
        · rw [if_pos hflag]
          rcases hrest with rfl | hrest
          · exact misreads_nil n
          · exact ih n hrest fun hreadable => h ⟨iff_of_true hflag (by rintro rfl; exact hrest), fun _ => hreadable⟩
        · rw [if_neg hflag]
          exact misreads_stop (packetsOf_ne fun hrs => h ⟨iff_of_false hflag (not_not_intro hrs),
            fun hne => absurd hrs hne⟩)
      | err p => exact absurd trivial h
      | rows s =>
        by_cases hrows : s.columns.length = 251 ∧ s.rows = []
        · rw [Readable, if_pos hrows] at h
          exact misreads_empty hrows hrest h n
        · rw [Readable, if_neg hrows] at h
          rw [packetsOf_cons]
          by_cases hle : s.columns.length ≤ 252
          · refine s.misreads hle hrows ?_ n
            by_cases hrs : rs = []
            · exact Or.inl fun hu => h ⟨hrs, hle, hu⟩
            · exact Or.inr (packetsOf_ne hrs)
          · exact s.misreads_wide (Nat.lt_of_not_le hle) n

end Reading

/-- `collect_response` returns exactly the bytes of the reply and leaves what follows, for just the replies
its shortcuts are right about. -/
theorem collectResponse_eq_iff (reply : MysqlReply) (seq : UInt8) (rest : Bytes) :
    collectResponse (wire seq (packetsOf reply.1) ++ rest) = some (wire seq (packetsOf reply.1), rest) ↔
      Readable reply.1 := by
  have hn : (packetsOf reply.1).length ≤ (wire seq (packetsOf reply.1) ++ rest).length + 1 := by
    have hlength := length_le_wire seq (packetsOf reply.1)
    rw [List.length_append]
    omega
  constructor
  · intro h
    by_contra hreadable
    exact misreads_of_not_readable _ reply.2 hreadable seq rest [] _ _ h rfl
  · exact fun h => reads_of_readable reply.2 h hn seq rest []

/-- A column, a row. -/
def oneValue (value : UInt8) (status : Nat) : ResultSet where
  columns := [[0x03, 0x64, 0x65, 0x66]]
  columns_ne := List.cons_ne_nil _ _
  columns_fit := by decide
  warnings := 0
  status := status
  rows := [⟨.text (some [value]) [], [], [0x01, value], nofun, by simp [OnePacket], rfl⟩]
  ending := .eof 0 status

/-- Two statements in one command. -/
def twoSelects : MysqlReply := ⟨[.rows (oneValue 0x31 0x000A), .rows (oneValue 0x32 0x0002)], rfl, rfl⟩

/-- The second result is left in the stream: the next command gets it as its reply. -/
theorem second_result_left :
    collectResponse (wire 1 (packetsOf twoSelects.1)) ≠ some (wire 1 (packetsOf twoSelects.1), []) ∧
      (collectResponse (wire 1 (packetsOf twoSelects.1))).map Prod.snd =
        some (wire 6 (packetsOf [.rows (oneValue 0x32 0x0002)])) := by
  decide +kernel

end TurbineProxy
