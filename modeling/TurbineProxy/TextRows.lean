import TurbineProxy.GroupReplication
import TurbineProxy.SessionTrack

/-!
# The rows of a text result set

`parse_text_rows` of `group_replication.rs` once more, with the positions it keeps: every access and every sum may be a
fault here, and the loop over the rows has to end. On any bytes it computes what `parseTextRows` does
(`runs_parseTextRowsAt`), and from the bytes of a table it reads the table (`parseTextRows_encode`), unless the number
of columns takes the encoding with eight bytes, which the reader does not know.
-/

namespace TurbineProxy

/-! ## With positions -/

/-- The operator `?` on an `Option`. -/
def orNone {α β : Type} (x : Except TrackFault (Option α)) (f : α → Except TrackFault (Option β)) :
    Except TrackFault (Option β) := do
  match ← x with
  | none => .ok none
  | some a => f a

/-- `next_packet` -/
def nextPacketAt (bytes : Bytes) (pos : Nat) : Except TrackFault (Option (Bytes × Nat)) := do
  if bytes.length < (← addUsize pos 4) then .ok none
  else
    let b₀ ← indexOf bytes pos
    let b₁ ← indexOf bytes (← addUsize pos 1)
    let b₂ ← indexOf bytes (← addUsize pos 2)
    let pos ← addUsize pos 4
    let stop ← addUsize pos (u24Le [b₀, b₁, b₂])
    if bytes.length < stop then .ok none else .ok (some (← sliceOf bytes pos stop, stop))

/-- `read_lenenc_int` -/
def readLenencIntAt (bytes : Bytes) (pos : Nat) : Except TrackFault (Option (Nat × Nat)) :=
  match bytes[pos]? with
  | none => .ok none
  | some b => do
    let pos ← addUsize pos 1
    if b ≤ 250 then .ok (some (b.toNat, pos))
    else if b = 0xFC then
      match bytes[pos]?, bytes[← addUsize pos 1]? with
      | some lo, some hi => .ok (some (lo.toNat + 2 ^ 8 * hi.toNat, ← addUsize pos 2))
      | _, _ => .ok none
    else if b = 0xFD then
      match bytes[pos]?, bytes[← addUsize pos 1]?, bytes[← addUsize pos 2]? with
      | some b₀, some b₁, some b₂ =>
        .ok (some (b₀.toNat + 2 ^ 8 * b₁.toNat + 2 ^ 16 * b₂.toNat, ← addUsize pos 3))
      | _, _, _ => .ok none
    else .ok none

/-- `read_lenenc_str` -/
def readLenencStrAt (bytes : Bytes) (pos : Nat) : Except TrackFault (Option (Option Bytes × Nat)) :=
  match bytes[pos]? with
  | none => .ok none
  | some b =>
    if b = 0xFB then do .ok (some (none, ← addUsize pos 1))
    else
      orNone (readLenencIntAt bytes pos) fun (len, pos) => do
        let stop ← addUsize pos len
        -- `bytes.get(..)`, not an index
        if bytes.length < stop then .ok none else .ok (some (some (← sliceOf bytes pos stop), stop))

/-- The loop over the cells of a row. -/
def readFieldsAt (pkt : Bytes) : Nat → Nat → Except TrackFault (Option (List (Option Str)))
  | 0, _ => .ok (some [])
  | k + 1, pos =>
    orNone (readLenencStrAt pkt pos) fun (field, pos) =>
      orNone (readFieldsAt pkt k pos) fun fields => .ok (some (field.map fromUtf8Lossy :: fields))

/-- The loop over the rows, of so many rounds. -/
def readRowsAt (bytes : Bytes) (colCount : Nat) : Nat → Nat → Except TrackFault (Option (List (List (Option Str))))
  | 0, _ => .error .endless
  | n + 1, pos =>
    orNone (nextPacketAt bytes pos) fun (pkt, pos) =>
      if pkt.head? = some 0xFE ∨ pkt.head? = some 0xFF then .ok (some [])
      else
        orNone (readFieldsAt pkt colCount 0) fun row =>
          orNone (readRowsAt bytes colCount n pos) fun rows => .ok (some (row :: rows))

/-- The loop over the column definitions. -/
def skipPacketsAt (bytes : Bytes) : Nat → Nat → Except TrackFault (Option Nat)
  | 0, pos => .ok (some pos)
  | k + 1, pos => orNone (nextPacketAt bytes pos) fun (_, pos) => skipPacketsAt bytes k pos

/-- `parse_text_rows` -/
def parseTextRowsAt (bytes : Bytes) : Except TrackFault (Option (List (List (Option Str)))) :=
  orNone (nextPacketAt bytes 0) fun (colCountPkt, pos) =>
    orNone (readLenencIntAt colCountPkt 0) fun (colCount, _) =>
      if colCount = 0 then .ok (some [])
      else
        orNone (skipPacketsAt bytes colCount pos) fun pos =>
          orNone (nextPacketAt bytes pos) fun (_, pos) => readRowsAt bytes colCount (bytes.length + 1) pos

/-! ## Nothing is out of range -/

/-- What was read, with the position behind it in the place of what is left. -/
inductive StandsAt (bytes : Bytes) {α : Type} : Option (α × Bytes) → Option (α × Nat) → Prop where
  | none : StandsAt bytes none none
  | some {a : α} {pos : Nat} (h : pos ≤ bytes.length) : StandsAt bytes (some (a, bytes.drop pos)) (some (a, pos))

section StandsAt

variable {α β : Type} {bytes pkt : Bytes} {n m k pos : Nat}

theorem StandsAt.of_drop {a : α} {rest : Bytes} (h : bytes.drop pos = rest) (hle : pos ≤ bytes.length) :
    StandsAt bytes (Option.some (a, rest)) (Option.some (a, pos)) := h ▸ .some hle

theorem Runs.orNone {x : Except TrackFault (Option (α × Nat))} {f : α × Nat → Except TrackFault (Option β)}
    {o : Option (α × Bytes)} {Q : Option β → Prop} (h : Runs x (StandsAt bytes o)) (hnone : o = none → Q none)
    (hsome : ∀ a q, q ≤ bytes.length → o = some (a, bytes.drop q) → Runs (f (a, q)) Q) : Runs (orNone x f) Q := by
  obtain ⟨r, rfl, hr⟩ := h
  cases hr with
  | none => exact runs_ok (hnone rfl)
  | some hle => exact hsome _ _ hle rfl

/-- The bytes that a packet begins with. -/
theorem nextPacket_cons (a b c d : UInt8) (rest : Bytes) : nextPacket (a :: b :: c :: d :: rest) =
    if rest.length < u24Le [a, b, c] then none
    else some (rest.take (u24Le [a, b, c]), rest.drop (u24Le [a, b, c])) := by
  have hheader : readExact 4 (a :: b :: c :: d :: rest) = some ([a, b, c, d], rest) := if_pos (by simp)
  have hsize : u24Le [a, b, c, d] = u24Le [a, b, c] := rfl
  rw [nextPacket, readRaw, hheader]
  dsimp only [Option.bind_eq_bind, Option.bind_some]
  rw [hsize, readExact]
  by_cases hshort : rest.length < u24Le [a, b, c]
  · rw [if_pos hshort, if_neg (Nat.not_le.mpr hshort)]
    rfl
  · rw [if_neg hshort, if_pos (Nat.not_lt.mp hshort)]
    rfl

theorem nextPacket_short (h : bytes.length < 4) : nextPacket bytes = none := by
  rw [nextPacket, readRaw, readExact, if_neg (Nat.not_le.mpr h)]
  rfl

/-- A packet is behind its header. -/
theorem runs_nextPacketAt (hlen : bytes.length < 2 ^ 63) (hpos : pos ≤ bytes.length) :
    Runs (nextPacketAt bytes pos) fun r =>
      StandsAt bytes (nextPacket (bytes.drop pos)) r ∧ ∀ p q, r = some (p, q) → pos + 4 ≤ q := by
  refine (runs_addUsize (by omega)).bind fun four hfour => ?_
  subst hfour
  by_cases hshort : bytes.length < pos + 4
  · rw [if_pos hshort, nextPacket_short (by rw [List.length_drop]; omega)]
    exact runs_ok ⟨.none, nofun⟩
  rw [if_neg hshort]
  obtain ⟨a, b, c, d, rest, hdrop⟩ : ∃ a b c d rest, bytes.drop pos = a :: b :: c :: d :: rest := by
    have hlength : 4 ≤ (bytes.drop pos).length := by
      rw [List.length_drop]
      omega
    match bytes.drop pos, hlength with
    | a :: b :: c :: d :: rest, _ => exact ⟨a, b, c, d, rest, rfl⟩
  have hget : ∀ i, bytes[pos + i]? = (a :: b :: c :: d :: rest)[i]? := fun i => by
    rw [← hdrop, List.getElem?_drop]
  have hrest : rest = bytes.drop (pos + 4) := by
    rw [← List.drop_drop, hdrop]
    rfl
  refine (runs_indexOf (by omega)).bind fun b₀ h₀ => ?_
  obtain rfl : a = b₀ := Option.some.inj ((hget 0).symm.trans h₀)
  refine (runs_addUsize (by omega)).bind fun one hone => ?_
  subst hone
  refine (runs_indexOf (by omega)).bind fun b₁ h₁ => ?_
  obtain rfl : b = b₁ := Option.some.inj ((hget 1).symm.trans h₁)
  refine (runs_addUsize (by omega)).bind fun two htwo => ?_
  subst htwo
  refine (runs_indexOf (by omega)).bind fun b₂ h₂ => ?_
  obtain rfl : c = b₂ := Option.some.inj ((hget 2).symm.trans h₂)
  refine (runs_addUsize (by omega)).bind fun four hfour => ?_
  subst hfour
  have hsize := u24Le_lt [a, b, c]
  refine (runs_addUsize (by omega)).bind fun stop hstop => ?_
  subst hstop
  have hlength : rest.length = bytes.length - (pos + 4) := by rw [hrest, List.length_drop]
  rw [hdrop, nextPacket_cons]
  by_cases hcut : bytes.length < pos + 4 + u24Le [a, b, c]
  · rw [if_pos hcut, if_pos (by omega)]
    exact runs_ok ⟨.none, nofun⟩
  rw [if_neg hcut, if_neg (by omega)]
  refine (runs_sliceOf (Nat.le_add_right _ _) (by omega)).bind fun payload hpayload => runs_ok ⟨?_, ?_⟩
  · have hleft : rest.drop (u24Le [a, b, c]) = bytes.drop (pos + 4 + u24Le [a, b, c]) := by
      rw [hrest, List.drop_drop]
    have hpay : rest.take (u24Le [a, b, c]) = payload := by rw [hpayload, hrest, Nat.add_sub_cancel_left]
    rw [hleft, hpay]
    exact .some (by omega)
  · intro p q hpq
    cases hpq
    exact Nat.le_add_right _ _

/-- What stands at the positions from here on. -/
theorem getElem?_of_drop {l : Bytes} (h : bytes.drop pos = l) (i : Nat) : bytes[pos + i]? = l[i]? := by
  rw [← h, List.getElem?_drop]

theorem drop_of_drop {l : Bytes} (h : bytes.drop pos = l) (i : Nat) : bytes.drop (pos + i) = l.drop i := by
  rw [← h, List.drop_drop]

theorem length_of_drop {l : Bytes} (h : bytes.drop pos = l) (hne : l ≠ []) : bytes.length = pos + l.length := by
  have hlt : pos < bytes.length := Nat.not_le.mp fun hle => hne (h ▸ List.drop_eq_nil_of_le hle)
  have hlength := congrArg List.length h
  rw [List.length_drop] at hlength
  omega

theorem runs_readLenencIntAt (hlen : bytes.length < 2 ^ 63) (pos : Nat) :
    Runs (readLenencIntAt bytes pos) (StandsAt bytes (readLenencInt (bytes.drop pos))) := by
  cases hdrop : bytes.drop pos with
  | nil =>
    have hget := getElem?_of_drop hdrop 0
    rw [Nat.add_zero] at hget
    rw [readLenencIntAt, hget]
    exact runs_ok .none
  | cons b rest =>
    have hlength := length_of_drop hdrop (List.cons_ne_nil b rest)
    rw [List.length_cons] at hlength
    have hget := getElem?_of_drop hdrop
    have hleft := drop_of_drop hdrop
    have hb : bytes[pos]? = some b := hget 0
    rw [readLenencIntAt, hb]
    dsimp only
    refine (runs_addUsize (by omega)).bind fun pos₁ hpos₁ => ?_
    subst hpos₁
    rw [readLenencInt.eq_def]
    dsimp only
    by_cases h₁ : b ≤ 250
    · rw [if_pos h₁, if_pos h₁]
      exact runs_ok (.of_drop (hleft 1) (by omega))
    rw [if_neg h₁, if_neg h₁]
    by_cases h₂ : b = 0xFC
    · rw [if_pos h₂, if_pos h₂]
      refine (runs_addUsize (by omega)).bind fun pos₂ hpos₂ => ?_
      subst hpos₂
      rw [hget 1, hget 2]
      match rest, hlength, hleft with
      | [], _, _ => exact runs_ok .none
      | [_], _, _ => exact runs_ok .none
      | lo :: hi :: rest, hlength, hleft =>
        rw [List.length_cons, List.length_cons] at hlength
        refine (runs_addUsize (by omega)).bind fun pos₃ hpos₃ => ?_
        subst hpos₃
        exact runs_ok (.of_drop (hleft 3) (by omega))
    rw [if_neg h₂, if_neg h₂]
    by_cases h₃ : b = 0xFD
    · rw [if_pos h₃, if_pos h₃]
      refine (runs_addUsize (by omega)).bind fun pos₂ hpos₂ => ?_
      subst hpos₂
      refine (runs_addUsize (by omega)).bind fun pos₃ hpos₃ => ?_
      subst hpos₃
      rw [hget 1, hget 2, hget 3]
      match rest, hlength, hleft with
      | [], _, _ => exact runs_ok .none
      | [_], _, _ => exact runs_ok .none
      | [_, _], _, _ => exact runs_ok .none
      | b₀ :: b₁ :: b₂ :: rest, hlength, hleft =>
        rw [List.length_cons, List.length_cons, List.length_cons] at hlength
        refine (runs_addUsize (by omega)).bind fun pos₄ hpos₄ => ?_
        subst hpos₄
        exact runs_ok (.of_drop (hleft 4) (by omega))
    · rw [if_neg h₃, if_neg h₃]
      exact runs_ok .none

/-- What is read has three bytes for its length at most. -/
theorem readLenencInt_lt {v : Nat} {rest : Bytes} (h : readLenencInt bytes = some (v, rest)) : v < 2 ^ 24 := by
  rw [readLenencInt.eq_def] at h
  split at h
  · cases h
  · rename_i b tail
    have hb := b.toNat_lt
    split at h
    · cases h
      omega
    split at h
    · split at h
      · rename_i lo hi _
        have hlo := lo.toNat_lt
        have hhi := hi.toNat_lt
        cases h
        omega
      · cases h
    split at h
    · split at h
      · rename_i b₀ b₁ b₂ _
        have h₀ := b₀.toNat_lt
        have h₁ := b₁.toNat_lt
        have h₂ := b₂.toNat_lt
        cases h
        omega
      · cases h
    · cases h

theorem runs_readLenencStrAt (hlen : bytes.length < 2 ^ 63) (pos : Nat) :
    Runs (readLenencStrAt bytes pos) (StandsAt bytes (readLenencStr (bytes.drop pos))) := by
  have hget := getElem?_of_drop (rfl : bytes.drop pos = bytes.drop pos) 0
  rw [Nat.add_zero, ← List.head?_eq_getElem?] at hget
  rw [readLenencStrAt, readLenencStr, hget]
  cases hhead : (bytes.drop pos).head? with
  | none => exact runs_ok .none
  | some b =>
    have hlength := length_of_drop (rfl : bytes.drop pos = bytes.drop pos)
      (List.ne_nil_of_mem (List.mem_of_head? hhead))
    have hpos : 0 < (bytes.drop pos).length := List.length_pos_of_mem (List.mem_of_head? hhead)
    dsimp only [Option.bind_eq_bind, Option.bind_some]
    by_cases hnull : b = 0xFB
    · rw [if_pos hnull, if_pos hnull]
      refine (runs_addUsize (by omega)).bind fun pos₁ hpos₁ => ?_
      subst hpos₁
      rw [← List.drop_one, List.drop_drop]
      exact runs_ok (.some (by omega))
    rw [if_neg hnull, if_neg hnull]
    refine (runs_readLenencIntAt hlen pos).orNone (fun h => ?_) fun len q hq h => ?_
    · rw [h]
      exact .none
    · have hshort := readLenencInt_lt h
      rw [h]
      dsimp only [Option.bind_some]
      refine (runs_addUsize (by omega)).bind fun stop hstop => ?_
      subst hstop
      rw [readExact, List.length_drop]
      by_cases hcut : bytes.length < q + len
      · rw [if_pos hcut, if_neg (by omega)]
        exact runs_ok .none
      rw [if_neg hcut, if_pos (by omega)]
      refine (runs_sliceOf (Nat.le_add_right q len) (by omega)).bind fun value hvalue => runs_ok ?_
      rw [hvalue, Nat.add_sub_cancel_left]
      exact .of_drop List.drop_drop.symm (by omega)

/-- The fields of a packet. -/
theorem runs_readFieldsAt (hlen : pkt.length < 2 ^ 63) (k pos : Nat) :
    Runs (readFieldsAt pkt k pos) (· = readFields k (pkt.drop pos)) := by
  induction k generalizing pos with
  | zero => exact runs_ok rfl
  | succ k ih =>
    rw [readFieldsAt, readFields]
    refine (runs_readLenencStrAt hlen pos).orNone (fun h => ?_) fun field q _ h => ?_
    · rw [h]
      rfl
    · rw [h]
      refine (ih q).bind fun fields hfields => ?_
      subst hfields
      dsimp only [Option.bind_eq_bind, Option.bind_some]
      cases readFields k (pkt.drop q) with
      | none => exact runs_ok rfl
      | some fields => exact runs_ok rfl

/-- A packet that was read is not longer than the bytes. -/
theorem nextPacket_length {p rest : Bytes} (h : nextPacket bytes = some (p, rest)) :
    p.length < 2 ^ 24 ∧ rest.length + 4 ≤ bytes.length := by
  match bytes, h with
  | a :: b :: c :: d :: tail, h =>
    rw [nextPacket_cons] at h
    split at h
    · cases h
    · cases h
      have hsize := u24Le_lt [a, b, c]
      rw [List.length_take, List.length_drop]
      exact ⟨by omega, by simp⟩
  | [], h => cases h
  | [_], h => cases h
  | [_, _], h => cases h
  | [_, _, _], h => cases h

/-- The rows: every round takes a header at least. -/
theorem runs_readRowsAt (hlen : bytes.length < 2 ^ 63) (colCount : Nat) (hpos : pos ≤ bytes.length)
    (hn : bytes.length - pos < n) (hm : bytes.length - pos < m) :
    Runs (readRowsAt bytes colCount n pos) (· = readRows m colCount (bytes.drop pos)) := by
  induction n generalizing m pos with
  | zero => exact absurd hn (Nat.not_lt_zero _)
  | succ n ih =>
    obtain ⟨m, rfl⟩ : ∃ k, m = k + 1 := ⟨m - 1, by omega⟩
    rw [readRowsAt, readRows]
    refine ((runs_nextPacketAt hlen hpos).imp fun _ h => h.1).orNone (fun h => ?_) fun p q hq h => ?_
    · rw [h]
      rfl
    · have hlengths := nextPacket_length h
      rw [List.length_drop, List.length_drop] at hlengths
      rw [h]
      dsimp only [Option.bind_eq_bind, Option.bind_some]
      by_cases hend : p.head? = some 0xFE ∨ p.head? = some 0xFF
      · rw [if_pos hend, if_pos hend]
        exact runs_ok rfl
      rw [if_neg hend, if_neg hend]
      refine (runs_readFieldsAt (Nat.lt_trans hlengths.1 (by decide)) colCount 0).bind fun row hrow => ?_
      rw [List.drop_zero] at hrow
      subst hrow
      cases readFields colCount p with
      | none => exact runs_ok rfl
      | some row =>
        refine (ih hq (m := m) (by omega) (by omega)).bind fun rows hrows => ?_
        subst hrows
        dsimp only [Option.bind_some]
        cases readRows m colCount (bytes.drop q) with
        | none => exact runs_ok rfl
        | some rows => exact runs_ok rfl

theorem runs_skipPacketsAt (hlen : bytes.length < 2 ^ 63) (k : Nat) (hpos : pos ≤ bytes.length) :
    Runs (skipPacketsAt bytes k pos) fun r =>
      StandsAt bytes ((skipPackets k (bytes.drop pos)).map fun rest => ((), rest)) (r.map fun q => ((), q)) := by
  induction k generalizing pos with
  | zero => exact runs_ok (.some hpos)
  | succ k ih =>
    rw [skipPacketsAt, skipPackets]
    refine ((runs_nextPacketAt hlen hpos).imp fun _ h => h.1).orNone (fun h => ?_) fun p q hq h => ?_
    · rw [h]
      exact .none
    · rw [h]
      exact ih hq

/-- On any bytes nothing is out of range, and the loops end. -/
theorem runs_parseTextRowsAt (hlen : bytes.length < 2 ^ 63) :
    Runs (parseTextRowsAt bytes) (· = parseTextRows bytes) := by
  rw [parseTextRowsAt, parseTextRows]
  refine ((runs_nextPacketAt hlen (Nat.zero_le _)).imp fun _ h => h.1).orNone (fun h => ?_) fun p q hq h => ?_
  · rw [List.drop_zero] at h
    rw [h]
    rfl
  rw [List.drop_zero] at h
  rw [h]
  dsimp only [Option.bind_eq_bind, Option.bind_some]
  refine (runs_readLenencIntAt (Nat.lt_trans (nextPacket_length h).1 (by decide)) 0).orNone (fun h => ?_)
    fun colCount r _ h => ?_
  · rw [List.drop_zero] at h
    rw [h]
    rfl
  rw [List.drop_zero] at h
  rw [h]
  dsimp only [Option.bind_some]
  by_cases hzero : colCount = 0
  · rw [if_pos hzero, if_pos hzero]
    exact runs_ok rfl
  rw [if_neg hzero, if_neg hzero]
  obtain ⟨skipped, hskipped, hbehind⟩ := runs_skipPacketsAt hlen colCount hq
  rw [hskipped]
  cases hskip : skipPackets colCount (bytes.drop q) with
  | none =>
    rw [hskip] at hbehind
    cases skipped with
    | none => exact runs_ok rfl
    | some q' => cases hbehind
  | some rest =>
    rw [hskip] at hbehind
    cases skipped with
    | none => cases hbehind
    | some q' =>
      cases hbehind with
      | some hq' =>
        refine ((runs_nextPacketAt hlen hq').imp fun _ h => h.1).orNone (fun h => ?_) fun p r hr h => ?_
        · rw [Option.bind_some, h]
          rfl
        · rw [Option.bind_some, h]
          refine runs_readRowsAt hlen colCount hr (by omega) ?_
          rw [List.length_drop]
          exact Nat.lt_succ_self _

end StandsAt

/-! ## The bytes of a table -/

/-- The payload of a row. -/
def textRow (row : List (Option Str)) : Bytes := row.flatMap fun cell => cellBytes (cell.map toUtf8)

/-- A table, as a server sends it. -/
structure TextTable where
  /-- the column definitions -/
  columns : List Bytes
  rows : List (List (Option Str))
  /-- of the EOF packets -/
  warnings : Nat
  status : Nat
  endWarnings : Nat
  endStatus : Nat
  columns_ne : columns ≠ []
  columns_fit : ∀ c ∈ columns, OnePacket c
  length_row : ∀ row ∈ rows, row.length = columns.length
  rows_fit : ∀ row ∈ rows, OnePacket (textRow row)

namespace TextTable

/-- The packets. -/
def packets (t : TextTable) : List Bytes :=
  lenenc t.columns.length :: (t.columns ++ eofPayload t.warnings t.status ::
    (t.rows.map textRow ++ [eofPayload t.endWarnings t.endStatus]))

/-- The bytes, with sequence ids from here on. -/
def encode (seq : UInt8) (t : TextTable) : Bytes := wire seq t.packets

end TextTable

section Encoding

variable {p : Bytes} {ps : List Bytes} {rest : Bytes} {n : Nat}

theorem nextPacket_wire (h : p.length < 2 ^ 24) (seq : UInt8) (ps : List Bytes) (rest : Bytes) :
    nextPacket (wire seq (p :: ps) ++ rest) = some (p, wire (seq + 1) ps ++ rest) := by
  obtain ⟨header, hread, -⟩ := readRaw_wire h seq ps rest
  rw [nextPacket, hread]
  rfl

theorem readLenencInt_lenenc (h : n < 2 ^ 24) (rest : Bytes) : readLenencInt (lenenc n ++ rest) = some (n, rest) := by
  rw [(decoded_lenenc h rest).readLenencInt, List.drop_left]

/-- No cell that fits a packet begins like the end of the rows. -/
theorem head_lenenc (h : n < 2 ^ 24) (rest : Bytes) : ∃ b tail, lenenc n ++ rest = b :: tail ∧ b ≤ 0xFD ∧ b ≠ 0xFB := by
  rw [lenenc]
  split
  · rename_i h₁
    refine ⟨UInt8.ofNat n, rest, rfl, ?_, ?_⟩
    · rw [UInt8.le_iff_toNat_le, UInt8.toNat_ofNat']
      change n % 2 ^ 8 ≤ 253
      omega
    · intro heq
      have hnat := congrArg UInt8.toNat heq
      rw [UInt8.toNat_ofNat'] at hnat
      change n % 2 ^ 8 = 251 at hnat
      omega
  split
  · exact ⟨_, _, rfl, by decide, by decide⟩
  · exact ⟨_, _, rfl, by decide, by decide⟩

/-- NULL and the values are told apart, the empty text included. -/
theorem readLenencStr_cellBytes {cell : Option Bytes} (h : (cellBytes cell).length < 2 ^ 24) (rest : Bytes) :
    readLenencStr (cellBytes cell ++ rest) = some (cell, rest) := by
  cases cell with
  | none => rfl
  | some value =>
    have hvalue : value.length < 2 ^ 24 := by
      rw [cellBytes, List.length_append] at h
      omega
    obtain ⟨b, tail, hhead, -, hnull⟩ := head_lenenc hvalue (value ++ rest)
    have hfirst : (lenenc value.length ++ (value ++ rest)).head? = some b := by rw [hhead]; rfl
    rw [cellBytes, List.append_assoc, readLenencStr, hfirst]
    dsimp only [Option.bind_eq_bind, Option.bind_some]
    rw [if_neg hnull, readLenencInt_lenenc hvalue, Option.bind_some, readExact_append]
    rfl

theorem textRow_cons (cell : Option Str) (row : List (Option Str)) :
    textRow (cell :: row) = cellBytes (cell.map toUtf8) ++ textRow row := List.flatMap_cons

theorem readFields_textRow {row : List (Option Str)} (h : OnePacket (textRow row)) :
    readFields row.length (textRow row) = some row := by
  induction row with
  | nil => rfl
  | cons cell row ih =>
    rw [textRow_cons] at h ⊢
    have hlength : (cellBytes (cell.map toUtf8) ++ textRow row).length < 0xFFFFFF := h
    rw [List.length_append] at hlength
    have htail : OnePacket (textRow row) := Nat.lt_of_le_of_lt (Nat.le_add_left _ _) hlength
    have hcell : (cell.map toUtf8).map fromUtf8Lossy = cell := by
      cases cell with
      | none => rfl
      | some s => exact congrArg some (fromUtf8Lossy_toUtf8 s)
    rw [List.length_cons, readFields, readLenencStr_cellBytes (by omega)]
    dsimp only [Option.bind_eq_bind, Option.bind_some]
    rw [ih htail, Option.bind_some, hcell]

/-- A row does not begin like the end of the rows. -/
theorem head_textRow {row : List (Option Str)} (hne : row ≠ []) (h : OnePacket (textRow row)) :
    ¬((textRow row).head? = some 0xFE ∨ (textRow row).head? = some 0xFF) := by
  obtain ⟨cell, row, rfl⟩ := List.exists_cons_of_ne_nil hne
  have hfirst : ∃ b tail, textRow (cell :: row) = b :: tail ∧ b ≤ 0xFD := by
    rw [textRow_cons] at h ⊢
    cases cell with
    | none => exact ⟨0xFB, textRow row, rfl, by decide⟩
    | some s =>
      have hlength : (cellBytes (some (toUtf8 s)) ++ textRow row).length < 0xFFFFFF := h
      rw [cellBytes, List.append_assoc, List.length_append, List.length_append] at hlength
      obtain ⟨b, tail, hhead, hle, -⟩ := head_lenenc (n := (toUtf8 s).length) (by omega) (toUtf8 s ++ textRow row)
      exact ⟨b, tail, by rw [Option.map_some, cellBytes, List.append_assoc]; exact hhead, hle⟩
  obtain ⟨b, tail, heq, hle⟩ := hfirst
  rw [heq]
  rintro (hb | hb) <;> cases hb <;> exact absurd hle (by decide)

theorem skipPackets_wire (h : ∀ p ∈ ps, p.length < 2 ^ 24) (seq : UInt8) (qs : List Bytes) (rest : Bytes) :
    ∃ seq', skipPackets ps.length (wire seq (ps ++ qs) ++ rest) = some (wire seq' qs ++ rest) := by
  induction ps generalizing seq with
  | nil => exact ⟨seq, rfl⟩
  | cons p ps ih =>
    obtain ⟨seq', hskip⟩ := ih (fun q hq => h q (.tail _ hq)) (seq + 1)
    refine ⟨seq', ?_⟩
    rw [List.length_cons, skipPackets, List.cons_append, nextPacket_wire (h p (.head _))]
    exact hskip

theorem readRows_wire {rows : List (List (Option Str))} {colCount : Nat} (hpos : 0 < colCount)
    (hlength : ∀ row ∈ rows, row.length = colCount) (hfit : ∀ row ∈ rows, OnePacket (textRow row)) {n : Nat}
    (hn : rows.length < n) (seq : UInt8) (warnings status : Nat) (rest : Bytes) :
    readRows n colCount (wire seq (rows.map textRow ++ [eofPayload warnings status]) ++ rest) = some rows := by
  induction rows generalizing n seq with
  | nil =>
    obtain ⟨n, rfl⟩ : ∃ k, n = k + 1 := ⟨n - 1, by omega⟩
    have heof : (eofPayload warnings status).length < 2 ^ 24 := by
      rw [eofPayload, List.length_cons, List.length_append, length_leBytes, length_leBytes]
      decide
    rw [List.map_nil, List.nil_append, readRows, nextPacket_wire heof]
    rfl
  | cons row rows ih =>
    obtain ⟨n, rfl⟩ : ∃ k, n = k + 1 := ⟨n - 1, by rw [List.length_cons] at hn; omega⟩
    have hrow := hfit row (.head _)
    have hne : row ≠ [] := fun hnil => by
      have hcount := hlength row (.head _)
      rw [hnil] at hcount
      exact absurd hcount (Nat.ne_of_lt hpos)
    rw [List.map_cons, List.cons_append, readRows, nextPacket_wire hrow.lt]
    dsimp only [Option.bind_eq_bind, Option.bind_some]
    have hfields : readFields colCount (textRow row) = some row :=
      hlength row (.head _) ▸ readFields_textRow hrow
    rw [if_neg (head_textRow hne hrow), hfields, Option.bind_some,
      ih (fun r hr => hlength r (.tail _ hr)) (fun r hr => hfit r (.tail _ hr)) (Nat.lt_of_succ_lt_succ hn)]
    rfl

end Encoding

namespace TextTable

variable (t : TextTable) (seq : UInt8)

theorem length_count (n : Nat) : (lenenc n).length < 2 ^ 24 := by
  have hone : ([UInt8.ofNat n] : Bytes).length = 1 := rfl
  unfold lenenc
  split
  · rw [hone]
    decide
  split
  · rw [List.length_cons, length_leBytes]
    decide
  split <;> rw [List.length_cons, length_leBytes] <;> decide

theorem parseTextRows_encode (h : t.columns.length < 2 ^ 24) : parseTextRows (t.encode seq) = some t.rows := by
  have hpos : 0 < t.columns.length := List.length_pos_iff.mpr t.columns_ne
  obtain ⟨seq', hskip⟩ := skipPackets_wire (fun c hc => (t.columns_fit c hc).lt) (seq + 1)
    (eofPayload t.warnings t.status :: (t.rows.map textRow ++ [eofPayload t.endWarnings t.endStatus])) []
  have hcount := nextPacket_wire (length_count t.columns.length) seq (t.columns ++ eofPayload t.warnings t.status ::
    (t.rows.map textRow ++ [eofPayload t.endWarnings t.endStatus])) []
  have heof : (eofPayload t.warnings t.status).length < 2 ^ 24 := by
    rw [eofPayload, List.length_cons, List.length_append, length_leBytes, length_leBytes]
    decide
  have hread := readLenencInt_lenenc h []
  have hmiddle := nextPacket_wire heof seq' (t.rows.map textRow ++ [eofPayload t.endWarnings t.endStatus]) []
  rw [List.append_nil] at hcount hskip hread hmiddle
  rw [encode, packets, parseTextRows, hcount]
  dsimp only [Option.bind_eq_bind, Option.bind_some]
  rw [hread, Option.bind_some]
  dsimp only
  rw [if_neg hpos.ne', List.append_nil, hskip, Option.bind_some, List.append_nil, hmiddle, Option.bind_some]
  refine readRows_wire hpos t.length_row t.rows_fit ?_ (seq' + 1) t.endWarnings t.endStatus []
  have hlength := length_le_wire (seq' + 1) (t.rows.map textRow ++ [eofPayload t.endWarnings t.endStatus])
  rw [List.length_append, List.length_map, List.length_singleton] at hlength
  rw [List.append_nil]
  exact Nat.lt_succ_of_lt hlength

/-- A count of columns that takes eight bytes is not read. -/
theorem parseTextRows_wide (h : ¬t.columns.length < 2 ^ 24) : parseTextRows (t.encode seq) = none := by
  have hcount := nextPacket_wire (length_count t.columns.length) seq (t.columns ++ eofPayload t.warnings t.status ::
    (t.rows.map textRow ++ [eofPayload t.endWarnings t.endStatus])) []
  have hlenenc : lenenc t.columns.length = 0xFE :: leBytes 8 t.columns.length := by
    rw [lenenc, if_neg (by omega), if_neg (by omega), if_neg h]
  have hread : readLenencInt (lenenc t.columns.length) = none := by
    rw [hlenenc]
    rfl
  rw [List.append_nil] at hcount
  rw [encode, packets, parseTextRows, hcount]
  dsimp only [Option.bind_eq_bind, Option.bind_some]
  rw [hread]
  rfl

/-- **Exactly the tables with fewer than `2 ^ 24` columns** are read back; and on any bytes the positions stay in range
and the loops end. -/
theorem parseTextRows_iff :
    (∀ (t : TextTable) (seq : UInt8), parseTextRows (t.encode seq) = some t.rows ↔ t.columns.length < 2 ^ 24) ∧
      ∀ bytes : Slice, parseTextRowsAt bytes.1 = .ok (parseTextRows bytes.1) := by
  refine ⟨fun t seq => ⟨fun h => ?_, t.parseTextRows_encode seq⟩, fun bytes => ?_⟩
  · by_contra hwide
    rw [t.parseTextRows_wide seq hwide] at h
    cases h
  · obtain ⟨r, hr, rfl⟩ := runs_parseTextRowsAt bytes.2
    exact hr

/-- So many columns without a name, and no rows. -/
def wide : TextTable where
  columns := List.replicate (2 ^ 24) []
  rows := []
  warnings := 0
  status := 0
  endWarnings := 0
  endStatus := 0
  columns_ne := List.ne_nil_of_length_pos (by rw [List.length_replicate]; decide)
  columns_fit c hc := by
    rw [List.eq_of_mem_replicate hc]
    decide
  length_row _ h := absurd h List.not_mem_nil
  rows_fit _ h := absurd h List.not_mem_nil

/-- An empty table with `2 ^ 24` columns is not read. -/
theorem parseTextRows_wide_ne : ¬ ∀ (t : TextTable) (seq : UInt8), parseTextRows (t.encode seq) = some t.rows := by
  intro h
  have hwide : ¬wide.columns.length < 2 ^ 24 := by
    rw [wide, List.length_replicate]
    exact Nat.lt_irrefl _
  have hnone := wide.parseTextRows_wide 1 hwide
  rw [h wide 1] at hnone
  cases hnone

end TextTable

end TurbineProxy
