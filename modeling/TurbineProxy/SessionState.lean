import Mathlib.Data.Nat.Bitwise
import TurbineProxy.SessionTrack

/-!
# The session state of an OK packet

What a server tells under `CLIENT_SESSION_TRACK`: behind the warnings an OK packet has a message, with its length in
front, and then the state block. `parse_ok_session_track` looks for the block where the message is.
-/

namespace TurbineProxy

/-- A string behind its length. -/
def lenencStr (s : Bytes) : Bytes := lenenc s.length ++ s

/-- An entry of the block. -/
inductive StateEntry : Type where
  /-- `SESSION_TRACK_SYSTEM_VARIABLES` -/
  | systemVariable (name value : Bytes)
  /-- `SESSION_TRACK_GTIDS`, encoded as text -/
  | gtids (set : Bytes) (ne : set ≠ [])
  /-- any other type -/
  | other (trackType : UInt8) (ne : trackType ≠ 0x00 ∧ trackType ≠ 0x03) (data : Bytes)

namespace StateEntry

/-- `type` -/
def trackType : StateEntry → UInt8
  | systemVariable .. => 0x00
  | gtids .. => 0x03
  | other trackType .. => trackType

/-- `data` -/
def data : StateEntry → Bytes
  | systemVariable name value => lenencStr name ++ lenencStr value
  | gtids set _ => 0x00 :: lenencStr set
  | other _ _ data => data

/-- The entry in the block. -/
def payload (e : StateEntry) : Bytes := e.trackType :: lenencStr e.data

/-- The variable and its value. -/
def change : StateEntry → Option (Str × Str)
  | systemVariable name value => some (fromUtf8Lossy name, fromUtf8Lossy value)
  | _ => none

/-- The set of GTIDs. -/
def gtid : StateEntry → Option Str
  | gtids set _ => some (fromUtf8Lossy set)
  | _ => none

end StateEntry

/-- The pairs that are listed, in order. -/
def listedChanges (state : List StateEntry) : List (Str × Str) := state.filterMap StateEntry.change

/-- The set that is reported, the last one if there are more. -/
def reportedGtid (state : List StateEntry) : Option Str := (state.filterMap StateEntry.gtid).getLast?

/-- An OK packet with `SERVER_SESSION_STATE_CHANGED`. -/
structure TrackedOk where
  /-- any `u64` -/
  affectedRows : Nat
  /-- any `u64` -/
  lastInsertId : Nat
  /-- the status flags -/
  status : Nat
  /-- the number of warnings -/
  warnings : Nat
  /-- the message -/
  info : Bytes
  /-- the entries of the block -/
  state : List StateEntry
  affectedRows_lt : affectedRows < 2 ^ 64
  lastInsertId_lt : lastInsertId < 2 ^ 64
  status_lt : status < 2 ^ 16
  warnings_lt : warnings < 2 ^ 16
  /-- the state has changed -/
  changed : status &&& 0x4000 ≠ 0
  /-- it is one packet -/
  fits : OnePacket (okPayload affectedRows lastInsertId status warnings
    (lenencStr info ++ lenencStr (state.flatMap StateEntry.payload)))

namespace TrackedOk

/-- Its payload. -/
def payload (p : TrackedOk) : Bytes :=
  okPayload p.affectedRows p.lastInsertId p.status p.warnings
    (lenencStr p.info ++ lenencStr (p.state.flatMap StateEntry.payload))

/-- The pairs are added, and the reported set takes the place of the one before. -/
def Decodes (p : TrackedOk) : Prop :=
  ∀ out, parseOkSessionTrack p.payload out =
    .ok ⟨out.changes ++ listedChanges p.state, (reportedGtid p.state).or out.gtid⟩

end TrackedOk

/-! ## Positions -/

/-- The bytes from a position on begin with these. -/
def FoundAt (bytes : Bytes) (pos : Nat) (s : Bytes) : Prop :=
  ∃ front rest, bytes = front ++ (s ++ rest) ∧ front.length = pos

section Positions

variable {bytes payload s t : Bytes} {b : UInt8} {pos v : Nat}

theorem FoundAt.le_length (h : FoundAt bytes pos s) : pos + s.length ≤ bytes.length := by
  obtain ⟨front, rest, rfl, rfl⟩ := h
  rw [← List.append_assoc, ← List.length_append]
  exact (List.prefix_append _ _).length_le

theorem FoundAt.drop (h : FoundAt bytes pos s) : ∃ rest, bytes.drop pos = s ++ rest := by
  obtain ⟨front, rest, rfl, rfl⟩ := h
  exact ⟨rest, List.drop_left⟩

theorem FoundAt.left (h : FoundAt bytes pos (s ++ t)) : FoundAt bytes pos s := by
  obtain ⟨front, rest, rfl, rfl⟩ := h
  exact ⟨front, t ++ rest, by rw [List.append_assoc], rfl⟩

theorem FoundAt.right (h : FoundAt bytes pos (s ++ t)) : FoundAt bytes (pos + s.length) t := by
  obtain ⟨front, rest, rfl, rfl⟩ := h
  exact ⟨front ++ s, rest, by simp only [List.append_assoc], List.length_append⟩

theorem FoundAt.tail (h : FoundAt bytes pos (b :: s)) : FoundAt bytes (pos + 1) s := FoundAt.right (s := [b]) h

theorem FoundAt.indexOf (h : FoundAt bytes pos (b :: s)) : indexOf bytes pos = .ok b := by
  obtain ⟨front, rest, rfl, rfl⟩ := h
  rw [TurbineProxy.indexOf, List.getElem?_append_right (Nat.le_refl _), Nat.sub_self]
  rfl

theorem FoundAt.sliceOf (h : FoundAt bytes pos s) : sliceOf bytes pos (pos + s.length) = .ok s := by
  have hle := h.le_length
  obtain ⟨rest, hdrop⟩ := h.drop
  rw [TurbineProxy.sliceOf, if_pos ⟨Nat.le_add_right _ _, hle⟩, hdrop, Nat.add_sub_cancel_left, List.take_left]

theorem lenencAt_eq (hlen : bytes.length < 2 ^ 63) (h : pos ≤ bytes.length) :
    lenencAt bytes pos = .ok ((readLenenc (bytes.drop pos)).1, pos + (readLenenc (bytes.drop pos)).2) := by
  have hle := (readLenenc_bounds (bytes.drop pos)).2.1
  rw [List.length_drop] at hle
  rw [lenencAt, sliceOf, if_pos ⟨h, Nat.le_refl _⟩, ← List.length_drop, List.take_length]
  change (do let pos' ← addUsize pos (readLenenc (bytes.drop pos)).2; Except.ok (_, pos')) = _
  rw [addUsize, if_pos (by omega)]
  rfl

/-- A value is read where it stands. -/
theorem FoundAt.lenencAt (h : FoundAt bytes pos (lenenc v)) (hlen : bytes.length < 2 ^ 63) (hv : v < 2 ^ 24) :
    lenencAt bytes pos = .ok (v, pos + (lenenc v).length) := by
  have hle := h.le_length
  obtain ⟨rest, hdrop⟩ := h.drop
  rw [lenencAt_eq hlen (by omega), hdrop, (decoded_lenenc hv rest).readLenenc]

theorem lenenc_pos (v : Nat) : 0 < (lenenc v).length := by
  rw [lenenc]
  split
  · exact Nat.one_pos
  split
  · exact Nat.succ_pos _
  split <;> exact Nat.succ_pos _

theorem length_lenencStr (s : Bytes) : (lenencStr s).length = (lenenc s.length).length + s.length := List.length_append

/-- A string is read from its length to its end. -/
structure StringAt (bytes : Bytes) (pos : Nat) (s : Bytes) (start stop : Nat) : Prop where
  length : lenencAt bytes pos = .ok (s.length, start)
  ends : addUsize start s.length = .ok stop
  text : sliceOf bytes start stop = .ok s
  found : FoundAt bytes start s

theorem FoundAt.string (h : FoundAt bytes pos (lenencStr s)) (hlen : bytes.length < 2 ^ 24) :
    StringAt bytes pos s (pos + (lenenc s.length).length) (pos + (lenencStr s).length) := by
  have hle := h.le_length
  have htext := h.right
  rw [length_lenencStr] at hle ⊢
  rw [← Nat.add_assoc]
  exact ⟨h.left.lenencAt (Nat.lt_trans hlen (by decide)) (by omega), if_pos (by omega), htext.sliceOf, htext⟩

/-- Up to the flags of the packet, which say whether a block follows. -/
theorem parseOkSessionTrack_eq {pos₁ pos₂ v₁ v₂ : Nat} {low high w₀ w₁ : UInt8} (hlen : payload.length < 2 ^ 63)
    (hhead : payload.head? = some 0x00) (h₁ : lenencAt payload 1 = .ok (v₁, pos₁))
    (h₂ : lenencAt payload pos₁ = .ok (v₂, pos₂)) (hpos : pos₁ ≤ pos₂)
    (hflags : FoundAt payload pos₂ [low, high, w₀, w₁]) (out : SessionTrack) :
    parseOkSessionTrack payload out =
      if leNat [low, high] &&& 0x4000 = 0 then .ok out else parseStateBlock payload (pos₂ + 4) out := by
  have hle : pos₂ + 4 ≤ payload.length := hflags.le_length
  have hadd : ∀ k, k ≤ 4 → addUsize pos₂ k = .ok (pos₂ + k) := fun k hk => if_pos (by omega)
  have hskip : addUsize (pos₂ + 2) 2 = .ok (pos₂ + 4) := if_pos (by omega)
  rw [parseOkSessionTrack, if_neg (not_not_intro hhead), h₁]
  change (if payload.length ≤ pos₁ then _ else _) = _
  rw [if_neg (by omega), h₂]
  change (addUsize pos₂ 4 >>= _) = _
  rw [hadd 4 (by decide)]
  change (if payload.length < pos₂ + 4 then _ else _) = _
  rw [if_neg (by omega), hflags.indexOf, hadd 1 (by decide), hadd 2 (by decide)]
  change (indexOf payload (pos₂ + 1) >>= fun _ => addUsize (pos₂ + 2) 2 >>= _) = _
  rw [hflags.tail.indexOf, hskip]
  rfl

/-- Behind the length of the block it reads the entries. -/
theorem parseStateBlock_eq (h : FoundAt payload pos (lenencStr s)) (hlen : payload.length < 2 ^ 24)
    (out : SessionTrack) :
    parseStateBlock payload pos out =
      SessionTrack.entries payload (pos + (lenencStr s).length) (payload.length + 1) (pos + (lenenc s.length).length)
        out := by
  have hpos := lenenc_pos s.length
  have hle := h.le_length
  have hlength := length_lenencStr s
  have hstring := h.string hlen
  rw [parseStateBlock, if_neg (by omega), hstring.length]
  change (addUsize (pos + (lenenc s.length).length) s.length >>= _) = _
  rw [hstring.ends]
  exact if_neg (by omega)

/-- A text in the place of the block has no entry that matters. -/
theorem parseStateBlock_text (h : FoundAt payload pos (lenencStr s)) (hlen : payload.length < 2 ^ 24)
    (htext : ∀ b ∈ s, b ≠ 0x00 ∧ b ≠ 0x03) (out : SessionTrack) : parseStateBlock payload pos out = .ok out := by
  have hle := h.le_length
  have hlength := length_lenencStr s
  obtain ⟨out', hout, hsame⟩ := SessionTrack.runs_entries (Nat.lt_trans hlen (by decide)) out
    (by omega : pos + (lenencStr s).length - (pos + (lenenc s.length).length) < payload.length + 1)
  rw [parseStateBlock_eq h hlen, hout, hsame]
  -- the types are bytes of the text
  intro q b hle hlt hget
  obtain ⟨front, rest, rfl, hfront⟩ := (h.string hlen).found
  rw [List.getElem?_append_right (by omega), List.getElem?_append_left (by omega)] at hget
  exact htext b (List.mem_of_getElem? hget)

/-- A zero behind what is taken for the flags and the warnings is an empty block. -/
theorem parseOkSessionTrack_zero {pos₁ pos₂ v₁ v₂ : Nat} {low high w₀ w₁ : UInt8} (hlen : payload.length < 2 ^ 24)
    (hhead : payload.head? = some 0x00) (h₁ : lenencAt payload 1 = .ok (v₁, pos₁))
    (h₂ : lenencAt payload pos₁ = .ok (v₂, pos₂)) (hpos : pos₁ ≤ pos₂)
    (hflags : FoundAt payload pos₂ (low :: high :: w₀ :: w₁ :: 0x00 :: t)) (out : SessionTrack) :
    parseOkSessionTrack payload out = .ok out := by
  have hhere : FoundAt payload pos₂ [low, high, w₀, w₁] := FoundAt.left (t := 0x00 :: t) hflags
  have hbehind : FoundAt payload (pos₂ + 4) (lenencStr []) := FoundAt.left (t := t) hflags.tail.tail.tail.tail
  rw [parseOkSessionTrack_eq (Nat.lt_trans hlen (by decide)) hhead h₁ h₂ hpos hhere]
  split
  · rfl
  · exact parseStateBlock_text hbehind hlen nofun out

end Positions

/-! ## A block where it is looked for -/

namespace SessionTrack

variable {payload : Bytes} {pos : Nat} {out : SessionTrack}

/-- What an entry adds. -/
def add (out : SessionTrack) (e : StateEntry) : SessionTrack := ⟨out.changes ++ e.change.toList, e.gtid.or out.gtid⟩

theorem systemVariables_eq {name value : Bytes} (h : FoundAt payload pos (lenencStr name ++ lenencStr value))
    (hlen : payload.length < 2 ^ 24) (changes : List (Str × Str)) :
    systemVariables payload (pos + (lenencStr name ++ lenencStr value).length) (payload.length + 1) pos changes =
      .ok (changes ++ [(fromUtf8Lossy name, fromUtf8Lossy value)]) := by
  have hname := h.left.string hlen
  have hvalue := h.right.string hlen
  have hle := h.le_length
  have hpos := lenenc_pos name.length
  have hlength := length_lenencStr name
  rw [List.length_append, ← Nat.add_assoc] at hle ⊢
  rw [systemVariables, if_pos (by omega), hname.length]
  change (addUsize (pos + (lenenc name.length).length) name.length >>= _) = _
  rw [hname.ends]
  change (if _ < _ then _ else _) = _
  rw [if_neg (by omega), hname.text]
  change (lenencAt payload (pos + (lenencStr name).length) >>= _) = _
  rw [hvalue.length]
  change (addUsize (pos + (lenencStr name).length + (lenenc value.length).length) value.length >>= _) = _
  rw [hvalue.ends]
  change (if _ < _ then _ else _) = _
  rw [if_neg (Nat.lt_irrefl _), hvalue.text]
  -- and nothing behind it
  obtain ⟨n, hn⟩ : ∃ n, payload.length = n + 1 := Nat.exists_eq_succ_of_ne_zero (by omega)
  rw [hn]
  exact if_neg (Nat.lt_irrefl _)

theorem gtids_eq {set : Bytes} (h : FoundAt payload pos (0x00 :: lenencStr set)) (hset : set ≠ [])
    (hlen : payload.length < 2 ^ 24) (gtid : Option Str) :
    gtids payload (pos + (0x00 :: lenencStr set).length) pos gtid = .ok (some (fromUtf8Lossy set)) := by
  have hstring := h.tail.string hlen
  have hle := h.le_length
  have hpos := lenenc_pos set.length
  have hne : 0 < set.length := List.length_pos_iff.mpr hset
  have hadd : addUsize pos 1 = .ok (pos + 1) := if_pos (by omega)
  rw [List.length_cons] at hle ⊢
  rw [gtids, if_pos (by omega), hadd]
  change (lenencAt payload (pos + 1) >>= _) = _
  rw [hstring.length]
  change (addUsize (pos + 1 + (lenenc set.length).length) set.length >>= _) = _
  rw [hstring.ends]
  change (if _ ∧ _ then _ else _) = _
  rw [if_pos ⟨by omega, hne⟩, hstring.text]
  obtain ⟨b, bs, rfl⟩ := List.exists_cons_of_ne_nil hset
  rfl

/-- An entry is read as it was written. -/
theorem entry_eq (e : StateEntry) (h : FoundAt payload pos e.data) (hlen : payload.length < 2 ^ 24) :
    entry payload e.trackType pos (pos + e.data.length) out = .ok (out.add e) := by
  cases e with
  | systemVariable name value =>
    change (systemVariables payload _ _ pos out.changes >>= _) = _
    rw [StateEntry.data, systemVariables_eq h hlen]
    rfl
  | gtids set ne =>
    change (gtids payload _ pos out.gtid >>= _) = _
    rw [StateEntry.data, gtids_eq h ne hlen]
    exact congrArg (fun changes => Except.ok (SessionTrack.mk changes _)) (List.append_nil _).symm
  | other trackType ne data =>
    change (if trackType = 0x00 then _ else if trackType = 0x03 then _ else _) = _
    rw [if_neg ne.1, if_neg ne.2]
    exact congrArg (fun changes => Except.ok (SessionTrack.mk changes out.gtid)) (List.append_nil _).symm

/-- A round takes an entry. -/
theorem entries_round {n stop : Nat} (e : StateEntry) (h : FoundAt payload pos e.payload)
    (hlen : payload.length < 2 ^ 24) (hstop : pos < stop) :
    entries payload stop (n + 1) pos out = entries payload stop n (pos + e.payload.length) (out.add e) := by
  have hdata := FoundAt.string h.tail hlen
  have hle := h.le_length
  have hpos := lenenc_pos e.data.length
  have hlength := length_lenencStr e.data
  have hhead : addUsize pos 1 = .ok (pos + 1) := if_pos (by omega)
  have hround : pos + e.payload.length = pos + 1 + (lenencStr e.data).length := by
    rw [StateEntry.payload, List.length_cons, Nat.add_assoc, Nat.add_comm 1]
  have hsame : pos + 1 + (lenencStr e.data).length = pos + 1 + (lenenc e.data.length).length + e.data.length := by
    rw [hlength, Nat.add_assoc (pos + 1)]
  rw [entries, if_pos hstop, if_neg (by omega), FoundAt.indexOf h]
  change (addUsize pos 1 >>= _) = _
  rw [hhead]
  change (if payload.length ≤ pos + 1 then _ else _) = _
  rw [if_neg (by omega), hdata.length]
  change (addUsize (pos + 1 + (lenenc e.data.length).length) e.data.length >>= _) = _
  rw [hdata.ends]
  change (if _ < _ then _ else _) = _
  rw [if_neg (by omega), hround, hsame, entry_eq e hdata.found hlen]
  rfl

/-- The entries are read one after the other. -/
theorem entries_eq {n : Nat} {state : List StateEntry} (h : FoundAt payload pos (state.flatMap StateEntry.payload))
    (hlen : payload.length < 2 ^ 24) (hn : state.length < n) :
    entries payload (pos + (state.flatMap StateEntry.payload).length) n pos out = .ok (state.foldl add out) := by
  induction state generalizing pos n out with
  | nil =>
    cases n with
    | zero => exact absurd hn (Nat.not_lt_zero _)
    | succ n => exact if_neg (Nat.lt_irrefl _)
  | cons e state ih =>
    cases n with
    | zero => exact absurd hn (Nat.not_lt_zero _)
    | succ n =>
      have hpos : 0 < e.payload.length := Nat.succ_pos _
      rw [List.flatMap_cons] at h ⊢
      rw [List.length_append, entries_round e h.left hlen (by omega), ← Nat.add_assoc]
      exact ih h.right (Nat.lt_of_succ_lt_succ hn)

/-- A later set takes the place of the one before. -/
theorem reportedGtid_cons (e : StateEntry) (state : List StateEntry) :
    reportedGtid (e :: state) = (reportedGtid state).or e.gtid := by
  cases e with
  | systemVariable name value => exact Option.or_none.symm
  | gtids set ne => exact List.getLast?_cons.trans Option.or_some.symm
  | other trackType ne data => exact Option.or_none.symm

theorem listedChanges_cons (e : StateEntry) (state : List StateEntry) :
    listedChanges (e :: state) = e.change.toList ++ listedChanges state := by
  cases e <;> rfl

/-- All entries together add their variables in order, and the last set that one of them reports. -/
theorem foldl_add (state : List StateEntry) (out : SessionTrack) :
    state.foldl add out = ⟨out.changes ++ listedChanges state, (reportedGtid state).or out.gtid⟩ := by
  induction state generalizing out with
  | nil => exact congrArg (fun changes => SessionTrack.mk changes out.gtid) (List.append_nil _).symm
  | cons e state ih =>
    rw [List.foldl_cons, ih, listedChanges_cons, reportedGtid_cons, add, List.append_assoc, Option.or_assoc]

end SessionTrack

section Positions

variable {payload : Bytes} {pos : Nat} {state : List StateEntry}

theorem length_le_flatMap (state : List StateEntry) : state.length ≤ (state.flatMap StateEntry.payload).length := by
  induction state with
  | nil => exact Nat.le_refl 0
  | cons e state ih =>
    rw [List.flatMap_cons, List.length_append, StateEntry.payload, List.length_cons, List.length_cons]
    omega

/-- A block is read as it was written. -/
theorem parseStateBlock_block (h : FoundAt payload pos (lenencStr (state.flatMap StateEntry.payload)))
    (hlen : payload.length < 2 ^ 24) (out : SessionTrack) :
    parseStateBlock payload pos out =
      .ok ⟨out.changes ++ listedChanges state, (reportedGtid state).or out.gtid⟩ := by
  have hfound := (h.string hlen).found
  have hle := hfound.le_length
  have hcount := length_le_flatMap state
  rw [parseStateBlock_eq h hlen, length_lenencStr, ← Nat.add_assoc, SessionTrack.entries_eq hfound hlen (by omega),
    SessionTrack.foldl_add]

end Positions

/-! ## The counts -/

section Counts

variable {affectedRows lastInsertId status warnings : Nat} {tail s : Bytes} {state : List StateEntry}

/-- Behind small counts, the block is looked for where the message begins. -/
theorem parse_small (ha : affectedRows < 2 ^ 24) (hid : lastInsertId < 2 ^ 24) (hstatus : status < 2 ^ 16)
    (hchanged : status &&& 0x4000 ≠ 0)
    (hlen : (okPayload affectedRows lastInsertId status warnings tail).length < 2 ^ 63) :
    ∃ pos, FoundAt (okPayload affectedRows lastInsertId status warnings tail) pos tail ∧
      ∀ out, parseOkSessionTrack (okPayload affectedRows lastInsertId status warnings tail) out =
        parseStateBlock (okPayload affectedRows lastInsertId status warnings tail) pos out := by
  have hrows : FoundAt (okPayload affectedRows lastInsertId status warnings tail) 1
      (lenenc affectedRows ++ (lenenc lastInsertId ++ (leBytes 2 status ++ (leBytes 2 warnings ++ tail)))) :=
    ⟨[0x00], [], by simp only [okPayload, List.append_assoc, List.cons_append, List.nil_append, List.append_nil], rfl⟩
  have hinsert := hrows.right
  have hflags := hinsert.right
  have hvalue : leNat (leBytes 2 status) = status := (leNat_leBytes 2 status).trans (Nat.mod_eq_of_lt hstatus)
  rw [← List.append_assoc (leBytes 2 status)] at hflags
  refine ⟨_, hflags.right, fun out => ?_⟩
  rw [parseOkSessionTrack_eq hlen rfl (hrows.left.lenencAt hlen ha) (hinsert.left.lenencAt hlen hid)
    (Nat.le_add_right _ _) hflags.left, if_neg]
  · rfl
  · exact fun h => hchanged (hvalue ▸ h)

/-- The flag is not in the low byte. -/
theorem low_flags (b : UInt8) : leNat [b, 0x00] &&& 0x4000 = 0 := by
  have hlt : leNat [b, 0x00] < 2 ^ 14 := Nat.lt_trans b.toNat_lt (by decide)
  rw [show (0x4000 : Nat) = 2 ^ 14 from rfl, Nat.and_two_pow, Nat.testBit_lt_two_pow hlt]
  rfl

/-- The first 32 of 64 bits. -/
theorem lenenc_eight {v : Nat} (h : 2 ^ 24 ≤ v) (hv : v < 2 ^ 32) :
    ∃ b₀ b₁ b₂ b₃, lenenc v = [0xFE, b₀, b₁, b₂, b₃, 0x00, 0x00, 0x00, 0x00] := by
  have hdiv : v / 2 ^ 8 / 2 ^ 8 / 2 ^ 8 / 2 ^ 8 = 0 := by omega
  refine ⟨UInt8.ofNat v, UInt8.ofNat (v / 2 ^ 8), UInt8.ofNat (v / 2 ^ 8 / 2 ^ 8),
    UInt8.ofNat (v / 2 ^ 8 / 2 ^ 8 / 2 ^ 8), ?_⟩
  rw [lenenc, if_neg (by omega), if_neg (by omega), if_neg (by omega)]
  simp only [leBytes, hdiv, Nat.zero_div]
  rfl

/-- A large insert id: the block is looked for in its last bytes. -/
theorem parse_insertId (ha : affectedRows < 2 ^ 24) (hid : 2 ^ 24 ≤ lastInsertId) (hlt : lastInsertId < 2 ^ 32)
    (hlen : (okPayload affectedRows lastInsertId status warnings tail).length < 2 ^ 24) (out : SessionTrack) :
    parseOkSessionTrack (okPayload affectedRows lastInsertId status warnings tail) out = .ok out := by
  obtain ⟨b₀, b₁, b₂, b₃, height⟩ := lenenc_eight hid hlt
  have hbound := Nat.lt_trans hlen (by decide : 2 ^ 24 < 2 ^ 63)
  have hrows : FoundAt (okPayload affectedRows lastInsertId status warnings tail) 1
      (lenenc affectedRows ++ [0xFE, b₀, b₁, b₂, b₃, 0x00, 0x00, 0x00, 0x00]) := by
    refine ⟨[0x00], leBytes 2 status ++ (leBytes 2 warnings ++ tail), ?_, rfl⟩
    simp only [okPayload, height, List.append_assoc, List.cons_append, List.nil_append]
  have hinsert := hrows.right
  obtain ⟨rest, hdrop⟩ := hinsert.drop
  have h₂ := lenencAt_eq hbound (Nat.le_of_add_right_le hinsert.le_length)
  rw [hdrop] at h₂
  exact parseOkSessionTrack_zero hlen rfl (hrows.left.lenencAt hbound ha) h₂ (Nat.le_add_right _ _) hinsert.tail out

/-- A large number of rows: the same, whatever is taken for the insert id. -/
theorem parse_affectedRows (ha : 2 ^ 24 ≤ affectedRows) (hlt : affectedRows < 2 ^ 32)
    (hlen : (okPayload affectedRows lastInsertId status warnings tail).length < 2 ^ 24) (out : SessionTrack) :
    parseOkSessionTrack (okPayload affectedRows lastInsertId status warnings tail) out = .ok out := by
  obtain ⟨b₀, b₁, b₂, b₃, height⟩ := lenenc_eight ha hlt
  have hbound := Nat.lt_trans hlen (by decide : 2 ^ 24 < 2 ^ 63)
  have hrows : FoundAt (okPayload affectedRows lastInsertId status warnings tail) 1
      [0xFE, b₀, b₁, b₂, b₃, 0x00, 0x00, 0x00, 0x00] := by
    refine ⟨[0x00], lenenc lastInsertId ++ (leBytes 2 status ++ (leBytes 2 warnings ++ tail)), ?_, rfl⟩
    simp only [okPayload, height, List.append_assoc, List.cons_append, List.nil_append]
  obtain ⟨rest, hdrop⟩ := hrows.drop
  obtain ⟨rest', hdrop'⟩ := hrows.tail.drop
  have h₁ := lenencAt_eq hbound (Nat.le_of_add_right_le hrows.le_length)
  have h₂ := lenencAt_eq hbound (Nat.le_of_add_right_le hrows.tail.le_length)
  rw [hdrop] at h₁
  rw [hdrop'] at h₂
  have hflags := hrows.tail.tail
  by_cases hthree : b₀ = 0xFC
  · subst hthree
    rw [parseOkSessionTrack_eq hbound rfl h₁ h₂ (Nat.le_add_right _ _) (FoundAt.left (t := [0x00]) hflags.tail.tail)]
    exact if_pos (low_flags b₃)
  by_cases hfour : b₀ = 0xFD
  · subst hfour
    rw [parseOkSessionTrack_eq hbound rfl h₁ h₂ (Nat.le_add_right _ _) hflags.tail.tail.tail]
    rfl
  have hone : (readLenenc ([b₀, b₁, b₂, b₃, 0x00, 0x00, 0x00, 0x00] ++ rest')).2 = 1 := by
    change (readLenenc (b₀ :: ([b₁, b₂, b₃, 0x00, 0x00, 0x00, 0x00] ++ rest'))).2 = 1
    rw [readLenenc.eq_def]
    dsimp only
    rw [if_neg hthree, if_neg hfour]
    split <;> rfl
  rw [hone] at h₂
  exact parseOkSessionTrack_zero hlen rfl h₁ h₂ (Nat.le_succ 2) hflags out

end Counts

/-- The layout in the comment of `parse_ok_session_track`, which has no message, is read as it was written. -/
theorem documented_layout_read {affectedRows lastInsertId status warnings : Nat} {state : List StateEntry}
    (ha : affectedRows < 2 ^ 24) (hid : lastInsertId < 2 ^ 24) (hstatus : status < 2 ^ 16)
    (hchanged : status &&& 0x4000 ≠ 0)
    (hlen : OnePacket (okPayload affectedRows lastInsertId status warnings
      (lenencStr (state.flatMap StateEntry.payload))))
    (out : SessionTrack) :
    parseOkSessionTrack (okPayload affectedRows lastInsertId status warnings
      (lenencStr (state.flatMap StateEntry.payload))) out =
        .ok ⟨out.changes ++ listedChanges state, (reportedGtid state).or out.gtid⟩ := by
  have hlt := Nat.lt_trans hlen (by decide : 0xFFFFFF < 2 ^ 24)
  obtain ⟨pos, hfound, hparse⟩ := parse_small ha hid hstatus hchanged (Nat.lt_trans hlt (by decide))
  rw [hparse, parseStateBlock_block hfound hlt]

theorem documented_layout_read_autocommit : parseOkSessionTrack (okPayload 0 0 0x4000 0
    (lenencStr ([.systemVariable (asciiBytes "autocommit") (asciiBytes "OFF")].flatMap StateEntry.payload)))
      ⟨[], none⟩ = .ok ⟨[("autocommit".toList, "OFF".toList)], none⟩ :=
  documented_layout_read (by decide) (by decide) (by decide) (by decide) (by unfold OnePacket; decide) ⟨[], none⟩

namespace TrackedOk

/-- With counts of at most 32 bits and a text for a message, nothing is found. -/
theorem parse_payload (p : TrackedOk) (ha : p.affectedRows < 2 ^ 32) (hid : p.lastInsertId < 2 ^ 32)
    (hinfo : ∀ b ∈ p.info, b ≠ 0x00 ∧ b ≠ 0x03) (out : SessionTrack) :
    parseOkSessionTrack p.payload out = .ok out := by
  have hlen : p.payload.length < 2 ^ 24 := Nat.lt_trans p.fits (by decide)
  by_cases hrows : p.affectedRows < 2 ^ 24
  case neg => exact parse_affectedRows (Nat.not_lt.mp hrows) ha hlen out
  by_cases hinsert : p.lastInsertId < 2 ^ 24
  case neg => exact parse_insertId hrows (Nat.not_lt.mp hinsert) hid hlen out
  obtain ⟨pos, hfound, hparse⟩ := parse_small hrows hinsert p.status_lt p.changed (Nat.lt_trans hlen (by decide))
  exact (hparse out).trans (parseStateBlock_text hfound.left hlen hinfo out)

/-- A message that is a copy of the block is read in its place. -/
theorem decodes_of_copy (p : TrackedOk) (ha : p.affectedRows < 2 ^ 24) (hid : p.lastInsertId < 2 ^ 24)
    (hinfo : p.info = p.state.flatMap StateEntry.payload) : p.Decodes := by
  intro out
  have hlen : p.payload.length < 2 ^ 24 := Nat.lt_trans p.fits (by decide)
  obtain ⟨pos, hfound, hparse⟩ := parse_small ha hid p.status_lt p.changed (Nat.lt_trans hlen (by decide))
  exact (hparse out).trans (parseStateBlock_block (hinfo ▸ hfound.left) hlen out)

/-- **Session state**: what is listed is not found, so that nothing may be listed. -/
theorem decodes_iff (p : TrackedOk) (ha : p.affectedRows < 2 ^ 32) (hid : p.lastInsertId < 2 ^ 32)
    (hinfo : ∀ b ∈ p.info, b ≠ 0x00 ∧ b ≠ 0x03) :
    p.Decodes ↔ listedChanges p.state = [] ∧ reportedGtid p.state = none := by
  refine ⟨fun h => ?_, fun ⟨hchanges, hgtid⟩ out => ?_⟩
  · have hout := (p.parse_payload ha hid hinfo ⟨[], none⟩).symm.trans (h ⟨[], none⟩)
    obtain ⟨hchanges, hgtid⟩ := SessionTrack.mk.inj (Except.ok.inj hout)
    rw [Option.or_none] at hgtid
    exact ⟨hchanges.symm, hgtid.symm⟩
  · rw [p.parse_payload ha hid hinfo out, hchanges, hgtid, List.append_nil, Option.none_or]

/-- `SET autocommit = 0`. -/
def autocommitOff : TrackedOk where
  affectedRows := 0
  lastInsertId := 0
  status := 0x4000
  warnings := 0
  info := []
  state := [.systemVariable (asciiBytes "autocommit") (asciiBytes "OFF")]
  affectedRows_lt := by decide
  lastInsertId_lt := by decide
  status_lt := by decide
  warnings_lt := by decide
  changed := by decide
  fits := by decide

theorem decodes_iff_autocommit : ¬ autocommitOff.Decodes := fun h =>
  absurd ((autocommitOff.decodes_iff (by decide) (by decide) nofun).mp h).1 (List.cons_ne_nil _ _)

/-- The variable is not found. -/
theorem autocommit_not_found : ¬ ∀ p : TrackedOk, p.Decodes := fun h =>
  absurd (h autocommitOff ⟨[], none⟩) (by decide +kernel)

end TrackedOk

end TurbineProxy
