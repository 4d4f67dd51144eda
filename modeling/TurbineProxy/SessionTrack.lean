import TurbineProxy.Lenenc

/-!
# Session tracking

`collect_response_tracked` of `protocol/mysql/mod.rs` is `collect_response` once more, with the session state that the
OK packets tell. `parse_ok_session_track`, which finds that, works with positions in a payload it knows nothing about:
here every access that may be out of range, every sum and every loop may be a fault.
-/

namespace TurbineProxy

/-- What may go wrong. -/
inductive TrackFault : Type where
  /-- the stream ends -/
  | io
  /-- an index or a slice is out of range -/
  | outOfRange
  /-- a sum or a difference does not fit a `usize` -/
  | overflow
  /-- a loop has more rounds than there are bytes -/
  | endless
  deriving DecidableEq

/-- What is found: `session_changes` and `write_gtid`. -/
structure SessionTrack where
  changes : List (Str × Str)
  gtid : Option Str
  deriving DecidableEq

/-- `a + b` -/
def addUsize (a b : Nat) : Except TrackFault Nat := if a + b < 2 ^ 64 then .ok (a + b) else .error .overflow

/-- `bytes[pos]` -/
def indexOf (bytes : Bytes) (pos : Nat) : Except TrackFault UInt8 := bytes[pos]?.elim (.error .outOfRange) .ok

/-- `bytes[pos..stop]` -/
def sliceOf (bytes : Bytes) (pos stop : Nat) : Except TrackFault Bytes :=
  if pos ≤ stop ∧ stop ≤ bytes.length then .ok ((bytes.drop pos).take (stop - pos)) else .error .outOfRange

/-- `read_lenenc(&bytes[pos..])`: the value, and the position behind it. -/
def lenencAt (bytes : Bytes) (pos : Nat) : Except TrackFault (Nat × Nat) := do
  let r := readLenenc (← sliceOf bytes pos bytes.length)
  .ok (r.1, ← addUsize pos r.2)

namespace SessionTrack

/-- The loop over the variables of an entry. -/
def systemVariables (payload : Bytes) (dataEnd : Nat) :
    Nat → Nat → List (Str × Str) → Except TrackFault (List (Str × Str))
  | 0, _, _ => .error .endless
  | n + 1, dp, out =>
    if dp < dataEnd then do
      let (nameLen, dp) ← lenencAt payload dp
      let nameEnd ← addUsize dp nameLen
      if dataEnd < nameEnd then .ok out
      else
        let name ← sliceOf payload dp nameEnd
        let (valLen, dp) ← lenencAt payload nameEnd
        let valEnd ← addUsize dp valLen
        if dataEnd < valEnd then .ok out
        else
          let value ← sliceOf payload dp valEnd
          systemVariables payload dataEnd n valEnd (out ++ [(fromUtf8Lossy name, fromUtf8Lossy value)])
    else .ok out

/-- The GTID of an entry. -/
def gtids (payload : Bytes) (dataEnd dp : Nat) (out : Option Str) : Except TrackFault (Option Str) :=
  if dp < dataEnd then do
    let (gtidLen, dp) ← lenencAt payload (← addUsize dp 1)
    let gtidEnd ← addUsize dp gtidLen
    if gtidEnd ≤ dataEnd ∧ 0 < gtidLen then
      let gtid := fromUtf8Lossy (← sliceOf payload dp gtidEnd)
      .ok (if gtid.isEmpty then out else some gtid)
    else .ok out
  else .ok out

/-- What an entry says, by its type. -/
def entry (payload : Bytes) (trackType : UInt8) (pos dataEnd : Nat) (out : SessionTrack) :
    Except TrackFault SessionTrack :=
  if trackType = 0x00 then do
    .ok { out with changes := ← systemVariables payload dataEnd (payload.length + 1) pos out.changes }
  else if trackType = 0x03 then do
    .ok { out with gtid := ← gtids payload dataEnd pos out.gtid }
  else .ok out

/-- The loop over the entries of the block. -/
def entries (payload : Bytes) (stop : Nat) : Nat → Nat → SessionTrack → Except TrackFault SessionTrack
  | 0, _, _ => .error .endless
  | n + 1, pos, out =>
    if pos < stop then
      if payload.length ≤ pos then .ok out
      else do
        let trackType ← indexOf payload pos
        let pos ← addUsize pos 1
        if payload.length ≤ pos then .ok out
        else
          let (dataLen, pos) ← lenencAt payload pos
          let dataEnd ← addUsize pos dataLen
          if payload.length < dataEnd then .ok out
          else entries payload stop n dataEnd (← entry payload trackType pos dataEnd out)
    else .ok out

end SessionTrack

/-- The session state block at a position. -/
def parseStateBlock (payload : Bytes) (pos : Nat) (out : SessionTrack) : Except TrackFault SessionTrack :=
  if payload.length ≤ pos then .ok out
  else do
    let (sessionLen, pos) ← lenencAt payload pos
    let stop ← addUsize pos sessionLen
    if payload.length < stop then .ok out else SessionTrack.entries payload stop (payload.length + 1) pos out

/-- `parse_ok_session_track` -/
def parseOkSessionTrack (payload : Bytes) (out : SessionTrack) : Except TrackFault SessionTrack :=
  if payload.head? ≠ some 0x00 then .ok out
  else do
    let (_, pos) ← lenencAt payload 1
    if payload.length ≤ pos then .ok out
    else
      let (_, pos) ← lenencAt payload pos
      if payload.length < (← addUsize pos 4) then .ok out
      else
        let flags := leNat [← indexOf payload pos, ← indexOf payload (← addUsize pos 1)]
        let pos ← addUsize (← addUsize pos 2) 2
        if flags &&& 0x4000 = 0 then .ok out else parseStateBlock payload pos out

/-! ## Collecting -/

/-- A read, which may find the end of the stream. -/
def ioRead {α : Type} (read : Option α) : Except TrackFault α := read.elim (.error .io) .ok

/-- The loop of `collect_response_tracked`. -/
def collectTrackedLoop : Nat → Bytes → Bytes → SessionTrack → Except TrackFault (Bytes × SessionTrack × Bytes)
  | 0, _, _, _ => .error .endless
  | n + 1, stream, buf, track => do
    let (header, payload, stream) ← ioRead (readRaw stream)
    let buf := buf ++ header ++ payload
    match payload with
    | [] => .ok (buf, track, stream)
    | first :: _ =>
      -- an error, or LOCAL INFILE
      if first = 0xFF ∨ first = 0xFB then .ok (buf, track, stream)
      else if first = 0x00 then do
        let track ← parseOkSessionTrack payload track
        if (okStatusFlags payload).any moreResultsExist then collectTrackedLoop n stream buf track
        else .ok (buf, track, stream)
      else do
        let (buf, stream) ← ioRead (collectResultSet first stream buf)
        .ok (buf, track, stream)

/-- `collect_response_tracked`: the bytes of the reply, the session state, and what is left of the stream. -/
def collectResponseTracked (stream : Bytes) : Except TrackFault (Bytes × SessionTrack × Bytes) :=
  collectTrackedLoop (stream.length + 1) stream [] ⟨[], none⟩

/-! ## Nothing goes wrong -/

/-- It goes through, with such a result. -/
def Runs {α : Type} (x : Except TrackFault α) (P : α → Prop) : Prop := ∃ a, x = .ok a ∧ P a

section Runs

variable {α β : Type} {x : Except TrackFault α} {f : α → Except TrackFault β} {P : α → Prop} {Q : β → Prop}

theorem runs_ok {a : α} (h : P a) : Runs (.ok a) P := ⟨a, rfl, h⟩

theorem Runs.bind (h : Runs x P) (hf : ∀ a, P a → Runs (f a) Q) : Runs (x >>= f) Q := by
  obtain ⟨a, rfl, ha⟩ := h
  exact hf a ha

theorem Runs.imp {P' : α → Prop} (h : Runs x P) (hP : ∀ a, P a → P' a) : Runs x P' := by
  obtain ⟨a, ha, hPa⟩ := h
  exact ⟨a, ha, hP a hPa⟩

end Runs

section Positions

variable {bytes payload : Bytes} {a b n pos stop dataEnd : Nat}

theorem runs_addUsize (h : a + b < 2 ^ 64) : Runs (addUsize a b) (· = a + b) := ⟨a + b, if_pos h, rfl⟩

theorem runs_indexOf (h : pos < bytes.length) : Runs (indexOf bytes pos) (bytes[pos]? = some ·) := by
  rw [indexOf, List.getElem?_eq_getElem h]
  exact runs_ok rfl

theorem runs_sliceOf (h : pos ≤ stop) (hstop : stop ≤ bytes.length) :
    Runs (sliceOf bytes pos stop) (· = (bytes.drop pos).take (stop - pos)) :=
  ⟨_, if_pos ⟨h, hstop⟩, rfl⟩

/-- A value has three bytes at most, and is read where there is something to read. -/
theorem readLenenc_bounds (bytes : Bytes) :
    (readLenenc bytes).1 < 2 ^ 24 ∧ (readLenenc bytes).2 ≤ bytes.length ∧ (bytes ≠ [] → 0 < (readLenenc bytes).2) := by
  obtain _ | ⟨b, rest⟩ := bytes
  · exact ⟨Nat.two_pow_pos 24, Nat.le_refl 0, fun h => absurd rfl h⟩
  have hshort : 1 ≤ (b :: rest).length := Nat.succ_pos _
  have hnone : 0 < 2 ^ 24 ∧ 1 ≤ (b :: rest).length ∧ (b :: rest ≠ [] → 0 < 1) :=
    ⟨Nat.two_pow_pos 24, hshort, fun _ => Nat.one_pos⟩
  rw [readLenenc.eq_def]
  dsimp only
  split
  · exact ⟨Nat.lt_trans b.toNat_lt (by decide), hshort, fun _ => Nat.one_pos⟩
  split
  · obtain _ | ⟨b₀, _ | ⟨b₁, tail⟩⟩ := rest
    · exact hnone
    · exact hnone
    · have h₀ := b₀.toNat_lt
      have h₁ := b₁.toNat_lt
      exact ⟨by dsimp only [leNat]; omega, by simp, fun _ => Nat.succ_pos 2⟩
  split
  · obtain _ | ⟨b₀, _ | ⟨b₁, _ | ⟨b₂, tail⟩⟩⟩ := rest
    · exact hnone
    · exact hnone
    · exact hnone
    · have h₀ := b₀.toNat_lt
      have h₁ := b₁.toNat_lt
      have h₂ := b₂.toNat_lt
      exact ⟨by dsimp only [leNat]; omega, by simp, fun _ => Nat.succ_pos 3⟩
  · exact hnone

/-- The positions around a value. -/
structure ValueAt (bytes : Bytes) (pos : Nat) (r : Nat × Nat) : Prop where
  value_lt : r.1 < 2 ^ 24
  le : pos ≤ r.2
  le_length : r.2 ≤ bytes.length
  lt : pos < bytes.length → pos < r.2

theorem runs_lenencAt (hlen : bytes.length < 2 ^ 63) (h : pos ≤ bytes.length) :
    Runs (lenencAt bytes pos) (ValueAt bytes pos) := by
  obtain ⟨hlt, hle, hpos⟩ := readLenenc_bounds (bytes.drop pos)
  rw [List.length_drop] at hle
  refine (runs_sliceOf h (Nat.le_refl _)).bind fun slice hslice => ?_
  obtain rfl : slice = bytes.drop pos := by
    rw [hslice, ← List.length_drop, List.take_length]
  refine (runs_addUsize (by omega)).bind fun pos' hpos' => ?_
  obtain rfl := hpos'
  refine runs_ok ⟨hlt, Nat.le_add_right _ _, by dsimp only; omega, fun hin => ?_⟩
  exact Nat.lt_add_of_pos_right (hpos fun hnil => absurd (List.drop_eq_nil_iff.mp hnil) (Nat.not_le.mpr hin))

namespace SessionTrack

/-- The variables: every round takes at least one byte of the entry. -/
theorem runs_systemVariables (hlen : payload.length < 2 ^ 63) (hend : dataEnd ≤ payload.length) {dp : Nat}
    {out : List (Str × Str)} (hn : dataEnd - dp < n) :
    Runs (systemVariables payload dataEnd n dp out) fun _ => True := by
  induction n generalizing dp out with
  | zero => exact absurd hn (Nat.not_lt_zero _)
  | succ n ih =>
    rw [systemVariables]
    split
    case isFalse => exact runs_ok trivial
    rename_i hdp
    refine (runs_lenencAt hlen (by omega)).bind fun ⟨nameLen, dp₁⟩ hname => ?_
    have hlt := hname.lt (by omega)
    have hshort := hname.value_lt
    have hle := hname.le_length
    dsimp only at hlt hshort hle ⊢
    refine (runs_addUsize (by omega)).bind fun nameEnd hnameEnd => ?_
    split
    · exact runs_ok trivial
    refine (runs_sliceOf (by omega) (by omega)).bind fun name _ => ?_
    refine (runs_lenencAt hlen (by omega)).bind fun ⟨valLen, dp₂⟩ hvalue => ?_
    have hle₂ := hvalue.le
    have hshort₂ := hvalue.value_lt
    have hlast := hvalue.le_length
    dsimp only at hle₂ hshort₂ hlast ⊢
    refine (runs_addUsize (by omega)).bind fun valEnd hvalEnd => ?_
    split
    · exact runs_ok trivial
    refine (runs_sliceOf (by omega) (by omega)).bind fun value _ => ?_
    exact ih (by omega)

theorem runs_gtids (hlen : payload.length < 2 ^ 63) (hend : dataEnd ≤ payload.length) {dp : Nat} {out : Option Str} :
    Runs (gtids payload dataEnd dp out) fun _ => True := by
  rw [gtids]
  split
  case isFalse => exact runs_ok trivial
  refine (runs_addUsize (by omega)).bind fun dp₁ hdp₁ => ?_
  refine (runs_lenencAt hlen (by omega)).bind fun ⟨gtidLen, dp₂⟩ hgtid => ?_
  have hshort := hgtid.value_lt
  have hle := hgtid.le_length
  dsimp only at hshort hle ⊢
  refine (runs_addUsize (by omega)).bind fun gtidEnd hgtidEnd => ?_
  split
  · exact (runs_sliceOf (by omega) (by omega)).bind fun _ _ => runs_ok trivial
  · exact runs_ok trivial

theorem runs_entry (hlen : payload.length < 2 ^ 63) (hend : dataEnd ≤ payload.length) (trackType : UInt8)
    (out : SessionTrack) :
    Runs (entry payload trackType pos dataEnd out) fun out' => trackType ≠ 0x00 ∧ trackType ≠ 0x03 → out' = out := by
  rw [entry]
  split
  · exact (runs_systemVariables hlen hend (by omega)).bind fun _ _ => runs_ok fun h => absurd ‹_› h.1
  split
  · exact (runs_gtids hlen hend).bind fun _ _ => runs_ok fun h => absurd ‹_› h.2
  · exact runs_ok fun _ => rfl

/-- No byte of this part is the type of a variable or of a GTID. -/
def Untyped (payload : Bytes) (pos stop : Nat) : Prop :=
  ∀ q b, pos ≤ q → q < stop → payload[q]? = some b → b ≠ 0x00 ∧ b ≠ 0x03

/-- The entries: every round takes at least one byte of the block. -/
theorem runs_entries (hlen : payload.length < 2 ^ 63) (out : SessionTrack) (hn : stop - pos < n) :
    Runs (entries payload stop n pos out) fun out' => Untyped payload pos stop → out' = out := by
  induction n generalizing pos out with
  | zero => exact absurd hn (Nat.not_lt_zero _)
  | succ n ih =>
    rw [entries]
    split
    case isFalse => exact runs_ok fun _ => rfl
    split
    · exact runs_ok fun _ => rfl
    refine (runs_indexOf (by omega)).bind fun trackType htype => ?_
    refine (runs_addUsize (by omega)).bind fun pos₁ hpos₁ => ?_
    split
    · exact runs_ok fun _ => rfl
    refine (runs_lenencAt hlen (by omega)).bind fun ⟨dataLen, pos₂⟩ hdata => ?_
    have hshort := hdata.value_lt
    have hle := hdata.le
    have hlast := hdata.le_length
    dsimp only at hshort hle hlast ⊢
    refine (runs_addUsize (by omega)).bind fun dataEnd hdataEnd => ?_
    split
    · exact runs_ok fun _ => rfl
    refine (runs_entry hlen (by omega) trackType out).bind fun out₁ hout₁ => ?_
    refine (ih out₁ (by omega)).imp fun out' hout' huntyped => ?_
    have hsame : out₁ = out := hout₁ (huntyped pos trackType (Nat.le_refl pos) ‹_› htype)
    rw [← hsame]
    exact hout' fun q b hq => huntyped q b (by omega)

end SessionTrack

theorem runs_parseStateBlock (hlen : payload.length < 2 ^ 63) {out : SessionTrack} :
    Runs (parseStateBlock payload pos out) fun _ => True := by
  rw [parseStateBlock]
  split
  · exact runs_ok trivial
  refine (runs_lenencAt hlen (by omega)).bind fun ⟨sessionLen, pos₁⟩ hsession => ?_
  have hshort := hsession.value_lt
  have hlast := hsession.le_length
  dsimp only at hshort hlast ⊢
  refine (runs_addUsize (by omega)).bind fun stop _ => ?_
  split
  · exact runs_ok trivial
  · exact (SessionTrack.runs_entries hlen out (by omega)).imp fun _ _ => trivial

/-- Whatever the payload is, it is parsed to the end. -/
theorem runs_parseOkSessionTrack (hlen : payload.length < 2 ^ 63) (out : SessionTrack) :
    Runs (parseOkSessionTrack payload out) fun _ => True := by
  rw [parseOkSessionTrack]
  split
  · exact runs_ok trivial
  rename_i hhead
  have hpos : 1 ≤ payload.length := by
    cases payload
    · exact absurd nofun hhead
    · exact Nat.succ_pos _
  refine (runs_lenencAt hlen hpos).bind fun ⟨_, pos⟩ hrows => ?_
  dsimp only
  split
  · exact runs_ok trivial
  refine (runs_lenencAt hlen (by omega)).bind fun ⟨_, pos₁⟩ hid => ?_
  have hlast := hid.le_length
  dsimp only at hlast ⊢
  refine (runs_addUsize (by omega)).bind fun flagsEnd hflagsEnd => ?_
  split
  · exact runs_ok trivial
  refine (runs_indexOf (by omega)).bind fun low _ => ?_
  refine (runs_addUsize (by omega)).bind fun highPos hhighPos => ?_
  refine (runs_indexOf (by omega)).bind fun high _ => ?_
  refine (runs_addUsize (by omega)).bind fun warningsPos hwarningsPos => ?_
  refine (runs_addUsize (by omega)).bind fun statePos _ => ?_
  split
  · exact runs_ok trivial
  · exact runs_parseStateBlock hlen

end Positions

/-! ## Side by side -/

/-- The same bytes and the same rest of the stream, or the end of the stream for both. -/
def Alongside : Option (Bytes × Bytes) → Except TrackFault (Bytes × SessionTrack × Bytes) → Prop
  | none, tracked => tracked = .error .io
  | some (buf, rest), tracked => ∃ track, tracked = .ok (buf, track, rest)

/-- What is read from a stream is no longer than a header can tell. -/
theorem length_payload {stream header payload rest : Bytes} (h : readRaw stream = some (header, payload, rest)) :
    payload.length < 2 ^ 24 := by
  obtain ⟨⟨header', stream'⟩, -, hnext⟩ := Option.bind_eq_some_iff.mp h
  obtain ⟨⟨payload', rest'⟩, hpayload, hlast⟩ := Option.bind_eq_some_iff.mp hnext
  obtain ⟨rfl, heq⟩ := Prod.mk.inj (Option.some.inj hlast)
  obtain ⟨rfl, rfl⟩ := Prod.mk.inj heq
  rw [(readExact_eq_some hpayload).2]
  exact u24Le_lt _

/-- One round takes both of them as far. -/
theorem alongside_loop {n : Nat} {stream : Bytes} (hn : stream.length < n) (buf : Bytes) (track : SessionTrack) :
    Alongside (collectLoop n stream buf) (collectTrackedLoop n stream buf track) := by
  induction n generalizing stream buf track with
  | zero => exact absurd hn (Nat.not_lt_zero _)
  | succ n ih =>
    rw [collectLoop, collectTrackedLoop]
    obtain hread | ⟨⟨header, payload, rest⟩, hread⟩ := (readRaw stream).eq_none_or_eq_some
    · rw [hread]
      rfl
    have hlength := length_payload hread
    have hrest : rest.length < n := by
      obtain ⟨rfl, hheader⟩ := readRaw_eq_some hread
      simp only [List.length_append] at hn
      omega
    rw [hread]
    dsimp only [Option.bind_eq_bind, Option.bind_some, ioRead, Option.elim_some]
    obtain _ | ⟨first, tail⟩ := payload
    · exact ⟨track, rfl⟩
    change Alongside (if first = 0xFF ∨ first = 0xFB then _ else _) (if first = 0xFF ∨ first = 0xFB then _ else _)
    split
    · exact ⟨track, rfl⟩
    split
    · obtain ⟨track', htrack, -⟩ := runs_parseOkSessionTrack (by omega : (first :: tail).length < 2 ^ 63) track
      rw [htrack]
      change Alongside (if _ then _ else _) (if _ then _ else _)
      split
      · exact ih hrest _ track'
      · exact ⟨track', rfl⟩
    · obtain hset | ⟨⟨buf', rest'⟩, hset⟩ :=
        (collectResultSet first rest (buf ++ header ++ first :: tail)).eq_none_or_eq_some
      · rw [hset]
        rfl
      · rw [hset]
        exact ⟨track, rfl⟩

/-- A slice: no object has more bytes than an `isize` can count. -/
abbrev Slice : Type := { bytes : Bytes // bytes.length < 2 ^ 63 }

/-- **Tracking**: every reply is collected as without it, and every payload is parsed to the end. -/
theorem tracking_undisturbed :
    (∀ stream, Alongside (collectResponse stream) (collectResponseTracked stream)) ∧
      ∀ (payload : Slice) (out : SessionTrack), ∃ out', parseOkSessionTrack payload out = .ok out' := by
  refine ⟨fun stream => alongside_loop (Nat.lt_succ_self _) [] _, fun payload out => ?_⟩
  obtain ⟨out', h, -⟩ := runs_parseOkSessionTrack payload.2 out
  exact ⟨out', h⟩

end TurbineProxy
