import TurbineProxy.Gates
import TurbineProxy.PgFrames
import TurbineProxy.SessionTrack

/-!
# Scanning pipelines

`scan_pg_pipeline` of `stmt_shadow.rs` walks over a pipeline by positions. Here it does so with every access and every
sum a possible fault, and `runs_scanFrom` says that it never comes to that: it finds what the walk over the bytes
(`scanPgPipeline`) finds.

`build_pg_reparse` counts the length of its message in a `u32`. `scan_reparse_iff` says that its text is found again
just if it fits.
-/

namespace TurbineProxy

/-! ## `stmt_shadow.rs`, by positions -/

namespace PgPipelineScan

/-- `read_cstr` -/
def cstrOf (buf : Bytes) : Except TrackFault (Option (Str × Bytes)) :=
  match buf.findIdx? (· == 0) with
  | none => .ok none
  | some stop => do
    let s := fromUtf8Lossy (← sliceOf buf 0 stop)
    .ok (some (s, ← sliceOf buf (← addUsize stop 1) buf.length))

/-- The `match` on the type byte. -/
def message (tag : UInt8) (payload : Bytes) (scan : PgPipelineScan) : Except TrackFault PgPipelineScan :=
  if tag = 0x50 then do
    match ← cstrOf payload with
    | some (name, rest) =>
      match ← cstrOf rest with
      | some (query, _) => .ok { scan with parses := scan.parses ++ [(name, query)] }
      | none => .ok scan
    | none => .ok scan
  else if tag = 0x43 ∧ 2 ≤ payload.length then do
    if (← indexOf payload 0) = 0x53 then
      match ← cstrOf (← sliceOf payload 1 payload.length) with
      | some (name, _) => .ok (if name.isEmpty then scan else { scan with closes := scan.closes ++ [name] })
      | none => .ok scan
    else .ok scan
  else .ok scan

/-- The length field of the message at a position. -/
def lengthAt (raw : Bytes) (pos : Nat) : Except TrackFault Nat := do
  let a ← indexOf raw (← addUsize pos 1)
  let b ← indexOf raw (← addUsize pos 2)
  let c ← indexOf raw (← addUsize pos 3)
  let d ← indexOf raw (← addUsize pos 4)
  .ok (beNat32 [a, b, c, d])

/-- The loop of `scan_pg_pipeline`. -/
def scanFrom (raw : Bytes) : Nat → Nat → PgPipelineScan → Except TrackFault PgPipelineScan
  | 0, _, _ => .error .endless
  | n + 1, pos, scan => do
    if (← addUsize pos 5) ≤ raw.length then
      let tag ← indexOf raw pos
      let len ← lengthAt raw pos
      if len < 4 then .ok scan
      else
        let stop ← addUsize (← addUsize pos 1) len
        if raw.length < stop then .ok scan
        else
          let payload ← sliceOf raw (← addUsize pos 5) stop
          scanFrom raw n stop (← message tag payload scan)
    else .ok scan

end PgPipelineScan

/-- `scan_pg_pipeline`, by positions. -/
def scanPgPipelineAt (raw : Bytes) : Except TrackFault PgPipelineScan :=
  PgPipelineScan.scanFrom raw (raw.length + 1) 0 ⟨[], []⟩

/-! ## Nothing goes wrong -/

namespace PgPipelineScan

variable {raw buf payload rest : Bytes} {pos n : Nat}

/-- The first NUL, and what is around it. -/
theorem splitNul_eq (buf : Bytes) :
    splitNul buf = (buf.findIdx? (· == 0)).map fun stop => (buf.take stop, buf.drop (stop + 1)) := by
  induction buf with
  | nil => rfl
  | cons b buf ih =>
    rw [splitNul, List.findIdx?_cons]
    by_cases hb : b = 0
    · simp [hb]
    · simp only [if_neg hb, beq_false_of_ne hb, ih, Option.map_map, Bool.false_eq_true, if_false]
      rfl

theorem runs_cstrOf (hlen : buf.length < 2 ^ 63) : Runs (cstrOf buf) (· = readCstr buf) := by
  rw [cstrOf, readCstr, splitNul_eq]
  cases hfind : buf.findIdx? (· == 0) with
  | none => exact runs_ok rfl
  | some stop =>
    obtain ⟨hstop, -⟩ := List.findIdx?_eq_some_iff_getElem.mp hfind
    refine (runs_sliceOf (Nat.zero_le stop) (Nat.le_of_lt hstop)).bind fun s hs => ?_
    refine (runs_addUsize (by omega)).bind fun behind hbehind => ?_
    refine (runs_sliceOf (by omega) (Nat.le_refl _)).bind fun rest hrest => runs_ok ?_
    subst hs hbehind hrest
    rw [List.take_of_length_le (by simp : (buf.drop (stop + 1)).length ≤ buf.length - (stop + 1))]
    rfl

theorem length_readCstr {s : Str} (h : readCstr buf = some (s, rest)) : rest.length < buf.length := by
  obtain ⟨⟨u, v⟩, hsplit, heq⟩ := Option.map_eq_some_iff.mp h
  obtain ⟨rfl, -⟩ := splitNul_eq_some hsplit
  cases heq
  simp only [List.length_append, List.length_cons]
  omega

theorem runs_message (hlen : payload.length < 2 ^ 63) (tag : UInt8) (scan : PgPipelineScan) :
    Runs (message tag payload scan) (· = scanMessage tag payload scan) := by
  rw [message, scanMessage.eq_def]
  split
  · refine (runs_cstrOf hlen).bind fun name hname => ?_
    subst hname
    cases hsplit : readCstr payload with
    | none => exact runs_ok rfl
    | some p =>
      obtain ⟨name, rest⟩ := p
      refine (runs_cstrOf (Nat.lt_trans (length_readCstr hsplit) hlen)).bind fun query hquery => ?_
      subst hquery
      dsimp only
      cases readCstr rest with
      | none => exact runs_ok rfl
      | some q => exact runs_ok rfl
  · cases payload with
    | nil =>
      rw [if_neg (by simp)]
      split
      · exact runs_ok rfl
      · exact runs_ok rfl
    | cons kind rest =>
      by_cases htag : tag = 0x43
      · by_cases htwo : 2 ≤ (kind :: rest).length
        · rw [if_pos ⟨htag, htwo⟩, if_pos htag]
          refine (runs_indexOf (Nat.succ_pos _)).bind fun b hb => ?_
          cases hb
          by_cases hkind : kind = 0x53
          · rw [if_pos hkind]
            dsimp only
            rw [if_pos ⟨htwo, hkind⟩]
            refine (runs_sliceOf (by omega) (Nat.le_refl _)).bind fun tail htail => ?_
            have hrest : tail = rest := by
              rw [htail]
              simp
            subst hrest
            refine (runs_cstrOf (Nat.lt_of_succ_lt hlen)).bind fun name hname => ?_
            subst hname
            cases readCstr tail with
            | none => exact runs_ok rfl
            | some p => exact runs_ok rfl
          · rw [if_neg hkind]
            dsimp only
            rw [if_neg (fun h => hkind h.2)]
            exact runs_ok rfl
        · rw [if_neg (fun h => htwo h.2), if_pos htag]
          dsimp only
          rw [if_neg (fun h => htwo h.1)]
          exact runs_ok rfl
      · rw [if_neg (fun h => htag h.1), if_neg htag]
        exact runs_ok rfl

/-- The header of a message, by positions. -/
theorem runs_lengthAt {tag a b c d : UInt8} (hdrop : raw.drop pos = tag :: a :: b :: c :: d :: rest)
    (hlen : raw.length < 2 ^ 63) : Runs (lengthAt raw pos) (· = le32 d c b a) := by
  have hlong := congrArg List.length hdrop
  simp only [List.length_drop, List.length_cons] at hlong
  have hget : ∀ i, raw[pos + i]? = (tag :: a :: b :: c :: d :: rest)[i]? := by
    intro i
    rw [← hdrop, List.getElem?_drop]
  refine (runs_addUsize (by omega)).bind fun p₁ hp₁ => ?_
  refine (runs_indexOf (by omega)).bind fun a' ha => ?_
  refine (runs_addUsize (by omega)).bind fun p₂ hp₂ => ?_
  refine (runs_indexOf (by omega)).bind fun b' hb => ?_
  refine (runs_addUsize (by omega)).bind fun p₃ hp₃ => ?_
  refine (runs_indexOf (by omega)).bind fun c' hc => ?_
  refine (runs_addUsize (by omega)).bind fun p₄ hp₄ => ?_
  refine (runs_indexOf (by omega)).bind fun d' hd => runs_ok ?_
  subst hp₁ hp₂ hp₃ hp₄
  rw [hget] at ha hb hc hd
  cases ha
  cases hb
  cases hc
  cases hd
  rfl

/-- One walk against the other. A round takes a header at least, so there are no more of them than bytes. -/
theorem runs_scanFrom (hlen : raw.length < 2 ^ 63) (hpos : pos ≤ raw.length) (hn : raw.length - pos < n)
    (scan : PgPipelineScan) :
    Runs (scanFrom raw n pos scan) (· = scanPgPipelineLoop n (raw.drop pos) scan) := by
  induction n generalizing pos scan with
  | zero => exact absurd hn (Nat.not_lt_zero _)
  | succ n ih =>
    rw [scanFrom, scanPgPipelineLoop.eq_def]
    refine (runs_addUsize (by omega)).bind fun headerEnd hheader => ?_
    subst hheader
    rcases hdrop : raw.drop pos with _ | ⟨tag, _ | ⟨a, _ | ⟨b, _ | ⟨c, _ | ⟨d, rest⟩⟩⟩⟩⟩
    case cons.cons.cons.cons.cons =>
      have hlong := congrArg List.length hdrop
      simp only [List.length_drop, List.length_cons] at hlong
      have hhead : raw[pos]? = some tag := by
        have hget := congrArg (·[0]?) hdrop
        rwa [List.getElem?_drop] at hget
      have hrest : raw.drop (pos + 5) = rest := by rw [← List.drop_drop, hdrop]; rfl
      have hlt := le32_lt d c b a
      rw [if_pos (by omega)]
      refine (runs_indexOf (by omega)).bind fun tag' htag => ?_
      rw [hhead] at htag
      cases htag
      refine (runs_lengthAt hdrop hlen).bind fun len hlength => ?_
      subst hlength
      dsimp only
      by_cases hshort : le32 d c b a < 4
      · rw [if_pos hshort, if_pos (.inl hshort)]
        exact runs_ok rfl
      rw [if_neg hshort]
      refine (runs_addUsize (by omega)).bind fun next hnext => ?_
      refine (runs_addUsize (by omega)).bind fun stop hstop => ?_
      by_cases hbehind : rest.length < le32 d c b a - 4
      · rw [if_pos (by omega), if_pos (.inr hbehind)]
        exact runs_ok rfl
      rw [if_neg (by omega), if_neg (not_or.mpr ⟨hshort, hbehind⟩)]
      refine (runs_addUsize (by omega)).bind fun start hstart => ?_
      refine (runs_sliceOf (by omega) (by omega)).bind fun payload hpayload => ?_
      have htake : payload = rest.take (le32 d c b a - 4) := by
        rw [hpayload, hstart, hrest]
        congr 1
        omega
      subst htake
      refine (runs_message (by simp; omega) tag scan).bind fun scan' hscan => ?_
      subst hscan
      have hafter : raw.drop stop = rest.drop (le32 d c b a - 4) := by
        rw [← hrest, List.drop_drop]
        congr 1
        omega
      rw [← hafter]
      exact ih (by omega) (by omega) _
    all_goals
      have hshort := congrArg List.length hdrop
      simp only [List.length_drop, List.length_cons, List.length_nil] at hshort
      rw [if_neg (by omega)]
      exact runs_ok rfl

end PgPipelineScan

/-- Whatever the bytes are, the walk comes to its end. -/
theorem runs_scanPgPipelineAt {raw : Bytes} (hlen : raw.length < 2 ^ 63) :
    scanPgPipelineAt raw = .ok (scanPgPipeline raw) := by
  obtain ⟨scan, hscan, rfl⟩ :=
    PgPipelineScan.runs_scanFrom (n := raw.length + 1) hlen (Nat.zero_le _) (by omega) ⟨[], []⟩
  exact hscan

/-! ## Sequences of messages -/

theorem fromUtf8Lossy_eq_nil {bytes : Bytes} : fromUtf8Lossy bytes = [] ↔ bytes = [] := by
  cases bytes with
  | nil => simp [fromUtf8Lossy, utf8Chunks]
  | cons b bytes => simp [fromUtf8Lossy, utf8Chunks]

namespace PgMsg

/-- Name and query of a well-formed `Parse`. -/
def parsed (m : PgMsg) : Option (Str × Str) :=
  match m.act with
  | some (.parse name query _) => some (fromUtf8Lossy name, fromUtf8Lossy query)
  | _ => none

/-- The name of a `Close` of a statement that has one. -/
def closed (m : PgMsg) : Option Str :=
  match m.act with
  | some (.close name) => if name = [] then none else some (fromUtf8Lossy name)
  | _ => none

variable {m : PgMsg}

/-- A well-formed `Parse` begins with two strings that end in NUL, -/
theorem parsed_eq_some {p : Str × Str} : m.parsed = some p ↔ ∃ name query types : Bytes, m.tag = 0x50 ∧
    m.payload = name ++ 0 :: (query ++ 0 :: types) ∧ (0 : UInt8) ∉ name ∧ (0 : UInt8) ∉ query ∧
    p = (fromUtf8Lossy name, fromUtf8Lossy query) := by
  constructor
  · intro h
    rw [parsed] at h
    split at h
    case h_2 => cases h
    case h_1 name query types hact =>
      obtain ⟨hpayload, hname, hquery⟩ := payload_of_parse hact
      refine ⟨name, query, types, ?_, hpayload, hname, hquery, (Option.some.inj h).symm⟩
      rw [act] at hact
      split at hact
      case isTrue htag => exact htag
      case isFalse =>
        split at hact
        · obtain ⟨p, -, heq⟩ := Option.map_eq_some_iff.mp hact
          cases heq
        · cases hact
  · rintro ⟨name, query, types, htag, hpayload, hname, hquery, rfl⟩
    rw [parsed, act, if_pos htag, hpayload, splitNul_append _ hname, Option.bind_some, splitNul_append _ hquery]
    rfl

end PgMsg

theorem PgPipelineScan.note_eq (scan : PgPipelineScan) (m : PgMsg) :
    scan.note m = ⟨scan.parses ++ m.parsed.toList, scan.closes ++ m.closed.toList⟩ := by
  rw [note, PgMsg.parsed, PgMsg.closed]
  rcases m.act with _ | ⟨name, query, types⟩ | ⟨name⟩
  · simp
  · simp
  · by_cases hname : name = []
    · simp [hname, fromUtf8Lossy_eq_nil]
    · simp [hname, fromUtf8Lossy_eq_nil]

/-- A scan has what the messages have that are read from the bytes, in their order. -/
theorem scan_messages (raw : Bytes) :
    scanPgPipeline raw = ⟨(readPipeline raw).filterMap PgMsg.parsed, (readPipeline raw).filterMap PgMsg.closed⟩ := by
  have hfold : ∀ (msgs : List PgMsg) (scan : PgPipelineScan), msgs.foldl PgPipelineScan.note scan =
      ⟨scan.parses ++ msgs.filterMap PgMsg.parsed, scan.closes ++ msgs.filterMap PgMsg.closed⟩ := by
    intro msgs
    induction msgs with
    | nil => simp
    | cons m msgs ih =>
      intro scan
      rw [List.foldl_cons, ih, PgPipelineScan.note_eq]
      cases hparsed : m.parsed <;> cases hclosed : m.closed <;> simp [hparsed, hclosed]
  rw [scanPgPipeline_eq, hfold]
  rfl

/-! ## Bytes and characters -/

section Counting

variable {a b : UInt8} {c : Char} {s rest bytes : Bytes}

/-- A chunk that does not decode has no ASCII byte. -/
theorem utf8Next_eq_none (h : utf8Next a s = (none, rest)) :
    ∃ t, s = t ++ rest ∧ ∀ x ∈ a :: t, 128 ≤ x.toNat := by
  unfold utf8Next at h
  split at h
  · cases h
  rename_i hhigh
  have ha : 128 ≤ a.toNat := by
    rw [UInt8.lt_iff_toNat_lt] at hhigh
    exact Nat.le_of_not_lt hhigh
  have hone : ∃ t, s = t ++ s ∧ ∀ x ∈ a :: t, 128 ≤ x.toNat := ⟨[], rfl, by simpa using ha⟩
  split at h
  · split at h
    · split at h
      · cases h
      · cases h
        exact hone
    · cases h
      exact hone
  split at h
  · split at h
    · rename_i b s₁
      split at h
      case isFalse =>
        cases h
        exact hone
      case isTrue hb =>
        have hb' := (isSecondOfThree_iff.mp hb).1
        split at h
        · split at h
          · cases h
          · cases h
            exact ⟨[b], rfl, by simp [ha, hb']⟩
        · cases h
          exact ⟨[b], rfl, by simp [ha, hb']⟩
    · cases h
      exact hone
  split at h
  · split at h
    · rename_i b s₁
      split at h
      case isFalse =>
        cases h
        exact hone
      case isTrue hb =>
        have hb' := (isSecondOfFour_iff.mp hb).1
        split at h
        · rename_i c s₂
          split at h
          case isFalse =>
            cases h
            exact ⟨[b], rfl, by simp [ha, hb']⟩
          case isTrue hc =>
            have hc' := (isContinuation_iff.mp hc).1
            split at h
            · split at h
              · cases h
              · cases h
                exact ⟨[b, c], rfl, by simp [ha, hb', hc']⟩
            · cases h
              exact ⟨[b, c], rfl, by simp [ha, hb', hc']⟩
        · cases h
          exact ⟨[b], rfl, by simp [ha, hb']⟩
    · cases h
      exact hone
  · cases h
    exact hone

/-- An ASCII byte is in the encoding of its own character only. -/
theorem count_utf8Char (hb : b.toNat < 128) (c : Char) :
    (utf8Char c).count b = if c = Char.ofNat b.toNat then 1 else 0 := by
  have hvalid := char_valid c
  have hchar : c = Char.ofNat b.toNat ↔ c.toNat = b.toNat := by
    rw [← Char.toNat_inj, toNat_char (by omega)]
  rw [utf8Char]
  split
  · rename_i hone
    have hbyte : UInt8.ofNat c.toNat = b ↔ c.toNat = b.toNat := by
      rw [← UInt8.toNat_inj, byte_ofNat (by omega)]
    rw [List.count_singleton]
    simp only [beq_iff_eq, hchar, hbyte]
  · rename_i hmany
    have hne : c ≠ Char.ofNat b.toNat := fun h => by
      have hcode := hchar.mp h
      omega
    rw [if_neg hne, List.count_eq_zero]
    intro hmem
    have hhigh : ∀ n, 128 ≤ n → n < 256 → UInt8.ofNat n ≠ b := by
      rintro n hge hlt rfl
      rw [byte_ofNat hlt] at hb
      omega
    split at hmem
    · simp only [List.mem_cons, List.not_mem_nil, or_false] at hmem
      rcases hmem with h | h <;> exact hhigh _ (by omega) (by omega) h.symm
    split at hmem
    · simp only [List.mem_cons, List.not_mem_nil, or_false] at hmem
      rcases hmem with h | h | h <;> exact hhigh _ (by omega) (by omega) h.symm
    · simp only [List.mem_cons, List.not_mem_nil, or_false] at hmem
      rcases hmem with h | h | h | h <;> exact hhigh _ (by omega) (by omega) h.symm

/-- Decoding keeps the ASCII characters. -/
theorem count_fromUtf8Lossy (hb : b.toNat < 128) (bytes : Bytes) :
    (fromUtf8Lossy bytes).count (Char.ofNat b.toNat) = bytes.count b := by
  have hloop : ∀ (n : Nat) (bytes : Bytes), bytes.length ≤ n →
      ((utf8Chunks n bytes).map fun c => c.getD (Char.ofNat 0xFFFD)).count (Char.ofNat b.toNat) = bytes.count b := by
    intro n
    induction n with
    | zero =>
      intro bytes hn
      rw [List.eq_nil_of_length_eq_zero (Nat.le_zero.mp hn)]
      rfl
    | succ n ih =>
      rintro (_ | ⟨a, s⟩) hn
      · rfl
      rw [List.length_cons] at hn
      rw [utf8Chunks, List.map_cons]
      rcases hnext : utf8Next a s with ⟨_ | c, rest⟩
      · obtain ⟨t, rfl, ht⟩ := utf8Next_eq_none hnext
        rw [List.length_append] at hn
        have hnone : (a :: t).count b = 0 := List.count_eq_zero.mpr fun hmem => by
          have hhigh := ht b hmem
          omega
        have hne : Char.ofNat 0xFFFD ≠ Char.ofNat b.toNat := by
          rw [← Char.toNat_inj.ne, toNat_char (by omega), toNat_char (by omega)]
          omega
        calc (Char.ofNat 0xFFFD :: _).count (Char.ofNat b.toNat)
            = rest.count b := by rw [List.count_cons_of_ne hne, ih rest (by omega)]
          _ = (a :: t).count b + rest.count b := by rw [hnone, Nat.zero_add]
          _ = (a :: (t ++ rest)).count b := List.count_append.symm
      · have hchar := utf8Char_of_utf8Next hnext
        have hlen := congrArg List.length hchar
        have hpos := List.length_pos_iff.mpr (utf8Char_ne_nil c)
        rw [List.length_append, List.length_cons] at hlen
        rw [← hchar, List.count_append, count_utf8Char hb, Option.getD_some, List.count_cons, ih rest (by omega),
          Nat.add_comm]
        simp only [beq_iff_eq]
  exact hloop bytes.length bytes (Nat.le_refl _)

theorem toUtf8_count (hb : b.toNat < 128) (s : Str) : (toUtf8 s).count b = s.count (Char.ofNat b.toNat) := by
  rw [← count_fromUtf8Lossy hb, fromUtf8Lossy_toUtf8]

/-- The bytes of a text have a NUL where the text has one. -/
theorem nul_notMem_toUtf8 {s : Str} (h : '\x00' ∉ s) : (0 : UInt8) ∉ toUtf8 s := by
  rw [← List.count_eq_zero, toUtf8_count (by decide), List.count_eq_zero]
  exact h

end Counting

/-! ## Preparing again -/

section Reparse

variable {m : PgMsg} {raw : Bytes} {p : Str × Str} {name query : Str}

/-- The messages that are read are there, one behind the other. -/
theorem readPipelineLoop_spells (n : Nat) (raw : Bytes) :
    ∃ tail, raw = pipelineBytes (readPipelineLoop n raw) ++ tail := by
  induction n generalizing raw with
  | zero => exact ⟨raw, rfl⟩
  | succ n ih =>
    rw [readPipelineLoop.eq_def]
    rcases raw with _ | ⟨tag, _ | ⟨a, _ | ⟨b, _ | ⟨c, _ | ⟨d, rest⟩⟩⟩⟩⟩
    case cons.cons.cons.cons.cons =>
      dsimp only
      split
      · exact ⟨_, rfl⟩
      · rename_i hlong
        obtain ⟨hfour, hrest⟩ := not_or.mp hlong
        obtain ⟨tail, htail⟩ := ih (rest.drop (le32 d c b a - 4))
        have hlen : beNat32 [a, b, c, d] = (rest.take (le32 d c b a - 4)).length + 4 := by
          rw [List.length_take, Nat.min_eq_left (by omega)]
          change le32 d c b a = _
          omega
        refine ⟨tail, ?_⟩
        rw [pipelineBytes_cons, List.append_assoc, ← htail, buildPgRaw, beNat32_be32 hlen]
        simp
    all_goals exact ⟨_, rfl⟩

/-- A `Parse` takes more letters `P` than its texts have. -/
theorem count_parsed (h : m.parsed = some p) :
    p.1.count 'P' + p.2.count 'P' + 1 ≤ (buildPgRaw m.tag m.payload).count 0x50 := by
  obtain ⟨name, query, types, htag, hpayload, -, -, rfl⟩ := PgMsg.parsed_eq_some.mp h
  have hname := count_fromUtf8Lossy (b := 0x50) (by decide) name
  have hquery := count_fromUtf8Lossy (b := 0x50) (by decide) query
  change (fromUtf8Lossy name).count 'P' = _ at hname
  change (fromUtf8Lossy query).count 'P' = _ at hquery
  rw [hname, hquery, htag, hpayload, buildPgRaw]
  simp only [List.cons_append, List.count_cons, List.count_append]
  simp
  omega

theorem count_read {n : Nat} (hm : m ∈ readPipelineLoop n raw) (h : m.parsed = some p) :
    p.1.count 'P' + p.2.count 'P' + 1 ≤ raw.count 0x50 := by
  obtain ⟨tail, htail⟩ := readPipelineLoop_spells n raw
  obtain ⟨before, after, hsplit⟩ := List.append_of_mem hm
  have hcount := congrArg (List.count 0x50) htail
  rw [hsplit] at hcount
  simp only [pipelineBytes, List.flatMap_append, List.flatMap_cons, List.count_append] at hcount
  have hone := count_parsed h
  omega

/-- The payload of the `Parse` that is built. -/
def reparsePayload (name query : Str) : Bytes := toUtf8 name ++ [0] ++ toUtf8 query ++ [0] ++ [0, 0]

/-- Where the message fits its length, it is read. -/
theorem scan_reparse (hname : '\x00' ∉ name) (hquery : '\x00' ∉ query)
    (hfits : (toUtf8 name).length + (toUtf8 query).length + 8 < 2 ^ 32) :
    scanPgPipeline (buildPgReparse name query) = ⟨[(name, query)], []⟩ := by
  let parse : PgMsg := ⟨0x50, reparsePayload name query, by
    simp only [reparsePayload, List.length_append, List.length_cons, List.length_nil]
    omega⟩
  let sync : PgMsg := ⟨0x53, [], by decide⟩
  have hparse : parse.act = some (.parse (toUtf8 name) (toUtf8 query) [0, 0]) := by
    simp [parse, reparsePayload, PgMsg.act, splitNul_append _ (nul_notMem_toUtf8 hname),
      splitNul_append _ (nul_notMem_toUtf8 hquery)]
  have hraw : buildPgReparse name query = pipelineBytes [parse, sync] := by
    simp [parse, sync, reparsePayload, buildPgReparse, pipelineBytes]
  have hsync : sync.act = none := rfl
  rw [hraw, scan_messages, readPipeline_pipeline]
  simp [PgMsg.parsed, PgMsg.closed, hparse, hsync, fromUtf8Lossy_toUtf8]

/-- What begins as the payload does has both strings, or one of them at most. -/
theorem parsed_of_reparse (hname : '\x00' ∉ name) (hquery : '\x00' ∉ query) {k : Nat} {tail : Bytes}
    (hm : m.payload = (reparsePayload name query ++ tail).take k) (h : m.parsed = some p) :
    (toUtf8 name).length + (toUtf8 query).length + 2 ≤ k := by
  obtain ⟨u, v, types, -, hpayload, hu, hv, -⟩ := PgMsg.parsed_eq_some.mp h
  have hname' := nul_notMem_toUtf8 hname
  have hquery' := nul_notMem_toUtf8 hquery
  have hbody : toUtf8 name ++ 0 :: (toUtf8 query ++ 0 :: (0 :: 0 :: tail)) =
      u ++ 0 :: (v ++ 0 :: (types ++ (reparsePayload name query ++ tail).drop k)) := by
    have hsplit := List.take_append_drop k (reparsePayload name query ++ tail)
    rw [← hm, hpayload] at hsplit
    simpa [reparsePayload] using hsplit.symm
  have hfirst := congrArg splitNul hbody
  rw [splitNul_append _ hname', splitNul_append _ hu] at hfirst
  obtain ⟨hu', hrest⟩ := Prod.mk.inj (Option.some.inj hfirst)
  have hsecond := congrArg splitNul hrest
  rw [splitNul_append _ hquery', splitNul_append _ hv] at hsecond
  obtain ⟨hv', -⟩ := Prod.mk.inj (Option.some.inj hsecond)
  have hlen := congrArg List.length (hm.symm.trans hpayload)
  simp only [List.length_take, List.length_append, List.length_cons, ← hu', ← hv'] at hlen
  omega

/-- Where it does not, its text is not found: the length wraps around, and what is read then is too short for both
strings or begins behind the letter of the message. -/
theorem scan_reparse_long (hname : '\x00' ∉ name) (hquery : '\x00' ∉ query)
    (hlong : 2 ^ 32 ≤ (toUtf8 name).length + (toUtf8 query).length + 8) :
    scanPgPipeline (buildPgReparse name query) ≠ ⟨[(name, query)], []⟩ := by
  intro hscan
  have hmem : (name, query) ∈ (scanPgPipeline (buildPgReparse name query)).parses := by
    rw [hscan]
    exact List.mem_singleton_self _
  rw [scan_messages] at hmem
  obtain ⟨m, hm, hparsed⟩ := List.mem_filterMap.mp hmem
  have hlength : (reparsePayload name query).length = (toUtf8 name).length + (toUtf8 query).length + 4 := by
    simp only [reparsePayload, List.length_append, List.length_cons, List.length_nil]
    omega
  obtain ⟨a, b, c, d, hbe⟩ : ∃ a b c d, be32 ((reparsePayload name query).length + 4) = [a, b, c, d] :=
    ⟨_, _, _, _, rfl⟩
  have hwrapped : le32 d c b a = ((reparsePayload name query).length + 4) % 2 ^ 32 := by
    rw [← be32_beNat32 _ [], hbe]
    rfl
  have hraw : buildPgReparse name query =
      0x50 :: a :: b :: c :: d :: (reparsePayload name query ++ buildPgRaw 0x53 []) := by
    rw [buildPgReparse, ← reparsePayload, buildPgRaw, hbe]
    rfl
  rw [hraw, readPipeline, readPipelineLoop] at hm
  split at hm
  · cases hm
  rcases List.mem_cons.mp hm with rfl | hm
  · have hboth := parsed_of_reparse hname hquery rfl hparsed
    omega
  · have hcount := count_read hm hparsed
    dsimp only at hcount
    have hdrop := (List.drop_sublist (le32 d c b a - 4)
      (reparsePayload name query ++ buildPgRaw 0x53 [])).count_le 0x50
    have hbody : (reparsePayload name query ++ buildPgRaw 0x53 []).count 0x50 =
        name.count 'P' + query.count 'P' := by
      have hn : (toUtf8 name).count 0x50 = name.count 'P' := toUtf8_count (by decide) name
      have hq : (toUtf8 query).count 0x50 = query.count 'P' := toUtf8_count (by decide) query
      have hsync : (buildPgRaw 0x53 []).count 0x50 = 0 := by decide
      simp only [reparsePayload, List.count_append, hn, hq, hsync]
      simp
    omega

theorem scan_reparse_iff (hname : '\x00' ∉ name) (hquery : '\x00' ∉ query) :
    scanPgPipeline (buildPgReparse name query) = ⟨[(name, query)], []⟩ ↔
      (toUtf8 name).length + (toUtf8 query).length + 8 < 2 ^ 32 :=
  ⟨fun h => Nat.lt_of_not_le fun hlong => scan_reparse_long hname hquery hlong h, scan_reparse hname hquery⟩

end Reparse

/-- **Scanning a pipeline**: what `read_command` returns is a sequence of messages. Its scan has name and query of every
well-formed `Parse` and the name of every `Close` of a named statement, in their order. No bytes take the scan out of
range or keep it from coming to an end. What is built to prepare a statement again is scanned as one `Parse` just if the
length of the message fits. -/
theorem pipelines_scanned (msgs : List PgMsg) (bytes : Slice) {name query : Str} (hname : '\x00' ∉ name)
    (hquery : '\x00' ∉ query) :
    (∀ stream raw rest, readWireCommand stream = .ok (.stmt raw, rest) →
      ∃ msgs : List PgMsg, raw = pipelineBytes msgs) ∧
    scanPgPipeline (pipelineBytes msgs) = ⟨msgs.filterMap PgMsg.parsed, msgs.filterMap PgMsg.closed⟩ ∧
    scanPgPipelineAt bytes = .ok (scanPgPipeline bytes) ∧
    (scanPgPipeline (buildPgReparse name query) = ⟨[(name, query)], []⟩ ↔
      (toUtf8 name).length + (toUtf8 query).length + 8 < 2 ^ 32) := by
  refine ⟨fun stream raw rest h => ?_, ?_, runs_scanPgPipelineAt bytes.2, scan_reparse_iff hname hquery⟩
  · obtain ⟨msgs, hraw, -⟩ := pipeline_of_readWireCommand h
    exact ⟨msgs, hraw⟩
  · rw [scan_messages, readPipeline_pipeline]

/-- A statement of an ordinary size. -/
theorem pipelines_scanned_select :
    scanPgPipeline (buildPgReparse "s1".toList "SELECT 1".toList) = ⟨[("s1".toList, "SELECT 1".toList)], []⟩ :=
  (pipelines_scanned [] ⟨[], by decide⟩ (by decide) (by decide)).2.2.2.mpr (by decide)

/-- Bytes `0xFF`, which begin no character, are decoded to as many replacement characters. -/
theorem lossy_replicate (n : Nat) : fromUtf8Lossy (List.replicate n 0xFF) = List.replicate n (Char.ofNat 0xFFFD) := by
  rw [fromUtf8Lossy, List.length_replicate]
  induction n with
  | zero => rfl
  | succ n ih => exact congrArg (Char.ofNat 0xFFFD :: ·) ih

/-- A statement of one and a half gigabytes, none of which is text, is not found: decoded it takes three times as many
bytes, more than the length of a message can tell. -/
theorem long_statement_not_scanned :
    ¬ ∀ name query : Str, '\x00' ∉ name → '\x00' ∉ query →
      scanPgPipeline (buildPgReparse name query) = ⟨[(name, query)], []⟩ := by
  intro h
  have hname : '\x00' ∉ "s1".toList := by decide
  have hquery : '\x00' ∉ fromUtf8Lossy (List.replicate 1500000000 0xFF) := by
    rw [lossy_replicate]
    exact fun hmem => absurd (List.eq_of_mem_replicate hmem) (by decide)
  refine scan_reparse_long hname hquery ?_ (h _ _ hname hquery)
  have hlength : ∀ n, (toUtf8 (List.replicate n (Char.ofNat 0xFFFD))).length = 3 * n := by
    intro n
    simp [toUtf8, utf8Char, Nat.mul_comm]
  rw [lossy_replicate, hlength]
  omega

end TurbineProxy
