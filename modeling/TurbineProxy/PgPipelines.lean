import TurbineProxy.StmtShadow

/-!
# PostgreSQL pipelines and the statement shadow

A client's extended-query pipeline is a sequence of framed messages. What its named `Parse` and `Close`
messages do to the client's statements is a fold over them in the order in which they appear
(`PgStmtShadow.follow`). The proxy takes the pipeline apart differently: `scan_pg_pipeline` collects the
registrations and the closes in two lists, and `apply_scan` performs all registrations first.

`applyScan_eq_follow` says for which pipelines that makes no difference.
-/

namespace TurbineProxy

/-! ## Messages -/

/-- The bytes of a pipeline. -/
def pipelineBytes (msgs : List PgMsg) : Bytes := msgs.flatMap fun m => buildPgRaw m.tag m.payload

/-- What a message does to the client's statements. -/
inductive PgAct : Type where
  /-- `Parse`: name, query and the parameter types that follow -/
  | parse (name query types : Bytes)
  /-- `Close` of a statement -/
  | close (name : Bytes)
  deriving DecidableEq

/-- The name of the statement. -/
def PgAct.name : PgAct → Bytes
  | .parse name .. => name
  | .close name => name

/-- Read a `Parse` or a `Close` of a statement. -/
def PgMsg.act (m : PgMsg) : Option PgAct :=
  if m.tag = 0x50 then
    (splitNul m.payload).bind fun p => (splitNul p.2).map fun q => .parse p.1 q.1 q.2
  else if m.tag = 0x43 ∧ m.payload.head? = some 0x53 then
    (splitNul m.payload.tail).map fun p => .close p.1
  else none

/-! ## Scanning a pipeline -/

/-- What a scan collects from one message. -/
def PgPipelineScan.note (scan : PgPipelineScan) (m : PgMsg) : PgPipelineScan :=
  match m.act with
  | some (.parse name query _) =>
    { scan with parses := scan.parses ++ [(fromUtf8Lossy name, fromUtf8Lossy query)] }
  | some (.close name) =>
    if fromUtf8Lossy name = [] then scan
    else { scan with closes := scan.closes ++ [fromUtf8Lossy name] }
  | none => scan

theorem scanMessage_eq (m : PgMsg) (scan : PgPipelineScan) :
    scanMessage m.tag m.payload scan = scan.note m := by
  unfold scanMessage PgPipelineScan.note PgMsg.act readCstr
  by_cases hparse : m.tag = 0x50
  · simp only [hparse, if_true]
    rcases splitNul m.payload with _ | ⟨name, rest⟩
    · rfl
    · simp only [Option.map_some, Option.bind_some]
      rcases splitNul rest with _ | ⟨query, types⟩ <;> rfl
  · by_cases hclose : m.tag = 0x43
    · rcases hpayload : m.payload with _ | ⟨kind, rest⟩
      · simp [hclose]
      · by_cases hkind : kind = 0x53
        · rcases rest with _ | ⟨b, rest⟩
          · simp [hclose, hkind, splitNul]
          · simp only [hclose, hkind, List.head?_cons, List.tail_cons, and_self, if_true]
            rcases splitNul (b :: rest) with _ | ⟨name, rest'⟩
            · simp
            · simp [List.isEmpty_iff]
        · simp [hclose, hkind]
    · simp [hparse, hclose]

/-- One round of the loop consumes one message. -/
theorem scanPgPipelineLoop_frame {tag : UInt8} {payload : Bytes} (hsmall : payload.length + 4 < 2 ^ 32)
    (n : Nat) (rest : Bytes) (scan : PgPipelineScan) :
    scanPgPipelineLoop (n + 1) (buildPgRaw tag payload ++ rest) scan =
      scanPgPipelineLoop n rest (scanMessage tag payload scan) := by
  obtain ⟨a, b, c, d, hraw, hlen⟩ := buildPgRaw_append tag hsmall rest
  have hshort : ¬(payload.length + 4 < 4 ∨
      (payload ++ rest).length < payload.length + 4 - 4) := by
    simp only [List.length_append]
    omega
  have htake : (payload ++ rest).take (payload.length + 4 - 4) = payload := by simp
  have hdrop : (payload ++ rest).drop (payload.length + 4 - 4) = rest := by simp
  rw [hraw]
  simp only [scanPgPipelineLoop, hlen, hshort, if_false, htake, hdrop]

theorem scanPgPipelineLoop_pipeline (msgs : List PgMsg) (n : Nat) (scan : PgPipelineScan) :
    scanPgPipelineLoop (msgs.length + n) (pipelineBytes msgs) scan =
      msgs.foldl PgPipelineScan.note scan := by
  induction msgs generalizing scan with
  | nil => cases n <;> rfl
  | cons m msgs ih =>
    rw [List.length_cons, Nat.add_right_comm, pipelineBytes, List.flatMap_cons,
      scanPgPipelineLoop_frame m.small, scanMessage_eq]
    exact ih _

/-- Every message has a header at least. -/
theorem length_le_pipeline (msgs : List PgMsg) : msgs.length ≤ (pipelineBytes msgs).length := by
  induction msgs with
  | nil => exact Nat.le_refl 0
  | cons m msgs ih =>
    simp only [pipelineBytes, List.flatMap_cons, List.length_append, List.length_cons, buildPgRaw]
      at ih ⊢
    omega

/-- The scan of a pipeline visits its messages in order. -/
theorem scanPgPipeline_pipeline (msgs : List PgMsg) :
    scanPgPipeline (pipelineBytes msgs) = msgs.foldl PgPipelineScan.note ⟨[], []⟩ := by
  obtain ⟨n, hn⟩ := Nat.exists_eq_add_of_le (length_le_pipeline msgs)
  rw [scanPgPipeline, hn, Nat.add_assoc]
  exact scanPgPipelineLoop_pipeline msgs _ _

/-! ## The shadow, message by message -/

namespace PgStmtShadow

variable (s : PgStmtShadow)

/-- The text registered under a name. -/
def get (name : Str) : Option Str := s.stmts.lookup name

/-- What one message does to the shadow when it is taken by itself. -/
def follow (m : PgMsg) : PgStmtShadow :=
  match m.act with
  | some (.parse name query _) =>
    if fromUtf8Lossy name = [] then s else s.insert (fromUtf8Lossy name) (fromUtf8Lossy query)
  | some (.close name) => if fromUtf8Lossy name = [] then s else s.remove (fromUtf8Lossy name)
  | none => s

/-- The registrations of a scan. -/
def register (parses : List (Str × Str)) : PgStmtShadow :=
  parses.foldl (fun s p => if p.1.isEmpty then s else s.insert p.1 p.2) s

variable {s}

theorem get_remove (name n : Str) :
    (s.remove name).get n = if n = name then none else s.get n := by
  simp only [get, remove]
  induction s.stmts with
  | nil => simp
  | cons e rest ih =>
    obtain ⟨k, q⟩ := e
    by_cases hk : k = name
    · subst hk
      by_cases hn : n = k
      · simpa [hn] using ih
      · have hne : (n == k) = false := by simpa using hn
        simpa [hn, List.lookup_cons, hne] using ih
    · by_cases hn : n = k
      · simp [hk, hn]
      · have hne : (n == k) = false := by simpa using hn
        simpa [List.filter_cons, List.lookup_cons, hk, hne] using ih

theorem get_insert (name query n : Str) :
    (s.insert name query).get n = if n = name then some query else s.get n := by
  have hrest := get_remove (s := s) name n
  simp only [get, remove, insert, List.lookup_cons] at hrest ⊢
  by_cases hn : n = name
  · simp [hn]
  · have hne : (n == name) = false := by simpa using hn
    rw [if_neg hn] at hrest ⊢
    rw [hne]
    exact hrest

theorem get_removeAll (closes : List Str) (n : Str) :
    (closes.foldl remove s).get n = if n ∈ closes then none else s.get n := by
  induction closes generalizing s with
  | nil => simp
  | cons c closes ih =>
    rw [List.foldl_cons, ih, get_remove]
    by_cases hn : n ∈ closes <;> by_cases hc : n = c <;> simp [hn, hc]

/-- What a scan leaves registered under a name. -/
theorem get_applyScan (scan : PgPipelineScan) (n : Str) :
    (s.applyScan scan).get n = if n ∈ scan.closes then none else (s.register scan.parses).get n :=
  get_removeAll scan.closes n

theorem register_append (parses : List (Str × Str)) (p : Str × Str) :
    s.register (parses ++ [p]) =
      if p.1.isEmpty then s.register parses else (s.register parses).insert p.1 p.2 := by
  simp [register]

end PgStmtShadow

/-! ## Where the two differ -/

/-- What a message does to a name: `true` registers it, `false` removes it. -/
def PgMsg.touch (n : Str) (m : PgMsg) : Option Bool :=
  match m.act with
  | some (.parse name ..) => if fromUtf8Lossy name = n ∧ n ≠ [] then some true else none
  | some (.close name) => if fromUtf8Lossy name = n ∧ n ≠ [] then some false else none
  | none => none

/-- What a pipeline does to a name, in order. -/
def touches (n : Str) (msgs : List PgMsg) : List Bool := msgs.filterMap (·.touch n)

/-- The pipeline closes a name, and registers it again without closing it after that. -/
def reopens (n : Str) (msgs : List PgMsg) : Bool :=
  (touches n msgs).contains false && (touches n msgs).getLast? == some true

/-- A pipeline against its scan, for one name: what the scan remembers of the closes, and what the
registrations and the messages one by one leave behind. -/
structure Scanned (s : PgStmtShadow) (n : Str) (msgs : List PgMsg) (scan : PgPipelineScan) : Prop where
  /-- the closes are those of the pipeline -/
  closes : n ∈ scan.closes ↔ false ∈ touches n msgs
  /-- the registrations are those of the pipeline -/
  parses : n ≠ [] → (n ∈ scan.parses.map Prod.fst ↔ true ∈ touches n msgs)
  /-- unless it was closed last, the last registration counts -/
  registered : (touches n msgs).getLast? ≠ some false →
    (msgs.foldl PgStmtShadow.follow s).get n = (s.register scan.parses).get n
  /-- what was registered last is there -/
  opened : (touches n msgs).getLast? = some true →
    ((msgs.foldl PgStmtShadow.follow s).get n).isSome = true
  /-- what was closed last is not -/
  closed : (touches n msgs).getLast? = some false → (msgs.foldl PgStmtShadow.follow s).get n = none

theorem touches_append (n : Str) (msgs : List PgMsg) (m : PgMsg) :
    touches n (msgs ++ [m]) = touches n msgs ++ (m.touch n).toList := by
  cases h : m.touch n <;> simp [touches, h]

section Touch

variable {s : PgStmtShadow} {n : Str} {m : PgMsg} {scan : PgPipelineScan}

/-- A message that does not touch a name leaves it as it was, in the shadow and in the scan. -/
theorem untouched (s : PgStmtShadow) (scan : PgPipelineScan) (h : m.touch n = none) :
    (s.follow m).get n = s.get n ∧ (n ∈ (scan.note m).closes ↔ n ∈ scan.closes) ∧
      (n ≠ [] → (n ∈ (scan.note m).parses.map Prod.fst ↔ n ∈ scan.parses.map Prod.fst)) ∧
      (s.register (scan.note m).parses).get n = (s.register scan.parses).get n := by
  rw [PgMsg.touch] at h
  unfold PgStmtShadow.follow PgPipelineScan.note
  rcases hact : m.act with _ | ⟨name, query, types⟩ | ⟨name⟩ <;> simp only [hact] at h ⊢
  · simp
  · simp only [PgStmtShadow.register_append, List.isEmpty_iff]
    by_cases hname : fromUtf8Lossy name = []
    · simp +contextual [hname]
    · have hne : ¬n = fromUtf8Lossy name := by
        rintro rfl
        simp [hname] at h
      simp [hname, PgStmtShadow.get_insert, hne]
  · by_cases hname : fromUtf8Lossy name = []
    · simp [hname]
    · have hne : ¬n = fromUtf8Lossy name := by
        rintro rfl
        simp [hname] at h
      simp [hname, PgStmtShadow.get_remove, hne]

theorem touched_open (s : PgStmtShadow) (scan : PgPipelineScan) (h : m.touch n = some true) :
    ((s.follow m).get n).isSome = true ∧ (scan.note m).closes = scan.closes ∧
      n ∈ (scan.note m).parses.map Prod.fst ∧
      ∀ s' : PgStmtShadow, (s.follow m).get n = (s'.register (scan.note m).parses).get n := by
  rw [PgMsg.touch] at h
  unfold PgStmtShadow.follow PgPipelineScan.note
  rcases hact : m.act with _ | ⟨name, query, types⟩ | ⟨name⟩ <;> simp only [hact] at h ⊢
  · cases h
  · obtain ⟨⟨rfl, hne⟩, -⟩ := Option.ite_none_right_eq_some.mp h
    simp [PgStmtShadow.register_append, List.isEmpty_iff, hne, PgStmtShadow.get_insert]
  · obtain ⟨-, h⟩ := Option.ite_none_right_eq_some.mp h
    cases h

theorem touched_close (s : PgStmtShadow) (scan : PgPipelineScan) (h : m.touch n = some false) :
    (s.follow m).get n = none ∧ n ∈ (scan.note m).closes ∧ (scan.note m).parses = scan.parses := by
  rw [PgMsg.touch] at h
  unfold PgStmtShadow.follow PgPipelineScan.note
  rcases hact : m.act with _ | ⟨name, query, types⟩ | ⟨name⟩ <;> simp only [hact] at h ⊢
  · cases h
  · obtain ⟨-, h⟩ := Option.ite_none_right_eq_some.mp h
    cases h
  · obtain ⟨⟨rfl, hne⟩, -⟩ := Option.ite_none_right_eq_some.mp h
    simp [hne, PgStmtShadow.get_remove]

/-- The scan of one more message adds what this message prepares or closes. -/
theorem Scanned.step {msgs : List PgMsg} (h : Scanned s n msgs scan) (m : PgMsg) :
    Scanned s n (msgs ++ [m]) (scan.note m) := by
  obtain ⟨hcloses, hparses, hregistered, hopened, hclosed⟩ := h
  have hfold : (msgs ++ [m]).foldl PgStmtShadow.follow s =
      (msgs.foldl PgStmtShadow.follow s).follow m := by simp
  have htouches := touches_append n msgs m
  rcases htouch : m.touch n with _ | _ | _
  · obtain ⟨hget, hclose, hparse, -⟩ :=
      untouched (msgs.foldl PgStmtShadow.follow s) scan htouch
    have hreg := (untouched s scan htouch).2.2.2
    rw [htouch, Option.toList_none, List.append_nil] at htouches
    constructor <;> rw [htouches]
    · exact hclose.trans hcloses
    · exact fun hn => (hparse hn).trans (hparses hn)
    · rw [hfold, hget, hreg]
      exact hregistered
    · rw [hfold, hget]
      exact hopened
    · rw [hfold, hget]
      exact hclosed
  · obtain ⟨hget, hclose, hparse⟩ :=
      touched_close (msgs.foldl PgStmtShadow.follow s) scan htouch
    rw [htouch, Option.toList_some] at htouches
    constructor <;> rw [htouches]
    · simp [hclose]
    · intro hn
      rw [hparse, hparses hn]
      simp
    · intro hlast
      simp at hlast
    · intro hlast
      simp at hlast
    · intro _
      rw [hfold, hget]
  · obtain ⟨hget, hclose, hparse, hreg⟩ :=
      touched_open (msgs.foldl PgStmtShadow.follow s) scan htouch
    rw [htouch, Option.toList_some] at htouches
    constructor <;> rw [htouches]
    · simp [hclose, hcloses]
    · intro _
      simp [hparse]
    · intro _
      rw [hfold]
      exact hreg s
    · intro _
      rw [hfold, hget]
    · intro hlast
      simp at hlast

/-- And so the scan of a whole pipeline has what its messages prepare and close, in their order. -/
theorem Scanned.run {pre : List PgMsg} (h : Scanned s n pre scan) (msgs : List PgMsg) :
    Scanned s n (pre ++ msgs) (msgs.foldl PgPipelineScan.note scan) := by
  induction msgs generalizing pre scan with
  | nil =>
    rw [List.append_nil]
    exact h
  | cons m msgs ih =>
    have hnext := ih (h.step m)
    rw [List.append_assoc] at hnext
    exact hnext

theorem scanned (s : PgStmtShadow) (n : Str) (msgs : List PgMsg) :
    Scanned s n msgs (scanPgPipeline (pipelineBytes msgs)) := by
  rw [scanPgPipeline_pipeline]
  have hnil : Scanned s n [] ⟨[], []⟩ :=
    ⟨by simp [touches], fun _ => by simp [touches], fun _ => rfl, fun h => by simp [touches] at h,
      fun h => by simp [touches] at h⟩
  exact hnil.run msgs

/-- For one name, the shadow follows the messages unless the pipeline reopens the name. -/
theorem get_applyScan_eq_follow (s : PgStmtShadow) (n : Str) (msgs : List PgMsg) :
    (s.applyScan (scanPgPipeline (pipelineBytes msgs))).get n =
        (msgs.foldl PgStmtShadow.follow s).get n ↔ reopens n msgs = false := by
  obtain ⟨hcloses, -, hregistered, hopened, hclosed⟩ := scanned s n msgs
  rw [PgStmtShadow.get_applyScan]
  rw [reopens]
  by_cases hin : false ∈ touches n msgs
  · rw [if_pos (hcloses.mpr hin)]
    rcases hlast : (touches n msgs).getLast? with _ | _ | _
    · rw [List.getLast?_eq_none_iff] at hlast
      rw [hlast] at hin
      cases hin
    · simp [hclosed hlast]
    · have hsome := hopened hlast
      rw [Option.isSome_iff_exists] at hsome
      obtain ⟨q, hq⟩ := hsome
      simp [hin, hq]
  · rw [if_neg (mt hcloses.mp hin)]
    have hlast : (touches n msgs).getLast? ≠ some false := by
      intro h
      exact hin (List.mem_of_getLast? h)
    simp [hin, hregistered hlast]

end Touch

/-- **The shadow follows the order of the messages** for every name exactly when the pipeline reopens no
name, that is, never registers a name it has closed before without closing it once more. -/
theorem applyScan_eq_follow (s : PgStmtShadow) (msgs : List PgMsg) :
    (∀ n, (s.applyScan (scanPgPipeline (pipelineBytes msgs))).get n =
      (msgs.foldl PgStmtShadow.follow s).get n) ↔ ∀ n, reopens n msgs = false :=
  forall_congr' fun n => get_applyScan_eq_follow s n msgs

/-- A frontend message with an ASCII payload. -/
def asciiMsg (tag : UInt8) (payload : String) (h : (asciiBytes payload).length + 4 < 2 ^ 32) : PgMsg :=
  ⟨tag, asciiBytes payload, h⟩

/-- `Close s`, then `Parse s`: the shadow loses `s`. -/
theorem closed_then_parsed_lost :
    let msgs := [asciiMsg 0x43 "Ss\x00" (by decide), asciiMsg 0x50 "s\x00SELECT 2\x00\x00\x00" (by decide)]
    let s : PgStmtShadow := ⟨[("s".toList, "SELECT 1".toList)]⟩
    (s.applyScan (scanPgPipeline (pipelineBytes msgs))).get "s".toList = none ∧
      (msgs.foldl PgStmtShadow.follow s).get "s".toList = some "SELECT 2".toList := by
  decide +kernel

end TurbineProxy
