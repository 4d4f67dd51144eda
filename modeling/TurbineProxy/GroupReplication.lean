import Mathlib.Data.List.DropRight
import TurbineProxy.Failover
import TurbineProxy.Pool
import TurbineProxy.ResultSet

/-!
# Which backend group replication has elected

`group_replication.rs`: the rows of `performance_schema.replication_group_members`, the address that is
made of a row, and the search for it among the configured addresses. `apply_members` keeps the result in
`gr_primary_idx`.

A member and a backend are the same `Endpoint` if host and port are. `findBackendIndex_exact` says for
which groups and configurations the search tells endpoints apart: the port 3306 is left out of a
member's address and stands in a configured one.
-/

namespace TurbineProxy

/-! ## `group_replication.rs` -/

/-- `GrMember` -/
structure GrMember where
  /-- combined address -/
  addr : Str
  /-- `MEMBER_ROLE` -/
  role : Str
  /-- `MEMBER_STATE` -/
  state : Str
  /-- `MEMBER_VERSION` -/
  version : Str
  deriving DecidableEq

/-- The configured addresses of a `GrChecker`. -/
structure GrChecker where
  /-- `primary_config.addr` -/
  primary : Str
  /-- the addresses of `replica_configs` -/
  replicas : List Str
  deriving DecidableEq

/-- Rust's `eq_ignore_ascii_case` -/
def eqIgnoreAsciiCase (s t : Str) : Bool := s.map Str.asciiLower == t.map Str.asciiLower

/-- `addr_matches` -/
def addrMatches (configAddr grAddr : Str) : Bool := eqIgnoreAsciiCase configAddr.trim grAddr.trim

/-- `str_col` -/
def strCol (row : List (Option Str)) (idx : Nat) : Str := (row[idx]?.bind id).getD []

/-- What `parse_gr_members` makes of a row. -/
def GrMember.ofRow (row : List (Option Str)) : GrMember where
  addr :=
    if strCol row 1 = [] ∨ strCol row 1 = "3306".toList then strCol row 0
    else strCol row 0 ++ ':' :: strCol row 1
  role := strCol row 2
  state := strCol row 3
  version := strCol row 4

/-- The fields of a row packet. -/
def readFields : Nat → Bytes → Option (List (Option Str))
  | 0, _ => some []
  | k + 1, pkt => do
    let (field, pkt) ← readLenencStr pkt
    let fields ← readFields k pkt
    some (field.map fromUtf8Lossy :: fields)

/-- The row packets until EOF or ERR, so many at most. -/
def readRows : Nat → Nat → Bytes → Option (List (List (Option Str)))
  | 0, _, _ => none
  | n + 1, colCount, bytes => do
    let (pkt, bytes) ← nextPacket bytes
    if pkt.head? = some 0xFE ∨ pkt.head? = some 0xFF then some []
    else
      let row ← readFields colCount pkt
      let rows ← readRows n colCount bytes
      some (row :: rows)

/-- So many packets, the column definitions, are skipped; `none` if there are fewer. -/
def skipPackets : Nat → Bytes → Option Bytes
  | 0, bytes => some bytes
  | k + 1, bytes => do
    let (_, bytes) ← nextPacket bytes
    skipPackets k bytes

/-- `parse_text_rows` -/
def parseTextRows (bytes : Bytes) : Option (List (List (Option Str))) := do
  let (colCountPkt, bytes) ← nextPacket bytes
  let (colCount, _) ← readLenencInt colCountPkt
  if colCount = 0 then some []
  else
    let bytes ← skipPackets colCount bytes
    let (_, bytes) ← nextPacket bytes
    readRows (bytes.length + 1) colCount bytes

/-- `parse_gr_members` -/
def parseGrMembers (bytes : Bytes) : List GrMember :=
  match parseTextRows bytes with
  | some rows => rows.map GrMember.ofRow
  | none => []

namespace GrChecker

variable (checker : GrChecker)

/-- `find_backend_index` -/
def findBackendIndex (addr : Str) : Int :=
  if addrMatches checker.primary addr then -1
  else
    match checker.replicas.findIdx? (addrMatches · addr) with
    | some i => i
    -- unknown member: fall back to configured primary
    | none => -1

/-- The elected primary among the members. -/
def elected (members : List GrMember) : Option GrMember :=
  members.find? fun m => m.role == "PRIMARY".toList && m.state == "ONLINE".toList

/-- `apply_members` -/
def applyMembers (members : List GrMember) (pool : HaPool) : HaPool :=
  if members.isEmpty then { pool with grPrimaryIdx := -1 }
  else
    match elected members with
    | some pm => { pool with grPrimaryIdx := checker.findBackendIndex pm.addr }
    | none => pool

/-- `query_gr_members`, on what the connection returns: an error says that the server is no member. -/
def queryGrMembers (resp : Option StatusReply) : Option (List GrMember) :=
  resp.map fun resp => if resp.isError then [] else parseGrMembers resp.bytes

/-- `poll_once`, on what each backend in turn returns: the first answer counts. -/
def pollOnce (resps : List (Option StatusReply)) (pool : HaPool) : HaPool :=
  match resps.findSome? queryGrMembers with
  | some members => checker.applyMembers members pool
  | none => pool

end GrChecker

/-! ## Endpoints -/

/-- A server. -/
structure Endpoint where
  /-- its host -/
  host : Str
  /-- its port -/
  port : Nat
  deriving DecidableEq

namespace Endpoint

/-- `host:port` -/
def addr (e : Endpoint) : Str := e.host ++ ':' :: decimal e.port

/-- The same server: letter case and blanks before the name do not make another host. -/
def Same (a b : Endpoint) : Prop :=
  eqIgnoreAsciiCase (Str.trimStart a.host) (Str.trimStart b.host) = true ∧ a.port = b.port

instance (a b : Endpoint) : Decidable (a.Same b) := inferInstanceAs (Decidable (_ ∧ _))

/-- The row in which a member is reported. -/
def row (e : Endpoint) (role state version : Str) : List (Option Str) :=
  [some e.host, some (decimal e.port), some role, some state, some version]

end Endpoint

theorem decimal_inj {m n : Nat} (h : decimal m = decimal n) : m = n := by
  rw [← Nat.ofDigitChars_ten_toDigits (n := m), ← Nat.ofDigitChars_ten_toDigits (n := n)]
  exact congrArg (Nat.ofDigitChars 10 · 0) h

theorem decimal_ne_nil (n : Nat) : decimal n ≠ [] := Nat.toDigits_ne_nil

theorem isDigit_of_mem_decimal {n : Nat} {c : Char} (h : c ∈ decimal n) : c.isDigit = true :=
  Nat.isDigit_of_mem_toDigits (by decide) (by decide) h

/-- A character splits a text in one way, if it does not occur before the split. -/
theorem split_unique {c : Char} {l l' r r' : Str} (hl : c ∉ l) (hl' : c ∉ l')
    (h : l ++ c :: r = l' ++ c :: r') : l = l' ∧ r = r' := by
  induction l generalizing l' with
  | nil =>
    cases l' with
    | nil => exact ⟨rfl, (List.cons.inj h).2⟩
    | cons d l' => exact absurd ((List.cons.inj h).1 ▸ List.mem_cons_self) hl'
  | cons d l ih =>
    cases l' with
    | nil => exact absurd ((List.cons.inj h).1 ▸ List.mem_cons_self) hl
    | cons d' l' =>
      obtain ⟨rfl, hrest⟩ := List.cons.inj h
      obtain ⟨rfl, hr⟩ := ih (mt (List.mem_cons_of_mem d) hl) (mt (List.mem_cons_of_mem d) hl') hrest
      exact ⟨rfl, hr⟩

/-- A digit is no blank, no colon and no letter. -/
theorem digit_facts {c : Char} (h : c.isDigit = true) :
    Str.isWhitespace c = false ∧ c ≠ ':' ∧ Str.asciiLower c = c := by
  have hrange : 48 ≤ c.toNat ∧ c.toNat ≤ 57 := by
    simpa [Char.isDigit, UInt32.le_iff_toNat_le] using h
  refine ⟨?_, ?_, ?_⟩
  · simp [Str.isWhitespace]
    omega
  · rintro rfl
    exact absurd hrange.2 (by decide)
  · refine if_neg fun hletter => ?_
    have hle : 'A'.toNat ≤ c.toNat := hletter.1
    exact absurd (hle.trans hrange.2) (by decide)

/-- Blanks are trimmed from the beginning of a `host:port` only. -/
theorem trim_addr (e : Endpoint) : Str.trim e.addr = Str.trimStart e.host ++ ':' :: decimal e.port := by
  have hstart : Str.trimStart e.addr = Str.trimStart e.host ++ ':' :: decimal e.port := by
    unfold Str.trimStart Endpoint.addr
    rw [List.dropWhile_append]
    split
    · rename_i hempty
      rw [List.isEmpty_iff.mp hempty]
      rfl
    · rfl
  have hlast : ∀ hne : Str.trimStart e.host ++ ':' :: decimal e.port ≠ [],
      ¬Str.isWhitespace ((Str.trimStart e.host ++ ':' :: decimal e.port).getLast hne) = true := by
    intro hne hblank
    rw [List.getLast_append_of_ne_nil _ (List.cons_ne_nil _ _), List.getLast_cons (decimal_ne_nil _),
      (digit_facts (isDigit_of_mem_decimal (List.getLast_mem (decimal_ne_nil _)))).1] at hblank
    cases hblank
  rw [Str.trim]
  rw [hstart]
  exact List.rdropWhile_eq_self_iff.mpr hlast

theorem lower_decimal (n : Nat) : (decimal n).map Str.asciiLower = decimal n :=
  (List.map_congr_left fun _ h => (digit_facts (isDigit_of_mem_decimal h)).2.2).trans (List.map_id _)

theorem colon_notMem_decimal (n : Nat) : ':' ∉ decimal n :=
  fun h => (digit_facts (isDigit_of_mem_decimal h)).2.1 rfl

/-- The text `host:port` tells servers apart. -/
theorem addrMatches_addr (a b : Endpoint) : addrMatches a.addr b.addr = true ↔ a.Same b := by
  rw [addrMatches]
  rw [trim_addr, trim_addr]
  unfold eqIgnoreAsciiCase Endpoint.Same eqIgnoreAsciiCase
  rw [List.map_append, List.map_append, List.map_cons, List.map_cons, lower_decimal, lower_decimal, beq_iff_eq,
    beq_iff_eq]
  constructor
  · intro h
    -- the port has no colon, so the last colon is the one before it
    have hrev := congrArg List.reverse h
    simp only [List.reverse_append, List.reverse_cons, List.append_assoc, List.singleton_append] at hrev
    obtain ⟨hport, hhost⟩ := split_unique (fun h => colon_notMem_decimal _ (List.mem_reverse.mp h))
      (fun h => colon_notMem_decimal _ (List.mem_reverse.mp h)) hrev
    exact ⟨List.reverse_injective hhost, decimal_inj (List.reverse_injective hport)⟩
  · rintro ⟨hhost, hport⟩
    rw [hhost, hport]

/-- A bare host is never a `host:port` of the same host. -/
theorem addrMatches_host {a b : Endpoint} (h : a.Same b) : addrMatches a.addr b.host = false := by
  refine eq_false_of_ne_true fun hmatch => ?_
  unfold addrMatches eqIgnoreAsciiCase at hmatch
  rw [trim_addr, beq_iff_eq] at hmatch
  have hlength := congrArg List.length hmatch
  have hhost := congrArg List.length (beq_iff_eq.mp h.1)
  have htrim : (Str.trim b.host).length ≤ (Str.trimStart b.host).length :=
    (List.rdropWhile_prefix Str.isWhitespace (Str.trimStart b.host)).length_le
  simp only [List.length_map, List.length_append, List.length_cons] at hlength hhost
  omega

/-! ## The search -/

namespace GrChecker

variable {primary m : Endpoint} {replicas : List Endpoint} {addr role state version : Str}

/-- A checker for these backends. -/
def configured (primary : Endpoint) (replicas : List Endpoint) : GrChecker :=
  ⟨primary.addr, replicas.map (·.addr)⟩

/-- The backend that `gr_primary_idx` stands for. -/
def backendAt (primary : Endpoint) (replicas : List Endpoint) (idx : Int) : Option Endpoint :=
  if 0 ≤ idx then replicas[idx.toNat]? else some primary

/-- The search finds the member wherever it is configured, and nothing else; so does `gr_primary_idx`,
when it is elected. -/
structure Located (primary : Endpoint) (replicas : List Endpoint) (m : Endpoint) (reported : GrMember) :
    Prop where
  /-- a replica -/
  atReplica : ∀ i : Nat, (configured primary replicas).findBackendIndex reported.addr = i ↔
    ∃ r, replicas[i]? = some r ∧ r.Same m
  /-- the configured primary -/
  atPrimary : (configured primary replicas).findBackendIndex reported.addr = -1 ↔ primary.Same m
  /-- the elected primary -/
  followed : ∀ members pool, elected members = some reported → ∃ b, b.Same m ∧
    backendAt primary replicas ((configured primary replicas).applyMembers members pool).grPrimaryIdx = some b

/-- The member is exactly one of the configured backends; and its port is not the default one, unless it
is the configured primary, and no replica's whole address is spelled like its host. -/
def Identified (primary : Endpoint) (replicas : List Endpoint) (m : Endpoint) : Prop :=
  (primary.Same m ∧ (∀ r ∈ replicas, ¬r.Same m) ∧
    (m.port = 3306 → ∀ r ∈ replicas, addrMatches r.addr m.host = false)) ∨
  (¬primary.Same m ∧ m.port ≠ 3306 ∧ ∃ i : Nat, ∀ j : Nat, (∃ r, replicas[j]? = some r ∧ r.Same m) ↔ j = i)

/-- What the search returns: the configured primary, if it matches or nothing does, or the first replica
that matches. -/
theorem find_cases (primary : Endpoint) (replicas : List Endpoint) (addr : Str) :
    ((configured primary replicas).findBackendIndex addr = -1 ∧
      (addrMatches primary.addr addr = true ∨ ∀ r ∈ replicas, addrMatches r.addr addr = false)) ∨
    (∃ i r, (configured primary replicas).findBackendIndex addr = (i : Nat) ∧
      addrMatches primary.addr addr = false ∧ replicas[i]? = some r ∧ addrMatches r.addr addr = true) := by
  unfold findBackendIndex configured
  dsimp only
  by_cases hprimary : addrMatches primary.addr addr = true
  · exact .inl ⟨if_pos hprimary, .inl hprimary⟩
  · rw [if_neg hprimary, List.findIdx?_map]
    rcases hfind : replicas.findIdx? ((addrMatches · addr) ∘ (·.addr)) with _ | i
    · rw [hfind]
      exact .inl ⟨rfl, .inr fun r hr => List.findIdx?_eq_none_iff.mp hfind r hr⟩
    · rw [hfind]
      obtain ⟨hlt, hmatch, -⟩ := List.findIdx?_eq_some_iff_getElem.mp hfind
      exact .inr ⟨i, replicas[i], rfl, eq_false_of_ne_true hprimary, List.getElem?_eq_getElem hlt, hmatch⟩

/-- The address of a reported member. -/
theorem addr_ofRow : (GrMember.ofRow (m.row role state version)).addr =
    if m.port = 3306 then m.host else m.addr := by
  have hdefault : decimal m.port = "3306".toList ↔ m.port = 3306 := by
    constructor
    · intro h
      exact decimal_inj (h.trans (by decide))
    · intro h
      rw [h]
      decide
  change (if decimal m.port = [] ∨ decimal m.port = "3306".toList then m.host else m.addr) = _
  exact if_congr ((or_iff_right (decimal_ne_nil _)).trans hdefault) rfl rfl

/-- With another port than the default one, an address matches a member if it is the member's. -/
theorem matches_iff (hport : m.port ≠ 3306) (r : Endpoint) :
    addrMatches r.addr (GrMember.ofRow (m.row role state version)).addr = true ↔ r.Same m := by
  rw [addr_ofRow, if_neg hport]
  exact addrMatches_addr r m

/-- With the default port, an address that matches is not the member's. -/
theorem not_same_of_matches (hport : m.port = 3306) {r : Endpoint}
    (h : addrMatches r.addr (GrMember.ofRow (m.row role state version)).addr = true) : ¬r.Same m := by
  rw [addr_ofRow, if_pos hport] at h
  intro hsame
  rw [addrMatches_host hsame] at h
  cases h

/-- An index that stands for the only backend that is the member. -/
inductive Hit (primary : Endpoint) (replicas : List Endpoint) (m : Endpoint) : Int → Prop where
  /-- the configured primary -/
  | primary : primary.Same m → (∀ r ∈ replicas, ¬r.Same m) → Hit primary replicas m (-1)
  /-- a replica -/
  | replica {i : Nat} {r : Endpoint} : ¬primary.Same m → replicas[i]? = some r → r.Same m →
      (∀ j : Nat, (∃ r, replicas[j]? = some r ∧ r.Same m) ↔ j = i) → Hit primary replicas m i

/-- A member that is identified is hit. -/
theorem hit_of_identified (h : Identified primary replicas m) : Hit primary replicas m
    ((configured primary replicas).findBackendIndex (GrMember.ofRow (m.row role state version)).addr) := by
  rcases h with ⟨hsame, hothers, hspelled⟩ | ⟨hother, hport, i, hunique⟩
  · rcases find_cases primary replicas (GrMember.ofRow (m.row role state version)).addr with
      ⟨hidx, -⟩ | ⟨j, r, -, -, hr, hmatch⟩
    · exact hidx ▸ .primary hsame hothers
    · have hmem : r ∈ replicas := List.mem_of_getElem? hr
      by_cases hport : m.port = 3306
      · rw [addr_ofRow, if_pos hport, hspelled hport r hmem] at hmatch
        cases hmatch
      · exact absurd ((matches_iff hport r).mp hmatch) (hothers r hmem)
  · rcases find_cases primary replicas (GrMember.ofRow (m.row role state version)).addr with
      ⟨-, hmatch⟩ | ⟨j, r, hidx, -, hr, hmatch⟩
    · obtain ⟨r, hr, hsame⟩ := (hunique i).mpr rfl
      rcases hmatch with hmatch | hnone
      · exact absurd ((matches_iff hport primary).mp hmatch) hother
      · have hmatch : addrMatches r.addr (GrMember.ofRow (m.row role state version)).addr = true :=
          (matches_iff hport r).mpr hsame
        rw [hnone r (List.mem_of_getElem? hr)] at hmatch
        cases hmatch
    · have hsame := (matches_iff hport r).mp hmatch
      obtain rfl := (hunique j).mp ⟨r, hr, hsame⟩
      exact hidx ▸ .replica hother hr hsame hunique

/-- A hit locates the member, and is followed when the member is elected. -/
theorem located_of_hit {reported : GrMember}
    (h : Hit primary replicas m ((configured primary replicas).findBackendIndex reported.addr)) :
    Located primary replicas m reported := by
  have hfollowed : ∀ members pool, elected members = some reported →
      ((configured primary replicas).applyMembers members pool).grPrimaryIdx =
        (configured primary replicas).findBackendIndex reported.addr := by
    intro members pool helected
    rw [applyMembers]
    rw [helected]
    cases members with
    | nil => cases helected
    | cons member members => rfl
  generalize hidx : (configured primary replicas).findBackendIndex reported.addr = idx at h hfollowed
  cases h with
  | primary hsame hothers =>
    refine ⟨fun i => ?_, ⟨fun _ => hsame, fun _ => hidx⟩, fun members pool helected => ?_⟩
    · refine ⟨fun h => ?_, fun ⟨r, hr, hsame'⟩ => absurd hsame' (hothers r (List.mem_of_getElem? hr))⟩
      have hneg := hidx.symm.trans h
      omega
    · rw [hfollowed members pool helected]
      exact ⟨primary, hsame, rfl⟩
  | @replica i r hother hr hsame hunique =>
    refine ⟨fun j => ?_, ⟨fun h => ?_, fun h => absurd h hother⟩, fun members pool helected => ?_⟩
    · rw [hunique j, hidx, Int.natCast_inj]
      exact eq_comm
    · have hneg := hidx.symm.trans h
      omega
    · rw [hfollowed members pool helected, backendAt, if_pos (Int.natCast_nonneg i), Int.toNat_natCast]
      exact ⟨r, hsame, hr⟩

/-- **Exactly the members that are identified** are found where they are configured. -/
theorem findBackendIndex_exact (primary : Endpoint) (replicas : List Endpoint) (m : Endpoint)
    (role state version : Str) :
    Located primary replicas m (GrMember.ofRow (m.row role state version)) ↔
      Identified primary replicas m := by
  generalize hreported : GrMember.ofRow (m.row role state version) = reported
  have hfind := find_cases primary replicas reported.addr
  constructor
  · intro h
    rcases hfind with ⟨hidx, hmatch⟩ | ⟨i, r, hidx, hprimary, hr, hmatch⟩
    · have hsame : primary.Same m := h.atPrimary.mp hidx
      refine .inl ⟨hsame, fun r hr hr' => ?_, fun hport r hr => ?_⟩
      · obtain ⟨i, hi⟩ := List.mem_iff_getElem?.mp hr
        have hneg := hidx.symm.trans ((h.atReplica i).mpr ⟨r, hi, hr'⟩)
        omega
      · rcases hmatch with hmatch | hnone
        · subst hreported
          exact absurd hsame (not_same_of_matches hport hmatch)
        · have h' := hnone r hr
          rwa [← hreported, addr_ofRow, if_pos hport] at h'
    · have hport : m.port ≠ 3306 := by
        intro hport
        obtain ⟨r', hr', hsame⟩ := (h.atReplica i).mp hidx
        obtain rfl := Option.some.inj (hr.symm.trans hr')
        subst hreported
        exact not_same_of_matches hport hmatch hsame
      refine .inr ⟨fun hsame => ?_, hport, i, fun j => ?_⟩
      · have hneg := hidx.symm.trans (h.atPrimary.mpr hsame)
        omega
      · rw [← h.atReplica j, hidx, Int.natCast_inj]
        exact eq_comm
  · intro h
    exact hreported ▸ located_of_hit (hit_of_identified h)

/-- Three servers, the second one elected; all of them listen on the default port. -/
def defaultPorts : List Endpoint := [⟨"db2".toList, 3306⟩, ⟨"db3".toList, 3306⟩]

/-- The elected primary is a configured replica, and the writes go to the configured primary. -/
theorem default_port_missed : ¬ ∀ (primary : Endpoint) (replicas : List Endpoint) (m : Endpoint)
    (role state version : Str),
    Located primary replicas m (GrMember.ofRow (m.row role state version)) := by
  intro h
  have hlocated := h ⟨"db1".toList, 3306⟩ defaultPorts ⟨"db2".toList, 3306⟩ "PRIMARY".toList
    "ONLINE".toList "8.0.36".toList
  have hidx := (hlocated.atReplica 0).mpr ⟨_, rfl, by decide⟩
  have hmissed : (configured ⟨"db1".toList, 3306⟩ defaultPorts).findBackendIndex
      (GrMember.ofRow (Endpoint.row ⟨"db2".toList, 3306⟩ "PRIMARY".toList "ONLINE".toList
        "8.0.36".toList)).addr = -1 := by decide +kernel
  rw [hmissed] at hidx
  exact absurd hidx (by decide)

end GrChecker

end TurbineProxy
