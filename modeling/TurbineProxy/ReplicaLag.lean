import TurbineProxy.Failover
import TurbineProxy.ResultSet

/-!
# What a replica's status makes of it

`check_replica` of `health.rs` with everything it reads: the Galera state, the status of replication
and the walk over its result set. The server is given by the bytes it sends, in the order in which the
checks read them.

What a status says is defined on its own: `NotReplica` (a result set without a row) and `Behind` (a
number of seconds in the first row). `healthy_safe_iff` says exactly when a replica that is marked
healthy is one that may be read from: `parse_lag_bytes` gives the same answer for a server that is not
a replica, for a status it cannot read and for one without a number, and that answer passes.
-/

namespace TurbineProxy

/-! ## `health.rs` -/

namespace HealthChecker

/-- A field of a column definition is skipped. -/
def skipField (payload : Bytes) : Option Bytes := do
  let b ← payload.head?
  if b = 0xFB then some payload.tail
  else
    let (len, rest) ← readLenencInt payload
    some (rest.drop len)

/-- `col_def_name`: the name stands behind catalog, schema, table and original table. -/
def colDefName (payload : Bytes) : Option Bytes := do
  let payload ← skipField payload
  let payload ← skipField payload
  let payload ← skipField payload
  let payload ← skipField payload
  let b ← payload.head?
  if b = 0xFB then none
  else
    let (len, rest) ← readLenencInt payload
    let (name, _) ← readExact len rest
    some name

/-- The name of the column that is looked for. -/
def namesLag (name : Bytes) : Bool :=
  name == asciiBytes "Seconds_Behind_Source" || name == asciiBytes "Seconds_Behind_Master"

/-- The column definitions: so many are left, `i` is the next one. -/
def findTarget : Nat → Nat → Option Nat → Bytes → Option (Option Nat × Bytes)
  | 0, _, target, bytes => some (target, bytes)
  | k + 1, i, target, bytes => do
    let (pkt, bytes) ← nextPacket bytes
    findTarget k (i + 1) (if (colDefName pkt).any namesLag then some i else target) bytes

/-- The field of a row at an index. -/
def readField : Nat → Bytes → Option (Option Bytes)
  | 0, row => (readLenencStr row).map (·.1)
  | i + 1, row => do
    let (_, row) ← readLenencStr row
    readField i row

/-- The lag in a field, in milliseconds. The product is a machine word. -/
def lagOf : Option Bytes → Option Nat
  -- NULL: replica thread not running
  | none => some 0
  | some v => do
    let text ← fromUtf8 v
    let secs ← parseUnsigned 64 text
    some (secs * 1000 % 2 ^ 64)

/-- `parse_lag_bytes` -/
def parseLagBytes (bytes : Bytes) : Option Nat := do
  let (colCountPkt, bytes) ← nextPacket bytes
  let (colCount, _) ← readLenencInt colCountPkt
  if colCount = 0 then none
  else
    let (target, bytes) ← findTarget colCount 0 none bytes
    let (_, bytes) ← nextPacket bytes
    let (row, _) ← nextPacket bytes
    -- empty result: not a replica
    if row.head? = some 0xFE then none
    else
      let targetIdx ← target
      let field ← readField targetIdx row
      lagOf field

/-- `query_replica_lag` -/
def queryReplicaLag (stream : Bytes) : Option Nat := do
  let (resp, stream) ← executeStatus stream
  if resp.isError then
    let (resp2, _) ← executeStatus stream
    if resp2.isError then some 0 else parseLagBytes resp2.bytes
  else parseLagBytes resp.bytes

/-- `parse_wsrep_state` -/
def parseWsrepState (bytes : Bytes) : Option Bool := do
  let (_, bytes) ← nextPacket bytes
  let (_, bytes) ← nextPacket bytes
  let (_, bytes) ← nextPacket bytes
  let (_, bytes) ← nextPacket bytes
  let (row, _) ← nextPacket bytes
  if row.head? = some 0xFE then none
  else
    let (_, row) ← readLenencStr row
    let (value, _) ← readLenencStr row
    let value ← value
    let text ← fromUtf8 value
    let state ← parseUnsigned 32 (Str.trim text)
    some (state == 4)

/-- `query_wsrep_state`, and what the server sends after it: nothing, once the connection is broken. -/
def queryWsrepState (stream : Bytes) : Option Bool × Bytes :=
  match executeStatus stream with
  | none => (none, [])
  | some (resp, stream) => (if resp.isError then none else parseWsrepState resp.bytes, stream)

/-- `check_replica`, on the bytes the server sends if it can be connected to. -/
def checkReplica (galeraCheck : Bool) (maxLagMs : UInt64) (server : Option Bytes) (health : BackendHealth) :
    BackendHealth :=
  match server with
  | none => { health with healthy := false, consecutiveFailures := u32Succ health.consecutiveFailures }
  | some stream =>
    let (synced, stream) := if galeraCheck then queryWsrepState stream else (none, stream)
    if synced = some false then { health with healthy := false }
    else
      let lagMs := (queryReplicaLag stream).getD 0
      ⟨lagMs ≤ maxLagMs.toNat, lagMs, 0⟩

end HealthChecker

/-! ## What a status says -/

open HealthChecker (colDefName namesLag readField lagOf findTarget parseLagBytes queryReplicaLag checkReplica
  queryWsrepState)

/-- A status has these column definitions, and this packet stands where its first row would. -/
def StatusRow (reply : Bytes) (cols : List Bytes) (row : Bytes) : Prop :=
  ∃ count eof more left, Framed reply (count :: (cols ++ [eof, row])) left ∧
    readLenencInt count = some (cols.length, more) ∧ cols ≠ []

/-- The column with the seconds: the last one of that name. -/
def lagColumn : List Bytes → Option Nat
  | [] => none
  | col :: cols =>
    match lagColumn cols with
    | some i => some (i + 1)
    | none => if (colDefName col).any namesLag then some 0 else none

/-- The status of a server that is not a replica: no row. -/
def NotReplica (reply : Bytes) : Prop :=
  ∃ cols row, StatusRow reply cols row ∧ row.head? = some 0xFE

/-- The status reports that the replica is so many seconds behind. -/
def Behind (reply : Bytes) (secs : Nat) : Prop :=
  ∃ cols row i v text, StatusRow reply cols row ∧ row.head? ≠ some 0xFE ∧ lagColumn cols = some i ∧
    readField i row = some (some v) ∧ fromUtf8 v = some text ∧ parseUnsigned 64 text = some secs

/-- The reply that the status is read from: the one to the current statement, or to the older one where
that is refused. -/
def statusReply (stream : Bytes) : Option Bytes :=
  (executeStatus stream).bind fun (resp, stream) =>
    if resp.isError then (executeStatus stream).bind fun (resp2, _) =>
      if resp2.isError then none else some resp2.bytes
    else some resp.bytes

/-- The bytes the status is read from, if it is asked for: the server can be connected to, and is not a
cluster node that is out of step. -/
def askedForStatus (galeraCheck : Bool) (server : Option Bytes) : Option Bytes :=
  server.bind fun stream =>
    if galeraCheck then
      if (queryWsrepState stream).1 = some false then none else some (queryWsrepState stream).2
    else some stream

/-- The server may be read from: it is not a replica, or it is behind by no more than the limit. -/
def MayBeRead (maxLagMs : UInt64) (stream : Bytes) : Prop :=
  ∃ reply, statusReply stream = some reply ∧
    (NotReplica reply ∨ ∃ secs, Behind reply secs ∧ 1000 * secs ≤ maxLagMs.toNat)

/-- The status can be made out, and its milliseconds fit a machine word, or exceed the limit even when
they are cut to one. -/
def Legible (maxLagMs : UInt64) (stream : Bytes) : Prop :=
  ∃ reply, statusReply stream = some reply ∧
    (NotReplica reply ∨ ∃ secs, Behind reply secs ∧
      (secs * 1000 < 2 ^ 64 ∨ maxLagMs.toNat < secs * 1000 % 2 ^ 64))

/-! ## The walk over the result set -/

section Walk

variable {reply bytes rest row : Bytes} {cols : List Bytes}

/-- The loop over the column definitions finds the column. -/
theorem findTarget_eq (h : Framed bytes cols rest) (i : Nat) (target : Option Nat) :
    findTarget cols.length i target bytes = some (((lagColumn cols).map (i + ·)).or target, rest) := by
  induction h generalizing i target with
  | nil bytes => rfl
  | @cons bytes col _ _ cols hnext _ ih =>
    rw [List.length_cons, findTarget, hnext]
    simp only [Option.bind_eq_bind, Option.bind_some, ih, lagColumn]
    rcases lagColumn cols with _ | j
    · -- no later column has the name, so this one decides
      cases (colDefName col).any namesLag <;> rfl
    · simp only [Option.map_some, Option.some_or, Nat.add_assoc, Nat.add_comm 1 j]

/-- The loop reads as many packets as there are columns. -/
theorem framed_of_findTarget {k i : Nat} {target t : Option Nat}
    (h : findTarget k i target bytes = some (t, rest)) : ∃ cols, cols.length = k ∧ Framed bytes cols rest := by
  induction k generalizing i target bytes with
  | zero =>
    obtain ⟨-, rfl⟩ := Prod.mk.inj (Option.some.inj h)
    exact ⟨[], rfl, .nil bytes⟩
  | succ k ih =>
    obtain ⟨⟨pkt, bytes'⟩, hnext, h⟩ := Option.bind_eq_some_iff.mp h
    obtain ⟨cols, hlength, hcols⟩ := ih h
    exact ⟨pkt :: cols, congrArg Nat.succ hlength, .cons hnext hcols⟩

/-- A status is read in one way only. -/
theorem statusRow_unique {cols' : List Bytes} {row' : Bytes} (h : StatusRow reply cols row)
    (h' : StatusRow reply cols' row') : cols = cols' ∧ row = row' := by
  obtain ⟨count, eof, more, left, hframed, hcount, -⟩ := h
  obtain ⟨count', eof', more', left', hframed', hcount', -⟩ := h'
  obtain _ | ⟨hnext, hframed⟩ := hframed
  obtain _ | ⟨hnext', hframed'⟩ := hframed'
  obtain ⟨rfl, rfl⟩ := Prod.mk.inj (Option.some.inj (hnext.symm.trans hnext'))
  have hlength : cols.length = cols'.length :=
    (Prod.mk.inj (Option.some.inj (hcount.symm.trans hcount'))).1
  obtain ⟨heq, -⟩ := hframed.unique hframed' (by rw [List.length_append, List.length_append, hlength]; rfl)
  obtain ⟨hcols, hlast⟩ := List.append_inj heq hlength
  exact ⟨hcols, (List.cons.inj (List.cons.inj hlast).2).1⟩

/-- What is made of a status with a first row, or with the end of the rows in its place. -/
theorem parseLagBytes_eq (h : StatusRow reply cols row) :
    parseLagBytes reply = if row.head? = some 0xFE then none
      else (lagColumn cols).bind fun i => (readField i row).bind lagOf := by
  obtain ⟨count, eof, more, left, hframed, hcount, hne⟩ := h
  obtain _ | ⟨hnext, hframed⟩ := hframed
  obtain ⟨rest, hcols, hframed⟩ := hframed.split
  obtain _ | ⟨heof, hframed⟩ := hframed
  obtain _ | ⟨hrow, -⟩ := hframed
  have htarget : ((lagColumn cols).map (0 + ·)).or none = lagColumn cols := by
    rw [Option.or_none]
    simp only [Nat.zero_add, Option.map_id']
  rw [parseLagBytes]
  simp only [Option.bind_eq_bind, hnext, Option.bind_some, hcount, if_neg (mt List.length_eq_zero_iff.mp hne),
    findTarget_eq hcols, htarget, heof, hrow]

/-- A lag is found in such a status only. -/
theorem statusRow_of_parse {ms : Nat} (h : parseLagBytes reply = some ms) :
    ∃ cols row, StatusRow reply cols row := by
  obtain ⟨⟨count, bytes⟩, hnext, h⟩ := Option.bind_eq_some_iff.mp h
  obtain ⟨⟨colCount, more⟩, hcount, h⟩ := Option.bind_eq_some_iff.mp h
  obtain ⟨hne, h⟩ := Option.ite_none_left_eq_some.mp h
  obtain ⟨⟨target, bytes'⟩, htarget, h⟩ := Option.bind_eq_some_iff.mp h
  obtain ⟨⟨eof, bytes''⟩, heof, h⟩ := Option.bind_eq_some_iff.mp h
  obtain ⟨⟨row, left⟩, hrow, h⟩ := Option.bind_eq_some_iff.mp h
  obtain ⟨cols, rfl, hcols⟩ := framed_of_findTarget htarget
  exact ⟨cols, row, count, eof, more, left, .cons hnext (hcols.append (framed_pair heof hrow)), hcount,
    mt List.length_eq_zero_iff.mpr hne⟩

/-- The lag of a replica that says how far behind it is. -/
theorem parseLagBytes_behind {secs : Nat} (h : Behind reply secs) :
    parseLagBytes reply = some (secs * 1000 % 2 ^ 64) := by
  obtain ⟨cols, row, i, v, text, hrow, hne, hcolumn, hfield, htext, hsecs⟩ := h
  rw [parseLagBytes_eq hrow, if_neg hne, hcolumn, Option.bind_some, hfield, Option.bind_some]
  simp only [lagOf, Option.bind_eq_bind, htext, Option.bind_some, hsecs]

/-- Another lag than zero is that of such a replica. -/
theorem behind_of_parse {ms : Nat} (h : parseLagBytes reply = some ms) (hpos : 0 < ms) :
    ∃ secs, Behind reply secs ∧ ms = secs * 1000 % 2 ^ 64 := by
  obtain ⟨cols, row, hrow⟩ := statusRow_of_parse h
  rw [parseLagBytes_eq hrow] at h
  obtain ⟨hne, h⟩ := Option.ite_none_left_eq_some.mp h
  obtain ⟨i, hcolumn, h⟩ := Option.bind_eq_some_iff.mp h
  obtain ⟨field, hfield, h⟩ := Option.bind_eq_some_iff.mp h
  cases field with
  | none => exact absurd (Option.some.inj h) (Nat.ne_of_lt hpos)
  | some v =>
    obtain ⟨text, htext, h⟩ := Option.bind_eq_some_iff.mp h
    obtain ⟨secs, hsecs, h⟩ := Option.bind_eq_some_iff.mp h
    exact ⟨secs, ⟨cols, row, i, v, text, hrow, hne, hcolumn, hfield, htext, hsecs⟩, (Option.some.inj h).symm⟩

end Walk

/-! ## The verdict -/

section Verdict

variable {maxLagMs : UInt64} {stream reply : Bytes}

/-- A reply that only errors have come to is no status, and neither is a broken one. -/
theorem queryReplicaLag_eq (stream : Bytes) : (queryReplicaLag stream).getD 0 =
    ((statusReply stream).bind parseLagBytes).getD 0 := by
  unfold queryReplicaLag statusReply
  rcases executeStatus stream with _ | ⟨⟨bytes, isError⟩, rest⟩
  · rfl
  · cases isError with
    | false => rfl
    | true =>
      simp only [Option.bind_eq_bind, Option.bind_some, if_true]
      rcases executeStatus rest with _ | ⟨⟨bytes', isError'⟩, rest'⟩
      · rfl
      · cases isError' <;> rfl

/-- A reply passes only where it should, if and only if its status can be made out. -/
theorem passes_safe_iff :
    ((parseLagBytes reply).getD 0 ≤ maxLagMs.toNat →
      NotReplica reply ∨ ∃ secs, Behind reply secs ∧ 1000 * secs ≤ maxLagMs.toNat) ↔
    (NotReplica reply ∨ ∃ secs, Behind reply secs ∧
      (secs * 1000 < 2 ^ 64 ∨ maxLagMs.toNat < secs * 1000 % 2 ^ 64)) := by
  constructor
  · intro h
    by_cases hpass : (parseLagBytes reply).getD 0 ≤ maxLagMs.toNat
    · refine (h hpass).imp id fun ⟨secs, hbehind, hle⟩ => ⟨secs, hbehind, .inl ?_⟩
      exact (Nat.mul_comm secs 1000 ▸ hle).trans_lt maxLagMs.toNat_lt
    · -- it exceeds the limit, so a number was reported
      have hlt : maxLagMs.toNat < (parseLagBytes reply).getD 0 := Nat.lt_of_not_le hpass
      rcases hms : parseLagBytes reply with _ | ms
      · rw [hms] at hlt
        exact absurd hlt (Nat.not_lt_zero _)
      · rw [hms] at hlt
        obtain ⟨secs, hbehind, rfl⟩ := behind_of_parse hms (Nat.zero_lt_of_lt hlt)
        exact .inr ⟨secs, hbehind, .inr hlt⟩
  · rintro (hnot | ⟨secs, hbehind, hfits⟩) hpass
    · exact .inl hnot
    · rw [parseLagBytes_behind hbehind, Option.getD_some] at hpass
      refine .inr ⟨secs, hbehind, ?_⟩
      rcases hfits with hfits | hover
      · rwa [Nat.mod_eq_of_lt hfits, Nat.mul_comm] at hpass
      · exact absurd hpass (Nat.not_le.mpr hover)

/-- A server whose status has not arrived passes. -/
theorem verdict_iff : ((queryReplicaLag stream).getD 0 ≤ maxLagMs.toNat → MayBeRead maxLagMs stream) ↔
    Legible maxLagMs stream := by
  rw [queryReplicaLag_eq]
  rcases hreply : statusReply stream with _ | reply
  · constructor
    · intro h
      obtain ⟨reply, hreply', -⟩ := h (Nat.zero_le _)
      rw [hreply] at hreply'
      cases hreply'
    · rintro ⟨reply, hreply', -⟩
      rw [hreply] at hreply'
      cases hreply'
  · have hone : ∀ P : Bytes → Prop, (∃ r, statusReply stream = some r ∧ P r) ↔ P reply := by
      intro P
      rw [hreply]
      exact ⟨fun ⟨r, heq, h⟩ => Option.some.inj heq ▸ h, fun h => ⟨reply, rfl, h⟩⟩
    unfold MayBeRead Legible
    rw [hone, hone]
    exact passes_safe_iff

/-- **Lag safety**: a replica is marked healthy only if it may be read from, exactly where the status it
is asked for can be made out. -/
theorem healthy_safe_iff (galeraCheck : Bool) (maxLagMs : UInt64) (server : Option Bytes)
    (health : BackendHealth) :
    ((checkReplica galeraCheck maxLagMs server health).healthy = true →
        ∃ stream, askedForStatus galeraCheck server = some stream ∧ MayBeRead maxLagMs stream) ↔
      ∀ stream, askedForStatus galeraCheck server = some stream → Legible maxLagMs stream := by
  have hasked : (checkReplica galeraCheck maxLagMs server health).healthy = true ↔
      ∃ stream, askedForStatus galeraCheck server = some stream ∧
        (queryReplicaLag stream).getD 0 ≤ maxLagMs.toNat := by
    rcases server with _ | stream
    · exact ⟨(nomatch ·), (fun ⟨_, h, _⟩ => nomatch h)⟩
    · cases galeraCheck with
      | false => exact decide_eq_true_iff.trans ⟨fun h => ⟨stream, rfl, h⟩, fun ⟨_, heq, h⟩ =>
          Option.some.inj heq ▸ h⟩
      | true =>
        unfold checkReplica askedForStatus
        by_cases hsynced : (queryWsrepState stream).1 = some false
        · simp [hsynced]
        · simp [hsynced]
  rw [hasked]
  rcases askedForStatus galeraCheck server with _ | stream
  · exact ⟨(fun _ _ h => nomatch h), (fun _ ⟨_, h, _⟩ => nomatch h)⟩
  · simp only [Option.some.injEq, exists_eq_left', forall_eq']
    exact verdict_iff

end Verdict

/-- The definition of the column with the seconds. -/
def lagColumnDef : Bytes := [3, 100, 101, 102, 0, 0, 0, 21] ++ asciiBytes "Seconds_Behind_Source" ++ [0]

/-- A status with one column and one row. -/
def statusOf (row : Bytes) : Bytes :=
  wire 1 [[1], lagColumnDef, [0xFE, 0, 0, 2, 0], row, [0xFE, 0, 0, 2, 0]]

/-- A replica whose replication thread is not running is marked healthy, though it reports no number. -/
theorem stopped_healthy : ¬ ∀ (galeraCheck : Bool) (maxLagMs : UInt64) (server : Option Bytes)
    (health : BackendHealth), (checkReplica galeraCheck maxLagMs server health).healthy = true →
      ∃ stream, askedForStatus galeraCheck server = some stream ∧ MayBeRead maxLagMs stream := by
  intro h
  obtain ⟨stream, hstream, reply, hreply, hread⟩ := h false 1000 (some (statusOf [0xFB])) (.new false)
    (by decide +kernel)
  obtain rfl := Option.some.inj hstream
  have hstopped : statusReply (statusOf [0xFB]) = some (statusOf [0xFB]) := by decide +kernel
  obtain rfl := Option.some.inj (hstopped.symm.trans hreply)
  have hrow : StatusRow (statusOf [0xFB]) [lagColumnDef] [0xFB] :=
    ⟨[1], [0xFE, 0, 0, 2, 0], [], _, .cons (by rfl) (.cons (by rfl) (.cons (by rfl) (.cons (by rfl) (.nil _)))),
      rfl, List.cons_ne_nil _ _⟩
  rcases hread with ⟨cols, row, hrow', hempty⟩ | ⟨secs, ⟨cols, row, i, v, text, hrow', -, hcolumn, hfield, -⟩, -⟩
  · obtain ⟨-, rfl⟩ := statusRow_unique hrow hrow'
    cases hempty
  · obtain ⟨rfl, rfl⟩ := statusRow_unique hrow hrow'
    have hzero : lagColumn [lagColumnDef] = some 0 := by decide +kernel
    obtain rfl := Option.some.inj (hzero.symm.trans hcolumn)
    cases hfield

-- five seconds are within a limit of ten; so many that their milliseconds do not fit a machine word pass
-- a limit of one
example : (checkReplica false 10000 (some (statusOf (1 :: asciiBytes "5"))) (.new false)).healthy = true ∧
    (checkReplica false 1000 (some (statusOf (17 :: asciiBytes "18446744073709552"))) (.new false)).healthy = true := by
  decide +kernel

end TurbineProxy
