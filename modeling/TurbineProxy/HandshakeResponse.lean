import TurbineProxy.BackendCompression
import TurbineProxy.PgScan

/-!
# What a client answers to the greeting

`HandshakeResponse41::decode` of `protocol/mysql/handshake.rs`, with every access that may be out of range a possible
panic. All of them but one are checked before: `decode_ends_iff` says for which responses that one goes wrong.
-/

namespace TurbineProxy

/-! ## Errors and panics -/

/-- How a computation comes to an end without a value: with an error, or in a panic. -/
inductive Abort (ε : Type) : Type where
  | err (e : ε)
  | panics (fault : TrackFault)
  deriving DecidableEq

/-- What reads out of bounds panics: there is no error to return. -/
def orPanic {ε α : Type} : Except TrackFault α → Except (Abort ε) α
  | .ok a => .ok a
  | .error fault => .error (.panics fault)

/-- It ends with a value or with an error. -/
def NoPanic {ε α : Type} (x : Except (Abort ε) α) : Prop := ∀ fault, x ≠ .error (.panics fault)

section NoPanic

variable {ε α β : Type} {x : Except (Abort ε) α} {y : Except TrackFault α} {f : α → Except (Abort ε) β} {P : α → Prop}

theorem noPanic_ok (a : α) : NoPanic (.ok a : Except (Abort ε) α) := nofun

theorem noPanic_err (e : ε) : NoPanic (.error (.err e) : Except (Abort ε) α) := nofun

theorem NoPanic.bind (h : NoPanic x) (hf : ∀ a, x = .ok a → NoPanic (f a)) : NoPanic (x >>= f) := by
  match x, h with
  | .ok a, _ => exact hf a rfl
  | .error (.err e), _ => exact noPanic_err e
  | .error (.panics fault), h => exact absurd rfl (h fault)

/-- What runs does not panic. -/
theorem Runs.noPanic_bind (h : Runs y P) (hf : ∀ a, P a → NoPanic (f a)) : NoPanic (orPanic y >>= f) := by
  obtain ⟨a, rfl, ha⟩ := h
  exact hf a ha

end NoPanic

/-! ## `handshake.rs` -/

namespace Capability

/-- `CONNECT_WITH_DB` -/
def connectWithDb : Nat := 2 ^ 3
/-- `SSL` -/
def ssl : Nat := 2 ^ 11
/-- `PLUGIN_AUTH` -/
def pluginAuth : Nat := 2 ^ 19
/-- `CONNECT_ATTRS` -/
def connectAttrs : Nat := 2 ^ 20

end Capability

/-- `get_u8`, `get_u32_le`, `advance` and `copy_to_slice` of the `bytes` crate: so many bytes, and the buffer behind
them. -/
def getBytes (n : Nat) (buf : Bytes) : Except TrackFault (Bytes × Bytes) :=
  if n ≤ buf.length then .ok (buf.take n, buf.drop n) else .error .outOfRange

namespace Handshake

/-- `read_null_terminated_string` -/
def readNullTerminatedString (buf : Bytes) : Except (Abort WireError) (Str × Bytes) :=
  match buf.findIdx? (· == 0) with
  | none => .error (.err (.invalidFormat "Missing null terminator in string".toList))
  | some nullPos => do
    let s ← orPanic (sliceOf buf 0 nullPos)
    let rest ← orPanic (do sliceOf buf (← addUsize nullPos 1) buf.length)
    .ok (fromUtf8Lossy s, rest)

/-- A number of so many bytes behind the first one. -/
def fixedInt (k : Nat) (buf : Bytes) : Except TrackFault (Option (Nat × Bytes)) :=
  if buf.length < k then .ok none
  else do
    let v ← sliceOf buf 0 k
    .ok (some (leNat v, ← sliceOf buf k buf.length))

/-- `read_lenenc_int`, with the slices it takes. -/
def lenencInt (buf : Bytes) : Except TrackFault (Option (Nat × Bytes)) :=
  if buf.isEmpty then .ok none
  else do
    let first ← indexOf buf 0
    let buf ← sliceOf buf 1 buf.length
    if first = 0xFB then .ok none
    else if first = 0xFC then fixedInt 2 buf
    else if first = 0xFD then fixedInt 3 buf
    else if first = 0xFE then fixedInt 8 buf
    else .ok (some (first.toNat, buf))

/-- The loop of `parse_app_name_from_attrs` over the attributes. -/
def attrsLoop : Nat → Bytes → Except TrackFault (Option Str)
  | 0, _ => .error .endless
  | n + 1, attrs =>
    if attrs.isEmpty then .ok none
    else do
      match ← lenencInt attrs with
      | none => .ok none
      | some (keyLen, attrs) =>
        if attrs.length < keyLen then .ok none
        else
          let key := textOf (← sliceOf attrs 0 keyLen)
          match ← lenencInt (← sliceOf attrs keyLen attrs.length) with
          | none => .ok none
          | some (valLen, attrs) =>
            if attrs.length < valLen then .ok none
            else
              let val := textOf (← sliceOf attrs 0 valLen)
              let attrs ← sliceOf attrs valLen attrs.length
              if key = "_program_name".toList ∧ val ≠ [] then .ok (some val) else attrsLoop n attrs

/-- `parse_app_name_from_attrs` -/
def parseAppNameFromAttrs (buf : Bytes) : Except TrackFault (Option Str) := do
  match ← lenencInt buf with
  | none => .ok none
  | some (totalLen, remaining) =>
    if remaining.length < totalLen then .ok none
    else attrsLoop (totalLen + 1) (← sliceOf remaining 0 totalLen)

end Handshake

/-- `HandshakeResponse41` -/
structure HandshakeResponse41 where
  capabilityFlags : Nat
  maxPacketSize : Nat
  characterSet : Nat
  username : Str
  authResponse : Bytes
  database : Option Str
  authPluginName : Option Str
  /-- `_program_name` of the connection attributes -/
  appName : Option Str
  deriving DecidableEq

namespace HandshakeResponse41

open Handshake

/-- A string that is there if the capability is. -/
def optionalString (capability flags : Nat) (buf : Bytes) : Except (Abort WireError) (Option Str × Bytes) :=
  if flags &&& capability ≠ 0 then do
    let (s, buf) ← readNullTerminatedString buf
    .ok (some s, buf)
  else .ok (none, buf)

/-- The end of `decode`, behind the user name. -/
def decodeAuth (flags maxPacketSize characterSet : Nat) (username : Str) (buf : Bytes) :
    Except (Abort WireError) HandshakeResponse41 := do
  let (len, buf) ← orPanic (getBytes 1 buf)
  if buf.length < leNat len then
    .error (.err (.invalidFormat "HandshakeResponse41 auth response truncated".toList))
  else
    let (authResponse, buf) ← orPanic (getBytes (leNat len) buf)
    let (database, buf) ← optionalString Capability.connectWithDb flags buf
    let (authPluginName, buf) ← optionalString Capability.pluginAuth flags buf
    let appName ←
      if flags &&& Capability.connectAttrs ≠ 0 ∧ buf ≠ [] then orPanic (parseAppNameFromAttrs buf) else .ok none
    .ok ⟨flags, maxPacketSize, characterSet, username, authResponse, database, authPluginName, appName⟩

/-- `HandshakeResponse41::decode` -/
def decode (buf : Bytes) : Except (Abort WireError) HandshakeResponse41 :=
  if buf.length < 32 then .error (.err (.invalidFormat "HandshakeResponse41 too short".toList))
  else do
    let (flags, buf) ← orPanic (getBytes 4 buf)
    let (maxPacketSize, buf) ← orPanic (getBytes 4 buf)
    let (characterSet, buf) ← orPanic (getBytes 1 buf)
    if buf.length < 23 then .error (.err (.invalidFormat "HandshakeResponse41 missing reserved bytes".toList))
    else
      let (_, buf) ← orPanic (getBytes 23 buf)
      let (username, buf) ← readNullTerminatedString buf
      decodeAuth (leNat flags) (leNat maxPacketSize) (leNat characterSet) username buf

end HandshakeResponse41

/-! ## What runs -/

namespace Handshake

variable {n : Nat} {buf rest attrs : Bytes}

theorem runs_getBytes (h : n ≤ buf.length) : Runs (getBytes n buf) (· = (buf.take n, buf.drop n)) :=
  ⟨_, if_pos h, rfl⟩

theorem sliceOf_take (h : n ≤ buf.length) : Runs (sliceOf buf 0 n) (· = buf.take n) :=
  runs_sliceOf (Nat.zero_le n) h

theorem sliceOf_drop (h : n ≤ buf.length) : Runs (sliceOf buf n buf.length) (· = buf.drop n) := by
  refine (runs_sliceOf h (Nat.le_refl _)).imp fun rest hrest => ?_
  rw [hrest]
  exact List.take_of_length_le (Nat.le_of_eq List.length_drop)

theorem runs_fixedInt (k : Nat) (buf : Bytes) :
    Runs (fixedInt k buf) (· = if buf.length < k then none else some (leNat (buf.take k), buf.drop k)) := by
  rw [fixedInt]
  split
  · exact runs_ok rfl
  · refine (sliceOf_take (by omega)).bind fun v hv => ?_
    refine (sliceOf_drop (by omega)).bind fun rest hrest => runs_ok ?_
    rw [hv, hrest]

/-- The checks are made before the bytes are read. -/
theorem runs_lenencInt (buf : Bytes) : Runs (lenencInt buf) (· = readLenencInt buf) := by
  cases buf with
  | nil => exact runs_ok rfl
  | cons first rest =>
    refine (runs_indexOf (Nat.succ_pos _)).bind fun b hb => ?_
    cases hb
    refine (sliceOf_drop (Nat.succ_pos _)).bind fun tail htail => ?_
    have hrest : tail = rest := htail
    subst hrest
    rw [readLenencInt]
    split
    · exact runs_ok rfl
    split
    · exact runs_fixedInt 2 tail
    split
    · exact runs_fixedInt 3 tail
    split
    · exact runs_fixedInt 8 tail
    · exact runs_ok rfl

/-- A number takes one byte at least. -/
theorem length_readLenencInt {v : Nat} (h : readLenencInt buf = some (v, rest)) : rest.length < buf.length := by
  cases buf with
  | nil => cases h
  | cons first buf =>
    have hshort : ∀ k, (if buf.length < k then none else some (leNat (buf.take k), buf.drop k)) = some (v, rest) →
        rest.length < (first :: buf).length := by
      intro k hk
      obtain ⟨-, heq⟩ := Option.ite_none_left_eq_some.mp hk
      cases heq
      simp only [List.length_drop, List.length_cons]
      omega
    rw [readLenencInt] at h
    split at h
    · cases h
    split at h
    · exact hshort 2 h
    split at h
    · exact hshort 3 h
    split at h
    · exact hshort 8 h
    · cases h
      exact Nat.lt_succ_self _

/-- Every round takes two bytes at least. -/
theorem runs_attrsLoop (hn : attrs.length < n) : Runs (attrsLoop n attrs) fun _ => True := by
  induction n generalizing attrs with
  | zero => exact absurd hn (Nat.not_lt_zero _)
  | succ n ih =>
    rw [attrsLoop]
    split
    · exact runs_ok trivial
    refine (runs_lenencInt attrs).bind fun key hkey => ?_
    match key, hkey with
    | none, _ => exact runs_ok trivial
    | some (keyLen, attrs₁), hkey =>
      have hshort := length_readLenencInt hkey.symm
      dsimp only
      split
      · exact runs_ok trivial
      refine (sliceOf_take (by omega)).bind fun k _ => ?_
      refine (sliceOf_drop (by omega)).bind fun attrs₂ hattrs₂ => ?_
      refine (runs_lenencInt attrs₂).bind fun val hval => ?_
      match val, hval with
      | none, _ => exact runs_ok trivial
      | some (valLen, attrs₃), hval =>
        have hshort' := length_readLenencInt hval.symm
        have hdrop := congrArg List.length hattrs₂
        rw [List.length_drop] at hdrop
        dsimp only
        split
        · exact runs_ok trivial
        refine (sliceOf_take (by omega)).bind fun v _ => ?_
        refine (sliceOf_drop (by omega)).bind fun attrs₄ hattrs₄ => ?_
        have hdrop' := congrArg List.length hattrs₄
        rw [List.length_drop] at hdrop'
        split
        · exact runs_ok trivial
        · exact ih (by omega)

theorem runs_parseAppNameFromAttrs (buf : Bytes) : Runs (parseAppNameFromAttrs buf) fun _ => True := by
  refine (runs_lenencInt buf).bind fun total _ => ?_
  match total with
  | none => exact runs_ok trivial
  | some (totalLen, remaining) =>
    dsimp only
    split
    · exact runs_ok trivial
    refine (sliceOf_take (by omega)).bind fun attrs hattrs => ?_
    refine runs_attrsLoop ?_
    rw [hattrs, List.length_take]
    omega

end Handshake

namespace Handshake

variable {buf rest : Bytes} {s : Str}

/-- A string that ends in NUL is read, and there is no panic if there is none. -/
theorem readNullTerminatedString_eq (hlen : buf.length < 2 ^ 63) : readNullTerminatedString buf =
    match splitNul buf with
    | none => .error (.err (.invalidFormat "Missing null terminator in string".toList))
    | some (name, rest) => .ok (fromUtf8Lossy name, rest) := by
  rw [readNullTerminatedString, PgPipelineScan.splitNul_eq]
  cases hfind : buf.findIdx? (· == 0) with
  | none => rfl
  | some nullPos =>
    obtain ⟨hpos, -⟩ := List.findIdx?_eq_some_iff_getElem.mp hfind
    obtain ⟨name, hname, rfl⟩ := sliceOf_take (Nat.le_of_lt hpos)
    obtain ⟨behind, hbehind, rfl⟩ := runs_addUsize (by omega : nullPos + 1 < 2 ^ 64)
    have hbound : nullPos + 1 ≤ buf.length := hpos
    obtain ⟨rest, hrest, rfl⟩ := sliceOf_drop hbound
    dsimp only
    rw [hname, hbehind]
    change (do let rest ← orPanic (sliceOf buf (nullPos + 1) buf.length); _) = _
    rw [hrest]
    rfl

theorem noPanic_readNullTerminatedString (hlen : buf.length < 2 ^ 63) : NoPanic (readNullTerminatedString buf) := by
  rw [readNullTerminatedString_eq hlen]
  split
  · exact noPanic_err _
  · exact noPanic_ok _

theorem length_readNullTerminatedString (hlen : buf.length < 2 ^ 63)
    (h : readNullTerminatedString buf = .ok (s, rest)) : rest.length ≤ buf.length := by
  rw [readNullTerminatedString_eq hlen] at h
  split at h
  · cases h
  · rename_i hsplit
    obtain ⟨rfl, -⟩ := splitNul_eq_some hsplit
    cases h
    simp only [List.length_append, List.length_cons]
    omega

end Handshake

/-! ## The one access that is not checked -/

namespace HandshakeResponse41

open Handshake

variable {flags maxPacketSize characterSet : Nat} {username : Str} {buf : Bytes}

theorem noPanic_optionalString (hlen : buf.length < 2 ^ 63) (capability flags : Nat) :
    NoPanic (optionalString capability flags buf) := by
  rw [optionalString]
  split
  · exact (noPanic_readNullTerminatedString hlen).bind fun _ _ => noPanic_ok _
  · exact noPanic_ok _

theorem length_optionalString {capability : Nat} {s : Option Str} {rest : Bytes} (hlen : buf.length < 2 ^ 63)
    (h : optionalString capability flags buf = .ok (s, rest)) : rest.length ≤ buf.length := by
  rw [optionalString] at h
  split at h
  · obtain ⟨⟨s', rest'⟩, hread, h⟩ := bind_eq_ok h
    cases h
    exact length_readNullTerminatedString hlen hread
  · cases h
    exact Nat.le_refl _

/-- Behind the user name there must be one byte. -/
theorem noPanic_decodeAuth (hlen : buf.length < 2 ^ 63) (hne : buf ≠ []) :
    NoPanic (decodeAuth flags maxPacketSize characterSet username buf) := by
  have hpos := List.length_pos_iff.mpr hne
  refine (runs_getBytes hpos).noPanic_bind fun len hone => ?_
  subst hone
  dsimp only
  split
  · exact noPanic_err _
  refine (runs_getBytes (by omega)).noPanic_bind fun auth hauth => ?_
  subst hauth
  dsimp only
  have hlen₁ : ((buf.drop 1).drop (leNat (buf.take 1))).length < 2 ^ 63 := by
    simp only [List.length_drop]
    omega
  refine (noPanic_optionalString hlen₁ _ flags).bind fun ⟨database, buf₁⟩ hdatabase => ?_
  have hlen₂ := length_optionalString hlen₁ hdatabase
  refine (noPanic_optionalString (Nat.lt_of_le_of_lt hlen₂ hlen₁) _ flags).bind fun ⟨plugin, buf₂⟩ _ => ?_
  split
  · exact (runs_parseAppNameFromAttrs buf₂).noPanic_bind fun _ _ => noPanic_ok _
  · exact noPanic_ok _

/-- The fixed part is as long as it has been checked to be. -/
theorem decode_eq (h : 32 ≤ buf.length) : decode buf =
    readNullTerminatedString (buf.drop 32) >>= fun r =>
      decodeAuth (leNat (buf.take 4)) (leNat ((buf.drop 4).take 4)) (leNat ((buf.drop 8).take 1)) r.1 r.2 := by
  obtain ⟨flags, hflags, rfl⟩ := runs_getBytes (show 4 ≤ buf.length by omega)
  obtain ⟨size, hsize, rfl⟩ := runs_getBytes (show 4 ≤ (buf.drop 4).length by rw [List.length_drop]; omega)
  obtain ⟨charset, hcharset, rfl⟩ := runs_getBytes (show 1 ≤ (buf.drop 8).length by rw [List.length_drop]; omega)
  obtain ⟨reserved, hreserved, rfl⟩ := runs_getBytes (show 23 ≤ (buf.drop 9).length by rw [List.length_drop]; omega)
  rw [List.drop_drop] at hsize hcharset hreserved
  rw [decode, if_neg (by omega), hflags]
  change (do let (maxPacketSize, buf) ← orPanic (getBytes 4 (buf.drop 4)); _) = _
  rw [hsize]
  change (do let (characterSet, buf) ← orPanic (getBytes 1 (buf.drop 8)); _) = _
  rw [hcharset]
  change (if (buf.drop 9).length < 23 then _ else _) = _
  rw [if_neg (by rw [List.length_drop]; omega), hreserved]
  rfl

/-- The response ends right behind the user name. -/
def EndsInName (buf : Bytes) : Prop := ∃ name : Bytes, (0 : UInt8) ∉ name ∧ buf.drop 32 = name ++ [0]

/-- Then the length of the authentication response is read where there is nothing. -/
theorem decode_endsInName (h : EndsInName buf) (hlen : buf.length < 2 ^ 63) :
    decode buf = .error (.panics .outOfRange) := by
  obtain ⟨name, hname, hdrop⟩ := h
  have hlong : 32 ≤ buf.length := by
    have hlength := congrArg List.length hdrop
    simp only [List.length_drop, List.length_append, List.length_singleton] at hlength
    omega
  rw [decode_eq hlong, readNullTerminatedString_eq (by rw [List.length_drop]; omega), hdrop, splitNul_append [] hname]
  rfl

theorem noPanic_decode (h : ¬EndsInName buf) (hlen : buf.length < 2 ^ 63) : NoPanic (decode buf) := by
  by_cases hlong : 32 ≤ buf.length
  · have hlen' : (buf.drop 32).length < 2 ^ 63 := by
      rw [List.length_drop]
      omega
    rw [decode_eq hlong]
    refine (noPanic_readNullTerminatedString hlen').bind fun ⟨username, rest⟩ hread => ?_
    have hrest := length_readNullTerminatedString hlen' hread
    refine noPanic_decodeAuth (Nat.lt_of_le_of_lt hrest hlen') ?_
    rintro rfl
    rw [readNullTerminatedString_eq hlen'] at hread
    split at hread
    · cases hread
    · rename_i name rest hsplit
      cases hread
      obtain ⟨hdrop, hname⟩ := splitNul_eq_some hsplit
      exact h ⟨name, hname, hdrop⟩
  · rw [decode, if_pos (Nat.lt_of_not_le hlong)]
    exact noPanic_err _

/-- **Decoding the response of a client**: it ends with a value or an error, unless the response ends right behind the
NUL of the user name. -/
theorem decode_ends_iff (buf : Slice) : NoPanic (decode buf.1) ↔ ¬EndsInName buf.1 :=
  ⟨fun h hends => h _ (decode_endsInName hends buf.2), fun h => noPanic_decode h buf.2⟩

/-- Thirty-two bytes and an empty user name. -/
theorem decode_panics : ¬ ∀ buf : Slice, NoPanic (decode buf.1) := by
  intro h
  exact h ⟨List.replicate 33 0, by decide⟩ .outOfRange (decode_endsInName ⟨[], List.not_mem_nil, rfl⟩ (by decide))

end HandshakeResponse41

end TurbineProxy
