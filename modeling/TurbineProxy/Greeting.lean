import TurbineProxy.HandshakeResponse
import TurbineProxy.PasswordTokens

/-!
# The greeting of a MySQL server

`HandshakeV10::encode` of `protocol/mysql/handshake.rs` writes it, and the beginning of `mysql_connect` of
`protocol/mysql/mod.rs` reads it: by positions, and without a look at the length of the packet. `parseGreeting_iff` says
for which packets that goes well, and `greeting_agrees` that it does for what `encode` writes.
-/

namespace TurbineProxy

/-! ## `HandshakeV10` -/

/-- `HandshakeV10` -/
structure HandshakeV10 where
  protocolVersion : UInt8
  serverVersion : Str
  connectionId : UInt32
  authPluginData1 : Bytes
  authPluginData2 : Bytes
  capabilityFlags : UInt32
  characterSet : UInt8
  statusFlags : UInt16
  authPluginName : Str
  length_data1 : authPluginData1.length = 8
  length_data2 : authPluginData2.length = 12

/-- What `encode` writes behind the version and its NUL. -/
def HandshakeV10.fields (hs : HandshakeV10) : Bytes :=
  leBytes 4 hs.connectionId.toNat ++ (hs.authPluginData1 ++ ((0 : UInt8) ::
    (leBytes 2 (hs.capabilityFlags.toNat &&& 0xFFFF) ++ (hs.characterSet :: (leBytes 2 hs.statusFlags.toNat ++
    (leBytes 2 ((hs.capabilityFlags.toNat >>> 16) &&& 0xFFFF) ++ ((21 : UInt8) :: (List.replicate 10 0 ++
    (hs.authPluginData2 ++ ((0 : UInt8) :: (toUtf8 hs.authPluginName ++ [0])))))))))))

/-- `HandshakeV10::encode` -/
def HandshakeV10.encode (hs : HandshakeV10) : Bytes :=
  hs.protocolVersion :: (toUtf8 hs.serverVersion ++ 0 :: hs.fields)

/-! ## The parser -/

/-- What is taken from a greeting. -/
structure Greeting where
  backendConnId : Nat
  challenge : Bytes
  serverCaps : Nat
  deriving DecidableEq

/-- `a - b` -/
def subUsize (a b : Nat) : Except TrackFault Nat := if b ≤ a then .ok (a - b) else .error .overflow

/-- `u16::from_le_bytes([p[pos], p[pos + 1]])` -/
def leU16At (p : Bytes) (pos : Nat) : Except TrackFault Nat := do
  let a ← indexOf p pos
  let b ← indexOf p (← addUsize pos 1)
  .ok (leNat [a, b])

/-- `u32::from_le_bytes` of four bytes from a position on -/
def leU32At (p : Bytes) (pos : Nat) : Except TrackFault Nat := do
  let a ← indexOf p pos
  let b ← indexOf p (← addUsize pos 1)
  let c ← indexOf p (← addUsize pos 2)
  let d ← indexOf p (← addUsize pos 3)
  .ok (leNat [a, b, c, d])

/-- The loop over the version of the server. -/
def skipVersion (p : Bytes) : Nat → Nat → Except TrackFault Nat
  | 0, _ => .error .endless
  | n + 1, pos =>
    if pos < p.length then do
      if (← indexOf p pos) ≠ 0 then skipVersion p n (← addUsize pos 1) else .ok pos
    else .ok pos

/-- What comes behind the version. -/
def parseFields (p : Bytes) (pos : Nat) : Except TrackFault Greeting := do
  let backendConnId ← leU32At p pos
  let pos ← addUsize pos 4
  let data1 ← sliceOf p pos (← addUsize pos 8)
  -- and a filler
  let pos ← addUsize pos (8 + 1)
  let capLower ← leU16At p pos
  -- character set and status
  let pos ← addUsize pos (2 + 1 + 2)
  let capUpper ← leU16At p pos
  -- length of the challenge, reserved bytes
  let pos ← addUsize pos (2 + 1 + 10)
  let remaining := min (← subUsize p.length pos) 12
  let data2 ← sliceOf p pos (← addUsize pos remaining)
  .ok ⟨backendConnId, data1 ++ data2, capLower ||| capUpper <<< 16⟩

/-- The beginning of `mysql_connect`: the greeting is parsed. -/
def parseGreeting (p : Bytes) : Except TrackFault Greeting := do
  let _proto ← indexOf p 0
  let pos ← skipVersion p (p.length + 1) (← addUsize 0 1)
  parseFields p (← addUsize pos 1)

/-! ## Which packets are parsed -/

section Positions

variable {p : Bytes} {n pos v : Nat} {g : Greeting}

theorem addUsize_eq_ok {a b c : Nat} (h : addUsize a b = .ok c) : c = a + b := by
  rw [addUsize] at h
  split at h
  · exact (Except.ok.inj h).symm
  · cases h

theorem subUsize_eq_ok {a b c : Nat} (h : subUsize a b = .ok c) : b ≤ a := by
  rw [subUsize] at h
  split at h
  · assumption
  · cases h

/-- The loop ends at the first NUL, or at the end. -/
theorem runs_skipVersion (hlen : p.length < 2 ^ 63) (hpos : pos ≤ p.length) (hn : p.length - pos < n) :
    Runs (skipVersion p n pos) (· = pos + (p.drop pos).findIdx (· == 0)) := by
  induction n generalizing pos with
  | zero => exact absurd hn (Nat.not_lt_zero _)
  | succ n ih =>
    rw [skipVersion]
    split
    · rename_i hlt
      have hdrop : p.drop pos = p[pos] :: p.drop (pos + 1) := List.drop_eq_getElem_cons hlt
      refine (runs_indexOf hlt).bind fun b hb => ?_
      rw [List.getElem?_eq_getElem hlt] at hb
      cases hb
      rw [hdrop, List.findIdx_cons]
      split
      · rename_i hne
        refine (runs_addUsize (by omega)).bind fun next hnext => ?_
        subst hnext
        refine (ih (by omega) (by omega)).imp fun stop hstop => ?_
        rw [hstop, beq_false_of_ne hne]
        simp only [cond_false]
        omega
      · rename_i heq
        rw [not_not] at heq
        exact runs_ok (by simp [heq])
    · rename_i hend
      have hnil : p.drop pos = [] := List.drop_eq_nil_of_le (Nat.le_of_not_lt hend)
      rw [hnil]
      exact runs_ok rfl

theorem runs_leU16At (hlen : p.length < 2 ^ 63) (h : pos + 2 ≤ p.length) :
    Runs (leU16At p pos) (· = leNat ((p.drop pos).take 2)) := by
  rw [leU16At]
  refine (runs_indexOf (by omega)).bind fun a ha => ?_
  refine (runs_addUsize (by omega)).bind fun pos₁ hpos₁ => ?_
  subst hpos₁
  refine (runs_indexOf (by omega)).bind fun b hb => runs_ok ?_
  have hdrop : (p.drop pos).take 2 = [a, b] := by
    rw [List.take_add_one, List.take_one, List.head?_drop, List.getElem?_drop, ha, hb]
    rfl
  rw [hdrop]

theorem runs_leU32At (hlen : p.length < 2 ^ 63) (h : pos + 4 ≤ p.length) :
    Runs (leU32At p pos) (· = leNat ((p.drop pos).take 4)) := by
  rw [leU32At]
  refine (runs_indexOf (by omega)).bind fun a ha => ?_
  refine (runs_addUsize (by omega)).bind fun pos₁ hpos₁ => ?_
  refine (runs_indexOf (by omega)).bind fun b hb => ?_
  refine (runs_addUsize (by omega)).bind fun pos₂ hpos₂ => ?_
  refine (runs_indexOf (by omega)).bind fun c hc => ?_
  refine (runs_addUsize (by omega)).bind fun pos₃ hpos₃ => ?_
  refine (runs_indexOf (by omega)).bind fun d hd => runs_ok ?_
  subst hpos₁ hpos₂ hpos₃
  have hdrop : (p.drop pos).take 4 = [a, b, c, d] := by
    rw [List.take_add_one, List.take_add_one, List.take_add_one, List.take_one, List.head?_drop, List.getElem?_drop,
      List.getElem?_drop, List.getElem?_drop, ha, hb, hc, hd]
    rfl
  rw [hdrop]

/-- All fields are there, but for the second part of the challenge, of which there may be less. -/
theorem runs_parseFields (hlen : p.length < 2 ^ 63) (h : v + 31 ≤ p.length) :
    Runs (parseFields p v) (· = ⟨leNat ((p.drop v).take 4),
      (p.drop (v + 4)).take 8 ++ (p.drop (v + 31)).take 12,
      leNat ((p.drop (v + 13)).take 2) ||| leNat ((p.drop (v + 18)).take 2) <<< 16⟩) := by
  rw [parseFields]
  refine (runs_leU32At hlen (by omega)).bind fun connId hconnId => ?_
  refine (runs_addUsize (by omega)).bind fun pos₁ hpos₁ => ?_
  refine (runs_addUsize (by omega)).bind fun stop₁ hstop₁ => ?_
  refine (runs_sliceOf (by omega) (by omega)).bind fun data1 hdata1 => ?_
  refine (runs_addUsize (by omega)).bind fun pos₂ hpos₂ => ?_
  refine (runs_leU16At hlen (by omega)).bind fun capLower hlower => ?_
  refine (runs_addUsize (by omega)).bind fun pos₃ hpos₃ => ?_
  refine (runs_leU16At hlen (by omega)).bind fun capUpper hupper => ?_
  refine (runs_addUsize (by omega)).bind fun pos₄ hpos₄ => ?_
  obtain rfl : pos₄ = v + 31 := by omega
  have hsub : subUsize p.length (v + 31) = .ok (p.length - (v + 31)) := if_pos h
  rw [hsub]
  change Runs (do let stop ← addUsize (v + 31) (min (p.length - (v + 31)) 12); _) _
  refine (runs_addUsize (by omega)).bind fun stop₂ hstop₂ => ?_
  refine (runs_sliceOf (by omega) (by omega)).bind fun data2 hdata2 => runs_ok ?_
  have htake : (p.drop (v + 31)).take (stop₂ - (v + 31)) = (p.drop (v + 31)).take 12 := by
    rw [hstop₂, Nat.add_sub_cancel_left, List.take_eq_take_iff, List.length_drop]
    omega
  rw [hconnId, hdata1, hdata2, hlower, hupper, htake]
  obtain rfl : pos₁ = v + 4 := hpos₁
  obtain rfl : pos₂ = v + 13 := hpos₂
  obtain rfl : pos₃ = v + 18 := hpos₃
  rw [hstop₁, Nat.add_sub_cancel_left]

/-- The last of them ends thirty-one bytes behind the version. -/
theorem le_of_parseFields (h : parseFields p v = .ok g) : v + 31 ≤ p.length := by
  obtain ⟨connId, -, h₁⟩ := bind_eq_ok h
  obtain ⟨pos₁, hpos₁, h₂⟩ := bind_eq_ok h₁
  obtain ⟨stop₁, -, h₃⟩ := bind_eq_ok h₂
  obtain ⟨data1, -, h₄⟩ := bind_eq_ok h₃
  obtain ⟨pos₂, hpos₂, h₅⟩ := bind_eq_ok h₄
  obtain ⟨capLower, -, h₆⟩ := bind_eq_ok h₅
  obtain ⟨pos₃, hpos₃, h₇⟩ := bind_eq_ok h₆
  obtain ⟨capUpper, -, h₈⟩ := bind_eq_ok h₇
  obtain ⟨pos₄, hpos₄, h₉⟩ := bind_eq_ok h₈
  obtain ⟨remaining, hsub, -⟩ := bind_eq_ok h₉
  have hle := subUsize_eq_ok hsub
  have hv₁ := addUsize_eq_ok hpos₁
  have hv₂ := addUsize_eq_ok hpos₂
  have hv₃ := addUsize_eq_ok hpos₃
  have hv₄ := addUsize_eq_ok hpos₄
  omega

end Positions

/-- A protocol version, a server version that ends in NUL, and thirty-one bytes behind it. -/
def Greets (p : Bytes) : Prop :=
  ∃ proto version rest, p = proto :: (version ++ 0 :: rest) ∧ (0 : UInt8) ∉ version ∧ 31 ≤ rest.length

theorem findIdx_nul {version : Bytes} (h : (0 : UInt8) ∉ version) (rest : Bytes) :
    (version ++ 0 :: rest).findIdx (· == 0) = version.length := by
  induction version with
  | nil => rfl
  | cons b version ih =>
    obtain ⟨hb, hversion⟩ := not_or.mp (List.mem_cons.not.mp h)
    rw [List.cons_append, List.findIdx_cons, ih hversion, beq_false_of_ne (Ne.symm hb)]
    rfl

/-- The fields are parsed behind the first NUL. -/
theorem parseGreeting_cons {proto : UInt8} {tail : Bytes} (hlen : (proto :: tail).length < 2 ^ 63) :
    parseGreeting (proto :: tail) = parseFields (proto :: tail) (tail.findIdx (· == 0) + 2) := by
  have hle : tail.findIdx (· == 0) ≤ tail.length := List.findIdx_le_length
  have hone : 1 ≤ (proto :: tail).length := Nat.le_add_left 1 _
  have hfuel : (proto :: tail).length - 1 < tail.length + 2 := Nat.lt_add_of_pos_right Nat.two_pos
  obtain ⟨stop, hstop, rfl⟩ := runs_skipVersion hlen hone hfuel
  rw [List.length_cons] at hlen
  have hnext : addUsize (1 + tail.findIdx (· == 0)) 1 = .ok (tail.findIdx (· == 0) + 2) := by
    rw [addUsize, if_pos (by omega)]
    congr 1
    omega
  change (do let pos ← skipVersion (proto :: tail) (tail.length + 2) 1; parseFields _ (← addUsize pos 1)) = _
  rw [hstop]
  change (do parseFields _ (← addUsize (1 + tail.findIdx (· == 0)) 1)) = _
  rw [hnext]
  rfl

/-- Which first packets are parsed. -/
theorem parseGreeting_iff (p : Slice) : (∃ g, parseGreeting p.1 = .ok g) ↔ Greets p.1 := by
  obtain ⟨p, hlen⟩ := p
  constructor
  · rintro ⟨g, hg⟩
    cases p with
    | nil => cases hg
    | cons proto tail =>
      rw [parseGreeting_cons hlen] at hg
      have hle := le_of_parseFields hg
      rw [List.length_cons] at hle
      by_cases hnul : (0 : UInt8) ∈ tail
      · obtain ⟨version, rest, rfl, hversion⟩ := List.eq_append_cons_of_mem hnul
        refine ⟨proto, version, rest, rfl, hversion, ?_⟩
        rw [findIdx_nul hversion, List.length_append, List.length_cons] at hle
        omega
      · have hend : tail.findIdx (· == 0) = tail.length := by
          rw [List.findIdx_eq_length]
          intro b hb
          exact beq_false_of_ne (ne_of_mem_of_not_mem hb hnul)
        omega
  · rintro ⟨proto, version, rest, rfl, hversion, hrest⟩
    dsimp only
    rw [parseGreeting_cons hlen, findIdx_nul hversion]
    obtain ⟨g, hg, -⟩ := runs_parseFields (v := version.length + 2) hlen (by
      simp only [List.length_cons, List.length_append]
      omega)
    exact ⟨g, hg⟩

/-! ## Both sides -/

theorem flags_split (flags : UInt32) :
    (flags.toNat &&& 0xFFFF) ||| ((flags.toNat >>> 16) &&& 0xFFFF) <<< 16 = flags.toNat := by
  have hlt := flags.toNat_lt
  have hlow : flags.toNat &&& 0xFFFF = flags.toNat % 2 ^ 16 := Nat.and_two_pow_sub_one_eq_mod flags.toNat 16
  have hhigh : (flags.toNat >>> 16) &&& 0xFFFF = flags.toNat / 2 ^ 16 := by
    rw [Nat.and_two_pow_sub_one_eq_mod (flags.toNat >>> 16) 16, Nat.shiftRight_eq_div_pow, Nat.mod_eq_of_lt]
    omega
  rw [hlow, hhigh, Nat.or_comm, ← Nat.shiftLeft_add_eq_or_of_lt (Nat.mod_lt _ (by decide)), Nat.shiftLeft_eq]
  omega

theorem leNat_lt_leBytes {k n : Nat} (h : n < 2 ^ (8 * k)) : leNat (leBytes k n) = n := by
  rw [leNat_leBytes, Nat.mod_eq_of_lt h]

/-- The fields that are written are those that are read. -/
theorem HandshakeV10.length_fields (hs : HandshakeV10) : 31 ≤ hs.fields.length := by
  simp only [fields, List.length_append, List.length_cons, length_leBytes, hs.length_data1, hs.length_data2,
    List.length_replicate]
  omega

/-- Behind the version the fields are where the parser looks for them. -/
theorem HandshakeV10.parseFields_eq (hs : HandshakeV10) {p : Bytes} {v : Nat} (hlen : p.length < 2 ^ 63)
    (hp : p.drop v = hs.fields) :
    parseFields p v =
      .ok ⟨hs.connectionId.toNat, hs.authPluginData1 ++ hs.authPluginData2, hs.capabilityFlags.toNat⟩ := by
  have hlong : v + 31 ≤ p.length := by
    have hfields := hs.length_fields
    rw [← hp, List.length_drop] at hfields
    omega
  obtain ⟨g, hg, rfl⟩ := runs_parseFields hlen hlong
  have hat : ∀ k, p.drop (v + k) = hs.fields.drop k := fun k => by rw [← List.drop_drop, hp]
  have hid : hs.fields.take 4 = leBytes 4 hs.connectionId.toNat := List.take_left' (length_leBytes ..)
  have hdata : hs.fields.drop 4 = hs.authPluginData1 ++ 0 :: hs.fields.drop 13 := by
    have hdrop : hs.fields.drop 13 = ((hs.fields.drop 4).drop 8).drop 1 := by rw [List.drop_drop, List.drop_drop]
    rw [hdrop, fields, List.drop_left' (length_leBytes ..), List.drop_left' hs.length_data1]
    rfl
  have hdata1 : (hs.fields.drop 4).take 8 = hs.authPluginData1 := by
    rw [hdata]
    exact List.take_left' hs.length_data1
  have hbehind : hs.fields.drop 13 =
      leBytes 2 (hs.capabilityFlags.toNat &&& 0xFFFF) ++ (hs.characterSet :: (leBytes 2 hs.statusFlags.toNat ++
      (leBytes 2 ((hs.capabilityFlags.toNat >>> 16) &&& 0xFFFF) ++ (21 :: (List.replicate 10 0 ++
      (hs.authPluginData2 ++ (0 :: (toUtf8 hs.authPluginName ++ [0])))))))) := by
    have hdrop : hs.fields.drop 13 = ((hs.fields.drop 4).drop 8).drop 1 := by rw [List.drop_drop, List.drop_drop]
    rw [hdrop, fields, List.drop_left' (length_leBytes ..), List.drop_left' hs.length_data1]
    rfl
  have hdata2 : (hs.fields.drop 31).take 12 = hs.authPluginData2 := by
    rw [show 31 = 13 + 18 from rfl, ← List.drop_drop, hbehind]
    exact List.take_left' hs.length_data2
  have hlow : (hs.fields.drop 13).take 2 = leBytes 2 (hs.capabilityFlags.toNat &&& 0xFFFF) := by
    rw [hbehind]
    rfl
  have hhigh : (hs.fields.drop 18).take 2 = leBytes 2 ((hs.capabilityFlags.toNat >>> 16) &&& 0xFFFF) := by
    rw [show 18 = 13 + 5 from rfl, ← List.drop_drop, hbehind]
    rfl
  have hsmall : ∀ n, n &&& 0xFFFF < 2 ^ (8 * 2) := fun n => Nat.lt_of_le_of_lt Nat.and_le_right (by decide)
  rw [hg, hp, hat, hat, hat, hat, hid, hdata1, hdata2, hlow, hhigh, leNat_lt_leBytes hs.connectionId.toNat_lt,
    leNat_lt_leBytes (hsmall _), leNat_lt_leBytes (hsmall _), flags_split]

/-- **The handshake**: of a greeting whose version has no NUL, the connection id, the whole challenge and all flags are
read as they were written. -/
theorem greeting_agrees (hs : HandshakeV10) (hversion : '\x00' ∉ hs.serverVersion) (p : Slice)
    (hp : p.1 = hs.encode) :
    parseGreeting p.1 =
      .ok ⟨hs.connectionId.toNat, hs.authPluginData1 ++ hs.authPluginData2, hs.capabilityFlags.toNat⟩ := by
  obtain ⟨p, hlen⟩ := p
  subst hp
  dsimp only
  have hbehind : (toUtf8 hs.serverVersion ++ 0 :: hs.fields).findIdx (· == 0) = (toUtf8 hs.serverVersion).length :=
    findIdx_nul (nul_notMem_toUtf8 hversion) hs.fields
  rw [HandshakeV10.encode, parseGreeting_cons hlen, hbehind]
  refine hs.parseFields_eq hlen ?_
  rw [List.drop_succ_cons, List.append_cons, List.drop_left' (by simp)]

/-- The greeting that the proxy itself sends, with zeros in its challenge. -/
def sampleGreeting : HandshakeV10 where
  protocolVersion := 10
  serverVersion := "8.0.36".toList
  connectionId := 7
  authPluginData1 := [1, 0, 3, 4, 5, 6, 7, 8]
  authPluginData2 := [9, 0, 11, 12, 13, 14, 15, 16, 17, 18, 19, 0]
  capabilityFlags := 0x000BA208
  characterSet := 0x21
  statusFlags := 2
  authPluginName := "mysql_native_password".toList
  length_data1 := rfl
  length_data2 := rfl

theorem greeting_agrees_sample : parseGreeting sampleGreeting.encode =
    .ok ⟨7, [1, 0, 3, 4, 5, 6, 7, 8, 9, 0, 11, 12, 13, 14, 15, 16, 17, 18, 19, 0], 0x000BA208⟩ :=
  greeting_agrees sampleGreeting (by decide) ⟨sampleGreeting.encode, by decide⟩ rfl

end TurbineProxy
