import TurbineProxy.ConfigApi
import TurbineProxy.TomlText

/-!
# Export and import

`export_config` writes the store as a text in the format of the configuration file, and `import_config`
puts the configuration of such a text in the place of what is stored. `export_import_iff` says which
stores survive the one followed by the other: those whose text is refused, and those that hold nothing
but what the text has a place for.

What the `toml` crate makes of the exported text is an assumption: the table that the text denotes.
-/

namespace TurbineProxy.Config

open Sql Toml

/-! ## The text -/

section Export

variable (printable : Char → Bool)

/-- A character that `{:?}` leaves alone unless it is a quote or a backslash. `printable` is the table of
the standard library from U+00A1 on. -/
def isPrintable (c : Char) : Bool :=
  (32 ≤ c.toNat && c.toNat < 127) || (161 ≤ c.toNat && printable c)

/-- The escape sequences of `{:?}`: the character, and what comes after the backslash. -/
def debugEscapes : List (Char × Char) := [('\t', 't'), ('\r', 'r'), ('\n', 'n'), ('"', '"'), ('\\', '\\')]

/-- A character of a string in `{:?}` -/
def escapeDebug (c : Char) : Str :=
  if c.toNat = 0 then "\\0".toList
  else
    match debugEscapes.lookup c with
    | some e => ['\\', e]
    | none =>
      if isPrintable printable c then [c]
      else "\\u\x7b".toList ++ Nat.toDigits 16 c.toNat ++ "\x7d".toList

/-- A string in `{:?}` -/
def debug (s : Str) : Scalar := .string (s.flatMap (escapeDebug printable))

/-- A string that is left out when it is empty. -/
def debugUnlessEmpty (s : Str) : Option Scalar := if s.isEmpty then none else some (debug printable s)

/-- A query rule. -/
def RuleRow.exported (r : RuleRow) : Toml.Section where
  name := "query_rules"
  repeated := true
  lines := [
    line "match_pattern" (r.matchPattern.map (debug printable)),
    line "match_digest" (r.matchDigest.map (debug printable)),
    line "user" (debugUnlessEmpty printable r.user),
    line "destination" (some (debug printable r.destination)),
    line "comment" (debugUnlessEmpty printable r.comment)]

/-- A rewrite rule. -/
def RewriteRuleRow.exported (r : RewriteRuleRow) : Toml.Section where
  name := "rewrite_rules"
  repeated := true
  lines := [
    line "match_pattern" (some (debug printable r.matchPattern)),
    line "replace_with" (r.replaceWith.map (debug printable)),
    line "add_limit" (r.addLimit.map fun v => .integer v.toInt),
    line "add_timeout_ms" (r.addTimeoutMs.map fun v => .integer v.toInt),
    line "block" (if r.block then some (.boolean true) else none),
    line "comment" (debugUnlessEmpty printable r.comment)]

/-- Three asterisks in the place of a password. -/
def maskedLine : Line :=
  ⟨"password", some (.string "***".toList), "  # passwords are not exported for security"⟩

/-- A backend. -/
def BackendRow.exported (r : BackendRow) : Toml.Section where
  name := if r.role = "primary".toList then "primary" else "replicas"
  repeated := r.role ≠ "primary".toList
  lines := [
    line "addr" (some (debug printable r.addr)),
    line "user" (some (debug printable r.user)),
    maskedLine,
    line "backup" (if r.backup then some (.boolean true) else none),
    line "weight" (if r.weight ≠ 100 then some (.integer r.weight.toInt) else none)]

/-- A user. -/
def UserRow.exported (r : UserRow) : Toml.Section where
  name := "users"
  repeated := true
  lines := [
    line "name" (some (debug printable r.name)),
    maskedLine,
    line "allow_writes" (if r.allowWrites then none else some (.boolean false)),
    line "max_connections" (if 0 < r.maxConnections then some (.integer r.maxConnections.toInt) else none)]

/-- The rows of a query, or none if it fails: `unwrap_or_default`. -/
def listed {α : Type} (fails : Nat → Bool) (n : Nat) (rows : List (Int × α)) : List α :=
  if fails n then [] else rows.map Prod.snd

/-- A comment and the sections of the rows. -/
def exportRows (rules : List RuleRow) (rewriteRules : List RewriteRuleRow) (backends : List BackendRow)
    (users : List UserRow) : Document where
  comment := "# TurbineProxy runtime config export\n\n"
  sections :=
    rules.map (RuleRow.exported printable) ++ rewriteRules.map (RewriteRuleRow.exported printable) ++
    backends.map (BackendRow.exported printable) ++ users.map (UserRow.exported printable)

/-- The document that `export_config` writes. -/
def exportDocument (fails : Nat → Bool) (db : Db) : Document :=
  exportRows printable (listed fails 0 (listRules db)) (listed fails 1 (listRewriteRules db))
    (listed fails 2 (listBackends db .mysql)) (listed fails 3 (listUsers db))

/-- `export_config` -/
def exportConfig (fails : Nat → Bool) (db : Db) : Str := (exportDocument printable fails db).text

end Export

/-! ## Strings that are read back -/

section Strings

variable (printable : Char → Bool)

/-- Whatever `{:?}` writes for the other characters, `\0` or a number in braces, is not TOML. -/
def Legible (s : Str) : Prop :=
  ∀ c ∈ s, c ∈ debugEscapes.map Prod.fst ∨ isPrintable printable c = true

/-- The two lists of escape sequences agree. -/
theorem lookup_escapes {c e : Char} (h : debugEscapes.lookup c = some e) : escapes.lookup e = some c := by
  have hall : ∀ p ∈ debugEscapes, escapes.lookup p.2 = some p.1 := by decide
  exact hall (c, e) (mem_of_lookup h)

theorem unescape_escapeDebug_legible {c : Char}
    (hc : c ∈ debugEscapes.map Prod.fst ∨ isPrintable printable c = true) (rest : Str) :
    unescape (escapeDebug printable c ++ rest) = (unescape rest).map (c :: ·) := by
  have hzero : c.toNat ≠ 0 := by
    intro hzero
    rcases hc with hc | hc
    · have hall : (debugEscapes.map Prod.fst).all (fun c => c.toNat != 0) = true := by decide
      exact bne_iff_ne.1 (List.all_eq_true.1 hall c hc) hzero
    · simp [isPrintable, hzero] at hc
  rw [escapeDebug, if_neg hzero]
  cases hlookup : debugEscapes.lookup c with
  | some e => exact unescape_escape (lookup_escapes hlookup) rest
  | none =>
    have hnot : c ∉ debugEscapes.map Prod.fst := fun hmem => by
      obtain ⟨p, hp, rfl⟩ := List.mem_map.1 hmem
      exact absurd hlookup (by simpa using ⟨p.2, hp⟩)
    have hprint : isPrintable printable c = true := hc.resolve_left hnot
    dsimp only
    rw [if_pos hprint]
    simp only [debugEscapes, List.map_cons, List.map_nil, List.mem_cons, List.not_mem_nil, or_false,
      not_or] at hnot
    refine unescape_plain ?_ hnot.2.2.2.2 rest
    have hrange : 32 ≤ c.toNat ∧ c.toNat ≠ 127 := by
      simp only [isPrintable, Bool.or_eq_true, Bool.and_eq_true, decide_eq_true_eq] at hprint
      omega
    simp [standsForItself, hrange, hnot]

theorem unescape_escapeDebug_illegible {c : Char}
    (hc : ¬ (c ∈ debugEscapes.map Prod.fst ∨ isPrintable printable c = true)) (rest : Str) :
    unescape (escapeDebug printable c ++ rest) = none := by
  obtain ⟨hnot, hprint⟩ := not_or.1 hc
  have hlookup : debugEscapes.lookup c = none := by
    rw [List.lookup_eq_none_iff]
    intro p hp
    exact bne_iff_ne.2 fun hsame => hnot (hsame ▸ List.mem_map_of_mem hp)
  rw [escapeDebug]
  by_cases hzero : c.toNat = 0
  · rw [if_pos hzero]
    exact unescape_unknown (by decide) (by decide) (by decide) rest
  · rw [if_neg hzero, hlookup]
    dsimp only
    rw [if_neg hprint, List.append_assoc]
    exact unescape_brace _

/-- A string is read back as it was, or not at all. -/
theorem unescape_debug_iff (s s' : Str) :
    unescape (s.flatMap (escapeDebug printable)) = some s' ↔ Legible printable s ∧ s' = s := by
  induction s generalizing s' with
  | nil =>
    rw [List.flatMap_nil, unescape_nil, Option.some.injEq, eq_comm]
    exact ⟨fun h => ⟨fun c hc => absurd hc List.not_mem_nil, h⟩, And.right⟩
  | cons c s ih =>
    rw [List.flatMap_cons]
    by_cases hc : c ∈ debugEscapes.map Prod.fst ∨ isPrintable printable c = true
    · rw [unescape_escapeDebug_legible printable hc, Option.map_eq_some_iff]
      simp only [ih, Legible, List.forall_mem_cons]
      constructor
      · rintro ⟨_, ⟨hs, rfl⟩, rfl⟩
        exact ⟨⟨hc, hs⟩, rfl⟩
      · rintro ⟨⟨-, hs⟩, rfl⟩
        exact ⟨s, ⟨hs, rfl⟩, rfl⟩
    · rw [unescape_escapeDebug_illegible printable hc]
      refine iff_of_false (by simp) fun h => hc (h.1 c List.mem_cons_self)

theorem value_debug_iff (s : Str) (v : Value) :
    (debug printable s).value = some v ↔ Legible printable s ∧ v = .string s := by
  rw [debug, Scalar.value, Option.map_eq_some_iff]
  constructor
  · rintro ⟨s', hs', rfl⟩
    obtain ⟨hlegible, rfl⟩ := (unescape_debug_iff printable s s').1 hs'
    exact ⟨hlegible, rfl⟩
  · rintro ⟨hlegible, rfl⟩
    exact ⟨s, (unescape_debug_iff printable s s).2 ⟨hlegible, rfl⟩, rfl⟩

theorem value_debug {s : Str} (h : Legible printable s) : (debug printable s).value = some (.string s) :=
  (value_debug_iff printable s _).2 ⟨h, rfl⟩

theorem value_debug_isSome_iff (s : Str) : (debug printable s).value.isSome ↔ Legible printable s := by
  rw [Option.isSome_iff_exists]
  exact ⟨fun ⟨v, hv⟩ => ((value_debug_iff printable s v).1 hv).1, fun h => ⟨_, value_debug printable h⟩⟩

theorem legible_nil : Legible printable [] := fun _ h => absurd h List.not_mem_nil

end Strings

/-! ## Sections that are read back -/

section Sections

variable (printable : Char → Bool)

theorem value_int64 (v : Int64) : (Scalar.integer v.toInt).value = some (.integer v.toInt) :=
  if_pos ⟨v.le_toInt, v.toInt_lt⟩

theorem wellFormed_string (key : String) (s : Str) :
    (line key (some (debug printable s))).wellFormed = true ↔ Legible printable s :=
  value_debug_isSome_iff printable s

theorem wellFormed_optional (key : String) (o : Option Str) :
    (line key (o.map (debug printable))).wellFormed = true ↔ ∀ s, o = some s → Legible printable s := by
  cases o with
  | none => exact iff_of_true rfl fun _ h => nomatch h
  | some s =>
    refine (wellFormed_string printable key s).trans ⟨fun h s' hs' => ?_, fun h => h s rfl⟩
    exact Option.some.inj hs' ▸ h

theorem wellFormed_unlessEmpty (key : String) (s : Str) :
    (line key (debugUnlessEmpty printable s)).wellFormed = true ↔ Legible printable s := by
  cases s with
  | nil => exact iff_of_true rfl (legible_nil printable)
  | cons c s => exact wellFormed_string printable key (c :: s)

theorem wellFormed_integer (key : String) (v : Int64) :
    (line key (some (.integer v.toInt))).wellFormed = true := by
  have hvalue := value_int64 v
  exact Option.isSome_of_eq_some hvalue

theorem wellFormed_boolean (key : String) (p : Prop) [Decidable p] (b : Bool) :
    (line key (if p then some (.boolean b) else none)).wellFormed = true := by
  split
  · rfl
  · rfl

/-- The strings of a query rule that are exported. -/
structure RuleRow.Legible (r : RuleRow) : Prop where
  matchPattern : ∀ s, r.matchPattern = some s → Config.Legible printable s
  matchDigest : ∀ s, r.matchDigest = some s → Config.Legible printable s
  user : Config.Legible printable r.user
  destination : Config.Legible printable r.destination
  comment : Config.Legible printable r.comment

/-- The strings of a rewrite rule. -/
structure RewriteRuleRow.Legible (r : RewriteRuleRow) : Prop where
  matchPattern : Config.Legible printable r.matchPattern
  replaceWith : ∀ s, r.replaceWith = some s → Config.Legible printable s
  comment : Config.Legible printable r.comment

/-- The strings of a backend that are exported. -/
structure BackendRow.Legible (r : BackendRow) : Prop where
  addr : Config.Legible printable r.addr
  user : Config.Legible printable r.user

theorem RuleRow.wellFormed_exported_iff (r : RuleRow) :
    (r.exported printable).wellFormed = true ↔ r.Legible printable := by
  have hkeys : decide ((r.exported printable).lines.map Line.key).Nodup = true := by
    simp only [RuleRow.exported, line, List.map_cons, List.map_nil]
    decide
  rw [Section.wellFormed, hkeys, Bool.true_and]
  simp only [RuleRow.exported, List.all_cons, List.all_nil, Bool.and_true, Bool.and_eq_true,
    wellFormed_optional, wellFormed_unlessEmpty, wellFormed_string]
  exact ⟨fun ⟨h1, h2, h3, h4, h5⟩ => ⟨h1, h2, h3, h4, h5⟩, fun h => ⟨h.1, h.2, h.3, h.4, h.5⟩⟩

theorem RewriteRuleRow.wellFormed_exported_iff (r : RewriteRuleRow) :
    (r.exported printable).wellFormed = true ↔ r.Legible printable := by
  have hkeys : decide ((r.exported printable).lines.map Line.key).Nodup = true := by
    simp only [RewriteRuleRow.exported, line, List.map_cons, List.map_nil]
    decide
  have hnumber : ∀ (key : String) (o : Option Int64),
      (line key (o.map fun v => Scalar.integer v.toInt)).wellFormed = true := fun key o => by
    cases o with
    | none => rfl
    | some v => exact wellFormed_integer key v
  rw [Section.wellFormed, hkeys, Bool.true_and]
  simp only [RewriteRuleRow.exported, List.all_cons, List.all_nil, Bool.and_true, Bool.and_eq_true,
    wellFormed_optional, wellFormed_unlessEmpty, wellFormed_string, hnumber, wellFormed_boolean, true_and]
  exact ⟨fun ⟨h1, h2, h3⟩ => ⟨h1, h2, h3⟩, fun h => ⟨h.1, h.2, h.3⟩⟩

theorem BackendRow.wellFormed_exported_iff (r : BackendRow) :
    (r.exported printable).wellFormed = true ↔ r.Legible printable := by
  have hkeys : decide ((r.exported printable).lines.map Line.key).Nodup = true := by
    simp only [BackendRow.exported, line, maskedLine, List.map_cons, List.map_nil]
    decide
  have hmasked : maskedLine.wellFormed = true := by decide
  have hweight : (line "weight"
      (if r.weight ≠ 100 then some (.integer r.weight.toInt) else none)).wellFormed = true := by
    split
    · exact wellFormed_integer _ _
    · rfl
  rw [Section.wellFormed, hkeys, Bool.true_and]
  simp only [BackendRow.exported, List.all_cons, List.all_nil, Bool.and_true, Bool.and_eq_true,
    wellFormed_string, hmasked, hweight, wellFormed_boolean]
  exact ⟨fun ⟨h1, h2⟩ => ⟨h1, h2⟩, fun h => ⟨h.1, h.2⟩⟩

theorem UserRow.wellFormed_exported_iff (r : UserRow) :
    (r.exported printable).wellFormed = true ↔ Legible printable r.name := by
  have hkeys : decide ((r.exported printable).lines.map Line.key).Nodup = true := by
    simp only [UserRow.exported, line, maskedLine, List.map_cons, List.map_nil]
    decide
  have hmasked : maskedLine.wellFormed = true := by decide
  have hwrites : (line "allow_writes"
      (if r.allowWrites then none else some (.boolean false))).wellFormed = true := by
    split
    · rfl
    · rfl
  have hlimit : (line "max_connections"
      (if 0 < r.maxConnections then some (.integer r.maxConnections.toInt) else none)).wellFormed = true := by
    split
    · exact wellFormed_integer _ _
    · rfl
  rw [Section.wellFormed, hkeys, Bool.true_and]
  simp only [UserRow.exported, List.all_cons, List.all_nil, Bool.and_true, wellFormed_string, hmasked,
    hwrites, hlimit]

/-! ## What the import makes of the sections -/

/-- The query rule that is read: what the section leaves out has its default. -/
def RuleRow.imported (r : RuleRow) : QueryRuleConfig :=
  { r.config with
    schema := [], cacheTtlSecs := 0, mirrorTo := none, destinationHostgroup := none, rolloutPct := none }

/-- The backend that is read. -/
def BackendRow.imported (r : BackendRow) : BackendConfig :=
  { r.config with password := "***".toList, database := none, tlsMode := .off }

/-- The user that is read. -/
def UserRow.imported (r : UserRow) : UserConfig :=
  { r.config with
    password := "***".toList
    maxConnections := if 0 < r.maxConnections then r.maxConnections.toUInt64 else 0 }

/-- A destination that a query rule can have in the configuration file. -/
def RuleRow.Known (r : RuleRow) : Prop := ∃ d : RuleDestination, r.destination = d.text

/-- The numbers of a rewrite rule fit their fields. -/
structure RewriteRuleRow.Fits (r : RewriteRuleRow) : Prop where
  addLimit : ∀ v, r.addLimit = some v → 0 ≤ v.toInt ∧ v.toInt < 2 ^ 32
  addTimeoutMs : ∀ v, r.addTimeoutMs = some v → 0 ≤ v.toInt

/-- The weight of a backend fits its field. -/
def BackendRow.Fits (r : BackendRow) : Prop := 0 ≤ r.weight.toInt ∧ r.weight.toInt < 2 ^ 32

theorem decode_destination_iff (s : Str) (d : RuleDestination) :
    RuleDestination.decode (.string s) = some d ↔ s = d.text := by
  have htexts : ∀ d d' : RuleDestination, d.text = d'.text → d = d' := by
    intro d d'
    cases d <;> cases d' <;> decide
  constructor
  · intro h
    obtain ⟨p, hp, hs⟩ := List.exists_of_findSome?_eq_some h
    split at hs
    · rename_i hname
      obtain rfl := Option.some.inj hs
      rw [← hname]
      have hall : ∀ p ∈ [("any", RuleDestination.any), ("primary", .primary), ("replica", .replica)],
          p.1.toList = p.2.text := by decide
      exact hall p hp
    · cases hs
  · rintro rfl
    cases d with
    | any => rfl
    | primary => rfl
    | replica => rfl

theorem RuleRow.config_destination {r : RuleRow} {d : RuleDestination} (h : r.destination = d.text) :
    r.config.destination = d := by
  rw [RuleRow.config]
  dsimp only
  rw [h]
  cases d with
  | any => rfl
  | primary => rfl
  | replica => rfl

theorem bind_optional {o : Option Str} (h : ∀ s, o = some s → Legible printable s) :
    (o.map (debug printable)).bind Scalar.value = o.map Value.string := by
  cases o with
  | none => rfl
  | some s => exact value_debug printable (h s rfl)

theorem bind_unlessEmpty {s : Str} (h : Legible printable s) :
    (debugUnlessEmpty printable s).bind Scalar.value = if s.isEmpty then none else some (.string s) := by
  cases s with
  | nil => rfl
  | cons c s => exact value_debug printable h

theorem bind_true (b : Bool) :
    (if b then some (Scalar.boolean true) else none).bind Scalar.value =
      if b = false then none else some (.boolean b) := by
  cases b with
  | false => rfl
  | true => rfl

theorem bind_false (b : Bool) :
    (if b then none else some (Scalar.boolean false)).bind Scalar.value =
      if b = true then none else some (.boolean b) := by
  cases b with
  | false => rfl
  | true => rfl

theorem bind_integer (p : Prop) [Decidable p] (v : Int64) :
    (if p then some (Scalar.integer v.toInt) else none).bind Scalar.value =
      if p then some (.integer v.toInt) else none := by
  split
  · exact value_int64 v
  · rfl

theorem value_masked : (Scalar.string "***".toList).value = some (.string "***".toList) := rfl

theorem RuleRow.decode_exported_iff {r : RuleRow} (h : r.Legible printable) (cfg : QueryRuleConfig) :
    QueryRuleConfig.decode (r.exported printable).table = some cfg ↔ r.Known ∧ cfg = r.imported := by
  have hget := Section.get_table ((r.wellFormed_exported_iff printable).2 h)
  have hpattern := optional_string ((hget "match_pattern").trans (bind_optional printable h.matchPattern))
  have hdigest := optional_string ((hget "match_digest").trans (bind_optional printable h.matchDigest))
  have huser := defaulted_string ((hget "user").trans (bind_unlessEmpty printable h.user))
  have hcomment := defaulted_string ((hget "comment").trans (bind_unlessEmpty printable h.comment))
  have hdest := defaulted_of_get ((hget "destination").trans (value_debug printable h.destination))
    RuleDestination.decode .any
  simp only [QueryRuleConfig.decode, hpattern, hdigest, huser, hcomment, hdest,
    defaulted_of_missing (hget "schema"), defaulted_of_missing (hget "cache_ttl_secs"),
    optional_of_missing (hget "mirror_to"), optional_of_missing (hget "destination_hostgroup"),
    optional_of_missing (hget "rollout_pct"), optional_of_missing (hget "qps_limit"),
    defaulted_of_missing (hget "dry_run"), defaulted_of_missing (hget "fast_forward"),
    Option.bind_eq_bind, Option.bind_some]
  rw [Option.bind_eq_some_iff]
  constructor
  · rintro ⟨d, hd, hcfg⟩
    have htext := (decode_destination_iff r.destination d).1 hd
    refine ⟨⟨d, htext⟩, ?_⟩
    rw [← Option.some.inj hcfg, RuleRow.imported, RuleRow.config_destination htext]
    rfl
  · rintro ⟨⟨d, htext⟩, rfl⟩
    refine ⟨d, (decode_destination_iff r.destination d).2 htext, ?_⟩
    rw [RuleRow.imported, RuleRow.config_destination htext]
    rfl

/-! ### Numbers -/

theorem toNat_toUInt64_of_nonneg {v : Int64} (h : 0 ≤ v.toInt) : v.toUInt64.toNat = v.toInt.toNat :=
  Int64.toNat_toUInt64_of_le (Int64.le_iff_toInt_le.2 h)

theorem asU32_toInt_iff (v : Int64) (n : UInt32) :
    Value.asU32 (.integer v.toInt) = some n ↔ (0 ≤ v.toInt ∧ v.toInt < 2 ^ 32) ∧ n = asU32 v := by
  have hsame : 0 ≤ v.toInt → UInt32.ofNat v.toInt.toNat = asU32 v := fun h => by
    rw [asU32, ← toNat_toUInt64_of_nonneg h]
    rfl
  simp only [Value.asU32, Value.asUnsigned]
  split
  · rename_i hrange
    rw [Option.some.injEq, hsame hrange.1, eq_comm]
    exact ⟨fun h => ⟨hrange, h⟩, And.right⟩
  · rename_i hrange
    exact iff_of_false (by simp) fun h => hrange h.1

theorem asU64_toInt_iff (v : Int64) (n : UInt64) :
    Value.asU64 (.integer v.toInt) = some n ↔ 0 ≤ v.toInt ∧ n = v.toUInt64 := by
  have hsame : 0 ≤ v.toInt → UInt64.ofNat v.toInt.toNat = v.toUInt64 := fun h => by
    rw [← toNat_toUInt64_of_nonneg h, UInt64.ofNat_toNat]
  have hbelow : v.toInt < (2 ^ 64 : Nat) := lt_trans v.toInt_lt (by decide)
  simp only [Value.asU64, Value.asUnsigned]
  split
  · rename_i hrange
    rw [Option.some.injEq, hsame hrange.1, eq_comm]
    exact ⟨fun h => ⟨hrange.1, h⟩, And.right⟩
  · rename_i hrange
    exact iff_of_false (by simp) fun h => hrange ⟨h.1, hbelow⟩

/-- A number that may be missing, read as an integer of another type. -/
theorem optional_integer_iff {α : Type} {t : Toml.Table} {key : String} {o : Option Int64}
    {decode : Value → Option α} {Fits : Int64 → Prop} {cast : Int64 → α}
    (hdecode : ∀ v a, decode (.integer v.toInt) = some a ↔ Fits v ∧ a = cast v)
    (h : t.get key = (o.map fun v => Scalar.integer v.toInt).bind Scalar.value) (o' : Option α) :
    optional t key decode = some o' ↔ (∀ v, o = some v → Fits v) ∧ o' = o.map cast := by
  rw [Toml.optional, field, h]
  cases o with
  | none =>
    rw [Option.map_none, Option.bind_none, Option.map_none]
    dsimp only
    rw [Option.some.injEq, eq_comm]
    exact ⟨fun h => ⟨by rintro _ ⟨⟩, h⟩, And.right⟩
  | some v =>
    rw [Option.map_some, Option.bind_some, value_int64, Option.map_some]
    dsimp only
    rw [Option.map_eq_some_iff]
    constructor
    · rintro ⟨a, ha, rfl⟩
      obtain ⟨hfits, rfl⟩ := (hdecode v a).1 ha
      exact ⟨fun v' hv' => Option.some.inj hv' ▸ hfits, rfl⟩
    · rintro ⟨hfits, rfl⟩
      exact ⟨cast v, (hdecode v _).2 ⟨hfits v rfl, rfl⟩, rfl⟩

theorem RewriteRuleRow.decode_exported_iff {r : RewriteRuleRow} (h : r.Legible printable)
    (cfg : QueryRewriteConfig) :
    QueryRewriteConfig.decode (r.exported printable).table = some cfg ↔ r.Fits ∧ cfg = r.config := by
  have hget := Section.get_table ((r.wellFormed_exported_iff printable).2 h)
  have hpattern := required_of_get ((hget "match_pattern").trans (value_debug printable h.matchPattern))
    Value.asString
  have hreplacement := optional_string ((hget "replace_with").trans (bind_optional printable h.replaceWith))
  have hlimit := optional_integer_iff asU32_toInt_iff (hget "add_limit")
  have htimeout := optional_integer_iff asU64_toInt_iff (hget "add_timeout_ms")
  have hblock := defaulted_boolean ((hget "block").trans (bind_true r.block))
  have hcomment := defaulted_string ((hget "comment").trans (bind_unlessEmpty printable h.comment))
  simp only [QueryRewriteConfig.decode, hpattern, hreplacement, hblock, hcomment, Value.asString,
    Option.bind_eq_bind, Option.bind_some, Option.bind_eq_some_iff]
  constructor
  · rintro ⟨limit, hread, timeout, hread', hcfg⟩
    obtain ⟨hlimits, rfl⟩ := (hlimit limit).1 hread
    obtain ⟨htimeouts, rfl⟩ := (htimeout timeout).1 hread'
    exact ⟨⟨hlimits, htimeouts⟩, (Option.some.inj hcfg).symm⟩
  · rintro ⟨hfits, rfl⟩
    exact ⟨_, (hlimit _).2 ⟨hfits.addLimit, rfl⟩, _, (htimeout _).2 ⟨hfits.addTimeoutMs, rfl⟩, rfl⟩

/-- A backend whose weight is left out when it is the default. -/
theorem weight_iff {t : Toml.Table} {v : Int64}
    (h : t.get "weight" = if v ≠ 100 then some (.integer v.toInt) else none) (n : UInt32) :
    defaulted t "weight" Value.asU32 100 = some n ↔ (0 ≤ v.toInt ∧ v.toInt < 2 ^ 32) ∧ n = asU32 v := by
  rw [defaulted, field, h]
  by_cases hv : v = 100
  · subst hv
    rw [if_neg (not_not.2 rfl)]
    dsimp only
    rw [Option.some.injEq, eq_comm]
    exact ⟨fun h => ⟨by decide, h⟩, And.right⟩
  · rw [if_pos hv]
    exact asU32_toInt_iff v n

theorem BackendRow.decode_exported_iff {r : BackendRow} (h : r.Legible printable) (cfg : BackendConfig) :
    BackendConfig.decode (r.exported printable).table = some cfg ↔ r.Fits ∧ cfg = r.imported := by
  have hget := Section.get_table ((r.wellFormed_exported_iff printable).2 h)
  have haddr := required_of_get ((hget "addr").trans (value_debug printable h.addr)) Value.asString
  have huser := defaulted_of_get ((hget "user").trans (value_debug printable h.user)) Value.asString []
  have hpassword := defaulted_of_get ((hget "password").trans value_masked) Value.asString []
  have hbackup := defaulted_boolean ((hget "backup").trans (bind_true r.backup))
  have hweight := (hget "weight").trans (bind_integer (r.weight ≠ 100) r.weight)
  simp only [BackendConfig.decode, haddr, huser, hpassword, hbackup, Value.asString,
    optional_of_missing (hget "database"), defaulted_of_missing (hget "tls_mode"),
    optional_of_missing (hget "tls_ca"), optional_of_missing (hget "tls_cert"),
    optional_of_missing (hget "tls_key"), defaulted_of_missing (hget "init_connect"),
    defaulted_of_missing (hget "compression"), defaulted_of_missing (hget "resolution_family"),
    defaulted_of_missing (hget "ssl_keylog_file"), optional_of_missing (hget "max_connections"),
    Option.bind_eq_bind, Option.bind_some, Option.bind_eq_some_iff]
  constructor
  · rintro ⟨weight, hread, hcfg⟩
    obtain ⟨hfits, rfl⟩ := (weight_iff hweight weight).1 hread
    exact ⟨hfits, (Option.some.inj hcfg).symm⟩
  · rintro ⟨hfits, rfl⟩
    exact ⟨_, (weight_iff hweight _).2 ⟨hfits, rfl⟩, rfl⟩

theorem UserRow.decode_exported {r : UserRow} (h : Legible printable r.name) :
    UserConfig.decode (r.exported printable).table = some r.imported := by
  have hget := Section.get_table ((r.wellFormed_exported_iff printable).2 h)
  have hname := required_of_get ((hget "name").trans (value_debug printable h)) Value.asString
  have hpassword := required_of_get ((hget "password").trans value_masked) Value.asString
  have hwrites := defaulted_boolean ((hget "allow_writes").trans (bind_false r.allowWrites))
  have hentry := (hget "max_connections").trans (bind_integer (0 < r.maxConnections) r.maxConnections)
  have hlimit : defaulted (r.exported printable).table "max_connections" Value.asU64 0 =
      some r.imported.maxConnections := by
    by_cases hpos : 0 < r.maxConnections
    · have hnonneg : 0 ≤ r.maxConnections.toInt := Int64.le_iff_toInt_le.1 (Int64.le_of_lt hpos)
      rw [if_pos hpos] at hentry
      rw [defaulted_of_get hentry]
      refine (asU64_toInt_iff r.maxConnections _).2 ⟨hnonneg, ?_⟩
      simp [UserRow.imported, hpos]
    · rw [if_neg hpos] at hentry
      rw [defaulted_of_missing hentry]
      simp [UserRow.imported, hpos]
  simp only [UserConfig.decode, hname, hpassword, hwrites, hlimit, Value.asString,
    defaulted_of_missing (hget "default_schema"), defaulted_of_missing (hget "transaction_isolation"),
    Option.bind_eq_bind, Option.bind_some]
  rfl

end Sections

/-! ## The document that is read back -/

section Documents

variable {printable : Char → Bool} {rules : List RuleRow} {rewriteRules : List RewriteRuleRow}
  {backends : List BackendRow} {users : List UserRow}

/-- The rows that are exported as `[primary]`. -/
def primaries (backends : List BackendRow) : List BackendRow :=
  backends.filter fun r => r.role = "primary".toList

/-- The rows that are exported as `[[replicas]]`. -/
def others (backends : List BackendRow) : List BackendRow :=
  backends.filter fun r => r.role ≠ "primary".toList

theorem named_exportRows (key : String) :
    (exportRows printable rules rewriteRules backends users).named key =
      (if "query_rules" = key then rules.map (RuleRow.exported printable) else []) ++
      (if "rewrite_rules" = key then rewriteRules.map (RewriteRuleRow.exported printable) else []) ++
      (backends.filter fun r => (r.exported printable).name = key).map (BackendRow.exported printable) ++
      (if "users" = key then users.map (UserRow.exported printable) else []) := by
  have hmap : ∀ {α : Type} (rows : List α) (exported : α → Toml.Section) (name : String),
      (∀ r ∈ rows, (exported r).name = name) →
        (rows.map exported).filter (fun s => s.name = key) =
          if name = key then rows.map exported else [] := by
    intro α rows exported name hname
    split
    · rename_i hkey
      refine List.filter_eq_self.2 fun s hs => ?_
      obtain ⟨r, hr, rfl⟩ := List.mem_map.1 hs
      exact decide_eq_true ((hname r hr).trans hkey)
    · rename_i hkey
      refine List.filter_eq_nil_iff.2 fun s hs => ?_
      obtain ⟨r, hr, rfl⟩ := List.mem_map.1 hs
      exact fun hsame => hkey ((hname r hr).symm.trans (of_decide_eq_true hsame))
  rw [Document.named, exportRows, List.filter_append, List.filter_append, List.filter_append,
    hmap rules _ "query_rules" fun _ _ => rfl, hmap rewriteRules _ "rewrite_rules" fun _ _ => rfl,
    hmap users _ "users" fun _ _ => rfl, List.filter_map]
  rfl

theorem named_backends {key : String} (h : key ≠ "primary" ∧ key ≠ "replicas") :
    (backends.filter fun r => (r.exported printable).name = key) = [] := by
  refine List.filter_eq_nil_iff.2 fun r _ hname => ?_
  have hsame := of_decide_eq_true hname
  simp only [BackendRow.exported] at hsame
  split at hsame
  · exact h.1 hsame.symm
  · exact h.2 hsame.symm

theorem BackendRow.name_exported_eq_primary_iff (r : BackendRow) :
    (r.exported printable).name = "primary" ↔ r.role = "primary".toList := by
  by_cases h : r.role = "primary".toList
  · exact iff_of_true (if_pos h) h
  · refine iff_of_false (fun hname => ?_) h
    have hother : (r.exported printable).name = "replicas" := if_neg h
    exact absurd (hother.symm.trans hname) (by decide)

theorem BackendRow.name_exported_eq_replicas_iff (r : BackendRow) :
    (r.exported printable).name = "replicas" ↔ r.role ≠ "primary".toList := by
  by_cases h : r.role = "primary".toList
  · refine iff_of_false (fun hname => ?_) (not_not.2 h)
    have hother : (r.exported printable).name = "primary" := if_pos h
    exact absurd (hother.symm.trans hname) (by decide)
  · exact iff_of_true (if_neg h) h

theorem named_query_rules : (exportRows printable rules rewriteRules backends users).named "query_rules" =
    rules.map (RuleRow.exported printable) := by
  rw [named_exportRows, named_backends (by decide)]
  simp

theorem named_rewrite_rules :
    (exportRows printable rules rewriteRules backends users).named "rewrite_rules" =
      rewriteRules.map (RewriteRuleRow.exported printable) := by
  rw [named_exportRows, named_backends (by decide)]
  simp

theorem named_users : (exportRows printable rules rewriteRules backends users).named "users" =
    users.map (UserRow.exported printable) := by
  rw [named_exportRows, named_backends (by decide)]
  simp

theorem named_primary : (exportRows printable rules rewriteRules backends users).named "primary" =
    (primaries backends).map (BackendRow.exported printable) := by
  have hfilter : (backends.filter fun r => (r.exported printable).name = "primary") = primaries backends :=
    List.filter_congr fun r _ => decide_eq_decide.2 (r.name_exported_eq_primary_iff)
  rw [named_exportRows, hfilter]
  simp

theorem named_replicas : (exportRows printable rules rewriteRules backends users).named "replicas" =
    (others backends).map (BackendRow.exported printable) := by
  have hfilter : (backends.filter fun r => (r.exported printable).name = "replicas") = others backends :=
    List.filter_congr fun r _ => decide_eq_decide.2 (r.name_exported_eq_replicas_iff)
  rw [named_exportRows, hfilter]
  simp

theorem named_other {key : String}
    (h : key ∉ ["query_rules", "rewrite_rules", "primary", "replicas", "users"]) :
    (exportRows printable rules rewriteRules backends users).named key = [] := by
  simp only [List.mem_cons, List.not_mem_nil, or_false, not_or] at h
  obtain ⟨h1, h2, h3, h4, h5⟩ := h
  rw [named_exportRows, named_backends ⟨h3, h4⟩, if_neg (Ne.symm h1), if_neg (Ne.symm h2),
    if_neg (Ne.symm h5)]
  rfl

theorem wellFormed_exportRows_iff :
    (exportRows printable rules rewriteRules backends users).wellFormed = true ↔
      (∀ r ∈ rules, r.Legible printable) ∧ (∀ r ∈ rewriteRules, r.Legible printable) ∧
        (∀ r ∈ backends, r.Legible printable) ∧ (∀ r ∈ users, Legible printable r.name) ∧
        (primaries backends).length ≤ 1 := by
  have hsingle : (∀ r ∈ backends, r.role = "primary".toList → (primaries backends).length = 1) ↔
      (primaries backends).length ≤ 1 := by
    cases hp : primaries backends with
    | nil =>
      refine iff_of_true (fun r hr hrole => ?_) (Nat.zero_le 1)
      have hmem : r ∈ primaries backends := List.mem_filter.2 ⟨hr, decide_eq_true hrole⟩
      rw [hp] at hmem
      exact absurd hmem List.not_mem_nil
    | cons p rest =>
      have hmem : p ∈ primaries backends := hp ▸ List.mem_cons_self
      obtain ⟨hp', hrole⟩ := List.mem_filter.1 hmem
      constructor
      · exact fun h => le_of_eq (h p hp' (of_decide_eq_true hrole))
      · exact fun h r _ _ => le_antisymm h (Nat.succ_pos _)
  have hbackend : ∀ r : BackendRow, ((r.exported printable).repeated ||
      decide (((exportRows printable rules rewriteRules backends users).named
        (r.exported printable).name).length = 1)) = true ↔
      (r.role = "primary".toList → (primaries backends).length = 1) := fun r => by
    by_cases hrole : r.role = "primary".toList
    · have hname : (r.exported printable).name = "primary" := if_pos hrole
      have hrepeated : (r.exported printable).repeated = false := decide_eq_false (not_not.2 hrole)
      rw [hname, named_primary, List.length_map, hrepeated, Bool.false_or, decide_eq_true_eq]
      exact ⟨fun h _ => h, fun h => h hrole⟩
    · have hrepeated : (r.exported printable).repeated = true := decide_eq_true hrole
      rw [hrepeated, Bool.true_or]
      exact iff_of_true rfl fun h => absurd h hrole
  have hrows : ∀ {α : Type} (rows : List α) (exported : α → Toml.Section) (p : Toml.Section → Bool),
      (rows.map exported).all p = true ↔ ∀ r ∈ rows, p (exported r) = true := fun rows exported p => by
    rw [List.all_map, List.all_eq_true]
    rfl
  rw [Document.wellFormed]
  generalize hdoc : exportRows printable rules rewriteRules backends users = d at hbackend ⊢
  have hsections : d.sections = rules.map (RuleRow.exported printable) ++
      rewriteRules.map (RewriteRuleRow.exported printable) ++
      backends.map (BackendRow.exported printable) ++ users.map (UserRow.exported printable) := hdoc ▸ rfl
  rw [hsections, List.all_append, List.all_append, List.all_append, Bool.and_eq_true, Bool.and_eq_true,
    Bool.and_eq_true, hrows, hrows, hrows, hrows, ← hsingle]
  have hrule : ∀ (r : RuleRow) (b : Bool), ((r.exported printable).repeated || b) = true := fun _ _ => rfl
  have hrewrite : ∀ (r : RewriteRuleRow) (b : Bool), ((r.exported printable).repeated || b) = true :=
    fun _ _ => rfl
  have huser : ∀ (r : UserRow) (b : Bool), ((r.exported printable).repeated || b) = true := fun _ _ => rfl
  simp only [Bool.and_eq_true, hbackend, hrule, hrewrite, huser, and_true,
    RuleRow.wellFormed_exported_iff, RewriteRuleRow.wellFormed_exported_iff,
    BackendRow.wellFormed_exported_iff, UserRow.wellFormed_exported_iff]
  constructor
  · rintro ⟨⟨⟨hrules, hrewrites⟩, hbackends⟩, husers⟩
    exact ⟨hrules, hrewrites, fun r hr => (hbackends r hr).1, husers, fun r hr => (hbackends r hr).2⟩
  · rintro ⟨hrules, hrewrites, hbackends, husers, hone⟩
    exact ⟨⟨⟨hrules, hrewrites⟩, fun r hr => ⟨hbackends r hr, hone r hr⟩⟩, husers⟩

/-- What the import makes of the rows, `p` being the one that is exported as `[primary]`. -/
def importedRecords (rules : List RuleRow) (rewriteRules : List RewriteRuleRow) (p : BackendRow)
    (replicas : List BackendRow) (users : List UserRow) : Records where
  rules := rules.map RuleRow.imported
  rewriteRules := rewriteRules.map RewriteRuleRow.config
  primary := p.imported
  replicas := replicas.map BackendRow.imported
  users := users.map UserRow.imported

/-- A document with these rows is a configuration when there is a primary and all values fit. -/
theorem decode_exportRows_iff {t : Toml.Table}
    (ht : (exportRows printable rules rewriteRules backends users).table = some t) (c : Records) :
    (∃ cfg, ProxyConfig.decode Serde.records t = some cfg ∧ cfg.records = c) ↔
      (∀ r ∈ rules, r.Known) ∧ (∀ r ∈ rewriteRules, r.Fits) ∧ (∀ r ∈ backends, r.Fits) ∧
        ∃ p, primaries backends = [p] ∧
          c = importedRecords rules rewriteRules p (others backends) users := by
  have hwell : (exportRows printable rules rewriteRules backends users).wellFormed = true := by
    by_contra hnot
    rw [Document.table, if_neg hnot] at ht
    cases ht
  obtain ⟨hrules, hrewrites, hbackends, husers, hone⟩ := wellFormed_exportRows_iff.1 hwell
  -- a list of tables is read back row by row
  have hlist : ∀ {α β : Type} (rows : List α) (exported : α → Toml.Section) (key : String)
      (decode : Toml.Table → Option β) {Fits : α → Prop} {read : α → β},
      (exportRows printable rules rewriteRules backends users).named key = rows.map exported →
      (∀ r ∈ rows, (exported r).repeated = true) →
      (∀ r ∈ rows, ∀ b, decode (exported r).table = some b ↔ Fits r ∧ b = read r) → ∀ bs,
        defaulted t key (Value.asList (Value.asStruct decode)) [] = some bs ↔
          (∀ r ∈ rows, Fits r) ∧ bs = rows.map read := by
    intro α β rows exported key decode Fits read hnamed hrepeated hdecode bs
    have hall : ((exportRows printable rules rewriteRules backends users).named key).all
        Toml.Section.repeated = true := by
      rw [hnamed, List.all_map, List.all_eq_true]
      exact hrepeated
    rw [Document.defaulted_list ht hall, hnamed, List.mapM_map]
    exact mapM_eq_some_iff hdecode bs
  have hother : ∀ key ∉ ["query_rules", "rewrite_rules", "primary", "replicas", "users"], t.get key = none :=
    fun key hkey => Document.get_of_unnamed ht (named_other hkey)
  have hreadRules := hlist rules _ "query_rules" QueryRuleConfig.decode named_query_rules (fun _ _ => rfl)
    fun r hr => r.decode_exported_iff printable (hrules r hr)
  have hreadRewrites := hlist rewriteRules _ "rewrite_rules" QueryRewriteConfig.decode named_rewrite_rules
    (fun _ _ => rfl) fun r hr => r.decode_exported_iff printable (hrewrites r hr)
  have hreadReplicas := hlist (others backends) _ "replicas" BackendConfig.decode named_replicas
    (fun r hr => (List.mem_filter.1 hr).2) fun r hr =>
      r.decode_exported_iff printable (hbackends r (List.mem_of_mem_filter hr))
  have hreadUsers : ∀ bs, defaulted t "users" (Value.asList (Value.asStruct UserConfig.decode)) [] = some bs ↔
      (∀ r ∈ users, True) ∧ bs = users.map UserRow.imported :=
    hlist users _ "users" UserConfig.decode named_users (fun _ _ => rfl) fun r hr b => by
      rw [UserRow.decode_exported printable (husers r hr), Option.some.injEq, true_and, eq_comm]
  have hreadPrimary : ∀ b, required t "primary" (Value.asStruct BackendConfig.decode) = some b ↔
      ∃ p, primaries backends = [p] ∧ p.Fits ∧ b = p.imported := by
    intro b
    rcases hp : primaries backends with _ | ⟨p, _ | ⟨p₂, rest⟩⟩
    · rw [required_of_missing (Document.get_of_unnamed ht (by rw [named_primary, hp]; rfl))]
      refine iff_of_false (by simp) ?_
      rintro ⟨p, hempty, -⟩
      exact List.cons_ne_nil _ _ hempty.symm
    · obtain ⟨hmem, hrole⟩ := List.mem_filter.1 (hp ▸ List.mem_singleton_self p : p ∈ primaries backends)
      rw [required_of_get (Document.get_of_single ht (by rw [named_primary, hp]; rfl)
        (decide_eq_false (not_not.2 (of_decide_eq_true hrole))))]
      refine (p.decode_exported_iff printable (hbackends p hmem) b).trans ?_
      constructor
      · exact fun h => ⟨p, rfl, h⟩
      · rintro ⟨p', hsame, h⟩
        obtain rfl := List.singleton_inj.1 hsame
        exact h
    · simp [hp] at hone
  have hfits : (∀ r ∈ backends, r.Fits) ↔
      (∀ r ∈ primaries backends, r.Fits) ∧ ∀ r ∈ others backends, r.Fits := by
    simp only [primaries, others, List.mem_filter, decide_eq_true_eq]
    constructor
    · exact fun h => ⟨fun r hr => h r hr.1, fun r hr => h r hr.1⟩
    · rintro ⟨h1, h2⟩ r hr
      by_cases hrole : r.role = "primary".toList
      · exact h1 r ⟨hr, hrole⟩
      · exact h2 r ⟨hr, hrole⟩
  simp only [ProxyConfig.decode, Serde.records, Option.bind_eq_bind,
    defaulted_of_missing (hother "listen_addr" (by decide)),
    defaulted_of_missing (hother "max_connections" (by decide)),
    defaulted_of_missing (hother "pool_size" (by decide)),
    defaulted_of_missing (hother "auth_cache_ttl_secs" (by decide)),
    defaulted_of_missing (hother "connection_max_idle_secs" (by decide)),
    defaulted_of_missing (hother "read_your_own_writes_ms" (by decide)),
    defaulted_of_missing (hother "query_whitelist" (by decide)),
    defaulted_of_missing (hother "sql_injection_protection" (by decide)),
    defaulted_of_missing (hother "audit_log" (by decide)),
    defaulted_of_missing (hother "pgsql" (by decide)), Option.bind_some, Option.bind_eq_some_iff,
    hreadPrimary, hreadReplicas, hreadUsers, hreadRules, hreadRewrites]
  constructor
  · rintro ⟨cfg, ⟨primary, ⟨p, hp, hpfits, rfl⟩, replicas, ⟨hreplicas, rfl⟩, us, ⟨-, rfl⟩, qs,
      ⟨hknown, rfl⟩, rs, ⟨hnumbers, rfl⟩, hcfg⟩, rfl⟩
    refine ⟨hknown, hnumbers, hfits.2 ⟨fun r hr => ?_, hreplicas⟩, p, hp, ?_⟩
    · rw [hp] at hr
      exact List.mem_singleton.1 hr ▸ hpfits
    · rw [← Option.some.inj hcfg]
      rfl
  · rintro ⟨hknown, hnumbers, hall, p, hp, rfl⟩
    obtain ⟨hprimary, hreplicas⟩ := hfits.1 hall
    have hpfits : p.Fits := hprimary p (hp ▸ List.mem_singleton_self p)
    exact ⟨_, ⟨_, ⟨p, hp, hpfits, rfl⟩, _, ⟨hreplicas, rfl⟩, _, ⟨fun _ _ => trivial, rfl⟩, _,
      ⟨hknown, rfl⟩, _, ⟨hnumbers, rfl⟩, rfl⟩, rfl⟩

end Documents

/-! ## Rows that come back -/

/-- Distinct rows that are given the numbers of their places come back as they were if they had them. -/
theorem perm_mapIdx_iff {α : Type} (key : α → Int) {f : Nat → α → α} {P : α → Prop} {l : List α}
    (hsorted : l.Pairwise fun a b => key a ≤ key b) (hkey : ∀ (i : Nat) a, key (f i a) = i)
    (hP : ∀ i a, P (f i a)) (hid : ∀ i : Nat, ∀ a ∈ l, P a → key a = i → f i a = a) :
    (l.mapIdx f).Perm l ↔
      (∀ a ∈ l, P a) ∧ (l.map key).Perm ((List.range l.length).map Int.ofNat) := by
  have hkeys : (l.mapIdx f).map key = (List.range l.length).map Int.ofNat := by
    refine List.ext_getElem (by simp) fun i hi hi' => ?_
    simp [hkey]
  constructor
  · intro hperm
    refine ⟨fun a ha => ?_, hkeys ▸ (hperm.map key).symm⟩
    obtain ⟨i, hi, rfl⟩ := List.mem_mapIdx.1 (hperm.mem_iff.2 ha)
    exact hP _ _
  · rintro ⟨hall, hperm⟩
    have hrange : ((List.range l.length).map Int.ofNat).Pairwise (· ≤ ·) :=
      List.pairwise_map.2 (List.pairwise_le_range.imp Int.ofNat_le.2)
    have hsame : l.map key = (List.range l.length).map Int.ofNat :=
      hperm.eq_of_pairwise (fun _ _ _ _ => le_antisymm) (List.pairwise_map.2 hsorted) hrange
    have hback : l.mapIdx f = l := by
      refine List.ext_getElem List.length_mapIdx fun i hi hi' => ?_
      rw [List.getElem_mapIdx]
      refine hid i _ (List.getElem_mem hi') (hall _ (List.getElem_mem hi')) ?_
      have hplace := List.getElem_of_eq hsame (by rwa [List.length_map] : i < (l.map key).length)
      simpa using hplace
    rw [hback]

/-- Rows come back if they are what all rows become. -/
theorem perm_map_iff {α β : Type} {f g : α → β} {Q : β → Prop} {l : List α} (hg : ∀ a ∈ l, Q (g a))
    (hfg : ∀ a ∈ l, Q (f a) → g a = f a) : (l.map g).Perm (l.map f) ↔ ∀ a ∈ l, Q (f a) := by
  constructor
  · intro hperm a ha
    obtain ⟨b, hb, hsame⟩ := List.mem_map.1 (hperm.mem_iff.2 (List.mem_map_of_mem ha))
    rw [← hsame]
    exact hg b hb
  · intro hall
    rw [List.map_congr_left fun a ha => hfg a ha (hall a ha)]

theorem toInt64_asU32 {v : Int64} (h : 0 ≤ v.toInt ∧ v.toInt < 2 ^ 32) :
    (asU32 v).toUInt64.toInt64 = v := by
  have hsame : (asU32 v).toUInt64 = v.toUInt64 := by
    rw [← UInt64.toNat_inj, asU32, UInt32.toNat_toUInt64, UInt64.toNat_toUInt32,
      toNat_toUInt64_of_nonneg h.1]
    omega
  rw [hsame, Int64.toInt64_toUInt64]

section Restore

variable (sur : Surroundings)

/-- A query rule that has nothing the text has no place for. -/
structure RuleRow.Plain (r : RuleRow) : Prop where
  schemaName : r.schemaName = []
  destinationHostgroup : r.destinationHostgroup = none
  cacheTtlSecs : r.cacheTtlSecs = 0
  mirrorTo : r.mirrorTo = none
  rolloutPct : r.rolloutPct = none
  enabled : r.enabled = true

/-- A backend that has nothing the text has no place for. -/
structure BackendRow.Plain (r : BackendRow) : Prop where
  role : r.role = "primary".toList ∨ r.role = "replica".toList
  password : resolveSecret sur r.password = "***".toList
  database : r.database = none
  tlsMode : r.tlsMode = "off".toList
  enabled : r.enabled = true

/-- A user who has nothing the text has no place for. -/
structure UserRow.Plain (r : UserRow) : Prop where
  password : resolveSecret sur r.password = "***".toList
  maxConnections : 0 ≤ r.maxConnections
  enabled : r.enabled = true

/-- A backend with the password its column stands for. -/
def BackendRow.revealed (r : BackendRow) : BackendRow := { r with password := resolveSecret sur r.password }

/-- A user with the password the column stands for. -/
def UserRow.revealed (r : UserRow) : UserRow := { r with password := resolveSecret sur r.password }

theorem resolveSecret_masked : resolveSecret sur "***".toList = "***".toList :=
  resolveSecret_literal sur (by decide) (by decide) (by decide)

theorem RuleRow.row_imported {r : RuleRow} (hknown : r.Known) (hplain : r.Plain) {i : Nat}
    (hi : r.priority = i) : r.imported.row i = r := by
  obtain ⟨d, htext⟩ := hknown
  obtain ⟨priority, pattern, digest, user, schema, destination, hostgroup, ttl, comment, mirror, rollout,
    enabled⟩ := r
  obtain ⟨rfl, rfl, rfl, rfl, rfl, rfl⟩ := hplain
  have hdest := RuleRow.config_destination htext
  simp only [QueryRuleConfig.row, RuleRow.imported, hdest]
  simp only at htext hi
  rw [htext, hi]
  rfl

theorem RewriteRuleRow.row_config {r : RewriteRuleRow} (hfits : r.Fits) (henabled : r.enabled = true)
    {i : Nat} (hi : r.priority = i) : r.config.row i = r := by
  obtain ⟨priority, pattern, replacement, limit, timeout, block, comment, enabled⟩ := r
  have hlimit : (limit.map asU32).map (fun v => v.toUInt64.toInt64) = limit := by
    cases limit with
    | none => rfl
    | some v => exact congrArg some (toInt64_asU32 (hfits.addLimit v rfl))
  have htimeout : (timeout.map fun v => v.toUInt64).map (fun v => v.toInt64) = timeout := by
    cases timeout with
    | none => rfl
    | some v => exact congrArg some v.toInt64_toUInt64
  simp only at henabled hi
  simp only [QueryRewriteConfig.row, RewriteRuleRow.config, hlimit, htimeout, henabled, hi]

/-- The backend that comes back, with its password. -/
def BackendRow.restored (r : BackendRow) (role : Str) : BackendRow :=
  { r with
    protocol := .mysql, password := "***".toList, database := none, role, tlsMode := "off".toList
    enabled := true }

/-- The user who comes back. -/
def UserRow.restored (r : UserRow) : UserRow :=
  { r with
    password := "***".toList, maxConnections := if 0 < r.maxConnections then r.maxConnections else 0
    enabled := true }

theorem BackendRow.revealed_row {r : BackendRow} (hfits : r.Fits) (nonce : Nonce) (role : Str) :
    (r.imported.row sur nonce role).revealed sur = r.restored role := by
  have hweight : (asU32 r.weight).toUInt64.toInt64 = r.weight := toInt64_asU32 hfits
  have hpassword : resolveSecret sur (prepareForStorage sur "***".toList (loadEncryptionKey sur) nonce) =
      "***".toList := (resolveSecret_prepareForStorage sur _ _).trans (resolveSecret_masked sur)
  simp only [BackendRow.revealed, BackendConfig.row, BackendRow.imported, hpassword, BackendRow.config,
    hweight, BackendRow.restored]
  rfl

theorem UserRow.revealed_row (r : UserRow) :
    (r.imported.row r.imported.password).revealed sur = r.restored := by
  simp only [UserRow.revealed, UserConfig.row, UserRow.restored, UserRow.imported, UserRow.config]
  split
  · rfl
  · rfl

end Restore

/-! ## Export, then import -/

section Stores

variable (printable : Char → Bool) (regex : Str → Option Regex) (sur : Surroundings) (db : Db)

/-- The backends that are exported. -/
def mysqlBackends : List BackendRow :=
  (db.backends.rows.filter fun r => r.2.protocol = .mysql).map Prod.snd

/-- The import takes the text. -/
structure Readable : Prop where
  rules : ∀ r ∈ db.rules.contents, r.Legible printable ∧ r.Known
  rewriteRules : ∀ r ∈ db.rewriteRules.contents,
    r.Legible printable ∧ r.Fits ∧ (regex r.matchPattern).isSome
  backends : ∀ r ∈ mysqlBackends db, r.Legible printable ∧ r.Fits
  onePrimary : (primaries (mysqlBackends db)).length = 1
  users : ∀ r ∈ db.users.contents, Legible printable r.name

/-- The numbers from zero on, each of them once. -/
def Numbered (priorities : List Int) : Prop :=
  priorities.Perm ((List.range priorities.length).map Int.ofNat)

/-- Nothing is stored but what the text has a place for. -/
structure Restorable : Prop where
  rules : ∀ r ∈ db.rules.contents, r.Plain
  rulePriorities : Numbered (db.rules.contents.map RuleRow.priority)
  rewriteRules : ∀ r ∈ db.rewriteRules.contents, r.enabled = true
  rewritePriorities : Numbered (db.rewriteRules.contents.map RewriteRuleRow.priority)
  backends : ∀ r ∈ mysqlBackends db, r.Plain sur
  users : ∀ r ∈ db.users.contents, r.Plain sur

/-- The tables have the same rows up to their ids, with the same passwords behind the ciphers and
references in them. -/
structure SameConfig (db db' : Db) : Prop where
  rules : db'.rules.contents.Perm db.rules.contents
  rewriteRules : db'.rewriteRules.contents.Perm db.rewriteRules.contents
  backends : (db'.backends.contents.map (BackendRow.revealed sur)).Perm
    (db.backends.contents.map (BackendRow.revealed sur))
  users : (db'.users.contents.map (UserRow.revealed sur)).Perm
    (db.users.contents.map (UserRow.revealed sur))

theorem SameConfig.refl : SameConfig sur db db := ⟨.refl _, .refl _, .refl _, .refl _⟩

/-- The rows of the queries that an export makes. -/
def ruleRows : List RuleRow := (listRules db).map Prod.snd

/-- The rewrite rules in their order. -/
def rewriteRuleRows : List RewriteRuleRow := (listRewriteRules db).map Prod.snd

/-- The backends in their order. -/
def backendRows : List BackendRow := (listBackends db .mysql).map Prod.snd

/-- The users in their order. -/
def userRows : List UserRow := (listUsers db).map Prod.snd

theorem ruleRows_perm : (ruleRows db).Perm db.rules.contents := (orderBy_perm _ _).map _

theorem rewriteRuleRows_perm : (rewriteRuleRows db).Perm db.rewriteRules.contents := (orderBy_perm _ _).map _

theorem backendRows_perm : (backendRows db).Perm (mysqlBackends db) := (orderBy_perm _ _).map _

theorem userRows_perm : (userRows db).Perm db.users.contents := (orderBy_perm _ _).map _

theorem orderBy_keys {α κ : Type} [LinearOrder κ] (key : α → κ) (rows : List (Int × α)) :
    ((orderBy key rows).map Prod.snd).Pairwise fun a b => key a ≤ key b := by
  refine List.pairwise_map.2 ((orderBy_pairwise key rows).imp fun {r r'} hrank => ?_)
  rcases (rank_le_iff key r r').1 hrank with hlt | ⟨heq, -⟩
  · exact le_of_lt hlt
  · exact le_of_eq heq

theorem listed_rows {α : Type} {fails : Nat → Bool} (hfails : ∀ n, fails n = false) (n : Nat)
    (rows : List (Int × α)) : listed fails n rows = rows.map Prod.snd := by
  rw [listed, hfails, if_neg Bool.false_ne_true]

theorem exportDocument_rows {fails : Nat → Bool} (hfails : ∀ n, fails n = false) :
    exportDocument printable fails db =
      exportRows printable (ruleRows db) (rewriteRuleRows db) (backendRows db) (userRows db) := by
  simp only [exportDocument, listed_rows hfails]
  rfl

variable {printable regex sur db} {toml : Str → Option Toml.Table} {fails : Nat → Bool}

variable (regex) in
/-- What the import makes of an exported text. -/
theorem read_exportConfig_iff (hfails : ∀ n, fails n = false)
    (htoml : toml (exportDocument printable fails db).text = (exportDocument printable fails db).table)
    (c : Records) :
    (∃ cfg, Reader.importConfig.read Serde.records toml (exportConfig printable fails db) = some cfg ∧
      (cfg.rewriteRules.all fun r => (regex r.matchPattern).isSome) = true ∧ cfg.records = c) ↔
      Readable printable regex db ∧ ∃ p, primaries (backendRows db) = [p] ∧
        c = importedRecords (ruleRows db) (rewriteRuleRows db) p (others (backendRows db)) (userRows db) := by
  have hone : (primaries (mysqlBackends db)).length = (primaries (backendRows db)).length :=
    ((backendRows_perm db).filter _).length_eq.symm
  have hread : Reader.importConfig.read Serde.records toml (exportConfig printable fails db) =
      (exportDocument printable fails db).table.bind (ProxyConfig.decode Serde.records) := by
    rw [← htoml]
    rfl
  rw [hread, exportDocument_rows printable db hfails]
  constructor
  · rintro ⟨cfg, hcfg, hregex, hrecords⟩
    obtain ⟨t, ht, hdecode⟩ := Option.bind_eq_some_iff.1 hcfg
    have hwell : (exportRows printable (ruleRows db) (rewriteRuleRows db) (backendRows db)
        (userRows db)).wellFormed = true := by
      by_contra hnot
      rw [Document.table, if_neg hnot] at ht
      cases ht
    obtain ⟨hrules, hrewrites, hbackends, husers, -⟩ := wellFormed_exportRows_iff.1 hwell
    obtain ⟨hknown, hnumbers, hweights, p, hp, hc⟩ := (decode_exportRows_iff ht c).1 ⟨cfg, hdecode, hrecords⟩
    refine ⟨⟨fun r hr => ?_, fun r hr => ?_, fun r hr => ?_, ?_, fun r hr => ?_⟩, p, hp, hc⟩
    · rw [← (ruleRows_perm db).mem_iff] at hr
      exact ⟨hrules r hr, hknown r hr⟩
    · rw [← (rewriteRuleRows_perm db).mem_iff] at hr
      have hall : ∀ q ∈ cfg.rewriteRules, (regex q.matchPattern).isSome = true := List.all_eq_true.1 hregex
      have hsame : cfg.rewriteRules = (rewriteRuleRows db).map RewriteRuleRow.config := by
        have hsame := congrArg Records.rewriteRules (hrecords.trans hc)
        exact hsame
      exact ⟨hrewrites r hr, hnumbers r hr, hall r.config (hsame ▸ List.mem_map_of_mem hr)⟩
    · rw [← (backendRows_perm db).mem_iff] at hr
      exact ⟨hbackends r hr, hweights r hr⟩
    · rw [hone, hp]
      rfl
    · rw [← (userRows_perm db).mem_iff] at hr
      exact husers r hr
  · rintro ⟨hreadable, p, hp, rfl⟩
    have hrules : ∀ r ∈ ruleRows db, r.Legible printable ∧ r.Known := fun r hr =>
      hreadable.rules r ((ruleRows_perm db).mem_iff.1 hr)
    have hrewrites : ∀ r ∈ rewriteRuleRows db, r.Legible printable ∧ r.Fits ∧
        (regex r.matchPattern).isSome := fun r hr =>
      hreadable.rewriteRules r ((rewriteRuleRows_perm db).mem_iff.1 hr)
    have hbackends : ∀ r ∈ backendRows db, r.Legible printable ∧ r.Fits := fun r hr =>
      hreadable.backends r ((backendRows_perm db).mem_iff.1 hr)
    have hwell : (exportRows printable (ruleRows db) (rewriteRuleRows db) (backendRows db)
        (userRows db)).wellFormed = true :=
      wellFormed_exportRows_iff.2 ⟨fun r hr => (hrules r hr).1, fun r hr => (hrewrites r hr).1,
        fun r hr => (hbackends r hr).1,
        fun r hr => hreadable.users r ((userRows_perm db).mem_iff.1 hr), by rw [hp]; exact le_refl 1⟩
    obtain ⟨t, ht⟩ : ∃ t, (exportRows printable (ruleRows db) (rewriteRuleRows db) (backendRows db)
        (userRows db)).table = some t := ⟨_, if_pos hwell⟩
    obtain ⟨cfg, hdecode, hrecords⟩ := (decode_exportRows_iff ht _).2
      ⟨fun r hr => (hrules r hr).2, fun r hr => (hrewrites r hr).2.1, fun r hr => (hbackends r hr).2, p, hp,
        rfl⟩
    refine ⟨cfg, ?_, ?_, hrecords⟩
    · rw [ht, Option.bind_some, hdecode]
    · have hsame : cfg.rewriteRules = (rewriteRuleRows db).map RewriteRuleRow.config :=
        congrArg Records.rewriteRules hrecords
      rw [hsame, List.all_map, List.all_eq_true]
      exact fun r hr => (hrewrites r hr).2.2

theorem rules_return_iff (hreadable : Readable printable regex db) {rows : List RuleRow}
    (hrows : rows = ((ruleRows db).map RuleRow.imported).mapIdx QueryRuleConfig.row) :
    rows.Perm db.rules.contents ↔
      (∀ r ∈ db.rules.contents, r.Plain) ∧ Numbered (db.rules.contents.map RuleRow.priority) := by
  have hperm := ruleRows_perm db
  have hreturn := perm_mapIdx_iff RuleRow.priority (l := ruleRows db) (f := fun i r => r.imported.row i)
    (P := RuleRow.Plain) (orderBy_keys RuleRow.priority db.rules.rows) (fun _ _ => rfl)
    (fun _ _ => ⟨rfl, rfl, rfl, rfl, rfl, rfl⟩) fun i r hr hplain hi =>
      r.row_imported (hreadable.rules r (hperm.mem_iff.1 hr)).2 hplain hi
  rw [hrows, mapIdx_map, ← hperm.congr_right]
  refine hreturn.trans (and_congr (forall_congr' fun r => imp_congr_left hperm.mem_iff) ?_)
  rw [Numbered, (hperm.map RuleRow.priority).congr_left, List.length_map, hperm.length_eq]

theorem rewriteRules_return_iff (hreadable : Readable printable regex db) {rows : List RewriteRuleRow}
    (hrows : rows = ((rewriteRuleRows db).map RewriteRuleRow.config).mapIdx QueryRewriteConfig.row) :
    rows.Perm db.rewriteRules.contents ↔
      (∀ r ∈ db.rewriteRules.contents, r.enabled = true) ∧
        Numbered (db.rewriteRules.contents.map RewriteRuleRow.priority) := by
  have hperm := rewriteRuleRows_perm db
  have hreturn := perm_mapIdx_iff RewriteRuleRow.priority (l := rewriteRuleRows db)
    (f := fun i r => r.config.row i) (P := fun r => r.enabled = true)
    (orderBy_keys RewriteRuleRow.priority db.rewriteRules.rows) (fun _ _ => rfl) (fun _ _ => rfl)
    fun i r hr henabled hi => r.row_config (hreadable.rewriteRules r (hperm.mem_iff.1 hr)).2.1 henabled hi
  rw [hrows, mapIdx_map, ← hperm.congr_right]
  refine hreturn.trans (and_congr (forall_congr' fun r => imp_congr_left hperm.mem_iff) ?_)
  rw [Numbered, (hperm.map RewriteRuleRow.priority).congr_left, List.length_map, hperm.length_eq]

/-- The role a backend has after the import. -/
def BackendRow.importedRole (r : BackendRow) : Str :=
  if r.role = "primary".toList then "primary".toList else "replica".toList

theorem backends_return_iff {p : BackendRow}
    (hp : primaries (backendRows db) = [p]) {rows : List BackendRow}
    (hrows : rows.map (BackendRow.revealed sur) = (p :: others (backendRows db)).map fun r =>
      r.restored r.importedRole) :
    (rows.map (BackendRow.revealed sur)).Perm ((mysqlBackends db).map (BackendRow.revealed sur)) ↔
      ∀ r ∈ mysqlBackends db, r.Plain sur := by
  have hperm : (p :: others (backendRows db)).Perm (mysqlBackends db) := by
    have hsplit := List.filter_append_perm (fun r : BackendRow => decide (r.role = "primary".toList))
      (backendRows db)
    rw [show (backendRows db).filter (fun r => decide (r.role = "primary".toList)) = [p] from hp] at hsplit
    have hothers : (backendRows db).filter (fun r => !decide (r.role = "primary".toList)) =
        others (backendRows db) := List.filter_congr fun r _ => (decide_not).symm
    rw [hothers] at hsplit
    exact hsplit.trans (backendRows_perm db)
  have hreturn := perm_map_iff (l := p :: others (backendRows db)) (f := BackendRow.revealed sur)
    (g := fun r => r.restored r.importedRole)
    (Q := fun r => (r.role = "primary".toList ∨ r.role = "replica".toList) ∧
      r.password = "***".toList ∧ r.database = none ∧ r.tlsMode = "off".toList ∧ r.enabled = true)
    (fun r _ => ⟨?_, rfl, rfl, rfl, rfl⟩) fun r hr hplain => ?_
  · rw [hrows, ← (hperm.map (BackendRow.revealed sur)).congr_right]
    refine hreturn.trans (forall_congr' fun r => ?_)
    rw [hperm.mem_iff]
    exact imp_congr_right fun _ =>
      ⟨fun ⟨h1, h2, h3, h4, h5⟩ => ⟨h1, h2, h3, h4, h5⟩, fun h => ⟨h.1, h.2, h.3, h.4, h.5⟩⟩
  · show r.importedRole = _ ∨ r.importedRole = _
    rw [BackendRow.importedRole]
    split
    · exact Or.inl rfl
    · exact Or.inr rfl
  · have hmysql : r.protocol = .mysql := by
      obtain ⟨q, hq, rfl⟩ := List.mem_map.1 (hperm.mem_iff.1 hr)
      exact of_decide_eq_true (List.mem_filter.1 hq).2
    obtain ⟨protocol, addr, user, password, database, role, weight, backup, tls, enabled⟩ := r
    obtain ⟨hrole, hpassword, hdatabase, htls, henabled⟩ := hplain
    simp only [BackendRow.revealed] at hrole hpassword hdatabase htls henabled
    simp only at hmysql
    have himported : (if role = "primary".toList then "primary".toList else "replica".toList) = role := by
      rcases hrole with rfl | rfl
      · rfl
      · rfl
    simp only [BackendRow.restored, BackendRow.revealed, BackendRow.importedRole, himported, hpassword,
      hdatabase, htls, henabled, hmysql]

theorem users_return_iff {rows : List UserRow}
    (hrows : rows.map (UserRow.revealed sur) = (userRows db).map UserRow.restored) :
    (rows.map (UserRow.revealed sur)).Perm (db.users.contents.map (UserRow.revealed sur)) ↔
      ∀ r ∈ db.users.contents, r.Plain sur := by
  have hperm := userRows_perm db
  have hreturn := perm_map_iff (l := userRows db) (f := UserRow.revealed sur) (g := UserRow.restored)
    (Q := fun r => r.password = "***".toList ∧ 0 ≤ r.maxConnections ∧ r.enabled = true)
    (fun r _ => ⟨rfl, ?_, rfl⟩) fun r hr hplain => ?_
  · rw [hrows, ← (hperm.map (UserRow.revealed sur)).congr_right]
    refine hreturn.trans (forall_congr' fun r => ?_)
    rw [hperm.mem_iff]
    exact imp_congr_right fun _ => ⟨fun ⟨h1, h2, h3⟩ => ⟨h1, h2, h3⟩, fun h => ⟨h.1, h.2, h.3⟩⟩
  · show 0 ≤ if 0 < r.maxConnections then r.maxConnections else 0
    split
    · rename_i hpos
      exact Int64.le_of_lt hpos
    · exact Int64.le_refl 0
  · obtain ⟨name, password, writes, limit, enabled⟩ := r
    obtain ⟨hpassword, hlimit, henabled⟩ := hplain
    simp only [UserRow.revealed] at hpassword hlimit henabled
    have hcap : (if 0 < limit then limit else 0) = limit := by
      split
      · rfl
      · rename_i hnot
        exact Int64.le_antisymm hlimit (Int64.not_lt.1 hnot)
    simp only [UserRow.restored, UserRow.revealed, hcap, hpassword, henabled]

/-- What comes back when the text is taken. -/
theorem sameConfig_iff_restorable (hreadable : Readable printable regex db) {nonces : Nat → Nonce}
    {p : BackendRow} (hp : primaries (backendRows db) = [p]) {db' : Db}
    (hholds : Holds sur nonces
      (importedRecords (ruleRows db) (rewriteRuleRows db) p (others (backendRows db)) (userRows db)) db db') :
    SameConfig sur db db' ↔ Restorable sur db := by
  have hfits : ∀ r ∈ backendRows db, r.Fits := fun r hr =>
    (hreadable.backends r ((backendRows_perm db).mem_iff.1 hr)).2
  have hprimary : p ∈ backendRows db ∧ p.role = "primary".toList := by
    have hmem : p ∈ primaries (backendRows db) := hp ▸ List.mem_singleton_self p
    exact ⟨List.mem_of_mem_filter hmem, of_decide_eq_true (List.mem_filter.1 hmem).2⟩
  have hmysql : (mysqlBackends db').map (BackendRow.revealed sur) =
      (p :: others (backendRows db)).map fun r => r.restored r.importedRole := by
    rw [mysqlBackends, hholds.backends, Records.backendRows, List.map_cons, List.map_cons]
    congr 1
    · rw [BackendRow.importedRole, if_pos hprimary.2]
      exact p.revealed_row sur (hfits p hprimary.1) _ _
    · rw [Records.replicaRows, importedRecords, mapIdx_map]
      refine map_mapIdx _ _ _ fun r hr i => ?_
      obtain ⟨hmem, hrole⟩ := List.mem_filter.1 hr
      rw [BackendRow.importedRole, if_neg (of_decide_eq_true hrole)]
      exact r.revealed_row sur (hfits r hmem) _ _
  have husers : db'.users.contents.map (UserRow.revealed sur) = (userRows db).map UserRow.restored := by
    rw [hholds.users, Records.userRows, importedRecords, List.map_map, List.map_map]
    exact List.map_congr_left fun r _ => r.revealed_row sur
  have hbackends : (db'.backends.contents.map (BackendRow.revealed sur)).Perm
      (db.backends.contents.map (BackendRow.revealed sur)) ↔
      ((mysqlBackends db').map (BackendRow.revealed sur)).Perm
        ((mysqlBackends db).map (BackendRow.revealed sur)) := by
    have hsplit : ∀ d : Db, (d.backends.contents.map (BackendRow.revealed sur)).Perm
        ((mysqlBackends d).map (BackendRow.revealed sur) ++
          ((d.backends.rows.filter fun r => r.2.protocol = .pgsql).map Prod.snd).map
            (BackendRow.revealed sur)) := fun d => by
      have hother : (d.backends.rows.filter fun r => !decide (r.2.protocol = .mysql)) =
          d.backends.rows.filter fun r => r.2.protocol = .pgsql :=
        List.filter_congr fun r _ => by
          cases r.2.protocol with
          | mysql => rfl
          | pgsql => rfl
      have hperm := List.filter_append_perm (fun r : Int × BackendRow => decide (r.2.protocol = .mysql))
        d.backends.rows
      rw [hother] at hperm
      rw [mysqlBackends, ← List.map_append, ← List.map_append]
      exact ((hperm.map Prod.snd).map (BackendRow.revealed sur)).symm
    rw [(hsplit db').congr_left, (hsplit db).congr_right, hholds.pgsql, List.perm_append_right_iff]
  have hrules := rules_return_iff hreadable hholds.rules
  have hrewrites := rewriteRules_return_iff hreadable hholds.rewriteRules
  have hback := hbackends.trans (backends_return_iff hp hmysql)
  have hnames := users_return_iff husers
  constructor
  · intro h
    obtain ⟨hplain, hnumbers⟩ := hrules.1 h.rules
    obtain ⟨henabled, hnumbers'⟩ := hrewrites.1 h.rewriteRules
    exact ⟨hplain, hnumbers, henabled, hnumbers', hback.1 h.backends, hnames.1 h.users⟩
  · intro h
    exact ⟨hrules.2 ⟨h.rules, h.rulePriorities⟩, hrewrites.2 ⟨h.rewriteRules, h.rewritePriorities⟩,
      hback.2 h.backends, hnames.2 h.users⟩

theorem applyRules_store {Rest PgRest : Type} (pf : Platform Rest PgRest) (env : Circumstances) (n : Nat)
    (s : Dashboard) : (applyRules pf env n s).1.store = s.store := by
  rw [applyRules]
  split
  · rfl
  · split
    · rfl
    · rfl

theorem applyRewriteRules_store {Rest PgRest : Type} (pf : Platform Rest PgRest) (env : Circumstances)
    (n : Nat) (s : Dashboard) : (applyRewriteRules pf env n s).1.store = s.store := by
  rw [applyRewriteRules]
  split
  · rfl
  · split
    · rfl
    · rfl

/-- An import that is taken leaves the imported rows. -/
theorem importConfig_holds {Rest PgRest : Type} (pf : Platform Rest PgRest) {env : Circumstances}
    (himport : ∀ n, env.fails n = false) {body : Str} {s : Dashboard} {cfg : ProxyConfig Rest PgRest}
    (hread : Reader.importConfig.read pf.serde pf.toml body = some cfg)
    (hregex : (cfg.rewriteRules.all fun r => (pf.regex r.matchPattern).isSome) = true)
    (hnames : (cfg.users.map UserConfig.name).Nodup) :
    Holds pf.sur env.nonces cfg.records s.store (importConfig pf env body s).1.store := by
  obtain ⟨hrun, hsome⟩ := runAll_replaceAll pf.sur env.nonces cfg.records env.authorIp s.store
  obtain ⟨db', hdb'⟩ := Option.isSome_iff_exists.1 (hsome.2 hnames)
  have hexec := (exec_eq_true_iff env.fails 0 _ _ db').2 ⟨fun k _ => himport _, hdb'⟩
  have hstore : (importConfig pf env body s).1.store = db' := by
    simp only [importConfig, hread, hregex, Bool.not_true, Bool.false_eq_true, if_false, writeThen, hexec,
      if_true]
    split
    · rw [applyRewriteRules_store, applyRules_store]
    · rw [applyRules_store]
  rw [hstore]
  exact hrun db' hdb'

/-- Export followed by import leaves the configuration alone exactly when the text is refused, or when
nothing is stored that the text has no place for. -/
theorem export_import_iff {env : Circumstances} {s : Dashboard} (hexport : ∀ n, fails n = false)
    (himport : ∀ n, env.fails n = false)
    (htoml : toml (exportDocument printable fails s.store).text =
      (exportDocument printable fails s.store).table) :
    SameConfig sur s.store (importConfig ⟨regex, Serde.records, toml, sur⟩ env
      (exportConfig printable fails s.store) s).1.store ↔
        (Readable printable regex s.store → Restorable sur s.store) := by
  have hread := read_exportConfig_iff regex hexport htoml
  by_cases hreadable : Readable printable regex s.store
  · obtain ⟨p, hp⟩ : ∃ p, primaries (backendRows s.store) = [p] := by
      refine List.length_eq_one_iff.1 (Eq.trans ?_ hreadable.onePrimary)
      exact ((backendRows_perm s.store).filter _).length_eq
    obtain ⟨cfg, hcfg, hregex, hrecords⟩ := (hread _).2 ⟨hreadable, p, hp, rfl⟩
    have hnames : (cfg.users.map UserConfig.name).Nodup := by
      have hsame : cfg.users = (userRows s.store).map UserRow.imported := congrArg Records.users hrecords
      have hnames : cfg.users.map UserConfig.name = (userRows s.store).map UserRow.name := by
        rw [hsame, List.map_map]
        rfl
      rw [hnames, ((userRows_perm s.store).map UserRow.name).nodup_iff]
      exact s.store.unique
    have hholds := importConfig_holds ⟨regex, Serde.records, toml, sur⟩ (s := s) himport hcfg hregex hnames
    rw [hrecords] at hholds
    rw [sameConfig_iff_restorable hreadable hp hholds]
    exact ⟨fun h _ => h, fun h => h hreadable⟩
  · have hrefused : (importConfig ⟨regex, Serde.records, toml, sur⟩ env
        (exportConfig printable fails s.store) s).1 = s := by
      rw [importConfig]
      cases hcfg : Reader.importConfig.read Serde.records toml (exportConfig printable fails s.store) with
      | none => rfl
      | some cfg =>
        cases hregex : cfg.rewriteRules.all fun r => (regex r.matchPattern).isSome with
        | false => simp only [hregex, Bool.not_false, if_true]
        | true => exact absurd ((hread cfg.records).1 ⟨cfg, hcfg, hregex, rfl⟩).1 hreadable
    rw [hrefused]
    exact iff_of_true (SameConfig.refl sur s.store) fun h => absurd h hreadable

end Stores

/-! ## A user with a password -/

/-- A store with one backend, the password of which is three asterisks. -/
def backendOnly : Db :=
  Db.empty.insertBackend { (backendAt "db:3306").row bareSurroundings zeroNonce "primary".toList with
    password := "***".toList }

/-- The same store with a user. -/
def backendAndUser : Db := backendOnly.insertUserOrIgnore ⟨"app".toList, "secret".toList, true, 0, true⟩

/-- A process with such a store. -/
def processWith (store : Db) : Dashboard := ⟨store, [], []⟩

/-- What it exports. -/
def exported (s : Dashboard) : Document := exportDocument (fun _ => false) (fun _ => false) s.store

/-- Export and import on a process whose parser takes a text for this document. -/
def exportThenImport (s : Dashboard) : Db :=
  (importConfig ⟨fun _ => none, Serde.records, fun _ => (exported s).table, bareSurroundings⟩ calmly
    (exportConfig (fun _ => false) (fun _ => false) s.store) s).1.store

theorem export_import_backendOnly :
    SameConfig bareSurroundings (processWith backendOnly).store
      (exportThenImport (processWith backendOnly)) := by
  rw [exportThenImport]
  refine Iff.mpr (export_import_iff (fun _ => rfl) (fun _ => rfl) rfl) fun _ => ?_
  refine ⟨fun r hr => absurd hr List.not_mem_nil, .refl _, fun r hr => absurd hr List.not_mem_nil, .refl _,
    fun r hr => ?_, fun r hr => absurd hr List.not_mem_nil⟩
  obtain rfl := List.mem_singleton.1 hr
  exact ⟨Or.inl rfl, rfl, rfl, rfl, rfl⟩

/-- The mask takes the place of the password. -/
theorem password_masked :
    ¬ ∀ s : Dashboard, SameConfig bareSurroundings s.store (exportThenImport s) := by
  intro hclaim
  have husers := (hclaim (processWith backendAndUser)).users.mem_iff
    (a := ⟨"app".toList, "secret".toList, true, 0, true⟩)
  exact absurd (husers.2 (by decide +kernel)) (by decide +kernel)

end TurbineProxy.Config
