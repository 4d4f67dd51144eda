import TurbineProxy.AnalyticsFlush
import TurbineProxy.DryRun
import TurbineProxy.FingerprintFixpoints

/-!
# Lines that quote a query

Log lines and traces quote the first bytes of a query or of its fingerprint. A slice that ends inside a character
panics, and the panic ends the session, or the task that aggregates the statistics. A log macro evaluates its arguments
only if lines of its level are written at all. Each place survives exactly the texts that fit or that have a character
boundary at the cut (`survives_iff`).
-/

namespace TurbineProxy

open Str

/-! ## Slices -/

/-- `&text[..n]`; `none` for a panic. -/
def sliceTo (n : Nat) (text : Str) : Option Str :=
  if isCharBoundary text n then some (textOf ((toUtf8 text).take n)) else none

/-- `&text[..text.len().min(n)]`; `none` for a panic. -/
def excerpt (n : Nat) (text : Str) : Option Str := sliceTo (min (toUtf8 text).length n) text

/-- The text is not longer than the cut, or the cut is between two characters. -/
def Quotable (n : Nat) (text : Str) : Prop :=
  (toUtf8 text).length ≤ n ∨ ∃ p, p <+: text ∧ (toUtf8 p).length = n

/-- The first byte of a character is not a continuation byte, and the others are. -/
theorem isContinuation_utf8Char (c : Char) :
    ∃ a tail, utf8Char c = a :: tail ∧ isContinuation a = false ∧ ∀ b ∈ tail, isContinuation b = true := by
  have hcont : ∀ n, isContinuation (UInt8.ofNat (0x80 + n % 64)) = true := by
    intro n
    have hbyte : (UInt8.ofNat (0x80 + n % 64)).toNat = 0x80 + n % 64 := byte_ofNat (by omega)
    exact isContinuation_iff.mpr (by omega)
  have hfirst : ∀ n, n < 256 → n < 128 ∨ 192 ≤ n → isContinuation (UInt8.ofNat n) = false := by
    intro n hn hout
    have hbyte : (UInt8.ofNat n).toNat = n := byte_ofNat hn
    exact Bool.eq_false_iff.mpr fun h => by
      have := isContinuation_iff.mp h
      omega
  have hmax : c.toNat < 0x110000 := by
    rcases c.valid with h | ⟨-, h⟩
    · exact Nat.lt_trans h (by decide)
    · exact h
  rw [utf8Char]
  by_cases h1 : c.toNat < 0x80
  · rw [if_pos h1]
    exact ⟨_, _, rfl, hfirst _ (by omega) (.inl h1), List.forall_mem_nil _⟩
  · rw [if_neg h1]
    by_cases h2 : c.toNat < 0x800
    · rw [if_pos h2]
      exact ⟨_, _, rfl, hfirst _ (by omega) (.inr (by omega)), List.forall_mem_singleton.mpr (hcont _)⟩
    · rw [if_neg h2]
      by_cases h3 : c.toNat < 0x10000
      · rw [if_pos h3]
        exact ⟨_, _, rfl, hfirst _ (by omega) (.inr (by omega)),
          List.forall_mem_cons.mpr ⟨hcont _, List.forall_mem_singleton.mpr (hcont _)⟩⟩
      · rw [if_neg h3]
        exact ⟨_, _, rfl, hfirst _ (by omega) (.inr (by omega)),
          List.forall_mem_cons.mpr ⟨hcont _, List.forall_mem_cons.mpr ⟨hcont _,
            List.forall_mem_singleton.mpr (hcont _)⟩⟩⟩

/-- The boundaries of a text are the ends of its prefixes. -/
theorem isCharBoundary_iff (text : Str) (n : Nat) :
    isCharBoundary text n = true ↔ ∃ p, p <+: text ∧ (toUtf8 p).length = n := by
  induction text generalizing n with
  | nil =>
    simp only [isCharBoundary, toUtf8, List.flatMap_nil, List.getElem?_nil, Option.elim_none, List.length_nil,
      beq_iff_eq, List.prefix_nil]
    exact ⟨fun h => ⟨[], rfl, h.symm⟩, fun ⟨p, hp, h⟩ => by rw [← h, hp]; rfl⟩
  | cons c s ih =>
    obtain ⟨a, tail, hc, ha, htail⟩ := isContinuation_utf8Char c
    have hbytes : toUtf8 (c :: s) = a :: (tail ++ toUtf8 s) := by
      rw [toUtf8_cons, hc, List.cons_append]
    have hlength : ∀ p, (toUtf8 (c :: p)).length = tail.length + 1 + (toUtf8 p).length := by
      intro p
      rw [toUtf8_cons, List.length_append, hc, List.length_cons]
    -- a prefix is empty, or it has the first character and a prefix of the rest
    have hfront : (∃ p, p <+: c :: s ∧ (toUtf8 p).length = n) ↔
        n = 0 ∨ ∃ p, p <+: s ∧ tail.length + 1 + (toUtf8 p).length = n := by
      constructor
      · rintro ⟨p, hp, hn⟩
        rcases p with _ | ⟨d, p⟩
        · exact .inl hn.symm
        · obtain ⟨rfl, htail⟩ := List.cons_prefix_cons.mp hp
          exact .inr ⟨p, htail, (hlength p).symm.trans hn⟩
      · rintro (rfl | ⟨p, hp, hn⟩)
        · exact ⟨[], List.nil_prefix, rfl⟩
        · exact ⟨c :: p, List.cons_prefix_cons.mpr ⟨rfl, hp⟩, (hlength p).trans hn⟩
    rw [hfront]
    cases n with
    | zero => simp [isCharBoundary, hbytes, ha]
    | succ n =>
      by_cases hn : n < tail.length
      · -- inside the first character
        have hget : (toUtf8 (c :: s))[n + 1]? = some tail[n] := by
          rw [hbytes, List.getElem?_cons_succ, List.getElem?_append_left hn, List.getElem?_eq_getElem hn]
        rw [isCharBoundary, hget, Option.elim_some, htail _ (List.getElem_mem hn)]
        refine ⟨fun h => absurd h Bool.false_ne_true, ?_⟩
        rintro (h | ⟨p, -, h⟩)
        · omega
        · omega
      · have hsame : isCharBoundary (c :: s) (n + 1) = isCharBoundary s (n - tail.length) := by
          have hlen : (n + 1 == tail.length + 1 + (toUtf8 s).length) = (n - tail.length == (toUtf8 s).length) := by
            rw [Bool.eq_iff_iff, beq_iff_eq, beq_iff_eq]
            omega
          rw [isCharBoundary, isCharBoundary, hlength, hlen, hbytes, List.getElem?_cons_succ,
            List.getElem?_append_right (Nat.le_of_not_lt hn)]
        rw [hsame, ih]
        constructor
        · rintro ⟨p, hp, h⟩
          exact .inr ⟨p, hp, by omega⟩
        · rintro (h | ⟨p, hp, h⟩)
          · omega
          · exact ⟨p, hp, by omega⟩

/-- When a slice does not panic. -/
theorem excerpt_isSome_iff (n : Nat) (text : Str) : (excerpt n text).isSome = true ↔ Quotable n text := by
  have hboundary : (excerpt n text).isSome = true ↔ isCharBoundary text (min (toUtf8 text).length n) = true := by
    rw [excerpt, sliceTo]
    split
    · rename_i h
      exact iff_of_true rfl h
    · rename_i h
      exact iff_of_false Bool.false_ne_true h
  rw [hboundary, isCharBoundary_iff]
  rcases Nat.le_total (toUtf8 text).length n with hle | hle
  · rw [Nat.min_eq_left hle]
    exact ⟨fun _ => .inl hle, fun _ => ⟨text, List.prefix_rfl, rfl⟩⟩
  · rw [Nat.min_eq_right hle]
    refine ⟨.inr, ?_⟩
    rintro (h | h)
    · exact ⟨text, List.prefix_rfl, Nat.le_antisymm h hle⟩
    · exact h

/-! ## Lines -/

/-- `log::Level` -/
inductive LogLevel where
  | error | warn | info | debug | trace
  deriving DecidableEq

/-- The levels in their order. -/
def LogLevel.rank : LogLevel → Nat
  | error => 1
  | warn => 2
  | info => 3
  | debug => 4
  | trace => 5

/-- `level <= log::max_level()`; `none` is `LevelFilter::Off`. -/
def LogLevel.isLogged (max : Option LogLevel) (level : LogLevel) : Bool := max.elim false (level.rank ≤ ·.rank)

/-- What a log macro quotes of a text, if it writes its line; `none` for a panic. -/
def logQuote (max : Option LogLevel) (level : LogLevel) (n : Nat) (text : Str) : Option (Option Str) :=
  if level.isLogged max then (excerpt n text).map some else some none

theorem logQuote_isSome_iff (max : Option LogLevel) (level : LogLevel) (n : Nat) (text : Str) :
    (logQuote max level n text).isSome = true ↔ (level.isLogged max = true → Quotable n text) := by
  rw [logQuote, ← excerpt_isSome_iff]
  split
  · rename_i h
    rw [Option.isSome_map]
    exact ⟨fun hsome _ => hsome, fun hsome => hsome h⟩
  · rename_i h
    exact iff_of_true rfl fun hlogged => absurd hlogged h

/-- `TraceEntry` -/
structure TraceEntry where
  fingerprint : Str
  sql : Str
  durationMs : Float
  backendAddr : Str
  intent : Str
  startedAtMs : UInt64

/-- `ActiveTrace`, as far as `record` uses it. -/
structure ActiveTrace where
  startedAtMs : UInt64
  entries : List TraceEntry

/-- `MAX_SQL` -/
def maxSql : Nat := 4096

/-- `ActiveTrace::record`, at a time since the transaction began; `none` for a panic. The clock arithmetic wraps around
in a release build. -/
def ActiveTrace.record (t : ActiveTrace) (elapsedMs : UInt64) (sql fingerprint : Str) (durationMs : Float)
    (backendAddr intent : Str) : Option ActiveTrace :=
  let startedAtMs := t.startedAtMs + elapsedMs - durationMs.toUInt64
  let stored := if maxSql < (toUtf8 sql).length then (sliceTo maxSql sql).map (· ++ ['…']) else some sql
  stored.map fun sql =>
    { t with entries := t.entries ++ [⟨fingerprint, sql, durationMs, backendAddr, intent, startedAtMs⟩] }

/-- What `aggregation_loop` does with an event; `none` for a panic. -/
def aggregateLogged (max : Option LogLevel) (slowThreshold : Nat) (hash : Str → UInt64) (now : Int) (sql : Str)
    (duration : Nat) (map : List QueryStats) : Option (List QueryStats) :=
  if slowThreshold ≤ duration then
    (logQuote max .info 200 (fingerprint sql)).map fun _ => Analytics.aggregate hash now sql duration map
  else some (Analytics.aggregate hash now sql duration map)

/-- The per-rule fast-forward of a MySQL session: the rules afterwards, and whether the query takes it; `none` for a
panic. -/
def ruleForwards (max : Option LogLevel) (fastForward inTx : Bool) (rules : RuleEngine) (luck : Luck)
    (sql user schema : Str) : Option (RuleEngine × Bool) :=
  if !fastForward && !inTx then
    (rules.matchLogged (LogLevel.isLogged max .info) luck sql user schema 0).bind fun r =>
      if r.2.elim false (·.fastForward) then (logQuote max .debug 60 sql).map fun _ => (r.1, true)
      else some (r.1, false)
  else some (rules, false)

/-- Whether the allowlist refuses a query of a PostgreSQL session, after the checks that come before it; `none` for a
panic. -/
def allowlistRefuses (max : Option LogLevel) (allowWrites : Bool) (sqliMatches : Str → Bool) (allowlist : List Str)
    (sql : Str) : Option Bool :=
  if !allowWrites && classify sql == .write then some false
  else if sqliMatches sql then some false
  else if !isAllowed allowlist sql then (logQuote max .warn 120 sql).map fun _ => true
  else some false

/-- `elapsed.as_millis() as u64`, of nanoseconds. -/
def asMillis (elapsed : Nat) : UInt64 := UInt64.ofNat (elapsed / 1000000)

/-- What the slow-query line of a PostgreSQL session quotes, after a query without an error; `none` for a panic. -/
def slowQueryLine (max : Option LogLevel) (slowMs : UInt64) (elapsed : Nat) (sql : Str) : Option (Option Str) :=
  if 0 < slowMs && slowMs ≤ asMillis elapsed then logQuote max .warn 200 (fingerprint sql) else some none

/-! ## The places -/

/-- A place that quotes a query, with what else it reads there. -/
inductive LogPath where
  /-- the dry-run message of `match_query` -/
  | dryRun (rules : RuleEngine) (luck : Luck) (user schema : Str)
  /-- `ActiveTrace::record` -/
  | record (t : ActiveTrace) (elapsedMs : UInt64) (fingerprint : Str) (durationMs : Float) (backendAddr intent : Str)
  /-- the slow-query line of `aggregation_loop` -/
  | slowEvent (slowThreshold : Nat) (hash : Str → UInt64) (now : Int) (duration : Nat) (map : List QueryStats)
  /-- the per-rule fast-forward line -/
  | ruleForward (fastForward inTx : Bool) (rules : RuleEngine) (luck : Luck) (user schema : Str)
  /-- the allowlist line of a PostgreSQL session -/
  | allowlist (allowWrites : Bool) (sqliMatches : Str → Bool) (fingerprints : List Str)
  /-- the slow-query line of a PostgreSQL session -/
  | slowQuery (slowMs : UInt64) (elapsed : Nat)

namespace LogPath

variable (max : Option LogLevel) (sql : Str)

/-- The query gets through without a panic. -/
def survives : LogPath → Bool
  | dryRun rules luck user schema =>
    (rules.matchLogged (LogLevel.isLogged max .info) luck sql user schema 0).isSome
  | record t elapsedMs fingerprint durationMs backendAddr intent =>
    (t.record elapsedMs sql fingerprint durationMs backendAddr intent).isSome
  | slowEvent slowThreshold hash now duration map =>
    (aggregateLogged max slowThreshold hash now sql duration map).isSome
  | ruleForward fastForward inTx rules luck user schema =>
    (ruleForwards max fastForward inTx rules luck sql user schema).isSome
  | allowlist allowWrites sqliMatches fingerprints =>
    (allowlistRefuses max allowWrites sqliMatches fingerprints sql).isSome
  | slowQuery slowMs elapsed => (slowQueryLine max slowMs elapsed sql).isSome

/-- What is quoted, if the line is reached and written, is quotable. -/
def Safe : LogPath → Prop
  | dryRun rules luck user schema =>
    LogLevel.isLogged max .info = true → rules.logsFirst luck sql user schema 0 = true → Quotable 120 sql
  | record .. => Quotable 4096 sql
  | slowEvent slowThreshold _ _ duration _ =>
    LogLevel.isLogged max .info = true → slowThreshold ≤ duration → Quotable 200 (fingerprint sql)
  | ruleForward fastForward inTx rules luck user schema =>
    fastForward = false → inTx = false →
      -- `is_fast_forward_rule` asks `match_query`
      (LogLevel.isLogged max .info = true → rules.logsFirst luck sql user schema 0 = true → Quotable 120 sql) ∧
        (LogLevel.isLogged max .debug = true →
          (rules.matchQuery luck sql user schema).2.elim false (·.fastForward) = true → Quotable 60 sql)
  | allowlist allowWrites sqliMatches fingerprints =>
    LogLevel.isLogged max .warn = true → ¬(allowWrites = false ∧ classify sql = .write) → sqliMatches sql = false →
      isAllowed fingerprints sql = false → Quotable 120 sql
  | slowQuery slowMs elapsed =>
    LogLevel.isLogged max .warn = true → 0 < slowMs → slowMs ≤ asMillis elapsed → Quotable 200 (fingerprint sql)

variable {max sql} {rules : RuleEngine} {luck : Luck} {user schema : Str}

/-- When `match_query` gets past its message, and what it is then. -/
theorem matchLogged_isSome_iff :
    (rules.matchLogged (LogLevel.isLogged max .info) luck sql user schema 0).isSome = true ↔
      (LogLevel.isLogged max .info = true → rules.logsFirst luck sql user schema 0 = true → Quotable 120 sql) := by
  have hexcerpt : (logExcerpt sql).isNone = true ↔ ¬Quotable 120 sql := by
    rw [← excerpt_isSome_iff, ← Option.not_isSome, Bool.not_eq_true', Bool.not_eq_true]
    rfl
  rw [RuleEngine.matchLogged_eq]
  split
  · rename_i h
    simp only [Bool.and_eq_true] at h
    exact iff_of_false Bool.false_ne_true fun hq => hexcerpt.mp h.1.2 (hq h.1.1 h.2)
  · rename_i h
    simp only [Bool.and_eq_true, not_and] at h
    refine iff_of_true rfl fun hlogged hfirst => ?_
    by_contra hq
    exact h ⟨hlogged, hexcerpt.mpr hq⟩ hfirst

theorem record_isSome_iff {t : ActiveTrace} {elapsedMs : UInt64} {fingerprint : Str} {durationMs : Float}
    {backendAddr intent : Str} :
    (t.record elapsedMs sql fingerprint durationMs backendAddr intent).isSome = true ↔ Quotable 4096 sql := by
  rw [ActiveTrace.record, Option.isSome_map]
  split
  · rename_i hlong
    have hmin : min (toUtf8 sql).length 4096 = maxSql := Nat.min_eq_right (Nat.le_of_lt hlong)
    rw [Option.isSome_map, ← excerpt_isSome_iff, excerpt, hmin]
  · rename_i hshort
    exact iff_of_true rfl (.inl (Nat.le_of_not_lt hshort))

theorem ruleForwards_isSome_iff {fastForward inTx : Bool} :
    (ruleForwards max fastForward inTx rules luck sql user schema).isSome = true ↔
      Safe max sql (ruleForward fastForward inTx rules luck user schema) := by
  rw [ruleForwards, Safe]
  split
  · rename_i hasked
    obtain ⟨rfl, rfl⟩ : fastForward = false ∧ inTx = false := by simpa using hasked
    rw [← matchLogged_isSome_iff]
    simp only [forall_const]
    cases hmatch : rules.matchLogged (LogLevel.isLogged max .info) luck sql user schema 0 with
    | none => exact iff_of_false Bool.false_ne_true fun h => Bool.false_ne_true h.1
    | some r =>
      have hr : rules.matchQuery luck sql user schema = r := by
        rw [RuleEngine.matchLogged_eq] at hmatch
        split at hmatch
        · cases hmatch
        · exact Option.some.inj hmatch
      rw [Option.bind_some, Option.isSome_some, hr, eq_self_iff_true, true_and]
      split
      · rename_i hforward
        rw [Option.isSome_map, logQuote_isSome_iff]
        exact ⟨fun h hlogged _ => h hlogged, fun h hlogged => h hlogged hforward⟩
      · rename_i hstay
        exact iff_of_true rfl fun _ hforward => absurd hforward hstay
  · rename_i hskipped
    refine iff_of_true rfl fun hff htx => absurd ?_ hskipped
    rw [hff, htx]
    rfl

theorem allowlistRefuses_isSome_iff {allowWrites : Bool} {sqliMatches : Str → Bool} {fingerprints : List Str} :
    (allowlistRefuses max allowWrites sqliMatches fingerprints sql).isSome = true ↔
      Safe max sql (allowlist allowWrites sqliMatches fingerprints) := by
  rw [allowlistRefuses, Safe]
  split
  · rename_i hwrite
    refine iff_of_true rfl fun _ hmay => absurd ?_ hmay
    simpa using hwrite
  · rename_i hwrite
    have hmay : ¬(allowWrites = false ∧ classify sql = .write) := by simpa using hwrite
    split
    · rename_i hsqli
      exact iff_of_true rfl fun _ _ hclean => absurd hsqli (by rw [hclean]; exact Bool.false_ne_true)
    · rename_i hsqli
      have hclean : sqliMatches sql = false := Bool.eq_false_iff.mpr hsqli
      split
      · rename_i hlist
        have hrefused : isAllowed fingerprints sql = false := by simpa using hlist
        rw [Option.isSome_map, logQuote_isSome_iff]
        exact ⟨fun h hlogged _ _ _ => h hlogged, fun h hlogged => h hlogged hmay hclean hrefused⟩
      · rename_i hlist
        refine iff_of_true rfl fun _ _ _ hrefused => absurd ?_ hlist
        rw [hrefused]
        rfl

/-- Each place survives exactly the queries whose quotation ends at the end of the text or between two characters. -/
theorem survives_iff (max : Option LogLevel) (sql : Str) (path : LogPath) :
    path.survives max sql = true ↔ path.Safe max sql := by
  cases path with
  | dryRun rules luck user schema => exact matchLogged_isSome_iff
  | record t elapsedMs fingerprint durationMs backendAddr intent => exact record_isSome_iff
  | slowEvent slowThreshold hash now duration map =>
    rw [survives, Safe, aggregateLogged]
    split
    · rename_i hslow
      rw [Option.isSome_map, logQuote_isSome_iff]
      exact ⟨fun h hlogged _ => h hlogged, fun h hlogged => h hlogged hslow⟩
    · rename_i hfast
      exact iff_of_true rfl fun _ hslow => absurd hslow hfast
  | ruleForward fastForward inTx rules luck user schema => exact ruleForwards_isSome_iff
  | allowlist allowWrites sqliMatches fingerprints => exact allowlistRefuses_isSome_iff
  | slowQuery slowMs elapsed =>
    rw [survives, Safe, slowQueryLine]
    split
    · rename_i hslow
      obtain ⟨hon, hlong⟩ : 0 < slowMs ∧ slowMs ≤ asMillis elapsed := by simpa using hslow
      rw [logQuote_isSome_iff]
      exact ⟨fun h hlogged _ _ => h hlogged, fun h hlogged => h hlogged hon hlong⟩
    · rename_i hfast
      refine iff_of_true rfl fun _ hon hlong => absurd ?_ hfast
      simp [hon, hlong]

/-- A query that is not on the allowlist, with a two-byte character as its bytes 119 and 120, ends the session. -/
theorem allowlist_line_panics :
    ¬ ∀ (max : Option LogLevel) (sql : Str) (path : LogPath), path.survives max sql = true := by
  intro h
  have hsurvives := h (some .info) DrawnRules.accentAt119 (.allowlist true (fun _ => false) ["SELECT ? FROM t".toList])
  exact absurd hsurvives (by decide +kernel)

end LogPath

end TurbineProxy
