import TurbineProxy.Rewriter

/-!
# The query rules

`rules.rs`, with the fingerprint of `fingerprint.rs` that a rule may ask for. A rule that limits the
rate of its queries holds a bucket of tokens, so matching a query changes the rules.

What a match depends on besides the query is its `Luck`: the random numbers of the incremental rollout
and the clock. The time of a rule's last match, which only the dashboard shows, is left out.
-/

namespace TurbineProxy

open Str

/-! ## Fingerprints -/

/-- `u8 as char` -/
def byteChar (b : UInt8) : Char := Char.ofNat b.toNat

/-- `u8::is_ascii_whitespace` -/
def isWhitespaceByte (b : UInt8) : Bool := isAsciiWhitespace (byteChar b)

/-- `u8::is_ascii_digit` -/
def isDigitByte (b : UInt8) : Bool := 0x30 ≤ b && b ≤ 0x39

/-- `is_ascii_alphanumeric`, or an underscore. -/
def isWordChar (c : Char) : Bool := c.isAlphanum || c == '_'

/-- The bytes a numeric literal is read over, once it has begun. -/
def isNumberByte (b : UInt8) : Bool :=
  isDigitByte b || [0x2E, 0x78, 0x58, 0x65, 0x45, 0x2B, 0x2D].contains b ||
    (0x61 ≤ b && b ≤ 0x66) || (0x41 ≤ b && b ≤ 0x46)

/-- What follows a single-quoted literal, read from behind its opening quote. -/
def skipQuoted : Bytes → Bytes
  | 0x5C :: _ :: s => skipQuoted s
  | 0x27 :: 0x27 :: s => skipQuoted s
  | 0x27 :: s => s
  | _ :: s => skipQuoted s
  | [] => []

/-- A double-quoted token from behind its opening quote, and what follows it. -/
def readDoubleQuoted : Bytes → Bytes × Bytes
  | 0x22 :: 0x22 :: s => Prod.map (0x22 :: 0x22 :: ·) id (readDoubleQuoted s)
  | 0x22 :: s => ([0x22], s)
  | b :: s => Prod.map (b :: ·) id (readDoubleQuoted s)
  | [] => ([], [])

/-- The loop of `fingerprint`; every round reads at least one byte. `last` is the character pushed
last. -/
def fingerprintLoop : Nat → Option Char → Bytes → Str
  | 0, _, _ | _, _, [] => []
  | n + 1, last, b :: s =>
    if b = 0x27 then '?' :: fingerprintLoop n (some '?') (skipQuoted s)
    else if b = 0x22 then
      let r := readDoubleQuoted s
      -- a token with whitespace counts as a string, any other one as an identifier
      let out := if r.1.any isWhitespaceByte then ['?'] else textOf (0x22 :: r.1)
      out ++ fingerprintLoop n out.getLast? r.2
    else if isDigitByte b then
      if last.elim false isWordChar then byteChar b :: fingerprintLoop n (some (byteChar b)) s
      else '?' :: fingerprintLoop n (some '?') (s.dropWhile isNumberByte)
    else if b = 0x20 ∨ b = 0x09 ∨ b = 0x0A ∨ b = 0x0D then
      ' ' :: fingerprintLoop n (some ' ') (s.dropWhile isWhitespaceByte)
    else byteChar b :: fingerprintLoop n (some (byteChar b)) s

/-- `fingerprint`: the text with its literals replaced by `?` -/
def fingerprint (sql : Str) : Str := fingerprintLoop (toUtf8 sql).length none (toUtf8 sql)

example : fingerprint "SELECT  t1.\"id\" FROM t1 WHERE x = 'it''s' AND y > -9.5e3".toList =
    "SELECT t1.\"id\" FROM t1 WHERE x = ? AND y > -?".toList := by decide +kernel

/-! ## Rules -/

/-- `rules::CompiledRule` -/
structure QueryRule where
  /-- the queries it is for -/
  pattern : Option Regex
  /-- their fingerprint, which takes precedence -/
  digest : Option Str
  /-- the user it is for; everyone when empty -/
  user : Str
  /-- the schema it is for; every one when empty -/
  schema : Str
  /-- where its queries go -/
  destination : Destination
  /-- 0: responses are not cached -/
  cacheTtlSecs : Nat
  /-- a server that gets a copy of its queries -/
  mirrorTo : Option Str
  /-- from 1 to 99: the percentage of its queries it is applied to -/
  rolloutPct : Nat
  /-- only log what it would do -/
  dryRun : Bool
  /-- its queries bypass routing -/
  fastForward : Bool
  /-- its queries per second; no limit when 0 -/
  qpsLimit : Nat
  /-- the tokens left -/
  tokenBucket : Int
  /-- when tokens were added last, in milliseconds -/
  tokenBucketMs : Nat
  /-- the queries it decided on -/
  hitCount : Nat

/-- What a match depends on besides rules and query. -/
structure Luck where
  /-- `rand::random` at the rule with this index -/
  roll : Nat → Nat
  /-- the time in milliseconds -/
  nowMs : Nat

namespace QueryRule

variable (rule : QueryRule) (nowMs : Nat)

/-- The tokens since the last refill, at most one second's worth. -/
def refill : QueryRule :=
  let elapsed := nowMs - rule.tokenBucketMs
  if 1 ≤ elapsed then
    -- the product is a `u64` and wraps around in a release build
    let add := min (elapsed * rule.qpsLimit % 2 ^ 64 / 1000) rule.qpsLimit
    { rule with
      tokenBucket := min (rule.tokenBucket + add) rule.qpsLimit
      tokenBucketMs := nowMs }
  else rule

/-- The rate limit leaves no token for another query. -/
def exhausted : Bool := rule.qpsLimit ≠ 0 && (rule.refill nowMs).tokenBucket ≤ 0

/-- `CompiledRule::try_consume_token` -/
def tryConsumeToken : QueryRule × Bool :=
  if rule.qpsLimit = 0 then (rule, true)
  else
    let rule := rule.refill nowMs
    if rule.tokenBucket ≤ 0 then (rule, false)
    else ({ rule with tokenBucket := rule.tokenBucket - 1 }, true)

/-- A token is to be had unless the rule is exhausted. -/
theorem tryConsumeToken_snd : (rule.tryConsumeToken nowMs).2 = !rule.exhausted nowMs := by
  unfold tryConsumeToken exhausted
  by_cases hlimit : rule.qpsLimit = 0
  · simp [hlimit]
  · by_cases hempty : (rule.refill nowMs).tokenBucket ≤ 0
    · simp [hlimit, hempty]
    · simp [hlimit, hempty]

/-- What `match_query` does with the rule that decides: one hit, and a token. -/
def charge : QueryRule × Bool := { rule with hitCount := rule.hitCount + 1 }.tryConsumeToken nowMs

theorem charge_snd : (rule.charge nowMs).2 = !rule.exhausted nowMs := by
  rw [charge, tryConsumeToken_snd, exhausted, exhausted, refill, refill]
  dsimp only
  split
  · rfl
  · rfl

/-- The rule is for such a query. -/
def isFor (sql user schema : Str) : Bool :=
  (rule.user.isEmpty || rule.user == user) && (rule.schema.isEmpty || rule.schema == schema) &&
    match rule.digest, rule.pattern with
    | some d, _ => fingerprint sql == d
    | none, some re => re.isMatch sql
    | none, none => false

/-- The random number leaves the query out of the rollout. -/
def rollsOut (roll : Nat) : Bool :=
  0 < rule.rolloutPct && rule.rolloutPct < 100 && rule.rolloutPct ≤ roll % 100

/-- The rule decides on the query. -/
def applies (roll : Nat) (sql user schema : Str) : Bool :=
  rule.isFor sql user schema && !rule.rollsOut roll && !rule.dryRun

/-- The match of a rule that decides, given whether it had a token. -/
def asMatch (hasToken : Bool) : RuleMatch :=
  if hasToken then ⟨rule.destination, rule.cacheTtlSecs, rule.mirrorTo, false, rule.fastForward⟩
  else ⟨rule.destination, 0, none, true, false⟩

end QueryRule

/-- `RuleEngine`: the compiled rules, in order. -/
abbrev RuleEngine : Type := List QueryRule

namespace RuleEngine

/-- The loop of `match_query`, from the rule with index `i` on. The line that a rule on dry-run writes to the log is left
out, and with it the panic of a text that the line would cut inside a character; `DryRun.lean` has both, and what is
said elsewhere of rules on dry-run is about the other texts. -/
def matchFrom (luck : Luck) (sql user schema : Str) : Nat → RuleEngine → RuleEngine × Option RuleMatch
  | _, [] => ([], none)
  | i, rule :: rest =>
    if rule.applies (luck.roll i) sql user schema then
      let r := rule.charge luck.nowMs
      (r.1 :: rest, some (rule.asMatch r.2))
    else
      let r := matchFrom luck sql user schema (i + 1) rest
      (rule :: r.1, r.2)

/-- `RuleEngine::match_query`: the rules afterwards, and the match. -/
def matchQuery (rules : RuleEngine) (luck : Luck) (sql user schema : Str) :
    RuleEngine × Option RuleMatch := matchFrom luck sql user schema 0 rules

/-- The rule that decides on a query, from index `i` on. -/
def ruleFrom (luck : Luck) (sql user schema : Str) : Nat → RuleEngine → Option QueryRule
  | _, [] => none
  | i, rule :: rest =>
    if rule.applies (luck.roll i) sql user schema then some rule
    else ruleFrom luck sql user schema (i + 1) rest

/-- The rule that decides on a query. -/
def ruleFor (rules : RuleEngine) (luck : Luck) (sql user schema : Str) : Option QueryRule :=
  ruleFrom luck sql user schema 0 rules

theorem matchFrom_snd (luck : Luck) (sql user schema : Str) (i : Nat) (rules : RuleEngine) :
    (matchFrom luck sql user schema i rules).2 = (ruleFrom luck sql user schema i rules).map
      fun rule => rule.asMatch !rule.exhausted luck.nowMs := by
  induction rules generalizing i with
  | nil => rfl
  | cons rule rest ih =>
    by_cases happlies : rule.applies (luck.roll i) sql user schema = true
    · rw [matchFrom, ruleFrom, if_pos happlies, if_pos happlies, Option.map_some]
      exact congrArg (fun b => some (rule.asMatch b)) (rule.charge_snd luck.nowMs)
    · rw [matchFrom, ruleFrom, if_neg happlies, if_neg happlies]
      exact ih (i + 1)

/-- The match depends on one rule only. -/
theorem matchQuery_snd (rules : RuleEngine) (luck : Luck) (sql user schema : Str) :
    (rules.matchQuery luck sql user schema).2 = (rules.ruleFor luck sql user schema).map
      fun rule => rule.asMatch !rule.exhausted luck.nowMs :=
  matchFrom_snd luck sql user schema 0 rules

/-- A query is refused for its rate when its rule is exhausted. -/
theorem rateLimited_iff (rules : RuleEngine) (luck : Luck) (sql user schema : Str) :
    (rules.matchQuery luck sql user schema).2.elim false (·.rateLimited) =
      (rules.ruleFor luck sql user schema).elim false (·.exhausted luck.nowMs) := by
  rw [matchQuery_snd]
  rcases rules.ruleFor luck sql user schema with _ | rule
  · rfl
  · rw [Option.map_some, Option.elim_some, Option.elim_some, QueryRule.asMatch]
    cases rule.exhausted luck.nowMs with
    | false => rfl
    | true => rfl

end RuleEngine

end TurbineProxy
