import TurbineProxy.Fingerprints

/-!
# Rules that only log

`match_query` with the line a dry-run rule writes to the log. The line quotes the first 120 bytes of the query, and a
slice of a text that ends inside a character panics. Where that does not happen (`transparent_iff`), a dry-run rule
leaves no trace: the other rules decide and change as they would without it.
-/

namespace TurbineProxy

open Str

/-! ## The log -/

/-- `str::is_char_boundary` -/
def isCharBoundary (sql : Str) (n : Nat) : Bool := ((toUtf8 sql)[n]?).elim (n == (toUtf8 sql).length) (!isContinuation ·)

/-- `&sql[..sql.len().min(120)]`; `none` for a panic. -/
def logExcerpt (sql : Str) : Option Str :=
  let n := min (toUtf8 sql).length 120
  if isCharBoundary sql n then some (textOf ((toUtf8 sql).take n)) else none

/-- The filters of the rule, its pattern or digest and its rollout let the query in. -/
def QueryRule.accepts (rule : QueryRule) (roll : Nat) (sql user schema : Str) : Bool :=
  rule.isFor sql user schema && !rule.rollsOut roll

namespace RuleEngine

/-- The loop of `match_query` with its log, from the rule with index `i` on. `info` tells whether lines of this level
are written; `none` is a panic. -/
def matchLogged (info : Bool) (luck : Luck) (sql user schema : Str) :
    Nat → RuleEngine → Option (RuleEngine × Option RuleMatch)
  | _, [] => some ([], none)
  | i, rule :: rest =>
    if rule.accepts (luck.roll i) sql user schema then
      if rule.dryRun then
        if info && (logExcerpt sql).isNone then none
        else (matchLogged info luck sql user schema (i + 1) rest).map fun r => (rule :: r.1, r.2)
      else
        let r := rule.charge luck.nowMs
        some (r.1 :: rest, some (rule.asMatch r.2))
    else (matchLogged info luck sql user schema (i + 1) rest).map fun r => (rule :: r.1, r.2)

/-- The first rule that lets the query in, from index `i` on. -/
def acceptedFrom (luck : Luck) (sql user schema : Str) : Nat → RuleEngine → Option QueryRule
  | _, [] => none
  | i, rule :: rest =>
    if rule.accepts (luck.roll i) sql user schema then some rule else acceptedFrom luck sql user schema (i + 1) rest

/-- The first rule that lets the query in only logs. -/
def logsFirst (luck : Luck) (sql user schema : Str) (i : Nat) (rules : RuleEngine) : Bool :=
  (acceptedFrom luck sql user schema i rules).elim false (·.dryRun)

variable {info : Bool} {luck : Luck} {sql user schema : Str}

/-- Without a panic the log is all that differs. -/
theorem matchLogged_eq (i : Nat) (rules : RuleEngine) : matchLogged info luck sql user schema i rules =
    if (info && (logExcerpt sql).isNone) && logsFirst luck sql user schema i rules then none
    else some (matchFrom luck sql user schema i rules) := by
  induction rules generalizing i with
  | nil => simp [matchLogged, matchFrom, logsFirst, acceptedFrom]
  | cons rule rest ih =>
    have happlies : rule.applies (luck.roll i) sql user schema =
        (rule.accepts (luck.roll i) sql user schema && !rule.dryRun) := rfl
    rw [matchLogged, matchFrom, logsFirst, acceptedFrom, ih, happlies]
    cases haccepts : rule.accepts (luck.roll i) sql user schema with
    | false =>
      rw [logsFirst]
      simp only [Bool.false_and, Bool.false_eq_true, if_false]
      split
      · rfl
      · rfl
    | true =>
      cases hdry : rule.dryRun with
      | false => simp [hdry]
      | true =>
        cases hpanic : info && (logExcerpt sql).isNone with
        | true => simp [hdry]
        | false => simp

end RuleEngine

/-! ## Rules with their draws -/

/-- Rules, each with the random number of its rollout. -/
abbrev DrawnRules : Type := List (QueryRule × Nat)

namespace DrawnRules

/-- The rules. -/
def rules (drawn : DrawnRules) : RuleEngine := drawn.map Prod.fst

/-- The luck of these draws. -/
def luck (drawn : DrawnRules) (nowMs : Nat) : Luck := ⟨fun i => (drawn.map Prod.snd).getD i 0, nowMs⟩

/-- The rules that do not only log. -/
def live (drawn : DrawnRules) : DrawnRules := drawn.filter fun p => !p.1.dryRun

/-- The first rule that lets the query in. -/
def firstAccepted (drawn : DrawnRules) (sql user schema : Str) : Option (QueryRule × Nat) :=
  drawn.find? fun p => p.1.accepts p.2 sql user schema

end DrawnRules

namespace RuleEngine

variable {luck : Luck} {sql user schema : Str}

theorem matchFrom_succ (i : Nat) (rules : RuleEngine) : matchFrom luck sql user schema (i + 1) rules =
    matchFrom ⟨fun j => luck.roll (j + 1), luck.nowMs⟩ sql user schema i rules := by
  induction rules generalizing i with
  | nil => rfl
  | cons rule rest ih => rw [matchFrom, matchFrom, ih]

theorem acceptedFrom_succ (i : Nat) (rules : RuleEngine) : acceptedFrom luck sql user schema (i + 1) rules =
    acceptedFrom ⟨fun j => luck.roll (j + 1), luck.nowMs⟩ sql user schema i rules := by
  induction rules generalizing i with
  | nil => rfl
  | cons rule rest ih => rw [acceptedFrom, acceptedFrom, ih]

end RuleEngine

theorem QueryRule.charge_dryRun (rule : QueryRule) (nowMs : Nat) : (rule.charge nowMs).1.dryRun = rule.dryRun := by
  rw [charge, tryConsumeToken, refill]
  dsimp only
  split_ifs <;> rfl

namespace DrawnRules

variable (nowMs : Nat) (sql user schema : Str)

/-- `match_query` for these draws, without its log. -/
def matched (drawn : DrawnRules) : RuleEngine × Option RuleMatch :=
  drawn.rules.matchFrom (drawn.luck nowMs) sql user schema 0

theorem matched_cons (p : QueryRule × Nat) (drawn : DrawnRules) : matched nowMs sql user schema (p :: drawn) =
    if p.1.accepts p.2 sql user schema && !p.1.dryRun then
      ((p.1.charge nowMs).1 :: drawn.rules, some (p.1.asMatch (p.1.charge nowMs).2))
    else (p.1 :: (matched nowMs sql user schema drawn).1, (matched nowMs sql user schema drawn).2) := by
  rw [matched, rules, List.map_cons, RuleEngine.matchFrom, RuleEngine.matchFrom_succ]
  rfl

theorem acceptedFrom_eq (drawn : DrawnRules) :
    RuleEngine.acceptedFrom (luck drawn nowMs) sql user schema 0 (rules drawn) =
      (firstAccepted drawn sql user schema).map Prod.fst := by
  induction drawn with
  | nil => rfl
  | cons p drawn ih =>
    rw [rules, List.map_cons, RuleEngine.acceptedFrom, RuleEngine.acceptedFrom_succ, firstAccepted, List.find?_cons]
    change (if p.1.accepts p.2 sql user schema = true then some p.1
      else RuleEngine.acceptedFrom (luck drawn nowMs) sql user schema 0 (rules drawn)) = _
    cases p.1.accepts p.2 sql user schema with
    | true => rfl
    | false => exact ih

theorem rules_cons (p : QueryRule × Nat) (drawn : DrawnRules) : rules (p :: drawn) = p.1 :: rules drawn := rfl

theorem live_rules (drawn : DrawnRules) : rules (live drawn) = (rules drawn).filter fun rule => !rule.dryRun := by
  rw [rules, rules, List.filter_map]
  rfl

/-- The rules that only log stay as they are, and the others become what they would become alone. -/
theorem matched_live (drawn : DrawnRules) :
    matched nowMs sql user schema (live drawn) =
        ((matched nowMs sql user schema drawn).1.filter fun rule => !rule.dryRun, (matched nowMs sql user schema drawn).2) ∧
      ((matched nowMs sql user schema drawn).1.filter fun rule => rule.dryRun) =
        (rules drawn).filter fun rule => rule.dryRun := by
  induction drawn with
  | nil => exact ⟨rfl, rfl⟩
  | cons p drawn ih =>
    rw [matched_cons, rules_cons]
    cases hdry : p.1.dryRun with
    | true =>
      have hlive : live (p :: drawn) = live drawn := List.filter_cons_of_neg (by simp [hdry])
      rw [Bool.not_true, Bool.and_false, if_neg Bool.false_ne_true, hlive]
      refine ⟨?_, ?_⟩
      · rw [List.filter_cons_of_neg (by simp [hdry])]
        exact ih.1
      · rw [List.filter_cons_of_pos hdry, List.filter_cons_of_pos hdry]
        exact congrArg (p.1 :: ·) ih.2
    | false =>
      have hlive : live (p :: drawn) = p :: live drawn := List.filter_cons_of_pos (by simp [hdry])
      have hcharged : (p.1.charge nowMs).1.dryRun = false := (p.1.charge_dryRun nowMs).trans hdry
      rw [hlive, matched_cons, hdry, Bool.not_false, Bool.and_true]
      cases p.1.accepts p.2 sql user schema with
      | true =>
        rw [if_pos rfl, if_pos rfl]
        refine ⟨?_, ?_⟩
        · rw [List.filter_cons_of_pos (by simp [hcharged]), live_rules]
        · rw [List.filter_cons_of_neg (by simp [hcharged]), List.filter_cons_of_neg (by simp [hdry])]
      | false =>
        rw [if_neg Bool.false_ne_true, if_neg Bool.false_ne_true, ih.1]
        refine ⟨?_, ?_⟩
        · rw [List.filter_cons_of_pos (by simp [hdry])]
        · rw [List.filter_cons_of_neg (by simp [hdry]), List.filter_cons_of_neg (by simp [hdry])]
          exact ih.2

/-- The rule that decides is the first one that does not only log and lets the query in. -/
theorem matched_snd (drawn : DrawnRules) : (matched nowMs sql user schema drawn).2 =
    (firstAccepted (live drawn) sql user schema).map fun p => p.1.asMatch (p.1.charge nowMs).2 := by
  induction drawn with
  | nil => rfl
  | cons p drawn ih =>
    rw [matched_cons, live, List.filter_cons]
    cases hdry : p.1.dryRun with
    | true =>
      rw [Bool.not_true, Bool.and_false, if_neg Bool.false_ne_true, if_neg Bool.false_ne_true]
      exact ih
    | false =>
      rw [Bool.not_false, Bool.and_true, if_pos rfl, firstAccepted, List.find?_cons]
      cases p.1.accepts p.2 sql user schema with
      | true => rfl
      | false => exact ih

/-- `match_query` for these draws. -/
def matchQuery (info : Bool) (drawn : DrawnRules) : Option (RuleEngine × Option RuleMatch) :=
  drawn.rules.matchLogged info (drawn.luck nowMs) sql user schema 0

theorem matchQuery_eq (info : Bool) (drawn : DrawnRules) : matchQuery nowMs sql user schema info drawn =
    if (info && (logExcerpt sql).isNone) && (firstAccepted drawn sql user schema).elim false (·.1.dryRun) then none
    else some (matched nowMs sql user schema drawn) := by
  rw [matchQuery, RuleEngine.matchLogged_eq, RuleEngine.logsFirst, acceptedFrom_eq]
  cases firstAccepted drawn sql user schema with
  | none => rfl
  | some p => rfl

/-- Where no rule only logs, nothing is written. -/
theorem matchQuery_live (info : Bool) (drawn : DrawnRules) :
    matchQuery nowMs sql user schema info (live drawn) = some (matched nowMs sql user schema (live drawn)) := by
  rw [matchQuery_eq, if_neg]
  intro h
  obtain ⟨-, hfirst⟩ := (Bool.and_eq_true _ _).mp h
  cases hp : firstAccepted (live drawn) sql user schema with
  | none =>
    rw [hp] at hfirst
    cases hfirst
  | some p =>
    rw [hp, Option.elim_some] at hfirst
    have hmem := (List.mem_filter.mp (List.mem_of_find?_eq_some hp)).2
    rw [hfirst] at hmem
    cases hmem

/-- The rules that only log make no difference: the query gets the match of the first other rule that lets it in, and
the other rules become what they would become alone. -/
def Transparent (info : Bool) (drawn : DrawnRules) : Prop :=
  ∃ after result, matchQuery nowMs sql user schema info drawn = some (after, result) ∧
    matchQuery nowMs sql user schema info (live drawn) = some (after.filter fun rule => !rule.dryRun, result) ∧
    (after.filter fun rule => rule.dryRun) = (rules drawn).filter (fun rule => rule.dryRun) ∧
    result = (firstAccepted (live drawn) sql user schema).map fun p => p.1.asMatch (p.1.charge nowMs).2

/-- The rules that only log make no difference unless one of them is the first to let the query in, and the log line
would end inside a character. -/
theorem transparent_iff (info : Bool) (drawn : DrawnRules) : Transparent nowMs sql user schema info drawn ↔
    ¬(info = true ∧ logExcerpt sql = none ∧ ∃ p, firstAccepted drawn sql user schema = some p ∧ p.1.dryRun = true) := by
  constructor
  · rintro ⟨after, result, hmatch, -⟩ ⟨hinfo, hpanic, p, hp, hdry⟩
    rw [matchQuery_eq, hinfo, hpanic, hp, Option.elim_some, hdry] at hmatch
    cases hmatch
  · intro hsafe
    obtain ⟨hlive, hdry⟩ := matched_live nowMs sql user schema drawn
    refine ⟨_, _, ?_, ?_, hdry, matched_snd nowMs sql user schema drawn⟩
    · rw [matchQuery_eq, if_neg]
      intro h
      simp only [Bool.and_eq_true, Option.isNone_iff_eq_none] at h
      obtain ⟨⟨hinfo, hpanic⟩, hfirst⟩ := h
      cases hp : firstAccepted drawn sql user schema with
      | none =>
        rw [hp] at hfirst
        cases hfirst
      | some p =>
        rw [hp] at hfirst
        exact hsafe ⟨hinfo, hpanic, p, hp, hfirst⟩
    · rw [matchQuery_live, hlive]

/-- A rule for every query that only logs. -/
def logsAll : QueryRule where
  pattern := some ⟨fun _ => true, fun sql _ => sql⟩
  digest := none
  user := []
  schema := []
  destination := .replica
  cacheTtlSecs := 0
  mirrorTo := none
  rolloutPct := 0
  dryRun := true
  fastForward := false
  qpsLimit := 0
  tokenBucket := 0
  tokenBucketMs := 0
  hitCount := 0

/-- A query with a two-byte character as its bytes 119 and 120. -/
def accentAt119 : Str := "SELECT '".toList ++ List.replicate 111 'a' ++ "é'".toList

/-- The log line ends inside the character. -/
theorem not_transparent_accent : ¬Transparent 0 accentAt119 [] [] true [(logsAll, 0)] := by
  rintro ⟨after, result, hmatch, -⟩
  have hpanic : matchQuery 0 accentAt119 [] [] true [(logsAll, 0)] = none := by
    rw [matchQuery_eq, if_pos (by decide +kernel)]
  rw [hpanic] at hmatch
  cases hmatch

end DrawnRules

end TurbineProxy
