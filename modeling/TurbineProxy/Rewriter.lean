import TurbineProxy.BackendPool

/-!
# The rewrite rules

`rewriter.rs`: an ordered list of rules, of which the first whose pattern matches is applied. The
`regex` crate is not part of the proxy: a compiled expression is a pair of functions.
-/

namespace TurbineProxy

open Str

/-- `regex::Regex`: what the proxy uses of a compiled expression. -/
structure Regex where
  /-- `is_match` -/
  isMatch : Str → Bool
  /-- `replace_all(text, replacement)` -/
  replaceAll : Str → Str → Str

/-! ## Text -/

/-- `char::is_ascii_whitespace` -/
def isAsciiWhitespace (c : Char) : Bool :=
  let n := c.toNat
  n == 0x20 || n == 0x09 || n == 0x0A || n == 0x0C || n == 0x0D

/-- `str::split_at` by a byte index. An index inside a character, where the source panics, counts as the one after it;
`splitAtChecked` tells the two apart. -/
def splitAtByte (n : Nat) : Str → Str × Str
  | [] => ([], [])
  | c :: s =>
    if n = 0 then ([], c :: s)
    else
      let r := splitAtByte (n - (utf8Char c).length) s
      (c :: r.1, r.2)

/-- `inject_timeout_hint`: after the first word of a SELECT that has no such hint. -/
def injectTimeoutHint (sql : Str) (ms : Nat) : Str :=
  let trimmed := trimStart sql
  if !startsWith (toUppercase trimmed) "SELECT" then sql
  else if contains sql "MAX_EXECUTION_TIME" then sql
  else
    let hint := "/*+ MAX_EXECUTION_TIME(".toList ++ decimal ms ++ ") */ ".toList
    let word := trimmed.takeWhile fun c => !(isAsciiWhitespace c || c == '/')
    -- without a second word the hint goes after six bytes
    let selectEnd := if word = trimmed then 6 else max (toUtf8 word).length 6
    let halves := splitAtByte selectEnd trimmed
    halves.1 ++ hint ++ halves.2

/-- `enforce_limit`: at the end of a SELECT without a LIMIT, in place of its semicolons. -/
def enforceLimit (sql : Str) (n : Nat) : Str :=
  if !startsWith (toUppercase (trimStart sql)) "SELECT" then sql
  else
    let upper := toUppercase sql
    if contains upper " LIMIT " || endsWith (trimEnd upper) "LIMIT" then sql
    else trimEndMatches ';' (trimEnd sql) ++ " LIMIT ".toList ++ decimal n

example : enforceLimit "select * from t;".toList 10 = "select * from t LIMIT 10".toList := by
  decide +kernel

/-! ## Rules -/

/-- `rewriter::CompiledRule` -/
structure RewriteRule where
  /-- the queries it is for -/
  pattern : Regex
  /-- substitute for the pattern -/
  replaceWith : Option Str
  /-- force a LIMIT -/
  addLimit : Option Nat
  /-- force an execution time limit, in milliseconds -/
  addTimeoutMs : Option Nat
  /-- reject the query -/
  block : Bool
  /-- told to the client of a rejected query -/
  comment : Str

namespace RewriteRule

variable (rule : RewriteRule)

/-- The error of a rejected query. -/
def message : Str :=
  if rule.comment.isEmpty then "Query blocked by rewrite rule".toList
  else "Query blocked by rewrite rule: ".toList ++ rule.comment

/-- The text a rule that does not reject makes of a query: substitution, time limit, LIMIT. Texts in which the time limit
would be put inside a character, where the source panics, are outside; `TimeoutHint.lean` says which they are. -/
def transform (sql : Str) : Str :=
  let result := rule.replaceWith.elim sql (rule.pattern.replaceAll sql)
  let result := rule.addTimeoutMs.elim result (injectTimeoutHint result)
  rule.addLimit.elim result (enforceLimit result)

end RewriteRule

/-- `Rewriter`: the compiled rules, in order. -/
abbrev Rewriter : Type := List RewriteRule

/-- `Rewriter::apply`: the first rule that matches. -/
def Rewriter.apply : Rewriter → Str → RewriteOutcome
  | [], _ => .unchanged
  | rule :: rest, sql =>
    if !rule.pattern.isMatch sql then Rewriter.apply rest sql
    else if rule.block then .blocked rule.message
    else .rewritten (rule.transform sql)

/-- The rule that decides on a query. -/
def Rewriter.ruleFor (rules : Rewriter) (sql : Str) : Option RewriteRule :=
  rules.find? fun rule => rule.pattern.isMatch sql

/-- What `apply` answers depends on one rule only. -/
theorem Rewriter.apply_eq (rules : Rewriter) (sql : Str) :
    rules.apply sql = match rules.ruleFor sql with
      | none => .unchanged
      | some rule => if rule.block then .blocked rule.message else .rewritten (rule.transform sql) := by
  induction rules with
  | nil => rfl
  | cons rule rest ih =>
    cases hmatch : rule.pattern.isMatch sql with
    | false => simp only [Rewriter.apply, Rewriter.ruleFor, List.find?_cons, hmatch] at ih ⊢; exact ih
    | true => simp only [Rewriter.apply, Rewriter.ruleFor, List.find?_cons, hmatch]; rfl

end TurbineProxy
